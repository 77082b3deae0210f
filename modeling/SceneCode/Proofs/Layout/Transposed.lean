import SceneCode.Proofs.Layout.Aligned
import SceneCode.Style.Subject

namespace SceneCode

def Padding.transpose (p : Padding) : Padding where
  top := p.left
  right := p.bottom
  bottom := p.right
  left := p.top

def Spacing.transpose (s : Spacing) : Spacing :=
  { s with padding := s.padding.transpose }

def Flow.transpose (f : Flow) : Flow :=
  { f.toSpacing.transpose with direction := f.direction.across }

def AutoLayout.transpose (l : AutoLayout) : AutoLayout :=
  { l.toSpacing.transpose with mode := l.mode.map (·.across) }

def Base.transpose (b : Base) : Base :=
  { b with x := b.y, y := b.x, width := b.height, height := b.width }

mutual
def Node.transpose : Node → Node
  | .frame base layout hint clips children =>
    .frame base.transpose layout.transpose (hint.map (·.transpose)) clips (Node.transposeAll children)
  | .group base children => .group base.transpose (Node.transposeAll children)
  | .shape kind base => .shape kind base.transpose
  | .text base box => .text base.transpose box
  | .unknown => .unknown

def Node.transposeAll : List Node → List Node
  | [] => []
  | node :: nodes => node.transpose :: Node.transposeAll nodes
end

section
variable {α : Type}

def Box.transpose (b : Box α) : Box α where
  x := b.y
  y := b.x
  width := b.height
  height := b.width

def Inference.transpose (i : Inference α) : Inference α where
  direction := i.direction.across
  gap := i.gap
  top := i.left
  right := i.bottom
  bottom := i.right
  left := i.top
  cross := i.cross

def Point.transpose (p : Point α) : Point α where
  x := p.y
  y := p.x

def Slot.transpose : Slot α → Slot α
  | .top => .top
  | .inFlow flow => .inFlow flow.transpose
  | .free origin => .free origin.transpose

end

def Hug.transpose (h : Hug) : Hug where
  width := h.height
  height := h.width

def Size.transpose (s : Size) : Size where
  width := s.height
  height := s.width
  within := s.within.map (·.across)

def Subject.transpose (s : Subject) : Subject where
  base := s.base.transpose
  width := s.height
  height := s.width

@[simp] theorem Direction.across_across (d : Direction) : d.across.across = d := by
  cases d <;> rfl

namespace Box
variable {α : Type} (d : Direction) (b : Box α)

@[simp] theorem start_transpose : b.transpose.start d = b.start d.across := by
  cases d <;> rfl

@[simp] theorem extent_transpose : b.transpose.extent d = b.extent d.across := by
  cases d <;> rfl

variable [Length α]

@[simp] theorem finish_transpose : b.transpose.finish d = b.finish d.across := by
  simp only [finish, start_transpose, extent_transpose]

@[simp] theorem middle_transpose : b.transpose.middle d = b.middle d.across := by
  simp only [middle, start_transpose, extent_transpose]

end Box

namespace Infer
variable {α : Type} [Length α] {width height : α} (d : Direction) (boxes : List (Box α))

theorem pairs_map {β γ : Type} (f : β → γ) (xs : List β) : pairs (xs.map f) = (pairs xs).map (Prod.map f f) := by
  rw [pairs, pairs, ← List.map_tail, List.zip_map]

theorem isSequential_transpose : isSequential d (boxes.map Box.transpose) = isSequential d.across boxes := by
  simp only [isSequential, pairs_map, List.all_map, Function.comp_def, Prod.map, Box.finish_transpose,
    Box.start_transpose]

theorem gaps_transpose : gaps d (boxes.map Box.transpose) = gaps d.across boxes := by
  simp only [gaps, pairs_map, List.map_map, Function.comp_def, Prod.map, Box.finish_transpose, Box.start_transpose]

theorem alignment_transpose : alignment d (boxes.map Box.transpose) = alignment d.across boxes := by
  simp only [alignment, List.map_map, Function.comp_def, Box.finish_transpose, Box.start_transpose,
    Box.middle_transpose]

theorem along_transpose :
    along height width (boxes.map Box.transpose) d.across = (along width height boxes d).transpose := by
  have hr : Direction.row.across = .column := rfl
  have hc : Direction.column.across = .row := rfl
  simp only [along, Inference.transpose, gaps_transpose, alignment_transpose, d.across_across, hr, hc, List.map_map,
    Function.comp_def, Box.finish_transpose, Box.start_transpose]

/-- Boxes that could be taken for a row as well as for a column. -/
def isEitherWay (boxes : List (Box α)) : Bool :=
  2 ≤ boxes.length && isSequential .row boxes && isSequential .column boxes

theorem infer_eq_bind (width height : α) : infer width height boxes =
    if 2 ≤ boxes.length then
      (direction? boxes).bind fun d => if isEven (gaps d boxes) then some (along width height boxes d) else none
    else none := by
  refine Option.ext fun i => ?_
  rw [infer_eq_some_iff]
  split
  · simp [*, Option.bind_eq_some_iff]
  · simp [*]

variable {boxes}

theorem direction?_transpose (hl : 2 ≤ boxes.length) (h : isEitherWay boxes = false) :
    direction? (boxes.map Box.transpose) = (direction? boxes).map (·.across) := by
  simp only [isEitherWay, hl, decide_true, Bool.true_and] at h
  simp only [direction?, isSequential_transpose]
  cases hr : isSequential .row boxes <;> cases hc : isSequential .column boxes <;> simp_all [Direction.across]

/-- Only of boxes that could be either is a row guessed before a column. -/
theorem infer_transpose (h : isEitherWay boxes = false) :
    infer height width (boxes.map Box.transpose) = (infer width height boxes).map (·.transpose) := by
  rw [infer_eq_bind, infer_eq_bind, List.length_map]
  by_cases hl : 2 ≤ boxes.length
  · rw [if_pos hl, if_pos hl, direction?_transpose hl h, Option.bind_map]
    cases direction? boxes with
    | none => rfl
    | some d =>
      simp only [Option.bind_some, Function.comp_apply, gaps_transpose, d.across_across, along_transpose]
      split <;> rfl
  · rw [if_neg hl, if_neg hl]
    rfl

end Infer

namespace Node

theorem transposeAll_eq_map (ns : List Node) : transposeAll ns = ns.map transpose := by
  induction ns with
  | nil => rfl
  | cons n ns ih => rw [transposeAll, ih, List.map_cons]

theorem base?_transpose (n : Node) : n.transpose.base? = n.base?.map (·.transpose) := by
  cases n <;> simp [transpose, base?]

end Node

namespace Layout

/-- The children that are hidden stay hidden. -/
theorem visibleBases_transposeAll (ns : List Node) :
    visibleBases (Node.transposeAll ns) = (visibleBases ns).map (·.transpose) := by
  have hb : (Node.transposeAll ns).filterMap (·.base?) = (ns.filterMap (·.base?)).map (·.transpose) := by
    rw [Node.transposeAll_eq_map, List.filterMap_map, List.map_filterMap]
    exact List.filterMap_congr fun n _ => n.base?_transpose
  rw [visibleBases, hb, List.filter_map]
  rfl

theorem boxes_transposeAll (ns : List Node) : boxes (Node.transposeAll ns) = (boxes ns).map Box.transpose := by
  rw [boxes, visibleBases_transposeAll, List.map_map, boxes, List.map_map]
  rfl

theorem infer_transpose (base : Base) {children : List Node} (h : Infer.isEitherWay (boxes children) = false) :
    infer base.transpose (Node.transposeAll children) = (infer base children).map (·.transpose) := by
  have hi : Infer.infer base.height base.width ((boxes children).map Box.transpose) =
      (Infer.infer base.width base.height (boxes children)).map (·.transpose) := Infer.infer_transpose h
  rw [infer, boxes_transposeAll, infer, Option.map_map]
  change (Infer.infer base.height base.width _).map ofInference = _
  rw [hi, Option.map_map]
  rfl

theorem flow?_transpose (l : AutoLayout) : l.transpose.flow? = l.flow?.map (·.transpose) := by
  rw [AutoLayout.flow?, AutoLayout.flow?, Option.map_map, AutoLayout.transpose, Option.map_map]
  rfl

theorem resolve_transpose (followHint : Bool) (declared : AutoLayout) (hint : Option AutoLayout) :
    resolve followHint declared.transpose (hint.map (·.transpose)) =
      (resolve followHint declared hint).map (·.transpose) := by
  have hh : (hint.map (·.transpose)).bind (·.flow?) = (hint.bind (·.flow?)).map (·.transpose) := by
    cases hint with
    | none => rfl
    | some hint => exact flow?_transpose hint
  rw [resolve, resolve, flow?_transpose, hh]
  cases declared.flow? <;> cases followHint <;> rfl

end Layout

theorem Flow.hugs_transpose (f : Flow) :
    f.transpose.hugsWidth = f.hugsHeight ∧ f.transpose.hugsHeight = f.hugsWidth := by
  cases hd : f.direction <;>
    simp [Flow.transpose, Flow.hugsWidth, Flow.hugsHeight, hd, Direction.across, Spacing.transpose]

theorem Size.roles_transpose (s : Size) :
    s.transpose.widthIsPrimary = s.heightIsPrimary ∧ s.transpose.heightIsPrimary = s.widthIsPrimary := by
  obtain ⟨width, height, within⟩ := s
  cases within with
  | none => exact ⟨rfl, rfl⟩
  | some d => cases d <;> exact ⟨rfl, rfl⟩

theorem Subject.sizeIn_transpose {α : Type} (s : Subject) (slot : Slot α) (hug : Hug) :
    s.transpose.sizeIn slot.transpose hug.transpose = (s.sizeIn slot hug).transpose := by
  cases slot with
  | top => rfl
  | free origin => rfl
  | inFlow flow =>
    obtain ⟨spacing, direction⟩ := flow
    cases direction <;> rfl

/-- With the axes exchanged a frame is guessed to be laid out as before, with the axes exchanged, unless its children
could be a row as well as a column. What it comes to from what it says, the axes on which it is as large as its content
and the size of a child, which fills a flow along it or across it, are exchanged in any case. -/
theorem axes_are_alike (base : Base) (layout : AutoLayout) (hint : Option AutoLayout) (children : List Node) :
    (Infer.isEitherWay (Layout.boxes children) = false →
      Layout.infer base.transpose (Node.transposeAll children) = (Layout.infer base children).map (·.transpose)) ∧
    (∀ followHint, Layout.resolve followHint layout.transpose (hint.map (·.transpose)) =
      (Layout.resolve followHint layout hint).map (·.transpose)) ∧
    (∀ flow : Flow, flow.transpose.hugsWidth = flow.hugsHeight ∧ flow.transpose.hugsHeight = flow.hugsWidth) ∧
    (∀ (s : Subject) (slot : Slot Float) (hug : Hug), ∃ size : Size, s.size slot hug = [.size size] ∧
      s.transpose.size slot.transpose hug.transpose = [.size size.transpose] ∧
      size.transpose.widthIsPrimary = size.heightIsPrimary ∧
      size.transpose.heightIsPrimary = size.widthIsPrimary) := by
  refine ⟨Layout.infer_transpose base, fun followHint => Layout.resolve_transpose followHint layout hint,
    Flow.hugs_transpose, fun s slot hug => ⟨s.sizeIn slot hug, rfl, ?_, (s.sizeIn slot hug).roles_transpose⟩⟩
  rw [Subject.size, s.sizeIn_transpose]

/-- Two buttons with a title between them. -/
def toolbar : List Node :=
  [.shape .rectangle (.named "Back" 8 4 24 24), .shape .rectangle (.named "Title" 40 8 80 16),
    .shape .rectangle (.named "Menu" 128 4 24 24)]

/-- Upright they are guessed to be a column, as they were guessed to be a row. -/
theorem toolbar_upright : Infer.isEitherWay (Layout.boxes toolbar) = false ∧
    ∃ hint, Layout.infer (.named "Toolbar" 0 0 160 32) toolbar = some hint ∧ hint.mode = some .row ∧
      Layout.infer (.named "Toolbar" 0 0 32 160) (Node.transposeAll toolbar) = some hint.transpose := by
  have hn : Infer.isEitherWay (Layout.boxes toolbar) = false := by decide +kernel
  have hr : ((Layout.infer (.named "Toolbar" 0 0 160 32) toolbar).map (·.mode)) = some (some .row) := by decide +kernel
  obtain ⟨hint, hi, hm⟩ := Option.map_eq_some_iff.mp hr
  have ht := (axes_are_alike (.named "Toolbar" 0 0 160 32) {} none toolbar).1 hn
  rw [hi, Option.map_some] at ht
  exact ⟨hn, hint, hi, hm, ht⟩

/-- Of steps that could be either, a row is guessed both times. -/
example :
    let steps : List Node := [.shape .rectangle (.named "A" 0 0 40 40), .shape .rectangle (.named "B" 50 50 40 40)]
    (Layout.infer (.named "Steps" 0 0 90 90) steps).map (·.mode) = some (some .row) ∧
      (Layout.infer (.named "Steps" 0 0 90 90) (Node.transposeAll steps)).map (·.mode) = some (some .row) := by
  decide +kernel

end SceneCode
