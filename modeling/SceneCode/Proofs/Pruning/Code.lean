import SceneCode.Generate
import SceneCode.Proofs.Pruning.Pieces

namespace SceneCode

@[simp] theorem Fill.top?_pruned (paints : List Paint) : Fill.top? (Paint.pruned paints) = Fill.top? paints := by
  simp [top?]

@[simp] theorem Fill.isImage_pruned (paints : List Paint) : Fill.isImage (Paint.pruned paints) = Fill.isImage paints := by
  simp [isImage]

namespace Base

theorem pruned_stroke? (b : Base) : b.pruned.stroke? = b.stroke? := by
  have hs : Paint.top? b.pruned.strokes = Paint.top? b.strokes := Paint.top?_pruned b.strokes
  unfold stroke?
  rw [hs]
  rfl

theorem pruned_shadows (b : Base) : b.pruned.shadows = b.shadows := by
  simp [shadows]

theorem pruned_blur (b : Base) : b.pruned.blur = b.blur := by
  simp [blur]

end Base

namespace Subject

def pruned (s : Subject) : Subject :=
  { s with base := s.base.pruned }

theorem ofBase_pruned (b : Base) : ofBase b.pruned = (ofBase b).pruned := rfl

theorem bar_pruned (b : Base) : b.pruned.bar = b.bar.pruned := rfl

variable (s : Subject)

theorem pruned_placement (slot : Slot Float) (hug : Hug) : s.pruned.placement slot hug = s.placement slot hug := rfl

theorem pruned_fill (paints : List Paint) : s.pruned.fill (Paint.pruned paints) = s.fill paints := by
  unfold fill
  rw [Fill.top?_pruned]
  rfl

theorem pruned_shape (look : ShapeLook) : s.pruned.shape look = s.shape look := by
  have hf : s.pruned.fill s.pruned.base.fills = s.fill s.base.fills := s.pruned_fill s.base.fills
  have hr (ellipse : Bool) : s.pruned.base.radius? ellipse = s.base.radius? ellipse := rfl
  have hs : s.pruned.base.stroke? = s.base.stroke? := s.base.pruned_stroke?
  have hd : s.pruned.base.shadows = s.base.shadows := s.base.pruned_shadows
  have hb : s.pruned.base.blur = s.base.blur := s.base.pruned_blur
  unfold shape
  rw [hf, hr, hs, hd, hb]
  rfl

theorem pruned_line : s.pruned.line = s.line :=
  s.pruned_fill s.base.strokes

theorem pruned_textColor (run : TextRun) : s.pruned.textColor run.pruned = s.textColor run := by
  simp [textColor, pruned, Base.pruned, TextRun.pruned]

end Subject

theorem TextBox.pruned_shownRuns (box : TextBox) : box.pruned.shownRuns = box.shownRuns.map TextRun.pruned := by
  by_cases h : box.runs = []
  · have hp : box.pruned.runs = [] := List.map_eq_nil_iff.mpr h
    rw [shownRuns_of_nil h, shownRuns_of_nil hp]
    rfl
  · have hp : box.pruned.runs ≠ [] := fun hp => h (List.map_eq_nil_iff.mp hp)
    rw [shownRuns_of_ne_nil h, shownRuns_of_ne_nil hp]
    rfl

namespace Target
variable (t : Target)

/-- No target reads the paints of a run. Its colour stands beside it. -/
theorem declarations_pruned (run : TextRun) (fill : Option (Rgb × Float)) :
    t.declarations (.typography run.pruned fill) = t.declarations (.typography run fill) := by
  cases t <;> rfl

theorem runStyles_pruned (base : Base) (run : TextRun) :
    t.runStyles base.pruned run.pruned = t.runStyles base run := by
  simp only [runStyles, styles, Subject.typography, Subject.ofBase_pruned, Subject.pruned_textColor, List.foldl_cons,
    List.foldl_nil, declare, declarations_pruned]

theorem shapeElement_pruned (slot : Slot Float) (base : Base) (ellipse : Bool) :
    t.shapeElement slot base.pruned ellipse = t.shapeElement slot base ellipse := by
  have hi : Fill.isImage base.pruned.fills = Fill.isImage base.fills := Fill.isImage_pruned base.fills
  simp only [shapeElement, shapeStyles, hi, Subject.ofBase_pruned, Subject.pruned_shape, Subject.pruned_placement]
  rfl

theorem textElement_pruned (slot : Slot Float) (base : Base) (box : TextBox) :
    t.textElement slot base.pruned box.pruned = t.textElement slot base box := by
  have hb : t.blockStyles slot base.pruned box.pruned = t.blockStyles slot base box := rfl
  simp only [textElement, hb, TextBox.pruned_shownRuns]
  rcases box.shownRuns with _ | ⟨run, _ | ⟨run', runs⟩⟩
  · rfl
  · simp only [List.map_cons, List.map_nil, runStyles_pruned]
    rfl
  · simp only [List.map_cons, List.map_map, Function.comp_def, runStyles_pruned]
    rfl

mutual
theorem element_pruned : (p : Piece Float) → t.element p.pruned = t.element p
  | .frame slot base flow clips children => by
    have hc := elements_pruned children
    simp only [Piece.pruned, element, hc, Piece.prunedAll_isEmpty, frameStyles, Subject.ofBase_pruned,
      Subject.pruned_shape, Subject.pruned_placement]
    rfl
  | .group slot base children => by
    have hc := elements_pruned children
    simp only [Piece.pruned, element, hc]
    rfl
  | .shape slot base ellipse => t.shapeElement_pruned slot base ellipse
  | .line slot base => by
    simp only [Piece.pruned, element, lineStyles, Subject.bar_pruned, Subject.pruned_line, Subject.pruned_placement]
    rfl
  | .text slot base box => t.textElement_pruned slot base box

theorem elements_pruned : (ps : List (Piece Float)) → t.elements (Piece.prunedAll ps) = t.elements ps
  | [] => rfl
  | p :: ps => by simp only [Piece.prunedAll, elements, element_pruned p, elements_pruned ps]
end

end Target

namespace Layout

theorem visibleBases_eq (ns : List Node) : visibleBases ns = (ns.filter (·.visible)).filterMap (·.base?) := by
  unfold visibleBases
  induction ns with
  | nil => rfl
  | cons n ns ih =>
    cases hb : n.base? with
    | none => simpa [hb, Node.visible] using ih
    | some b => cases hv : b.visible <;> simpa [hb, hv, Node.visible] using ih

theorem visibleBases_append (ns ms : List Node) : visibleBases (ns ++ ms) = visibleBases ns ++ visibleBases ms := by
  simp [visibleBases]

theorem visibleBases_pruned (n : Node) : visibleBases n.pruned = (visibleBases [n]).map Base.pruned := by
  cases n with
  | unknown => rfl
  | _ =>
    simp only [Node.pruned, visibleBases, Node.base?]
    split <;> simp_all

/-- The visible nodes keep their places. -/
theorem visibleBases_prunedAll (ns : List Node) :
    visibleBases (Node.prunedAll ns) = (visibleBases ns).map Base.pruned := by
  induction ns with
  | nil => rfl
  | cons n ns ih =>
    have hn : visibleBases (n :: ns) = visibleBases [n] ++ visibleBases ns := visibleBases_append [n] ns
    rw [Node.prunedAll, visibleBases_append, visibleBases_pruned, ih, hn, List.map_append]

theorem boxes_prunedAll (ns : List Node) : boxes (Node.prunedAll ns) = boxes ns := by
  simp only [boxes, visibleBases_prunedAll, List.map_map]
  rfl

theorem infer_pruned (base : Base) (children : List Node) :
    infer base.pruned (Node.prunedAll children) = infer base children := by
  unfold infer
  rw [boxes_prunedAll]
  rfl

end Layout

namespace Scene

theorem title_eq (nodes : List Node) :
    title nodes = ((Layout.visibleBases nodes).head?.map (·.name)).getD "" := by
  rw [Layout.visibleBases_eq, List.head?_filterMap, title]

theorem title_pruned (nodes : List Node) : title (Node.prunedAll nodes) = title nodes := by
  simp only [title_eq, Layout.visibleBases_prunedAll, List.head?_map, Option.map_map]
  rfl

theorem pieces_pruned (followHints : Bool) (nodes : List Node) :
    pieces followHints (Node.prunedAll nodes) = Piece.prunedAll (pieces followHints nodes) :=
  Node.piecesAll_pruned (fun _ => rfl) followHints .top nodes

end Scene

namespace Node

theorem annotateAll_append (ns ms : List Node) : annotateAll (ns ++ ms) = annotateAll ns ++ annotateAll ms := by
  induction ns with
  | nil => rfl
  | cons n ns ih => simp [annotateAll, ih]

mutual
/-- A guess reads the boxes of the visible children only, so it may come before the pruning or after it. -/
theorem annotateAll_pruned : (n : Node) → annotateAll n.pruned = n.annotate.pruned
  | .frame base layout hint clips children => by
    have hc := annotateAll_prunedAll children
    simp only [pruned, annotate]
    split
    · simp only [annotateAll, annotate, hc, Layout.infer_pruned]
    · rfl
  | .group base children => by
    have hc := annotateAll_prunedAll children
    simp only [pruned, annotate]
    split
    · simp only [annotateAll, annotate, hc]
    · rfl
  | .shape kind base => by
    simp only [pruned, annotate]
    split <;> rfl
  | .text base box => by
    simp only [pruned, annotate]
    split <;> rfl
  | .unknown => rfl

theorem annotateAll_prunedAll : (ns : List Node) → annotateAll (prunedAll ns) = prunedAll (annotateAll ns)
  | [] => rfl
  | n :: ns => by
    rw [prunedAll, annotateAll_append, annotateAll, prunedAll, annotateAll_pruned n, annotateAll_prunedAll ns]
end

end Node

theorem Target.code_pruned (t : Target) (followHints showNames : Bool) (nodes : List Node) :
    t.code followHints showNames (Node.prunedAll nodes) = t.code followHints showNames nodes := by
  unfold code
  rw [Scene.pieces_pruned, elements_pruned]

theorem generate_pruned (s : Settings) (preview : Bool) (nodes : List Node) :
    generate s preview (Node.prunedAll nodes) = generate s preview nodes :=
  (s.target preview).code_pruned s.optimizeLayout s.showLayerNames nodes

theorem generateCode_pruned (s : Settings) (nodes : List Node) :
    generateCode s (Node.prunedAll nodes) = generateCode s nodes := by
  have hm : generateMarked s (Node.prunedAll nodes) = generateMarked s nodes := by
    unfold generateMarked
    rw [generate_pruned]
  unfold generateCode
  rw [hm, Scene.title_pruned]

/-- Whatever the settings are, two scenes have the same code: as it is kept, bare, and in the preview. -/
def SameCode (nodes nodes' : List Node) : Prop :=
  ∀ s : Settings, generateCode s nodes = generateCode s nodes' ∧
    (∀ preview, generate s preview nodes = generate s preview nodes') ∧
    generatePreview s nodes = generatePreview s nodes'

theorem sameCode_pruned (nodes : List Node) : SameCode (Node.prunedAll nodes) nodes := fun s =>
  ⟨generateCode_pruned s nodes, fun preview => generate_pruned s preview nodes,
    generate_pruned { s with framework := .html } true nodes⟩

/-- What cannot be seen is inert, in a scene as it is read and in one whose layouts have been guessed. -/
theorem unseen_data_is_inert (nodes : List Node) :
    SameCode (Node.prunedAll nodes) nodes ∧
    SameCode (Node.annotateAll (Node.prunedAll nodes)) (Node.annotateAll nodes) := by
  refine ⟨sameCode_pruned nodes, ?_⟩
  rw [Node.annotateAll_prunedAll]
  exact sameCode_pruned (Node.annotateAll nodes)

end SceneCode
