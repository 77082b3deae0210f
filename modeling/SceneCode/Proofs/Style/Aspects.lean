import SceneCode.Proofs.Scene.Drawn
import SceneCode.Proofs.Target.Keys

namespace SceneCode

/-- Says where an element or its children go, not what it looks like. -/
def Aspect.places : Aspect → Bool
  | .size _ | .position .. | .flow _ | .origin => true
  | _ => false

/-- What says how large an element is, where it stands and how it is seen through and turned. -/
def Aspect.IsPlacement : Aspect → Prop
  | .size _ | .position .. | .blend .. => True
  | _ => False

namespace Subject
variable (s : Subject)

theorem isPlacement_placement (slot : Slot Float) (hug : Hug) : ∀ a ∈ s.placement slot hug, a.IsPlacement := by
  intro a ha
  simp only [placement, size, coordinates, blend, List.mem_append] at ha
  rcases ha with (ha | ha) | ha
  · rw [List.mem_singleton.mp ha]
    trivial
  · split at ha
    · rw [List.mem_singleton.mp ha]
      trivial
    · cases ha
  · split at ha
    · cases ha
    · rw [List.mem_singleton.mp ha]
      trivial

theorem shape_places (look : ShapeLook) : (s.shape look).filter Aspect.places = [] := by
  simp only [shape, fill, List.filter_append, List.append_eq_nil_iff, List.filter_eq_nil_iff]
  refine ⟨⟨⟨⟨?_, ?_⟩, ?_⟩, ?_⟩, ?_⟩ <;> try split
  all_goals simp [Aspect.places]

theorem line_places : s.line.filter Aspect.places = [] := by
  simp [line, fill, List.filter_eq_nil_iff, Aspect.places]

theorem blend_places : s.blend.filter Aspect.places = [] := by
  unfold blend
  split <;> rfl

theorem clip_places (clips : Bool) : (clip clips).filter Aspect.places = [] := by
  cases clips <;> rfl

theorem layout_places (flow : Option Flow) (hasChildren : Bool) :
    (layout flow hasChildren).filter Aspect.places = layout flow hasChildren := by
  cases flow <;> cases hasChildren <;> rfl

theorem placement_places (slot : Slot Float) (hug : Hug) :
    (s.placement slot hug).filter Aspect.places = s.size slot hug ++ s.coordinates slot := by
  have hc : (s.coordinates slot).filter Aspect.places = s.coordinates slot := by
    unfold coordinates
    split <;> rfl
  have hs : (s.size slot hug).filter Aspect.places = s.size slot hug := rfl
  simp [placement, List.filter_append, blend_places, hc, hs]

end Subject

namespace Piece

def shapeLook (base : Base) (ellipse : Bool) : ShapeLook :=
  if Fill.isImage base.fills then .image else if ellipse then .ellipse else .box

/-- The type of an only run is that of the whole text. -/
def onlyRun (s : Subject) (box : TextBox) : List Aspect :=
  match box.shownRuns with
  | [run] => s.typography run
  | _ => []

def aspects : Piece Float → List Aspect
  | .frame slot base flow clips children =>
    let s := Subject.ofBase base
    s.placement slot (Hug.ofFlow flow) ++ s.shape .box ++ Subject.clip clips ++
      Subject.layout flow !children.isEmpty
  | .group slot base _ =>
    let s := Subject.ofBase base
    (if slot.isTop then s.blend else s.placement slot {}) ++ [.origin]
  | .shape slot base ellipse =>
    let s := Subject.ofBase base
    s.placement slot {} ++ s.shape (shapeLook base ellipse)
  | .line slot base => base.bar.placement slot {} ++ base.bar.line
  | .text slot base box =>
    let s := Subject.ofBase base
    s.placement slot (Hug.ofText box) ++ Subject.textAlign box ++ onlyRun s box

/-- A group that nothing is around has no size of its own. -/
def size : Piece Float → List Aspect
  | .frame slot base flow _ _ => (Subject.ofBase base).size slot (Hug.ofFlow flow)
  | .group slot base _ => if slot.isTop then [] else (Subject.ofBase base).size slot {}
  | .shape slot base _ => (Subject.ofBase base).size slot {}
  | .line slot base => base.bar.size slot {}
  | .text slot base box => (Subject.ofBase base).size slot (Hug.ofText box)

/-- How the children of an element are arranged. -/
def layout {α : Type} : Piece α → List Aspect
  | .frame _ _ flow _ children => Subject.layout flow !children.isEmpty
  | .group .. => [.origin]
  | _ => []

/-- An element is placed by its slot and arranges its children, and says both once. -/
theorem aspects_places (p : Piece Float) :
    p.aspects.filter Aspect.places = p.size ++ (Subject.ofBase p.base).coordinates p.slot ++ p.layout := by
  cases p with
  | frame slot base flow clips children =>
    simp [aspects, List.filter_append, Subject.placement_places, Subject.shape_places, Subject.clip_places,
      Subject.layout_places, size, layout, Piece.slot, Piece.base]
  | group slot base children =>
    cases slot <;>
      simp [aspects, List.filter_append, Subject.placement_places, Subject.blend_places, size, layout, Piece.slot,
        Piece.base, Slot.isTop, Aspect.places, Subject.coordinates, Slot.coordinates?]
  | shape slot base ellipse =>
    simp [aspects, List.filter_append, Subject.placement_places, Subject.shape_places, size, layout, Piece.slot,
      Piece.base]
  | line slot base =>
    simp [aspects, List.filter_append, Subject.placement_places, Subject.line_places, size, layout, Piece.slot,
      Piece.base, Base.bar, Subject.ofBase, Subject.coordinates]
  | text slot base box =>
    have hr : (onlyRun (Subject.ofBase base) box).filter Aspect.places = [] := by
      unfold onlyRun
      split <;> rfl
    have ha : (Subject.textAlign box).filter Aspect.places = [] := rfl
    simp [aspects, List.filter_append, Subject.placement_places, hr, ha, size, layout, Piece.slot, Piece.base]

theorem mem_aspects {p : Piece Float} {a : Aspect} (h : a.places = true) :
    a ∈ p.aspects ↔ a ∈ p.size ∨ a ∈ (Subject.ofBase p.base).coordinates p.slot ∨ a ∈ p.layout := by
  have hm : a ∈ p.aspects ↔ a ∈ p.aspects.filter Aspect.places := by simp [List.mem_filter, h]
  rw [hm, aspects_places, List.mem_append, List.mem_append, or_assoc]

theorem exists_size {p : Piece Float} {a : Aspect} (h : a ∈ p.size) :
    ∃ (s : Subject) (hug : Hug), a = .size (s.sizeIn p.slot hug) := by
  cases p with
  | group slot base children =>
    simp only [size] at h
    split at h
    · cases h
    · exact ⟨_, _, List.mem_singleton.mp h⟩
  | _ => exact ⟨_, _, List.mem_singleton.mp h⟩

/-- The coordinates that a piece gets from its slot, if any. -/
def offset? {α : Type} [Sub α] (position : Base → Point α) (p : Piece α) : Option (Point α) :=
  p.slot.coordinates? (position p.base)

/-- The coordinates of an element are those that its slot gives it. -/
theorem position_mem {p : Piece Float} {x y : Float} :
    .position x y ∈ p.aspects ↔ p.offset? Base.position = some ⟨x, y⟩ := by
  have hs : .position x y ∉ p.size := fun h => by
    obtain ⟨s, hug, he⟩ := exists_size h
    cases he
  have hl : .position x y ∉ p.layout := by
    cases p <;> simp [layout, Subject.layout]
    split <;> simp
  rw [mem_aspects rfl]
  simp only [hs, hl, Subject.coordinates, Subject.ofBase, false_or, or_false, offset?]
  cases p.slot.coordinates? p.base.position with
  | none => simp
  | some c =>
    obtain ⟨x', y'⟩ := c
    simp [eq_comm]

end Piece

namespace Target

/-- The styles of an element are those of its aspects. -/
theorem element_styles (t : Target) (p : Piece Float) : (t.element p).styles = t.styles p.aspects := by
  cases p with
  | shape slot base ellipse =>
    simp only [element, shapeElement, Piece.aspects, Piece.shapeLook]
    split <;> rfl
  | text slot base box =>
    simp only [element, textElement, Piece.aspects, Piece.onlyRun]
    rcases box.shownRuns with _ | ⟨run, _ | ⟨run', runs⟩⟩
    · simp only [List.append_nil]
      rfl
    · have ht := Styles.merge_declareAll (t.blockStyles slot base box) .empty
        fun d hd => (t.declarations_within (a := .typography run ((Subject.ofBase base).textColor run)) nofun d hd).2
      simp only [Subject.typography, styles_append]
      exact ht
    · simp only [List.append_nil]
      rfl
  | _ => rfl

end Target
end SceneCode
