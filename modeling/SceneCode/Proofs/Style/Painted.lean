import SceneCode.Proofs.Style.Values

namespace SceneCode

/-- Puts a fill on an element, or a colour on its text. -/
def Aspect.paints : Aspect → Bool
  | .background .. | .typography .. => true
  | _ => false

namespace Subject
variable (s : Subject)

theorem placement_paints (slot : Slot Float) (hug : Hug) : (s.placement slot hug).filter Aspect.paints = [] := by
  have hc : (s.coordinates slot).filter Aspect.paints = [] := by
    unfold coordinates
    split <;> rfl
  have hb : s.blend.filter Aspect.paints = [] := by
    unfold blend
    split <;> rfl
  have hs : (s.size slot hug).filter Aspect.paints = [] := rfl
  simp [placement, List.filter_append, hc, hb, hs]

theorem fill_paints (paints : List Paint) : (s.fill paints).filter Aspect.paints = s.fill paints := by
  rw [List.filter_eq_self]
  intro a ha
  obtain ⟨fill, -, rfl⟩ := List.mem_map.mp ha
  rfl

theorem shape_paints (look : ShapeLook) :
    (s.shape look).filter Aspect.paints = if look = .image then [] else s.fill s.base.fills := by
  have hr : ((s.base.radius? (look == .ellipse)).toList.map (Aspect.radius · s.width s.height)).filter Aspect.paints =
    [] := by simp [List.filter_eq_nil_iff, Aspect.paints]
  have hb : (s.base.stroke?.toList.map Aspect.border).filter Aspect.paints = [] := by
    simp [List.filter_eq_nil_iff, Aspect.paints]
  simp only [shape, List.filter_append, hr, hb, apply_ite (List.filter Aspect.paints), fill_paints]
  simp [Aspect.paints]

theorem clip_paints (clips : Bool) : (clip clips).filter Aspect.paints = [] := by
  cases clips <;> rfl

theorem layout_paints (flow : Option Flow) (hasChildren : Bool) : (layout flow hasChildren).filter Aspect.paints = [] := by
  cases flow <;> cases hasChildren <;> rfl

end Subject

namespace Piece

/-- What paints a piece: the fill of its box, the stroke of a line, or the type of an only run. -/
def paint : Piece Float → List Aspect
  | .frame _ base .. => (Subject.ofBase base).fill base.fills
  | .group .. => []
  | .shape _ base _ => if Fill.isImage base.fills then [] else (Subject.ofBase base).fill base.fills
  | .line _ base => base.bar.line
  | .text _ base box => onlyRun (Subject.ofBase base) box

theorem aspects_paints (p : Piece Float) : p.aspects.filter Aspect.paints = p.paint := by
  cases p with
  | frame slot base flow clips children =>
    simp [aspects, paint, List.filter_append, Subject.placement_paints, Subject.shape_paints, Subject.clip_paints,
      Subject.layout_paints, Subject.ofBase]
  | group slot base children =>
    have hb : (Subject.ofBase base).blend.filter Aspect.paints = [] := by
      unfold Subject.blend
      split <;> rfl
    simp [aspects, paint, List.filter_append, apply_ite (List.filter Aspect.paints), Subject.placement_paints, hb,
      Aspect.paints]
  | shape slot base ellipse =>
    simp only [aspects, paint, shapeLook, List.filter_append, Subject.placement_paints, Subject.shape_paints]
    cases Fill.isImage base.fills <;> cases ellipse <;> simp [Subject.ofBase]
  | line slot base =>
    simp [aspects, paint, List.filter_append, Subject.placement_paints, Subject.line, Subject.fill_paints]
  | text slot base box =>
    have hr : (onlyRun (Subject.ofBase base) box).filter Aspect.paints = onlyRun (Subject.ofBase base) box := by
      unfold onlyRun
      split <;> rfl
    have ha : (Subject.textAlign box).filter Aspect.paints = [] := rfl
    simp [aspects, paint, List.filter_append, Subject.placement_paints, hr, ha]

end Piece

/-- Whatever sets the key sets it to the value. -/
def Declaration.Only (key value : String) (ds : List Declaration) : Prop :=
  ∀ d ∈ ds, d.key = key → d.value = value

namespace Declaration
variable {key value : String} {ds es : List Declaration}

@[simp] theorem only_nil : Only key value [] :=
  fun _ h => absurd h List.not_mem_nil

@[simp] theorem only_cons_set {k v : String} :
    Only key value (set k v :: ds) ↔ (k = key → v = value) ∧ Only key value ds :=
  List.forall_mem_cons

@[simp] theorem only_append : Only key value (ds ++ es) ↔ Only key value ds ∧ Only key value es :=
  List.forall_mem_append

@[simp] theorem only_ite {c : Prop} [Decidable c] :
    Only key value (if c then ds else es) ↔ (c → Only key value ds) ∧ (¬c → Only key value es) := by
  split <;> simp_all

@[simp] theorem only_map {β : Type} {x : Option β} {f : β → Declaration} :
    Only key value (x.toList.map f) ↔ ∀ b ∈ x, (f b).key = key → (f b).value = value := by
  simp [Only]

end Declaration

namespace Target
open Declaration (Only)
variable (t : Target)

/-- How the colour of a background is kept. -/
def backgroundEntry (color : String) : String × String :=
  match t with
  | .html _ => ("background", color)
  | .tailwind .. => ("background", "bg-" ++ color)
  | .flutter => ("color", color)
  | .swiftUI => ("background", ".background(" ++ color ++ ")")

/-- How a gradient is kept that is a background. -/
def gradientEntry (gradient : String) : String × String :=
  match t with
  | .html _ | .tailwind .. => ("background", gradient)
  | .flutter => ("gradient", gradient)
  | .swiftUI => ("background", ".background(" ++ gradient ++ ")")

/-- How the colour of text is kept. -/
def textEntry (color : String) : String × String :=
  match t with
  | .html _ => ("color", color)
  | .tailwind .. => ("color", "text-" ++ color)
  | .flutter => ("textColor", color)
  | .swiftUI => ("foregroundColor", ".foregroundColor(" ++ color ++ ")")

/-- The entry is what the aspect has to say about its key, and no aspect that does not paint says anything about it. -/
structure Settles (a : Aspect) (e : String × String) : Prop where
  declared : .set e.1 e.2 ∈ t.declarations a
  only : Only e.1 e.2 (t.declarations a)
  mine : ∀ b : Aspect, b.paints = false → e.1 ∉ t.keysOf b

theorem mine_entries (b : Aspect) (hb : b.paints = false) (v : String) :
    (t.backgroundEntry v).1 ∉ t.keysOf b ∧ (t.gradientEntry v).1 ∉ t.keysOf b ∧ (t.textEntry v).1 ∉ t.keysOf b := by
  cases t <;> cases b <;>
    simp_all [Aspect.paints, backgroundEntry, gradientEntry, textEntry, keysOf, Html.keysOf, Tailwind.keysOf,
      Flutter.keysOf, SwiftUI.keysOf]

theorem settles_background (c : Rgb) (opacity width height : Float) :
    t.Settles (.background (.solid c opacity) width height) (t.backgroundEntry (t.color c opacity)) where
  declared := by cases t <;> exact List.mem_singleton_self _
  only := by
    cases t <;> exact Declaration.only_cons_set.mpr ⟨fun _ => rfl, Declaration.only_nil⟩
  mine b hb := (t.mine_entries b hb _).1

theorem settles_gradient (g : LinearGradient) (width height : Float) :
    t.Settles (.background (.gradient g) width height) (t.gradientEntry (t.gradient g)) where
  declared := by cases t <;> exact List.mem_singleton_self _
  only := by
    cases t <;> exact Declaration.only_cons_set.mpr ⟨fun _ => rfl, Declaration.only_nil⟩
  mine b hb := (t.mine_entries b hb _).2.1

theorem settles_text (run : TextRun) (c : Rgb × Float) :
    t.Settles (.typography run (some c)) (t.textEntry (t.color c.1 c.2)) where
  declared := by
    cases t <;> simp [declarations, textEntry, Html.declarations, Html.typography, Tailwind.declarations,
      Tailwind.typography, Flutter.declarations, Flutter.typography, SwiftUI.declarations, SwiftUI.typography, color]
  only := by
    cases t <;> simp [declarations, textEntry, color, Html.declarations, Html.typography, Tailwind.declarations,
      Tailwind.typography, Flutter.declarations, Flutter.typography, SwiftUI.declarations, SwiftUI.typography] <;>
      simp [Declaration.set]
  mine b hb := (t.mine_entries b hb _).2.2

/-- Where one aspect paints, its entry is in the styles. -/
theorem Settles.mem_entries {t : Target} {a : Aspect} {e : String × String} (h : t.Settles a e) {aspects : List Aspect}
    (ha : aspects.filter Aspect.paints = [a]) : e ∈ (t.styles aspects).entries := by
  have hm {b : Aspect} : b ∈ aspects.filter Aspect.paints ↔ b = a := by rw [ha, List.mem_singleton]
  refine Styles.mem_entries_of_get? (get?_styles_of_forall (List.mem_filter.mp (hm.mpr rfl)).1
    (List.mem_map_of_mem h.declared) ?_)
  intro b hb d hd hk
  cases hp : b.paints with
  | false => exact absurd (hk ▸ t.key_mem_keysOf b hd) (h.mine b hp)
  | true =>
    obtain rfl := hm.mp (List.mem_filter.mpr ⟨hb, hp⟩)
    exact h.only d hd hk

end Target
end SceneCode
