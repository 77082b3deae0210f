import SceneCode.Proofs.Tailwind.Looks

namespace SceneCode

namespace Aspect

def run? : Aspect → Option TextRun
  | .typography run _ => some run
  | _ => none

/-- The runs that a look is typed by. -/
def runs (look : List Aspect) : List TextRun :=
  look.filterMap run?

theorem runs_append (look rest : List Aspect) : runs (look ++ rest) = runs look ++ runs rest :=
  List.filterMap_append

theorem mem_runs {run : TextRun} {look : List Aspect} : run ∈ runs look ↔ ∃ fill, .typography run fill ∈ look := by
  constructor
  · intro h
    obtain ⟨a, ha, hr⟩ := List.mem_filterMap.mp h
    cases a with
    | typography run' fill =>
      obtain rfl := Option.some.inj hr
      exact ⟨fill, ha⟩
    | _ => cases hr
  · intro ⟨fill, h⟩
    exact List.mem_filterMap.mpr ⟨_, h, rfl⟩

theorem Typeless.runs_eq {look : List Aspect} (h : Typeless look) : runs look = [] := by
  apply List.eq_nil_iff_forall_not_mem.mpr
  intro run hr
  obtain ⟨fill, hm⟩ := mem_runs.mp hr
  exact h _ hm run fill rfl

theorem runs_typography (s : Subject) (run : TextRun) : runs (s.typography run) = [run] :=
  rfl

end Aspect

namespace Target
open Aspect (Typeless)

/-- These style maps are those of looks that the runs type, in their order, at most one each. -/
def Typesets (t : Target) (runs : List TextRun) (styles : List Styles) : Prop :=
  ∃ looks : List (List Aspect), styles = looks.map t.styles ∧ looks.flatMap Aspect.runs = runs ∧
    ∀ look ∈ looks, (Aspect.runs look).length ≤ 1

namespace Typesets
variable {t : Target} {runs runs' : List TextRun} {styles styles' : List Styles}

theorem nil : Typesets t [] [] :=
  ⟨[], rfl, rfl, List.forall_mem_nil _⟩

theorem append (h : Typesets t runs styles) (h' : Typesets t runs' styles') :
    Typesets t (runs ++ runs') (styles ++ styles') := by
  obtain ⟨looks, rfl, rfl, hl⟩ := h
  obtain ⟨looks', rfl, rfl, hl'⟩ := h'
  exact ⟨looks ++ looks', List.map_append.symm, List.flatMap_append, List.forall_mem_append.mpr ⟨hl, hl'⟩⟩

/-- A look in front that no run types. -/
theorem cons (h : Typesets t runs styles) {look : List Aspect} (hl : Typeless look) :
    Typesets t runs (t.styles look :: styles) := by
  have he := hl.runs_eq
  obtain ⟨looks, rfl, rfl, hs⟩ := h
  refine ⟨look :: looks, rfl, ?_, List.forall_mem_cons.mpr ⟨?_, hs⟩⟩
  · rw [List.flatMap_cons, he, List.nil_append]
  · rw [he]
    exact Nat.zero_le 1

theorem single {look : List Aspect} {run : TextRun} (h : Aspect.runs look = [run]) :
    Typesets t [run] [t.styles look] := by
  refine ⟨[look], rfl, ?_, List.forall_mem_singleton.mpr ?_⟩
  · rw [List.flatMap_singleton, h]
  · rw [h]
    exact Nat.le_refl 1

end Typesets

variable (t : Target)

theorem typesets_runs (base : Base) (runs : List TextRun) : Typesets t runs (runs.map (t.runStyles base)) := by
  induction runs with
  | nil => exact .nil
  | cons run runs ih =>
    have hr : Typesets t [run] [t.runStyles base run] := .single (Aspect.runs_typography _ run)
    exact hr.append ih

theorem typesets_text (slot : Slot Float) (base : Base) (box : TextBox) :
    Typesets t box.shownRuns (t.textElement slot base box).stylesIn := by
  have hl : Typeless ((Subject.ofBase base).placement slot (Hug.ofText box) ++ Subject.textAlign box) :=
    Subject.typeless_append.mpr ⟨Subject.typeless_placement _ _ _, by simp [Typeless, Subject.textAlign]⟩
  have he := t.element_styles (.text slot base box)
  simp only [element, textElement, Piece.aspects, Piece.onlyRun] at he ⊢
  rcases hr : box.shownRuns with _ | ⟨run, _ | ⟨run', runs⟩⟩
  · exact Typesets.nil.cons hl
  · rw [hr] at he
    have hs : Aspect.runs ((Subject.ofBase base).placement slot (Hug.ofText box) ++ Subject.textAlign box ++
        (Subject.ofBase base).typography run) = [run] := by
      rw [Aspect.runs_append, hl.runs_eq, Aspect.runs_typography, List.nil_append]
    have ht : Typesets t [run] [t.styles ((Subject.ofBase base).placement slot (Hug.ofText box) ++
        Subject.textAlign box ++ (Subject.ofBase base).typography run)] := .single hs
    rw [← he] at ht
    exact ht
  · have hs := (t.typesets_runs base (run :: run' :: runs)).cons hl
    simpa [Element.stylesIn, blockStyles] using hs

variable {t} in
/-- The map of an element itself goes in front, which no run types unless the element is a text. -/
theorem Typesets.headed {runs : List TextRun} {styles : List Styles} (h : Typesets t runs styles) {p : Piece Float}
    (hp : ∀ slot base box, p ≠ .text slot base box) : Typesets t runs ((t.element p).styles :: styles) := by
  rw [element_styles]
  exact h.cons (typeless_aspects hp)

mutual
/-- The runs of a piece type the style maps of its element. -/
theorem typesets_element (p : Piece Float) : Typesets t p.runs (t.element p).stylesIn := by
  cases p with
  | frame slot base flow clips children =>
    have hs := (typesets_elements children).headed (p := .frame slot base flow clips children) (by simp)
    simp only [element, Piece.runs, Element.stylesIn, Element.styles] at hs ⊢
    exact hs
  | group slot base children =>
    have hs := (typesets_elements children).headed (p := .group slot base children) (by simp)
    simp only [element, Piece.runs, Element.stylesIn, Element.styles] at hs ⊢
    exact hs
  | shape slot base ellipse =>
    have hs := (Typesets.nil (t := t)).headed (p := .shape slot base ellipse) (by simp)
    simp only [element, shapeElement, Piece.runs] at hs ⊢
    split at hs <;> rename_i hi <;> rw [Element.styles] at hs
    · rw [if_pos hi, Element.stylesIn]
      exact hs
    · rw [if_neg hi, Element.stylesIn, Element.stylesInAll]
      exact hs
  | line slot base =>
    have hs := (Typesets.nil (t := t)).headed (p := .line slot base) (by simp)
    simp only [element, Piece.runs, Element.stylesIn, Element.stylesInAll, Element.styles] at hs ⊢
    exact hs
  | text slot base box =>
    rw [element, Piece.runs]
    exact t.typesets_text slot base box

theorem typesets_elements (ps : List (Piece Float)) :
    Typesets t (Piece.runsAll ps) (Element.stylesInAll (t.elements ps)) := by
  cases ps with
  | nil => exact .nil
  | cons p ps =>
    rw [Piece.runsAll, elements, Element.stylesInAll]
    exact (typesets_element p).append (typesets_elements ps)
end

end Target
end SceneCode
