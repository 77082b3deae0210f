import SceneCode.Proofs.Style.Painted

namespace SceneCode

namespace Aspect

/-- The address of an image, or the family of a font. -/
def texts : Aspect → List String
  | .background (.image _) width height => [placeholderUrl width height]
  | .typography run _ => [run.fontName.family]
  | _ => []

end Aspect

namespace Target

variable (t : Target)

/-- What a run says, and the font it says it in. -/
def runTexts (run : TextRun) : List String :=
  [t.textContent run.textCase run.characters, run.fontName.family]

/-- The runs that a text is written with. An only one leaves its styles to the text. -/
def runsOf (base : Base) (box : TextBox) : List Run :=
  let content (run : TextRun) := t.textContent run.textCase run.characters
  match box.shownRuns with
  | [run] => [⟨content run, none⟩]
  | runs => runs.map fun run => ⟨content run, some (t.runStyles base run)⟩

variable {t} in
/-- A run that is styled has the styles of its type. -/
theorem exists_runStyles {base : Base} {box : TextBox} {run : Run} {s : Styles} (h : run ∈ t.runsOf base box)
    (hs : run.styles = some s) : ∃ r, s = t.runStyles base r := by
  unfold runsOf at h
  dsimp only at h
  split at h
  · rw [List.mem_singleton.mp h] at hs
    cases hs
  · obtain ⟨r, -, rfl⟩ := List.mem_map.mp h
    exact ⟨r, (Option.some.inj hs).symm⟩

theorem textElement_eq (slot : Slot Float) (base : Base) (box : TextBox) :
    t.textElement slot base box =
      .text base.name (t.styles (Piece.text slot base box).aspects) (t.runsOf base box) := by
  rw [← t.element_styles, element, textElement, runsOf]
  rcases box.shownRuns with _ | ⟨run, _ | ⟨run', runs⟩⟩ <;> rfl

theorem shapeElement_eq (slot : Slot Float) (base : Base) (ellipse : Bool) :
    let s := t.styles (Piece.shape slot base ellipse).aspects
    t.shapeElement slot base ellipse =
      if Fill.isImage base.fills then .image base.name s (placeholderUrl base.width base.height)
      else .container base.name s [] := by
  dsimp only
  rw [← t.element_styles, element, shapeElement]
  split <;> rfl

end Target

/-- The address of the image that covers a box, if one does. -/
def Fill.texts (paints : List Paint) (width height : Float) : List String :=
  if isImage paints then [placeholderUrl width height] else []

namespace Piece

mutual
/-- A view has its modifiers behind its content, a widget has its decoration in front of it. -/
def texts (t : Target) : Piece Float → List String
  | .frame _ base _ _ children =>
    let backdrop := Fill.texts base.fills base.width base.height
    if t = .swiftUI then textsInAll t children ++ backdrop else backdrop ++ textsInAll t children
  | .group _ _ children => textsInAll t children
  | .shape _ base _ => Fill.texts base.fills base.width base.height
  | .line _ base => Fill.texts base.strokes base.width base.strokeWeight
  | .text _ _ box => box.shownRuns.flatMap t.runTexts

def textsInAll (t : Target) : List (Piece Float) → List String
  | [] => []
  | piece :: pieces => piece.texts t ++ textsInAll t pieces
end

end Piece

theorem Subject.fill_texts (s : Subject) (paints : List Paint) :
    (s.fill paints).flatMap Aspect.texts = Fill.texts paints s.width s.height := by
  unfold Subject.fill Fill.texts Fill.top? Fill.isImage
  cases Paint.top? paints with
  | none => rfl
  | some paint =>
    cases paint with
    | gradient kind p => cases kind <;> rfl
    | _ => rfl

/-- The value of a key holds the texts of what paints an element, and nothing else sets the key. -/
structure Target.Voices (t : Target) (textsOf : String → List String) (key : String) : Prop where
  mine : ∀ a : Aspect, a.paints = false → key ∉ t.keysOf a
  texts_eq : ∀ a, ∀ d ∈ t.declarations a, d.key = key → textsOf d.value = a.texts

namespace Target.Voices
variable {t : Target} {textsOf : String → List String} {key : String} (h : t.Voices textsOf key) {aspects : List Aspect}
include h

theorem silent (hp : ∀ a ∈ aspects.filter Aspect.paints, key ∉ t.keysOf a) :
    ((t.styles aspects).get? key).toList.flatMap textsOf = [] := by
  have hc : (t.styles aspects).contains key = false := by
    refine Bool.eq_false_iff.mpr fun hc => ?_
    obtain ⟨a, ha, hk⟩ := (t.contains_styles aspects key).mp hc
    obtain ⟨d, hd, rfl⟩ := List.mem_map.mp hk
    have hm := t.key_mem_keysOf a hd
    cases hpa : a.paints with
    | true => exact hp a (List.mem_filter.mpr ⟨ha, hpa⟩) hm
    | false => exact h.mine a hpa hm
  rw [Styles.get?_eq_none_iff.mpr hc]
  rfl

theorem unpainted (hp : aspects.filter Aspect.paints = []) :
    ((t.styles aspects).get? key).toList.flatMap textsOf = [] := by
  refine h.silent fun a ha => ?_
  rw [hp] at ha
  cases ha

theorem painted {a : Aspect} (hp : aspects.filter Aspect.paints = [a])
    (ha : a.texts ≠ [] → key ∈ (t.declarations a).map (·.key)) :
    ((t.styles aspects).get? key).toList.flatMap textsOf = a.texts := by
  have hm {b : Aspect} : b ∈ aspects ∧ b.paints = true ↔ b = a := by
    rw [← List.mem_filter, hp, List.mem_singleton]
  cases hg : (t.styles aspects).get? key with
  | none =>
    by_contra hn
    have hc := (t.contains_styles aspects key).mpr ⟨a, (hm.mpr rfl).1, ha (Ne.symm hn)⟩
    rw [Styles.contains, hg] at hc
    cases hc
  | some v =>
    obtain ⟨b, hb, d, hd, he⟩ := exists_of_mem_entries (Styles.mem_entries_of_get? hg)
    obtain ⟨hk, rfl⟩ := Prod.mk.inj he
    have hpb : b.paints = true := by
      by_contra hn
      exact h.mine b (Bool.eq_false_iff.mpr hn) (hk ▸ t.key_mem_keysOf b hd)
    obtain rfl := hm.mp ⟨hb, hpb⟩
    rw [Option.toList_some, List.flatMap_singleton]
    exact h.texts_eq b d hd hk

theorem fill (hi : ∀ mode width height, key ∈ (t.declarations (.background (.image mode) width height)).map (·.key))
    {s : Subject} {paints : List Paint} (hp : aspects.filter Aspect.paints = s.fill paints) :
    ((t.styles aspects).get? key).toList.flatMap textsOf = Fill.texts paints s.width s.height := by
  rw [← s.fill_texts paints]
  unfold Subject.fill at hp ⊢
  cases hf : Fill.top? paints with
  | none =>
    rw [hf] at hp
    exact h.unpainted hp
  | some fill =>
    rw [hf] at hp
    refine (h.painted hp fun hn => ?_).trans (List.append_nil _).symm
    cases fill with
    | image mode => exact hi mode s.width s.height
    | solid => exact absurd rfl hn
    | gradient => exact absurd rfl hn

theorem typography (hi : ∀ run color, key ∈ (t.declarations (.typography run color)).map (·.key)) {s : Subject}
    {run : TextRun} (hp : aspects.filter Aspect.paints = s.typography run) :
    ((t.styles aspects).get? key).toList.flatMap textsOf = [run.fontName.family] :=
  h.painted hp fun _ => hi run (s.textColor run)

end Target.Voices
end SceneCode
