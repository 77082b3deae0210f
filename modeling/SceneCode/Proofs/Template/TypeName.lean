import Mathlib.Data.List.DropRight
import SceneCode.Proofs.Template.Widget
import SceneCode.Proofs.Text.Numeric
import SceneCode.Proofs.Text.Words

/-! The type that code is wrapped in is named for a layer. The name is never empty, but a type cannot have all of them.
Cleaning keeps every letter and numeral, and only `0` to `9` get a letter in front. A mark that is alphanumeric holds on
to the blank it stands on, so that no word ends there. Some letters get a mark of another kind as their case changes. -/
namespace SceneCode
namespace Text

/-- Letters and numerals, of which the first is no numeral. -/
structure IsTypeName (name : List Char) : Prop where
  alphanumeric : ∀ c ∈ name, isAlphanumeric c = true
  first : ∃ c ∈ name.head?, isNumeric c = false

/-- A word of letters and numerals that has no others either once it is capitalized. -/
structure Capitalizes (word : List Char) : Prop where
  blank : ' ' ∉ word
  first : ∀ c ∈ word.head?, c.toNat ∉ Table.markedCapitals
  later : 'İ' ∉ word.tail

/-- What is left of a name: the characters that belong in one, and blanks for the others. -/
def IsCleaned (cs : List Char) : Prop :=
  ∀ c ∈ cs, isAlphanumeric c = true ∨ c = ' '

theorem not_mem_separators {c : Char} (h : isAlphanumeric c = true) : c ∉ ['-', '_', ' '] := by
  intro hm
  have hn : ∀ c ∈ ['-', '_', ' '], isAlphanumeric c = false := by decide +kernel
  rw [hn c hm] at h
  cases h

theorem ne_blank_of_isAlphanumeric {c : Char} (h : isAlphanumeric c = true) : c ≠ ' ' := by
  rintro rfl
  exact not_mem_separators h (by simp)

/-- The only letter of which the lower case has a mark. -/
theorem forall_lower_iff_ne {c : Char} (h : isAlphanumeric c = true) :
    (∀ d ∈ lower c, isAlphanumeric d = true) ↔ c ≠ 'İ' := by
  rw [forall_lower_iff h, List.mem_singleton]
  exact not_congr (Char.toNat_inj (d := 'İ'))

theorem forall_lowerAfter_iff {before cs : List Char} (h : IsCleaned cs) :
    (∀ d ∈ lowerAfter before cs, isAlphanumeric d = true) ↔ ' ' ∉ cs ∧ 'İ' ∉ cs := by
  induction cs generalizing before with
  | nil => simp [lowerAfter]
  | cons c cs ih =>
    have hc : (∀ d ∈ if isFinalSigma before cs c then ['ς'] else lower c, isAlphanumeric d = true) ↔
        c ≠ ' ' ∧ c ≠ 'İ' := by
      split
      · rename_i hs
        simp only [isFinalSigma, Bool.and_eq_true, beq_iff_eq] at hs
        obtain rfl := hs.1.1
        decide +kernel
      · rcases h c List.mem_cons_self with ha | rfl
        · rw [forall_lower_iff_ne ha, and_iff_right (ne_blank_of_isAlphanumeric ha)]
        · decide +kernel
    rw [lowerAfter, List.forall_mem_append, hc, ih fun d hd => h d (List.mem_cons_of_mem c hd)]
    simp only [List.mem_cons, not_or]
    grind

theorem forall_capitalized_iff {word : List Char} (h : IsCleaned word) :
    (∀ d ∈ capitalized word, isAlphanumeric d = true) ↔ Capitalizes word := by
  cases word with
  | nil => exact iff_of_true (by simp [capitalized]) ⟨by simp, by simp, by simp⟩
  | cons c rest =>
    have hc : (∀ d ∈ upper c, isAlphanumeric d = true) ↔ c ≠ ' ' ∧ c.toNat ∉ Table.markedCapitals := by
      rcases h c List.mem_cons_self with ha | rfl
      · rw [forall_upper_iff ha, and_iff_right (ne_blank_of_isAlphanumeric ha)]
      · decide +kernel
    rw [capitalized, lowerText, List.forall_mem_append, hc,
      forall_lowerAfter_iff fun d hd => h d (List.mem_cons_of_mem c hd)]
    constructor
    · rintro ⟨⟨hb, hm⟩, hbs, hl⟩
      exact ⟨by simp [hbs, hb.symm], by simpa using hm, hl⟩
    · rintro ⟨hb, hm, hl⟩
      simp only [List.mem_cons, not_or] at hb
      exact ⟨⟨Ne.symm hb.1, hm c rfl⟩, hb.2, hl⟩

theorem forall_pascalCase_iff {cs : List Char} (h : IsCleaned cs) :
    (∀ d ∈ pascalCase cs, isAlphanumeric d = true) ↔ ∀ word ∈ wordsOf cs, Capitalizes word := by
  rw [pascalCase, List.forall_mem_flatMap]
  exact forall₂_congr fun word hw => forall_capitalized_iff fun c hc => h c (mem_of_mem_wordsOf hw hc)

/-- The first capital stands in front. -/
theorem pascalCase_cons {c : Char} (h : isAlphanumeric c = true) (cs : List Char) :
    ∃ d rest, pascalCase (c :: cs) = d :: rest ∧ isNumeric d = isNumeric c := by
  obtain ⟨word, words, hw⟩ := wordsOf_cons (not_mem_separators h) cs
  obtain ⟨d, rest, hu, hn⟩ := head_upper c
  refine ⟨d, rest ++ lowerText word ++ words.flatMap capitalized, ?_, hn⟩
  simp [pascalCase, hw, capitalized, hu]

/-- Trimming leaves nothing blank in front. -/
theorem head_trim {cs rest : List Char} {c : Char} (h : trim cs = c :: rest) : isBlank c = false := by
  have hp : trim cs <+: trimStart cs := List.rdropWhile_prefix isBlank (trimStart cs)
  obtain ⟨more, he⟩ := hp
  have hd := List.head?_dropWhile_not isBlank cs
  rw [h] at he
  have hs : cs.dropWhile isBlank = c :: (rest ++ more) := he.symm
  rwa [hs] at hd

theorem mem_of_mem_trim {cs : List Char} {c : Char} (h : c ∈ trim cs) : c ∈ cs :=
  (List.dropWhile_suffix isBlank).subset ((List.rdropWhile_prefix isBlank (trimStart cs)).subset h)

end Text

namespace Wrap
open Text

/-- A name of some characters, of which the first is a letter or numeral. -/
theorem componentName_cons (layer : List Char) :
    IsCleaned (componentName layer) ∧ ∃ c cs, componentName layer = c :: cs ∧ isAlphanumeric c = true := by
  have hm {c : Char} (h : c ∈ trim (layer.map fun c => if isAlphanumeric c then c else ' ')) :
      isAlphanumeric c = true ∨ c = ' ' := by
    obtain ⟨d, -, rfl⟩ := List.mem_map.mp (mem_of_mem_trim h)
    split
    · rename_i ha
      exact .inl ha
    · exact .inr rfl
  have hc : IsCleaned "Component ".toList := by
    unfold IsCleaned
    decide +kernel
  unfold componentName
  split
  · exact ⟨by unfold IsCleaned; decide +kernel, 'C', "omponent".toList, rfl, by decide +kernel⟩
  · rename_i c cs ht
    rw [ht] at hm
    split
    · exact ⟨fun d hd => (List.mem_append.mp hd).elim (hc d) hm, 'C', "omponent ".toList ++ c :: cs, rfl,
        by decide +kernel⟩
    · refine ⟨fun d => hm, c, cs, rfl, (hm List.mem_cons_self).resolve_right ?_⟩
      rintro rfl
      cases head_trim ht

/-- There is a name for every layer, and a type can have it just if the cleaned name of the layer does not start with a
numeral and each of its words stays free of marks and blanks. -/
theorem isTypeName_className_iff (layer : String) :
    className layer ≠ "" ∧
    (IsTypeName (className layer).toList ↔
      (∀ c ∈ (componentName layer.toList).head?, isNumeric c = false) ∧
      ∀ word ∈ wordsOf (componentName layer.toList), Capitalizes word) := by
  obtain ⟨hc, c, cs, he, ha⟩ := componentName_cons layer.toList
  obtain ⟨d, rest, hp, hn⟩ := pascalCase_cons ha cs
  rw [className, String.toList_ofList]
  refine ⟨?_, ?_⟩
  · rw [he, hp]
    intro h
    have hl := congrArg String.toList h
    rw [String.toList_ofList] at hl
    cases hl
  · rw [← forall_pascalCase_iff hc, he, hp]
    constructor
    · rintro ⟨ha, hf⟩
      exact ⟨by simpa [hn] using hf, ha⟩
    · rintro ⟨hf, ha⟩
      exact ⟨ha, by simpa [hn] using hf⟩

/-- Arabic-Indic digits count as numerals but get no letter in front. -/
example : className "٣ col" = "٣Col" ∧ isNumeric '٣' = true := by decide +kernel

end Wrap
end SceneCode
