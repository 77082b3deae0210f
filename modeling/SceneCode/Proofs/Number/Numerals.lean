import SceneCode.Proofs.Number.Characters
import SceneCode.Proofs.Number.Hundredths
import SceneCode.Text.Quoted

namespace SceneCode.Number

/-- Decimals that are written at all end in another digit than zero. -/
def AreDecimals (cs : List Char) : Prop :=
  cs.length ≤ 2 ∧ (∀ c ∈ cs, c.isDigit = true) ∧ cs.getLast? ≠ some '0'

instance (cs : List Char) : Decidable (AreDecimals cs) :=
  inferInstanceAs (Decidable (_ ∧ _ ∧ _))

/-- Digits, perhaps behind a minus sign, and perhaps decimals behind a point. Zero has no minus sign. -/
structure Numeral where
  negative : Bool
  whole : List Char
  decimals : List Char
  whole_ne_nil : whole ≠ []
  isDigit_of_mem_whole : ∀ c ∈ whole, c.isDigit = true
  areDecimals : AreDecimals decimals
  no_negative_zero : negative = true → decimals = [] → whole ≠ ['0']

namespace Numeral

def chars (n : Numeral) : List Char :=
  minus n.negative ++ n.whole ++ (if n.decimals = [] then [] else '.' :: n.decimals)

/-- A numeral ends in a digit. -/
theorem isDigit_getLast (n : Numeral) : ∃ c, n.chars.getLast? = some c ∧ c.isDigit = true := by
  unfold chars
  split
  · rw [List.append_nil, List.getLast?_append_of_ne_nil _ n.whole_ne_nil]
    exact ⟨_, List.getLast?_eq_some_getLast n.whole_ne_nil,
      n.isDigit_of_mem_whole _ (List.getLast_mem n.whole_ne_nil)⟩
  · rename_i h
    rw [List.getLast?_append_of_ne_nil _ (List.cons_ne_nil _ _), List.getLast?_cons_of_ne_nil h]
    exact ⟨_, List.getLast?_eq_some_getLast h, n.areDecimals.2.1 _ (List.getLast_mem h)⟩

theorem chars_ne_negative_zero (n : Numeral) : n.chars ≠ ['-', '0'] := by
  intro h
  obtain ⟨c, cs, hw⟩ := List.exists_cons_of_ne_nil n.whole_ne_nil
  have hd := n.isDigit_of_mem_whole
  have h0 := n.no_negative_zero
  rw [chars, hw] at h
  rw [hw] at hd h0
  cases hn : n.negative with
  | false =>
    rw [hn] at h
    have hc : c = '-' := (List.cons.inj h).1
    exact absurd (hd c List.mem_cons_self) (by rw [hc]; decide)
  | true =>
    rw [hn] at h
    obtain ⟨hc, htail⟩ := List.cons.inj (List.cons.inj h).2
    obtain ⟨hcs, htail⟩ := List.append_eq_nil_iff.mp htail
    refine h0 hn ?_ (by rw [hc, hcs])
    by_contra hne
    rw [if_neg hne] at htail
    cases htail

end Numeral

theorem digits_eq_zero {n : ℕ} (h : digits n = ['0']) : n = 0 := by
  have hn := Nat.ofDigitChars_toDigits (by decide : 1 < 10) (by decide) (n := n)
  rw [digits] at h
  rw [h] at hn
  exact hn.symm

theorem ofInt_eq_chars (n : ℤ) : ∃ numeral : Numeral, ofInt n = numeral.chars := by
  have hd {n : ℕ} : ∀ c ∈ digits n, c.isDigit = true := fun _ h => Nat.isDigit_of_mem_toDigits (by decide) (by decide) h
  cases n with
  | ofNat n =>
    exact ⟨⟨false, digits n, [], digits_ne_nil n, hd, by decide, fun h => absurd h Bool.false_ne_true⟩,
      (List.append_nil _).symm⟩
  | negSucc n =>
    exact ⟨⟨true, digits (n + 1), [], digits_ne_nil _, hd, by decide, fun _ _ h => absurd (digits_eq_zero h) (by omega)⟩,
      (List.append_nil _).symm⟩

theorem areDecimals_padded : ∀ n < 100, n ≠ 0 →
    dropTrailingZeros (padded 2 n) ≠ [] ∧ AreDecimals (dropTrailingZeros (padded 2 n)) := by
  decide +kernel

theorem dropTrailingZeros_append {xs ys : List Char} (h : dropTrailingZeros ys ≠ []) :
    dropTrailingZeros (xs ++ ys) = xs ++ dropTrailingZeros ys := by
  have hd : ys.reverse.dropWhile (· == '0') ≠ [] := mt List.reverse_eq_nil_iff.mpr h
  rw [dropTrailingZeros, List.reverse_append, List.dropWhile_append, if_neg (by simpa using hd), List.reverse_append,
    List.reverse_reverse]
  rfl

/-- What numbers are written as: infinity, no number at all, or a numeral. -/
theorem chars_cases (x : Float) :
    chars x = ['i', 'n', 'f'] ∨ chars x = ['-', 'i', 'n', 'f'] ∨ chars x = ['N', 'a', 'N'] ∨
      ∃ n : Numeral, chars x = n.chars := by
  unfold chars
  dsimp only
  split
  · exact .inr (.inr (.inr (ofInt_eq_chars _)))
  · rename_i hw
    have hw := Bool.eq_false_of_not_eq_true hw
    unfold fixedChars
    split
    · rename_i negative m e hr
      right; right; right
      change ∃ n : Numeral, dropTrailingZeros (minus negative ++ digits (wholeUnits .halfEven (m * 100) e / 100) ++
        '.' :: padded 2 (wholeUnits .halfEven (m * 100) e % 100)) = n.chars
      generalize hs : wholeUnits .halfEven (m * 100) e = scaled
      have h0 : scaled % 100 ≠ 0 := hs ▸ decimals_ne_zero hr hw
      obtain ⟨hne, hd⟩ := areDecimals_padded (scaled % 100) (Nat.mod_lt _ (by decide)) h0
      have he : dropTrailingZeros (minus negative ++ digits (scaled / 100) ++ '.' :: padded 2 (scaled % 100)) =
          minus negative ++ digits (scaled / 100) ++ '.' :: dropTrailingZeros (padded 2 (scaled % 100)) := by
        rw [List.append_cons, dropTrailingZeros_append hne, ← List.append_cons]
      rw [he]
      refine ⟨⟨negative, digits (scaled / 100), dropTrailingZeros (padded 2 (scaled % 100)), digits_ne_nil _,
        fun _ h => Nat.isDigit_of_mem_toDigits (by decide) (by decide) h, hd, fun _ h => absurd h hne⟩, ?_⟩
      rw [Numeral.chars, if_neg hne]
    · rename_i negative _
      cases negative
      · exact .inl (by decide)
      · exact .inr (.inl (by decide))
    · exact .inr (.inr (.inl (by decide)))

/-- The characters that some target has to escape in text, attributes, style objects or string literals. -/
def special : List Char :=
  ['&', '<', '>', '"', '\'', '\\', '$', '\x7b', '\x7d', '\n']

theorem ne_of_mem_special {c d : Char} (hd : d ∈ special) (hc : isNumberChar c = true) : c ≠ d := by
  have hs : ∀ d ∈ special, isNumberChar d = false := by decide
  rintro rfl
  exact absurd (hc.symm.trans (hs c hd)) (by decide)

/-- A text that stands in code as it is: nothing separates it into words, and no target has to escape any of it. -/
structure Unescaped (s : String) : Prop where
  chars : ∀ c ∈ s.toList, isNumberChar c = true ∧ c ∉ special
  inAttribute : Text.escapeAttribute s = s
  inMarkup : ∀ jsx, Text.escapeMarkup jsx s = s
  inStyle : Text.singleQuoted s = "'" ++ s ++ "'"
  inDart : Text.dart s = "'" ++ s ++ "'"
  inSwift : Text.swift s = "\"" ++ s ++ "\""

theorem ofList_flatMap_eq {escape : Char → List Char} {s : String} (hs : ∀ c ∈ s.toList, isNumberChar c = true)
    (h : ∀ c, (∀ d ∈ special, c ≠ d) → escape c = [c]) : String.ofList (s.toList.flatMap escape) = s := by
  have hf : s.toList.flatMap escape = s.toList.flatMap fun c => [c] :=
    List.flatMap_congr fun c hc => h c fun _ hd => ne_of_mem_special hd (hs c hc)
  rw [hf, List.flatMap_singleton', String.ofList_toList]

theorem Unescaped.of_numberChars {s : String} (hs : ∀ c ∈ s.toList, isNumberChar c = true) : Unescaped s where
  chars c hc := ⟨hs c hc, fun h => ne_of_mem_special h (hs c hc) rfl⟩
  inAttribute := ofList_flatMap_eq hs fun c hc => by
    simp only [special, List.forall_mem_cons] at hc
    simp [Text.escapeAttributeChar, hc]
  inMarkup jsx := ofList_flatMap_eq hs fun c hc => by
    simp only [special, List.forall_mem_cons] at hc
    simp [Text.escapeMarkupChar, hc]
  inStyle := by
    rw [Text.singleQuoted, ofList_flatMap_eq hs fun c hc => ?_]
    simp only [special, List.forall_mem_cons] at hc
    simp [Text.escapeSingleQuoteChar, hc]
  inDart := by
    rw [Text.dart, ofList_flatMap_eq hs fun c hc => ?_]
    simp only [special, List.forall_mem_cons] at hc
    simp [Text.escapeDartChar, hc]
  inSwift := by
    rw [Text.swift, ofList_flatMap_eq hs fun c hc => ?_]
    simp only [special, List.forall_mem_cons] at hc
    simp [Text.escapeSwiftChar, hc]

/-- Every number is written as a numeral with at most two decimals, the last of them not zero, or it is said to be
infinite or no number. It is never a negative zero, ends in no point and stands as it is in the code of any target. -/
theorem text_is_numeral (x : Float) :
    (text x = "inf" ∨ text x = "-inf" ∨ text x = "NaN" ∨ ∃ n : Numeral, text x = String.ofList n.chars) ∧
      text x ≠ "-0" ∧ (text x).toList.getLast? ≠ some '.' ∧ Unescaped (text x) := by
  refine ⟨?_, ?_, ?_, .of_numberChars fun _ => isNumberChar_of_mem_text⟩
  · unfold text
    rcases chars_cases x with h | h | h | ⟨n, h⟩ <;> rw [h]
    · exact .inl rfl
    · exact .inr (.inl rfl)
    · exact .inr (.inr (.inl rfl))
    · exact .inr (.inr (.inr ⟨n, rfl⟩))
  · intro h
    have h : chars x = ['-', '0'] := by simpa [text] using congrArg String.toList h
    rcases chars_cases x with hc | hc | hc | ⟨n, hc⟩ <;> rw [hc] at h
    · cases h
    · cases h
    · cases h
    · exact n.chars_ne_negative_zero h
  · rw [text, String.toList_ofList]
    rcases chars_cases x with h | h | h | ⟨n, h⟩ <;> rw [h]
    · decide
    · decide
    · decide
    · obtain ⟨c, hl, hd⟩ := n.isDigit_getLast
      rw [hl]
      rintro ⟨⟩
      exact absurd hd (by decide)

end SceneCode.Number
