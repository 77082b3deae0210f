import Mathlib.Data.List.TakeWhile
import SceneCode.Color.Basic
import SceneCode.Proofs.Text.Characters

namespace SceneCode.Number

def isNumberChar (c : Char) : Bool :=
  c.isAlphanum || c = '-' || c = '.'

variable {c : Char}

theorem isNumberChar_of_isDigit (h : c.isDigit = true) : isNumberChar c = true := by
  simp [isNumberChar, Char.isAlphanum, h]

theorem isNumberChar_of_mem_digits {n : Nat} (h : c ∈ digits n) : isNumberChar c = true :=
  isNumberChar_of_isDigit (Nat.isDigit_of_mem_toDigits (by decide) (by decide) h)

theorem isNumberChar_of_mem_ofInt {n : Int} (h : c ∈ ofInt n) : isNumberChar c = true := by
  cases n with
  | ofNat n => exact isNumberChar_of_mem_digits h
  | negSucc n =>
    rcases List.mem_cons.mp h with rfl | h
    · decide
    · exact isNumberChar_of_mem_digits h

theorem isNumberChar_of_mem_padded {width n : Nat} (h : c ∈ padded width n) : isNumberChar c = true := by
  rcases List.mem_append.mp h with h | h
  · rw [List.eq_of_mem_replicate h]
    decide
  · exact isNumberChar_of_mem_digits h

theorem isNumberChar_of_mem_minus {negative : Bool} (h : c ∈ minus negative) : isNumberChar c = true := by
  cases negative with
  | false => cases h
  | true =>
    rw [List.mem_singleton.mp h]
    decide

theorem isNumberChar_of_mem_fixedChars {places : Nat} {x : Float} (h : c ∈ fixedChars places x) :
    isNumberChar c = true := by
  unfold fixedChars at h
  split at h
  · rcases List.mem_append.mp h with h | h
    · rcases List.mem_append.mp h with h | h
      · exact isNumberChar_of_mem_minus h
      · exact isNumberChar_of_mem_digits h
    · split at h
      · cases h
      · rcases List.mem_cons.mp h with rfl | h
        · decide
        · exact isNumberChar_of_mem_padded h
  · rcases List.mem_append.mp h with h | h
    · exact isNumberChar_of_mem_minus h
    · have hs : ∀ c ∈ ['i', 'n', 'f'], isNumberChar c = true := by decide
      exact hs c h
  · have hs : ∀ c ∈ ['N', 'a', 'N'], isNumberChar c = true := by decide
    exact hs c h

theorem isNumberChar_of_mem_text {x : Float} (h : c ∈ (text x).toList) : isNumberChar c = true := by
  have h : c ∈ chars x := by simpa [text] using h
  dsimp only [chars] at h
  split at h
  · exact isNumberChar_of_mem_ofInt h
  · simp only [dropTrailingZeros, List.mem_reverse] at h
    have hf : c ∈ fixedChars 2 (hundredths x) := List.mem_reverse.mp ((List.dropWhile_sublist _).mem h)
    exact isNumberChar_of_mem_fixedChars hf

theorem isNumberChar_of_mem_repr_nat {n : Nat} (h : c ∈ n.repr.toList) : isNumberChar c = true := by
  rw [Nat.toList_repr] at h
  exact isNumberChar_of_mem_digits h

theorem isNumberChar_of_mem_repr_int {n : Int} (h : c ∈ n.repr.toList) : isNumberChar c = true := by
  cases n with
  | ofNat n => exact isNumberChar_of_mem_repr_nat h
  | negSucc n =>
    have h : c ∈ ("-" ++ (n + 1).repr).toList := h
    rw [String.toList_append] at h
    rcases List.mem_append.mp h with h | h
    · have hs : ∀ c ∈ "-".toList, isNumberChar c = true := by decide
      exact hs c h
    · exact isNumberChar_of_mem_repr_nat h

theorem isNumberChar_hexDigit (n : Nat) : isNumberChar (Rgb.hexDigit n) = true := by
  have hd : ∀ k < 16, isNumberChar (Nat.digitChar k).toUpper = true := by decide
  exact hd (n % 16) (Nat.mod_lt n (by decide))

theorem isNumberChar_of_mem_hexByte {n : Nat} (h : c ∈ (Rgb.hexByte n).toList) : isNumberChar c = true := by
  rw [Rgb.hexByte, String.toList_ofList] at h
  simp only [List.mem_cons, List.not_mem_nil, or_false] at h
  rcases h with rfl | rfl <;> exact isNumberChar_hexDigit _

theorem isNumberChar_of_mem_hex6 {color : Rgb} (h : c ∈ color.hex6.toList) : isNumberChar c = true := by
  rw [Rgb.hex6, String.toList_join] at h
  obtain ⟨v, hv, hc⟩ := List.mem_flatMap.mp h
  obtain ⟨n, -, rfl⟩ := List.mem_map.mp hv
  exact isNumberChar_of_mem_hexByte hc

theorem digits_ne_nil (n : Nat) : digits n ≠ [] :=
  List.ne_nil_of_length_pos Nat.length_toDigits_pos

theorem ofInt_ne_nil (n : Int) : ofInt n ≠ [] := by
  cases n with
  | ofNat n => exact digits_ne_nil n
  | negSucc n => exact List.cons_ne_nil _ _

theorem dropTrailingZeros_ne_nil {cs : List Char} (hc : c ∈ cs) (h : c ≠ '0') : dropTrailingZeros cs ≠ [] := by
  intro he
  rw [dropTrailingZeros, List.reverse_eq_nil_iff, List.dropWhile_eq_nil_iff] at he
  exact h (beq_iff_eq.mp (he c (List.mem_reverse.mpr hc)))

theorem text_ne_empty (x : Float) : text x ≠ "" := by
  intro he
  have h : chars x = [] := by simpa [text] using congrArg String.toList he
  dsimp only [chars] at h
  split at h
  · exact ofInt_ne_nil _ h
  · obtain ⟨c, hc, hz⟩ : ∃ c ∈ fixedChars 2 (hundredths x), c ≠ '0' := by
      unfold fixedChars
      split
      · exact ⟨'.', by simp, by decide⟩
      · exact ⟨'f', by simp, by decide⟩
      · exact ⟨'N', by simp, by decide⟩
    exact dropTrailingZeros_ne_nil hc hz h

end SceneCode.Number
