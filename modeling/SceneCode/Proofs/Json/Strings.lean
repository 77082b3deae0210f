import SceneCode.Json.Lexeme
import SceneCode.Json.Writer

namespace SceneCode.Json

/-- The front of a text is read as `a`, and the rest of it is left. -/
def Gives {α : Type} {cs : List Char} (step : Step α cs) (a : α) (rest : List Char) : Prop :=
  ∃ h, step = .ok (a, ⟨rest, h⟩)

theorem hexValue_digitChar : ∀ n < 16, hexValue? (Nat.digitChar n) = some n := by
  decide

theorem hexQuad_byte (n : Nat) (hn : n < 256) (rest : List Char) :
    Gives (hexQuad ('0' :: '0' :: hexDigit (n / 16) :: hexDigit n :: rest)) n rest := by
  have hhigh := hexValue_digitChar (n / 16 % 16) (Nat.mod_lt _ (by decide))
  have hlow := hexValue_digitChar (n % 16) (Nat.mod_lt _ (by decide))
  have hzero : hexValue? '0' = some 0 := rfl
  have hsum : ((0 * 16 + 0) * 16 + n / 16 % 16) * 16 + n % 16 = n := by omega
  refine ⟨by simp only [List.length_cons]; omega, ?_⟩
  simp only [hexQuad, hexDigit, hzero, hhigh, hlow, hsum]

theorem unicodeEscape_control (care : Care) {c : Char} (hc : c.toNat < 0x20) (rest : List Char) :
    Gives (unicodeEscape care ('0' :: '0' :: hexDigit (c.toNat / 16) :: hexDigit c.toNat :: rest)) c rest := by
  obtain ⟨h, hquad⟩ := hexQuad_byte c.toNat (by omega) rest
  have hlow : isLowSurrogate c.toNat = false := by simp [isLowSurrogate]; omega
  have hhigh : isHighSurrogate c.toNat = false := by simp [isHighSurrogate]; omega
  refine ⟨h, ?_⟩
  rw [unicodeEscape, hquad]
  cases care <;> simp [bind, Except.bind, pure, Except.pure, hlow, hhigh]

theorem escape_unicode {care : Care} {c : Char} {cs rest : List Char} (h : Gives (unicodeEscape care cs) c rest) :
    Gives (escape care ('u' :: cs)) c rest := by
  obtain ⟨hlt, h⟩ := h
  refine ⟨Nat.lt_succ_of_lt hlt, ?_⟩
  simp only [escape, h]
  rfl

section Strings
variable {care : Care} {front cs rest : List Char} {c e : Char} {s : String}

theorem stringFrom_plain (hquote : c ≠ '"') (hslash : c ≠ '\\') (hcontrol : ¬ c.toNat < 0x20)
    (h : Gives (stringFrom care (c :: front) cs) s rest) : Gives (stringFrom care front (c :: cs)) s rest := by
  obtain ⟨hlt, h⟩ := h
  refine ⟨Nat.lt_succ_of_lt hlt, ?_⟩
  rw [stringFrom, if_neg hquote, if_neg hslash, if_neg hcontrol, h]
  rfl

theorem stringFrom_escape {cs' : List Char} (he : Gives (escape care cs) e cs')
    (h : Gives (stringFrom care (e :: front) cs') s rest) : Gives (stringFrom care front ('\\' :: cs)) s rest := by
  obtain ⟨hlt', he⟩ := he
  obtain ⟨hlt, h⟩ := h
  refine ⟨Nat.lt_succ_of_lt (Nat.lt_trans hlt hlt'), ?_⟩
  rw [stringFrom, if_neg (by decide), if_pos rfl, he]
  simp only [bind, Except.bind, h]
  rfl

/-- One character as it is written, in front of the rest of a string. -/
theorem stringFrom_escapeChar (c : Char) (h : Gives (stringFrom care (c :: front) cs) s rest) :
    Gives (stringFrom care front (escapeChar c ++ cs)) s rest := by
  unfold escapeChar
  by_cases hquote : c = '"'
  · rw [if_pos hquote]
    subst hquote
    exact stringFrom_escape ⟨Nat.lt_succ_self _, rfl⟩ h
  by_cases hslash : c = '\\'
  · rw [if_neg hquote, if_pos hslash]
    subst hslash
    exact stringFrom_escape ⟨Nat.lt_succ_self _, rfl⟩ h
  by_cases hcontrol : c.toNat < 0x20
  · rw [if_neg hquote, if_neg hslash, if_pos hcontrol]
    exact stringFrom_escape (escape_unicode (unicodeEscape_control care hcontrol cs)) h
  · rw [if_neg hquote, if_neg hslash, if_neg hcontrol]
    exact stringFrom_plain hquote hslash hcontrol h

theorem stringFrom_written (care : Care) (front s rest : List Char) :
    Gives (stringFrom care front (s.flatMap escapeChar ++ '"' :: rest)) (String.ofList (front.reverse ++ s)) rest := by
  induction s generalizing front with
  | nil =>
    refine ⟨Nat.lt_succ_self _, ?_⟩
    rw [List.append_nil]
    exact stringFrom.eq_2 care front '"' rest
  | cons c s ih =>
    rw [List.flatMap_cons, List.append_assoc]
    refine stringFrom_escapeChar c ?_
    have := ih (c :: front)
    rwa [List.reverse_cons, List.append_assoc] at this

end Strings
end SceneCode.Json
