import SceneCode.Proofs.Code.Tokens
import SceneCode.Proofs.Number.Characters
import SceneCode.Proofs.Text.Escapes

namespace SceneCode.Code

def WordChars (text : String) : Prop :=
  ∀ c ∈ text.toList, isWordChar c = true

instance (text : String) : Decidable (WordChars text) := inferInstanceAs (Decidable (∀ _ ∈ _, _))

theorem WordChars.append {a b : String} (h : WordChars a) (h' : WordChars b) : WordChars (a ++ b) := by
  rw [WordChars, String.toList_append]
  exact List.forall_mem_append.mpr ⟨h, h'⟩

theorem IsWord.append {a b : String} (h : IsWord a) (h' : WordChars b) : IsWord (a ++ b) := by
  refine ⟨?_, WordChars.append h.2 h'⟩
  intro he
  rw [String.append_eq_empty_iff] at he
  exact h.1 he.1

theorem isWordChar_of_isNumberChar {c : Char} (h : Number.isNumberChar c = true) : isWordChar c = true := by
  rw [isWordChar, h]
  rfl

theorem IsWord.text (x : Float) : IsWord (Number.text x) :=
  ⟨Number.text_ne_empty x, fun _ hc => isWordChar_of_isNumberChar (Number.isNumberChar_of_mem_text hc)⟩

theorem WordChars.repr (n : Nat) : WordChars n.repr :=
  fun _ hc => isWordChar_of_isNumberChar (Number.isNumberChar_of_mem_repr_nat hc)

theorem WordChars.hexByte (n : Nat) : WordChars (Rgb.hexByte n) :=
  fun _ hc => isWordChar_of_isNumberChar (Number.isNumberChar_of_mem_hexByte hc)

theorem WordChars.hex6 (c : Rgb) : WordChars c.hex6 :=
  fun _ hc => isWordChar_of_isNumberChar (Number.isNumberChar_of_mem_hex6 hc)

section Literals
variable {q : Quoting} {escape : Char → List Char}

theorem scans_escaped (he : ∀ read c, Scans q (.literal read) (escape c) [] (.literal (read ++ [c])))
    (read cs : List Char) : Scans q (.literal read) (cs.flatMap escape) [] (.literal (read ++ cs)) := by
  induction cs generalizing read with
  | nil =>
    rw [List.append_nil]
    exact .nil
  | cons c cs ih =>
    have hs := (he read c).append (ih (read ++ [c]))
    rwa [List.append_assoc] at hs

/-- A text between quotes is read back from them. -/
theorem closed_literal (he : ∀ read c, Scans q (.literal read) (escape c) [] (.literal (read ++ [c])))
    (hs : q.step .code q.quote = some ([], .literal [])) (text : String) :
    Closed q (String.ofList (q.quote :: (text.toList.flatMap escape ++ [q.quote]))) [.literal text] := by
  have hend : q.step (.literal text.toList) q.quote = some ([.literal text], .code) := by
    rw [Quoting.step, if_pos rfl, String.ofList_toList]
  have hbody := scans_escaped he [] text.toList
  rw [closed_iff, String.toList_ofList]
  exact .cons hs (hbody.append (.one hend))

theorem scans_bare {read : List Char} {c : Char} (hc : q.isBare c = true) (hq : c ≠ q.quote) (hb : c ≠ '\\') :
    Scans q (.literal read) [c] [] (.literal (read ++ [c])) :=
  .one (by rw [Quoting.step, if_neg hq, if_neg hb, if_pos hc])

theorem scans_escape {read : List Char} {c d : Char} (hd : q.escaped? c = some d) (hq : '\\' ≠ q.quote) :
    Scans q (.literal read) ['\\', c] [] (.literal (read ++ [d])) := by
  have hb : q.step (.literal read) '\\' = some ([], .escape read) := by
    rw [Quoting.step, if_neg hq, if_pos rfl]
  refine .cons hb (.one ?_)
  rw [Quoting.step, hd]
  rfl

end Literals

/-- What is read behind a backslash is what is written there, and what is read as it stands is what is written so. -/
structure Quoting.Undoes (q : Quoting) (e : Text.Escapes) : Prop where
  quote : q.quote = e.quote
  begins : q.begin q.quote = some ([], .literal [])
  bare_iff (c : Char) : q.isBare c = true ↔ c ∉ e.table.map (·.1)
  escaped_iff (c d : Char) : q.escaped? c = some d ↔ (d, c) ∈ e.table

theorem Quoting.Undoes.closed {q : Quoting} {e : Text.Escapes} (h : q.Undoes e) (text : String) :
    Closed q (e.write text) [.literal text] := by
  have he (read : List Char) (c : Char) :
      Scans q (.literal read) (Text.escapeBy e.table c) [] (.literal (read ++ [c])) := by
    rcases Text.escapeBy_cases e.table c with ⟨hn, hw⟩ | ⟨d, hm, hw⟩ <;> rw [hw]
    · have hq : c ≠ q.quote := fun hc => hn (hc ▸ h.quote ▸ e.quote_mem)
      exact scans_bare ((h.bare_iff c).mpr hn) hq fun hb => hn (hb ▸ e.backslash_mem)
    · exact scans_escape ((h.escaped_iff d c).mpr hm) (h.quote ▸ e.backslash_ne_quote)
  have hw : e.write text =
      String.ofList (q.quote :: (text.toList.flatMap (Text.escapeBy e.table) ++ [q.quote])) := by
    rw [h.quote]
    rfl
  rw [hw]
  exact closed_literal he h.begins text

theorem dart_undoes : dart.Undoes Text.dartEscapes where
  quote := rfl
  begins := rfl
  bare_iff c := by simp [dart, Text.dartEscapes, and_left_comm]
  escaped_iff c d := by
    simp only [dart, Text.dartEscapes, List.mem_cons, List.contains_cons, List.contains_nil, List.not_mem_nil]
    grind

theorem swift_undoes : swift.Undoes Text.swiftEscapes where
  quote := rfl
  begins := rfl
  bare_iff c := by simp [swift, Text.swiftEscapes, and_left_comm]
  escaped_iff c d := by
    simp only [swift, Text.swiftEscapes, List.mem_cons, List.contains_cons, List.contains_nil, List.not_mem_nil]
    grind

theorem closed_dart (text : String) : Closed dart (Text.dart text) [.literal text] := by
  rw [Text.dart_eq]
  exact dart_undoes.closed text

theorem closed_swift (text : String) : Closed swift (Text.swift text) [.literal text] := by
  rw [Text.swift_eq]
  exact swift_undoes.closed text

end SceneCode.Code
