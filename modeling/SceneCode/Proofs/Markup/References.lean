import Mathlib.Tactic.SplitIfs
import SceneCode.Text.Quoted

namespace SceneCode.Text

/-- The characters that markup does not show as they are. -/
def markupChars (jsx : Bool) : List Char :=
  ['&', '<', '>', '"', '\n'] ++ if jsx then ['\x7b', '\x7d'] else []

/-- What is written for these, but for the tag of a line break. -/
def references : List (List Char) :=
  ["&amp;".toList, "&lt;".toList, "&gt;".toList, "&quot;".toList, "&#123;".toList, "&#125;".toList]

theorem escapeMarkupChar_break (jsx : Bool) : escapeMarkupChar jsx '\n' = "<br/>".toList := by
  cases jsx <;> rfl

theorem escapeMarkupChar_cases (jsx : Bool) {c : Char} (h : c ≠ '\n') :
    (c ∉ markupChars jsx ∧ escapeMarkupChar jsx c = [c]) ∨ escapeMarkupChar jsx c ∈ references := by
  unfold escapeMarkupChar
  split_ifs with h₁ h₂ h₃ h₄ h₅ h₆
  · exact .inr (by decide)
  · exact .inr (by decide)
  · exact .inr (by decide)
  · exact .inr (by decide)
  · exact .inr (by decide)
  · exact .inr (by decide)
  · refine .inl ⟨?_, rfl⟩
    cases jsx <;> simp_all [markupChars]

variable {jsx : Bool} {d : Char}

/-- A character that is never written as it is, and that no reference has, is not written at all. -/
theorem not_mem_escapeMarkupChar (hd : d ∈ markupChars jsx) (hr : ∀ w ∈ references, d ∉ w) {c : Char} (h : c ≠ '\n') :
    d ∉ escapeMarkupChar jsx c := by
  rcases escapeMarkupChar_cases jsx h with ⟨hc, he⟩ | hw
  · rw [he]
    exact fun hm => hc (List.mem_singleton.mp hm ▸ hd)
  · exact hr _ hw

theorem not_mem_escapeMarkup (hd : d ∈ markupChars jsx) (hr : ∀ w ∈ references, d ∉ w) (hb : d ∉ "<br/>".toList)
    (s : String) : d ∉ (escapeMarkup jsx s).toList := by
  rw [escapeMarkup, String.toList_ofList]
  intro hm
  obtain ⟨c, -, hm⟩ := List.mem_flatMap.mp hm
  by_cases hc : c = '\n'
  · rw [hc, escapeMarkupChar_break] at hm
    exact hb hm
  · exact not_mem_escapeMarkupChar hd hr hc hm

theorem break_not_mem_escapeMarkup (jsx : Bool) (s : String) : '\n' ∉ (escapeMarkup jsx s).toList :=
  not_mem_escapeMarkup (List.mem_append_left _ (by decide)) (by decide) (by decide) s

theorem quote_not_mem_escapeMarkup (jsx : Bool) (s : String) : '"' ∉ (escapeMarkup jsx s).toList :=
  not_mem_escapeMarkup (List.mem_append_left _ (by decide)) (by decide) (by decide) s

end SceneCode.Text
