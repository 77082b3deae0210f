import SceneCode.Proofs.Markup.Reader
import SceneCode.Proofs.Markup.References
import SceneCode.Text.Lines

namespace SceneCode

namespace Text

/-- As many indentations in one. -/
def indentBy (depth : Nat) (cs : List Char) : List Char :=
  cs.flatMap fun c => if c = '\n' then '\n' :: List.replicate (2 * depth) ' ' else [c]

theorem indentBy_append (depth : Nat) (cs ds : List Char) :
    indentBy depth (cs ++ ds) = indentBy depth cs ++ indentBy depth ds :=
  List.flatMap_append

theorem indentBy_break (depth : Nat) (cs : List Char) :
    indentBy depth ('\n' :: cs) = '\n' :: List.replicate (2 * depth) ' ' ++ indentBy depth cs :=
  rfl

theorem indentBy_cons (depth : Nat) {c : Char} (h : c ≠ '\n') (cs : List Char) :
    indentBy depth (c :: cs) = c :: indentBy depth cs := by
  simp [indentBy, h]

theorem indentBy_of_not_mem (depth : Nat) {cs : List Char} (h : '\n' ∉ cs) : indentBy depth cs = cs := by
  induction cs with
  | nil => rfl
  | cons c cs ih =>
    simp only [List.mem_cons, not_or] at h
    rw [indentBy_cons depth (Ne.symm h.1), ih h.2]

theorem indentBy_zero (cs : List Char) : indentBy 0 cs = cs := by
  have hf : (fun c : Char => if c = '\n' then '\n' :: List.replicate (2 * 0) ' ' else [c]) = fun c => [c] := by
    funext c
    split <;> simp_all
  unfold indentBy
  rw [hf, List.flatMap_singleton']

theorem indentBy_indentChars (depth : Nat) (cs : List Char) :
    indentBy depth (indentChars cs) = indentBy (depth + 1) cs := by
  induction cs with
  | nil => rfl
  | cons c cs ih =>
    by_cases hc : c = '\n'
    · subst hc
      have hi : indentChars ('\n' :: cs) = '\n' :: ' ' :: ' ' :: indentChars cs := rfl
      rw [hi, indentBy_break, indentBy_break, indentBy_cons depth (by decide), indentBy_cons depth (by decide), ih,
        Nat.mul_succ, List.replicate_add]
      simp
    · have hi : indentChars (c :: cs) = c :: indentChars cs := by simp [indentChars, hc]
      rw [hi, indentBy_cons depth hc, indentBy_cons (depth + 1) hc, ih]

theorem mem_indentBy {depth : Nat} {c : Char} (h : c ≠ ' ') {cs : List Char} : c ∈ indentBy depth cs ↔ c ∈ cs := by
  induction cs with
  | nil => exact Iff.rfl
  | cons d cs ih =>
    by_cases hd : d = '\n'
    · subst hd
      rw [indentBy_break]
      simp [ih, h]
    · rw [indentBy_cons depth hd]
      simp [ih]

/-- A text with its references undone. -/
def unescape : List Char → List Char
  | '&' :: 'a' :: 'm' :: 'p' :: ';' :: cs => '&' :: unescape cs
  | '&' :: 'l' :: 't' :: ';' :: cs => '<' :: unescape cs
  | '&' :: 'g' :: 't' :: ';' :: cs => '>' :: unescape cs
  | '&' :: 'q' :: 'u' :: 'o' :: 't' :: ';' :: cs => '"' :: unescape cs
  | '&' :: '#' :: '1' :: '2' :: '3' :: ';' :: cs => '\x7b' :: unescape cs
  | '&' :: '#' :: '1' :: '2' :: '5' :: ';' :: cs => '\x7d' :: unescape cs
  | c :: cs => c :: unescape cs
  | [] => []

theorem unescape_cons {c : Char} (h : c ≠ '&') (cs : List Char) : unescape (c :: cs) = c :: unescape cs := by
  rw [unescape.eq_def]
  split <;> simp_all

theorem unescape_escapeMarkupChar (jsx : Bool) {c : Char} (h : c ≠ '\n') (cs : List Char) :
    unescape (escapeMarkupChar jsx c ++ cs) = c :: unescape cs := by
  unfold escapeMarkupChar
  split_ifs with h₁ h₂ h₃ h₄ h₅ h₆
  · subst h₁
    rfl
  · subst h₂
    rfl
  · subst h₃
    rfl
  · subst h₄
    rfl
  · rw [Bool.and_eq_true, decide_eq_true_eq] at h₅
    rw [h₅.2]
    rfl
  · rw [Bool.and_eq_true, decide_eq_true_eq] at h₆
    rw [h₆.2]
    rfl
  · exact unescape_cons h₁ cs

/-- Undoing references gives back what was escaped. Line breaks are left to the tags. -/
theorem unescape_escaped (jsx : Bool) (cs : List Char) :
    unescape (cs.flatMap fun c => if c = '\n' then ['\n'] else escapeMarkupChar jsx c) = cs := by
  induction cs with
  | nil => rfl
  | cons c cs ih =>
    rw [List.flatMap_cons]
    split
    · rename_i h
      rw [List.singleton_append, unescape_cons (by decide), ih, h]
    · rename_i h
      rw [unescape_escapeMarkupChar jsx h, ih]

end Text

namespace Markup
open Text (escapeMarkupChar escapeMarkup unescape)

namespace Item

def lineBreak : Item :=
  .element ⟨"br".toList, []⟩ []

/-- The character that an item between the tags of a text is. A line break stands there as a tag only. -/
def shown? : Item → Option Char
  | .char c => if c = '\n' then none else some c
  | .element tag [] => if tag = ⟨"br".toList, []⟩ then some '\n' else none
  | .element _ (_ :: _) => none

/-- The text that items stand for. -/
def text? (items : List Item) : Option (List Char) :=
  (items.mapM shown?).map unescape

/-- A character of a text between its tags. -/
def ofChar (jsx : Bool) (c : Char) : List Item :=
  if c = '\n' then [lineBreak] else (escapeMarkupChar jsx c).map .char

theorem mapM_shown_ofChar (jsx : Bool) (c : Char) :
    (ofChar jsx c).mapM shown? = some (if c = '\n' then ['\n'] else escapeMarkupChar jsx c) := by
  unfold ofChar
  split
  · rfl
  · rename_i h
    have hn : '\n' ∉ escapeMarkupChar jsx c :=
      Text.not_mem_escapeMarkupChar (List.mem_append_left _ (by decide)) (by decide) h
    generalize escapeMarkupChar jsx c = cs at hn ⊢
    induction cs with
    | nil => rfl
    | cons d cs ih =>
      simp only [List.mem_cons, not_or] at hn
      simp [shown?, Ne.symm hn.1, ih hn.2]

theorem text_ofChars (jsx : Bool) (cs : List Char) : text? (cs.flatMap (ofChar jsx)) = some cs := by
  have hm : (cs.flatMap (ofChar jsx)).mapM shown? =
      some (cs.flatMap fun c => if c = '\n' then ['\n'] else escapeMarkupChar jsx c) := by
    induction cs with
    | nil => rfl
    | cons c cs ih =>
      rw [List.flatMap_cons, List.mapM_append, mapM_shown_ofChar, ih]
      rfl
  rw [text?, hm, Option.map_some, Text.unescape_escaped]

end Item

theorem ReadsAs.escapeMarkup (jsx : Bool) (s : String) :
    ReadsAs (escapeMarkup jsx s).toList (s.toList.flatMap (Item.ofChar jsx)) := by
  rw [Text.escapeMarkup, String.toList_ofList]
  refine .flatMap fun c _ => ?_
  unfold Item.ofChar
  split
  · rename_i h
    have hb : Tag.Proper ⟨"br".toList, []⟩ := ⟨by decide, List.forall_mem_nil _⟩
    rw [h, Text.escapeMarkupChar_break]
    exact ReadsAs.closed hb false
  · rename_i h
    exact .text (Text.not_mem_escapeMarkupChar (List.mem_append_left _ (by decide)) (by decide) h)

end Markup
end SceneCode
