import SceneCode.Proofs.ClassPrefix.Chunks
import SceneCode.Proofs.Code.Shifted

namespace SceneCode.Text

/-- Four spaces in front of a line, unless it is blank. -/
def moveIn (line : List Char) : List Char :=
  if line.all isBlank then line else List.replicate 4 ' ' ++ line

/-- A line that is not blank without its first four characters. -/
def moveOut (line : List Char) : List Char :=
  if line.all isBlank then line else line.drop 4

/-- A text with a change in each of its lines but the first. -/
def withLaterLines (change : List Char → List Char) (cs : List Char) : List Char :=
  match cs.splitOn '\n' with
  | [] => []
  | first :: rest => join ['\n'] (first :: rest.map change)

theorem trim_eq_nil_iff {cs : List Char} : trim cs = [] ↔ ∀ c ∈ cs, isBlank c = true := by
  rw [trim, trimEnd, trimStart, List.reverse_eq_nil_iff, List.dropWhile_eq_nil_iff]
  constructor
  · intro h
    cases hd : cs.dropWhile isBlank with
    | nil => exact List.dropWhile_eq_nil_iff.mp hd
    | cons c rest =>
      -- What is left in front starts with a character that is not blank.
      have hn := List.head?_dropWhile_not isBlank cs
      rw [hd] at hn h
      have hc : isBlank c = false := hn
      rw [h c (by simp)] at hc
      cases hc
  · intro h c hc
    exact h c ((List.dropWhile_suffix isBlank).subset (List.mem_reverse.mp hc))

theorem moveOut_moveIn (line : List Char) : moveOut (moveIn line) = line := by
  unfold moveIn
  split
  · rename_i hb
    rw [moveOut, if_pos hb]
  · rename_i hb
    have hn : ¬(List.replicate 4 ' ' ++ line).all isBlank = true := by
      rw [List.all_append, Bool.and_eq_true]
      exact fun h => hb h.2
    rw [moveOut, if_neg hn]
    rfl

theorem not_mem_moveIn {line : List Char} (h : '\n' ∉ line) : '\n' ∉ moveIn line := by
  unfold moveIn
  split
  · exact h
  · simpa using h

theorem withLaterLines_eq {change : List Char → List Char} {first : List Char} {rest : List (List Char)}
    (h : ∀ line ∈ first :: rest, '\n' ∉ line) :
    withLaterLines change (join ['\n'] (first :: rest)) = join ['\n'] (first :: rest.map change) := by
  have hs : (join ['\n'] (first :: rest)).splitOn '\n' = first :: rest :=
    List.splitOn_intercalate '\n' h (List.cons_ne_nil _ _)
  rw [withLaterLines, hs]

/-- A change that breaks no line is undone line by line. -/
theorem withLaterLines_undone {change undo : List Char → List Char} (hu : ∀ line, undo (change line) = line)
    (hb : ∀ line, '\n' ∉ line → '\n' ∉ change line) (cs : List Char) :
    withLaterLines undo (withLaterLines change cs) = cs := by
  cases hs : cs.splitOn '\n' with
  | nil => exact absurd hs (List.splitOn_ne_nil _ _)
  | cons first rest =>
    have hl : ∀ line ∈ first :: rest, '\n' ∉ line := fun line hm => ClassPrefix.not_mem_of_mem_splitOn (hs ▸ hm)
    have hc : ∀ line ∈ first :: rest.map change, '\n' ∉ line := by
      rw [List.forall_mem_cons, List.forall_mem_map]
      exact ⟨hl first List.mem_cons_self, fun line hm => hb line (hl line (List.mem_cons_of_mem _ hm))⟩
    have hj : cs = join ['\n'] (first :: rest) := by rw [← hs, ClassPrefix.join_splitOn]
    have hm : (rest.map change).map undo = rest := by
      rw [List.map_map]
      exact List.map_id'' hu rest
    rw [hj, withLaterLines_eq hl, withLaterLines_eq hc, hm]

/-- Where no line break ends a text and there are no carriage returns, the lines are what the line breaks part. -/
theorem linesFrom_eq_splitOn {before cs : List Char} (hb : '\n' ∉ before) (hr : '\r' ∉ before.reverse ++ cs)
    (hl : (before.reverse ++ cs).getLast? ≠ some '\n') (hn : before.reverse ++ cs ≠ []) :
    linesFrom before cs = (before.reverse ++ cs).splitOn '\n' := by
  induction cs generalizing before with
  | nil =>
    rw [List.append_nil] at hn ⊢
    have he : before.isEmpty = false := by simpa using hn
    rw [linesFrom, he, if_neg Bool.false_ne_true, List.splitOn_eq_singleton (by simpa using hb)]
  | cons c cs ih =>
    by_cases hc : c = '\n'
    · subst hc
      have hs : cs ≠ [] := by
        rintro rfl
        exact hl (by simp)
      have hi : linesFrom [] cs = cs.splitOn '\n' := by
        refine ih List.not_mem_nil ?_ ?_ hs
        · exact fun hm => hr (by simpa using .inr hm)
        · rwa [List.getLast?_append_of_ne_nil _ (List.cons_ne_nil _ _), List.getLast?_cons_of_ne_nil hs] at hl
      rw [linesFrom_break (BareBreaks.of_not_mem hr).head?_ne, hi,
        List.splitOn_append_cons_self_of_not_mem (by simpa using hb)]
    · have he : before.reverse ++ c :: cs = (c :: before).reverse ++ cs := by simp
      rw [linesFrom_char hc]
      rw [he] at hr hl hn ⊢
      exact ih (by simpa [Ne.symm hc] using hb) hr hl hn

theorem hangingIndent_eq {cs : List Char} (hr : '\r' ∉ cs) (hl : cs.getLast? ≠ some '\n') :
    hangingIndent 4 cs = withLaterLines moveIn cs := by
  by_cases hn : cs = []
  · subst hn
    rfl
  · have hs : lines cs = cs.splitOn '\n' := linesFrom_eq_splitOn List.not_mem_nil hr hl hn
    have hm : (fun line => if (trim line).isEmpty then line else List.replicate 4 ' ' ++ line) = moveIn := by
      funext line
      have hb : (trim line).isEmpty = true ↔ line.all isBlank = true := by
        rw [List.isEmpty_iff, trim_eq_nil_iff, List.all_eq_true]
      simp only [moveIn, hb]
    rw [hangingIndent, hs, hm]
    rfl

end SceneCode.Text
