import SceneCode.Proofs.ClassPrefix.Scan
import SceneCode.Proofs.Code.Tokens
import SceneCode.Proofs.Layers.Comments

/-! Code whose lines are moved in. It is read as before, with its comments and without them: no line break stands in a
literal, and the spaces at the start of a line come and go with the line break in front of them. -/
namespace SceneCode

namespace Text

/-- The same text, except that lines behind the first may start with more or fewer spaces. -/
inductive Shifted : List Char → List Char → Prop where
  | nil : Shifted [] []
  | cons (c : Char) {cs ds : List Char} (rest : Shifted cs ds) : Shifted (c :: cs) (c :: ds)
  | line (m n : Nat) {cs ds : List Char} (rest : Shifted cs ds) :
    Shifted ('\n' :: (List.replicate m ' ' ++ cs)) ('\n' :: (List.replicate n ' ' ++ ds))

namespace Shifted
variable {cs cs' ds ds' : List Char}

theorem refl (cs : List Char) : Shifted cs cs := by
  induction cs with
  | nil => exact .nil
  | cons c cs ih => exact .cons c ih

theorem append (h : Shifted cs ds) (h' : Shifted cs' ds') : Shifted (cs ++ cs') (ds ++ ds') := by
  induction h with
  | nil => exact h'
  | cons c rest ih => exact .cons c ih
  | line m n rest ih =>
    rw [List.cons_append, List.cons_append, List.append_assoc, List.append_assoc]
    exact .line m n ih

theorem spaces (m n : Nat) : Shifted ('\n' :: List.replicate m ' ') ('\n' :: List.replicate n ' ') := by
  have h := Shifted.line m n .nil
  rwa [List.append_nil, List.append_nil] at h

/-- Lines that are moved in one by one. -/
theorem join {move : List Char → List Char} (n : Nat)
    (hm : ∀ line, move line = line ∨ move line = List.replicate n ' ' ++ line) (first : List Char)
    (rest : List (List Char)) :
    Shifted (Text.join ['\n'] (first :: rest)) (Text.join ['\n'] (first :: rest.map move)) := by
  induction rest generalizing first with
  | nil => exact refl _
  | cons line rest ih =>
    rw [List.map_cons, ClassPrefix.join_cons _ _ (List.cons_ne_nil _ _),
      ClassPrefix.join_cons _ _ (List.cons_ne_nil _ _)]
    refine (refl first).append ?_
    rcases hm line with he | he
    · rw [he]
      exact .cons '\n' (ih line)
    · have hj : Text.join ['\n'] (move line :: rest.map move) =
          List.replicate n ' ' ++ Text.join ['\n'] (line :: rest.map move) := by
        rw [he]
        cases rest with
        | nil => simp [Text.join]
        | cons line' rest => simp [Text.join]
      rw [hj]
      exact .line 0 n (ih line)

end Shifted

/-- No line ends in a carriage return. -/
def BareBreaks : List Char → Prop
  | [] => True
  | c :: cs => (c = '\r' → ∃ d ∈ cs.head?, d ≠ '\n') ∧ BareBreaks cs

namespace BareBreaks
variable {cs ds : List Char}

theorem of_not_mem (h : '\r' ∉ cs) : BareBreaks cs := by
  induction cs with
  | nil => exact trivial
  | cons c cs ih =>
    rw [List.mem_cons, not_or] at h
    exact ⟨fun hc => absurd hc.symm h.1, ih h.2⟩

theorem append (h : BareBreaks cs) (h' : BareBreaks ds) : BareBreaks (cs ++ ds) := by
  induction cs with
  | nil => exact h'
  | cons c cs ih =>
    refine ⟨fun hc => ?_, ih h.2⟩
    obtain ⟨d, hd, hn⟩ := h.1 hc
    exact ⟨d, List.mem_head?_append_of_mem_head? hd, hn⟩

theorem of_append (h : BareBreaks (cs ++ ds)) : BareBreaks ds := by
  induction cs with
  | nil => exact h
  | cons c cs ih => exact ih h.2

theorem indent (h : BareBreaks cs) : BareBreaks (indentChars cs) := by
  induction cs with
  | nil => exact trivial
  | cons c cs ih =>
    obtain ⟨hc, hs⟩ := h
    by_cases hb : c = '\n'
    · subst hb
      have hl : BareBreaks ['\n', ' ', ' '] := of_not_mem (by decide)
      exact hl.append (ih hs)
    · have he : indentChars (c :: cs) = c :: indentChars cs := by
        simp [indentChars, hb]
      rw [he]
      refine ⟨fun hr => ?_, ih hs⟩
      obtain ⟨d, hd, hn⟩ := hc hr
      obtain ⟨ds, rfl⟩ := List.head?_eq_some_iff.mp hd
      exact ⟨d, by simp [indentChars, hn], hn⟩

/-- So no carriage return goes with a line break. -/
theorem head?_ne {line : List Char} (h : BareBreaks (line.reverse ++ '\n' :: cs)) : line.head? ≠ some '\r' := by
  intro hr
  obtain ⟨line, rfl⟩ := List.head?_eq_some_iff.mp hr
  rw [List.reverse_cons, List.append_assoc] at h
  obtain ⟨d, hd, hn⟩ := h.of_append.1 rfl
  exact hn (Option.some.inj hd).symm

end BareBreaks

theorem linesFrom_break {line : List Char} (h : line.head? ≠ some '\r') (cs : List Char) :
    linesFrom line ('\n' :: cs) = line.reverse :: linesFrom [] cs := by
  rw [linesFrom]
  rintro line rfl
  exact h rfl

theorem linesFrom_char {c : Char} (h : c ≠ '\n') (line cs : List Char) :
    linesFrom line (c :: cs) = linesFrom (c :: line) cs := by
  rw [linesFrom]
  exact h

theorem linesFrom_ne_nil {line cs : List Char} (h : line ++ cs ≠ []) : linesFrom line cs ≠ [] := by
  induction cs generalizing line with
  | nil =>
    rw [List.append_nil] at h
    cases line with
    | nil => exact absurd rfl h
    | cons c line => exact List.cons_ne_nil _ _
  | cons c cs ih =>
    by_cases hb : c = '\n'
    · subst hb
      exact List.cons_ne_nil _ _
    · rw [linesFrom_char hb]
      exact ih (List.cons_ne_nil _ _)

/-- The lines of a text make up the text again, less a line break at its end. -/
theorem join_linesFrom (line : List Char) {cs : List Char} (h : BareBreaks (line.reverse ++ cs)) :
    ∃ last, (last = [] ∨ last = ['\n']) ∧ line.reverse ++ cs = join ['\n'] (linesFrom line cs) ++ last := by
  -- What is read of the line so far stands in `line`, backwards.
  induction cs generalizing line with
  | nil =>
    refine ⟨[], .inl rfl, ?_⟩
    cases line with
    | nil => rfl
    | cons c line => simp [linesFrom, ClassPrefix.join_singleton]
  | cons c cs ih =>
    by_cases hb : c = '\n'
    · subst hb
      rw [linesFrom_break h.head?_ne]
      by_cases hn : cs = []
      · subst hn
        exact ⟨['\n'], .inr rfl, by simp [linesFrom, ClassPrefix.join_singleton]⟩
      · have hs : linesFrom [] cs ≠ [] := linesFrom_ne_nil (by rwa [List.nil_append])
        obtain ⟨last, hl, he⟩ := ih [] h.of_append.2
        refine ⟨last, hl, ?_⟩
        rw [List.reverse_nil, List.nil_append] at he
        rw [ClassPrefix.join_cons _ _ hs, List.append_assoc, List.append_assoc, ← he]
        rfl
    · have hr : line.reverse ++ c :: cs = (c :: line).reverse ++ cs := by simp
      rw [linesFrom_char hb]
      rw [hr] at h ⊢
      exact ih _ h

/-- Text that is moved in behind its first line is shifted, and loses a line break at its end. -/
theorem exists_shifted_hangingIndent (spaces : Nat) {cs : List Char} (h : BareBreaks cs) :
    ∃ ds last, cs = ds ++ last ∧ (last = [] ∨ last = ['\n']) ∧ Shifted ds (hangingIndent spaces cs) := by
  obtain ⟨last, hl, he⟩ := join_linesFrom [] h
  refine ⟨_, last, he, hl, ?_⟩
  unfold hangingIndent lines
  cases linesFrom [] cs with
  | nil => exact .nil
  | cons first rest =>
    refine Shifted.join spaces (fun line => ?_) first rest
    split
    · exact .inl rfl
    · exact .inr rfl

end Text

namespace Code
open Text (BareBreaks Shifted exists_shifted_hangingIndent hangingIndent)
variable {q : Quoting} {cs ds : List Char}

theorem scan_spaces (q : Quoting) (n : Nat) (cs : List Char) :
    q.scan .code (List.replicate n ' ' ++ cs) = q.scan .code cs := by
  induction n with
  | zero => rfl
  | succ n ih =>
    have hb : q.step .code ' ' = some ([], .code) := scans_blank rfl
    simp only [List.replicate_succ, List.cons_append, Quoting.scan, hb, ih, Option.bind_eq_bind, Option.bind_some]
    cases q.scan .code cs with
    | none => rfl
    | some read => rfl

theorem scan_shifted (h : Shifted cs ds) (mode : Mode) : q.scan mode cs = q.scan mode ds := by
  induction h generalizing mode with
  | nil => rfl
  | cons c rest ih => simp only [Quoting.scan, ih]
  | line m n rest ih =>
    rw [Quoting.scan, Quoting.scan]
    cases hb : q.step mode '\n' with
    | none => rfl
    | some read =>
      obtain ⟨tokens, mode'⟩ := read
      obtain rfl := step_break hb
      simp only [Option.bind_eq_bind, Option.bind_some, scan_spaces, ih]

theorem lex_shifted (h : Shifted cs ds) : q.lex (String.ofList cs) = q.lex (String.ofList ds) := by
  simp only [Quoting.lex, String.toList_ofList, scan_shifted h]

theorem scan_append (mode : Mode) (cs ds : List Char) :
    q.scan mode (cs ++ ds) = (q.scan mode cs).bind fun (ts, mode) =>
      (q.scan mode ds).map fun (us, mode) => (ts ++ us, mode) := by
  induction cs generalizing mode with
  | nil => cases h : q.scan mode ds <;> simp [Quoting.scan, h]
  | cons c cs ih =>
    simp only [List.cons_append, Quoting.scan, ih, Option.bind_eq_bind, Option.bind_assoc]
    refine Option.bind_congr fun first _ => Option.bind_congr fun second _ => ?_
    cases h : q.scan second.2 ds <;> simp [h]

/-- At the end of code, a line break makes no difference. -/
theorem lex_concat_break (q : Quoting) (cs : List Char) :
    q.lex (String.ofList (cs ++ ['\n'])) = q.lex (String.ofList cs) := by
  simp only [Quoting.lex, String.toList_ofList, scan_append, Option.bind_eq_bind, Option.bind_assoc]
  refine Option.bind_congr fun read _ => ?_
  simp only [Quoting.scan, step_break_eq]
  cases read.2.finish <;> simp [Mode.finish]

/-- Moving code in behind its first line does not change what is read of it. -/
theorem lex_hangingIndent (spaces : Nat) {cs : List Char} (h : BareBreaks cs) :
    q.lex (String.ofList (hangingIndent spaces cs)) = q.lex (String.ofList cs) := by
  obtain ⟨ds, last, rfl, hl, hs⟩ := exists_shifted_hangingIndent spaces h
  rw [← lex_shifted hs]
  rcases hl with rfl | rfl
  · rw [List.append_nil]
  · rw [lex_concat_break]

end Code

namespace Comments
open Code (Quoting)
open Text (BareBreaks Shifted exists_shifted_hangingIndent hangingIndent)
variable {q : Quoting} {e e' : Erasure Mode} {cs ds : List Char}

def Mode.Shifted : Mode → Mode → Prop
  | .code, .code => True
  | .start held, .start held' => Text.Shifted held held'
  | .slash held, .slash held' => Text.Shifted held held'
  | .comment _, .comment _ => True
  | _, _ => False

/-- The same place in two texts that are the same but for the spaces their lines start with. -/
structure ShiftedAt (e e' : Erasure Mode) : Prop where
  mode : e.mode.Shifted e'.mode
  kept : Shifted e.kept e'.kept

theorem ShiftedAt.step (h : ShiftedAt e e') (c : Char) : ShiftedAt (step e c) (step e' c) := by
  obtain ⟨mode, kept, notes⟩ := e
  obtain ⟨mode', kept', notes'⟩ := e'
  obtain ⟨hm, hk⟩ := h
  have hc : Shifted [c] [c] := .refl _
  cases mode <;> cases mode' <;> simp only [Mode.Shifted] at hm
  case code.code =>
    simp only [Comments.step]
    split_ifs
    · exact ⟨hc, hk⟩
    · exact ⟨trivial, hk.append hc⟩
  case start.start held held' =>
    simp only [Comments.step]
    split_ifs
    · exact ⟨hm.append hc, hk⟩
    · exact ⟨hm, hk⟩
    · exact ⟨hc, hk.append hm⟩
    · exact ⟨trivial, (hk.append hm).append hc⟩
  case slash.slash held held' =>
    simp only [Comments.step]
    split_ifs
    · exact ⟨trivial, hk⟩
    · exact ⟨hc, (hk.append hm).append (.refl _)⟩
    · exact ⟨trivial, (hk.append hm).append (.refl _)⟩
  case comment.comment note note' =>
    simp only [Comments.step]
    split
    · exact ⟨hc, hk⟩
    · exact ⟨trivial, hk⟩

/-- Behind a line break, the spaces that a line starts with are held back with it. -/
theorem ShiftedAt.line (h : ShiftedAt e e') (m n : Nat) :
    ShiftedAt (('\n' :: List.replicate m ' ').foldl Comments.step e)
      (('\n' :: List.replicate n ' ').foldl Comments.step e') := by
  have hb (e : Erasure Mode) : (Comments.step e '\n').mode = .start ['\n'] := by
    obtain ⟨mode, kept, notes⟩ := e
    cases mode <;> simp [Comments.step, isLineEnd]
  have hf (e : Erasure Mode) (n : Nat) : ('\n' :: List.replicate n ' ').foldl Comments.step e =
      { Comments.step e '\n' with mode := .start ('\n' :: List.replicate n ' ') } := by
    have hs := foldl_spaces n ['\n'] (Comments.step e '\n').kept (Comments.step e '\n').notes
    rw [← hb e] at hs
    exact hs
  rw [hf, hf]
  exact ⟨.spaces m n, (h.step '\n').kept⟩

theorem ShiftedAt.foldl (h : ShiftedAt e e') (hs : Shifted cs ds) :
    ShiftedAt (cs.foldl Comments.step e) (ds.foldl Comments.step e') := by
  induction hs generalizing e e' with
  | nil => exact h
  | cons c rest ih => exact ih (h.step c)
  | line m n rest ih =>
    rw [← List.cons_append, ← List.cons_append, List.foldl_append, List.foldl_append]
    exact ih (h.line m n)

theorem ShiftedAt.finish (h : ShiftedAt e e') : Shifted (finish e).kept (finish e').kept := by
  obtain ⟨mode, kept, notes⟩ := e
  obtain ⟨mode', kept', notes'⟩ := e'
  obtain ⟨hm, hk⟩ := h
  cases mode <;> cases mode' <;> simp only [Mode.Shifted] at hm
  · exact hk
  · exact hk.append hm
  · exact (hk.append hm).append (.refl _)
  · exact hk

theorem run_shifted (h : Shifted cs ds) :
    Shifted (run (String.ofList cs)).kept (run (String.ofList ds)).kept := by
  rw [run, run, String.toList_ofList, String.toList_ofList]
  have hs : ShiftedAt ⟨.code, [], []⟩ ⟨.code, [], []⟩ := ⟨trivial, .nil⟩
  exact (hs.foldl (.cons '\n' h)).finish

/-- A line break at the end of a text stays there. -/
theorem run_concat_break (cs : List Char) :
    (run (String.ofList (cs ++ ['\n']))).kept = (run (String.ofList cs)).kept ++ ['\n'] := by
  have hf (e : Erasure Mode) : (finish (step e '\n')).kept = (finish e).kept ++ ['\n'] := by
    obtain ⟨mode, kept, notes⟩ := e
    cases mode <;> simp [step, finish, isLineEnd]
  simp only [run, String.toList_ofList, ← List.cons_append, List.foldl_append, List.foldl_cons, List.foldl_nil, hf]

theorem lex_erase_shifted (h : Shifted cs ds) :
    q.lex (erase (String.ofList cs)) = q.lex (erase (String.ofList ds)) := by
  have hr := run_shifted h
  simp only [erase, Quoting.lex, String.toList_ofList]
  generalize (run (String.ofList cs)).kept = kept, (run (String.ofList ds)).kept = kept' at hr
  cases hr with
  | nil => rfl
  | cons c rest => simp only [List.drop_one, List.tail_cons, Code.scan_shifted rest]
  | line m n rest => simp only [List.drop_one, List.tail_cons, Code.scan_spaces, Code.scan_shifted rest]

theorem lex_erase_concat_break (q : Quoting) (cs : List Char) :
    q.lex (erase (String.ofList (cs ++ ['\n']))) = q.lex (erase (String.ofList cs)) := by
  rw [erase, erase, run_concat_break]
  cases (run (String.ofList cs)).kept with
  | nil => rfl
  | cons c kept => exact Code.lex_concat_break q kept

/-- Nor does it change what is read of the code without its comments. -/
theorem lex_erase_hangingIndent (spaces : Nat) (h : BareBreaks cs) :
    q.lex (erase (String.ofList (hangingIndent spaces cs))) = q.lex (erase (String.ofList cs)) := by
  obtain ⟨ds, last, rfl, hl, hs⟩ := exists_shifted_hangingIndent spaces h
  rw [← lex_erase_shifted hs]
  rcases hl with rfl | rfl
  · rw [List.append_nil]
  · rw [lex_erase_concat_break]

end Comments
end SceneCode
