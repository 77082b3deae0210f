import SceneCode.Proofs.Number.Characters
import SceneCode.Text.Lines

/-! Code as a list of tokens. The reader refuses what it does not know, and a literal that another language feature
could start in. -/
namespace SceneCode.Code
open Text (indentChars)

inductive Token where
  | word (text : String)
  /-- The text that a literal stands for. -/
  | literal (text : String)
  | mark (c : Char)
deriving DecidableEq

/-- How a language writes text between quotes. -/
structure Quoting where
  quote : Char
  /-- A character that may stand for itself. -/
  isBare : Char → Bool
  /-- What a character behind a backslash stands for. -/
  escaped? : Char → Option Char
  quote_ne : quote ≠ '\n' := by decide
  bare_break : isBare '\n' = false := by decide
  escaped_break : escaped? '\n' = none := by decide

inductive Mode where
  | code
  | word (read : List Char)
  | literal (read : List Char)
  /-- Behind a backslash in a literal. -/
  | escape (read : List Char)
deriving DecidableEq

def isWordChar (c : Char) : Bool :=
  Number.isNumberChar c || c = '_'

def isBlank (c : Char) : Bool :=
  c = ' ' || c = '\n'

def marks : List Char := ['(', ')', '[', ']', '\x7b', '\x7d', ',', ':', '+']

namespace Quoting

def begin (q : Quoting) (c : Char) : Option (List Token × Mode) :=
  if isBlank c then some ([], .code)
  else if isWordChar c then some ([], .word [c])
  else if c = q.quote then some ([], .literal [])
  else if c ∈ marks then some ([.mark c], .code)
  else none

/-- A quote right behind a word could be another kind of literal. -/
def step (q : Quoting) : Mode → Char → Option (List Token × Mode)
  | .code, c => q.begin c
  | .word read, c =>
    if isWordChar c then some ([], .word (read ++ [c]))
    else if c = q.quote then none
    else (q.begin c).map fun (tokens, mode) => (.word (String.ofList read) :: tokens, mode)
  | .literal read, c =>
    if c = q.quote then some ([.literal (String.ofList read)], .code)
    else if c = '\\' then some ([], .escape read)
    else if q.isBare c then some ([], .literal (read ++ [c]))
    else none
  | .escape read, c => (q.escaped? c).map fun d => ([], .literal (read ++ [d]))

def scan (q : Quoting) : Mode → List Char → Option (List Token × Mode)
  | mode, [] => some ([], mode)
  | mode, c :: cs => do
    let (first, mode) ← q.step mode c
    let (rest, mode) ← q.scan mode cs
    return (first ++ rest, mode)

end Quoting

/-- Code does not end within a literal. -/
def Mode.finish : Mode → Option (List Token)
  | .code => some []
  | .word read => some [.word (String.ofList read)]
  | .literal _ | .escape _ => none

def Quoting.lex (q : Quoting) (code : String) : Option (List Token) := do
  let (tokens, mode) ← q.scan .code code.toList
  return tokens ++ (← mode.finish)

/-- Dart puts values into literals behind a dollar sign. -/
def dart : Quoting where
  quote := '\''
  isBare c := !(['\'', '\\', '$', '\n'].contains c)
  escaped? c := if c = 'n' then some '\n' else if ['\'', '\\', '$'].contains c then some c else none

/-- Swift puts values into literals behind a backslash and a bracket. -/
def swift : Quoting where
  quote := '"'
  isBare c := !(['"', '\\', '\n'].contains c)
  escaped? c := if c = 'n' then some '\n' else if ['"', '\\'].contains c then some c else none

def Token.literal? : Token → Option String
  | .literal text => some text
  | _ => none

def literals (tokens : List Token) : List String :=
  tokens.filterMap Token.literal?

def closing? : Char → Option Char
  | '(' => some ')'
  | '[' => some ']'
  | '\x7b' => some '\x7d'
  | _ => none

def isClosing (c : Char) : Bool :=
  c = ')' || c = ']' || c = '\x7d'

/-- The brackets that are open, by what closes them. -/
def bracket (awaited : List Char) : Token → Option (List Char)
  | .mark c =>
    match closing? c with
    | some d => some (d :: awaited)
    | none =>
      if isClosing c then
        match awaited with
        | d :: awaited => if c = d then some awaited else none
        | [] => none
      else some awaited
  | _ => some awaited

def WellNested (tokens : List Token) : Prop :=
  tokens.foldlM bracket [] = some []

instance (tokens : List Token) : Decidable (WellNested tokens) := inferInstanceAs (Decidable (_ = _))

/-- These tokens are read on the way from one mode to another. -/
inductive Scans (q : Quoting) : Mode → List Char → List Token → Mode → Prop where
  | nil {mode : Mode} : Scans q mode [] [] mode
  | cons {mode mode' mode'' : Mode} {c : Char} {cs : List Char} {ts us : List Token}
      (first : q.step mode c = some (ts, mode')) (rest : Scans q mode' cs us mode'') :
      Scans q mode (c :: cs) (ts ++ us) mode''

section Scans
variable {q : Quoting} {mode mode' mode'' : Mode} {c : Char} {cs ds read : List Char} {ts us : List Token}

theorem scan_eq_some_iff : q.scan mode cs = some (ts, mode') ↔ Scans q mode cs ts mode' := by
  constructor
  · intro h
    induction cs generalizing mode ts with
    | nil =>
      cases h
      exact .nil
    | cons c cs ih =>
      simp only [Quoting.scan, Option.bind_eq_bind, Option.bind_eq_some_iff, Prod.exists, pure, Option.some.injEq,
        Prod.mk.injEq] at h
      obtain ⟨first, middle, hc, rest, last, hs, rfl, rfl⟩ := h
      exact .cons hc (ih hs)
  · intro h
    induction h with
    | nil => rfl
    | cons first rest ih => simp [Quoting.scan, first, ih]

theorem Scans.append (h : Scans q mode cs ts mode') (h' : Scans q mode' ds us mode'') :
    Scans q mode (cs ++ ds) (ts ++ us) mode'' := by
  induction h with
  | nil => exact h'
  | cons first rest ih =>
    rw [List.cons_append, List.append_assoc]
    exact .cons first (ih h')

theorem Scans.one (h : q.step mode c = some (ts, mode')) : Scans q mode [c] ts mode' := by
  have hs := Scans.cons h .nil
  rwa [List.append_nil] at hs

/-- A blank is no part of code. -/
theorem scans_blank (h : isBlank c = true) : q.step .code c = some ([], .code) := by
  rw [Quoting.step, Quoting.begin, if_pos h]

theorem scans_word (h : ∀ c ∈ cs, isWordChar c = true) : Scans q (.word read) cs [] (.word (read ++ cs)) := by
  induction cs generalizing read with
  | nil =>
    rw [List.append_nil]
    exact .nil
  | cons c cs ih =>
    obtain ⟨hc, hs⟩ := List.forall_mem_cons.mp h
    have hstep : q.step (.word read) c = some ([], .word (read ++ [c])) := by
      rw [Quoting.step, if_pos hc]
    have hrest := Scans.cons hstep (ih hs)
    rwa [List.append_assoc] at hrest

/-- A line break ends what the end of code would end, so it ends a word, and there is none within a literal. -/
theorem step_break_eq (q : Quoting) (mode : Mode) : q.step mode '\n' = mode.finish.map fun ts => (ts, .code) := by
  have hw : isWordChar '\n' = false := by decide
  have hb : q.begin '\n' = some ([], .code) := rfl
  cases mode with
  | code => exact hb
  | word read => simp [Quoting.step, hw, hb, q.quote_ne.symm, Mode.finish]
  | literal read => simp [Quoting.step, q.quote_ne.symm, q.bare_break, Mode.finish]
  | escape read => simp [Quoting.step, q.escaped_break, Mode.finish]

theorem step_break (h : q.step mode '\n' = some (ts, mode')) : mode' = .code := by
  rw [step_break_eq] at h
  obtain ⟨last, -, he⟩ := Option.map_eq_some_iff.mp h
  exact (Prod.mk.inj he).2.symm

/-- Indented code has more blanks and is otherwise the same. -/
theorem Scans.indent (h : Scans q mode cs ts mode') : Scans q mode (indentChars cs) ts mode' := by
  induction h with
  | nil => exact .nil
  | @cons mode middle last c cs first others hc rest ih =>
    by_cases hb : c = '\n'
    · subst hb
      obtain rfl := step_break hc
      exact .cons hc (.cons (scans_blank rfl) (.cons (scans_blank rfl) ih))
    · have he : indentChars (c :: cs) = c :: indentChars cs := by
        simp [indentChars, hb]
      rw [he]
      exact .cons hc ih

/-- What starts with a blank or a mark is read in the same way behind a word. -/
theorem Scans.behind_word (h : Scans q .code (c :: cs) ts mode) (hw : isWordChar c = false) (hq : c ≠ q.quote) :
    Scans q (.word read) (c :: cs) (.word (String.ofList read) :: ts) mode := by
  cases h with
  | @cons _ middle _ _ _ first others hc rest =>
    have hb : q.step (.word read) c = some (.word (String.ofList read) :: first, middle) := by
      rw [Quoting.step] at hc
      rw [Quoting.step, hw, if_neg Bool.false_ne_true, if_neg hq, hc]
      rfl
    exact .cons hb rest

end Scans

/-- A text is read as these tokens. -/
def Lexes (q : Quoting) (code : String) (tokens : List Token) : Prop :=
  q.lex code = some tokens

/-- The text does not end within a word either. -/
def Closed (q : Quoting) (code : String) (tokens : List Token) : Prop :=
  q.scan .code code.toList = some (tokens, .code)

instance (q : Quoting) (code : String) (tokens : List Token) : Decidable (Closed q code tokens) :=
  inferInstanceAs (Decidable (_ = _))

/-- The text starts with what ends a word. -/
def Breaks (q : Quoting) (code : String) : Prop :=
  code.toList.head?.any (fun c => !isWordChar c && c != q.quote) = true

instance (q : Quoting) (code : String) : Decidable (Breaks q code) := inferInstanceAs (Decidable (_ = _))

/-- A fixed text goes behind any other one. -/
def Fixed (q : Quoting) (code : String) (tokens : List Token) : Prop :=
  Breaks q code ∧ Closed q code tokens

instance (q : Quoting) (code : String) (tokens : List Token) : Decidable (Fixed q code tokens) :=
  inferInstanceAs (Decidable (_ ∧ _))

def IsWord (text : String) : Prop :=
  text ≠ "" ∧ ∀ c ∈ text.toList, isWordChar c = true

instance (text : String) : Decidable (IsWord text) := inferInstanceAs (Decidable (_ ∧ ∀ _ ∈ _, _))

theorem IsWord.ofList {cs : List Char} (h : cs ≠ [] ∧ ∀ c ∈ cs, isWordChar c = true) : IsWord (String.ofList cs) := by
  rwa [IsWord, String.toList_ofList, Ne, String.ofList_eq_empty_iff]

section Lexes
variable {q : Quoting} {a b : String} {ts us : List Token}

theorem Closed.ofList {cs : List Char} (h : q.scan .code cs = some (ts, .code)) : Closed q (String.ofList cs) ts := by
  rwa [Closed, String.toList_ofList]

theorem lexes_iff : Lexes q a ts ↔
    ∃ read mode last, Scans q .code a.toList read mode ∧ mode.finish = some last ∧ ts = read ++ last := by
  simp only [Lexes, Quoting.lex, ← scan_eq_some_iff, Option.bind_eq_bind, Option.bind_eq_some_iff, Prod.exists, pure,
    Option.some.injEq]
  constructor
  · rintro ⟨read, mode, hs, last, hf, rfl⟩
    exact ⟨read, mode, last, hs, hf, rfl⟩
  · rintro ⟨read, mode, last, hs, hf, rfl⟩
    exact ⟨read, mode, hs, last, hf, rfl⟩

theorem closed_iff : Closed q a ts ↔ Scans q .code a.toList ts .code :=
  scan_eq_some_iff

theorem Closed.lexes (h : Closed q a ts) : Lexes q a ts :=
  lexes_iff.mpr ⟨ts, .code, [], closed_iff.mp h, rfl, (List.append_nil ts).symm⟩

theorem Closed.before (h : Closed q a ts) (h' : Lexes q b us) : Lexes q (a ++ b) (ts ++ us) := by
  obtain ⟨read, mode, last, hs, hf, rfl⟩ := lexes_iff.mp h'
  rw [lexes_iff, String.toList_append]
  exact ⟨ts ++ read, mode, last, (closed_iff.mp h).append hs, hf, (List.append_assoc ..).symm⟩

theorem Closed.append (h : Closed q a ts) (h' : Closed q b us) : Closed q (a ++ b) (ts ++ us) := by
  rw [closed_iff, String.toList_append]
  exact (closed_iff.mp h).append (closed_iff.mp h')

/-- A word that has been read ends where a break comes. -/
theorem Lexes.scans (h : Lexes q a ts) {mode : Mode} (hb : Breaks q b) (h' : Scans q .code b.toList us mode) :
    Scans q .code (a ++ b).toList (ts ++ us) mode := by
  obtain ⟨read, middle, last, hs, hf, rfl⟩ := lexes_iff.mp h
  rw [String.toList_append, List.append_assoc]
  refine hs.append ?_
  cases middle with
  | code =>
    cases hf
    exact h'
  | word w =>
    cases hf
    rw [Breaks] at hb
    cases hc : b.toList with
    | nil =>
      rw [hc] at hb
      cases hb
    | cons c cs =>
      rw [hc] at hb h'
      simp only [List.head?_cons, Option.any_some, Bool.and_eq_true, Bool.not_eq_true', bne_iff_ne] at hb
      exact h'.behind_word hb.1 hb.2
  | literal | escape => cases hf

theorem Lexes.fixed (h : Lexes q a ts) (b : String) (us : List Token) (hb : Fixed q b us) :
    Closed q (a ++ b) (ts ++ us) :=
  closed_iff.mpr (h.scans hb.1 (closed_iff.mp hb.2))

theorem Lexes.append (h : Lexes q a ts) (hb : Breaks q b) (h' : Lexes q b us) : Lexes q (a ++ b) (ts ++ us) := by
  obtain ⟨read, mode, last, hs, hf, rfl⟩ := lexes_iff.mp h'
  exact lexes_iff.mpr ⟨ts ++ read, mode, last, h.scans hb hs, hf, (List.append_assoc ..).symm⟩

theorem Lexes.indent (h : Lexes q a ts) : Lexes q (Text.indent a) ts := by
  obtain ⟨read, mode, last, hs, hf, rfl⟩ := lexes_iff.mp h
  rw [lexes_iff, Text.indent, String.toList_ofList]
  exact ⟨read, mode, last, hs.indent, hf, rfl⟩

theorem Closed.indent (h : Closed q a ts) : Closed q (Text.indent a) ts := by
  rw [closed_iff, Text.indent, String.toList_ofList]
  exact (closed_iff.mp h).indent

theorem breaks_append (h : Breaks q a) : Breaks q (a ++ b) := by
  rw [Breaks, String.toList_append]
  rw [Breaks] at h
  cases hc : a.toList with
  | nil =>
    rw [hc] at h
    cases h
  | cons c cs =>
    rw [hc] at h
    exact h

theorem not_isBlank_of_isWordChar {c : Char} (h : isWordChar c = true) : isBlank c = false := by
  rw [isBlank, Bool.or_eq_false_iff, decide_eq_false_iff_not, decide_eq_false_iff_not]
  constructor
  · rintro rfl
    cases h
  · rintro rfl
    cases h

theorem IsWord.lexes (h : IsWord a) : Lexes q a [.word a] := by
  obtain ⟨hn, hw⟩ := h
  cases hc : a.toList with
  | nil => exact absurd (String.toList_eq_nil_iff.mp hc) hn
  | cons c cs =>
    rw [hc] at hw
    obtain ⟨hcw, hs⟩ := List.forall_mem_cons.mp hw
    have hstep : q.step .code c = some ([], .word [c]) := by
      rw [Quoting.step, Quoting.begin, not_isBlank_of_isWordChar hcw, if_neg Bool.false_ne_true, if_pos hcw]
    rw [lexes_iff, hc]
    refine ⟨[], _, _, .cons hstep (scans_word hs), rfl, ?_⟩
    simp [← hc]

end Lexes

end SceneCode.Code
