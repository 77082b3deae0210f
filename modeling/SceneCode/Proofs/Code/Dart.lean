import SceneCode.Proofs.Code.Words

namespace SceneCode.Dart
open Code (Token)

/-- An argument that goes by its place has the empty name. -/
inductive Expr where
  | literal (text : String)
  | name (word : String)
  | call (callee : String) (arguments : List (String × Expr))
  | list (items : List Expr)
deriving Inhabited

/-- What has been read of an expression. -/
inductive Draft where
  | nothing
  | word (text : String)
  | whole (expr : Expr)

def Draft.expr? : Draft → Option Expr
  | nothing => none
  | word text => some (.name text)
  | whole expr => some expr

/-- What an open bracket holds so far, and the name of the argument that comes next. -/
inductive Frame where
  | call (callee : String) (arguments : List (String × Expr)) (key : String)
  | list (items : List Expr)

def Frame.add (expr : Expr) : Frame → Frame
  | call callee arguments key => call callee (arguments ++ [(key, expr)]) ""
  | list items => list (items ++ [expr])

structure State where
  draft : Draft := .nothing
  around : List Frame := []
  before : List Expr := []

namespace State

def literal (s : State) (text : String) : Option State :=
  match s.draft with
  | .nothing => some { s with draft := .whole (.literal text) }
  | _ => none

/-- An expression outside of all brackets ends where the next one begins. -/
def word (s : State) (text : String) : Option State :=
  match s.draft with
  | .nothing => some { s with draft := .word text }
  | .word before => if before = "const" then some { s with draft := .word text } else none
  | .whole expr =>
    match s.around with
    | [] => some ⟨.word text, [], s.before ++ [expr]⟩
    | _ :: _ => none

def beginCall (s : State) : Option State :=
  match s.draft with
  | .word callee => some ⟨.nothing, .call callee [] "" :: s.around, s.before⟩
  | _ => none

def beginList (s : State) : Option State :=
  match s.draft with
  | .nothing => some ⟨.nothing, .list [] :: s.around, s.before⟩
  | _ => none

def key (s : State) : Option State :=
  match s.draft, s.around with
  | .word key, .call callee arguments "" :: around => some ⟨.nothing, .call callee arguments key :: around, s.before⟩
  | _, _ => none

def comma (s : State) : Option State :=
  match s.draft.expr?, s.around with
  | some expr, frame :: around => some ⟨.nothing, frame.add expr :: around, s.before⟩
  | _, _ => none

/-- What a bracket holds when it closes. It may close behind a comma. -/
def closed (s : State) : Option (Frame × List Frame) :=
  match s.draft.expr?, s.around with
  | some expr, frame :: around => some (frame.add expr, around)
  | none, .call callee arguments "" :: around => some (.call callee arguments "", around)
  | none, .list items :: around => some (.list items, around)
  | _, _ => none

def endCall (s : State) : Option State :=
  match s.closed with
  | some (.call callee arguments _, around) => some ⟨.whole (.call callee arguments), around, s.before⟩
  | _ => none

def endList (s : State) : Option State :=
  match s.closed with
  | some (.list items, around) => some ⟨.whole (.list items), around, s.before⟩
  | _ => none

def step (s : State) : Token → Option State
  | .literal text => s.literal text
  | .word text => s.word text
  | .mark '(' => s.beginCall
  | .mark ')' => s.endCall
  | .mark '[' => s.beginList
  | .mark ']' => s.endList
  | .mark ':' => s.key
  | .mark ',' => s.comma
  | .mark _ => none

end State

def exprsOf (tokens : List Token) : Option (List Expr) :=
  match tokens.foldlM State.step {} with
  | some ⟨draft, [], before⟩ => some (before ++ draft.expr?.toList)
  | _ => none

/-- The expressions that some code consists of. -/
def exprs? (code : String) : Option (List Expr) :=
  Code.dart.lex code >>= exprsOf

/-- Wherever the tokens stand, they are read as one expression. -/
def Parses (tokens : List Token) (expr : Expr) : Prop :=
  ∀ around before, ∃ draft, tokens.foldlM State.step ⟨.nothing, around, before⟩ = some ⟨draft, around, before⟩ ∧
    draft.expr? = some expr

def Denotes (code : String) (expr : Expr) : Prop :=
  ∃ tokens, Code.Lexes Code.dart code tokens ∧ Parses tokens expr

/-- An argument goes by its place or by a word. -/
def IsKey (key : String) : Prop :=
  key = "" ∨ Code.IsWord key

instance (key : String) : Decidable (IsKey key) := inferInstanceAs (Decidable (_ ∨ _))

def keyTokens (key : String) : List Token :=
  if key = "" then [] else [.word key, .mark ':']

/-- The argument that comes next, up to where it ends. -/
def Yields (tokens : List Token) (argument : String × Expr) : Prop :=
  ∀ callee arguments around before, ∃ draft key,
    tokens.foldlM State.step ⟨.nothing, .call callee arguments "" :: around, before⟩ =
      some ⟨draft, .call callee arguments key :: around, before⟩ ∧
    draft.expr? = some argument.2 ∧ key = argument.1

section Parses
variable {tokens ts us : List Token} {expr : Expr} {word key : String} {s s' s'' : State}

theorem parses_word (word : String) : Parses [.word word] (.name word) :=
  fun _ _ => ⟨.word word, rfl, rfl⟩

theorem parses_literal (text : String) : Parses [.literal text] (.literal text) :=
  fun _ _ => ⟨.whole (.literal text), rfl, rfl⟩

theorem reads_append (h : ts.foldlM State.step s = some s') (h' : us.foldlM State.step s' = some s'') :
    (ts ++ us).foldlM State.step s = some s'' := by
  rw [List.foldlM_append, h]
  exact h'

theorem reads_key (key callee : String) (arguments : List (String × Expr)) (around : List Frame) (before : List Expr) :
    (keyTokens key).foldlM State.step ⟨.nothing, .call callee arguments "" :: around, before⟩ =
      some ⟨.nothing, .call callee arguments key :: around, before⟩ := by
  unfold keyTokens
  split
  · rename_i hk
    rw [hk]
    rfl
  · rfl

theorem Parses.yields (h : Parses tokens expr) (key : String) : Yields (keyTokens key ++ tokens) (key, expr) := by
  intro callee arguments around before
  obtain ⟨draft, hr, he⟩ := h (.call callee arguments key :: around) before
  exact ⟨draft, key, reads_append (reads_key key callee arguments around before) hr, he, rfl⟩

theorem Yields.reads_comma {argument : String × Expr} (h : Yields tokens argument) (callee : String)
    (arguments : List (String × Expr)) (around : List Frame) (before : List Expr) :
    (tokens ++ [Token.mark ',']).foldlM State.step ⟨.nothing, .call callee arguments "" :: around, before⟩ =
      some ⟨.nothing, .call callee (arguments ++ [argument]) "" :: around, before⟩ := by
  obtain ⟨draft, key, hr, he, rfl⟩ := h callee arguments around before
  refine reads_append hr ?_
  simp [State.step, State.comma, he, Frame.add]

/-- Arguments that each have a comma behind them. -/
theorem reads_arguments {lines : List (List Token)} {arguments' : List (String × Expr)}
    (h : List.Forall₂ Yields lines arguments') (callee : String) (arguments : List (String × Expr))
    (around : List Frame) (before : List Expr) :
    (lines.flatMap (· ++ [.mark ','])).foldlM State.step ⟨.nothing, .call callee arguments "" :: around, before⟩ =
      some ⟨.nothing, .call callee (arguments ++ arguments') "" :: around, before⟩ := by
  induction h generalizing arguments with
  | nil =>
    rw [List.append_nil]
    rfl
  | @cons line argument lines arguments' hl _ ih =>
    rw [List.flatMap_cons, List.append_cons arguments]
    exact reads_append (hl.reads_comma callee arguments around before) (ih (arguments ++ [argument]))

theorem parses_call {lines : List (List Token)} {arguments : List (String × Expr)} (callee : String)
    (h : List.Forall₂ Yields lines arguments) :
    Parses ([.word callee, .mark '('] ++ lines.flatMap (· ++ [.mark ',']) ++ [.mark ')']) (.call callee arguments) := by
  intro around before
  have ho : [Token.word callee, .mark '('].foldlM State.step ⟨.nothing, around, before⟩ =
      some ⟨.nothing, .call callee [] "" :: around, before⟩ := rfl
  exact ⟨_, reads_append (reads_append ho (reads_arguments h callee [] around before)) rfl, rfl⟩

/-- Items that each have a comma behind them. -/
theorem reads_items {lines : List (List Token)} {items' : List Expr} (h : List.Forall₂ Parses lines items')
    (items : List Expr) (around : List Frame) (before : List Expr) :
    (lines.flatMap (· ++ [.mark ','])).foldlM State.step ⟨.nothing, .list items :: around, before⟩ =
      some ⟨.nothing, .list (items ++ items') :: around, before⟩ := by
  induction h generalizing items with
  | nil =>
    rw [List.append_nil]
    rfl
  | @cons line item lines items' hl _ ih =>
    obtain ⟨draft, hr, he⟩ := hl (.list items :: around) before
    have hc : [Token.mark ','].foldlM State.step ⟨draft, .list items :: around, before⟩ =
        some ⟨.nothing, .list (items ++ [item]) :: around, before⟩ := by
      simp [State.step, State.comma, he, Frame.add]
    rw [List.flatMap_cons, List.append_cons items]
    exact reads_append (reads_append hr hc) (ih (items ++ [item]))

theorem parses_list {lines : List (List Token)} {items : List Expr} (h : List.Forall₂ Parses lines items) :
    Parses ([.mark '['] ++ lines.flatMap (· ++ [.mark ',']) ++ [.mark ']']) (.list items) := by
  intro around before
  have ho : [Token.mark '['].foldlM State.step ⟨.nothing, around, before⟩ =
      some ⟨.nothing, .list [] :: around, before⟩ := rfl
  exact ⟨_, reads_append (reads_append ho (reads_items h [] around before)) rfl, rfl⟩

/-- The last item needs no comma. -/
theorem parses_row {lines : List (List Token)} {items : List Expr} {last : List Token} {item : Expr}
    (h : List.Forall₂ Parses lines items) (hl : Parses last item) :
    Parses ([.mark '['] ++ lines.flatMap (· ++ [.mark ',']) ++ last ++ [.mark ']']) (.list (items ++ [item])) := by
  intro around before
  have ho : [Token.mark '['].foldlM State.step ⟨.nothing, around, before⟩ =
      some ⟨.nothing, .list [] :: around, before⟩ := rfl
  obtain ⟨draft, hr, he⟩ := hl (.list items :: around) before
  have hc : [Token.mark ']'].foldlM State.step ⟨draft, .list items :: around, before⟩ =
      some ⟨.whole (.list (items ++ [item])), around, before⟩ := by
    simp [State.step, State.endList, State.closed, he, Frame.add]
  exact ⟨_, reads_append (reads_append (reads_append ho (reads_items h [] around before)) hr) hc, rfl⟩

end Parses
end SceneCode.Dart
