import SceneCode.Proofs.Code.Dart

namespace SceneCode.Dart
open Code (Token WellNested)

/-- Where an expression stands. -/
inductive Place where
  | top
  | argument (callee key : String)
  | item (list : Place)
deriving DecidableEq

namespace Expr

mutual
/-- The texts of the literals, from the left. -/
def literals : Expr → List String
  | literal text => [text]
  | name _ => []
  | call _ arguments => literalsOfArguments arguments
  | list items => literalsOfItems items

def literalsOfArguments : List (String × Expr) → List String
  | [] => []
  | (_, expr) :: arguments => expr.literals ++ literalsOfArguments arguments

def literalsOfItems : List Expr → List String
  | [] => []
  | expr :: items => expr.literals ++ literalsOfItems items
end

mutual
/-- Where the calls of a name stand in an expression that stands at a place. -/
def places (sought : String) (place : Place) : Expr → List Place
  | literal _ | name _ => []
  | call callee arguments =>
    (if callee = sought then [place] else []) ++ placesInArguments sought callee arguments
  | list items => placesInItems sought (.item place) items

def placesInArguments (sought callee : String) : List (String × Expr) → List Place
  | [] => []
  | (key, expr) :: arguments =>
    expr.places sought (.argument callee key) ++ placesInArguments sought callee arguments

def placesInItems (sought : String) (place : Place) : List Expr → List Place
  | [] => []
  | expr :: items => expr.places sought place ++ placesInItems sought place items
end

theorem literalsOfArguments_eq (arguments : List (String × Expr)) :
    literalsOfArguments arguments = arguments.flatMap fun argument => argument.2.literals := by
  induction arguments with
  | nil => rfl
  | cons argument arguments ih => rw [literalsOfArguments, ih, List.flatMap_cons]

theorem literalsOfItems_eq (items : List Expr) : literalsOfItems items = items.flatMap literals := by
  induction items with
  | nil => rfl
  | cons expr items ih => rw [literalsOfItems, ih, List.flatMap_cons]

theorem placesInArguments_eq (sought callee : String) (arguments : List (String × Expr)) :
    placesInArguments sought callee arguments =
      arguments.flatMap fun argument => argument.2.places sought (.argument callee argument.1) := by
  induction arguments with
  | nil => rfl
  | cons argument arguments ih => rw [placesInArguments, ih, List.flatMap_cons]

theorem placesInItems_eq (sought : String) (place : Place) (items : List Expr) :
    placesInItems sought place items = items.flatMap (places sought place) := by
  induction items with
  | nil => rfl
  | cons expr items ih => rw [placesInItems, ih, List.flatMap_cons]

end Expr

def Draft.literals (draft : Draft) : List String :=
  draft.expr?.toList.flatMap Expr.literals

def Frame.literals : Frame → List String
  | call _ arguments _ => Expr.literalsOfArguments arguments
  | list items => Expr.literalsOfItems items

def Frame.awaited : Frame → Char
  | call .. => ')'
  | list _ => ']'

namespace State
variable {s s' : State} {t : Token}

def literals (s : State) : List String :=
  s.before.flatMap Expr.literals ++ s.around.reverse.flatMap Frame.literals ++ s.draft.literals

def awaited (s : State) : List Char :=
  s.around.map Frame.awaited

theorem add_literals (frame : Frame) (expr : Expr) : (frame.add expr).literals = frame.literals ++ expr.literals := by
  cases frame <;> simp [Frame.add, Frame.literals, Expr.literalsOfArguments_eq, Expr.literalsOfItems_eq]

theorem add_awaited (frame : Frame) (expr : Expr) : (frame.add expr).awaited = frame.awaited := by
  cases frame <;> rfl

/-- From one state to the next these brackets have been opened or closed, and these literals read. -/
def Keeps (s s' : State) (t : Token) : Prop :=
  Code.bracket s.awaited t = some s'.awaited ∧ s'.literals = s.literals ++ t.literal?.toList

theorem literal_keeps {text : String} (h : s.literal text = some s') : s.Keeps s' (.literal text) := by
  obtain ⟨draft, around, before⟩ := s
  cases draft <;> cases h
  simp [Keeps, awaited, literals, Code.bracket, Token.literal?, Draft.literals, Draft.expr?, Expr.literals]

theorem word_keeps {text : String} (h : s.word text = some s') : s.Keeps s' (.word text) := by
  obtain ⟨draft, around, before⟩ := s
  cases draft with
  | nothing =>
    cases h
    simp [Keeps, awaited, literals, Code.bracket, Token.literal?, Draft.literals, Draft.expr?, Expr.literals]
  | word word =>
    simp only [State.word] at h
    split at h <;> cases h
    simp [Keeps, awaited, literals, Code.bracket, Token.literal?, Draft.literals, Draft.expr?, Expr.literals]
  | whole expr =>
    cases around <;> cases h
    simp [Keeps, awaited, literals, Code.bracket, Token.literal?, Draft.literals, Draft.expr?, Expr.literals]

theorem beginCall_keeps (h : s.beginCall = some s') : s.Keeps s' (.mark '(') := by
  obtain ⟨draft, around, before⟩ := s
  cases draft <;> cases h
  simp [Keeps, awaited, literals, Code.bracket, Code.closing?, Token.literal?, Draft.literals, Draft.expr?,
    Expr.literals, Frame.literals, Frame.awaited, Expr.literalsOfArguments]

theorem beginList_keeps (h : s.beginList = some s') : s.Keeps s' (.mark '[') := by
  obtain ⟨draft, around, before⟩ := s
  cases draft <;> cases h
  simp [Keeps, awaited, literals, Code.bracket, Code.closing?, Token.literal?, Draft.literals, Draft.expr?,
    Frame.literals, Frame.awaited, Expr.literalsOfItems]

theorem key_keeps (h : s.key = some s') : s.Keeps s' (.mark ':') := by
  unfold key at h
  split at h <;> cases h
  rename_i hd ha
  simp [Keeps, awaited, literals, Code.bracket, Code.closing?, Code.isClosing, Token.literal?, Draft.literals,
    Draft.expr?, Expr.literals, Frame.literals, Frame.awaited, hd, ha]

theorem comma_keeps (h : s.comma = some s') : s.Keeps s' (.mark ',') := by
  unfold comma at h
  split at h <;> cases h
  rename_i expr frame around hd ha
  have hl : s.draft.literals = expr.literals := by simp [Draft.literals, hd]
  have hn : Draft.nothing.literals = [] := rfl
  simp [Keeps, awaited, literals, Code.bracket, Code.closing?, Code.isClosing, Token.literal?, ha, hl, hn, add_literals,
    add_awaited]

/-- A bracket that closes is the innermost one, and the draft has gone into it. -/
theorem closed_keeps {frame : Frame} {around : List Frame} (h : s.closed = some (frame, around)) :
    s.awaited = frame.awaited :: around.map Frame.awaited ∧
      s.literals = s.before.flatMap Expr.literals ++ around.reverse.flatMap Frame.literals ++ frame.literals := by
  unfold closed at h
  split at h <;> cases h <;> rename_i hd ha
  · simp [awaited, literals, Draft.literals, hd, ha, add_literals, add_awaited]
  · simp [awaited, literals, Draft.literals, hd, ha]
  · simp [awaited, literals, Draft.literals, hd, ha]

theorem endCall_keeps (h : s.endCall = some s') : s.Keeps s' (.mark ')') := by
  unfold endCall at h
  split at h <;> cases h
  obtain ⟨ha, hl⟩ := closed_keeps ‹_›
  rw [Keeps, ha, hl]
  simp [awaited, literals, Code.bracket, Code.closing?, Code.isClosing, Token.literal?, Draft.literals, Draft.expr?,
    Expr.literals, Frame.literals, Frame.awaited]

theorem endList_keeps (h : s.endList = some s') : s.Keeps s' (.mark ']') := by
  unfold endList at h
  split at h <;> cases h
  obtain ⟨ha, hl⟩ := closed_keeps ‹_›
  rw [Keeps, ha, hl]
  simp [awaited, literals, Code.bracket, Code.closing?, Code.isClosing, Token.literal?, Draft.literals, Draft.expr?,
    Expr.literals, Frame.literals, Frame.awaited]

theorem step_keeps (h : s.step t = some s') : s.Keeps s' t := by
  unfold step at h
  split at h
  · exact literal_keeps h
  · exact word_keeps h
  · exact beginCall_keeps h
  · exact endCall_keeps h
  · exact beginList_keeps h
  · exact endList_keeps h
  · exact key_keeps h
  · exact comma_keeps h
  · cases h

theorem run_keeps {tokens : List Token} (h : tokens.foldlM step s = some s') :
    tokens.foldlM Code.bracket s.awaited = some s'.awaited ∧ s'.literals = s.literals ++ Code.literals tokens := by
  induction tokens generalizing s with
  | nil =>
    cases h
    exact ⟨rfl, (List.append_nil _).symm⟩
  | cons t tokens ih =>
    rw [List.foldlM_cons, Option.bind_eq_bind, Option.bind_eq_some_iff] at h
    obtain ⟨middle, hs, hr⟩ := h
    obtain ⟨hb, hl⟩ := step_keeps hs
    obtain ⟨hbs, hls⟩ := ih hr
    refine ⟨by rw [List.foldlM_cons, hb]; exact hbs, ?_⟩
    rw [hls, hl, List.append_assoc]
    cases hv : t.literal? <;> simp [Code.literals, hv]

end State

/-- Tokens that are read as expressions have matching brackets and the literals of the expressions. -/
theorem exprsOf_keeps {tokens : List Token} {exprs : List Expr} (h : exprsOf tokens = some exprs) :
    WellNested tokens ∧ Code.literals tokens = exprs.flatMap Expr.literals := by
  unfold exprsOf at h
  split at h
  · rename_i draft before hr
    cases h
    obtain ⟨hb, hl⟩ := State.run_keeps hr
    refine ⟨hb, ?_⟩
    simpa [State.literals, Draft.literals, Draft.expr?] using hl.symm
  · cases h

end SceneCode.Dart
