import SceneCode.Proofs.Code.Dart
import SceneCode.Target.Flutter

namespace SceneCode.Dart
open Code (Token Closed Lexes Fixed IsWord)
open Flutter (call argument)

/-- The code up to where a further argument of a call comes. -/
def Begins (code callee : String) (arguments : List (String × Expr)) (key : String) : Prop :=
  ∃ tokens, Closed Code.dart code tokens ∧ ∀ around before,
    tokens.foldlM State.step ⟨.nothing, around, before⟩ =
      some ⟨.nothing, .call callee arguments key :: around, before⟩

def Reads (code : String) : Prop :=
  ∃ expr, Denotes code expr

/-- The expression that some code is. -/
def value (code : String) : Expr :=
  match exprs? code with
  | some [expr] => expr
  | _ => .name ""

section
variable {code v w callee key name : String} {expr : Expr} {arguments : List (String × Expr)} {ts : List Token}

theorem denotes_word (h : IsWord v) : Denotes v (.name v) :=
  ⟨_, h.lexes, parses_word v⟩

theorem denotes_dart (text : String) : Denotes (Text.dart text) (.literal text) :=
  ⟨_, (Code.closed_dart text).lexes, parses_literal text⟩

theorem Denotes.exprs?_eq (h : Denotes v expr) : exprs? v = some [expr] := by
  obtain ⟨tokens, hl, hp⟩ := h
  obtain ⟨draft, hr, he⟩ := hp [] []
  rw [exprs?, hl]
  simp only [Option.bind_eq_bind, Option.bind_some, exprsOf]
  rw [hr]
  simp [he]

theorem Denotes.value_eq (h : Denotes v expr) : value v = expr := by
  rw [value, h.exprs?_eq]

theorem Reads.denotes (h : Reads v) : Denotes v (value v) := by
  obtain ⟨expr, he⟩ := h
  rwa [he.value_eq]

theorem Denotes.reads (h : Denotes v expr) : Reads v :=
  ⟨expr, h⟩

theorem begins (code callee key : String)
    (h : Closed Code.dart code ([.word callee, .mark '('] ++ keyTokens key)) :
    Begins code callee [] key := by
  refine ⟨_, h, fun around before => ?_⟩
  have ho : [Token.word callee, .mark '('].foldlM State.step ⟨.nothing, around, before⟩ =
      some ⟨.nothing, .call callee [] "" :: around, before⟩ := rfl
  exact reads_append ho (reads_key key callee [] around before)

theorem begins_const (code callee key : String)
    (h : Closed Code.dart code ([.word "const", .word callee, .mark '('] ++ keyTokens key)) :
    Begins code callee [] key := by
  refine ⟨_, h, fun around before => ?_⟩
  have ho : [Token.word "const", .word callee, .mark '('].foldlM State.step ⟨.nothing, around, before⟩ =
      some ⟨.nothing, .call callee [] "" :: around, before⟩ := rfl
  exact reads_append ho (reads_key key callee [] around before)

theorem Begins.next (h : Begins code callee arguments key) (hv : Denotes v expr) (comma key' : String)
    (hc : Fixed Code.dart comma (.mark ',' :: keyTokens key')) :
    Begins (code ++ v ++ comma) callee (arguments ++ [(key, expr)]) key' := by
  obtain ⟨tokens, hl, hr⟩ := h
  obtain ⟨ts, hlv, hp⟩ := hv
  refine ⟨_, (hl.before hlv).fixed comma _ hc, fun around before => ?_⟩
  obtain ⟨draft, hd, he⟩ := hp (.call callee arguments key :: around) before
  have hs : [Token.mark ','].foldlM State.step ⟨draft, .call callee arguments key :: around, before⟩ =
      some ⟨.nothing, .call callee (arguments ++ [(key, expr)]) "" :: around, before⟩ := by
    simp [State.step, State.comma, he, Frame.add]
  have hn := reads_append hs (reads_key key' callee _ around before)
  exact reads_append (reads_append (hr around before) hd) hn

theorem Begins.finish (h : Begins code callee arguments key) (hv : Denotes v expr) :
    Denotes (code ++ v ++ ")") (.call callee (arguments ++ [(key, expr)])) := by
  obtain ⟨tokens, hl, hr⟩ := h
  obtain ⟨ts, hlv, hp⟩ := hv
  refine ⟨_, ((hl.before hlv).fixed ")" [.mark ')'] (by decide)).lexes, fun around before => ?_⟩
  obtain ⟨draft, hd, he⟩ := hp (.call callee arguments key :: around) before
  have hs : [Token.mark ')'].foldlM State.step ⟨draft, .call callee arguments key :: around, before⟩ =
      some ⟨.whole (.call callee (arguments ++ [(key, expr)])), around, before⟩ := by
    simp [State.step, State.endCall, State.closed, he, Frame.add]
  exact ⟨_, reads_append (reads_append (hr around before) hd) hs, rfl⟩

theorem closed_argument (hk : IsKey key) (hv : Lexes Code.dart v ts) :
    Closed Code.dart (argument key v) (keyTokens key ++ ts ++ [.mark ',']) := by
  have hb : Closed Code.dart "\n  " [] := by decide
  have hl : Closed Code.dart (if key.isEmpty then "" else key ++ ": ") (keyTokens key) := by
    unfold keyTokens
    split <;> rename_i he
    · rw [if_pos (String.isEmpty_iff.mp he)]
      exact Code.closed_iff.mpr .nil
    · rw [if_neg (mt String.isEmpty_iff.mpr he)]
      exact (hk.resolve_left (mt String.isEmpty_iff.mpr he)).lexes.fixed ": " [.mark ':'] (by decide)
  exact ((hb.append hl).before hv.indent).fixed "," [.mark ','] (by decide)

theorem exists_lines {as : List (String × String)} (h : ∀ a ∈ as, IsKey a.1 ∧ Reads a.2) :
    ∃ lines, Closed Code.dart (String.join (as.map fun (key, value) => argument key value))
        (lines.flatMap (· ++ [.mark ','])) ∧
      List.Forall₂ Yields lines (as.map fun a => (a.1, value a.2)) := by
  induction as with
  | nil => exact ⟨[], Code.closed_iff.mpr .nil, .nil⟩
  | cons a as ih =>
    obtain ⟨⟨hk, hv⟩, hs⟩ := List.forall_mem_cons.mp h
    obtain ⟨lines, hl, hy⟩ := ih hs
    obtain ⟨ts, ht, hp⟩ := hv.denotes
    refine ⟨(keyTokens a.1 ++ ts) :: lines, ?_, .cons (hp.yields a.1) hy⟩
    rw [List.map_cons, String.join_cons, List.flatMap_cons]
    exact (closed_argument hk ht).append hl

/-- Code that is one call. -/
def Calls (code : String) (callee : String) (arguments : List (String × Expr)) : Prop :=
  ∃ tokens, Lexes Code.dart code (.word callee :: tokens) ∧ Parses (.word callee :: tokens) (.call callee arguments)

theorem Calls.denotes (h : Calls code callee arguments) : Denotes code (.call callee arguments) := by
  obtain ⟨tokens, hl, hp⟩ := h
  exact ⟨_, hl, hp⟩

/-- A call is read as its name and its arguments. -/
theorem calls_call {as : List (String × String)} (hn : IsWord name) (h : ∀ a ∈ as, IsKey a.1 ∧ Reads a.2) :
    Calls (call name as) name (as.map fun a => (a.1, value a.2)) := by
  obtain ⟨lines, hl, hy⟩ := exists_lines h
  have ho : Closed Code.dart (name ++ "(") [.word name, .mark '('] := hn.lexes.fixed "(" [.mark '('] (by decide)
  refine ⟨_, ?_, parses_call name hy⟩
  unfold call
  split
  · rename_i he
    rw [List.isEmpty_iff.mp he] at hy
    cases hy
    have hc : Closed Code.dart (name ++ "()") [.word name, .mark '(', .mark ')'] :=
      hn.lexes.fixed "()" [.mark '(', .mark ')'] (by decide)
    exact hc.lexes
  · exact ((ho.append hl).lexes.fixed "\n)" [.mark ')'] (by decide)).lexes

theorem denotes_call {as : List (String × String)} (hn : IsWord name) (h : ∀ a ∈ as, IsKey a.1 ∧ Reads a.2) :
    Denotes (call name as) (.call name (as.map fun a => (a.1, value a.2))) :=
  (calls_call hn h).denotes

theorem exists_item_lines {items : List String} (h : ∀ v ∈ items, Reads v) :
    ∃ lines, Closed Code.dart (String.join (items.map fun item => Text.indent item ++ ","))
        (lines.flatMap (· ++ [.mark ','])) ∧
      List.Forall₂ Parses lines (items.map value) := by
  induction items with
  | nil => exact ⟨[], Code.closed_iff.mpr .nil, .nil⟩
  | cons v items ih =>
    obtain ⟨hv, hs⟩ := List.forall_mem_cons.mp h
    obtain ⟨lines, hl, hy⟩ := ih hs
    obtain ⟨ts, ht, hp⟩ := hv.denotes
    refine ⟨ts :: lines, ?_, .cons hp hy⟩
    rw [List.map_cons, String.join_cons, List.flatMap_cons]
    exact (ht.indent.fixed "," [.mark ','] (by decide)).append hl

theorem denotes_list {items : List String} (h : ∀ v ∈ items, Reads v) :
    Denotes (Flutter.list items) (.list (items.map value)) := by
  obtain ⟨lines, hl, hy⟩ := exists_item_lines h
  have ho : Closed Code.dart "[" [.mark '['] := by decide
  exact ⟨_, ((ho.append hl).lexes.fixed "\n]" [.mark ']'] (by decide)).lexes, parses_list hy⟩

theorem exists_row {items : List String} (h : ∀ v ∈ items, Reads v) (hn : items ≠ []) :
    ∃ lines last front item, Lexes Code.dart (", ".intercalate items) (lines.flatMap (· ++ [.mark ',']) ++ last) ∧
      List.Forall₂ Parses lines front ∧ Parses last item ∧ items.map value = front ++ [item] := by
  induction items with
  | nil => exact absurd rfl hn
  | cons v items ih =>
    obtain ⟨hv, hs⟩ := List.forall_mem_cons.mp h
    obtain ⟨ts, ht, hp⟩ := hv.denotes
    by_cases he : items = []
    · subst he
      refine ⟨[], ts, [], value v, ?_, .nil, hp, rfl⟩
      rw [String.intercalate_singleton]
      exact ht
    · obtain ⟨lines, last, front, item, hl, hy, hi, hm⟩ := ih hs he
      refine ⟨ts :: lines, last, value v :: front, item, ?_, .cons hp hy, hi, by rw [List.map_cons, hm]; rfl⟩
      rw [String.intercalate_cons_of_ne_nil he, List.flatMap_cons, List.append_assoc]
      exact (ht.fixed ", " [.mark ','] (by decide)).before hl

/-- Values in a row, with commas between them. -/
theorem denotes_row {items : List String} (h : ∀ v ∈ items, Reads v) :
    Denotes ("[" ++ ", ".intercalate items ++ "]") (.list (items.map value)) := by
  by_cases hn : items = []
  · subst hn
    have ho : Closed Code.dart ("[" ++ ", ".intercalate [] ++ "]") [.mark '[', .mark ']'] := by decide
    exact ⟨_, ho.lexes, parses_list .nil⟩
  · obtain ⟨lines, last, front, item, hl, hy, hi, hm⟩ := exists_row h hn
    have ho : Closed Code.dart "[" [.mark '['] := by decide
    refine ⟨_, ((ho.before hl).fixed "]" [.mark ']'] (by decide)).lexes, ?_⟩
    rw [hm, ← List.append_assoc [Token.mark '[']]
    exact parses_row hy hi

theorem denotes_line (h : Denotes v expr) : Denotes ("\n" ++ v) expr := by
  obtain ⟨ts, hl, hp⟩ := h
  have hb : Closed Code.dart "\n" [] := by decide
  exact ⟨ts, hb.before hl, hp⟩

theorem Calls.line (h : Calls code callee arguments) : Calls ("\n" ++ code) callee arguments := by
  obtain ⟨ts, hl, hp⟩ := h
  have hb : Closed Code.dart "\n" [] := by decide
  exact ⟨ts, hb.before hl, hp⟩

/-- A call goes behind another expression as it goes behind none. -/
theorem reads_behind (callee : String) (tokens : List Token) (expr : Expr) (before : List Expr) :
    (Token.word callee :: tokens).foldlM State.step ⟨.whole expr, [], before⟩ =
      (Token.word callee :: tokens).foldlM State.step ⟨.nothing, [], before ++ [expr]⟩ :=
  rfl

theorem Calls.reads_behind (h : Calls code callee arguments) : ∃ tokens, Lexes Code.dart code tokens ∧
    ∀ draft before, (∀ text, draft ≠ .word text) → tokens.foldlM State.step ⟨draft, [], before⟩ =
      some ⟨.whole (.call callee arguments), [], before ++ draft.expr?.toList⟩ := by
  obtain ⟨tokens, hl, hp⟩ := h
  refine ⟨_, hl, fun draft before hd => ?_⟩
  have hr (before : List Expr) : (Token.word callee :: tokens).foldlM State.step ⟨.nothing, [], before⟩ =
      some ⟨.whole (.call callee arguments), [], before⟩ := by
    obtain ⟨draft, hr, he⟩ := hp [] before
    cases draft <;> cases he
    exact hr
  cases draft with
  | nothing =>
    rw [hr]
    simp [Draft.expr?]
  | word text => exact absurd rfl (hd text)
  | whole expr =>
    rw [Dart.reads_behind, hr]
    rfl

/-- Lines that are each a call. -/
def Lines (lines : List String) : Prop :=
  ∀ line ∈ lines, ∃ code callee arguments, line = "\n" ++ code ∧ Calls code callee arguments

theorem Lines.breaks {lines : List String} (h : Lines lines) (hn : lines ≠ []) :
    Code.Breaks Code.dart (String.join lines) := by
  have hb : Code.Breaks Code.dart "\n" := by decide
  obtain ⟨line, lines, rfl⟩ := List.exists_cons_of_ne_nil hn
  obtain ⟨code, _, _, rfl, _⟩ := h line List.mem_cons_self
  rw [String.join_cons, String.append_assoc]
  exact Code.breaks_append hb

theorem Lines.exists_tokens {lines : List String} (h : Lines lines) :
    ∃ tokens, Lexes Code.dart (String.join lines) tokens ∧ ∀ draft before, (∀ text, draft ≠ .word text) →
      ∃ draft' before', tokens.foldlM State.step ⟨draft, [], before⟩ = some ⟨draft', [], before'⟩ ∧
        before' ++ draft'.expr?.toList = before ++ draft.expr?.toList ++ lines.map value := by
  induction lines with
  | nil =>
    exact ⟨[], (Code.closed_iff.mpr .nil).lexes, fun draft before _ => ⟨draft, before, rfl, by simp⟩⟩
  | cons line lines ih =>
    obtain ⟨⟨code, callee, arguments, rfl, hc⟩, hs⟩ := List.forall_mem_cons.mp h
    obtain ⟨ts, hl, hr⟩ := ih hs
    obtain ⟨us, hlu, hru⟩ := hc.line.reads_behind
    refine ⟨us ++ ts, ?_, fun draft before hd => ?_⟩
    · rw [String.join_cons]
      by_cases he : lines = []
      · subst he
        have ht : ts = [] := by
          have hn : Lexes Code.dart (String.join []) [] := (Code.closed_iff.mpr .nil).lexes
          exact Option.some.inj (hl.symm.trans hn)
        rw [ht, List.append_nil, String.join_nil, String.append_empty]
        exact hlu
      · exact hlu.append (Lines.breaks hs he) hl
    · obtain ⟨draft', before', hd', he⟩ := hr (.whole (.call callee arguments)) (before ++ draft.expr?.toList) nofun
      refine ⟨draft', before', reads_append (hru draft before hd) hd', ?_⟩
      rw [he, List.map_cons, hc.line.denotes.value_eq]
      simp [Draft.expr?]

/-- Lines of calls are read as these calls. -/
theorem Lines.exprs?_eq {lines : List String} (h : Lines lines) :
    exprs? (String.join lines) = some (lines.map value) := by
  obtain ⟨tokens, hl, hr⟩ := h.exists_tokens
  obtain ⟨draft, before, hd, he⟩ := hr .nothing [] nofun
  rw [exprs?, hl]
  simp only [Option.bind_eq_bind, Option.bind_some, exprsOf]
  rw [hd]
  simpa [Draft.expr?] using he

end
end SceneCode.Dart
