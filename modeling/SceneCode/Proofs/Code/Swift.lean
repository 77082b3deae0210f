import SceneCode.Proofs.Code.Words
import SceneCode.Text.Quoted

namespace SceneCode.Code

theorem bracket_append {t : Token} {awaited awaited' : List Char} (h : bracket awaited t = some awaited')
    (outer : List Char) : bracket (awaited ++ outer) t = some (awaited' ++ outer) := by
  cases t with
  | mark c =>
    simp only [bracket] at h ⊢
    cases hc : closing? c with
    | some d =>
      rw [hc] at h
      cases h
      rfl
    | none =>
      rw [hc] at h
      dsimp only at h ⊢
      split at h
      · split at h
        · split at h <;> cases h
          rw [List.cons_append, if_pos ‹_›]
          exact if_pos ‹_›
        · cases h
      · cases h
        exact if_neg ‹_›
  | word | literal =>
    cases h
    rfl

/-- Brackets that are open further out do not matter. -/
theorem foldlM_bracket_append {ts : List Token} {awaited awaited' : List Char}
    (h : ts.foldlM bracket awaited = some awaited') (outer : List Char) :
    ts.foldlM bracket (awaited ++ outer) = some (awaited' ++ outer) := by
  induction ts generalizing awaited with
  | nil =>
    cases h
    rfl
  | cons t ts ih =>
    rw [List.foldlM_cons, Option.bind_eq_bind, Option.bind_eq_some_iff] at h ⊢
    obtain ⟨middle, ht, hs⟩ := h
    exact ⟨middle ++ outer, bracket_append ht outer, ih hs⟩

theorem WellNested.foldlM {ts : List Token} (h : WellNested ts) (awaited : List Char) :
    ts.foldlM bracket awaited = some awaited :=
  foldlM_bracket_append h awaited

theorem literals_append (ts us : List Token) : literals (ts ++ us) = literals ts ++ literals us :=
  List.filterMap_append

end SceneCode.Code

namespace SceneCode.Swift
open Code (WellNested Breaks Closed IsWord Lexes Token bracket literals swift)

/-- Code that holds the texts in its literals, with the brackets that are open at its end. -/
def Open (code : String) (awaited : List Char) (texts : List String) : Prop :=
  ∃ tokens, Closed swift code tokens ∧ tokens.foldlM bracket [] = some awaited ∧ literals tokens = texts

/-- All brackets are closed. -/
def Whole (code : String) (texts : List String) : Prop :=
  Open code [] texts

/-- The code may end within a word. -/
def Says (code : String) (texts : List String) : Prop :=
  ∃ tokens, Lexes swift code tokens ∧ WellNested tokens ∧ literals tokens = texts

/-- The brackets that are open after a fixed text without literals. -/
def through? (code : String) (awaited : List Char) : Option (List Char) :=
  match swift.scan .code code.toList with
  | some (tokens, .code) => if literals tokens = [] then tokens.foldlM bracket awaited else none
  | _ => none

/-- The brackets that are open after a fixed text behind a value. -/
def behind? (code : String) (awaited : List Char) : Option (List Char) :=
  if Breaks swift code then through? code awaited else none

/-- Code as far as it is put together. If the fixed texts in it go with each other, these brackets are open at its
end. -/
def Draft (code : String) (awaited? : Option (List Char)) (texts : List String) : Prop :=
  ∀ awaited ∈ awaited?, Open code awaited texts

section
variable {a b code v : String} {awaited awaited' : List Char} {awaited? : Option (List Char)}
  {texts texts' : List String}

theorem exists_of_through? (h : through? code awaited = some awaited') :
    ∃ tokens, Closed swift code tokens ∧ literals tokens = [] ∧ tokens.foldlM bracket awaited = some awaited' := by
  unfold through? at h
  split at h
  · rename_i tokens hs
    split at h
    · exact ⟨tokens, hs, ‹_›, h⟩
    · cases h
  · cases h

theorem Draft.whole (h : Draft code awaited? texts) (hw : awaited? = some []) : Whole code texts :=
  h [] hw

theorem Whole.draft (h : Whole code texts) : Draft code (some []) texts := by
  intro awaited ha
  obtain rfl := Option.some.inj ha
  exact h

theorem opens (code : String) : Draft code (through? code []) [] := by
  intro awaited ha
  obtain ⟨tokens, hc, hl, hb⟩ := exists_of_through? ha
  exact ⟨tokens, hc, hb, hl⟩

theorem whole (code : String) (h : through? code [] = some []) : Whole code [] :=
  (opens code).whole h

theorem Draft.fixed (h : Draft a awaited? texts) (b : String) : Draft (a ++ b) (awaited?.bind (through? b)) texts := by
  intro awaited' ha
  obtain ⟨awaited, hw, hb⟩ := Option.bind_eq_some_iff.mp ha
  obtain ⟨ts, hc, hb', hl⟩ := h awaited hw
  obtain ⟨us, hcu, hlu, hbu⟩ := exists_of_through? hb
  refine ⟨ts ++ us, hc.append hcu, ?_, ?_⟩
  · rw [List.foldlM_append, hb']
    exact hbu
  · rw [Code.literals_append, hl, hlu, List.append_nil]

theorem Draft.append (h : Draft a awaited? texts) (hw : Whole b texts') :
    Draft (a ++ b) awaited? (texts ++ texts') := by
  intro awaited ha
  obtain ⟨ts, hc, hb, hl⟩ := h awaited ha
  obtain ⟨us, hcu, hbu, hlu⟩ := hw
  refine ⟨ts ++ us, hc.append hcu, ?_, ?_⟩
  · rw [List.foldlM_append, hb]
    exact WellNested.foldlM hbu awaited
  · rw [Code.literals_append, hl, hlu]

/-- A value, and a fixed text behind it. -/
theorem Draft.next (h : Draft a awaited? texts) (hv : Says v texts') (b : String) :
    Draft (a ++ v ++ b) (awaited?.bind (behind? b)) (texts ++ texts') := by
  intro awaited' ha
  obtain ⟨awaited, hw, hb⟩ := Option.bind_eq_some_iff.mp ha
  obtain ⟨hbreak, hb⟩ := Option.ite_none_right_eq_some.mp hb
  obtain ⟨ts, hc, hb', hl⟩ := h awaited hw
  obtain ⟨vs, hlv, hbv, htv⟩ := hv
  obtain ⟨us, hcu, hlu, hbu⟩ := exists_of_through? hb
  refine ⟨ts ++ vs ++ us, Code.closed_iff.mpr ((hc.before hlv).scans hbreak (Code.closed_iff.mp hcu)), ?_, ?_⟩
  · rw [List.foldlM_append, List.foldlM_append, hb']
    simp only [Option.bind_eq_bind, Option.bind_some, WellNested.foldlM hbv, hbu]
  · rw [Code.literals_append, Code.literals_append, hl, htv, hlu, List.append_nil]

theorem Whole.value (h : Whole v texts) : Says v texts := by
  obtain ⟨ts, hc, hb, hl⟩ := h
  exact ⟨ts, hc.lexes, hb, hl⟩

theorem Whole.append (h : Whole a texts) (h' : Whole b texts') : Whole (a ++ b) (texts ++ texts') :=
  (h.draft.append h').whole rfl

theorem Whole.indent (h : Whole a texts) : Whole (Text.indent a) texts := by
  obtain ⟨ts, hc, hb, hl⟩ := h
  exact ⟨ts, hc.indent, hb, hl⟩

theorem whole_empty : Whole "" [] :=
  whole "" (by decide)

theorem whole_swift (text : String) : Whole (Text.swift text) [text] :=
  ⟨_, Code.closed_swift text, rfl, rfl⟩

theorem says_word (h : IsWord v) : Says v [] :=
  ⟨_, h.lexes, rfl, rfl⟩

theorem says_text (x : Float) : Says (Number.text x) [] :=
  says_word (.text x)

theorem Whole.join {vs : List String} {textsOf : String → List String} (h : ∀ v ∈ vs, Whole v (textsOf v)) :
    Whole (String.join vs) (vs.flatMap textsOf) := by
  induction vs with
  | nil => exact whole_empty
  | cons v vs ih =>
    obtain ⟨hv, hs⟩ := List.forall_mem_cons.mp h
    rw [String.join_cons, List.flatMap_cons]
    exact hv.append (ih hs)

theorem Whole.before (h : Whole a texts) (hv : Says v texts') : Says (a ++ v) (texts ++ texts') := by
  obtain ⟨ts, hc, hb, hl⟩ := h
  obtain ⟨us, hlu, hbu, htu⟩ := hv
  refine ⟨ts ++ us, hc.before hlu, ?_, ?_⟩
  · rw [WellNested, List.foldlM_append, hb]
    exact hbu
  · rw [Code.literals_append, hl, htu]

/-- Values with a fixed text between them. -/
theorem Says.intercalate {separator : String} {vs : List String} {textsOf : String → List String}
    (hs : behind? separator [] = some []) (h : ∀ v ∈ vs, Says v (textsOf v)) :
    Says (separator.intercalate vs) (vs.flatMap textsOf) := by
  induction vs with
  | nil => exact whole_empty.value
  | cons v vs ih =>
    obtain ⟨hv, hrest⟩ := List.forall_mem_cons.mp h
    by_cases hn : vs = []
    · subst hn
      rw [String.intercalate_singleton, List.flatMap_singleton]
      exact hv
    · have hw : Whole ("" ++ v ++ separator) ([] ++ textsOf v) := (whole_empty.draft.next hv separator).whole hs
      rw [String.intercalate_cons_of_ne_nil hn, List.flatMap_cons]
      rw [String.empty_append, List.nil_append] at hw
      exact hw.before (ih hrest)

theorem Whole.intercalate {separator : String} {vs : List String} {textsOf : String → List String}
    (hs : Whole separator []) (h : ∀ v ∈ vs, Whole v (textsOf v)) :
    Whole (separator.intercalate vs) (vs.flatMap textsOf) := by
  induction vs with
  | nil => exact whole_empty
  | cons v vs ih =>
    obtain ⟨hv, hrest⟩ := List.forall_mem_cons.mp h
    by_cases hn : vs = []
    · subst hn
      rw [String.intercalate_singleton, List.flatMap_singleton]
      exact hv
    · have hw := hv.append hs
      rw [List.append_nil] at hw
      rw [String.intercalate_cons_of_ne_nil hn, List.flatMap_cons]
      exact hw.append (ih hrest)

end
end SceneCode.Swift
