import SceneCode.Proofs.Code.SwiftUI

/-! Views that are added up. No plus stands within one of them, so that the sum falls into as many views as went into
it. -/
namespace SceneCode.Swift
open Code (Breaks Closed IsWord Lexes Token swift)
open SwiftUI (color modifiers runView textModifiers typography)

/-- Code without a sum in it. -/
def Single (code : String) (tokens : List Token) : Prop :=
  Closed swift code tokens ∧ .mark '+' ∉ tokens

instance (code : String) (tokens : List Token) : Decidable (Single code tokens) :=
  inferInstanceAs (Decidable (_ ∧ _))

/-- The code may end within a word. -/
def Operand (code : String) : Prop :=
  ∃ tokens, Lexes swift code tokens ∧ .mark '+' ∉ tokens

section
variable {a b code v : String} {tokens ts us : List Token}

theorem Single.append (h : Single a ts) (h' : Single b us) : Single (a ++ b) (ts ++ us) := by
  refine ⟨h.1.append h'.1, fun hm => ?_⟩
  exact (List.mem_append.mp hm).elim h.2 h'.2

theorem Single.operand (h : Single code tokens) : Operand code :=
  ⟨tokens, h.1.lexes, h.2⟩

theorem operand_word (h : IsWord v) : Operand v :=
  ⟨_, h.lexes, by simp⟩

theorem operand_text (x : Float) : Operand (Number.text x) :=
  operand_word (.text x)

theorem single_swift (text : String) : Single (Text.swift text) [.literal text] :=
  ⟨Code.closed_swift text, by simp⟩

/-- Some code is without a sum. -/
def Unsummed (code : String) : Prop :=
  ∃ tokens, Single code tokens

/-- A fixed text that may stand behind a value. -/
def isUnsummed (code : String) : Bool :=
  match swift.scan .code code.toList with
  | some (tokens, .code) => .mark '+' ∉ tokens
  | _ => false

theorem unsummed (code : String) (h : isUnsummed code = true) : Unsummed code := by
  unfold isUnsummed at h
  split at h
  · exact ⟨_, ‹_›, of_decide_eq_true h⟩
  · cases h

theorem Unsummed.append (h : Unsummed a) (h' : Unsummed b) : Unsummed (a ++ b) := by
  obtain ⟨ts, hs⟩ := h
  obtain ⟨us, hs'⟩ := h'
  exact ⟨_, hs.append hs'⟩

theorem Unsummed.operand (h : Unsummed code) : Operand code := by
  obtain ⟨ts, hs⟩ := h
  exact hs.operand

/-- A value, and a fixed text behind it. -/
theorem Unsummed.next (h : Unsummed a) (hv : Operand v) (b : String)
    (hb : Breaks swift b ∧ isUnsummed b = true) : Unsummed (a ++ v ++ b) := by
  obtain ⟨ts, hc, ht⟩ := h
  obtain ⟨vs, hlv, hvs⟩ := hv
  obtain ⟨us, hcu, hu⟩ := unsummed b hb.2
  refine ⟨ts ++ vs ++ us, Code.closed_iff.mpr ((hc.before hlv).scans hb.1 (Code.closed_iff.mp hcu)), ?_⟩
  simp only [List.mem_append, not_or]
  exact ⟨⟨ht, hvs⟩, hu⟩

theorem Unsummed.join {vs : List String} (h : ∀ v ∈ vs, Unsummed v) : Unsummed (String.join vs) := by
  induction vs with
  | nil => exact unsummed "" (by decide)
  | cons v vs ih =>
    obtain ⟨hv, hs⟩ := List.forall_mem_cons.mp h
    rw [String.join_cons]
    exact hv.append (ih hs)

end

theorem unsummed_color (c : Rgb) (opacity : Float) : Unsummed (color c opacity) := by
  have hc := (((unsummed "Color(red: " (by decide)).next (operand_text c.r) ", green: " (by decide)).next
    (operand_text c.g) ", blue: " (by decide)).next (operand_text c.b) ")" (by decide)
  refine hc.append ?_
  split
  · exact (unsummed ".opacity(" (by decide)).next (operand_text _) ")" (by decide)
  · exact unsummed "" (by decide)

theorem unsummed_typography (run : TextRun) (fill : Option (Rgb × Float)) :
    ∀ d ∈ typography run fill, Unsummed d.value := by
  have hw := isWord_fontWeight run.fontWeight
  have hf := (((unsummed ".font(Font.custom(" (by decide)).next (single_swift run.fontName.family).operand
    ", size: " (by decide)).next (operand_text run.fontSize) ").weight(" (by decide)).next (operand_word hw)
    "))" (by decide)
  have hk := (unsummed ".kerning(" (by decide)).next (operand_text (SwiftUI.kerning run)) ")" (by decide)
  have hl := (unsummed ".lineSpacing(" (by decide)).next (operand_text (SwiftUI.lineGap run)) ")" (by decide)
  unfold typography
  simp only [List.forall_mem_append, List.forall_mem_singleton, List.mem_ite_nil_right, and_imp, List.forall_mem_map,
    Option.mem_toList]
  refine ⟨⟨⟨⟨⟨hf, ?_⟩, ?_⟩, ?_⟩, ?_⟩, ?_⟩
  · rintro d - hd
    rw [List.mem_singleton.mp hd]
    exact unsummed ".italic()" (by decide)
  · intro v hv
    cases hd : run.decoration <;> rw [hd] at hv <;> cases hv <;> exact unsummed _ (by decide)
  · rintro d - hd
    rw [List.mem_singleton.mp hd]
    exact hk
  · rintro d - hd
    rw [List.mem_singleton.mp hd]
    exact hl
  · exact fun c _ => (unsummed ".foregroundColor(" (by decide)).next (unsummed_color _ _).operand ")" (by decide)

theorem unsummed_runStyles (base : Base) (run : TextRun) :
    ∀ e ∈ (Target.swiftUI.runStyles base run).entries, Unsummed e.2 := by
  unfold Target.runStyles
  intro e he
  obtain ⟨a, ha, d, hd, rfl⟩ := Target.exists_of_mem_entries he
  obtain rfl := List.mem_singleton.mp ha
  exact unsummed_typography _ _ d hd

theorem unsummed_modifiers {s : Styles} (h : ∀ e ∈ s.entries, Unsummed e.2) (keys : List String) :
    Unsummed (String.join (modifiers s keys)) := by
  refine Unsummed.join fun v hv => ?_
  obtain ⟨e, he, rfl⟩ := List.mem_map.mp hv
  obtain ⟨key, -, hk⟩ := List.mem_filterMap.mp he
  obtain ⟨v, hg, rfl⟩ := Option.map_eq_some_iff.mp hk
  exact h (key, v) (Styles.mem_entries_of_get? hg)

/-- A view of a text with nothing but the modifiers that the styles have for a part of a sum. -/
def IsTerm (text : String) (s : Styles) (term : List Token) : Prop :=
  ∃ tokens, Lexes swift (String.join (modifiers s textModifiers)) tokens ∧
    term = [.word "Text", .mark '(', .literal text, .mark ')'] ++ tokens

/-- Cut at every plus, the code is one view for each of these texts. -/
def IsSum (runs : List (String × Styles)) (code : String) : Prop :=
  ∃ tokens, Lexes swift code tokens ∧
    List.Forall₂ (fun run term => IsTerm run.1 run.2 term) runs (tokens.splitOn (.mark '+'))

theorem single_text (text : String) :
    Single ("Text(" ++ Text.swift text ++ ")") [.word "Text", .mark '(', .literal text, .mark ')'] := by
  have hf : Single "Text(" [.word "Text", .mark '('] := by decide
  have hl : Single ")" [.mark ')'] := by decide
  exact (hf.append (single_swift text)).append hl

theorem exists_single_runView {s : Styles} (h : ∀ e ∈ s.entries, Unsummed e.2) (text : String) :
    ∃ term, Single (runView ⟨text, some s⟩) term ∧ IsTerm text s term := by
  obtain ⟨tokens, hs⟩ := unsummed_modifiers h textModifiers
  have hv : runView ⟨text, some s⟩ = ("Text(" ++ Text.swift text ++ ")") ++ String.join (modifiers s textModifiers) :=
    rfl
  rw [hv]
  exact ⟨_, (single_text text).append hs, tokens, hs.1.lexes, rfl⟩

theorem closed_sum {codes : List String} {terms : List (List Token)} (h : List.Forall₂ Single codes terms) :
    Closed swift (" + ".intercalate codes) ([.mark '+'].intercalate terms) := by
  have hp : Closed swift " + " [.mark '+'] := by decide
  induction h with
  | nil => exact Code.closed_iff.mpr .nil
  | cons hc hs ih =>
    cases hs with
    | nil =>
      rw [String.intercalate_singleton, List.intercalate_singleton]
      exact hc.1
    | cons hd ht =>
      rw [String.intercalate_cons_cons, List.intercalate_cons_cons]
      exact (hc.1.append hp).append ih

/-- Code with a view for each of some texts is read as the sum of these views. -/
theorem isSum_of_terms {runs : List (String × Styles)} {codes : List String} (hn : runs ≠ [])
    (h : List.Forall₂ (fun run code => ∃ term, Single code term ∧ IsTerm run.1 run.2 term) runs codes) :
    IsSum runs (" + ".intercalate codes) := by
  have ht : ∃ terms, List.Forall₂ Single codes terms ∧
      List.Forall₂ (fun run term => IsTerm run.1 run.2 term) runs terms ∧ ∀ term ∈ terms, Token.mark '+' ∉ term := by
    clear hn
    induction h with
    | nil => exact ⟨[], .nil, .nil, nofun⟩
    | cons h _ ih =>
      obtain ⟨term, hs, ht⟩ := h
      obtain ⟨terms, hss, hts, hps⟩ := ih
      exact ⟨term :: terms, .cons hs hss, .cons ht hts, List.forall_mem_cons.mpr ⟨hs.2, hps⟩⟩
  obtain ⟨terms, hs, ht, hp⟩ := ht
  have hne : terms ≠ [] := by
    rintro rfl
    cases ht
    exact hn rfl
  refine ⟨_, (closed_sum hs).lexes, ?_⟩
  rwa [List.splitOn_intercalate _ hp hne]

/-- The views of runs with styles of their own are read as the sum of these views. -/
theorem isSum_runViews {runs : List (String × Styles)} (hn : runs ≠ [])
    (h : ∀ run ∈ runs, ∀ e ∈ run.2.entries, Unsummed e.2) :
    IsSum runs (" + ".intercalate (runs.map fun run => runView ⟨run.1, some run.2⟩)) := by
  refine isSum_of_terms hn ?_
  rw [List.forall₂_map_right_iff, List.forall₂_same]
  exact fun run hr => exists_single_runView (h run hr) run.1

end SceneCode.Swift
