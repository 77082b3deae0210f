import SceneCode.Color.Basic
import SceneCode.Proofs.Layers.Attributes
import SceneCode.Proofs.Number.Characters
import SceneCode.Target.Placeholder

namespace SceneCode.Markup.Layers

/-- Nothing that a quote behind it is not a last quote for. -/
def isEnd (c : Char) : Bool :=
  isEdge c && c != '\\' && c != '='

/-- A text ends so, if it is not empty. -/
def Ended (s : String) : Prop :=
  ∀ c ∈ s.toList.getLast?, isEnd c = true

instance (s : String) : Decidable (Ended s) :=
  decidable_of_iff (s.toList.getLast?.all isEnd = true) (Option.all_eq_true ..)

theorem isEnd_of_isNumberChar {c : Char} (h : Number.isNumberChar c = true) : isEnd c = true := by
  have hn {d : Char} (hd : Number.isNumberChar d = false) : c ≠ d := by
    rintro rfl
    rw [h] at hd
    cases hd
  have h₁ : c ≠ ' ' := hn (by decide)
  have h₂ : c ≠ '\n' := hn (by decide)
  have h₃ : c ≠ '\\' := hn (by decide)
  have h₄ : c ≠ '=' := hn (by decide)
  simp [isEnd, isEdge, h₁, h₂, h₃, h₄]

namespace Ended

theorem getLast?_ne {s : String} (h : Ended s) : s.toList.getLast? ≠ some '=' :=
  fun hl => absurd (h _ hl) (by decide)

theorem of_forall {s : String} (h : ∀ c ∈ s.toList, isEnd c = true) : Ended s :=
  fun c hc => h c (List.mem_of_getLast? hc)

/-- The end of a text that is not empty. -/
theorem append_right (a : String) {b : String} (h : b ≠ "" ∧ Ended b) : Ended (a ++ b) := by
  have hn : b.toList ≠ [] := by simpa using h.1
  intro c hc
  rw [String.toList_append, List.getLast?_append_of_ne_nil _ hn] at hc
  exact h.2 c hc

theorem ofList {cs : List Char} (h : cs.getLast?.all isEnd = true) : Ended (String.ofList cs) := by
  rw [Ended, String.toList_ofList]
  exact Option.all_eq_true .. |>.mp h

theorem append_ofList (a : String) {cs : List Char} (h : cs ≠ [] ∧ cs.getLast?.all isEnd = true) :
    Ended (a ++ String.ofList cs) :=
  append_right a ⟨mt String.ofList_eq_empty_iff.mp h.1, ofList h.2⟩

theorem append {a b : String} (ha : Ended a) (hb : Ended b) : Ended (a ++ b) := by
  by_cases hn : b = ""
  · rw [hn, String.append_empty]
    exact ha
  · exact append_right a ⟨hn, hb⟩

theorem intercalate (separator : String) {vs : List String} (h : ∀ v ∈ vs, v ≠ "" ∧ Ended v) :
    Ended (separator.intercalate vs) := by
  cases hl : vs.getLast? with
  | none =>
    rw [List.getLast?_eq_none_iff.mp hl]
    exact nofun
  | some v =>
    obtain ⟨hn, he⟩ := h v (List.mem_of_getLast? hl)
    intro c hc
    rw [Text.getLast?_intercalate separator hl hn] at hc
    exact he c hc

theorem of_numberChars {s : String} (h : ∀ c ∈ s.toList, Number.isNumberChar c = true) : Ended s :=
  of_forall fun c hc => isEnd_of_isNumberChar (h c hc)

theorem text (x : Float) : Ended (Number.text x) :=
  of_numberChars fun _ => Number.isNumberChar_of_mem_text

theorem repr_nat (n : Nat) : Ended n.repr :=
  of_numberChars fun _ => Number.isNumberChar_of_mem_repr_nat

theorem repr_int (n : Int) : Ended n.repr :=
  of_numberChars fun _ => Number.isNumberChar_of_mem_repr_int

end Ended
end SceneCode.Markup.Layers
