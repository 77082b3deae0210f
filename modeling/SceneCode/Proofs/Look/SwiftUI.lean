import SceneCode.Proofs.Look.Weight

namespace SceneCode.SwiftUI
variable (s : Styles) (key : String)

theorem below_modifiers (keys : List String) :
    Below (key ∈ keys ∧ ∃ v, s.get? key = some v)
      (fun n => weight n (String.join ((modifiers (s.erase key) keys).map ("\n" ++ ·))))
      (fun n => weight n (String.join ((modifiers s keys).map ("\n" ++ ·)))) := by
  simp only [weight_join, modifiers, List.map_map]
  refine (below_select keys (fun n e => weight n ("\n" ++ e.2)) s key).mono ?_
  rintro ⟨hk, v, hv⟩
  exact ⟨hk, v, hv, fun n => weight_pos n (by simp)⟩

theorem below_runModifiers (keys : List String) :
    Below (key ∈ keys ∧ ∃ v, s.get? key = some v ∧ v ≠ "")
      (fun n => weight n (String.join (modifiers (s.erase key) keys)))
      (fun n => weight n (String.join (modifiers s keys))) := by
  simp only [weight_join, modifiers, List.map_map]
  refine (below_select keys (fun n e => weight n e.2) s key).mono ?_
  rintro ⟨hk, v, hv, hn⟩
  exact ⟨hk, v, hv, fun n => weight_pos n hn⟩

theorem below_finished {gone : Prop} {view view' : String} (h : Below gone (weight · view) (weight · view'))
    (name : Option String) :
    Below (gone ∨ key ∈ modifierOrder ∧ ∃ v, s.get? key = some v)
      (fun n => weight n (finished name (s.erase key) view)) (fun n => weight n (finished name s view')) := by
  simp only [finished, weight_append]
  exact (h.const_add _).add (below_modifiers s key modifierOrder)

/-- The children are put together by what arranges them, and by nothing else. -/
theorem containerView_erase {key : String} (hk : key ∉ ["stack", "spacers"]) (children : List String) :
    containerView (s.erase key) children = containerView s children := by
  simp only [List.mem_cons, List.not_mem_nil, or_false, not_or] at hk
  unfold containerView spaced
  rw [s.get?_erase_of_ne (Ne.symm hk.1), s.get?_erase_of_ne (Ne.symm hk.2)]

/-- Runs are added up. -/
theorem textView_sum {runs : List Run} (h : ∀ text, runs ≠ [⟨text, none⟩]) :
    textView s runs =
      let sum := " + ".intercalate (runs.map runView)
      if s.isEmpty then sum else "(" ++ sum ++ ")" := by
  unfold textView
  split
  · exact absurd rfl (h _)
  · rfl

/-- Brackets around a sum are there for the styles of all of it. -/
theorem below_bracketed (sum : String) :
    Below False (fun n => weight n (if (s.erase key).isEmpty then sum else "(" ++ sum ++ ")"))
      (fun n => weight n (if s.isEmpty then sum else "(" ++ sum ++ ")")) := by
  intro n
  refine ⟨?_, nofun⟩
  dsimp only
  cases hs : s.isEmpty with
  | true => rw [Styles.isEmpty_erase hs]
  | false =>
    rw [if_neg Bool.false_ne_true]
    split
    · simp only [weight_append]
      omega
    · exact Nat.le_refl _

theorem below_textView (runs : List Run) :
    Below False (fun n => weight n (textView (s.erase key) runs)) (fun n => weight n (textView s runs)) := by
  unfold textView
  split
  · exact .refl _
  · exact below_bracketed s key _

section
variable (before after : List Run) (text : String)

theorem below_sum :
    Below (key ∈ textModifiers ∧ ∃ v, s.get? key = some v ∧ v ≠ "")
      (fun n => weight n (" + ".intercalate ((before ++ ⟨text, some (s.erase key)⟩ :: after).map runView)))
      (fun n => weight n (" + ".intercalate ((before ++ ⟨text, some s⟩ :: after).map runView))) := by
  have hr : Below (key ∈ textModifiers ∧ ∃ v, s.get? key = some v ∧ v ≠ "")
      (fun n => weight n (runView ⟨text, some (s.erase key)⟩)) (fun n => weight n (runView ⟨text, some s⟩)) := by
    simp only [runView, weight_append]
    exact (below_runModifiers s key textModifiers).const_add _
  simp only [weight_intercalate, List.map_append, List.map_cons, List.sum_append, List.sum_cons, List.length_append,
    List.length_cons]
  exact ((hr.add_const _).const_add _).add_const _

theorem below_textView_run (own : Styles) :
    Below (key ∈ textModifiers ∧ ∃ v, s.get? key = some v ∧ v ≠ "")
      (fun n => weight n (textView own (before ++ ⟨text, some (s.erase key)⟩ :: after)))
      (fun n => weight n (textView own (before ++ ⟨text, some s⟩ :: after))) := by
  have hs := below_sum s key before after text
  simp only [textView_sum own (Run.ne_plain before after text _)]
  split
  · exact hs
  · simp only [weight_append]
    exact (hs.const_add _).add_const _

/-- A run keeps quiet about what would not leave it a text. -/
theorem textView_erase_run {key : String} (hk : key ∉ textModifiers) (own : Styles) :
    textView own (before ++ ⟨text, some (s.erase key)⟩ :: after) =
      textView own (before ++ ⟨text, some s⟩ :: after) := by
  have hr : runView ⟨text, some (s.erase key)⟩ = runView ⟨text, some s⟩ := by
    simp only [runView, modifiers, Option.map_some, s.select_erase hk]
  simp only [textView_sum own (Run.ne_plain before after text _), List.map_append, List.map_cons, hr]

end

/-- A modifier is for the children, or it stands in the order. -/
theorem mem_modifierOrder {a : Aspect} {k : String} (hk : k ∈ keysOf a) (hn : k ∉ Target.swiftUI.arrangementKeys) :
    k ∈ modifierOrder := by
  cases a <;> simp_all [keysOf, Target.arrangementKeys, modifierOrder] <;> grind

theorem mem_textModifiers (run : TextRun) (c : Option (Rgb × Float)) {k : String}
    (hk : k ∈ keysOf (.typography run c)) (hn : k ∉ Target.swiftUI.unaddedKeys) : k ∈ textModifiers := by
  simp_all [keysOf, Target.unaddedKeys, textModifiers]

theorem showsStyles (showNames : Bool) (p : Piece Float) :
    Target.swiftUI.ShowsStyles showNames Target.swiftUI.arrangementKeys Target.swiftUI.unaddedKeys
      (Target.swiftUI.element p) := by
  refine .of_below (fun key hk => ?_) fun i s key hi hk => ?_
  · have hm : (∃ v, (Target.swiftUI.element p).styles.get? key = some v ∧ v ≠ "") →
        False ∨ key ∈ modifierOrder ∧ ∃ v, (Target.swiftUI.element p).styles.get? key = some v := by
      rintro ⟨v, hv, -⟩
      refine .inr ⟨?_, v, hv⟩
      rw [Target.element_styles] at hv
      obtain ⟨a, -, ha⟩ := Target.exists_keysOf hv
      exact mem_modifierOrder ha hk
    generalize Target.swiftUI.element p = e at hm ⊢
    cases e with
    | container name styles children =>
      simp only [Element.erase, Target.render, Target.container, container, containerView_erase styles hk]
      exact (below_finished styles key (.refl _) _).mono hm
    | image name styles source => exact (below_finished styles key (.refl _) _).mono hm
    | text name styles runs => exact (below_finished styles key (below_textView styles key runs) _).mono hm
  · have hm : (∃ v, s.get? key = some v ∧ v ≠ "") → key ∈ textModifiers ∧ ∃ v, s.get? key = some v ∧ v ≠ "" := by
      rintro ⟨v, hv, hn⟩
      refine ⟨?_, v, hv, hn⟩
      obtain ⟨base, run, rfl⟩ := Target.ofRun?_element hi
      obtain ⟨a, ha, hka⟩ := Target.exists_keysOf hv
      rw [List.mem_singleton.mp ha] at hka
      exact mem_textModifiers run ((Subject.ofBase base).textColor run) hka hk
    obtain ⟨name, styles, before, text, after, he, hr⟩ := Element.exists_of_ofRun? hi
    rw [hr, he]
    simp only [Target.render, Target.text, textBlock, finished, weight_append]
    exact (((below_textView_run s key before after text styles).const_add _).add_const _).mono hm

/-- Nothing is seen of what cannot be added up. -/
theorem render_eraseInRun (showNames : Bool) {e : Element} {i : Nat} {s : Styles} (h : e.ofRun? i = some s)
    {key : String} (hk : key ∈ Target.swiftUI.unaddedKeys) :
    Target.swiftUI.render showNames (e.eraseInRun i key) = Target.swiftUI.render showNames e := by
  have hn : key ∉ textModifiers := by
    rw [List.mem_singleton.mp hk]
    decide
  obtain ⟨name, styles, before, text, after, rfl, he⟩ := Element.exists_of_ofRun? h
  rw [he]
  exact congrArg (finished (Target.label showNames name) styles) (textView_erase_run s before after text hn styles)

end SceneCode.SwiftUI
