import SceneCode.Proofs.Look.Weight

namespace SceneCode

theorem weight_enclosed (n : Nat) (a b c : String) : weight n (a ++ b ++ c) = weight n (a ++ c) + weight n b := by
  simp only [weight_append]
  omega

namespace Html
variable (s : Styles) (key : String)

def styleItem (e : String × String) : String :=
  e.1 ++ ": " ++ e.2

def objectItem (e : String × String) : String :=
  objectKey e.1 ++ ": " ++ Text.singleQuoted e.2

theorem attributes_object : attributes true s =
    if s.isEmpty then "" else "style=\x7b\x7b" ++ ", ".intercalate (s.entries.map objectItem) ++ "\x7d\x7d" :=
  rfl

theorem attributes_style : attributes false s =
    if s.isEmpty then "" else
      "style=\"" ++ Text.escapeAttribute ("; ".intercalate (s.entries.map styleItem)) ++ "\"" :=
  rfl

theorem weight_attributes_object (n : Nat) :
    weight n (attributes true s) = rowWeight (fun n e => weight n (objectItem e))
      (fun n => weight n ("style=\x7b\x7b" ++ "\x7d\x7d")) (fun n => weight n ", ") s.entries n := by
  rw [attributes_object]
  unfold rowWeight Styles.isEmpty
  split
  · exact weight_empty n
  · rw [weight_enclosed, weight_intercalate, List.map_map, List.length_map, Function.comp_def]

theorem escapeAttribute_append (a b : String) :
    Text.escapeAttribute (a ++ b) = Text.escapeAttribute a ++ Text.escapeAttribute b := by
  simp [Text.escapeAttribute, String.toList_append]

theorem weight_attributes_style (n : Nat) :
    weight n (attributes false s) = rowWeight (fun n e => weight n (Text.escapeAttribute (styleItem e)))
      (fun n => weight n ("style=\"" ++ "\"")) (fun n => weight n (Text.escapeAttribute "; ")) s.entries n := by
  have ha (a b : String) : weight n (Text.escapeAttribute (a ++ b)) =
      weight n (Text.escapeAttribute a) + weight n (Text.escapeAttribute b) := by
    rw [escapeAttribute_append, weight_append]
  have he : weight n (Text.escapeAttribute "") = 0 := by simp [Text.escapeAttribute, weight]
  rw [attributes_style]
  unfold rowWeight Styles.isEmpty
  split
  · exact weight_empty n
  · rw [weight_enclosed, additive_intercalate (w := fun a => weight n (Text.escapeAttribute a)) ha he, List.map_map,
      List.length_map, Function.comp_def]

/-- With the colon alone an item weighs something. -/
theorem below_attributes (jsx : Bool) :
    Below (∃ v, s.get? key = some v) (fun n => weight n (attributes jsx (s.erase key)))
      (fun n => weight n (attributes jsx s)) := by
  have hx {v : String} (hv : s.get? key = some v) : (key, v) ∈ s.entries ∧ decide ((key, v).1 ≠ key) = false :=
    ⟨Styles.mem_entries_of_get? hv, by simp⟩
  cases jsx with
  | true =>
    simp only [weight_attributes_object]
    refine (below_row _ _ _ _ s.entries).mono ?_
    rintro ⟨v, hv⟩
    refine ⟨(key, v), (hx hv).1, (hx hv).2, fun n => weight_pos n ?_⟩
    simp [objectItem]
  | false =>
    simp only [weight_attributes_style]
    refine (below_row _ _ _ _ s.entries).mono ?_
    rintro ⟨v, hv⟩
    refine ⟨(key, v), (hx hv).1, (hx hv).2, fun n => weight_pos n ?_⟩
    have hc : Text.escapeAttribute ": " = ": " := by decide
    rw [styleItem, escapeAttribute_append, escapeAttribute_append, hc]
    simp

end Html

namespace Tailwind
variable (s : Styles) (key : String)

theorem weight_attributes (jsx : Bool) (n : Nat) :
    weight n (attributes jsx s) = rowWeight (fun n (e : String × String) => weight n e.2)
      (fun n => weight n ((if jsx then "className" else "class") ++ "=\"" ++ "\"")) (fun n => weight n " ")
      (s.entries.filter fun e => !e.2.isEmpty) n := by
  have hf : (s.entries.map (·.2)).filter (!·.isEmpty) = (s.entries.filter fun e => !e.2.isEmpty).map (·.2) :=
    List.filter_map
  unfold attributes rowWeight
  dsimp only
  rw [hf, List.isEmpty_map]
  split
  · exact weight_empty n
  · rw [weight_enclosed, weight_intercalate, List.map_map, List.length_map]
    rfl

/-- An entry without a value is no class. -/
theorem below_attributes (jsx : Bool) :
    Below (∃ v, s.get? key = some v ∧ v ≠ "") (fun n => weight n (attributes jsx (s.erase key)))
      (fun n => weight n (attributes jsx s)) := by
  simp only [weight_attributes, Styles.erase, List.filter_filter, Bool.and_comm]
  simp only [← List.filter_filter]
  refine (below_row _ _ _ _ (s.entries.filter fun e => !e.2.isEmpty)).mono ?_
  rintro ⟨v, hv, hn⟩
  refine ⟨(key, v), List.mem_filter.mpr ⟨Styles.mem_entries_of_get? hv, by simpa using hn⟩, by simp, fun n => ?_⟩
  exact weight_pos n hn

end Tailwind

namespace Markup
variable {a b : String} {gone : Prop}

theorem weight_spaced (n : Nat) (a : String) :
    weight n (if a.isEmpty then "" else " " ++ a) = if weight n a = 0 then 0 else weight n " " + weight n a := by
  cases ha : a.isEmpty with
  | true =>
    have he : weight n a = 0 := by
      rw [String.isEmpty_iff.mp ha]
      exact weight_empty n
    rw [if_pos he]
    exact weight_empty n
  | false =>
    have hp := weight_pos n (mt String.isEmpty_iff.mpr (Bool.eq_false_iff.mp ha))
    rw [if_neg (Nat.ne_of_gt hp), ← weight_append]
    rfl

theorem below_openTag (h : Below gone (weight · a) (weight · b)) (tag : String) (name : Option String) :
    Below gone (fun n => weight n (openTag tag a name)) (fun n => weight n (openTag tag b name)) := by
  have hs : Below gone (fun n => weight n (if a.isEmpty then "" else " " ++ a))
      (fun n => weight n (if b.isEmpty then "" else " " ++ b)) := by
    intro n
    obtain ⟨hl, hg⟩ := h n
    dsimp only at hl hg ⊢
    rw [weight_spaced, weight_spaced]
    split <;> split
    · refine ⟨Nat.le_refl _, fun g => ?_⟩
      have hlt := hg g
      omega
    · exact ⟨Nat.zero_le _, fun _ => by omega⟩
    · omega
    · refine ⟨by omega, fun g => ?_⟩
      have hlt := hg g
      omega
  simp only [openTag, weight_append]
  exact (hs.const_add _).add_const _

theorem below_element (h : Below gone (weight · a) (weight · b)) (jsx : Bool) (name : Option String)
    (children : List String) :
    Below gone (fun n => weight n (element jsx a name children)) (fun n => weight n (element jsx b name children)) := by
  have ht := below_openTag h "div" name
  unfold element
  dsimp only
  split
  · split <;> simp only [weight_append] <;> exact (ht.const_add _).add_const _
  · simp only [weight_append]
    exact (((ht.const_add _).add_const _).add_const _).add_const _

theorem below_image (h : Below gone (weight · a) (weight · b)) (name : Option String) (source : String) :
    Below gone (fun n => weight n (image a name source)) (fun n => weight n (image b name source)) := by
  simp only [image, weight_append]
  exact ((((below_openTag h "img" name).const_add _).add_const _).add_const _).add_const _

theorem below_span (h : Below gone (weight · a) (weight · b)) (content : String) :
    Below gone (fun n => weight n (span a content)) (fun n => weight n (span b content)) := by
  simp only [span, weight_append]
  exact (((below_openTag h "span" none).add_const _).add_const _).add_const _

/-- Runs are written one by one. -/
theorem content_spans (jsx : Bool) (attributes : Styles → String) {runs : List Run}
    (h : ∀ text, runs ≠ [⟨text, none⟩]) :
    content jsx attributes runs = String.join (runs.map fun run =>
      span ((run.styles.map attributes).getD "") (Text.escapeMarkup jsx run.text)) := by
  unfold content
  split
  · exact absurd rfl (h _)
  · rfl

variable {attributes : Styles → String} {s s' : Styles}

theorem below_content (h : Below gone (fun n => weight n (attributes s)) (fun n => weight n (attributes s')))
    (jsx : Bool) (before after : List Run) (text : String) :
    Below gone (fun n => weight n (content jsx attributes (before ++ ⟨text, some s⟩ :: after)))
      (fun n => weight n (content jsx attributes (before ++ ⟨text, some s'⟩ :: after))) := by
  simp only [content_spans jsx attributes (Run.ne_plain _ _ _ _), weight_join, List.map_append, List.map_cons,
    List.sum_append, List.sum_cons]
  exact ((below_span h _).add_const _).const_add _

end Markup

namespace Target
variable {t : Target} (ht : t.isMarkup = true)
include ht

theorem below_attributes (s : Styles) (key : String) :
    Below (∃ v, s.get? key = some v ∧ v ≠ "") (fun n => weight n (t.attributes (s.erase key)))
      (fun n => weight n (t.attributes s)) := by
  cases t with
  | html jsx => exact (Html.below_attributes s key jsx).mono fun ⟨v, hv, _⟩ => ⟨v, hv⟩
  | tailwind jsx options => exact Tailwind.below_attributes s key jsx
  | flutter => cases ht
  | swiftUI => cases ht

/-- All markup is written in one way, whatever the attributes say. -/
theorem exists_markup : ∃ jsx,
    (∀ name s children, t.container name s children = Markup.element jsx (t.attributes s) name children) ∧
      (∀ name s source, t.image name s source = Markup.image (t.attributes s) name source) ∧
      ∀ name s runs, t.text name s runs = Markup.text jsx t.attributes name s runs := by
  cases t with
  | html jsx => exact ⟨jsx, fun _ _ _ => rfl, fun _ _ _ => rfl, fun _ _ _ => rfl⟩
  | tailwind jsx options => exact ⟨jsx, fun _ _ _ => rfl, fun _ _ _ => rfl, fun _ _ _ => rfl⟩
  | flutter => cases ht
  | swiftUI => cases ht

theorem below_markup (showNames : Bool) (e : Element) (key : String) :
    Below (∃ v, e.styles.get? key = some v ∧ v ≠ "") (fun n => weight n (t.render showNames (e.erase key)))
      (fun n => weight n (t.render showNames e)) := by
  obtain ⟨jsx, hc, hi, hx⟩ := exists_markup ht
  have ha := below_attributes ht e.styles key
  cases e with
  | container name styles children =>
    simp only [Element.erase, render, hc]
    exact Markup.below_element ha jsx _ _
  | image name styles source =>
    simp only [Element.erase, render, hi]
    exact Markup.below_image ha _ source
  | text name styles runs =>
    simp only [Element.erase, render, hx, Markup.text, weight_append]
    exact ((((Markup.below_openTag ha "div" _).const_add _).add_const _).add_const _).add_const _

theorem showsStyles_markup (showNames : Bool) (e : Element) : t.ShowsStyles showNames [] [] e := by
  refine .of_below (fun key _ => below_markup ht showNames e key) fun i s key hi _ => ?_
  obtain ⟨jsx, -, -, hx⟩ := exists_markup ht
  obtain ⟨name, styles, before, text, after, rfl, he⟩ := Element.exists_of_ofRun? hi
  rw [he]
  simp only [render, hx, Markup.text, weight_append]
  exact ((Markup.below_content (below_attributes ht s key) jsx before after text).const_add _).add_const _

end Target
end SceneCode
