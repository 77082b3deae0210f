import Mathlib.Data.List.Forall2
import SceneCode.Proofs.Look.SwiftUI
import SceneCode.Proofs.Style.Settled

namespace SceneCode

namespace Styles
variable {s r : Styles} {keys : List String}

theorem mem_select {e : String × String} : e ∈ s.select keys ↔ e ∈ s.entries ∧ e.1 ∈ keys := by
  obtain ⟨k, v⟩ := e
  simp only [select, List.mem_filterMap, Option.map_eq_some_iff, mem_entries_iff]
  constructor
  · rintro ⟨k', hk, v', hv, he⟩
    obtain ⟨rfl, rfl⟩ := Prod.mk.inj he
    exact ⟨hv, hk⟩
  · rintro ⟨hv, hk⟩
    exact ⟨k, hk, v, hv, rfl⟩

/-- They come in the order of the keys. -/
theorem keys_select_sublist (s : Styles) (keys : List String) : ((s.select keys).map Prod.fst).Sublist keys := by
  induction keys with
  | nil => exact .slnil
  | cons k keys ih =>
    unfold select at ih ⊢
    cases hg : s.get? k with
    | none => simpa [hg] using ih.cons k
    | some v => simpa [hg] using ih.cons_cons k

theorem select_of_perm (h : s.entries.Perm r.entries) (keys : List String) : s.select keys = r.select keys := by
  unfold select
  simp only [get?_of_perm h]

end Styles

namespace SwiftUI

/-- Styles that steps lead to, in whatever order they are taken. The styles of one node may be put into those of
another, as those of an only run are. -/
inductive Reached : Styles → Prop where
  | empty : Reached .empty
  | step {s : Styles} (h : Reached s) (a : Aspect) : Reached (Target.swiftUI.declare s a)
  | merge {s r : Styles} (h : Reached s) (h' : Reached r) : Reached (s.merge r)

theorem Reached.steps {s : Styles} (h : Reached s) (aspects : List Aspect) :
    Reached (aspects.foldl Target.swiftUI.declare s) := by
  induction aspects generalizing s with
  | nil => exact h
  | cons a aspects ih => exact ih (h.step a)

/-- Every entry is a modifier with its place in the order, or it is for the children of a view. -/
def Placed (s : Styles) : Prop :=
  ∀ e ∈ s.entries, e.1 ∉ Target.swiftUI.arrangementKeys → e.1 ∈ modifierOrder

namespace Placed
variable {s r : Styles}

theorem declareAll {ds : List Declaration} (h : Placed s)
    (hd : ∀ d ∈ ds, d.key ∉ Target.swiftUI.arrangementKeys → d.key ∈ modifierOrder) : Placed (s.declareAll ds) := by
  intro e he hn
  rcases Styles.mem_entries_declareAll he with he | ⟨d, hm, rfl⟩
  · exact h e he hn
  · exact hd d hm hn

theorem step (h : Placed s) (a : Aspect) : Placed (Target.swiftUI.declare s a) :=
  h.declareAll fun _ hd hn => mem_modifierOrder (Target.swiftUI.key_mem_keysOf a hd) hn

theorem merge (h : Placed s) (h' : Placed r) : Placed (s.merge r) := by
  rw [Styles.merge, Styles.insertAll_eq_declareAll]
  refine h.declareAll fun d hd hn => ?_
  obtain ⟨e, he, rfl⟩ := List.mem_map.mp hd
  exact h' e he hn

end Placed

theorem Reached.placed {s : Styles} (h : Reached s) : Placed s := by
  induction h with
  | empty => exact fun _ he => absurd he List.not_mem_nil
  | step _ a ih => exact ih.step a
  | merge _ _ ih ih' => exact ih.merge ih'

/-- The modifiers that styles hold, each once and in their order. -/
structure IsChain (s : Styles) (chain : List (String × String)) : Prop where
  all : chain.Perm (s.entries.filter fun e => e.1 ∉ Target.swiftUI.arrangementKeys)
  ordered : (chain.map Prod.fst).Sublist modifierOrder

theorem Placed.isChain {s : Styles} (h : Placed s) : IsChain s (s.select modifierOrder) where
  all := by
    have hn : (s.select modifierOrder).Nodup :=
      .of_map Prod.fst ((s.keys_select_sublist modifierOrder).nodup (by decide))
    have hf : (s.entries.filter fun e => e.1 ∉ Target.swiftUI.arrangementKeys).Nodup :=
      (List.Nodup.of_map Prod.fst s.nodup).filter _
    have ha : ∀ k ∈ modifierOrder, k ∉ Target.swiftUI.arrangementKeys := by decide
    refine (List.perm_ext_iff_of_nodup hn hf).mpr fun e => ?_
    rw [Styles.mem_select, List.mem_filter, decide_eq_true_iff]
    exact and_congr_right fun he => ⟨ha e.1, h e he⟩
  ordered := s.keys_select_sublist modifierOrder

inductive Form where
  | attributes
  | container (name : Option String) (children : List String)
  | image (name : Option String) (source : String)
  | text (name : Option String) (runs : List Run)

/-- What comes before a view. -/
def heading (name : Option String) : String :=
  "\n" ++ match name with
    | some name => "// " ++ name ++ "\n"
    | none => ""

namespace Form

def write (s : Styles) : Form → String
  | .attributes => SwiftUI.attributes s
  | .container name children => SwiftUI.container name s children
  | .image name source => SwiftUI.image name s source
  | .text name runs => SwiftUI.textBlock name s runs

/-- What stands in front of the modifiers. -/
def front (s : Styles) : Form → String
  | .attributes => ""
  | .container name children => heading name ++ containerView s children
  | .image name source => heading name ++ ("AsyncImage(url: URL(string: " ++ Text.swift source ++ "))")
  | .text name runs => heading name ++ textView s runs

/-- What stands in front of each of them. -/
def separator : Form → String
  | .attributes => ""
  | _ => "\n"

end Form

theorem finished_eq (name : Option String) (s : Styles) (view : String) : finished name s view =
    heading name ++ view ++ String.join ((s.select modifierOrder).map fun e => "\n" ++ e.2) := by
  cases name <;> simp [finished, heading, modifiers, Function.comp_def]

theorem Form.write_eq (s : Styles) (form : Form) : form.write s =
    form.front s ++ String.join ((s.select modifierOrder).map fun e => form.separator ++ e.2) := by
  cases form with
  | attributes => simp [write, front, separator, SwiftUI.attributes, modifiers]
  | container name children => exact finished_eq name s _
  | image name source => exact finished_eq name s _
  | text name runs => exact finished_eq name s _

/-- Runs of one text whose styles differ in the order of their entries at most. -/
structure RunAlike (run run' : Run) : Prop where
  text : run.text = run'.text
  styles : Option.Rel (fun s r : Styles => s.entries.Perm r.entries) run.styles run'.styles

inductive Form.Alike : Form → Form → Prop where
  | refl (form : Form) : Alike form form
  | runs (name : Option String) {runs runs' : List Run} (h : List.Forall₂ RunAlike runs runs') :
    Alike (.text name runs) (.text name runs')

theorem RunAlike.refl (run : Run) : RunAlike run run where
  text := rfl
  styles := by
    cases run.styles with
    | none => exact .none
    | some s => exact .some (.refl _)

theorem RunAlike.runView_eq {run run' : Run} (h : RunAlike run run') : runView run = runView run' := by
  obtain ⟨text, styles⟩ := run
  obtain ⟨text', styles'⟩ := run'
  obtain ⟨rfl, hs⟩ := h
  cases hs with
  | none => rfl
  | some hp => simp only [runView, Option.map_some, modifiers, Styles.select_of_perm hp]

/-- Of what arranges children, the view of a container hears only what is said. -/
theorem containerView_congr {s r : Styles} (h : ∀ k ∈ Target.swiftUI.arrangementKeys, r.get? k = s.get? k)
    (children : List String) : containerView r children = containerView s children := by
  have hs : r.get? "stack" = s.get? "stack" := h _ (by decide)
  have hp : r.get? "spacers" = s.get? "spacers" := h _ (by decide)
  simp only [containerView, spaced, hs, hp]

theorem textView_alike {s r : Styles} (hs : s.isEmpty = r.isEmpty) {runs runs' : List Run}
    (h : List.Forall₂ RunAlike runs runs') : textView s runs = textView r runs' := by
  have hm : runs.map runView = runs'.map runView := by
    induction h with
    | nil => rfl
    | cons hr _ ih => rw [List.map_cons, List.map_cons, hr.runView_eq, ih]
  by_cases hp : ∃ text, runs = [⟨text, none⟩]
  · -- An only run without styles is alike to itself alone.
    obtain ⟨text, rfl⟩ := hp
    obtain ⟨⟨text', styles'⟩, rest, hr, ht, rfl⟩ := List.forall₂_cons_left_iff.mp h
    obtain rfl := List.forall₂_nil_left_iff.mp ht
    obtain ⟨rfl, hs⟩ := hr
    cases hs
    rfl
  · have hn : ∀ text, runs ≠ [⟨text, none⟩] := not_exists.mp hp
    have hn' : ∀ text, runs' ≠ [⟨text, none⟩] := by
      rintro text rfl
      obtain ⟨⟨text', styles'⟩, rest, hr, ht, rfl⟩ := List.forall₂_cons_right_iff.mp h
      obtain rfl := List.forall₂_nil_right_iff.mp ht
      obtain ⟨-, hs⟩ := hr
      cases hs
      exact hn text' rfl
    rw [textView_sum s hn, textView_sum r hn', hm, hs]

/-- The front hears only of what arranges children and of whether there are styles at all. -/
theorem Form.front_alike {s r : Styles} (hk : ∀ k ∈ Target.swiftUI.arrangementKeys, s.get? k = r.get? k)
    (he : s.isEmpty = r.isEmpty) {form form' : Form} (ha : form.Alike form') : form.front s = form'.front r := by
  cases ha with
  | runs name hr => exact congrArg (heading name ++ ·) (textView_alike he hr)
  | refl =>
    cases form with
    | attributes => rfl
    | container name children => exact congrArg (heading name ++ ·) (containerView_congr hk children)
    | image name source => rfl
    | text name runs =>
      exact congrArg (heading name ++ ·) (textView_alike he (List.forall₂_same.mpr fun run _ => .refl run))

theorem Form.write_alike {s r : Styles} (h : s.entries.Perm r.entries) {form form' : Form} (ha : form.Alike form') :
    form.write s = form'.write r := by
  have hs : form.separator = form'.separator := by cases ha <;> rfl
  have hf : form.front s = form'.front r :=
    front_alike (fun k _ => Styles.get?_of_perm h k) (Styles.isEmpty_of_perm h) ha
  rw [write_eq, write_eq, Styles.select_of_perm h, hs, hf]

/-- Whatever steps led to some styles, all that they hold is a modifier with its place in the order, but for what is
said of the children. However they are written, the modifiers form a chain behind a front that has none of them: it is
told by what is said of the children, and by whether there are any styles. The order of entries makes no difference. -/
theorem modifiers_form_a_chain {s : Styles} (h : Reached s) (form : Form) :
    (∀ e ∈ s.entries, e.1 ∉ Target.swiftUI.arrangementKeys → e.1 ∈ modifierOrder) ∧
    (∃ chain, IsChain s chain ∧
      form.write s = form.front s ++ String.join (chain.map fun e => form.separator ++ e.2)) ∧
    (∀ r : Styles, (∀ k ∈ Target.swiftUI.arrangementKeys, s.get? k = r.get? k) → s.isEmpty = r.isEmpty →
      form.front s = form.front r) ∧
    (∀ (r : Styles) (form' : Form), s.entries.Perm r.entries → form.Alike form' → form.write s = form'.write r) :=
  ⟨h.placed, ⟨_, h.placed.isChain, form.write_eq s⟩, fun _ hk he => Form.front_alike hk he (.refl form),
    fun _ _ hp ha => Form.write_alike hp ha⟩

/-- Two steps that are taken either way lead to different styles, which are written alike. -/
theorem clipped_offset_chained :
    let s := Target.swiftUI.styles [.position 4 8, .clip]
    let r := Target.swiftUI.styles [.clip, .position 4 8]
    Reached s ∧ s ≠ r ∧ attributes s = attributes r ∧ attributes r = ".clipped().offset(x: 4, y: 8)" := by
  intro s r
  have hs : Reached s := Reached.empty.steps [.position 4 8, .clip]
  have hp : s.entries.Perm r.entries := by decide +kernel
  have ha : attributes s = attributes r := (modifiers_form_a_chain hs .attributes).2.2.2 r .attributes hp (.refl _)
  exact ⟨hs, by decide +kernel, ha, by decide +kernel⟩

end SwiftUI
end SceneCode
