import SceneCode.Proofs.Code.Flutter
import SceneCode.Proofs.Code.Sums
import SceneCode.Proofs.Layers.Commented
import SceneCode.Proofs.Look.Flutter
import SceneCode.Proofs.Style.Steps
import SceneCode.Proofs.Text.Encoded

namespace SceneCode

namespace Styles

/-- Styles without a key in common stand one behind the other. -/
theorem entries_merge {s r : Styles} (h : ∀ e ∈ r.entries, s.contains e.1 = false) :
    (s.merge r).entries = s.entries ++ r.entries := by
  have hf : ∀ d ∈ r.entries.map fun e => Declaration.set e.1 e.2, d.fallback = false := by
    intro d hd
    obtain ⟨e, -, rfl⟩ := List.mem_map.mp hd
    rfl
  have hn : ((r.entries.map fun e => Declaration.set e.1 e.2).map (·.key)).Nodup := by
    rw [List.map_map]
    exact r.nodup
  have hs : ∀ d ∈ r.entries.map fun e => Declaration.set e.1 e.2, d.key ∉ s.entries.map Prod.fst := by
    intro d hd hm
    obtain ⟨e, he, rfl⟩ := List.mem_map.mp hd
    obtain ⟨⟨k, v⟩, hm, rfl⟩ := List.mem_map.mp hm
    have hg : s.get? e.1 = some v := mem_entries_iff.mp hm
    rw [get?_eq_none_iff.mpr (h e he)] at hg
    cases hg
  rw [merge, insertAll_eq_declareAll, entries_declareAll_of_fresh hf hn hs, List.map_map]
  exact congrArg _ (List.map_id _)

end Styles

namespace Target
variable (t : Target)

theorem typography_apart {topic : Topic} (h : topic ≠ .typography) :
    ∀ k ∈ t.keysOn topic, k ∉ t.keysOn .typography := by
  intro k hk hm
  have hs : sharedKey ∉ t.keysOn .typography := by
    cases t <;> exact of_decide_eq_true rfl
  have he : k = sharedKey := t.topics_apart.forall topic.mem_all (Topic.mem_all _) h k hk hm
  exact hs (he ▸ hm)

theorem topic_of_mem_block {slot : Slot Float} {base : Base} {box : TextBox} {a : Aspect}
    (h : a ∈ (Subject.ofBase base).placement slot (Hug.ofText box) ++ Subject.textAlign box) :
    a.topic ≠ .typography ∧ a ≠ .origin := by
  rcases List.mem_append.mp h with h | h
  · have hp := (Subject.ofBase base).placed_placement h
    constructor
    · intro ht
      rw [ht] at hp
      cases hp
    · rintro rfl
      cases hp
  · rw [List.mem_singleton.mp h]
    exact ⟨nofun, nofun⟩

/-- Where a text is and how it is aligned says nothing of its type. -/
theorem blockStyles_untyped (slot : Slot Float) (base : Base) (box : TextBox) {run : TextRun}
    {color : Option (Rgb × Float)} {d : Declaration} (hd : d ∈ t.declarations (.typography run color)) :
    (t.blockStyles slot base box).contains d.key = false := by
  refine Bool.eq_false_iff.mpr fun hc => ?_
  obtain ⟨a, ha, hk⟩ := (t.contains_styles _ d.key).mp hc
  obtain ⟨e, he, hek⟩ := List.mem_map.mp hk
  obtain ⟨ht, ho⟩ := topic_of_mem_block ha
  have hek' := t.key_mem_keysOn he (t.declarations_within ho e he).2
  have hn : Aspect.typography run color ≠ .origin := nofun
  have hdk := t.key_mem_keysOn hd (t.declarations_within hn d hd).2
  rw [hek] at hek'
  exact t.typography_apart ht d.key hek' hdk

theorem entries_typed (slot : Slot Float) (base : Base) (box : TextBox) (run : TextRun) :
    ((t.blockStyles slot base box).merge (t.runStyles base run)).entries =
      (t.blockStyles slot base box).entries ++ (t.runStyles base run).entries := by
  refine Styles.entries_merge fun e he => ?_
  obtain ⟨a, ha, d, hd, rfl⟩ := exists_of_mem_entries he
  obtain rfl := List.mem_singleton.mp ha
  exact t.blockStyles_untyped slot base box hd

end Target

/-- Runs with styles of their own are never taken for a single run without. -/
theorem styled_ne_plain (runs : List (String × Styles)) (text : String) :
    runs.map (fun run => (⟨run.1, some run.2⟩ : Run)) ≠ [⟨text, none⟩] := by
  rcases runs with _ | ⟨run, runs⟩
  · exact nofun
  · exact fun he => nomatch he

theorem Markup.content_styled (jsx : Bool) (attributes : Styles → String) (runs : List (String × Styles)) :
    content jsx attributes (runs.map fun run => ⟨run.1, some run.2⟩) =
      String.join (runs.map fun run => span (attributes run.2) (Text.escapeMarkup jsx run.1)) := by
  unfold content
  split
  · rename_i text he
    exact absurd he (styled_ne_plain runs text)
  · rw [List.map_map]
    rfl

theorem SwiftUI.textView_styled (own : Styles) (runs : List (String × Styles)) :
    let sum := " + ".intercalate (runs.map fun run => runView ⟨run.1, some run.2⟩)
    textView own (runs.map fun run => ⟨run.1, some run.2⟩) = if own.isEmpty then sum else "(" ++ sum ++ ")" := by
  intro sum
  unfold textView
  split
  · rename_i text he
    exact absurd he (styled_ne_plain runs text)
  · rw [List.map_map]
    rfl

namespace Dart
open Flutter (call list textSpan textStyle textWidget)

/-- Styles of type as an argument. -/
def styleArguments (s : Styles) : List (String × Expr) :=
  (textStyle s).map fun a => (a.1, value a.2)

def alignArguments (s : Styles) : List (String × Expr) :=
  (s.select ["textAlign"]).map fun a => (a.1, value a.2)

/-- A part of a text in its own type. -/
def span (text : String) (s : Styles) : Expr :=
  .call "TextSpan" (("text", .literal text) :: styleArguments s)

/-- A call whose first argument is known. -/
theorem denotes_call_cons {name key v : String} {expr : Expr} {as : List (String × String)} (hn : Code.IsWord name)
    (hk : IsKey key) (hv : Denotes v expr) (ha : ∀ a ∈ as, IsKey a.1 ∧ Reads a.2) :
    Denotes (call name ((key, v) :: as)) (.call name ((key, expr) :: as.map fun a => (a.1, value a.2))) := by
  have hs : ∀ a ∈ (key, v) :: as, IsKey a.1 ∧ Reads a.2 := List.forall_mem_cons.mpr ⟨⟨hk, hv.reads⟩, ha⟩
  have hd := denotes_call hn hs
  rwa [List.map_cons, hv.value_eq] at hd

theorem denotes_textSpan {s : Styles} (h : Voiced s) (text : String) :
    Denotes (textSpan ⟨text, some s⟩) (span text s) :=
  denotes_line (denotes_call_cons (by decide) (by decide) (denotes_dart text) (arguments_textStyle h).reads)

theorem reads_align {s : Styles} (h : Voiced s) : ∀ a ∈ s.select ["textAlign"], IsKey a.1 ∧ Reads a.2 :=
  (arguments_select h (by decide)).reads

/-- A single run is the literal of a text with the type of the element. -/
theorem denotes_inline {s : Styles} (h : Voiced s) (text : String) :
    Denotes (textWidget s [⟨text, none⟩])
      (.call "Text" (("", .literal text) :: (alignArguments s ++ styleArguments s))) := by
  have ha : ∀ a ∈ s.select ["textAlign"] ++ textStyle s, IsKey a.1 ∧ Reads a.2 :=
    List.forall_mem_append.mpr ⟨reads_align h, (arguments_textStyle h).reads⟩
  have hd := denotes_call_cons (by decide : Code.IsWord "Text") (by decide : IsKey "") (denotes_dart text) ha
  rw [List.map_append] at hd
  exact hd

theorem denotes_spans {runs : List (String × Styles)} (hr : ∀ run ∈ runs, Voiced run.2) :
    Denotes (list (runs.map fun run => textSpan ⟨run.1, some run.2⟩))
      (.list (runs.map fun run => span run.1 run.2)) := by
  have hd : ∀ run ∈ runs, Denotes (textSpan ⟨run.1, some run.2⟩) (span run.1 run.2) :=
    fun run hm => denotes_textSpan (hr run hm) run.1
  have hv : (runs.map fun run => textSpan ⟨run.1, some run.2⟩).map value = runs.map fun run => span run.1 run.2 := by
    rw [List.map_map]
    exact List.map_congr_left fun run hm => (hd run hm).value_eq
  rw [← hv]
  refine denotes_list fun v hv => ?_
  obtain ⟨run, hm, rfl⟩ := List.mem_map.mp hv
  exact (hd run hm).reads

/-- Several runs are the children of a text without a type. -/
theorem denotes_nested {s : Styles} (h : Voiced s) {runs : List (String × Styles)} (hr : ∀ run ∈ runs, Voiced run.2) :
    Denotes (textWidget s (runs.map fun run => ⟨run.1, some run.2⟩))
      (.call "Text.rich" (("", .call "TextSpan" [("children", .list (runs.map fun run => span run.1 run.2))]) ::
        alignArguments s)) := by
  have ha : ∀ a ∈ ([] : List (String × String)), IsKey a.1 ∧ Reads a.2 := List.forall_mem_nil _
  have hc := denotes_call_cons (by decide : Code.IsWord "TextSpan") (by decide : IsKey "children") (denotes_spans hr) ha
  have hd := denotes_call_cons (by decide : Code.IsWord "Text.rich") (by decide : IsKey "") hc (reads_align h)
  rw [Flutter.textWidget_spans s (styled_ne_plain runs), List.map_map]
  exact hd

end Dart

namespace Target
variable (t : Target)

/-- The code for a text around what stands for its runs. -/
def around (name : Option String) (own : Styles) (body : String) : String :=
  match t with
  | .html _ | .tailwind .. => "\n" ++ Markup.openTag "div" (t.attributes own) name ++ ">" ++ body ++ "</div>"
  | .flutter => Flutter.named name (Flutter.wrapped own (Flutter.sized own body))
  | .swiftUI => SwiftUI.finished name own body

theorem typed_eq_styles (slot : Slot Float) (base : Base) (box : TextBox) (run : TextRun) :
    (t.blockStyles slot base box).merge (t.runStyles base run) =
      t.styles ([.placement, .align, .run].flatMap
        (TextBrief.mk (.ofBase base) slot (Hug.ofText box) box run).aspects) := by
  rw [textStyles_eq_takeAll, TextBrief.takeAll_eq, styles_eq_declareAll]
  rfl

/-- What stands for a single run in an element with these styles. It is the encoded text, and there is no run in it. -/
def IsInline (own : Styles) (text body : String) : Prop :=
  match t with
  | .html jsx | .tailwind jsx _ => Text.IsContent jsx body ∧ Markup.textOf? body = some text
  | .flutter =>
    Dart.exprs? body = some [.call "Text" (("", .literal text) :: (Dart.alignArguments own ++ Dart.styleArguments own))]
  | .swiftUI => Code.swift.lex body = some [.word "Text", .mark '(', .literal text, .mark ')']

/-- A tag for one run, with its attributes and its encoded text. -/
def IsSpan (jsx : Bool) (run : String × Styles) (code : String) : Prop :=
  ∃ content, code = Markup.span (t.attributes run.2) content ∧ Text.IsContent jsx content ∧
    Markup.textOf? content = some run.1

/-- What stands for several runs, each with its text and its own styles. -/
def IsNested (own : Styles) (runs : List (String × Styles)) (body : String) : Prop :=
  match t with
  | .html jsx | .tailwind jsx _ => ∃ spans, body = String.join spans ∧ List.Forall₂ (t.IsSpan jsx) runs spans
  | .flutter =>
    Dart.exprs? body = some [.call "Text.rich"
      (("", .call "TextSpan" [("children", .list (runs.map fun run => Dart.span run.1 run.2))]) ::
        Dart.alignArguments own)]
  | .swiftUI => ∃ sum, body = (if own.isEmpty then sum else "(" ++ sum ++ ")") ∧ Swift.IsSum runs sum

theorem exists_inline (name : Option String) {own : Styles} {look : List Aspect} (hs : own = t.styles look)
    (text : String) : ∃ body, t.text name own [⟨text, none⟩] = t.around name own body ∧ t.IsInline own text body := by
  cases t with
  | html jsx =>
    exact ⟨Text.escapeMarkup jsx text, rfl, Text.isContent_escapeMarkup jsx text, Markup.textOf?_escapeMarkup jsx text⟩
  | tailwind jsx options =>
    exact ⟨Text.escapeMarkup jsx text, rfl, Text.isContent_escapeMarkup jsx text, Markup.textOf?_escapeMarkup jsx text⟩
  | flutter =>
    have hv : Dart.Voiced own := hs ▸ Dart.voiced_styles look
    exact ⟨_, rfl, (Dart.denotes_inline hv text).exprs?_eq⟩
  | swiftUI => exact ⟨_, rfl, (Swift.single_text text).1.lexes⟩

theorem forall₂_isSpan (jsx : Bool) (runs : List (String × Styles)) :
    List.Forall₂ (t.IsSpan jsx) runs
      (runs.map fun run => Markup.span (t.attributes run.2) (Text.escapeMarkup jsx run.1)) := by
  rw [List.forall₂_map_right_iff, List.forall₂_same]
  exact fun run _ => ⟨_, rfl, Text.isContent_escapeMarkup jsx run.1, Markup.textOf?_escapeMarkup jsx run.1⟩

theorem exists_nested (name : Option String) {own : Styles} {look : List Aspect} (hs : own = t.styles look)
    {base : Base} {runs : List (String × Styles)} (hn : runs ≠ []) (hr : ∀ run ∈ runs, ∃ r, run.2 = t.runStyles base r) :
    ∃ body, t.text name own (runs.map fun run => ⟨run.1, some run.2⟩) = t.around name own body ∧
      t.IsNested own runs body := by
  cases t with
  | html jsx =>
    refine ⟨_, ?_, _, rfl, (Target.html jsx).forall₂_isSpan jsx runs⟩
    rw [text, Markup.text, Markup.content_styled]
    rfl
  | tailwind jsx options =>
    refine ⟨_, ?_, _, rfl, (Target.tailwind jsx options).forall₂_isSpan jsx runs⟩
    rw [text, Markup.text, Markup.content_styled]
    rfl
  | flutter =>
    have hv : Dart.Voiced own := hs ▸ Dart.voiced_styles look
    have hw : ∀ run ∈ runs, Dart.Voiced run.2 := by
      intro run hm
      obtain ⟨r, he⟩ := hr run hm
      exact he ▸ Dart.voiced_styles _
    exact ⟨_, rfl, (Dart.denotes_nested hv hw).exprs?_eq⟩
  | swiftUI =>
    have hu : ∀ run ∈ runs, ∀ e ∈ run.2.entries, Swift.Unsummed e.2 := by
      intro run hm
      obtain ⟨r, he⟩ := hr run hm
      exact he ▸ Swift.unsummed_runStyles base r
    refine ⟨_, ?_, _, rfl, Swift.isSum_runViews hn hu⟩
    rw [text, SwiftUI.textBlock, SwiftUI.textView_styled]
    rfl

/-- A text with one run has the styles of its place, of its alignment and of the run, and the run is its content. A text
with more has no style of type, and in it stand the runs in their order, each with its own text and type. -/
theorem runs_are_inline_or_nested (showNames : Bool) (slot : Slot Float) (base : Base) (box : TextBox) :
    let own := t.blockStyles slot base box
    let said (run : TextRun) := t.textContent run.textCase run.characters
    let code := t.render showNames (t.textElement slot base box)
    let around := t.around (label showNames base.name)
    match box.shownRuns with
    | [] => False
    | [run] =>
      let styles := own.merge (t.runStyles base run)
      styles.entries = own.entries ++ (t.runStyles base run).entries ∧
      ∃ body, code = around styles body ∧ t.IsInline styles (said run) body
    | runs =>
      (∀ run color, ∀ d ∈ t.declarations (.typography run color), own.contains d.key = false) ∧
      ∃ body, code = around own body ∧ t.IsNested own (runs.map fun run => (said run, t.runStyles base run)) body := by
  intro own said code around
  have hn := shownRuns_ne_nil box
  have hc : code = t.render showNames (t.textElement slot base box) := rfl
  unfold textElement at hc
  generalize box.shownRuns = runs at hn hc ⊢
  rcases runs with _ | ⟨run, _ | ⟨run', runs⟩⟩
  · exact hn rfl
  · refine ⟨t.entries_typed slot base box run, ?_⟩
    rw [hc]
    exact t.exists_inline _ (t.typed_eq_styles slot base box run) (said run)
  · refine ⟨fun run color d hd => t.blockStyles_untyped slot base box hd, ?_⟩
    let styled (run : TextRun) := (said run, t.runStyles base run)
    have hr : ∀ s ∈ (run :: run' :: runs).map styled, ∃ r, s.2 = t.runStyles base r := by
      intro s hm
      obtain ⟨r, -, rfl⟩ := List.mem_map.mp hm
      exact ⟨r, rfl⟩
    have hm : (run :: run' :: runs).map styled ≠ [] := List.cons_ne_nil _ _
    have he := t.exists_nested (label showNames base.name) (rfl : own = t.styles _) hm hr
    rw [List.map_map] at he
    rw [hc]
    exact he

end Target
end SceneCode
