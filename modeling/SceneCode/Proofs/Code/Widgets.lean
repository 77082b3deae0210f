import SceneCode.Proofs.Code.Values

namespace SceneCode.Dart
open Code (IsWord)
open Flutter (arranged around call containerWidget imageWidget list placed sigma sized sizeArguments speakingKeys
  speaks_dart textSpan textStyle textStyleFields textWidget wrapped)

/-- Code that holds these literals. Where it has widgets that fill a row or column depends on where it stands itself. -/
def Holds (code : String) (texts : List String) (filled : Place → List Place) : Prop :=
  Reads code ∧ (value code).literals = texts ∧ ∀ place, (value code).places "Expanded" place = filled place

theorem Speaks.holds {code : String} {texts : List String} (h : Speaks code texts) : Holds code texts fun _ => [] :=
  ⟨h.1, h.2.1, h.2.2 "Expanded" (by decide)⟩

/-- Code that is one call. -/
def Fragment (code : String) (texts : List String) (filled : Place → List Place) : Prop :=
  Holds code texts filled ∧ ∃ callee arguments, Calls code callee arguments

/-- Arguments that hold these literals, in a call of some name. -/
structure Arguments (as : List (String × String)) (texts : List String) (filled : String → List Place) : Prop where
  reads : ∀ a ∈ as, IsKey a.1 ∧ Reads a.2
  texts_eq : (as.flatMap fun a => (value a.2).literals) = texts
  filled_eq : ∀ callee, (as.flatMap fun a => (value a.2).places "Expanded" (.argument callee a.1)) = filled callee

namespace Arguments
variable {as bs : List (String × String)} {texts texts' : List String} {filled filled' : String → List Place}

theorem append (h : Arguments as texts filled) (h' : Arguments bs texts' filled') :
    Arguments (as ++ bs) (texts ++ texts') fun callee => filled callee ++ filled' callee where
  reads := List.forall_mem_append.mpr ⟨h.reads, h'.reads⟩
  texts_eq := by rw [List.flatMap_append, h.texts_eq, h'.texts_eq]
  filled_eq callee := by rw [List.flatMap_append, h.filled_eq, h'.filled_eq]

theorem nil : Arguments [] [] fun _ => [] :=
  ⟨nofun, rfl, fun _ => rfl⟩

theorem quiet (h : ∀ a ∈ as, IsKey a.1 ∧ Quiet a.2) : Arguments as [] fun _ => [] where
  reads a ha := ⟨(h a ha).1, (h a ha).2.1⟩
  texts_eq := List.flatMap_eq_nil_iff.mpr fun a ha => (h a ha).2.2.1
  filled_eq _ := List.flatMap_eq_nil_iff.mpr fun a ha => (h a ha).2.2.2 "Expanded" (by decide) _

theorem single {key v : String} {filled : Place → List Place} (hk : IsKey key) (h : Holds v texts filled) :
    Arguments [(key, v)] texts fun callee => filled (.argument callee key) where
  reads := List.forall_mem_singleton.mpr ⟨hk, h.1⟩
  texts_eq := by rw [List.flatMap_singleton, h.2.1]
  filled_eq callee := by rw [List.flatMap_singleton, h.2.2]

end Arguments

section
variable {name v w : String} {as : List (String × String)} {texts : List String} {filled : Place → List Place}

theorem fragment_call {filled : String → List Place} (hn : IsWord name) (h : Arguments as texts filled) :
    Fragment (call name as) texts fun place => (if name = "Expanded" then [place] else []) ++ filled name := by
  have hc := calls_call hn h.reads
  have hd := hc.denotes
  refine ⟨⟨hd.reads, ?_, fun place => ?_⟩, _, _, hc⟩
  · rw [hd.value_eq, Expr.literals, Expr.literalsOfArguments_eq, List.flatMap_map]
    exact h.texts_eq
  · rw [hd.value_eq, Expr.places, Expr.placesInArguments_eq, List.flatMap_map]
    exact congrArg _ (h.filled_eq name)

/-- A widget that does not fill a row or column itself may stand anywhere. -/
def Widget (code : String) (texts : List String) (filled : List Place) : Prop :=
  Fragment code texts fun _ => filled

theorem widget_call {filled : String → List Place} (hn : IsWord name ∧ name ≠ "Expanded")
    (h : Arguments as texts filled) : Widget (call name as) texts (filled name) := by
  have hf := fragment_call hn.1 h
  simp only [if_neg hn.2, List.nil_append] at hf
  exact hf

end

/-- The values of the styles are expressions, those under most keys without literals. -/
def Voiced (s : Styles) : Prop :=
  ∀ e ∈ s.entries, (∃ texts, Speaks e.2 texts) ∧ (e.1 ∉ speakingKeys → Quiet e.2)

/-- The literals of the value of a key. -/
def textsAt (s : Styles) (key : String) : List String :=
  (s.get? key).toList.flatMap fun v => (value v).literals

section
variable {s : Styles} (h : Voiced s)
include h

theorem quiet_get? {key v : String} (hv : s.get? key = some v) (hk : key ∉ speakingKeys) : Quiet v :=
  (h (key, v) (Styles.mem_entries_of_get? hv)).2 hk

theorem arguments_select {keys : List String} (hk : ∀ key ∈ keys, IsKey key ∧ key ∉ speakingKeys) :
    Arguments (s.select keys) [] fun _ => [] := by
  refine .quiet fun a ha => ?_
  obtain ⟨key, hm, he⟩ := List.mem_filterMap.mp ha
  obtain ⟨v, hv, rfl⟩ := Option.map_eq_some_iff.mp he
  exact ⟨(hk key hm).1, quiet_get? h hv (hk key hm).2⟩

theorem arguments_get? {key : String} (hk : IsKey key) :
    Arguments (s.select [key]) (textsAt s key) fun _ => [] := by
  unfold textsAt
  cases hg : s.get? key with
  | none =>
    have hs : s.select [key] = [] := by simp [Styles.select, hg]
    rw [hs]
    exact .nil
  | some v =>
    have hs : s.select [key] = [(key, v)] := by simp [Styles.select, hg]
    obtain ⟨texts, hv⟩ := (h (key, v) (Styles.mem_entries_of_get? hg)).1
    have ht : (value v).literals = texts := hv.2.1
    rw [hs, Option.toList_some, List.flatMap_singleton, ht]
    exact .single hk hv.holds

theorem widget_around {w : String} {texts : List String} {filled : List Place} (hw : Widget w texts filled)
    {key name : String} {arguments : String → List (String × String)} (hk : key ∉ speakingKeys)
    (hn : IsWord name ∧ name ∉ watched) (ha : ∀ v, Quiet v → ∀ a ∈ arguments v, IsKey a.1 ∧ Quiet a.2) :
    Widget (around s key name arguments w) texts filled := by
  unfold around
  cases hg : s.get? key with
  | none => exact hw
  | some v =>
    have hc : IsKey "child" := by decide
    have hne : name ≠ "Expanded" := fun he => hn.2 (he ▸ by decide)
    exact widget_call ⟨hn.1, hne⟩ ((Arguments.quiet (ha v (quiet_get? h hg hk))).append (.single hc hw.1))

omit h in
theorem quiet_sigma {v : String} (hv : Quiet v) : Quiet (sigma v) :=
  ((opens "ImageFilter.blur(sigmaX: " "ImageFilter.blur" "sigmaX" (by decide)).next hv ", sigmaY: "
    "sigmaY" (by decide)).finish hv (by decide)

theorem fragment_placed {w : String} {texts : List String} {filled : List Place} (hw : Widget w texts filled) :
    Fragment (placed s w) texts fun place => (if s.contains "flex" then [place] else []) ++ filled := by
  have hc : IsKey "child" := by decide
  unfold placed
  split
  · have hn : IsWord "Expanded" := by decide
    have hf := fragment_call hn (.single hc hw.1)
    simpa only [if_true] using hf
  · dsimp only
    rw [List.nil_append]
    split
    · exact hw
    · exact widget_call (by decide) ((arguments_select h (by decide)).append (.single hc hw.1))

omit h in
/-- What holds of a widget with one more around it, and then with its place, holds of all that is put around it. -/
theorem wrapped_of (P Q : String → Prop)
    (ha : ∀ (w key name : String) (arguments : String → List (String × String)), key ∉ speakingKeys →
      IsWord name ∧ name ∉ watched → (∀ v, Quiet v → ∀ a ∈ arguments v, IsKey a.1 ∧ Quiet a.2) → P w →
        P (around s key name arguments w))
    (hp : ∀ w, P w → Q (placed s w)) (w : String) (hw : P w) : Q (wrapped s w) := by
  have hk : IsKey "imageFilter" ∧ IsKey "filter" ∧ IsKey "angle" ∧ IsKey "alignment" ∧ IsKey "opacity" := by decide
  have hl : Quiet "Alignment.topLeft" := .of_word (by decide)
  have ho (w : String) : P w → P (around s "opacity" "Opacity" (fun v => [("opacity", v)]) w) :=
    ha _ _ _ _ (by decide) (by decide) fun v hv => List.forall_mem_singleton.mpr ⟨hk.2.2.2.2, hv⟩
  have hr (w : String) : P w → P (around s "rotation" "Transform.rotate"
      (fun v => [("angle", v), ("alignment", "Alignment.topLeft")]) w) :=
    ha _ _ _ _ (by decide) (by decide) fun v hv =>
      List.forall_mem_cons.mpr ⟨⟨hk.2.2.1, hv⟩, List.forall_mem_singleton.mpr ⟨hk.2.2.2.1, hl⟩⟩
  have hb (w : String) : P w → P (around s "backdropBlur" "BackdropFilter" (fun v => [("filter", sigma v)]) w) :=
    ha _ _ _ _ (by decide) (by decide) fun v hv => List.forall_mem_singleton.mpr ⟨hk.2.1, quiet_sigma hv⟩
  have hf : P (around s "blur" "ImageFiltered" (fun v => [("imageFilter", sigma v)]) w) :=
    ha _ _ _ _ (by decide) (by decide) (fun v hv => List.forall_mem_singleton.mpr ⟨hk.1, quiet_sigma hv⟩) hw
  exact hp _ (ho _ (hr _ (hb _ hf)))

/-- Only a widget that takes a flexible place fills a row or column. -/
theorem fragment_wrapped {w : String} {texts : List String} {filled : List Place} (hw : Widget w texts filled) :
    Fragment (wrapped s w) texts fun place => (if s.contains "flex" then [place] else []) ++ filled :=
  wrapped_of (fun w => Widget w texts filled) (fun w => Fragment w texts _)
    (fun _ _ _ _ hk hn ha hw => widget_around h hw hk hn ha) (fun _ => fragment_placed h) w hw

omit h in
theorem select_append (keys keys' : List String) : s.select (keys ++ keys') = s.select keys ++ s.select keys' :=
  List.filterMap_append

/-- Children hold these literals. Where they fill a row or column depends on where they stand. -/
structure Fragments (fs : List String) (texts : List String) (filled : Place → List Place) : Prop where
  reads : ∀ f ∈ fs, Reads f
  texts_eq : (fs.flatMap fun f => (value f).literals) = texts
  filled_eq : ∀ place, (fs.flatMap fun f => (value f).places "Expanded" place) = filled place

omit h in
theorem Fragments.holds_list {fs : List String} {texts : List String} {filled : Place → List Place}
    (hf : Fragments fs texts filled) : Holds (list fs) texts fun place => filled (.item place) := by
  have hd := denotes_list hf.reads
  refine ⟨hd.reads, ?_, fun place => ?_⟩
  · rw [hd.value_eq, Expr.literals, Expr.literalsOfItems_eq, List.flatMap_map]
    exact hf.texts_eq
  · rw [hd.value_eq, Expr.places, Expr.placesInItems_eq, List.flatMap_map]
    exact hf.filled_eq _

/-- The spaces between children go between their lines too. -/
theorem quiet_gaps : ∀ a ∈ (match s.get? "spacing" with
    | some spacing => [("spacing", spacing), ("runSpacing", spacing)]
    | none => []), IsKey a.1 ∧ Quiet a.2 := by
  have hk : IsKey "spacing" ∧ IsKey "runSpacing" := by decide
  cases hg : s.get? "spacing" with
  | none => exact nofun
  | some v =>
    have hv := quiet_get? h hg (by decide)
    exact List.forall_mem_cons.mpr ⟨⟨hk.1, hv⟩, List.forall_mem_singleton.mpr ⟨hk.2, hv⟩⟩

/-- The widget that arranges the children. -/
def stackName (s : Styles) : String :=
  let layout := (s.get? "layout").getD "Stack"
  if layout ∈ ["Row", "Column", "Wrap"] then layout else "Stack"

variable {fs : List String} {texts : List String} {filled : Place → List Place}

theorem widget_arranged (hf : Fragments fs texts filled) :
    Widget (arranged s fs) texts (filled (.item (.argument (stackName s) "children"))) := by
  have hk : IsKey "children" := by decide
  have hc := Arguments.single hk hf.holds_list
  unfold arranged stackName
  dsimp only
  split
  · rename_i hl
    rw [if_pos (by rcases hl with hl | hl <;> simp [hl])]
    refine widget_call ?_ ((arguments_select h (by decide)).append hc)
    rcases hl with hl | hl <;> rw [hl] <;> decide
  · rename_i hl
    split
    · rename_i hw
      rw [hw, if_pos (by decide)]
      exact widget_call (by decide) ((Arguments.quiet (quiet_gaps h)).append hc)
    · rename_i hw
      rw [if_neg (by simp_all)]
      exact widget_call (by decide) hc

theorem arguments_decoration :
    Arguments (s.select ["color", "gradient", "image", "border", "borderRadius", "boxShadow"]) (textsAt s "image")
      fun _ => [] := by
  have hi : IsKey "image" := by decide
  have hf : ∀ key ∈ ["color", "gradient"], IsKey key ∧ key ∉ speakingKeys := by decide
  have hb : ∀ key ∈ ["border", "borderRadius", "boxShadow"], IsKey key ∧ key ∉ speakingKeys := by decide
  have ha := (arguments_select h hf).append ((arguments_get? h hi).append (arguments_select h hb))
  rw [← select_append, ← select_append] at ha
  simpa using ha

omit h in
/-- No arguments, or one that is a call of them all. -/
theorem arguments_boxed {key name : String} {as : List (String × String)} {filled : String → List Place}
    (hk : IsKey key) (hn : IsWord name ∧ name ≠ "Expanded") (ha : Arguments as texts filled) :
    Arguments (if as.isEmpty then [] else [(key, call name as)]) texts fun _ => filled name := by
  split
  · have he : as = [] := List.isEmpty_iff.mp ‹_›
    subst he
    rw [← ha.texts_eq, ← ha.filled_eq name]
    exact .nil
  · exact .single hk (widget_call hn ha).1

theorem widget_container (hf : Fragments fs texts filled) :
    Widget (containerWidget s fs) (textsAt s "image" ++ texts)
      (filled (.item (.argument (stackName s) "children"))) := by
  have hk : IsKey "decoration" ∧ IsKey "child" := by decide
  have hd := arguments_boxed hk.1 (by decide : IsWord "BoxDecoration" ∧ _) (arguments_decoration h)
  have hc : Arguments (if fs.isEmpty then [] else [("child", arranged s fs)]) texts
      fun _ => filled (.item (.argument (stackName s) "children")) := by
    split
    · have he : fs = [] := List.isEmpty_iff.mp ‹_›
      subst he
      rw [← hf.texts_eq, ← hf.filled_eq]
      exact .nil
    · exact .single hk.2 (widget_arranged h hf).1
  have ha := (((arguments_select h (by decide : ∀ key ∈ ["width", "height"], _)).append
    (arguments_select h (by decide : ∀ key ∈ ["padding", "clipBehavior"], _))).append hd).append hc
  unfold containerWidget
  dsimp only
  split
  · exact widget_call (by decide) ha
  · exact widget_call (by decide) ha

theorem widget_image (source : String) : Widget (imageWidget s source) [source] [] := by
  have hk : IsKey "" ∧ IsKey "fit" ∧ IsKey "borderRadius" := by decide
  have hf : ∀ a ∈ [("fit", "BoxFit.cover")], IsKey a.1 ∧ Quiet a.2 :=
    List.forall_mem_singleton.mpr ⟨hk.2.1, .of_word (by decide)⟩
  have ha := ((Arguments.single hk.1 (speaks_dart source).holds).append
    (arguments_select h (by decide : ∀ key ∈ ["width", "height"], _))).append (.quiet hf)
  have hw : Widget (call "Image.network" ([("", Text.dart source)] ++ sizeArguments s ++ [("fit", "BoxFit.cover")]))
      [source] [] := widget_call (by decide) ha
  exact widget_around h hw (by decide) (by decide) fun v hv => List.forall_mem_singleton.mpr ⟨hk.2.2, hv⟩

theorem arguments_fields {fields : List (String × String)}
    (hk : ∀ field ∈ fields, IsKey field.2 ∧ field.1 ∉ speakingKeys) :
    Arguments (fields.filterMap fun (key, field) => (s.get? key).map (field, ·)) [] fun _ => [] := by
  refine .quiet fun a ha => ?_
  obtain ⟨⟨key, field⟩, hm, he⟩ := List.mem_filterMap.mp ha
  obtain ⟨v, hv, rfl⟩ := Option.map_eq_some_iff.mp he
  exact ⟨(hk _ hm).1, quiet_get? h hv (hk _ hm).2⟩

/-- Of the styles of type only the font family is a literal. -/
theorem arguments_textStyle : Arguments (textStyle s) (textsAt s "fontFamily") fun _ => [] := by
  have hk : IsKey "style" ∧ IsKey "fontFamily" := by decide
  have hc : ∀ field ∈ [("textColor", "color")], IsKey field.2 ∧ field.1 ∉ speakingKeys := by decide
  have hr : ∀ field ∈ textStyleFields.drop 2, IsKey field.2 ∧ field.1 ∉ speakingKeys := by decide
  have hs : textStyleFields = [("textColor", "color")] ++ ([("fontFamily", "fontFamily")] ++ textStyleFields.drop 2) :=
    rfl
  have hf : ([("fontFamily", "fontFamily")].filterMap fun (key, field) => (s.get? key).map (field, ·)) =
      s.select ["fontFamily"] := rfl
  have ha := (arguments_fields h hc).append ((arguments_get? h hk.2).append (arguments_fields h hr))
  rw [← hf, ← List.filterMap_append, ← List.filterMap_append, ← hs] at ha
  have hn : IsWord "TextStyle" ∧ "TextStyle" ≠ "Expanded" := by decide
  exact arguments_boxed hk.1 hn (by simpa using ha)

/-- A run says its text and, where it has styles of its own, its font. -/
def runTexts (run : Run) : List String :=
  run.text :: (run.styles.map (textsAt · "fontFamily")).getD []

omit h in
theorem holds_textSpan {run : Run} (hr : ∀ s ∈ run.styles, Voiced s) :
    Holds (textSpan run) (runTexts run) fun _ => [] := by
  have hk : IsKey "text" := by decide
  have hs : Arguments ((run.styles.map textStyle).getD []) ((run.styles.map (textsAt · "fontFamily")).getD [])
      fun _ => [] := by
    cases hs : run.styles with
    | none => exact .nil
    | some s => exact arguments_textStyle (hr s hs)
  have hw : Widget (call "TextSpan" (("text", Text.dart run.text) :: (run.styles.map textStyle).getD []))
      (runTexts run) [] := widget_call (by decide) ((Arguments.single hk (speaks_dart run.text).holds).append hs)
  have hd := denotes_line hw.1.1.denotes
  rw [Holds, textSpan, hd.value_eq]
  exact ⟨hd.reads, hw.1.2⟩

omit h in
theorem fragments_textSpans {runs : List Run} (hr : ∀ run ∈ runs, ∀ s ∈ run.styles, Voiced s) :
    Fragments (runs.map textSpan) (runs.flatMap runTexts) fun _ => [] where
  reads f hf := by
    obtain ⟨run, hm, rfl⟩ := List.mem_map.mp hf
    exact (holds_textSpan (hr run hm)).1
  texts_eq := by
    rw [List.flatMap_map]
    exact List.flatMap_congr fun run hm => (holds_textSpan (hr run hm)).2.1
  filled_eq place := by
    rw [List.flatMap_map, List.flatMap_eq_nil_iff]
    exact fun run hm => (holds_textSpan (hr run hm)).2.2 place

/-- What a text says, in its own font or in those of its runs. -/
def textTexts (s : Styles) (runs : List Run) : List String :=
  match runs with
  | [⟨text, none⟩] => text :: textsAt s "fontFamily"
  | runs => runs.flatMap runTexts

theorem widget_text {runs : List Run} (hr : ∀ run ∈ runs, ∀ s ∈ run.styles, Voiced s) :
    Widget (textWidget s runs) (textTexts s runs) [] := by
  have hk : IsKey "" ∧ IsKey "children" := by decide
  have ha := arguments_select h (by decide : ∀ key ∈ ["textAlign"], IsKey key ∧ key ∉ speakingKeys)
  unfold textWidget
  split
  · rename_i text
    exact widget_call (by decide)
      (((Arguments.single hk.1 (speaks_dart text).holds).append ha).append (arguments_textStyle h))
  · rename_i hn
    have ht : textTexts s runs = runs.flatMap runTexts ++ [] := by
      unfold textTexts
      split
      · exact absurd rfl (hn _)
      · rw [List.append_nil]
    have hs : Widget (call "TextSpan" [("children", list (runs.map textSpan))]) (runs.flatMap runTexts) [] :=
      widget_call (by decide) (.single hk.2 (fragments_textSpans hr).holds_list)
    rw [ht]
    exact widget_call (by decide) ((Arguments.single hk.1 hs.1).append ha)

theorem widget_sized {w : String} {filled : List Place} (hw : Widget w texts filled) :
    Widget (sized s w) texts filled := by
  have hc : IsKey "child" := by decide
  have ha := (arguments_select h (by decide : ∀ key ∈ ["width", "height"], _)).append (.single hc hw.1)
  unfold sized
  dsimp only
  split
  · exact hw
  · exact widget_call (by decide) ha

end
end SceneCode.Dart
