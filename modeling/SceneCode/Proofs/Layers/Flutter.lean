import SceneCode.Proofs.Layers.Commented

namespace SceneCode.Flutter
open Comments (Clears Solid OneLine Line Steady Widget Fragment Fragments)
open Declaration (Values set)
open Text (indentChars)
open Number (text)

/-- What an argument starts with. -/
def lead (key : String) : String :=
  if key.isEmpty then "" else key ++ ": "

theorem lead_empty (v : String) : lead "" ++ v = v := by
  simp [lead]

/-- Arguments under the same keys. Each starts a line with its key or, without one, with its value. -/
inductive Arguments : List (String × String) → List (String × String) → List String → Prop where
  | nil : Arguments [] [] []
  | cons {key v w : String} {as bs : List (String × String)} {ms ns : List String} (hk : OneLine key)
    (hs : Solid (lead key ++ v).toList) (hv : Clears v.toList w.toList ms) (h : Arguments as bs ns) :
    Arguments ((key, v) :: as) ((key, w) :: bs) (ms ++ ns)

/-- A word that an argument may go by. -/
def IsArgument (key : String) : Prop :=
  OneLine key ∧ Solid key.toList

instance (key : String) : Decidable (IsArgument key) := inferInstanceAs (Decidable (_ ∧ _))

theorem IsArgument.ofList {cs : List Char} (h : '\n' ∉ cs ∧ Solid cs) : IsArgument (String.ofList cs) :=
  ⟨.ofList h.1, (Comments.Line.ofList h).solid⟩

theorem IsArgument.lead {key : String} (h : IsArgument key) (v : String) : Solid (lead key ++ v).toList := by
  have hn : key.isEmpty = false := by
    rw [Bool.eq_false_iff]
    intro he
    obtain rfl := String.isEmpty_iff.mp he
    exact absurd h.2 (by decide)
  simp only [Flutter.lead, hn, Bool.false_eq_true, if_false, String.toList_append]
  exact (h.2.append _).append _

/-- Arguments that stay as they are. -/
def Steadily (as : List (String × String)) : Prop :=
  ∀ a ∈ as, IsArgument a.1 ∧ Steady a.2

namespace Steadily
variable {as bs : List (String × String)}

theorem nil : Steadily [] :=
  nofun

theorem cons {key : List Char} (hk : '\n' ∉ key ∧ Solid key) {v : String} (hv : Steady v) (h : Steadily as) :
    Steadily ((String.ofList key, v) :: as) :=
  List.forall_mem_cons.mpr ⟨⟨.ofList hk, hv⟩, h⟩

theorem single {key : List Char} (hk : '\n' ∉ key ∧ Solid key) {v : String} (hv : Steady v) :
    Steadily [(String.ofList key, v)] :=
  cons hk hv nil

theorem append (h : Steadily as) (h' : Steadily bs) : Steadily (as ++ bs) :=
  List.forall_mem_append.mpr ⟨h, h'⟩

end Steadily

namespace Arguments
variable {as bs as' bs' : List (String × String)} {ms ns : List String}

theorem append (h : Arguments as bs ms) (h' : Arguments as' bs' ns) :
    Arguments (as ++ as') (bs ++ bs') (ms ++ ns) := by
  induction h with
  | nil => exact h'
  | cons hk hs hv h ih =>
    rw [List.append_assoc]
    exact .cons hk hs hv ih

theorem child {f g : String} (h : Widget f g ns) : Arguments [("child", f)] [("child", g)] ns := by
  have hc : IsArgument "child" := .ofList (by decide)
  have ha := Arguments.cons hc.1 (hc.lead f) h.clears .nil
  rwa [List.append_nil] at ha

/-- An argument that goes by its place. -/
theorem placed {f g : String} (h : Widget f g ns) : Arguments [("", f)] [("", g)] ns := by
  have hk : OneLine "" := .ofList (by decide)
  have hs : Solid (lead "" ++ f).toList := by
    rw [lead_empty]
    exact h.solid
  have ha := Arguments.cons hk hs h.clears .nil
  rwa [List.append_nil] at ha

/-- Steady values stay as they are. -/
theorem steady (h : Steadily as) : Arguments as as [] := by
  induction as with
  | nil => exact .nil
  | cons a as ih =>
    rw [Steadily, List.forall_mem_cons] at h
    exact .cons h.1.1.1 (h.1.1.lead a.2) h.1.2 (ih h.2)

theorem isEmpty_eq (h : Arguments as bs ns) : as.isEmpty = bs.isEmpty := by
  cases h <;> rfl

end Arguments

theorem argument_eq {key : String} (h : OneLine key) (v : String) :
    (argument key v).toList = indentChars ('\n' :: ((lead key ++ v).toList ++ [','])) := by
  have hl : '\n' ∉ (lead key).toList := by
    unfold lead
    split
    · exact List.not_mem_nil
    · exact OneLine.append_iff.mpr ⟨h, .ofList (by decide)⟩
  have hb : "\n  ".toList = ['\n', ' ', ' '] := by decide
  have hc : ",".toList = [','] := by decide
  have hn : '\n' ∉ [','] := by decide
  have hi : indentChars ('\n' :: ((lead key ++ v).toList ++ [','])) =
      '\n' :: ' ' :: ' ' :: indentChars ((lead key ++ v).toList ++ [',']) := rfl
  rw [hi, ClassPrefix.indentChars_append, String.toList_append, ClassPrefix.indentChars_append,
    ClassPrefix.indentChars_of_not_mem hl, ClassPrefix.indentChars_of_not_mem hn]
  simp [argument, lead, hb, hc, Text.indent]

theorem clears_argument {key v w : String} {ns : List String} (hk : OneLine key) (hs : Solid (lead key ++ v).toList)
    (hv : Clears v.toList w.toList ns) : Clears (argument key v).toList (argument key w).toList ns := by
  have hl : Clears (lead key).toList (lead key).toList [] := by
    refine Clears.inline ?_
    unfold lead
    split
    · exact List.not_mem_nil
    · exact OneLine.append_iff.mpr ⟨hk, .ofList (by decide)⟩
  have hc : Clears [','] [','] [] := Clears.inline (by decide)
  have ha := (hl.append hv).append hc
  rw [List.nil_append, List.append_nil, ← String.toList_append, ← String.toList_append] at ha
  rw [argument_eq hk, argument_eq hk]
  exact (ha.line (hs.append _)).indent

theorem clears_arguments {as bs : List (String × String)} {ns : List String} (h : Arguments as bs ns) :
    Clears (String.join (as.map fun (key, value) => argument key value)).toList
      (String.join (bs.map fun (key, value) => argument key value)).toList ns := by
  induction h with
  | nil => exact Clears.nil
  | @cons key v w as bs ms ns hk hs hv h ih => simpa using (clears_argument hk hs hv).append ih

/-- A call on one line or on many. -/
theorem clears_call {name : String} (hn : OneLine name) {as bs : List (String × String)} {ns : List String}
    (h : Arguments as bs ns) : Clears (call name as).toList (call name bs).toList ns := by
  unfold call
  rw [← h.isEmpty_eq]
  split
  · have he : as = [] := List.isEmpty_iff.mp ‹_›
    subst he
    cases h
    exact (OneLine.append_iff.mpr ⟨hn, .ofList (by decide)⟩ : OneLine (name ++ "()")).steady
  · have ho : Steady (name ++ "(") := OneLine.steady (OneLine.append_iff.mpr ⟨hn, .ofList (by decide)⟩)
    have hc : Steady "\n)" := Clears.line (Clears.inline (by decide)) (by decide)
    have ha := Clears.append (Clears.append ho (clears_arguments h)) hc
    simpa using ha

theorem widget_call {name : String} (hn : Line name) {as bs : List (String × String)} {ns : List String}
    (h : Arguments as bs ns) : Widget (call name as) (call name bs) ns := by
  refine ⟨clears_call hn.oneLine h, ?_⟩
  unfold call
  split
  · rw [String.toList_append]
    exact hn.solid.append _
  · rw [String.toList_append, String.toList_append, String.toList_append]
    exact ((hn.solid.append _).append _).append _

theorem steady_call {name : List Char} (hn : '\n' ∉ name) {as : List (String × String)} (h : Steadily as) :
    Steady (call (String.ofList name) as) :=
  clears_call (.ofList hn) (Arguments.steady h)

theorem clears_list {fs gs ns : List String} (h : Fragments fs gs ns) :
    Clears (list fs).toList (list gs).toList ns := by
  have ho : Steady "[" := OneLine.steady (.ofList (by decide))
  have hc : Steady "\n]" := Clears.line (Clears.inline (by decide)) (by decide)
  have hm : Clears (String.join (fs.map fun item => Text.indent item ++ ",")).toList
      (String.join (gs.map fun item => Text.indent item ++ ",")).toList ns := by
    refine h.join_map fun f g ms hf => ?_
    have hs : Steady "," := OneLine.steady (.ofList (by decide))
    have ha := Clears.append hf.indentText hs
    rwa [List.append_nil, ← String.toList_append, ← String.toList_append] at ha
  have ha := Clears.append (Clears.append ho hm) hc
  rw [List.nil_append, List.append_nil] at ha
  simpa only [list, String.toList_append] using ha

theorem widget_dart (text : String) : Widget (Text.dart text) (Text.dart text) [] := by
  have hq : Solid "'".toList := by decide
  refine ⟨(OneLine.dart text).steady, ?_⟩
  rw [Text.dart, String.toList_append, String.toList_append]
  exact (hq.append _).append _

section
variable {s : Styles} (h : ∀ e ∈ s.entries, Steady e.2)
include h

theorem steady_get? {key v : String} (hv : s.get? key = some v) : Steady v :=
  h (key, v) (Styles.mem_entries_of_get? hv)

theorem steadily_select {keys : List String} (hk : ∀ key ∈ keys, IsArgument key) :
    Steadily (s.select keys) := by
  intro a ha
  obtain ⟨key, hm, he⟩ := List.mem_filterMap.mp ha
  obtain ⟨v, hv, rfl⟩ := Option.map_eq_some_iff.mp he
  exact ⟨hk key hm, steady_get? h hv⟩

theorem arguments_select {keys : List String} (hk : ∀ key ∈ keys, IsArgument key) :
    Arguments (s.select keys) (s.select keys) [] :=
  .steady (steadily_select h hk)

theorem arguments_sizeArguments : Arguments (sizeArguments s) (sizeArguments s) [] :=
  arguments_select h (by decide)

theorem widget_arranged {fs gs ns : List String} (hf : Fragments fs gs ns) : Widget (arranged s fs) (arranged s gs) ns := by
  have hk : IsArgument "children" := .ofList (by decide)
  have hc : Arguments [("children", list fs)] [("children", list gs)] ns := by
    have ha := Arguments.cons hk.1 (hk.lead (list fs)) (clears_list hf) .nil
    rwa [List.append_nil] at ha
  unfold arranged
  dsimp only
  split
  · rename_i hl
    have hn : Line ((s.get? "layout").getD "Stack") := by
      rcases hl with hl | hl <;> rw [hl] <;> exact .ofList (by decide)
    exact widget_call hn ((arguments_select h (by decide)).append hc)
  · split
    · refine widget_call (.ofList (by decide)) ((Arguments.steady ?_).append hc)
      cases hg : s.get? "spacing" with
      | none => exact .nil
      | some spacing =>
        have hv := steady_get? h hg
        exact .cons (by decide) hv (.single (by decide) hv)
    · exact widget_call (.ofList (by decide)) hc

theorem widget_around {f g : String} {ns : List String} (hf : Widget f g ns) (key : String) {name : String}
    (hn : Line name) {arguments : String → List (String × String)} (ha : ∀ v, Steady v → Steadily (arguments v)) :
    Widget (around s key name arguments f) (around s key name arguments g) ns := by
  unfold around
  cases hg : s.get? key with
  | none => exact hf
  | some v => exact widget_call hn ((Arguments.steady (ha v (steady_get? h hg))).append (.child hf))

theorem widget_placed {f g : String} {ns : List String} (hf : Widget f g ns) : Widget (placed s f) (placed s g) ns := by
  unfold placed
  split
  · exact widget_call (.ofList (by decide)) (.child hf)
  · dsimp only
    split
    · exact hf
    · exact widget_call (.ofList (by decide)) ((arguments_select h (by decide)).append (.child hf))

omit h in
theorem steady_sigma {v : String} (hv : Steady v) : Steady (sigma v) := by
  have ho : Steady "ImageFilter.blur(sigmaX: " := OneLine.steady (.ofList (by decide))
  have hm : Steady ", sigmaY: " := OneLine.steady (.ofList (by decide))
  have hc : Steady ")" := OneLine.steady (.ofList (by decide))
  exact (((ho.append hv).append hm).append hv).append hc

theorem widget_wrapped {f g : String} {ns : List String} (hf : Widget f g ns) : Widget (wrapped s f) (wrapped s g) ns := by
  have hl : Steady "Alignment.topLeft" := OneLine.steady (.ofList (by decide))
  unfold wrapped
  apply widget_placed h
  apply widget_around h _ "opacity" (.ofList (by decide)) fun v hv => .single (by decide) hv
  apply widget_around h _ "rotation" (.ofList (by decide)) fun v hv => .cons (by decide) hv (.single (by decide) hl)
  apply widget_around h _ "backdropBlur" (.ofList (by decide)) fun v hv => .single (by decide) (steady_sigma hv)
  exact widget_around h hf "blur" (.ofList (by decide)) fun v hv => .single (by decide) (steady_sigma hv)

theorem arguments_child {fs gs ns : List String} (hf : Fragments fs gs ns) :
    Arguments (if fs.isEmpty then [] else [("child", arranged s fs)])
      (if gs.isEmpty then [] else [("child", arranged s gs)]) ns := by
  rw [← hf.isEmpty_eq]
  split
  · obtain rfl : fs = [] := List.isEmpty_iff.mp ‹_›
    cases hf
    exact .nil
  · exact .child (widget_arranged h hf)

omit h in
theorem steadily_decoration {decoration : List (String × String)} (hd : Steadily decoration) :
    Steadily (if decoration.isEmpty then [] else [("decoration", call "BoxDecoration" decoration)]) := by
  split
  · exact .nil
  · exact .single (by decide) (steady_call (by decide) hd)

/-- The children are all that two containers of the same styles may differ in. -/
theorem widget_container {fs gs ns : List String} (hf : Fragments fs gs ns) :
    Widget (containerWidget s fs) (containerWidget s gs) ns := by
  have hd : Steadily (s.select ["color", "gradient", "image", "border", "borderRadius", "boxShadow"]) :=
    steadily_select h (by decide)
  have hp : Arguments (s.select ["padding", "clipBehavior"]) (s.select ["padding", "clipBehavior"]) [] :=
    arguments_select h (by decide)
  have ha := (((arguments_sizeArguments h).append hp).append (.steady (steadily_decoration hd))).append
    (arguments_child h hf)
  unfold containerWidget
  dsimp only
  split <;> exact widget_call (.ofList (by decide)) ha

theorem widget_image (source : String) : Widget (imageWidget s source) (imageWidget s source) [] := by
  have hc : Steady "BoxFit.cover" := OneLine.steady (.ofList (by decide))
  have hf : Arguments [("fit", "BoxFit.cover")] [("fit", "BoxFit.cover")] [] := .steady (.single (by decide) hc)
  have ha := ((Arguments.placed (widget_dart source)).append (arguments_sizeArguments h)).append hf
  exact widget_around h (widget_call (.ofList (by decide)) ha) "borderRadius" (.ofList (by decide)) fun v hv =>
    .single (by decide) hv

theorem steadily_textStyle : Steadily (textStyle s) := by
  have hf : ∀ field ∈ textStyleFields, IsArgument field.2 := by decide
  unfold textStyle
  dsimp only
  split
  · exact .nil
  · refine .single (by decide) (steady_call (by decide) fun a ha => ?_)
    obtain ⟨⟨key, field⟩, hm, he⟩ := List.mem_filterMap.mp ha
    obtain ⟨v, hv, rfl⟩ := Option.map_eq_some_iff.mp he
    exact ⟨hf _ hm, steady_get? h hv⟩

omit h in
theorem fragment_textSpan {run : Run} (hr : ∀ s ∈ run.styles, ∀ e ∈ s.entries, Steady e.2) :
    Fragment (textSpan run) (textSpan run) [] := by
  have ha : Steadily (("text", Text.dart run.text) :: (run.styles.map textStyle).getD []) := by
    refine .cons (by decide) (OneLine.dart _).steady ?_
    cases hs : run.styles with
    | none => exact .nil
    | some s => exact steadily_textStyle (hr s hs)
  exact (widget_call (.ofList (by decide)) (.steady ha)).fragment

theorem widget_text {runs : List Run} (hr : ∀ s ∈ runs.filterMap (·.styles), ∀ e ∈ s.entries, Steady e.2) :
    Widget (textWidget s runs) (textWidget s runs) [] := by
  have ha : Arguments (s.select ["textAlign"]) (s.select ["textAlign"]) [] := arguments_select h (by decide)
  unfold textWidget
  split
  · rename_i text
    have hs := ((Arguments.placed (widget_dart text)).append ha).append (.steady (steadily_textStyle h))
    exact widget_call (.ofList (by decide)) hs
  · have hf : Fragments (runs.map textSpan) (runs.map textSpan) [] := by
      refine .steady fun f hf => ?_
      obtain ⟨run, hm, rfl⟩ := List.mem_map.mp hf
      exact fragment_textSpan fun s hs => hr s (List.mem_filterMap.mpr ⟨run, hm, hs⟩)
    have hw : Widget (call "TextSpan" [("children", list (runs.map textSpan))]) _ [] :=
      widget_call (.ofList (by decide)) (.steady (.single (by decide) (clears_list hf)))
    exact widget_call (.ofList (by decide)) ((Arguments.placed hw).append ha)

theorem widget_sized {f g : String} {ns : List String} (hf : Widget f g ns) : Widget (sized s f) (sized s g) ns := by
  unfold sized
  dsimp only
  split
  · exact hf
  · exact widget_call (.ofList (by decide)) ((arguments_sizeArguments h).append (.child hf))

end

/-- The comment above a widget goes, and nothing else does. -/
theorem fragment_named {f g : String} {ns : List String} (h : Widget f g ns) {name : String}
    (hn : ∀ n ∈ Target.label true name, Comments.FitsLine n) :
    Fragment (named (Target.label true name) f) (named (Target.label false name) g)
      ((Target.label true name).toList ++ ns) := by
  have hf : Target.label false name = none := rfl
  rw [hf]
  cases hl : Target.label true name with
  | none => exact h.fragment
  | some n => exact h.fragment_comment (hn n hl)

theorem oneLine_color (c : Rgb) (opacity : Float) : OneLine (color c opacity) := by
  have hc : OneLine "Color(0x" := .ofList (by decide)
  have hx (n : Nat) : OneLine (Rgb.hexByte n) := .of_plain (Tailwind.plain_hexByte n)
  exact (OneLine.append_iff.mpr ⟨hc, hx _⟩).next (.of_plain (Tailwind.plain_hex6 c)) (by decide)

theorem oneLine_list {vs : List String} (h : ∀ v ∈ vs, OneLine v) : OneLine ("[" ++ ", ".intercalate vs ++ "]") := by
  have ho : OneLine "[" := .ofList (by decide)
  exact ho.next (.intercalate (.ofList (by decide)) h) (by decide)

theorem steady_gradient (g : LinearGradient) : Steady (gradient g) := by
  have ha (p : Point Float) : Steady (alignment p) := by
    have ho : OneLine "Alignment(" := .ofList (by decide)
    exact ((ho.next (.text _) (by decide)).next (.text _) (by decide)).steady
  have hc : Steady ("[" ++ ", ".intercalate (g.stops.map fun s =>
      color (g.stopColor s).1 (g.stopColor s).2) ++ "]") := OneLine.steady <| oneLine_list fun v hv => by
    obtain ⟨s, -, rfl⟩ := List.mem_map.mp hv
    exact oneLine_color _ _
  have hs : Steady ("[" ++ ", ".intercalate (g.stops.map (text ·.position)) ++ "]") := OneLine.steady <|
    oneLine_list fun v hv => by
      obtain ⟨s, -, rfl⟩ := List.mem_map.mp hv
      exact OneLine.text _
  exact steady_call (by decide) (.cons (by decide) (ha g.start) (.cons (by decide) (ha g.finish)
    (.cons (by decide) hc (.single (by decide) hs))))

theorem oneLine_insets (p : Padding) : OneLine (insets p) := by
  have ha : OneLine "const EdgeInsets.all(" := .ofList (by decide)
  have hs : OneLine "const EdgeInsets.symmetric(horizontal: " := .ofList (by decide)
  have ho : OneLine "const EdgeInsets.only(left: " := .ofList (by decide)
  unfold insets
  split
  · exact ha.next (.text _) (by decide)
  · split
    · exact (hs.next (.text _) (by decide)).next (.text _) (by decide)
    · exact (((ho.next (.text _) (by decide)).next (.text _) (by decide)).next (.text _) (by decide)).next (.text _)
        (by decide)

theorem oneLine_border (s : Stroke) : OneLine (border s) := by
  have ha : OneLine (strokeAlign s.align) := by cases s.align <;> exact .ofList (by decide)
  have hb : OneLine "Border.all(width: " := .ofList (by decide)
  exact ((hb.next (.text _) (by decide)).next (oneLine_color _ _) (by decide)).next ha (by decide)

theorem steady_radius (r : Radius) (width height : Float) : Steady (radius r width height) := by
  have hc (r : Float) : Steady (circular r) := by
    have ho : OneLine "Radius.circular(" := .ofList (by decide)
    exact (ho.next (.text r) (by decide)).steady
  have hu : OneLine "BorderRadius.circular(" := .ofList (by decide)
  have he : OneLine "BorderRadius.all(Radius.elliptical(" := .ofList (by decide)
  cases r with
  | uniform r => exact (hu.next (.text r) (by decide)).steady
  | corners c =>
    exact steady_call (by decide) (.cons (by decide) (hc _) (.cons (by decide) (hc _)
      (.cons (by decide) (hc _) (.single (by decide) (hc _)))))
  | full => exact ((he.next (.text _) (by decide)).next (.text _) (by decide)).steady

theorem fragment_shadow (s : Shadow) : Fragment (shadow s) (shadow s) [] := by
  have hc : Steady (color s.color s.opacity) := (oneLine_color _ _).steady
  have ho : OneLine "Offset(" := .ofList (by decide)
  have ho : OneLine ("Offset(" ++ text s.x ++ ", " ++ text s.y ++ ")") :=
    (ho.next (.text s.x) (by decide)).next (.text s.y) (by decide)
  have ht (x : Float) : Steady (text x) := (OneLine.text x).steady
  have hi : Steady "BlurStyle.inner" := OneLine.steady (.ofList (by decide))
  have ha : Steadily ([("color", color s.color s.opacity), ("blurRadius", text s.blur),
      ("offset", "Offset(" ++ text s.x ++ ", " ++ text s.y ++ ")"), ("spreadRadius", text s.spread)] ++
      (if s.inset then [("blurStyle", "BlurStyle.inner")] else [])) := by
    refine .append (.cons (by decide) hc (.cons (by decide) (ht _) (.cons (by decide) ho.steady (.single (by decide) (ht _))))) ?_
    split
    · exact .single (by decide) hi
    · exact .nil
  exact (widget_call (.ofList (by decide)) (.steady ha)).fragment

theorem steady_background (fill : Fill) (width height : Float) : Steady (background fill width height).value := by
  cases fill with
  | solid c opacity => exact (oneLine_color c opacity).steady
  | gradient g => exact steady_gradient g
  | image mode =>
    have hf (fit : String) (h : OneLine fit) : Steady (call "DecorationImage" [
        ("image", "NetworkImage(" ++ Text.dart (placeholderUrl width height) ++ ")"), ("fit", fit)]) := by
      have hi : OneLine "NetworkImage(" := .ofList (by decide)
      exact steady_call (by decide) (.cons (by decide) (hi.next (.dart _) (by decide)).steady
        (.single (by decide) h.steady))
    cases mode <;> exact hf _ (.ofList (by decide))

theorem values_extent {key : String} (primary : Bool) (e : Extent) : Values OneLine (extent key primary e) := by
  cases e with
  | fixed length => exact Declaration.values_single (OneLine.text length)
  | fill => cases primary <;> exact Declaration.values_single (.ofList (by decide))
  | hug => exact Declaration.values_nil

theorem values_flow (f : Flow) : Values OneLine (flow f) := by
  have hm : OneLine (mainAlign f.main) := by cases f.main <;> exact .ofList (by decide)
  have hx : OneLine (crossAlign f.cross) := by cases f.cross <;> exact .ofList (by decide)
  unfold flow
  simp only [Declaration.values_append]
  refine ⟨⟨⟨⟨⟨?_, ?_⟩, ?_⟩, ?_⟩, ?_⟩, ?_⟩
  · refine Declaration.values_single ?_
    split
    · exact .ofList (by decide)
    · cases f.direction <;> exact .ofList (by decide)
  · exact Declaration.values_ite (fun _ => Declaration.values_single (.ofList (by decide))) fun _ => Declaration.values_nil
  · exact Declaration.values_cons_set.mpr ⟨hm, Declaration.values_single hx⟩
  · exact Declaration.values_ite (fun _ => Declaration.values_single (.ofList (by decide))) fun _ => Declaration.values_nil
  · exact Declaration.values_option fun gap _ => OneLine.text gap
  · exact Declaration.values_ite (fun _ => Declaration.values_nil) fun _ =>
      Declaration.values_single (oneLine_insets f.padding)

theorem values_typography (run : TextRun) (fill : Option (Rgb × Float)) : Values OneLine (typography run fill) := by
  have hw : OneLine (fontWeight run.fontWeight) := OneLine.append_iff.mpr ⟨.ofList (by decide), .repr _⟩
  unfold typography
  simp only [Declaration.values_append]
  refine ⟨⟨⟨⟨⟨?_, ?_⟩, ?_⟩, ?_⟩, ?_⟩, ?_⟩
  · exact Declaration.values_option fun c _ => oneLine_color c.1 c.2
  · simp only [Declaration.values_cons_set]
    exact ⟨OneLine.dart _, OneLine.text _, hw, Declaration.values_nil⟩
  · exact Declaration.values_ite (fun _ => Declaration.values_single (.ofList (by decide))) fun _ => Declaration.values_nil
  · exact Declaration.values_option fun v hv => by
      cases hd : run.decoration <;> rw [hd] at hv <;> cases hv <;> exact .ofList (by decide)
  · exact Declaration.values_ite (fun _ => Declaration.values_single (OneLine.text _)) fun _ => Declaration.values_nil
  · exact Declaration.values_option fun x _ => OneLine.text x

theorem values_declarations (a : Aspect) : Values Steady (declarations a) := by
  have hl {ds : List Declaration} (h : Values OneLine ds) : Values Steady ds := fun d hd => (h d hd).steady
  cases a with
  | size s => exact hl (Declaration.values_append.mpr ⟨values_extent _ _, values_extent _ _⟩)
  | position x y => exact hl (Declaration.values_cons_set.mpr ⟨OneLine.text x, Declaration.values_single (OneLine.text y)⟩)
  | blend opacity rotation =>
    refine hl (Declaration.values_append.mpr ⟨?_, ?_⟩)
    · exact Declaration.values_ite (fun _ => Declaration.values_single (OneLine.text _)) fun _ => Declaration.values_nil
    · exact Declaration.values_ite (fun _ => Declaration.values_single (OneLine.text _)) fun _ => Declaration.values_nil
  | background fill width height => exact List.forall_mem_singleton.mpr (steady_background fill width height)
  | border s => exact hl (Declaration.values_single (oneLine_border s))
  | radius r width height => exact Declaration.values_single (steady_radius r width height)
  | shadows ss =>
    have hf : Fragments (ss.map shadow) (ss.map shadow) [] := by
      refine .steady fun f hf => ?_
      obtain ⟨s, -, rfl⟩ := List.mem_map.mp hf
      exact fragment_shadow s
    exact Declaration.values_single (clears_list hf)
  | blur b =>
    refine hl (Declaration.values_append.mpr ⟨?_, ?_⟩)
    · exact Declaration.values_option fun r _ => OneLine.text _
    · exact Declaration.values_option fun r _ => OneLine.text _
  | clip => exact hl (Declaration.values_single (.ofList (by decide)))
  | flow f => exact hl (values_flow f)
  | origin => exact hl (List.forall_mem_singleton.mpr (.ofList (by decide)))
  | typography run fill => exact hl (values_typography run fill)
  | textAlign horizontal vertical =>
    exact hl (Declaration.values_option fun v hv => by cases horizontal <;> cases hv <;> exact .ofList (by decide))

theorem commented : Comments.Commented .flutter Steady where
  values := values_declarations
  container hs _ hn _ _ _ hf := fragment_named (widget_wrapped hs (widget_container hs hf)) hn
  image hs _ hn source := by
    have hf := fragment_named (widget_wrapped hs (widget_image hs source)) hn
    rwa [List.append_nil] at hf
  text hs _ hn _ hr _ := by
    have hf := fragment_named (widget_wrapped hs (widget_sized hs (widget_text hs hr))) hn
    rwa [List.append_nil] at hf

end SceneCode.Flutter
