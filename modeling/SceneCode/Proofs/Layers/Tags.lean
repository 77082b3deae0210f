import SceneCode.Proofs.Layers.Attributes
import SceneCode.Proofs.Layers.Commented
import SceneCode.Proofs.Layers.Ends
import SceneCode.Proofs.Markup.Elements

namespace SceneCode

namespace Text

theorem indentBy_escapeAttribute (depth : Nat) (cs : List Char) :
    indentBy depth (cs.flatMap escapeAttributeChar) = (indentBy depth cs).flatMap escapeAttributeChar := by
  have hs (n : Nat) : ('\n' :: List.replicate n ' ').flatMap escapeAttributeChar = '\n' :: List.replicate n ' ' := by
    have hb : escapeAttributeChar '\n' = ['\n'] := rfl
    have he : escapeAttributeChar ' ' = [' '] := rfl
    rw [List.flatMap_cons, List.flatMap_replicate, hb, he, List.flatten_replicate_singleton]
    rfl
  induction cs with
  | nil => rfl
  | cons c cs ih =>
    rw [List.flatMap_cons, indentBy_append, ih]
    by_cases hc : c = '\n'
    · subst hc
      have he : indentBy depth (escapeAttributeChar '\n') = '\n' :: List.replicate (2 * depth) ' ' := by
        simp [escapeAttributeChar, indentBy]
      rw [he, indentBy_break, List.flatMap_append, hs]
    · have hn : '\n' ∉ escapeAttributeChar c := by
        unfold escapeAttributeChar
        split_ifs
        · decide
        · decide
        · simpa using Ne.symm hc
      rw [indentBy_of_not_mem depth hn, indentBy_cons depth hc, List.flatMap_cons]

theorem unescape_escapeAttribute (cs : List Char) : unescape (cs.flatMap escapeAttributeChar) = cs := by
  induction cs with
  | nil => rfl
  | cons c cs ih =>
    by_cases h₁ : c = '&'
    · subst h₁
      exact congrArg (List.cons '&') ih
    · by_cases h₂ : c = '"'
      · subst h₂
        exact congrArg (List.cons '"') ih
      · have hc : escapeAttributeChar c = [c] := by simp [escapeAttributeChar, h₁, h₂]
        rw [List.flatMap_cons, hc, List.singleton_append, unescape_cons h₁, ih]

end Text

namespace Markup.Layers
open Target (label)
open Text (indentBy)

variable {objects jsx : Bool}

/-- A name at its depth in the markup. -/
def indented (depth : Nat) (name : String) : String :=
  String.ofList (indentBy depth name.toList)

/-- The value of the attribute for a name. -/
def value (name : String) : List Char :=
  (Text.escapeAttribute name).toList

theorem value_indented (depth : Nat) (name : String) : indentBy depth (value name) = value (indented depth name) := by
  rw [value, value, Text.escapeAttribute, Text.escapeAttribute, indented, String.toList_ofList, String.toList_ofList,
    String.toList_ofList, Text.indentBy_escapeAttribute]

theorem unescape_value (name : String) : String.ofList (Text.unescape (value name)) = name := by
  rw [value, Text.escapeAttribute, String.toList_ofList, Text.unescape_escapeAttribute, String.ofList_toList]

theorem unquoted_value (name : String) : '"' ∉ value name := by
  rw [value, Text.escapeAttribute, String.toList_ofList]
  exact ClassPrefix.unquoted_escape _

/-- Indented to a depth, the first text is the second but for layer attributes with these names. -/
def Loses (objects : Bool) (depth : Nat) (f g : String) (names : List String) : Prop :=
  Erases (step objects) .tags (indentBy depth f.toList) (indentBy depth g.toList) (names.map value)

namespace Loses
variable {depth : Nat}

theorem nil : Loses objects depth "" "" [] :=
  Erases.nil

theorem append {f f' g g' : String} {ns ns' : List String} (h : Loses objects depth f g ns)
    (h' : Loses objects depth f' g' ns') : Loses objects depth (f ++ f') (g ++ g') (ns ++ ns') := by
  unfold Loses at h h' ⊢
  rw [String.toList_append, String.toList_append, Text.indentBy_append, Text.indentBy_append, List.map_append]
  exact Erases.append h h'

theorem plain {s : String} (h : '"' ∉ s.toList) (hb : objects = true → '\x7b' ∉ s.toList) : Loses objects depth s s [] :=
  still_plain (fun hm => h ((Text.mem_indentBy (by decide)).mp hm))
    fun ho hm => hb ho ((Text.mem_indentBy (by decide)).mp hm)

/-- A text of the target's own. -/
theorem literal {s : String} (h : '"' ∉ s.toList ∧ '\x7b' ∉ s.toList) : Loses objects depth s s [] :=
  plain h.1 fun _ => h.2

/-- One level in. -/
theorem indent {fs gs : List String} {ns : List String}
    (h : Loses objects (depth + 1) (String.join fs) (String.join gs) ns) :
    Loses objects depth (String.join (fs.map Text.indent)) (String.join (gs.map Text.indent)) ns := by
  unfold Loses at h ⊢
  rwa [Row.toList_indent_join, Row.toList_indent_join, Text.indentBy_indentChars, Text.indentBy_indentChars]

end Loses

/-- Behind the name of a tag. -/
def behindName (attributes : String) : String :=
  if attributes.isEmpty then "" else " " ++ attributes

/-- Attributes in a tag that no layer attribute is seen in, and that end before the space of the next one. -/
structure Quiet (objects : Bool) (attributes : String) : Prop where
  loses (depth : Nat) : Loses objects depth (behindName attributes) (behindName attributes) []
  edge : ∀ c ∈ attributes.toList.getLast?, isEdge c = true

theorem Quiet.empty : Quiet objects "" :=
  ⟨fun _ => Loses.nil, nofun⟩

theorem getLast?_behindName {attributes : String} (h : ∀ c ∈ attributes.toList.getLast?, isEdge c = true) :
    ∀ c ∈ (behindName attributes).toList.getLast?, isEdge c = true := by
  unfold behindName
  split
  · exact nofun
  · rename_i hn
    have hn : attributes.toList ≠ [] := by simpa using hn
    rw [String.toList_append, List.getLast?_append_of_ne_nil _ hn]
    exact h

theorem alpha_isEdge {c : Char} (h : c.isAlpha = true) : isEdge c = true := by
  have hs : c ≠ ' ' := fun hc => absurd (hc ▸ h) (by decide)
  have hb : c ≠ '\n' := fun hc => absurd (hc ▸ h) (by decide)
  simp [isEdge, hs, hb]

section
variable {word : String} (hw : IsName word.toList) {attributes : String} (ha : Quiet objects attributes) (depth : Nat)
include hw ha

/-- A tag without a layer attribute stays. -/
theorem loses_bareTag : Loses objects depth (openTag word attributes none) (openTag word attributes none) [] := by
  have ho : Loses objects depth "<" "<" [] := .literal (by decide)
  have hp {c : Char} (hc : c.isAlpha = false) : c ∉ word.toList := fun hm => by
    rw [hw.2 c hm] at hc
    cases hc
  have hn : Loses objects depth word word [] := .literal ⟨hp (by decide), hp (by decide)⟩
  have ht := (ho.append hn).append (ha.loses depth)
  unfold openTag
  rw [String.append_empty]
  exact ht

/-- A layer attribute may go on behind a tag without one. -/
theorem edged_bareTag : Edged (openTag word attributes none).toList := by
  have hn : Edged word.toList := .of_forall hw.1 fun c hc => alpha_isEdge (hw.2 c hc)
  obtain ⟨c, hc, he⟩ := hn.append (getLast?_behindName ha.edge)
  have ho : "<".toList = ['<'] := by decide
  have ht : (openTag word attributes none).toList = '<' :: (word.toList ++ (behindName attributes).toList) := by
    simp [openTag, ho, behindName]
  refine ⟨c, ?_, he⟩
  rw [ht, List.getLast?_cons, Option.mem_def.mp hc]
  rfl

/-- The layer attribute of a tag goes. -/
theorem loses_openTag (name : String) :
    Loses objects depth (openTag word attributes (label true name)) (openTag word attributes (label false name))
      ((label true name).toList.map (indented depth)) := by
  have hb := loses_bareTag hw ha depth
  have hf : label false name = none := rfl
  rw [hf]
  cases label true name with
  | none => exact hb
  | some n =>
    have hk : " data-layer=\"".toList = ' ' :: layerWord := by decide
    have hq : "\"".toList = ['"'] := by decide
    have hn : '\n' ∉ ' ' :: layerWord := by decide
    have hc : indentBy depth ['"'] = ['"'] := Text.indentBy_of_not_mem depth (by decide)
    have ht : (openTag word attributes (some n)).toList =
        (openTag word attributes none).toList ++ (' ' :: layerWord ++ value n ++ ['"']) := by
      simp only [openTag, String.toList_append, hk, hq, value]
      simp
    unfold Loses
    rw [ht, Text.indentBy_append, Text.indentBy_append, Text.indentBy_append, Text.indentBy_of_not_mem depth hn,
      value_indented, hc]
    exact erases_layer hb ((edged_bareTag hw ha).indentBy depth) (unquoted_value _)

end

theorem mem_value {name : String} {c : Char} (h : c ∈ value name) : c ∈ name.toList ∨ c ∈ "&ampquot;".toList := by
  rw [value, Text.escapeAttribute, String.toList_ofList] at h
  obtain ⟨d, hd, hc⟩ := List.mem_flatMap.mp h
  unfold Text.escapeAttributeChar at hc
  split_ifs at hc
  · revert hc
    have hs : ∀ c ∈ "&amp;".toList, c ∈ "&ampquot;".toList := by decide
    exact fun hc => .inr (hs c hc)
  · have hs : ∀ c ∈ "&quot;".toList, c ∈ "&ampquot;".toList := by decide
    exact .inr (hs c hc)
  · exact .inl (List.mem_singleton.mp hc ▸ hd)

theorem getLast?_value {name : String} (h : name.toList.getLast? ≠ some '=') : (value name).getLast? ≠ some '=' := by
  rw [value, Text.escapeAttribute, String.toList_ofList]
  intro hv
  obtain ⟨init, hi⟩ := List.getLast?_eq_some_iff.mp hv
  rcases List.eq_nil_or_concat name.toList with hn | ⟨front, c, hn⟩
  · rw [hn] at hi
    simp at hi
  · rw [hn, List.concat_eq_append, List.flatMap_append, List.flatMap_singleton] at hv
    rw [hn, List.concat_eq_append, List.getLast?_concat] at h
    unfold Text.escapeAttributeChar at hv
    split_ifs at hv
    · have hs : "&amp;".toList.getLast? = some ';' := by decide
      rw [List.getLast?_append, hs] at hv
      exact absurd (Option.some.inj hv) (by decide)
    · have hs : "&quot;".toList.getLast? = some ';' := by decide
      rw [List.getLast?_append, hs] at hv
      exact absurd (Option.some.inj hv) (by decide)
    · rw [List.getLast?_concat] at hv
      exact h hv

theorem getLast?_indentBy_ne {cs : List Char} (h : cs.getLast? ≠ some '=') (depth : Nat) :
    (indentBy depth cs).getLast? ≠ some '=' := by
  rcases List.eq_nil_or_concat cs with rfl | ⟨init, c, rfl⟩
  · exact h
  · rw [List.concat_eq_append, List.getLast?_concat] at h
    rw [List.concat_eq_append, Text.indentBy_append]
    intro hl
    by_cases hc : c = '\n'
    · subst hc
      rw [List.getLast?_append_of_ne_nil _ (by simp [Text.indentBy_break])] at hl
      have hm : '=' ∈ indentBy depth ['\n'] := List.mem_of_getLast? hl
      rw [Text.mem_indentBy (by decide)] at hm
      revert hm
      decide
    · have hn : '\n' ∉ [c] := by simpa using Ne.symm hc
      rw [Text.indentBy_of_not_mem depth hn, List.getLast?_concat] at hl
      exact h hl

/-- A quoted value under another key. -/
theorem still_quoted {key : List Char} (hs : ' ' ∉ key) (hl : ¬ layerWord <+: key ++ ['=', '"'])
    (ho : ¬ objectWord <+: key ++ ['=', '"']) {cs : List Char} (hq : '"' ∉ cs) (hb : objects = true → '\x7b' ∉ cs)
    (he : cs.getLast? ≠ some '=') :
    Still objects (' ' :: (key ++ ['=', '"'] ++ cs) ++ ['"']) := by
  have hs : ' ' ∉ key ++ ['=', '"'] := by simp [hs]
  have hw : Still objects (' ' :: (key ++ ['=', '"'])) := still_word (.of_not_mem hs) hl fun _ => ⟨hs, ho⟩
  exact Still.closed (hw.append (still_plain hq hb)) (Text.getLast?_append_ne (by simp) he)

/-- Attributes that end with a quote. -/
theorem Quiet.quoted {body : String} (h : ∀ depth, Still objects (' ' :: indentBy depth body.toList ++ ['"'])) :
    Quiet objects (body ++ "\"") := by
  have hb : "\"".toList = ['"'] := by decide
  have hs : " ".toList = [' '] := by decide
  refine ⟨fun depth => ?_, fun c hc => ?_⟩
  · have hz : '\n' ∉ ['"'] := by decide
    have ht : (behindName (body ++ "\"")).toList = ' ' :: body.toList ++ ['"'] := by simp [behindName, hb, hs]
    unfold Loses
    rw [ht, Text.indentBy_append, Text.indentBy_of_not_mem depth hz, Text.indentBy_cons depth (by decide)]
    exact h depth
  · rw [String.toList_append, hb, List.getLast?_append] at hc
    obtain rfl := Option.some.inj hc
    decide

theorem mem_placeholderUrl {width height : Float} {c : Char} (h : c ∈ (placeholderUrl width height).toList) :
    Number.isNumberChar c = true ∨ c = ':' ∨ c = '/' := by
  have hs : ∀ c ∈ "https://placehold.co/".toList, Number.isNumberChar c = true ∨ c = ':' ∨ c = '/' := by decide
  have hx : ∀ c ∈ "x".toList, Number.isNumberChar c = true := by decide
  unfold placeholderUrl at h
  simp only [String.toList_append, List.mem_append] at h
  rcases h with ((h | h) | h) | h
  · exact hs c h
  · exact .inl (Number.isNumberChar_of_mem_repr_int h)
  · exact .inl (hx c h)
  · exact .inl (Number.isNumberChar_of_mem_repr_int h)

theorem not_mem_placeholderUrl {width height : Float} {c : Char}
    (h : Number.isNumberChar c = false ∧ c ≠ ':' ∧ c ≠ '/') : c ∉ (placeholderUrl width height).toList := by
  intro hm
  rcases mem_placeholderUrl hm with hc | rfl | rfl
  · rw [h.1] at hc
    cases hc
  · exact h.2.1 rfl
  · exact h.2.2 rfl

theorem loses_source (width height : Float) (depth : Nat) :
    let source := " src=\"" ++ Text.escapeAttribute (placeholderUrl width height) ++ "\" />"
    Loses objects depth source source [] := by
  intro source
  have hk : " src=\"".toList = ' ' :: ("src".toList ++ ['=', '"']) := by decide
  have hc : "\" />".toList = ['"'] ++ " />".toList := by decide
  have hs : source.toList = (' ' :: ("src".toList ++ ['=', '"'] ++ value (placeholderUrl width height)) ++ ['"']) ++
      " />".toList := by
    simp only [source, String.toList_append, hk, hc, value]
    simp
  have hv {c : Char} (h : Number.isNumberChar c = false ∧ c ≠ ':' ∧ c ≠ '/') (hn : c ∉ "&ampquot;".toList) :
      c ∉ value (placeholderUrl width height) := fun hm =>
    (mem_value hm).elim (not_mem_placeholderUrl h) hn
  have hn : '\n' ∉ source.toList := by
    have hb : '\n' ∉ value (placeholderUrl width height) := hv (by decide) (by decide)
    rw [hs]
    simp [hb]
  have hl : (placeholderUrl width height).toList.getLast? ≠ some '=' := fun hx =>
    not_mem_placeholderUrl (by decide) (List.mem_of_getLast? hx)
  have he : Still objects " />".toList := still_plain (by decide) fun _ => by decide
  unfold Loses
  rw [Text.indentBy_of_not_mem depth hn, hs]
  exact (still_quoted (by decide) (by decide) (by decide) (unquoted_value _) (fun _ => hv (by decide) (by decide))
    (getLast?_value hl)).append he

section
variable (hj : objects = true → jsx = true) {depth : Nat}
include hj

theorem loses_text (text : String) :
    Loses objects depth (Text.escapeMarkup jsx text) (Text.escapeMarkup jsx text) [] := by
  refine .plain (Text.quote_not_mem_escapeMarkup jsx text) fun ho => ?_
  rw [hj ho]
  exact Text.not_mem_escapeMarkup (by decide) (by decide) (by decide) text

theorem loses_span {attributes : String} (ha : Quiet objects attributes) (text : String) :
    let span := span attributes (Text.escapeMarkup jsx text)
    Loses objects depth span span [] := by
  have hw : IsName "span".toList := by decide
  have hg : Loses objects depth ">" ">" [] := .literal (by decide)
  have hc : Loses objects depth "</span>" "</span>" [] := .literal (by decide)
  exact (((loses_bareTag hw ha depth).append hg).append (loses_text hj text)).append hc

theorem loses_content {attributes : Styles → String} {runs : List Run}
    (hr : ∀ s ∈ runs.filterMap (·.styles), Quiet objects (attributes s)) :
    Loses objects depth (content jsx attributes runs) (content jsx attributes runs) [] := by
  unfold content
  split
  · exact loses_text hj _
  · rename_i hn
    clear hn
    induction runs with
    | nil => exact .nil
    | cons run runs ih =>
      have ha : Quiet objects ((run.styles.map attributes).getD "") := by
        cases hs : run.styles with
        | none => exact .empty
        | some s => exact hr s (List.mem_filterMap.mpr ⟨run, List.mem_cons_self, hs⟩)
      have hi := ih fun s hs => by
        obtain ⟨run', hm, he⟩ := List.mem_filterMap.mp hs
        exact hr s (List.mem_filterMap.mpr ⟨run', List.mem_cons_of_mem _ hm, he⟩)
      rw [List.map_cons, String.join_cons]
      exact (loses_span hj ha _).append hi

end

end Markup.Layers

/-- A name that is shown, and how deep in the elements. -/
structure Layer where
  depth : Nat
  name : String

namespace Element

mutual
/-- The names that elements are written with, in document order. -/
def layers (depth : Nat) : Element → List Layer
  | .container name _ children => (Target.label true name).toList.map (.mk depth) ++ layersAll (depth + 1) children
  | .image name _ _ => (Target.label true name).toList.map (.mk depth)
  | .text name _ _ => (Target.label true name).toList.map (.mk depth)

def layersAll (depth : Nat) : List Element → List Layer
  | [] => []
  | e :: es => layers depth e ++ layersAll depth es
end

theorem map_name (depth : Nat) (name : Option String) : (name.toList.map (Layer.mk depth)).map (·.name) = name.toList := by
  rw [List.map_map]
  exact List.map_id _

mutual
theorem layers_names (depth : Nat) (e : Element) : (e.layers depth).map (·.name) = e.names := by
  cases e with
  | container name s children =>
    rw [layers, List.map_append, map_name, layersAll_names (depth + 1) children, names]
  | image name s source => exact map_name depth _
  | text name s runs => exact map_name depth _

theorem layersAll_names (depth : Nat) (es : List Element) : (layersAll depth es).map (·.name) = namesAll es := by
  cases es with
  | nil => rfl
  | cons e es => rw [layersAll, List.map_append, layers_names depth e, layersAll_names depth es, namesAll]
end

theorem markupAll_isEmpty_eq (attributes : Styles → String) (jsx : Bool) (es : List Element) :
    (markupAll attributes jsx true es).isEmpty = (markupAll attributes jsx false es).isEmpty := by
  cases es <;> rfl

end Element

namespace Markup.Layers
open Target (label)
variable {objects jsx : Bool} {attributes : Styles → String}

/-- A container loses its name and what its children lose. -/
theorem loses_element {depth : Nat} {a : String} (ha : Quiet objects a) (name : String) {fs gs ns : List String}
    (he : fs.isEmpty = gs.isEmpty) (hc : Loses objects (depth + 1) (String.join fs) (String.join gs) ns) :
    Loses objects depth (element jsx a (label true name) fs) (element jsx a (label false name) gs)
      ((label true name).toList.map (indented depth) ++ ns) := by
  have hd : IsName "div".toList := by decide
  have hb : Loses objects depth "\n" "\n" [] := .literal (by decide)
  have ht := hb.append (loses_openTag hd ha depth name)
  unfold element
  rw [← he]
  dsimp only
  split
  · obtain rfl : gs = [] := List.isEmpty_iff.mp (he ▸ ‹_›)
    obtain rfl : fs = [] := List.isEmpty_iff.mp ‹_›
    have hn := ht.append hc.indent
    split
    · have hz : Loses objects depth " />" " />" [] := .literal (by decide)
      have hx := hn.append hz
      simpa using hx
    · have hz : Loses objects depth "></div>" "></div>" [] := .literal (by decide)
      have hx := hn.append hz
      simpa using hx
  · have hg : Loses objects depth ">" ">" [] := .literal (by decide)
    have hz : Loses objects depth "\n</div>" "\n</div>" [] := .literal (by decide)
    have hx := ((ht.append hg).append hc.indent).append hz
    simpa using hx

mutual
/-- The layer attributes of an element and of all inside it go, and they say the names. -/
theorem loses_markup (hj : objects = true → jsx = true) (depth : Nat) (e : Element)
    (ha : ∀ s ∈ e.stylesIn, Quiet objects (attributes s)) (hf : e.Filled) :
    Loses objects depth (e.markup attributes jsx true) (e.markup attributes jsx false)
      ((e.layers depth).map fun l => indented l.depth l.name) := by
  have hd : IsName "div".toList := by decide
  have hi : IsName "img".toList := by decide
  have hb : Loses objects depth "\n" "\n" [] := .literal (by decide)
  cases e with
  | container name s children =>
    have hc := loses_markupAll hj (depth + 1) children (fun s hs => ha s (List.mem_cons_of_mem _ hs)) hf
    rw [Element.layers, List.map_append, List.map_map]
    exact loses_element (ha s List.mem_cons_self) name (Element.markupAll_isEmpty_eq attributes jsx children) hc
  | image name s source =>
    obtain ⟨width, height, rfl⟩ := hf
    have ht := hb.append (loses_openTag hi (ha s List.mem_cons_self) depth name)
    have hx := ht.append (loses_source width height depth)
    rw [List.nil_append, List.append_nil] at hx
    rw [Element.layers, List.map_map]
    simp only [Element.markup, Markup.image, String.append_assoc] at hx ⊢
    exact hx
  | text name s runs =>
    have hg : Loses objects depth ">" ">" [] := .literal (by decide)
    have hz : Loses objects depth "</div>" "</div>" [] := .literal (by decide)
    have ht := hb.append (loses_openTag hd (ha s List.mem_cons_self) depth name)
    have hc : Loses objects depth (content jsx attributes runs) (content jsx attributes runs) [] :=
      loses_content hj fun s hs => ha s (List.mem_cons_of_mem _ hs)
    have hx := ((ht.append hg).append hc).append hz
    simp only [List.nil_append, List.append_nil] at hx
    rw [Element.layers, List.map_map]
    exact hx

theorem loses_markupAll (hj : objects = true → jsx = true) (depth : Nat) (es : List Element)
    (ha : ∀ s ∈ Element.stylesInAll es, Quiet objects (attributes s)) (hf : Element.FilledAll es) :
    Loses objects depth (String.join (Element.markupAll attributes jsx true es))
      (String.join (Element.markupAll attributes jsx false es))
      ((Element.layersAll depth es).map fun l => indented l.depth l.name) := by
  cases es with
  | nil => exact .nil
  | cons e es =>
    have he := loses_markup hj depth e (fun s hs => ha s (List.mem_append_left _ hs)) hf.1
    have hes := loses_markupAll hj depth es (fun s hs => ha s (List.mem_append_right _ hs)) hf.2
    rw [Element.markupAll, Element.markupAll, String.join_cons, String.join_cons, Element.layersAll, List.map_append]
    exact he.append hes
end

theorem length_indentBy (depth : Nat) (cs : List Char) :
    (Text.indentBy depth cs).length = cs.length + 2 * depth * cs.count '\n' := by
  induction cs with
  | nil => rfl
  | cons c cs ih =>
    by_cases hc : c = '\n'
    · subst hc
      rw [Text.indentBy_break, List.length_append, List.length_cons, List.length_replicate, ih, List.length_cons,
        List.count_cons_self, Nat.mul_succ]
      omega
    · rw [Text.indentBy_cons depth hc, List.length_cons, ih, List.length_cons, List.count_cons_of_ne hc]
      omega

/-- A name is the same at its depth if it is not indented or has nothing to indent. -/
theorem indented_eq_iff {depth : Nat} {name : String} : indented depth name = name ↔ depth = 0 ∨ '\n' ∉ name.toList := by
  constructor
  · intro h
    have hl := congrArg (fun s : String => s.toList.length) h
    simp only [indented, String.toList_ofList, length_indentBy] at hl
    rw [← List.count_eq_zero]
    have hz : 2 * depth * name.toList.count '\n' = 0 := by omega
    rcases Nat.mul_eq_zero.mp hz with hz | hz
    · exact .inl (by omega)
    · exact .inr hz
  · rintro (rfl | h)
    · rw [indented, Text.indentBy_zero, String.ofList_toList]
    · rw [indented, Text.indentBy_of_not_mem depth h, String.ofList_toList]

theorem head_markup (attributes : Styles → String) (jsx showNames : Bool) (e : Element) :
    ∃ cs, (e.markup attributes jsx showNames).toList = '\n' :: cs := by
  have hb : "\n".toList = ['\n'] := by decide
  cases e with
  | container name s children =>
    simp only [Element.markup, element]
    split
    · split <;> simp [hb]
    · simp [hb]
  | image name s source => simp [Element.markup, Markup.image, hb]
  | text name s runs => simp [Element.markup, Markup.text, hb]

/-- Code that starts with the first text and code that starts with the second, from their first line on. -/
theorem erase_of_erases {cs ds : List Char} {names : List String}
    (h : Erases (step objects) .tags ('\n' :: cs) ('\n' :: ds) (names.map value)) :
    erase objects (String.ofList cs) = String.ofList ds ∧ notes objects (String.ofList cs) = names := by
  have hr : run objects (String.ofList cs) = ⟨.tags, '\n' :: ds, names.map value⟩ := by
    rw [run, String.toList_ofList, h, List.nil_append, List.nil_append]
  have hv : (fun cs => String.ofList (Text.unescape cs)) ∘ value = id := funext unescape_value
  rw [erase, notes, hr, List.map_map, hv, List.map_id]
  exact ⟨rfl, rfl⟩

/-- Without its layer attributes, a page is the page without names, and they say the names, indented. -/
theorem erase_page (hj : objects = true → jsx = true) {es : List Element}
    (ha : ∀ s ∈ Element.stylesInAll es, Quiet objects (attributes s)) (hf : Element.FilledAll es) :
    erase objects (Element.page attributes jsx true es) = Element.page attributes jsx false es ∧
    notes objects (Element.page attributes jsx true es) = (Element.layersAll 0 es).map fun l => indented l.depth l.name := by
  have hl := loses_markupAll hj 0 es ha hf
  unfold Loses at hl
  rw [Text.indentBy_zero, Text.indentBy_zero] at hl
  cases es with
  | nil =>
    have hb : Still objects ['\n'] := still_plain (by decide) fun _ => by decide
    exact erase_of_erases hb
  | cons e es =>
    have hh (showNames : Bool) :
        ∃ cs, (String.join (Element.markupAll attributes jsx showNames (e :: es))).toList = '\n' :: cs := by
      obtain ⟨cs, hc⟩ := head_markup attributes jsx showNames e
      exact ⟨_, by rw [Element.markupAll, String.join_cons, String.toList_append, hc]; rfl⟩
    obtain ⟨cs, hc⟩ := hh true
    obtain ⟨ds, hd⟩ := hh false
    rw [hc, hd] at hl
    rw [Element.page, Element.page, hc, hd]
    exact erase_of_erases hl

end Markup.Layers
end SceneCode
