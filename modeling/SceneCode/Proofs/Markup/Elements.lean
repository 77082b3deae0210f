import SceneCode.Proofs.Markup.Content
import SceneCode.Proofs.Tailwind.Marked

namespace SceneCode

namespace Markup
open Text (indentBy)

namespace Tag

/-- Indentation goes into values, where they have line breaks. -/
def indentBy (depth : Nat) (tag : Tag) : Tag :=
  { tag with attributes := tag.attributes.map fun a => (a.1, Text.indentBy depth a.2) }

variable {tag : Tag} (h : tag.Proper) (depth : Nat)
include h

theorem Proper.indentBy : (tag.indentBy depth).Proper where
  name := h.name
  attributes := List.forall_mem_map.mpr fun a ha =>
    ⟨(h.attributes a ha).1, fun hq => (h.attributes a ha).2 ((Text.mem_indentBy (by decide)).mp hq)⟩

theorem indentBy_text : Text.indentBy depth tag.text = (tag.indentBy depth).text := by
  have alpha {c : Char} (hc : c.isAlpha = true) : c ≠ '\n' := by
    rintro rfl
    revert hc
    decide
  have hn : '\n' ∉ '<' :: tag.name := by
    simp only [List.mem_cons, not_or]
    exact ⟨by decide, fun hm => alpha (h.name.2 _ hm) rfl⟩
  have hk (a : Attribute) (ha : a ∈ tag.attributes) : '\n' ∉ a.1 := by
    have hp := (h.attributes a ha).1
    generalize a.1 = key at hp ⊢
    cases key with
    | nil => exact List.not_mem_nil
    | cons c cs =>
      simp only [List.mem_cons, not_or]
      refine ⟨(alpha hp.1).symm, fun hm => ?_⟩
      have hc := hp.2 _ hm
      revert hc
      decide
  have ha (a : Attribute) (ha : a ∈ tag.attributes) : Text.indentBy depth (' ' :: a.text) =
      ' ' :: Attribute.text (a.1, Text.indentBy depth a.2) := by
    rw [Text.indentBy_cons depth (by decide), Attribute.text, Text.indentBy_append, Text.indentBy_append,
      Text.indentBy_of_not_mem depth (hk a ha), Text.indentBy_cons depth (by decide), Text.indentBy_cons depth (by decide)]
    rfl
  have hs (as : List Attribute) (hm : ∀ a ∈ as, a ∈ tag.attributes) :
      Text.indentBy depth (as.flatMap fun a => ' ' :: a.text) =
        (as.map fun a => (a.1, Text.indentBy depth a.2)).flatMap fun a : Attribute => ' ' :: a.text := by
    induction as with
    | nil => rfl
    | cons a as ih =>
      rw [List.flatMap_cons, Text.indentBy_append, ha a (hm a List.mem_cons_self),
        ih fun b hb => hm b (List.mem_cons_of_mem _ hb)]
      rfl
  rw [Tag.text, Text.indentBy_append, Text.indentBy_of_not_mem depth hn, hs _ fun a ha => ha]
  rfl

end Tag

/-- What the styles of elements are written as, in one attribute or none. -/
def Writes (attributes : Styles → String) (attribute? : Styles → Option Attribute) : Prop :=
  ∀ s, (attributes s).toList = ((attribute? s).map Attribute.text).getD []

section
variable (attribute? : Styles → Option Attribute)

def layerKey : List Char := "data-layer".toList

def sourceKey : List Char := "src".toList

def layerAttribute (name : String) : Attribute :=
  (layerKey, (Text.escapeAttribute name).toList)

def sourceAttribute (source : String) : Attribute :=
  (sourceKey, (Text.escapeAttribute source).toList)

def Tag.div (s : Styles) (name : Option String) : Tag :=
  ⟨"div".toList, (attribute? s).toList ++ name.toList.map layerAttribute⟩

def Tag.img (s : Styles) (name : Option String) (source : String) : Tag :=
  ⟨"img".toList, (attribute? s).toList ++ name.toList.map layerAttribute ++ [sourceAttribute source]⟩

def Tag.span (run : Run) : Tag :=
  ⟨"span".toList, (run.styles.bind attribute?).toList⟩

end

theorem toList_openTag (word : String) {written : String} {a? : Option Attribute}
    (h : written.toList = (a?.map Attribute.text).getD []) (name : Option String) :
    (openTag word written name).toList = Tag.text ⟨word.toList, a?.toList ++ name.toList.map layerAttribute⟩ := by
  have hs : (if written.isEmpty then "" else " " ++ written).toList = a?.toList.flatMap fun a => ' ' :: a.text := by
    cases a? with
    | none =>
      have he : written = "" := by simpa using h
      simp [he]
    | some a =>
      have he : written.isEmpty = false := by
        rw [Bool.eq_false_iff]
        intro hn
        simp [String.isEmpty_iff.mp hn, Attribute.text] at h
      simp [he, h]
  have hl : " data-layer=\"".toList = ' ' :: layerKey ++ ['=', '"'] := by decide
  have hq : "\"".toList = ['"'] := by decide
  have ho : "<".toList = ['<'] := by decide
  simp only [openTag, String.toList_append, hs, ho, Tag.text, List.flatMap_append]
  cases name with
  | none => simp
  | some name =>
    simp only [String.toList_append, hl, hq]
    simp [layerAttribute, Attribute.text]

/-- What stands in front of a tag that is on a line of its own. -/
def line (depth : Nat) : List Item :=
  ('\n' :: List.replicate (2 * depth) ' ').map .char

def lines (depth : Nat) (items : List Item) : List Item :=
  items.flatMap fun item => line depth ++ [item]

variable (attribute? : Styles → Option Attribute) (jsx showNames : Bool) (depth : Nat)

def Item.ofRun (run : Run) : Item :=
  .element ((Tag.span attribute? run).indentBy depth) (run.text.toList.flatMap (ofChar jsx))

def Item.ofRuns : List Run → List Item
  | [⟨text, none⟩] => text.toList.flatMap (ofChar jsx)
  | runs => runs.map (ofRun attribute? jsx depth)

mutual
/-- What an element reads as where it is indented by its depth. -/
def Item.ofElement (depth : Nat) : Element → Item
  | .container name s children =>
    .element ((Tag.div attribute? s (Target.label showNames name)).indentBy depth)
      (lines (depth + 1) (ofElements (depth + 1) children) ++ if children.isEmpty then [] else line depth)
  | .image name s source => .element ((Tag.img attribute? s (Target.label showNames name) source).indentBy depth) []
  | .text name s runs =>
    .element ((Tag.div attribute? s (Target.label showNames name)).indentBy depth) (ofRuns attribute? jsx depth runs)

def Item.ofElements (depth : Nat) : List Element → List Item
  | [] => []
  | e :: es => ofElement depth e :: ofElements depth es
end

theorem readsAs_line (depth : Nat) : ReadsAs ('\n' :: List.replicate (2 * depth) ' ') (line depth) := by
  refine .text fun h => ?_
  rcases List.mem_cons.mp h with h | h
  · revert h
    decide
  · have he := List.eq_of_mem_replicate h
    revert he
    decide

theorem layerAttribute_proper (name : String) : (layerAttribute name).Proper := by
  have hk : IsKey layerKey := by decide
  refine ⟨hk, ?_⟩
  rw [layerAttribute, Text.escapeAttribute, String.toList_ofList]
  exact ClassPrefix.unquoted_escape name.toList

theorem sourceAttribute_proper (source : String) : (sourceAttribute source).Proper := by
  have hk : IsKey sourceKey := by decide
  refine ⟨hk, ?_⟩
  rw [sourceAttribute, Text.escapeAttribute, String.toList_ofList]
  exact ClassPrefix.unquoted_escape source.toList

section
variable {attribute?} {s : Styles} (h : ∀ a ∈ attribute? s, Attribute.Proper a)
include h

theorem Tag.div_proper (name : Option String) : (Tag.div attribute? s name).Proper := by
  have hd : IsName "div".toList := by decide
  refine ⟨hd, fun a ha => ?_⟩
  rcases List.mem_append.mp ha with ha | ha
  · exact h a (Option.mem_toList.mp ha)
  · obtain ⟨n, -, rfl⟩ := List.mem_map.mp ha
    exact layerAttribute_proper n

theorem Tag.img_proper (name : Option String) (source : String) : (Tag.img attribute? s name source).Proper := by
  have hi : IsName "img".toList := by decide
  refine ⟨hi, fun a ha => ?_⟩
  rcases List.mem_append.mp ha with ha | ha
  · exact (Tag.div_proper h name).attributes a ha
  · rw [List.mem_singleton.mp ha]
    exact sourceAttribute_proper source

end

/-- Indentation goes into the tag and into what is between the tags. -/
theorem ReadsAs.indented {tag : Tag} (h : tag.Proper) {depth : Nat} {inner : List Char} {items : List Item}
    (hi : ReadsAs (indentBy depth inner) items) :
    ReadsAs (indentBy depth (tag.text ++ '>' :: inner ++ ('<' :: '/' :: tag.name ++ ['>'])))
      [.element (tag.indentBy depth) items] := by
  have hn : '\n' ∉ '<' :: '/' :: tag.name ++ ['>'] := by
    have ha : '\n' ∉ tag.name := fun hm => by
      have hc := h.name.2 _ hm
      revert hc
      decide
    simp [ha]
  rw [Text.indentBy_append, Text.indentBy_append, Tag.indentBy_text h, Text.indentBy_of_not_mem depth hn,
    Text.indentBy_cons depth (by decide)]
  exact .element (h.indentBy depth) hi

theorem ReadsAs.indentedClosed {tag : Tag} (h : tag.Proper) {depth : Nat} :
    ReadsAs (indentBy depth (tag.text ++ [' ', '/', '>'])) [.element (tag.indentBy depth) []] := by
  have hn : '\n' ∉ [' ', '/', '>'] := by decide
  rw [Text.indentBy_append, Tag.indentBy_text h, Text.indentBy_of_not_mem depth hn]
  exact .closed (h.indentBy depth) true

variable {attribute? jsx showNames depth} {attributes : Styles → String} (hw : Writes attributes attribute?)

theorem readsAs_escaped (text : String) :
    ReadsAs (indentBy depth (Text.escapeMarkup jsx text).toList) (text.toList.flatMap (Item.ofChar jsx)) := by
  rw [Text.indentBy_of_not_mem depth (Text.break_not_mem_escapeMarkup jsx text)]
  exact .escapeMarkup jsx text

include hw

theorem readsAs_run {run : Run} (h : ∀ s ∈ run.styles, ∀ a ∈ attribute? s, Attribute.Proper a) :
    ReadsAs (indentBy depth (span ((run.styles.map attributes).getD "") (Text.escapeMarkup jsx run.text)).toList)
      [Item.ofRun attribute? jsx depth run] := by
  obtain ⟨text, styles⟩ := run
  have hp : (Tag.span attribute? ⟨text, styles⟩).Proper := by
    have hn : IsName "span".toList := by decide
    refine ⟨hn, fun a ha => ?_⟩
    obtain ⟨s, hs, ha⟩ := Option.bind_eq_some_iff.mp (Option.mem_toList.mp ha)
    exact h s hs a ha
  have ht : ((styles.map attributes).getD "").toList = ((styles.bind attribute?).map Attribute.text).getD [] := by
    cases styles with
    | none => rfl
    | some s => exact hw s
  have he : (span ((styles.map attributes).getD "") (Text.escapeMarkup jsx text)).toList =
      (Tag.span attribute? ⟨text, styles⟩).text ++ '>' :: (Text.escapeMarkup jsx text).toList ++
        ('<' :: '/' :: "span".toList ++ ['>']) := by
    have hc : "</span>".toList = '<' :: '/' :: "span".toList ++ ['>'] := by decide
    have hg : ">".toList = ['>'] := by decide
    simp only [span, String.toList_append, toList_openTag "span" ht, hc, hg, Tag.span]
    simp
  rw [he]
  exact .indented hp (readsAs_escaped text)

theorem readsAs_runs {runs : List Run} (h : ∀ s ∈ runs.filterMap (·.styles), ∀ a ∈ attribute? s, Attribute.Proper a) :
    ReadsAs (indentBy depth (content jsx attributes runs).toList) (Item.ofRuns attribute? jsx depth runs) := by
  have hs (run : Run) (hr : run ∈ runs) : ∀ s ∈ run.styles, ∀ a ∈ attribute? s, Attribute.Proper a := fun s hs =>
    h s (List.mem_filterMap.mpr ⟨run, hr, hs⟩)
  unfold content
  split
  · exact readsAs_escaped _
  · rename_i hn
    have ho : Item.ofRuns attribute? jsx depth runs = runs.map (Item.ofRun attribute? jsx depth) := by
      unfold Item.ofRuns
      split
      · exact (hn _ rfl).elim
      · rfl
    have hj : (String.join (runs.map fun run =>
        span ((run.styles.map attributes).getD "") (Text.escapeMarkup jsx run.text))).toList =
          runs.flatMap fun run => (span ((run.styles.map attributes).getD "") (Text.escapeMarkup jsx run.text)).toList := by
      rw [String.toList_join, List.flatMap_map]
    rw [ho, hj, Text.indentBy, List.flatMap_assoc, List.map_eq_flatMap]
    exact .flatMap fun run hr => readsAs_run hw (hs run hr)

omit hw

/-- One element, less the line break that it starts with. -/
def Reading (attributes : Styles → String) (attribute? : Styles → Option Attribute) (jsx showNames : Bool) (depth : Nat)
    (e : Element) : Prop :=
  ∃ body, (e.markup attributes jsx showNames).toList = '\n' :: body ∧
    ReadsAs (indentBy depth body) [Item.ofElement attribute? jsx showNames depth e]

theorem Reading.line {e : Element} (h : Reading attributes attribute? jsx showNames depth e) :
    ReadsAs (indentBy depth (e.markup attributes jsx showNames).toList)
      (line depth ++ [Item.ofElement attribute? jsx showNames depth e]) := by
  obtain ⟨body, he, hr⟩ := h
  rw [he, Text.indentBy_break]
  exact (readsAs_line depth).append hr

theorem readsAs_lines {es : List Element}
    (h : ∀ e ∈ es, Reading attributes attribute? jsx showNames depth e) :
    ReadsAs (indentBy depth (String.join (Element.markupAll attributes jsx showNames es)).toList)
      (lines depth (Item.ofElements attribute? jsx showNames depth es)) := by
  induction es with
  | nil => exact .nil
  | cons e es ih =>
    have he := (h e List.mem_cons_self).line
    have hes := ih fun e' he' => h e' (List.mem_cons_of_mem _ he')
    have hj : (String.join (Element.markupAll attributes jsx showNames (e :: es))).toList =
        (e.markup attributes jsx showNames).toList ++
          (String.join (Element.markupAll attributes jsx showNames es)).toList := by
      simp [Element.markupAll]
    rw [hj, Text.indentBy_append]
    exact he.append hes

mutual
/-- With its tags and its children one level in. -/
theorem reading_element (hw : Writes attributes attribute?) (depth : Nat) (e : Element)
    (h : ∀ s ∈ e.stylesIn, ∀ a ∈ attribute? s, Attribute.Proper a) :
    Reading attributes attribute? jsx showNames depth e := by
  cases e with
  | container name s children =>
    have hd := Tag.div_proper (h s List.mem_cons_self) (Target.label showNames name)
    have ho := toList_openTag "div" (hw s) (Target.label showNames name)
    have hc := readsAs_lines (reading_elements hw (depth + 1) children fun s hs => h s (List.mem_cons_of_mem _ hs))
    have hb : "\n".toList = ['\n'] := by decide
    have he : "</div>".toList = '<' :: '/' :: "div".toList ++ ['>'] := by decide
    cases children with
    | nil =>
      cases jsx with
      | false =>
        have hg : "></div>".toList = '>' :: [] ++ ('<' :: '/' :: "div".toList ++ ['>']) := by decide
        have hz : ReadsAs (indentBy depth []) [] := .nil
        refine ⟨_, ?_, .indented hd hz⟩
        simp [Element.markup, Element.markupAll, Markup.element, hb, ho, hg, Tag.div]
      | true =>
        refine ⟨_, ?_, .indentedClosed hd⟩
        have hg : " />".toList = [' ', '/', '>'] := by decide
        simp [Element.markup, Element.markupAll, Markup.element, hb, ho, hg, Tag.div]
    | cons child children =>
      have hl := (readsAs_line depth)
      have hg : ">".toList = ['>'] := by decide
      have hi : "\n</div>".toList = '\n' :: ('<' :: '/' :: "div".toList ++ ['>']) := by decide
      have hn : indentBy depth ['\n'] = '\n' :: List.replicate (2 * depth) ' ' := by
        rw [Text.indentBy_break]
        simp [indentBy]
      rw [← Text.indentBy_indentChars] at hc
      have hr := hc.append hl
      rw [← hn, ← Text.indentBy_append] at hr
      refine ⟨_, ?_, .indented hd hr⟩
      simp only [Element.markup, Markup.element, Row.markupAll_isEmpty, List.isEmpty_cons, Bool.false_eq_true, if_false,
        String.toList_append, Row.toList_indent_join, hb, hg, hi, ho]
      simp [Tag.div]
  | image name s source =>
    have hi := Tag.img_proper (h s List.mem_cons_self) (Target.label showNames name) source
    have ho := toList_openTag "img" (hw s) (Target.label showNames name)
    have hb : "\n".toList = ['\n'] := by decide
    have hs : " src=\"".toList = ' ' :: sourceKey ++ ['=', '"'] := by decide
    have hg : "\" />".toList = ['"', ' ', '/', '>'] := by decide
    refine ⟨_, ?_, .indentedClosed hi⟩
    simp only [Element.markup, Markup.image, String.toList_append, hb, hs, hg, ho]
    simp [Tag.img, Tag.text, sourceAttribute, Attribute.text]
  | text name s runs =>
    have hd := Tag.div_proper (h s List.mem_cons_self) (Target.label showNames name)
    have ho := toList_openTag "div" (hw s) (Target.label showNames name)
    have hr : ReadsAs (indentBy depth (content jsx attributes runs).toList) (Item.ofRuns attribute? jsx depth runs) :=
      readsAs_runs hw fun s hs => h s (List.mem_cons_of_mem _ hs)
    have hb : "\n".toList = ['\n'] := by decide
    have hg : ">".toList = ['>'] := by decide
    have he : "</div>".toList = '<' :: '/' :: "div".toList ++ ['>'] := by decide
    refine ⟨_, ?_, .indented hd hr⟩
    simp only [Element.markup, Markup.text, String.toList_append, hb, hg, he, ho]
    simp [Tag.div]

theorem reading_elements (hw : Writes attributes attribute?) (depth : Nat) (es : List Element)
    (h : ∀ s ∈ Element.stylesInAll es, ∀ a ∈ attribute? s, Attribute.Proper a) :
    ∀ e ∈ es, Reading attributes attribute? jsx showNames depth e := by
  cases es with
  | nil => exact nofun
  | cons e es =>
    rw [Element.stylesInAll] at h
    have he := reading_element hw depth e fun s hs => h s (List.mem_append_left _ hs)
    have hes := reading_elements hw depth es fun s hs => h s (List.mem_append_right _ hs)
    exact List.forall_mem_cons.mpr ⟨he, hes⟩
end

theorem lines_zero (item : Item) (items : List Item) :
    item :: lines 0 items = (item :: items).intersperse (.char '\n') := by
  induction items generalizing item with
  | nil => rfl
  | cons item' items ih => exact congrArg (item :: .char '\n' :: ·) (ih item')

/-- A page reads as its elements, a line break apart. -/
theorem read_page (hw : Writes attributes attribute?) {es : List Element}
    (h : ∀ s ∈ Element.stylesInAll es, ∀ a ∈ attribute? s, Attribute.Proper a) :
    read (Element.page attributes jsx showNames es).toList =
      some ((Item.ofElements attribute? jsx showNames 0 es).intersperse (.char '\n')) := by
  have hr : ∀ e ∈ es, Reading attributes attribute? jsx showNames 0 e := reading_elements hw 0 es h
  rw [Element.page, String.toList_ofList]
  cases es with
  | nil => exact ReadsAs.nil.read_eq
  | cons e es =>
    obtain ⟨body, hb, he⟩ := hr e List.mem_cons_self
    have hs := readsAs_lines fun e' he' => hr e' (List.mem_cons_of_mem e he')
    have hj : (String.join (Element.markupAll attributes jsx showNames (e :: es))).toList =
        '\n' :: (body ++ (String.join (Element.markupAll attributes jsx showNames es)).toList) := by
      simp [Element.markupAll, hb]
    rw [Text.indentBy_zero] at he hs
    rw [hj, dropBreak, Item.ofElements, ← lines_zero]
    exact (he.append hs).read_eq

end Markup
end SceneCode
