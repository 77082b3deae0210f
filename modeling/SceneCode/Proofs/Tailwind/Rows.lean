import SceneCode.Element
import SceneCode.Proofs.Markup.References
import SceneCode.Proofs.Tailwind.Looks

namespace SceneCode
open ClassPrefix (Chunk opens)
open Text (isBlank indentChars)

/-- What stands between quotes in a tag. -/
inductive Quoted where
  | classes
  /-- The name of a layer or the address of an image. -/
  | value (text : String)
deriving DecidableEq

namespace Quoted

/-- Ends as a class attribute starts: in white space and one of the two names. -/
def ReadsAsOpening : Quoted → Prop
  | .classes => False
  | .value text => ∃ front blank word, isBlank blank = true ∧ word ∈ ClassPrefix.openingWords ∧
      text.toList = front ++ blank :: word

def opening : Quoted → Bool
  | .classes => false
  | .value text => opens false text.toList

def ofStyles (s : Styles) : List Quoted :=
  if (Tailwind.classesOf s).isEmpty then [] else [.classes]

def ofRun (run : Run) : List Quoted :=
  (run.styles.map ofStyles).getD []

def ofTag (s : Styles) (name : Option String) : List Quoted :=
  ofStyles s ++ name.toList.map .value

end Quoted

namespace Element

mutual
/-- An element in tags, with attributes for its style maps. -/
def markup (attributes : Styles → String) (jsx showNames : Bool) : Element → String
  | .container name styles children =>
    Markup.element jsx (attributes styles) (Target.label showNames name) (markupAll attributes jsx showNames children)
  | .image name styles source => Markup.image (attributes styles) (Target.label showNames name) source
  | .text name styles runs => Markup.text jsx attributes (Target.label showNames name) styles runs

def markupAll (attributes : Styles → String) (jsx showNames : Bool) : List Element → List String
  | [] => []
  | e :: es => markup attributes jsx showNames e :: markupAll attributes jsx showNames es
end

mutual
/-- Everything that the markup of an element has between quotes, in order. -/
def quoted (showNames : Bool) : Element → List Quoted
  | .container name styles children => Quoted.ofTag styles (Target.label showNames name) ++ quotedAll showNames children
  | .image name styles source => Quoted.ofTag styles (Target.label showNames name) ++ [.value source]
  | .text name styles runs => Quoted.ofTag styles (Target.label showNames name) ++ runs.flatMap Quoted.ofRun

def quotedAll (showNames : Bool) : List Element → List Quoted
  | [] => []
  | e :: es => quoted showNames e ++ quotedAll showNames es
end

end Element

namespace Row
variable (mark : String) (jsx showNames : Bool)

def ofStyles (s : Styles) : List Chunk :=
  if (Tailwind.classesOf s).isEmpty then []
  else [.classes jsx (Tailwind.valueOf s) (Tailwind.markedOf mark.toList s)]

def ofName (name : Option String) : List Chunk :=
  name.toList.map fun name => .quoted .layer (name.toList.flatMap Text.escapeAttributeChar)

def ofTag (tag : String) (s : Styles) (name : Option String) : List Chunk :=
  .text ('<' :: tag.toList) :: ofStyles mark jsx s ++ ofName name

def ofRun (run : Run) : List Chunk :=
  .text "<span".toList :: (run.styles.map (ofStyles mark jsx)).getD [] ++
    [.text ('>' :: (Text.escapeMarkup jsx run.text).toList ++ "</span>".toList)]

def ofRuns : List Run → List Chunk
  | [⟨text, none⟩] => [.text (Text.escapeMarkup jsx text).toList]
  | runs => runs.flatMap (ofRun mark jsx)

mutual
def ofElement : Element → List Chunk
  | .container name styles children =>
    .text ['\n'] :: ofTag mark jsx "div" styles (Target.label showNames name) ++
      if children.isEmpty then [.text (if jsx then " />" else "></div>").toList]
      else .text ['>'] :: (ofElements children).map Chunk.indent ++ [.text "\n</div>".toList]
  | .image name styles source =>
    .text ['\n'] :: ofTag mark jsx "img" styles (Target.label showNames name) ++
      [.quoted .source (source.toList.flatMap Text.escapeAttributeChar), .text " />".toList]
  | .text name styles runs =>
    .text ['\n'] :: ofTag mark jsx "div" styles (Target.label showNames name) ++
      .text ['>'] :: ofRuns mark jsx runs ++ [.text "</div>".toList]

def ofElements : List Element → List Chunk
  | [] => []
  | e :: es => ofElement e ++ ofElements es
end

/-- Attributes as they are, or as they are wanted. -/
def attributes (wanted : Bool) : Styles → String :=
  if wanted then Tailwind.markedAttributes mark jsx else Tailwind.attributes jsx

theorem written_ofStyles (wanted : Bool) (s : Styles) : (ofStyles mark jsx s).flatMap (Chunk.written wanted) =
    (if (attributes mark jsx wanted s).isEmpty then "" else " " ++ attributes mark jsx wanted s).toList := by
  cases hc : (Tailwind.classesOf s).isEmpty <;> cases wanted <;> cases jsx <;>
    simp [ofStyles, attributes, Tailwind.attributes_eq, Tailwind.markedAttributes, hc, Chunk.written, Chunk.classKey]

theorem written_ofTag (wanted : Bool) (tag : String) (s : Styles) (name : Option String) :
    (ofTag mark jsx tag s name).flatMap (Chunk.written wanted) =
      (Markup.openTag tag (attributes mark jsx wanted s) name).toList := by
  have hs := written_ofStyles mark jsx wanted s
  have hl : ClassPrefix.Key.layer.chars ++ ['"'] = " data-layer=\"".toList := by decide
  simp only [Markup.openTag, ofTag, List.cons_append, List.flatMap_cons, List.flatMap_append, hs,
    String.toList_append]
  cases name with
  | none => simp [ofName, Chunk.written]
  | some name => simp [ofName, Chunk.written, Text.escapeAttribute, ← hl]

theorem written_ofRun (wanted : Bool) (run : Run) : (ofRun mark jsx run).flatMap (Chunk.written wanted) =
    (Markup.span ((run.styles.map (attributes mark jsx wanted)).getD "") (Text.escapeMarkup jsx run.text)).toList := by
  obtain ⟨text, styles⟩ := run
  cases styles with
  | none => simp [ofRun, Markup.span, Markup.openTag, Chunk.written]
  | some s =>
    have hs := written_ofStyles mark jsx wanted s
    simp [ofRun, Markup.span, Markup.openTag, Chunk.written, hs]

theorem written_ofRuns (wanted : Bool) (runs : List Run) : (ofRuns mark jsx runs).flatMap (Chunk.written wanted) =
    (Markup.content jsx (attributes mark jsx wanted) runs).toList := by
  unfold ofRuns Markup.content
  split
  · simp [Chunk.written]
  · simp [List.flatMap_assoc, written_ofRun, List.flatMap_map]

theorem toList_indent_join (fragments : List String) :
    (String.join (fragments.map Text.indent)).toList = indentChars (String.join fragments).toList := by
  simp [Text.indent, indentChars, List.flatMap_assoc, List.flatMap_map]

theorem markupAll_isEmpty (attributes : Styles → String) (es : List Element) :
    (Element.markupAll attributes jsx showNames es).isEmpty = es.isEmpty := by
  cases es <;> rfl

mutual
theorem written_ofElement (wanted : Bool) (e : Element) :
    (ofElement mark jsx showNames e).flatMap (Chunk.written wanted) =
      (e.markup (attributes mark jsx wanted) jsx showNames).toList := by
  cases e with
  | container name styles children =>
    have ht := written_ofTag mark jsx wanted "div" styles (Target.label showNames name)
    have hi := written_ofElements wanted children
    simp only [ofElement, Element.markup, Markup.element, markupAll_isEmpty, List.cons_append, List.flatMap_cons,
      List.flatMap_append, ht]
    cases children with
    | nil => cases jsx <;> simp [Chunk.written]
    | cons child children =>
      simp only [List.isEmpty_cons, Bool.false_eq_true, if_false, List.flatMap_cons, List.flatMap_append,
        Chunk.flatMap_indent, hi, String.toList_append, toList_indent_join]
      simp [Chunk.written]
  | image name styles source =>
    have ht := written_ofTag mark jsx wanted "img" styles (Target.label showNames name)
    have hs : ClassPrefix.Key.source.chars ++ ['"'] = " src=\"".toList := by decide
    simp only [ofElement, Element.markup, Markup.image, List.cons_append, List.flatMap_cons, List.flatMap_append, ht,
      String.toList_append, Text.escapeAttribute, ← hs]
    simp [Chunk.written]
  | text name styles runs =>
    have ht := written_ofTag mark jsx wanted "div" styles (Target.label showNames name)
    have hr := written_ofRuns mark jsx wanted runs
    simp only [ofElement, Element.markup, Markup.text, List.cons_append, List.flatMap_cons, List.flatMap_append, ht, hr,
      String.toList_append]
    simp [Chunk.written]

theorem written_ofElements (wanted : Bool) (es : List Element) :
    (ofElements mark jsx showNames es).flatMap (Chunk.written wanted) =
      (String.join (Element.markupAll (attributes mark jsx wanted) jsx showNames es)).toList := by
  cases es with
  | nil => rfl
  | cons e es =>
    have he := written_ofElement wanted e
    have hes := written_ofElements wanted es
    simp only [ofElements, Element.markupAll, List.flatMap_append, he, hes, String.toList_join, List.flatMap_cons]
end

end Row

variable {mark : List Char}

/-- A row stands for some style maps and quoted texts: it is proper, clean where they are, and reads as they do. -/
structure Stands (mark : List Char) (styles : List Styles) (quoted : List Quoted) (row : List Chunk) : Prop where
  proper : ∀ c ∈ row, c.Proper mark
  clean : (∀ c ∈ row, c.IsClean mark) ↔
    ∀ s ∈ styles, ClassPrefix.Clean mark (Tailwind.valueOf s) (Tailwind.markedOf mark s)
  opens : row.filterMap Chunk.opens? = quoted.map Quoted.opening

namespace Stands

theorem nil : Stands mark [] [] [] :=
  ⟨nofun, by simp, rfl⟩

theorem append {styles styles' : List Styles} {quoted quoted' : List Quoted} {row row' : List Chunk}
    (h : Stands mark styles quoted row) (h' : Stands mark styles' quoted' row') :
    Stands mark (styles ++ styles') (quoted ++ quoted') (row ++ row') where
  proper := List.forall_mem_append.mpr ⟨h.proper, h'.proper⟩
  clean := by rw [List.forall_mem_append, List.forall_mem_append, h.clean, h'.clean]
  opens := by rw [List.filterMap_append, List.map_append, h.opens, h'.opens]

theorem text {cs : List Char} (h : '"' ∉ cs) : Stands mark [] [] [.text cs] :=
  ⟨by simpa [Chunk.Proper] using h, by simp [Chunk.IsClean], rfl⟩

theorem value (key : ClassPrefix.Key) (text : String) :
    Stands mark [] [.value text] [.quoted key (text.toList.flatMap Text.escapeAttributeChar)] where
  proper := by simpa [Chunk.Proper] using ClassPrefix.unquoted_escape text.toList
  clean := by simp [Chunk.IsClean]
  opens := congrArg (fun b => [b]) (ClassPrefix.harmless_escape.opens false text.toList)

theorem indent (hn : mark ≠ []) (hm : ∀ c ∈ mark, isBlank c = false) (hq : '"' ∉ mark) {styles : List Styles}
    {quoted : List Quoted} {row : List Chunk} (h : Stands mark styles quoted row) :
    Stands mark styles quoted (row.map Chunk.indent) where
  proper := List.forall_mem_map.mpr fun c hc => Chunk.indent_proper hm (h.proper c hc)
  clean := by
    rw [← h.clean, List.forall_mem_map]
    exact forall₂_congr fun c hc => Chunk.indent_isClean hn hm hq (h.proper c hc)
  opens := by
    have hi : Chunk.opens? ∘ Chunk.indent = Chunk.opens? := funext Chunk.indent_opens?
    rw [List.filterMap_map, hi, h.opens]

variable {m : String} (jsx showNames : Bool)

theorem styles {s : Styles} (h : Tailwind.Marks m.toList s) :
    Stands m.toList [s] (Quoted.ofStyles s) (Row.ofStyles m jsx s) := by
  unfold Quoted.ofStyles Row.ofStyles
  by_cases hc : (Tailwind.classesOf s).isEmpty = true
  · have hv : ClassPrefix.Clean m.toList (Tailwind.valueOf s) (Tailwind.markedOf m.toList s) := by
      simp only [Tailwind.valueOf, Tailwind.markedOf, List.isEmpty_iff.mp hc]
      exact ⟨[], List.forall_mem_nil _, rfl, rfl⟩
    rw [if_pos hc, if_pos hc]
    exact ⟨List.forall_mem_nil _, by simpa using hv, rfl⟩
  · rw [if_neg hc, if_neg hc]
    exact ⟨by simpa [Chunk.Proper, Tailwind.Marks] using h, by simp [Chunk.IsClean], rfl⟩

theorem tag {tag : String} (ht : '"' ∉ tag.toList) {s : Styles} (h : Tailwind.Marks m.toList s) (name : Option String) :
    Stands m.toList [s] (Quoted.ofTag s name) (Row.ofTag m jsx tag s name) := by
  have hn : Stands m.toList [] (name.toList.map .value) (Row.ofName name) := by
    cases name with
    | none => exact nil
    | some name => exact value .layer name
  have ho : Stands m.toList [] [] [.text ('<' :: tag.toList)] := text (by simpa using ht)
  have hs := (ho.append (styles jsx h)).append hn
  simpa [Quoted.ofTag, Row.ofTag] using hs

theorem run {run : Run} (h : ∀ s ∈ run.styles, Tailwind.Marks m.toList s) :
    Stands m.toList run.styles.toList (Quoted.ofRun run) (Row.ofRun m jsx run) := by
  have he := Text.quote_not_mem_escapeMarkup jsx run.text
  have hb : '"' ∉ '>' :: (Text.escapeMarkup jsx run.text).toList ++ "</span>".toList := by simp [he]
  have hf : '"' ∉ "<span".toList := by decide
  obtain ⟨content, s⟩ := run
  cases s with
  | none => exact (text hf).append (text hb)
  | some s =>
    have hs := ((text hf).append (styles jsx (h s rfl))).append (text hb)
    simpa [Quoted.ofRun, Row.ofRun] using hs

theorem flatMap_run {runs : List Run} (h : ∀ s ∈ runs.filterMap (·.styles), Tailwind.Marks m.toList s) :
    Stands m.toList (runs.filterMap (·.styles)) (runs.flatMap Quoted.ofRun) (runs.flatMap (Row.ofRun m jsx)) := by
  induction runs with
  | nil => exact nil
  | cons run' runs ih =>
    have hf : (run' :: runs).filterMap (·.styles) = run'.styles.toList ++ runs.filterMap (·.styles) := by
      cases hs : run'.styles <;> simp [hs]
    rw [hf] at h ⊢
    have hr : Stands m.toList _ _ (Row.ofRun m jsx run') := run jsx fun s hs =>
      h s (List.mem_append_left _ (Option.mem_toList.mpr hs))
    exact hr.append (ih fun s hs => h s (List.mem_append_right _ hs))

theorem runs {runs : List Run} (h : ∀ s ∈ runs.filterMap (·.styles), Tailwind.Marks m.toList s) :
    Stands m.toList (runs.filterMap (·.styles)) (runs.flatMap Quoted.ofRun) (Row.ofRuns m jsx runs) := by
  unfold Row.ofRuns
  split
  · exact text (Text.quote_not_mem_escapeMarkup jsx _)
  · exact flatMap_run jsx h

mutual
theorem element (hn : m.toList ≠ []) (hm : ∀ c ∈ m.toList, isBlank c = false) (hq : '"' ∉ m.toList) (e : Element)
    (h : ∀ s ∈ e.stylesIn, Tailwind.Marks m.toList s) :
    Stands m.toList e.stylesIn (e.quoted showNames) (Row.ofElement m jsx showNames e) := by
  have hl : '"' ∉ ['\n'] := by decide
  have hd : '"' ∉ "div".toList := by decide
  cases e with
  | container name styles children =>
    have ht := tag jsx hd (h styles List.mem_cons_self) (Target.label showNames name)
    have hs : ∀ s ∈ Element.stylesInAll children, Tailwind.Marks m.toList s := fun s hs => h s (List.mem_cons_of_mem _ hs)
    have hc := (elements hn hm hq children hs).indent hn hm hq
    rw [Element.stylesIn, Element.quoted, Row.ofElement]
    refine ((text hl).append ht).append ?_
    cases children with
    | nil =>
      have he : '"' ∉ (if jsx then " />" else "></div>").toList := by cases jsx <;> decide
      exact text he
    | cons child children =>
      have hb : '"' ∉ ['>'] := by decide
      have he : '"' ∉ "\n</div>".toList := by decide
      have hi := ((Stands.text hb).append hc).append (.text he)
      simpa using hi
  | image name styles source =>
    have hg : '"' ∉ "img".toList := by decide
    have ht := tag jsx hg (h styles List.mem_cons_self) (Target.label showNames name)
    have he : '"' ∉ " />".toList := by decide
    have hi := (((text hl).append ht).append (value .source source)).append (text he)
    simpa [Element.stylesIn, Element.quoted, Row.ofElement] using hi
  | text name styles content =>
    have ht := tag jsx hd (h styles List.mem_cons_self) (Target.label showNames name)
    have hr : Stands m.toList (content.filterMap (·.styles)) _ _ :=
      runs jsx fun s hs => h s (List.mem_cons_of_mem _ hs)
    have hb : '"' ∉ ['>'] := by decide
    have he : '"' ∉ "</div>".toList := by decide
    have hi := ((((Stands.text hl).append ht).append (.text hb)).append hr).append (.text he)
    simpa [Element.stylesIn, Element.quoted, Row.ofElement] using hi

theorem elements (hn : m.toList ≠ []) (hm : ∀ c ∈ m.toList, isBlank c = false) (hq : '"' ∉ m.toList)
    (es : List Element) (h : ∀ s ∈ Element.stylesInAll es, Tailwind.Marks m.toList s) :
    Stands m.toList (Element.stylesInAll es) (Element.quotedAll showNames es) (Row.ofElements m jsx showNames es) := by
  cases es with
  | nil => exact nil
  | cons e es =>
    rw [Element.stylesInAll] at h
    have he := element hn hm hq e fun s hs => h s (List.mem_append_left _ hs)
    have hes := elements hn hm hq es fun s hs => h s (List.mem_append_right _ hs)
    rw [Element.stylesInAll, Element.quotedAll, Row.ofElements]
    exact he.append hes
end

end Stands
end SceneCode
