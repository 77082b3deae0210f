import SceneCode.Proofs.Markup.Shown

namespace SceneCode
open Markup (Attribute CodeShows Styled)

namespace Html

def styleKey : List Char := "style".toList

/-- Styles in one attribute. Without styles there is none. -/
def attribute? (s : Styles) : Option Attribute :=
  if s.isEmpty then none
  else some (styleKey,
    (Text.escapeAttribute ("; ".intercalate (s.entries.map fun (key, value) => key ++ ": " ++ value))).toList)

/-- At most a style attribute. -/
def StyleOnly (s : Styles) (as : List Attribute) : Prop :=
  as.map Prod.fst = if s.isEmpty then [] else [styleKey]

theorem writes_attributes : Markup.Writes (attributes false) attribute? := by
  intro s
  have hk : "style=\"".toList = styleKey ++ ['=', '"'] := by decide
  have hq : "\"".toList = ['"'] := by decide
  unfold attributes attribute?
  cases s.isEmpty with
  | true => rfl
  | false =>
    simp only [Bool.false_eq_true, if_false, String.toList_append, hk, hq, Option.map_some, Option.getD_some]
    simp [Attribute.text]

theorem attribute_proper {s : Styles} {a : Attribute} (h : a ∈ attribute? s) : a.Proper := by
  unfold attribute? at h
  split at h
  · cases h
  · have hk : Markup.IsKey styleKey := by decide
    obtain rfl := Option.some.inj h
    refine ⟨hk, ?_⟩
    rw [Text.escapeAttribute, String.toList_ofList]
    exact ClassPrefix.unquoted_escape _

theorem attribute_styled (s : Styles) : Styled StyleOnly attribute? s := by
  intro depth
  unfold StyleOnly attribute?
  split <;> rfl

end Html

mutual
theorem Target.render_html (jsx showNames : Bool) (e : Element) :
    (Target.html jsx).render showNames e = e.markup (Html.attributes jsx) jsx showNames := by
  cases e with
  | container name styles children =>
    rw [render, Element.markup, renderAll_html jsx showNames children]
    rfl
  | image name styles source => rfl
  | text name styles runs => rfl

theorem Target.renderAll_html (jsx showNames : Bool) (es : List Element) :
    (Target.html jsx).renderAll showNames es = Element.markupAll (Html.attributes jsx) jsx showNames es := by
  cases es with
  | nil => rfl
  | cons e es => rw [renderAll, Element.markupAll, render_html, renderAll_html jsx showNames es]
end

theorem Target.page_html (jsx showNames : Bool) (es : List Element) :
    (Target.html jsx).page showNames es = Element.page (Html.attributes jsx) jsx showNames es := by
  rw [page_eq, renderAll_html]
  rfl

namespace Element

mutual
/-- The texts of all runs, in order. -/
def texts : Element → List String
  | .container _ _ children => textsAll children
  | .image .. => []
  | .text _ _ runs => runs.map (·.text)

def textsAll : List Element → List String
  | [] => []
  | e :: es => texts e ++ textsAll es
end

end Element

namespace Target
variable (jsx : Bool)

theorem texts_textElement (slot : Slot Float) (base : Base) (box : TextBox) :
    ((Target.html jsx).textElement slot base box).texts = box.shownRuns.map (·.characters) := by
  unfold textElement
  rcases box.shownRuns with _ | ⟨run, _ | ⟨run', runs⟩⟩ <;> simp [Element.texts]

mutual
/-- Markup writes the characters of a run as they are. -/
theorem texts_element (p : Piece Float) :
    ((Target.html jsx).element p).texts = p.runs.map (·.characters) := by
  cases p with
  | frame slot base flow clips children => exact texts_elements children
  | group slot base children => exact texts_elements children
  | shape slot base ellipse =>
    simp only [element, shapeElement]
    split <;> rfl
  | line slot base => rfl
  | text slot base box => exact texts_textElement jsx slot base box

theorem texts_elements (ps : List (Piece Float)) :
    Element.textsAll ((Target.html jsx).elements ps) = (Piece.runsAll ps).map (·.characters) := by
  cases ps with
  | nil => rfl
  | cons p ps => rw [elements, Element.textsAll, Piece.runsAll, List.map_append, texts_element p, texts_elements ps]
end

end Target

theorem html_page_shows (showNames : Bool) (es : List Element) :
    CodeShows Html.StyleOnly showNames ((Target.html false).page showNames es) es := by
  rw [Target.page_html]
  exact Markup.page_shows Html.writes_attributes (fun s _ a ha => Html.attribute_proper ha)
    fun s _ => Html.attribute_styled s

/-- Plain HTML, as code or as a preview, is the tree of elements that the scene is walked into, with nothing but style
maps, layer names and addresses in its tags, every element on a line of its own at its depth, and between the tags the
characters of the runs. -/
theorem html_shows_elements (s : Settings) (preview : Bool) (nodes : List Node) :
    let elements := (Target.html false).walkAll s.optimizeLayout .top nodes
    CodeShows Html.StyleOnly s.showLayerNames (generate { s with framework := .html, jsx := false } preview nodes) elements ∧
    CodeShows Html.StyleOnly s.showLayerNames (generatePreview s nodes) elements ∧
    Element.textsAll elements = (Piece.runsAll (Scene.pieces s.optimizeLayout nodes)).map (·.characters) := by
  intro elements
  have hs := html_page_shows s.showLayerNames elements
  have hg : generate { s with framework := .html, jsx := false } preview nodes =
      (Target.html false).page s.showLayerNames elements := generate_eq_page _ preview nodes
  have hp : generatePreview s nodes = (Target.html false).page s.showLayerNames elements := by
    have ht : ({ s with framework := .html } : Settings).target true = .html false := by
      simp [Settings.target, Settings.writesJsx]
    rw [generatePreview, generate_eq_page, ht]
  refine ⟨hg ▸ hs, hp ▸ hs, ?_⟩
  have he : elements = (Target.html false).elements (Scene.pieces s.optimizeLayout nodes) :=
    Target.walkAll_eq_elements _ _ _ nodes
  rw [he, Target.texts_elements]

end SceneCode
