import SceneCode.Proofs.Html.WellFormed
import SceneCode.Proofs.Layers.Flutter
import SceneCode.Proofs.Layers.Html
import SceneCode.Proofs.Layers.SwiftUI
import SceneCode.Proofs.Layers.Tailwind
import SceneCode.Proofs.Tailwind.WellFormed

namespace SceneCode
open Comments (Commented FitsLine)
open Markup.Layers (indented)

/-- The name at the end of a chain, unless it is empty. -/
def Layer.ofChain : List String → Option Layer
  | [] => none
  | name :: above => (Target.label true name).map (.mk above.length)

/-- The names that are shown for a scene, with their depths, in document order. -/
def Scene.layers (nodes : List Node) : List Layer :=
  (Tree.chains (Tree.mapAll (·.base.name) (Scene.drawn nodes))).filterMap Layer.ofChain

namespace Element

mutual
theorem filterMap_chainsUnder (above : List String) (e : Element) :
    ((e.tree.map name).chainsUnder above).filterMap Layer.ofChain = e.layers above.length := by
  have ho (name : String) (rest : List (List String)) : ((name :: above) :: rest).filterMap Layer.ofChain =
      (Target.label true name).toList.map (.mk above.length) ++ rest.filterMap Layer.ofChain := by
    rw [List.filterMap_cons, Layer.ofChain]
    cases Target.label true name <;> rfl
  cases e with
  | container name s children =>
    have hc := filterMap_chainsAllUnder (name :: above) children
    rw [tree]
    exact (ho name _).trans (congrArg _ hc)
  | image name s source => exact (ho name []).trans (List.append_nil _)
  | text name s runs => exact (ho name []).trans (List.append_nil _)

theorem filterMap_chainsAllUnder (above : List String) (es : List Element) :
    (Tree.chainsAllUnder above (Tree.mapAll name (trees es))).filterMap Layer.ofChain = layersAll above.length es := by
  cases es with
  | nil => rfl
  | cons e es =>
    rw [trees, Tree.mapAll, Tree.chainsAllUnder, List.filterMap_append, filterMap_chainsUnder above e,
      filterMap_chainsAllUnder above es, layersAll]
end

end Element

/-- The layers of the elements are those of the scene. -/
theorem Target.layersAll_elements (t : Target) (followHints : Bool) (nodes : List Node) :
    Element.layersAll 0 (t.elements (Scene.pieces followHints nodes)) = Scene.layers nodes := by
  have hl := Scene.pieces_linked (SlotRule.any Base.position followHints) nodes
  have hs : Tree.mapAll Element.sketch (Element.trees (t.elements (Scene.pieces followHints nodes))) =
      Tree.mapAll Occurrence.sketch (Scene.drawn nodes) := by
    rw [t.elements_trees, Tree.mapAll_mapAll]
    refine hl.mapAll_eq fun h => ?_
    cases h with
    | cons _ shows _ => exact shows.sketch t
  have hn := congrArg (Tree.mapAll Prod.snd) hs
  rw [Tree.mapAll_mapAll, Tree.mapAll_mapAll] at hn
  have hc := Element.filterMap_chainsAllUnder [] (t.elements (Scene.pieces followHints nodes))
  rw [← List.length_nil, ← hc]
  exact congrArg (fun ts => (Tree.chainsAllUnder [] ts).filterMap Layer.ofChain) hn

/-- One of the pieces, or a piece somewhere inside one of them. -/
inductive Piece.Inside (p : Piece Float) : List (Piece Float) → Prop where
  | here {ps : List (Piece Float)} (h : p ∈ ps) : Inside p ps
  | child {q : Piece Float} {ps : List (Piece Float)} (h : q ∈ ps) (hp : Inside p q.children) : Inside p ps

namespace Target

/-- What layer names leave in code is taken out of it. -/
def eraseLayers : Target → String → String
  | .html jsx => Markup.Layers.erase jsx
  | .tailwind .. => Markup.Layers.erase false
  | .flutter | .swiftUI => Comments.erase

/-- What layer names leave in code, decoded and in order. -/
def layerNotes : Target → String → List String
  | .html jsx => Markup.Layers.notes jsx
  | .tailwind .. => Markup.Layers.notes false
  | .flutter | .swiftUI => Comments.notes

/-- The name comes out as it is. Markup indents the line breaks in a name together with the elements around it, and a
comment is over where its line is. -/
def Keeps (t : Target) (l : Layer) : Prop :=
  if t.isMarkup then l.depth = 0 ∨ '\n' ∉ l.name.toList else FitsLine l.name

theorem keeps_of_deeper {t : Target} {l : Layer} {depth : Nat} (h : t.Keeps { l with depth := l.depth + depth }) :
    t.Keeps l := by
  unfold Keeps at h ⊢
  split
  · rw [if_pos ‹_›] at h
    exact h.imp_left Nat.eq_zero_of_add_eq_zero_right
  · rwa [if_neg ‹_›] at h

variable (t : Target) (ps : List (Piece Float))

/-- Without the names that it shows, the code of some pieces is the code that shows none. -/
def Inert : Prop :=
  let code (showNames : Bool) := t.page showNames (t.elements ps)
  t.eraseLayers (code true) = code false ∧ t.layerNotes (code true) = Element.namesAll (t.elements ps)

theorem forall_layers_iff {P : String → Prop} :
    (∀ name ∈ Element.namesAll (t.elements ps), P name) ↔ ∀ l ∈ Element.layersAll 0 (t.elements ps), P l.name := by
  rw [← Element.layersAll_names 0, List.forall_mem_map]

/-- In markup the names go whatever they are. They come out indented. -/
theorem erase_markup (h : t.isMarkup = true) :
    let shown := t.page true (t.elements ps)
    t.eraseLayers shown = t.page false (t.elements ps) ∧
      t.layerNotes shown = (Element.layersAll 0 (t.elements ps)).map fun l => indented l.depth l.name := by
  have hf := t.filled_elements ps
  cases t with
  | html jsx =>
    rw [page_html, page_html]
    exact Markup.Layers.erase_page id (Html.quiet_attributes jsx ps) hf
  | tailwind jsx o =>
    have hj : false = true → jsx = true := nofun
    rw [page_tailwind, page_tailwind]
    exact Markup.Layers.erase_page hj (Tailwind.quiet_attributes jsx o ps) hf
  | flutter => cases h
  | swiftUI => cases h

theorem inert_iff : t.Inert ps ↔ ∀ l ∈ Element.layersAll 0 (t.elements ps), t.Keeps l := by
  have hm (h : t.isMarkup = true) : t.Inert ps ↔ ∀ l ∈ Element.layersAll 0 (t.elements ps), t.Keeps l := by
    obtain ⟨he, hn⟩ := t.erase_markup ps h
    unfold Inert Keeps
    dsimp only
    rw [he, hn, and_iff_right rfl, ← Element.layersAll_names 0, List.map_inj_left]
    simp only [Markup.Layers.indented_eq_iff, h, if_true]
  cases t with
  | html jsx => exact hm rfl
  | tailwind jsx o => exact hm rfl
  | flutter => exact (Flutter.commented.page_iff ps).trans (forall_layers_iff _ ps)
  | swiftUI => exact (SwiftUI.commented.page_iff ps).trans (forall_layers_iff _ ps)

end Target

namespace Element

mutual
theorem layers_add (k depth : Nat) (e : Element) :
    e.layers (k + depth) = (e.layers k).map fun l => { l with depth := l.depth + depth } := by
  have hs (name : Option String) : name.toList.map (Layer.mk (k + depth)) =
      (name.toList.map (Layer.mk k)).map fun l => { l with depth := l.depth + depth } := by
    rw [List.map_map]
    rfl
  cases e with
  | container name s children =>
    have hc := layersAll_add (k + 1) depth children
    rw [Nat.add_right_comm] at hc
    rw [layers, layers, List.map_append, hc, hs]
  | image name s source => exact hs _
  | text name s runs => exact hs _

theorem layersAll_add (k depth : Nat) (es : List Element) :
    layersAll (k + depth) es = (layersAll k es).map fun l => { l with depth := l.depth + depth } := by
  cases es with
  | nil => rfl
  | cons e es => rw [layersAll, layersAll, List.map_append, layers_add k depth e, layersAll_add k depth es]
end

end Element

namespace Target
variable {t : Target}

theorem mem_layersAll {p : Piece Float} {ps : List (Piece Float)} (h : p ∈ ps) {depth : Nat} {l : Layer}
    (hl : l ∈ (t.element p).layers depth) : l ∈ Element.layersAll depth (t.elements ps) := by
  induction ps with
  | nil => cases h
  | cons q ps ih =>
    rw [elements, Element.layersAll]
    rcases List.mem_cons.mp h with rfl | h
    · exact List.mem_append_left _ hl
    · exact List.mem_append_right _ (ih h)

theorem mem_layers_of_child {p : Piece Float} {depth : Nat} {l : Layer}
    (hl : l ∈ Element.layersAll (depth + 1) (t.elements p.children)) : l ∈ (t.element p).layers depth := by
  cases p with
  | frame slot base flow clips children => exact List.mem_append_right _ hl
  | group slot base children => exact List.mem_append_right _ hl
  | shape slot base ellipse => cases hl
  | line slot base => cases hl
  | text slot base box => cases hl

/-- A name is kept in the code of its own piece if it is kept in all of the code. -/
theorem keeps_inside {p : Piece Float} {ps : List (Piece Float)} (hp : p.Inside ps) {depth : Nat}
    (h : ∀ l ∈ Element.layersAll depth (t.elements ps), t.Keeps l) :
    ∀ l ∈ Element.layersAll 0 (t.elements [p]), t.Keeps l := by
  induction hp generalizing depth with
  | here hm =>
    intro l hl
    rw [elements, elements, Element.layersAll, Element.layersAll, List.append_nil] at hl
    have ha := Element.layers_add 0 depth (t.element p)
    rw [Nat.zero_add] at ha
    have hd := h _ (mem_layersAll hm (ha ▸ List.mem_map_of_mem hl))
    exact keeps_of_deeper hd
  | child hm _ ih => exact ih fun l hl => h l (mem_layersAll hm (mem_layers_of_child hl))

theorem names_element (t : Target) (p : Piece Float) :
    (t.element p).names = (label true p.base.name).toList ++ Element.namesAll (t.elements p.children) := by
  cases p with
  | frame slot base flow clips children => rfl
  | group slot base children => rfl
  | shape slot base ellipse =>
    rw [element, shapeElement]
    split
    · exact (List.append_nil _).symm
    · rfl
  | line slot base => rfl
  | text slot base box =>
    rw [element, textElement]
    split <;> exact (List.append_nil _).symm

end Target

/-- Code with layer names, less what they leave in it, is the code without, and what they leave says the names of the
scene, if and only if the code keeps each name. Markup is always the same without them, but it says names with line
breaks as they have been indented. Where all names are kept, the first name in the code of a piece is its own. -/
theorem layer_names_inert_iff (s : Settings) (preview : Bool) (nodes : List Node) :
    let t := s.target preview
    let shown := generate { s with showLayerNames := true } preview nodes
    let hidden := generate { s with showLayerNames := false } preview nodes
    let layers := Scene.layers nodes
    (t.eraseLayers shown = hidden ∧ t.layerNotes shown = layers.map (·.name) ↔ ∀ l ∈ layers, t.Keeps l) ∧
    (t.isMarkup = true →
      t.eraseLayers shown = hidden ∧ t.layerNotes shown = layers.map fun l => indented l.depth l.name) ∧
    ((∀ l ∈ layers, t.Keeps l) → ∀ p : Piece Float, p.Inside (Scene.pieces s.optimizeLayout nodes) →
      let code (showNames : Bool) := t.page showNames (t.elements [p])
      t.eraseLayers (code true) = code false ∧
        t.layerNotes (code true) = (Target.label true p.base.name).toList ++ Element.namesAll (t.elements p.children)) := by
  intro t shown hidden layers
  have hl : Element.layersAll 0 (t.elements (Scene.pieces s.optimizeLayout nodes)) = layers :=
    t.layersAll_elements s.optimizeLayout nodes
  have hn : Element.namesAll (t.elements (Scene.pieces s.optimizeLayout nodes)) = layers.map (·.name) := by
    rw [← hl, Element.layersAll_names]
  refine ⟨?_, fun hm => ?_, fun hk p hp => ?_⟩
  · rw [← hn, ← hl]
    exact t.inert_iff (Scene.pieces s.optimizeLayout nodes)
  · rw [← hl]
    exact t.erase_markup (Scene.pieces s.optimizeLayout nodes) hm
  · obtain ⟨he, hx⟩ := (t.inert_iff [p]).mpr (Target.keeps_inside hp (hl ▸ hk))
    refine ⟨he, hx.trans ?_⟩
    rw [Target.elements, Target.elements, Element.namesAll, Element.namesAll, List.append_nil, t.names_element p]

end SceneCode
