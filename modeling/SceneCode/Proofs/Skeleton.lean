import SceneCode.Proofs.Placement.Chains

namespace SceneCode

/-- The text of elements, less the line break that it starts with. -/
def Target.page (t : Target) (showNames : Bool) (elements : List Element) : String :=
  match (String.join (t.renderAll showNames elements)).toList with
  | '\n' :: rest => String.ofList rest
  | cs => String.ofList cs

theorem generate_eq_page (s : Settings) (preview : Bool) (nodes : List Node) :
    generate s preview nodes =
      (s.target preview).page s.showLayerNames ((s.target preview).walkAll s.optimizeLayout .top nodes) := by
  rw [Target.walkAll_eq_elements]
  rfl

/-- Nothing about slots is needed to know what shows what. -/
theorem SlotRule.any (position : Base → Point Float) (followHints : Bool) :
    SlotRule position followHints fun _ _ _ => True :=
  ⟨trivial, fun _ => trivial, fun _ _ => trivial, fun _ => trivial, fun _ => trivial⟩

/-- The innermost piece of a chain shows the innermost node of the other. -/
def Piece.ShownFirst (followHints : Bool) (ps : List (Piece Float)) (os : List Occurrence) : Prop :=
  ∃ p ∈ ps.head?, ∃ o ∈ os.head?, p.Shows followHints o.node

/-- The elements that one pass builds are those that the scene alone is drawn as, and each is made from the node at
its place. -/
theorem walk_follows_scene (s : Settings) (preview : Bool) (nodes : List Node) :
    let t := s.target preview
    let elements := t.walkAll s.optimizeLayout .top nodes
    let pieces := Scene.pieces s.optimizeLayout nodes
    generate s preview nodes = t.page s.showLayerNames elements ∧
    Tree.mapAll Element.sketch (Element.trees elements) = Tree.mapAll Occurrence.sketch (Scene.drawn nodes) ∧
    elements = t.elements pieces ∧
    Tree.MatchAll (Piece.ShownFirst s.optimizeLayout) [] [] (Piece.trees pieces) (Scene.drawn nodes) := by
  intro t elements pieces
  have he : elements = t.elements pieces := t.walkAll_eq_elements _ _ nodes
  have hl := Scene.pieces_linked (SlotRule.any Base.position s.optimizeLayout) nodes
  refine ⟨generate_eq_page s preview nodes, ?_, he, hl.imp fun h => ?_⟩
  · rw [he, t.elements_trees, Tree.mapAll_mapAll]
    refine hl.mapAll_eq fun h => ?_
    cases h with
    | cons _ shows _ => exact shows.sketch t
  · cases h with
    | cons _ shows _ => exact ⟨_, rfl, _, rfl, shows⟩

end SceneCode
