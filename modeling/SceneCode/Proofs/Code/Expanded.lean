import SceneCode.Proofs.Code.Literals
import SceneCode.Proofs.Layers.Inert

namespace SceneCode
open Dart (Place filledInAll inside)

/-- The flow that the children of a node are placed in. -/
def Node.flow? (followHints : Bool) : Node → Option Flow
  | .frame _ layout hint _ _ => Layout.resolve followHints layout hint
  | _ => none

/-- The flow that a node is in, by the drawn nodes around it. -/
def Occurrence.flowAround? (followHints : Bool) (above : List Occurrence) : Option Flow :=
  above.head?.bind (·.node.flow? followHints)

def Slot.flow? {α : Type} : Slot α → Option Flow
  | .inFlow flow => some flow
  | _ => none

/-- The drawn node around a node is the one whose flow it is in. -/
theorem SlotRule.flow? {α : Type} [Sub α] [OfNat α 0] (position : Base → Point α) (followHints : Bool) :
    SlotRule position followHints fun slot above _ => slot.flow? = Occurrence.flowAround? followHints above where
  start := rfl
  through {slot above around base layout hint clips children} h := by
    cases slot <;> exact h
  flattened h _ := h
  frame {slot above around base layout hint clips children} _ := by
    cases hr : Layout.resolve followHints layout hint <;>
      simp [Slot.ofFlow, Slot.flow?, Occurrence.flowAround?, Node.flow?, hr]
  group _ := rfl

namespace Piece

theorem Shows.flow? {α : Type} {followHints : Bool} {p : Piece α} {n : Node} (h : p.Shows followHints n) :
    p.flow? = n.flow? followHints := by
  cases p <;> cases n <;> simp only [Shows] at h
  case frame.frame => exact h.2.1
  all_goals rfl

theorem grows_eq (p : Piece Float) : p.grows = p.slot.flow?.elim false fun _ => decide (0 < p.base.layoutGrow) := by
  unfold grows
  cases p.slot <;> rfl

/-- Where the pieces stand that the first of these is around. -/
def standing : List (Piece Float) → Place
  | [] => .top
  | p :: _ => inside p.flow?

/-- Where the first of these pieces, which is in the others, fills a row or column. -/
def filled : List (Piece Float) → List Place
  | [] => []
  | p :: above => if p.grows then [standing above] else []

end Piece

/-- Where a node makes its widget fill a row or column: among the children of the widget that the flow around it
becomes. -/
def Occurrence.filled (followHints : Bool) : List Occurrence → List Place
  | [] => []
  | o :: above =>
    match flowAround? followHints above with
    | some flow => if 0 < o.base.layoutGrow then [inside (some flow)] else []
    | none => []

theorem Linked.filled_eq {followHints : Bool} {ps : List (Piece Float)} {os : List Occurrence}
    (h : Linked followHints (fun slot above _ => slot.flow? = Occurrence.flowAround? followHints above) ps os) :
    Piece.filled ps = Occurrence.filled followHints os := by
  cases h with
  | nil => rfl
  | @cons p ps o os tail shows slot =>
    rw [Piece.filled, Occurrence.filled, p.grows_eq, slot, shows.base]
    cases tail with
    | nil => rfl
    | @cons q qs o' os' tail' shows' slot' =>
      rw [Occurrence.flowAround?, List.head?_cons, Option.bind_some, ← shows'.flow?, Piece.standing]
      cases q.flow? <;> simp

namespace Dart

mutual
theorem filled_eq (above : List (Piece Float)) (p : Piece Float) :
    filled (Piece.standing above) p = (p.tree.chainsUnder above).flatMap Piece.filled := by
  cases p with
  | frame slot base flow clips children =>
    rw [filled, Piece.tree, Tree.chainsUnder, List.flatMap_cons, ← filledInAll_eq]
    rfl
  | group slot base children =>
    rw [filled, Piece.tree, Tree.chainsUnder, List.flatMap_cons, ← filledInAll_eq]
    rfl
  | shape slot base ellipse => exact (List.append_nil _).symm
  | line slot base => exact (List.append_nil _).symm
  | text slot base box => exact (List.append_nil _).symm

theorem filledInAll_eq (above : List (Piece Float)) (ps : List (Piece Float)) :
    filledInAll (Piece.standing above) ps = (Tree.chainsAllUnder above (Piece.trees ps)).flatMap Piece.filled := by
  cases ps with
  | nil => rfl
  | cons p ps =>
    rw [filledInAll, Piece.trees, Tree.chainsAllUnder, List.flatMap_append, filled_eq above p, filledInAll_eq above ps]
end

end Dart

theorem Scene.filled_pieces (followHints : Bool) (nodes : List Node) :
    filledInAll .top (Scene.pieces followHints nodes) =
      (Tree.chains (Scene.drawn nodes)).flatMap (Occurrence.filled followHints) := by
  have hm := (Scene.pieces_linked (SlotRule.flow? Base.position followHints) nodes).map_chains (·.filled_eq)
  have hf : filledInAll .top (Scene.pieces followHints nodes) = _ := Dart.filledInAll_eq [] _
  rw [hf, List.flatMap_def, List.flatMap_def, ← hm]
  rfl

/-- A widget that fills a row or column may stand here. -/
def Dart.Place.IsFlexible (place : Place) : Prop :=
  place = .item (.argument "Row" "children") ∨ place = .item (.argument "Column" "children")

/-- A node that grows in a flow that goes on in a new line where one is full. -/
def Occurrence.GrowsInWrap (followHints : Bool) : List Occurrence → Prop
  | [] => False
  | o :: above => 0 < o.base.layoutGrow ∧ ∃ flow ∈ flowAround? followHints above, flow.wrap = true

theorem Dart.isFlexible_inside (flow : Flow) : (inside (some flow)).IsFlexible ↔ flow.wrap = false := by
  unfold Place.IsFlexible inside arranger
  dsimp only
  cases flow.wrap with
  | true => simp
  | false => cases flow.direction <;> simp

theorem Occurrence.filled_flexible (followHints : Bool) (os : List Occurrence) :
    (∀ place ∈ filled followHints os, place.IsFlexible) ↔ ¬ GrowsInWrap followHints os := by
  cases os with
  | nil => exact ⟨fun _ => id, fun _ => nofun⟩
  | cons o above =>
    unfold filled GrowsInWrap
    cases hf : flowAround? followHints above with
    | none => simp [hf]
    | some flow => by_cases hg : 0 < o.base.layoutGrow <;> simp [hf, hg, Dart.isFlexible_inside]

/-- The widgets of Dart code, apart from the comments in it if it has any. -/
def Dart.widgets? (commented : Bool) (code : String) : Option (List Dart.Expr) :=
  Dart.exprs? (if commented then Comments.erase code else code)

/-- Where the calls of a constructor stand that some widgets consist of. -/
def Dart.placesIn (name : String) (widgets : List Dart.Expr) : List Place :=
  widgets.flatMap (Dart.Expr.places name .top)

theorem Dart.widgets?_generate (s : Settings) (preview : Bool) (nodes : List Node) (ht : s.target preview = .flutter)
    (hn : s.showLayerNames = true → ∀ l ∈ Scene.layers nodes, Comments.FitsLine l.name) :
    Dart.widgets? s.showLayerNames (generate s preview nodes) =
      Dart.exprs? (Target.flutter.page false (Target.flutter.elements (Scene.pieces s.optimizeLayout nodes))) := by
  rw [generate_eq_page, ht, Target.walkAll_eq_elements, widgets?]
  cases hs : s.showLayerNames with
  | false => rfl
  | true =>
    have hl := hn hs
    rw [← Target.layersAll_elements .flutter s.optimizeLayout] at hl
    have hf := (Target.flutter.forall_layers_iff _).mpr hl
    exact congrArg exprs? ((Flutter.commented.page_iff _).mpr hf).1

/-- In the code of a scene, widgets fill a row or column exactly where a drawn node grows in a flow, among the children
of the widget that the flow becomes. So they all stand where they may if and only if no node grows in a flow that goes
on in new lines. Layer names that fit into comments make no difference. -/
theorem expanded_widgets (s : Settings) (preview : Bool) (nodes : List Node) (ht : s.target preview = .flutter)
    (hn : s.showLayerNames = true → ∀ l ∈ Scene.layers nodes, Comments.FitsLine l.name) :
    ∃ widgets, Dart.widgets? s.showLayerNames (generate s preview nodes) = some widgets ∧
      Dart.placesIn "Expanded" widgets =
        (Tree.chains (Scene.drawn nodes)).flatMap (Occurrence.filled s.optimizeLayout) ∧
      ((∀ place ∈ Dart.placesIn "Expanded" widgets, place.IsFlexible) ↔
        ∀ chain ∈ Tree.chains (Scene.drawn nodes), ¬ Occurrence.GrowsInWrap s.optimizeLayout chain) := by
  obtain ⟨tokens, hl, hx, -⟩ := Dart.reads_elements (Scene.pieces s.optimizeLayout nodes)
  have hp : Dart.placesIn "Expanded" (List.map Dart.value _) = _ :=
    (List.flatMap_map ..).trans ((Dart.fragments_elements (Scene.pieces s.optimizeLayout nodes)).filled_eq .top)
  rw [Scene.filled_pieces] at hp
  refine ⟨_, ?_, hp, ?_⟩
  · rw [Dart.widgets?_generate s preview nodes ht hn, Dart.exprs?, Code.lex_page, hl]
    exact hx
  · rw [hp, List.forall_mem_flatMap]
    exact forall₂_congr fun chain _ => Occurrence.filled_flexible s.optimizeLayout chain

/-- A row that goes on in new lines, with a tag that grows. -/
def tagRow : List Node :=
  [.frame (.named "Tags" 0 0 300 100) { mode := some .row, wrap := true } none false
    [.shape .rectangle { Base.named "Tag" 0 0 80 20 with layoutGrow := 1 }]]

/-- The tag fills a row or column where there is none. -/
theorem tagRow_expanded : ∃ widgets,
    Dart.widgets? true (generate { framework := .flutter, showLayerNames := true } false tagRow) = some widgets ∧
      Dart.placesIn "Expanded" widgets = [.item (.argument "Wrap" "children")] := by
  have hn : ∀ l ∈ Scene.layers tagRow, Comments.FitsLine l.name := by decide +kernel
  obtain ⟨widgets, hw, hp, -⟩ :=
    expanded_widgets { framework := .flutter, showLayerNames := true } false tagRow rfl fun _ => hn
  have hc : (Tree.chains (Scene.drawn tagRow)).flatMap (Occurrence.filled true) =
      [.item (.argument "Wrap" "children")] := by
    decide +kernel
  exact ⟨widgets, hw, hp.trans hc⟩

end SceneCode
