import SceneCode.Proofs.Walk
import Mathlib.Tactic.SplitIfs

/-! Pieces next to the nodes they show, each with what is drawn around it. One induction over a scene serves every
fact about slots: a fact that the steps down a scene keep holds of every piece that comes out. -/
namespace SceneCode
variable {α : Type} [Sub α] [OfNat α 0]

/-- A fact about the slot that a node is met with: `above` has the drawn nodes around it, `around` has all of them.
Every step down from a node to its children has to keep it. -/
structure SlotRule (position : Base → Point α) (followHints : Bool)
    (fits : Slot α → List Occurrence → List Node → Prop) : Prop where
  start : fits .top [] []
  through {slot above around base layout hint clips children} (h : fits slot above around) :
    fits (slot.through (position base)) above (.frame base layout hint clips children :: around)
  flattened {slot above around base children} (h : fits slot above around) (ht : slot.isTop = true) :
    fits slot above (.group base children :: around)
  frame {slot above around base layout hint clips children} (h : fits slot above around) :
    fits (.ofFlow (Layout.resolve followHints layout hint))
      (⟨.frame base layout hint clips children, around⟩ :: above) (.frame base layout hint clips children :: around)
  group {slot above around base children} (h : fits slot above around) :
    fits (.free (position base)) (⟨.group base children, around⟩ :: above) (.group base children :: around)

/-- A piece and the pieces around it, next to the nodes that they show. -/
inductive Linked (followHints : Bool) (fits : Slot α → List Occurrence → List Node → Prop) :
    List (Piece α) → List Occurrence → Prop where
  | nil : Linked followHints fits [] []
  | cons {p ps o os} (tail : Linked followHints fits ps os) (shows : p.Shows followHints o.node)
      (slot : fits p.slot os o.around) : Linked followHints fits (p :: ps) (o :: os)

omit [OfNat α 0] in
theorem Slot.through_isTop (slot : Slot α) (p : Point α) : (slot.through p).isTop = slot.isTop := by
  cases slot <;> rfl

omit [Sub α] in
theorem Slot.ofFlow_isTop (flow : Option Flow) : (Slot.ofFlow flow : Slot α).isTop = false := by
  cases flow <;> rfl

variable {position : Base → Point α} {followHints : Bool} {fits : Slot α → List Occurrence → List Node → Prop}

omit [Sub α] [OfNat α 0] in
/-- A linked piece over linked pieces. -/
theorem Linked.over {p : Piece α} {ps : List (Piece α)} {o : Occurrence} {os : List Occurrence}
    {inner : List (Tree Occurrence)} (h : Linked followHints fits (p :: ps) (o :: os))
    (hi : Tree.MatchAll (Linked followHints fits) (p :: ps) (o :: os) (Piece.trees p.children) inner) :
    Tree.MatchAll (Linked followHints fits) ps os (Piece.trees [p]) [.node o inner] := by
  simpa [Piece.trees, p.tree_eq, Tree.MatchAll, Tree.Match] using And.intro h hi

omit [Sub α] [OfNat α 0] in
theorem Linked.leaf {p : Piece α} {ps : List (Piece α)} {o : Occurrence} {os : List Occurrence}
    (h : Linked followHints fits (p :: ps) (o :: os)) (hp : p.children = []) :
    Tree.MatchAll (Linked followHints fits) ps os (Piece.trees [p]) [.node o []] :=
  h.over (by simp [hp, Piece.trees, Tree.MatchAll])

theorem Node.drawn_frame (around : List Node) (top : Bool) (base : Base) (layout : AutoLayout)
    (hint : Option AutoLayout) (clips : Bool) (children : List Node) :
    (Node.frame base layout hint clips children).drawn around top =
      if !base.visible then []
      else if base.isDegenerate then Node.drawnAll (.frame base layout hint clips children :: around) top children
      else [.node ⟨.frame base layout hint clips children, around⟩
        (Node.drawnAll (.frame base layout hint clips children :: around) false children)] := by
  simp [Node.drawn, Base.isDegenerate]

theorem Node.drawn_group (around : List Node) (top : Bool) (base : Base) (children : List Node) :
    (Node.group base children).drawn around top =
      if !base.visible || base.isDegenerate || children.isEmpty then []
      else if top && base.isPlain then Node.drawnAll (.group base children :: around) top children
      else if (Node.drawnAll (.group base children :: around) false children).isEmpty then []
      else [.node ⟨.group base children, around⟩ (Node.drawnAll (.group base children :: around) false children)] := by
  simp [Node.drawn, Base.isDegenerate, or_assoc, base.isPlain_iff]

theorem Node.drawn_line (around : List Node) (top : Bool) (base : Base) :
    (Node.shape .line base).drawn around top =
      if !base.visible || base.isDegenerateLine then [] else [.node ⟨.shape .line base, around⟩ []] := by
  simp [Node.drawn, Base.isDegenerateLine]

theorem Node.drawn_shape (around : List Node) (top : Bool) (base : Base) {kind : ShapeKind} (hk : kind ≠ .line) :
    (Node.shape kind base).drawn around top =
      if !base.visible || base.isDegenerate then [] else [.node ⟨.shape kind base, around⟩ []] := by
  cases kind <;> first | exact absurd rfl hk | simp [Node.drawn, Base.isDegenerate]

theorem Node.pieces_shape {slot : Slot α} {base : Base} {kind : ShapeKind} (hk : kind ≠ .line) :
    (Node.shape kind base).pieces position followHints slot =
      if !base.visible || base.isDegenerate then [] else [.shape slot base (kind == .ellipse)] := by
  cases kind <;> first | exact absurd rfl hk | rfl

theorem Node.drawn_text (around : List Node) (top : Bool) (base : Base) (box : TextBox) :
    (Node.text base box).drawn around top =
      if !base.visible || base.isDegenerate then [] else [.node ⟨.text base box, around⟩ []] := by
  simp [Node.drawn, Base.isDegenerate]

mutual
theorem Node.pieces_linked (rule : SlotRule position followHints fits) {slot : Slot α} {ps : List (Piece α)}
    {os : List Occurrence} {around : List Node} (hs : fits slot os around) (hl : Linked followHints fits ps os) :
    (n : Node) → Tree.MatchAll (Linked followHints fits) ps os (Piece.trees (n.pieces position followHints slot))
      (n.drawn around slot.isTop)
  | .frame base layout hint clips children => by
    rw [Node.drawn_frame]
    unfold Node.pieces
    split_ifs
    · exact trivial
    · rw [← Slot.through_isTop slot (position base)]
      exact Node.piecesAll_linked rule (rule.through hs) hl children
    · have hcons := hl.cons (p := .frame slot base (Layout.resolve followHints layout hint) clips
          (Node.piecesAll position followHints (.ofFlow (Layout.resolve followHints layout hint)) children))
        (o := ⟨.frame base layout hint clips children, around⟩) ⟨rfl, rfl, rfl⟩ hs
      have hi := Node.piecesAll_linked rule (rule.frame hs) hcons children
      rw [Slot.ofFlow_isTop] at hi
      exact hcons.over hi
  | .group base children => by
    rw [Node.drawn_group]
    unfold Node.pieces
    by_cases hn : (!base.visible || base.isDegenerate || children.isEmpty) = true
    · rw [if_pos hn, if_pos hn]
      exact trivial
    · rw [if_neg hn, if_neg hn]
      by_cases hf : (slot.isTop && base.isPlain) = true
      · rw [if_pos hf, if_pos hf]
        exact Node.piecesAll_linked rule (rule.flattened hs (Bool.and_eq_true_iff.mp hf).1) hl children
      · rw [if_neg hf, if_neg hf]
        -- The group is linked with what would be in it, whether or not that is anything.
        have hcons := hl.cons
          (p := .group slot base (Node.piecesAll position followHints (.free (position base)) children))
          (o := ⟨.group base children, around⟩) rfl hs
        have hi := Node.piecesAll_linked rule (rule.group hs) hcons children
        have ht : (Slot.free (position base)).isTop = false := rfl
        rw [ht] at hi
        have he := hi.isEmpty_eq
        cases hp : Node.piecesAll position followHints (.free (position base)) children with
        | nil =>
          rw [hp] at he
          rw [← he]
          exact trivial
        | cons p inner =>
          rw [hp] at he hi hcons
          rw [← he]
          exact hcons.over hi
  | .shape kind base => by
    by_cases hk : kind = .line
    · subst hk
      rw [Node.drawn_line]
      unfold Node.pieces
      split_ifs
      · exact trivial
      · exact (hl.cons (p := .line slot base) (o := ⟨.shape .line base, around⟩) ⟨rfl, rfl⟩ hs).leaf rfl
    · rw [Node.drawn_shape around slot.isTop base hk, Node.pieces_shape hk]
      split_ifs
      · exact trivial
      · exact (hl.cons (p := .shape slot base (kind == .ellipse)) (o := ⟨.shape kind base, around⟩)
          ⟨hk, rfl, rfl⟩ hs).leaf rfl
  | .text base box => by
    rw [Node.drawn_text]
    unfold Node.pieces
    split_ifs
    · exact trivial
    · exact (hl.cons (p := .text slot base box) (o := ⟨.text base box, around⟩) ⟨rfl, rfl⟩ hs).leaf rfl
  | .unknown => trivial

theorem Node.piecesAll_linked (rule : SlotRule position followHints fits) {slot : Slot α} {ps : List (Piece α)}
    {os : List Occurrence} {around : List Node} (hs : fits slot os around) (hl : Linked followHints fits ps os) :
    (ns : List Node) → Tree.MatchAll (Linked followHints fits) ps os
      (Piece.trees (Node.piecesAll position followHints slot ns)) (Node.drawnAll around slot.isTop ns)
  | [] => trivial
  | n :: ns => by
    simp only [Node.piecesAll, Node.drawnAll, Piece.trees_append]
    exact (Node.pieces_linked rule hs hl n).append (Node.piecesAll_linked rule hs hl ns)
end

/-- The pieces of a scene are linked with what the scene is drawn as. -/
theorem Scene.pieces_linked (rule : SlotRule position followHints fits) (nodes : List Node) :
    Tree.MatchAll (Linked followHints fits) [] [] (Piece.trees (Node.piecesAll position followHints .top nodes))
      (Scene.drawn nodes) :=
  Node.piecesAll_linked rule rule.start .nil nodes

end SceneCode
