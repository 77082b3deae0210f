import SceneCode.Layout.Piece
import SceneCode.Style.Look

namespace SceneCode

/-- The topmost paint, unless it is hidden or unknown. What lies below it goes. -/
def Paint.pruned : List Paint → List Paint
  | [] => []
  | top :: _ => if top.visible then [top] else []

def Base.pruned (b : Base) : Base :=
  { b with
    fills := Paint.pruned b.fills
    strokes := Paint.pruned b.strokes
    effects := b.effects.filter (·.visible) }

def TextRun.pruned (r : TextRun) : TextRun :=
  { r with fills := Paint.pruned r.fills }

def TextBox.pruned (t : TextBox) : TextBox :=
  { t with runs := t.runs.map TextRun.pruned }

namespace Node

mutual
/-- A node without what cannot be seen of it. Of a hidden or unknown node nothing is left. -/
def pruned : Node → List Node
  | .frame base layout hint clips children =>
    if base.visible then [.frame base.pruned layout hint clips (prunedAll children)] else []
  | .group base children => if base.visible then [.group base.pruned (prunedAll children)] else []
  | .shape kind base => if base.visible then [.shape kind base.pruned] else []
  | .text base box => if base.visible then [.text base.pruned box.pruned] else []
  | .unknown => []

def prunedAll : List Node → List Node
  | [] => []
  | node :: nodes => pruned node ++ prunedAll nodes
end

end Node

namespace Piece
variable {α : Type}

mutual
def pruned : Piece α → Piece α
  | .frame slot base flow clips children => .frame slot base.pruned flow clips (prunedAll children)
  | .group slot base children => .group slot base.pruned (prunedAll children)
  | .shape slot base ellipse => .shape slot base.pruned ellipse
  | .line slot base => .line slot base.pruned
  | .text slot base box => .text slot base.pruned box.pruned

def prunedAll : List (Piece α) → List (Piece α)
  | [] => []
  | p :: ps => p.pruned :: prunedAll ps
end

theorem prunedAll_append (ps qs : List (Piece α)) : prunedAll (ps ++ qs) = prunedAll ps ++ prunedAll qs := by
  induction ps with
  | nil => rfl
  | cons p ps ih => simp [prunedAll, ih]

theorem prunedAll_isEmpty (ps : List (Piece α)) : (prunedAll ps).isEmpty = ps.isEmpty := by
  cases ps <;> rfl

end Piece

@[simp] theorem Paint.top?_pruned (paints : List Paint) : Paint.top? (Paint.pruned paints) = Paint.top? paints := by
  cases paints with
  | nil => rfl
  | cons top rest => cases h : top.visible <;> simp [Paint.pruned, Paint.top?, Option.filter, h]

namespace Base

@[simp] theorem pruned_visible (b : Base) : b.pruned.visible = b.visible := rfl

@[simp] theorem pruned_isDegenerate (b : Base) : b.pruned.isDegenerate = b.isDegenerate := rfl

@[simp] theorem pruned_isDegenerateLine (b : Base) : b.pruned.isDegenerateLine = b.isDegenerateLine := rfl

@[simp] theorem pruned_isPlain (b : Base) : b.pruned.isPlain = b.isPlain := rfl

@[simp] theorem pruned_visibleEffects (b : Base) : b.pruned.visibleEffects = b.visibleEffects := by
  simp [visibleEffects, pruned]

end Base

namespace Node
variable {α : Type} [Sub α] [OfNat α 0] {position : Base → Point α}

theorem piecesAll_append (followHints : Bool) (slot : Slot α) (ns ms : List Node) :
    piecesAll position followHints slot (ns ++ ms) =
      piecesAll position followHints slot ns ++ piecesAll position followHints slot ms := by
  induction ns with
  | nil => rfl
  | cons n ns ih => simp [piecesAll, ih]

theorem piecesAll_singleton (followHints : Bool) (slot : Slot α) (n : Node) :
    piecesAll position followHints slot [n] = n.pieces position followHints slot :=
  List.append_nil _

mutual
/-- A node that is pruned away has no pieces, and a group around nothing has none either. -/
theorem pieces_pruned (hp : ∀ b : Base, position b.pruned = position b) (followHints : Bool) (slot : Slot α) :
    (n : Node) → piecesAll position followHints slot n.pruned = Piece.prunedAll (n.pieces position followHints slot)
  | .frame base layout hint clips children => by
    have hc (slot : Slot α) := piecesAll_pruned hp followHints slot children
    unfold pruned
    cases hv : base.visible with
    | false => simp [pieces, hv, piecesAll, Piece.prunedAll]
    | true =>
      rw [if_pos rfl, piecesAll_singleton]
      cases hd : base.isDegenerate <;> simp [pieces, hv, hd, hp, hc, Piece.prunedAll, Piece.pruned]
  | .group base children => by
    have hc (slot : Slot α) := piecesAll_pruned hp followHints slot children
    unfold pruned
    cases hv : base.visible with
    | false => simp [pieces, hv, piecesAll, Piece.prunedAll]
    | true =>
      rw [if_pos rfl, piecesAll_singleton]
      cases hd : base.isDegenerate with
      | true => simp [pieces, hd, Piece.prunedAll]
      | false =>
        cases hn : prunedAll children with
        | nil =>
          -- Nothing of the children is left, so there was nothing to draw.
          have hz (slot : Slot α) : piecesAll position followHints slot children = [] := by
            have h := hc slot
            rw [hn, piecesAll] at h
            simpa [Piece.prunedAll_isEmpty] using (congrArg List.isEmpty h).symm
          simp [pieces, hv, hd, hz, Piece.prunedAll]
        | cons m ms =>
          have he : children.isEmpty = false := by
            cases children with
            | nil => cases hn
            | cons c cs => rfl
          rw [← hn]
          have hm : (prunedAll children).isEmpty = false := by rw [hn]; rfl
          simp only [pieces, hv, hd, hm, he, hc, hp, Base.pruned_visible, Base.pruned_isDegenerate,
            Base.pruned_isPlain, Bool.not_true, Bool.or_self, Bool.false_eq_true, if_false]
          split
          · rfl
          · cases piecesAll position followHints (.free (position base)) children <;> rfl
  | .shape kind base => by
    unfold pruned
    cases hv : base.visible with
    | false => cases kind <;> simp [pieces, hv, piecesAll, Piece.prunedAll]
    | true =>
      rw [if_pos rfl, piecesAll_singleton]
      cases kind <;> simp only [pieces, hv, Base.pruned_visible, Base.pruned_isDegenerate, Base.pruned_isDegenerateLine] <;>
        split <;> rfl
  | .text base box => by
    unfold pruned
    cases hv : base.visible with
    | false => simp [pieces, hv, piecesAll, Piece.prunedAll]
    | true =>
      rw [if_pos rfl, piecesAll_singleton]
      simp only [pieces, hv, Base.pruned_visible, Base.pruned_isDegenerate]
      split <;> rfl
  | .unknown => rfl

theorem piecesAll_pruned (hp : ∀ b : Base, position b.pruned = position b) (followHints : Bool) (slot : Slot α) :
    (ns : List Node) →
    piecesAll position followHints slot (prunedAll ns) = Piece.prunedAll (piecesAll position followHints slot ns)
  | [] => rfl
  | n :: ns => by
    rw [prunedAll, piecesAll_append, piecesAll, Piece.prunedAll_append, pieces_pruned hp followHints slot n,
      piecesAll_pruned hp followHints slot ns]
end

end Node
end SceneCode
