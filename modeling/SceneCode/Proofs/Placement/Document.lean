import SceneCode.Proofs.Placement.Chains
import SceneCode.Proofs.Style.Aspects
import Mathlib.Algebra.Group.Defs
import Mathlib.Tactic.Abel

namespace SceneCode
variable {α : Type} [AddCommGroup α]

namespace Point

instance : Add (Point α) :=
  ⟨fun p q => ⟨p.x + q.x, p.y + q.y⟩⟩

instance : Zero (Point α) :=
  ⟨.zero⟩

instance : Neg (Point α) :=
  ⟨fun p => ⟨-p.x, -p.y⟩⟩

omit [AddCommGroup α] in
theorem eq_of {p q : Point α} (hx : p.x = q.x) (hy : p.y = q.y) : p = q := by
  cases p
  cases q
  simp_all

/-- Points add up side by side, with the difference that placement uses. -/
instance : AddCommGroup (Point α) where
  add_assoc p q r := eq_of (add_assoc ..) (add_assoc ..)
  zero_add p := eq_of (zero_add _) (zero_add _)
  add_zero p := eq_of (add_zero _) (add_zero _)
  neg_add_cancel p := eq_of (neg_add_cancel _) (neg_add_cancel _)
  add_comm p q := eq_of (add_comm ..) (add_comm ..)
  sub p q := p - q
  sub_eq_add_neg p q := eq_of (sub_eq_add_neg ..) (sub_eq_add_neg ..)
  nsmul := nsmulRec
  zsmul := zsmulRec

end Point

variable (position : Base → Point α)

/-- Where the space of a node's coordinates starts: frames shift the space of what is in them, groups do not. -/
def Node.spaceOrigin : List Node → Point α
  | [] => 0
  | .frame base .. :: around => position base + Node.spaceOrigin around
  | _ :: around => Node.spaceOrigin around

/-- The place of a node in the document. -/
def Occurrence.document (o : Occurrence) : Point α :=
  Node.spaceOrigin position o.around + position o.base

namespace Piece

/-- The sum of the coordinates of a piece and of those around it, up to the first that has none. -/
def offsetSum : List (Piece α) → Point α
  | [] => 0
  | p :: ps => match p.offset? position with
    | some c => c + offsetSum ps
    | none => 0

/-- The occurrence of the first piece of a chain that has no coordinates. -/
def anchor? : List (Piece α) → List Occurrence → Option Occurrence
  | p :: ps, o :: os => match p.offset? position with
    | some _ => anchor? ps os
    | none => some o
  | _, _ => none

end Piece

/-- Free coordinates count from the drawn node around them, and their origin is its place in the space of the
coordinates. -/
def Slot.CountsFrom (slot : Slot α) (above : List Occurrence) (around : List Node) : Prop :=
  match slot with
  | .free origin => ∃ a ∈ above.head?, a.document position = Node.spaceOrigin position around + origin
  | _ => True

theorem SlotRule.countsFrom (followHints : Bool) : SlotRule position followHints (Slot.CountsFrom position) where
  start := trivial
  through {slot above around base layout hint clips children} h := by
    cases slot with
    | free origin =>
      obtain ⟨a, ha, hd⟩ := h
      refine ⟨a, ha, ?_⟩
      rw [hd, Node.spaceOrigin]
      abel
    | _ => trivial
  flattened {slot above around base children} h ht := by
    cases slot with
    | free origin => cases ht
    | _ => trivial
  frame {slot above around base layout hint clips children} h := by
    unfold Slot.ofFlow
    split
    · trivial
    · refine ⟨_, rfl, ?_⟩
      have hz : (Point.zero : Point α) = 0 := rfl
      simp only [Occurrence.document, Occurrence.base, Node.base?, Option.getD_some, Node.spaceOrigin, hz]
      abel
  group {slot above around base children} h := ⟨_, rfl, rfl⟩

variable {position} {followHints : Bool} {ps : List (Piece α)} {os : List Occurrence}

theorem Piece.offsetSum_of_none {p : Piece α} {o : Occurrence} (h : p.offset? position = none) :
    ∃ a ∈ Piece.anchor? position (p :: ps) (o :: os),
      Piece.offsetSum position (p :: ps) = o.document position - a.document position :=
  ⟨o, by simp [Piece.anchor?, h], by simp [Piece.offsetSum, h]⟩

/-- Along a chain the coordinates add up to a difference of places in the document. -/
theorem Linked.offsetSum_eq (h : Linked followHints (Slot.CountsFrom position) ps os) : ∀ o ∈ os.head?,
    ∃ a ∈ Piece.anchor? position ps os,
      Piece.offsetSum position ps = o.document position - a.document position := by
  induction h with
  | nil => nofun
  | @cons p ps o os tail shows slot ih =>
    intro o' ho
    cases ho
    cases hs : p.slot with
    | free origin =>
      rw [hs] at slot
      obtain ⟨a, ha, hd⟩ := slot
      obtain ⟨b, hb, hsum⟩ := ih a ha
      have hc : p.offset? position = some (position o.base - origin) := by
        simp [Piece.offset?, hs, Slot.coordinates?, shows.base]
      refine ⟨b, by simpa [Piece.anchor?, hc] using hb, ?_⟩
      calc Piece.offsetSum position (p :: ps)
          = position o.base - origin + (a.document position - b.document position) := by
            simp [Piece.offsetSum, hc, hsum]
        _ = Node.spaceOrigin position o.around + position o.base - b.document position := by
            rw [hd]
            abel
    | top => exact Piece.offsetSum_of_none (by simp [Piece.offset?, hs, Slot.coordinates?])
    | inFlow flow => exact Piece.offsetSum_of_none (by simp [Piece.offset?, hs, Slot.coordinates?])

/-- Exact coordinates compose: those of an element and of the elements around it, up to the first that has none, add
up to the way from there to the element in the document. What is written are the coordinates of the slot. -/
theorem coordinates_compose (position : Base → Point α) (followHints : Bool) (nodes : List Node) :
    Tree.MatchAll (fun ps os => ∃ o ∈ os.head?, ∃ a ∈ Piece.anchor? position ps os,
        Piece.offsetSum position ps = o.document position - a.document position) [] []
      (Piece.trees (Node.piecesAll position followHints .top nodes)) (Scene.drawn nodes) ∧
    (∀ (p : Piece Float) (x y : Float), .position x y ∈ p.aspects ↔ p.offset? Base.position = some ⟨x, y⟩) ∧
    ∀ (t : Target) (p : Piece Float), (t.element p).styles = t.styles p.aspects := by
  refine ⟨?_, fun p x y => Piece.position_mem, Target.element_styles⟩
  exact (Scene.pieces_linked (SlotRule.countsFrom position followHints) nodes).imp
    fun h => ⟨_, rfl, h.offsetSum_eq _ rfl⟩

end SceneCode
