import SceneCode.Layout.Resolve

/-! What is drawn of a scene. Hidden and empty nodes are gone, frames without size and plain groups at the top have
given way to their children, and every piece knows how it is placed. -/
namespace SceneCode

/-- How the surroundings of a node place it. Coordinates are counted from the origin. -/
inductive Slot (α : Type) where
  | top
  | inFlow (flow : Flow)
  | free (origin : Point α)
deriving DecidableEq

namespace Slot
variable {α : Type}

def ofFlow [OfNat α 0] : Option Flow → Slot α
  | some flow => .inFlow flow
  | none => .free .zero

/-- The slot of the children of a frame without size, which are placed relative to the frame. -/
def through [Sub α] (slot : Slot α) (position : Point α) : Slot α :=
  match slot with
  | .free origin => .free (origin - position)
  | slot => slot

def isTop : Slot α → Bool
  | .top => true
  | _ => false

def coordinates? [Sub α] (slot : Slot α) (position : Point α) : Option (Point α) :=
  match slot with
  | .free origin => some (position - origin)
  | _ => none

end Slot

inductive Piece (α : Type) where
  | frame (slot : Slot α) (base : Base) (flow : Option Flow) (clips : Bool) (children : List (Piece α))
  | group (slot : Slot α) (base : Base) (children : List (Piece α))
  | shape (slot : Slot α) (base : Base) (ellipse : Bool)
  | line (slot : Slot α) (base : Base)
  | text (slot : Slot α) (base : Base) (box : TextBox)

namespace Base

/-- The opacity that a node is drawn with. -/
def shownOpacity (b : Base) : Float :=
  Number.clampUnit b.opacity

/-- Neither seen through nor turned. -/
def isPlain (b : Base) : Bool :=
  !(b.shownOpacity < 1 || b.rotation != 0)

/-- A line is as long as the node and as thick as its stroke. -/
def isDegenerateLine (b : Base) : Bool :=
  b.width ≤ 0 || b.strokeWeight ≤ 0

end Base

section
variable {α : Type} [Sub α] [OfNat α 0]

mutual
/-- The pieces of a node in a slot. Its position is read off by `position`. -/
def Node.pieces (position : Base → Point α) (followHints : Bool) (slot : Slot α) : Node → List (Piece α)
  | .frame base layout hint clips children =>
    if !base.visible then []
    else if base.isDegenerate then
      Node.piecesAll position followHints (slot.through (position base)) children
    else
      let flow := Layout.resolve followHints layout hint
      [.frame slot base flow clips (Node.piecesAll position followHints (.ofFlow flow) children)]
  | .group base children =>
    if !base.visible || base.isDegenerate || children.isEmpty then []
    else if slot.isTop && base.isPlain then Node.piecesAll position followHints slot children
    else
      match Node.piecesAll position followHints (.free (position base)) children with
      | [] => []
      | pieces => [.group slot base pieces]
  | .shape .line base =>
    if !base.visible || base.isDegenerateLine then [] else [.line slot base]
  | .shape kind base =>
    if !base.visible || base.isDegenerate then [] else [.shape slot base (kind == .ellipse)]
  | .text base box =>
    if !base.visible || base.isDegenerate then [] else [.text slot base box]
  | .unknown => []

def Node.piecesAll (position : Base → Point α) (followHints : Bool) (slot : Slot α) :
    List Node → List (Piece α)
  | [] => []
  | node :: nodes =>
    node.pieces position followHints slot ++ Node.piecesAll position followHints slot nodes
end

end

/-- The pieces of a whole scene, with coordinates as they are written. -/
def Scene.pieces (followHints : Bool) (nodes : List Node) : List (Piece Float) :=
  Node.piecesAll Base.position followHints .top nodes

end SceneCode
