import SceneCode.Layout.Flow
import SceneCode.Scene.Base
import SceneCode.Scene.Text

namespace SceneCode

inductive ShapeKind where
  | rectangle
  | ellipse
  | line
  | vector
deriving DecidableEq

/-- The hint of a frame is a guess of its layout for when it declares none. -/
inductive Node where
  | frame (base : Base) (layout : AutoLayout) (hint : Option AutoLayout) (clips : Bool)
      (children : List Node)
  | group (base : Base) (children : List Node)
  | shape (kind : ShapeKind) (base : Base)
  | text (base : Base) (box : TextBox)
  | unknown

namespace Node

def base? : Node → Option Base
  | .frame base .. => some base
  | .group base _ => some base
  | .shape _ base => some base
  | .text base _ => some base
  | .unknown => none

def children : Node → List Node
  | .frame _ _ _ _ children => children
  | .group _ children => children
  | _ => []

def visible (n : Node) : Bool :=
  n.base?.any (·.visible)

def kind : Node → String
  | .frame .. => "FRAME"
  | .group .. => "GROUP"
  | .shape .rectangle _ => "RECTANGLE"
  | .shape .ellipse _ => "ELLIPSE"
  | .shape .line _ => "LINE"
  | .shape .vector _ => "VECTOR"
  | .text .. => "TEXT"
  | .unknown => "OTHER"

mutual
/-- A node and all below it in document order, each with its depth. -/
def outline (depth : Nat) : Node → List (Nat × Node)
  | .frame base layout hint clips children =>
    (depth, .frame base layout hint clips children) :: outlineAll (depth + 1) children
  | .group base children => (depth, .group base children) :: outlineAll (depth + 1) children
  | .shape kind base => [(depth, .shape kind base)]
  | .text base box => [(depth, .text base box)]
  | .unknown => [(depth, .unknown)]

def outlineAll (depth : Nat) : List Node → List (Nat × Node)
  | [] => []
  | node :: nodes => outline depth node ++ outlineAll depth nodes
end

end Node
end SceneCode
