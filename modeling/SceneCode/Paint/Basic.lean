import SceneCode.Color.Basic
import SceneCode.Named

namespace SceneCode

inductive ScaleMode where
  | fill
  | fit
  | crop
  | tile
deriving DecidableEq

instance : Named ScaleMode where
  all := [.fill, .fit, .crop, .tile]
  name
    | .fill => "FILL"
    | .fit => "FIT"
    | .crop => "CROP"
    | .tile => "TILE"
  other := .fill

structure ColorStop where
  position : Float
  color : Rgba
deriving DecidableEq

/-- The rows `[a, c, e]` and `[b, d, f]` of an affine map. -/
structure Transform where
  a : Float := 1
  c : Float := 0
  e : Float := 0
  b : Float := 0
  d : Float := 1
  f : Float := 0
deriving DecidableEq

inductive GradientKind where
  | linear
  | radial
  | angular
  | diamond
deriving DecidableEq

structure SolidPaint where
  color : Rgb
  opacity : Float := 1
  visible : Bool := true
deriving DecidableEq

/-- The transform carries the gradient's own unit space onto the bounds of the node. -/
structure GradientPaint where
  stops : List ColorStop
  transform : Transform := {}
  opacity : Float := 1
  visible : Bool := true
deriving DecidableEq

structure ImagePaint where
  scaleMode : ScaleMode := .fill
  imageHash : Option String := none
  opacity : Float := 1
  visible : Bool := true
deriving DecidableEq

inductive Paint where
  | solid (paint : SolidPaint)
  | gradient (kind : GradientKind) (paint : GradientPaint)
  | image (paint : ImagePaint)
  | unknown
deriving DecidableEq

namespace Paint

def visible : Paint → Bool
  | .solid p => p.visible
  | .gradient _ p => p.visible
  | .image p => p.visible
  | .unknown => false

def opacity : Paint → Float
  | .solid p => p.opacity
  | .gradient _ p => p.opacity
  | .image p => p.opacity
  | .unknown => 0

/-- The topmost paint comes first. Where it is hidden, nothing is drawn. -/
def top? (paints : List Paint) : Option Paint :=
  paints.head?.filter (·.visible)

end Paint
end SceneCode
