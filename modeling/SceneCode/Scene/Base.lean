import SceneCode.Paint.Basic
import SceneCode.Point

namespace SceneCode

structure CornerRadii where
  topLeft : Float := 0
  topRight : Float := 0
  bottomRight : Float := 0
  bottomLeft : Float := 0
deriving DecidableEq

namespace CornerRadii

def uniform (radius : Float) : CornerRadii :=
  ⟨radius, radius, radius, radius⟩

def isUniform (c : CornerRadii) : Bool :=
  c.topLeft == c.topRight && c.topRight == c.bottomRight && c.bottomRight == c.bottomLeft

def isZero (c : CornerRadii) : Bool :=
  c.isUniform && c.topLeft ≤ 0

end CornerRadii

inductive StrokeAlign where
  | inside
  | outside
  | center
deriving DecidableEq

instance : Named StrokeAlign where
  all := [.inside, .outside, .center]
  name
    | .inside => "INSIDE"
    | .outside => "OUTSIDE"
    | .center => "CENTER"
  other := .inside

/-- How a child of a flow sizes itself across it. -/
inductive LayoutAlign where
  | inherit
  | stretch
  | start
  | center
  | finish
deriving DecidableEq

instance : Named LayoutAlign where
  all := [.inherit, .stretch, .start, .center, .finish]
  name
    | .inherit => "INHERIT"
    | .stretch => "STRETCH"
    | .start => "MIN"
    | .center => "CENTER"
    | .finish => "MAX"
  other := .inherit

structure ShadowEffect where
  color : Rgba
  offset : Point Float := ⟨0, 0⟩
  radius : Float := 0
  spread : Float := 0
  visible : Bool := true
deriving DecidableEq

structure BlurEffect where
  radius : Float
  visible : Bool := true
deriving DecidableEq

inductive Effect where
  | dropShadow (shadow : ShadowEffect)
  | innerShadow (shadow : ShadowEffect)
  | layerBlur (blur : BlurEffect)
  | backgroundBlur (blur : BlurEffect)
  | unknown
deriving DecidableEq

def Effect.visible : Effect → Bool
  | .dropShadow s | .innerShadow s => s.visible
  | .layerBlur b | .backgroundBlur b => b.visible
  | .unknown => false

/-- What every known kind of node has. The rotation is in degrees and turns against the clock. -/
structure Base where
  id : String := ""
  name : String := ""
  visible : Bool := true
  x : Float := 0
  y : Float := 0
  width : Float := 0
  height : Float := 0
  rotation : Float := 0
  opacity : Float := 1
  fills : List Paint := []
  strokes : List Paint := []
  strokeWeight : Float := 0
  strokeAlign : StrokeAlign := .inside
  cornerRadii : CornerRadii := {}
  effects : List Effect := []
  layoutAlign : LayoutAlign := .inherit
  layoutGrow : Float := 0
deriving DecidableEq

namespace Base

def isDegenerate (b : Base) : Bool :=
  b.width ≤ 0 || b.height ≤ 0

def position (b : Base) : Point Float :=
  ⟨b.x, b.y⟩

/-- Only bounds and a name, which is the id too. -/
def named (name : String) (x y width height : Float) : Base :=
  { id := name, name, x, y, width, height }

end Base
end SceneCode
