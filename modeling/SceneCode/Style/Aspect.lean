import SceneCode.Layout.Flow
import SceneCode.Paint.Fill
import SceneCode.Scene.Base
import SceneCode.Scene.Text

namespace SceneCode

inductive Extent where
  | fixed (length : Float)
  | fill
  | hug
deriving DecidableEq

/-- The direction is that of the flow around the node, if there is one. -/
structure Size where
  width : Extent
  height : Extent
  within : Option Direction := none
deriving DecidableEq

namespace Size

/-- Filling the width goes along a row and across a column. -/
def widthIsPrimary (s : Size) : Bool :=
  s.within == some .row

def heightIsPrimary (s : Size) : Bool :=
  s.within == some .column

end Size

inductive Radius where
  | uniform (radius : Float)
  | corners (radii : CornerRadii)
  | full
deriving DecidableEq

structure Stroke where
  weight : Float
  color : Rgb
  opacity : Float
  align : StrokeAlign
deriving DecidableEq

structure Shadow where
  inset : Bool
  x : Float
  y : Float
  blur : Float
  spread : Float
  color : Rgb
  opacity : Float
deriving DecidableEq

structure Blur where
  layer : Option Float := none
  background : Option Float := none
deriving DecidableEq

def Blur.isEmpty (b : Blur) : Bool :=
  b.layer.isNone && b.background.isNone

inductive Aspect where
  | size (size : Size)
  | position (x y : Float)
  | blend (opacity rotation : Float)
  | background (fill : Fill) (width height : Float)
  | border (stroke : Stroke)
  | radius (radius : Radius) (width height : Float)
  | shadows (shadows : List Shadow)
  | blur (blur : Blur)
  | clip
  | flow (flow : Flow)
  /-- Children placed freely count their coordinates from here. -/
  | origin
  | typography (run : TextRun) (color : Option (Rgb × Float))
  | textAlign (horizontal : HorizontalAlign) (vertical : VerticalAlign)
deriving DecidableEq

end SceneCode
