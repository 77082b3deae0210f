import SceneCode.Paint.Basic
import SceneCode.Point

namespace SceneCode

/-- A gradient between two points of the node's unit space. -/
structure LinearGradient where
  stops : List ColorStop
  start : Point Float
  finish : Point Float
  opacity : Float
deriving DecidableEq

namespace LinearGradient

/-- The gradient starts where the transform sends the origin, and runs along its first column. -/
def ofPaint (p : GradientPaint) : LinearGradient :=
  let t := p.transform
  ⟨p.stops, ⟨t.e, t.f⟩, ⟨t.e + t.a, t.f + t.b⟩, p.opacity⟩

def degreesPerRadian : Float := 180 / 3.14159265358979323846

/-- In degrees from 0 to 360 and to the hundredth, 0 pointing up and 90 to the right. -/
def angle (g : LinearGradient) : Float :=
  let d := g.finish - g.start
  let degrees := Float.atan2 d.x (-d.y) * degreesPerRadian
  let turned := if degrees < 0 then degrees + 360 else degrees
  let rounded := Number.round (turned * 100) / 100
  (if rounded == 360 then 0 else rounded) + 0

/-- The colour of a stop with the opacity it ends up with. -/
def stopColor (g : LinearGradient) (s : ColorStop) : Rgb × Float :=
  (s.color.rgb, s.color.a * g.opacity)

end LinearGradient

inductive Fill where
  | solid (color : Rgb) (opacity : Float)
  | gradient (gradient : LinearGradient)
  | image (scaleMode : ScaleMode)
deriving DecidableEq

namespace Fill

/-- Gradients that are not linear have no description. -/
def ofPaint? : Paint → Option Fill
  | .solid p => some (.solid p.color p.opacity)
  | .gradient .linear p => some (.gradient (.ofPaint p))
  | .gradient _ _ => none
  | .image p => some (.image p.scaleMode)
  | .unknown => none

def withOpacity (opacity : Float) : Fill → Fill
  | .solid color _ => .solid color opacity
  | .gradient g => .gradient { g with opacity }
  | .image mode => .image mode

def top? (paints : List Paint) : Option Fill :=
  (Paint.top? paints).bind ofPaint?

def isImage (paints : List Paint) : Bool :=
  match Paint.top? paints with
  | some (.image _) => true
  | _ => false

/-- The colour of text takes only solid paints. -/
def color? : Fill → Option (Rgb × Float)
  | .solid color opacity => some (color, opacity)
  | _ => none

end Fill
end SceneCode
