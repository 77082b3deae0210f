import SceneCode.Layout.Piece
import SceneCode.Style.Look

namespace SceneCode

/-- The axes on which a node is as large as its content. -/
structure Hug where
  width : Bool := false
  height : Bool := false
deriving DecidableEq

namespace Hug

def ofFlow : Option Flow → Hug
  | some flow => ⟨flow.hugsWidth, flow.hugsHeight⟩
  | none => {}

def ofText (t : TextBox) : Hug :=
  match t.autoResize with
  | .widthAndHeight => ⟨true, true⟩
  | .height => ⟨false, true⟩
  | .none | .truncate => {}

end Hug

inductive ShapeLook where
  | box
  | ellipse
  /-- The fill is shown by an image and is no background. -/
  | image
deriving DecidableEq

/-- A node with the bounds it is drawn in. -/
structure Subject where
  base : Base
  width : Float
  height : Float
deriving DecidableEq

namespace Subject

def ofBase (b : Base) : Subject :=
  ⟨b, b.width, b.height⟩

def extent (fills hugs : Bool) (length : Float) : Extent :=
  if fills then .fill else if hugs then .hug else .fixed length

/-- A child of a flow grows along it and stretches across it. -/
def sizeIn {α : Type} (s : Subject) (slot : Slot α) (hug : Hug) : Size :=
  let grows := decide (0 < s.base.layoutGrow)
  let stretches := s.base.layoutAlign == .stretch
  let (fillsWidth, fillsHeight, within) := match slot with
    | .inFlow flow =>
      match flow.direction with
      | .row => (grows, stretches, some .row)
      | .column => (stretches, grows, some .column)
    | _ => (false, false, none)
  ⟨extent fillsWidth hug.width s.width, extent fillsHeight hug.height s.height, within⟩

def size (s : Subject) (slot : Slot Float) (hug : Hug) : List Aspect :=
  [.size (s.sizeIn slot hug)]

def coordinates (s : Subject) (slot : Slot Float) : List Aspect :=
  match slot.coordinates? s.base.position with
  | some p => [.position p.x p.y]
  | none => []

def blend (s : Subject) : List Aspect :=
  if s.base.isPlain then [] else [.blend s.base.shownOpacity s.base.rotation]

/-- Size, coordinates and blend. Only a node that is placed freely has coordinates. -/
def placement (s : Subject) (slot : Slot Float) (hug : Hug) : List Aspect :=
  s.size slot hug ++ s.coordinates slot ++ s.blend

def fill (s : Subject) (paints : List Paint) : List Aspect :=
  (Fill.top? paints).toList.map (.background · s.width s.height)

def shape (s : Subject) (look : ShapeLook) : List Aspect :=
  let shadows := s.base.shadows
  let blur := s.base.blur
  (if look = .image then [] else s.fill s.base.fills) ++
  (s.base.radius? (look == .ellipse)).toList.map (.radius · s.width s.height) ++
  s.base.stroke?.toList.map .border ++
  (if shadows.isEmpty then [] else [.shadows shadows]) ++
  (if blur.isEmpty then [] else [.blur blur])

/-- A line is a bar in the colour of its stroke. -/
def line (s : Subject) : List Aspect :=
  s.fill s.base.strokes

def clip (clips : Bool) : List Aspect :=
  if clips then [.clip] else []

/-- How the children of a node are arranged. -/
def layout (flow : Option Flow) (hasChildren : Bool) : List Aspect :=
  match flow with
  | some flow => [.flow flow]
  | none => if hasChildren then [.origin] else []

/-- The topmost fill of the run colours it, or else that of the node. -/
def textColor (s : Subject) (run : TextRun) : Option (Rgb × Float) :=
  (((Paint.top? run.fills).or (Paint.top? s.base.fills)).bind Fill.ofPaint?).bind Fill.color?

def typography (s : Subject) (run : TextRun) : List Aspect :=
  [.typography run (s.textColor run)]

def textAlign (t : TextBox) : List Aspect :=
  [.textAlign t.horizontal t.vertical]

end Subject

/-- The bar that a line is drawn as. -/
def Base.bar (b : Base) : Subject :=
  ⟨b, b.width, b.strokeWeight⟩

end SceneCode
