import SceneCode.Named

namespace SceneCode

inductive Direction where
  | row
  | column
deriving DecidableEq

structure Padding where
  top : Float := 0
  right : Float := 0
  bottom : Float := 0
  left : Float := 0
deriving DecidableEq

namespace Padding

def isZero (p : Padding) : Bool :=
  p.top == 0 && p.right == 0 && p.bottom == 0 && p.left == 0

def isUniform (p : Padding) : Bool :=
  p.top == p.right && p.right == p.bottom && p.bottom == p.left

def isSymmetric (p : Padding) : Bool :=
  p.top == p.bottom && p.left == p.right

end Padding

/-- Where children go along the flow. -/
inductive MainAlign where
  | start
  | center
  | finish
  | between
deriving DecidableEq

/-- Where children go across the flow. -/
inductive CrossAlign where
  | start
  | center
  | finish
  | baseline
deriving DecidableEq

/-- How a container spaces its children, whatever the direction. -/
structure Spacing where
  gap : Float := 0
  padding : Padding := {}
  main : MainAlign := .start
  cross : CrossAlign := .start
  wrap : Bool := false
  hugPrimary : Bool := false
  hugCounter : Bool := false
deriving DecidableEq

/-- Children one after another. A frame that arranges its children freely has no flow. -/
structure Flow extends Spacing where
  direction : Direction
deriving DecidableEq

namespace Flow

def hugsWidth (f : Flow) : Bool :=
  match f.direction with
  | .row => f.hugPrimary
  | .column => f.hugCounter

def hugsHeight (f : Flow) : Bool :=
  match f.direction with
  | .row => f.hugCounter
  | .column => f.hugPrimary

/-- No gap is written where the children are spread over the whole width. -/
def writtenGap? (f : Flow) : Option Float :=
  if 0 < f.gap ∧ f.main ≠ .between then some f.gap else none

end Flow

/-- What a frame declares, or what is guessed for it. Without a mode it declares nothing. -/
structure AutoLayout extends Spacing where
  mode : Option Direction := none
deriving DecidableEq

def AutoLayout.flow? (l : AutoLayout) : Option Flow :=
  l.mode.map fun direction => { l.toSpacing with direction }

end SceneCode
