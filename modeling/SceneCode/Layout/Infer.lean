import SceneCode.Layout.Flow
import SceneCode.Number.Double

/-! A flow guessed from boxes: children one after another with even gaps, lined up across the flow. The arithmetic is
a parameter, so that what holds for exact numbers can be said of the same definitions that run on doubles. -/
namespace SceneCode

class Length (α : Type) extends Add α, Sub α, Mul α, Div α, LE α, OfScientific α where
  decLe : DecidableLE α
  ofNat : Nat → α
  round : α → α

instance Length.decidableLE {α : Type} [Length α] : DecidableLE α := Length.decLe

instance : Length Float where
  decLe := inferInstance
  ofNat := Float.ofNat
  round := Number.round

structure Box (α : Type) where
  x : α
  y : α
  width : α
  height : α
deriving DecidableEq

structure Inference (α : Type) where
  direction : Direction
  gap : α
  top : α
  right : α
  bottom : α
  left : α
  cross : CrossAlign
deriving DecidableEq

def Direction.across : Direction → Direction
  | .row => .column
  | .column => .row

namespace Box
variable {α : Type}

def start (d : Direction) (b : Box α) : α :=
  match d with
  | .row => b.x
  | .column => b.y

def extent (d : Direction) (b : Box α) : α :=
  match d with
  | .row => b.width
  | .column => b.height

variable [Length α]

def finish (d : Direction) (b : Box α) : α :=
  b.start d + b.extent d

def middle (d : Direction) (b : Box α) : α :=
  b.start d + b.extent d / 2.0

end Box

namespace Infer
variable {α : Type} [Length α]

/-- Neighbours in a list. -/
def pairs {β : Type} (xs : List β) : List (β × β) :=
  xs.zip xs.tail

/-- How far apart two lengths may be and still count as one. -/
def tolerance : α := 1.0

def magnitude (x : α) : α :=
  if 0.0 ≤ x then x else 0.0 - x

def exceeds (a b : α) : Bool :=
  b ≤ a && !decide (a ≤ b)

def sum (xs : List α) : α :=
  xs.foldl (· + ·) 0.0

def mean (xs : List α) : α :=
  sum xs / Length.ofNat xs.length

def least : List α → α
  | [] => 0.0
  | x :: xs => xs.foldl Number.smaller x

def greatest : List α → α
  | [] => 0.0
  | x :: xs => xs.foldl Number.larger x

def spread (xs : List α) : α :=
  greatest xs - least xs

/-- Each box ends before the next begins. -/
def isSequential (d : Direction) (boxes : List (Box α)) : Bool :=
  (pairs boxes).all fun (a, b) => a.finish d ≤ b.start d + tolerance

def direction? (boxes : List (Box α)) : Option Direction :=
  if isSequential .row boxes then some .row
  else if isSequential .column boxes then some .column
  else none

def gaps (d : Direction) (boxes : List (Box α)) : List α :=
  (pairs boxes).map fun (a, b) => b.start d - a.finish d

/-- No gap is off the mean by more than a fifth of it. -/
def isEven (gaps : List α) : Bool :=
  let gap := mean gaps
  !gaps.any fun g => exceeds (magnitude (g - gap)) (Number.larger (gap * 0.2) tolerance)

/-- What lines up along `d`. -/
def alignment (d : Direction) (boxes : List (Box α)) : CrossAlign :=
  if spread (boxes.map (·.start d)) ≤ tolerance then .start
  else if spread (boxes.map (·.middle d)) ≤ tolerance then .center
  else if spread (boxes.map (·.finish d)) ≤ tolerance then .finish
  else .start

/-- A whole length, none being below zero. -/
def whole (x : α) : α :=
  Length.round (Number.larger x 0.0)

/-- The flow of at least two boxes in a frame of the given size. -/
def infer (width height : α) (boxes : List (Box α)) : Option (Inference α) := do
  if boxes.length < 2 then none
  let d ← direction? boxes
  let gaps := gaps d boxes
  if !isEven gaps then none
  return {
    direction := d
    gap := whole (mean gaps)
    top := whole (least (boxes.map (·.start .column)))
    right := whole (width - greatest (boxes.map (·.finish .row)))
    bottom := whole (height - greatest (boxes.map (·.finish .column)))
    left := whole (least (boxes.map (·.start .row)))
    cross := alignment d.across boxes
  }

end Infer
end SceneCode
