/-! Doubles read off their bits, so that rounding and printing are exact arithmetic on whole numbers. -/
namespace SceneCode.Number

/-- A finite double is a whole number of units, each a power of two. -/
inductive Reading where
  | finite (negative : Bool) (units : Nat) (exponent : Int)
  | infinite (negative : Bool)
  | nan
deriving DecidableEq

def read (x : Float) : Reading :=
  let bits := x.toBits.toNat
  let negative := decide (Nat.pow 2 63 ≤ bits)
  let exponent : Nat := bits / Nat.pow 2 52 % Nat.pow 2 11
  let fraction := bits % Nat.pow 2 52
  if exponent = 2047 then
    if fraction = 0 then .infinite negative else .nan
  else if exponent = 0 then .finite negative fraction (-1074)
  else .finite negative (Nat.pow 2 52 + fraction) ((exponent : Int) - 1075)

/-- How a quotient that is no whole number is rounded. -/
inductive Rounding where
  | down
  | halfUp
  | halfEven
deriving DecidableEq

/-- The whole number that stands for `num / den`. -/
def Rounding.quotient (rounding : Rounding) (num den : Nat) : Nat :=
  let floor := num / den
  let rest := 2 * (num % den)
  match rounding with
  | .down => floor
  | .halfUp => if den ≤ rest then floor + 1 else floor
  | .halfEven => if den < rest || (rest == den && floor % 2 == 1) then floor + 1 else floor

/-- `units * 2 ^ exponent` as a whole number. -/
def wholeUnits (rounding : Rounding) (units : Nat) (exponent : Int) : Nat :=
  if 0 ≤ exponent then units * Nat.pow 2 exponent.toNat
  else rounding.quotient units (Nat.pow 2 (-exponent).toNat)

def signed (negative : Bool) (magnitude : Nat) : Int :=
  if negative then -(magnitude : Int) else magnitude

/-- The nearest whole number, the one farther from zero at a tie. The sign of a zero is kept. -/
def round (x : Float) : Float :=
  match read x with
  | .finite negative units exponent =>
    if 0 ≤ exponent then x
    else
      let magnitude := Float.ofNat (wholeUnits .halfUp units exponent)
      if negative then -magnitude else magnitude
  | _ => x

def isWhole (x : Float) : Bool :=
  match read x with
  | .finite _ units exponent => 0 ≤ exponent || units % Nat.pow 2 (-exponent).toNat == 0
  | _ => false

/-- The whole part, held within 64 bits with a sign. -/
def toInt64 (x : Float) : Int :=
  match read x with
  | .finite negative units exponent =>
    max (-(Nat.pow 2 63 : Int)) (min ((Nat.pow 2 63 : Int) - 1) (signed negative (wholeUnits .down units exponent)))
  | .infinite negative => if negative then -(Nat.pow 2 63 : Int) else (Nat.pow 2 63 : Int) - 1
  | .nan => 0

section Order
variable {α : Type} [LE α] [DecidableLE α]

/-- The larger of two, or the one that compares at all. -/
def larger (a b : α) : α :=
  if a ≤ b then b else if a ≤ a then a else b

/-- The smaller of two, or the one that compares at all. -/
def smaller (a b : α) : α :=
  if a ≤ b then a else if b ≤ b then b else a

end Order

/-- Held between 0 and 1. -/
def clampUnit (x : Float) : Float :=
  if x < 0 then 0 else if 1 < x then 1 else x

end SceneCode.Number
