import SceneCode.Number.Text

namespace SceneCode.Number

/-- `mantissa * 10 ^ exponent`. -/
structure Decimal where
  mantissa : Nat
  exponent : Int
deriving DecidableEq

namespace Decimal

def value (d : Decimal) : Float :=
  Float.ofScientific d.mantissa (decide (d.exponent < 0)) d.exponent.natAbs

/-- Zeros at the end of the mantissa go into the exponent. -/
def normal (d : Decimal) : Decimal :=
  let ds := digits d.mantissa
  let zeros := ds.length - (dropTrailingZeros ds).length
  ⟨d.mantissa / Nat.pow 10 zeros, d.exponent + zeros⟩

/-- The two decimals with this exponent around the fraction `num / den`, the nearer one first. -/
def around (num den : Nat) (exponent : Int) : List Decimal :=
  let scaled := num * Nat.pow 10 (-exponent).toNat
  let unit := den * Nat.pow 10 exponent.toNat
  let below : Decimal := ⟨scaled / unit, exponent⟩
  let above : Decimal := ⟨scaled / unit + 1, exponent⟩
  if unit < 2 * (scaled % unit) then [above, below] else [below, above]

/-- The decimal with the fewest digits that names the magnitude of a double. Seventeen digits always do. -/
def ofFloat (x : Float) : Decimal :=
  match read x with
  | .finite _ units exponent =>
    let num := units * Nat.pow 2 exponent.toNat
    let den := Nat.pow 2 (-exponent).toNat
    let point : Int := if den ≤ num then (digits (num / den)).length else 1 - (digits (den / num)).length
    let candidates := (List.range 18).flatMap fun (n : Nat) => around num den (point - n - 1)
    ((candidates.find? (·.value == x.abs)).getD ⟨units, 0⟩).normal
  | _ => ⟨0, 0⟩

/-- Powers of ten are written where there would be many zeros, and with their sign. -/
def chars (d : Decimal) : List Char :=
  let ds := digits d.mantissa
  let point := ds.length + d.exponent
  if 0 ≤ d.exponent ∧ point ≤ 16 then ds ++ List.replicate d.exponent.toNat '0' ++ ['.', '0']
  else if 0 < point ∧ point ≤ 16 then ds.take point.toNat ++ '.' :: ds.drop point.toNat
  else if -5 < point ∧ point ≤ 0 then '0' :: '.' :: List.replicate (-point).toNat '0' ++ ds
  else
    let power := point - 1
    ds.take 1 ++ (if ds.length = 1 then [] else '.' :: ds.drop 1) ++
      'e' :: (if 0 ≤ power then ['+'] else []) ++ ofInt power

end Decimal

def shortest (x : Float) : List Char :=
  match read x with
  | .finite negative units _ =>
    minus negative ++ (if units = 0 then ['0', '.', '0'] else (Decimal.ofFloat x).chars)
  | _ => ['n', 'u', 'l', 'l']

end SceneCode.Number
