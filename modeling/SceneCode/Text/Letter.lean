import SceneCode.Text.Table.Alphanumeric
import SceneCode.Text.Table.Case
import SceneCode.Text.Table.Cased

namespace SceneCode.Text
open Table

def isAlphanumeric (c : Char) : Bool :=
  alphanumeric.has c.toNat

def isDigit (c : Char) : Bool :=
  '0' ≤ c && c ≤ '9'

/-- A character may become several. -/
def mapped (expansions : List (Nat × List Nat)) (shifts : List Shift) (c : Char) : List Char :=
  match expansions.lookup c.toNat with
  | some codes => codes.map Char.ofNat
  | none => [Char.ofNat ((shifts.findSome? (·.map? c.toNat)).getD c.toNat)]

def upper (c : Char) : List Char :=
  mapped upperExpansions upperShifts c

def lower (c : Char) : List Char :=
  mapped lowerExpansions lowerShifts c

def isCaseIgnorable (c : Char) : Bool :=
  caseIgnorable.has c.toNat

/-- The first character that case does not ignore has a case. -/
def meetsCased (cs : List Char) : Bool :=
  match cs.dropWhile isCaseIgnorable with
  | c :: _ => cased.has c.toNat
  | [] => false

end SceneCode.Text
