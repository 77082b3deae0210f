import SceneCode.Number.Double

namespace SceneCode.Number

def digits (n : Nat) : List Char :=
  Nat.toDigits 10 n

def ofInt (n : Int) : List Char :=
  match n with
  | .ofNat n => digits n
  | .negSucc n => '-' :: digits (n + 1)

/-- The digits of `n` behind as many zeros as fill `width` places. -/
def padded (width n : Nat) : List Char :=
  let ds := digits n
  List.replicate (width - ds.length) '0' ++ ds

def minus (negative : Bool) : List Char :=
  if negative then ['-'] else []

/-- Exactly `places` decimals, a tie going to the even last digit. -/
def fixedChars (places : Nat) (x : Float) : List Char :=
  match read x with
  | .finite negative units exponent =>
    let scaled := wholeUnits .halfEven (units * Nat.pow 10 places) exponent
    minus negative ++ digits (scaled / Nat.pow 10 places) ++
      (if places = 0 then [] else '.' :: padded places (scaled % Nat.pow 10 places))
  | .infinite negative => minus negative ++ ['i', 'n', 'f']
  | .nan => ['N', 'a', 'N']

def fixed (places : Nat) (x : Float) : String :=
  String.ofList (fixedChars places x)

def dropTrailingZeros (cs : List Char) : List Char :=
  (cs.reverse.dropWhile (· == '0')).reverse

/-- To the nearest hundredth, a tie going away from zero. Adding zero makes a negative zero positive. -/
def hundredths (x : Float) : Float :=
  round (x * 100) / 100 + 0

def chars (x : Float) : List Char :=
  let rounded := hundredths x
  if isWhole rounded then ofInt (toInt64 rounded)
  else dropTrailingZeros (fixedChars 2 rounded)

/-- A number in generated code: at most two decimals and no trailing zeros. -/
def text (x : Float) : String :=
  String.ofList (chars x)

end SceneCode.Number
