import SceneCode.Number.Text

namespace SceneCode

/-- Channels run from 0 to 1, but nothing holds a loaded colour to that. -/
structure Rgb where
  r : Float
  g : Float
  b : Float
deriving DecidableEq

structure Rgba where
  r : Float := 0
  g : Float := 0
  b : Float := 0
  a : Float := 1
deriving DecidableEq

def Rgba.rgb (c : Rgba) : Rgb := ⟨c.r, c.g, c.b⟩

namespace Rgb

def white : Rgb := ⟨1, 1, 1⟩

def black : Rgb := ⟨0, 0, 0⟩

def ofBytes (r g b : Nat) : Rgb :=
  ⟨Float.ofNat r / 255, Float.ofNat g / 255, Float.ofNat b / 255⟩

/-- A part of 1 as a part of 255. -/
def byte (x : Float) : Nat :=
  (Number.toInt64 (Number.round (Number.clampUnit x * 255))).toNat

def bytes (c : Rgb) : List Nat :=
  [byte c.r, byte c.g, byte c.b]

def hexDigit (n : Nat) : Char :=
  (Nat.digitChar (n % 16)).toUpper

/-- A byte as two capital hexadecimal digits. -/
def hexByte (n : Nat) : String :=
  String.ofList [hexDigit (n / 16), hexDigit n]

def hex6 (c : Rgb) : String :=
  String.join (c.bytes.map hexByte)

def hex (c : Rgb) : String :=
  "#" ++ c.hex6

def hexDigit? (c : Char) : Option Nat :=
  if '0' ≤ c ∧ c ≤ '9' then some (c.toNat - '0'.toNat)
  else if 'a' ≤ c ∧ c ≤ 'f' then some (c.toNat - 'a'.toNat + 10)
  else if 'A' ≤ c ∧ c ≤ 'F' then some (c.toNat - 'A'.toNat + 10)
  else none

/-- Two hexadecimal digits, or a plus sign and one. -/
def hexPair? (a b : Char) : Option Nat :=
  if a = '+' then hexDigit? b
  else do return (← hexDigit? a) * 16 + (← hexDigit? b)

/-- Six characters behind any number of hash signs. -/
def ofHexChars? (cs : List Char) : Option Rgb :=
  match cs.dropWhile (· == '#') with
  | [a, b, c, d, e, f] => do return ofBytes (← hexPair? a b) (← hexPair? c d) (← hexPair? e f)
  | _ => none

def ofHex? (s : String) : Option Rgb :=
  ofHexChars? s.toList

end Rgb
end SceneCode
