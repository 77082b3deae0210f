import SceneCode.Json.Value

namespace SceneCode.Json
open Number

def hexDigit (n : Nat) : Char :=
  Nat.digitChar (n % 16)

def escapeChar (c : Char) : List Char :=
  if c = '"' then ['\\', '"']
  else if c = '\\' then ['\\', '\\']
  else if c.toNat < 0x20 then ['\\', 'u', '0', '0', hexDigit (c.toNat / 16), hexDigit c.toNat]
  else [c]

def writeString (s : String) : List Char :=
  '"' :: s.toList.flatMap escapeChar ++ ['"']

/-- All decimals of a double. One place is kept, so that it is not taken for an integer. -/
def writeReal (x : Float) : List Char :=
  match read x with
  | .finite _ _ exponent =>
    let places := (-exponent).toNat
    if isWhole x then fixedChars 1 x else dropTrailingZeros (fixedChars places x)
  | _ => ['n', 'u', 'l', 'l']

mutual
def write : Json → List Char
  | .null => ['n', 'u', 'l', 'l']
  | .bool true => ['t', 'r', 'u', 'e']
  | .bool false => ['f', 'a', 'l', 's', 'e']
  | .integer n => ofInt n
  | .real x => writeReal x
  | .string s => writeString s
  | .array items => '[' :: writeItems items ++ [']']
  | .object fields => '\x7b' :: writeFields fields ++ ['\x7d']

def writeItems : List Json → List Char
  | [] => []
  | [item] => write item
  | item :: items => write item ++ ',' :: writeItems items

def writeFields : List (String × Json) → List Char
  | [] => []
  | [(key, value)] => writeString key ++ ':' :: write value
  | (key, value) :: fields => writeString key ++ ':' :: write value ++ ',' :: writeFields fields
end

def toText (json : Json) : String :=
  String.ofList json.write

end SceneCode.Json
