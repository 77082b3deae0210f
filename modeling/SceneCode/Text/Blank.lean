/-! White space, as the property White_Space of Unicode has it. -/
namespace SceneCode.Text

def isBlank (c : Char) : Bool :=
  let code := c.toNat
  (9 ≤ code && code ≤ 13) || (0x2000 ≤ code && code ≤ 0x200A) ||
    [0x20, 0x85, 0xA0, 0x1680, 0x2028, 0x2029, 0x202F, 0x205F, 0x3000].contains code

def trimStart (cs : List Char) : List Char :=
  cs.dropWhile isBlank

def trimEnd (cs : List Char) : List Char :=
  (cs.reverse.dropWhile isBlank).reverse

def trim (cs : List Char) : List Char :=
  trimEnd (trimStart cs)

/-- The maximal stretches without white space. -/
def unblanked : List Char → List (List Char)
  | [] => []
  | c :: rest =>
    if isBlank c then unblanked rest
    else
      match rest, unblanked rest with
      | [], _ => [[c]]
      | d :: _, word :: words => if isBlank d then [c] :: word :: words else (c :: word) :: words
      | _ :: _, [] => [[c]]

def join (separator : List Char) (parts : List (List Char)) : List Char :=
  (parts.intersperse separator).flatten

end SceneCode.Text
