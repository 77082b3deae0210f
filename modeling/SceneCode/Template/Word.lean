import SceneCode.Json.Reader
import SceneCode.Template.Basic

namespace SceneCode.Template
open Json (isDigit)

/-- A word with quotes around it is kept as it is written between them. -/
inductive Word where
  | bare (chars : List Char)
  | quoted (mark : Char) (chars : List Char)

def isNameChar (c : Char) : Bool :=
  c.isAlphanum || c = '_' || c = '-' || c = '$' || 0x80 ≤ c.toNat

def name? (cs : List Char) : Option String :=
  if !cs.isEmpty && cs.all isNameChar then some (String.ofList cs) else none

/-- Names between dots or slashes. -/
def path? (cs : List Char) : Option (List String) :=
  let keys := cs.foldr (fun c keys =>
    if c = '.' || c = '/' then [] :: keys else (c :: keys.headD []) :: keys.tail) [[]]
  keys.mapM name?

/-- What follows the digits behind a decimal point. There may be none. -/
def afterFraction : List Char → List Char
  | '.' :: cs => cs.dropWhile isDigit
  | cs => cs

/-- What follows an exponent, which is written with a capital. -/
def afterExponent : List Char → List Char
  | 'E' :: '-' :: c :: cs | 'E' :: c :: cs => if isDigit c then cs.dropWhile isDigit else 'E' :: c :: cs
  | cs => cs

/-- What follows a number at the start of a word. A number that runs on into a name is a name. -/
def afterNumber? : List Char → Option (List Char)
  | '-' :: c :: cs | c :: cs =>
    let rest := afterExponent (afterFraction (cs.dropWhile isDigit))
    if isDigit c && !rest.head?.any isNameChar then some rest else none
  | [] => none

/-- The characters between single quotes as they are written between double quotes. Each kind of string escapes
its own quote only. -/
def requoted? : List Char → Option (List Char)
  | [] => some []
  | '\\' :: '"' :: _ => none
  | '\\' :: '\x27' :: cs => (requoted? cs).map ('\x27' :: ·)
  | '\\' :: c :: cs => (requoted? cs).map ('\\' :: c :: ·)
  | '"' :: cs => (requoted? cs).map ('\\' :: '"' :: ·)
  | c :: cs => (requoted? cs).map (c :: ·)

/-- The string that is written between double quotes. -/
def unquoted? (cs : List Char) : Option String :=
  match Json.stringFrom .exact [] (cs ++ ['"']) with
  | .ok (s, _) => some s
  | .error _ => none

def bareArgument? (cs : List Char) : Option Argument :=
  let literal (json : Json) (rest : List Char) : Option Argument :=
    if rest.isEmpty then some (.literal json) else none
  let rest := cs.dropWhile isNameChar
  match String.ofList (cs.takeWhile isNameChar) with
  | "else" | "as" => none
  | "true" => literal (.bool true) rest
  | "false" => literal (.bool false) rest
  | "null" => literal .null rest
  | _ =>
    match afterNumber? cs with
    | some rest => (Json.ofText? 0 (String.ofList cs)).toOption.bind (literal · rest)
    | none => (path? cs).map .path

def Word.argument? : Word → Option Argument
  | .quoted mark cs =>
    (if mark = '"' then unquoted? cs else (requoted? cs).bind unquoted?).map fun s => .literal (.string s)
  | .bare cs => bareArgument? cs

end SceneCode.Template
