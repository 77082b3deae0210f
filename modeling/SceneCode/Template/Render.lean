import SceneCode.Json.Writer
import SceneCode.Number.Shortest
import SceneCode.Template.Basic
import SceneCode.Text.Lines
import SceneCode.Text.Words

/-! Filling templates in. The text is source code, so nothing is escaped. -/
namespace SceneCode.Template

/-- A place in an array, as a key. -/
def index? (key : String) : Option Nat :=
  if key.all Char.isDigit then key.toNat?.filter (· < Nat.pow 2 64) else none

/-- The value at the end of a path. Keys lead into objects, numbers into arrays, and `this` leads nowhere else. What
is not there is a null, but to ask an array for anything but a number fails. -/
def follow? : List String → Json → Option Json
  | [], json => some json
  | "this" :: keys, json => follow? keys json
  | key :: keys, .object fields =>
    match fields.lookup key with
    | some json => follow? keys json
    | none => some .null
  | key :: keys, .array items => do
    match items[← index? key]? with
    | some json => follow? keys json
    | none => return .null
  | _, _ => some .null

mutual
def valueChars : Json → List Char
  | .null => []
  | .bool b => (toString b).toList
  | .integer n => Number.ofInt n
  | .real x => Number.shortest x
  | .string s => s.toList
  | .array items => '[' :: itemsChars items ++ [']']
  | .object _ => "[object]".toList

def itemsChars : List Json → List Char
  | [] => []
  | [item] => valueChars item
  | item :: items => valueChars item ++ ',' :: ' ' :: itemsChars items
end

inductive Helper where
  /-- A name as the name of a type. -/
  | pascalCase
  /-- A text that continues a line already indented. -/
  | hangingIndent
  /-- Chooses, repeats or enters a block. A tag has none, so nothing is written. -/
  | block
  /-- Compares or measures values for a block, and has no use in a tag. -/
  | condition
  /-- Writes nothing. -/
  | silent
deriving DecidableEq

namespace Helper

def ofName? : String → Option Helper
  | "pascal_case" => some .pascalCase
  | "hanging_indent" => some .hangingIndent
  | "if" | "unless" | "each" | "with" => some .block
  | "eq" | "ne" | "gt" | "gte" | "lt" | "lte" | "and" | "or" | "not" | "len" | "lookup" => some .condition
  | "raw" | "log" => some .silent
  | _ => none

def charsOf : Option Json → List Char
  | some (.string s) => s.toList
  | _ => []

def spacesOf : Option Json → Nat
  | some (.integer (.ofNat n)) => n
  | _ => 4

def run? (helper : Helper) (arguments : List Json) : Option (List Char) :=
  let subject := charsOf arguments[0]?
  match helper with
  | .pascalCase => some (Text.pascalCase subject)
  | .hangingIndent => some (Text.hangingIndent (spacesOf arguments[1]?) subject)
  | .block => if arguments.isEmpty then none else some []
  | .condition => none
  | .silent => some []

end Helper

def Argument.value? (data : Json) : Argument → Option Json
  | .literal json => some json
  | .path keys => follow? keys data

/-- A text with all its lines but the first moved in. A line break at its end begins no line. -/
def indented (indent : List Char) : List Char → List Char
  | [] => []
  | ['\n'] => ['\n']
  | '\n' :: cs => '\n' :: indent ++ indented indent cs
  | c :: cs => c :: indented indent cs

/-- A helper comes before a value of the same name. What a helper writes has an indentation of its own. -/
def valueAt? (indent : List Char) (data : Json) (path : List String) : Option (List Char) :=
  let value := (follow? path data).map (indented indent ∘ valueChars)
  match path with
  | [name] =>
    match Helper.ofName? name with
    | some helper => helper.run? []
    | none => value
  | _ => value

/-- One part; `other` renders the template of a name with an indent. -/
def Part.render? (other : String → List Char → Option (List Char)) (indent : List Char) (data : Json) :
    Part → Option (List Char)
  | .text cs => some (indented indent cs)
  | .value path => valueAt? indent data path
  | .call helper arguments => do (← Helper.ofName? helper).run? (← arguments.mapM (·.value? data))
  | .other name indent => other name indent

/-- Templates may name one another `depth` levels deep. Each has the indent of its own tag, which does not add to the
one around it. -/
def render? (templates : List (String × Template)) (data : Json) :
    (depth : Nat) → (indent : List Char) → Template → Option (List Char)
  | 0, _, _ => none
  | depth + 1, indent, parts =>
    let other (name : String) (indent : List Char) :=
      (templates.lookup name).bind (render? templates data depth indent)
    (parts.mapM (Part.render? other indent data)).map List.flatten

end SceneCode.Template
