import SceneCode.Text.Blank

namespace SceneCode.Text

/-- Two more spaces behind every line break. A fragment starts with one, so all of it moves. -/
def indentChars (fragment : List Char) : List Char :=
  fragment.flatMap fun c => if c = '\n' then ['\n', ' ', ' '] else [c]

def indent (fragment : String) : String :=
  String.ofList (indentChars fragment.toList)

/-- The text up to each line break, less a carriage return before it. Text behind the last break is a line too. -/
def linesFrom (line : List Char) : List Char → List (List Char)
  | [] => if line.isEmpty then [] else [line.reverse]
  | '\n' :: rest =>
    (match line with
      | '\r' :: line => line.reverse
      | line => line.reverse) :: linesFrom [] rest
  | c :: rest => linesFrom (c :: line) rest

def lines (cs : List Char) : List (List Char) :=
  linesFrom [] cs

/-- Indents every line but the first, for text that continues a line already indented. Blank lines stay. -/
def hangingIndent (spaces : Nat) (cs : List Char) : List Char :=
  match lines cs with
  | [] => []
  | first :: rest =>
    join ['\n'] (first :: rest.map fun line =>
      if (trim line).isEmpty then line else List.replicate spaces ' ' ++ line)

end SceneCode.Text
