import SceneCode.Text.Blank
import SceneCode.Text.Letter

namespace SceneCode.Text

def upperText (cs : List Char) : List Char :=
  cs.flatMap upper

/-- A capital sigma that ends a word. -/
def isFinalSigma (before after : List Char) (c : Char) : Bool :=
  c == 'Σ' && meetsCased before && !meetsCased after

/-- The lower case of what follows `before`, which is read backwards. -/
def lowerAfter (before : List Char) : List Char → List Char
  | [] => []
  | c :: after =>
    (if isFinalSigma before after c then ['ς'] else lower c) ++ lowerAfter (c :: before) after

def lowerText (cs : List Char) : List Char :=
  lowerAfter [] cs

/-- Raises the first character of the text, if it starts a word, and each one behind a blank. -/
def titleText (starts : Bool) : List Char → List Char
  | [] => []
  | c :: rest => (if starts then upper c else [c]) ++ titleText (isBlank c) rest

/-- A text stands somewhere within another. -/
def occursIn (part : List Char) : List Char → Bool
  | [] => part.isEmpty
  | c :: rest => part.isPrefixOf (c :: rest) || occursIn part rest

end SceneCode.Text
