import SceneCode.Text.Case
import SceneCode.Text.Cluster

namespace SceneCode.Text

def isSeparator (cluster : List Char) : Bool :=
  cluster == ['-'] || cluster == ['_'] || cluster == [' ']

def hasCase (cluster : List Char) : Bool :=
  upperText cluster != lowerText cluster

def isUpper (cluster : List Char) : Bool :=
  hasCase cluster && cluster == upperText cluster

def isLower (cluster : List Char) : Bool :=
  hasCase cluster && cluster == lowerText cluster

def isNumeral (cluster : List Char) : Bool :=
  cluster.all isDigit

/-- A word starts at `here`: case or kind changes there, or it is the last capital before a small letter. -/
def startsWord (before : Option (List Char)) (here : List Char) (after : Option (List Char)) : Bool :=
  match before with
  | none => false
  | some before =>
    (isLower before && isUpper here) || (isUpper before && isNumeral here) ||
    (isNumeral before && isUpper here) || (isNumeral before && isLower here) ||
    (isLower before && isNumeral here) ||
    (isUpper before && isUpper here && after.any isLower)

/-- The words of a list of clusters. The first continues what stands before the list and may be empty. -/
def cutWords (before : Option (List Char)) : List (List Char) → List (List Char)
  | [] => [[]]
  | here :: rest =>
    let words := cutWords (some here) rest
    if isSeparator here then [] :: words
    else
      let word := here ++ words.headD []
      if startsWord before here rest.head? then [] :: word :: words.tail else word :: words.tail

def wordsOf (cs : List Char) : List (List Char) :=
  (cutWords none (clusters cs)).filter (!·.isEmpty)

def capitalized : List Char → List Char
  | [] => []
  | c :: rest => upper c ++ lowerText rest

def pascalCase (cs : List Char) : List Char :=
  (wordsOf cs).flatMap capitalized

def camelCase (cs : List Char) : List Char :=
  match wordsOf cs with
  | [] => []
  | word :: words => lowerText word ++ words.flatMap capitalized

end SceneCode.Text
