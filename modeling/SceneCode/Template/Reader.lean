import SceneCode.Template.Word

namespace SceneCode.Template
open Json (isSpace)

inductive Chunk where
  | text (chars : List Char)
  | tag (words : List Word)

/-- The words of a tag, backwards, with the one that ends here. -/
def closeWord (words : List Word) (front : List Char) : List Word :=
  if front.isEmpty then words else .bare front.reverse :: words

mutual
/-- The chunks of a template, from inside a text. A stray pair of closing braces is text, and so are opening ones
behind a single backslash, which itself is dropped. Of several backslashes in front of a tag one is dropped. -/
def chunksInText (front : List Char) : List Char → Option (List Chunk)
  | [] => some [.text front.reverse]
  | '\x7b' :: '\x7b' :: rest =>
    match front with
    | '\\' :: '\\' :: front => (chunksInTag [] [] rest).map (.text ('\\' :: front).reverse :: ·)
    | '\\' :: front =>
      match rest with
      | '\x7b' :: '\x7b' :: rest => chunksInText ('\x7b' :: '\x7b' :: '\x7b' :: '\x7b' :: front) rest
      | rest => chunksInText ('\x7b' :: '\x7b' :: front) rest
    | front => (chunksInTag [] [] rest).map (.text front.reverse :: ·)
  | c :: rest => chunksInText (c :: front) rest

/-- From inside a tag, which has to be closed. -/
def chunksInTag (words : List Word) (front : List Char) : List Char → Option (List Chunk)
  | [] => none
  | '\x7d' :: '\x7d' :: rest => (chunksInText [] rest).map (.tag (closeWord words front).reverse :: ·)
  | c :: rest =>
    if c = '"' ∨ c = '\x27' then chunksInQuotes (closeWord words front) c [] rest
    else if isSpace c then chunksInTag (closeWord words front) [] rest
    else chunksInTag words (c :: front) rest

/-- From inside a quoted word. -/
def chunksInQuotes (words : List Word) (mark : Char) (front : List Char) : List Char → Option (List Chunk)
  | [] => none
  | '\\' :: c :: rest => chunksInQuotes words mark (c :: '\\' :: front) rest
  | c :: rest =>
    if c = mark then chunksInTag (.quoted mark front.reverse :: words) [] rest
    else chunksInQuotes words mark (c :: front) rest
end

def otherPart? (indent cs : List Char) : Option Part :=
  if !cs.isEmpty && cs.all fun c => isNameChar c || c = '.' || c = '/' then
    some (.other (String.ofList cs) indent)
  else none

/-- No tag is an `else`, be it alone, in front of a name or run together with one. -/
def isElse : List Word → Bool
  | .bare ('e' :: 'l' :: 's' :: 'e' :: cs) :: words =>
    match cs, words with
    | [], [] => true
    | [], .bare next :: _ => next.all isNameChar
    | [], _ => false
    | cs, _ => cs.all isNameChar
  | _ => false

def part? (indent : List Char) (words : List Word) : Option Part :=
  if isElse words then none
  else
    match words with
    | [.bare ['>'], .bare cs] => otherPart? indent cs
    | [.bare ('>' :: cs)] => otherPart? indent cs
    | [.bare cs] => (path? cs).map .value
    | .bare helper :: words => do return .call (← name? helper) (← words.mapM Word.argument?)
    | _ => none

def isTab (c : Char) : Bool :=
  c = ' ' || c = '\t'

def isBreak (c : Char) : Bool :=
  c = '\n' || c = '\r'

/-- The tabs and spaces at the end of a text. -/
def trailingTabs (cs : List Char) : List Char :=
  (cs.reverse.takeWhile isTab).reverse

/-- Nothing but tabs and spaces stands on the line where a text ends, `before` telling the same of where it starts. -/
def endsAtLineStart (before : Bool) (cs : List Char) : Bool :=
  match cs.reverse.dropWhile isTab with
  | [] => before
  | c :: _ => isBreak c

/-- The line ends before anything stands on it. -/
def breaksFirst : List Chunk → Bool
  | .text cs :: _ => (cs.dropWhile isTab).head?.any isBreak
  | _ => false

def dropLineBreak (cs : List Char) : List Char :=
  match cs.dropWhile isTab with
  | '\n' :: rest | '\r' :: '\n' :: rest => rest
  | rest => rest

/-- The parts of a list of chunks, `indent` standing right before them. A tag for another template that has its line
to itself takes the line break with it, because the other template brings its own lines. -/
def parts? (indent : List Char) (atLineStart swallow : Bool) : List Chunk → Option Template
  | [] => some []
  | .text cs :: rest => do
    let parts ← parts? (trailingTabs cs) (endsAtLineStart atLineStart cs) false rest
    return .text (if swallow then dropLineBreak cs else cs) :: parts
  | .tag words :: rest => do
    let part ← part? indent words
    let parts ← parts? [] false (atLineStart && part.isOther && breaksFirst rest) rest
    return part :: parts

def ofText? (text : String) : Option Template := do
  parts? [] true false (← chunksInText [] text.toList)

end SceneCode.Template
