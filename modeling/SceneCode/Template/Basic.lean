import SceneCode.Json.Value

namespace SceneCode

/-- What a helper is called with: a value that is written out, or the way to one in the data. -/
inductive Template.Argument where
  | literal (value : Json)
  | path (keys : List String)

inductive Template.Part where
  | text (chars : List Char)
  /-- The value at the end of a path, or what a helper of that name gives without arguments. -/
  | value (path : List String)
  | call (helper : String) (arguments : List Argument)
  /-- Another template, looked up when this one is rendered, and the blanks in front of the tag. -/
  | other (name : String) (indent : List Char)

abbrev Template := List Template.Part

namespace Template

inductive Error where
  | notFound (name : String)
  | invalid
  | failed
deriving DecidableEq

def Error.message? : Error → Option String
  | .notFound name => some ("Template not found: " ++ name)
  | .invalid | .failed => none

def Part.isOther : Part → Bool
  | .other .. => true
  | _ => false

end Template
end SceneCode
