import SceneCode.Style.Run
import SceneCode.Text.Lines
import SceneCode.Text.Quoted

/-! Tags, plain or in JSX. Every element starts with a line break. -/
namespace SceneCode.Markup

def openTag (tag attributes : String) (name : Option String) : String :=
  "<" ++ tag ++ (if attributes.isEmpty then "" else " " ++ attributes) ++
  match name with
  | some name => " data-layer=\"" ++ Text.escapeAttribute name ++ "\""
  | none => ""

/-- Without children an element closes itself in JSX and has an end tag otherwise. -/
def element (jsx : Bool) (attributes : String) (name : Option String) (children : List String) : String :=
  let tag := openTag "div" attributes name
  if children.isEmpty then
    if jsx then "\n" ++ tag ++ " />" else "\n" ++ tag ++ "></div>"
  else "\n" ++ tag ++ ">" ++ String.join (children.map Text.indent) ++ "\n</div>"

def image (attributes : String) (name : Option String) (source : String) : String :=
  "\n" ++ openTag "img" attributes name ++ " src=\"" ++ Text.escapeAttribute source ++ "\" />"

def span (attributes content : String) : String :=
  openTag "span" attributes none ++ ">" ++ content ++ "</span>"

/-- A single run without styles of its own is the text itself. -/
def content (jsx : Bool) (attributes : Styles → String) (runs : List Run) : String :=
  match runs with
  | [⟨text, none⟩] => Text.escapeMarkup jsx text
  | runs => String.join (runs.map fun run =>
      span ((run.styles.map attributes).getD "") (Text.escapeMarkup jsx run.text))

/-- Text stands on the line of its tag. -/
def text (jsx : Bool) (attributes : Styles → String) (name : Option String) (styles : Styles)
    (runs : List Run) : String :=
  "\n" ++ openTag "div" (attributes styles) name ++ ">" ++ content jsx attributes runs ++ "</div>"

end SceneCode.Markup
