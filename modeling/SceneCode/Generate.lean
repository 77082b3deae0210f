import SceneCode.ClassPrefix
import SceneCode.Element
import SceneCode.Wrap

namespace SceneCode

/-- Code in the language of a target, from the elements that the scene is drawn with. -/
def Target.code (t : Target) (followHints showNames : Bool) (nodes : List Node) : String :=
  let fragments := t.renderAll showNames (t.elements (Scene.pieces followHints nodes))
  match (String.join fragments).toList with
  | '\n' :: rest => String.ofList rest
  | cs => String.ofList cs

/-- Code without anything around it. -/
def generate (s : Settings) (preview : Bool) (nodes : List Node) : String :=
  (s.target preview).code s.optimizeLayout s.showLayerNames nodes

/-- Plain HTML, whatever the framework is. -/
def generatePreview (s : Settings) (nodes : List Node) : String :=
  generate { s with framework := .html } true nodes

/-- The first visible node gives the code its name. -/
def Scene.title (nodes : List Node) : String :=
  (((nodes.filter (·.visible)).findSome? (·.base?)).map (·.name)).getD ""

/-- Tailwind code with its class mark. -/
def generateMarked (s : Settings) (nodes : List Node) : String :=
  let code := generate s false nodes
  match s.framework, s.classPrefix? with
  | .tailwind, some mark => ClassPrefix.apply mark code
  | _, _ => code

/-- Code as it is kept: with its class mark, and in the file that the mode asks for. -/
def generateCode (s : Settings) (nodes : List Node) : String :=
  let code := generateMarked s nodes
  match Wrap.wrap s (Scene.title nodes) code with
  | .ok wrapped => wrapped
  | .error _ => code

end SceneCode
