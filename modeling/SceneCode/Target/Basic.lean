import SceneCode.Target.Flutter
import SceneCode.Target.Html
import SceneCode.Target.SwiftUI
import SceneCode.Target.Tailwind

namespace SceneCode

inductive Target where
  | html (jsx : Bool)
  | tailwind (jsx : Bool) (options : Tailwind.Options)
  | flutter
  | swiftUI
deriving DecidableEq

namespace Target

def color : Target → Rgb → Float → String
  | .html _ => Html.color
  | .tailwind _ options => Tailwind.color options
  | .flutter => Flutter.color
  | .swiftUI => SwiftUI.color

def gradient : Target → LinearGradient → String
  | .html _ => Html.gradient
  | .tailwind _ options => Tailwind.gradient options
  | .flutter => Flutter.gradient
  | .swiftUI => SwiftUI.gradient

def declarations : Target → Aspect → List Declaration
  | .html _ => Html.declarations
  | .tailwind _ options => Tailwind.declarations options
  | .flutter => Flutter.declarations
  | .swiftUI => SwiftUI.declarations

/-- Markup has styles for case, the other targets change the text. -/
def textContent (t : Target) (case_ : TextCase) (text : String) : String :=
  match t with
  | .html _ | .tailwind .. => text
  | .flutter | .swiftUI => case_.apply text

section
variable (jsx : Bool) (options : Tailwind.Options) (case_ : TextCase) (content : String)

@[simp] theorem textContent_html : textContent (.html jsx) case_ content = content := rfl

@[simp] theorem textContent_tailwind : textContent (.tailwind jsx options) case_ content = content := rfl

@[simp] theorem textContent_flutter : textContent .flutter case_ content = case_.apply content := rfl

@[simp] theorem textContent_swiftUI : textContent .swiftUI case_ content = case_.apply content := rfl

end

def attributes : Target → Styles → String
  | .html jsx => Html.attributes jsx
  | .tailwind jsx _ => Tailwind.attributes jsx
  | .flutter => Flutter.attributes
  | .swiftUI => SwiftUI.attributes

/-- Children are fragments, as the result is: each starts with a line break. -/
def container (t : Target) (name : Option String) (s : Styles) (children : List String) : String :=
  match t with
  | .html jsx | .tailwind jsx _ => Markup.element jsx (t.attributes s) name children
  | .flutter => Flutter.container name s children
  | .swiftUI => SwiftUI.container name s children

def image (t : Target) (name : Option String) (s : Styles) (source : String) : String :=
  match t with
  | .html _ | .tailwind .. => Markup.image (t.attributes s) name source
  | .flutter => Flutter.image name s source
  | .swiftUI => SwiftUI.image name s source

def text (t : Target) (name : Option String) (s : Styles) (runs : List Run) : String :=
  match t with
  | .html jsx | .tailwind jsx _ => Markup.text jsx t.attributes name s runs
  | .flutter => Flutter.textBlock name s runs
  | .swiftUI => SwiftUI.textBlock name s runs

def declare (t : Target) (s : Styles) (a : Aspect) : Styles :=
  s.declareAll (t.declarations a)

/-- The styles of a look. -/
def styles (t : Target) (aspects : List Aspect) : Styles :=
  aspects.foldl t.declare .empty

end Target
end SceneCode
