import SceneCode.Target.Basic
import SceneCode.Text.Blank

namespace SceneCode

inductive Framework where
  | html
  | tailwind
  | flutter
  | swiftUI
deriving DecidableEq

namespace Framework

def all : List Framework := [.html, .tailwind, .flutter, .swiftUI]

def name : Framework → String
  | .html => "HTML"
  | .tailwind => "Tailwind"
  | .flutter => "Flutter"
  | .swiftUI => "SwiftUI"

/-- Written with elements and attributes. -/
def isMarkup : Framework → Bool
  | .html | .tailwind => true
  | .flutter | .swiftUI => false

end Framework

/-- What Flutter code is wrapped in. -/
inductive FlutterMode where
  | snippet
  | stateless
  | fullApp
deriving DecidableEq

def FlutterMode.all : List FlutterMode := [.snippet, .stateless, .fullApp]

def FlutterMode.name : FlutterMode → String
  | .snippet => "snippet"
  | .stateless => "stateless"
  | .fullApp => "fullApp"

/-- What SwiftUI code is wrapped in. -/
inductive SwiftUIMode where
  | snippet
  | viewStruct
  | preview
deriving DecidableEq

def SwiftUIMode.all : List SwiftUIMode := [.snippet, .viewStruct, .preview]

def SwiftUIMode.name : SwiftUIMode → String
  | .snippet => "snippet"
  | .viewStruct => "struct"
  | .preview => "preview"

structure Settings where
  framework : Framework := .html
  /-- `className` and style objects in place of `class` and style strings. -/
  jsx : Bool := false
  /-- Follow the hints of frames that declare no layout. -/
  optimizeLayout : Bool := true
  showLayerNames : Bool := false
  roundTailwindValues : Bool := false
  roundTailwindColors : Bool := false
  customTailwindPrefix : Option String := none
  flutterMode : FlutterMode := .snippet
  swiftUIMode : SwiftUIMode := .snippet
deriving DecidableEq

namespace Settings

/-- A blank class mark is none. -/
def classPrefix? (s : Settings) : Option String :=
  s.customTailwindPrefix.filter fun p => !(Text.trim p.toList).isEmpty

def tailwindOptions (s : Settings) : Tailwind.Options :=
  ⟨s.roundTailwindValues, s.roundTailwindColors⟩

/-- JSX is for markup that is kept as code. A preview is shown as it is. -/
def writesJsx (s : Settings) (preview : Bool) : Bool :=
  s.jsx && !preview && s.framework.isMarkup

def target (s : Settings) (preview : Bool) : Target :=
  match s.framework with
  | .html => .html (s.writesJsx preview)
  | .tailwind => .tailwind (s.writesJsx preview) s.tailwindOptions
  | .flutter => .flutter
  | .swiftUI => .swiftUI

end Settings

def Target.framework : Target → Framework
  | .html _ => .html
  | .tailwind .. => .tailwind
  | .flutter => .flutter
  | .swiftUI => .swiftUI

end SceneCode
