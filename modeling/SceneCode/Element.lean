import SceneCode.Style.Subject
import SceneCode.Target.Basic

namespace SceneCode

inductive Element where
  | container (name : String) (styles : Styles) (children : List Element)
  | image (name : String) (styles : Styles) (source : String)
  | text (name : String) (styles : Styles) (runs : List Run)

namespace Target

def runStyles (t : Target) (base : Base) (run : TextRun) : Styles :=
  t.styles ((Subject.ofBase base).typography run)

def frameStyles (t : Target) (slot : Slot Float) (base : Base) (flow : Option Flow) (clips hasChildren : Bool) :
    Styles :=
  let s := Subject.ofBase base
  t.styles (s.placement slot (Hug.ofFlow flow) ++ s.shape .box ++ Subject.clip clips ++
    Subject.layout flow hasChildren)

/-- At the top level a group has no box of its own. -/
def groupStyles (t : Target) (slot : Slot Float) (base : Base) : Styles :=
  let s := Subject.ofBase base
  t.styles ((if slot.isTop then s.blend else s.placement slot {}) ++ [.origin])

def shapeStyles (t : Target) (slot : Slot Float) (base : Base) (look : ShapeLook) : Styles :=
  let s := Subject.ofBase base
  t.styles (s.placement slot {} ++ s.shape look)

def lineStyles (t : Target) (slot : Slot Float) (base : Base) : Styles :=
  t.styles (base.bar.placement slot {} ++ base.bar.line)

def blockStyles (t : Target) (slot : Slot Float) (base : Base) (box : TextBox) : Styles :=
  t.styles ((Subject.ofBase base).placement slot (Hug.ofText box) ++ Subject.textAlign box)

/-- A rectangle, ellipse or vector. One that is filled with an image becomes an image. -/
def shapeElement (t : Target) (slot : Slot Float) (base : Base) (ellipse : Bool) : Element :=
  if Fill.isImage base.fills then
    .image base.name (t.shapeStyles slot base .image) (placeholderUrl base.width base.height)
  else .container base.name (t.shapeStyles slot base (if ellipse then .ellipse else .box)) []

/-- One run gives its typography to the element, several runs each keep their own. -/
def textElement (t : Target) (slot : Slot Float) (base : Base) (box : TextBox) : Element :=
  let styles := t.blockStyles slot base box
  let content (run : TextRun) := t.textContent run.textCase run.characters
  match box.shownRuns with
  | [run] => .text base.name (styles.merge (t.runStyles base run)) [⟨content run, none⟩]
  | runs => .text base.name styles (runs.map fun run => ⟨content run, some (t.runStyles base run)⟩)

mutual
def element (t : Target) : Piece Float → Element
  | .frame slot base flow clips children =>
    .container base.name (t.frameStyles slot base flow clips !children.isEmpty) (elements t children)
  | .group slot base children => .container base.name (t.groupStyles slot base) (elements t children)
  | .shape slot base ellipse => t.shapeElement slot base ellipse
  | .line slot base => .container base.name (t.lineStyles slot base) []
  | .text slot base box => t.textElement slot base box

def elements (t : Target) : List (Piece Float) → List Element
  | [] => []
  | piece :: pieces => element t piece :: elements t pieces
end

/-- The name that an element is written with. -/
def label (showNames : Bool) (name : String) : Option String :=
  if showNames && !name.isEmpty then some name else none

mutual
def render (t : Target) (showNames : Bool) : Element → String
  | .container name styles children =>
    t.container (label showNames name) styles (renderAll t showNames children)
  | .image name styles source => t.image (label showNames name) styles source
  | .text name styles runs => t.text (label showNames name) styles runs

def renderAll (t : Target) (showNames : Bool) : List Element → List String
  | [] => []
  | e :: es => render t showNames e :: renderAll t showNames es
end

end Target
end SceneCode
