import SceneCode.Scene.Node

namespace SceneCode

def Rgb.toJson (c : Rgb) : Json :=
  .object [("r", .real c.r), ("g", .real c.g), ("b", .real c.b)]

def Rgba.toJson (c : Rgba) : Json :=
  .object [("r", .real c.r), ("g", .real c.g), ("b", .real c.b), ("a", .real c.a)]

def Point.toJson (p : Point Float) : Json :=
  .object [("x", .real p.x), ("y", .real p.y)]

def ColorStop.toJson (s : ColorStop) : Json :=
  .object [("position", .real s.position), ("color", s.color.toJson)]

def Transform.toJson (t : Transform) : Json :=
  .array [.array [.real t.a, .real t.c, .real t.e], .array [.real t.b, .real t.d, .real t.f]]

def GradientKind.name : GradientKind → String
  | .linear => "GRADIENT_LINEAR"
  | .radial => "GRADIENT_RADIAL"
  | .angular => "GRADIENT_ANGULAR"
  | .diamond => "GRADIENT_DIAMOND"

def Json.ofOption {α : Type} (write : α → Json) : Option α → Json
  | none => .null
  | some a => write a

def Paint.toJson : Paint → Json
  | .solid p => .object [("type", .string "SOLID"), ("color", p.color.toJson),
      ("opacity", .real p.opacity), ("visible", .bool p.visible)]
  | .gradient kind p => .object [("type", .string kind.name),
      ("gradientStops", .array (p.stops.map ColorStop.toJson)),
      ("gradientTransform", p.transform.toJson),
      ("opacity", .real p.opacity), ("visible", .bool p.visible)]
  | .image p => .object [("type", .string "IMAGE"), ("scaleMode", Named.toJson p.scaleMode),
      ("imageHash", Json.ofOption .string p.imageHash),
      ("opacity", .real p.opacity), ("visible", .bool p.visible)]
  | .unknown => .object [("type", .string "UNKNOWN")]

def ShadowEffect.toJson (kind : String) (s : ShadowEffect) : Json :=
  .object [("type", .string kind), ("color", s.color.toJson), ("offset", s.offset.toJson),
    ("radius", .real s.radius), ("spread", .real s.spread), ("visible", .bool s.visible)]

def BlurEffect.toJson (kind : String) (b : BlurEffect) : Json :=
  .object [("type", .string kind), ("radius", .real b.radius), ("visible", .bool b.visible)]

def Effect.toJson : Effect → Json
  | .dropShadow s => s.toJson "DROP_SHADOW"
  | .innerShadow s => s.toJson "INNER_SHADOW"
  | .layerBlur b => b.toJson "LAYER_BLUR"
  | .backgroundBlur b => b.toJson "BACKGROUND_BLUR"
  | .unknown => .object [("type", .string "UNKNOWN")]

def CornerRadii.toJson (c : CornerRadii) : Json :=
  .object [("topLeft", .real c.topLeft), ("topRight", .real c.topRight),
    ("bottomRight", .real c.bottomRight), ("bottomLeft", .real c.bottomLeft)]

def Base.toFields (b : Base) : List (String × Json) := [
  ("id", .string b.id), ("name", .string b.name), ("visible", .bool b.visible),
  ("x", .real b.x), ("y", .real b.y), ("width", .real b.width), ("height", .real b.height),
  ("rotation", .real b.rotation), ("opacity", .real b.opacity),
  ("fills", .array (b.fills.map Paint.toJson)), ("strokes", .array (b.strokes.map Paint.toJson)),
  ("strokeWeight", .real b.strokeWeight), ("strokeAlign", Named.toJson b.strokeAlign),
  ("cornerRadii", b.cornerRadii.toJson), ("effects", .array (b.effects.map Effect.toJson)),
  ("layoutAlign", Named.toJson b.layoutAlign), ("layoutGrow", .real b.layoutGrow)]

def Direction.modeName : Option Direction → String
  | none => "NONE"
  | some .row => "HORIZONTAL"
  | some .column => "VERTICAL"

def MainAlign.propertyName : MainAlign → String
  | .start => "MIN"
  | .center => "CENTER"
  | .finish => "MAX"
  | .between => "SPACE_BETWEEN"

def CrossAlign.propertyName : CrossAlign → String
  | .start => "MIN"
  | .center => "CENTER"
  | .finish => "MAX"
  | .baseline => "BASELINE"

def sizingName (hugs : Bool) : String :=
  if hugs then "AUTO" else "FIXED"

def AutoLayout.toFields (l : AutoLayout) : List (String × Json) := [
  ("layoutMode", .string (Direction.modeName l.mode)),
  ("layoutWrap", .string (if l.wrap then "WRAP" else "NO_WRAP")),
  ("itemSpacing", .real l.gap),
  ("paddingLeft", .real l.padding.left), ("paddingRight", .real l.padding.right),
  ("paddingTop", .real l.padding.top), ("paddingBottom", .real l.padding.bottom),
  ("primaryAxisAlignItems", .string l.main.propertyName),
  ("counterAxisAlignItems", .string l.cross.propertyName),
  ("primaryAxisSizingMode", .string (sizingName l.hugPrimary)),
  ("counterAxisSizingMode", .string (sizingName l.hugCounter))]

def AutoLayout.toJson (l : AutoLayout) : Json :=
  .object l.toFields

def LineHeight.toJson : LineHeight → Json
  | .auto => .object [("unit", .string "AUTO")]
  | .pixels value => .object [("unit", .string "PIXELS"), ("value", .real value)]
  | .percent value => .object [("unit", .string "PERCENT"), ("value", .real value)]

def TextRun.toJson (r : TextRun) : Json :=
  .object [("characters", .string r.characters),
    ("fontName", .object [("family", .string r.fontName.family), ("style", .string r.fontName.style)]),
    ("fontSize", .real r.fontSize), ("fontWeight", .integer r.fontWeight.toNat),
    ("textDecoration", Named.toJson r.decoration), ("textCase", Named.toJson r.textCase),
    ("letterSpacing", .object [("value", .real r.letterSpacing.value),
      ("unit", Named.toJson r.letterSpacing.unit)]),
    ("lineHeight", r.lineHeight.toJson), ("fills", .array (r.fills.map Paint.toJson))]

def TextBox.toFields (t : TextBox) : List (String × Json) := [
  ("characters", .string t.characters), ("segments", .array (t.runs.map TextRun.toJson)),
  ("textAlignHorizontal", Named.toJson t.horizontal), ("textAlignVertical", Named.toJson t.vertical),
  ("textAutoResize", Named.toJson t.autoResize)]

mutual
/-- The fields of a node without its kind. -/
def Node.toFields : Node → List (String × Json)
  | .frame base layout hint clips children =>
    base.toFields ++ layout.toFields ++ [("inferredAutoLayout", Json.ofOption AutoLayout.toJson hint),
      ("clipsContent", .bool clips), ("children", .array (Node.listToJson children))]
  | .group base children => base.toFields ++ [("children", .array (Node.listToJson children))]
  | .shape _ base => base.toFields
  | .text base box => base.toFields ++ box.toFields
  | .unknown => []

def Node.toJson (node : Node) : Json :=
  .object (("type", .string node.kind) :: node.toFields)

def Node.listToJson : List Node → List Json
  | [] => []
  | node :: nodes => node.toJson :: Node.listToJson nodes
end

end SceneCode
