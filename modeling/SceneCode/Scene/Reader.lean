import SceneCode.Json.Reader
import SceneCode.Scene.Node

/-! Scenes read from JSON values. Unknown fields are passed over, absent ones take defaults, and unknown kinds stand
for a neutral variant. -/
namespace SceneCode
open Json (Fault)

def Rgb.ofJson (json : Json) : Except Fault Rgb := do
  let o ← json.record ["r", "g", "b"]
  let r ← o.find Json.number "r"
  let g ← o.find Json.number "g"
  let b ← o.find Json.number "b"
  return ⟨← o.need "r" r, ← o.need "g" g, ← o.need "b" b⟩

def Rgba.ofJson (json : Json) : Except Fault Rgba := do
  let o ← json.record ["r", "g", "b", "a"]
  let r ← o.find Json.number "r"
  let g ← o.find Json.number "g"
  let b ← o.find Json.number "b"
  let a ← o.findD Json.number "a" 1
  return ⟨← o.need "r" r, ← o.need "g" g, ← o.need "b" b, a⟩

def Point.ofJson (json : Json) : Except Fault (Point Float) := do
  let o ← json.record ["x", "y"]
  let x ← o.find Json.number "x"
  let y ← o.find Json.number "y"
  return ⟨← o.need "x" x, ← o.need "y" y⟩

def ColorStop.ofJson (json : Json) : Except Fault ColorStop := do
  let o ← json.record ["position", "color"]
  let position ← o.find Json.number "position"
  let color ← o.find Rgba.ofJson "color"
  return ⟨← o.need "position" position, ← o.need "color" color⟩

def Transform.ofJson : Json → Except Fault Transform
  | .array [.array [a, c, e], .array [b, d, f]] => do
    return ⟨← a.number, ← c.number, ← e.number, ← b.number, ← d.number, ← f.number⟩
  | _ => .error .mistyped

def SolidPaint.ofJson (json : Json) : Except Fault SolidPaint := do
  let o ← json.record ["color", "opacity", "visible"]
  let color ← o.find Rgb.ofJson "color"
  let opacity ← o.findD Json.number "opacity" 1
  let visible ← o.findD Json.flag "visible" true
  return ⟨← o.need "color" color, opacity, visible⟩

def GradientPaint.ofJson (json : Json) : Except Fault GradientPaint := do
  let o ← json.record ["gradientStops", "gradientTransform", "opacity", "visible"]
  let stops ← o.find (Json.list ColorStop.ofJson) "gradientStops"
  let transform ← o.findD Transform.ofJson "gradientTransform" {}
  let opacity ← o.findD Json.number "opacity" 1
  let visible ← o.findD Json.flag "visible" true
  return ⟨← o.need "gradientStops" stops, transform, opacity, visible⟩

def ImagePaint.ofJson (json : Json) : Except Fault ImagePaint := do
  let o ← json.record ["scaleMode", "imageHash", "opacity", "visible"]
  let scaleMode ← o.findD Named.ofJson "scaleMode" .fill
  let imageHash ← o.findD (Json.nullable Json.text) "imageHash" none
  let opacity ← o.findD Json.number "opacity" 1
  let visible ← o.findD Json.flag "visible" true
  return ⟨scaleMode, imageHash, opacity, visible⟩

inductive PaintKind where
  | solid
  | gradient (kind : GradientKind)
  | image
  | unknown
deriving DecidableEq

def PaintKind.ofName : String → PaintKind
  | "SOLID" => .solid
  | "GRADIENT_LINEAR" => .gradient .linear
  | "GRADIENT_RADIAL" => .gradient .radial
  | "GRADIENT_ANGULAR" => .gradient .angular
  | "GRADIENT_DIAMOND" => .gradient .diamond
  | "IMAGE" => .image
  | _ => .unknown

def PaintKind.kinds : Json.Kinds PaintKind where
  ofName := ofName
  order := [.solid, .gradient .linear, .gradient .radial, .gradient .angular, .gradient .diamond, .image]
  other := .unknown

def Paint.ofJson (inside : Bool) (json : Json) : Except Fault Paint := do
  let (kind, rest) ← json.tagged "type" PaintKind.kinds inside
  match kind with
  | .solid => return .solid (← SolidPaint.ofJson rest)
  | .gradient kind => return .gradient kind (← GradientPaint.ofJson rest)
  | .image => return .image (← ImagePaint.ofJson rest)
  | .unknown => do
    rest.noFields
    return .unknown

def ShadowEffect.ofJson (json : Json) : Except Fault ShadowEffect := do
  let o ← json.record ["color", "offset", "radius", "spread", "visible"]
  let color ← o.find Rgba.ofJson "color"
  let offset ← o.findD Point.ofJson "offset" ⟨0, 0⟩
  let radius ← o.findD Json.number "radius" 0
  let spread ← o.findD Json.number "spread" 0
  let visible ← o.findD Json.flag "visible" true
  return ⟨← o.need "color" color, offset, radius, spread, visible⟩

def BlurEffect.ofJson (json : Json) : Except Fault BlurEffect := do
  let o ← json.record ["radius", "visible"]
  let radius ← o.find Json.number "radius"
  let visible ← o.findD Json.flag "visible" true
  return ⟨← o.need "radius" radius, visible⟩

inductive EffectKind where
  | dropShadow
  | innerShadow
  | layerBlur
  | backgroundBlur
  | unknown
deriving DecidableEq

def EffectKind.ofName : String → EffectKind
  | "DROP_SHADOW" => .dropShadow
  | "INNER_SHADOW" => .innerShadow
  | "LAYER_BLUR" => .layerBlur
  | "BACKGROUND_BLUR" => .backgroundBlur
  | _ => .unknown

def EffectKind.kinds : Json.Kinds EffectKind where
  ofName := ofName
  order := [.dropShadow, .innerShadow, .layerBlur, .backgroundBlur]
  other := .unknown

def Effect.ofJson (json : Json) : Except Fault Effect := do
  let (kind, rest) ← json.tagged "type" EffectKind.kinds true
  match kind with
  | .dropShadow => return .dropShadow (← ShadowEffect.ofJson rest)
  | .innerShadow => return .innerShadow (← ShadowEffect.ofJson rest)
  | .layerBlur => return .layerBlur (← BlurEffect.ofJson rest)
  | .backgroundBlur => return .backgroundBlur (← BlurEffect.ofJson rest)
  | .unknown => do
    rest.noFields
    return .unknown

def CornerRadii.ofJson (json : Json) : Except Fault CornerRadii := do
  let o ← json.record ["topLeft", "topRight", "bottomRight", "bottomLeft"]
  return ⟨← o.findD Json.number "topLeft" 0, ← o.findD Json.number "topRight" 0,
    ← o.findD Json.number "bottomRight" 0, ← o.findD Json.number "bottomLeft" 0⟩

def paintsOfJson : Json → Except Fault (List Paint) :=
  Json.list (Paint.ofJson true)

def Base.ofRecord (o : Json.Record) : Except Fault Base := do
  return {
    id := ← o.findD Json.text "id" ""
    name := ← o.findD Json.text "name" ""
    visible := ← o.findD Json.flag "visible" true
    x := ← o.findD Json.number "x" 0
    y := ← o.findD Json.number "y" 0
    width := ← o.findD Json.number "width" 0
    height := ← o.findD Json.number "height" 0
    rotation := ← o.findD Json.number "rotation" 0
    opacity := ← o.findD Json.number "opacity" 1
    fills := ← o.findD paintsOfJson "fills" []
    strokes := ← o.findD paintsOfJson "strokes" []
    strokeWeight := ← o.findD Json.number "strokeWeight" 0
    strokeAlign := ← o.findD Named.ofJson "strokeAlign" .inside
    cornerRadii := ← o.findD CornerRadii.ofJson "cornerRadii" {}
    effects := ← o.findD (Json.list Effect.ofJson) "effects" []
    layoutAlign := ← o.findD Named.ofJson "layoutAlign" .inherit
    layoutGrow := ← o.findD Json.number "layoutGrow" 0
  }

def directionOfJson : Json → Except Fault (Option Direction) :=
  Json.choice [("HORIZONTAL", some .row), ("VERTICAL", some .column)] none

def wrapOfJson : Json → Except Fault Bool :=
  Json.choice [("WRAP", true)] false

def mainAlignOfJson : Json → Except Fault MainAlign :=
  Json.choice [("CENTER", .center), ("MAX", .finish), ("SPACE_BETWEEN", .between)] .start

def crossAlignOfJson : Json → Except Fault CrossAlign :=
  Json.choice [("CENTER", .center), ("MAX", .finish), ("BASELINE", .baseline)] .start

def hugOfJson : Json → Except Fault Bool :=
  Json.choice [("AUTO", true)] false

def AutoLayout.ofRecord (o : Json.Record) : Except Fault AutoLayout := do
  return {
    mode := ← o.findD directionOfJson "layoutMode" none
    wrap := ← o.findD wrapOfJson "layoutWrap" false
    gap := ← o.findD Json.number "itemSpacing" 0
    padding := {
      left := ← o.findD Json.number "paddingLeft" 0
      right := ← o.findD Json.number "paddingRight" 0
      top := ← o.findD Json.number "paddingTop" 0
      bottom := ← o.findD Json.number "paddingBottom" 0 }
    main := ← o.findD mainAlignOfJson "primaryAxisAlignItems" .start
    cross := ← o.findD crossAlignOfJson "counterAxisAlignItems" .start
    hugPrimary := ← o.findD hugOfJson "primaryAxisSizingMode" false
    hugCounter := ← o.findD hugOfJson "counterAxisSizingMode" false
  }

def AutoLayout.ofJson (json : Json) : Except Fault AutoLayout := do
  AutoLayout.ofRecord (← json.record ["layoutMode", "layoutWrap", "itemSpacing", "paddingLeft",
    "paddingRight", "paddingTop", "paddingBottom", "primaryAxisAlignItems", "counterAxisAlignItems",
    "primaryAxisSizingMode", "counterAxisSizingMode"])

def LetterSpacing.ofJson (json : Json) : Except Fault LetterSpacing := do
  let o ← json.record ["value", "unit"]
  return ⟨← o.findD Json.number "value" 0, ← o.findD Named.ofJson "unit" .pixels⟩

inductive LineHeightKind where
  | pixels
  | percent
  | auto
deriving DecidableEq

def LineHeightKind.ofName : String → LineHeightKind
  | "PIXELS" => .pixels
  | "PERCENT" => .percent
  | _ => .auto

def LineHeightKind.kinds : Json.Kinds LineHeightKind where
  ofName := ofName
  order := [.pixels, .percent]
  other := .auto

def LineHeight.valueOfJson (json : Json) : Except Fault Float := do
  let o ← json.record ["value"]
  o.need "value" (← o.find Json.number "value")

def LineHeight.ofJson (json : Json) : Except Fault LineHeight := do
  let (kind, rest) ← json.tagged "unit" LineHeightKind.kinds true
  match kind with
  | .pixels => return .pixels (← valueOfJson rest)
  | .percent => return .percent (← valueOfJson rest)
  | .auto => do
    rest.noFields
    return .auto

def FontName.ofJson (json : Json) : Except Fault FontName := do
  let o ← json.record ["family", "style"]
  let family ← o.find Json.text "family"
  let style ← o.findD Json.text "style" "Regular"
  return ⟨← o.need "family" family, style⟩

/-- A weight is an integer of 16 bits. -/
def weightOfJson : Json → Except Fault UInt16
  | .integer (.ofNat n) => if n < Nat.pow 2 16 then .ok (UInt16.ofNat n) else .error .mistyped
  | _ => .error .mistyped

def TextRun.ofJson (json : Json) : Except Fault TextRun := do
  let o ← json.record ["characters", "fontName", "fontSize", "fontWeight", "textDecoration", "textCase",
    "letterSpacing", "lineHeight", "fills"]
  let characters ← o.find Json.text "characters"
  let fontName ← o.findD FontName.ofJson "fontName" {}
  let fontSize ← o.findD Json.number "fontSize" 14
  let fontWeight ← o.findD weightOfJson "fontWeight" 400
  let decoration ← o.findD Named.ofJson "textDecoration" .none
  let textCase ← o.findD Named.ofJson "textCase" .asWritten
  let letterSpacing ← o.findD LetterSpacing.ofJson "letterSpacing" {}
  let lineHeight ← o.findD LineHeight.ofJson "lineHeight" .auto
  let fills ← o.findD paintsOfJson "fills" []
  return ⟨← o.need "characters" characters, fontName, fontSize, fontWeight, decoration, textCase,
    letterSpacing, lineHeight, fills⟩

def TextBox.ofRecord (o : Json.Record) : Except Fault TextBox := do
  return {
    characters := ← o.findD Json.text "characters" ""
    runs := ← o.findD (Json.list TextRun.ofJson) "segments" []
    horizontal := ← o.findD Named.ofJson "textAlignHorizontal" .left
    vertical := ← o.findD Named.ofJson "textAlignVertical" .top
    autoResize := ← o.findD Named.ofJson "textAutoResize" .none
  }

inductive NodeKind where
  | frame
  | group
  | shape (kind : ShapeKind)
  | text
  | unknown
deriving DecidableEq

def NodeKind.ofName : String → NodeKind
  | "FRAME" | "COMPONENT" | "COMPONENT_SET" | "INSTANCE" => .frame
  | "GROUP" => .group
  | "RECTANGLE" => .shape .rectangle
  | "ELLIPSE" => .shape .ellipse
  | "TEXT" => .text
  | "LINE" => .shape .line
  | "VECTOR" | "STAR" | "POLYGON" | "BOOLEAN_OPERATION" => .shape .vector
  | _ => .unknown

def NodeKind.kinds : Json.Kinds NodeKind where
  ofName := ofName
  order := [.frame, .group, .shape .rectangle, .shape .ellipse, .text, .shape .line, .shape .vector]
  other := .unknown

mutual
/-- A node of a known kind is an object. The nodes of a scene are outside, all others inside another value. -/
def Node.ofJson (inside : Bool) : Json → Except Fault Node
  | .object fields => do
    let (kind, _) ← Json.tagged "type" NodeKind.kinds inside (.object fields)
    let o : Json.Record := ⟨fields, false⟩
    match kind with
    | .frame => do
      let base ← Base.ofRecord o
      let layout ← AutoLayout.ofRecord o
      let hint ← o.findD (Json.nullable AutoLayout.ofJson) "inferredAutoLayout" none
      let clips ← o.findD Json.flag "clipsContent" false
      return .frame base layout hint clips (← Node.childrenOfFields fields)
    | .group => return .group (← Base.ofRecord o) (← Node.childrenOfFields fields)
    | .shape kind => return .shape kind (← Base.ofRecord o)
    | .text => return .text (← Base.ofRecord o) (← TextBox.ofRecord o)
    | .unknown => return .unknown
  | .array items => do
    match ← Json.tagged "type" NodeKind.kinds inside (.array items) with
    | (.unknown, rest) => do
      rest.noFields
      return .unknown
    | _ => .error .mistyped
  | _ => .error .mistyped

def Node.childrenOfFields : List (String × Json) → Except Fault (List Node)
  | [] => .ok []
  | (key, value) :: fields =>
    if key = "children" then Node.childrenOfJson value else Node.childrenOfFields fields

def Node.childrenOfJson : Json → Except Fault (List Node)
  | .array items => Node.listOfJson true items
  | _ => .error .mistyped

def Node.listOfJson (inside : Bool) : List Json → Except Fault (List Node)
  | [] => .ok []
  | json :: jsons => do return (← Node.ofJson inside json) :: (← Node.listOfJson inside jsons)
end

namespace Scene

/-- The nodes of a scene. -/
inductive LoadError where
  | json (fault : Fault)
  | noNode (found : String)
deriving DecidableEq

/-- Only a missing field has a wording of its own. -/
def LoadError.message? : LoadError → Option String
  | .json (.missing field) => some ("Malformed scene JSON: missing field `" ++ field ++ "`")
  | .json _ => none
  | .noNode found =>
    some ("Invalid scene document: expected a node or an array of nodes, found " ++ found)

/-- How deep the brackets of a document may nest. -/
def maxDepth : Nat := 127

/-- One node or an array of nodes. -/
def ofJson? (json : Json) : Except LoadError (List Node) :=
  match json with
  | .array items => (Node.listOfJson false items).mapError .json
  | .object fields => ((Node.ofJson false (.object fields)).map ([·])).mapError .json
  | .null => .error (.noNode "null")
  | .bool _ => .error (.noNode "a boolean")
  | .integer _ | .real _ => .error (.noNode "a number")
  | .string _ => .error (.noNode "a string")

def ofText? (text : String) : Except LoadError (List Node) := do
  ofJson? (← (Json.ofText? maxDepth text).mapError .json)

end Scene
end SceneCode
