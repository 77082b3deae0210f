import SceneCode.Style.Aspect
import SceneCode.Style.Run
import SceneCode.Target.Placeholder
import SceneCode.Text.Lines
import SceneCode.Text.Quoted

/-! Widget trees. Styles are kept under the names of arguments, and where an argument goes is settled when the widget
is written: decoration fields share one decoration, placement and blend wrap the widget. -/
namespace SceneCode.Flutter
open Number (text)
open Declaration (set fallbackTo)

/-- An argument without a name goes by its place. -/
def argument (key value : String) : String :=
  "\n  " ++ (if key.isEmpty then "" else key ++ ": ") ++ Text.indent value ++ ","

/-- A constructor call with an argument on each line. -/
def call (name : String) (arguments : List (String × String)) : String :=
  if arguments.isEmpty then name ++ "()"
  else name ++ "(" ++ String.join (arguments.map fun (key, value) => argument key value) ++ "\n)"

/-- A list of fragments that each start with a line break. -/
def list (items : List String) : String :=
  "[" ++ String.join (items.map fun item => Text.indent item ++ ",") ++ "\n]"

def hexByte (x : Float) : String :=
  Rgb.hexByte (Rgb.byte x)

def color (c : Rgb) (opacity : Float) : String :=
  "Color(0x" ++ hexByte opacity ++ c.hex6 ++ ")"

/-- A point of the unit square in the coordinates of an alignment, which run from -1 to 1. -/
def alignment (p : Point Float) : String :=
  "Alignment(" ++ text (p.x * 2 - 1) ++ ", " ++ text (p.y * 2 - 1) ++ ")"

def gradient (g : LinearGradient) : String :=
  let colors := g.stops.map fun s =>
    let (c, opacity) := g.stopColor s
    color c opacity
  call "LinearGradient" [
    ("begin", alignment g.start),
    ("end", alignment g.finish),
    ("colors", "[" ++ ", ".intercalate colors ++ "]"),
    ("stops", "[" ++ ", ".intercalate (g.stops.map (text ·.position)) ++ "]")]

def insets (p : Padding) : String :=
  if p.isUniform then "const EdgeInsets.all(" ++ text p.top ++ ")"
  else if p.isSymmetric then
    "const EdgeInsets.symmetric(horizontal: " ++ text p.left ++ ", vertical: " ++ text p.top ++ ")"
  else
    "const EdgeInsets.only(left: " ++ text p.left ++ ", top: " ++ text p.top ++ ", right: " ++
      text p.right ++ ", bottom: " ++ text p.bottom ++ ")"

def extent (key : String) (primary : Bool) : Extent → List Declaration
  | .fixed length => [set key (text length)]
  | .fill => if primary then [set "flex" "1"] else [set key "double.infinity"]
  | .hug => []

def radiansPerDegree : Float := 3.14159265358979323846 / 180

def background (fill : Fill) (width height : Float) : Declaration :=
  match fill with
  | .solid c opacity => set "color" (color c opacity)
  | .gradient g => set "gradient" (gradient g)
  | .image mode =>
    let fit := match mode with
      | .fit => "BoxFit.contain"
      | .tile => "BoxFit.none"
      | .fill | .crop => "BoxFit.cover"
    set "image" (call "DecorationImage" [
      ("image", "NetworkImage(" ++ Text.dart (placeholderUrl width height) ++ ")"),
      ("fit", fit)])

def strokeAlign : StrokeAlign → String
  | .inside => "BorderSide.strokeAlignInside"
  | .center => "BorderSide.strokeAlignCenter"
  | .outside => "BorderSide.strokeAlignOutside"

def border (s : Stroke) : String :=
  "Border.all(width: " ++ text s.weight ++ ", color: " ++ color s.color s.opacity ++
    ", strokeAlign: " ++ strokeAlign s.align ++ ")"

def circular (r : Float) : String :=
  "Radius.circular(" ++ text r ++ ")"

def radius (r : Radius) (width height : Float) : String :=
  match r with
  | .uniform r => "BorderRadius.circular(" ++ text r ++ ")"
  | .corners c => call "BorderRadius.only" [
      ("topLeft", circular c.topLeft), ("topRight", circular c.topRight),
      ("bottomLeft", circular c.bottomLeft), ("bottomRight", circular c.bottomRight)]
  | .full =>
    "BorderRadius.all(Radius.elliptical(" ++ text (width / 2) ++ ", " ++ text (height / 2) ++ "))"

def shadow (s : Shadow) : String :=
  "\n" ++ call "BoxShadow" ([
    ("color", color s.color s.opacity),
    ("blurRadius", text s.blur),
    ("offset", "Offset(" ++ text s.x ++ ", " ++ text s.y ++ ")"),
    ("spreadRadius", text s.spread)] ++
    (if s.inset then [("blurStyle", "BlurStyle.inner")] else []))

def mainAlign : MainAlign → String
  | .start => "MainAxisAlignment.start"
  | .center => "MainAxisAlignment.center"
  | .finish => "MainAxisAlignment.end"
  | .between => "MainAxisAlignment.spaceBetween"

def crossAlign : CrossAlign → String
  | .start => "CrossAxisAlignment.start"
  | .center => "CrossAxisAlignment.center"
  | .finish => "CrossAxisAlignment.end"
  | .baseline => "CrossAxisAlignment.baseline"

def flow (f : Flow) : List Declaration :=
  [set "layout" (if f.wrap then "Wrap" else match f.direction with
    | .row => "Row"
    | .column => "Column")] ++
  (if f.hugPrimary then [set "mainAxisSize" "MainAxisSize.min"] else []) ++
  [set "mainAxisAlignment" (mainAlign f.main), set "crossAxisAlignment" (crossAlign f.cross)] ++
  (if f.cross = .baseline then [set "textBaseline" "TextBaseline.alphabetic"] else []) ++
  (f.writtenGap?.toList.map fun gap => set "spacing" (text gap)) ++
  (if f.padding.isZero then [] else [set "padding" (insets f.padding)])

/-- The nearest hundred from 100 to 900. -/
def fontWeight (weight : UInt16) : String :=
  let held := max 100 (min 900 weight.toNat)
  "FontWeight.w" ++ toString ((held + 50) / 100 * 100)

def decoration? : TextDecoration → Option String
  | .none => none
  | .underline => some "TextDecoration.underline"
  | .strikethrough => some "TextDecoration.lineThrough"

/-- In pixels. -/
def letterSpacing (run : TextRun) : Float :=
  match run.letterSpacing.unit with
  | .pixels => run.letterSpacing.value
  | .percent => run.letterSpacing.value * run.fontSize / 100

/-- In multiples of the font size. -/
def lineHeight? (run : TextRun) : Option Float :=
  match run.lineHeight with
  | .auto => none
  | .pixels value => if 0 < run.fontSize then some (value / run.fontSize) else none
  | .percent value => some (value / 100)

def typography (run : TextRun) (fill : Option (Rgb × Float)) : List Declaration :=
  (fill.toList.map fun (c, opacity) => set "textColor" (color c opacity)) ++
  [set "fontFamily" (Text.dart run.fontName.family), set "fontSize" (text run.fontSize),
    set "fontWeight" (fontWeight run.fontWeight)] ++
  (if run.isItalic then [set "fontStyle" "FontStyle.italic"] else []) ++
  (decoration? run.decoration).toList.map (set "textDecoration") ++
  (if run.letterSpacing.value != 0 then [set "letterSpacing" (text (letterSpacing run))] else []) ++
  (lineHeight? run).toList.map (set "lineHeight" <| text ·)

def horizontalAlign? : HorizontalAlign → Option String
  | .left => none
  | .center => some "TextAlign.center"
  | .right => some "TextAlign.right"
  | .justified => some "TextAlign.justify"

def declarations : Aspect → List Declaration
  | .size s => extent "width" s.widthIsPrimary s.width ++ extent "height" s.heightIsPrimary s.height
  | .position x y => [set "left" (text x), set "top" (text y)]
  | .blend opacity rotation =>
    (if opacity < 1 then [set "opacity" (text opacity)] else []) ++
    (if rotation != 0 then [set "rotation" (text (-(rotation * radiansPerDegree)))] else [])
  | .background fill width height => [background fill width height]
  | .border s => [set "border" (border s)]
  | .radius r width height => [set "borderRadius" (radius r width height)]
  | .shadows ss => [set "boxShadow" (list (ss.map shadow))]
  | .blur b =>
    (b.layer.toList.map fun r => set "blur" (text (r / 2))) ++
    (b.background.toList.map fun r => set "backdropBlur" (text (r / 2)))
  | .clip => [set "clipBehavior" "Clip.antiAlias"]
  | .flow f => flow f
  | .origin => [fallbackTo "layout" "Stack"]
  | .typography run fill => typography run fill
  | .textAlign horizontal _ => (horizontalAlign? horizontal).toList.map (set "textAlign")

def attributes (s : Styles) : String :=
  ", ".intercalate (s.entries.map fun (key, value) => key ++ ": " ++ value)

/-- The children as the styles arrange them, one above the other unless they say so. -/
def arranged (s : Styles) (children : List String) : String :=
  let children := ("children", list children)
  let layout := (s.get? "layout").getD "Stack"
  if layout = "Row" ∨ layout = "Column" then
    call layout (s.select ["mainAxisSize", "mainAxisAlignment", "crossAxisAlignment", "textBaseline",
      "spacing"] ++ [children])
  else if layout = "Wrap" then
    call "Wrap" ((match s.get? "spacing" with
      | some spacing => [("spacing", spacing), ("runSpacing", spacing)]
      | none => []) ++ [children])
  else call "Stack" [children]

def sigma (s : String) : String :=
  "ImageFilter.blur(sigmaX: " ++ s ++ ", sigmaY: " ++ s ++ ")"

/-- Goes around a widget where the styles have the key. -/
def around (s : Styles) (key name : String) (arguments : String → List (String × String)) (widget : String) :
    String :=
  match s.get? key with
  | some value => call name (arguments value ++ [("child", widget)])
  | none => widget

/-- Takes a place in a row or column, or else at coordinates. -/
def placed (s : Styles) (widget : String) : String :=
  if s.contains "flex" then call "Expanded" [("child", widget)]
  else
    let coordinates := s.select ["left", "top"]
    if coordinates.isEmpty then widget else call "Positioned" (coordinates ++ [("child", widget)])

/-- Blurs, rotation, opacity and placement around a widget, from the inside out. -/
def wrapped (s : Styles) (widget : String) : String :=
  let widget := around s "blur" "ImageFiltered" (fun v => [("imageFilter", sigma v)]) widget
  let widget := around s "backdropBlur" "BackdropFilter" (fun v => [("filter", sigma v)]) widget
  let widget := around s "rotation" "Transform.rotate"
    (fun v => [("angle", v), ("alignment", "Alignment.topLeft")]) widget
  let widget := around s "opacity" "Opacity" (fun v => [("opacity", v)]) widget
  placed s widget

/-- The layer name stands in a comment above the widget. -/
def named (name : Option String) (widget : String) : String :=
  match name with
  | some name => "\n// " ++ name ++ "\n" ++ widget
  | none => "\n" ++ widget

def sizeArguments (s : Styles) : List (String × String) :=
  s.select ["width", "height"]

/-- A box that has a size and nothing else needs no container. -/
def containerWidget (s : Styles) (children : List String) : String :=
  let decoration := s.select ["color", "gradient", "image", "border", "borderRadius", "boxShadow"]
  let frame := s.select ["padding", "clipBehavior"]
  let plain := decoration.isEmpty && frame.isEmpty
  call (if plain then "SizedBox" else "Container") (sizeArguments s ++ frame ++
    (if decoration.isEmpty then [] else [("decoration", call "BoxDecoration" decoration)]) ++
    (if children.isEmpty then [] else [("child", arranged s children)]))

def container (name : Option String) (s : Styles) (children : List String) : String :=
  named name (wrapped s (containerWidget s children))

def imageWidget (s : Styles) (source : String) : String :=
  around s "borderRadius" "ClipRRect" (fun v => [("borderRadius", v)])
    (call "Image.network" ([("", Text.dart source)] ++ sizeArguments s ++ [("fit", "BoxFit.cover")]))

def image (name : Option String) (s : Styles) (source : String) : String :=
  named name (wrapped s (imageWidget s source))

/-- Styles of type with the fields that they fill. -/
def textStyleFields : List (String × String) := [
  ("textColor", "color"), ("fontFamily", "fontFamily"), ("fontSize", "fontSize"),
  ("fontWeight", "fontWeight"), ("fontStyle", "fontStyle"), ("textDecoration", "decoration"),
  ("letterSpacing", "letterSpacing"), ("lineHeight", "height")]

def textStyle (s : Styles) : List (String × String) :=
  let fields := textStyleFields.filterMap fun (key, field) => (s.get? key).map (field, ·)
  if fields.isEmpty then [] else [("style", call "TextStyle" fields)]

def textSpan (run : Run) : String :=
  "\n" ++ call "TextSpan" (("text", Text.dart run.text) :: (run.styles.map textStyle).getD [])

def textWidget (s : Styles) (runs : List Run) : String :=
  let align := s.select ["textAlign"]
  match runs with
  | [⟨text, none⟩] => call "Text" ([("", Text.dart text)] ++ align ++ textStyle s)
  | runs =>
    call "Text.rich" ([("", call "TextSpan" [("children", list (runs.map textSpan))])] ++ align)

def sized (s : Styles) (widget : String) : String :=
  let size := sizeArguments s
  if size.isEmpty then widget else call "SizedBox" (size ++ [("child", widget)])

def textBlock (name : Option String) (s : Styles) (runs : List Run) : String :=
  named name (wrapped s (sized s (textWidget s runs)))

end SceneCode.Flutter
