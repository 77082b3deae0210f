import SceneCode.Style.Aspect
import SceneCode.Style.Run
import SceneCode.Target.Placeholder
import SceneCode.Text.Lines
import SceneCode.Text.Quoted

/-! Views with modifiers. Styles are kept under the names of modifiers and hold the whole call. The order of modifiers
changes what is seen, so they are written in one order whatever order they were set in. -/
namespace SceneCode.SwiftUI
open Number (text)
open Declaration (set fallbackTo)

def modifierOrder : List String := [
  "font", "italic", "decoration", "kerning", "lineSpacing", "foregroundColor",
  "multilineTextAlignment", "padding", "frame", "background", "backgroundBlur", "overlay",
  "cornerRadius", "clipShape", "clipped", "shadow", "blur", "opacity", "rotationEffect", "offset"]

/-- Modifiers that leave a text a text, so that it can be added to another. -/
def textModifiers : List String :=
  ["font", "italic", "decoration", "kerning", "foregroundColor"]

def modifiers (s : Styles) (keys : List String) : List String :=
  (s.select keys).map (·.2)

def color (c : Rgb) (opacity : Float) : String :=
  "Color(red: " ++ text c.r ++ ", green: " ++ text c.g ++ ", blue: " ++ text c.b ++ ")" ++
    if opacity < 1 then ".opacity(" ++ text (Number.larger opacity 0) ++ ")" else ""

def stop (g : LinearGradient) (s : ColorStop) : String :=
  let (c, opacity) := g.stopColor s
  "Gradient.Stop(color: " ++ color c opacity ++ ", location: " ++ text s.position ++ ")"

def unitPoint (p : Point Float) : String :=
  "UnitPoint(x: " ++ text p.x ++ ", y: " ++ text p.y ++ ")"

def gradient (g : LinearGradient) : String :=
  "LinearGradient(stops: [" ++ ", ".intercalate (g.stops.map (stop g)) ++ "], startPoint: " ++
    unitPoint g.start ++ ", endPoint: " ++ unitPoint g.finish ++ ")"

/-- Once one side is flexible, a fixed other side is held by equal bounds. -/
def extent (small capital : String) (flexible : Bool) : Extent → List String
  | .fixed length =>
    if flexible then ["min" ++ capital ++ ": " ++ text length, "max" ++ capital ++ ": " ++ text length]
    else [small ++ ": " ++ text length]
  | .fill => ["max" ++ capital ++ ": .infinity"]
  | .hug => []

def size (s : Size) : List Declaration :=
  let flexible := s.width = .fill || s.height = .fill
  let bounds := extent "width" "Width" flexible s.width ++ extent "height" "Height" flexible s.height
  if bounds.isEmpty then [] else [set "frame" (".frame(" ++ ", ".intercalate bounds ++ ")")]

def background (fill : Fill) (width height : Float) : String :=
  match fill with
  | .solid c opacity => color c opacity
  | .gradient g => gradient g
  | .image mode =>
    "AsyncImage(url: URL(string: " ++ Text.swift (placeholderUrl width height) ++
      ")) \x7b image in image.resizable().aspectRatio(contentMode: " ++
      (if mode = .fit then ".fit" else ".fill") ++ ") \x7d placeholder: \x7b Color.gray \x7d"

def inset : StrokeAlign → Float → String
  | .inside, weight => ".inset(by: " ++ text (weight / 2) ++ ")"
  | .outside, weight => ".inset(by: " ++ text (-weight / 2) ++ ")"
  | .center, _ => ""

def border (s : Stroke) : String :=
  ".overlay(Rectangle()" ++ inset s.align s.weight ++ ".stroke(" ++ color s.color s.opacity ++
    ", lineWidth: " ++ text s.weight ++ "))"

def radius : Radius → Declaration
  | .uniform r => set "cornerRadius" (".cornerRadius(" ++ text r ++ ")")
  | .corners c => set "clipShape" (".clipShape(UnevenRoundedRectangle(topLeadingRadius: " ++
      text c.topLeft ++ ", bottomLeadingRadius: " ++ text c.bottomLeft ++ ", bottomTrailingRadius: " ++
      text c.bottomRight ++ ", topTrailingRadius: " ++ text c.topRight ++ "))")
  | .full => set "clipShape" ".clipShape(Ellipse())"

def shadow (s : Shadow) : String :=
  ".shadow(color: " ++ color s.color s.opacity ++ ", radius: " ++ text s.blur ++ ", x: " ++
    text s.x ++ ", y: " ++ text s.y ++ ")"

/-- Inner shadows have no modifier. -/
def shadows (ss : List Shadow) : List Declaration :=
  let drops := ss.filter (!·.inset)
  if drops.isEmpty then [] else [set "shadow" ("\n".intercalate (drops.map shadow))]

def padding (p : Padding) : String :=
  if p.isUniform then ".padding(" ++ text p.top ++ ")"
  else if p.isSymmetric then
    ".padding(.horizontal, " ++ text p.left ++ ")\n.padding(.vertical, " ++ text p.top ++ ")"
  else
    ".padding(EdgeInsets(top: " ++ text p.top ++ ", leading: " ++ text p.left ++ ", bottom: " ++
      text p.bottom ++ ", trailing: " ++ text p.right ++ "))"

def rowAlign : CrossAlign → String
  | .start => ".top"
  | .center => ".center"
  | .finish => ".bottom"
  | .baseline => ".firstTextBaseline"

def columnAlign : CrossAlign → String
  | .start | .baseline => ".leading"
  | .center => ".center"
  | .finish => ".trailing"

def stack (f : Flow) : String :=
  let head := match f.direction with
    | .row => "HStack(alignment: " ++ rowAlign f.cross
    | .column => "VStack(alignment: " ++ columnAlign f.cross
  head ++ ", spacing: " ++ text (if f.main = .between then 0 else f.gap) ++ ")"

def freeStack : String := "ZStack(alignment: .topLeading)"

/-- Where spacers go among the children. -/
def spacers? : MainAlign → Option String
  | .start => none
  | .center => some "center"
  | .finish => some "end"
  | .between => some "between"

def flow (f : Flow) : List Declaration :=
  [set "stack" (stack f)] ++
  (if f.hugPrimary then [] else (spacers? f.main).toList.map (set "spacers")) ++
  (if f.padding.isZero then [] else [set "padding" (padding f.padding)])

def fontWeight (weight : UInt16) : String :=
  let weight := weight.toNat
  if weight < 150 then ".ultraLight"
  else if weight < 250 then ".thin"
  else if weight < 350 then ".light"
  else if weight < 450 then ".regular"
  else if weight < 550 then ".medium"
  else if weight < 650 then ".semibold"
  else if weight < 750 then ".bold"
  else if weight < 850 then ".heavy"
  else ".black"

def decoration? : TextDecoration → Option String
  | .none => none
  | .underline => some ".underline()"
  | .strikethrough => some ".strikethrough()"

/-- In pixels. -/
def kerning (run : TextRun) : Float :=
  match run.letterSpacing.unit with
  | .pixels => run.letterSpacing.value
  | .percent => run.letterSpacing.value * run.fontSize / 100

/-- What a line is higher than its font. -/
def lineGap (run : TextRun) : Float :=
  match run.lineHeight with
  | .auto => 0
  | .pixels value => value - run.fontSize
  | .percent value => run.fontSize * (value / 100 - 1)

def typography (run : TextRun) (fill : Option (Rgb × Float)) : List Declaration :=
  [set "font" (".font(Font.custom(" ++ Text.swift run.fontName.family ++ ", size: " ++
    text run.fontSize ++ ").weight(" ++ fontWeight run.fontWeight ++ "))")] ++
  (if run.isItalic then [set "italic" ".italic()"] else []) ++
  (decoration? run.decoration).toList.map (set "decoration") ++
  (if run.letterSpacing.value != 0 then [set "kerning" (".kerning(" ++ text (kerning run) ++ ")")]
    else []) ++
  (if 0 < lineGap run then [set "lineSpacing" (".lineSpacing(" ++ text (lineGap run) ++ ")")]
    else []) ++
  (fill.toList.map fun (c, opacity) =>
    set "foregroundColor" (".foregroundColor(" ++ color c opacity ++ ")"))

def horizontalAlign? : HorizontalAlign → Option String
  | .left | .justified => none
  | .center => some ".center"
  | .right => some ".trailing"

def declarations : Aspect → List Declaration
  | .size s => size s
  | .position x y => [set "offset" (".offset(x: " ++ text x ++ ", y: " ++ text y ++ ")")]
  | .blend opacity rotation =>
    (if opacity < 1 then [set "opacity" (".opacity(" ++ text opacity ++ ")")] else []) ++
    (if rotation != 0 then
      [set "rotationEffect" (".rotationEffect(.degrees(" ++ text (-rotation) ++ "), anchor: .topLeading)")]
      else [])
  | .background fill width height => [set "background" (".background(" ++ background fill width height ++ ")")]
  | .border s => [set "overlay" (border s)]
  | .radius r _ _ => [radius r]
  | .shadows ss => shadows ss
  | .blur b =>
    (b.layer.toList.map fun r => set "blur" (".blur(radius: " ++ text r ++ ")")) ++
    (if b.background.isSome then [set "backgroundBlur" ".background(.ultraThinMaterial)"] else [])
  | .clip => [set "clipped" ".clipped()"]
  | .flow f => flow f
  | .origin => [fallbackTo "stack" freeStack]
  | .typography run fill => typography run fill
  | .textAlign horizontal _ => (horizontalAlign? horizontal).toList.map fun align =>
      set "multilineTextAlignment" (".multilineTextAlignment(" ++ align ++ ")")

def attributes (s : Styles) : String :=
  String.join (modifiers s modifierOrder)

def spacer : String := "\nSpacer()"

/-- The children with the spacers that the styles ask for. -/
def spaced (s : Styles) (children : List String) : List String :=
  let spacers := (s.get? "spacers").getD ""
  if spacers = "between" then children.intersperse spacer
  else if spacers = "center" then [spacer] ++ children ++ [spacer]
  else if spacers = "end" then spacer :: children
  else children

/-- A view under its layer name and with its modifiers, each on a line of its own. -/
def finished (name : Option String) (s : Styles) (view : String) : String :=
  "\n" ++ (match name with
    | some name => "// " ++ name ++ "\n"
    | none => "") ++ view ++ String.join ((modifiers s modifierOrder).map ("\n" ++ ·))

def containerView (s : Styles) (children : List String) : String :=
  if children.isEmpty then "Rectangle()\n.foregroundColor(.clear)"
  else
    (s.get? "stack").getD freeStack ++ " \x7b" ++ String.join ((spaced s children).map Text.indent) ++ "\n\x7d"

def container (name : Option String) (s : Styles) (children : List String) : String :=
  finished name s (containerView s children)

def image (name : Option String) (s : Styles) (source : String) : String :=
  finished name s ("AsyncImage(url: URL(string: " ++ Text.swift source ++ "))")

def runView (run : Run) : String :=
  "Text(" ++ Text.swift run.text ++ ")" ++
    String.join ((run.styles.map (modifiers · textModifiers)).getD [])

/-- Several runs are added up. Modifiers for all of them need brackets around the sum. -/
def textView (s : Styles) (runs : List Run) : String :=
  match runs with
  | [⟨text, none⟩] => "Text(" ++ Text.swift text ++ ")"
  | runs =>
    let sum := " + ".intercalate (runs.map runView)
    if s.isEmpty then sum else "(" ++ sum ++ ")"

def textBlock (name : Option String) (s : Styles) (runs : List Run) : String :=
  finished name s (textView s runs)

end SceneCode.SwiftUI
