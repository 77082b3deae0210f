import SceneCode.Style.Aspect
import SceneCode.Target.Markup
import SceneCode.Target.Placeholder
import SceneCode.Text.Words

namespace SceneCode.Html
open Number (text)
open Declaration (set fallbackTo)

def px (x : Float) : String :=
  text x ++ "px"

def color (c : Rgb) (opacity : Float) : String :=
  if 1 ≤ opacity then c.hex
  else "rgba(" ++ ", ".intercalate (c.bytes.map toString) ++ ", " ++ text (Number.larger opacity 0) ++ ")"

def stop (g : LinearGradient) (s : ColorStop) : String :=
  let (c, opacity) := g.stopColor s
  color c opacity ++ " " ++ text (s.position * 100) ++ "%"

def gradient (g : LinearGradient) : String :=
  "linear-gradient(" ++ text g.angle ++ "deg, " ++ ", ".intercalate (g.stops.map (stop g)) ++ ")"

def padding (p : Padding) : String :=
  if p.isUniform then px p.top
  else if p.isSymmetric then px p.top ++ " " ++ px p.left
  else " ".intercalate [px p.top, px p.right, px p.bottom, px p.left]

def extent (key : String) (primary : Bool) : Extent → List Declaration
  | .fixed length => [set key (px length)]
  | .fill => if primary then [set "flex" "1 1 0"] else [set "align-self" "stretch"]
  | .hug => []

def background (fill : Fill) (width height : Float) : List Declaration :=
  match fill with
  | .solid c opacity => [set "background" (color c opacity)]
  | .gradient g => [set "background" (gradient g)]
  | .image mode => [
    set "background-image" ("url(" ++ placeholderUrl width height ++ ")"),
    set "background-size" (match mode with
      | .fit => "contain"
      | .tile => "auto"
      | .fill | .crop => "cover"),
    set "background-position" "center"]

def border (s : Stroke) : List Declaration :=
  let value := px s.weight ++ " solid " ++ color s.color s.opacity
  match s.align with
  | .outside => [set "outline" value]
  | .inside | .center => [set "border" value, set "box-sizing" "border-box"]

def radius : Radius → String
  | .uniform r => px r
  | .corners c => " ".intercalate [px c.topLeft, px c.topRight, px c.bottomRight, px c.bottomLeft]
  | .full => "50%"

def shadow (s : Shadow) : String :=
  (if s.inset then "inset " else "") ++
    " ".intercalate [px s.x, px s.y, px s.blur, px s.spread, color s.color s.opacity]

def direction : Direction → String
  | .row => "row"
  | .column => "column"

def mainAlign : MainAlign → String
  | .start => "flex-start"
  | .center => "center"
  | .finish => "flex-end"
  | .between => "space-between"

def crossAlign : CrossAlign → String
  | .start => "flex-start"
  | .center => "center"
  | .finish => "flex-end"
  | .baseline => "baseline"

def flow (f : Flow) : List Declaration :=
  [set "display" "flex", set "flex-direction" (direction f.direction)] ++
  (if f.wrap then [set "flex-wrap" "wrap"] else []) ++
  [set "justify-content" (mainAlign f.main), set "align-items" (crossAlign f.cross)] ++
  (f.writtenGap?.toList.map fun gap => set "gap" (px gap)) ++
  (if f.padding.isZero then []
    else [set "padding" (padding f.padding), set "box-sizing" "border-box"])

def decoration? : TextDecoration → Option String
  | .none => none
  | .underline => some "underline"
  | .strikethrough => some "line-through"

def textTransform? : TextCase → Option String
  | .asWritten => none
  | .upper => some "uppercase"
  | .lower => some "lowercase"
  | .title => some "capitalize"

def letterSpacing (s : LetterSpacing) : String :=
  match s.unit with
  | .pixels => px s.value
  | .percent => text (s.value / 100) ++ "em"

def lineHeight? : LineHeight → Option String
  | .auto => none
  | .pixels value => some (px value)
  | .percent value => some (text value ++ "%")

def typography (run : TextRun) (fill : Option (Rgb × Float)) : List Declaration :=
  (fill.toList.map fun (c, opacity) => set "color" (color c opacity)) ++
  [set "font-family" run.fontName.family, set "font-size" (px run.fontSize),
    set "font-weight" (toString run.fontWeight.toNat)] ++
  (if run.isItalic then [set "font-style" "italic"] else []) ++
  (decoration? run.decoration).toList.map (set "text-decoration") ++
  (textTransform? run.textCase).toList.map (set "text-transform") ++
  (if run.letterSpacing.value != 0 then [set "letter-spacing" (letterSpacing run.letterSpacing)]
    else []) ++
  (lineHeight? run.lineHeight).toList.map (set "line-height")

def horizontalAlign? : HorizontalAlign → Option String
  | .left => none
  | .center => some "center"
  | .right => some "right"
  | .justified => some "justify"

def verticalAlign? : VerticalAlign → Option String
  | .top => none
  | .center => some "center"
  | .bottom => some "flex-end"

def textAlign (horizontal : HorizontalAlign) (vertical : VerticalAlign) : List Declaration :=
  (horizontalAlign? horizontal).toList.map (set "text-align") ++
  match verticalAlign? vertical with
  | none => []
  | some justify => [set "display" "flex", set "flex-direction" "column",
    set "justify-content" justify]

def declarations : Aspect → List Declaration
  | .size s => extent "width" s.widthIsPrimary s.width ++ extent "height" s.heightIsPrimary s.height
  | .position x y => [set "position" "absolute", set "left" (px x), set "top" (px y)]
  | .blend opacity rotation =>
    (if opacity < 1 then [set "opacity" (text opacity)] else []) ++
    (if rotation != 0 then
      [set "transform" ("rotate(" ++ text (-rotation) ++ "deg)"),
        set "transform-origin" "top left"]
      else [])
  | .background fill width height => background fill width height
  | .border s => border s
  | .radius r _ _ => [set "border-radius" (radius r)]
  | .shadows ss => [set "box-shadow" (", ".intercalate (ss.map shadow))]
  | .blur b =>
    (b.layer.toList.map fun r => set "filter" ("blur(" ++ px r ++ ")")) ++
    (b.background.toList.map fun r => set "backdrop-filter" ("blur(" ++ px r ++ ")"))
  | .clip => [set "overflow" "hidden"]
  | .flow f => flow f
  | .origin => [fallbackTo "position" "relative"]
  | .typography run fill => typography run fill
  | .textAlign horizontal vertical => textAlign horizontal vertical

def objectKey (key : String) : String :=
  String.ofList (Text.camelCase key.toList)

/-- A style object in JSX, a style string otherwise. -/
def attributes (jsx : Bool) (s : Styles) : String :=
  if s.isEmpty then ""
  else if jsx then
    "style=\x7b\x7b" ++
      ", ".intercalate (s.entries.map fun (key, value) => objectKey key ++ ": " ++ Text.singleQuoted value) ++
      "\x7d\x7d"
  else
    "style=\"" ++
      Text.escapeAttribute ("; ".intercalate (s.entries.map fun (key, value) => key ++ ": " ++ value)) ++
      "\""

end SceneCode.Html
