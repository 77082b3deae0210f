import SceneCode.Color.Palette
import SceneCode.Style.Aspect
import SceneCode.Target.Markup
import SceneCode.Target.Placeholder

/-! Elements with utility classes. A style is kept under the property of CSS that it sets, so that a later class for
the same property takes the place of an earlier one. -/
namespace SceneCode.Tailwind
open Number (text)
open Declaration (set fallbackTo)

/-- Lengths in pixels with the step of the spacing scale. -/
def spacingScale : List (Float × String) := [
  (0, "0"), (1, "px"), (2, "0.5"), (4, "1"), (6, "1.5"), (8, "2"), (10, "2.5"), (12, "3"),
  (14, "3.5"), (16, "4"), (20, "5"), (24, "6"), (28, "7"), (32, "8"), (36, "9"), (40, "10"),
  (44, "11"), (48, "12"), (56, "14"), (64, "16"), (80, "20"), (96, "24"), (112, "28"),
  (128, "32"), (144, "36"), (160, "40"), (176, "44"), (192, "48"), (208, "52"), (224, "56"),
  (240, "60"), (256, "64"), (288, "72"), (320, "80"), (384, "96")]

/-- Font sizes in pixels with their names. -/
def fontSizes : List (Float × String) := [
  (12, "xs"), (14, "sm"), (16, "base"), (18, "lg"), (20, "xl"), (24, "2xl"), (30, "3xl"),
  (36, "4xl"), (48, "5xl"), (60, "6xl"), (72, "7xl"), (96, "8xl"), (128, "9xl")]

/-- Corner radii in pixels with their classes. -/
def radii : List (Float × String) := [
  (2, "rounded-sm"), (4, "rounded"), (6, "rounded-md"), (8, "rounded-lg"), (12, "rounded-xl"),
  (16, "rounded-2xl"), (24, "rounded-3xl")]

/-- Whether lengths and colours snap to the nearest entry of their scale, or only take an entry that fits. -/
structure Options where
  roundValues : Bool := false
  roundColors : Bool := false
deriving DecidableEq

def offset (x : Float) (entry : Float × String) : Float :=
  Float.abs (entry.1 - x)

/-- The first of the nearest entries. -/
def nearest? (x : Float) : List (Float × String) → Option (Float × String)
  | [] => none
  | entry :: entries =>
    some (entries.foldl (fun best entry => if offset x entry < offset x best then entry else best) entry)

/-- The entry within a hundredth, or else the nearest one where lengths snap. -/
def lookUp (table : List (Float × String)) (x : Float) (snap : Bool) : Option String :=
  ((table.find? (offset x · < 0.01)).or (if snap then nearest? x table else none)).map (·.2)

def pixels (x : Float) : String :=
  "[" ++ text x ++ "px]"

/-- A step of the spacing scale with the minus sign in front, or a length in pixels. -/
def spacing (o : Options) (utility : String) (x : Float) : String :=
  match lookUp spacingScale x.abs o.roundValues with
  | some step => (if x < 0 then "-" else "") ++ utility ++ "-" ++ step
  | none => utility ++ "-" ++ pixels x

def opacityPercent (opacity : Float) : Int :=
  Number.toInt64 (Number.round (Number.larger opacity 0 * 100))

def opacity (x : Float) : String :=
  if 1 ≤ x then "" else "/" ++ toString (opacityPercent x)

/-- The part of a utility that names a colour. -/
def color (o : Options) (c : Rgb) (alpha : Float) : String :=
  let name := if o.roundColors then some (Palette.nearest c) else Palette.written? c
  name.getD ("[" ++ c.hex ++ "]") ++ opacity alpha

def stop (o : Options) (g : LinearGradient) (s : ColorStop) : String :=
  let (c, alpha) := g.stopColor s
  color o c alpha

def sides : List String := ["t", "tr", "r", "br", "b", "bl", "l", "tl"]

/-- The side that a gradient runs to, of eight. -/
def side (angle : Float) : String :=
  sides.getD ((Number.toInt64 (Number.round (angle / 45))).toNat % 8) ""

/-- The first stop, the second of more than two, and the last of more than one. -/
def stops (o : Options) (g : LinearGradient) : List String :=
  match g.stops with
  | [] => []
  | [first] => ["from-" ++ stop o g first]
  | [first, last] => ["from-" ++ stop o g first, "to-" ++ stop o g last]
  | first :: second :: third :: rest => ["from-" ++ stop o g first, "via-" ++ stop o g second,
      "to-" ++ stop o g (rest.getLastD third)]

def gradient (o : Options) (g : LinearGradient) : String :=
  " ".intercalate (("bg-gradient-to-" ++ side g.angle) :: stops o g)

def padding (o : Options) (p : Padding) : String :=
  if p.isUniform then spacing o "p" p.top
  else if p.isSymmetric then spacing o "px" p.left ++ " " ++ spacing o "py" p.top
  else
    let sides := [("pt", p.top), ("pr", p.right), ("pb", p.bottom), ("pl", p.left)]
    " ".intercalate ((sides.filter (·.2 != 0)).map fun (utility, x) => spacing o utility x)

def strokeWidth (utility : String) (weight : Float) : String :=
  if weight == 1 then utility
  else if weight == 2 || weight == 4 || weight == 8 then utility ++ "-" ++ text weight
  else utility ++ "-" ++ pixels weight

def shadow (s : Shadow) : String :=
  (if s.inset then "inset_" else "") ++
    "_".intercalate ([s.x, s.y, s.blur, s.spread].map (text · ++ "px")) ++
    "_rgba(" ++ ",".intercalate (s.color.bytes.map toString ++ [text s.opacity]) ++ ")"

def extent (o : Options) (key utility : String) (primary : Bool) : Extent → List Declaration
  | .fixed length => [set key (spacing o utility length)]
  | .fill => if primary then [set "flex" "flex-1"] else [set "align-self" "self-stretch"]
  | .hug => []

def background (o : Options) (fill : Fill) (width height : Float) : String :=
  match fill with
  | .solid c alpha => "bg-" ++ color o c alpha
  | .gradient g => gradient o g
  | .image mode =>
    let fit := match mode with
      | .fit => "bg-contain"
      | .tile => "bg-repeat"
      | .fill | .crop => "bg-cover"
    "bg-[url(" ++ placeholderUrl width height ++ ")] " ++ fit ++ " bg-center"

def border (o : Options) (s : Stroke) : Declaration :=
  let key := match s.align with
    | .outside => "outline"
    | .inside | .center => "border"
  set key (strokeWidth key s.weight ++ " " ++ key ++ "-" ++ color o s.color s.opacity)

def radius (o : Options) : Radius → String
  | .full => "rounded-full"
  | .uniform r => (lookUp radii r o.roundValues).getD ("rounded-" ++ pixels r)
  | .corners c =>
    let corners := [("tl", c.topLeft), ("tr", c.topRight), ("br", c.bottomRight), ("bl", c.bottomLeft)]
    " ".intercalate ((corners.filter (0 < ·.2)).map fun (corner, r) => "rounded-" ++ corner ++ "-" ++ pixels r)

def mainAlign : MainAlign → String
  | .start => "justify-start"
  | .center => "justify-center"
  | .finish => "justify-end"
  | .between => "justify-between"

def crossAlign : CrossAlign → String
  | .start => "items-start"
  | .center => "items-center"
  | .finish => "items-end"
  | .baseline => "items-baseline"

def flow (o : Options) (f : Flow) : List Declaration :=
  [set "display" "flex"] ++
  (if f.direction = .column then [set "flex-direction" "flex-col"] else []) ++
  (if f.wrap then [set "flex-wrap" "flex-wrap"] else []) ++
  [set "justify-content" (mainAlign f.main), set "align-items" (crossAlign f.cross)] ++
  (f.writtenGap?.toList.map fun gap => set "gap" (spacing o "gap" gap)) ++
  (if f.padding.isZero then [] else [set "padding" (padding o f.padding)])

def fontWeight (weight : UInt16) : String :=
  match weight.toNat with
  | 100 => "font-thin"
  | 200 => "font-extralight"
  | 300 => "font-light"
  | 400 => "font-normal"
  | 500 => "font-medium"
  | 600 => "font-semibold"
  | 700 => "font-bold"
  | 800 => "font-extrabold"
  | 900 => "font-black"
  | weight => "font-[" ++ toString weight ++ "]"

def fontSize (o : Options) (size : Float) : String :=
  "text-" ++ (lookUp fontSizes size o.roundValues).getD (pixels size)

/-- Spaces in the name would end the class. -/
def fontFamily (family : String) : String :=
  "font-['" ++ String.ofList (family.toList.map fun c => if c = ' ' then '_' else c) ++ "']"

def decoration? : TextDecoration → Option String
  | .none => none
  | .underline => some "underline"
  | .strikethrough => some "line-through"

def textTransform? : TextCase → Option String
  | .asWritten => none
  | .upper => some "uppercase"
  | .lower => some "lowercase"
  | .title => some "capitalize"

def letterSpacing (s : LetterSpacing) : String :=
  "tracking-" ++ match s.unit with
    | .pixels => pixels s.value
    | .percent => "[" ++ text (s.value / 100) ++ "em]"

def lineHeight? : LineHeight → Option String
  | .auto => none
  | .pixels value => some ("leading-" ++ pixels value)
  | .percent value => some ("leading-[" ++ text value ++ "%]")

def typography (o : Options) (run : TextRun) (fill : Option (Rgb × Float)) : List Declaration :=
  (fill.toList.map fun (c, alpha) => set "color" ("text-" ++ color o c alpha)) ++
  [set "font-family" (fontFamily run.fontName.family), set "font-size" (fontSize o run.fontSize),
    set "font-weight" (fontWeight run.fontWeight)] ++
  (if run.isItalic then [set "font-style" "italic"] else []) ++
  (decoration? run.decoration).toList.map (set "text-decoration") ++
  (textTransform? run.textCase).toList.map (set "text-transform") ++
  (if run.letterSpacing.value != 0 then [set "letter-spacing" (letterSpacing run.letterSpacing)]
    else []) ++
  (lineHeight? run.lineHeight).toList.map (set "line-height")

def horizontalAlign? : HorizontalAlign → Option String
  | .left => none
  | .center => some "text-center"
  | .right => some "text-right"
  | .justified => some "text-justify"

def verticalAlign? : VerticalAlign → Option String
  | .top => none
  | .center => some "justify-center"
  | .bottom => some "justify-end"

def textAlign (horizontal : HorizontalAlign) (vertical : VerticalAlign) : List Declaration :=
  (horizontalAlign? horizontal).toList.map (set "text-align") ++
  match verticalAlign? vertical with
  | none => []
  | some justify => [set "display" "flex", set "flex-direction" "flex-col",
    set "justify-content" justify]

/-- Multiples of five percent have a class of their own. -/
def blendOpacity (x : Float) : String :=
  let percent := Number.toInt64 (Number.round (x * 100))
  if percent.tmod 5 = 0 then "opacity-" ++ toString percent else "opacity-[" ++ text x ++ "]"

def declarations (o : Options) : Aspect → List Declaration
  | .size s =>
    extent o "width" "w" s.widthIsPrimary s.width ++ extent o "height" "h" s.heightIsPrimary s.height
  | .position x y =>
    [set "position" "absolute", set "left" (spacing o "left" x), set "top" (spacing o "top" y)]
  | .blend opacity rotation =>
    (if opacity < 1 then [set "opacity" (blendOpacity opacity)] else []) ++
    (if rotation != 0 then
      [set "transform" ("rotate-[" ++ text (-rotation) ++ "deg]"),
        set "transform-origin" "origin-top-left"]
      else [])
  | .background fill width height => [set "background" (background o fill width height)]
  | .border s => [border o s]
  | .radius r _ _ => [set "border-radius" (radius o r)]
  | .shadows ss => [set "box-shadow" ("shadow-[" ++ ",".intercalate (ss.map shadow) ++ "]")]
  | .blur b =>
    (b.layer.toList.map fun r => set "filter" ("blur-" ++ pixels r)) ++
    (b.background.toList.map fun r => set "backdrop-filter" ("backdrop-blur-" ++ pixels r))
  | .clip => [set "overflow" "overflow-hidden"]
  | .flow f => flow o f
  | .origin => [fallbackTo "position" "relative"]
  | .typography run fill => typography o run fill
  | .textAlign horizontal vertical => textAlign horizontal vertical

/-- The classes that are not empty, in order. -/
def attributes (jsx : Bool) (s : Styles) : String :=
  let classes := (s.entries.map (·.2)).filter (!·.isEmpty)
  if classes.isEmpty then ""
  else (if jsx then "className" else "class") ++ "=\"" ++ " ".intercalate classes ++ "\""

end SceneCode.Tailwind
