import SceneCode.Paint.Basic
import SceneCode.Text.Case

namespace SceneCode

inductive HorizontalAlign where
  | left
  | center
  | right
  | justified
deriving DecidableEq

instance : Named HorizontalAlign where
  all := [.left, .center, .right, .justified]
  name
    | .left => "LEFT"
    | .center => "CENTER"
    | .right => "RIGHT"
    | .justified => "JUSTIFIED"
  other := .left

inductive VerticalAlign where
  | top
  | center
  | bottom
deriving DecidableEq

instance : Named VerticalAlign where
  all := [.top, .center, .bottom]
  name
    | .top => "TOP"
    | .center => "CENTER"
    | .bottom => "BOTTOM"
  other := .top

inductive AutoResize where
  | none
  | widthAndHeight
  | height
  | truncate
deriving DecidableEq

instance : Named AutoResize where
  all := [.none, .widthAndHeight, .height, .truncate]
  name
    | .none => "NONE"
    | .widthAndHeight => "WIDTH_AND_HEIGHT"
    | .height => "HEIGHT"
    | .truncate => "TRUNCATE"
  other := .none

inductive TextDecoration where
  | none
  | underline
  | strikethrough
deriving DecidableEq

instance : Named TextDecoration where
  all := [.none, .underline, .strikethrough]
  name
    | .none => "NONE"
    | .underline => "UNDERLINE"
    | .strikethrough => "STRIKETHROUGH"
  other := .none

inductive TextCase where
  | asWritten
  | upper
  | lower
  | title
deriving DecidableEq

instance : Named TextCase where
  all := [.asWritten, .upper, .lower, .title]
  name
    | .asWritten => "ORIGINAL"
    | .upper => "UPPER"
    | .lower => "LOWER"
    | .title => "TITLE"
  other := .asWritten

/-- The text in its case, for targets that cannot ask for it in a style. -/
def TextCase.apply (case_ : TextCase) (text : String) : String :=
  match case_ with
  | .asWritten => text
  | .upper => String.ofList (Text.upperText text.toList)
  | .lower => String.ofList (Text.lowerText text.toList)
  | .title => String.ofList (Text.titleText true text.toList)

inductive SpacingUnit where
  | pixels
  | percent
deriving DecidableEq

instance : Named SpacingUnit where
  all := [.pixels, .percent]
  name
    | .pixels => "PIXELS"
    | .percent => "PERCENT"
  other := .pixels

structure LetterSpacing where
  value : Float := 0
  unit : SpacingUnit := .pixels
deriving DecidableEq

inductive LineHeight where
  | auto
  | pixels (value : Float)
  | percent (value : Float)
deriving DecidableEq

structure FontName where
  family : String := "Inter"
  style : String := "Regular"
deriving DecidableEq

/-- A stretch of text in one typography. -/
structure TextRun where
  characters : String
  fontName : FontName := {}
  fontSize : Float := 14
  fontWeight : UInt16 := 400
  decoration : TextDecoration := .none
  textCase : TextCase := .asWritten
  letterSpacing : LetterSpacing := {}
  lineHeight : LineHeight := .auto
  fills : List Paint := []
deriving DecidableEq

def italic : List Char := "italic".toList

def TextRun.isItalic (r : TextRun) : Bool :=
  Text.occursIn italic (Text.lowerText r.fontName.style.toList)

/-- Without runs, the characters stand in the default typography. -/
structure TextBox where
  characters : String := ""
  runs : List TextRun := []
  horizontal : HorizontalAlign := .left
  vertical : VerticalAlign := .top
  autoResize : AutoResize := .none
deriving DecidableEq

namespace TextBox

def ofRuns (runs : List TextRun) : TextBox :=
  { characters := String.join (runs.map (·.characters)), runs }

def shownRuns (t : TextBox) : List TextRun :=
  if t.runs.isEmpty then [{ characters := t.characters }] else t.runs

theorem shownRuns_of_nil {t : TextBox} (h : t.runs = []) : t.shownRuns = [{ characters := t.characters }] :=
  if_pos (List.isEmpty_iff.mpr h)

theorem shownRuns_of_ne_nil {t : TextBox} (h : t.runs ≠ []) : t.shownRuns = t.runs :=
  if_neg fun he => h (List.isEmpty_iff.mp he)

end TextBox
end SceneCode
