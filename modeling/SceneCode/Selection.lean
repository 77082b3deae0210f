import SceneCode.Color.Contrast
import SceneCode.Color.Palette
import SceneCode.Scene.Node
import SceneCode.Target.Basic

namespace SceneCode.Selection

mutual
/-- The fills of the visible nodes and of their text, in document order. -/
def paints : Node → List Paint
  | .frame base _ _ _ children => if base.visible then base.fills ++ paintsAll children else []
  | .group base children => if base.visible then base.fills ++ paintsAll children else []
  | .shape _ base => if base.visible then base.fills else []
  | .text base box => if base.visible then base.fills ++ box.runs.flatMap (·.fills) else []
  | .unknown => []

def paintsAll : List Node → List Paint
  | [] => []
  | node :: nodes => paints node ++ paintsAll nodes
end

structure SolidColor where
  hex : String
  /-- The nearest of the named colours. -/
  name : String
  /-- As the target writes it. -/
  exported : String
  contrastBlack : Float
  contrastWhite : Float
deriving DecidableEq

def toHundredth (x : Float) : Float :=
  Number.round (x * 100) / 100

def SolidColor.of (t : Target) (p : SolidPaint) : SolidColor where
  hex := p.color.hex
  name := Palette.nearest p.color
  exported := t.color p.color p.opacity
  contrastBlack := toHundredth (p.color.contrast .black)
  contrastWhite := toHundredth (p.color.contrast .white)

/-- Only what is exported knows how opaque the paint is. -/
theorem SolidColor.eq_of_iff {t : Target} {p : SolidPaint} {c : SolidColor} :
    c = .of t p ↔ c.hex = p.color.hex ∧ c.name = Palette.nearest p.color ∧ c.exported = t.color p.color p.opacity ∧
      c.contrastBlack = Number.round (p.color.contrast .black * 100) / 100 ∧
      c.contrastWhite = Number.round (p.color.contrast .white * 100) / 100 := by
  constructor
  · rintro rfl
    exact ⟨rfl, rfl, rfl, rfl, rfl⟩
  · rcases c with ⟨hex, name, exported, black, white⟩
    rintro ⟨rfl, rfl, rfl, rfl, rfl⟩
    rfl

def visibleSolid? : Paint → Option SolidPaint
  | .solid p => if p.visible then some p else none
  | _ => none

def visibleLinear? : Paint → Option LinearGradient
  | .gradient .linear p => if p.visible then some (.ofPaint p) else none
  | _ => none

/-- Colours that are written alike count once. They are sorted by their hexadecimal digits. -/
def solidColors (t : Target) (paints : List Paint) : List SolidColor :=
  let colors := (paints.filterMap visibleSolid?).map (SolidColor.of t)
  let distinct := colors.foldl (fun kept c =>
    if kept.any (·.exported == c.exported) then kept else kept ++ [c]) []
  distinct.mergeSort fun a b => a.hex ≤ b.hex

structure GradientColor where
  /-- For display, whatever the target is. -/
  css : String
  exported : String
deriving DecidableEq

def gradients (t : Target) (paints : List Paint) : List GradientColor :=
  (paints.filterMap visibleLinear?).map fun g => ⟨(Target.html false).gradient g, t.gradient g⟩

end SceneCode.Selection
