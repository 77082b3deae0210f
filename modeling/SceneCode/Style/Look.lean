import SceneCode.Style.Aspect

namespace SceneCode

def Effect.shadow? : Effect → Option Shadow
  | .dropShadow s => some ⟨false, s.offset.x, s.offset.y, s.radius, s.spread, s.color.rgb, s.color.a⟩
  | .innerShadow s => some ⟨true, s.offset.x, s.offset.y, s.radius, s.spread, s.color.rgb, s.color.a⟩
  | _ => none

namespace Base

/-- An ellipse is fully rounded. Square corners have no radius. -/
def radius? (b : Base) (ellipse : Bool) : Option Radius :=
  if ellipse then some .full
  else if b.cornerRadii.isZero then none
  else if b.cornerRadii.isUniform then some (.uniform b.cornerRadii.topLeft)
  else some (.corners b.cornerRadii)

/-- Only a solid stroke with some weight is a border. -/
def stroke? (b : Base) : Option Stroke :=
  if b.strokeWeight ≤ 0 then none
  else
    match Paint.top? b.strokes with
    | some (.solid p) => some ⟨b.strokeWeight, p.color, p.opacity, b.strokeAlign⟩
    | _ => none

def visibleEffects (b : Base) : List Effect :=
  b.effects.filter (·.visible)

def shadows (b : Base) : List Shadow :=
  b.visibleEffects.filterMap Effect.shadow?

/-- Of several blurs of one kind the last with a positive radius counts. -/
def blur (b : Base) : Blur :=
  b.visibleEffects.foldl (fun blur effect =>
    match effect with
    | .layerBlur e => if 0 < e.radius then { blur with layer := some e.radius } else blur
    | .backgroundBlur e => if 0 < e.radius then { blur with background := some e.radius } else blur
    | _ => blur) {}

end Base
end SceneCode
