import SceneCode.Color.Basic

namespace SceneCode.Rgb

def linear (channel : Float) : Float :=
  if channel ≤ 0.03928 then channel / 12.92
  else Float.pow ((channel + 0.055) / 1.055) 2.4

def luminance (c : Rgb) : Float :=
  0.2126 * linear c.r + 0.7152 * linear c.g + 0.0722 * linear c.b

/-- How much lighter one colour is than the other, whichever that is. -/
def contrast (a b : Rgb) : Float :=
  let (lighter, darker) :=
    if b.luminance ≤ a.luminance then (a.luminance, b.luminance) else (b.luminance, a.luminance)
  (lighter + 0.05) / (darker + 0.05)

end SceneCode.Rgb
