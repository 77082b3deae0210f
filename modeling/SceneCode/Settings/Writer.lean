import SceneCode.Json.Value
import SceneCode.Settings.Basic

namespace SceneCode.Settings

/-- All settings, in their order. -/
def toJson (s : Settings) : Json :=
  .object [
    ("framework", .string s.framework.name),
    ("jsx", .bool s.jsx),
    ("optimizeLayout", .bool s.optimizeLayout),
    ("showLayerNames", .bool s.showLayerNames),
    ("roundTailwindValues", .bool s.roundTailwindValues),
    ("roundTailwindColors", .bool s.roundTailwindColors),
    ("customTailwindPrefix", match s.customTailwindPrefix with
      | some p => .string p
      | none => .null),
    ("flutterGenerationMode", .string s.flutterMode.name),
    ("swiftUIGenerationMode", .string s.swiftUIMode.name)]

end SceneCode.Settings
