import SceneCode.Style.Styles

namespace SceneCode

/-- Text as it is written, with its own styles unless they are those of the element. -/
structure Run where
  text : String
  styles : Option Styles := none
deriving DecidableEq

end SceneCode
