import SceneCode.Number.Text

namespace SceneCode

def pixels (length : Float) : Int :=
  Number.toInt64 (Number.larger (Number.round length) 1)

/-- The address of a grey image of a node's size, at least one pixel on each side. -/
def placeholderUrl (width height : Float) : String :=
  "https://placehold.co/" ++ toString (pixels width) ++ "x" ++ toString (pixels height)

end SceneCode
