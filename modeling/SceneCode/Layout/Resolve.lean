import SceneCode.Layout.Infer
import SceneCode.Scene.Node

/-! How a frame arranges its children: as it declares, else as its hint says where hints are followed, else freely. -/
namespace SceneCode

namespace Layout

def resolve (followHint : Bool) (declared : AutoLayout) (hint : Option AutoLayout) : Option Flow :=
  declared.flow?.or (if followHint then hint.bind (·.flow?) else none)

def visibleBases (children : List Node) : List Base :=
  (children.filterMap (·.base?)).filter (·.visible)

def boxes (children : List Node) : List (Box Float) :=
  (visibleBases children).map fun b => ⟨b.x, b.y, b.width, b.height⟩

/-- Children stand in list order along the flow. -/
def follows (d : Direction) (children : List Node) : Bool :=
  (Infer.pairs (boxes children)).all fun (a, b) => a.start d ≤ b.start d

def ofInference (i : Inference Float) : AutoLayout where
  mode := some i.direction
  gap := i.gap
  padding := ⟨i.top, i.right, i.bottom, i.left⟩
  cross := i.cross

/-- A hint for a frame, from the boxes of its visible children. -/
def infer (base : Base) (children : List Node) : Option AutoLayout :=
  (Infer.infer base.width base.height (boxes children)).map ofInference

end Layout

mutual
/-- Gives a hint to every frame that has none and declares nothing. -/
def Node.annotate : Node → Node
  | .frame base layout hint clips children =>
    let hint := if layout.mode.isNone && hint.isNone then Layout.infer base children else hint
    .frame base layout hint clips (Node.annotateAll children)
  | .group base children => .group base (Node.annotateAll children)
  | node => node

def Node.annotateAll : List Node → List Node
  | [] => []
  | node :: nodes => node.annotate :: Node.annotateAll nodes
end

end SceneCode
