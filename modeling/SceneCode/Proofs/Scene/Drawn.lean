import SceneCode.Proofs.Scene.Tree

namespace SceneCode

inductive ElementKind where
  | container
  | image
  | text
deriving DecidableEq

/-- A node where it stands in a scene, with the nodes around it from the inside out. -/
structure Occurrence where
  node : Node
  around : List Node

/-- Opaque and not turned. What is no number is no opacity below 1. -/
def Base.IsUnstyled (b : Base) : Prop :=
  (b.opacity.isNaN = true ∨ (Number.clampUnit b.opacity == 1) = true) ∧ (b.rotation == 0) = true

instance (b : Base) : Decidable b.IsUnstyled :=
  inferInstanceAs (Decidable (_ ∧ _))

namespace Node

/-- What a node becomes where it is drawn. -/
def elementKind : Node → ElementKind
  | .shape .line _ => .container
  | .shape _ base => if Fill.isImage base.fills then .image else .container
  | .text .. => .text
  | _ => .container

mutual
/-- The elements of a node; `top` while no element is around it. Frames without size and unstyled groups at the top
give way to their children, and a group around nothing is nothing. -/
def drawn (around : List Node) (top : Bool) : Node → List (Tree Occurrence)
  | .frame base layout hint clips children =>
    let node := Node.frame base layout hint clips children
    if base.visible = false then []
    else if base.width ≤ 0 ∨ base.height ≤ 0 then drawnAll (node :: around) top children
    else [.node ⟨node, around⟩ (drawnAll (node :: around) false children)]
  | .group base children =>
    let node := Node.group base children
    if base.visible = false ∨ base.width ≤ 0 ∨ base.height ≤ 0 ∨ children = [] then []
    else if top = true ∧ base.IsUnstyled then drawnAll (node :: around) top children
    else
      let inner := drawnAll (node :: around) false children
      if inner.isEmpty then [] else [.node ⟨node, around⟩ inner]
  | .shape .line base =>
    if base.visible = false ∨ base.width ≤ 0 ∨ base.strokeWeight ≤ 0 then []
    else [.node ⟨.shape .line base, around⟩ []]
  | .shape kind base =>
    if base.visible = false ∨ base.width ≤ 0 ∨ base.height ≤ 0 then [] else [.node ⟨.shape kind base, around⟩ []]
  | .text base box =>
    if base.visible = false ∨ base.width ≤ 0 ∨ base.height ≤ 0 then [] else [.node ⟨.text base box, around⟩ []]
  | .unknown => []

def drawnAll (around : List Node) (top : Bool) : List Node → List (Tree Occurrence)
  | [] => []
  | node :: nodes => drawn around top node ++ drawnAll around top nodes
end

end Node

def Scene.drawn (nodes : List Node) : List (Tree Occurrence) :=
  Node.drawnAll [] true nodes

namespace Occurrence

/-- Only nodes of a known kind are drawn. -/
def base (o : Occurrence) : Base :=
  o.node.base?.getD {}

/-- Which element a node becomes, and the name that it carries. -/
def sketch (o : Occurrence) : ElementKind × String :=
  (o.node.elementKind, o.base.name)

end Occurrence

namespace Piece
variable {α : Type}

def slot : Piece α → Slot α
  | .frame slot .. | .group slot .. | .shape slot .. | .line slot _ | .text slot .. => slot

def base : Piece α → Base
  | .frame _ base .. | .group _ base _ | .shape _ base _ | .line _ base | .text _ base _ => base

def children : Piece α → List (Piece α)
  | .frame _ _ _ _ children | .group _ _ children => children
  | _ => []

theorem tree_eq (p : Piece α) : p.tree = .node p (Piece.trees p.children) := by
  cases p <;> simp [tree, children, trees]

/-- A piece shows a node if it is made from all that the node says of itself. -/
def Shows (followHints : Bool) : Piece α → Node → Prop
  | .frame _ base flow clips _, .frame base' layout hint clips' _ =>
    base = base' ∧ flow = Layout.resolve followHints layout hint ∧ clips = clips'
  | .group _ base _, .group base' _ => base = base'
  | .shape _ base ellipse, .shape kind base' => kind ≠ .line ∧ base = base' ∧ ellipse = (kind == .ellipse)
  | .line _ base, .shape kind base' => kind = .line ∧ base = base'
  | .text _ base box, .text base' box' => base = base' ∧ box = box'
  | _, _ => False

theorem Shows.base {followHints : Bool} {p : Piece α} {o : Occurrence} (h : p.Shows followHints o.node) :
    p.base = o.base := by
  obtain ⟨node, around⟩ := o
  cases p <;> cases node <;> simp_all [Shows, Piece.base, Occurrence.base, Node.base?]

end Piece

namespace Element

def name : Element → String
  | .container name .. | .image name .. | .text name .. => name

def styles : Element → Styles
  | .container _ styles _ | .image _ styles _ | .text _ styles _ => styles

def kind : Element → ElementKind
  | .container .. => .container
  | .image .. => .image
  | .text .. => .text

def sketch (e : Element) : ElementKind × String :=
  (e.kind, e.name)

end Element

/-- The element of a piece is of the kind that the shown node becomes, and has its name. -/
theorem Piece.Shows.sketch {followHints : Bool} {p : Piece Float} {o : Occurrence} (t : Target)
    (h : p.Shows followHints o.node) : (t.element p).sketch = o.sketch := by
  obtain ⟨node, around⟩ := o
  cases p <;> cases node <;> simp only [Piece.Shows] at h
  case frame.frame =>
    obtain ⟨rfl, -, -⟩ := h
    rfl
  case group.group =>
    subst h
    rfl
  case line.shape =>
    obtain ⟨rfl, rfl⟩ := h
    rfl
  case shape.shape slot base ellipse kind base' =>
    obtain ⟨hk, rfl, -⟩ := h
    have hkind : (Node.shape kind base).elementKind = if Fill.isImage base.fills then .image else .container := by
      cases kind <;> first | rfl | exact absurd rfl hk
    simp only [Target.element, Target.shapeElement, Occurrence.sketch, hkind]
    split <;> rfl
  case text.text =>
    obtain ⟨rfl, rfl⟩ := h
    simp only [Target.element, Target.textElement]
    split <;> rfl

end SceneCode
