import Mathlib.Data.List.Basic
import SceneCode.Generate
import SceneCode.Selection

namespace SceneCode

/-- What a frame says of the layout of its children. -/
structure Plan where
  declared : AutoLayout
  hint : Option AutoLayout

def Plan.flow? (p : Plan) (followHint : Bool) : Option Flow :=
  Layout.resolve followHint p.declared p.hint

/-- What becomes of the plan of a frame with these attributes and children. -/
abbrev Replanning := Base → List Node → Plan → Plan

namespace Node

mutual
/-- New plans for all frames of a scene, the hidden ones and those in groups included. Each is made from the frame as
it was. -/
def replan (f : Replanning) : Node → Node
  | .frame base layout hint clips children =>
    let plan := f base children ⟨layout, hint⟩
    .frame base plan.declared plan.hint clips (replanAll f children)
  | .group base children => .group base (replanAll f children)
  | node => node

def replanAll (f : Replanning) : List Node → List Node
  | [] => []
  | node :: nodes => node.replan f :: replanAll f nodes
end

variable (f g : Replanning)

theorem replanAll_eq_map (ns : List Node) : replanAll f ns = ns.map (replan f) := by
  induction ns with
  | nil => rfl
  | cons n ns ih => rw [replanAll, ih, List.map_cons]

theorem replan_base? (n : Node) : (n.replan f).base? = n.base? := by
  cases n <;> simp [replan, base?]

theorem replanAll_isEmpty (ns : List Node) : (replanAll f ns).isEmpty = ns.isEmpty := by
  cases ns <;> rfl

mutual
/-- The places of a scene stay as they are. -/
theorem outline_replan (depth : Nat) : (n : Node) →
    outline depth (n.replan f) = (outline depth n).map fun e => (e.1, e.2.replan f)
  | .frame base layout hint clips children => by
    simp only [replan, outline, outlineAll_replan (depth + 1) children, List.map_cons]
  | .group base children => by
    simp only [replan, outline, outlineAll_replan (depth + 1) children, List.map_cons]
  | .shape kind base => rfl
  | .text base box => rfl
  | .unknown => rfl

theorem outlineAll_replan (depth : Nat) : (ns : List Node) →
    outlineAll depth (replanAll f ns) = (outlineAll depth ns).map fun e => (e.1, e.2.replan f)
  | [] => rfl
  | n :: ns => by
    simp only [replanAll, outlineAll, outline_replan depth n, outlineAll_replan depth ns, List.map_append]
end

section
variable {f g} {α : Type} [Sub α] [OfNat α 0] {position : Base → Point α} {followHints followHints' : Bool}

mutual
/-- A node enters its pieces by its own attributes and the flow it comes to. -/
theorem pieces_replan (h : ∀ base children plan, (f base children plan).flow? followHints' = plan.flow? followHints)
    (slot : Slot α) :
    (n : Node) → (n.replan f).pieces position followHints' slot = n.pieces position followHints slot
  | .frame base layout hint clips children => by
    have hf : Layout.resolve followHints' (f base children ⟨layout, hint⟩).declared (f base children ⟨layout, hint⟩).hint =
      Layout.resolve followHints layout hint := h base children ⟨layout, hint⟩
    simp only [replan, pieces, hf, piecesAll_replan h _ children]
  | .group base children => by
    simp only [replan, pieces, replanAll_isEmpty, piecesAll_replan h _ children]
  | .shape kind base => by cases kind <;> rfl
  | .text base box => rfl
  | .unknown => rfl

theorem piecesAll_replan (h : ∀ base children plan, (f base children plan).flow? followHints' = plan.flow? followHints)
    (slot : Slot α) : (ns : List Node) →
    piecesAll position followHints' slot (replanAll f ns) = piecesAll position followHints slot ns
  | [] => rfl
  | n :: ns => by
    rw [replanAll, piecesAll, piecesAll, pieces_replan h slot n, piecesAll_replan h slot ns]
end

end

section
variable {f g}

mutual
/-- One replanning after another, if the second does not ask what the first has made of the children. -/
theorem replan_replan (h : ∀ base children plan, g base (replanAll f children) plan = g base children plan) :
    (n : Node) → (n.replan f).replan g = n.replan fun base children plan => g base children (f base children plan)
  | .frame base layout hint clips children => by
    simp only [replan, h, replanAll_replanAll h children]
  | .group base children => by simp only [replan, replanAll_replanAll h children]
  | .shape kind base => rfl
  | .text base box => rfl
  | .unknown => rfl

theorem replanAll_replanAll (h : ∀ base children plan, g base (replanAll f children) plan = g base children plan) :
    (ns : List Node) →
    replanAll g (replanAll f ns) = replanAll (fun base children plan => g base children (f base children plan)) ns
  | [] => rfl
  | n :: ns => by simp only [replanAll, replan_replan h n, replanAll_replanAll h ns]
end

end

end Node

namespace Selection

mutual
theorem paints_replan (f : Replanning) : (n : Node) → paints (n.replan f) = paints n
  | .frame base layout hint clips children => by simp only [Node.replan, paints, paintsAll_replan f children]
  | .group base children => by simp only [Node.replan, paints, paintsAll_replan f children]
  | .shape kind base => rfl
  | .text base box => rfl
  | .unknown => rfl

theorem paintsAll_replan (f : Replanning) : (ns : List Node) → paintsAll (Node.replanAll f ns) = paintsAll ns
  | [] => rfl
  | n :: ns => by simp only [Node.replanAll, paintsAll, paints_replan f n, paintsAll_replan f ns]
end

end Selection

theorem Layout.infer_replanAll (f : Replanning) (base : Base) (children : List Node) :
    infer base (Node.replanAll f children) = infer base children := by
  have hb : (Node.replanAll f children).filterMap (·.base?) = children.filterMap (·.base?) := by
    rw [Node.replanAll_eq_map, List.filterMap_map]
    exact List.filterMap_congr fun n _ => Node.replan_base? f n
  simp only [infer, boxes, visibleBases, hb]

/-- Frames that come to the same flows give the same code. -/
theorem generate_replan {f : Replanning} {followHints followHints' : Bool}
    (h : ∀ base children plan, (f base children plan).flow? followHints' = plan.flow? followHints)
    (s : Settings) (preview : Bool) (nodes : List Node) :
    generate { s with optimizeLayout := followHints' } preview (Node.replanAll f nodes) =
      generate { s with optimizeLayout := followHints } preview nodes := by
  have hp : Scene.pieces followHints' (Node.replanAll f nodes) = Scene.pieces followHints nodes :=
    Node.piecesAll_replan h .top nodes
  have ht : ({ s with optimizeLayout := followHints' } : Settings).target preview =
    ({ s with optimizeLayout := followHints } : Settings).target preview := rfl
  simp only [generate, Target.code, hp, ht]

end SceneCode
