import Mathlib.Data.List.Forall2
import SceneCode.Proofs.Layout.Plans

namespace SceneCode

namespace Plan

/-- The hint is declared where nothing is and the hint has a direction. -/
def promoted (p : Plan) : Plan :=
  match p.declared.mode, p.hint with
  | none, some hint => if hint.mode.isSome then { p with declared := hint } else p
  | _, _ => p

def withoutHint (p : Plan) : Plan :=
  { p with hint := none }

/-- Nothing is declared and there is no hint. -/
def isOpen (p : Plan) : Bool :=
  p.declared.mode.isNone && p.hint.isNone

/-- A hint is guessed where the plan is open. -/
def guessed (base : Base) (children : List Node) (p : Plan) : Plan :=
  if p.isOpen then { p with hint := Layout.infer base children } else p

/-- Once the hint is declared, it no longer matters whether hints are followed. -/
theorem flow?_promoted (p : Plan) (followHint : Bool) : p.promoted.flow? followHint = p.flow? true := by
  obtain ⟨declared, hint⟩ := p
  unfold promoted
  cases hd : declared.mode with
  | some direction => simp [flow?, Layout.resolve, AutoLayout.flow?, hd]
  | none =>
    cases hint with
    | none => simp [flow?, Layout.resolve, AutoLayout.flow?, hd]
    | some hint => cases hh : hint.mode <;> simp [flow?, Layout.resolve, AutoLayout.flow?, hd, hh]

/-- Who does not follow hints sees what is declared. -/
theorem flow?_of_declared {p q : Plan} (h : p.declared = q.declared) : p.flow? false = q.flow? false := by
  unfold flow?
  rw [h]
  rfl

theorem flow?_withoutHint (p : Plan) : p.withoutHint.flow? false = p.flow? false :=
  flow?_of_declared rfl

theorem declared_guessed (base : Base) (children : List Node) (p : Plan) :
    (p.guessed base children).declared = p.declared := by
  unfold guessed
  split <;> rfl

end Plan

namespace Layout

/-- A guess has a direction. -/
theorem infer_flow? {base : Base} {children : List Node} {hint : AutoLayout} (h : infer base children = some hint) :
    hint.flow?.isSome = true := by
  obtain ⟨i, -, rfl⟩ := Option.map_eq_some_iff.mp h
  rfl

end Layout

namespace Plan

/-- A frame that gets a hint comes to a flow where hints are followed. -/
theorem flow?_guessed (base : Base) (children : List Node) {p : Plan} (h : p.isOpen = true) :
    ((p.guessed base children).flow? true).isSome = (Layout.infer base children).isSome := by
  simp only [isOpen, Bool.and_eq_true, Option.isNone_iff_eq_none] at h
  have hd : p.declared.flow? = none := by simp [AutoLayout.flow?, h.1]
  cases hi : Layout.infer base children with
  | none => simp [guessed, isOpen, flow?, Layout.resolve, h, hd, hi]
  | some hint =>
    have hf := Layout.infer_flow? hi
    simp [guessed, isOpen, flow?, Layout.resolve, h, hd, hi, hf]

theorem guessed_guessed (base : Base) (children : List Node) (p : Plan) :
    (p.guessed base children).guessed base children = p.guessed base children := by
  cases ho : p.isOpen with
  | false => simp [guessed, ho]
  | true =>
    unfold guessed
    rw [if_pos ho]
    split <;> rfl

end Plan

namespace Node

/-- The scene in which every frame that declares nothing declares its hint, if that has a direction. -/
def promoteAll (nodes : List Node) : List Node :=
  replanAll (fun _ _ plan => plan.promoted) nodes

/-- The scene without any hints. -/
def withoutHintsAll (nodes : List Node) : List Node :=
  replanAll (fun _ _ plan => plan.withoutHint) nodes

mutual
/-- Guessing reads the boxes of the children only, and these keep their boxes. -/
theorem annotate_eq_replan : (n : Node) → n.annotate = n.replan Plan.guessed
  | .frame base layout hint clips children => by
    have hc := annotateAll_eq_replanAll children
    cases ho : layout.mode.isNone && hint.isNone <;> simp [annotate, replan, Plan.guessed, Plan.isOpen, ho, hc]
  | .group base children => by simp only [annotate, replan, annotateAll_eq_replanAll children]
  | .shape kind base => rfl
  | .text base box => rfl
  | .unknown => rfl

theorem annotateAll_eq_replanAll : (ns : List Node) → annotateAll ns = replanAll Plan.guessed ns
  | [] => rfl
  | n :: ns => by rw [annotateAll, replanAll, annotate_eq_replan n, annotateAll_eq_replanAll ns]
end

theorem guessed_replanAll (f : Replanning) (base : Base) (children : List Node) (p : Plan) :
    p.guessed base (replanAll f children) = p.guessed base children := by
  simp only [Plan.guessed, Layout.infer_replanAll]

theorem annotateAll_annotateAll (nodes : List Node) : annotateAll (annotateAll nodes) = annotateAll nodes := by
  simp only [annotateAll_eq_replanAll, replanAll_replanAll (guessed_replanAll _), Plan.guessed_guessed]

theorem withoutHintsAll_annotateAll (nodes : List Node) :
    withoutHintsAll (annotateAll nodes) = withoutHintsAll nodes := by
  have hw (base : Base) (children : List Node) (p : Plan) : (p.guessed base children).withoutHint = p.withoutHint := by
    simp only [Plan.withoutHint, p.declared_guessed base children]
  rw [annotateAll_eq_replanAll, withoutHintsAll, replanAll_replanAll fun _ _ _ => rfl]
  simp only [hw]
  rfl

end Node

/-- What a plan may become while missing hints are guessed. Only the hint of an open plan is new: it is guessed from
the frame as it was, and with it the frame comes to a flow. -/
structure Plan.Hinted (base : Base) (children : List Node) (p q : Plan) : Prop where
  declared : q.declared = p.declared
  hint : q.hint = if p.declared.mode = none ∧ p.hint = none then Layout.infer base children else p.hint
  flows : p.declared.mode = none → p.hint = none → q.hint ≠ none →
    ∃ flow, Layout.resolve true q.declared q.hint = some flow

/-- What a node itself may become, its children apart. -/
def Node.Hinted : Node → Node → Prop
  | .frame base layout hint clips children, n => ∃ layout' hint' children',
    n = .frame base layout' hint' clips children' ∧ Plan.Hinted base children ⟨layout, hint⟩ ⟨layout', hint'⟩
  | .group base _, n => ∃ children', n = .group base children'
  | node, n => n = node

theorem Plan.hinted_guessed (base : Base) (children : List Node) (p : Plan) :
    Plan.Hinted base children p (p.guessed base children) where
  declared := p.declared_guessed base children
  hint := by
    obtain ⟨declared, hint⟩ := p
    simp only [guessed, isOpen, Bool.and_eq_true, Option.isNone_iff_eq_none]
    split <;> rfl
  flows := by
    intro hd hh hn
    have ho : p.isOpen = true := by simp [isOpen, hd, hh]
    have hf := Plan.flow?_guessed base children ho
    have hg : (p.guessed base children).hint = Layout.infer base children := by simp [guessed, ho]
    rw [← hg, Option.isSome_iff_ne_none.mpr hn] at hf
    exact Option.isSome_iff_exists.mp hf

theorem Node.hinted_annotate (n : Node) : n.Hinted n.annotate := by
  rw [annotate_eq_replan]
  cases n with
  | frame base layout hint clips children => exact ⟨_, _, _, rfl, Plan.hinted_guessed base children ⟨layout, hint⟩⟩
  | group base children => exact ⟨_, rfl⟩
  | _ => rfl

/-- A scene has the code of the scene in which the hints are declared, if hints are followed, and of the scene without
hints, if they are not. -/
theorem following_hints_is_declaring_them (s : Settings) (preview followHints : Bool) (nodes : List Node) :
    generate { s with optimizeLayout := true } preview nodes =
      generate { s with optimizeLayout := followHints } preview (Node.promoteAll nodes) ∧
    generate { s with optimizeLayout := false } preview nodes =
      generate { s with optimizeLayout := false } preview (Node.withoutHintsAll nodes) :=
  ⟨(generate_replan (fun _ _ plan => plan.flow?_promoted followHints) s preview nodes).symm,
    (generate_replan (fun _ _ plan => plan.flow?_withoutHint) s preview nodes).symm⟩

/-- Guessing the missing hints of a scene changes only them, place by place, and does so once and for all. Who does not
follow hints does not notice. -/
theorem guessing_hints_is_conservative (nodes : List Node) :
    Node.withoutHintsAll (Node.annotateAll nodes) = Node.withoutHintsAll nodes ∧
    List.Forall₂ (fun (place place' : Nat × Node) => place'.1 = place.1 ∧ place.2.Hinted place'.2)
      (Node.outlineAll 0 nodes) (Node.outlineAll 0 (Node.annotateAll nodes)) ∧
    Node.annotateAll (Node.annotateAll nodes) = Node.annotateAll nodes ∧
    (∀ (s : Settings) (preview : Bool), generate { s with optimizeLayout := false } preview (Node.annotateAll nodes) =
      generate { s with optimizeLayout := false } preview nodes) ∧
    Selection.paintsAll (Node.annotateAll nodes) = Selection.paintsAll nodes := by
  refine ⟨Node.withoutHintsAll_annotateAll nodes, ?_, Node.annotateAll_annotateAll nodes, fun s preview => ?_, ?_⟩
  · rw [Node.annotateAll_eq_replanAll, Node.outlineAll_replan, List.forall₂_map_right_iff, List.forall₂_same]
    intro place _
    exact ⟨rfl, Node.annotate_eq_replan place.2 ▸ place.2.hinted_annotate⟩
  · rw [Node.annotateAll_eq_replanAll]
    exact generate_replan (fun base children plan => Plan.flow?_of_declared (plan.declared_guessed base children)) s
      preview nodes
  · rw [Node.annotateAll_eq_replanAll, Selection.paintsAll_replan]

end SceneCode
