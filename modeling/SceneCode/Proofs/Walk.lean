import SceneCode.Generate
import SceneCode.Proofs.Number.Order
import SceneCode.Proofs.Scene.Drawn
import SceneCode.Proofs.Style.Entries

/-! One pass over a scene in which the styles of a target decide what a group becomes: a group whose own styles come
out empty gives way to its children. Whatever the target, this builds the elements that the scene is drawn as. -/
namespace SceneCode

namespace Target

/-- The styles of a group before its children are placed in it. -/
def ownGroupStyles (t : Target) (slot : Slot Float) (base : Base) : Styles :=
  let s := Subject.ofBase base
  t.styles (if slot.isTop then s.blend else s.placement slot {})

mutual
def walk (t : Target) (followHints : Bool) (slot : Slot Float) : Node → List Element
  | .frame base layout hint clips children =>
    if !base.visible then []
    else if base.isDegenerate then walkAll t followHints (slot.through base.position) children
    else
      let flow := Layout.resolve followHints layout hint
      let inner := walkAll t followHints (.ofFlow flow) children
      [.container base.name (t.frameStyles slot base flow clips !inner.isEmpty) inner]
  | .group base children =>
    if !base.visible || base.isDegenerate || children.isEmpty then []
    else if (t.ownGroupStyles slot base).isEmpty then walkAll t followHints slot children
    else
      match walkAll t followHints (.free base.position) children with
      | [] => []
      | inner => [.container base.name (t.declare (t.ownGroupStyles slot base) .origin) inner]
  | .shape .line base =>
    if !base.visible || base.isDegenerateLine then [] else [.container base.name (t.lineStyles slot base) []]
  | .shape kind base =>
    if !base.visible || base.isDegenerate then [] else [t.shapeElement slot base (kind == .ellipse)]
  | .text base box =>
    if !base.visible || base.isDegenerate then [] else [t.textElement slot base box]
  | .unknown => []

def walkAll (t : Target) (followHints : Bool) (slot : Slot Float) : List Node → List Element
  | [] => []
  | node :: nodes => walk t followHints slot node ++ walkAll t followHints slot nodes
end

theorem elements_append (t : Target) (ps qs : List (Piece Float)) :
    t.elements (ps ++ qs) = t.elements ps ++ t.elements qs := by
  induction ps with
  | nil => rfl
  | cons p ps ih => simp [elements, ih]

theorem elements_isEmpty (t : Target) (ps : List (Piece Float)) : (t.elements ps).isEmpty = ps.isEmpty := by
  cases ps <;> rfl

theorem extent_ne_hug (fills : Bool) (length : Float) : Subject.extent fills false length ≠ .hug := by
  cases fills <;> simp [Subject.extent]

/-- Every target says something about a size that is not left to the content. -/
theorem size_declared (t : Target) (s : Subject) (slot : Slot Float) :
    t.declarations (.size (s.sizeIn slot {})) ≠ [] := by
  obtain ⟨w, h, within, hs, hw, hh⟩ : ∃ w h within, s.sizeIn slot {} = ⟨w, h, within⟩ ∧ w ≠ .hug ∧ h ≠ .hug :=
    ⟨_, _, _, rfl, extent_ne_hug _ _, extent_ne_hug _ _⟩
  rw [hs]
  cases t with
  | html jsx => cases w <;> simp_all [declarations, Html.declarations, Html.extent]; split <;> simp
  | tailwind jsx o => cases w <;> simp_all [declarations, Tailwind.declarations, Tailwind.extent]; split <;> simp
  | flutter => cases w <;> simp_all [declarations, Flutter.declarations, Flutter.extent]; split <;> simp
  | swiftUI =>
    cases w <;> cases h <;> simp_all [declarations, SwiftUI.declarations, SwiftUI.size, SwiftUI.extent]

/-- Every target says something about a look that is seen through or turned. -/
theorem blend_declared (t : Target) {b : Base} (h : b.isPlain = false) :
    t.declarations (.blend b.shownOpacity b.rotation) ≠ [] := by
  simp only [Base.isPlain, Bool.not_eq_false', Bool.or_eq_true, decide_eq_true_eq] at h
  rcases h with h | h <;> cases t <;>
    simp [declarations, Html.declarations, Tailwind.declarations, Flutter.declarations, SwiftUI.declarations, h]

/-- The four targets agree on which groups have no styles of their own: plain ones that nothing is around. -/
theorem ownGroupStyles_isEmpty (t : Target) (slot : Slot Float) (base : Base) :
    (t.ownGroupStyles slot base).isEmpty = (slot.isTop && base.isPlain) := by
  unfold ownGroupStyles
  rw [styles_isEmpty]
  cases ht : slot.isTop with
  | true =>
    cases hp : base.isPlain with
    | true => simp [Subject.blend, Subject.ofBase, hp, declarationsOf]
    | false =>
      have hb := t.blend_declared hp
      simpa [Subject.blend, Subject.ofBase, hp, declarationsOf] using hb
  | false =>
    have hs := t.size_declared (Subject.ofBase base) slot
    simp [Subject.placement, Subject.size, declarationsOf, hs]

theorem groupStyles_eq (t : Target) (slot : Slot Float) (base : Base) :
    t.groupStyles slot base = t.declare (t.ownGroupStyles slot base) .origin := by
  simp only [groupStyles, ownGroupStyles, styles_append]

mutual
/-- Deciding by styles is deciding by the node and its slot. -/
theorem walk_eq_elements (t : Target) (followHints : Bool) (slot : Slot Float) : (n : Node) →
    t.walk followHints slot n = t.elements (n.pieces Base.position followHints slot)
  | .frame base layout hint clips children => by
    unfold walk Node.pieces
    split
    · rfl
    · split
      · exact t.walkAll_eq_elements followHints _ children
      · simp only [t.walkAll_eq_elements followHints _ children, elements, element, elements_isEmpty]
  | .group base children => by
    unfold walk Node.pieces
    rw [ownGroupStyles_isEmpty]
    split
    · rfl
    · split
      · exact t.walkAll_eq_elements followHints _ children
      · rw [t.walkAll_eq_elements followHints _ children]
        cases Node.piecesAll Base.position followHints (.free base.position) children with
        | nil => rfl
        | cons p ps => simp only [elements, element, groupStyles_eq]
  | .shape kind base => by
    cases kind <;> simp only [walk, Node.pieces] <;> split <;> rfl
  | .text base box => by
    unfold walk Node.pieces
    split <;> rfl
  | .unknown => rfl

theorem walkAll_eq_elements (t : Target) (followHints : Bool) (slot : Slot Float) : (ns : List Node) →
    t.walkAll followHints slot ns = t.elements (Node.piecesAll Base.position followHints slot ns)
  | [] => rfl
  | n :: ns => by
    simp only [walkAll, Node.piecesAll, elements_append, t.walk_eq_elements followHints slot n,
      t.walkAll_eq_elements followHints slot ns]
end

end Target

/-- Plain groups are the unstyled ones. -/
theorem Base.isPlain_iff (b : Base) : b.isPlain = true ↔ b.IsUnstyled := by
  have hr : (b.rotation != 0) = !(b.rotation == 0) := rfl
  simp only [isPlain, IsUnstyled, shownOpacity, hr, Bool.not_or, Bool.not_not, Bool.and_eq_true,
    Bool.not_eq_true']
  refine and_congr_left fun _ => ?_
  cases hn : b.opacity.isNaN with
  | true =>
    have hc : Number.clampUnit b.opacity = b.opacity := by
      have hgt : ¬ (1 : Float) < b.opacity := Number.not_gt_of_isNaN hn 1
      simp [Number.clampUnit, Number.not_lt_of_isNaN hn, hgt]
    simp [hc, Number.not_lt_of_isNaN hn]
  | false => simp [Number.clampUnit_lt_one_iff hn]

end SceneCode
