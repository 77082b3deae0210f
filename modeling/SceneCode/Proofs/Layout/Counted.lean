import SceneCode.Proofs.Layout.Aligned
import SceneCode.Proofs.Pruning.Code

namespace SceneCode

namespace Number
open Float.Model

theorem sub_congr {x x' : Float} (h : x.toModel.unpack = x'.toModel.unpack) (y : Float) : y - x = y - x' := by
  change Float.ofModel (.pack (.sub _ y.toModel.unpack x.toModel.unpack)) = _
  rw [h]
  rfl

/-- Behind what lies as far below zero as can be, the distance to zero is an even gap. -/
theorem isEven_sub_of_le_least {x : Float} (h : x ≤ least) : Infer.isEven [0 - x] = true := by
  rcases unpack_of_le_least h with h | h
  · have hi : (Float.ofBits 0xFFF0000000000000).toModel.unpack = .infinity .negative := rfl
    rw [sub_congr (h.trans hi.symm)]
    decide +kernel
  · rw [sub_congr h]
    decide +kernel

theorem least_add_tolerance : least + Infer.tolerance = least := by
  decide +kernel

end Number

namespace Infer

/-- One box alone is no flow, but two are if the first ends as far below zero as can be and the second begins at
zero. -/
theorem infer_pair_ne {b c : Box Float} {d : Direction} (hd : direction? [b, c] = some d) (hc : c.start d = 0)
    (hb : b.finish d ≤ Number.least) (width height : Float) : infer width height [b, c] ≠ infer width height [c] := by
  have hg : gaps d [b, c] = [0 - b.finish d] := by
    rw [gaps_cons, hc]
    rfl
  have he : isEven (gaps d [b, c]) = true := hg ▸ Number.isEven_sub_of_le_least hb
  have hi : infer width height [b, c] = some (along width height [b, c] d) :=
    infer_eq_some_iff.mpr ⟨le_rfl, d, hd, he, rfl⟩
  rw [hi]
  exact Option.some_ne_none _

theorem isSequential_pair (d : Direction) (b c : Box Float) :
    isSequential d [b, c] = decide (b.finish d ≤ c.start d + tolerance) :=
  Bool.and_true _

/-- Two boxes that lie together at the far end of both axes. -/
def farOff : List (Box Float) :=
  [⟨Number.least, Number.least, 10, 10⟩, ⟨Number.least, Number.least, 10, 10⟩]

theorem isSequential_cons_farOff {b : Box Float} {d : Direction} (h : ¬ b.finish d ≤ Number.least) :
    isSequential d (b :: farOff) = false := by
  have hs : (⟨Number.least, Number.least, 10, 10⟩ : Box Float).start d + tolerance = Number.least := by
    cases d <;> exact Number.least_add_tolerance
  rw [farOff, isSequential_cons, hs, decide_eq_false h, Bool.false_and]

/-- They are a row, but no longer if a box comes first that does not end before they begin. -/
theorem infer_cons_farOff_ne {b : Box Float} (hr : ¬ b.finish .row ≤ Number.least)
    (hc : ¬ b.finish .column ≤ Number.least) : infer 0 0 (b :: farOff) ≠ infer 0 0 farOff := by
  have hf : (infer 0 0 farOff).isSome = true := by decide +kernel
  obtain ⟨i, hi⟩ := Option.isSome_iff_exists.mp hf
  intro h
  obtain ⟨-, d, hd, -⟩ := infer_eq_some_iff.mp (h.trans hi)
  simp [direction?, isSequential_cons_farOff hr, isSequential_cons_farOff hc] at hd

/-- Whatever box comes first, there are boxes behind it for which it matters. -/
theorem exists_infer_ne (b : Box Float) : ∃ boxes, infer 0 0 (b :: boxes) ≠ infer 0 0 boxes := by
  by_cases hr : b.finish .row ≤ Number.least
  · -- A box at zero stands behind it in a row.
    refine ⟨[⟨0, 0, 10, 10⟩], infer_pair_ne (d := .row) ?_ rfl hr 0 0⟩
    have hs : isSequential .row [b, ⟨0, 0, 10, 10⟩] = true := by
      rw [isSequential_pair, decide_eq_true_iff]
      exact Number.le_trans hr (by decide +kernel)
    rw [direction?, if_pos hs]
  · by_cases hc : b.finish .column ≤ Number.least
    · -- A box at zero stands below it in a column, and not behind it in a row if it begins as far off as can be.
      refine ⟨[⟨Number.least, 0, 10, 10⟩], infer_pair_ne (d := .column) ?_ rfl hc 0 0⟩
      have hs : isSequential .row [b, ⟨Number.least, 0, 10, 10⟩] = false := by
        rw [isSequential_pair, decide_eq_false_iff_not]
        exact Number.least_add_tolerance.symm ▸ hr
      have hs' : isSequential .column [b, ⟨Number.least, 0, 10, 10⟩] = true := by
        rw [isSequential_pair, decide_eq_true_iff]
        exact Number.le_trans hc (by decide +kernel)
      rw [direction?, if_neg (by simp [hs]), if_pos hs']
    · exact ⟨farOff, infer_cons_farOff_ne hr hc⟩

end Infer

namespace Layout

theorem ofInference_injective : Function.Injective ofInference := by
  rintro ⟨⟩ ⟨⟩ h
  simp_all [ofInference]

theorem infer_eq_iff {base : Base} {ns ms : List Node} : infer base ns = infer base ms ↔
    Infer.infer base.width base.height (boxes ns) = Infer.infer base.width base.height (boxes ms) :=
  (Option.map_injective ofInference_injective).eq_iff

theorem boxes_append (ns ms : List Node) : boxes (ns ++ ms) = boxes ns ++ boxes ms := by
  rw [boxes, visibleBases_append, List.map_append]
  rfl

theorem boxes_cons_of_hidden {n : Node} (h : n.visible = false) (ns : List Node) : boxes (n :: ns) = boxes ns := by
  simp [boxes, visibleBases_eq, h]

theorem boxes_cons_of_visible {n : Node} (h : n.visible = true) : ∃ b, ∀ ns, boxes (n :: ns) = b :: boxes ns := by
  cases hb : n.base? with
  | none => simp [Node.visible, hb] at h
  | some base =>
    have hv : base.visible = true := by simpa [Node.visible, hb] using h
    exact ⟨⟨base.x, base.y, base.width, base.height⟩, fun ns => by simp [boxes, visibleBases, hb, hv]⟩

/-- Rectangles with the given boxes. -/
def standIns (boxes : List (Box Float)) : List Node :=
  boxes.map fun b => .shape .rectangle (.named "" b.x b.y b.width b.height)

theorem boxes_standIns (bs : List (Box Float)) : boxes (standIns bs) = bs := by
  induction bs with
  | nil => rfl
  | cons b bs ih => exact congrArg (b :: ·) ih

end Layout

/-- A node may be taken out of every frame without changing what is guessed exactly if it is hidden or unknown. All
others are counted somewhere, whether or not anything is drawn of them. -/
theorem removable_iff_hidden (n : Node) :
    (∀ base before after, Layout.infer base (before ++ n :: after) = Layout.infer base (before ++ after)) ↔
      n.visible = false := by
  constructor
  · intro h
    by_contra hv
    obtain ⟨b, hb⟩ := Layout.boxes_cons_of_visible (Bool.of_not_eq_false hv)
    obtain ⟨bs, hne⟩ := Infer.exists_infer_ne b
    have hi := Layout.infer_eq_iff.mp (h (.named "" 0 0 0 0) [] (Layout.standIns bs))
    rw [List.nil_append, List.nil_append, hb, Layout.boxes_standIns] at hi
    exact hne hi
  · intro hv base before after
    rw [Layout.infer_eq_iff, Layout.boxes_append, Layout.boxes_append, Layout.boxes_cons_of_hidden hv]

/-- Between two boxes that are a row a third one of no width, of which nothing is drawn, makes the gaps uneven. -/
example :
    let empty : Node := .shape .rectangle (.named "Empty" 45 0 0 40)
    let first : Node := .shape .rectangle (.named "A" 0 0 40 40)
    let last : Node := .shape .rectangle (.named "B" 60 0 40 40)
    Scene.pieces true [empty] = [] ∧ Layout.infer (.named "Row" 0 0 100 40) [first, empty, last] = none ∧
      (Layout.infer (.named "Row" 0 0 100 40) [first, last]).isSome = true := by
  decide +kernel

end SceneCode
