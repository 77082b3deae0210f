import SceneCode.Number.Double

namespace SceneCode.Number
open Float.Model

theorem magnitude_compare_swap (e f : Int) (m n : Nat) :
    (compare f e).then (compare n m) = ((compare e f).then (compare m n)).swap := by
  rw [Ordering.swap_then, ← Std.OrientedCmp.eq_swap, ← Std.OrientedCmp.eq_swap]

/-- Exchanging the sides of a comparison turns its answer around. -/
theorem unpacked_compare_swap (a b : UnpackedFloat) :
    b.compare a = (a.compare b).map Ordering.swap := by
  cases a with
  | notANumber => cases b <;> rfl
  | infinity s =>
    cases s <;> cases b <;> try rfl
    all_goals (rename_i t; cases t <;> rfl)
  | zero s =>
    cases b with
    | notANumber => rfl
    | infinity t => cases t <;> rfl
    | zero t => rfl
    | finite t n f hn => cases t <;> rfl
  | finite s m e hm =>
    cases b with
    | notANumber => cases s <;> rfl
    | infinity t => cases s <;> cases t <;> rfl
    | zero t => cases s <;> rfl
    | finite t n f hn =>
      cases s <;> cases t <;> try rfl
      · exact congrArg (fun o => some (Ordering.swap o)) (magnitude_compare_swap e f m n)
      · exact congrArg some (magnitude_compare_swap e f m n)

/-- Only what is not a number cannot be compared. -/
theorem unpacked_compare_eq_none (a b : UnpackedFloat) :
    a.compare b = none ↔ a.isNaN = true ∨ b.isNaN = true := by
  have hn : ¬ (false = true ∨ false = true) := by decide
  cases a with
  | notANumber => exact iff_of_true rfl (.inl rfl)
  | infinity s =>
    cases b with
    | notANumber => cases s <;> exact iff_of_true rfl (.inr rfl)
    | infinity t => cases s <;> cases t <;> exact iff_of_false (Option.some_ne_none _) hn
    | _ => cases s <;> exact iff_of_false (Option.some_ne_none _) hn
  | zero s =>
    cases b with
    | notANumber => exact iff_of_true rfl (.inr rfl)
    | zero t => exact iff_of_false (Option.some_ne_none _) hn
    | infinity t => cases t <;> exact iff_of_false (Option.some_ne_none _) hn
    | finite t n f hn' => cases t <;> exact iff_of_false (Option.some_ne_none _) hn
  | finite s m e hm =>
    cases b with
    | notANumber => cases s <;> exact iff_of_true rfl (.inr rfl)
    | zero t => cases s <;> exact iff_of_false (Option.some_ne_none _) hn
    | infinity t => cases s <;> cases t <;> exact iff_of_false (Option.some_ne_none _) hn
    | finite t n f hn' => cases s <;> cases t <;> exact iff_of_false (Option.some_ne_none _) hn

theorem lt_iff_compare (x y : Float) : x < y ↔ x.toModel.unpack.compare y.toModel.unpack = some .lt := by
  change decide (x.toModel.unpack.lt y.toModel.unpack = true) = true ↔ _
  simp [UnpackedFloat.lt]

theorem beq_iff_compare (x y : Float) :
    (x == y) = true ↔ x.toModel.unpack.compare y.toModel.unpack = some .eq := by
  change (x.toModel.unpack.compare y.toModel.unpack == some .eq) = true ↔ _
  simp

theorem not_lt_of_isNaN {x : Float} (h : x.isNaN = true) (y : Float) : ¬ x < y := by
  have hn := (unpacked_compare_eq_none x.toModel.unpack y.toModel.unpack).mpr (.inl h)
  simp [lt_iff_compare, hn]

theorem not_gt_of_isNaN {x : Float} (h : x.isNaN = true) (y : Float) : ¬ y < x := by
  have hn := (unpacked_compare_eq_none y.toModel.unpack x.toModel.unpack).mpr (.inr h)
  simp [lt_iff_compare, hn]

theorem exists_compare {x y : Float} (hx : x.isNaN = false) (hy : y.isNaN = false) :
    ∃ o, x.toModel.unpack.compare y.toModel.unpack = some o := by
  refine Option.ne_none_iff_exists'.mp fun hc => ?_
  rcases (unpacked_compare_eq_none _ _).mp hc with h | h
  · exact absurd (hx.symm.trans h) (by decide)
  · exact absurd (hy.symm.trans h) (by decide)

theorem lt_trichotomy {x y : Float} (hx : x.isNaN = false) (hy : y.isNaN = false) :
    x < y ∨ y < x ∨ (x == y) = true := by
  obtain ⟨o, hc⟩ := exists_compare hx hy
  cases o with
  | lt => exact .inl ((lt_iff_compare x y).mpr hc)
  | eq => exact .inr (.inr ((beq_iff_compare x y).mpr hc))
  | gt =>
    refine .inr (.inl ((lt_iff_compare y x).mpr ?_))
    rw [unpacked_compare_swap, hc]
    rfl

theorem lt_irrefl_of_beq {x y : Float} (h : (x == y) = true) : ¬ x < y := by
  rw [lt_iff_compare, (beq_iff_compare x y).mp h]
  decide

/-- Held between 0 and 1, a number is 1 or it lies below. -/
theorem clampUnit_lt_one_iff {x : Float} (h : x.isNaN = false) :
    clampUnit x < 1 ↔ (clampUnit x == 1) = false := by
  unfold clampUnit
  split
  · decide
  · split
    · decide
    · rename_i hn hl
      rcases lt_trichotomy h (by decide : (1 : Float).isNaN = false) with hlt | hgt | heq
      · refine iff_of_true hlt ?_
        cases hb : x == 1 with
        | false => rfl
        | true => exact absurd hlt (lt_irrefl_of_beq hb)
      · exact absurd hgt hl
      · simp [heq, lt_irrefl_of_beq heq]

end SceneCode.Number
