import SceneCode.Proofs.Layout.Aligned

namespace SceneCode

instance : Length ℚ where
  decLe := inferInstance
  ofNat n := n
  round x := if 0 ≤ x then ⌊x + 1 / 2⌋ else -⌊-x + 1 / 2⌋

instance : Length.Lawful ℚ where
  trans := le_trans
  total _ _ := le_total _ _
  sub_le ha ha' hb hb' h := by rwa [le_antisymm ha' ha, le_antisymm hb' hb]

namespace Infer

@[simp]
theorem tolerance_eq : (tolerance : ℚ) = 1 := by
  norm_num [tolerance]

theorem larger_eq (a b : ℚ) : Number.larger a b = max a b := by
  unfold Number.larger
  split
  · rw [max_eq_right ‹_›]
  · rw [if_pos le_rfl, max_eq_left (le_of_not_ge ‹_›)]

theorem magnitude_eq (x : ℚ) : magnitude x = |x| := by
  unfold magnitude
  norm_num
  split
  · rw [abs_of_nonneg ‹_›]
  · rw [abs_of_neg (not_le.mp ‹_›)]

theorem exceeds_iff (a b : ℚ) : exceeds a b = true ↔ b < a := by
  simp only [exceeds, Bool.and_eq_true, decide_eq_true_eq, Bool.not_eq_true', decide_eq_false_iff_not, not_le,
    and_iff_right_iff_imp]
  exact le_of_lt

theorem whole_natCast (n : ℕ) : whole (n : ℚ) = n := by
  unfold whole
  rw [larger_eq]
  norm_num [Length.round]

theorem sum_eq (xs : List ℚ) : sum xs = xs.sum := by
  unfold sum
  norm_num
  exact List.sum_eq_foldl.symm

/-- Even gaps are even, and as wide as their mean. -/
theorem mean_replicate {n : ℕ} (hn : n ≠ 0) (gap : ℚ) : mean (List.replicate n gap) = gap := by
  have hc : (n : ℚ) ≠ 0 := Nat.cast_ne_zero.mpr hn
  rw [mean, sum_eq, List.sum_replicate, List.length_replicate, nsmul_eq_mul]
  exact mul_div_cancel_left₀ gap hc

theorem isEven_replicate {n : ℕ} (hn : n ≠ 0) (gap : ℚ) : isEven (List.replicate n gap) = true := by
  dsimp only [isEven]
  rw [mean_replicate hn, Bool.not_eq_true', List.any_eq_false]
  intro g hg
  rw [List.eq_of_mem_replicate hg, exceeds_iff, magnitude_eq, larger_eq, sub_self, abs_zero, tolerance_eq, not_lt]
  exact le_max_of_le_right zero_le_one

theorem least_eq {xs : List ℚ} {m : ℚ} (h : IsLeast {x | x ∈ xs} m) : least xs = m := by
  obtain ⟨hm, hl⟩ := least_picks (List.ne_nil_of_mem h.1) fun _ _ => le_rfl
  exact le_antisymm (hl m h.1) (h.2 hm)

theorem greatest_eq {xs : List ℚ} {m : ℚ} (h : IsGreatest {x | x ∈ xs} m) : greatest xs = m := by
  obtain ⟨hm, hl⟩ := greatest_picks (List.ne_nil_of_mem h.1) fun _ _ => le_rfl
  exact le_antisymm (h.2 hm) (hl m h.1)

end Infer
end SceneCode
