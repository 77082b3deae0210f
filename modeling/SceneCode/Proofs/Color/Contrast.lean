import SceneCode.Color.Contrast
import SceneCode.Proofs.Number.Quotients

namespace SceneCode.Number
open Float.Model UnpackedFloat

theorem isFinite_glare : (0.05 : Float).isFinite = true := by
  decide +kernel

theorem glare_pos : 0 < value 0.05 :=
  value_pos isFinite_glare (by decide +kernel)

theorem isFinite_raised {x : Float} (hx : x.isFinite = true) : (x + 0.05).isFinite = true :=
  isFinite_add hx isFinite_glare glare_pos.le (by decide +kernel)

theorem value_raised {x : Float} (hx : x.isFinite = true) : value (x + 0.05) = nearest (value x + value 0.05) :=
  (value_add hx isFinite_glare).2

theorem raised_le {x y : Float} (hx : x.isFinite = true) (hy : y.isFinite = true) (h : x ≤ y) :
    value (x + 0.05) ≤ value (y + 0.05) := by
  rw [value_raised hx, value_raised hy]
  exact nearest_mono (by linarith [(le_iff_value.mp h).2.2])

theorem isNaN_minus_glare : (-0.05 : Float).isNaN = false := by
  decide +kernel

theorem value_minus_glare : value (-0.05) = -value 0.05 :=
  (value_neg isFinite_glare).2

theorem raised_pos {x : Float} (hx : x.isFinite = true) (h : -0.05 < x) : 0 < value (x + 0.05) := by
  rw [lt_iff_value isNaN_minus_glare (isNaN_of_isFinite hx), value_minus_glare] at h
  rw [value_raised hx]
  exact (nearest_sum hx isFinite_glare).1 (by linarith)

theorem raised_neg {x : Float} (hx : x.isFinite = true) (h : x < -0.05) : value (x + 0.05) < 0 := by
  rw [lt_iff_value (isNaN_of_isFinite hx) isNaN_minus_glare, value_minus_glare] at h
  rw [value_raised hx]
  exact (nearest_sum hx isFinite_glare).2 (by linarith)

theorem eq_minus_glare {x : Float} (hx : x.isFinite = true) (h : ¬ x < -0.05) (h' : ¬ -0.05 < x) : x = -0.05 := by
  rw [lt_iff_value (isNaN_of_isFinite hx) isNaN_minus_glare] at h
  rw [lt_iff_value isNaN_minus_glare (isNaN_of_isFinite hx)] at h'
  have hv : value x = value (-0.05) := le_antisymm (not_lt.mp h') (not_lt.mp h)
  refine eq_of_value (isNaN_of_isFinite hx) isNaN_minus_glare hv ?_
  rw [hv, value_minus_glare]
  exact neg_ne_zero.mpr glare_pos.ne'

theorem raised_infinity {x : Float} {s : Sign} (h : x.toModel.unpack = .infinity s) :
    (x + 0.05).toModel.unpack = .infinity s := by
  obtain ⟨m, e, hm, hg⟩ := unpack_of_pos isFinite_glare glare_pos
  rw [unpack_add, h, hg]
  exact unpack_pack_infinity s

theorem one_le_ratio_of_gt {x y : Float} (hy : y.isFinite = true) (h : y ≤ x) (hpos : -0.05 < y) :
    1 ≤ (x + 0.05) / (y + 0.05) := by
  have h0 := raised_pos hy hpos
  rcases isFinite_or_infinity hy h with hx | hx
  · exact one_le_div_of_pos (isFinite_raised hx) (isFinite_raised hy) h0 (raised_le hy hx h)
  · obtain ⟨t, ht, hp, -⟩ := infinity_div (raised_infinity hx) (isFinite_raised hy)
    rw [one_le_iff_of_infinity ht, hp h0]
    rfl

theorem one_le_ratio_iff_of_lt {x y : Float} (hy : y.isFinite = true) (h : y ≤ x) (hneg : y < -0.05) :
    1 ≤ (x + 0.05) / (y + 0.05) ↔ x + 0.05 = y + 0.05 := by
  have h0 := raised_neg hy hneg
  have hy' := isFinite_raised hy
  rcases isFinite_or_infinity hy h with hx | hx
  · exact one_le_div_iff_of_neg (isFinite_raised hx) hy' h0 (raised_le hy hx h)
  · obtain ⟨t, ht, -, hn⟩ := infinity_div (raised_infinity hx) hy'
    rw [one_le_iff_of_infinity ht, hn h0]
    refine iff_of_false (by simp) fun he => ?_
    rw [← he] at hy'
    exact absurd hy' (Bool.eq_false_iff.mp (congrArg UnpackedFloat.isFinite (raised_infinity hx)))

theorem one_le_ratio_iff_of_eq {x : Float} (h : -0.05 ≤ x) : 1 ≤ (x + 0.05) / (-0.05 + 0.05) ↔ -0.05 < x := by
  have hz : (-0.05 : Float) + 0.05 = 0 := by decide +kernel
  have hf : (-0.05 : Float).isFinite = true := (value_neg isFinite_glare).1
  rw [hz]
  rcases isFinite_or_infinity hf h with hx | hx
  · rw [one_le_div_zero_iff (isNaN_of_isFinite (isFinite_raised hx))]
    refine ⟨fun h0 => ?_, raised_pos hx⟩
    by_contra hlt
    have hge : ¬ x < -0.05 := fun hx' => (lt_iff_not_le (isNaN_of_isFinite hx) isNaN_minus_glare).mp hx' h
    rw [eq_minus_glare hx hge hlt, hz, value_zero] at h0
    exact lt_irrefl 0 h0
  · have hr := raised_infinity hx
    have hv : value x = limit := congrArg level hx
    have hrv : value (x + 0.05) = limit := congrArg level hr
    rw [one_le_div_zero_iff (congrArg UnpackedFloat.isNaN hr),
      lt_iff_value isNaN_minus_glare (congrArg UnpackedFloat.isNaN hx), hrv, hv]
    exact iff_of_true limit_pos (abs_lt.mp (isFinite_iff.mp hf).2).2

/-- When the larger of two numbers comes to at least one, divided by the smaller one, if both are raised by 0.05: the
smaller one is finite, and it is above -0.05, or it is just there and the larger one above, or it is below and rounding
brings the two together. -/
def Contrasting (larger smaller : Float) : Prop :=
  smaller ≤ larger ∧ smaller.isFinite = true ∧
    (-0.05 < smaller ∨ smaller = -0.05 ∧ -0.05 < larger ∨ smaller < -0.05 ∧ larger + 0.05 = smaller + 0.05)

theorem one_le_ratio_iff {x y : Float} (hy : y.isFinite = true) (h : y ≤ x) :
    1 ≤ (x + 0.05) / (y + 0.05) ↔
      -0.05 < y ∨ y = -0.05 ∧ -0.05 < x ∨ y < -0.05 ∧ x + 0.05 = y + 0.05 := by
  have hirrefl : ¬ (-0.05 : Float) < -0.05 := by decide +kernel
  by_cases hpos : -0.05 < y
  · exact iff_of_true (one_le_ratio_of_gt hy h hpos) (.inl hpos)
  by_cases hneg : y < -0.05
  · have hne : y ≠ -0.05 := fun he => hirrefl (he ▸ hneg)
    simp [hpos, hneg, hne, one_le_ratio_iff_of_lt hy h hneg]
  · obtain rfl := eq_minus_glare hy hneg hpos
    simp [hirrefl, one_le_ratio_iff_of_eq h]

theorem one_le_ratio_iff_contrasting {x y : Float} (h : y ≤ x) :
    1 ≤ (x + 0.05) / (y + 0.05) ↔ Contrasting x y := by
  unfold Contrasting
  cases hy : y.isFinite with
  | true => simp [h, one_le_ratio_iff hy h]
  | false =>
    obtain ⟨s, hs⟩ := unpack_of_not_isFinite (le_iff_value.mp h).1 hy
    exact iff_of_false (not_one_le_div_infinity (raised_infinity hs)) fun hc => Bool.false_ne_true hc.2.1

/-- Numbers that are equal in their order are the same once they are raised, the two zeros too. -/
theorem raised_eq {x y : Float} (hxy : x ≤ y) (hyx : y ≤ x) : x + 0.05 = y + 0.05 := by
  rcases alike_of_le hxy hyx with h | ⟨s, t, hs, ht⟩
  · rw [eq_of_unpack h]
  · obtain ⟨m, e, hm, hg⟩ := unpack_of_pos isFinite_glare glare_pos
    refine eq_of_unpack ?_
    rw [unpack_add, unpack_add, hs, ht, hg]
    rfl

end SceneCode.Number

namespace SceneCode.Rgb
open Number

/-- The luminance of the lighter of two colours. -/
def lighter (a b : Rgb) : Float :=
  if b.luminance ≤ a.luminance then a.luminance else b.luminance

/-- The luminance of the darker of two colours. -/
def darker (a b : Rgb) : Float :=
  if b.luminance ≤ a.luminance then b.luminance else a.luminance

variable {a b : Rgb}

theorem contrast_eq (a b : Rgb) : a.contrast b = (lighter a b + 0.05) / (darker a b + 0.05) := by
  unfold lighter darker
  by_cases h : b.luminance ≤ a.luminance <;> simp only [contrast, h, if_true, if_false]

theorem contrast_of_le (h : b.luminance ≤ a.luminance) :
    a.contrast b = (a.luminance + 0.05) / (b.luminance + 0.05) := by
  rw [contrast_eq, lighter, darker, if_pos h, if_pos h]

theorem contrast_of_not_le (h : ¬ b.luminance ≤ a.luminance) :
    a.contrast b = (b.luminance + 0.05) / (a.luminance + 0.05) := by
  rw [contrast_eq, lighter, darker, if_neg h, if_neg h]

/-- Luminances that are numbers are in an order. -/
theorem le_or_isNaN (a b : Rgb) :
    a.luminance ≤ b.luminance ∨ b.luminance ≤ a.luminance ∨ a.luminance.isNaN = true ∨ b.luminance.isNaN = true := by
  cases ha : a.luminance.isNaN with
  | true => exact .inr (.inr (.inl rfl))
  | false =>
    cases hb : b.luminance.isNaN with
    | true => exact .inr (.inr (.inr rfl))
    | false =>
      rcases Number.le_total (le_self_iff.mpr ha) (le_self_iff.mpr hb) with h | h
      · exact .inl h
      · exact .inr (.inl h)

theorem isNaN_contrast (h : a.luminance.isNaN = true ∨ b.luminance.isNaN = true) : (a.contrast b).isNaN = true := by
  by_cases hle : b.luminance ≤ a.luminance
  · rw [contrast_of_le hle]
    exact isNaN_div_of_isNaN (h.imp (isNaN_add_of_isNaN · _) (isNaN_add_of_isNaN · _))
  · rw [contrast_of_not_le hle]
    exact isNaN_div_of_isNaN (h.symm.imp (isNaN_add_of_isNaN · _) (isNaN_add_of_isNaN · _))

/-- A contrast does not depend on the order of the colours. -/
theorem contrast_comm (a b : Rgb) : a.contrast b = b.contrast a := by
  by_cases hba : b.luminance ≤ a.luminance <;> by_cases hab : a.luminance ≤ b.luminance
  · rw [contrast_of_le hba, contrast_of_le hab, raised_eq hab hba]
  · rw [contrast_of_le hba, contrast_of_not_le hab]
  · rw [contrast_of_not_le hba, contrast_of_le hab]
  · have hn := ((le_or_isNaN a b).resolve_left hab).resolve_left hba
    exact eq_of_isNaN (isNaN_contrast hn) (isNaN_contrast hn.symm)

theorem one_le_contrast_iff (a b : Rgb) : 1 ≤ a.contrast b ↔ Contrasting (lighter a b) (darker a b) := by
  by_cases hle : darker a b ≤ lighter a b
  · rw [contrast_eq, one_le_ratio_iff_contrasting hle]
  · refine iff_of_false (fun h => ?_) fun hc => hle hc.1
    unfold darker lighter at hle
    by_cases hba : b.luminance ≤ a.luminance
    · rw [if_pos hba, if_pos hba] at hle
      exact hle hba
    · rw [if_neg hba, if_neg hba] at hle
      exact not_le_of_isNaN (isNaN_contrast (((le_or_isNaN a b).resolve_left hle).resolve_left hba)) 1 h

/-- The contrast of two colours is the same whichever comes first. It is at least one exactly for those whose darker
luminance is finite and above -0.05, apart from two borderline cases. -/
theorem contrast_comm_and_one_le_iff (a b : Rgb) :
    a.contrast b = b.contrast a ∧ (1 ≤ a.contrast b ↔ Contrasting (lighter a b) (darker a b)) :=
  ⟨contrast_comm a b, one_le_contrast_iff a b⟩

example : ¬ 1 ≤ contrast ⟨-1, -1, -1⟩ black := by
  decide +kernel

/-- A channel that is not negative, and where a power is taken of it, the power is not negative either. -/
def IsLight (channel : Float) : Prop :=
  0 ≤ channel ∧ (¬ channel ≤ 0.03928 → 0 ≤ Float.pow ((channel + 0.055) / 1.055) 2.4)

theorem linear_nonneg {channel : Float} (h : IsLight channel) : 0 ≤ linear channel := by
  unfold linear
  split
  · exact nonneg_div (by decide +kernel) (by decide +kernel) h.1
  · rename_i hc
    exact h.2 hc

theorem luminance_nonneg {c : Rgb} (hr : IsLight c.r) (hg : IsLight c.g) (hb : IsLight c.b) : 0 ≤ c.luminance := by
  have hr' : 0 ≤ 0.2126 * linear c.r := nonneg_mul (by decide +kernel) (by decide +kernel) (linear_nonneg hr)
  have hg' : 0 ≤ 0.7152 * linear c.g := nonneg_mul (by decide +kernel) (by decide +kernel) (linear_nonneg hg)
  have hb' : 0 ≤ 0.0722 * linear c.b := nonneg_mul (by decide +kernel) (by decide +kernel) (linear_nonneg hb)
  exact nonneg_add (nonneg_add hr' hg') hb'

theorem one_le_contrast_of_le (h : b.luminance ≤ a.luminance) (hb : 0 ≤ b.luminance)
    (hf : b.luminance.isFinite = true) : 1 ≤ a.contrast b := by
  have hv := (le_iff_value.mp hb).2.2
  rw [value_zero] at hv
  have hlt : -0.05 < b.luminance := by
    rw [lt_iff_value isNaN_minus_glare (isNaN_of_isFinite hf), value_minus_glare]
    exact (neg_neg_of_pos glare_pos).trans_le hv
  rw [contrast_of_le h]
  exact one_le_ratio_of_gt hf h hlt

/-- Only negative channels and infinite luminances bring a contrast below one. -/
theorem one_le_contrast (ha : ∀ x ∈ [a.r, a.g, a.b], IsLight x) (hb : ∀ x ∈ [b.r, b.g, b.b], IsLight x)
    (hf : a.luminance.isFinite = true ∨ b.luminance.isFinite = true) : 1 ≤ a.contrast b := by
  have ha : 0 ≤ a.luminance := luminance_nonneg (ha _ (by simp)) (ha _ (by simp)) (ha _ (by simp))
  have hb : 0 ≤ b.luminance := luminance_nonneg (hb _ (by simp)) (hb _ (by simp)) (hb _ (by simp))
  have hna := (le_iff_value.mp ha).2.1
  have hnb := (le_iff_value.mp hb).2.1
  rcases Number.le_total (le_self_iff.mpr hna) (le_self_iff.mpr hnb) with h | h
  · rw [contrast_comm]
    exact one_le_contrast_of_le h ha (hf.elim id (isFinite_of_le ha h))
  · exact one_le_contrast_of_le h hb (hf.elim (isFinite_of_le hb h) id)

end SceneCode.Rgb
