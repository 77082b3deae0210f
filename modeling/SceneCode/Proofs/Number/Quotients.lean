import SceneCode.Proofs.Number.Values

namespace SceneCode.Number
open Float.Model UnpackedFloat

theorem unpack_of_isNaN {x : Float} (h : x.isNaN = true) : x.toModel.unpack = .notANumber := by
  rw [isNaN_eq] at h
  cases hu : x.toModel.unpack with
  | notANumber => rfl
  | _ => simp [hu, UnpackedFloat.isNaN] at h

theorem eq_of_unpack {x y : Float} (h : x.toModel.unpack = y.toModel.unpack) : x = y := by
  have hm : x.toModel = y.toModel := by rw [← pack_unpack x.toModel, h, pack_unpack]
  cases x
  cases y
  exact congrArg Float.ofModel hm

theorem eq_of_isNaN {x y : Float} (hx : x.isNaN = true) (hy : y.isNaN = true) : x = y :=
  eq_of_unpack ((unpack_of_isNaN hx).trans (unpack_of_isNaN hy).symm)

theorem isNaN_add_of_isNaN {x : Float} (h : x.isNaN = true) (y : Float) : (x + y).isNaN = true := by
  have ha : x.toModel.unpack.add .binary64 y.toModel.unpack = .notANumber := by
    rw [unpack_of_isNaN h]
    cases y.toModel.unpack <;> rfl
  rw [isNaN_eq, unpack_add, ha, unpack_pack_notANumber]
  rfl

theorem isNaN_div_of_isNaN {x y : Float} (h : x.isNaN = true ∨ y.isNaN = true) : (x / y).isNaN = true := by
  have hd : x.toModel.unpack.div .binary64 y.toModel.unpack = .notANumber := by
    rcases h with h | h <;> rw [unpack_of_isNaN h]
    · rfl
    · cases x.toModel.unpack <;> rfl
  rw [isNaN_eq, unpack_div, hd, unpack_pack_notANumber]
  rfl

theorem not_le_of_isNaN {x : Float} (h : x.isNaN = true) (y : Float) : ¬ y ≤ x := by
  rw [le_iff_place]
  rintro ⟨-, hx, -⟩
  exact absurd (h.symm.trans hx) (by decide)

theorem eq_of_value {x y : Float} (hx : x.isNaN = false) (hy : y.isNaN = false) (h : value x = value y)
    (h0 : value x ≠ 0) : x = y := by
  have hp : place x.toModel.unpack = place y.toModel.unpack :=
    le_antisymm ((place_le_iff_level (placed_unpack _) (placed_unpack _) hx hy).mpr h.le)
      ((place_le_iff_level (placed_unpack _) (placed_unpack _) hy hx).mpr h.ge)
  rcases alike_of_place hx hy hp with hu | ⟨s, t, hs, -⟩
  · exact eq_of_unpack hu
  · exact absurd (congrArg level hs) h0

/-- Numbers that are not finite are the two infinities. -/
theorem unpack_of_not_isFinite {x : Float} (hx : x.isNaN = false) (h : x.isFinite = false) :
    ∃ s, x.toModel.unpack = .infinity s := by
  rw [isNaN_eq] at hx
  rw [isFinite_eq] at h
  cases hu : x.toModel.unpack with
  | infinity s => exact ⟨s, rfl⟩
  | notANumber => simp [hu, UnpackedFloat.isNaN] at hx
  | _ => simp [hu, UnpackedFloat.isFinite] at h

/-- A finite double is a whole number of the smallest units there are. -/
theorem value_units {x : Float} (hx : x.isFinite = true) : ∃ n : ℤ, value x = n * 2 ^ (-1074 : ℤ) := by
  obtain ⟨s, m, e, -, hn, hv⟩ := read_of_isFinite hx
  obtain ⟨k, hk⟩ := two_zpow_eq_mul hn.low
  refine ⟨s.apply m * k, ?_⟩
  have hs := apply_units s m e
  rw [hv, ← hs, hk, Int.cast_mul, mul_assoc]

theorem nearest_pos {n : ℤ} (h : (0 : ℚ) < n * 2 ^ (-1074 : ℤ)) : 0 < nearest (n * 2 ^ (-1074 : ℤ)) := by
  have hp := two_zpow_pos (-1074)
  have hn : 0 < n := by exact_mod_cast pos_of_mul_pos_left h hp.le
  have h1 : (1 : ℚ) ≤ n := by exact_mod_cast hn
  have hu := nearest_units (by decide : 1 < 2 ^ 53) (le_refl (-1074 : ℤ)) (by decide)
  rw [Nat.cast_one, one_mul] at hu
  calc (0 : ℚ) < 2 ^ (-1074 : ℤ) := hp
    _ = nearest (2 ^ (-1074 : ℤ)) := hu.symm
    _ ≤ nearest (n * 2 ^ (-1074 : ℤ)) := nearest_mono (le_mul_of_one_le_left hp.le h1)

/-- The sum of two doubles is rounded to the side of zero that it is on. -/
theorem nearest_sum {x y : Float} (hx : x.isFinite = true) (hy : y.isFinite = true) :
    (0 < value x + value y → 0 < nearest (value x + value y)) ∧
      (value x + value y < 0 → nearest (value x + value y) < 0) := by
  obtain ⟨m, hm⟩ := value_units hx
  obtain ⟨n, hn⟩ := value_units hy
  rw [hm, hn, ← add_mul, ← Int.cast_add]
  refine ⟨nearest_pos, fun h => ?_⟩
  have hneg : -(((m + n : ℤ) : ℚ) * 2 ^ (-1074 : ℤ)) = ((-(m + n) : ℤ) : ℚ) * 2 ^ (-1074 : ℤ) := by
    rw [Int.cast_neg, neg_mul]
  have hp := nearest_pos (n := -(m + n)) (by rw [← hneg]; exact neg_pos.mpr h)
  rw [← hneg, nearest_neg] at hp
  exact neg_pos.mp hp

/-- Between two doubles is at least the distance of one to the double below it, in proportion to the larger. -/
theorem IsNormal.le_mul_of_lt {m n : ℕ} {e f : ℤ} (h : IsNormal m e) (h' : IsNormal n f)
    (hlt : (m : ℚ) * 2 ^ e < n * 2 ^ f) : (m : ℚ) * 2 ^ e ≤ (1 - 1 / 2 ^ 53) * (n * 2 ^ f) := by
  have hp := two_zpow_pos f
  have hm : (m : ℚ) + 1 ≤ 2 ^ 53 := by exact_mod_cast h.lt
  have hn : (n : ℚ) < 2 ^ 53 := by exact_mod_cast h'.lt
  rcases Int.lt_trichotomy e f with he | rfl | he
  · have hn : (2 : ℚ) ^ 52 ≤ n := by exact_mod_cast h'.full.resolve_right (by have := h.low; omega)
    have hz : (2 : ℚ) ^ e ≤ 2 ^ f / 2 := by
      rw [div_eq_mul_inv, ← zpow_sub_one₀ (two_ne_zero' ℚ)]
      exact zpow_le_zpow_right₀ one_le_two (by omega)
    calc (m : ℚ) * 2 ^ e ≤ m * (2 ^ f / 2) := mul_le_mul_of_nonneg_left hz (Nat.cast_nonneg m)
      _ ≤ (2 ^ 53 - 1) * (2 ^ f / 2) := mul_le_mul_of_nonneg_right (by linarith) (half_pos hp).le
      _ = (1 - 1 / 2 ^ 53) * (2 ^ 52 * 2 ^ f) := by ring
      _ ≤ (1 - 1 / 2 ^ 53) * (n * 2 ^ f) :=
        mul_le_mul_of_nonneg_left (mul_le_mul_of_nonneg_right hn hp.le) (by norm_num)
  · have hmn : (m : ℚ) + 1 ≤ n := by
      have hmn := lt_of_mul_lt_mul_right hlt hp.le
      exact_mod_cast hmn
    have hk : (m : ℚ) ≤ (1 - 1 / 2 ^ 53) * n := by
      linarith
    calc (m : ℚ) * 2 ^ e ≤ (1 - 1 / 2 ^ 53) * n * 2 ^ e := mul_le_mul_of_nonneg_right hk hp.le
      _ = (1 - 1 / 2 ^ 53) * (n * 2 ^ e) := mul_assoc _ _ _
  · exact absurd (h'.lt_of_magnitude h (.inl he)) hlt.not_gt

theorem nearest_lt_one : nearest (1 - 1 / 2 ^ 53) < 1 := by
  have hu := nearest_units (by decide : 2 ^ 53 - 1 < 2 ^ 53) (by decide : -1074 ≤ (-53 : ℤ)) (by decide)
  have he : ((2 ^ 53 - 1 : ℕ) : ℚ) * 2 ^ (-53 : ℤ) = 1 - 1 / 2 ^ 53 := by
    norm_num
  rw [he] at hu
  rw [hu]
  norm_num

theorem nearest_div_lt_one {x y : Float} (hx : x.isFinite = true) (hy : y.isFinite = true) (hneg : value y < 0)
    (h : value y < value x) : nearest (value x / value y) < 1 := by
  obtain ⟨s, m, e, -, hm, hvx⟩ := read_of_isFinite hx
  obtain ⟨t, n, f, -, hn, hvy⟩ := read_of_isFinite hy
  have hp : (0 : ℚ) ≤ m * 2 ^ e := mul_nonneg (Nat.cast_nonneg m) (two_zpow_pos e).le
  have hq : (0 : ℚ) ≤ n * 2 ^ f := mul_nonneg (Nat.cast_nonneg n) (two_zpow_pos f).le
  rw [hvy] at hneg h ⊢
  rw [hvx] at h ⊢
  cases t with
  | positive => exact absurd hneg hq.not_gt
  | negative =>
    cases s with
    | positive =>
      have hle := nearest_mono (div_nonpos_of_nonneg_of_nonpos hp hneg.le)
      rw [nearest_zero] at hle
      exact hle.trans_lt one_pos
    | negative =>
      have hlt : (m : ℚ) * 2 ^ e < n * 2 ^ f := neg_lt_neg_iff.mp h
      have hle : (m : ℚ) * 2 ^ e / (n * 2 ^ f) ≤ 1 - 1 / 2 ^ 53 :=
        (div_le_iff₀ (hp.trans_lt hlt)).mpr (hm.le_mul_of_lt hn hlt)
      change nearest (-(m * 2 ^ e) / -(n * 2 ^ f)) < 1
      rw [neg_div_neg_eq]
      exact (nearest_mono hle).trans_lt nearest_lt_one

/-- The greatest finite double. -/
def greatest : Float :=
  .ofBits 0x7FEFFFFFFFFFFFFF

theorem abs_value_le_greatest {x : Float} (hx : x.isFinite = true) : |value x| ≤ value greatest := by
  have hg : greatest.toModel.unpack = .finite .positive (2 ^ 53 - 1) 971 (by decide) := by
    rfl
  have hp : (0 : ℚ) ≤ ((2 ^ 53 - 1 : ℕ) : ℚ) * 2 ^ (971 : ℤ) := mul_nonneg (Nat.cast_nonneg _) (two_zpow_pos 971).le
  rw [value, value, hg]
  change _ ≤ ((2 ^ 53 - 1 : ℕ) : ℚ) * 2 ^ (971 : ℤ)
  rcases finite_cases hx with ⟨s, hu⟩ | ⟨s, m, e, hm, hu⟩ <;> rw [hu]
  · change |(0 : ℚ)| ≤ _
    rwa [abs_zero]
  · obtain ⟨hn, he⟩ := unpack_shape hu
    have hm : (m : ℚ) ≤ (2 ^ 53 - 1 : ℕ) := Nat.cast_le.mpr (Nat.le_pred_of_lt hn.lt)
    have hz : (2 : ℚ) ^ e ≤ 2 ^ (971 : ℤ) := zpow_le_zpow_right₀ one_le_two he
    rw [level, abs_signedBy, abs_of_nonneg (mul_nonneg (Nat.cast_nonneg m) (two_zpow_pos e).le)]
    exact mul_le_mul hm hz (two_zpow_pos e).le (Nat.cast_nonneg _)

theorem isFinite_add {x c : Float} (hx : x.isFinite = true) (hc : c.isFinite = true) (h0 : 0 ≤ value c)
    (hg : greatest + c = greatest) : (x + c).isFinite = true := by
  have hf : greatest.isFinite = true := by decide
  have hb := abs_le.mp (abs_value_le_greatest hx)
  obtain ⟨hn, hv⟩ := value_add hx hc
  have hge := (value_add hf hc).2
  rw [hg] at hge
  have hhi : value (x + c) ≤ value greatest := by
    rw [hv, hge]
    exact nearest_mono (by linarith)
  have hlo : -value greatest ≤ value (x + c) := by
    rw [hv, ← nearest_value greatest, ← nearest_neg]
    exact nearest_mono (by linarith)
  exact isFinite_iff.mpr ⟨hn, (abs_le.mpr ⟨hlo, hhi⟩).trans_lt
    ((le_abs_self _).trans_lt (isFinite_iff.mp hf).2)⟩

theorem value_zero : value 0 = 0 := by
  have h := (value_ofNat (by decide : 0 < 2 ^ 53)).2
  rwa [Nat.cast_zero] at h

theorem value_one : value 1 = 1 := by
  have h := (value_ofNat (by decide : 1 < 2 ^ 53)).2
  rwa [Nat.cast_one] at h

/-- What is at least a finite number is finite itself, or it is infinite and positive. -/
theorem isFinite_or_infinity {x y : Float} (hy : y.isFinite = true) (h : y ≤ x) :
    x.isFinite = true ∨ x.toModel.unpack = .infinity .positive := by
  obtain ⟨-, hx, hv⟩ := le_iff_value.mp h
  cases hf : x.isFinite with
  | true => exact .inl rfl
  | false =>
    obtain ⟨s, hs⟩ := unpack_of_not_isFinite hx hf
    cases s with
    | positive => exact .inr hs
    | negative =>
      have hxv : value x = -limit := congrArg level hs
      exact absurd (abs_lt.mp (isFinite_iff.mp hy).2).1 (hv.trans_eq hxv).not_gt

theorem value_pos {x : Float} (hx : x.isFinite = true) (h : 0 < x) : 0 < value x := by
  rwa [lt_iff_value (by decide) (isNaN_of_isFinite hx), value_zero] at h

theorem nonneg_iff {x : Float} :
    0 ≤ x ↔ x.isFinite = true ∧ 0 ≤ value x ∨ x.toModel.unpack = .infinity .positive := by
  have h0 : (0 : Float).isFinite = true := by decide
  constructor
  · intro h
    have hv := (le_iff_value.mp h).2.2
    rw [value_zero] at hv
    exact (isFinite_or_infinity h0 h).imp_left fun hx => ⟨hx, hv⟩
  · rw [le_iff_value, value_zero]
    rintro (⟨hx, hv⟩ | hx)
    · exact ⟨isNaN_of_isFinite h0, isNaN_of_isFinite hx, hv⟩
    · have hv : value x = limit := congrArg level hx
      exact ⟨isNaN_of_isFinite h0, congrArg UnpackedFloat.isNaN hx, hv ▸ limit_pos.le⟩

/-- A number on the level of the nearest double to one that is not negative. -/
theorem nonneg_of_nearest {x : Float} {v : ℚ} (hv : 0 ≤ v) (hx : x.isNaN = false ∧ value x = nearest v) : 0 ≤ x :=
  le_iff_value.mpr ⟨by decide, hx.1, by rw [value_zero, hx.2]; exact nearest_nonneg hv⟩

theorem isFinite_of_le {x y : Float} (hx : 0 ≤ x) (h : x ≤ y) (hy : y.isFinite = true) : x.isFinite = true := by
  rcases nonneg_iff.mp hx with ⟨hf, -⟩ | hu
  · exact hf
  · have hv : value x = limit := congrArg level hu
    exact absurd (abs_lt.mp (isFinite_iff.mp hy).2).2 (hv.symm.trans_le (le_iff_value.mp h).2.2).not_gt

theorem unpack_of_pos {x : Float} (hx : x.isFinite = true) (h : 0 < value x) :
    ∃ m e hm, x.toModel.unpack = .finite .positive m e hm := by
  unfold value at h
  rcases finite_cases hx with ⟨s, hu⟩ | ⟨s, m, e, hm, hu⟩ <;> rw [hu] at h
  · exact absurd h (lt_irrefl 0)
  · cases s with
    | positive => exact ⟨m, e, hm, hu⟩
    | negative =>
      have hp : (0 : ℚ) ≤ m * 2 ^ e := mul_nonneg (Nat.cast_nonneg m) (two_zpow_pos e).le
      exact absurd h (neg_nonpos.mpr hp).not_gt

theorem nonneg_add {x y : Float} (hx : 0 ≤ x) (hy : 0 ≤ y) : 0 ≤ x + y := by
  have hinf (h : x.toModel.unpack.add .binary64 y.toModel.unpack = .infinity .positive) : 0 ≤ x + y :=
    nonneg_iff.mpr (.inr (by rw [unpack_add, h, unpack_pack_infinity]))
  rcases nonneg_iff.mp hx with ⟨hf, hv⟩ | hu <;> rcases nonneg_iff.mp hy with ⟨hf', hv'⟩ | hu'
  · exact nonneg_of_nearest (add_nonneg hv hv') (value_add hf hf')
  · rcases finite_cases hf with ⟨s, hu⟩ | ⟨s, m, e, hm, hu⟩ <;> exact hinf (by rw [hu, hu']; rfl)
  · rcases finite_cases hf' with ⟨s, hu'⟩ | ⟨s, m, e, hm, hu'⟩ <;> exact hinf (by rw [hu, hu']; rfl)
  · exact hinf (by rw [hu, hu']; rfl)

theorem nonneg_mul {c x : Float} (hc : c.isFinite = true) (h0 : 0 < c) (hx : 0 ≤ x) : 0 ≤ c * x := by
  have h0 := value_pos hc h0
  rcases nonneg_iff.mp hx with ⟨hf, hv⟩ | hu
  · exact nonneg_of_nearest (mul_nonneg h0.le hv) (value_mul hc hf)
  · obtain ⟨m, e, hm, hcu⟩ := unpack_of_pos hc h0
    refine nonneg_iff.mpr (.inr ?_)
    rw [unpack_mul, hcu, hu]
    exact unpack_pack_infinity _

theorem nonneg_div {x c : Float} (hc : c.isFinite = true) (h0 : 0 < c) (hx : 0 ≤ x) : 0 ≤ x / c := by
  have h0 := value_pos hc h0
  rcases nonneg_iff.mp hx with ⟨hf, hv⟩ | hu
  · exact nonneg_of_nearest (div_nonneg hv h0.le) (value_div hf hc h0.ne')
  · obtain ⟨m, e, hm, hcu⟩ := unpack_of_pos hc h0
    refine nonneg_iff.mpr (.inr ?_)
    rw [unpack_div, hcu, hu]
    exact unpack_pack_infinity _

theorem isNaN_one : (1 : Float).isNaN = false := by
  decide

theorem one_le_div_iff {x y : Float} (hx : x.isFinite = true) (hy : y.isFinite = true) (h0 : value y ≠ 0) :
    1 ≤ x / y ↔ 1 ≤ nearest (value x / value y) := by
  obtain ⟨hn, hv⟩ := value_div hx hy h0
  rw [le_iff_value, value_one, hv]
  exact ⟨fun h => h.2.2, fun h => ⟨isNaN_one, hn, h⟩⟩

theorem nearest_one : nearest 1 = 1 := by
  have h := nearest_value 1
  rwa [value_one] at h

theorem one_le_div_of_pos {x y : Float} (hx : x.isFinite = true) (hy : y.isFinite = true) (h0 : 0 < value y)
    (h : value y ≤ value x) : 1 ≤ x / y := by
  rw [one_le_div_iff hx hy h0.ne', ← nearest_one]
  exact nearest_mono ((one_le_div h0).mpr h)

theorem one_le_div_iff_of_neg {x y : Float} (hx : x.isFinite = true) (hy : y.isFinite = true) (h0 : value y < 0)
    (h : value y ≤ value x) : 1 ≤ x / y ↔ x = y := by
  rw [one_le_div_iff hx hy h0.ne]
  constructor
  · intro h1
    rcases h.eq_or_lt with he | hlt
    · exact (eq_of_value (isNaN_of_isFinite hy) (isNaN_of_isFinite hx) he h0.ne).symm
    · exact absurd h1 (nearest_div_lt_one hx hy h0 hlt).not_ge
  · rintro rfl
    rw [div_self h0.ne, nearest_one]

theorem one_le_iff_of_infinity {x : Float} {s : Sign} (h : x.toModel.unpack = .infinity s) : 1 ≤ x ↔ s = .positive := by
  have hl : (1 : ℚ) < limit := by
    have h := (isFinite_iff.mp (by decide : (1 : Float).isFinite = true)).2
    rwa [value_one, abs_one] at h
  have hn : x.isNaN = false := congrArg UnpackedFloat.isNaN h
  have hv : value x = signedBy s limit := congrArg level h
  rw [le_iff_value, value_one, hv]
  cases s
  · exact iff_of_false (fun h => absurd h.2.2 (by rw [signedBy]; linarith)) (by simp)
  · exact iff_of_true ⟨isNaN_one, hn, hl.le⟩ rfl

/-- An infinite number divided by a finite one is infinite and changes sign with it. -/
theorem infinity_div {x y : Float} {s : Sign} (hx : x.toModel.unpack = .infinity s) (hy : y.isFinite = true) :
    ∃ t, (x / y).toModel.unpack = .infinity (s / t) ∧ (0 < value y → t = .positive) ∧ (value y < 0 → t = .negative) := by
  rw [unpack_div, value]
  obtain ⟨t, hu⟩ | ⟨t, m, e, hm, hu⟩ := finite_cases hy <;> rw [hx, hu]
  · exact ⟨t, unpack_pack_infinity _, fun h => absurd h (lt_irrefl 0), fun h => absurd h (lt_irrefl 0)⟩
  · have hp : (0 : ℚ) < m * 2 ^ e := mul_pos (Nat.cast_pos.mpr hm) (two_zpow_pos e)
    refine ⟨t, unpack_pack_infinity _, fun h => ?_, fun h => ?_⟩
    · cases t
      · exact absurd h (neg_neg_of_pos hp).not_gt
      · rfl
    · cases t
      · rfl
      · exact absurd h hp.not_gt

/-- Nothing comes to one when it is divided by an infinite number. -/
theorem not_one_le_div_infinity {x y : Float} {s : Sign} (hy : y.toModel.unpack = .infinity s) : ¬ 1 ≤ x / y := by
  have hd : x.toModel.unpack.div .binary64 y.toModel.unpack = .notANumber ∨
      ∃ t, x.toModel.unpack.div .binary64 y.toModel.unpack = .zero t := by
    rw [hy]
    cases x.toModel.unpack with
    | zero t => exact .inr ⟨t / s, rfl⟩
    | finite t m e hm => exact .inr ⟨t / s, rfl⟩
    | _ => exact .inl rfl
  rw [le_iff_value, value_one, isNaN_eq (x / y), value, unpack_div]
  rintro ⟨-, hn, hle⟩
  rcases hd with hd | ⟨t, hd⟩
  · rw [hd, unpack_pack_notANumber] at hn
    cases hn
  · rw [hd, unpack_pack_zero] at hle
    exact absurd hle zero_lt_one.not_ge

theorem one_le_div_zero_iff {x : Float} (hx : x.isNaN = false) : 1 ≤ x / 0 ↔ 0 < value x := by
  have hz : (0 : Float).toModel.unpack = .zero .positive := by
    rfl
  have hd {t : Sign} (h : x.toModel.unpack.div .binary64 (.zero .positive) = .infinity t) : 1 ≤ x / 0 ↔ t = .positive :=
    one_le_iff_of_infinity (by rw [unpack_div, hz, h, unpack_pack_infinity])
  have hp := placed_unpack x.toModel
  rw [isNaN_eq] at hx
  rw [value]
  cases hu : x.toModel.unpack with
  | notANumber => simp [hu, UnpackedFloat.isNaN] at hx
  | infinity t =>
    rw [hd (t := t) (by rw [hu]; cases t <;> rfl)]
    cases t
    · exact iff_of_false (by simp) (neg_neg_of_pos limit_pos).not_gt
    · exact iff_of_true rfl limit_pos
  | zero t =>
    refine iff_of_false (fun h => ?_) (lt_irrefl 0)
    have hn := (le_iff_value.mp h).2.1
    have hnan : (UnpackedFloat.zero t).div .binary64 (.zero .positive) = .notANumber := rfl
    rw [isNaN_eq, unpack_div, hz, hu, hnan, unpack_pack_notANumber] at hn
    cases hn
  | finite t m e hm =>
    obtain ⟨-, h0, -⟩ := hp t m e hm hu
    rw [hd (t := t) (by rw [hu]; cases t <;> rfl)]
    cases t
    · exact iff_of_false (by simp) (neg_neg_of_pos h0).not_gt
    · exact iff_of_true rfl h0

end SceneCode.Number
