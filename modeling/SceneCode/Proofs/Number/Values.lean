import SceneCode.Proofs.Number.Levels

namespace SceneCode.Number
open Float.Model UnpackedFloat

/-- The number that a double stands for. -/
def value (x : Float) : ℚ :=
  level x.toModel.unpack

theorem nearest_value (x : Float) : nearest (value x) = value x :=
  nearest_level x.toModel

theorem unpack_add (x y : Float) :
    (x + y).toModel.unpack = (Float.Model.pack (x.toModel.unpack.add .binary64 y.toModel.unpack)).unpack := rfl

theorem unpack_mul (x y : Float) :
    (x * y).toModel.unpack = (Float.Model.pack (x.toModel.unpack.mul .binary64 y.toModel.unpack)).unpack := rfl

theorem unpack_div (x y : Float) :
    (x / y).toModel.unpack = (Float.Model.pack (x.toModel.unpack.div .binary64 y.toModel.unpack)).unpack := rfl

theorem unpack_neg (x : Float) : (-x).toModel.unpack = (Float.Model.pack x.toModel.unpack.neg).unpack := rfl

theorem isNaN_eq (x : Float) : x.isNaN = x.toModel.unpack.isNaN := rfl

theorem isFinite_eq (x : Float) : x.isFinite = x.toModel.unpack.isFinite := rfl

theorem IsNormal.lt_of_magnitude {m n : ℕ} {e f : ℤ} (h : IsNormal m e) (h' : IsNormal n f)
    (hlt : e < f ∨ e = f ∧ m < n) : (m : ℚ) * 2 ^ e < n * 2 ^ f := by
  rcases hlt with hlt | ⟨rfl, hlt⟩
  · have hn : ((2 ^ 52 : ℕ) : ℚ) ≤ n := Nat.cast_le.mpr (h'.full.resolve_right (by have := h.low; omega))
    have hm : (m : ℚ) < ((2 ^ 52 : ℕ) : ℚ) * 2 := by exact_mod_cast h.lt
    calc (m : ℚ) * 2 ^ e < ((2 ^ 52 : ℕ) : ℚ) * 2 * 2 ^ e := mul_lt_mul_of_pos_right hm (two_zpow_pos e)
      _ = ((2 ^ 52 : ℕ) : ℚ) * 2 ^ (1 + e) := by rw [mul_assoc, ← zpow_one_add₀ two_ne_zero]
      _ ≤ n * 2 ^ f :=
        mul_le_mul hn (zpow_le_zpow_right₀ one_le_two (by omega)) (two_zpow_pos _).le (Nat.cast_nonneg n)
  · exact mul_lt_mul_of_pos_right (Nat.cast_lt.mpr hlt) (two_zpow_pos e)

/-- A finite double lies on its side of zero, before the limit. -/
def Placed (a : UnpackedFloat) : Prop :=
  ∀ s m e hm, a = .finite s m e hm → IsNormal m e ∧ (0 : ℚ) < m * 2 ^ e ∧ (m : ℚ) * 2 ^ e < limit

theorem placed_unpack (x : Float.Model) : Placed x.unpack := by
  intro s m e hm hu
  obtain ⟨hn, he⟩ := unpack_shape hu
  exact ⟨hn, mul_pos (Nat.cast_pos.mpr hm) (two_zpow_pos e), hn.lt_iff.mpr he⟩

theorem level_lt_of_place {a b : UnpackedFloat} (ha : Placed a) (hb : Placed b) (hna : a.isNaN = false)
    (hnb : b.isNaN = false) (h : place a < place b) : level a < level b := by
  have hl := limit_pos
  rcases a with s | _ | s | ⟨s, m, e, hm⟩ <;> rcases b with t | _ | t | ⟨t, n, f, hn⟩ <;> (try cases s) <;> (try cases t) <;>
    simp [place, Prod.Lex.toLex_lt_toLex, UnpackedFloat.isNaN] at hna hnb h <;> simp only [level, signedBy]
  -- Of one side of zero are only two finite doubles; the others are told apart by their sides.
  all_goals first
    | linarith
    | linarith [ha _ m e hm rfl]
    | linarith [hb _ n f hn rfl]
    | obtain ⟨hm, hm0, -⟩ := ha _ m e hm rfl
      obtain ⟨hn, hn0, -⟩ := hb _ n f hn rfl
  · exact neg_lt_neg (hn.lt_of_magnitude hm (h.imp_right (And.imp_left Eq.symm)))
  · linarith
  · exact hm.lt_of_magnitude hn h

theorem level_of_place {a b : UnpackedFloat} (hna : a.isNaN = false) (hnb : b.isNaN = false) (h : place a = place b) :
    level a = level b := by
  rcases alike_of_place hna hnb h with rfl | ⟨s, t, rfl, rfl⟩ <;> rfl

theorem place_le_iff_level {a b : UnpackedFloat} (ha : Placed a) (hb : Placed b) (hna : a.isNaN = false)
    (hnb : b.isNaN = false) : place a ≤ place b ↔ level a ≤ level b := by
  rcases lt_or_ge (place b) (place a) with h | h
  · exact iff_of_false h.not_ge (level_lt_of_place hb ha hnb hna h).not_ge
  · rcases h.eq_or_lt with he | hlt
    · exact iff_of_true h (level_of_place hna hnb he).le
    · exact iff_of_true h (level_lt_of_place ha hb hna hnb hlt).le

theorem le_iff_value {x y : Float} : x ≤ y ↔ x.isNaN = false ∧ y.isNaN = false ∧ value x ≤ value y := by
  rw [le_iff_place]
  exact and_congr_right fun hx => and_congr_right fun hy =>
    place_le_iff_level (placed_unpack _) (placed_unpack _) hx hy

theorem lt_iff_not_le {x y : Float} (hx : x.isNaN = false) (hy : y.isNaN = false) : x < y ↔ ¬ y ≤ x := by
  rw [lt_iff_compare]
  change _ ↔ ¬ decide (y.toModel.unpack.le x.toModel.unpack = true) = true
  rw [decide_eq_true_iff, UnpackedFloat.le, unpacked_compare_swap x.toModel.unpack y.toModel.unpack]
  obtain ⟨o, hc⟩ := exists_compare hx hy
  rw [hc]
  cases o <;> decide

theorem lt_iff_value {x y : Float} (hx : x.isNaN = false) (hy : y.isNaN = false) : x < y ↔ value x < value y := by
  have hle : y ≤ x ↔ value y ≤ value x := le_iff_value.trans ⟨fun h => h.2.2, fun h => ⟨hy, hx, h⟩⟩
  rw [lt_iff_not_le hx hy, hle, not_le]

theorem lt_iff {x y : Float} : x < y ↔ x.isNaN = false ∧ y.isNaN = false ∧ value x < value y := by
  constructor
  · intro h
    have hx : x.isNaN = false := Bool.eq_false_iff.mpr fun hn => not_lt_of_isNaN hn y h
    have hy : y.isNaN = false := Bool.eq_false_iff.mpr fun hn => not_gt_of_isNaN hn x h
    exact ⟨hx, hy, (lt_iff_value hx hy).mp h⟩
  · rintro ⟨hx, hy, h⟩
    exact (lt_iff_value hx hy).mpr h

protected theorem lt_irrefl (x : Float) : ¬ x < x := fun h => (lt_iff.mp h).2.2.false

protected theorem le_of_lt {x y : Float} (h : x < y) : x ≤ y := by
  obtain ⟨hx, hy, hv⟩ := lt_iff.mp h
  exact le_iff_value.mpr ⟨hx, hy, hv.le⟩

protected theorem lt_of_le_of_lt {x y z : Float} (hxy : x ≤ y) (hyz : y < z) : x < z := by
  obtain ⟨hx, -, hv⟩ := le_iff_value.mp hxy
  obtain ⟨-, hz, hw⟩ := lt_iff.mp hyz
  exact lt_iff.mpr ⟨hx, hz, hv.trans_lt hw⟩

theorem value_le_limit (x : Float) : value x ≤ limit := by
  have hl := limit_pos
  unfold value
  rcases hu : x.toModel.unpack with s | _ | s | ⟨s, m, e, hm⟩
  · cases s <;> simp only [level, signedBy] <;> linarith
  · exact hl.le
  · exact hl.le
  · obtain ⟨-, h0, hlt⟩ := placed_unpack x.toModel s m e hm hu
    cases s <;> simp only [level, signedBy] <;> linarith

/-- What is below anything is below infinity. -/
theorem lt_infinity_of_lt {x y : Float} (h : x < y) : x < 1.0 / 0.0 := by
  obtain ⟨hx, -, hv⟩ := lt_iff.mp h
  have hi : value (1.0 / 0.0) = limit := rfl
  exact lt_iff.mpr ⟨hx, rfl, hi ▸ hv.trans_le (value_le_limit y)⟩

theorem signedBy_mul (s t : Sign) (u v : ℚ) : signedBy (s * t) (u * v) = signedBy s u * signedBy t v := by
  cases s <;> cases t
  · exact (neg_mul_neg u v).symm
  · exact (neg_mul u v).symm
  · exact (mul_neg u v).symm
  · rfl

theorem signedBy_div (s t : Sign) (u v : ℚ) : signedBy (s / t) (u / v) = signedBy s u / signedBy t v := by
  cases s <;> cases t
  · exact (neg_div_neg_eq u v).symm
  · exact (neg_div v u).symm
  · exact (div_neg u).symm
  · rfl

theorem abs_signedBy (s : Sign) (v : ℚ) : |signedBy s v| = |v| := by
  cases s
  · exact abs_neg v
  · rfl

/-- A mantissa with a sign is a whole number. -/
theorem apply_units (s : Sign) (m : ℕ) (e : ℤ) : ((s.apply m : ℤ) : ℚ) * 2 ^ e = signedBy s (m * 2 ^ e) := by
  cases s
  · change ((-(m : ℤ) : ℤ) : ℚ) * 2 ^ e = -(m * 2 ^ e)
    rw [Int.cast_neg, Int.cast_natCast, neg_mul]
  · rfl

theorem decreaseExponent_units (m : ℕ) {e t : ℤ} (h : t ≤ e) :
    ((decreaseExponent m e t).1 : ℚ) * 2 ^ t = m * 2 ^ e := by
  have ht : e - (e - t).toNat = t := by omega
  have hs := shiftLeft_units m (e - t).toNat e
  rwa [ht] at hs

theorem finite_cases {x : Float} (h : x.isFinite = true) :
    (∃ s, x.toModel.unpack = .zero s) ∨ ∃ s m e hm, x.toModel.unpack = .finite s m e hm := by
  rw [isFinite_eq] at h
  cases hu : x.toModel.unpack with
  | zero s => exact .inl ⟨s, rfl⟩
  | finite s m e hm => exact .inr ⟨s, m, e, hm, rfl⟩
  | _ => simp [hu, UnpackedFloat.isFinite] at h

theorem value_add {x y : Float} (hx : x.isFinite = true) (hy : y.isFinite = true) :
    (x + y).isNaN = false ∧ value (x + y) = nearest (value x + value y) := by
  have hxl := nearest_value x
  have hyl := nearest_value y
  have hxp := pack_unpack x.toModel
  have hyp := pack_unpack y.toModel
  simp only [isNaN_eq, value, unpack_add] at hxl hyl ⊢
  obtain ⟨s, hu⟩ | ⟨s, m, e, hm, hu⟩ := finite_cases hx <;> obtain ⟨t, hv⟩ | ⟨t, n, f, hn, hv⟩ := finite_cases hy <;>
    rw [hu] at hxl hxp <;> rw [hv] at hyl hyp <;> rw [hu, hv]
  · change _ ∧ _ = nearest (0 + 0)
    rw [zero_add]
    cases s <;> cases t <;> exact level_pack_zero _
  · change (Float.Model.pack (.finite t n f hn)).unpack.isNaN = false ∧
      level (Float.Model.pack (.finite t n f hn)).unpack = nearest (0 + _)
    rw [zero_add, hyl, hyp, hv]
    exact ⟨rfl, rfl⟩
  · change (Float.Model.pack (.finite s m e hm)).unpack.isNaN = false ∧
      level (Float.Model.pack (.finite s m e hm)).unpack = nearest (_ + 0)
    rw [add_zero, hxl, hxp, hu]
    exact ⟨rfl, rfl⟩
  · have hs := level_normalize (s.apply (decreaseExponent m e (min e f)).1 + t.apply (decreaseExponent n f (min e f)).1)
      (min e f) .positive
    rw [Int.cast_add, add_mul, apply_units, apply_units, decreaseExponent_units m (min_le_left e f),
      decreaseExponent_units n (min_le_right e f)] at hs
    exact hs

theorem value_mul {x y : Float} (hx : x.isFinite = true) (hy : y.isFinite = true) :
    (x * y).isNaN = false ∧ value (x * y) = nearest (value x * value y) := by
  simp only [isNaN_eq, value, unpack_mul]
  obtain ⟨s, hu⟩ | ⟨s, m, e, hm, hu⟩ := finite_cases hx <;> obtain ⟨t, hv⟩ | ⟨t, n, f, hn, hv⟩ := finite_cases hy <;>
    rw [hu, hv]
  · change _ ∧ _ = nearest (0 * 0)
    rw [zero_mul]
    exact level_pack_zero (s * t)
  · change _ ∧ _ = nearest (0 * _)
    rw [zero_mul]
    exact level_pack_zero (s * t)
  · change _ ∧ _ = nearest (_ * 0)
    rw [mul_zero]
    exact level_pack_zero (s * t)
  · have hp : (0 : ℚ) < m * 2 ^ e * (n * 2 ^ f) := by positivity
    have hq : (m : ℚ) * 2 ^ e * (n * 2 ^ f) / 2 ^ (e + f) = (m * n : ℕ) := by
      rw [zpow_add₀ two_ne_zero, div_eq_iff (by positivity)]
      push_cast
      ring
    have hc : 52 ≤ (m * n).log2 ∨ e + f ≤ -1074 := by
      rw [Nat.le_log2 (Nat.mul_ne_zero hm.ne' hn.ne')]
      rcases (unpack_shape hu).1.full with h | h
      · exact .inl (h.trans (Nat.le_mul_of_pos_right m hn))
      · rcases (unpack_shape hv).1.full with h' | h'
        · exact .inl (h'.trans (Nat.le_mul_of_pos_left n hm))
        · exact .inr (by omega)
    have hl := level_roundWithAccuracy (s := s * t) (a := .exact) hp (hq ▸ .exact _) hc
    rwa [signedBy_mul] at hl

theorem divCore_target (m n : ℕ) (e f : ℤ) :
    Format.binary64.targetExponent (totalExponent m e - totalExponent n f) =
      max ((m.log2 : ℤ) + e - (n.log2 + f) - 53) (-1074) := by
  simp only [Format.targetExponent, totalExponent, Format.mantissaBits, Format.minExponent]
  norm_num
  omega

/-- Enough digits of a quotient are computed for it to be rounded. -/
theorem divCore_eq {m n : ℕ} (hm : 0 < m) (hn : 0 < n) (e f : ℤ) :
    ∃ k : ℕ, divCore .binary64 m e n f = (m <<< k / n, e - f - k, accuracyOfFraction (m <<< k % n) n) ∧
      (52 ≤ (m <<< k / n).log2 ∨ e - f - k ≤ -1074) := by
  unfold divCore
  dsimp only
  rw [divCore_target]
  generalize ht : min (e - f) (max ((m.log2 : ℤ) + e - (n.log2 + f) - 53) (-1074)) = t
  generalize hk : (e - f - t).toNat = k
  have hkt : e - f - k = t := by omega
  refine ⟨k, by rw [hkt], ?_⟩
  rcases (by omega : t ≤ -1074 ∨ n.log2 + 53 ≤ m.log2 + k) with h | h
  · exact .inr (hkt.trans_le h)
  · left
    have hlo : 2 ^ (m.log2 + k) ≤ m <<< k := by
      rw [Nat.shiftLeft_eq, pow_add]
      exact Nat.mul_le_mul_right _ (Nat.log2_self_le hm.ne')
    have hq : 2 ^ 52 ≤ m <<< k / n := by
      rw [Nat.le_div_iff_mul_le hn]
      calc 2 ^ 52 * n ≤ 2 ^ 52 * 2 ^ (n.log2 + 1) := Nat.mul_le_mul_left _ Nat.lt_log2_self.le
        _ = 2 ^ (n.log2 + 53) := by rw [← pow_add]; congr 1; omega
        _ ≤ 2 ^ (m.log2 + k) := Nat.pow_le_pow_right two_pos h
        _ ≤ m <<< k := hlo
    exact (Nat.le_log2 (by omega)).mpr hq

theorem value_div {x y : Float} (hx : x.isFinite = true) (hy : y.isFinite = true) (h0 : value y ≠ 0) :
    (x / y).isNaN = false ∧ value (x / y) = nearest (value x / value y) := by
  simp only [isNaN_eq, value, unpack_div]
  obtain ⟨t, hv⟩ | ⟨t, n, f, hn, hv⟩ := finite_cases hy
  · exact absurd (congrArg level hv) h0
  obtain ⟨s, hu⟩ | ⟨s, m, e, hm, hu⟩ := finite_cases hx <;> rw [hu, hv]
  · change _ ∧ _ = nearest (0 / _)
    rw [zero_div]
    exact level_pack_zero (s / t)
  · obtain ⟨k, hd, hc⟩ := divCore_eq hm hn e f
    have hp : (0 : ℚ) < m * 2 ^ e / (n * 2 ^ f) := by positivity
    have hq : (m : ℚ) * 2 ^ e / (n * 2 ^ f) / 2 ^ (e - f - k) = ((m <<< k : ℕ) : ℚ) / n := by
      have he : e - k = f + (e - f - k) := by ring
      have hz : (2 : ℚ) ^ (e - k) ≠ 0 := (two_zpow_pos _).ne'
      rw [← shiftLeft_units m k e, div_div, mul_assoc, ← zpow_add₀ two_ne_zero, ← he]
      exact mul_div_mul_right _ _ hz
    have ht := Tells.quotient (m <<< k) hn
    rw [← hq] at ht
    have hl := level_roundWithAccuracy (s := s / t) hp ht hc
    rw [signedBy_div] at hl
    rw [UnpackedFloat.div, hd]
    exact hl

def reading : UnpackedFloat → Reading
  | .finite s m e _ => .finite (s == .negative) m e
  | .zero s => .finite (s == .negative) 0 (-1074)
  | .infinity s => .infinite (s == .negative)
  | .notANumber => .nan

theorem exponent_toNat (b : BitVec 64) :
    (@unpackExponent .binary64 b).toNat = b.toNat / Nat.pow 2 52 % Nat.pow 2 11 := by
  unfold unpackExponent
  rw [BitVec.toNat_cast, BitVec.extractLsb_toNat, Nat.shiftRight_eq_div_pow]
  rfl

theorem mantissa_toNat (b : BitVec 64) :
    (@unpackMantissa .binary64 b).toNat = b.toNat % Nat.pow 2 52 := by
  unfold unpackMantissa
  rw [BitVec.toNat_cast, BitVec.extractLsb_toNat, Nat.shiftRight_zero]
  rfl

theorem sign_eq (b : BitVec 64) :
    (Sign.ofBitVec (@unpackSign .binary64 b) == .negative) = decide (Nat.pow 2 63 ≤ b.toNat) := by
  have hs : (@unpackSign .binary64 b).toNat = b.toNat / Nat.pow 2 63 := by
    unfold unpackSign
    rw [BitVec.toNat_cast, BitVec.extractLsb_toNat, Nat.shiftRight_eq_div_pow]
    have := b.isLt
    change b.toNat / 2 ^ 63 % 2 ^ 1 = b.toNat / 2 ^ 63
    omega
  have hlt := b.isLt
  generalize @unpackSign .binary64 b = v at *
  rcases (by decide : ∀ v : BitVec 1, v = 0#1 ∨ v = 1#1) v with rfl | rfl
  · have h : ¬ Nat.pow 2 63 ≤ b.toNat := by
      change 0 = b.toNat / 2 ^ 63 at hs
      change ¬ 2 ^ 63 ≤ b.toNat
      omega
    rw [decide_eq_false h]
    rfl
  · have h : Nat.pow 2 63 ≤ b.toNat := by
      change 1 = b.toNat / 2 ^ 63 at hs
      change 2 ^ 63 ≤ b.toNat
      omega
    rw [decide_eq_true h]
    rfl

theorem read_eq (x : Float) : read x = reading x.toModel.unpack := by
  have hb : x.toBits.toNat = x.toModel.toBits.toBitVec.toNat := rfl
  unfold Float.Model.unpack
  generalize x.toModel.toBits.toBitVec = b at *
  rw [← @packComponents_unpackSign_unpackExponent_unpackMantissa .binary64 b, unpack_packComponents, read, hb,
    ← sign_eq, ← exponent_toNat, ← mantissa_toNat]
  generalize @unpackExponent .binary64 b = e
  generalize @unpackMantissa .binary64 b = m
  generalize Sign.ofBitVec (@unpackSign .binary64 b) = s
  have hones : e.toNat = 2047 ↔ e = -1#11 := by
    rw [← BitVec.toNat_inj]
    rfl
  have hzero : e.toNat = 0 ↔ e = 0#11 := by
    rw [← BitVec.toNat_inj]
    rfl
  have hm : m.toNat = 0 ↔ m = 0#52 := by
    rw [← BitVec.toNat_inj]
    rfl
  simp only [hones, hzero, hm]
  split_ifs with h1 h2 h3 h4
  · rfl
  · rfl
  · rw [h4]
    rfl
  · rfl
  · rfl

theorem read_of_isFinite {x : Float} (h : x.isFinite = true) :
    ∃ s m e, read x = .finite (s == .negative) m e ∧ IsNormal m e ∧ value x = signedBy s (m * 2 ^ e) := by
  rw [read_eq, value]
  rcases finite_cases h with ⟨s, hu⟩ | ⟨s, m, e, hm, hu⟩
  · refine ⟨s, 0, -1074, by rw [hu]; rfl, ⟨by decide, le_rfl, .inr rfl⟩, ?_⟩
    rw [hu, Nat.cast_zero, zero_mul]
    cases s <;> rfl
  · exact ⟨s, m, e, by rw [hu]; rfl, (unpack_shape hu).1, by rw [hu]; rfl⟩

theorem read_of_not_isFinite {x : Float} (h : x.isFinite = false) :
    read x = .nan ∨ ∃ negative, read x = .infinite negative := by
  rw [isFinite_eq] at h
  rw [read_eq]
  cases hu : x.toModel.unpack with
  | notANumber => exact .inl rfl
  | infinity s => exact .inr ⟨_, rfl⟩
  | _ => simp [hu, UnpackedFloat.isFinite] at h

theorem isFinite_iff {x : Float} : x.isFinite = true ↔ x.isNaN = false ∧ |value x| < limit := by
  have hl := limit_pos
  have hp := placed_unpack x.toModel
  rw [isFinite_eq, isNaN_eq, value]
  cases hu : x.toModel.unpack with
  | notANumber => exact iff_of_false (by decide) (by rintro ⟨h, -⟩; cases h)
  | infinity s =>
    refine iff_of_false Bool.false_ne_true fun h => absurd h.2 ?_
    rw [level, abs_signedBy, abs_of_pos hl]
    exact lt_irrefl limit
  | zero s => exact iff_of_true rfl ⟨rfl, (abs_zero (α := ℚ)).trans_lt hl⟩
  | finite s m e hm =>
    obtain ⟨-, h0, h1⟩ := hp s m e hm hu
    refine iff_of_true rfl ⟨rfl, ?_⟩
    rwa [level, abs_signedBy, abs_of_pos h0]

theorem value_neg {x : Float} (hx : x.isFinite = true) : (-x).isFinite = true ∧ value (-x) = -value x := by
  rw [isFinite_eq, value, value, unpack_neg]
  rcases finite_cases hx with ⟨s, hu⟩ | ⟨s, m, e, hm, hu⟩ <;> rw [hu]
  · cases s <;> exact ⟨rfl, neg_zero.symm⟩
  · obtain ⟨hn, he⟩ := unpack_shape hu
    change (Float.Model.pack (.finite (-s) m e hm)).unpack.isFinite = true ∧
      level (Float.Model.pack (.finite (-s) m e hm)).unpack = _
    rw [unpack_pack_finite hn, if_pos he]
    cases s
    · exact ⟨rfl, (neg_neg _).symm⟩
    · exact ⟨rfl, rfl⟩

theorem value_toFloat (n : UInt64) : n.toFloat.isNaN = false ∧ value n.toFloat = nearest n.toNat := by
  have hl := level_normalize n.toNat 0 .positive
  rw [zpow_zero, mul_one] at hl
  exact hl

/-- Whole numbers with few enough digits are doubles. -/
theorem value_ofNat {n : ℕ} (h : n < 2 ^ 53) : (Float.ofNat n).isFinite = true ∧ value (Float.ofNat n) = n := by
  have hn := nearest_natCast h
  have hlt := units_lt_limit h (by decide : (0 : ℤ) ≤ 971)
  rw [zpow_zero, mul_one] at hlt
  have hfinite {x : Float} (hx : x.isNaN = false ∧ value x = nearest n) : x.isFinite = true ∧ value x = n := by
    rw [hn] at hx
    exact ⟨isFinite_iff.mpr ⟨hx.1, by rwa [hx.2, abs_of_nonneg (Nat.cast_nonneg n)]⟩, hx.2⟩
  have hn64 : n.toUInt64.toNat = n := by
    rw [Nat.toUInt64, UInt64.toNat_ofNat']
    omega
  have hc := value_toFloat n.toUInt64
  rw [hn64] at hc
  have h1 : Float.ofNat n = n.toUInt64.toFloat * Float.ofBits 0x3FF0000000000000 := by
    change Float.ofScientific n false 0 = _
    rw [Float.ofScientific, dif_pos ⟨h, by decide⟩]
    rfl
  have hv : (Float.ofBits 0x3FF0000000000000).isFinite = true ∧ value (Float.ofBits 0x3FF0000000000000) = 1 := by
    have hu : (Float.ofBits 0x3FF0000000000000).toModel.unpack = .finite .positive (2 ^ 52) (-52) (by decide) := by
      rfl
    refine ⟨rfl, ?_⟩
    rw [value, hu]
    change ((2 ^ 52 : ℕ) : ℚ) * 2 ^ (-52 : ℤ) = 1
    norm_num
  rw [h1]
  have hm := value_mul (hfinite hc).1 hv.1
  rw [hv.2, mul_one, (hfinite hc).2] at hm
  exact hfinite hm

end SceneCode.Number
