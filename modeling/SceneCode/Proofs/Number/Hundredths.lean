import SceneCode.Number.Text
import SceneCode.Proofs.Number.Values

namespace SceneCode.Number

theorem round_of_not_isFinite {x : Float} (h : x.isFinite = false) : round x = x := by
  unfold round
  rcases read_of_not_isFinite h with hr | ⟨negative, hr⟩ <;> rw [hr]

theorem wholeUnits_halfUp_lt {m : ℕ} {e : ℤ} (hm : m < 2 ^ 53) (he : e < 0) : wholeUnits .halfUp m e < 2 ^ 53 := by
  obtain ⟨k, rfl⟩ : ∃ k : ℕ, e = -(k + 1) := ⟨(-e - 1).toNat, by omega⟩
  have hk : (-(-(k + 1 : ℤ))).toNat = k + 1 := by omega
  have hd : m / 2 ^ (k + 1) ≤ m / 2 := Nat.div_le_div_left (by rw [pow_succ]; have := Nat.two_pow_pos k; omega) two_pos
  unfold wholeUnits Rounding.quotient
  rw [if_neg (by omega), hk]
  dsimp only
  change (if 2 ^ (k + 1) ≤ 2 * (m % 2 ^ (k + 1)) then m / 2 ^ (k + 1) + 1 else m / 2 ^ (k + 1)) < _
  split <;> omega

theorem value_round {x : Float} (h : x.isFinite = true) :
    (round x).isFinite = true ∧ ∃ n : ℤ, value (round x) = n := by
  obtain ⟨s, m, e, hr, hn, hv⟩ := read_of_isFinite h
  unfold round
  rw [hr]
  dsimp only
  split
  · rename_i he
    obtain ⟨k, hk⟩ := two_zpow_eq_mul he
    rw [zpow_zero, mul_one] at hk
    refine ⟨h, s.apply (m * k), ?_⟩
    rw [hv, hk]
    cases s <;> simp [signedBy, Float.Model.UnpackedFloat.Sign.apply]
  · rename_i he
    obtain ⟨hf, hv⟩ := value_ofNat (wholeUnits_halfUp_lt hn.lt (not_le.mp he))
    split
    · obtain ⟨hf', hv'⟩ := value_neg hf
      exact ⟨hf', -(wholeUnits .halfUp m e : ℤ), by rw [hv', hv]; simp⟩
    · exact ⟨hf, (wholeUnits .halfUp m e : ℤ), by rw [hv]; simp⟩

theorem isFinite_of_value {x y : Float} (hx : x.isFinite = true) {u : ℚ} (hu : |u| ≤ |value x|)
    (hy : y.isNaN = false ∧ value y = nearest u) : y.isFinite = true := by
  refine isFinite_iff.mpr ⟨hy.1, ?_⟩
  calc |value y| = nearest |u| := by rw [hy.2, nearest_abs]
    _ ≤ nearest |value x| := nearest_mono hu
    _ = |value x| := by rw [nearest_abs, nearest_value]
    _ < limit := (isFinite_iff.mp hx).2

theorem value_hundredths {x : Float} (h : (x * 100).isFinite = true) :
    (hundredths x).isFinite = true ∧ ∃ n : ℤ, value (hundredths x) = nearest (n / 100) := by
  obtain ⟨hr, n, hn⟩ := value_round h
  obtain ⟨hc, hcv⟩ := value_ofNat (by decide : 100 < 2 ^ 53)
  have hd := value_div hr hc (by rw [hcv]; norm_num)
  rw [hn, hcv] at hd
  have hdf : (round (x * 100) / 100).isFinite = true := by
    refine isFinite_of_value hr ?_ hd
    rw [hn, abs_div]
    exact div_le_self (abs_nonneg _) (by norm_num)
  obtain ⟨hz, hzv⟩ := value_ofNat (by decide : 0 < 2 ^ 53)
  have ha := value_add hdf hz
  rw [hzv, Nat.cast_zero, add_zero] at ha
  exact ⟨isFinite_of_value hdf le_rfl ha, n, ha.2.trans ((nearest_value _).trans hd.2)⟩

theorem hundredths_not_isFinite {x : Float} (h : (x * 100).isFinite = false) : (hundredths x).isFinite = false := by
  unfold hundredths
  rw [round_of_not_isFinite h]
  generalize x * 100 = y at h
  rw [isFinite_eq] at h
  have hc : (100 : Float).toModel.unpack = .finite .positive (25 * 2 ^ 48) (-46) (by decide) := by
    rfl
  rw [isFinite_eq, unpack_add, unpack_div, hc]
  cases hu : y.toModel.unpack with
  | notANumber => rfl
  | infinity s => cases s <;> rfl
  | _ => simp [hu, Float.Model.UnpackedFloat.isFinite] at h

theorem quotient_halfEven_near (m : ℕ) {d : ℕ} (hd : 0 < d) :
    |(Rounding.halfEven.quotient m d : ℚ) - m / d| ≤ 1 / 2 := by
  have hd' : (0 : ℚ) < d := Nat.cast_pos.mpr hd
  have hm : (m : ℚ) = d * (m / d : ℕ) + (m % d : ℕ) := by exact_mod_cast (Nat.div_add_mod m d).symm
  have hq : (Rounding.halfEven.quotient m d = m / d ∧ 2 * (m % d) ≤ d) ∨
      (Rounding.halfEven.quotient m d = m / d + 1 ∧ d ≤ 2 * (m % d)) := by
    unfold Rounding.quotient
    dsimp only
    split
    · rename_i h
      exact .inr ⟨rfl, by simp at h; omega⟩
    · rename_i h
      exact .inl ⟨rfl, by simp at h; omega⟩
  have hlt : ((m % d : ℕ) : ℚ) ≤ d := by exact_mod_cast (Nat.mod_lt m hd).le
  have h0 : (0 : ℚ) ≤ (m % d : ℕ) := Nat.cast_nonneg _
  rw [abs_le]
  rcases hq with ⟨hq, hr⟩ | ⟨hq, hr⟩
  · have hr : (2 : ℚ) * (m % d : ℕ) ≤ d := by exact_mod_cast hr
    rw [hq, hm, add_div, mul_div_cancel_left₀ _ hd'.ne']
    have h1 : ((m % d : ℕ) : ℚ) / d ≤ 1 / 2 := by rw [div_le_div_iff₀ hd' two_pos]; linarith
    have h2 : (0 : ℚ) ≤ (m % d : ℕ) / d := div_nonneg h0 hd'.le
    constructor <;> linarith
  · have hr : (d : ℚ) ≤ 2 * (m % d : ℕ) := by exact_mod_cast hr
    rw [hq, hm, add_div, mul_div_cancel_left₀ _ hd'.ne', Nat.cast_succ]
    have h1 : (1 : ℚ) / 2 ≤ (m % d : ℕ) / d := by rw [div_le_div_iff₀ two_pos hd']; linarith
    have h2 : ((m % d : ℕ) : ℚ) / d ≤ 1 := (div_le_one hd').mpr hlt
    constructor <;> linarith

theorem wholeUnits_halfEven_near (m : ℕ) {e : ℤ} (he : e < 0) :
    |(wholeUnits .halfEven m e : ℚ) - m * 2 ^ e| ≤ 1 / 2 := by
  obtain ⟨k, rfl⟩ : ∃ k : ℕ, e = -k := ⟨(-e).toNat, by omega⟩
  have hw : wholeUnits .halfEven m (-k) = Rounding.halfEven.quotient m (2 ^ k) := by
    rw [wholeUnits, if_neg (by omega), Int.neg_neg, Int.toNat_natCast]
    rfl
  have hq := quotient_halfEven_near m (Nat.two_pow_pos k)
  rw [hw, zpow_neg, zpow_natCast, ← div_eq_mul_inv]
  rwa [Nat.cast_pow, Nat.cast_ofNat] at hq

/-- A large double is a whole number of parts of 128, so it is whole if it is near to a whole number. -/
theorem eq_of_near {m w : ℕ} {e : ℤ} (he : -7 ≤ e) (h : |(m : ℚ) * 2 ^ e - w| ≤ 1 / 200) : (m : ℚ) * 2 ^ e = w := by
  obtain ⟨hlo, hhi⟩ := abs_le.mp h
  obtain ⟨j, hj⟩ := two_zpow_eq_mul he
  have hv : (m : ℚ) * 2 ^ e = ((m * j : ℤ) : ℚ) / 128 := by
    rw [hj, (by norm_num : (2 : ℚ) ^ (-7 : ℤ) = 1 / 128)]
    push_cast
    ring
  rw [hv] at hlo hhi ⊢
  have h1 : ((m * j : ℤ) : ℚ) < (128 * w + 1 : ℤ) := by
    push_cast at hhi ⊢
    linarith
  have h2 : ((128 * w - 1 : ℤ) : ℚ) < (m * j : ℤ) := by
    push_cast at hlo ⊢
    linarith
  have h1 : (m * j : ℤ) < 128 * w + 1 := by exact_mod_cast h1
  have h2 : (128 * w - 1 : ℤ) < m * j := by exact_mod_cast h2
  rw [(by omega : (m * j : ℤ) = 128 * w)]
  push_cast
  ring

/-- Hundredths are rounded between parts of 128, which are doubles up to this size. -/
theorem nearest_hundredths {k w : ℕ} (hw : w ≤ 2 ^ 45) :
    nearest ((k : ℚ) / 100) = w ∨ 1 / 128 ≤ |nearest ((k : ℚ) / 100) - w| := by
  have hpart {n : ℕ} (h : n < 2 ^ 53) : nearest ((n : ℚ) / 128) = n / 128 := by
    have hp := nearest_units h (by decide : -1074 ≤ (-7 : ℤ)) (by decide)
    rwa [(by norm_num : (2 : ℚ) ^ (-7 : ℤ) = 1 / 128), ← div_eq_mul_one_div] at hp
  rcases Nat.lt_trichotomy k (100 * w) with hk | rfl | hk
  · right
    have hb : (k : ℚ) / 100 ≤ (128 * w - 1 : ℕ) / 128 := by
      have hk : (k : ℚ) + 1 ≤ 100 * w := by exact_mod_cast hk
      rw [Nat.cast_pred (by omega)]
      push_cast
      linarith
    have hm := nearest_mono hb
    rw [hpart (by omega), Nat.cast_pred (by omega)] at hm
    push_cast at hm
    exact le_abs.mpr (.inr (by linarith))
  · left
    rw [Nat.cast_mul, Nat.cast_ofNat, mul_div_cancel_left₀ _ (by norm_num), nearest_natCast (by omega)]
  · right
    have hb : ((128 * w + 1 : ℕ) : ℚ) / 128 ≤ k / 100 := by
      have hk : (100 * w : ℚ) + 1 ≤ k := by exact_mod_cast hk
      push_cast
      linarith
    have hm := nearest_mono hb
    rw [hpart (by omega)] at hm
    push_cast at hm
    exact le_abs.mpr (.inl (by linarith))

/-- The double nearest to a whole number of hundredths is whole or not that near to a whole number. -/
theorem far_from_whole {m k w : ℕ} {e : ℤ} (hn : IsNormal m e) (hv : (m : ℚ) * 2 ^ e = nearest (k / 100))
    (hw : (m : ℚ) * 2 ^ e ≠ w) : 1 / 200 < |(m : ℚ) * 2 ^ e - w| := by
  by_contra hnear
  have hnear := not_lt.mp hnear
  rcases le_or_gt (-7) e with he | he
  · exact hw (eq_of_near he hnear)
  · have hz : (2 : ℚ) ^ e ≤ 1 / 256 :=
      (zpow_le_zpow_right₀ one_le_two (by omega : e ≤ -8)).trans_eq (by norm_num)
    have hm : (m : ℚ) < 2 ^ 53 := by exact_mod_cast hn.lt
    have hsmall : (m : ℚ) * 2 ^ e ≤ m * (1 / 256) := mul_le_mul_of_nonneg_left hz (Nat.cast_nonneg m)
    have hw1 : (w : ℚ) < 2 ^ 45 + 1 := by linarith [(abs_le.mp hnear).1]
    have hw2 : w < 2 ^ 45 + 1 := by exact_mod_cast hw1
    rcases nearest_hundredths (k := k) (by omega : w ≤ 2 ^ 45) with h | h
    · exact hw (hv.trans h)
    · rw [← hv] at h
      linarith

theorem decimals_ne_zero {x : Float} {negative : Bool} {m : ℕ} {e : ℤ}
    (hr : read (hundredths x) = .finite negative m e) (hw : isWhole (hundredths x) = false) :
    wholeUnits .halfEven (m * 100) e % 100 ≠ 0 := by
  have hf : (hundredths x).isFinite = true := by
    by_contra hf
    rcases read_of_not_isFinite (Bool.eq_false_of_not_eq_true hf) with h | ⟨_, h⟩ <;> rw [hr] at h <;> cases h
  have hx : (x * 100).isFinite = true := by
    by_contra hx
    exact absurd hf (Bool.eq_false_iff.mp (hundredths_not_isFinite (Bool.eq_false_of_not_eq_true hx)))
  obtain ⟨-, n, hv⟩ := value_hundredths hx
  obtain ⟨s, m', e', hr', hn, hs⟩ := read_of_isFinite hf
  cases hr.symm.trans hr'
  have h0 : (0 : ℚ) ≤ m * 2 ^ e := mul_nonneg (Nat.cast_nonneg m) (two_zpow_pos e).le
  have hk : (m : ℚ) * 2 ^ e = nearest (n.natAbs / 100) := by
    have hd : |(n : ℚ) / 100| = |(n : ℚ)| / 100 := by rw [abs_div, abs_of_pos (by norm_num : (0 : ℚ) < 100)]
    rw [Nat.cast_natAbs, Int.cast_abs, ← hd, nearest_abs, ← hv, hs, abs_signedBy, abs_of_nonneg h0]
  rw [isWhole, hr] at hw
  simp only [Bool.or_eq_false_iff, decide_eq_false_iff_not, not_le] at hw
  obtain ⟨he, hmod⟩ := hw
  intro h100
  obtain ⟨w, hw⟩ := Nat.dvd_of_mod_eq_zero h100
  have hnear := wholeUnits_halfEven_near (m * 100) he
  have hne : (m : ℚ) * 2 ^ e ≠ w := by
    intro hmw
    have hm : m = w * 2 ^ (-e).toNat := by
      have hz : (2 : ℚ) ^ e * 2 ^ (-e).toNat = 1 := by
        rw [← zpow_natCast, ← zpow_add₀ two_ne_zero, (by omega : e + ((-e).toNat : ℤ) = 0), zpow_zero]
      have hq : (m : ℚ) = w * 2 ^ (-e).toNat := by rw [← hmw, mul_assoc, hz, mul_one]
      exact_mod_cast hq
    rw [hm] at hmod
    exact absurd hmod (by simp)
  have hfar := far_from_whole hn hk hne
  rw [hw] at hnear
  push_cast at hnear
  rw [(by ring : (100 : ℚ) * w - m * 100 * 2 ^ e = -(100 * (m * 2 ^ e - w))), abs_neg, abs_mul,
    abs_of_pos (by norm_num : (0 : ℚ) < 100)] at hnear
  linarith

end SceneCode.Number
