import SceneCode.Proofs.Number.Nearest
import SceneCode.Proofs.Number.Places

namespace SceneCode.Number
open Float.Model UnpackedFloat

def signedBy (s : Sign) (v : ℚ) : ℚ :=
  match s with
  | .positive => v
  | .negative => -v

/-- The number that a double stands for, and behind all of them the infinities. What is not a number is on no level,
and its level is not looked at. -/
def level : UnpackedFloat → ℚ
  | .infinity s => signedBy s limit
  | .finite s m e _ => signedBy s (m * 2 ^ e)
  | .zero _ | .notANumber => 0

theorem nearest_signedBy (s : Sign) (v : ℚ) : nearest (signedBy s v) = signedBy s (nearest v) := by
  cases s
  · exact nearest_neg v
  · rfl

/-- Behind a mantissa come a half, if the next bit is set, and something below a half, if any bit behind it is. -/
def Tells (em : ExtendedMantissa) (x : ℚ) : Prop :=
  ∃ rest : ℚ, 0 ≤ rest ∧ rest < 1 / 2 ∧ (em.stickyBit = true ↔ 0 < rest) ∧
    x = em.mantissa + (if em.roundBit then 1 / 2 else 0) + rest

namespace Tells
variable {em : ExtendedMantissa} {x : ℚ}

theorem bounds (h : Tells em x) : (em.mantissa : ℚ) ≤ x ∧ x < em.mantissa + 1 := by
  obtain ⟨rest, h0, h1, -, rfl⟩ := h
  split <;> constructor <;> linarith

theorem shiftRightOne (h : Tells em x) : Tells em.shiftRightOne (x / 2) := by
  obtain ⟨m, r, s⟩ := em
  obtain ⟨rest, h0, h1, hs, rfl⟩ := h
  have hm : (m : ℚ) = 2 * (m / 2 : ℕ) + (m % 2 : ℕ) := by exact_mod_cast (Nat.div_add_mod m 2).symm
  have hsticky : 0 < (if r then 1 / 2 else 0 : ℚ) / 2 + rest / 2 ↔ r = true ∨ s = true := by
    cases r
    · simp [hs]
    · simp
      linarith
  refine ⟨(if r then 1 / 2 else 0) / 2 + rest / 2, ?_, ?_, ?_, ?_⟩
  · split <;> linarith
  · split <;> linarith
  · simpa [ExtendedMantissa.shiftRightOne] using hsticky.symm
  · rcases Nat.mod_two_eq_zero_or_one m with h | h <;>
      simp only [ExtendedMantissa.shiftRightOne, h, hm] <;> push_cast <;> simp <;> ring

theorem shift (h : Tells em x) (k : ℕ) : Tells (em >>> k) (x / 2 ^ k) := by
  induction k with
  | zero => simpa [HShiftRight.hShiftRight, Nat.repeat] using h
  | succ k ih =>
    have hx : x / 2 ^ (k + 1) = x / 2 ^ k / 2 := by rw [pow_succ, div_mul_eq_div_div]
    rw [hx]
    exact ih.shiftRightOne

/-- The mantissa is rounded as the number is. -/
theorem roundedMantissa (h : Tells em x) : (em.roundedMantissa : ℤ) = halfEven x := by
  have hf : ⌊x⌋ = em.mantissa := Int.floor_eq_iff.mpr h.bounds
  obtain ⟨m, r, s⟩ := em
  obtain ⟨rest, h0, h1, hs, hx⟩ := h
  have hr : Int.fract x = (if r then 1 / 2 else 0) + rest := by
    rw [Int.fract, hf, hx]
    push_cast
    ring
  rw [halfEven, hf, hr]
  cases r <;> cases s
  · rw [if_pos (by simpa using h1)]
    rfl
  · rw [if_pos (by simpa using h1)]
    rfl
  · have hz : rest = 0 := le_antisymm (not_lt.mp fun hlt => absurd (hs.mpr hlt) Bool.false_ne_true) h0
    rw [hz, if_neg (by simp), if_neg (by simp)]
    rfl
  · have hp : 0 < rest := hs.mp rfl
    rw [if_neg (by simpa using h0), if_pos (by simpa using hp)]
    rfl

theorem exact (m : ℕ) : Tells (.ofMantissaAndAccuracy m .exact) m :=
  ⟨0, le_rfl, by norm_num, by simp [ExtendedMantissa.ofMantissaAndAccuracy], by
    simp [ExtendedMantissa.ofMantissaAndAccuracy]⟩

/-- A quotient with what its remainder says. -/
theorem quotient (m : ℕ) {n : ℕ} (hn : 0 < n) :
    Tells (.ofMantissaAndAccuracy (m / n) (accuracyOfFraction (m % n) n)) ((m : ℚ) / n) := by
  have hn' : (0 : ℚ) < n := by exact_mod_cast hn
  have hlt : ((m % n : ℕ) : ℚ) / n < 1 := by
    rw [div_lt_one hn']
    exact_mod_cast Nat.mod_lt m hn
  have hm : (m : ℚ) / n = (m / n : ℕ) + (m % n : ℕ) / n := by
    have h : (n : ℚ) * (m / n : ℕ) + (m % n : ℕ) = m := by exact_mod_cast Nat.div_add_mod m n
    rw [← h, add_div, mul_div_cancel_left₀ _ hn'.ne']
  rw [hm]
  unfold accuracyOfFraction
  split
  · rename_i h
    rw [h]
    simpa using exact (m / n)
  · rename_i h
    have hp : (0 : ℚ) < (m % n : ℕ) / n := div_pos (by exact_mod_cast Nat.pos_of_ne_zero h) hn'
    rcases Nat.lt_trichotomy (2 * (m % n)) n with hc | hc | hc
    · have hh : ((m % n : ℕ) : ℚ) / n < 1 / 2 := by
        rw [div_lt_div_iff₀ hn' two_pos]
        exact_mod_cast (by omega : m % n * 2 < 1 * n)
      rw [Nat.compare_eq_lt.mpr hc]
      exact ⟨_, hp.le, hh, iff_of_true rfl hp, by simp [ExtendedMantissa.ofMantissaAndAccuracy]⟩
    · have hh : ((m % n : ℕ) : ℚ) / n = 1 / 2 := by
        rw [div_eq_div_iff hn'.ne' two_ne_zero]
        exact_mod_cast (by omega : m % n * 2 = 1 * n)
      rw [Nat.compare_eq_eq.mpr hc, hh]
      exact ⟨0, le_rfl, by norm_num, by simp [ExtendedMantissa.ofMantissaAndAccuracy], by
        simp [ExtendedMantissa.ofMantissaAndAccuracy]⟩
    · have hh : 1 / 2 < ((m % n : ℕ) : ℚ) / n := by
        rw [div_lt_div_iff₀ two_pos hn']
        exact_mod_cast (by omega : 1 * n < m % n * 2)
      rw [Nat.compare_eq_gt.mpr hc]
      exact ⟨(m % n : ℕ) / n - 1 / 2, by linarith, by linarith, iff_of_true rfl (by linarith), by
        simp only [ExtendedMantissa.ofMantissaAndAccuracy, if_true]
        ring⟩

end Tells

theorem targetExponent_eq (m : ℕ) (e : ℤ) :
    Format.binary64.targetExponent (totalExponent m e) = max (m.log2 + e - 52) (-1074) := by
  simp only [Format.targetExponent, totalExponent, Format.mantissaBits, Format.minExponent]
  norm_num
  omega

/-- The exponent that a mantissa is shifted to is the last place of the number it tells of. -/
theorem targetExponent_eq_lastPlace {em : ExtendedMantissa} {e : ℤ} {v : ℚ} (hv : 0 < v)
    (ht : Tells em (v / 2 ^ e)) (hc : 52 ≤ em.mantissa.log2 ∨ e ≤ -1074) :
    Format.binary64.targetExponent (totalExponent em.mantissa e) = lastPlace v := by
  have hp := two_zpow_pos e
  obtain ⟨hlo, hhi⟩ := ht.bounds
  rw [le_div_iff₀ hp] at hlo
  rw [div_lt_iff₀ hp] at hhi
  rw [targetExponent_eq, lastPlace]
  rcases Nat.eq_zero_or_pos em.mantissa with h0 | hpos
  · rw [h0] at hhi hc ⊢
    have hl : Int.log 2 v < e := (Int.lt_zpow_iff_log_lt (by decide) hv).mp (by simpa using hhi)
    simp at hc ⊢
    omega
  · have hl : Int.log 2 v = em.mantissa.log2 + e := by
      refine le_antisymm (Int.lt_add_one_iff.mp ((Int.lt_zpow_iff_log_lt (by decide) hv).mp (hhi.trans_le ?_))) ?_
      · have hm : (em.mantissa : ℚ) + 1 ≤ 2 ^ (em.mantissa.log2 + 1) := by exact_mod_cast Nat.lt_log2_self
        calc ((em.mantissa : ℚ) + 1) * 2 ^ e ≤ 2 ^ (em.mantissa.log2 + 1) * 2 ^ e :=
              mul_le_mul_of_nonneg_right hm hp.le
          _ = 2 ^ ((em.mantissa.log2 : ℤ) + e + 1) := by
            rw [← zpow_natCast, ← zpow_add₀ (by decide)]
            congr 1
            push_cast
            ring
      · rw [← log_units hpos]
        exact Int.log_mono_right (mul_pos (by exact_mod_cast hpos) hp) hlo
    rw [hl]

theorem shiftToTargetExponent_eq (m : ℕ) (e : ℤ) (a : Accuracy) {t : ℤ} {k : ℕ}
    (ht : Format.binary64.targetExponent (totalExponent m e) = t) (hk : (t - e).toNat = k) :
    shiftToTargetExponent .binary64 m e a = (ExtendedMantissa.ofMantissaAndAccuracy m a >>> k, e + k) := by
  unfold shiftToTargetExponent shiftToExponent
  dsimp only
  rw [ht, hk]

/-- A mantissa with few enough digits is left alone, and one bit too many is shifted out. -/
theorem shiftToTargetExponent_exact {m : ℕ} {e : ℤ} (he : -1074 ≤ e) :
    (m < 2 ^ 53 → shiftToTargetExponent .binary64 m e .exact = (⟨m, false, false⟩, e)) ∧
      shiftToTargetExponent .binary64 (2 ^ 53) e .exact = (⟨2 ^ 52, false, false⟩, e + 1) := by
  constructor
  · intro hm
    have hl : m.log2 ≤ 52 := by
      rcases Nat.eq_zero_or_pos m with rfl | hpos
      · simp
      · exact Nat.lt_succ_iff.mp ((Nat.log2_lt hpos.ne').mpr hm)
    have hk : (max ((m.log2 : ℤ) + e - 52) (-1074) - e).toNat = 0 := by omega
    rw [shiftToTargetExponent_eq m e .exact (targetExponent_eq m e) hk, Int.natCast_zero, add_zero]
    rfl
  · have hk : (max (((2 ^ 53 : ℕ).log2 : ℤ) + e - 52) (-1074) - e).toNat = 1 := by
      rw [Nat.log2_two_pow]
      omega
    rw [shiftToTargetExponent_eq (2 ^ 53) e .exact (targetExponent_eq _ e) hk]
    rfl

/-- A number in its last places has as many of them as a mantissa has, or one more. -/
theorem halfEven_lastPlace {v : ℚ} (hv : 0 < v) :
    halfEven (v / 2 ^ lastPlace v) ≤ 2 ^ 53 ∧ (2 ^ 52 ≤ halfEven (v / 2 ^ lastPlace v) ∨ lastPlace v = -1074) := by
  have hp := two_zpow_pos (lastPlace v)
  have hl : Int.log 2 v - 52 ≤ lastPlace v := le_max_left _ _
  constructor
  · refine halfEven_le ((div_le_iff₀ hp).mpr ?_)
    calc v ≤ 2 ^ (Int.log 2 v + 1) := (Int.lt_zpow_succ_log_self (by decide) v).le
      _ ≤ 2 ^ (53 + lastPlace v) := zpow_le_zpow_right₀ (by decide) (by omega)
      _ = ((2 ^ 53 : ℤ) : ℚ) * 2 ^ lastPlace v := by
        rw [zpow_add₀ (by decide)]
        rfl
  · by_cases h : lastPlace v = -1074
    · exact .inr h
    · have he : Int.log 2 v = 52 + lastPlace v := by
        unfold lastPlace at h ⊢
        omega
      refine .inl (le_halfEven ((le_div_iff₀ hp).mpr ?_))
      calc ((2 ^ 52 : ℤ) : ℚ) * 2 ^ lastPlace v = 2 ^ Int.log 2 v := by
            rw [he, zpow_add₀ (by decide)]
            rfl
        _ ≤ v := Int.zpow_log_le_self (by decide) hv

/-- The mantissa is that of the rounded number, if it was told with all its digits. -/
theorem roundWithAccuracy_eq {s : Sign} {m : ℕ} {e : ℤ} {a : Accuracy} {v : ℚ} (hv : 0 < v)
    (ht : Tells (.ofMantissaAndAccuracy m a) (v / 2 ^ e)) (hc : 52 ≤ m.log2 ∨ e ≤ -1074) :
    (roundWithAccuracy .binary64 s m e a = .zero s ∧ rounded v = 0) ∨
      ∃ r t h, roundWithAccuracy .binary64 s m e a = .finite s r t h ∧ IsNormal r t ∧ rounded v = r * 2 ^ t := by
  have hm : (ExtendedMantissa.ofMantissaAndAccuracy m a).mantissa = m := by
    rcases a with _ | (_ | _ | _) <;> rfl
  have htgt : Format.binary64.targetExponent (totalExponent m e) = lastPlace v := by
    have h := targetExponent_eq_lastPlace hv ht (hm.symm ▸ hc)
    rwa [hm] at h
  have hle : e ≤ lastPlace v := by
    rw [← htgt, targetExponent_eq]
    omega
  obtain ⟨k, hk⟩ := Int.eq_ofNat_of_zero_le (sub_nonneg.mpr hle)
  have hek : e + k = lastPlace v := by omega
  have hshift := shiftToTargetExponent_eq m e a htgt (k := k) (by omega)
  have htell := ht.shift k
  rw [div_div, ← zpow_natCast, ← zpow_add₀ two_ne_zero, hek] at htell
  generalize hem : ExtendedMantissa.ofMantissaAndAccuracy m a >>> k = em at hshift htell
  obtain ⟨hmax, hmin⟩ := halfEven_lastPlace hv
  have hval : rounded v = em.roundedMantissa * 2 ^ lastPlace v := by
    rw [rounded, ← htell.roundedMantissa, Int.cast_natCast]
  rw [← htell.roundedMantissa] at hmax hmin
  have hlow : -1074 ≤ lastPlace v := le_max_right _ _
  obtain ⟨hsame, hcarry⟩ := shiftToTargetExponent_exact (m := em.roundedMantissa) hlow
  unfold roundWithAccuracy
  rw [hshift, hek]
  dsimp only
  generalize em.roundedMantissa = r at *
  rcases (by omega : r < 2 ^ 53 ∨ r = 2 ^ 53) with hr | rfl
  · rw [hsame hr]
    dsimp only
    split
    · rename_i h0
      exact .inl ⟨rfl, by rw [hval, h0, Nat.cast_zero, zero_mul]⟩
    · rename_i h0
      exact .inr ⟨r, lastPlace v, Nat.pos_of_ne_zero h0, rfl, ⟨hr, hlow, by omega⟩, hval⟩
  · rw [hcarry]
    refine .inr ⟨2 ^ 52, lastPlace v + 1, by decide, rfl, ⟨by decide, by omega, .inl le_rfl⟩, ?_⟩
    rw [hval, zpow_add₀ two_ne_zero]
    push_cast
    ring

theorem unpack_pack_finite {s : Sign} {m : ℕ} {e : ℤ} {hm : 0 < m} (hn : IsNormal m e) :
    (Float.Model.pack (.finite s m e hm)).unpack = if e ≤ 971 then .finite s m e hm else .infinity s := by
  obtain ⟨hlt, hlow, hfull⟩ := hn
  change UnpackedFloat.unpack .binary64 (UnpackedFloat.pack .binary64 (.finite s m e hm)) = _
  have hb : (e + (Format.binary64.exponentBias : ℤ) + (Format.binary64.mantissaBitsWithoutImplicit : ℤ)).toNat =
      (e + 1075).toNat := by
    change (e + (1023 : ℕ) + (52 : ℕ)).toNat = _
    omega
  have hl : m.log2 + 1 = Format.binary64.mantissaBits ↔ 2 ^ 52 ≤ m := by
    change m.log2 + 1 = 53 ↔ _
    have h1 := Nat.le_log2 (n := m) (k := 52) hm.ne'
    have h2 := Nat.log2_lt (n := m) (k := 53) hm.ne'
    omega
  unfold UnpackedFloat.pack
  dsimp only
  rw [hb]
  by_cases he : e ≤ 971
  · have hk : ∃ k < 2047, (e + 1075).toNat = k ∧ 0 < k ∧ (k : ℤ) - 1075 = e :=
      ⟨(e + 1075).toNat, by omega, rfl, by omega, by omega⟩
    obtain ⟨k, hk, hke, hk0, hk'⟩ := hk
    have hkb : (BitVec.ofNat 11 k).toNat = k := by simp; omega
    have hk1 : BitVec.ofNat 11 k ≠ -1#11 := fun h => by
      have h := congrArg BitVec.toNat h
      rw [hkb] at h
      simp at h
      omega
    have hk2 : BitVec.ofNat 11 k ≠ 0#11 := fun h => by
      have h := congrArg BitVec.toNat h
      rw [hkb] at h
      simp at h
      omega
    rw [hke, if_neg (by omega), if_pos he]
    split
    · rename_i h52
      have h52 := hl.mp h52
      have hmb : 2 ^ 52 + (BitVec.ofNat 52 m).toNat = m := by simp; omega
      rw [unpack_packComponents, if_neg hk1, if_neg hk2]
      simp only [hkb, hmb, hk']
    · rename_i h52
      have h52 := mt hl.mpr h52
      have he' : e = -1074 := hfull.resolve_left h52
      have hmb : (BitVec.ofNat 52 m).toNat = m := by simp; omega
      have hm0 : BitVec.ofNat 52 m ≠ 0#52 := fun h => by
        have h := congrArg BitVec.toNat h
        rw [hmb] at h
        simp at h
        omega
      subst he'
      rw [unpack_packComponents, if_neg (by decide), if_pos rfl, dif_neg hm0]
      simp only [hmb]
  · rw [if_pos (by omega), if_neg he]
    exact (unpack_packComponents s (-1#11) 0#52).trans (if_pos rfl)

theorem unpack_pack_zero (s : Sign) : (Float.Model.pack (.zero s)).unpack = .zero s := by
  cases s <;> rfl

theorem unpack_pack_infinity (s : Sign) : (Float.Model.pack (.infinity s)).unpack = .infinity s := by
  cases s <;> rfl

theorem unpack_pack_notANumber : (Float.Model.pack .notANumber).unpack = .notANumber := by
  rfl

theorem pack_unpack (x : Float.Model) : Float.Model.pack x.unpack = x := by
  obtain ⟨b, h⟩ := x
  simp only [Float.Model.pack, Float.Model.unpack]
  congr 1
  exact congrArg _ (pack_unpack_of_valid h)

theorem IsNormal.lt_iff {m : ℕ} {e : ℤ} (h : IsNormal m e) : (m : ℚ) * 2 ^ e < limit ↔ e ≤ 971 := by
  refine ⟨fun hlt => ?_, units_lt_limit h.lt⟩
  by_contra he
  have hm : ((2 ^ 52 : ℕ) : ℚ) ≤ m := Nat.cast_le.mpr (h.full.resolve_right (by omega))
  have hz : (2 : ℚ) ^ (972 : ℤ) ≤ 2 ^ e := zpow_le_zpow_right₀ one_le_two (by omega)
  rw [limit_eq] at hlt
  exact hlt.not_ge (mul_le_mul hm hz (two_zpow_pos 972).le (Nat.cast_nonneg m))

theorem level_pack_finite {s : Sign} {m : ℕ} {e : ℤ} {hm : 0 < m} (hn : IsNormal m e) :
    (Float.Model.pack (.finite s m e hm)).unpack.isNaN = false ∧
      level (Float.Model.pack (.finite s m e hm)).unpack = signedBy s (min (m * 2 ^ e) limit) := by
  rw [unpack_pack_finite hn]
  split
  · rename_i he
    exact ⟨rfl, congrArg (signedBy s) (min_eq_left (hn.lt_iff.mpr he).le).symm⟩
  · rename_i he
    exact ⟨rfl, congrArg (signedBy s) (min_eq_right (not_lt.mp (mt hn.lt_iff.mp he))).symm⟩

theorem level_pack_zero (s : Sign) :
    (Float.Model.pack (.zero s)).unpack.isNaN = false ∧ level (Float.Model.pack (.zero s)).unpack = nearest 0 := by
  rw [unpack_pack_zero, nearest_zero]
  exact ⟨rfl, rfl⟩

/-- What is rounded and put into bits stands on the level of the nearest double. -/
theorem level_roundWithAccuracy {s : Sign} {m : ℕ} {e : ℤ} {a : Accuracy} {v : ℚ} (hv : 0 < v)
    (ht : Tells (.ofMantissaAndAccuracy m a) (v / 2 ^ e)) (hc : 52 ≤ m.log2 ∨ e ≤ -1074) :
    (Float.Model.pack (roundWithAccuracy .binary64 s m e a)).unpack.isNaN = false ∧
      level (Float.Model.pack (roundWithAccuracy .binary64 s m e a)).unpack = nearest (signedBy s v) := by
  rw [nearest_signedBy, nearest_of_nonneg hv.le]
  rcases roundWithAccuracy_eq (s := s) hv ht hc with ⟨h, h0⟩ | ⟨r, t, hr, h, hn, h0⟩
  · rw [h, h0, min_eq_left limit_pos.le]
    cases s <;> exact ⟨rfl, (neg_zero (G := ℚ)).symm⟩
  · rw [h, h0]
    exact level_pack_finite hn

/-- A double stands on its own level. -/
theorem nearest_level (x : Float.Model) : nearest (level x.unpack) = level x.unpack := by
  cases hu : x.unpack with
  | notANumber => exact nearest_zero
  | infinity s =>
    change nearest (signedBy s _) = signedBy s _
    rw [nearest_signedBy, nearest_of_nonneg limit_pos.le, min_eq_left]
    · rw [limit_eq, rounded_units (by decide) (by decide)]
    · rw [limit_eq, rounded_units (by decide) (by decide)]
  | zero s => exact nearest_zero
  | finite s m e hm =>
    obtain ⟨hn, he⟩ := unpack_shape hu
    change nearest (signedBy s _) = signedBy s _
    rw [nearest_signedBy, nearest_units hn.lt hn.low he]

theorem log2_shiftLeft {m : ℕ} (hm : 0 < m) (k : ℕ) : (m <<< k).log2 = m.log2 + k := by
  have h1 := Nat.log2_self_le hm.ne'
  have h2 := Nat.lt_log2_self (n := m)
  rw [Nat.shiftLeft_eq]
  refine (Nat.log2_eq_iff (by positivity)).mpr ⟨?_, ?_⟩
  · rw [pow_add]
    exact Nat.mul_le_mul_right _ h1
  · rw [add_right_comm, pow_add]
    exact Nat.mul_lt_mul_of_pos_right h2 (by positivity)

theorem shiftLeft_units (m k : ℕ) (e : ℤ) : ((m <<< k : ℕ) : ℚ) * 2 ^ (e - k) = m * 2 ^ e := by
  rw [Nat.shiftLeft_eq, Nat.cast_mul, Nat.cast_pow, mul_assoc, ← zpow_natCast, Nat.cast_ofNat,
    ← zpow_add₀ two_ne_zero, add_sub_cancel]

/-- A whole number of units is rounded with all its digits. -/
theorem level_round (s : Sign) {m : ℕ} (hm : 0 < m) (e : ℤ) :
    (Float.Model.pack (UnpackedFloat.round .binary64 s m e)).unpack.isNaN = false ∧
      level (Float.Model.pack (UnpackedFloat.round .binary64 s m e)).unpack = nearest (signedBy s (m * 2 ^ e)) := by
  have hp := two_zpow_pos e
  unfold UnpackedFloat.round
  dsimp only
  rw [targetExponent_eq]
  generalize hk : (e - max ((m.log2 : ℤ) + e - 52) (-1074)).toNat = k
  refine level_roundWithAccuracy (mul_pos (by exact_mod_cast hm) hp) ?_ ?_
  · rw [← shiftLeft_units m k e]
    simp only [decreaseExponent, hk]
    rw [mul_div_assoc, div_self (two_zpow_pos _).ne', mul_one]
    exact .exact _
  · simp only [decreaseExponent, hk]
    rw [log2_shiftLeft hm]
    omega

theorem level_normalize (m e : ℤ) (s : Sign) :
    (Float.Model.pack (UnpackedFloat.normalize .binary64 m e s)).unpack.isNaN = false ∧
      level (Float.Model.pack (UnpackedFloat.normalize .binary64 m e s)).unpack = nearest (m * 2 ^ e) := by
  have hcast {n : ℤ} (h : 0 ≤ n) : ((n.toNat : ℕ) : ℚ) = n := by exact_mod_cast Int.toNat_of_nonneg h
  unfold UnpackedFloat.normalize
  split
  · rename_i h
    have h : m < 0 := Int.compare_eq_lt.mp h
    have hl := level_round .negative (by omega : 0 < (-m).toNat) e
    rwa [hcast (by omega), signedBy, Int.cast_neg, neg_mul, neg_neg] at hl
  · rename_i h
    have h : m = 0 := Int.compare_eq_eq.mp h
    rw [h, Int.cast_zero, zero_mul, nearest_zero]
    cases s <;> exact ⟨rfl, rfl⟩
  · rename_i h
    have h : 0 < m := Int.compare_eq_gt.mp h
    have hl := level_round .positive (by omega : 0 < m.toNat) e
    rwa [hcast h.le] at hl

end SceneCode.Number
