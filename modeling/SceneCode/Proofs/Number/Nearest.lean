import Mathlib.Algebra.Order.Field.Power
import Mathlib.Algebra.Order.Round
import Mathlib.Data.Int.Log
import Mathlib.Data.Nat.Log
import Mathlib.Data.Rat.Floor
import Mathlib.Tactic.Linarith
import Mathlib.Tactic.Positivity
import Mathlib.Tactic.SplitIfs

namespace SceneCode.Number

/-- The nearest whole number, the even one at a tie. -/
def halfEven (x : ℚ) : ℤ :=
  if Int.fract x < 1 / 2 then ⌊x⌋ else if 1 / 2 < Int.fract x then ⌊x⌋ + 1 else ⌊x⌋ + ⌊x⌋ % 2

theorem halfEven_intCast (n : ℤ) : halfEven n = n := by
  simp [halfEven]

theorem halfEven_bounds (x : ℚ) : ⌊x⌋ ≤ halfEven x ∧ halfEven x ≤ ⌊x⌋ + 1 := by
  unfold halfEven
  split_ifs <;> omega

theorem halfEven_mono {x y : ℚ} (h : x ≤ y) : halfEven x ≤ halfEven y := by
  rcases (Int.floor_mono h).lt_or_eq with hf | hf
  · exact (halfEven_bounds x).2.trans ((Int.add_one_le_of_lt hf).trans (halfEven_bounds y).1)
  · have hr : Int.fract x ≤ Int.fract y := by
      rw [Int.fract, Int.fract, hf]
      linarith
    unfold halfEven
    rw [hf]
    split_ifs <;> first | omega | linarith

theorem halfEven_le {x : ℚ} {n : ℤ} (h : x ≤ n) : halfEven x ≤ n :=
  (halfEven_mono h).trans_eq (halfEven_intCast n)

theorem le_halfEven {x : ℚ} {n : ℤ} (h : n ≤ x) : n ≤ halfEven x :=
  (halfEven_intCast n).symm.trans_le (halfEven_mono h)

/-- The power of two that the last place of a double of this size counts. -/
def lastPlace (v : ℚ) : ℤ :=
  max (Int.log 2 v - 52) (-1074)

theorem two_zpow_pos (e : ℤ) : (0 : ℚ) < 2 ^ e :=
  zpow_pos (by decide) e

/-- A number that is not negative in whole last places. -/
def rounded (v : ℚ) : ℚ :=
  halfEven (v / 2 ^ lastPlace v) * 2 ^ lastPlace v

/-- Bounds that are whole in the last places of a number bound what it is rounded to. -/
theorem rounded_le {v : ℚ} {n : ℤ} (h : v ≤ n * 2 ^ lastPlace v) : rounded v ≤ n * 2 ^ lastPlace v := by
  have hp := two_zpow_pos (lastPlace v)
  have hn : halfEven (v / 2 ^ lastPlace v) ≤ n := halfEven_le ((div_le_iff₀ hp).mpr h)
  exact mul_le_mul_of_nonneg_right (by exact_mod_cast hn) hp.le

theorem le_rounded {v : ℚ} {n : ℤ} (h : n * 2 ^ lastPlace v ≤ v) : n * 2 ^ lastPlace v ≤ rounded v := by
  have hp := two_zpow_pos (lastPlace v)
  have hn : n ≤ halfEven (v / 2 ^ lastPlace v) := le_halfEven ((le_div_iff₀ hp).mpr h)
  exact mul_le_mul_of_nonneg_right (by exact_mod_cast hn) hp.le

theorem rounded_nonneg {v : ℚ} (h : 0 ≤ v) : 0 ≤ rounded v := by
  have hr := le_rounded (v := v) (n := 0) (by simpa using h)
  simpa using hr

theorem rounded_zero : rounded 0 = 0 := by
  rw [rounded, zero_div, ← Int.cast_zero, halfEven_intCast, Int.cast_zero, zero_mul]

/-- A power of two is whole in smaller last places. -/
theorem two_zpow_eq_mul {t n : ℤ} (h : t ≤ n) : ∃ k : ℤ, (2 : ℚ) ^ n = k * 2 ^ t := by
  refine ⟨2 ^ (n - t).toNat, ?_⟩
  have he : ((2 ^ (n - t).toNat : ℤ) : ℚ) = (2 : ℚ) ^ (n - t) := by
    rw [Int.cast_pow, ← zpow_natCast, Int.toNat_of_nonneg (sub_nonneg.mpr h)]
    rfl
  rw [he, ← zpow_add₀ (by decide), sub_add_cancel]

theorem rounded_mono {u v : ℚ} (hu : 0 ≤ u) (h : u ≤ v) : rounded u ≤ rounded v := by
  rcases hu.eq_or_lt with rfl | hu
  · rw [rounded_zero]
    exact rounded_nonneg h
  have hv : 0 < v := hu.trans_le h
  have hl : Int.log 2 u ≤ Int.log 2 v := Int.log_mono_right hu h
  by_cases he : lastPlace u = lastPlace v
  · unfold rounded
    rw [he]
    have hp := two_zpow_pos (lastPlace v)
    have hm : halfEven (u / 2 ^ lastPlace v) ≤ halfEven (v / 2 ^ lastPlace v) :=
      halfEven_mono (div_le_div_of_nonneg_right h hp.le)
    exact mul_le_mul_of_nonneg_right (by exact_mod_cast hm) hp.le
  · -- A power of two lies between the numbers, and it is whole in the last places of either.
    have hlt : Int.log 2 u < Int.log 2 v ∧ lastPlace u ≤ Int.log 2 v ∧ lastPlace v ≤ Int.log 2 v := by
      unfold lastPlace at he ⊢
      omega
    have hub : u ≤ (2 : ℚ) ^ Int.log 2 v :=
      ((Int.lt_zpow_iff_log_lt (by decide) hu).mpr hlt.1).le
    have hvb : (2 : ℚ) ^ Int.log 2 v ≤ v := Int.zpow_log_le_self (by decide) hv
    obtain ⟨k, hk⟩ := two_zpow_eq_mul hlt.2.1
    obtain ⟨j, hj⟩ := two_zpow_eq_mul hlt.2.2
    calc rounded u ≤ k * 2 ^ lastPlace u := rounded_le (hk ▸ hub)
      _ = j * 2 ^ lastPlace v := hk.symm.trans hj
      _ ≤ rounded v := le_rounded (hj ▸ hvb)

theorem log_units {m : ℕ} {e : ℤ} (hm : 0 < m) : Int.log 2 ((m : ℚ) * 2 ^ e) = m.log2 + e := by
  have hp := two_zpow_pos e
  have hv : (0 : ℚ) < m * 2 ^ e := mul_pos (by exact_mod_cast hm) hp
  have hlo : (2 : ℚ) ^ m.log2 ≤ m := by exact_mod_cast Nat.log2_self_le hm.ne'
  have hhi : (m : ℚ) < 2 ^ (m.log2 + 1) := by exact_mod_cast Nat.lt_log2_self
  refine le_antisymm (Int.lt_add_one_iff.mp ?_) ?_
  · refine (Int.lt_zpow_iff_log_lt (by decide) hv).mp ?_
    calc (m : ℚ) * 2 ^ e < 2 ^ (m.log2 + 1) * 2 ^ e := mul_lt_mul_of_pos_right hhi hp
      _ = 2 ^ ((m.log2 : ℤ) + e + 1) := by
        rw [← zpow_natCast, ← zpow_add₀ (by decide)]
        congr 1
        push_cast
        ring
  · refine (Int.zpow_le_iff_le_log (by decide) hv).mp ?_
    calc (2 : ℚ) ^ ((m.log2 : ℤ) + e) = 2 ^ m.log2 * 2 ^ e := by
          rw [zpow_add₀ (by decide), zpow_natCast]
      _ ≤ m * 2 ^ e := mul_le_mul_of_nonneg_right hlo hp.le

/-- What has few enough digits is a double. -/
theorem rounded_units {m : ℕ} {e : ℤ} (hm : m < 2 ^ 53) (he : -1074 ≤ e) :
    rounded ((m : ℚ) * 2 ^ e) = m * 2 ^ e := by
  rcases Nat.eq_zero_or_pos m with rfl | hpos
  · simp [rounded_zero]
  have hl : m.log2 < 53 := (Nat.log2_lt hpos.ne').mpr hm
  have ht : lastPlace ((m : ℚ) * 2 ^ e) ≤ e := by
    rw [lastPlace, log_units hpos]
    omega
  obtain ⟨k, hk⟩ := two_zpow_eq_mul ht
  have hw : (m : ℚ) * 2 ^ e = ((m * k : ℤ) : ℚ) * 2 ^ lastPlace ((m : ℚ) * 2 ^ e) := by
    rw [Int.cast_mul, Int.cast_natCast, mul_assoc, ← hk]
  exact le_antisymm ((rounded_le hw.le).trans_eq hw.symm) (hw.trans_le (le_rounded hw.ge))

/-- The power of two behind all doubles. It stands for infinity, and it is too large to be computed by accident. -/
@[irreducible]
def limit : ℚ :=
  2 ^ (1024 : ℤ)

theorem limit_pos : 0 < limit := by
  unfold limit
  exact two_zpow_pos 1024

/-- The limit is what the least full mantissa would be with one exponent more than there is. -/
theorem limit_eq : limit = ((2 ^ 52 : ℕ) : ℚ) * 2 ^ (972 : ℤ) := by
  rw [limit, (by decide : (1024 : ℤ) = 52 + 972), zpow_add₀ two_ne_zero]
  norm_num

theorem units_lt_limit {m : ℕ} {e : ℤ} (hm : m < 2 ^ 53) (he : e ≤ 971) : (m : ℚ) * 2 ^ e < limit := by
  have hm : (m : ℚ) < ((2 ^ 52 : ℕ) : ℚ) * 2 := by exact_mod_cast hm
  have hz : (2 : ℚ) ^ e ≤ 2 ^ (971 : ℤ) := zpow_le_zpow_right₀ one_le_two he
  calc (m : ℚ) * 2 ^ e ≤ m * 2 ^ (971 : ℤ) := mul_le_mul_of_nonneg_left hz (Nat.cast_nonneg m)
    _ < ((2 ^ 52 : ℕ) : ℚ) * 2 * 2 ^ (971 : ℤ) := mul_lt_mul_of_pos_right hm (two_zpow_pos 971)
    _ = limit := by rw [limit_eq, mul_assoc, ← zpow_one_add₀ two_ne_zero, (by decide : (1 : ℤ) + 971 = 972)]

/-- The double nearest to a number. What is too large for a double comes to the limit. -/
def nearest (v : ℚ) : ℚ :=
  if 0 ≤ v then min (rounded v) limit else -min (rounded (-v)) limit

theorem nearest_of_nonneg {v : ℚ} (h : 0 ≤ v) : nearest v = min (rounded v) limit :=
  if_pos h

theorem nearest_units {m : ℕ} {e : ℤ} (hm : m < 2 ^ 53) (hlow : -1074 ≤ e) (he : e ≤ 971) :
    nearest ((m : ℚ) * 2 ^ e) = m * 2 ^ e := by
  have h0 : (0 : ℚ) ≤ m * 2 ^ e := mul_nonneg (Nat.cast_nonneg m) (two_zpow_pos e).le
  rw [nearest_of_nonneg h0, rounded_units hm hlow, min_eq_left (units_lt_limit hm he).le]

theorem nearest_natCast {n : ℕ} (h : n < 2 ^ 53) : nearest n = n := by
  have hn := nearest_units h (by decide : -1074 ≤ (0 : ℤ)) (by decide)
  rwa [zpow_zero, mul_one] at hn

theorem nearest_nonneg {v : ℚ} (h : 0 ≤ v) : 0 ≤ nearest v := by
  rw [nearest_of_nonneg h]
  exact le_min (rounded_nonneg h) limit_pos.le

theorem nearest_zero : nearest 0 = 0 := by
  rw [nearest_of_nonneg le_rfl, rounded_zero, min_eq_left limit_pos.le]

theorem nearest_neg (v : ℚ) : nearest (-v) = -nearest v := by
  rcases lt_trichotomy v 0 with h | rfl | h
  · rw [nearest, nearest, if_pos (by linarith), if_neg (by linarith), neg_neg]
  · rw [neg_zero, nearest_zero, neg_zero]
  · rw [nearest, nearest, if_neg (by linarith), if_pos h.le, neg_neg]

theorem nearest_abs (v : ℚ) : nearest |v| = |nearest v| := by
  rcases le_total 0 v with h | h
  · rw [abs_of_nonneg h, abs_of_nonneg (nearest_nonneg h)]
  · have hn := nearest_nonneg (neg_nonneg.mpr h)
    rw [nearest_neg] at hn
    rw [abs_of_nonpos h, nearest_neg, abs_of_nonpos (neg_nonneg.mp hn)]

theorem nearest_mono {u v : ℚ} (h : u ≤ v) : nearest u ≤ nearest v := by
  have hpos {u v : ℚ} (hu : 0 ≤ u) (h : u ≤ v) : nearest u ≤ nearest v := by
    rw [nearest_of_nonneg hu, nearest_of_nonneg (hu.trans h)]
    exact min_le_min_right _ (rounded_mono hu h)
  rcases le_total 0 u with hu | hu
  · exact hpos hu h
  · rcases le_total 0 v with hv | hv
    · have hu' : 0 ≤ nearest (-u) := nearest_nonneg (by linarith)
      have hv' : 0 ≤ nearest v := nearest_nonneg hv
      rw [nearest_neg] at hu'
      linarith
    · have hn : nearest (-v) ≤ nearest (-u) := hpos (by linarith) (by linarith)
      rw [nearest_neg, nearest_neg] at hn
      linarith

end SceneCode.Number
