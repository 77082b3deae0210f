import Mathlib
import SceneCode.Proofs.Number.Order

/-! The places of doubles in their order. All that can be compared stand in one line, the two zeros side by side. -/
namespace SceneCode.Number
open Float.Model

/-- Where a double stands. What is not a number stands nowhere, and its place is not looked at. -/
def place : UnpackedFloat → ℤ ×ₗ ℤ ×ₗ ℤ
  | .infinity .negative => toLex (-2, toLex (0, 0))
  | .finite .negative m e _ => toLex (-1, toLex (-e, -m))
  | .finite .positive m e _ => toLex (1, toLex (e, m))
  | .infinity .positive => toLex (2, toLex (0, 0))
  | _ => toLex (0, toLex (0, 0))

theorem isLE_magnitude (e f : ℤ) (m n : ℕ) :
    ((compare e f).then (compare m n)).isLE = true ↔ e < f ∨ e = f ∧ m ≤ n := by
  rw [Ordering.isLE_then_iff_or, Std.compare_eq_lt, compare_eq_iff_eq, Std.isLE_compare]

theorem isGE_magnitude (e f : ℤ) (m n : ℕ) :
    ((compare e f).then (compare m n)).isGE = true ↔ f < e ∨ e = f ∧ n ≤ m := by
  rw [← Ordering.isLE_swap, ← magnitude_compare_swap, isLE_magnitude, eq_comm]

theorem unpacked_le_iff (a b : UnpackedFloat) :
    a.le b = true ↔ a.isNaN = false ∧ b.isNaN = false ∧ place a ≤ place b := by
  rcases a with s | _ | s | ⟨s, m, e, hm⟩ <;> rcases b with t | _ | t | ⟨t, n, f, hn⟩ <;> (try cases s) <;> (try cases t) <;>
    simp [UnpackedFloat.le, UnpackedFloat.compare, UnpackedFloat.isNaN, place, Prod.Lex.toLex_le_toLex, isLE_magnitude,
      isGE_magnitude]
  -- What is left are the infinities, whose signs are compared by a table.
  all_goals rfl

theorem le_iff_place (x y : Float) :
    x ≤ y ↔ x.isNaN = false ∧ y.isNaN = false ∧ place x.toModel.unpack ≤ place y.toModel.unpack := by
  change decide (x.toModel.unpack.le y.toModel.unpack = true) = true ↔ _
  rw [decide_eq_true_iff, unpacked_le_iff]
  rfl

theorem le_self_iff {x : Float} : x ≤ x ↔ x.isNaN = false := by
  simp [le_iff_place]

protected theorem le_trans {x y z : Float} (hxy : x ≤ y) (hyz : y ≤ z) : x ≤ z := by
  rw [le_iff_place] at *
  exact ⟨hxy.1, hyz.2.1, hxy.2.2.trans hyz.2.2⟩

protected theorem le_total {x y : Float} (hx : x ≤ x) (hy : y ≤ y) : x ≤ y ∨ y ≤ x := by
  rw [le_self_iff] at hx hy
  simp only [le_iff_place, hx, hy, true_and]
  exact LinearOrder.le_total _ _

/-- The same double, or two zeros. -/
def Alike (a b : UnpackedFloat) : Prop :=
  a = b ∨ ∃ s t, a = .zero s ∧ b = .zero t

theorem Alike.refl (a : UnpackedFloat) : Alike a a := .inl rfl

theorem alike_of_place {a b : UnpackedFloat} (ha : a.isNaN = false) (hb : b.isNaN = false) (h : place a = place b) :
    Alike a b := by
  rcases a with s | _ | s | ⟨s, m, e, hm⟩ <;> rcases b with t | _ | t | ⟨t, n, f, hn⟩ <;> (try cases s) <;> (try cases t) <;>
    simp_all [Alike, place, UnpackedFloat.isNaN]

theorem Alike.place_eq {a b : UnpackedFloat} (h : Alike a b) : a.isNaN = b.isNaN ∧ place a = place b := by
  rcases h with rfl | ⟨s, t, rfl, rfl⟩ <;> exact ⟨rfl, rfl⟩

theorem Alike.sub {a a' b b' : UnpackedFloat} (spec : Format) (ha : Alike a a') (hb : Alike b b') :
    Alike (a.sub spec b) (a'.sub spec b') := by
  have hz (s t : UnpackedFloat.Sign) : ∃ r, (UnpackedFloat.zero s).sub spec (.zero t) = .zero r := by
    cases s <;> cases t <;> exact ⟨_, rfl⟩
  have hzz (s s' t t' : UnpackedFloat.Sign) :
      Alike ((UnpackedFloat.zero s).sub spec (.zero t)) ((UnpackedFloat.zero s').sub spec (.zero t')) := by
    obtain ⟨r, hr⟩ := hz s t
    obtain ⟨r', hr'⟩ := hz s' t'
    exact .inr ⟨r, r', hr, hr'⟩
  rcases ha with rfl | ⟨s, s', rfl, rfl⟩ <;> rcases hb with rfl | ⟨t, t', rfl, rfl⟩
  · exact .refl _
  · cases a with
    | zero s => exact hzz s s t t'
    | _ => exact .refl _
  · cases b with
    | zero t => exact hzz s s' t t
    | _ => exact .refl _
  · exact hzz s s' t t'

theorem Alike.pack {a b : UnpackedFloat} (h : Alike a b) :
    Alike (Float.Model.pack a).unpack (Float.Model.pack b).unpack := by
  have hz (s : UnpackedFloat.Sign) : (Float.Model.pack (.zero s)).unpack = .zero s := by
    cases s <;> rfl
  rcases h with rfl | ⟨s, t, rfl, rfl⟩
  · exact .refl _
  · exact .inr ⟨s, t, hz s, hz t⟩

theorem alike_of_le {x y : Float} (hxy : x ≤ y) (hyx : y ≤ x) : Alike x.toModel.unpack y.toModel.unpack := by
  rw [le_iff_place] at hxy hyx
  exact alike_of_place hxy.1 hxy.2.1 (le_antisymm hxy.2.2 hyx.2.2)

/-- A difference is compared the same whichever of two equal numbers is subtracted, and from which. -/
theorem sub_le_of_alike {x x' y y' z : Float} (hx : Alike x.toModel.unpack x'.toModel.unpack)
    (hy : Alike y.toModel.unpack y'.toModel.unpack) (h : x - y ≤ z) : x' - y' ≤ z := by
  obtain ⟨hn, hp⟩ := ((hx.sub .binary64 hy).pack).place_eq
  rw [le_iff_place] at h ⊢
  exact ⟨hn.symm.trans h.1, h.2.1, hp.symm.trans_le h.2.2⟩

theorem unpack_packComponents (s : UnpackedFloat.Sign) (e : BitVec 11) (m : BitVec 52) :
    UnpackedFloat.unpack .binary64 (UnpackedFloat.packComponents .binary64 s e m) =
      if e = -1#11 then if m = 0#52 then .infinity s else .notANumber
      else if e = 0#11 then if h : m = 0#52 then .zero s else
        .finite s m.toNat (-1074) (Nat.pos_of_ne_zero fun h0 => h (BitVec.eq_of_toNat_eq h0))
      else .finite s (2 ^ 52 + m.toNat) (e.toNat - 1075) (by positivity) := by
  have hm : (1#1 ++ m).toNat = 2 ^ 52 + m.toNat := by
    rw [BitVec.toNat_append, ← Nat.shiftLeft_add_eq_or_of_lt m.isLt]
    rfl
  unfold UnpackedFloat.unpack
  simp only [UnpackedFloat.unpackExponent_packComponents, UnpackedFloat.unpackMantissa_packComponents,
    UnpackedFloat.unpackSign_packComponents, UnpackedFloat.Sign.ofBitVec_toBitVec]
  split
  · rfl
  · split
    · rename_i h
      subst h
      rfl
    · simp only [hm]
      rfl

/-- A mantissa that a double can have with this exponent, unless the exponent is too large. -/
structure IsNormal (m : ℕ) (e : ℤ) : Prop where
  lt : m < 2 ^ 53
  low : -1074 ≤ e
  full : 2 ^ 52 ≤ m ∨ e = -1074

theorem unpack_shape {x : Float.Model} {s : UnpackedFloat.Sign} {m : ℕ} {e : ℤ} {hm : 0 < m} (h : x.unpack = .finite s m e hm) :
    IsNormal m e ∧ e ≤ 971 := by
  unfold Float.Model.unpack at h
  rw [← @UnpackedFloat.packComponents_unpackSign_unpackExponent_unpackMantissa .binary64 x.toBits.toBitVec,
    unpack_packComponents] at h
  generalize @UnpackedFloat.unpackExponent .binary64 x.toBits.toBitVec = b at h
  generalize @UnpackedFloat.unpackMantissa .binary64 x.toBits.toBitVec = f at h
  have hf : f.toNat < 2 ^ 52 := f.isLt
  split at h
  · split at h <;> cases h
  · rename_i hb
    have hb : b.toNat ≠ 2047 := fun h => hb (BitVec.eq_of_toNat_eq h)
    have hlt : b.toNat < 2 ^ 11 := b.isLt
    split at h
    · split at h
      · cases h
      · cases h
        exact ⟨⟨by omega, le_rfl, .inr rfl⟩, by decide⟩
    · rename_i h0
      have h0 : b.toNat ≠ 0 := fun h => h0 (BitVec.eq_of_toNat_eq h)
      cases h
      exact ⟨⟨by omega, by omega, .inl (by omega)⟩, by omega⟩

theorem isNaN_of_isFinite {x : Float} (h : x.isFinite = true) : x.isNaN = false := by
  change x.toModel.unpack.isFinite = true at h
  change x.toModel.unpack.isNaN = false
  cases hu : x.toModel.unpack <;> simp_all [UnpackedFloat.isFinite, UnpackedFloat.isNaN]

theorem isNaN_packComponents {s : UnpackedFloat.Sign} {e : BitVec 11} {m : BitVec 52} (h : e = -1#11 → m = 0#52) :
    (UnpackedFloat.unpack .binary64 (UnpackedFloat.packComponents .binary64 s e m)).isNaN = false := by
  rw [unpack_packComponents]
  split_ifs with he hm
  · rfl
  · exact absurd (h he) hm
  · rfl
  · rfl
  · rfl

theorem isNaN_pack {a : UnpackedFloat} (h : a.isNaN = false) : (Float.Model.pack a).unpack.isNaN = false := by
  change (UnpackedFloat.unpack .binary64 (UnpackedFloat.pack .binary64 a)).isNaN = false
  cases a with
  | notANumber => cases h
  | infinity s => exact isNaN_packComponents fun _ => rfl
  | zero s => exact isNaN_packComponents fun _ => rfl
  | finite s m e hm =>
    unfold UnpackedFloat.pack
    dsimp only
    split
    · exact isNaN_packComponents fun _ => rfl
    · rename_i hb
      split
      · refine isNaN_packComponents fun he => absurd (congrArg BitVec.toNat he) ?_
        simp only [BitVec.toNat_ofNat, Nat.reducePow, BitVec.reduceNeg, Nat.mod_succ]
        omega
      · exact isNaN_packComponents fun he => absurd he (by decide)

theorem isNaN_roundWithAccuracy (spec : Format) (s : UnpackedFloat.Sign) (m : Nat) (e : Int)
    (acc : UnpackedFloat.Accuracy) : (UnpackedFloat.roundWithAccuracy spec s m e acc).isNaN = false := by
  unfold UnpackedFloat.roundWithAccuracy
  dsimp only
  split <;> rfl

theorem isNaN_normalize (spec : Format) (m e : Int) (s : UnpackedFloat.Sign) :
    (UnpackedFloat.normalize spec m e s).isNaN = false := by
  unfold UnpackedFloat.normalize
  split
  · exact isNaN_roundWithAccuracy ..
  · rfl
  · exact isNaN_roundWithAccuracy ..

theorem isNaN_add {x y : Float} (hx : x.isFinite = true) (hy : y.isNaN = false) : (x + y).isNaN = false := by
  refine isNaN_pack ?_
  change x.toModel.unpack.isFinite = true at hx
  change y.toModel.unpack.isNaN = false at hy
  cases hu : x.toModel.unpack with
  | zero s =>
    cases hv : y.toModel.unpack with
    | zero t => cases s <;> cases t <;> rfl
    | notANumber => simp [hv, UnpackedFloat.isNaN] at hy
    | _ => rfl
  | finite s m e hm =>
    cases hv : y.toModel.unpack with
    | finite t n f hn => exact isNaN_normalize ..
    | notANumber => simp [hv, UnpackedFloat.isNaN] at hy
    | _ => rfl
  | _ => simp [hu, UnpackedFloat.isFinite] at hx

theorem isNaN_half {x : Float} (hx : x.isFinite = true) : (x / 2.0).isNaN = false := by
  refine isNaN_pack ?_
  change x.toModel.unpack.isFinite = true at hx
  have h2 : (2.0 : Float).toModel.unpack = .finite .positive (2 ^ 52) (-51) (by decide) := by
    rfl
  rw [h2]
  cases hu : x.toModel.unpack with
  | zero s => rfl
  | finite s m e hm => exact isNaN_roundWithAccuracy ..
  | _ => simp [hu, UnpackedFloat.isFinite] at hx

/-- The least finite double. -/
def least : Float := .ofBits 0xFFEFFFFFFFFFFFFF

theorem unpack_of_le_least {x : Float} (h : x ≤ least) :
    x.toModel.unpack = .infinity .negative ∨ x.toModel.unpack = least.toModel.unpack := by
  have hl : least.toModel.unpack = .finite .negative (2 ^ 53 - 1) 971 (by decide) := by
    rfl
  obtain ⟨hn, -, hp⟩ := (le_iff_place _ _).mp h
  change x.toModel.unpack.isNaN = false at hn
  rw [hl] at hp ⊢
  cases hu : x.toModel.unpack with
  | notANumber => simp [hu, UnpackedFloat.isNaN] at hn
  | infinity s => cases s <;> simp_all [place, Prod.Lex.toLex_le_toLex]
  | zero s => simp [hu, place, Prod.Lex.toLex_le_toLex] at hp
  | finite s m e hm =>
    have hn := (unpack_shape hu).1.lt
    have he := (unpack_shape hu).2
    cases s <;> simp [hu, place, Prod.Lex.toLex_le_toLex] at hp ⊢
    omega

end SceneCode.Number
