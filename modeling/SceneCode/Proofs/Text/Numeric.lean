import Mathlib.Data.List.Chain
import Mathlib.Data.List.TakeWhile
import SceneCode.Text.Letter

/-! Numerals, and what becomes of letters and numerals in another case. Characters are shifted to characters that have a
case, all of which are letters or numerals. Others are spelled out, some of them with a mark that is neither. The tables
are compared interval by interval, as there are too many code points to go through one by one. -/
namespace SceneCode.Text
namespace Table

/-- Code points with a general category of number (Nd, Nl, No), Unicode 17. -/
def numeric : Ranges := [
  (0x30, 0x39), (0xB2, 0xB3), (0xB9, 0xB9), (0xBC, 0xBE), (0x660, 0x669), (0x6F0, 0x6F9),
  (0x7C0, 0x7C9), (0x966, 0x96F), (0x9E6, 0x9EF), (0x9F4, 0x9F9), (0xA66, 0xA6F),
  (0xAE6, 0xAEF), (0xB66, 0xB6F), (0xB72, 0xB77), (0xBE6, 0xBF2), (0xC66, 0xC6F),
  (0xC78, 0xC7E), (0xCE6, 0xCEF), (0xD58, 0xD5E), (0xD66, 0xD78), (0xDE6, 0xDEF),
  (0xE50, 0xE59), (0xED0, 0xED9), (0xF20, 0xF33), (0x1040, 0x1049), (0x1090, 0x1099),
  (0x1369, 0x137C), (0x16EE, 0x16F0), (0x17E0, 0x17E9), (0x17F0, 0x17F9), (0x1810, 0x1819),
  (0x1946, 0x194F), (0x19D0, 0x19DA), (0x1A80, 0x1A89), (0x1A90, 0x1A99), (0x1B50, 0x1B59),
  (0x1BB0, 0x1BB9), (0x1C40, 0x1C49), (0x1C50, 0x1C59), (0x2070, 0x2070), (0x2074, 0x2079),
  (0x2080, 0x2089), (0x2150, 0x2182), (0x2185, 0x2189), (0x2460, 0x249B), (0x24EA, 0x24FF),
  (0x2776, 0x2793), (0x2CFD, 0x2CFD), (0x3007, 0x3007), (0x3021, 0x3029), (0x3038, 0x303A),
  (0x3192, 0x3195), (0x3220, 0x3229), (0x3248, 0x324F), (0x3251, 0x325F), (0x3280, 0x3289),
  (0x32B1, 0x32BF), (0xA620, 0xA629), (0xA6E6, 0xA6EF), (0xA830, 0xA835), (0xA8D0, 0xA8D9),
  (0xA900, 0xA909), (0xA9D0, 0xA9D9), (0xA9F0, 0xA9F9), (0xAA50, 0xAA59), (0xABF0, 0xABF9),
  (0xFF10, 0xFF19), (0x10107, 0x10133), (0x10140, 0x10178), (0x1018A, 0x1018B),
  (0x102E1, 0x102FB), (0x10320, 0x10323), (0x10341, 0x10341), (0x1034A, 0x1034A),
  (0x103D1, 0x103D5), (0x104A0, 0x104A9), (0x10858, 0x1085F), (0x10879, 0x1087F),
  (0x108A7, 0x108AF), (0x108FB, 0x108FF), (0x10916, 0x1091B), (0x109BC, 0x109BD),
  (0x109C0, 0x109CF), (0x109D2, 0x109FF), (0x10A40, 0x10A48), (0x10A7D, 0x10A7E),
  (0x10A9D, 0x10A9F), (0x10AEB, 0x10AEF), (0x10B58, 0x10B5F), (0x10B78, 0x10B7F),
  (0x10BA9, 0x10BAF), (0x10CFA, 0x10CFF), (0x10D30, 0x10D39), (0x10D40, 0x10D49),
  (0x10E60, 0x10E7E), (0x10F1D, 0x10F26), (0x10F51, 0x10F54), (0x10FC5, 0x10FCB),
  (0x11052, 0x1106F), (0x110F0, 0x110F9), (0x11136, 0x1113F), (0x111D0, 0x111D9),
  (0x111E1, 0x111F4), (0x112F0, 0x112F9), (0x11450, 0x11459), (0x114D0, 0x114D9),
  (0x11650, 0x11659), (0x116C0, 0x116C9), (0x116D0, 0x116E3), (0x11730, 0x1173B),
  (0x118E0, 0x118F2), (0x11950, 0x11959), (0x11BF0, 0x11BF9), (0x11C50, 0x11C6C),
  (0x11D50, 0x11D59), (0x11DA0, 0x11DA9), (0x11DE0, 0x11DE9), (0x11F50, 0x11F59),
  (0x11FC0, 0x11FD4), (0x12400, 0x1246E), (0x16130, 0x16139), (0x16A60, 0x16A69),
  (0x16AC0, 0x16AC9), (0x16B50, 0x16B59), (0x16B5B, 0x16B61), (0x16D70, 0x16D79),
  (0x16E80, 0x16E96), (0x16FF4, 0x16FF6), (0x1CCF0, 0x1CCF9), (0x1D2C0, 0x1D2D3),
  (0x1D2E0, 0x1D2F3), (0x1D360, 0x1D378), (0x1D7CE, 0x1D7FF), (0x1E140, 0x1E149),
  (0x1E2F0, 0x1E2F9), (0x1E4F0, 0x1E4F9), (0x1E5F1, 0x1E5FA), (0x1E8C7, 0x1E8CF),
  (0x1E950, 0x1E959), (0x1EC71, 0x1ECAB), (0x1ECAD, 0x1ECAF), (0x1ECB1, 0x1ECB4),
  (0x1ED01, 0x1ED2D), (0x1ED2F, 0x1ED3D), (0x1F100, 0x1F10C), (0x1FBF0, 0x1FBF9)]

/-- Letters of which the upper case has a combining mark that is neither letter nor digit. -/
def markedCapitals : List Nat := [
  0x1F0, 0x390, 0x3B0, 0x1E96, 0x1E97, 0x1E98, 0x1E99, 0x1F50, 0x1F52, 0x1F54, 0x1F56, 0x1FB6, 0x1FB7,
  0x1FC6, 0x1FC7, 0x1FD2, 0x1FD3, 0x1FD6, 0x1FD7, 0x1FE2, 0x1FE3, 0x1FE4, 0x1FE6, 0x1FE7, 0x1FF6, 0x1FF7]

/-- One of the intervals holds all from `first` to `last`, or every `step`th of them lies in some interval. -/
def Ranges.covers (ranges : Ranges) (first last step : Nat) : Bool :=
  ranges.any (fun (a, b) => a.ble first && last.ble b) ||
    (List.range ((last - first) / step + 1)).all fun n => ranges.has (first + step * n)

/-- None of the intervals, which are in rising order, holds any from `first` to `last`. -/
def Ranges.avoids : Ranges → Nat → Nat → Bool
  | [], _, _ => true
  | (a, b) :: rest, first, last => if b < first then avoids rest first last else last < a

/-- What is left of intervals in rising order without those that lie in one of `others`, in rising order as well. -/
def Ranges.outside (ranges others : Ranges) : Ranges :=
  others.foldl (fun left (a, b) => left.dropWhile fun (first, last) => a.ble first && last.ble b) ranges

section
variable {ranges others : Ranges} {first last step code : Nat}

theorem Ranges.has_of_covers (h : ranges.covers first last step = true) (hf : first ≤ code) (hl : code ≤ last)
    (hs : (code - first) % step = 0) : ranges.has code = true := by
  rcases Bool.or_eq_true_iff.mp h with h | h
  · obtain ⟨r, hr, hb⟩ := List.any_eq_true.mp h
    simp only [Bool.and_eq_true, Nat.ble_eq] at hb
    refine List.any_eq_true.mpr ⟨r, hr, ?_⟩
    simp only [Bool.and_eq_true, decide_eq_true_eq]
    omega
  · have hn : (code - first) / step < (last - first) / step + 1 :=
      Nat.lt_succ_of_le (Nat.div_le_div_right (Nat.sub_le_sub_right hl first))
    have hc : first + step * ((code - first) / step) = code := by
      rw [Nat.mul_div_cancel' (Nat.dvd_of_mod_eq_zero hs)]
      omega
    exact hc ▸ List.all_eq_true.mp h _ (List.mem_range.mpr hn)

theorem Ranges.has_of_avoids (hr : ranges.IsChain (·.1 ≤ ·.1)) (h : ranges.avoids first last = true)
    (hf : first ≤ code) (hl : code ≤ last) : ranges.has code = false := by
  induction ranges with
  | nil => rfl
  | cons r rest ih =>
    have hp := List.isChain_iff_pairwise.mp hr
    unfold avoids at h
    refine List.any_eq_false.mpr fun s hs => ?_
    split at h
    · rename_i hb
      rcases List.mem_cons.mp hs with rfl | hs
      · simp only [Bool.and_eq_true, decide_eq_true_eq]
        omega
      · exact List.any_eq_false.mp (ih hr.tail h) s hs
    · have hlt : last < r.1 := of_decide_eq_true h
      have hle : r.1 ≤ s.1 := by
        rcases List.mem_cons.mp hs with rfl | hs
        · exact le_rfl
        · exact List.rel_of_pairwise_cons hp hs
      simp only [Bool.and_eq_true, decide_eq_true_eq]
      omega

theorem Ranges.mem_outside {r : Nat × Nat} (h : r ∈ ranges) :
    (∃ s ∈ others, s.1 ≤ r.1 ∧ r.2 ≤ s.2) ∨ r ∈ ranges.outside others := by
  induction others generalizing ranges with
  | nil => exact .inr h
  | cons s others ih =>
    have hp : ranges.takeWhile (fun r => s.1.ble r.1 && r.2.ble s.2) ++
        ranges.dropWhile (fun r => s.1.ble r.1 && r.2.ble s.2) = ranges := List.takeWhile_append_dropWhile
    rw [← hp] at h
    rcases List.mem_append.mp h with h | h
    · have hs := List.mem_takeWhile_imp h
      simp only [Bool.and_eq_true, Nat.ble_eq] at hs
      exact .inl ⟨s, List.mem_cons_self, hs⟩
    · exact (ih h).imp_left fun ⟨t, ht, hb⟩ => ⟨t, List.mem_cons_of_mem _ ht, hb⟩

theorem Ranges.has_of_outside (h : ranges.outside others = []) (hc : ranges.has code = true) :
    others.has code = true := by
  obtain ⟨r, hr, hb⟩ := List.any_eq_true.mp hc
  obtain ⟨s, hs, hf, hl⟩ := (mem_outside hr).resolve_right (h ▸ List.not_mem_nil)
  refine List.any_eq_true.mpr ⟨s, hs, ?_⟩
  simp only [Bool.and_eq_true, decide_eq_true_eq] at hb ⊢
  omega

end

def Shift.lastImage (s : Shift) : Nat :=
  s.image + (s.last - s.first)

theorem Shift.bounds_of_map? {s : Shift} {code image : Nat} (h : s.map? code = some image) :
    (s.first ≤ code ∧ code ≤ s.last) ∧ s.image ≤ image ∧ image ≤ s.lastImage ∧ (image - s.image) % s.step = 0 := by
  unfold Shift.map? at h
  split at h
  · rename_i hc
    simp only [Bool.and_eq_true, decide_eq_true_eq, beq_iff_eq] at hc
    cases h
    rw [Nat.add_sub_cancel_left]
    unfold Shift.lastImage
    exact ⟨hc.1, by omega, by omega, hc.2⟩
  · cases h

theorem rising_alphanumeric : alphanumeric.IsChain (·.1 ≤ ·.1) := by
  decide +kernel

theorem rising_numeric : numeric.IsChain (·.1 ≤ ·.1) := by
  decide +kernel

theorem alphanumeric_of_cased {code : Nat} (h : cased.has code = true) : alphanumeric.has code = true :=
  have ht : cased.outside alphanumeric = [] := by decide +kernel
  Ranges.has_of_outside ht h

theorem isValidChar_of_alphanumeric {code : Nat} (h : alphanumeric.has code = true) : code.isValidChar := by
  have hb : ∀ r ∈ alphanumeric, r.2 < 0x110000 := by decide +kernel
  have hs : alphanumeric.avoids 0xD800 0xDFFF = true := by decide +kernel
  obtain ⟨r, hr, hc⟩ := List.any_eq_true.mp h
  have hn : ¬(0xD800 ≤ code ∧ code ≤ 0xDFFF) := by
    rintro ⟨hf, hl⟩
    rw [Ranges.has_of_avoids rising_alphanumeric hs hf hl] at h
    cases h
  have hr := hb r hr
  simp only [Bool.and_eq_true, decide_eq_true_eq] at hc
  unfold Nat.isValidChar
  omega

end Table
open Table

def isNumeric (c : Char) : Bool :=
  numeric.has c.toNat

theorem toNat_ofNat_of_valid {code : Nat} (h : code.isValidChar) : (Char.ofNat code).toNat = code := by
  rw [Char.ofNat, dif_pos h]
  rfl

theorem isAlphanumeric_ofNat {code : Nat} (h : alphanumeric.has code = true) :
    isAlphanumeric (Char.ofNat code) = true := by
  rwa [isAlphanumeric, toNat_ofNat_of_valid (isValidChar_of_alphanumeric h)]

/-- A mapped character is a list of code points, one code point of a shift, or the character itself. -/
theorem mapped_cases (expansions : List (Nat × List Nat)) (shifts : List Shift) (c : Char) :
    (∃ codes, (c.toNat, codes) ∈ expansions ∧ mapped expansions shifts c = codes.map Char.ofNat) ∨
    (∀ codes, (c.toNat, codes) ∉ expansions) ∧
      ((∃ s ∈ shifts, ∃ code, s.map? c.toNat = some code ∧ mapped expansions shifts c = [Char.ofNat code]) ∨
        mapped expansions shifts c = [c]) := by
  unfold mapped
  cases hl : expansions.lookup c.toNat with
  | some codes =>
    obtain ⟨front, rest, he, -⟩ := List.lookup_eq_some_iff.mp hl
    exact .inl ⟨codes, he ▸ List.mem_append_right front List.mem_cons_self, rfl⟩
  | none =>
    refine .inr ⟨fun codes hm => bne_iff_ne.mp (List.lookup_eq_none_iff.mp hl _ hm) rfl, ?_⟩
    cases hs : shifts.findSome? (·.map? c.toNat) with
    | none => exact .inr (by simp)
    | some code =>
      obtain ⟨s, hm, hc⟩ := List.exists_of_findSome?_eq_some hs
      exact .inl ⟨s, hm, code, hc, rfl⟩

theorem cased_upperShifts : ∀ s ∈ upperShifts, cased.covers s.image s.lastImage s.step = true := by
  decide +kernel

theorem cased_lowerShifts : ∀ s ∈ lowerShifts, cased.covers s.image s.lastImage s.step = true := by
  decide +kernel

/-- Code points are shifted to code points that have a case. -/
theorem alphanumeric_of_map? {s : Shift} {code image : Nat} (hc : s.map? code = some image)
    (h : cased.covers s.image s.lastImage s.step = true) : alphanumeric.has image = true :=
  have hb := (Shift.bounds_of_map? hc).2
  alphanumeric_of_cased (Ranges.has_of_covers h hb.1 hb.2.1 hb.2.2)

/-- What `mapped` makes of a letter or numeral are such again, if those it spells out are. -/
theorem forall_mapped_iff {expansions : List (Nat × List Nat)} {shifts : List Shift} {marked : List Nat} {c : Char}
    (hx : ∀ e ∈ expansions, (e.2.map Char.ofNat).all isAlphanumeric = !marked.contains e.1)
    (hm : ∀ code ∈ marked, ∃ e ∈ expansions, e.1 = code)
    (hs : ∀ s ∈ shifts, cased.covers s.image s.lastImage s.step = true) (h : isAlphanumeric c = true) :
    (∀ d ∈ mapped expansions shifts c, isAlphanumeric d = true) ↔ c.toNat ∉ marked := by
  rcases mapped_cases expansions shifts c with ⟨codes, hc, he⟩ | ⟨hn, hc⟩
  · have hx := hx _ hc
    dsimp only at hx
    rw [he, ← List.all_eq_true, hx, Bool.not_eq_true', List.contains_eq_mem, decide_eq_false_iff_not]
  · have hc' : c.toNat ∉ marked := by
      intro hd
      obtain ⟨⟨code, codes⟩, he, rfl⟩ := hm _ hd
      exact hn codes he
    refine iff_of_true (fun d hd => ?_) hc'
    rcases hc with ⟨s, hs', code, hc, he⟩ | he <;> rw [he] at hd <;> obtain rfl := List.mem_singleton.mp hd
    · exact isAlphanumeric_ofNat (alphanumeric_of_map? hc (hs s hs'))
    · exact h

theorem forall_upper_iff {c : Char} (h : isAlphanumeric c = true) :
    (∀ d ∈ upper c, isAlphanumeric d = true) ↔ c.toNat ∉ markedCapitals :=
  forall_mapped_iff (by decide +kernel) (by decide +kernel) cased_upperShifts h

theorem forall_lower_iff {c : Char} (h : isAlphanumeric c = true) :
    (∀ d ∈ lower c, isAlphanumeric d = true) ↔ c.toNat ∉ [0x130] :=
  forall_mapped_iff (by decide +kernel) (by decide +kernel) cased_lowerShifts h

/-- The upper case starts with a numeral if there was one, and only then. -/
theorem head_upper (c : Char) : ∃ d rest, upper c = d :: rest ∧ isNumeric d = isNumeric c := by
  have hx : ∀ e ∈ upperExpansions, numeric.avoids e.1 e.1 = true ∧
      ∃ d ∈ e.2.head?, d.isValidChar ∧ numeric.avoids d d = true := by
    decide +kernel
  have hs : ∀ s ∈ upperShifts, (numeric.avoids s.first s.last && numeric.avoids s.image s.lastImage ||
      numeric.covers s.first s.last 1 && numeric.covers s.image s.lastImage 1) = true := by
    decide +kernel
  rcases mapped_cases upperExpansions upperShifts c with ⟨codes, hc, he⟩ | ⟨-, ⟨s, hm, code, hc, he⟩ | he⟩
  · obtain ⟨hn, d, hd, hv, hnd⟩ := hx _ hc
    obtain ⟨rest, rfl⟩ := List.head?_eq_some_iff.mp hd
    refine ⟨Char.ofNat d, rest.map Char.ofNat, he, ?_⟩
    rw [isNumeric, isNumeric, toNat_ofNat_of_valid hv, Ranges.has_of_avoids rising_numeric hnd le_rfl le_rfl,
      Ranges.has_of_avoids rising_numeric hn le_rfl le_rfl]
  · refine ⟨Char.ofNat code, [], he, ?_⟩
    have hv := isValidChar_of_alphanumeric (alphanumeric_of_map? hc (cased_upperShifts s hm))
    obtain ⟨⟨hf, hl⟩, hif, hil, -⟩ := Shift.bounds_of_map? hc
    rw [isNumeric, isNumeric, toNat_ofNat_of_valid hv]
    rcases Bool.or_eq_true_iff.mp (hs s hm) with h | h <;> obtain ⟨hsource, himage⟩ := Bool.and_eq_true_iff.mp h
    · rw [Ranges.has_of_avoids rising_numeric hsource hf hl, Ranges.has_of_avoids rising_numeric himage hif hil]
    · rw [Ranges.has_of_covers hsource hf hl (Nat.mod_one _), Ranges.has_of_covers himage hif hil (Nat.mod_one _)]
  · exact ⟨c, [], he, rfl⟩

end SceneCode.Text
