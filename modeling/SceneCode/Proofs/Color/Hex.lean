import Mathlib.Data.List.TakeWhile
import Mathlib.Tactic.SplitIfs
import SceneCode.Color.Basic

/-! What is read as a colour. The text is measured and cut by its bytes, and its parts are read by a parser of numbers
that takes more than digits, so the texts that it accepts are described here by their characters. -/
namespace SceneCode

namespace Text

/-- The part between two byte offsets, unless one of them is within a character or behind the end. -/
def slice? (s : String) (start stop : Nat) : Option String := do
  return s.extract (← s.pos? ⟨start⟩) (← s.pos? ⟨stop⟩)

theorem pos?_eq_some {s : String} {n : Nat} {p : s.Pos} : s.pos? ⟨n⟩ = some p ↔ p.offset.byteIdx = n := by
  unfold String.pos? String.Slice.pos?
  constructor
  · intro h
    obtain ⟨q, hq, rfl⟩ := Option.map_eq_some_iff.mp h
    split at hq
    · simp only [Option.some.injEq] at hq
      subst hq
      rfl
    · cases hq
  · rintro rfl
    simpa using ⟨p.isValid, rfl⟩

theorem isValid_of_append (l r : String) : (⟨l.utf8ByteSize⟩ : String.Pos.Raw).IsValid (l ++ r) :=
  String.Pos.Raw.isValid_iff_exists_append.mpr ⟨l, r, rfl, rfl⟩

/-- A text is taken apart in one way only at a given offset. -/
theorem append_inj_of_size {l r l' r' : String} (h : l ++ r = l' ++ r') (hs : l.utf8ByteSize = l'.utf8ByteSize) :
    l = l' ∧ r = r' := by
  have hp : ((l ++ r).pos _ (isValid_of_append l r)).Splits l r := ⟨rfl, rfl⟩
  exact hp.eq ⟨h, congrArg String.Pos.Raw.mk hs⟩

theorem slice?_eq_some {s t : String} {start stop : Nat} (h : start ≤ stop) :
    slice? s start stop = some t ↔
      ∃ l r, s = l ++ t ++ r ∧ l.utf8ByteSize = start ∧ t.utf8ByteSize = stop - start := by
  simp only [slice?, Option.bind_eq_bind, Option.bind_eq_some_iff, Option.pure_def, Option.some.injEq, pos?_eq_some]
  constructor
  · rintro ⟨p, rfl, q, rfl, rfl⟩
    have hq : q.offset.byteIdx ≤ s.toByteArray.size := q.isValid.le_utf8ByteSize
    refine ⟨(s.sliceTo p).copy, (s.sliceFrom q).copy, ?_, ?_, ?_⟩
    · rw [← String.toByteArray_inj, String.toByteArray_append, String.toByteArray_append,
        p.splits.toByteArray_left_eq, q.splits.toByteArray_right_eq, String.toByteArray_extract,
        ← ByteArray.extract_eq_extract_append_extract _ (Nat.zero_le _) h,
        ← String.size_toByteArray, ← ByteArray.extract_eq_extract_append_extract _ (Nat.zero_le _) hq,
        ByteArray.extract_zero_size]
    · simp
    · rw [← String.size_toByteArray, String.toByteArray_extract, ByteArray.size_extract, Nat.min_eq_left hq]
  · rintro ⟨l, r, rfl, rfl, ht⟩
    have hb : stop = (l ++ t).utf8ByteSize := by rw [String.utf8ByteSize_append]; omega
    subst hb
    have hv : (⟨l.utf8ByteSize⟩ : String.Pos.Raw).IsValid (l ++ t ++ r) :=
      String.append_assoc .. ▸ isValid_of_append l (t ++ r)
    refine ⟨(l ++ t ++ r).pos _ hv, rfl, (l ++ t ++ r).pos _ (isValid_of_append (l ++ t) r), rfl, ?_⟩
    rw [← String.toByteArray_inj, String.toByteArray_extract]
    change (l ++ t ++ r).toByteArray.extract (l.toByteArray.size + 0) (l ++ t).utf8ByteSize = _
    rw [String.append_assoc, String.toByteArray_append, String.toByteArray_append, String.utf8ByteSize_append,
      ← String.size_toByteArray, ← String.size_toByteArray, ByteArray.extract_append_size_add,
      ByteArray.extract_append_eq_left rfl]

/-- Six bytes are cut into three pairs just where no character lies across a cut. -/
theorem slices_eq_some {s p q w : String} (h : s.utf8ByteSize = 6) :
    slice? s 0 2 = some p ∧ slice? s 2 4 = some q ∧ slice? s 4 6 = some w ↔
      s = p ++ q ++ w ∧ p.utf8ByteSize = 2 ∧ q.utf8ByteSize = 2 ∧ w.utf8ByteSize = 2 := by
  rw [slice?_eq_some (by omega), slice?_eq_some (by omega), slice?_eq_some (by omega)]
  constructor
  · rintro ⟨⟨l, r, hp, hl, hps⟩, ⟨l', r', hq, hl', hqs⟩, l'', r'', hw, hl'', hws⟩
    have hlp : l = "" := String.utf8ByteSize_eq_zero_iff.mp hl
    rw [hlp, String.empty_append] at hp
    rw [String.append_assoc] at hq
    obtain ⟨rfl, rfl⟩ := append_inj_of_size (hp.symm.trans hq) (hps.trans hl'.symm)
    rw [← String.append_assoc] at hq
    rw [String.append_assoc] at hw
    have hpq : (p ++ q).utf8ByteSize = l''.utf8ByteSize := by rw [String.utf8ByteSize_append]; omega
    obtain ⟨rfl, rfl⟩ := append_inj_of_size (hq.symm.trans hw) hpq
    have hr : r'' = "" := by
      refine String.utf8ByteSize_eq_zero_iff.mp ?_
      rw [hw] at h
      simp only [String.utf8ByteSize_append] at h hl''
      omega
    rw [hr, String.append_empty] at hw
    exact ⟨hw, hps, hqs, hws⟩
  · rintro ⟨rfl, hp, hq, hw⟩
    refine ⟨⟨"", q ++ w, ?_, rfl, hp⟩, ⟨p, w, rfl, hp, hq⟩, p ++ q, "", ?_, ?_, hw⟩
    · rw [String.empty_append, String.append_assoc]
    · rw [String.append_empty]
    · rw [String.utf8ByteSize_append, hp, hq]

theorem utf8ByteSize_ofList_cons (c : Char) (cs : List Char) :
    (String.ofList (c :: cs)).utf8ByteSize = c.utf8Size + (String.ofList cs).utf8ByteSize := by
  rw [← List.singleton_append, String.ofList_append, String.utf8ByteSize_append]
  congr 1
  exact String.utf8ByteSize_singleton

end Text

namespace Rgb

/-- Digits behind a number, as long as it stays a byte. -/
def byteAfter? (n : Nat) : List Char → Option Nat
  | [] => some n
  | c :: cs => do
    let digit ← hexDigit? c
    if n * 16 + digit < 256 then byteAfter? (n * 16 + digit) cs else none

/-- A byte in base 16. It may have a plus sign in front, but has to have a digit. -/
def byte? : List Char → Option Nat
  | [] => none
  | [c] => byteAfter? 0 [c]
  | c :: cs => if c = '+' then byteAfter? 0 cs else byteAfter? 0 (c :: cs)

/-- Six bytes behind any number of hash signs, read as three parts. -/
def ofHexBytes? (s : String) : Option Rgb :=
  let text := String.ofList (s.toList.dropWhile (· == '#'))
  if text.utf8ByteSize ≠ 6 then none
  else do
    let r ← byte? (← Text.slice? text 0 2).toList
    let g ← byte? (← Text.slice? text 2 4).toList
    let b ← byte? (← Text.slice? text 4 6).toList
    return ofBytes r g b

/-- What a digit stands for, in small or capital letters. -/
def IsHexDigit (c : Char) (n : Nat) : Prop :=
  "0123456789abcdef".toList[n]? = some c ∨ "0123456789ABCDEF".toList[n]? = some c

/-- Two digits and what they stand for. -/
def HexPair (pair : List Char) (n : Nat) : Prop :=
  ∃ a b x y, pair = [a, b] ∧ IsHexDigit a x ∧ IsHexDigit b y ∧ n = x * 16 + y

/-- A digit behind a plus sign. -/
def SignedDigit (pair : List Char) (n : Nat) : Prop :=
  ∃ b, pair = ['+', b] ∧ IsHexDigit b n

/-- A text that spells a colour in three pairs of characters behind any number of hash signs. -/
def Spells (Pair : List Char → Nat → Prop) (s : String) (color : Rgb) : Prop :=
  ∃ p q w r g b, s.toList.dropWhile (· == '#') = p ++ q ++ w ∧ Pair p r ∧ Pair q g ∧ Pair w b ∧ color = ofBytes r g b

instance (c : Char) (n : Nat) : Decidable (IsHexDigit c n) :=
  inferInstanceAs (Decidable (_ ∨ _))

theorem exists_ofNat {lo hi c : Char} (hl : lo ≤ c) (hu : c ≤ hi) :
    ∃ k, k < hi.toNat - lo.toNat + 1 ∧ c.toNat - lo.toNat = k ∧ c = Char.ofNat (lo.toNat + k) := by
  have hl : lo.toNat ≤ c.toNat := hl
  have hu : c.toNat ≤ hi.toNat := hu
  refine ⟨c.toNat - lo.toNat, by omega, rfl, ?_⟩
  rw [Nat.add_sub_cancel' hl, Char.ofNat_toNat]

theorem hexDigit?_eq_some {c : Char} {n : Nat} : hexDigit? c = some n ↔ IsHexDigit c n := by
  have hd : ∀ k < 10, IsHexDigit (Char.ofNat (48 + k)) k := by decide
  have hs : ∀ k < 6, IsHexDigit (Char.ofNat (97 + k)) (k + 10) := by decide
  have hc : ∀ k < 6, IsHexDigit (Char.ofNat (65 + k)) (k + 10) := by decide
  constructor
  · intro h
    unfold hexDigit? at h
    split_ifs at h with h₁ h₂ h₃
    · obtain ⟨k, hk, hn, rfl⟩ := exists_ofNat h₁.1 h₁.2
      rw [hn] at h
      exact Option.some.inj h ▸ hd k hk
    · obtain ⟨k, hk, hn, rfl⟩ := exists_ofNat h₂.1 h₂.2
      rw [hn] at h
      exact Option.some.inj h ▸ hs k hk
    · obtain ⟨k, hk, hn, rfl⟩ := exists_ofNat h₃.1 h₃.2
      rw [hn] at h
      exact Option.some.inj h ▸ hc k hk
  · have hsmall : ∀ i : Fin 16, hexDigit? ("0123456789abcdef".toList[i]) = some i.val := by decide
    have hlarge : ∀ i : Fin 16, hexDigit? ("0123456789ABCDEF".toList[i]) = some i.val := by decide
    rintro (h | h)
    · obtain ⟨hi, rfl⟩ := List.getElem?_eq_some_iff.mp h
      exact hsmall ⟨n, hi⟩
    · obtain ⟨hi, rfl⟩ := List.getElem?_eq_some_iff.mp h
      exact hlarge ⟨n, hi⟩

theorem IsHexDigit.ascii {c : Char} {n : Nat} (h : IsHexDigit c n) : c.utf8Size = 1 ∧ c ≠ '+' ∧ n < 16 := by
  have hsmall : ∀ i : Fin 16, ("0123456789abcdef".toList[i]).utf8Size = 1 ∧ "0123456789abcdef".toList[i] ≠ '+' := by
    decide
  have hlarge : ∀ i : Fin 16, ("0123456789ABCDEF".toList[i]).utf8Size = 1 ∧ "0123456789ABCDEF".toList[i] ≠ '+' := by
    decide
  obtain h | h := h
  · obtain ⟨hi, rfl⟩ := List.getElem?_eq_some_iff.mp h
    exact ⟨(hsmall ⟨n, hi⟩).1, (hsmall ⟨n, hi⟩).2, hi⟩
  · obtain ⟨hi, rfl⟩ := List.getElem?_eq_some_iff.mp h
    exact ⟨(hlarge ⟨n, hi⟩).1, (hlarge ⟨n, hi⟩).2, hi⟩

/-- What a channel is read from. -/
def Channel (pair : List Char) (n : Nat) : Prop :=
  HexPair pair n ∨ SignedDigit pair n

theorem Channel.utf8ByteSize {pair : List Char} {n : Nat} (h : Channel pair n) :
    (String.ofList pair).utf8ByteSize = 2 := by
  obtain ⟨a, b, x, y, rfl, ha, hb, rfl⟩ | ⟨b, rfl, hb⟩ := h
  · rw [Text.utf8ByteSize_ofList_cons, Text.utf8ByteSize_ofList_cons, ha.ascii.1, hb.ascii.1]
    rfl
  · rw [Text.utf8ByteSize_ofList_cons, Text.utf8ByteSize_ofList_cons, hb.ascii.1]
    rfl

theorem Channel.exists_eq {pair : List Char} {n : Nat} (h : Channel pair n) : ∃ a b, pair = [a, b] := by
  obtain ⟨a, b, x, y, rfl, -⟩ | ⟨b, rfl, -⟩ := h
  · exact ⟨a, b, rfl⟩
  · exact ⟨'+', b, rfl⟩

theorem hexPair?_eq_some {a b : Char} {n : Nat} : hexPair? a b = some n ↔ Channel [a, b] n := by
  unfold hexPair? Channel HexPair SignedDigit
  split_ifs with h
  · subst h
    rw [hexDigit?_eq_some]
    constructor
    · exact fun hb => .inr ⟨b, rfl, hb⟩
    · rintro (⟨a', b', x, y, he, ha, -⟩ | ⟨b', he, hb⟩)
      · cases he
        exact absurd rfl ha.ascii.2.1
      · cases he
        exact hb
  · simp only [Option.bind_eq_bind, Option.bind_eq_some_iff, Option.pure_def, Option.some.injEq, hexDigit?_eq_some]
    constructor
    · rintro ⟨x, ha, y, hb, rfl⟩
      exact .inl ⟨a, b, x, y, rfl, ha, hb, rfl⟩
    · rintro (⟨a', b', x, y, he, ha, hb, rfl⟩ | ⟨b', he, -⟩)
      · cases he
        exact ⟨x, ha, y, hb, rfl⟩
      · cases he
        exact absurd rfl h

theorem byteAfter?_cons {n m : Nat} {c : Char} {cs : List Char} :
    byteAfter? n (c :: cs) = some m ↔
      ∃ digit, IsHexDigit c digit ∧ n * 16 + digit < 256 ∧ byteAfter? (n * 16 + digit) cs = some m := by
  simp only [byteAfter?, Option.bind_eq_bind, Option.bind_eq_some_iff, hexDigit?_eq_some, Option.ite_none_right_eq_some]

theorem byteAfter?_nil (n : Nat) : byteAfter? n [] = some n := rfl

/-- Two digits never go beyond a byte. -/
theorem byte?_pair (a b : Char) : byte? [a, b] = hexPair? a b := by
  refine Option.ext fun n => ?_
  have he : byte? [a, b] = if a = '+' then byteAfter? 0 [b] else byteAfter? 0 [a, b] := rfl
  rw [he, hexPair?]
  split_ifs with h
  · rw [byteAfter?_cons, hexDigit?_eq_some]
    constructor
    · rintro ⟨digit, hb, -, he⟩
      rw [byteAfter?, Option.some.injEq, Nat.zero_mul, Nat.zero_add] at he
      exact he ▸ hb
    · intro hb
      have := hb.ascii.2.2
      exact ⟨n, hb, by omega, by rw [byteAfter?, Nat.zero_mul, Nat.zero_add]⟩
  · simp only [byteAfter?_cons, byteAfter?_nil, Option.bind_eq_bind, Option.bind_eq_some_iff, Option.pure_def,
      Option.some.injEq, hexDigit?_eq_some, Nat.zero_mul, Nat.zero_add]
    constructor
    · rintro ⟨x, ha, -, y, hb, -, he⟩
      exact ⟨x, ha, y, hb, he⟩
    · rintro ⟨x, ha, y, hb, he⟩
      have := ha.ascii.2.2
      have := hb.ascii.2.2
      exact ⟨x, ha, by omega, y, hb, by omega, he⟩

/-- Two bytes of one character are never a digit. -/
theorem byte?_eq_some {t : String} (h : t.utf8ByteSize = 2) {n : Nat} :
    byte? t.toList = some n ↔ Channel t.toList n := by
  obtain ⟨cs, rfl⟩ : ∃ cs, t = String.ofList cs := ⟨t.toList, String.ofList_toList.symm⟩
  rw [String.toList_ofList]
  match cs with
  | [] => cases h
  | [c] =>
    constructor
    · intro hb
      obtain ⟨x, hx, -⟩ := byteAfter?_cons.mp hb
      rw [Text.utf8ByteSize_ofList_cons, hx.ascii.1] at h
      cases h
    · intro hc
      obtain ⟨a, b, he⟩ := hc.exists_eq
      cases he
  | [a, b] => rw [byte?_pair, hexPair?_eq_some]
  | a :: b :: c :: cs =>
    have ha := a.utf8Size_pos
    have hb := b.utf8Size_pos
    have hc := c.utf8Size_pos
    rw [Text.utf8ByteSize_ofList_cons, Text.utf8ByteSize_ofList_cons, Text.utf8ByteSize_ofList_cons] at h
    omega

theorem ofHex?_eq_some {s : String} {color : Rgb} : ofHex? s = some color ↔ Spells Channel s color := by
  unfold ofHex? ofHexChars? Spells
  constructor
  · intro h
    split at h
    next a b c d e f he =>
      simp only [Option.bind_eq_bind, Option.bind_eq_some_iff, Option.pure_def, Option.some.injEq,
        hexPair?_eq_some] at h
      obtain ⟨r, hr, g, hg, b', hb, rfl⟩ := h
      exact ⟨_, _, _, r, g, b', he, hr, hg, hb, rfl⟩
    next => cases h
  · rintro ⟨p, q, w, r, g, b, he, hr, hg, hb, rfl⟩
    obtain ⟨a₁, a₂, rfl⟩ := hr.exists_eq
    obtain ⟨a₃, a₄, rfl⟩ := hg.exists_eq
    obtain ⟨a₅, a₆, rfl⟩ := hb.exists_eq
    simp only [he, List.cons_append, List.nil_append, hexPair?_eq_some.mpr hr, hexPair?_eq_some.mpr hg,
      hexPair?_eq_some.mpr hb, Option.bind_eq_bind, Option.bind_some, Option.pure_def]

theorem ofHexBytes?_eq_some {s : String} {color : Rgb} : ofHexBytes? s = some color ↔ Spells Channel s color := by
  obtain ⟨text, ht⟩ : ∃ text, s.toList.dropWhile (· == '#') = String.toList text := ⟨_, String.toList_ofList.symm⟩
  simp only [ofHexBytes?, Spells, ht, String.ofList_toList, Option.bind_eq_bind, Option.pure_def, ite_not,
    Option.ite_none_right_eq_some, Option.bind_eq_some_iff, Option.some.injEq]
  constructor
  · rintro ⟨h, p, hp, r, hr, q, hq, g, hg, w, hw, b, hb, rfl⟩
    obtain ⟨rfl, hps, hqs, hws⟩ := (Text.slices_eq_some h).mp ⟨hp, hq, hw⟩
    refine ⟨p.toList, q.toList, w.toList, r, g, b, ?_, (byte?_eq_some hps).mp hr, (byte?_eq_some hqs).mp hg,
      (byte?_eq_some hws).mp hb, rfl⟩
    rw [String.toList_append, String.toList_append]
  · rintro ⟨p, q, w, r, g, b, he, hr, hg, hb, rfl⟩
    have hps := hr.utf8ByteSize
    have hqs := hg.utf8ByteSize
    have hws := hb.utf8ByteSize
    have hsplit : text = String.ofList p ++ String.ofList q ++ String.ofList w := by
      rw [← String.ofList_append, ← String.ofList_append, ← he, String.ofList_toList]
    have hsize : text.utf8ByteSize = 6 := by
      rw [hsplit, String.utf8ByteSize_append, String.utf8ByteSize_append, hps, hqs, hws]
    obtain ⟨hp, hq, hw⟩ := (Text.slices_eq_some hsize).mpr ⟨hsplit, hps, hqs, hws⟩
    refine ⟨hsize, _, hp, r, ?_, _, hq, g, ?_, _, hw, b, ?_, rfl⟩
    · exact (byte?_eq_some hps).mpr (by rwa [String.toList_ofList])
    · exact (byte?_eq_some hqs).mpr (by rwa [String.toList_ofList])
    · exact (byte?_eq_some hws).mpr (by rwa [String.toList_ofList])

theorem HexPair.plus_not_mem {pair : List Char} {n : Nat} (h : HexPair pair n) : '+' ∉ pair := by
  obtain ⟨a, b, x, y, rfl, ha, hb, rfl⟩ := h
  simp only [List.mem_cons, List.not_mem_nil, or_false, not_or]
  exact ⟨ha.ascii.2.1.symm, hb.ascii.2.1.symm⟩

theorem Channel.hexPair {pair : List Char} {n : Nat} (h : Channel pair n) (hp : '+' ∉ pair) : HexPair pair n := by
  obtain h | ⟨b, rfl, -⟩ := h
  · exact h
  · exact absurd List.mem_cons_self hp

theorem Spells.mono {P Q : List Char → Nat → Prop} {s : String} {color : Rgb}
    (h : ∀ pair n, pair <:+: s.toList → P pair n → Q pair n) (hs : Spells P s color) : Spells Q s color := by
  obtain ⟨p, q, w, r, g, b, he, hr, hg, hb, hc⟩ := hs
  have hi : p ++ q ++ w <:+: s.toList := he ▸ (List.dropWhile_suffix _).isInfix
  refine ⟨p, q, w, r, g, b, he, h p r (.trans ?_ hi) hr, h q g (.trans ?_ hi) hg, h w b (.trans ?_ hi) hb, hc⟩
  · exact List.append_assoc .. ▸ (List.prefix_append p (q ++ w)).isInfix
  · exact List.infix_append p q w
  · exact (List.suffix_append (p ++ q) w).isInfix

theorem Spells.plus_not_mem {s : String} {color : Rgb} (h : Spells HexPair s color) : '+' ∉ s.toList := by
  obtain ⟨p, q, w, r, g, b, he, hr, hg, hb, -⟩ := h
  rw [← List.takeWhile_append_dropWhile (l := s.toList) (p := (· == '#')), he]
  simp only [List.mem_append, hr.plus_not_mem, hg.plus_not_mem, hb.plus_not_mem, or_false]
  intro hm
  cases List.mem_takeWhile_imp hm

/-- A text is read as a colour if it has three pairs behind any number of hash signs, each of two hexadecimal digits or
of a plus sign and one, and cutting it by its bytes comes to the same for every text. So it is read by its six digits
just unless there is a plus sign in a text that is accepted. -/
theorem hex_grammar (s : String) :
    ofHex? s = ofHexBytes? s ∧ (∀ color, ofHex? s = some color ↔ Spells Channel s color) ∧
      ((∀ color, ofHex? s = some color ↔ Spells HexPair s color) ↔ ¬ ((ofHex? s).isSome ∧ '+' ∈ s.toList)) := by
  refine ⟨Option.ext fun color => ofHex?_eq_some.trans ofHexBytes?_eq_some.symm, fun color => ofHex?_eq_some, ?_⟩
  constructor
  · rintro h ⟨hs, hp⟩
    obtain ⟨color, hc⟩ := Option.isSome_iff_exists.mp hs
    exact ((h color).mp hc).plus_not_mem hp
  · intro h color
    constructor
    · intro hc
      have hp : '+' ∉ s.toList := fun hp => h ⟨hc ▸ rfl, hp⟩
      exact (ofHex?_eq_some.mp hc).mono fun pair n hi hn => hn.hexPair fun hm => hp (hi.subset hm)
    · exact fun hs => ofHex?_eq_some.mpr (hs.mono fun _ _ _ => .inl)

/-- No digit, but a colour. -/
example : ofHex? "#+1+2+3" = some (ofBytes 1 2 3) := rfl

end Rgb
end SceneCode
