import Mathlib.Algebra.GroupWithZero.Nat
import SceneCode.Proofs.Script.Reader

/-! What is read of a style object costs no more than the text it is read from, so that a text that is written for less
than its entries cost is not read as these. Characters that need an escape cost two, and spaces cost nothing, since none
have to be written between tokens. -/
namespace SceneCode.Script

def weight (c : Char) : Nat :=
  if c = ' ' then 0 else (unitsOf c.toNat).length

def weigh (cs : List Char) : Nat :=
  (cs.map weight).sum

/-- Has to be written with a backslash. -/
def isSpecial (c : Char) : Bool :=
  c = '\'' || c = '\\' || c = '\n' || c = '\r'

def price (u : Nat) : Nat :=
  if u = 0x20 then 0
  else if u = 0x27 || u = 0x5C || u = 0x0A || u = 0x0D then 2
  else 1

def cost (us : List Nat) : Nat :=
  (us.map price).sum

@[simp] theorem weigh_nil : weigh [] = 0 :=
  rfl

@[simp] theorem weigh_cons (c : Char) (cs : List Char) : weigh (c :: cs) = weight c + weigh cs :=
  rfl

@[simp] theorem weigh_append (cs ds : List Char) : weigh (cs ++ ds) = weigh cs + weigh ds := by
  simp [weigh]

@[simp] theorem cost_nil : cost [] = 0 :=
  rfl

@[simp] theorem cost_append (us vs : List Nat) : cost (us ++ vs) = cost us + cost vs := by
  simp [cost]

theorem weigh_suffix {cs rest : List Char} (h : rest <:+ cs) : weigh rest ≤ weigh cs := by
  obtain ⟨front, rfl⟩ := h
  rw [weigh_append]
  omega

theorem weight_pos {c : Char} (h : c ≠ ' ') : 0 < weight c := by
  unfold weight unitsOf
  rw [if_neg h]
  split <;> simp

theorem price_le (u : Nat) : price u ≤ 2 := by
  unfold price
  split
  · omega
  · split <;> omega

/-- A surrogate is no special character. -/
theorem price_surrogate {u : Nat} (h : 0xD800 ≤ u) : price u = 1 := by
  simp only [price, Bool.or_eq_true, decide_eq_true_eq]
  rw [if_neg (by omega), if_neg (by omega)]

theorem cost_pair {n : Nat} (h : ¬ n < 0x10000) : cost (unitsOf n) = 2 := by
  have hh : price (0xD800 + (n - 0x10000) / 0x400) = 1 := price_surrogate (by omega)
  have hl : price (0xDC00 + (n - 0x10000) % 0x400) = 1 := price_surrogate (by omega)
  rw [unitsOf, if_neg h]
  simp [cost, hh, hl]

theorem cost_unitsOf_le (n : Nat) : cost (unitsOf n) ≤ 2 := by
  by_cases h : n < 0x10000
  · rw [unitsOf, if_pos h]
    simpa [cost] using price_le n
  · exact Nat.le_of_eq (cost_pair h)

theorem price_toNat (c : Char) : price c.toNat = if c = ' ' then 0 else if isSpecial c then 2 else 1 := by
  have he (d : Char) : c.toNat = d.toNat ↔ c = d := Char.toNat_inj
  have hs := he ' '
  have hq := he '\''
  have hb := he '\\'
  have hn := he '\n'
  have hr := he '\r'
  simp only [Char.reduceToNat] at hs hq hb hn hr
  simp only [price, isSpecial, hs, hq, hb, hn, hr]
  congr

/-- An ordinary character costs what it weighs. -/
theorem cost_unitsOf {c : Char} (h : isSpecial c = false) : cost (unitsOf c.toNat) = weight c := by
  by_cases hc : c.toNat < 0x10000
  · have hp := price_toNat c
    rw [h] at hp
    unfold weight unitsOf
    rw [if_pos hc]
    simp only [cost, List.map_cons, List.map_nil, List.sum_cons, List.sum_nil, hp]
    split <;> rfl
  · have hs : c ≠ ' ' := by
      intro he
      rw [he] at hc
      exact hc (by decide)
    rw [cost_pair hc, weight, if_neg hs, unitsOf, if_neg hc]
    rfl

theorem escape?_units {c : Char} {cs : List Char} {us : List Nat} {rest} (h : escape? c cs = some (us, rest)) :
    us = [] ∨ ∃ n, us = [n] ∨ us = unitsOf n := by
  have hone {count : Nat} (hd : (digits? count cs).map (fun r => ([r.1], r.2)) = some (us, rest)) : ∃ n, us = [n] := by
    obtain ⟨r, -, he⟩ := Option.map_eq_some_iff.mp hd
    exact ⟨r.1, (Prod.mk.inj he).1.symm⟩
  simp only [escape?] at h
  split at h
  · obtain ⟨n, hn⟩ := hone h
    exact .inr ⟨n, .inl hn⟩
  · split at h
    · split at h
      · obtain ⟨r, -, he⟩ := Option.map_eq_some_iff.mp h
        exact .inr ⟨r.1, .inr (Prod.mk.inj he).1.symm⟩
      · obtain ⟨n, hn⟩ := hone h
        exact .inr ⟨n, .inl hn⟩
    · split at h
      · exact .inl (Prod.mk.inj (Option.some.inj h)).1.symm
      · split at h
        · exact .inl (Prod.mk.inj (Option.some.inj h)).1.symm
        · split at h
          · split at h
            · exact .inr ⟨0, .inl (Prod.mk.inj (Option.some.inj h)).1.symm⟩
            · cases h
          · exact .inr ⟨_, .inr (Prod.mk.inj (Option.some.inj h)).1.symm⟩

theorem escape?_weighs {c : Char} {cs : List Char} {us : List Nat} {rest} (h : escape? c cs = some (us, rest)) :
    cost us + weigh rest.1 ≤ 1 + weight c + weigh cs := by
  have hr := weigh_suffix rest.2
  have hu : cost us ≤ 1 + weight c := by
    by_cases hc : c = ' '
    · subst hc
      have hs : us = unitsOf 0x20 := (Prod.mk.inj (Option.some.inj h)).1.symm
      rw [hs]
      exact Nat.zero_le _
    · have hw := weight_pos hc
      have hl : cost us ≤ 2 := by
        obtain rfl | ⟨n, rfl | rfl⟩ := escape?_units h
        · exact Nat.zero_le 2
        · simpa [cost] using price_le n
        · exact cost_unitsOf_le n
      omega
  omega

theorem literal?_weighs {cs : List Char} {us : List Nat} {rest} (h : literal? cs = some (us, rest)) :
    cost us + 1 + weigh rest.1 ≤ weigh cs := by
  fun_induction literal? cs generalizing us with
  | case1 => cases h
  | case2 cs =>
    obtain ⟨rfl, rfl⟩ := Prod.mk.inj (Option.some.inj h)
    have hq : 0 < weight '\'' := weight_pos (by decide)
    simp only [weigh_cons, cost_nil]
    omega
  | case3 => cases h
  | case4 => cases h
  | case5 e cs _ _ ih =>
    obtain ⟨⟨us', rest', hs⟩, he, h⟩ := Option.bind_eq_some_iff.mp h
    obtain ⟨⟨vs, rest''⟩, hv, h⟩ := Option.bind_eq_some_iff.mp h
    obtain ⟨rfl, rfl⟩ := Prod.mk.inj (Option.some.inj h)
    have hb : 0 < weight '\\' := weight_pos (by decide)
    have hw := escape?_weighs he
    have hi := ih rest' hs hv
    simp only [weigh_cons, cost_append] at hw ⊢
    omega
  | case6 c cs _ _ _ ih =>
    obtain ⟨⟨vs, rest'⟩, hv, h⟩ := Option.bind_eq_some_iff.mp h
    obtain ⟨rfl, rfl⟩ := Prod.mk.inj (Option.some.inj h)
    have hi := ih hv
    have hc : isSpecial c = false := by
      simp_all [isSpecial]
    have hw := cost_unitsOf hc
    simp only [weigh_cons, cost_append]
    omega

theorem weigh_skip (cs : List Char) : weigh (skip cs) ≤ weigh cs :=
  weigh_suffix (List.dropWhile_suffix _)

theorem mark?_weighs {c : Char} {cs : List Char} {rest} (hc : c ≠ ' ') (h : mark? c cs = some rest) :
    weigh rest.1 + 1 ≤ weigh cs := by
  unfold mark? at h
  split at h
  · rename_i hs
    obtain rfl := Option.some.inj h
    have hw := weight_pos hc
    have hk := weigh_skip cs
    obtain ⟨tail, ht⟩ := List.head?_eq_some_iff.mp (beq_iff_eq.mp hs)
    rw [ht, weigh_cons] at hk
    simp only [ht, List.tail_cons]
    omega
  · cases h

theorem ends_weighs {cs : List Char} (h : ends cs = true) : 2 ≤ weigh cs := by
  unfold ends at h
  split at h
  · rename_i rest hm
    have hb : weigh ['\x7d'] = 1 := rfl
    have hw := mark?_weighs (by decide) hm
    have hk := weigh_skip rest.1
    rw [beq_iff_eq.mp h, hb] at hk
    omega
  · cases h

/-- An entry with its colon, both quotes and what stands behind it. -/
def charge (e : Entry) : Nat :=
  weigh e.1 + cost e.2 + 4

theorem pair?_weighs {cs : List Char} {e : Entry} {rest} (h : pair? cs = some (e, rest)) :
    charge e + weigh rest.1 ≤ weigh cs + 1 := by
  have hk : weigh cs = weigh (cs.takeWhile isWordChar) + weigh (cs.dropWhile isWordChar) := by
    rw [← weigh_append, List.takeWhile_append_dropWhile]
  obtain ⟨⟨value, hs⟩, hv, h⟩ := Option.bind_eq_some_iff.mp h
  obtain ⟨⟨text, hs'⟩, ht, h⟩ := Option.bind_eq_some_iff.mp h
  obtain ⟨⟨us, rest'⟩, hl, h⟩ := Option.bind_eq_some_iff.mp h
  have hc := mark?_weighs (by decide) hv
  have hq := mark?_weighs (by decide) ht
  have hw := literal?_weighs hl
  dsimp only at h hc hq
  split at h
  · obtain ⟨rfl, rfl⟩ := Prod.mk.inj (Option.some.inj h)
    simp only [charge]
    omega
  · cases h

theorem entries?_weighs {cs : List Char} {es : List Entry} (h : entries? cs = some es) :
    (es.map charge).sum + 1 ≤ weigh cs := by
  fun_induction entries? cs generalizing es with
  | case1 cs he =>
    obtain rfl := Option.some.inj h
    have hw := ends_weighs he
    simp only [List.map_nil, List.sum_nil]
    omega
  | case2 cs _ ih =>
    obtain ⟨⟨e, behind⟩, he, h⟩ := Option.bind_eq_some_iff.mp h
    have hk := weigh_skip cs
    have hw := pair?_weighs he
    dsimp only at h
    split at h
    · rename_i hb
      obtain rfl := Option.some.inj h
      have hw' := ends_weighs hb
      simp only [List.map_cons, List.map_nil, List.sum_cons, List.sum_nil]
      omega
    · obtain ⟨⟨rest, hr⟩, hm, h⟩ := Option.bind_eq_some_iff.mp h
      obtain ⟨es, hs, rfl⟩ := Option.map_eq_some_iff.mp h
      have hc := mark?_weighs (by decide) hm
      have hi := ih behind rest hr hs
      simp only [List.map_cons, List.sum_cons]
      dsimp only at hc
      omega

def lost (value : List Char) : Nat :=
  value.countP (!isFaithful ·)

theorem weigh_escaped (c : Char) :
    weigh (Text.escapeSingleQuoteChar c) + lost [c] = cost (unitsOf c.toNat) := by
  cases hs : isSpecial c with
  | true =>
    simp only [isSpecial, Bool.or_eq_true, decide_eq_true_eq] at hs
    rcases hs with ((rfl | rfl) | rfl) | rfl <;> rfl
  | false =>
    simp only [isSpecial, Bool.or_eq_false_iff, decide_eq_false_iff_not] at hs
    obtain ⟨⟨⟨hq, hb⟩, hn⟩, hr⟩ := hs
    have hf : lost [c] = 0 := by simp [lost, isFaithful, hb, hn, hr]
    have he : Text.escapeSingleQuoteChar c = [c] := if_neg hq
    rw [he, hf, cost_unitsOf (by simp [isSpecial, hq, hb, hn, hr])]
    rfl

theorem weigh_quoted (value : List Char) : weigh (quoted value) + lost value = cost (units value) := by
  induction value with
  | nil => rfl
  | cons c value ih =>
    have hc := weigh_escaped c
    have hl : lost (c :: value) = lost [c] + lost value := by
      rw [← List.singleton_append, lost, List.countP_append]
      rfl
    have hq : quoted (c :: value) = Text.escapeSingleQuoteChar c ++ quoted value := rfl
    have hu : units (c :: value) = unitsOf c.toNat ++ units value := rfl
    rw [hl, hq, hu, weigh_append, cost_append]
    omega

theorem weigh_written {es : List (List Char × List Char)} (h : es ≠ []) :
    weigh (written es) + (es.map fun e => lost e.2).sum = ((es.map entryOf).map charge).sum + 1 := by
  induction es with
  | nil => exact absurd rfl h
  | cons e es ih =>
    have hv := weigh_quoted e.2
    have hc : weight ':' = 1 ∧ weight ' ' = 0 ∧ weight '\'' = 1 ∧ weight ',' = 1 ∧ weight '\x7d' = 1 := by decide
    obtain ⟨hcolon, hspace, hquote, hcomma, hbrace⟩ := hc
    cases hes : es.isEmpty with
    | true =>
      obtain rfl := List.isEmpty_iff.mp hes
      simp only [written, entryOf, charge, weigh_append, weigh_cons, weigh_nil, List.isEmpty_nil, if_true, List.map_cons,
        List.map_nil, List.sum_cons, List.sum_nil]
      omega
    | false =>
      have hi := ih (List.isEmpty_eq_false_iff.mp hes)
      simp only [written, hes, Bool.false_eq_true, if_false, weigh_append, weigh_cons, List.map_cons, List.sum_cons]
      simp only [charge, entryOf] at hi ⊢
      omega

/-- Entries are read back as they are if and only if all their characters are faithful. -/
theorem entries?_written_iff {es : List (List Char × List Char)} (hk : ∀ e ∈ es, IsName e.1) :
    entries? (written es) = some (es.map entryOf) ↔ ∀ e ∈ es, ∀ c ∈ e.2, isFaithful c = true := by
  constructor
  · intro h e he
    have hn : es ≠ [] := List.ne_nil_of_mem he
    have hw := entries?_weighs h
    have hs := weigh_written hn
    have hl : (es.map fun e => lost e.2).sum = 0 := by omega
    have hz : lost e.2 = 0 := List.sum_eq_zero_iff_forall_eq_nat.mp hl _ (List.mem_map_of_mem he)
    intro c hc
    have hf := List.countP_eq_zero.mp hz c hc
    simpa using hf
  · intro hv
    exact entries?_of_skip hk hv (skip_written hk)

end SceneCode.Script
