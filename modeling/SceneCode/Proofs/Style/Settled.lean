import Mathlib.Data.List.Nodup
import SceneCode.Proofs.Style.Values

namespace SceneCode

/-- Of declarations of the same key, all that set it give it one value, and so do all that fall back to one. -/
def Declaration.Coherent (ds : List Declaration) : Prop :=
  ∀ d ∈ ds, ∀ e ∈ ds, d.key = e.key → d.fallback = e.fallback → d.value = e.value

theorem Declaration.Coherent.subset {ds es : List Declaration} (h : Coherent es) (hs : ds ⊆ es) : Coherent ds :=
  fun d hd e he => h d (hs hd) e (hs he)

namespace Styles

/-- What is set outright wins over what was there, and what was there over a fallback. -/
inductive Settles (s : Styles) (ds : List Declaration) (k : String) : String → Prop where
  | set {d : Declaration} (hd : d ∈ ds) (hk : d.key = k) (hf : d.fallback = false) : Settles s ds k d.value
  | kept {v : String} (hn : ∀ d ∈ ds, d.key = k → d.fallback = true) (hs : s.get? k = some v) : Settles s ds k v
  | fallback {d : Declaration} (hn : ∀ d ∈ ds, d.key = k → d.fallback = true) (hs : s.get? k = none) (hd : d ∈ ds)
    (hk : d.key = k) : Settles s ds k d.value

variable {s : Styles} {ds es : List Declaration} {k v : String}

theorem Settles.get? (hc : Declaration.Coherent ds) (h : s.Settles ds k v) : (s.declareAll ds).get? k = some v := by
  cases h with
  | @set d hd hk hf =>
    refine get?_declareAll_set (.inr ⟨d, hd, hk, hf⟩) fun e he hek hef => ?_
    exact hc e he d hd (hek.trans hk.symm) (hef.trans hf.symm)
  | kept hn hs =>
    refine get?_declareAll_set (.inl hs) fun e he hek hef => ?_
    rw [hn e he hek] at hef
    cases hef
  | @fallback d hn hs hd hk =>
    have hk' : k ∈ ds.map (·.key) := hk ▸ List.mem_map_of_mem hd
    obtain ⟨v, hv⟩ := contains_iff.mp ((s.contains_declareAll ds k).mpr (.inr hk'))
    rcases get?_declareAll hv with h | ⟨e, he, hek, hev⟩
    · rw [hs] at h
      cases h
    · rw [hv, ← hev, hc e he d hd (hek.trans hk.symm) ((hn e he hek).trans (hn d hd hk).symm)]

/-- A key that ends up with a value ends up with one of these. -/
theorem exists_settles (h : (s.declareAll ds).get? k = some v) : ∃ v, s.Settles ds k v := by
  by_cases hset : ∃ d ∈ ds, d.key = k ∧ d.fallback = false
  · obtain ⟨d, hd, hk, hf⟩ := hset
    exact ⟨_, .set hd hk hf⟩
  · have hn : ∀ d ∈ ds, d.key = k → d.fallback = true := fun d hd hk => by
      by_contra hf
      exact hset ⟨d, hd, hk, Bool.eq_false_iff.mpr hf⟩
    cases hs : s.get? k with
    | some v => exact ⟨v, .kept hn hs⟩
    | none =>
      rcases get?_declareAll h with h | ⟨d, hd, hk, -⟩
      · rw [hs] at h
        cases h
      · exact ⟨_, .fallback hn hs hd hk⟩

theorem get?_declareAll_iff (hc : Declaration.Coherent ds) :
    (s.declareAll ds).get? k = some v ↔ s.Settles ds k v := by
  refine ⟨fun h => ?_, fun h => h.get? hc⟩
  obtain ⟨v', hv⟩ := exists_settles h
  obtain rfl := Option.some.inj (h.symm.trans (hv.get? hc))
  exact hv

theorem Settles.congr (hm : ∀ d, d ∈ ds ↔ d ∈ es) (h : s.Settles ds k v) : s.Settles es k v := by
  cases h with
  | set hd hk hf => exact .set ((hm _).mp hd) hk hf
  | kept hn hs => exact .kept (fun d hd => hn d ((hm d).mpr hd)) hs
  | fallback hn hs hd hk => exact .fallback (fun d hd => hn d ((hm d).mpr hd)) hs ((hm _).mp hd) hk

/-- Neither the order of declarations nor how often one is made makes a difference to what a key ends up with. -/
theorem get?_declareAll_congr (hc : Declaration.Coherent ds) (hm : ∀ d, d ∈ ds ↔ d ∈ es) (k : String) :
    (s.declareAll ds).get? k = (s.declareAll es).get? k := by
  have hc' : Declaration.Coherent es := hc.subset fun d hd => (hm d).mpr hd
  refine Option.ext fun v => ?_
  rw [get?_declareAll_iff hc, get?_declareAll_iff hc']
  exact ⟨.congr hm, .congr fun d => (hm d).symm⟩

/-- Further fallbacks, wherever they come in, leave every value as it is. -/
theorem get?_declareAll_of_fallbacks (hc : Declaration.Coherent es) (hs : ds ⊆ es)
    (hf : ∀ d ∈ es, d ∈ ds ∨ d.fallback = true) (h : (s.declareAll ds).get? k = some v) :
    (s.declareAll es).get? k = some v := by
  have hn (hn : ∀ d ∈ ds, d.key = k → d.fallback = true) : ∀ d ∈ es, d.key = k → d.fallback = true :=
    fun d hd hk => (hf d hd).elim (hn d · hk) id
  refine Settles.get? hc ?_
  cases (get?_declareAll_iff (hc.subset hs)).mp h with
  | set hd hk hf => exact .set (hs hd) hk hf
  | kept hk hv => exact .kept (hn hk) hv
  | fallback hk hv hd hdk => exact .fallback (hn hk) hv (hs hd) hdk

theorem mem_entries_iff {e : String × String} : e ∈ s.entries ↔ s.get? e.1 = some e.2 := by
  refine ⟨fun h => ?_, mem_entries_of_get?⟩
  obtain ⟨front, rest, he⟩ := List.append_of_mem h
  refine List.lookup_eq_some_iff.mpr ⟨front, rest, he, fun p hp => ?_⟩
  have hn := s.nodup
  rw [he, List.map_append, List.map_cons, List.nodup_append] at hn
  exact bne_iff_ne.mpr fun hk => hn.2.2 p.1 (List.mem_map_of_mem hp) e.1 List.mem_cons_self hk.symm

/-- Styles that say the same of every key differ in the order of their entries only. -/
theorem perm_of_get? {s r : Styles} (h : ∀ k, s.get? k = r.get? k) : s.entries.Perm r.entries := by
  refine (List.perm_ext_iff_of_nodup (.of_map Prod.fst s.nodup) (.of_map Prod.fst r.nodup)).mpr fun e => ?_
  rw [mem_entries_iff, mem_entries_iff, h]

/-- What is found under a key does not depend on the order of the entries. -/
theorem get?_of_perm {s r : Styles} (h : s.entries.Perm r.entries) (k : String) : s.get? k = r.get? k := by
  refine Option.ext fun v => ?_
  have hs : (k, v) ∈ s.entries ↔ s.get? k = some v := mem_entries_iff
  have hr : (k, v) ∈ r.entries ↔ r.get? k = some v := mem_entries_iff
  rw [← hs, ← hr, h.mem_iff]

theorem isEmpty_of_perm {s r : Styles} (h : s.entries.Perm r.entries) : s.isEmpty = r.isEmpty :=
  h.isEmpty_eq

end Styles
end SceneCode
