import SceneCode.Element

namespace SceneCode

namespace Styles

theorem lookup_insertEntry (key value k : String) (entries : List (String × String)) :
    (insertEntry key value entries).lookup k = if k = key then some value else entries.lookup k := by
  induction entries with
  | nil => by_cases h : k = key <;> simp [insertEntry, h]
  | cons e entries ih =>
    obtain ⟨k', v⟩ := e
    unfold insertEntry
    by_cases hk : k' = key
    · subst hk
      by_cases h : k = k'
      · simp [h]
      · have hb : (k == k') = false := beq_false_of_ne h
        rw [if_pos rfl, List.lookup_cons, List.lookup_cons, hb, if_neg h]
    · by_cases h : k = k'
      · subst h
        simp [hk]
      · have hb : (k == k') = false := beq_false_of_ne h
        rw [if_neg hk, List.lookup_cons, List.lookup_cons, hb, ih]

theorem get?_insert (s : Styles) (key value k : String) :
    (s.insert key value).get? k = if k = key then some value else s.get? k :=
  lookup_insertEntry key value k s.entries

theorem contains_iff {s : Styles} {k : String} : s.contains k = true ↔ ∃ v, s.get? k = some v :=
  Option.isSome_iff_exists

theorem get?_eq_none_iff {s : Styles} {k : String} : s.get? k = none ↔ s.contains k = false := by
  simp [contains]

theorem insert_isEmpty (s : Styles) (key value : String) : (s.insert key value).isEmpty = false := by
  obtain ⟨entries, h⟩ := s
  cases entries with
  | nil => rfl
  | cons e entries =>
    simp only [insert, isEmpty, insertEntry]
    split <;> rfl

theorem not_contains_of_isEmpty {s : Styles} (h : s.isEmpty = true) (k : String) : s.contains k = false := by
  obtain ⟨entries, hn⟩ := s
  cases entries with
  | nil => rfl
  | cons e entries => cases h

/-- Another key is left alone, and a fallback leaves a value that is there. -/
theorem get?_declare (s : Styles) (d : Declaration) (k : String) :
    (s.declare d).get? k =
      if k = d.key ∧ ¬ (d.fallback = true ∧ s.contains k = true) then some d.value else s.get? k := by
  unfold declare
  split
  · rename_i h
    simp only [Bool.and_eq_true] at h
    split
    · rename_i hk
      exact absurd ⟨h.1, hk.1 ▸ h.2⟩ hk.2
    · rfl
  · rename_i h
    simp only [Bool.and_eq_true] at h
    rw [get?_insert]
    by_cases hk : k = d.key
    · subst hk
      simp [h]
    · simp [hk]

theorem contains_declare (s : Styles) (d : Declaration) (k : String) :
    (s.declare d).contains k = (s.contains k || k == d.key) := by
  unfold contains
  rw [get?_declare]
  by_cases hk : k = d.key
  · cases hg : s.get? k <;> cases hf : d.fallback <;> simp_all [contains]
  · simp [hk]

theorem contains_declareAll (s : Styles) (ds : List Declaration) (k : String) :
    (s.declareAll ds).contains k = true ↔ s.contains k = true ∨ k ∈ ds.map (·.key) := by
  induction ds generalizing s with
  | nil => simp [declareAll]
  | cons d ds ih =>
    have h := ih (s.declare d)
    simp only [declareAll, List.foldl_cons] at h ⊢
    rw [h, contains_declare]
    simp [or_assoc]

theorem declare_isEmpty (s : Styles) (d : Declaration) : (s.declare d).isEmpty = false := by
  unfold declare
  split
  · rename_i h
    cases hs : s.isEmpty with
    | false => rfl
    | true => simp [not_contains_of_isEmpty hs] at h
  · exact insert_isEmpty s _ _

theorem declareAll_isEmpty (s : Styles) (ds : List Declaration) :
    (s.declareAll ds).isEmpty = (s.isEmpty && ds.isEmpty) := by
  induction ds generalizing s with
  | nil => simp [declareAll]
  | cons d ds ih =>
    have h := ih (s.declare d)
    simp only [declareAll, List.foldl_cons] at h ⊢
    simp [h, declare_isEmpty]

/-- What is found was there before or has been declared. -/
theorem get?_declareAll {s : Styles} {ds : List Declaration} {k v : String}
    (h : (s.declareAll ds).get? k = some v) :
    s.get? k = some v ∨ ∃ d ∈ ds, d.key = k ∧ d.value = v := by
  induction ds generalizing s with
  | nil => exact .inl h
  | cons d ds ih =>
    simp only [declareAll, List.foldl_cons] at h ih
    rcases ih h with h | ⟨d', hm, hd⟩
    · rw [get?_declare] at h
      split at h
      · rename_i hk
        exact .inr ⟨d, by simp, hk.1.symm, Option.some.inj h⟩
      · exact .inl h
    · exact .inr ⟨d', by simp [hm], hd⟩

/-- A key that is only ever set to one value ends up with it, whatever fallbacks come before or after. -/
theorem get?_declareAll_set {s : Styles} {ds : List Declaration} {k v : String}
    (hs : s.get? k = some v ∨ ∃ d ∈ ds, d.key = k ∧ d.fallback = false)
    (hv : ∀ d ∈ ds, d.key = k → d.fallback = false → d.value = v) : (s.declareAll ds).get? k = some v := by
  induction ds generalizing s with
  | nil => simpa [declareAll] using hs
  | cons d ds ih =>
    refine ih (s := s.declare d) ?_ (fun d' hm => hv d' (by simp [hm]))
    rw [get?_declare]
    rcases hs with hs | ⟨d', hm, hk, hf⟩
    · left
      split
      · rename_i h
        have hc : s.contains k = true := contains_iff.mpr ⟨v, hs⟩
        have hf : d.fallback = false := by
          cases hf : d.fallback with
          | false => rfl
          | true => exact absurd ⟨hf, hc⟩ h.2
        rw [hv d (by simp) h.1.symm hf]
      · exact hs
    · rcases List.mem_cons.mp hm with rfl | hm
      · left
        rw [if_pos ⟨hk.symm, by simp [hf]⟩, hv d' (by simp) hk hf]
      · exact .inr ⟨d', hm, hk, hf⟩

theorem ext_entries {s r : Styles} (h : s.entries = r.entries) : s = r := by
  obtain ⟨entries, hn⟩ := s
  cases h
  rfl

theorem insertEntry_insertEntry (k v v' : String) (entries : List (String × String)) :
    insertEntry k v (insertEntry k v' entries) = insertEntry k v entries := by
  induction entries with
  | nil => simp [insertEntry]
  | cons e entries ih =>
    by_cases h : e.1 = k
    · simp [insertEntry, h]
    · simp [insertEntry, h, ih]

/-- A key that is there keeps its place, so another may be set before it or after it. -/
theorem insertEntry_comm {k k' : String} (hk : k ≠ k') (v v' : String) {entries : List (String × String)}
    (h : k ∈ entries.map Prod.fst) :
    insertEntry k v (insertEntry k' v' entries) = insertEntry k' v' (insertEntry k v entries) := by
  induction entries with
  | nil => simp at h
  | cons e entries ih =>
    by_cases h1 : e.1 = k
    · have h2 : e.1 ≠ k' := fun h' => hk (h1.symm.trans h')
      simp [insertEntry, h1, hk]
    · have hm : k ∈ entries.map Prod.fst := by
        rcases List.mem_cons.mp h with h' | h'
        · exact absurd h'.symm h1
        · exact h'
      by_cases h2 : e.1 = k'
      · simp [insertEntry, h2, hk.symm]
      · simp [insertEntry, h1, h2, ih hm]

theorem insertAll_insert {k v : String} {entries : List (String × String)} (h : k ∉ entries.map Prod.fst)
    {s : Styles} (hs : k ∈ s.entries.map Prod.fst) :
    (s.insertAll entries).insert k v = (s.insert k v).insertAll entries := by
  induction entries generalizing s with
  | nil => rfl
  | cons e entries ih =>
    simp only [List.map_cons, List.mem_cons, not_or] at h
    have hi := ih h.2 (s := s.insert e.1 e.2) (mem_keys_insertEntry.mpr (.inr hs))
    have hc : (s.insert e.1 e.2).insert k v = (s.insert k v).insert e.1 e.2 :=
      ext_entries (insertEntry_comm h.1 v e.2 hs)
    simp only [insertAll, List.foldl_cons] at hi ⊢
    rw [hi, hc]

/-- What goes last into the winning styles may go last into the result. -/
theorem merge_insert (s r : Styles) (k v : String) : s.merge (r.insert k v) = (s.merge r).insert k v := by
  obtain ⟨entries, hn⟩ := r
  unfold merge insert
  induction entries generalizing s with
  | nil => rfl
  | cons e entries ih =>
    simp only [List.map_cons, List.nodup_cons] at hn
    by_cases hk : e.1 = k
    · subst hk
      have hs : e.1 ∈ (s.insert e.1 e.2).entries.map Prod.fst := mem_keys_insertEntry.mpr (.inl rfl)
      have hi := insertAll_insert (v := v) hn.1 hs
      have hc : (s.insert e.1 e.2).insert e.1 v = s.insert e.1 v :=
        ext_entries (insertEntry_insertEntry e.1 v e.2 s.entries)
      rw [hc] at hi
      simpa [insertEntry, insertAll, insert] using hi.symm
    · have hi := ih (s.insert e.1 e.2) hn.2
      simpa [insertEntry, insertAll, hk] using hi

/-- What is declared outright into the winning styles may be declared into the result. -/
theorem merge_declareAll (s r : Styles) {ds : List Declaration} (h : ∀ d ∈ ds, d.fallback = false) :
    s.merge (r.declareAll ds) = (s.merge r).declareAll ds := by
  induction ds generalizing r with
  | nil => rfl
  | cons d ds ih =>
    have hd : ∀ r' : Styles, r'.declare d = r'.insert d.key d.value := fun r' => by
      simp [declare, h d (by simp)]
    have hi := ih (r.insert d.key d.value) fun d' hm => h d' (by simp [hm])
    simp only [declareAll, List.foldl_cons, hd] at hi ⊢
    rw [hi, merge_insert]

theorem insertAll_eq_declareAll (s : Styles) (entries : List (String × String)) :
    s.insertAll entries = s.declareAll (entries.map fun e => .set e.1 e.2) := by
  rw [declareAll, List.foldl_map]
  rfl

theorem mem_insertEntry {k v : String} {entries : List (String × String)} {e : String × String}
    (h : e ∈ insertEntry k v entries) : e = (k, v) ∨ e ∈ entries := by
  induction entries with
  | nil => exact .inl (List.mem_singleton.mp h)
  | cons e' entries ih =>
    obtain ⟨k', v'⟩ := e'
    unfold insertEntry at h
    split at h
    · exact (List.mem_cons.mp h).imp_right (List.mem_cons_of_mem _)
    · rcases List.mem_cons.mp h with rfl | h
      · exact .inr List.mem_cons_self
      · exact (ih h).imp_right (List.mem_cons_of_mem _)

theorem mem_entries_declareAll {s : Styles} {ds : List Declaration} {e : String × String}
    (h : e ∈ (s.declareAll ds).entries) : e ∈ s.entries ∨ ∃ d ∈ ds, (d.key, d.value) = e := by
  induction ds generalizing s with
  | nil => exact .inl h
  | cons d ds ih =>
    rcases ih (s := s.declare d) h with h | ⟨d', hd, he⟩
    · unfold declare at h
      split at h
      · exact .inl h
      · rcases mem_insertEntry h with rfl | h
        · exact .inr ⟨d, List.mem_cons_self, rfl⟩
        · exact .inl h
    · exact .inr ⟨d', List.mem_cons_of_mem _ hd, he⟩

theorem insertEntry_of_not_mem {k v : String} {entries : List (String × String)}
    (h : k ∉ entries.map Prod.fst) : insertEntry k v entries = entries ++ [(k, v)] := by
  induction entries with
  | nil => rfl
  | cons e entries ih =>
    simp only [List.map_cons, List.mem_cons, not_or] at h
    simp [insertEntry, Ne.symm h.1, ih h.2]

/-- A key goes behind those that are there. -/
theorem keys_insertEntry (k v : String) (entries : List (String × String)) :
    (insertEntry k v entries).map Prod.fst =
      if k ∈ entries.map Prod.fst then entries.map Prod.fst else entries.map Prod.fst ++ [k] := by
  split
  · rename_i h
    induction entries with
    | nil => cases h
    | cons e entries ih =>
      unfold insertEntry
      split
      · rename_i hk
        rw [List.map_cons, List.map_cons, hk]
      · rename_i hk
        rw [List.map_cons, List.map_cons, ih ((List.mem_cons.mp h).resolve_left (Ne.symm hk))]
  · rename_i h
    rw [insertEntry_of_not_mem h, List.map_append]
    rfl

/-- New keys go to the end, in order. -/
theorem entries_declareAll_of_fresh {s : Styles} {ds : List Declaration} (hf : ∀ d ∈ ds, d.fallback = false)
    (hn : (ds.map (·.key)).Nodup) (hs : ∀ d ∈ ds, d.key ∉ s.entries.map Prod.fst) :
    (s.declareAll ds).entries = s.entries ++ ds.map fun d => (d.key, d.value) := by
  induction ds generalizing s with
  | nil => simp [declareAll]
  | cons d ds ih =>
    simp only [List.map_cons, List.nodup_cons] at hn
    have hd : s.declare d = s.insert d.key d.value := by simp [declare, hf d (by simp)]
    have he : (s.insert d.key d.value).entries = s.entries ++ [(d.key, d.value)] :=
      insertEntry_of_not_mem (hs d (by simp))
    have hi := ih (s := s.insert d.key d.value) (fun d' h => hf d' (by simp [h])) hn.2 fun d' h => by
      rw [he, List.map_append, List.mem_append, not_or]
      refine ⟨hs d' (by simp [h]), fun hm => hn.1 ?_⟩
      have hk : d'.key = d.key := List.mem_singleton.mp hm
      exact hk ▸ List.mem_map_of_mem h
    simp only [declareAll, List.foldl_cons, hd] at hi ⊢
    rw [hi, he]
    simp

end Styles

namespace Target

/-- Everything that the aspects of a look declare, in order. -/
def declarationsOf (t : Target) (aspects : List Aspect) : List Declaration :=
  aspects.flatMap t.declarations

theorem styles_eq_declareAll (t : Target) (aspects : List Aspect) :
    t.styles aspects = Styles.empty.declareAll (t.declarationsOf aspects) := by
  simp only [styles, declarationsOf, Styles.declareAll, List.flatMap, List.foldl_flatten, List.foldl_map]
  rfl

theorem styles_append (t : Target) (aspects : List Aspect) (a : Aspect) :
    t.styles (aspects ++ [a]) = t.declare (t.styles aspects) a := by
  simp [styles]

theorem styles_isEmpty (t : Target) (aspects : List Aspect) :
    (t.styles aspects).isEmpty = (t.declarationsOf aspects).isEmpty := by
  rw [styles_eq_declareAll, Styles.declareAll_isEmpty]
  rfl

theorem contains_styles (t : Target) (aspects : List Aspect) (k : String) :
    (t.styles aspects).contains k = true ↔ ∃ a ∈ aspects, k ∈ (t.declarations a).map (·.key) := by
  rw [styles_eq_declareAll, Styles.contains_declareAll]
  have he : Styles.empty.contains k = false := rfl
  simp only [he, Bool.false_eq_true, false_or, declarationsOf, List.map_flatMap, List.mem_flatMap]

end Target
end SceneCode
