import Mathlib.Data.List.Induction
import SceneCode.Proofs.Style.Settled

namespace SceneCode.Styles

/-- How a map came about. A map that is merged into another has a history of its own. -/
inductive History where
  | new
  | insert (h : History) (key value : String)
  | merge (h other : History)

namespace History

def run : History → Styles
  | new => .empty
  | insert h key value => h.run.insert key value
  | merge h other => h.run.merge other.run

/-- All that was written, in order. -/
def writes : History → List (String × String)
  | new => []
  | insert h key value => h.writes ++ [(key, value)]
  | merge h other => h.writes ++ other.writes

end History

/-- Each key in its first place with its last value. -/
def written (writes : List (String × String)) : List (String × String) :=
  (writes.map Prod.fst).eraseDups.filterMap fun key => (writes.reverse.lookup key).map (key, ·)

def keys (s : Styles) : List String :=
  s.entries.map Prod.fst

theorem keys_insert (s : Styles) (key value : String) :
    (s.insert key value).keys = if key ∈ s.keys then s.keys else s.keys ++ [key] :=
  keys_insertEntry key value s.entries

/-- A map is known by its keys in their order and their values. -/
theorem entries_eq_select (s : Styles) : s.entries = s.select s.keys := by
  obtain ⟨entries, hn⟩ := s
  change entries = (entries.map Prod.fst).filterMap fun k => (entries.lookup k).map (k, ·)
  induction entries with
  | nil => rfl
  | cons e entries ih =>
    obtain ⟨hm, hn⟩ := List.nodup_cons.mp hn
    rw [List.map_cons, List.filterMap_cons, List.lookup_cons_self, Option.map_some]
    refine congrArg (e :: ·) ((ih hn).trans (List.filterMap_congr fun k hk => ?_))
    have he : (k == e.1) = false := beq_false_of_ne fun h => hm (h ▸ hk)
    rw [List.lookup_cons, he]

theorem ext_keys {s t : Styles} (hk : s.keys = t.keys) (hg : ∀ k, s.get? k = t.get? k) : s = t := by
  refine ext_entries ?_
  rw [entries_eq_select s, entries_eq_select t, hk]
  simp only [select, hg]

theorem lookup_reverse (s : Styles) (key : String) : s.entries.reverse.lookup key = s.get? key := by
  have hn : (s.entries.reverse.map Prod.fst).Nodup := by
    rw [List.map_reverse]
    exact List.nodup_reverse.mpr s.nodup
  exact get?_of_perm (s := ⟨s.entries.reverse, hn⟩) (List.reverse_perm s.entries) key

theorem eraseDups_of_nodup {l : List String} (h : l.Nodup) : l.eraseDups = l := by
  induction l with
  | nil => rfl
  | cons k l ih =>
    obtain ⟨hk, h⟩ := List.nodup_cons.mp h
    have hf : l.filter (fun b => !b == k) = l := by
      refine List.filter_eq_self.mpr fun b hb => ?_
      have hne : b ≠ k := fun he => hk (he ▸ hb)
      simpa using hne
    rw [List.eraseDups_cons, hf, ih h]

theorem eraseDups_concat (l : List String) (k : String) :
    (l ++ [k]).eraseDups = if k ∈ l then l.eraseDups else l.eraseDups ++ [k] := by
  rw [List.eraseDups_append]
  split <;> rename_i h <;> simp [List.removeAll, h, List.eraseDups_cons]

theorem ofList_concat (writes : List (String × String)) (e : String × String) :
    ofList (writes ++ [e]) = (ofList writes).insert e.1 e.2 := by
  simp [ofList, insertAll]

theorem keys_ofList (writes : List (String × String)) : (ofList writes).keys = (writes.map Prod.fst).eraseDups := by
  induction writes using List.reverseRecOn with
  | nil => rfl
  | append_singleton writes e ih =>
    rw [ofList_concat, keys_insert, List.map_append, List.map_singleton, eraseDups_concat, ih]
    simp only [List.mem_eraseDups]

theorem get?_ofList (writes : List (String × String)) (key : String) :
    (ofList writes).get? key = writes.reverse.lookup key := by
  induction writes using List.reverseRecOn with
  | nil => rfl
  | append_singleton writes e ih =>
    rw [ofList_concat, get?_insert, List.reverse_append, List.reverse_singleton, List.singleton_append, List.lookup_cons,
      ih]
    by_cases h : key = e.1
    · simp [h]
    · rw [if_neg h, beq_false_of_ne h]

theorem entries_ofList (writes : List (String × String)) : (ofList writes).entries = written writes := by
  rw [entries_eq_select, keys_ofList, select, written]
  simp only [get?_ofList]

/-- What a map lists gives the map again. -/
theorem ofList_entries (s : Styles) : ofList s.entries = s := by
  refine ext_keys ?_ fun key => ?_
  · rw [keys_ofList]
    exact eraseDups_of_nodup s.nodup
  · rw [get?_ofList, lookup_reverse]

theorem merge_ofList (s : Styles) (writes : List (String × String)) : s.merge (ofList writes) = s.insertAll writes := by
  induction writes using List.reverseRecOn with
  | nil => rfl
  | append_singleton writes e ih =>
    rw [ofList_concat, merge_insert, ih]
    simp [insertAll]

theorem ofList_append (front rest : List (String × String)) :
    ofList (front ++ rest) = (ofList front).merge (ofList rest) := by
  rw [merge_ofList, ofList, ofList, insertAll, insertAll, insertAll, List.foldl_append]

theorem merge_eq_ofList (s t : Styles) : s.merge t = ofList (s.entries ++ t.entries) := by
  rw [ofList_append, ofList_entries, ofList_entries]

theorem History.run_eq_ofList (h : History) : h.run = ofList h.writes := by
  induction h with
  | new => rfl
  | insert h key value ih => rw [run, writes, ofList_concat, ih]
  | merge h other ih ih' => rw [run, writes, ofList_append, ih, ih']

theorem merge_assoc (s t u : Styles) : (s.merge t).merge u = s.merge (t.merge u) := by
  rw [merge_eq_ofList t u, merge_ofList, merge, merge, insertAll, insertAll, insertAll, List.foldl_append]

theorem keys_merge (s t : Styles) : (s.merge t).keys = s.keys ++ t.keys.filter (· ∉ s.keys) := by
  have hf : t.keys.removeAll s.keys = t.keys.filter (· ∉ s.keys) := by
    simp [List.removeAll]
  have hn : (t.keys.filter (· ∉ s.keys)).Nodup := List.Nodup.filter _ t.nodup
  rw [merge_eq_ofList, keys_ofList, List.map_append, List.eraseDups_append, eraseDups_of_nodup s.nodup]
  exact congrArg (s.keys ++ ·) ((congrArg _ hf).trans (eraseDups_of_nodup hn))

theorem get?_merge (s t : Styles) (key : String) : (s.merge t).get? key = (t.get? key).or (s.get? key) := by
  rw [merge_eq_ofList, get?_ofList, List.reverse_append, List.lookup_append, lookup_reverse, lookup_reverse]

theorem merge_self (s : Styles) : s.merge s = s := by
  refine ext_keys ?_ fun k => ?_
  · have hf : s.keys.filter (· ∉ s.keys) = [] := List.filter_eq_nil_iff.mpr fun k hk => by simpa using hk
    rw [keys_merge, hf, List.append_nil]
  · rw [get?_merge, Option.or_self]

/-- What is asked of a map is answered by its list. -/
structure Lists (s : Styles) (entries : List (String × String)) : Prop where
  eq : s.entries = entries
  once : (entries.map Prod.fst).Nodup
  get? : ∀ key value, s.get? key = some value ↔ (key, value) ∈ entries
  contains : ∀ key, s.contains key = true ↔ key ∈ entries.map Prod.fst
  size : s.size = entries.length
  isEmpty : s.isEmpty = true ↔ entries = []

theorem lists_entries (s : Styles) : s.Lists s.entries where
  eq := rfl
  once := s.nodup
  get? key value := (mem_entries_iff (e := (key, value))).symm
  contains key := by
    simp only [List.mem_map, contains_iff]
    constructor
    · rintro ⟨value, hv⟩
      exact ⟨(key, value), mem_entries_iff.mpr hv, rfl⟩
    · rintro ⟨e, he, rfl⟩
      exact ⟨e.2, mem_entries_iff.mp he⟩
  size := rfl
  isEmpty := List.isEmpty_iff

/-- Whatever is inserted and merged into a map, it lists each key where it was first written and with the value that was
written last, and answers by this list. Merging is associative, takes a map into itself without effect, and puts the
new keys of the other behind those that are there. -/
theorem entries_follow_history :
    (∀ h : History, h.run.Lists (written h.writes)) ∧
    (∀ writes, ofList writes = (writes.foldl (fun h e => h.insert e.1 e.2) History.new).run) ∧
    (∀ s t u : Styles, (s.merge t).merge u = s.merge (t.merge u)) ∧
    (∀ s : Styles, s.merge s = s) ∧
    ∀ s t : Styles, (s.merge t).keys = s.keys ++ t.keys.filter (· ∉ s.keys) ∧
      ∀ key, (s.merge t).get? key = (t.get? key).or (s.get? key) := by
  refine ⟨fun h => ?_, fun writes => ?_, merge_assoc, merge_self, fun s t => ⟨keys_merge s t, get?_merge s t⟩⟩
  · rw [h.run_eq_ofList, ← entries_ofList]
    exact lists_entries _
  · induction writes using List.reverseRecOn with
    | nil => rfl
    | append_singleton writes e ih =>
      rw [List.foldl_append, ofList_concat, ih]
      rfl

end SceneCode.Styles
