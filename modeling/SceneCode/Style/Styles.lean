namespace SceneCode

/-- Properties with their values, each once, in the order in which they were first set. -/
structure Styles where
  entries : List (String × String) := []
  nodup : (entries.map Prod.fst).Nodup := by decide
deriving DecidableEq

namespace Styles

def empty : Styles := {}

instance : Inhabited Styles := ⟨empty⟩

/-- A property that is there gets the new value in its old place. -/
def insertEntry (key value : String) : List (String × String) → List (String × String)
  | [] => [(key, value)]
  | (k, v) :: entries =>
    if k = key then (key, value) :: entries else (k, v) :: insertEntry key value entries

theorem mem_keys_insertEntry {key value k : String} {entries : List (String × String)} :
    k ∈ (insertEntry key value entries).map Prod.fst ↔ k = key ∨ k ∈ entries.map Prod.fst := by
  induction entries with
  | nil => simp [insertEntry]
  | cons e entries ih =>
    obtain ⟨k', v⟩ := e
    simp only [insertEntry]
    split
    · rename_i h
      simp [h]
    · simp only [List.map_cons, List.mem_cons, ih]
      exact or_left_comm

theorem nodup_insertEntry {key value : String} {entries : List (String × String)}
    (h : (entries.map Prod.fst).Nodup) : ((insertEntry key value entries).map Prod.fst).Nodup := by
  induction entries with
  | nil => simp [insertEntry]
  | cons e entries ih =>
    obtain ⟨k, v⟩ := e
    simp only [List.map_cons, List.nodup_cons] at h
    simp only [insertEntry]
    split
    · rename_i hk
      subst hk
      simpa only [List.map_cons, List.nodup_cons] using h
    · rename_i hk
      simp only [List.map_cons, List.nodup_cons, mem_keys_insertEntry, not_or]
      exact ⟨⟨hk, h.1⟩, ih h.2⟩

def insert (s : Styles) (key value : String) : Styles :=
  ⟨insertEntry key value s.entries, nodup_insertEntry s.nodup⟩

def get? (s : Styles) (key : String) : Option String :=
  s.entries.lookup key

def contains (s : Styles) (key : String) : Bool :=
  (s.get? key).isSome

def isEmpty (s : Styles) : Bool :=
  s.entries.isEmpty

def size (s : Styles) : Nat :=
  s.entries.length

def insertAll (s : Styles) (entries : List (String × String)) : Styles :=
  entries.foldl (fun s (key, value) => s.insert key value) s

/-- The values of `other` win. -/
def merge (s other : Styles) : Styles :=
  s.insertAll other.entries

def ofList (entries : List (String × String)) : Styles :=
  empty.insertAll entries

/-- The entries with these keys, in the order of the keys. -/
def select (s : Styles) (keys : List String) : List (String × String) :=
  keys.filterMap fun key => (s.get? key).map (key, ·)

end Styles

/-- One property that an aspect of a look sets. A fallback leaves a value that is there. -/
structure Declaration where
  key : String
  value : String
  fallback : Bool := false
deriving DecidableEq

namespace Declaration

def set (key value : String) : Declaration := ⟨key, value, false⟩

def fallbackTo (key value : String) : Declaration := ⟨key, value, true⟩

end Declaration

namespace Styles

def declare (s : Styles) (d : Declaration) : Styles :=
  if d.fallback && s.contains d.key then s else s.insert d.key d.value

def declareAll (s : Styles) (ds : List Declaration) : Styles :=
  ds.foldl declare s

end Styles
end SceneCode
