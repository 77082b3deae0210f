import SceneCode.Proofs.Code.Texts
import SceneCode.Proofs.Style.Values

namespace SceneCode

namespace Styles

/-- The styles without one entry. -/
def erase (s : Styles) (key : String) : Styles where
  entries := s.entries.filter fun e => e.1 ≠ key
  nodup := (List.filter_sublist.map Prod.fst).nodup s.nodup

theorem lookup_filter_ne (key k : String) (entries : List (String × String)) :
    (entries.filter fun e => e.1 ≠ key).lookup k = if k = key then none else entries.lookup k := by
  induction entries with
  | nil => exact (ite_self _).symm
  | cons e entries ih =>
    obtain ⟨k', v⟩ := e
    by_cases hk : k' = key
    · subst hk
      rw [List.filter_cons_of_neg (by simp), ih, List.lookup_cons]
      by_cases he : k = k'
      · rw [if_pos he, if_pos he]
      · rw [beq_false_of_ne he]
    · rw [List.filter_cons_of_pos (by simpa using hk), List.lookup_cons, List.lookup_cons, ih]
      by_cases he : k = k'
      · subst he
        simp [hk]
      · rw [beq_false_of_ne he]

theorem get?_erase (s : Styles) (key k : String) : (s.erase key).get? k = if k = key then none else s.get? k :=
  lookup_filter_ne key k s.entries

theorem get?_erase_of_ne (s : Styles) {key k : String} (h : k ≠ key) : (s.erase key).get? k = s.get? k := by
  rw [get?_erase, if_neg h]

theorem contains_erase (s : Styles) (key k : String) :
    (s.erase key).contains k = if k = key then false else s.contains k := by
  rw [contains, get?_erase]
  split <;> rfl

/-- What is not there cannot be taken away. -/
theorem erase_of_none {s : Styles} {key : String} (h : s.get? key = none) : s.erase key = s := by
  refine ext_entries (List.filter_eq_self.mpr fun e he => ?_)
  have hn := bne_iff_ne.mp (List.lookup_eq_none_iff.mp h e he)
  exact decide_eq_true (Ne.symm hn)

theorem isEmpty_erase {s : Styles} (h : s.isEmpty = true) (key : String) : (s.erase key).isEmpty = true := by
  obtain ⟨entries, hn⟩ := s
  obtain rfl := List.isEmpty_iff.mp h
  rfl

/-- What is read under other keys is the same. -/
theorem select_erase (s : Styles) {key : String} {keys : List String} (h : key ∉ keys) :
    (s.erase key).select keys = s.select keys := by
  refine List.filterMap_congr fun k hk => ?_
  rw [s.get?_erase_of_ne (ne_of_mem_of_not_mem hk h)]

end Styles

/-- A run with styles of its own is no only run without. -/
theorem Run.ne_plain (before after : List Run) (text : String) (s : Styles) (text' : String) :
    before ++ ⟨text, some s⟩ :: after ≠ [⟨text', none⟩] := by
  intro h
  have hm : ⟨text, some s⟩ ∈ before ++ ⟨text, some s⟩ :: after := List.mem_append_right _ List.mem_cons_self
  rw [h] at hm
  cases List.mem_singleton.mp hm

namespace Element

def erase (key : String) : Element → Element
  | .container name styles children => .container name (styles.erase key) children
  | .image name styles source => .image name (styles.erase key) source
  | .text name styles runs => .text name (styles.erase key) runs

/-- The styles that a run has of its own. -/
def ofRun? (i : Nat) : Element → Option Styles
  | .text _ _ runs => runs[i]?.bind (·.styles)
  | _ => none

def eraseInRun (i : Nat) (key : String) : Element → Element
  | .text name styles runs => .text name styles (runs.modify i fun r => { r with styles := r.styles.map (·.erase key) })
  | e => e

theorem exists_of_ofRun? {e : Element} {i : Nat} {s : Styles} (h : e.ofRun? i = some s) :
    ∃ name styles before text after, e = .text name styles (before ++ ⟨text, some s⟩ :: after) ∧
      ∀ key, e.eraseInRun i key = .text name styles (before ++ ⟨text, some (s.erase key)⟩ :: after) := by
  cases e with
  | text name styles runs =>
    obtain ⟨⟨text, styles'⟩, hr, rfl⟩ := Option.bind_eq_some_iff.mp h
    obtain ⟨hi, hg⟩ := List.getElem?_eq_some_iff.mp hr
    have hs : runs = runs.take i ++ ⟨text, some s⟩ :: runs.drop (i + 1) := by
      rw [← hg, ← List.drop_eq_getElem_cons hi, List.take_append_drop]
    refine ⟨name, styles, _, text, _, congrArg (Element.text name styles) hs, fun key => ?_⟩
    refine congrArg (Element.text name styles) ?_
    rw [List.modify_eq_take_cons_drop hi, hg]
    rfl
  | _ => cases h

end Element

namespace Target
variable {t : Target}

/-- The keys under which code for widgets and views finds how children are arranged. -/
def arrangementKeys : Target → List String
  | .flutter => ["layout", "mainAxisSize", "mainAxisAlignment", "crossAxisAlignment", "textBaseline", "spacing"]
  | .swiftUI => ["stack", "spacers"]
  | _ => []

/-- The keys of modifiers that make a view of a text, so that it cannot be added to another. -/
def unaddedKeys : Target → List String
  | .swiftUI => ["lineSpacing"]
  | _ => []

/-- What is found in the styles of a look comes from one of its aspects. -/
theorem exists_keysOf {aspects : List Aspect} {key v : String} (h : (t.styles aspects).get? key = some v) :
    ∃ a ∈ aspects, key ∈ t.keysOf a := by
  obtain ⟨a, ha, d, hd, he⟩ := exists_of_mem_entries (Styles.mem_entries_of_get? h)
  obtain ⟨rfl, -⟩ := Prod.mk.inj he
  exact ⟨a, ha, t.key_mem_keysOf a hd⟩

/-- A run has the styles of its type. -/
theorem ofRun?_element {p : Piece Float} {i : Nat} {s : Styles} (h : (t.element p).ofRun? i = some s) :
    ∃ base run, s = t.runStyles base run := by
  cases p with
  | text slot base box =>
    rw [element, textElement_eq] at h
    obtain ⟨r, hr, hs⟩ := Option.bind_eq_some_iff.mp h
    exact ⟨base, exists_runStyles (List.mem_of_getElem? hr) hs⟩
  | shape slot base ellipse =>
    rw [element, shapeElement] at h
    split at h <;> cases h
  | _ => cases h

end Target

/-- Without an entry that has a value, code for an element would be another. This is so for the styles of the element
and for those of each of its runs, apart from the keys that are set aside for either. -/
structure Target.ShowsStyles (t : Target) (showNames : Bool) (aside asideInRuns : List String) (e : Element) :
    Prop where
  own : ∀ key v, e.styles.get? key = some v → v ≠ "" → key ∉ aside →
    t.render showNames (e.erase key) ≠ t.render showNames e
  ofRuns : ∀ i s key v, e.ofRun? i = some s → s.get? key = some v → v ≠ "" → key ∉ asideInRuns →
    t.render showNames (e.eraseInRun i key) ≠ t.render showNames e

end SceneCode
