import Mathlib.Data.List.Nodup
import SceneCode.Json.Value

namespace SceneCode.Json

mutual
/-- Everything that a value says is said by another one. -/
def SaidBy : Json → Json → Prop
  | .array items, json => ∃ items', json = .array items' ∧ ItemsSaidBy items items'
  | .object fields, json => ∃ fields', json = .object fields' ∧ FieldsSaidBy fields fields'
  | value, json => json = value

def ItemsSaidBy : List Json → List Json → Prop
  | [], items' => items' = []
  | item :: items, items' => ∃ item' rest, items' = item' :: rest ∧ SaidBy item item' ∧ ItemsSaidBy items rest

def FieldsSaidBy : List (String × Json) → List (String × Json) → Prop
  | [], _ => True
  | (key, value) :: fields, fields' =>
    (∃ value', fields'.lookup key = some value' ∧ SaidBy value value') ∧ FieldsSaidBy fields fields'
end

/-- One of the fields is of this name and says all that the value says. -/
def FieldSays (fields : List (String × Json)) (name : String) (value : Json) : Prop :=
  ∃ value', fields.lookup name = some value' ∧ value.SaidBy value'

mutual
/-- No object has two fields of one name. -/
def Distinct : Json → Prop
  | .array items => ItemsDistinct items
  | .object fields => (fields.map (·.1)).Nodup ∧ FieldsDistinct fields
  | _ => True

def ItemsDistinct : List Json → Prop
  | [] => True
  | item :: items => Distinct item ∧ ItemsDistinct items

def FieldsDistinct : List (String × Json) → Prop
  | [] => True
  | (_, value) :: fields => Distinct value ∧ FieldsDistinct fields
end

mutual
/-- The value as a reader keeps it: every object in key order, the last of equal keys standing for all. -/
def normal : Json → Json
  | .array items => .array (normalItems items)
  | .object fields => .object (normalFields [] fields)
  | value => value

def normalItems : List Json → List Json
  | [] => []
  | item :: items => normal item :: normalItems items

/-- `done` are the fields before these. -/
def normalFields (done : List (String × Json)) : List (String × Json) → List (String × Json)
  | [] => done
  | (key, value) :: fields => normalFields (insertField key (normal value) done) fields
end

section Distinct
variable {item : Json} {items : List Json} {field : String × Json} {fields : List (String × Json)}

@[simp] theorem distinct_null : null.Distinct := trivial

@[simp] theorem distinct_bool (b : Bool) : (bool b).Distinct := trivial

@[simp] theorem distinct_integer (n : Int) : (integer n).Distinct := trivial

@[simp] theorem distinct_real (x : Float) : (real x).Distinct := trivial

@[simp] theorem distinct_string (s : String) : (string s).Distinct := trivial

@[simp] theorem distinct_array : (array items).Distinct ↔ ItemsDistinct items := .rfl

@[simp] theorem distinct_object :
    (object fields).Distinct ↔ (fields.map (·.1)).Nodup ∧ FieldsDistinct fields := .rfl

@[simp] theorem itemsDistinct_nil : ItemsDistinct [] := trivial

@[simp] theorem itemsDistinct_cons : ItemsDistinct (item :: items) ↔ item.Distinct ∧ ItemsDistinct items := .rfl

@[simp] theorem fieldsDistinct_nil : FieldsDistinct [] := trivial

@[simp] theorem fieldsDistinct_cons :
    FieldsDistinct (field :: fields) ↔ field.2.Distinct ∧ FieldsDistinct fields := .rfl

end Distinct

section Fields
variable {fields fields' rest : List (String × Json)} {key : String} {value : Json}

theorem fieldsSaidBy_append :
    FieldsSaidBy (fields ++ rest) fields' ↔ FieldsSaidBy fields fields' ∧ FieldsSaidBy rest fields' := by
  induction fields with
  | nil => simp [FieldsSaidBy]
  | cons field fields ih => simp [FieldsSaidBy, ih, and_assoc]

theorem fieldsDistinct_append : FieldsDistinct (fields ++ rest) ↔ FieldsDistinct fields ∧ FieldsDistinct rest := by
  induction fields with
  | nil => simp
  | cons field fields ih => simp [ih, and_assoc]

theorem itemsDistinct_iff {items : List Json} : ItemsDistinct items ↔ ∀ item ∈ items, item.Distinct := by
  induction items with
  | nil => simp
  | cons item items ih => simp [ih]

theorem lookup_cons_if {α : Type} (name : String) (field : String × α) (fields : List (String × α)) :
    (field :: fields).lookup name = if name = field.1 then some field.2 else fields.lookup name := by
  rw [List.lookup_cons]
  by_cases h : name = field.1
  · simp [h]
  · rw [beq_eq_false_iff_ne.mpr h, if_neg h]

theorem lookup_of_mem (h : (fields.map (·.1)).Nodup) (hm : (key, value) ∈ fields) :
    fields.lookup key = some value := by
  induction fields with
  | nil => cases hm
  | cons field fields ih =>
    obtain ⟨hfield, hfields⟩ := List.nodup_cons.mp h
    cases hm with
    | head => simp
    | tail _ hm =>
      have hne : key ≠ field.1 := by
        rintro rfl
        exact hfield (List.mem_map.mpr ⟨_, hm, rfl⟩)
      rw [lookup_cons_if, if_neg hne]
      exact ih hfields hm

theorem lookup_insertField {α : Type} (name key : String) (value : α) (fields : List (String × α)) :
    (insertField key value fields).lookup name = if name = key then some value else fields.lookup name := by
  induction fields with
  | nil => simp [insertField, lookup_cons_if]
  | cons field fields ih =>
    rw [insertField]
    split
    next => rw [lookup_cons_if]
    next =>
      split
      next he => subst he; simp only [lookup_cons_if]; split <;> rfl
      next he =>
        rw [lookup_cons_if, ih, lookup_cons_if]
        split
        next hf => rw [if_neg fun h => he (h.symm.trans hf)]
        next => rfl

theorem lookup_normalFields (done : List (String × Json)) (h : key ∉ fields.map (·.1)) :
    (normalFields done fields).lookup key = done.lookup key := by
  induction fields generalizing done with
  | nil => rfl
  | cons field fields ih =>
    simp only [List.map_cons, List.mem_cons, not_or] at h
    rw [normalFields, ih _ h.2, lookup_insertField, if_neg h.1]

theorem insertField_perm (h : key ∉ fields.map (·.1)) :
    (insertField key value fields).Perm ((key, value) :: fields) := by
  induction fields with
  | nil => exact .refl _
  | cons field fields ih =>
    simp only [List.map_cons, List.mem_cons, not_or] at h
    rw [insertField]
    split
    next => exact .refl _
    next => rw [if_neg h.1]; exact ((ih h.2).cons _).trans (.swap ..)

theorem normalFields_perm {done : List (String × Json)} (h : ((done ++ fields).map (·.1)).Nodup) :
    (normalFields done fields).Perm (done ++ fields.map fun field => (field.1, field.2.normal)) := by
  induction fields generalizing done with
  | nil => rw [normalFields, List.map_nil, List.append_nil]
  | cons field fields ih =>
    rw [List.map_append, List.map_cons, List.nodup_middle] at h
    have hkey : field.1 ∉ done.map (·.1) := fun hm => (List.nodup_cons.mp h).1 (List.mem_append_left _ hm)
    have hinsert : (insertField field.1 field.2.normal done).Perm _ := insertField_perm hkey
    have hn : ((insertField field.1 field.2.normal done ++ fields).map (·.1)).Nodup := by
      rw [((hinsert.append_right fields).map (·.1)).nodup_iff, List.map_append]
      exact h
    rw [normalFields, List.map_cons]
    exact (ih hn).trans ((hinsert.append_right _).trans List.perm_middle.symm)

end Fields

mutual
theorem saidBy_self : (value : Json) → value.Distinct → value.SaidBy value
  | .array items, h => ⟨items, rfl, itemsSaidBy_self items h⟩
  | .object fields, h => ⟨fields, rfl, fieldsSaidBy_self fields h.2 fun _ _ => lookup_of_mem h.1⟩
  | .null, _ | .bool _, _ | .integer _, _ | .real _, _ | .string _, _ => rfl

theorem itemsSaidBy_self : (items : List Json) → ItemsDistinct items → ItemsSaidBy items items
  | [], _ => rfl
  | item :: items, h => ⟨item, items, rfl, saidBy_self item h.1, itemsSaidBy_self items h.2⟩

theorem fieldsSaidBy_self {whole : List (String × Json)} : (fields : List (String × Json)) → FieldsDistinct fields →
    (∀ key value, (key, value) ∈ fields → whole.lookup key = some value) → FieldsSaidBy fields whole
  | [], _, _ => trivial
  | (key, value) :: fields, h, hw =>
    ⟨⟨value, hw key value List.mem_cons_self, saidBy_self value h.1⟩,
      fieldsSaidBy_self fields h.2 fun k v hm => hw k v (List.mem_cons_of_mem _ hm)⟩
end

mutual
theorem saidBy_normal : (value : Json) → value.Distinct → value.SaidBy value.normal
  | .array items, h => ⟨_, rfl, itemsSaidBy_normal items h⟩
  | .object fields, h => ⟨_, rfl, fieldsSaidBy_normal fields h.1 h.2 []⟩
  | .null, _ | .bool _, _ | .integer _, _ | .real _, _ | .string _, _ => rfl

theorem itemsSaidBy_normal : (items : List Json) → ItemsDistinct items → ItemsSaidBy items (normalItems items)
  | [], _ => rfl
  | item :: items, h => ⟨_, _, rfl, saidBy_normal item h.1, itemsSaidBy_normal items h.2⟩

/-- A field keeps its place while those behind it have other names. -/
theorem fieldsSaidBy_normal : (fields : List (String × Json)) → (fields.map (·.1)).Nodup → FieldsDistinct fields →
    ∀ done, FieldsSaidBy fields (normalFields done fields)
  | [], _, _, _ => trivial
  | (key, value) :: fields, hn, h, done => by
    obtain ⟨hkey, hn⟩ := List.nodup_cons.mp hn
    refine ⟨⟨value.normal, ?_, saidBy_normal value h.1⟩, fieldsSaidBy_normal fields hn h.2 _⟩
    rw [normalFields, lookup_normalFields _ hkey, lookup_insertField, if_pos rfl]
end

end SceneCode.Json
