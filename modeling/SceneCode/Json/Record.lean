import SceneCode.Json.Value

/-! Typed readings of values. Fields that are present are read before any is missed, so a field of the wrong type is
reported before a missing one. -/
namespace SceneCode.Json

def number : Json → Except Fault Float
  | .integer n => .ok (Float.ofInt n)
  | .real x => .ok x
  | _ => .error .mistyped

def flag : Json → Except Fault Bool
  | .bool b => .ok b
  | _ => .error .mistyped

def text : Json → Except Fault String
  | .string s => .ok s
  | _ => .error .mistyped

def list {α : Type} (read : Json → Except Fault α) : Json → Except Fault (List α)
  | .array items => items.mapM read
  | _ => .error .mistyped

def nullable {α : Type} (read : Json → Except Fault α) : Json → Except Fault (Option α)
  | .null => .ok none
  | json => (read json).map some

/-- A name out of a list, every other name standing for `other`. The name may be the only key of an object that
says nothing about it. -/
def choice {α : Type} (names : List (String × α)) (other : α) : Json → Except Fault α
  | .string s => .ok ((names.lookup s).getD other)
  | .object [(s, .null)] | .object [(s, .object [])] => .ok ((names.lookup s).getD other)
  | _ => .error .mistyped

/-- A record is an object, or the array of its fields in their order. -/
structure Record where
  fields : List (String × Json)
  listed : Bool

def record (names : List String) : Json → Except Fault Record
  | .object fields => .ok ⟨fields, false⟩
  | .array items => if names.length < items.length then .error .mistyped else .ok ⟨names.zip items, true⟩
  | _ => .error .mistyped

namespace Record

def find {α : Type} (r : Record) (read : Json → Except Fault α) (name : String) :
    Except Fault (Option α) :=
  match r.fields.lookup name with
  | none => .ok none
  | some json => (read json).map some

def findD {α : Type} (r : Record) (read : Json → Except Fault α) (name : String) (default : α) :
    Except Fault α :=
  (r.find read name).map (·.getD default)

/-- An array that is too short does not say which field it lacks. -/
def need {α : Type} (r : Record) (name : String) : Option α → Except Fault α
  | some a => .ok a
  | none => .error (if r.listed then .mistyped else .missing name)

end Record

/-- The kinds of a tagged value: the name of each, and their order, by which a value inside another one may name its
kind too. -/
structure Kinds (κ : Type) where
  ofName : String → κ
  order : List κ
  other : κ

def Kinds.read {κ : Type} (kinds : Kinds κ) (inside : Bool) : Json → Except Fault κ
  | .string s => .ok (kinds.ofName s)
  | .integer (.ofNat n) => if inside then .ok (kinds.order[n]?.getD kinds.other) else .error .mistyped
  | _ => .error .mistyped

/-- The kind of a tagged value and what holds its other fields. Written as an array, the kind comes first. -/
def tagged {κ : Type} (tag : String) (kinds : Kinds κ) (inside : Bool) : Json → Except Fault (κ × Json)
  | .object fields =>
    match fields.lookup tag with
    | none => .error (.missing tag)
    | some json => (kinds.read inside json).map (·, .object fields)
  | .array [] => .error (.missing tag)
  | .array (json :: items) => (kinds.read inside json).map (·, .array items)
  | _ => .error .mistyped

/-- A kind without fields takes any object, but no further item of an array. -/
def noFields : Json → Except Fault Unit
  | .object _ | .array [] => .ok ()
  | _ => .error .mistyped

end SceneCode.Json
