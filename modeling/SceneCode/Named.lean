import SceneCode.Json.Record

namespace SceneCode

/-- A closed choice with a name for each member. Unknown names stand for `other`. -/
class Named (α : Type) where
  all : List α
  name : α → String
  other : α

namespace Named
variable {α : Type} [Named α]

def names : List (String × α) :=
  (all : List α).map fun a => (name a, a)

def ofJson : Json → Except Json.Fault α :=
  Json.choice names other

def toJson (a : α) : Json :=
  .string (name a)

end Named
end SceneCode
