import SceneCode.Template.Reader
import SceneCode.Template.Render

namespace SceneCode

structure Templates where
  entries : List (String × Template)

namespace Templates
open Template (Error)

/-- A template takes the place of one with its name. One that cannot be read changes nothing. -/
def register (ts : Templates) (name text : String) : Except Error Templates :=
  match Template.ofText? text with
  | some template => .ok ⟨(name, template) :: ts.entries⟩
  | none => .error .invalid

/-- A template that leads back to itself fails, since no other chain is longer than the list of templates. -/
def render (ts : Templates) (name : String) (data : Json) : Except Error String :=
  match ts.entries.lookup name with
  | none => .error (.notFound name)
  | some template =>
    match Template.render? ts.entries data ts.entries.length [] template with
    | some cs => .ok (String.ofList cs)
    | none => .error .failed

end Templates
end SceneCode
