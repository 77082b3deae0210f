import SceneCode.Json.Record
import SceneCode.Named
import SceneCode.Proofs.Json.Said
import SceneCode.Scene.Writer

namespace SceneCode
namespace Json

/-- Every value that says what is written is read as `a`. -/
def Reads {α : Type} (read : Json → Except Fault α) (written : Json) (a : α) : Prop :=
  ∀ json, written.SaidBy json → read json = .ok a

section Leaves

theorem reads_number (x : Float) : Reads number (.real x) x := by
  rintro _ rfl
  rfl

theorem reads_flag (b : Bool) : Reads flag (.bool b) b := by
  rintro _ rfl
  rfl

theorem reads_text (s : String) : Reads text (.string s) s := by
  rintro _ rfl
  rfl

theorem reads_choice {α : Type} {names : List (String × α)} {other a : α} {name : String}
    (h : (names.lookup name).getD other = a) : Reads (choice names other) (.string name) a := by
  rintro _ rfl
  rw [choice, h]

end Leaves

section Parts
variable {α κ : Type} {read : Json → Except Fault α} {write : α → Json} {written : List (String × Json)} {a : α}
  {json value : Json} {r : Record} {name : String}

/-- A reading that refuses a null does not take it for a value. -/
theorem reads_nullable {fault : Fault} (hnull : read .null = .error fault) (h : ∀ a, Reads read (write a) a)
    (o : Option α) :
    Reads (nullable read) (ofOption write o) o := by
  intro json said
  cases o with
  | none =>
    obtain rfl : json = .null := said
    rfl
  | some a =>
    have ha := h a json said
    have hne : json ≠ .null := by
      rintro rfl
      exact nomatch hnull.symm.trans ha
    rw [nullable, ha]
    · rfl
    · exact hne

theorem reads_list {as : List α} (h : ∀ a ∈ as, Reads read (write a) a) :
    Reads (list read) (.array (as.map write)) as := by
  rintro _ ⟨items, rfl, said⟩
  rw [list]
  induction as generalizing items with
  | nil =>
    obtain rfl : items = [] := said
    rfl
  | cons a as ih =>
    obtain ⟨item, items, rfl, hitem, hitems⟩ := said
    rw [List.mapM_cons, h a List.mem_cons_self item hitem, ih (fun b hb => h b (List.mem_cons_of_mem a hb)) items hitems]
    rfl

theorem reads_record {names : List String} {readFields : Record → Except Fault α}
    (h : ∀ r : Record, FieldsSaidBy written r.fields → readFields r = .ok a) :
    Reads (fun json => json.record names >>= readFields) (.object written) a := by
  rintro _ ⟨fields, rfl, said⟩
  exact h ⟨fields, false⟩ said

theorem Record.find_of_said (said : FieldSays r.fields name value) (h : Reads read value a) :
    r.find read name = .ok (some a) := by
  obtain ⟨value', hl, said⟩ := said
  rw [Record.find, hl]
  simp only [h value' said, Except.map]

theorem Record.findD_of_said (default : α) (said : FieldSays r.fields name value) (h : Reads read value a) :
    r.findD read name default = .ok a := by
  rw [Record.findD, find_of_said said h]
  rfl

theorem tagged_of_said {tag : String} {kinds : Kinds κ} {inside : Bool} {fields : List (String × Json)}
    (said : FieldSays fields tag (.string name)) :
    (Json.object fields).tagged tag kinds inside = .ok (kinds.ofName name, .object fields) := by
  obtain ⟨_, hl, rfl⟩ := said
  rw [tagged, hl]
  rfl

theorem reads_tagged {tag : String} {kinds : Kinds κ} {inside : Bool} {rest : κ × Json → Except Fault α}
    (h : Reads (fun json => rest (kinds.ofName name, json)) (.object ((tag, .string name) :: written)) a) :
    Reads (fun json => json.tagged tag kinds inside >>= rest) (.object ((tag, .string name) :: written)) a := by
  rintro _ ⟨fields, rfl, said⟩
  simp only [tagged_of_said said.1]
  exact h _ ⟨fields, rfl, said⟩

theorem reads_noFields (a : α) : Reads (fun json => json.noFields >>= fun _ => pure a) (.object written) a := by
  rintro _ ⟨fields, rfl, -⟩
  rfl

theorem Reads.map {β : Type} (f : α → β) (h : Reads read value a) :
    Reads (fun json => read json >>= fun a => pure (f a)) value (f a) := by
  intro json said
  simp only [h json said]
  rfl

end Parts
end Json

/-- No two members have the same name. -/
class NamesApart (α : Type) [Named α] : Prop where
  lookup_name : ∀ a : α, (Named.names : List (String × α)).lookup (Named.name a) = some a

theorem Named.reads {α : Type} [Named α] [NamesApart α] (a : α) : Json.Reads Named.ofJson (Named.toJson a) a :=
  Json.reads_choice (by rw [NamesApart.lookup_name, Option.getD_some])

end SceneCode
