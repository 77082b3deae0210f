import Mathlib.Data.List.Basic

namespace SceneCode.Text

/-- Only the characters in the list are tested, not all that there are. -/
instance (priority := 2000) decidableForallMem (p : Char → Prop) [DecidablePred p] (cs : List Char) :
    Decidable (∀ c ∈ cs, p c) :=
  List.decidableBAll p cs

/-- What stands behind the last of these characters. -/
theorem exists_last {c : Char} {cs : List Char} (h : c ∈ cs) : ∃ front rest, cs = front ++ c :: rest ∧ c ∉ rest := by
  obtain ⟨rest, front, he, hr⟩ := List.eq_append_cons_of_mem (List.mem_reverse.mpr h)
  refine ⟨front.reverse, rest.reverse, ?_, by simpa using hr⟩
  rw [← List.reverse_reverse cs, he]
  simp

theorem getLast?_append_ne {xs ys : List Char} {c : Char} (hx : xs.getLast? ≠ some c) (hy : ys.getLast? ≠ some c) :
    (xs ++ ys).getLast? ≠ some c := by
  rw [List.getLast?_append]
  cases hl : ys.getLast? with
  | none => exact hx
  | some d =>
    rw [hl] at hy
    exact hy

/-- A joined text ends as its last part does. -/
theorem getLast?_intercalate (separator : String) {vs : List String} {v : String} (h : v ∈ vs.getLast?) (hn : v ≠ "") :
    (separator.intercalate vs).toList.getLast? = v.toList.getLast? := by
  induction vs with
  | nil => cases h
  | cons u vs ih =>
    by_cases hv : vs = []
    · subst hv
      have hu : u = v := Option.some.inj h
      rw [String.intercalate_singleton, hu]
    · have hm : v ∈ vs.getLast? := by
        obtain ⟨w, ws, rfl⟩ := List.exists_cons_of_ne_nil hv
        rwa [List.getLast?_cons_cons] at h
      have hne : (separator.intercalate vs).toList ≠ [] := by
        intro he
        have hl := ih hm
        rw [he] at hl
        exact hn (String.toList_eq_nil_iff.mp (List.getLast?_eq_none_iff.mp hl.symm))
      rw [String.intercalate_cons_of_ne_nil hv, String.toList_append, List.getLast?_append_of_ne_nil _ hne, ih hm]

theorem getLastD_append (cs ds : List Char) (c : Char) : (cs ++ ds).getLastD c = ds.getLastD (cs.getLastD c) := by
  simp only [List.getLastD_eq_getLast?, List.getLast?_append]
  cases ds.getLast? <;> rfl

end SceneCode.Text
