import Mathlib.Data.List.Nodup
import SceneCode.Text.Quoted

namespace SceneCode.Text

/-- A character of the table is written as a backslash and what the table has for it. -/
def escapeBy (table : List (Char × Char)) (c : Char) : List Char :=
  match table.lookup c with
  | some d => ['\\', d]
  | none => [c]

theorem escapeBy_cases (table : List (Char × Char)) (c : Char) :
    (c ∉ table.map (·.1) ∧ escapeBy table c = [c]) ∨ ∃ d, (c, d) ∈ table ∧ escapeBy table c = ['\\', d] := by
  unfold escapeBy
  cases hl : table.lookup c with
  | none =>
    refine .inl ⟨fun hm => ?_, rfl⟩
    obtain ⟨p, hp, rfl⟩ := List.mem_map.mp hm
    simpa using List.lookup_eq_none_iff.mp hl p hp
  | some d =>
    obtain ⟨front, back, rfl, -⟩ := List.lookup_eq_some_iff.mp hl
    exact .inr ⟨d, by simp, rfl⟩

theorem escapeBy_cons (k d : Char) (table : List (Char × Char)) (c : Char) :
    escapeBy ((k, d) :: table) c = if c = k then ['\\', d] else escapeBy table c := by
  unfold escapeBy
  rw [List.lookup_cons]
  by_cases hc : c = k
  · rw [if_pos hc, beq_iff_eq.mpr hc]
  · rw [if_neg hc, beq_false_of_ne hc]

theorem escapeBy_of_not_mem {table : List (Char × Char)} {c : Char} (h : c ∉ table.map (·.1)) :
    escapeBy table c = [c] := by
  rcases escapeBy_cases table c with ⟨-, he⟩ | ⟨d, hm, -⟩
  · exact he
  · exact absurd (List.mem_map_of_mem hm) h

/-- One character written in another way wherever it stands. -/
def replaceAll (c : Char) (written : List Char) (cs : List Char) : List Char :=
  cs.flatMap fun d => if d = c then written else [d]

/-- Going through the text once for each character comes to the same, as long as nothing that has been written is
gone over again. -/
theorem foldl_replaceAll {table : List (Char × Char)} (h : table.Pairwise fun a b => b.1 ≠ '\\' ∧ b.1 ≠ a.2)
    (cs : List Char) :
    table.foldl (fun cs p => replaceAll p.1 ['\\', p.2] cs) cs = cs.flatMap (escapeBy table) := by
  induction table generalizing cs with
  | nil => exact (List.flatMap_singleton' cs).symm
  | cons p table ih =>
    obtain ⟨hp, ht⟩ := List.pairwise_cons.mp h
    have hb : '\\' ∉ table.map (·.1) := fun hm => by
      obtain ⟨q, hq, he⟩ := List.mem_map.mp hm
      exact (hp q hq).1 he
    have hd : p.2 ∉ table.map (·.1) := fun hm => by
      obtain ⟨q, hq, he⟩ := List.mem_map.mp hm
      exact (hp q hq).2 he
    rw [List.foldl_cons, ih ht, replaceAll, List.flatMap_assoc]
    refine List.flatMap_congr fun c _ => ?_
    rw [escapeBy_cons]
    split
    · rw [List.flatMap_cons, List.flatMap_singleton, escapeBy_of_not_mem hb, escapeBy_of_not_mem hd]
      rfl
    · exact List.flatMap_singleton ..

/-- How a language writes string literals: the quote on either side, and the characters that it writes behind a
backslash, each with what is written for it. -/
structure Escapes where
  quote : Char
  table : List (Char × Char)
  nodup : (table.map (·.1)).Nodup := by decide
  backslash_mem : '\\' ∈ table.map (·.1) := by decide
  quote_mem : quote ∈ table.map (·.1) := by decide
  break_ne_quote : '\n' ≠ quote := by decide
  backslash_ne_quote : '\\' ≠ quote := by decide
  break_mem : '\n' ∈ table.map (·.1) := by decide
  unbroken : '\n' ∉ table.map (·.2) := by decide
  ordered : table.Pairwise fun a b => b.1 ≠ '\\' ∧ b.1 ≠ a.2 := by decide

def dartEscapes : Escapes where
  quote := '\''
  table := [('\\', '\\'), ('\'', '\''), ('$', '$'), ('\n', 'n')]

def swiftEscapes : Escapes where
  quote := '"'
  table := [('\\', '\\'), ('"', '"'), ('\n', 'n')]

namespace Escapes
variable (e : Escapes)

def write (s : String) : String :=
  String.ofList (e.quote :: s.toList.flatMap (escapeBy e.table) ++ [e.quote])

theorem toList_write (s : String) : (e.write s).toList = e.quote :: s.toList.flatMap (escapeBy e.table) ++ [e.quote] :=
  String.toList_ofList

theorem escapeBy_of_mem {c d : Char} (h : (c, d) ∈ e.table) : escapeBy e.table c = ['\\', d] := by
  rcases escapeBy_cases e.table c with ⟨hn, -⟩ | ⟨d', hm, he⟩
  · exact absurd (List.mem_map_of_mem h) hn
  · cases List.inj_on_of_nodup_map e.nodup h hm rfl
    exact he

theorem break_not_mem_escapeBy (c : Char) : '\n' ∉ escapeBy e.table c := by
  intro hn
  rcases escapeBy_cases e.table c with ⟨hc, he⟩ | ⟨d, hm, he⟩ <;> rw [he] at hn
  · exact hc (List.mem_singleton.mp hn ▸ e.break_mem)
  · rcases List.mem_cons.mp hn with hb | hd
    · cases hb
    · exact e.unbroken (List.mem_singleton.mp hd ▸ List.mem_map_of_mem hm)

/-- A character that has no part in escaping is in what is written where it is in the text. -/
theorem mem_escapeBy {c d : Char} (hk : c ∉ e.table.map (·.1)) (hv : c ∉ e.table.map (·.2)) :
    c ∈ escapeBy e.table d ↔ c = d := by
  rcases escapeBy_cases e.table d with ⟨-, he⟩ | ⟨d', hm, he⟩
  · rw [he, List.mem_singleton]
  · have hb : c ≠ '\\' := fun h => hk (h ▸ e.backslash_mem)
    have hd : c ≠ d' := fun h => hv (h ▸ List.mem_map_of_mem hm)
    have hc : c ≠ d := fun h => hk (h ▸ List.mem_map_of_mem hm)
    simp [he, hb, hd, hc]

theorem break_not_mem_write (s : String) : '\n' ∉ (e.write s).toList := by
  have hs : '\n' ∉ s.toList.flatMap (escapeBy e.table) := fun hm => by
    obtain ⟨c, -, hc⟩ := List.mem_flatMap.mp hm
    exact e.break_not_mem_escapeBy c hc
  rw [toList_write]
  simp [e.break_ne_quote, hs]

theorem write_eq_replaceAll (s : String) : e.write s =
    String.ofList (e.quote :: e.table.foldl (fun cs p => replaceAll p.1 ['\\', p.2] cs) s.toList ++ [e.quote]) := by
  rw [foldl_replaceAll e.ordered, write]

end Escapes

theorem escapeDartChar_eq : escapeDartChar = escapeBy dartEscapes.table := by
  funext c
  simp only [dartEscapes, escapeBy_cons]
  rfl

theorem escapeSwiftChar_eq : escapeSwiftChar = escapeBy swiftEscapes.table := by
  funext c
  simp only [swiftEscapes, escapeBy_cons]
  rfl

theorem dart_eq : dart = dartEscapes.write := by
  funext s
  rw [← String.toList_inj, Escapes.toList_write, ← escapeDartChar_eq]
  simp [dart, dartEscapes]

theorem swift_eq : swift = swiftEscapes.write := by
  funext s
  rw [← String.toList_inj, Escapes.toList_write, ← escapeSwiftChar_eq]
  simp [swift, swiftEscapes]

end SceneCode.Text
