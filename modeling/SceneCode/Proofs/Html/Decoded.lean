import SceneCode.Proofs.Html.Declarations
import SceneCode.Proofs.Html.Keys
import SceneCode.Proofs.Html.Values
import SceneCode.Proofs.Script.Cost
import SceneCode.Proofs.Style.Typed

namespace SceneCode
open Script (isFaithful)

namespace Html

/-- A key and its value as an object holds them. -/
def objectEntry (e : String × String) : Script.Entry :=
  (camel e.1.toList, Script.units e.2.toList)

/-- An entry with its key as it is written. -/
def keyed (e : String × String) : List Char × List Char :=
  ((objectKey e.1).toList, e.2.toList)

theorem toList_entries {es : List (String × String)} (hn : es ≠ []) :
    (", ".intercalate (es.map entryText)).toList ++ ['\x7d', '\x7d'] = Script.written (es.map keyed) := by
  have hc : ": '".toList = [':', ' ', '\''] := by decide
  have hs : ", ".toList = [',', ' '] := by decide
  induction es with
  | nil => exact absurd rfl hn
  | cons e es ih =>
    cases hes : es.isEmpty with
    | true =>
      obtain rfl := List.isEmpty_iff.mp hes
      simp [toList_entryText, opened, Script.written, Script.quoted, keyed, hc]
    | false =>
      have hne := List.isEmpty_eq_false_iff.mp hes
      have hm : es.map entryText ≠ [] := by simpa using hne
      have hi := ih hne
      rw [List.map_cons, String.intercalate_cons_of_ne_nil hm, String.toList_append, String.toList_append,
        List.append_assoc, hi, List.map_cons, Script.written]
      simp [toList_entryText, opened, Script.quoted, keyed, hc, hs, hne]

/-- A style object is read back if and only if all its values are faithful. -/
theorem object?_iff {s : Styles} (hk : ∀ e ∈ s.entries, Script.IsName (objectKey e.1).toList) :
    Script.object? (attributes true s) = some (s.entries.map fun e => Script.entryOf (keyed e)) ↔
      ∀ e ∈ s.entries, ∀ c ∈ e.2.toList, isFaithful c = true := by
  by_cases hs : s.isEmpty = true
  · have he : attributes true s = "" := if_pos hs
    have hn : s.entries = [] := List.isEmpty_iff.mp hs
    rw [he, hn]
    exact ⟨fun _ => List.forall_mem_nil _, fun _ => rfl⟩
  · have he : attributes true s = "style=\x7b\x7b" ++ ", ".intercalate (s.entries.map entryText) ++ "\x7d\x7d" := if_neg hs
    have hb : "\x7d\x7d".toList = ['\x7d', '\x7d'] := by decide
    have hw : (attributes true s).toList = "style=\x7b\x7b".toList ++ Script.written (s.entries.map keyed) := by
      rw [he, String.toList_append, String.toList_append, hb, List.append_assoc, toList_entries (entries_ne_nil hs)]
    have hr : Script.object? (attributes true s) = Script.entries? (Script.written (s.entries.map keyed)) := by
      simp only [Script.object?, hw]
      simp
    have hm : s.entries.map (fun e => Script.entryOf (keyed e)) = (s.entries.map keyed).map Script.entryOf := by
      rw [List.map_map]
      rfl
    have hn : ∀ p ∈ s.entries.map keyed, Script.IsName p.1 := by
      intro p hp
      obtain ⟨e, he, rfl⟩ := List.mem_map.mp hp
      dsimp only [keyed]
      exact hk e he
    rw [hr, hm, Script.entries?_written_iff hn, List.forall_mem_map]
    simp only [keyed]

section Looks
variable {jsx : Bool} {look : List Aspect}

theorem isKeyChar_of_mem_entries : ∀ e ∈ ((Target.html jsx).styles look).entries, ∀ c ∈ e.1.toList, isKeyChar c = true := by
  intro e he
  obtain ⟨a, -, d, hd, rfl⟩ := Target.exists_of_mem_entries he
  exact isKeyChar_of_mem a d.key ((Target.html jsx).key_mem_keysOf a hd)

theorem isName_of_mem_entries :
    ∀ e ∈ ((Target.html jsx).styles look).entries, Script.IsName (objectKey e.1).toList := by
  intro e he
  obtain ⟨a, -, d, hd, rfl⟩ := Target.exists_of_mem_entries he
  exact isName_objectKey ((Target.html jsx).key_mem_keysOf a hd)

/-- What holds of all mild values holds of the values of a look if it holds of the families of its runs. -/
theorem forall_values_iff {P : String → Prop} (hP : ∀ v, Mild v → P v) (hl : (Aspect.runs look).length ≤ 1) :
    (∀ e ∈ ((Target.html jsx).styles look).entries, P e.2) ↔ ∀ run ∈ Aspect.runs look, P run.fontName.family := by
  constructor
  · intro h run hr
    obtain ⟨fill, hm⟩ := Aspect.mem_runs.mp hr
    have hg : ((Target.html jsx).styles look).get? "font-family" = some run.fontName.family := by
      apply Target.get?_styles_of_forall hm
      · exact family_mem run fill
      · intro a ha d hd hk
        obtain ⟨run', fill', rfl, hv⟩ := value_of_family hd hk
        have hr' : run' ∈ Aspect.runs look := Aspect.mem_runs.mpr ⟨fill', ha⟩
        obtain ⟨only, ho⟩ : ∃ only, Aspect.runs look = [only] := by
          apply List.length_eq_one_iff.mp
          have hp := List.length_pos_of_mem hr
          omega
        rw [ho, List.mem_singleton] at hr hr'
        rw [hv, hr', hr]
    exact h _ (Styles.mem_entries_of_get? hg)
  · intro h e he
    obtain ⟨a, ha, d, hd, rfl⟩ := Target.exists_of_mem_entries he
    rcases mild_or_family hd with hm | ⟨run, fill, rfl, hv⟩
    · exact hP _ hm
    · dsimp only
      rw [hv]
      exact h run (Aspect.mem_runs.mpr ⟨fill, ha⟩)

end Looks

/-- What holds of all mild values holds of all values in a scene if and only if it holds of the families. -/
theorem forall_families_iff {P : String → Prop} (hP : ∀ v, Mild v → P v) (jsx : Bool) (ps : List (Piece Float)) :
    (∀ m ∈ Element.stylesInAll ((Target.html jsx).elements ps), ∀ e ∈ m.entries, P e.2) ↔
      ∀ run ∈ Piece.runsAll ps, P run.fontName.family := by
  obtain ⟨looks, hs, hr, hl⟩ := (Target.html jsx).typesets_elements ps
  rw [hs, ← hr, List.forall_mem_map]
  constructor
  · intro h run hm
    obtain ⟨look, hk, hm⟩ := List.mem_flatMap.mp hm
    exact (forall_values_iff hP (hl look hk)).mp (h look hk) run hm
  · intro h look hk
    apply (forall_values_iff hP (hl look hk)).mpr
    intro run hm
    exact h run (List.mem_flatMap.mpr ⟨look, hk, hm⟩)

theorem Mild.not_mem {v : String} (h : Mild v) {c : Char} (hc : isStyleChar c = false) : c ∉ v.toList := by
  intro hm
  rw [h c hm] at hc
  cases hc

theorem Mild.faithful {v : String} (h : Mild v) : ∀ c ∈ v.toList, isFaithful c = true := by
  intro c hc
  simp only [isFaithful, Bool.and_eq_true, bne_iff_ne]
  refine ⟨⟨?_, ?_⟩, ?_⟩ <;> (intro he; exact h.not_mem (by decide) (he ▸ hc))

theorem object_entries {jsx : Bool} {look : List Aspect} :
    ((Target.html jsx).styles look).entries.map objectEntry =
      ((Target.html jsx).styles look).entries.map fun e => Script.entryOf (keyed e) := by
  apply List.map_congr_left
  intro e he
  obtain ⟨a, -, d, hd, rfl⟩ := Target.exists_of_mem_entries he
  have hk := isKeyChar_of_mem a d.key ((Target.html jsx).key_mem_keysOf a hd)
  rw [objectEntry, Script.entryOf, keyed, toList_objectKey hk]

end Html

/-- In every scene the style attributes decode to the style maps, with their properties in order and all values as they
were set, if and only if no font family holds what they cannot: in plain markup a semicolon, which ends a declaration,
and in JSX a backslash or a line break, which an object leaves unescaped. -/
theorem style_attributes_decode_iff (optimize : Bool) (nodes : List Node) :
    let runs := Piece.runsAll (Scene.pieces optimize nodes)
    let maps (jsx : Bool) := Element.stylesInAll ((Target.html jsx).walkAll optimize .top nodes)
    ((∀ m ∈ maps false, Html.style? (Html.attributes false m) = some m.entries) ↔
      ∀ run ∈ runs, ';' ∉ run.fontName.family.toList) ∧
    ((∀ m ∈ maps true, Script.object? (Html.attributes true m) = some (m.entries.map Html.objectEntry)) ↔
      ∀ run ∈ runs, ∀ c ∈ run.fontName.family.toList, isFaithful c = true) := by
  intro runs maps
  have hm (jsx : Bool) : maps jsx = Element.stylesInAll ((Target.html jsx).elements (Scene.pieces optimize nodes)) := by
    simp only [maps, Target.walkAll_eq_elements]
    rfl
  constructor
  · rw [← Html.forall_families_iff (fun v hv => hv.not_mem (by decide)) false, ← hm]
    apply forall₂_congr
    intro m hs
    rw [hm] at hs
    obtain ⟨look, rfl⟩ := (Target.html false).stylesIn_elements _ m hs
    exact Html.style?_iff Html.isKeyChar_of_mem_entries
  · rw [← Html.forall_families_iff (fun v hv => hv.faithful) true, ← hm]
    apply forall₂_congr
    intro m hs
    rw [hm] at hs
    obtain ⟨look, rfl⟩ := (Target.html true).stylesIn_elements _ m hs
    rw [Html.object_entries]
    exact Html.object?_iff Html.isName_of_mem_entries

end SceneCode
