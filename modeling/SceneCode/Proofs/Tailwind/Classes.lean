import SceneCode.Proofs.ClassPrefix.Chunks
import SceneCode.Proofs.Target.Keys
import SceneCode.Proofs.Tailwind.Tidy
import SceneCode.Proofs.Text.Characters

namespace SceneCode.Tailwind
open ClassPrefix (IsWord IsClass Clean Garbled Closed markClass join_cons join_append join_splitOn unquoted_join)
open Text (isBlank)

/-- The classes in some values, one space apart. -/
def wordsOf (values : List String) : List (List Char) :=
  (values.filter (!·.isEmpty)).flatMap (·.toList.splitOn ' ')

def classesOf (s : Styles) : List (List Char) :=
  wordsOf (s.entries.map (·.2))

def valueOf (s : Styles) : List Char :=
  Text.join [' '] (classesOf s)

/-- Every class has the mark. -/
def markedOf (mark : List Char) (s : Styles) : List Char :=
  Text.join [' '] ((classesOf s).map (markClass mark))

/-- The attributes of a style map with a mark on every class. -/
def markedAttributes (mark : String) (jsx : Bool) (s : Styles) : String :=
  if (classesOf s).isEmpty then ""
  else (if jsx then "className" else "class") ++ "=\"" ++ String.ofList (markedOf mark.toList s) ++ "\""

theorem wordsOf_append (us vs : List String) : wordsOf (us ++ vs) = wordsOf us ++ wordsOf vs := by
  simp [wordsOf]

theorem wordsOf_cons {v : String} (h : v ≠ "") (vs : List String) :
    wordsOf (v :: vs) = v.toList.splitOn ' ' ++ wordsOf vs := by
  simp [wordsOf, h]

theorem wordsOf_isEmpty (vs : List String) : (wordsOf vs).isEmpty = (vs.filter (!·.isEmpty)).isEmpty := by
  unfold wordsOf
  cases vs.filter (!·.isEmpty) with
  | nil => rfl
  | cons v vs => simp [List.splitOn_ne_nil]

theorem join_wordsOf (vs : List String) :
    Text.join [' '] (wordsOf vs) = (" ".intercalate (vs.filter (!·.isEmpty))).toList := by
  unfold wordsOf
  rw [String.toList_intercalate]
  induction vs.filter (!·.isEmpty) with
  | nil => rfl
  | cons v vs ih =>
    have hj : Text.join [' '] (v.toList.splitOn ' ') = v.toList := join_splitOn ' ' v.toList
    cases vs with
    | nil => simpa using hj
    | cons u us =>
      have hn : (u :: us).flatMap (·.toList.splitOn ' ') ≠ [] := by simp [List.splitOn_ne_nil]
      rw [List.flatMap_cons, join_append _ (List.splitOn_ne_nil _ _) hn, ih, hj]
      exact (join_cons [' '] v.toList (by simp)).symm

theorem attributes_eq (jsx : Bool) (s : Styles) : attributes jsx s =
    if (classesOf s).isEmpty then ""
    else (if jsx then "className" else "class") ++ "=\"" ++ String.ofList (valueOf s) ++ "\"" := by
  rw [valueOf, classesOf, wordsOf_isEmpty, join_wordsOf, String.ofList_toList]
  rfl

/-- All classes are words without quotes. -/
def Sound (s : Styles) : Prop :=
  ∀ w ∈ classesOf s, IsClass w

/-- One class is a font family. The others are words without quotes, and some follow it. -/
def Typed (family : String) (s : Styles) : Prop :=
  ∃ us ws : List (List Char), classesOf s = us ++ (fontFamily family).toList :: ws ∧ (∀ w ∈ us, IsClass w) ∧
    ws ≠ [] ∧ ∀ w ∈ ws, IsClass w

/-- Without quotes, and without white space but spaces. -/
def Fits (family : String) : Prop :=
  ∀ c ∈ family.toList, c ≠ '"' ∧ (isBlank c = true → c = ' ')

theorem isClass_of_tidy {vs : List String} (h : ∀ v ∈ vs, Tidy v) : ∀ w ∈ wordsOf vs, IsClass w := by
  intro w hw
  obtain ⟨v, hv, hw⟩ := List.mem_flatMap.mp hw
  simp only [List.mem_filter] at hv
  rcases h v hv.1 with rfl | h
  · simp at hv
  · exact h w hw

theorem toList_fontFamily (family : String) : (fontFamily family).toList =
    "font-['".toList ++ family.toList.map (fun c => if c = ' ' then '_' else c) ++ ['\'', ']'] := by
  simp [fontFamily]

theorem space_not_mem_fontFamily (family : String) : ' ' ∉ (fontFamily family).toList := by
  rw [toList_fontFamily]
  simp only [List.mem_append, List.mem_map, not_or, not_exists, not_and]
  refine ⟨⟨by decide, fun c _ => ?_⟩, by decide⟩
  split
  · decide
  · assumption

theorem mem_fontFamily {family : String} {c : Char} (h : c ∈ family.toList) (hs : c ≠ ' ') :
    c ∈ (fontFamily family).toList := by
  rw [toList_fontFamily]
  exact List.mem_append_left _ (List.mem_append_right _ (List.mem_map.mpr ⟨c, h, if_neg hs⟩))

theorem markClass_fontFamily (mark : List Char) (family : String) :
    markClass mark (fontFamily family).toList = mark ++ (fontFamily family).toList := by
  rw [toList_fontFamily]
  rfl

theorem Fits.isClass {family : String} (h : Fits family) : IsClass (fontFamily family).toList := by
  refine isClass_of_plain (by simp [fontFamily]) fun c hc => ?_
  rw [toList_fontFamily, List.mem_append, List.mem_append] at hc
  have hl : Plain "font-['" := by decide
  have hr : Plain "']" := by decide
  rcases hc with (hc | hc) | hc
  · exact hl c hc
  · obtain ⟨d, hd, rfl⟩ := List.mem_map.mp hc
    split
    · decide
    · rename_i hs
      have hf := h d hd
      have hb : isBlank d = false := by
        cases hb : isBlank d with
        | false => rfl
        | true => exact absurd (hf.2 hb) hs
      simp [isClassChar, hb, hf.1]
  · exact hr c hc

theorem exists_of_not_fits {family : String} (h : ¬Fits family) :
    ∃ c ∈ (fontFamily family).toList, c = '"' ∨ (isBlank c = true ∧ c ≠ ' ') := by
  simp only [Fits, Classical.not_forall] at h
  obtain ⟨c, hc, hf⟩ := h
  by_cases hq : c = '"'
  · exact ⟨c, mem_fontFamily hc (by simp [hq]), .inl hq⟩
  · simp only [ne_eq, hq, not_false_eq_true, true_and, Classical.not_imp] at hf
    exact ⟨c, mem_fontFamily hc hf.2, .inr hf⟩

/-- Words with a space behind each. -/
def spaced (ws : List (List Char)) : List Char :=
  ws.flatMap (· ++ [' '])

theorem join_spaced (us : List (List Char)) (f : List Char) {ws : List (List Char)} (hw : ws ≠ []) :
    Text.join [' '] (us ++ f :: ws) = spaced us ++ f ++ ' ' :: Text.join [' '] ws := by
  induction us with
  | nil =>
    rw [List.nil_append, join_cons [' '] f hw]
    rfl
  | cons u us ih =>
    rw [List.cons_append, join_cons [' '] u (by simp), ih]
    simp [spaced]

theorem unquoted_spaced {ws : List (List Char)} (h : ∀ w ∈ ws, '"' ∉ w) : '"' ∉ spaced ws := by
  intro hq
  obtain ⟨w, hw, hq⟩ := List.mem_flatMap.mp hq
  simp [h w hw] at hq

theorem markClass_sublist (mark w : List Char) : w.Sublist (markClass mark w) := by
  unfold markClass
  split
  · exact (List.sublist_append_right mark _).cons_cons _
  · exact List.sublist_append_right mark _

theorem spaced_sublist (mark : List Char) (ws : List (List Char)) :
    (spaced ws).Sublist (spaced (ws.map (markClass mark))) := by
  induction ws with
  | nil => exact .slnil
  | cons w ws ih => exact ((markClass_sublist mark w).append (List.Sublist.refl _)).append ih

section
variable {mark : List Char} {s : Styles}

theorem Sound.clean (h : Sound s) (mark : List Char) :
    Clean mark (valueOf s) (markedOf mark s) :=
  ⟨classesOf s, h, rfl, rfl⟩

theorem Typed.sound {family : String} (h : Typed family s) (hf : Fits family) : Sound s := by
  obtain ⟨us, ws, he, hu, -, hw⟩ := h
  intro w hm
  rw [he, List.mem_append, List.mem_cons] at hm
  rcases hm with hm | rfl | hm
  · exact hu w hm
  · exact hf.isClass
  · exact hw w hm

/-- A font family that does not fit spoils its attribute. -/
theorem Typed.garbled {family : String} (h : Typed family s) (hq : '"' ∉ mark) (hf : ¬Fits family) :
    Garbled mark (valueOf s) (markedOf mark s) := by
  obtain ⟨us, ws, he, hu, hn, hw⟩ := h
  have huq : '"' ∉ spaced us := unquoted_spaced fun w hm => (hu w hm).2
  have huq' : '"' ∉ spaced (us.map (markClass mark)) := unquoted_spaced fun w hm => by
    obtain ⟨v, hv, rfl⟩ := List.mem_map.mp hm
    simp [ClassPrefix.mem_markClass, hq, (hu v hv).2]
  have hv := join_spaced us (fontFamily family).toList hn
  have hn' : ws.map (markClass mark) ≠ [] := by simpa using hn
  have hv' := join_spaced (us.map (markClass mark)) (mark ++ (fontFamily family).toList) hn'
  rw [valueOf, markedOf, he, List.map_append, List.map_cons, markClass_fontFamily, hv, hv']
  have hs := space_not_mem_fontFamily family
  have hlast : ∃ cs, (fontFamily family).toList = cs ++ [']'] := ⟨_, by
    rw [toList_fontFamily]
    exact (List.append_assoc _ ['\''] [']']).symm⟩
  have hex := exists_of_not_fits hf
  generalize (fontFamily family).toList = f at hs hlast hex ⊢
  by_cases hfq : '"' ∈ f
  · obtain ⟨front, rest, rfl, hr⟩ := Text.exists_last hfq
    refine ⟨spaced us ++ front ++ ['"'], spaced (us.map (markClass mark)) ++ (mark ++ front) ++ ['"'], rest, rest, ws,
      .quote ?_, hr, hr, List.Sublist.refl _, ?_, hn, hw, by simp, by simp⟩
    · simp [List.count_append, List.count_eq_zero.mpr, huq, huq', hq]
    · by_cases hb : ∃ c ∈ rest, isBlank c = true
      · obtain ⟨c, hc, hb⟩ := hb
        refine .inl ⟨c, hc, hb, ?_⟩
        rintro rfl
        exact hs (by simp [hc])
      · refine .inr ⟨rfl, ?_, fun c hc => by simpa using fun h => hb ⟨c, hc, h⟩⟩
        rintro rfl
        obtain ⟨cs, hcs⟩ := hlast
        have hl := congrArg List.getLast? hcs
        simp at hl
  · have hblank : ∃ c ∈ f, isBlank c = true ∧ c ≠ ' ' := by
      obtain ⟨c, hc, rfl | hb⟩ := hex
      · exact absurd hc hfq
      · exact ⟨c, hc, hb⟩
    obtain ⟨c, hc, hb⟩ := hblank
    exact ⟨[], [], spaced us ++ f, spaced (us.map (markClass mark)) ++ (mark ++ f), ws, .nil, by simp [huq, hfq],
      by simp [huq', hq, hfq], (spaced_sublist mark us).append (List.sublist_append_right _ _),
      .inl ⟨c, by simp [hc], hb⟩, hn, hw, by simp, by simp⟩

/-- Marking a style map comes out right, or it comes out wrong in a way that shows. -/
def Marks (mark : List Char) (s : Styles) : Prop :=
  Clean mark (valueOf s) (markedOf mark s) ∨ Garbled mark (valueOf s) (markedOf mark s)

theorem Typed.marks {family : String} (h : Typed family s) (hq : '"' ∉ mark) : Marks mark s := by
  by_cases hf : Fits family
  · exact .inl ((h.sound hf).clean mark)
  · exact .inr (h.garbled hq hf)

end

end SceneCode.Tailwind
