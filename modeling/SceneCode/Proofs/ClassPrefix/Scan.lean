import Mathlib.Data.List.Basic
import SceneCode.ClassPrefix

/-! Marking seen from the quotes. Between two quotes nothing starts a class attribute but the end of the stretch, so a
text is marked stretch by stretch. -/
namespace SceneCode.ClassPrefix
open Text (isBlank)

/-- The openings without their quote. -/
def openingWords : List (List Char) :=
  ["className=".toList, "class=".toList]

/-- Whether a stretch without quotes ends as a class attribute starts; `mayStart` as for marking. -/
def opens (mayStart : Bool) : List Char → Bool
  | [] => false
  | c :: cs => (mayStart && openingWords.contains (c :: cs)) || opens (isBlank c) cs

/-- The stretches between the quotes of a marked text. One that follows an opening is a value if a quote closes it. -/
def markStretches (mark : List Char) (mayStart : Bool) : List (List Char) → List (List Char)
  | s :: v :: t :: rest =>
    if opens mayStart s then s :: markValue mark v :: markStretches mark false (t :: rest)
    else s :: markStretches mark false (v :: t :: rest)
  | stretches => stretches

theorem openings_eq : openings = openingWords.map (· ++ ['"']) := by
  decide

theorem quote_beq_false {c : Char} {s : List Char} (h : '"' ∉ c :: s) : ('"' == c) = false :=
  beq_false_of_ne (List.ne_of_not_mem_cons h)

theorem isPrefixOf?_quoted {word s : List Char} (hw : '"' ∉ word) (hs : '"' ∉ s) (rest : List Char) :
    (word ++ ['"']).isPrefixOf? (s ++ '"' :: rest) = if s = word then some rest else none := by
  induction word generalizing s with
  | nil =>
    cases s with
    | nil => simp [List.isPrefixOf?]
    | cons c s => simp [List.isPrefixOf?, quote_beq_false hs]
  | cons d word ih =>
    simp only [List.mem_cons, not_or] at hw
    cases s with
    | nil =>
      have hd : (d == '"') = false := by simpa using Ne.symm hw.1
      simp [List.isPrefixOf?, hd]
    | cons c s =>
      simp only [List.mem_cons, not_or] at hs
      by_cases hc : d = c
      · subst hc
        simp [List.isPrefixOf?, ih hw.2 hs.2]
      · have hb : (d == c) = false := beq_false_of_ne hc
        simp [List.isPrefixOf?, hb, Ne.symm hc]

theorem isPrefixOf?_unquoted {word s : List Char} (hs : '"' ∉ s) : (word ++ ['"']).isPrefixOf? s = none := by
  induction word generalizing s with
  | nil =>
    cases s with
    | nil => rfl
    | cons c s => simp [List.isPrefixOf?, quote_beq_false hs]
  | cons d word ih =>
    cases s with
    | nil => rfl
    | cons c s =>
      simp only [List.mem_cons, not_or] at hs
      simp [List.isPrefixOf?, ih hs.2]

theorem openingWords_unquoted : ∀ word ∈ openingWords, '"' ∉ word := by
  decide

/-- What follows an opening is its value if a quote closes it. -/
def valueAt? (opening behind : List Char) : Option Attribute :=
  match behind.dropWhile (· != '"') with
  | [] => none
  | _ :: rest => some ⟨opening, behind.takeWhile (· != '"'), rest⟩

theorem opened?_eq (opening cs : List Char) :
    opened? opening cs = (opening.isPrefixOf? cs).bind (valueAt? opening) :=
  rfl

theorem attribute?_quoted {s : List Char} (hs : '"' ∉ s) (rest : List Char) :
    attribute? (s ++ '"' :: rest) = if openingWords.contains s then valueAt? (s ++ ['"']) rest else none := by
  have h : ∀ words : List (List Char), (∀ word ∈ words, '"' ∉ word) →
      (words.map (· ++ ['"'])).findSome? (opened? · (s ++ '"' :: rest)) =
        if words.contains s then valueAt? (s ++ ['"']) rest else none := by
    intro words hw
    induction words with
    | nil => rfl
    | cons word words ih =>
      have hi := ih fun w hm => hw w (by simp [hm])
      rw [List.map_cons, List.findSome?_cons, opened?_eq, isPrefixOf?_quoted (hw word (by simp)) hs, hi]
      by_cases he : s = word
      · subst he
        cases hv : valueAt? (s ++ ['"']) rest <;> simp [hv]
      · simp [he]
  rw [attribute?, openings_eq, h openingWords openingWords_unquoted]

theorem attribute?_unquoted {s : List Char} (hs : '"' ∉ s) : attribute? s = none := by
  rw [attribute?, openings_eq, List.findSome?_eq_none_iff]
  intro opening ho
  obtain ⟨word, -, rfl⟩ := List.mem_map.mp ho
  rw [opened?_eq, isPrefixOf?_unquoted hs]
  rfl

theorem valueAt?_quoted {v : List Char} (hv : '"' ∉ v) (opening rest : List Char) :
    valueAt? opening (v ++ '"' :: rest) = some ⟨opening, v, rest⟩ := by
  have hp : ∀ c ∈ v, (c != '"') = true := fun c hc => by
    simpa using fun h : c = '"' => hv (h ▸ hc)
  have hd : (v ++ '"' :: rest).dropWhile (· != '"') = '"' :: rest := by
    rw [List.dropWhile_append_of_pos hp]
    rfl
  have ht : (v ++ '"' :: rest).takeWhile (· != '"') = v := by
    rw [List.takeWhile_append_of_pos hp]
    simp
  simp [valueAt?, hd, ht]

theorem valueAt?_unquoted {v : List Char} (hv : '"' ∉ v) (opening : List Char) : valueAt? opening v = none := by
  have hp : ∀ c ∈ v, (c != '"') = true := fun c hc => by
    simpa using fun h : c = '"' => hv (h ▸ hc)
  have hd : v.dropWhile (· != '"') = [] := by
    have ha : (v ++ []).dropWhile (· != '"') = [] := List.dropWhile_append_of_pos hp
    simpa using ha
  simp [valueAt?, hd]

variable {mark : List Char}

theorem markFrom_none {b : Bool} {c : Char} {cs : List Char} (h : (if b then attribute? (c :: cs) else none) = none) :
    markFrom mark b (c :: cs) = c :: markFrom mark (isBlank c) cs := by
  rw [markFrom]
  split
  · rename_i a ha
    rw [h] at ha
    cases ha
  · rfl

theorem markFrom_some {b : Bool} {c : Char} {cs : List Char} {a : Attribute}
    (h : (if b then attribute? (c :: cs) else none) = some a) :
    markFrom mark b (c :: cs) = a.opening ++ markValue mark a.value ++ '"' :: markFrom mark false a.rest := by
  rw [markFrom]
  split
  · rename_i a' ha
    rw [h] at ha
    cases ha
    rfl
  · rename_i hn
    rw [h] at hn
    cases hn

theorem markFrom_unquoted {s : List Char} (hs : '"' ∉ s) (b : Bool) : markFrom mark b s = s := by
  induction s generalizing b with
  | nil => rw [markFrom]
  | cons c s ih =>
    rw [markFrom_none (by simp [attribute?_unquoted hs]), ih (by simp_all)]

/-- A stretch that opens nothing, or opens what no quote closes, stays as it is. -/
theorem markFrom_quoted {s : List Char} (hs : '"' ∉ s) {b : Bool} {rest : List Char}
    (h : opens b s = false ∨ '"' ∉ rest) : markFrom mark b (s ++ '"' :: rest) = s ++ '"' :: markFrom mark false rest := by
  induction s generalizing b with
  | nil =>
    have hq : (if b then attribute? ('"' :: rest) else none) = none := by
      have h0 := attribute?_quoted (s := []) (by simp) rest
      simp only [List.nil_append] at h0
      cases b <;> simp [h0, openingWords]
    rw [List.nil_append, markFrom_none hq]
    rfl
  | cons c s ih =>
    have hn : (if b then attribute? (c :: (s ++ '"' :: rest)) else none) = none := by
      have h0 := attribute?_quoted hs rest
      rw [List.cons_append] at h0
      rw [h0]
      rcases h with h | h
      · cases b <;> simp_all [opens]
      · simp [valueAt?_unquoted h]
    have hi : opens (isBlank c) s = false ∨ '"' ∉ rest := h.imp_left fun h => by simp_all [opens]
    rw [List.cons_append, markFrom_none hn, ih (by simp_all) hi, List.cons_append]

/-- A stretch that opens a class attribute has the stretch behind it marked. -/
theorem markFrom_opened {s v : List Char} (hs : '"' ∉ s) (hv : '"' ∉ v) {b : Bool} (h : opens b s = true)
    (rest : List Char) : markFrom mark b (s ++ '"' :: (v ++ '"' :: rest)) =
      s ++ '"' :: (markValue mark v ++ '"' :: markFrom mark false rest) := by
  induction s generalizing b with
  | nil => cases h
  | cons c s ih =>
    have h0 := attribute?_quoted hs (v ++ '"' :: rest)
    rw [valueAt?_quoted hv, List.cons_append] at h0
    by_cases ho : (b && openingWords.contains (c :: s)) = true
    · have ha : (if b then attribute? (c :: (s ++ '"' :: (v ++ '"' :: rest))) else none) =
          some ⟨c :: s ++ ['"'], v, rest⟩ := by
        rw [h0]
        simp_all
      rw [List.cons_append, markFrom_some ha]
      simp
    · have hn : (if b then attribute? (c :: (s ++ '"' :: (v ++ '"' :: rest))) else none) = none := by
        rw [h0]
        cases b <;> simp_all
      have hi : opens (isBlank c) s = true := by
        simp only [opens, Bool.or_eq_true] at h
        exact h.resolve_left ho
      rw [List.cons_append, markFrom_none hn, ih (by simp_all) hi, List.cons_append]

theorem join_singleton (separator s : List Char) : Text.join separator [s] = s :=
  List.intercalate_singleton

theorem join_cons (separator s : List Char) {parts : List (List Char)} (h : parts ≠ []) :
    Text.join separator (s :: parts) = s ++ (separator ++ Text.join separator parts) :=
  (List.intercalate_cons_of_ne_nil h).trans (List.append_assoc ..)

theorem markStretches_ne_nil {b : Bool} {stretches : List (List Char)} (h : stretches ≠ []) :
    markStretches mark b stretches ≠ [] := by
  unfold markStretches
  split
  · split <;> simp
  · exact h

/-- A text is marked stretch by stretch. -/
theorem markFrom_join {b : Bool} {stretches : List (List Char)} (h : ∀ s ∈ stretches, '"' ∉ s) :
    markFrom mark b (Text.join ['"'] stretches) = Text.join ['"'] (markStretches mark b stretches) := by
  fun_induction markStretches with
  | case1 b s v t rest ho ih =>
    have hi := ih fun u hu => h u (by simp [hu])
    have hn : markStretches mark false (t :: rest) ≠ [] := markStretches_ne_nil (List.cons_ne_nil _ _)
    have hm : markFrom mark b (s ++ '"' :: (v ++ '"' :: Text.join ['"'] (t :: rest))) = _ :=
      markFrom_opened (h s (by simp)) (h v (by simp)) ho _
    rw [hi] at hm
    simpa [join_cons, hn] using hm
  | case2 b s v t rest ho ih =>
    have hi := ih fun u hu => h u (by simp [hu])
    have hn : markStretches mark false (v :: t :: rest) ≠ [] := markStretches_ne_nil (List.cons_ne_nil _ _)
    have hm : markFrom mark b (s ++ '"' :: Text.join ['"'] (v :: t :: rest)) = _ :=
      markFrom_quoted (h s (by simp)) (.inl (Bool.eq_false_iff.mpr ho))
    rw [hi] at hm
    simpa [join_cons, hn] using hm
  | case3 b stretches hn =>
    rcases stretches with _ | ⟨s, _ | ⟨v, _ | ⟨t, rest⟩⟩⟩
    · exact markFrom_unquoted List.not_mem_nil b
    · rw [join_singleton, markFrom_unquoted (h s (by simp))]
    · have hv : '"' ∉ v := h v (by simp)
      have hm : markFrom mark b (s ++ '"' :: v) = _ := markFrom_quoted (h s (by simp)) (.inr hv)
      rw [markFrom_unquoted hv] at hm
      simpa [join_cons, join_singleton] using hm
    · exact absurd rfl (hn s v t rest)

end SceneCode.ClassPrefix
