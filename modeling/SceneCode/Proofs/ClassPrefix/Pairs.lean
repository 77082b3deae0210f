import SceneCode.Proofs.ClassPrefix.Words
import SceneCode.Text.Lines

namespace SceneCode.ClassPrefix
open Text (isBlank indentChars)

/-- A word without quotes. -/
def IsClass (w : List Char) : Prop :=
  IsWord w ∧ '"' ∉ w

/-- Classes one space apart, and the same with a mark each. -/
def Clean (mark value marked : List Char) : Prop :=
  ∃ ws : List (List Char), (∀ w ∈ ws, IsClass w) ∧ value = Text.join [' '] ws ∧
    marked = Text.join [' '] (ws.map (markClass mark))

/-- Two texts with as many quotes that both end with one, or that are both empty. -/
inductive Closed : List Char → List Char → Prop where
  | nil : Closed [] []
  | quote {front front' : List Char} (h : front.count '"' = front'.count '"') :
    Closed (front ++ ['"']) (front' ++ ['"'])

/-- Behind the last quote stands something that is no class, with classes after it. -/
def Garbled (mark value marked : List Char) : Prop :=
  ∃ (front front' head head' : List Char) (ws : List (List Char)), Closed front front' ∧
    '"' ∉ head ∧ '"' ∉ head' ∧ head.Sublist head' ∧
    ((∃ c ∈ head', isBlank c = true ∧ c ≠ ' ') ∨ (head = head' ∧ IsWord head)) ∧
    ws ≠ [] ∧ (∀ w ∈ ws, IsClass w) ∧
    value = front ++ (head ++ ' ' :: Text.join [' '] ws) ∧
    marked = front' ++ (head' ++ ' ' :: Text.join [' '] (ws.map (markClass mark)))

theorem splitOn_length (c : Char) (cs : List Char) : (cs.splitOn c).length = cs.count c + 1 := by
  induction cs with
  | nil => rfl
  | cons d cs ih =>
    rw [List.splitOn_cons_eq_if_modifyHead, List.count_cons]
    split <;> simp [ih]

theorem Closed.splitOn {front front' : List Char} (h : Closed front front') : ∃ init init' : List (List Char),
    init.length = init'.length ∧ (∀ s, '"' ∉ s → (front ++ s).splitOn '"' = init ++ [s]) ∧
      ∀ s, '"' ∉ s → (front' ++ s).splitOn '"' = init' ++ [s] := by
  have hq (front s : List Char) (hs : '"' ∉ s) : (front ++ ['"'] ++ s).splitOn '"' = front.splitOn '"' ++ [s] := by
    rw [List.append_assoc, List.singleton_append, List.splitOn_append_cons_self, List.splitOn_eq_singleton hs]
  cases h with
  | nil => exact ⟨[], [], rfl, fun s hs => List.splitOn_eq_singleton hs, fun s hs => List.splitOn_eq_singleton hs⟩
  | @quote front front' h =>
    exact ⟨front.splitOn '"', front'.splitOn '"', by simp [splitOn_length, h], hq front, hq front'⟩

theorem unquoted_join {ws : List (List Char)} (h : ∀ w ∈ ws, '"' ∉ w) : '"' ∉ Text.join [' '] ws := by
  intro hq
  rcases mem_join hq with hq | ⟨w, hm, hq⟩
  · simp at hq
  · exact h w hm hq

theorem length_join_markClass (mark : List Char) (ws : List (List Char)) :
    (Text.join [' '] (ws.map (markClass mark))).length =
      (Text.join [' '] ws).length + ws.length * mark.length := by
  induction ws with
  | nil => simp [Text.join]
  | cons w ws ih =>
    cases ws with
    | nil => simp [join_singleton, markClass_length, Nat.add_comm]
    | cons v ws =>
      rw [List.map_cons, join_cons _ _ (by simp), join_cons _ w (by simp)]
      simp only [List.length_append, markClass_length, ih, List.length_cons]
      rw [Nat.add_mul (ws.length + 1) 1]
      omega

section
variable {mark value marked : List Char}

theorem length_join_lt (hn : mark ≠ []) {ws : List (List Char)} (hw : ws ≠ []) :
    (Text.join [' '] ws).length < (Text.join [' '] (ws.map (markClass mark))).length := by
  have hm := Nat.mul_pos (List.length_pos_iff.mpr hw) (List.length_pos_iff.mpr hn)
  have hl := length_join_markClass mark ws
  omega

theorem Clean.markValue_eq (h : Clean mark value marked) : markValue mark value = marked := by
  obtain ⟨ws, hw, rfl, rfl⟩ := h
  exact markValue_words fun w hm => (hw w hm).1

theorem Clean.unquoted (h : Clean mark value marked) : '"' ∉ value := by
  obtain ⟨ws, hw, rfl, -⟩ := h
  exact unquoted_join fun w hm => (hw w hm).2

/-- Whatever is read of a garbled value, the stretch behind its last quote comes out wrong. -/
theorem Garbled.stretch (h : Garbled mark value marked) (hn : mark ≠ []) (hm : ∀ c ∈ mark, isBlank c = false)
    (hq : '"' ∉ mark) : ∃ init init' s s', init.length = init'.length ∧ value.splitOn '"' = init ++ [s] ∧
      marked.splitOn '"' = init' ++ [s'] ∧ s' ≠ s ∧ s' ≠ markValue mark s := by
  obtain ⟨front, front', head, head', ws, hc, hh, hh', hs, hb, hw, hws, rfl, rfl⟩ := h
  obtain ⟨init, init', hl, hsplit, hsplit'⟩ := hc.splitOn
  have hu : '"' ∉ head ++ ' ' :: Text.join [' '] ws := by
    have hj := unquoted_join fun w hw => (hws w hw).2
    simp [hh, hj]
  have hu' : '"' ∉ head' ++ ' ' :: Text.join [' '] (ws.map (markClass mark)) := by
    have hj : '"' ∉ Text.join [' '] (ws.map (markClass mark)) := unquoted_join fun w hw => by
      obtain ⟨v, hv, rfl⟩ := List.mem_map.mp hw
      simp [mem_markClass, hq, (hws v hv).2]
    simp [hh', hj]
  have hlt := length_join_lt hn hw
  refine ⟨init, init', _, _, hl, hsplit _ hu, hsplit' _ hu', fun he => ?_, fun he => ?_⟩
  · have hle := hs.length_le
    have hlen := congrArg List.length he
    simp only [List.length_append, List.length_cons] at hlen
    omega
  · rcases hb with ⟨c, hc, hblank, hne⟩ | ⟨rfl, hword⟩
    · exact hne (blank_of_mem_markValue hm (he ▸ List.mem_append_left _ hc) hblank)
    · have hj : head ++ ' ' :: Text.join [' '] ws = Text.join [' '] (head :: ws) := by
        rw [join_cons _ _ hw]
        rfl
      have hall : ∀ w ∈ head :: ws, IsWord w := by
        simpa [hword] using fun w hw => (hws w hw).1
      rw [hj, markValue_words hall, List.map_cons, join_cons _ _ (by simpa using hw)] at he
      have hlen := congrArg List.length he
      have hpos := List.length_pos_iff.mpr hn
      simp only [List.length_append, List.length_cons, markClass_length] at hlen
      simp at hlen
      omega

theorem Garbled.not_clean (h : Garbled mark value marked) (hn : mark ≠ []) (hm : ∀ c ∈ mark, isBlank c = false)
    (hq : '"' ∉ mark) : ¬Clean mark value marked := by
  intro hc
  obtain ⟨init, init', s, s', hl, hv, hv', -, hne⟩ := h.stretch hn hm hq
  rw [List.splitOn_eq_singleton hc.unquoted] at hv
  have hmq := quote_not_mem_markValue hq hc.unquoted
  rw [hc.markValue_eq] at hmq
  rw [List.splitOn_eq_singleton hmq] at hv'
  cases init with
  | cons i init => simp at hv
  | nil =>
    cases init' with
    | cons i init' => simp at hl
    | nil =>
      simp only [List.nil_append, List.cons.injEq, and_true] at hv hv'
      exact hne (hv' ▸ hv ▸ hc.markValue_eq.symm)

theorem indentChars_append (cs ds : List Char) : indentChars (cs ++ ds) = indentChars cs ++ indentChars ds :=
  List.flatMap_append

theorem indentChars_of_not_mem {cs : List Char} (h : '\n' ∉ cs) : indentChars cs = cs := by
  induction cs with
  | nil => rfl
  | cons c cs ih =>
    simp only [List.mem_cons, not_or] at h
    have hi := ih h.2
    simp only [indentChars, List.flatMap_cons] at hi ⊢
    rw [hi, if_neg (Ne.symm h.1)]
    rfl

theorem mem_indentChars {c : Char} (h : c ≠ ' ') {cs : List Char} : c ∈ indentChars cs ↔ c ∈ cs := by
  simp only [indentChars, List.mem_flatMap]
  constructor
  · rintro ⟨d, hd, hc⟩
    split at hc
    · rename_i hd'
      simp only [List.mem_cons, List.not_mem_nil, or_false, h] at hc
      exact hc ▸ hd' ▸ hd
    · exact List.mem_singleton.mp hc ▸ hd
  · intro hc
    exact ⟨c, hc, by split <;> simp_all⟩

theorem IsWord.unbroken {w : List Char} (h : IsWord w) : '\n' ∉ w := by
  intro hn
  have hb := h.2 _ hn
  simp [isBlank] at hb

theorem IsWord.indentChars {w : List Char} (h : IsWord w) : indentChars w = w :=
  indentChars_of_not_mem h.unbroken

theorem unbroken_join {ws : List (List Char)} (h : ∀ w ∈ ws, IsWord w) : '\n' ∉ Text.join [' '] ws := by
  intro hn
  rcases mem_join hn with hn | ⟨w, hm, hn⟩
  · simp at hn
  · exact (h w hm).unbroken hn

theorem indentChars_join {ws : List (List Char)} (h : ∀ w ∈ ws, IsWord w) :
    indentChars (Text.join [' '] ws) = Text.join [' '] ws :=
  indentChars_of_not_mem (unbroken_join h)

theorem Clean.indent (hm : ∀ c ∈ mark, isBlank c = false) (h : Clean mark value marked) :
    Clean mark (indentChars value) (indentChars marked) := by
  obtain ⟨ws, hw, rfl, rfl⟩ := h
  have hwords : ∀ w ∈ ws.map (markClass mark), IsWord w := fun w hm' => by
    obtain ⟨v, hv, rfl⟩ := List.mem_map.mp hm'
    exact markClass_isWord hm (hw v hv).1
  rw [indentChars_join fun w hm => (hw w hm).1, indentChars_join hwords]
  exact ⟨ws, hw, rfl, rfl⟩

theorem count_indentChars (cs : List Char) : (indentChars cs).count '"' = cs.count '"' := by
  induction cs with
  | nil => rfl
  | cons c cs ih =>
    have hc : indentChars (c :: cs) = (if c = '\n' then ['\n', ' ', ' '] else [c]) ++ indentChars cs := rfl
    rw [hc, List.count_append, ih]
    split
    · rename_i h
      subst h
      simp
    · simp [List.count_cons, Nat.add_comm]

theorem Closed.indent {front front' : List Char} (h : Closed front front') :
    Closed (indentChars front) (indentChars front') := by
  cases h with
  | nil => exact .nil
  | quote h =>
    rw [indentChars_append, indentChars_append]
    exact .quote (by rw [count_indentChars, count_indentChars, h])

theorem indentChars_sublist {cs ds : List Char} (h : cs.Sublist ds) : (indentChars cs).Sublist (indentChars ds) := by
  induction h with
  | slnil => exact .slnil
  | cons d _ ih => exact ih.trans (List.sublist_append_right _ _)
  | cons_cons d _ ih => exact (List.Sublist.refl _).append ih

theorem Garbled.indent (hm : ∀ c ∈ mark, isBlank c = false) (h : Garbled mark value marked) :
    Garbled mark (indentChars value) (indentChars marked) := by
  obtain ⟨front, front', head, head', ws, hc, hh, hh', hs, hb, hw, hws, rfl, rfl⟩ := h
  have hq {cs : List Char} : '"' ∈ indentChars cs ↔ '"' ∈ cs := mem_indentChars (by decide)
  have hwords : ∀ w ∈ ws.map (markClass mark), IsWord w := fun w hm' => by
    obtain ⟨v, hv, rfl⟩ := List.mem_map.mp hm'
    exact markClass_isWord hm (hws v hv).1
  have hstep (head : List Char) {ws : List (List Char)} (hws : ∀ w ∈ ws, IsWord w) :
      indentChars (head ++ ' ' :: Text.join [' '] ws) = indentChars head ++ ' ' :: Text.join [' '] ws := by
    have hj := indentChars_join hws
    rw [indentChars_append]
    exact congrArg (indentChars head ++ ' ' :: ·) hj
  refine ⟨indentChars front, indentChars front', indentChars head, indentChars head', ws, hc.indent, mt hq.mp hh,
    mt hq.mp hh', indentChars_sublist hs, ?_, hw, hws, ?_, ?_⟩
  · rcases hb with ⟨c, hc, hblank, hne⟩ | ⟨rfl, hword⟩
    · exact .inl ⟨c, (mem_indentChars hne).mpr hc, hblank, hne⟩
    · exact .inr ⟨rfl, hword.indentChars.symm ▸ hword⟩
  · rw [indentChars_append, hstep head fun w hm => (hws w hm).1]
  · rw [indentChars_append, hstep head' hwords]

end

end SceneCode.ClassPrefix
