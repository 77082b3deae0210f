import SceneCode.Proofs.ClassPrefix.Pairs
import SceneCode.Text.Quoted

/-! Markup as a row of chunks: text, class attributes with the values that are wanted for them, and other quoted
attributes. Marking gives what is wanted in the rows that are described here and in no others. -/
namespace SceneCode.ClassPrefix
open Text (isBlank indentChars)

/-- Quoted attributes besides classes. -/
inductive Key where
  | layer
  | source

def Key.chars : Key → List Char
  | .layer => " data-layer=".toList
  | .source => " src=".toList

inductive Chunk where
  | text (cs : List Char)
  | classes (jsx : Bool) (value marked : List Char)
  | quoted (key : Key) (value : List Char)

namespace Chunk

def classKey (jsx : Bool) : List Char :=
  if jsx then " className=".toList else " class=".toList

/-- A chunk as it is written, or as it is wanted. -/
def written (wanted : Bool) : Chunk → List Char
  | .text cs => cs
  | .classes jsx value marked => classKey jsx ++ '"' :: (if wanted then marked else value) ++ ['"']
  | .quoted key value => key.chars ++ '"' :: value ++ ['"']

/-- The stretches between the quotes of a row, behind a start of the first one. -/
def stretches (wanted : Bool) (front : List Char) : List Chunk → List (List Char)
  | [] => [front]
  | .text cs :: row => stretches wanted (front ++ cs) row
  | .classes jsx value marked :: row =>
    (front ++ classKey jsx) :: (if wanted then marked else value).splitOn '"' ++ stretches wanted [] row
  | .quoted key value :: row => (front ++ key.chars) :: value :: stretches wanted [] row

def indent : Chunk → Chunk
  | .text cs => .text (indentChars cs)
  | .classes jsx value marked => .classes jsx (indentChars value) (indentChars marked)
  | .quoted key value => .quoted key (indentChars value)

/-- Whether the value of a quoted chunk ends as a class attribute starts. Text has no value. -/
def opens? : Chunk → Option Bool
  | .text _ => none
  | .classes .. => some false
  | .quoted _ value => some (opens false value)

/-- Quotes stand only around values and in garbled ones. -/
def Proper (mark : List Char) : Chunk → Prop
  | .text cs => '"' ∉ cs
  | .classes _ value marked => Clean mark value marked ∨ Garbled mark value marked
  | .quoted _ value => '"' ∉ value

def IsClean (mark : List Char) : Chunk → Prop
  | .classes _ value marked => Clean mark value marked
  | _ => True

end Chunk

/-- All classes are clean, and of the values only the last may end as a class attribute starts. -/
def Kept (mark : List Char) (row : List Chunk) : Prop :=
  (∀ c ∈ row, c.IsClean mark) ∧ ∀ b ∈ (row.filterMap Chunk.opens?).dropLast, b = false

variable {mark : List Char}

theorem markStretches_skip {b : Bool} {s : List Char} (h : opens b s = false) (rest : List (List Char)) :
    markStretches mark b (s :: rest) = s :: markStretches mark false rest := by
  rcases rest with _ | ⟨v, _ | ⟨t, rest⟩⟩
  · rfl
  · rfl
  · rw [markStretches, if_neg (by simp [h])]

theorem markStretches_opened {b : Bool} {s : List Char} (h : opens b s = true) (v : List Char)
    {rest : List (List Char)} (hr : rest ≠ []) :
    markStretches mark b (s :: v :: rest) = s :: markValue mark v :: markStretches mark false rest := by
  cases rest with
  | nil => exact absurd rfl hr
  | cons t rest => rw [markStretches, if_pos h]

/-- Each stretch stays or is marked. -/
theorem markStretches_getElem? {b : Bool} {stretches : List (List Char)} {i : Nat} {s : List Char}
    (h : stretches[i]? = some s) : (markStretches mark b stretches)[i]? = some s ∨
      (markStretches mark b stretches)[i]? = some (markValue mark s) := by
  fun_induction markStretches generalizing i with
  | case1 b s' v t rest ho ih =>
    rcases i with _ | _ | i
    · exact .inl h
    · simp_all
    · simpa using ih (by simpa using h)
  | case2 b s' v t rest ho ih =>
    rcases i with _ | i
    · exact .inl h
    · simpa using ih (by simpa using h)
  | case3 b stretches hn => exact .inl h

/-- What stands in front of a blank has no part in an opening behind it. -/
theorem opens_blank {c : Char} (hc : isBlank c = true) (b : Bool) (front s : List Char) :
    opens b (front ++ c :: s) = opens true s := by
  have hw : ∀ cs : List Char, openingWords.contains (cs ++ c :: s) = false := fun cs => by
    have hn : ∀ word ∈ openingWords, word.any isBlank = false := by decide
    rw [List.contains_eq_mem, decide_eq_false_iff_not]
    intro hm
    have hb := List.any_eq_false.mp (hn _ hm) c (by simp)
    exact hb hc
  induction front generalizing b with
  | nil =>
    have h := hw []
    simp only [List.nil_append] at h ⊢
    rw [opens, h, hc]
    simp
  | cons d front ih =>
    have h := hw (d :: front)
    simp only [List.cons_append] at h ⊢
    rw [opens, h, ih]
    simp

theorem opens_classKey (b jsx : Bool) (front : List Char) : opens b (front ++ Chunk.classKey jsx) = true := by
  cases jsx
  · exact (opens_blank (c := ' ') (by decide) b front "class=".toList).trans (by decide)
  · exact (opens_blank (c := ' ') (by decide) b front "className=".toList).trans (by decide)

theorem opens_key (b : Bool) (key : Key) (front : List Char) : opens b (front ++ key.chars) = false := by
  cases key
  · exact (opens_blank (c := ' ') (by decide) b front "data-layer=".toList).trans (by decide)
  · exact (opens_blank (c := ' ') (by decide) b front "src=".toList).trans (by decide)

theorem kept_text {cs : List Char} {row : List Chunk} : Kept mark (.text cs :: row) ↔ Kept mark row := by
  unfold Kept
  rw [List.filterMap_cons_none rfl]
  simp [Chunk.IsClean]

theorem kept_classes {jsx : Bool} {value marked : List Char} {row : List Chunk} :
    Kept mark (.classes jsx value marked :: row) ↔ Clean mark value marked ∧ Kept mark row := by
  have hd : (row.filterMap Chunk.opens? = [] ∨ row.filterMap Chunk.opens? ≠ []) := Decidable.em _
  rcases hd with hd | hd <;>
    simp [Kept, Chunk.IsClean, Chunk.opens?, List.dropLast_cons_of_ne_nil, hd, and_assoc]

theorem kept_quoted {key : Key} {value : List Char} {row : List Chunk} : Kept mark (.quoted key value :: row) ↔
    (opens false value = true → row.filterMap Chunk.opens? = []) ∧ Kept mark row := by
  have hd : (row.filterMap Chunk.opens? = [] ∨ row.filterMap Chunk.opens? ≠ []) := Decidable.em _
  rcases hd with hd | hd <;>
    simp [Kept, Chunk.IsClean, Chunk.opens?, List.dropLast_cons_of_ne_nil, hd, and_left_comm]

namespace Chunk

theorem classKey_ne_nil (jsx : Bool) : classKey jsx ≠ [] := by
  cases jsx <;> decide

theorem stretches_ne_nil (wanted : Bool) (front : List Char) (row : List Chunk) : stretches wanted front row ≠ [] := by
  induction row generalizing front with
  | nil => simp [stretches]
  | cons c row ih => cases c <;> simp [stretches, ih]

/-- A row without values is one stretch. -/
theorem stretches_text {row : List Chunk} (h : row.filterMap opens? = []) (front : List Char) :
    ∃ s, ∀ wanted, stretches wanted front row = [s] := by
  induction row generalizing front with
  | nil => exact ⟨front, fun _ => rfl⟩
  | cons c row ih =>
    cases c with
    | text cs => exact ih (by simpa [opens?] using h) (front ++ cs)
    | classes jsx value marked => simp [opens?] at h
    | quoted key value => simp [opens?] at h

/-- The first stretch of any other row is not empty and is not the last. -/
theorem stretches_value {row : List Chunk} (h : row.filterMap opens? ≠ [])
    (front : List Char) : ∃ s, s ≠ [] ∧ ∀ wanted, ∃ rest, rest ≠ [] ∧ stretches wanted front row = s :: rest := by
  induction row generalizing front with
  | nil => exact absurd rfl h
  | cons c row ih =>
    cases c with
    | text cs => exact ih (by simpa [opens?] using h) (front ++ cs)
    | classes jsx value marked =>
      exact ⟨front ++ classKey jsx, by simp [classKey_ne_nil], fun wanted =>
        ⟨_, by simp, rfl⟩⟩
    | quoted key value =>
      have hk : key.chars ≠ [] := by cases key <;> decide
      exact ⟨front ++ key.chars, by simp [hk], fun wanted => ⟨_, by simp, rfl⟩⟩

end Chunk

section
variable (hn : mark ≠ []) (hm : ∀ c ∈ mark, isBlank c = false) (hq : '"' ∉ mark)
include hn hm hq

/-- Stretch by stretch, marking gives what is wanted if and only if the row is kept. -/
theorem markStretches_iff {row : List Chunk} (hp : ∀ c ∈ row, c.Proper mark) (b : Bool) (front : List Char) :
    markStretches mark b (Chunk.stretches false front row) = Chunk.stretches true front row ↔ Kept mark row := by
  induction row generalizing b front with
  | nil => simp [Chunk.stretches, markStretches, Kept]
  | cons c row ih =>
    have ih := ih fun c hc => hp c (by simp [hc])
    cases c with
    | text cs =>
      rw [kept_text]
      exact ih b (front ++ cs)
    | classes jsx value marked =>
      rw [kept_classes]
      rcases hp (.classes jsx value marked) (by simp) with hc | hg
      · have hmq := quote_not_mem_markValue hq hc.unquoted
        rw [hc.markValue_eq] at hmq
        simp only [Chunk.stretches, Bool.false_eq_true, if_false, if_true, List.splitOn_eq_singleton hc.unquoted,
          List.splitOn_eq_singleton hmq, List.cons_append, List.nil_append]
        rw [markStretches_opened (opens_classKey ..) _ (Chunk.stretches_ne_nil _ _ _), hc.markValue_eq]
        simp [hc, ih]
      · obtain ⟨init, init', s, s', hl, hs, hs', hne, hne'⟩ := hg.stretch hn hm hq
        simp only [hg.not_clean hn hm hq, false_and, iff_false]
        intro he
        have hsrc : (Chunk.stretches false front (.classes jsx value marked :: row))[init.length + 1]? = some s := by
          simp [Chunk.stretches, hs]
        have hi : (markStretches mark b _)[_]? = _ ∨ _ := markStretches_getElem? hsrc
        rw [he] at hi
        have ht : (Chunk.stretches true front (.classes jsx value marked :: row))[init.length + 1]? = some s' := by
          simp [Chunk.stretches, hs', hl]
        rw [ht] at hi
        simp [hne, hne'] at hi
    | quoted key value =>
      rw [kept_quoted]
      simp only [Chunk.stretches]
      rw [markStretches_skip (opens_key b key front)]
      simp only [List.cons.injEq, true_and]
      by_cases hr : row.filterMap Chunk.opens? = []
      · obtain ⟨s, hs⟩ := Chunk.stretches_text hr []
        have hk := (ih false []).mp (by rw [hs, hs]; rfl)
        simp [hs, hr, hk, markStretches]
      · cases hv : opens false value with
        | false =>
          rw [markStretches_skip hv]
          simp [ih]
        | true =>
          obtain ⟨s, hs, hrow⟩ := Chunk.stretches_value hr []
          obtain ⟨rest, hrest, hf⟩ := hrow false
          obtain ⟨rest', -, ht⟩ := hrow true
          rw [hf, ht, markStretches_opened hv _ hrest]
          have hne : markValue mark s ≠ s := fun h => hs (eq_nil_of_markValue_eq hn hm h)
          simp [hne, hr]

end

theorem join_append (separator : List Char) {parts parts' : List (List Char)} (h : parts ≠ []) (h' : parts' ≠ []) :
    Text.join separator (parts ++ parts') =
      Text.join separator parts ++ (separator ++ Text.join separator parts') := by
  induction parts with
  | nil => exact absurd rfl h
  | cons s parts ih =>
    cases parts with
    | nil => rw [List.singleton_append, join_cons _ _ h', join_singleton]
    | cons t parts =>
      rw [List.cons_append, join_cons _ _ (List.append_ne_nil_of_left_ne_nil (List.cons_ne_nil t parts) _),
        ih (List.cons_ne_nil t parts), join_cons _ s (List.cons_ne_nil t parts)]
      simp

theorem join_splitOn (c : Char) (cs : List Char) : Text.join [c] (cs.splitOn c) = cs :=
  List.intercalate_splitOn c

theorem not_mem_of_mem_splitOn {d : Char} {cs s : List Char} (h : s ∈ cs.splitOn d) : d ∉ s := by
  induction cs generalizing s with
  | nil => simp_all
  | cons c cs ih =>
    rw [List.splitOn_cons_eq_if_modifyHead] at h
    split at h
    · rcases List.mem_cons.mp h with rfl | h
      · simp
      · exact ih h
    · rename_i hc
      cases hs : cs.splitOn d with
      | nil => exact absurd hs (List.splitOn_ne_nil _ _)
      | cons t ts =>
        rw [hs, List.modifyHead_cons] at h
        have hc : d ≠ c := fun h => hc (beq_iff_eq.mpr h.symm)
        rcases List.mem_cons.mp h with rfl | h
        · simp [hc, ih (hs ▸ List.mem_cons_self)]
        · exact ih (hs ▸ List.mem_cons_of_mem _ h)

namespace Chunk

theorem join_stretches (wanted : Bool) (front : List Char) (row : List Chunk) :
    Text.join ['"'] (stretches wanted front row) = front ++ row.flatMap (written wanted) := by
  induction row generalizing front with
  | nil => simp [stretches, join_singleton]
  | cons c row ih =>
    cases c with
    | text cs => simp [stretches, ih, written]
    | classes jsx value marked =>
      have hs := List.splitOn_ne_nil '"' (if wanted then marked else value)
      rw [stretches, List.cons_append, join_cons _ _ (by simp [hs]),
        join_append _ hs (stretches_ne_nil _ _ _), join_splitOn, ih]
      simp [written]
    | quoted key value =>
      rw [stretches, join_cons _ _ (by simp), join_cons _ _ (stretches_ne_nil _ _ _), ih]
      simp [written]

theorem unquoted_stretches {row : List Chunk} (hp : ∀ c ∈ row, c.Proper mark) (wanted : Bool) {front : List Char}
    (hf : '"' ∉ front) : ∀ s ∈ stretches wanted front row, '"' ∉ s := by
  induction row generalizing front with
  | nil => simpa [stretches] using hf
  | cons c row ih =>
    have hrow : ∀ c ∈ row, c.Proper mark := fun c hc => hp c (by simp [hc])
    cases c with
    | text cs =>
      have hc : '"' ∉ cs := hp (.text cs) (by simp)
      exact ih hrow (by simp [hf, hc])
    | classes jsx value marked =>
      have hk : '"' ∉ classKey jsx := by cases jsx <;> decide
      intro s hs
      rw [stretches, List.cons_append, List.mem_cons, List.mem_append] at hs
      rcases hs with rfl | hs | hs
      · simp [hf, hk]
      · exact not_mem_of_mem_splitOn hs
      · exact ih hrow (by simp) s hs
    | quoted key value =>
      have hk : '"' ∉ key.chars := by cases key <;> decide
      have hv : '"' ∉ value := hp (.quoted key value) (by simp)
      intro s hs
      rw [stretches, List.mem_cons, List.mem_cons] at hs
      rcases hs with rfl | rfl | hs
      · simp [hf, hk]
      · exact hv
      · exact ih hrow (by simp) s hs

end Chunk

theorem unquoted_markStretches (hq : '"' ∉ mark) {b : Bool} {stretches : List (List Char)}
    (h : ∀ s ∈ stretches, '"' ∉ s) : ∀ s ∈ markStretches mark b stretches, '"' ∉ s := by
  fun_induction markStretches with
  | case1 b s v t rest ho ih =>
    have hv := quote_not_mem_markValue hq (h v (by simp))
    have hi := ih fun u hu => h u (by simp [hu])
    simp_all
  | case2 b s v t rest ho ih =>
    have hi := ih fun u hu => h u (by simp [hu])
    simp_all
  | case3 b stretches hn => exact h

/-- Stretches without quotes can be read off the text. -/
theorem join_inj {parts parts' : List (List Char)} (h : ∀ s ∈ parts, '"' ∉ s) (h' : ∀ s ∈ parts', '"' ∉ s)
    (hn : parts ≠ []) (hn' : parts' ≠ []) : Text.join ['"'] parts = Text.join ['"'] parts' ↔ parts = parts' := by
  refine ⟨fun he => ?_, congrArg _⟩
  rw [← List.splitOn_intercalate '"' h hn, ← List.splitOn_intercalate '"' h' hn']
  exact congrArg (List.splitOn '"') he

/-- Marking a row of chunks as text gives what is wanted if and only if the row is kept. -/
theorem markFrom_iff (hn : mark ≠ []) (hm : ∀ c ∈ mark, isBlank c = false) (hq : '"' ∉ mark) {row : List Chunk}
    (hp : ∀ c ∈ row, c.Proper mark) (b : Bool) :
    markFrom mark b (row.flatMap (Chunk.written false)) = row.flatMap (Chunk.written true) ↔ Kept mark row := by
  have hu := Chunk.unquoted_stretches hp false List.not_mem_nil
  have hu' := Chunk.unquoted_stretches hp true List.not_mem_nil
  have hj := Chunk.join_stretches false [] row
  have hj' := Chunk.join_stretches true [] row
  rw [List.nil_append] at hj hj'
  rw [← markStretches_iff hn hm hq hp b [], ← hj, ← hj', markFrom_join hu,
    join_inj (unquoted_markStretches hq hu) hu' (markStretches_ne_nil (Chunk.stretches_ne_nil _ _ _))
      (Chunk.stretches_ne_nil _ _ _)]

def isOpeningChar (c : Char) : Bool :=
  "classNme=".toList.contains c

/-- How a character may be written so that openings stay openings and nothing becomes one. -/
def Harmless (f : Char → List Char) : Prop :=
  ∀ c, f c = [c] ∨ (isOpeningChar c = false ∧ (∃ d cs, f c = d :: cs ∧ isOpeningChar d = false) ∧
    ∀ b cs, opens b (f c ++ cs) = opens (isBlank c) cs)

theorem Harmless.flatMap_eq {f : Char → List Char} (h : Harmless f) {w : List Char}
    (hw : ∀ c ∈ w, isOpeningChar c = true) {s : List Char} : s.flatMap f = w ↔ s = w := by
  induction s generalizing w with
  | nil => simp
  | cons c s ih =>
    rw [List.flatMap_cons]
    rcases h c with hc | ⟨hc, ⟨d, cs, hf, hd⟩, -⟩
    · rw [hc, List.singleton_append]
      cases w with
      | nil => simp
      | cons e w =>
        have hi : s.flatMap f = w ↔ s = w := ih fun c hc => hw c (List.mem_cons_of_mem _ hc)
        simp [hi]
    · rw [hf]
      constructor
      · rintro rfl
        simp [hw d (by simp)] at hd
      · rintro rfl
        simp [hw c (by simp)] at hc

theorem Harmless.opens {f : Char → List Char} (h : Harmless f) (b : Bool) (s : List Char) :
    opens b (s.flatMap f) = opens b s := by
  have ha : ∀ w ∈ openingWords, w.all isOpeningChar = true := by decide
  have hcs : ∀ w ∈ openingWords, ∀ c ∈ w, isOpeningChar c = true := fun w hw => List.all_eq_true.mp (ha w hw)
  induction s generalizing b with
  | nil => rfl
  | cons c s ih =>
    rcases h c with hc | ⟨hc, -, ho⟩
    · have hw : openingWords.contains (c :: s.flatMap f) = openingWords.contains (c :: s) := by
        have he : c :: s.flatMap f = (c :: s).flatMap f := by simp [hc]
        rw [he, Bool.eq_iff_iff]
        simp only [List.contains_iff_mem]
        constructor
        · intro hm
          exact (h.flatMap_eq (hcs _ hm)).mp rfl ▸ hm
        · intro hm
          have hf : (c :: s).flatMap f = c :: s := (h.flatMap_eq (hcs _ hm)).mpr rfl
          rwa [hf]
      simp only [List.flatMap_cons, hc, List.singleton_append, ClassPrefix.opens, hw, ih]
    · have hw : openingWords.contains (c :: s) = false := by
        rw [List.contains_eq_mem, decide_eq_false_iff_not]
        intro hm
        simp [hcs _ hm c (by simp)] at hc
      rw [List.flatMap_cons, ho, ih, ClassPrefix.opens, hw]
      simp

theorem harmless_indent : Harmless fun c => if c = '\n' then ['\n', ' ', ' '] else [c] := by
  intro c
  by_cases h : c = '\n'
  · subst h
    refine .inr ⟨by decide, ⟨_, _, rfl, by decide⟩, fun b cs => ?_⟩
    simp [opens, openingWords, isBlank]
  · exact .inl (if_neg h)

theorem harmless_escape : Harmless Text.escapeAttributeChar := by
  intro c
  by_cases h : c = '&'
  · subst h
    refine .inr ⟨by decide, ⟨_, _, rfl, by decide⟩, fun b cs => ?_⟩
    simp [Text.escapeAttributeChar, opens, openingWords, isBlank]
  · by_cases h' : c = '"'
    · subst h'
      refine .inr ⟨by decide, ⟨_, _, rfl, by decide⟩, fun b cs => ?_⟩
      simp [Text.escapeAttributeChar, opens, openingWords, isBlank]
    · exact .inl (by simp [Text.escapeAttributeChar, h, h'])

theorem unquoted_escape (cs : List Char) : '"' ∉ cs.flatMap Text.escapeAttributeChar := by
  intro h
  obtain ⟨c, -, hc⟩ := List.mem_flatMap.mp h
  unfold Text.escapeAttributeChar at hc
  split at hc
  · simp at hc
  · split at hc
    · simp at hc
    · rename_i hq
      exact hq (List.mem_singleton.mp hc).symm

namespace Chunk

theorem indent_opens? (c : Chunk) : c.indent.opens? = c.opens? := by
  cases c with
  | quoted key value => exact congrArg some (harmless_indent.opens false value)
  | _ => rfl

theorem indent_proper (hm : ∀ c ∈ mark, isBlank c = false) {c : Chunk} (h : c.Proper mark) :
    c.indent.Proper mark := by
  have hq {cs : List Char} : '"' ∈ indentChars cs ↔ '"' ∈ cs := mem_indentChars (by decide)
  cases c with
  | text cs => exact mt hq.mp h
  | classes jsx value marked => exact h.imp (Clean.indent hm) (Garbled.indent hm)
  | quoted key value => exact mt hq.mp h

theorem indent_isClean (hn : mark ≠ []) (hm : ∀ c ∈ mark, isBlank c = false) (hq : '"' ∉ mark) {c : Chunk}
    (h : c.Proper mark) : c.indent.IsClean mark ↔ c.IsClean mark := by
  cases c with
  | classes jsx value marked =>
    rcases h with h | h
    · exact ⟨fun _ => h, fun _ => h.indent hm⟩
    · exact ⟨fun hc => absurd hc ((h.indent hm).not_clean hn hm hq), fun hc => absurd hc (h.not_clean hn hm hq)⟩
  | _ => exact Iff.rfl

theorem indentChars_attribute {key : List Char} (h : '\n' ∉ key) (value : List Char) :
    indentChars (key ++ '"' :: value ++ ['"']) = key ++ '"' :: indentChars value ++ ['"'] := by
  have hc : '"' :: value = ['"'] ++ value := rfl
  rw [hc, indentChars_append, indentChars_append, indentChars_append, indentChars_of_not_mem h]
  rfl

theorem indent_written (wanted : Bool) (c : Chunk) : c.indent.written wanted = indentChars (c.written wanted) := by
  cases c with
  | text cs => rfl
  | classes jsx value marked =>
    have hk : '\n' ∉ classKey jsx := by cases jsx <;> decide
    cases wanted <;> exact (indentChars_attribute hk _).symm
  | quoted key value =>
    have hk : '\n' ∉ key.chars := by cases key <;> decide
    exact (indentChars_attribute hk value).symm

theorem flatMap_indent (wanted : Bool) (row : List Chunk) :
    (row.map indent).flatMap (written wanted) = indentChars (row.flatMap (written wanted)) := by
  induction row with
  | nil => rfl
  | cons c row ih => simp [indent_written, ih, indentChars_append]

end Chunk

end SceneCode.ClassPrefix
