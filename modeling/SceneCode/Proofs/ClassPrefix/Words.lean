import SceneCode.Proofs.ClassPrefix.Scan

namespace SceneCode.ClassPrefix
open Text (isBlank unblanked)

/-- Not empty and without white space. -/
def IsWord (w : List Char) : Prop :=
  w ≠ [] ∧ ∀ c ∈ w, isBlank c = false

theorem unblanked_blank {c : Char} (h : isBlank c = true) (rest : List Char) :
    unblanked (c :: rest) = unblanked rest := by
  cases rest <;> simp [unblanked, h]

theorem unblanked_cons {c : Char} (hc : isBlank c = false) (rest : List Char) : unblanked (c :: rest) =
    match rest, unblanked rest with
    | d :: _, w :: ws => if isBlank d then [c] :: w :: ws else (c :: w) :: ws
    | _, _ => [[c]] := by
  conv => lhs; unfold unblanked
  rw [if_neg (by simp [hc])]
  cases rest with
  | nil => rfl
  | cons d rest => cases unblanked (d :: rest) <;> rfl

/-- A character starts a word of its own or goes in front of the next one. -/
theorem unblanked_cons_cases {c : Char} (hc : isBlank c = false) (rest : List Char) :
    unblanked (c :: rest) = [c] :: unblanked rest ∨
      ∃ w ws, unblanked rest = w :: ws ∧ unblanked (c :: rest) = (c :: w) :: ws := by
  rw [unblanked_cons hc]
  cases rest with
  | nil => exact .inl rfl
  | cons d rest =>
    cases unblanked (d :: rest) with
    | nil => exact .inl rfl
    | cons w ws =>
      cases hd : isBlank d with
      | true => exact .inl (by simp [hd])
      | false => exact .inr ⟨w, ws, rfl, by simp [hd]⟩

theorem unblanked_word {w : List Char} (h : IsWord w) : unblanked w = [w] := by
  obtain ⟨hn, hw⟩ := h
  induction w with
  | nil => exact absurd rfl hn
  | cons c w ih =>
    rw [unblanked_cons (hw c (by simp))]
    cases w with
    | nil => rfl
    | cons d w =>
      rw [ih (by simp) fun e he => hw e (by simp [he])]
      simp [hw d (by simp)]

theorem unblanked_word_append {w : List Char} (h : IsWord w) {b : Char} (hb : isBlank b = true) (rest : List Char) :
    unblanked (w ++ b :: rest) = w :: unblanked rest := by
  obtain ⟨hn, hw⟩ := h
  induction w with
  | nil => exact absurd rfl hn
  | cons c w ih =>
    rw [List.cons_append, unblanked_cons (hw c (by simp))]
    cases w with
    | nil =>
      rw [List.nil_append, unblanked_blank hb]
      cases unblanked rest <;> simp [hb]
    | cons d w =>
      rw [ih (by simp) fun e he => hw e (by simp [he])]
      simp [hw d (by simp)]

theorem unblanked_join {ws : List (List Char)} (h : ∀ w ∈ ws, IsWord w) : unblanked (Text.join [' '] ws) = ws := by
  induction ws with
  | nil => rfl
  | cons w ws ih =>
    have hi := ih fun v hv => h v (by simp [hv])
    cases ws with
    | nil => rw [join_singleton, unblanked_word (h w (by simp))]
    | cons v ws =>
      rw [join_cons [' '] w (by simp), List.singleton_append, unblanked_word_append (h w (by simp)) (by decide), hi]

theorem isWord_of_mem_unblanked {cs w : List Char} (h : w ∈ unblanked cs) : IsWord w := by
  induction cs generalizing w with
  | nil => cases h
  | cons c cs ih =>
    cases hc : isBlank c with
    | true =>
      rw [unblanked_blank hc] at h
      exact ih h
    | false =>
      rcases unblanked_cons_cases hc cs with he | ⟨v, vs, hv, he⟩ <;> rw [he] at h
      · rcases List.mem_cons.mp h with rfl | h
        · exact ⟨by simp, by simpa using hc⟩
        · exact ih h
      · rcases List.mem_cons.mp h with rfl | h
        · have hw : IsWord v := ih (hv ▸ List.mem_cons_self)
          exact ⟨by simp, by simpa [hc] using hw.2⟩
        · exact ih (hv ▸ List.mem_cons_of_mem _ h)

theorem mem_of_mem_unblanked {cs w : List Char} (h : w ∈ unblanked cs) {c : Char} (hc : c ∈ w) : c ∈ cs := by
  induction cs generalizing w with
  | nil => cases h
  | cons d cs ih =>
    cases hd : isBlank d with
    | true =>
      rw [unblanked_blank hd] at h
      exact List.mem_cons_of_mem _ (ih h hc)
    | false =>
      rcases unblanked_cons_cases hd cs with he | ⟨v, vs, hv, he⟩ <;> rw [he] at h
      · rcases List.mem_cons.mp h with rfl | h
        · simp [List.mem_singleton.mp hc]
        · exact List.mem_cons_of_mem _ (ih h hc)
      · rcases List.mem_cons.mp h with rfl | h
        · rcases List.mem_cons.mp hc with rfl | hc
          · simp
          · exact List.mem_cons_of_mem _ (ih (hv ▸ List.mem_cons_self) hc)
        · exact List.mem_cons_of_mem _ (ih (hv ▸ List.mem_cons_of_mem _ h) hc)

theorem markClass_length (mark w : List Char) : (markClass mark w).length = mark.length + w.length := by
  unfold markClass
  split
  · simp only [List.length_cons, List.cons_append, List.length_append]
    omega
  · exact List.length_append

theorem mem_markClass {mark w : List Char} {c : Char} : c ∈ markClass mark w ↔ c ∈ mark ∨ c ∈ w := by
  unfold markClass
  split <;> simp [or_left_comm]

variable {mark : List Char}

theorem markClass_isWord (hm : ∀ c ∈ mark, isBlank c = false) {w : List Char} (h : IsWord w) :
    IsWord (markClass mark w) := by
  refine ⟨fun he => ?_, fun c hc => ?_⟩
  · have hl := markClass_length mark w
    have hw := List.length_pos_iff.mpr h.1
    rw [he] at hl
    simp at hl
    omega
  · rcases mem_markClass.mp hc with hc | hc
    · exact hm c hc
    · exact h.2 c hc

theorem markValue_words {ws : List (List Char)} (h : ∀ w ∈ ws, IsWord w) :
    markValue mark (Text.join [' '] ws) = Text.join [' '] (ws.map (markClass mark)) := by
  rw [markValue, unblanked_join h]

theorem mem_join {separator : List Char} {parts : List (List Char)} {c : Char} (h : c ∈ Text.join separator parts) :
    c ∈ separator ∨ ∃ s ∈ parts, c ∈ s := by
  induction parts with
  | nil => cases h
  | cons s parts ih =>
    cases parts with
    | nil =>
      rw [join_singleton] at h
      exact .inr ⟨s, by simp, h⟩
    | cons t parts =>
      rw [join_cons separator s (by simp)] at h
      rcases List.mem_append.mp h with h | h
      · exact .inr ⟨s, by simp, h⟩
      · rcases List.mem_append.mp h with h | h
        · exact .inl h
        · exact (ih h).imp_right fun ⟨u, hu, hc⟩ => ⟨u, by simp [hu], hc⟩

theorem mem_intercalate {separator : String} {vs : List String} {c : Char}
    (h : c ∈ (separator.intercalate vs).toList) : c ∈ separator.toList ∨ ∃ v ∈ vs, c ∈ v.toList := by
  rw [String.toList_intercalate] at h
  rcases mem_join h with h | ⟨w, hw, hc⟩
  · exact .inl h
  · obtain ⟨v, hv, rfl⟩ := List.mem_map.mp hw
    exact .inr ⟨v, hv, hc⟩

/-- The classes of a marked value are one space apart. -/
theorem blank_of_mem_markValue (hm : ∀ c ∈ mark, isBlank c = false) {v : List Char} {c : Char}
    (h : c ∈ markValue mark v) (hc : isBlank c = true) : c = ' ' := by
  rcases mem_join h with h | ⟨s, hs, h⟩
  · exact List.mem_singleton.mp h
  · obtain ⟨w, hw, rfl⟩ := List.mem_map.mp hs
    have hn := (markClass_isWord hm (isWord_of_mem_unblanked hw)).2 c h
    rw [hc] at hn
    cases hn

theorem quote_not_mem_markValue (hm : '"' ∉ mark) {v : List Char} (hv : '"' ∉ v) : '"' ∉ markValue mark v := by
  intro h
  rcases mem_join h with h | ⟨s, hs, h⟩
  · simp at h
  · obtain ⟨w, hw, rfl⟩ := List.mem_map.mp hs
    rcases mem_markClass.mp h with h | h
    · exact hm h
    · exact hv (mem_of_mem_unblanked hw h)

/-- Only an empty value stays as it is. -/
theorem eq_nil_of_markValue_eq (hn : mark ≠ []) (hm : ∀ c ∈ mark, isBlank c = false) {v : List Char}
    (h : markValue mark v = v) : v = [] := by
  have hw : ∀ w ∈ (unblanked v).map (markClass mark), IsWord w := fun w hw => by
    obtain ⟨u, hu, rfl⟩ := List.mem_map.mp hw
    exact markClass_isWord hm (isWord_of_mem_unblanked hu)
  have hu : (unblanked v).map (markClass mark) = unblanked v := by
    have he := unblanked_join hw
    rw [show Text.join [' '] ((unblanked v).map (markClass mark)) = v from h] at he
    exact he.symm
  cases hv : unblanked v with
  | nil =>
    rw [← h, markValue, hv]
    rfl
  | cons w ws =>
    rw [hv, List.map_cons, List.cons.injEq] at hu
    have hl := congrArg List.length hu.1
    rw [markClass_length] at hl
    have hp := List.length_pos_iff.mpr hn
    omega

end SceneCode.ClassPrefix
