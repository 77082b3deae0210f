import SceneCode.Text.Words

namespace SceneCode.Text

theorem mem_of_mem_clustersFrom {before : List Char} {classes : List ClusterClass} {cs cluster : List Char} {c : Char}
    (h : cluster ∈ clustersFrom before classes cs) (hc : c ∈ cluster) : c ∈ before ∨ c ∈ cs := by
  induction cs generalizing before classes with
  | nil =>
    unfold clustersFrom at h
    split at h
    · cases h
    · obtain rfl := List.mem_singleton.mp h
      exact .inl (List.mem_reverse.mp hc)
  | cons d cs ih =>
    simp only [clustersFrom] at h
    split at h
    · rcases ih h with hm | hm
      · exact (List.mem_cons.mp hm).elim (fun he => .inr (he ▸ List.mem_cons_self)) .inl
      · exact .inr (List.mem_cons_of_mem _ hm)
    · rcases List.mem_cons.mp h with rfl | h
      · exact .inl (List.mem_reverse.mp hc)
      · rcases ih h with hm | hm
        · exact .inr (List.mem_singleton.mp hm ▸ List.mem_cons_self)
        · exact .inr (List.mem_cons_of_mem _ hm)

theorem mem_of_mem_cutWords {before : Option (List Char)} {clusters : List (List Char)} {word : List Char} {c : Char}
    (h : word ∈ cutWords before clusters) (hc : c ∈ word) : ∃ cluster ∈ clusters, c ∈ cluster := by
  induction clusters generalizing before word with
  | nil =>
    obtain rfl := List.mem_singleton.mp h
    cases hc
  | cons here rest ih =>
    have hi {word : List Char} (h : word ∈ cutWords (some here) rest) (hc : c ∈ word) :
        ∃ cluster ∈ here :: rest, c ∈ cluster := by
      obtain ⟨cluster, hm, hc⟩ := ih h hc
      exact ⟨cluster, List.mem_cons_of_mem _ hm, hc⟩
    -- The word that the cluster belongs to, and those behind it.
    have hj (hm : word ∈ (here ++ (cutWords (some here) rest).headD []) :: (cutWords (some here) rest).tail) :
        ∃ cluster ∈ here :: rest, c ∈ cluster := by
      rcases List.mem_cons.mp hm with rfl | hm
      · rcases List.mem_append.mp hc with hc | hc
        · exact ⟨here, List.mem_cons_self, hc⟩
        · cases hw : cutWords (some here) rest with
          | nil => rw [hw] at hc; cases hc
          | cons w ws =>
            rw [hw] at hc
            have hm : w ∈ cutWords (some here) rest := hw ▸ List.mem_cons_self
            exact hi hm hc
      · exact hi (List.mem_of_mem_tail hm) hc
    simp only [cutWords] at h
    split at h
    · rcases List.mem_cons.mp h with rfl | h
      · cases hc
      · exact hi h hc
    · split at h
      · rcases List.mem_cons.mp h with rfl | h
        · cases hc
        · exact hj h
      · exact hj h

theorem mem_of_mem_wordsOf {cs word : List Char} {c : Char} (h : word ∈ wordsOf cs) (hc : c ∈ word) : c ∈ cs := by
  obtain ⟨cluster, hm, hc⟩ := mem_of_mem_cutWords (List.mem_filter.mp h).1 hc
  exact (mem_of_mem_clustersFrom hm hc).resolve_left List.not_mem_nil

/-- A cluster takes in all that was read for it. -/
theorem clustersFrom_head {before : List Char} (h : before ≠ []) (classes : List ClusterClass) (cs : List Char) :
    ∃ more others, clustersFrom before classes cs = (before.reverse ++ more) :: others := by
  induction cs generalizing before classes with
  | nil =>
    have he : before.isEmpty = false := by simpa using h
    exact ⟨[], [], by rw [clustersFrom, he, List.append_nil]; rfl⟩
  | cons c cs ih =>
    simp only [clustersFrom]
    split
    · obtain ⟨more, others, he⟩ := ih (List.cons_ne_nil c before) (ClusterClass.ofChar c :: classes)
      exact ⟨c :: more, others, by rw [he, List.reverse_cons, List.append_assoc]; rfl⟩
    · exact ⟨[], _, by rw [List.append_nil]⟩

/-- The first word starts as the text does, unless that is a separator. -/
theorem wordsOf_cons {c : Char} (h : c ∉ ['-', '_', ' ']) (cs : List Char) :
    ∃ word words, wordsOf (c :: cs) = (c :: word) :: words := by
  obtain ⟨more, others, he⟩ := clustersFrom_head (List.cons_ne_nil c []) [ClusterClass.ofChar c] cs
  have hc : clusters (c :: cs) = (c :: more) :: others := he
  have hs : isSeparator (c :: more) = false := by
    simp only [List.mem_cons, List.not_mem_nil, or_false, not_or] at h
    simp [isSeparator, h]
  refine ⟨more ++ (cutWords (some (c :: more)) others).headD [],
    (cutWords (some (c :: more)) others).tail.filter (!·.isEmpty), ?_⟩
  simp [wordsOf, hc, cutWords, hs, startsWord]

theorem mem_lowerAfter {before cs : List Char} {d : Char} (h : d ∈ lowerAfter before cs) :
    d = 'ς' ∨ ∃ c ∈ cs, d ∈ lower c := by
  induction cs generalizing before with
  | nil => cases h
  | cons c cs ih =>
    rcases List.mem_append.mp h with h | h
    · split at h
      · exact .inl (List.mem_singleton.mp h)
      · exact .inr ⟨c, List.mem_cons_self, h⟩
    · exact (ih h).imp_right fun ⟨c, hc, hd⟩ => ⟨c, List.mem_cons_of_mem _ hc, hd⟩

theorem mem_capitalized {cs : List Char} {d : Char} (h : d ∈ capitalized cs) :
    d = 'ς' ∨ ∃ c ∈ cs, d ∈ upper c ∨ d ∈ lower c := by
  cases cs with
  | nil => cases h
  | cons c cs =>
    rcases List.mem_append.mp h with h | h
    · exact .inr ⟨c, List.mem_cons_self, .inl h⟩
    · exact (mem_lowerAfter h).imp_right fun ⟨c, hc, hd⟩ => ⟨c, List.mem_cons_of_mem _ hc, .inr hd⟩

theorem mem_camelCase {cs : List Char} {d : Char} (h : d ∈ camelCase cs) :
    d = 'ς' ∨ ∃ c ∈ cs, d ∈ upper c ∨ d ∈ lower c := by
  unfold camelCase at h
  split at h
  · cases h
  · rename_i word words hw
    have hm {w : List Char} (h : w ∈ word :: words) {c : Char} (hc : c ∈ w) : c ∈ cs :=
      mem_of_mem_wordsOf (hw ▸ h) hc
    rcases List.mem_append.mp h with h | h
    · exact (mem_lowerAfter h).imp_right fun ⟨c, hc, hd⟩ => ⟨c, hm List.mem_cons_self hc, .inr hd⟩
    · obtain ⟨w, hw, h⟩ := List.mem_flatMap.mp h
      exact (mem_capitalized h).imp_right fun ⟨c, hc, hd⟩ => ⟨c, hm (List.mem_cons_of_mem _ hw) hc, hd⟩

end SceneCode.Text
