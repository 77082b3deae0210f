import SceneCode.Proofs.Layers.Html
import SceneCode.Proofs.Script.Reader

namespace SceneCode.Html
open Text (ClusterClass clustersFrom cutWords isSeparator startsWord)

def raised : List Char → List Char
  | [] => []
  | c :: cs => c.toUpper :: cs

def camel (key : List Char) : List Char :=
  match (key.splitOn '-').filter (!·.isEmpty) with
  | [] => []
  | word :: words => word ++ words.flatMap raised

variable {c : Char} {cs : List Char}

theorem exists_of_isLower (h : c.isLower = true) : ∃ n < 26, c = Char.ofNat (97 + n) := by
  obtain ⟨hl, hu⟩ := Bool.and_eq_true_iff.mp h
  have ha : 97 ≤ c.toNat := of_decide_eq_true hl
  have hz : c.toNat ≤ 122 := of_decide_eq_true hu
  refine ⟨c.toNat - 97, by omega, ?_⟩
  have hc : 97 + (c.toNat - 97) = c.toNat := by omega
  rw [hc, Char.ofNat_toNat]

theorem cased (h : c.isLower = true) : Text.upper c = [c.toUpper] ∧ Text.lower c = [c] := by
  have hs : ∀ n < 26, Text.upper (Char.ofNat (97 + n)) = [(Char.ofNat (97 + n)).toUpper] ∧
      Text.lower (Char.ofNat (97 + n)) = [Char.ofNat (97 + n)] := by
    decide +kernel
  obtain ⟨n, hn, rfl⟩ := exists_of_isLower h
  exact hs n hn

theorem toUpper_ne (h : c.isLower = true) : c.toUpper ≠ c := by
  have hs : ∀ n < 26, (Char.ofNat (97 + n)).toUpper ≠ Char.ofNat (97 + n) := by decide
  obtain ⟨n, hn, rfl⟩ := exists_of_isLower h
  exact hs n hn

/-- Each character of a key is a cluster. -/
theorem ofChar_key (h : isKeyChar c = true) : ClusterClass.ofChar c = .other := by
  have hs : ∀ n < 128, isKeyChar (Char.ofNat n) = true → ClusterClass.ofChar (Char.ofNat n) = .other := by decide
  have hc := hs c.toNat (toNat_lt_of_isKeyChar h)
  rw [Char.ofNat_toNat] at hc
  exact hc h

theorem clustersFrom_key (hc : isKeyChar c = true) (h : ∀ d ∈ cs, isKeyChar d = true) :
    clustersFrom [c] [.other] cs = (c :: cs).map ([·]) := by
  induction cs generalizing c with
  | nil => rfl
  | cons d cs ih =>
    rw [List.forall_mem_cons] at h
    rw [clustersFrom, ofChar_key h.1, List.map_cons, ← ih h.1 h.2]
    rfl

theorem clusters_key (h : ∀ c ∈ cs, isKeyChar c = true) : Text.clusters cs = cs.map ([·]) := by
  cases cs with
  | nil => rfl
  | cons c cs =>
    rw [List.forall_mem_cons] at h
    rw [Text.clusters, clustersFrom, ofChar_key h.1, ← clustersFrom_key h.1 h.2]
    rfl

theorem not_isUpper (h : isKeyChar c = true) : Text.isUpper [c] = false := by
  simp only [isKeyChar, Bool.or_eq_true, decide_eq_true_eq] at h
  rcases h with h | rfl
  · have hu : Text.upperText [c] = [c.toUpper] := by
      rw [Text.upperText, List.flatMap_singleton, (cased h).1]
    have hn : ([c] == Text.upperText [c]) = false := by
      rw [hu, beq_eq_false_iff_ne]
      intro he
      exact toUpper_ne h (List.singleton_inj.mp he).symm
    rw [Text.isUpper, hn, Bool.and_false]
  · decide

theorem not_isNumeral (h : isKeyChar c = true) : Text.isNumeral [c] = false := by
  have hs : ∀ n < 128, isKeyChar (Char.ofNat n) = true → Text.isNumeral [Char.ofNat n] = false := by decide
  have hc := hs c.toNat (toNat_lt_of_isKeyChar h)
  rw [Char.ofNat_toNat] at hc
  exact hc h

/-- Only hyphens part the words of a key. -/
theorem not_startsWord (h : isKeyChar c = true) {before : Option (List Char)}
    (hb : ∀ d ∈ before, ∃ e, isKeyChar e = true ∧ d = [e]) (after : Option (List Char)) :
    startsWord before [c] after = false := by
  cases before with
  | none => rfl
  | some d =>
    obtain ⟨e, he, rfl⟩ := hb d rfl
    simp [startsWord, not_isUpper h, not_isNumeral h, not_isUpper he, not_isNumeral he]

theorem cutWords_key (h : ∀ c ∈ cs, isKeyChar c = true) {before : Option (List Char)}
    (hb : ∀ d ∈ before, ∃ e, isKeyChar e = true ∧ d = [e]) : cutWords before (cs.map ([·])) = cs.splitOn '-' := by
  induction cs generalizing before with
  | nil => rfl
  | cons c cs ih =>
    rw [List.forall_mem_cons] at h
    have hi : cutWords (some [c]) (cs.map ([·])) = cs.splitOn '-' := by
      apply ih h.2
      intro d hd
      exact ⟨c, h.1, (Option.some.inj hd).symm⟩
    rw [List.map_cons, cutWords, hi, List.splitOn_cons_eq_if_modifyHead, not_startsWord h.1 hb]
    by_cases hc : c = '-'
    · subst hc
      rfl
    · have hs : isSeparator [c] = false := by
        have hk := h.1
        simp only [isKeyChar, hc, decide_false, Bool.or_false] at hk
        have hu : c ≠ '_' ∧ c ≠ ' ' := by
          constructor <;> (intro he; rw [he] at hk; cases hk)
        simp [isSeparator, hc, hu.1, hu.2]
      obtain ⟨word, words, hw⟩ := List.exists_cons_of_ne_nil (List.splitOn_ne_nil '-' cs)
      simp [hs, hc, hw]

theorem lowerAfter_word {before : List Char} (h : ∀ c ∈ cs, c.isLower = true) : Text.lowerAfter before cs = cs := by
  induction cs generalizing before with
  | nil => rfl
  | cons c cs ih =>
    rw [List.forall_mem_cons] at h
    have hf : Text.isFinalSigma before cs c = false := by
      have hc : c ≠ 'Σ' := by
        intro he
        have hl := h.1
        rw [he] at hl
        cases hl
      simp [Text.isFinalSigma, hc]
    rw [Text.lowerAfter, hf, (cased h.1).2, ih h.2]
    rfl

theorem capitalized_word (h : ∀ c ∈ cs, c.isLower = true) : Text.capitalized cs = raised cs := by
  cases cs with
  | nil => rfl
  | cons c cs =>
    rw [List.forall_mem_cons] at h
    rw [Text.capitalized, (cased h.1).1, Text.lowerText, lowerAfter_word h.2]
    rfl

theorem isLower_of_mem_splitOn (h : ∀ c ∈ cs, isKeyChar c = true) :
    ∀ word ∈ cs.splitOn '-', ∀ c ∈ word, c.isLower = true := by
  induction cs with
  | nil =>
    intro word hw c hc
    rw [List.mem_singleton.mp hw] at hc
    cases hc
  | cons d cs ih =>
    rw [List.forall_mem_cons] at h
    have hi := ih h.2
    rw [List.splitOn_cons_eq_if_modifyHead]
    by_cases hd : d = '-'
    · subst hd
      exact List.forall_mem_cons.mpr ⟨List.forall_mem_nil _, hi⟩
    · have hl : d.isLower = true := by
        have hk := h.1
        simpa [isKeyChar, hd] using hk
      obtain ⟨word, words, hw⟩ := List.exists_cons_of_ne_nil (List.splitOn_ne_nil '-' cs)
      rw [hw, List.forall_mem_cons] at hi
      simp only [beq_eq_false_iff_ne.mpr hd, Bool.false_eq_true, if_false, hw, List.modifyHead_cons, List.forall_mem_cons]
      exact ⟨⟨hl, hi.1⟩, hi.2⟩

theorem toList_objectKey {key : String} (h : ∀ c ∈ key.toList, isKeyChar c = true) :
    (objectKey key).toList = camel key.toList := by
  have hw : Text.wordsOf key.toList = (key.toList.splitOn '-').filter (!·.isEmpty) := by
    rw [Text.wordsOf, clusters_key h, cutWords_key h fun d hd => absurd hd (Option.not_mem_none d)]
  have hl : ∀ word ∈ (key.toList.splitOn '-').filter (!·.isEmpty), ∀ c ∈ word, c.isLower = true := by
    intro word hm
    exact isLower_of_mem_splitOn h word (List.mem_filter.mp hm).1
  rw [objectKey, String.toList_ofList, Text.camelCase, camel, hw]
  cases hs : (key.toList.splitOn '-').filter (!·.isEmpty) with
  | nil => rfl
  | cons word words =>
    rw [hs, List.forall_mem_cons] at hl
    have hc : words.flatMap Text.capitalized = words.flatMap raised := by
      apply List.flatMap_congr
      intro w hm
      exact capitalized_word (hl.2 w hm)
    dsimp only
    rw [hc, Text.lowerText, lowerAfter_word hl.1]

theorem camel_ofList {cs : List Char} (h : camel cs ≠ [] ∧ ∀ c ∈ camel cs, c.isAlpha = true) :
    camel (String.ofList cs).toList ≠ [] ∧ ∀ c ∈ camel (String.ofList cs).toList, c.isAlpha = true := by
  rwa [String.toList_ofList]

theorem camel_key (a : Aspect) :
    ∀ key ∈ keysOf a, camel key.toList ≠ [] ∧ ∀ c ∈ camel key.toList, c.isAlpha = true := by
  cases a <;> simp only [keysOf, List.forall_mem_cons] <;> repeat refine ⟨camel_ofList (by decide), ?_⟩
  all_goals exact List.forall_mem_nil _

/-- Every key becomes an identifier. -/
theorem isName_objectKey {a : Aspect} {key : String} (h : key ∈ keysOf a) : Script.IsName (objectKey key).toList := by
  obtain ⟨hn, hl⟩ := camel_key a key h
  rw [toList_objectKey (isKeyChar_of_mem a key h)]
  exact ⟨hn, hl⟩

end SceneCode.Html
