import SceneCode.Generate
import SceneCode.Proofs.ClassPrefix.Matches
import SceneCode.Proofs.Settings.Used

namespace SceneCode.ClassPrefix
open Text (isBlank unblanked)

section
variable {mark : List Char} {first b : Bool} {c : Char} {cs separator opening value rest : List Char}
  {segments : List Segment}

theorem IsMatch.attribute?_eq (h : IsMatch true cs [] opening value rest) :
    attribute? cs = some ⟨opening, value, rest⟩ := by
  obtain ⟨word, rfl, hw, hq, -⟩ := exists_word h.opening_mem
  have he : cs = word ++ '"' :: (value ++ '"' :: rest) := by simpa using h.eq
  rw [he, attribute?_quoted hq, if_pos (List.contains_iff_mem.mpr hw), valueAt?_quoted h.unquoted]

theorem opened_of_attribute? {a : Attribute} (h : attribute? cs = some a) : Opened cs := by
  by_cases hq : '"' ∈ cs
  · obtain ⟨word, behind, rfl, hw⟩ := List.eq_append_cons_of_mem hq
    rw [attribute?_quoted hw] at h
    split at h
    · rename_i hc
      have hv : '"' ∈ behind := by
        by_contra hn
        rw [valueAt?_unquoted hn] at h
        cases h
      constructor
      · rw [takeWhile_quote hw]
        exact List.contains_iff_mem.mp hc
      · have hp := List.count_pos_iff.mpr hv
        rw [List.count_append, List.count_cons_self]
        omega
    · cases h
  · rw [attribute?_unquoted hq] at h
    cases h

theorem markFrom_of_match (h : IsMatch true cs [] opening value rest) :
    markFrom mark true cs = opening ++ (markValue mark value ++ '"' :: markFrom mark false rest) := by
  obtain ⟨c, cs, rfl⟩ := List.exists_cons_of_ne_nil h.ne_nil
  have ha : (if true then attribute? (c :: cs) else none) = some ⟨opening, value, rest⟩ := h.attribute?_eq
  rw [markFrom_some ha, List.append_assoc]

theorem attribute?_eq_none (h : ∀ opening value rest, ¬IsMatch true cs [] opening value rest) :
    attribute? cs = none := by
  rw [Option.eq_none_iff_forall_ne_some]
  intro a ha
  obtain ⟨opening, value, rest, he, ho, hv⟩ := opened_iff.mp (opened_of_attribute? ha)
  exact h opening value rest ⟨he, .inl ⟨rfl, rfl⟩, ho, hv⟩

theorem attribute?_blank (hc : isBlank c = true) (cs : List Char) : attribute? (c :: cs) = none := by
  refine attribute?_eq_none fun opening value rest hm => ?_
  obtain ⟨word, rfl, -, -, d, tail, rfl, hd⟩ := exists_word hm.opening_mem
  obtain rfl : c = d := (List.cons.inj hm.eq).1
  rw [hc] at hd
  cases hd

/-- Marking goes from match to match. It may look for an attribute where the search has just found none. -/
theorem Scans.markFrom_eq (h : Scans first cs segments)
    (hb : (if b then attribute? cs else none) = if first then attribute? cs else none) :
    markFrom mark b cs = written (withValues (markValue mark) segments) := by
  induction h generalizing b with
  | nil =>
    rw [markFrom]
    rfl
  | @skip first c cs segments h hs ih =>
    have hn : (if first then attribute? (c :: cs) else none) = none := by
      cases first with
      | false => rfl
      | true => exact attribute?_eq_none fun opening value rest hm => h _ _ _ _ hm
    have hi : (if isBlank c then attribute? cs else none) = if false then attribute? cs else none := by
      cases hc : isBlank c with
      | false => rfl
      | true =>
        exact attribute?_eq_none fun opening value rest hm =>
          h [c] opening value rest ⟨congrArg (c :: ·) hm.eq, .inr ⟨c, rfl, hc⟩, hm.opening_mem, hm.unquoted⟩
    rw [markFrom_none (hb.trans hn), ih hi]
    rfl
  | @take first cs separator opening value rest segments h hs ih =>
    have hr : markFrom mark false rest = _ := ih rfl
    rw [written_classes, ← hr]
    rcases h.apart with ⟨rfl, rfl⟩ | ⟨d, rfl, hd⟩
    · have ha := h.attribute?_eq
      have hm : b = true := by
        cases b with
        | true => rfl
        | false =>
          rw [if_pos rfl, ha] at hb
          cases hb
      rw [hm]
      exact markFrom_of_match h
    · -- The attribute is found behind the white space and not in front of it.
      have hm : IsMatch true (opening ++ (value ++ '"' :: rest)) [] opening value rest :=
        ⟨rfl, .inl ⟨rfl, rfl⟩, h.opening_mem, h.unquoted⟩
      have hn : (if b then attribute? (d :: (opening ++ (value ++ '"' :: rest))) else none) = none := by
        rw [attribute?_blank hd, ite_self]
      rw [h.eq, List.singleton_append, markFrom_none hn, hd, markFrom_of_match hm]
      rfl

/-- The same classes, one space apart. -/
def normal (value : List Char) : List Char :=
  Text.join [' '] (unblanked value)

/-- A class less its mark, which stands behind the minus of a negative utility. -/
def unmarkClass (mark w : List Char) : List Char :=
  match ('-' :: mark).isPrefixOf? w with
  | some rest => '-' :: rest
  | none => (mark.isPrefixOf? w).getD w

def unmarkValue (mark value : List Char) : List Char :=
  Text.join [' '] ((unblanked value).map (unmarkClass mark))

/-- A marked class has its minus in front of the mark only if the class is a negative utility. -/
theorem minus_of_append {ws : List Char} (h : '-' :: (mark ++ ws) = mark ++ c :: cs) : c = '-' := by
  induction mark generalizing ws with
  | nil => exact (List.cons.inj h).1.symm
  | cons d mark ih =>
    obtain ⟨rfl, ht⟩ := List.cons.inj h
    exact ih ht

theorem unmarkClass_markClass (mark w : List Char) : unmarkClass mark (markClass mark w) = w := by
  unfold markClass
  split
  · rename_i rest
    have hp : ('-' :: mark).isPrefixOf? ('-' :: mark ++ rest) = some rest :=
      List.isPrefixOf?_eq_some_iff_append_eq.mpr rfl
    rw [unmarkClass, hp]
  · rename_i hw
    have hp : mark.isPrefixOf? (mark ++ w) = some w := List.isPrefixOf?_eq_some_iff_append_eq.mpr rfl
    have hn : ('-' :: mark).isPrefixOf? (mark ++ w) = none := by
      rw [Option.eq_none_iff_forall_ne_some]
      intro rest hr
      have he : '-' :: (mark ++ rest) = mark ++ w := List.isPrefixOf?_eq_some_iff_append_eq.mp hr
      cases w with
      | nil =>
        have hl := congrArg List.length he
        simp only [List.length_cons, List.length_append, List.length_nil] at hl
        omega
      | cons c w => exact hw w (by rw [minus_of_append he])
    rw [unmarkClass, hn, hp, Option.getD_some]

theorem markValue_normal (mark value : List Char) : markValue mark (normal value) = markValue mark value := by
  rw [normal, markValue_words fun _ h => isWord_of_mem_unblanked h]
  rfl

theorem unmarkValue_markValue (hm : ∀ c ∈ mark, isBlank c = false) (value : List Char) :
    unmarkValue mark (markValue mark value) = normal value := by
  have hw : ∀ w ∈ (unblanked value).map (markClass mark), IsWord w := by
    intro w h
    obtain ⟨u, hu, rfl⟩ := List.mem_map.mp h
    exact markClass_isWord hm (isWord_of_mem_unblanked hu)
  have hc : (unblanked value).map (unmarkClass mark ∘ markClass mark) = unblanked value :=
    (List.map_congr_left fun w _ => unmarkClass_markClass mark w).trans (List.map_id _)
  rw [unmarkValue, markValue, unblanked_join hw, List.map_map, hc]
  rfl

theorem withValues_withValues (f g : List Char → List Char) (segments : List Segment) :
    withValues g (withValues f segments) = withValues (g ∘ f) segments := by
  rw [withValues, withValues, List.map_map]
  refine List.map_congr_left fun s _ => ?_
  cases s <;> rfl

theorem unmark_mark (hm : ∀ c ∈ mark, isBlank c = false) (segments : List Segment) :
    withValues (unmarkValue mark) (withValues (markValue mark) segments) = withValues normal segments := by
  rw [withValues_withValues]
  exact congrArg (fun f => withValues f segments) (funext (unmarkValue_markValue hm))

theorem mark_normal (mark : List Char) (segments : List Segment) :
    withValues (markValue mark) (withValues normal segments) = withValues (markValue mark) segments := by
  rw [withValues_withValues]
  exact congrArg (fun f => withValues f segments) (funext (markValue_normal mark))

/-- Nothing but white space in the values tells apart what is marked alike. -/
theorem mark_eq_iff (hm : ∀ c ∈ mark, isBlank c = false) {segments' : List Segment} :
    withValues (markValue mark) segments' = withValues (markValue mark) segments ↔
      withValues normal segments' = withValues normal segments := by
  constructor <;> intro h
  · rw [← unmark_mark hm, h, unmark_mark hm]
  · rw [← mark_normal, h, mark_normal]

end

/-- What goes in front of classes: not nothing, and without white space or quotes. -/
def IsMark (mark : List Char) : Prop :=
  mark ≠ [] ∧ ∀ c ∈ mark, isBlank c = false ∧ c ≠ '"'

/-- Code with a mark if there is one. -/
def applied (mark? : Option String) (code : String) : String :=
  (mark?.map (apply · code)).getD code

theorem applied_of_blank {mark? : Option String} (h : ∀ mark ∈ mark?, Text.trim mark.toList = []) (code : String) :
    applied mark? code = code := by
  cases mark? with
  | none => rfl
  | some mark =>
    have ht : Text.trim mark.toList = [] := h mark rfl
    rw [applied, Option.map_some, Option.getD_some, apply, ht]

theorem toList_applied {mark : String} (h : Text.trim mark.toList ≠ []) (code : String) :
    (applied (some mark) code).toList = markFrom (Text.trim mark.toList) true code.toList := by
  rw [applied, Option.map_some, Option.getD_some, apply]
  split
  · contradiction
  · exact String.toList_ofList

/-- In Tailwind code the mark is the one that the settings ask for. -/
theorem generateMarked_tailwind {s : Settings} (hf : s.framework = .tailwind) (nodes : List Node) :
    generateMarked s nodes = applied s.customTailwindPrefix (generate s false nodes) := by
  unfold generateMarked
  rw [hf]
  cases hp : s.classPrefix? with
  | none =>
    have hm : s.mark = [] := Settings.classPrefix?_eq_none_iff.mp hp
    refine (applied_of_blank (fun mark h => ?_) _).symm
    rwa [Settings.mark, h] at hm
  | some mark =>
    have hc : s.customTailwindPrefix = some mark := (Option.filter_eq_some_iff.mp hp).1
    rw [hc]
    rfl

/-- Marking puts the marked classes, one space apart, into every class attribute of a text and leaves the rest. Taking
the marks off again gives the text back up to white space between classes, so no more than that is lost. -/
theorem class_values_are_substituted (code : String) :
    (∀ mark? : Option String, (∀ mark ∈ mark?, Text.trim mark.toList = []) → applied mark? code = code) ∧
    ∃ segments, Scans true code.toList segments ∧ (∀ other, Scans true code.toList other → other = segments) ∧
      written segments = code.toList ∧
      ∀ prefixed : String, IsMark (Text.trim prefixed.toList) →
        let mark := Text.trim prefixed.toList
        let marked := withValues (markValue mark) segments
        let result := applied (some prefixed) code
        result.toList = written marked ∧
        (∀ other, Scans true result.toList other ↔ other = marked) ∧
        withValues (unmarkValue mark) marked = withValues normal segments ∧
        ∀ code' segments', Scans true code'.toList segments' →
          (applied (some prefixed) code' = result ↔
            withValues normal segments' = withValues normal segments) := by
  refine ⟨fun mark? h => applied_of_blank h code, ?_⟩
  obtain ⟨segments, hs⟩ := exists_scans true code.toList
  refine ⟨segments, hs, fun other h => h.unique hs, hs.written_eq, ?_⟩
  intro prefixed hp mark marked result
  have hm : ∀ c ∈ mark, isBlank c = false := fun c hc => (hp.2 c hc).1
  have hq : '"' ∉ mark := fun h => (hp.2 _ h).2 rfl
  have hw {code : String} {segments : List Segment} (hs : Scans true code.toList segments) :
      (applied (some prefixed) code).toList = written (withValues (markValue mark) segments) :=
    (toList_applied hp.1 code).trans (hs.markFrom_eq rfl)
  have hf : ∀ value, '"' ∉ value → '"' ∉ markValue mark value := fun _ => quote_not_mem_markValue hq
  have hr {code : String} {segments : List Segment} (hs : Scans true code.toList segments) :
      Scans true (applied (some prefixed) code).toList (withValues (markValue mark) segments) := by
    rw [hw hs]
    exact hs.replaced hf
  refine ⟨hw hs, fun other => ⟨fun h => h.unique (hr hs), fun h => h ▸ hr hs⟩, unmark_mark hm segments, ?_⟩
  intro code' segments' hs'
  rw [← mark_eq_iff hm]
  constructor <;> intro h
  · exact (hr hs').unique (h ▸ hr hs)
  · rw [← String.toList_inj, hw hs', hw hs, h]

/-- The minus of a negative utility stays in front, and of the white space nothing is left but one space. -/
theorem classes_at_start :
    let code := "class=\"px-2  -ml-1\""
    IsMark (Text.trim " tw- ".toList) ∧ applied (some " ") code = code ∧
      applied (some " tw- ") code = "class=\"tw-px-2 -tw-ml-1\"" ∧
      applied (some " tw- ") "class=\" px-2 -ml-1\"" = applied (some " tw- ") code := by
  intro code
  have scans {cs : List Char} (value : List Char) (he : cs = "class=\"".toList ++ (value ++ ['"']))
      (hq : '"' ∉ value) : Scans true cs [.classes [] "class=\"".toList value] :=
    .take ⟨he, .inl ⟨rfl, rfl⟩, List.mem_cons_self, hq⟩ .nil
  have hc : Scans true code.toList _ := scans "px-2  -ml-1".toList (by decide) (by decide)
  have hc' : Scans true "class=\" px-2 -ml-1\"".toList _ := scans " px-2 -ml-1".toList (by decide) (by decide)
  have hm : IsMark (Text.trim " tw- ".toList) := by unfold IsMark; decide
  obtain ⟨hb, segments, -, hu, -, hs⟩ := class_values_are_substituted code
  obtain rfl := hu _ hc
  obtain ⟨hw, -, -, hi⟩ := hs " tw- " hm
  refine ⟨hm, hb (some " ") ?_, ?_, (hi _ _ hc').mpr (by decide)⟩
  · rintro mark ⟨⟩
    decide
  · rw [← String.toList_inj, hw]
    decide

end SceneCode.ClassPrefix
