import SceneCode.Proofs.ClassPrefix.Words

/-! A text as a row of segments, which are the class attributes in it and the characters besides. An attribute is taken
with the white space in front of it, and the search goes on behind the attribute. -/
namespace SceneCode.ClassPrefix
open Text (isBlank)

inductive Segment where
  | char (c : Char)
  | classes (separator opening value : List Char)
deriving DecidableEq

namespace Segment

def text : Segment → List Char
  | char c => [c]
  | classes separator opening value => separator ++ (opening ++ (value ++ ['"']))

def mapValue (f : List Char → List Char) : Segment → Segment
  | char c => char c
  | classes separator opening value => classes separator opening (f value)

end Segment

def written (segments : List Segment) : List Char :=
  segments.flatMap Segment.text

/-- The same segments with other values in the attributes. -/
def withValues (f : List Char → List Char) (segments : List Segment) : List Segment :=
  segments.map (.mapValue f)

theorem written_classes (f : List Char → List Char) (separator opening value : List Char) (segments : List Segment) :
    written (withValues f (.classes separator opening value :: segments)) =
      separator ++ (opening ++ (f value ++ '"' :: written (withValues f segments))) := by
  simp [written, withValues, Segment.mapValue, Segment.text]

/-- A class attribute is first in a text. It needs white space in front of it, unless the text starts there. -/
structure IsMatch (first : Bool) (cs separator opening value rest : List Char) : Prop where
  eq : cs = separator ++ (opening ++ (value ++ '"' :: rest))
  apart : (separator = [] ∧ first = true) ∨ ∃ c, separator = [c] ∧ isBlank c = true
  opening_mem : opening ∈ ["class=\"".toList, "className=\"".toList]
  unquoted : '"' ∉ value

/-- The attributes from left to right, none within another. -/
inductive Scans : Bool → List Char → List Segment → Prop where
  | nil {first : Bool} : Scans first [] []
  | skip {first : Bool} {c : Char} {cs : List Char} {segments : List Segment}
    (h : ∀ separator opening value rest, ¬IsMatch first (c :: cs) separator opening value rest)
    (hs : Scans false cs segments) : Scans first (c :: cs) (.char c :: segments)
  | take {first : Bool} {cs separator opening value rest : List Char} {segments : List Segment}
    (h : IsMatch first cs separator opening value rest) (hs : Scans false rest segments) :
    Scans first cs (.classes separator opening value :: segments)

section
variable {first first' : Bool} {c : Char} {cs ds separator opening value rest : List Char} {segments : List Segment}

theorem Scans.written_eq (h : Scans first cs segments) : written segments = cs := by
  induction h with
  | nil => rfl
  | skip h hs ih => exact congrArg (_ :: ·) ih
  | take h hs ih => simp [written, Segment.text, h.eq, ← ih]

theorem quote_split {as bs cs ds : List Char} (ha : '"' ∉ as) (hb : '"' ∉ bs) (h : as ++ '"' :: cs = bs ++ '"' :: ds) :
    as = bs ∧ cs = ds := by
  induction as generalizing bs with
  | nil =>
    cases bs with
    | nil => exact ⟨rfl, (List.cons.inj h).2⟩
    | cons b bs => exact absurd (List.mem_cons.mpr (.inl (List.cons.inj h).1)) hb
  | cons a as ih =>
    cases bs with
    | nil => exact absurd (List.mem_cons.mpr (.inl (List.cons.inj h).1.symm)) ha
    | cons b bs =>
      obtain ⟨rfl, ht⟩ := List.cons.inj h
      obtain ⟨rfl, rfl⟩ := ih (fun hm => ha (List.mem_cons_of_mem _ hm)) (fun hm => hb (List.mem_cons_of_mem _ hm)) ht
      exact ⟨rfl, rfl⟩

/-- An opening ends with its only quote. -/
theorem exists_word (h : opening ∈ ["class=\"".toList, "className=\"".toList]) :
    ∃ word, opening = word ++ ['"'] ∧ word ∈ openingWords ∧ '"' ∉ word ∧
      ∃ d tail, word = d :: tail ∧ isBlank d = false := by
  rcases List.mem_cons.mp h with rfl | h
  · exact ⟨"class=".toList, by decide, by decide, by decide, 'c', "lass=".toList, by decide, by decide⟩
  · obtain rfl := List.mem_singleton.mp h
    exact ⟨"className=".toList, by decide, by decide, by decide, 'c', "lassName=".toList, by decide, by decide⟩

theorem IsMatch.rest_shorter (h : IsMatch first cs separator opening value rest) : rest.length < cs.length := by
  have hl := congrArg List.length h.eq
  simp only [List.length_append, List.length_cons] at hl
  omega

theorem IsMatch.ne_nil (h : IsMatch first cs separator opening value rest) : cs ≠ [] :=
  List.ne_nil_of_length_pos (Nat.zero_lt_of_lt h.rest_shorter)

theorem IsMatch.unique {separator' opening' value' rest' : List Char}
    (h : IsMatch first cs separator opening value rest) (h' : IsMatch first' cs separator' opening' value' rest') :
    separator = separator' ∧ opening = opening' ∧ value = value' ∧ rest = rest' := by
  obtain ⟨word, rfl, -, hw, d, tail, rfl, hd⟩ := exists_word h.opening_mem
  obtain ⟨word', rfl, -, hw', d', tail', rfl, hd'⟩ := exists_word h'.opening_mem
  have he := h.eq.symm.trans h'.eq
  have hs : separator = separator' := by
    rcases h.apart with ⟨rfl, -⟩ | ⟨b, rfl, hb⟩ <;> rcases h'.apart with ⟨rfl, -⟩ | ⟨b', rfl, hb'⟩
    · rfl
    · obtain rfl : d = b' := (List.cons.inj he).1
      rw [hb'] at hd
      cases hd
    · obtain rfl : b = d' := (List.cons.inj he).1
      rw [hb] at hd'
      cases hd'
    · obtain rfl : b = b' := (List.cons.inj he).1
      rfl
  subst hs
  have ho := List.append_cancel_left he
  rw [List.append_assoc, List.append_assoc] at ho
  obtain ⟨hword, hv⟩ := quote_split hw hw' ho
  obtain ⟨rfl, rfl⟩ := quote_split h.unquoted h'.unquoted hv
  exact ⟨rfl, by rw [hword], rfl, rfl⟩

theorem Scans.unique {segments' : List Segment} (h : Scans first cs segments) (h' : Scans first cs segments') :
    segments = segments' := by
  induction h generalizing segments' with
  | nil =>
    cases h' with
    | nil => rfl
    | take h' hs' => exact absurd rfl h'.ne_nil
  | skip h hs ih =>
    cases h' with
    | skip h' hs' => rw [ih hs']
    | take h' hs' => exact absurd h' (h _ _ _ _)
  | take h hs ih =>
    cases h' with
    | nil => exact absurd rfl h.ne_nil
    | skip h' hs' => exact absurd h (h' _ _ _ _)
    | take h' hs' =>
      obtain ⟨rfl, rfl, rfl, rfl⟩ := h.unique h'
      rw [ih hs']

theorem exists_scans (first : Bool) (cs : List Char) : ∃ segments, Scans first cs segments := by
  by_cases h : ∃ separator opening value rest, IsMatch first cs separator opening value rest
  · obtain ⟨separator, opening, value, rest, h⟩ := h
    have hl := h.rest_shorter
    obtain ⟨segments, hs⟩ := exists_scans false rest
    exact ⟨_, .take h hs⟩
  · cases cs with
    | nil => exact ⟨_, .nil⟩
    | cons c cs =>
      obtain ⟨segments, hs⟩ := exists_scans false cs
      exact ⟨_, .skip (fun separator opening value rest hm => h ⟨_, _, _, _, hm⟩) hs⟩
termination_by cs.length

/-- The text starts with an opening and has a second quote, which ends the value. -/
def Opened (cs : List Char) : Prop :=
  cs.takeWhile (· != '"') ∈ openingWords ∧ 2 ≤ cs.count '"'

theorem takeWhile_quote {as : List Char} (h : '"' ∉ as) (bs : List Char) :
    (as ++ '"' :: bs).takeWhile (· != '"') = as := by
  have hp : ∀ c ∈ as, (c != '"') = true := fun c hc => bne_iff_ne.mpr fun he => h (he ▸ hc)
  rw [List.takeWhile_append_of_pos hp]
  simp

theorem exists_quote (h : 0 < cs.count '"') : ∃ as bs, cs = as ++ '"' :: bs ∧ '"' ∉ as := by
  obtain ⟨as, bs, he, hn⟩ := List.eq_append_cons_of_mem (List.count_pos_iff.mp h)
  exact ⟨as, bs, he, hn⟩

theorem opened_iff : Opened cs ↔ ∃ opening value rest, cs = opening ++ (value ++ '"' :: rest) ∧
    opening ∈ ["class=\"".toList, "className=\"".toList] ∧ '"' ∉ value := by
  constructor
  · rintro ⟨hw, hc⟩
    obtain ⟨as, bs, rfl, ha⟩ := exists_quote (by omega : 0 < cs.count '"')
    rw [takeWhile_quote ha] at hw
    rw [List.count_append, List.count_eq_zero.mpr ha, List.count_cons_self] at hc
    obtain ⟨value, rest, rfl, hv⟩ := exists_quote (by omega : 0 < bs.count '"')
    refine ⟨as ++ ['"'], value, rest, by simp, ?_, hv⟩
    rcases List.mem_cons.mp hw with rfl | hw
    · exact List.mem_cons_of_mem _ (List.mem_singleton_self _)
    · obtain rfl := List.mem_singleton.mp hw
      exact List.mem_cons_self
  · rintro ⟨opening, value, rest, rfl, ho, hv⟩
    obtain ⟨word, rfl, hw, hq, -⟩ := exists_word ho
    constructor
    · rwa [List.append_assoc, List.singleton_append, takeWhile_quote hq]
    · simp only [List.count_append, List.count_cons_self]
      omega

theorem exists_match_iff : (∃ separator opening value rest, IsMatch first (c :: cs) separator opening value rest) ↔
    (first = true ∧ Opened (c :: cs)) ∨ (isBlank c = true ∧ Opened cs) := by
  constructor
  · rintro ⟨separator, opening, value, rest, he, ha, ho, hv⟩
    rcases ha with ⟨rfl, hf⟩ | ⟨b, rfl, hb⟩
    · exact .inl ⟨hf, opened_iff.mpr ⟨opening, value, rest, he, ho, hv⟩⟩
    · obtain ⟨rfl, ht⟩ := List.cons.inj he
      exact .inr ⟨hb, opened_iff.mpr ⟨opening, value, rest, ht, ho, hv⟩⟩
  · rintro (⟨hf, h⟩ | ⟨hb, h⟩)
    · obtain ⟨opening, value, rest, he, ho, hv⟩ := opened_iff.mp h
      exact ⟨[], opening, value, rest, he, .inl ⟨rfl, hf⟩, ho, hv⟩
    · obtain ⟨opening, value, rest, rfl, ho, hv⟩ := opened_iff.mp h
      exact ⟨[c], opening, value, rest, rfl, .inr ⟨c, rfl, hb⟩, ho, hv⟩

/-- The same up to the first quote, and as many quotes. -/
def Alike (cs ds : List Char) : Prop :=
  cs.takeWhile (· != '"') = ds.takeWhile (· != '"') ∧ cs.count '"' = ds.count '"'

theorem Alike.cons (h : Alike cs ds) (c : Char) : Alike (c :: cs) (c :: ds) := by
  constructor
  · rw [List.takeWhile_cons, List.takeWhile_cons, h.1]
  · rw [List.count_cons, List.count_cons, h.2]

theorem Alike.opened (h : Alike cs ds) : Opened cs ↔ Opened ds := by
  rw [Opened, Opened, h.1, h.2]

theorem Alike.exists_match (h : Alike cs ds) :
    (∃ separator opening value rest, IsMatch first (c :: cs) separator opening value rest) ↔
      ∃ separator opening value rest, IsMatch first (c :: ds) separator opening value rest := by
  rw [exists_match_iff, exists_match_iff, h.opened, (h.cons c).opened]

section
variable {f : List Char → List Char} (hf : ∀ value, '"' ∉ value → '"' ∉ f value)
include hf

theorem IsMatch.alike (h : IsMatch first cs separator opening value rest) (hr : Alike rest ds) :
    Alike cs (separator ++ (opening ++ (f value ++ '"' :: ds))) := by
  obtain ⟨word, rfl, -, hw, -⟩ := exists_word h.opening_mem
  have hs : '"' ∉ separator ++ word := by
    rcases h.apart with ⟨rfl, -⟩ | ⟨b, rfl, hb⟩
    · exact hw
    · have hq : '"' ≠ b := by
        rintro rfl
        cases hb
      simp [hw, hq]
  have he (v ds : List Char) : separator ++ ((word ++ ['"']) ++ (v ++ '"' :: ds)) =
      (separator ++ word) ++ '"' :: (v ++ '"' :: ds) := by
    simp
  rw [h.eq, he, he]
  constructor
  · rw [takeWhile_quote hs, takeWhile_quote hs]
  · simp only [List.count_append, List.count_cons_self, List.count_eq_zero.mpr h.unquoted,
      List.count_eq_zero.mpr (hf value h.unquoted), hr.2]

theorem Scans.alike (h : Scans first cs segments) : Alike cs (written (withValues f segments)) := by
  induction h with
  | nil => exact ⟨rfl, rfl⟩
  | skip h hs ih => exact ih.cons _
  | take h hs ih =>
    rw [written_classes]
    exact h.alike hf ih

/-- With other values in the attributes a text has the same attributes in the same places. -/
theorem Scans.replaced (h : Scans first cs segments) :
    Scans first (written (withValues f segments)) (withValues f segments) := by
  induction h with
  | nil => exact .nil
  | skip h hs ih =>
    refine .skip (fun separator opening value rest hm => ?_) ih
    obtain ⟨_, _, _, _, hm⟩ := (hs.alike hf).exists_match.mpr ⟨separator, opening, value, rest, hm⟩
    exact h _ _ _ _ hm
  | take h hs ih =>
    exact .take ⟨written_classes .., h.apart, h.opening_mem, hf _ h.unquoted⟩ ih

end
end
end SceneCode.ClassPrefix
