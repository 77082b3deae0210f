import Mathlib.Data.String.Basic
import SceneCode.Proofs.Color.Palette
import SceneCode.Proofs.Selection.Colors

namespace SceneCode.Selection
variable {t : Target} {seen : List Paint} {kept : List SolidColor} {k : String}

/-- Whether a paint is seen as a colour that is written as `k`. -/
def writes (t : Target) (k : String) (paint : Paint) : Bool :=
  (visibleSolid? paint).any fun p => t.color p.color p.opacity == k

/-- How many paints precede the first that is written as `k`. -/
def firstAt (t : Target) (paints : List Paint) (k : String) : Nat :=
  paints.findIdx (writes t k)

/-- What is kept once a paint more has been seen. -/
def keepPaint (t : Target) (kept : List SolidColor) (paint : Paint) : List SolidColor :=
  match visibleSolid? paint with
  | some p => keep kept (.of t p)
  | none => kept

theorem eq_solid {paint : Paint} {p : SolidPaint} (h : visibleSolid? paint = some p) : paint = .solid p := by
  cases paint <;> simp only [visibleSolid?, reduceCtorEq] at h
  split at h <;> cases h
  rfl

theorem writes_iff {paint : Paint} : writes t k paint = true ↔
    ∃ p, visibleSolid? paint = some p ∧ t.color p.color p.opacity = k := by
  simp [writes, Option.any_eq_true]

theorem firstAt_append (h : firstAt t seen k < seen.length) (rest : List Paint) :
    firstAt t (seen ++ rest) k = firstAt t seen k := by
  unfold firstAt at h ⊢
  rw [List.findIdx_append, if_pos h]

/-- A paint that is written like none before is met behind all others. -/
theorem find?_fresh {paint : Paint} (hw : writes t k paint = true) (hn : ∀ q ∈ seen, ¬ writes t k q = true) :
    (seen ++ [paint]).find? (writes t k) = some paint ∧ firstAt t (seen ++ [paint]) k = seen.length := by
  have hl : ¬ seen.findIdx (writes t k) < seen.length := by
    rw [List.findIdx_lt_length]
    rintro ⟨q, hm, hq⟩
    exact hn q hm hq
  constructor
  · rw [List.find?_append, List.find?_eq_none.mpr hn, Option.none_or, List.find?_cons, hw]
  · rw [firstAt, List.findIdx_append, if_neg hl, List.findIdx_cons, hw]
    exact Nat.zero_add _

/-- Every colour that was seen is kept, as it was seen first, and in the order of these. -/
structure Firsts (t : Target) (seen : List Paint) (kept : List SolidColor) : Prop where
  complete : ∀ k, ∀ paint ∈ seen, writes t k paint = true → k ∈ kept.map (·.exported)
  first : ∀ c ∈ kept, ∃ p, seen.find? (writes t c.exported) = some (.solid p) ∧ c = .of t p
  ordered : kept.Pairwise fun a b => firstAt t seen a.exported < firstAt t seen b.exported

namespace Firsts

theorem firstAt_lt (h : Firsts t seen kept) {c : SolidColor} (hc : c ∈ kept) :
    firstAt t seen c.exported < seen.length := by
  obtain ⟨p, hp, -⟩ := h.first c hc
  exact List.findIdx_lt_length.mpr ⟨_, List.mem_of_find?_eq_some hp, List.find?_some hp⟩

theorem nil (t : Target) : Firsts t [] [] where
  complete := by simp
  first := by simp
  ordered := .nil

theorem first_append (h : Firsts t seen kept) (rest : List Paint) :
    ∀ c ∈ kept, ∃ p, (seen ++ rest).find? (writes t c.exported) = some (.solid p) ∧ c = .of t p := by
  intro c hc
  obtain ⟨p, hp, hcp⟩ := h.first c hc
  exact ⟨p, by rw [List.find?_append, hp, Option.some_or], hcp⟩

theorem ordered_append (h : Firsts t seen kept) (rest : List Paint) :
    kept.Pairwise fun a b => firstAt t (seen ++ rest) a.exported < firstAt t (seen ++ rest) b.exported := by
  refine h.ordered.imp_of_mem fun ha hb hab => ?_
  rw [firstAt_append (h.firstAt_lt ha), firstAt_append (h.firstAt_lt hb)]
  exact hab

/-- A paint that brings nothing new leaves what is kept as it is. -/
theorem skip (h : Firsts t seen kept) {paint : Paint}
    (hk : ∀ k, writes t k paint = true → k ∈ kept.map (·.exported)) : Firsts t (seen ++ [paint]) kept where
  complete := by
    intro k q hq hw
    rcases List.mem_append.mp hq with hq | hq
    · exact h.complete k q hq hw
    · exact hk k (List.mem_singleton.mp hq ▸ hw)
  first := h.first_append [paint]
  ordered := h.ordered_append [paint]

theorem add (h : Firsts t seen kept) {p : SolidPaint} (hp : visibleSolid? (.solid p) = some p)
    (hk : (SolidColor.of t p).exported ∉ kept.map (·.exported)) :
    Firsts t (seen ++ [.solid p]) (kept ++ [.of t p]) := by
  have hw : writes t (SolidColor.of t p).exported (.solid p) = true := writes_iff.mpr ⟨p, hp, rfl⟩
  obtain ⟨hf, hi⟩ := find?_fresh hw fun q hq hw => hk (h.complete _ q hq hw)
  refine ⟨?_, ?_, List.pairwise_append.mpr ⟨h.ordered_append _, List.pairwise_singleton _ _, ?_⟩⟩
  · intro k q hq hw
    rw [List.map_append]
    rcases List.mem_append.mp hq with hq | hq
    · exact List.mem_append_left _ (h.complete k q hq hw)
    · obtain ⟨r, hr, rfl⟩ := writes_iff.mp hw
      rw [List.mem_singleton.mp hq, hp] at hr
      cases hr
      exact List.mem_append_right _ (List.mem_singleton.mpr rfl)
  · intro c hc
    rcases List.mem_append.mp hc with hc | hc
    · exact h.first_append _ c hc
    · rw [List.mem_singleton.mp hc]
      exact ⟨p, hf, rfl⟩
  · intro a ha b hb
    rw [List.mem_singleton.mp hb, hi, firstAt_append (h.firstAt_lt ha)]
    exact h.firstAt_lt ha

theorem step (h : Firsts t seen kept) (paint : Paint) : Firsts t (seen ++ [paint]) (keepPaint t kept paint) := by
  unfold keepPaint
  cases hp : visibleSolid? paint with
  | none =>
    refine h.skip fun k hw => ?_
    obtain ⟨p, hs, -⟩ := writes_iff.mp hw
    simp [hp] at hs
  | some p =>
    obtain rfl := eq_solid hp
    dsimp only [keep]
    split
    · rename_i hk
      refine h.skip fun k hw => ?_
      obtain ⟨q, hq, rfl⟩ := writes_iff.mp hw
      rw [hp] at hq
      cases hq
      exact any_exported.mp hk
    · rename_i hk
      exact h.add hp fun hm => hk (any_exported.mpr hm)

theorem run (h : Firsts t seen kept) (paints : List Paint) :
    Firsts t (seen ++ paints) (paints.foldl (keepPaint t) kept) := by
  induction paints generalizing seen kept with
  | nil => rwa [List.append_nil]
  | cons paint paints ih =>
    have hs := ih (h.step paint)
    rwa [List.append_assoc, List.singleton_append] at hs

end Firsts

/-- The entries before they are sorted. -/
def firstColors (t : Target) (paints : List Paint) : List SolidColor :=
  paints.foldl (keepPaint t) []

theorem firsts_firstColors (t : Target) (paints : List Paint) : Firsts t paints (firstColors t paints) :=
  (Firsts.nil t).run paints

theorem solidColors_eq (t : Target) (paints : List Paint) :
    solidColors t paints = (firstColors t paints).mergeSort fun a b => a.hex ≤ b.hex := by
  have hf : ((paints.filterMap visibleSolid?).map (SolidColor.of t)).foldl keep [] = firstColors t paints := by
    rw [List.foldl_map, List.foldl_filterMap]
    refine congrArg (List.foldl · [] paints) (funext fun kept => funext fun paint => ?_)
    unfold keepPaint
    cases visibleSolid? paint <;> rfl
  rw [← hf]
  rfl

theorem hex_trans (a b c : SolidColor) (hab : decide (a.hex ≤ b.hex) = true) (hbc : decide (b.hex ≤ c.hex) = true) :
    decide (a.hex ≤ c.hex) = true :=
  decide_eq_true (String.le_trans (of_decide_eq_true hab) (of_decide_eq_true hbc))

theorem hex_total (a b : SolidColor) : (decide (a.hex ≤ b.hex) || decide (b.hex ≤ a.hex)) = true := by
  simpa using String.le_total a.hex b.hex

/-- Sorting keeps the entries with the same digits in their order. -/
theorem filter_sorted (colors : List SolidColor) (hex : String) :
    (colors.mergeSort fun a b => a.hex ≤ b.hex).filter (·.hex = hex) = colors.filter (·.hex = hex) := by
  have hle : (colors.filter (·.hex = hex)).Pairwise fun a b => decide (a.hex ≤ b.hex) = true := by
    refine List.pairwise_of_forall_mem_list fun a ha b hb => ?_
    have ha := of_decide_eq_true (List.mem_filter.mp ha).2
    have hb := of_decide_eq_true (List.mem_filter.mp hb).2
    exact decide_eq_true (ha ▸ hb ▸ String.le_refl _)
  have hs := (List.sublist_mergeSort hex_trans hex_total hle List.filter_sublist).filter (·.hex = hex)
  rw [List.filter_filter] at hs
  simp only [Bool.and_self] at hs
  exact (hs.eq_of_length ((List.mergeSort_perm colors _).filter _).length_eq.symm).symm

/-- Of the colours that are written alike the first that is seen is listed, with its digits, its nearest name and its
contrasts, and the list is sorted by the digits, with equal digits in the order of these first ones. A colour that is
written like one before adds nothing. -/
theorem first_colors_are_listed (t : Target) (paints : List Paint) :
    ((solidColors t paints).map (·.exported)).Nodup ∧
    (∀ k, k ∈ (solidColors t paints).map (·.exported) ↔
      ∃ p : SolidPaint, (.solid p ∈ paints ∧ p.visible = true) ∧ t.color p.color p.opacity = k) ∧
    (∀ c ∈ solidColors t paints, ∃ p, paints.find? (writes t c.exported) = some (.solid p) ∧ c = .of t p ∧
      c.hex = p.color.hex ∧ c.name = Palette.nearest p.color ∧
      (∃ color, Palette.FirstNearest p.color Palette.colors (c.name, color)) ∧
      c.contrastBlack = Number.round (p.color.contrast .black * 100) / 100 ∧
      c.contrastWhite = Number.round (p.color.contrast .white * 100) / 100) ∧
    ((solidColors t paints).Pairwise fun a b =>
      a.hex < b.hex ∨ a.hex = b.hex ∧ firstAt t paints a.exported < firstAt t paints b.exported) ∧
    ∀ p : SolidPaint, t.color p.color p.opacity ∈ (solidColors t paints).map (·.exported) →
      solidColors t (paints ++ [.solid p]) = solidColors t paints := by
  have hf := firsts_firstColors t paints
  have hm {c : SolidColor} : c ∈ solidColors t paints ↔ c ∈ firstColors t paints := by
    rw [solidColors_eq, List.mem_mergeSort]
  refine ⟨nodup_exported t paints, fun k => mem_exported, fun c hc => ?_, ?_, fun p hp => ?_⟩
  · obtain ⟨p, hp, hcp⟩ := hf.first c (hm.mp hc)
    obtain ⟨hhex, hname, -, hblack, hwhite⟩ := SolidColor.eq_of_iff.mp hcp
    exact ⟨p, hp, hcp, hhex, hname, hname ▸ Palette.exists_firstNearest p.color, hblack, hwhite⟩
  · rw [solidColors_eq, List.pairwise_iff_forall_sublist]
    intro a b hab
    have hle := List.pairwise_iff_forall_sublist.mp (List.pairwise_mergeSort hex_trans hex_total _) hab
    rcases lt_or_eq_of_le (of_decide_eq_true hle) with hlt | heq
    · exact .inl hlt
    · have hs := hab.filter (·.hex = b.hex)
      rw [filter_sorted, List.filter_cons_of_pos (by simp [heq]), List.filter_cons_of_pos (by simp)] at hs
      exact .inr ⟨heq, List.pairwise_iff_forall_sublist.mp hf.ordered (hs.trans List.filter_sublist)⟩
  · have hk : firstColors t (paints ++ [.solid p]) = firstColors t paints := by
      obtain ⟨c, hc, he⟩ := List.mem_map.mp hp
      have ha : (firstColors t paints).any (·.exported == (SolidColor.of t p).exported) = true :=
        any_exported.mpr (List.mem_map.mpr ⟨c, hm.mp hc, he⟩)
      rw [firstColors, List.foldl_append, List.foldl_cons, List.foldl_nil, ← firstColors]
      unfold keepPaint
      split
      · rename_i q hq
        cases eq_solid hq
        rw [keep, if_pos ha]
      · rfl
    rw [solidColors_eq, solidColors_eq, hk]

end SceneCode.Selection
