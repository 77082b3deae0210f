import SceneCode.Color.Palette
import SceneCode.Proofs.Number.Values

namespace SceneCode.Palette
variable {c : Rgb} {seen : List (String × Rgb)} {best : String × Float}

/-- No entry is nearer than this one, and those before it are all farther. A distance that is not a number is not near. -/
def FirstNearest (c : Rgb) (entries : List (String × Rgb)) (named : String × Rgb) : Prop :=
  ∃ before after, entries = before ++ named :: after ∧
    (∀ e ∈ before, ¬ distance c e.2 ≤ distance c named.2) ∧ ∀ e ∈ after, ¬ distance c e.2 < distance c named.2

/-- The best entry so far with its distance, once one more entry has been seen. -/
def keepNearer (c : Rgb) (best : String × Float) (e : String × Rgb) : String × Float :=
  if distance c e.2 < best.2 then (e.1, distance c e.2) else best

theorem nearest_eq_foldl : nearest = fun c => (colors.foldl (keepNearer c) ("black", 1.0 / 0.0)).1 := by
  rw [nearest_eq]
  funext c
  exact congrArg (fun keep => (colors.foldl keep ("black", 1.0 / 0.0)).1) (funext₂ fun _ _ => rfl)

/-- What is known of the best entry and its distance once some entries have been seen. -/
structure Scanned (c : Rgb) (seen : List (String × Rgb)) (best : String × Float) : Prop where
  least : ∀ e ∈ seen, ¬ distance c e.2 < best.2
  first : best = ("black", 1.0 / 0.0) ∨ ∃ color, FirstNearest c seen (best.1, color) ∧ best.2 = distance c color

namespace Scanned

theorem start (c : Rgb) : Scanned c [] ("black", 1.0 / 0.0) where
  least := by simp
  first := .inl rfl

theorem nearer (h : Scanned c seen best) {e : String × Rgb} (he : distance c e.2 < best.2) :
    Scanned c (seen ++ [e]) (e.1, distance c e.2) where
  least := by
    intro e' hm hlt
    rcases List.mem_append.mp hm with hm | hm
    · exact h.least e' hm (Number.lt_of_le_of_lt (Number.le_of_lt hlt) he)
    · rw [List.mem_singleton.mp hm] at hlt
      exact Number.lt_irrefl _ hlt
  first := by
    refine .inr ⟨e.2, ⟨seen, [], rfl, fun e' hm hle => ?_, by simp⟩, rfl⟩
    exact h.least e' hm (Number.lt_of_le_of_lt hle he)

theorem farther (h : Scanned c seen best) {e : String × Rgb} (he : ¬ distance c e.2 < best.2) :
    Scanned c (seen ++ [e]) best where
  least := by
    intro e' hm
    rcases List.mem_append.mp hm with hm | hm
    · exact h.least e' hm
    · rwa [List.mem_singleton.mp hm]
  first := by
    refine h.first.imp_right ?_
    rintro ⟨color, ⟨before, after, rfl, hb, ha⟩, hd⟩
    refine ⟨color, ⟨before, after ++ [e], by simp, hb, fun e' hm => ?_⟩, hd⟩
    rcases List.mem_append.mp hm with hm | hm
    · exact ha e' hm
    · rwa [List.mem_singleton.mp hm, ← hd]

theorem run (h : Scanned c seen best) (entries : List (String × Rgb)) :
    Scanned c (seen ++ entries) (entries.foldl (keepNearer c) best) := by
  induction entries generalizing seen best with
  | nil => rwa [List.append_nil]
  | cons e entries ih =>
    rw [List.foldl_cons, ← List.singleton_append, ← List.append_assoc]
    refine ih ?_
    unfold keepNearer
    split
    · exact h.nearer ‹_›
    · exact h.farther ‹_›

end Scanned

theorem exists_colors_eq_cons : ∃ color rest, colors = ("black", color) :: rest := by
  have h : (Rgb.ofHex? "000000").isSome = true := by decide +kernel
  obtain ⟨color, hc⟩ := Option.isSome_iff_exists.mp h
  exact ⟨color, _, List.filterMap_cons_some (by simp only [hc, Option.map_some])⟩

/-- The name of a colour is that of the first of the nearest colours, also when no distance to it is a number. -/
theorem exists_firstNearest (c : Rgb) : ∃ color, FirstNearest c colors (nearest c, color) := by
  have hs := (Scanned.start c).run colors
  rw [List.nil_append] at hs
  rw [nearest_eq_foldl]
  dsimp only
  rcases hs.first with hb | ⟨color, hf, -⟩
  · -- Nothing was below infinity, so nothing is below the distance of the first entry.
    obtain ⟨color, rest, hc⟩ := exists_colors_eq_cons
    refine ⟨color, [], rest, ?_, by simp, fun e hm hlt => ?_⟩
    · rw [hb]
      exact hc
    · have hl := hs.least e (hc ▸ List.mem_cons_of_mem _ hm)
      rw [hb] at hl
      exact hl (Number.lt_infinity_of_lt hlt)
  · exact ⟨color, hf⟩

end SceneCode.Palette
