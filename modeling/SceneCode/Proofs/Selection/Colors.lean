import SceneCode.Selection
import Mathlib.Data.List.Nodup

namespace SceneCode.Selection

/-- A colour is kept unless one that is written alike has been kept before. -/
def keep (kept : List SolidColor) (c : SolidColor) : List SolidColor :=
  if kept.any (·.exported == c.exported) then kept else kept ++ [c]

variable {kept colors : List SolidColor} {c : SolidColor} {k : String}

theorem any_exported : kept.any (·.exported == k) = true ↔ k ∈ kept.map (·.exported) := by
  simp [List.any_eq_true, List.mem_map]

theorem mem_keep : k ∈ (keep kept c).map (·.exported) ↔ k ∈ kept.map (·.exported) ∨ k = c.exported := by
  unfold keep
  split
  · rename_i h
    refine ⟨.inl, fun hk => hk.elim id ?_⟩
    rintro rfl
    exact any_exported.mp h
  · simp

theorem nodup_keep (h : (kept.map (·.exported)).Nodup) : ((keep kept c).map (·.exported)).Nodup := by
  unfold keep
  split
  · exact h
  · rename_i hn
    have hc : c.exported ∉ kept.map (·.exported) := fun hm => hn (any_exported.mpr hm)
    rw [List.map_append, List.nodup_append]
    refine ⟨h, List.nodup_singleton _, ?_⟩
    intro a ha b hb hab
    rw [hab, List.mem_singleton.mp hb] at ha
    exact hc ha

theorem mem_foldl_keep : k ∈ (colors.foldl keep kept).map (·.exported) ↔
    k ∈ kept.map (·.exported) ∨ k ∈ colors.map (·.exported) := by
  induction colors generalizing kept with
  | nil => simp
  | cons c colors ih => rw [List.foldl_cons, ih, mem_keep, List.map_cons, List.mem_cons, or_assoc]

theorem nodup_foldl_keep (h : (kept.map (·.exported)).Nodup) :
    ((colors.foldl keep kept).map (·.exported)).Nodup := by
  induction colors generalizing kept with
  | nil => exact h
  | cons c colors ih => exact ih (nodup_keep h)

variable (t : Target) (paints : List Paint)

/-- Sorting moves the entries about. -/
theorem solidColors_perm : (solidColors t paints).Perm
    (((paints.filterMap visibleSolid?).map (SolidColor.of t)).foldl keep []) :=
  List.mergeSort_perm _ _

theorem nodup_exported : ((solidColors t paints).map (·.exported)).Nodup :=
  ((solidColors_perm t paints).map _).nodup_iff.mpr (nodup_foldl_keep List.nodup_nil)

theorem mem_visibleSolid {p : SolidPaint} : p ∈ paints.filterMap visibleSolid? ↔ .solid p ∈ paints ∧ p.visible = true := by
  rw [List.mem_filterMap]
  constructor
  · rintro ⟨paint, hm, hp⟩
    cases paint <;> simp only [visibleSolid?, reduceCtorEq] at hp
    split at hp <;> cases hp
    exact ⟨hm, ‹_›⟩
  · rintro ⟨hm, hv⟩
    exact ⟨_, hm, by simp [visibleSolid?, hv]⟩

variable {t paints}

theorem mem_exported : k ∈ (solidColors t paints).map (·.exported) ↔
    ∃ p : SolidPaint, (.solid p ∈ paints ∧ p.visible = true) ∧ t.color p.color p.opacity = k := by
  rw [((solidColors_perm t paints).map _).mem_iff, mem_foldl_keep, List.map_map]
  simp [← mem_visibleSolid, SolidColor.of]

/-- What is seen has one entry. -/
theorem count_exported {p : SolidPaint} (h : .solid p ∈ paints) (hv : p.visible = true) :
    ((solidColors t paints).map (·.exported)).count (t.color p.color p.opacity) = 1 :=
  List.count_eq_one_of_mem (nodup_exported t paints) (mem_exported.mpr ⟨p, ⟨h, hv⟩, rfl⟩)

theorem gradient_exported {p : GradientPaint} (h : .gradient .linear p ∈ paints) (hv : p.visible = true) :
    t.gradient (.ofPaint p) ∈ (gradients t paints).map (·.exported) := by
  have hm : LinearGradient.ofPaint p ∈ paints.filterMap visibleLinear? :=
    List.mem_filterMap.mpr ⟨_, h, by simp [visibleLinear?, hv]⟩
  exact List.mem_map.mpr ⟨_, List.mem_map.mpr ⟨_, hm, rfl⟩, rfl⟩

end SceneCode.Selection
