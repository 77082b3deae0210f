import SceneCode.Proofs.Tailwind.Looks

namespace SceneCode

namespace Declaration

def Values (P : String → Prop) (ds : List Declaration) : Prop :=
  ∀ d ∈ ds, P d.value

variable {P : String → Prop} {Q : Declaration → Prop} {ds es : List Declaration}

theorem forall_ite {c : Prop} [Decidable c] (h : ∀ d ∈ ds, Q d) : ∀ d ∈ if c then ds else [], Q d := by
  split
  · exact h
  · exact nofun

theorem forall_option {β : Type} {x : Option β} {f : β → Declaration} (h : ∀ b ∈ x, Q (f b)) :
    ∀ d ∈ x.toList.map f, Q d := by
  intro d hd
  obtain ⟨b, hb, rfl⟩ := List.mem_map.mp hd
  exact h b (Option.mem_toList.mp hb)

@[simp] theorem values_nil : Values P [] :=
  fun _ h => absurd h List.not_mem_nil

@[simp] theorem values_cons_set {k v : String} : Values P (set k v :: ds) ↔ P v ∧ Values P ds :=
  List.forall_mem_cons

@[simp] theorem values_append : Values P (ds ++ es) ↔ Values P ds ∧ Values P es :=
  List.forall_mem_append

theorem values_single {k v : String} (h : P v) : Values P [set k v] :=
  values_cons_set.mpr ⟨h, values_nil⟩

theorem values_ite {c : Prop} [Decidable c] (h : c → Values P ds) (h' : ¬c → Values P es) :
    Values P (if c then ds else es) := by
  split
  · exact h ‹_›
  · exact h' ‹_›

theorem values_option {β : Type} {x : Option β} {f : β → Declaration} (h : ∀ b ∈ x, P (f b).value) :
    Values P (x.toList.map f) :=
  forall_option h

end Declaration

theorem Styles.mem_entries_of_get? {s : Styles} {key v : String} (h : s.get? key = some v) : (key, v) ∈ s.entries := by
  obtain ⟨front, rest, he, -⟩ := List.lookup_eq_some_iff.mp h
  rw [he]
  exact List.mem_append_right _ List.mem_cons_self

namespace Target
variable (t : Target)

mutual
/-- Every style map of an element is the one that some aspects have. -/
theorem stylesIn_element (p : Piece Float) : ∀ s ∈ (t.element p).stylesIn, ∃ aspects, s = t.styles aspects := by
  cases p with
  | frame slot base flow clips children =>
    have hc := stylesIn_elements children
    exact List.forall_mem_cons.mpr ⟨⟨_, rfl⟩, hc⟩
  | group slot base children =>
    have hc := stylesIn_elements children
    exact List.forall_mem_cons.mpr ⟨⟨_, rfl⟩, hc⟩
  | shape slot base ellipse =>
    rw [element, shapeElement]
    split <;> exact List.forall_mem_cons.mpr ⟨⟨_, rfl⟩, nofun⟩
  | line slot base => exact List.forall_mem_cons.mpr ⟨⟨_, rfl⟩, nofun⟩
  | text slot base box =>
    have hs := t.element_styles (.text slot base box)
    simp only [element, textElement] at hs ⊢
    split <;> rename_i hr
    · rw [hr] at hs
      exact List.forall_mem_cons.mpr ⟨⟨_, hs⟩, nofun⟩
    · refine List.forall_mem_cons.mpr ⟨⟨_, rfl⟩, fun s hm => ?_⟩
      obtain ⟨run, hm, he⟩ := List.mem_filterMap.mp hm
      obtain ⟨r, -, rfl⟩ := List.mem_map.mp hm
      exact ⟨_, (Option.some.inj he).symm⟩

theorem stylesIn_elements (ps : List (Piece Float)) :
    ∀ s ∈ Element.stylesInAll (t.elements ps), ∃ aspects, s = t.styles aspects := by
  cases ps with
  | nil => exact nofun
  | cons p ps => exact List.forall_mem_append.mpr ⟨stylesIn_element p, stylesIn_elements ps⟩
end

theorem values_styles {t : Target} {P : String → Prop} (h : ∀ a, Declaration.Values P (t.declarations a))
    (ps : List (Piece Float)) : ∀ s ∈ Element.stylesInAll (t.elements ps), ∀ e ∈ s.entries, P e.2 := by
  intro s hs e he
  obtain ⟨aspects, rfl⟩ := t.stylesIn_elements ps s hs
  obtain ⟨a, -, d, hd, rfl⟩ := exists_of_mem_entries he
  exact h a d hd

end Target
end SceneCode
