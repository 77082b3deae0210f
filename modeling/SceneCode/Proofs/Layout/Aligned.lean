import SceneCode.Layout.Resolve
import SceneCode.Proofs.Number.Places

namespace SceneCode

/-- Lengths that are numbers stand in one line, and a difference is compared the same for equal ones. -/
class Length.Lawful (α : Type) [Length α] : Prop where
  trans : ∀ {a b c : α}, a ≤ b → b ≤ c → a ≤ c
  total : ∀ {a b : α}, a ≤ a → b ≤ b → a ≤ b ∨ b ≤ a
  sub_le : ∀ {a a' b b' c : α}, a ≤ a' → a' ≤ a → b ≤ b' → b' ≤ b → a - b ≤ c → a' - b' ≤ c

instance : Length.Lawful Float where
  trans := Number.le_trans
  total := Number.le_total
  sub_le ha ha' hb hb' := Number.sub_le_of_alike (Number.alike_of_le ha ha') (Number.alike_of_le hb hb')

/-- The edge of a box that an alignment goes by. Boxes have no baseline. -/
def Box.edge {α : Type} [Length α] (c : CrossAlign) (d : Direction) (b : Box α) : α :=
  match c with
  | .start | .baseline => b.start d
  | .center => b.middle d
  | .finish => b.finish d

namespace Infer

/-- What a fold picks is one of the list and stands behind all others, if each step picks one of two in that way. -/
theorem foldl_picks {α : Type} {R : α → α → Prop} {pick : α → α → α} (hr : ∀ {a b c}, R a b → R b c → R a c)
    (hp : ∀ {a b}, R a a → R b b → (pick a b = a ∨ pick a b = b) ∧ R a (pick a b) ∧ R b (pick a b))
    {x : α} {xs : List α} (hx : ∀ y ∈ x :: xs, R y y) :
    xs.foldl pick x ∈ x :: xs ∧ ∀ y ∈ x :: xs, R y (xs.foldl pick x) := by
  induction xs generalizing x with
  | nil => simpa using hx
  | cons z xs ih =>
    obtain ⟨hm, hxp, hzp⟩ := hp (hx x (by simp)) (hx z (by simp))
    have hsub : pick x z :: xs ⊆ x :: z :: xs := by
      intro y hy
      rcases List.mem_cons.mp hy with rfl | hy
      · rcases hm with h | h <;> simp [h]
      · simp [hy]
    obtain ⟨hi, hl⟩ := ih fun y hy => hx y (hsub hy)
    refine ⟨hsub hi, fun y hy => ?_⟩
    rcases List.mem_cons.mp hy with rfl | hy
    · exact hr hxp (hl _ (by simp))
    · rcases List.mem_cons.mp hy with rfl | hy
      · exact hr hzp (hl _ (by simp))
      · exact hl y (by simp [hy])

variable {α : Type} [Length α]

/-- All edges lie between two of them that are no farther apart than the tolerance. -/
def LinesUp (d : Direction) (c : CrossAlign) (boxes : List (Box α)) : Prop :=
  ∃ first ∈ boxes, ∃ last ∈ boxes, last.edge c d - first.edge c d ≤ tolerance ∧
    ∀ b ∈ boxes, first.edge c d ≤ b.edge c d ∧ b.edge c d ≤ last.edge c d

instance (d : Direction) (c : CrossAlign) (boxes : List (Box α)) : Decidable (LinesUp d c boxes) :=
  inferInstanceAs (Decidable (∃ first ∈ boxes, ∃ last ∈ boxes, _ ∧ ∀ b ∈ boxes, _ ∧ _))

theorem alignment_eq (d : Direction) (boxes : List (Box α)) : alignment d boxes =
    if spread (boxes.map (·.edge .start d)) ≤ tolerance then .start
    else if spread (boxes.map (·.edge .center d)) ≤ tolerance then .center
    else if spread (boxes.map (·.edge .finish d)) ≤ tolerance then .finish
    else .start :=
  rfl

theorem isSequential_cons (d : Direction) (a b : Box α) (boxes : List (Box α)) :
    isSequential d (a :: b :: boxes) = (decide (a.finish d ≤ b.start d + tolerance) && isSequential d (b :: boxes)) :=
  rfl

theorem gaps_cons (d : Direction) (a b : Box α) (boxes : List (Box α)) :
    gaps d (a :: b :: boxes) = (b.start d - a.finish d) :: gaps d (b :: boxes) :=
  rfl

/-- The flow that is guessed once its direction is settled. -/
def along (width height : α) (boxes : List (Box α)) (d : Direction) : Inference α where
  direction := d
  gap := whole (mean (gaps d boxes))
  top := whole (least (boxes.map (·.start .column)))
  right := whole (width - greatest (boxes.map (·.finish .row)))
  bottom := whole (height - greatest (boxes.map (·.finish .column)))
  left := whole (least (boxes.map (·.start .row)))
  cross := alignment d.across boxes

theorem infer_eq_some_iff {width height : α} {boxes : List (Box α)} {i : Inference α} :
    infer width height boxes = some i ↔ 2 ≤ boxes.length ∧
      ∃ d, direction? boxes = some d ∧ isEven (gaps d boxes) = true ∧ along width height boxes d = i := by
  unfold infer
  by_cases hl : boxes.length < 2
  · simp [hl]
  · rw [not_lt] at hl
    cases hd : direction? boxes with
    | none => simp [Nat.not_lt.mpr hl]
    | some d => cases he : isEven (gaps d boxes) <;> simp [Nat.not_lt.mpr hl, hl, he, along]

variable [Length.Lawful α]

theorem larger_picks {a b : α} (ha : a ≤ a) (hb : b ≤ b) :
    (Number.larger a b = a ∨ Number.larger a b = b) ∧ a ≤ Number.larger a b ∧ b ≤ Number.larger a b := by
  unfold Number.larger
  split
  · exact ⟨.inr rfl, ‹_›, hb⟩
  · exact ⟨.inl rfl, ha, (Length.Lawful.total ha hb).resolve_left ‹_›⟩

theorem smaller_picks {a b : α} (ha : a ≤ a) (hb : b ≤ b) :
    (Number.smaller a b = a ∨ Number.smaller a b = b) ∧ Number.smaller a b ≤ a ∧ Number.smaller a b ≤ b := by
  unfold Number.smaller
  split
  · exact ⟨.inl rfl, ha, ‹_›⟩
  · exact ⟨.inr rfl, (Length.Lawful.total ha hb).resolve_left ‹_›, hb⟩

theorem greatest_picks {xs : List α} (hn : xs ≠ []) (hx : ∀ x ∈ xs, x ≤ x) :
    greatest xs ∈ xs ∧ ∀ x ∈ xs, x ≤ greatest xs := by
  cases xs with
  | nil => exact absurd rfl hn
  | cons x xs => exact foldl_picks (R := (· ≤ ·)) Length.Lawful.trans larger_picks hx

theorem least_picks {xs : List α} (hn : xs ≠ []) (hx : ∀ x ∈ xs, x ≤ x) :
    least xs ∈ xs ∧ ∀ x ∈ xs, least xs ≤ x := by
  cases xs with
  | nil => exact absurd rfl hn
  | cons x xs => exact foldl_picks (R := fun a b => b ≤ a) (fun h h' => Length.Lawful.trans h' h) smaller_picks hx

variable {d : Direction} {c : CrossAlign} {boxes : List (Box α)}

theorem spread_le_iff (hn : boxes ≠ []) (hx : ∀ b ∈ boxes, b.edge c d ≤ b.edge c d) :
    spread (boxes.map (·.edge c d)) ≤ tolerance ↔ LinesUp d c boxes := by
  have hx' : ∀ x ∈ boxes.map (·.edge c d), x ≤ x := List.forall_mem_map.mpr hx
  have hn' : boxes.map (·.edge c d) ≠ [] := by simpa using hn
  obtain ⟨hlm, hll⟩ := least_picks hn' hx'
  obtain ⟨hgm, hgl⟩ := greatest_picks hn' hx'
  rw [List.forall_mem_map] at hll hgl
  obtain ⟨first, hfm, hf⟩ := List.mem_map.mp hlm
  obtain ⟨last, hlm, hl⟩ := List.mem_map.mp hgm
  constructor
  · intro h
    refine ⟨first, hfm, last, hlm, ?_, fun b hb => ?_⟩
    · rwa [hf, hl]
    · rw [hf, hl]
      exact ⟨hll b hb, hgl b hb⟩
  · rintro ⟨first', hfm', last', hlm', hd, hbt⟩
    -- The outermost edges are found at other boxes, perhaps, but they are equal.
    refine Length.Lawful.sub_le (hgl last' hlm') ?_ ?_ (hll first' hfm') hd
    · rw [← hl]
      exact (hbt last hlm).2
    · rw [← hf]
      exact (hbt first hfm).1

/-- The reported edges line up, or else none do. -/
theorem alignment_cases (hn : boxes ≠ []) (hx : ∀ c, ∀ b ∈ boxes, b.edge c d ≤ b.edge c d) :
    LinesUp d (alignment d boxes) boxes ∨ alignment d boxes = .start ∧ ∀ c, ¬ LinesUp d c boxes := by
  simp only [alignment_eq, spread_le_iff hn (hx _)]
  split
  · exact .inl ‹_›
  · split
    · exact .inl ‹_›
    · split
      · exact .inl ‹_›
      · refine .inr ⟨rfl, fun c => ?_⟩
        cases c <;> assumption

end Infer

/-- A box as scenes have them: none of its numbers is infinite or missing. -/
structure Box.IsFinite (b : Box Float) : Prop where
  x : b.x.isFinite = true
  y : b.y.isFinite = true
  width : b.width.isFinite = true
  height : b.height.isFinite = true

instance (b : Box Float) : Decidable b.IsFinite :=
  decidable_of_iff (b.x.isFinite ∧ b.y.isFinite ∧ b.width.isFinite ∧ b.height.isFinite)
    ⟨fun ⟨hx, hy, hw, hh⟩ => ⟨hx, hy, hw, hh⟩, fun h => ⟨h.x, h.y, h.width, h.height⟩⟩

namespace Box.IsFinite
variable {b : Box Float}

theorem start (h : b.IsFinite) (d : Direction) : (b.start d).isFinite = true := by
  cases d
  · exact h.x
  · exact h.y

theorem extent (h : b.IsFinite) (d : Direction) : (b.extent d).isFinite = true := by
  cases d
  · exact h.width
  · exact h.height

/-- Every edge is a number. -/
theorem edge_le_self (h : b.IsFinite) (c : CrossAlign) (d : Direction) : b.edge c d ≤ b.edge c d := by
  refine Number.le_self_iff.mpr ?_
  cases c with
  | start | baseline => exact Number.isNaN_of_isFinite (h.start d)
  | center => exact Number.isNaN_add (h.start d) (Number.isNaN_half (h.extent d))
  | finish => exact Number.isNaN_add (h.start d) (Number.isNaN_of_isFinite (h.extent d))

end Box.IsFinite

/-- A guessed hint reports edges that line up across the flow exactly if some do. Where none do, it is given all the
same and reports the first ones. -/
theorem Layout.hint_lines_up_iff {base : Base} {children : List Node} {hint : AutoLayout}
    (hf : ∀ b ∈ boxes children, b.IsFinite) (h : infer base children = some hint) :
    ∃ d, hint.mode = some d ∧
      (Infer.LinesUp d.across hint.cross (boxes children) ↔ ∃ c, Infer.LinesUp d.across c (boxes children)) ∧
      ((∀ c, ¬ Infer.LinesUp d.across c (boxes children)) → hint.cross = .start) := by
  obtain ⟨i, hi, rfl⟩ := Option.map_eq_some_iff.mp h
  obtain ⟨hl, d, -, -, rfl⟩ := Infer.infer_eq_some_iff.mp hi
  have hn : boxes children ≠ [] := List.ne_nil_of_length_pos (Nat.zero_lt_of_lt hl)
  have ha := Infer.alignment_cases (d := d.across) hn fun c b hb => (hf b hb).edge_le_self c d.across
  refine ⟨d, rfl, ⟨fun hr => ⟨_, hr⟩, ?_⟩, fun hno => ?_⟩
  · rintro ⟨c, hc⟩
    exact ha.resolve_right fun hno => hno.2 c hc
  · exact (ha.resolve_left (hno _)).1

/-- Steps that go down as they go along. -/
def stairs : List Node :=
  [.shape .rectangle (.named "A" 0 0 40 40), .shape .rectangle (.named "B" 50 50 40 40),
    .shape .rectangle (.named "C" 100 100 40 40)]

/-- The steps are taken for a row whose upper edges line up. -/
theorem stairs_misreported : (∀ b ∈ Layout.boxes stairs, b.IsFinite) ∧
    ∃ hint, Layout.infer (.named "Stairs" 0 0 200 200) stairs = some hint ∧ hint.mode = some .row ∧
      hint.cross = .start ∧ ¬ Infer.LinesUp .column hint.cross (Layout.boxes stairs) := by
  have hf : ∀ b ∈ Layout.boxes stairs, b.IsFinite := by decide +kernel
  have hs : ((Layout.infer (.named "Stairs" 0 0 200 200) stairs).map (·.mode)) = some (some .row) := by decide +kernel
  have hn : ∀ c, ¬ Infer.LinesUp .column c (Layout.boxes stairs) := by
    intro c
    cases c <;> decide +kernel
  obtain ⟨hint, h, hm⟩ := Option.map_eq_some_iff.mp hs
  obtain ⟨d, hd, -, hc⟩ := Layout.hint_lines_up_iff hf h
  cases hd.symm.trans hm
  exact ⟨hf, hint, h, hm, hc hn, hn _⟩

end SceneCode
