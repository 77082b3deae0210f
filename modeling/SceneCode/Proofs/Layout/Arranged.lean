import SceneCode.Proofs.Layout.Exact

namespace SceneCode

namespace Inference

/-- Where the content of a frame begins. -/
def lead (i : Inference ℚ) : Direction → ℚ
  | .row => i.left
  | .column => i.top

/-- Where the content of a frame of the given size ends. -/
def limit (i : Inference ℚ) (width height : ℚ) : Direction → ℚ
  | .row => width - i.right
  | .column => height - i.bottom

/-- Where a flow puts a box across its direction. Only the size of the box is looked at. -/
def across (i : Inference ℚ) (width height : ℚ) (b : Box ℚ) : ℚ :=
  let d := i.direction.across
  match i.cross with
  | .start | .baseline => i.lead d
  | .center => (i.lead d + i.limit width height d - b.extent d) / 2
  | .finish => i.limit width height d - b.extent d

/-- Where a flow puts boxes from a place on, along and across its direction. -/
def placeFrom (i : Inference ℚ) (width height place : ℚ) : List (Box ℚ) → List (ℚ × ℚ)
  | [] => []
  | b :: bs => (place, i.across width height b) ::
      i.placeFrom width height (place + b.extent i.direction + i.gap) bs

def place (i : Inference ℚ) (width height : ℚ) (boxes : List (Box ℚ)) : List (ℚ × ℚ) :=
  i.placeFrom width height (i.lead i.direction) boxes

end Inference

/-- Boxes are spaced by a gap, each behind the one before. -/
def Spaced (d : Direction) (gap : ℚ) (boxes : List (Box ℚ)) : Prop :=
  boxes.IsChain fun a b => b.start d = a.finish d + gap

/-- The boxes reach from one place to another. -/
structure Spans (d : Direction) (boxes : List (Box ℚ)) (lead limit : ℚ) : Prop where
  least : IsLeast {x | x ∈ boxes.map (·.start d)} lead
  greatest : IsGreatest {x | x ∈ boxes.map (·.finish d)} limit

/-- At least two boxes stand in a frame of the given size as the flow says: one behind the other with its gap, lined up
by its edges, and as far from the frame as its paddings. The gap and the paddings are whole. -/
structure Arranged (i : Inference ℚ) (width height : ℚ) (boxes : List (Box ℚ)) : Prop where
  several : 2 ≤ boxes.length
  size : ∀ b ∈ boxes, ∀ d, 2 ≤ b.extent d
  spaced : Spaced i.direction i.gap boxes
  linedUp : ∀ a ∈ boxes, ∀ b ∈ boxes, a.edge i.cross i.direction.across = b.edge i.cross i.direction.across
  spans : ∀ d, Spans d boxes (i.lead d) (i.limit width height d)
  whole : ∀ x ∈ [i.gap, i.top, i.right, i.bottom, i.left], ∃ n : ℕ, x = n

namespace Spaced
variable {d : Direction} {gap : ℚ} {boxes : List (Box ℚ)}

theorem gaps_eq (h : Spaced d gap boxes) : Infer.gaps d boxes = List.replicate (boxes.length - 1) gap := by
  induction boxes with
  | nil => rfl
  | cons a boxes ih =>
    cases boxes with
    | nil => rfl
    | cons b boxes =>
      obtain ⟨hab, hb⟩ := List.isChain_cons_cons.mp h
      rw [Infer.gaps_cons, ih hb, hab, add_sub_cancel_left]
      rfl

theorem isSequential (h : Spaced d gap boxes) (hg : 0 ≤ gap) : Infer.isSequential d boxes = true := by
  induction boxes with
  | nil => rfl
  | cons a boxes ih =>
    cases boxes with
    | nil => rfl
    | cons b boxes =>
      obtain ⟨hab, hb⟩ := List.isChain_cons_cons.mp h
      rw [Infer.isSequential_cons, ih hb, Bool.and_true, decide_eq_true_iff, hab, Infer.tolerance_eq]
      linarith

/-- Of spaced boxes the first begins first. -/
theorem start_le {b : Box ℚ} (h : Spaced d gap (b :: boxes)) (hg : 0 ≤ gap) (hs : ∀ a ∈ b :: boxes, 0 ≤ a.extent d) :
    ∀ a ∈ b :: boxes, b.start d ≤ a.start d := by
  induction boxes generalizing b with
  | nil => simp
  | cons c boxes ih =>
    obtain ⟨hbc, hc⟩ := List.isChain_cons_cons.mp h
    have hle : b.start d ≤ c.start d := by
      have hb := hs b (by simp)
      rw [hbc, Box.finish]
      linarith
    intro a ha
    rcases List.mem_cons.mp ha with rfl | ha
    · exact le_rfl
    · exact hle.trans (ih hc (fun a ha => hs a (by simp [ha])) a ha)

/-- Spaced boxes are put back where they were along the flow. -/
theorem forall_placeFrom {i : Inference ℚ} {place : ℚ} (width height : ℚ) (h : Spaced i.direction i.gap boxes)
    (hp : ∀ b ∈ boxes.head?, b.start i.direction = place) :
    List.Forall₂ (fun b (p : ℚ × ℚ) => p.1 = b.start i.direction ∧ p.2 = i.across width height b) boxes
      (i.placeFrom width height place boxes) := by
  induction boxes generalizing place with
  | nil => exact .nil
  | cons a boxes ih =>
    have ha : a.start i.direction = place := hp a rfl
    refine .cons ⟨ha.symm, rfl⟩ (ih h.tail ?_)
    cases boxes with
    | nil => simp
    | cons b boxes =>
      have hab := (List.isChain_cons_cons.mp h).1
      rintro _ ⟨⟩
      rw [hab, Box.finish, ha]

end Spaced

theorem Box.middle_eq (d : Direction) (b : Box ℚ) : b.middle d = b.start d + b.extent d / 2 := by
  norm_num [middle]

/-- A flow moves no box by more than the tolerance across its direction, if the edges that it goes by line up. -/
theorem Infer.LinesUp.abs_across_sub_le {i : Inference ℚ} {width height : ℚ} {boxes : List (Box ℚ)}
    (h : LinesUp i.direction.across i.cross boxes)
    (hs : Spans i.direction.across boxes (i.lead i.direction.across) (i.limit width height i.direction.across)) :
    ∀ b ∈ boxes, |i.across width height b - b.start i.direction.across| ≤ 1 := by
  obtain ⟨first, -, last, -, hd, hbt⟩ := h
  rw [tolerance_eq] at hd
  have hedge : ∀ a ∈ boxes, ∀ b ∈ boxes,
      a.edge i.cross i.direction.across - b.edge i.cross i.direction.across ≤ 1 := by
    intro a ha b hb
    linarith [(hbt a ha).2, (hbt b hb).1]
  obtain ⟨a, ha, hlead⟩ := List.mem_map.mp hs.least.1
  obtain ⟨z, hz, hlimit⟩ := List.mem_map.mp hs.greatest.1
  have hlow : ∀ b ∈ boxes, i.lead i.direction.across ≤ b.start i.direction.across :=
    List.forall_mem_map.mp hs.least.2
  have hhigh : ∀ b ∈ boxes, b.finish i.direction.across ≤ i.limit width height i.direction.across :=
    List.forall_mem_map.mp hs.greatest.2
  intro b hb
  have hab := hedge a ha b hb
  have hba := hedge b hb a ha
  have hzb := hedge z hz b hb
  have hbz := hedge b hb z hz
  unfold Inference.across
  rw [abs_le]
  cases hc : i.cross with
  | start | baseline =>
    simp only [hc, Box.edge] at hab hba ⊢
    constructor <;> linarith
  | center =>
    -- The middle of the content lies between the middles of the boxes that reach to its ends.
    have ha' := hhigh a ha
    have hz' := hlow z hz
    simp only [hc, Box.edge, Box.middle_eq, Box.finish] at hab hba hzb hbz hlimit ha' ⊢
    constructor <;> linarith
  | finish =>
    simp only [hc, Box.edge, Box.finish] at hzb hbz hlimit ⊢
    constructor <;> linarith

namespace Arranged
variable {i : Inference ℚ} {width height : ℚ} {boxes : List (Box ℚ)}

theorem gap_nonneg (h : Arranged i width height boxes) : 0 ≤ i.gap := by
  obtain ⟨n, hn⟩ := h.whole i.gap (by simp)
  rw [hn]
  exact n.cast_nonneg

theorem ne_nil (h : Arranged i width height boxes) : boxes ≠ [] :=
  List.ne_nil_of_length_pos (Nat.zero_lt_of_lt h.several)

theorem gaps_ne (h : Arranged i width height boxes) : boxes.length - 1 ≠ 0 := by
  have hl := h.several
  omega

/-- Boxes that line up across the flow overlap there. -/
theorem isSequential_across (h : Arranged i width height boxes) :
    Infer.isSequential i.direction.across boxes = false := by
  match boxes, h with
  | a :: b :: boxes, h =>
    have hl := h.linedUp a (by simp) b (by simp)
    have ha := h.size a (by simp) i.direction.across
    have hb := h.size b (by simp) i.direction.across
    have hn : ¬ a.finish i.direction.across ≤ b.start i.direction.across + Infer.tolerance := by
      rw [Infer.tolerance_eq]
      cases hc : i.cross <;> simp only [hc, Box.edge, Box.middle_eq, Box.finish] at hl ⊢ <;> linarith
    rw [Infer.isSequential_cons, decide_eq_false hn, Bool.false_and]
  | [_], h => exact absurd h.several (by simp)
  | [], h => exact absurd h.several (by simp)

theorem direction?_eq (h : Arranged i width height boxes) : Infer.direction? boxes = some i.direction := by
  have hs := h.spaced.isSequential h.gap_nonneg
  have hn := h.isSequential_across
  unfold Infer.direction?
  cases hd : i.direction with
  | row => rw [if_pos (hd ▸ hs)]
  | column =>
    rw [hd] at hs hn
    rw [if_neg (by simpa [Direction.across] using hn), if_pos hs]

/-- The gap and the paddings are found as they are. -/
theorem along_eq (h : Arranged i width height boxes) : Infer.along width height boxes i.direction =
    { i with cross := Infer.alignment i.direction.across boxes } := by
  have hwhole : ∀ x ∈ [i.gap, i.top, i.right, i.bottom, i.left], Infer.whole x = x := by
    intro x hx
    obtain ⟨n, rfl⟩ := h.whole x hx
    exact Infer.whole_natCast n
  have hgap : Infer.mean (Infer.gaps i.direction boxes) = i.gap := by
    rw [h.spaced.gaps_eq, Infer.mean_replicate h.gaps_ne]
  have htop : Infer.least (boxes.map (·.start .column)) = i.top := Infer.least_eq (h.spans .column).least
  have hleft : Infer.least (boxes.map (·.start .row)) = i.left := Infer.least_eq (h.spans .row).least
  have hright : width - Infer.greatest (boxes.map (·.finish .row)) = i.right := by
    rw [Infer.greatest_eq (h.spans .row).greatest]
    exact sub_sub_cancel width i.right
  have hbottom : height - Infer.greatest (boxes.map (·.finish .column)) = i.bottom := by
    rw [Infer.greatest_eq (h.spans .column).greatest]
    exact sub_sub_cancel height i.bottom
  rw [Infer.along, hgap, htop, hleft, hright, hbottom, hwhole i.gap (by simp), hwhole i.top (by simp),
    hwhole i.right (by simp), hwhole i.bottom (by simp), hwhole i.left (by simp)]

theorem infer_eq (h : Arranged i width height boxes) :
    Infer.infer width height boxes = some { i with cross := Infer.alignment i.direction.across boxes } := by
  refine Infer.infer_eq_some_iff.mpr ⟨h.several, i.direction, h.direction?_eq, ?_, h.along_eq⟩
  rw [h.spaced.gaps_eq]
  exact Infer.isEven_replicate h.gaps_ne i.gap

/-- Boxes that line up exactly line up, so that the edges that are reported do. -/
theorem linesUp_alignment (h : Arranged i width height boxes) :
    Infer.LinesUp i.direction.across (Infer.alignment i.direction.across boxes) boxes := by
  have hx : Infer.LinesUp i.direction.across i.cross boxes := by
    obtain ⟨b, hb⟩ := List.exists_mem_of_ne_nil boxes h.ne_nil
    refine ⟨b, hb, b, hb, ?_, fun a ha => ?_⟩
    · rw [sub_self, Infer.tolerance_eq]
      exact zero_le_one
    · exact ⟨(h.linedUp b hb a ha).le, (h.linedUp a ha b hb).le⟩
  exact (Infer.alignment_cases h.ne_nil fun _ _ _ => le_rfl).resolve_right fun hn => hn.2 _ hx

theorem head_start (h : Arranged i width height boxes) :
    ∀ b ∈ boxes.head?, b.start i.direction = i.lead i.direction := by
  cases boxes with
  | nil => simp
  | cons b boxes =>
    rintro _ ⟨⟩
    have hs := h.spaced.start_le h.gap_nonneg fun a ha => zero_le_two.trans (h.size a ha i.direction)
    obtain ⟨a, ha, hlead⟩ := List.mem_map.mp (h.spans i.direction).least.1
    exact le_antisymm (hlead ▸ hs a ha) ((h.spans i.direction).least.2 (List.mem_map.mpr ⟨b, by simp, rfl⟩))

end Arranged

/-- With exact numbers, guessing finds the direction, the gap and the paddings of boxes that a flow has arranged, and
the flow that is found puts every box back, exactly along its direction and to the pixel across it. -/
theorem guessing_undoes_arranging {i : Inference ℚ} {width height : ℚ} {boxes : List (Box ℚ)}
    (h : Arranged i width height boxes) :
    ∃ cross, Infer.infer width height boxes = some { i with cross } ∧
      List.Forall₂ (fun b (p : ℚ × ℚ) =>
        p.1 = b.start i.direction ∧ |p.2 - b.start i.direction.across| ≤ 1)
        boxes (({ i with cross } : Inference ℚ).place width height boxes) := by
  refine ⟨Infer.alignment i.direction.across boxes, h.infer_eq, ?_⟩
  have hp := Spaced.forall_placeFrom (i := { i with cross := Infer.alignment i.direction.across boxes })
    width height h.spaced h.head_start
  have ha := h.linesUp_alignment.abs_across_sub_le
    (i := { i with cross := Infer.alignment i.direction.across boxes }) (h.spans i.direction.across)
  refine ((List.forall₂_and_left _ _).mpr ⟨ha, hp⟩).imp ?_
  rintro b ⟨along, across⟩ ⟨hb, rfl, rfl⟩
  exact ⟨rfl, hb⟩

/-- A row on a common ground line, with a box that is a pixel lower than the other. -/
def shelf : List (Box ℚ) := [⟨4, 1, 10, 10⟩, ⟨19, 2, 6, 9⟩]

/-- The upper edges are reported, which line up too. -/
theorem shelf_put_back :
    Arranged ⟨.row, 5, 1, 2, 3, 4, .finish⟩ 27 14 shelf ∧
    ∃ cross, Infer.infer 27 14 shelf = some ⟨.row, 5, 1, 2, 3, 4, cross⟩ ∧
      List.Forall₂ (fun b (p : ℚ × ℚ) => p.1 = b.start .row ∧ |p.2 - b.start .column| ≤ 1) shelf
        ((⟨.row, 5, 1, 2, 3, 4, cross⟩ : Inference ℚ).place 27 14 shelf) := by
  have h : Arranged ⟨.row, 5, 1, 2, 3, 4, .finish⟩ 27 14 shelf := {
    several := by decide
    size := by
      intro b hb d
      simp only [shelf, List.mem_cons, List.not_mem_nil, or_false] at hb
      rcases hb with rfl | rfl <;> cases d <;> norm_num [Box.extent]
    spaced := by
      norm_num [Spaced, shelf, Box.start, Box.finish, Box.extent]
    linedUp := by
      norm_num [shelf, Box.edge, Direction.across, Box.finish, Box.start, Box.extent]
    spans := by
      intro d
      cases d <;> constructor <;> constructor <;>
        norm_num [shelf, Inference.lead, Inference.limit, lowerBounds, upperBounds, Box.finish, Box.start, Box.extent]
    whole := by
      simp only [List.forall_mem_cons, List.not_mem_nil, false_imp_iff, implies_true, and_true]
      exact ⟨⟨5, rfl⟩, ⟨1, rfl⟩, ⟨2, rfl⟩, ⟨3, rfl⟩, ⟨4, rfl⟩⟩ }
  exact ⟨h, guessing_undoes_arranging h⟩

end SceneCode
