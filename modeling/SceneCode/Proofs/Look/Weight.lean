import Mathlib.Algebra.GroupWithZero.Nat
import SceneCode.Proofs.Look.Erase

/-! What code loses with an entry of its styles. Code is weighed with its line breaks, since these bring spaces along
wherever the code is indented. -/
namespace SceneCode

/-- A line break weighs as much as the spaces that come with it, and one more. -/
def charWeight (spaces : Nat) (c : Char) : Nat :=
  if c = '\n' then spaces + 1 else 1

def weight (spaces : Nat) (code : String) : Nat :=
  (code.toList.map (charWeight spaces)).sum

section weight
variable {a : String} (n : Nat)

theorem weight_append (a b : String) : weight n (a ++ b) = weight n a + weight n b := by
  rw [weight, String.toList_append, List.map_append, List.sum_append]
  rfl

theorem weight_empty : weight n "" = 0 := by
  simp [weight]

theorem weight_pos (h : a ≠ "") : 0 < weight n a := by
  obtain ⟨c, cs, hc⟩ := List.exists_cons_of_ne_nil (mt String.toList_eq_nil_iff.mp h)
  have hp : 0 < charWeight n c := by
    unfold charWeight
    split <;> omega
  rw [weight, hc, List.map_cons, List.sum_cons]
  omega

theorem weight_mono {n m : Nat} (h : n ≤ m) (a : String) : weight n a ≤ weight m a := by
  unfold weight
  induction a.toList with
  | nil => exact Nat.le_refl _
  | cons c cs ih =>
    have hc : charWeight n c ≤ charWeight m c := by
      unfold charWeight
      split <;> omega
    rw [List.map_cons, List.map_cons, List.sum_cons, List.sum_cons]
    exact Nat.add_le_add hc ih

/-- Where code is indented, each of its line breaks comes with two more spaces. -/
theorem weight_indent (a : String) : weight n (Text.indent a) = weight (n + 2) a := by
  unfold weight Text.indent
  rw [String.toList_ofList]
  induction a.toList with
  | nil => rfl
  | cons c cs ih =>
    have hi : Text.indentChars (c :: cs) = (if c = '\n' then ['\n', ' ', ' '] else [c]) ++ Text.indentChars cs := rfl
    rw [hi, List.map_append, List.sum_append, ih, List.map_cons, List.sum_cons]
    by_cases hc : c = '\n'
    · subst hc
      rfl
    · simp [charWeight, hc]

theorem weight_join (vs : List String) : weight n (String.join vs) = (vs.map (weight n)).sum := by
  induction vs with
  | nil => exact weight_empty n
  | cons v vs ih => rw [String.join_cons, weight_append, ih, List.map_cons, List.sum_cons]

/-- What is additive weighs a row of values by the values and by what is between them. -/
theorem additive_intercalate {w : String → Nat} (ha : ∀ a b, w (a ++ b) = w a + w b) (hn : w "" = 0)
    (separator : String) (vs : List String) :
    w (separator.intercalate vs) = (vs.map w).sum + (vs.length - 1) * w separator := by
  induction vs with
  | nil => simpa using hn
  | cons v vs ih =>
    by_cases hv : vs = []
    · subst hv
      simp
    · have hl : 0 < vs.length := List.length_pos_iff.mpr hv
      rw [String.intercalate_cons_of_ne_nil hv, ha, ha, ih, List.map_cons, List.sum_cons, List.length_cons]
      obtain ⟨k, hk⟩ := Nat.exists_eq_add_of_lt hl
      rw [hk]
      simp only [Nat.zero_add, Nat.add_sub_cancel, Nat.add_mul, Nat.one_mul]
      omega

theorem weight_intercalate (separator : String) (vs : List String) :
    weight n (separator.intercalate vs) = (vs.map (weight n)).sum + (vs.length - 1) * weight n separator :=
  additive_intercalate (weight_append n) (weight_empty n) separator vs

end weight

/-- One weight is at most another whatever the indentation, and it is less if something is gone. -/
def Below (gone : Prop) (less more : Nat → Nat) : Prop :=
  ∀ n, less n ≤ more n ∧ (gone → less n < more n)

namespace Below
variable {gone gone' : Prop} {f f' g g' : Nat → Nat}

theorem refl (f : Nat → Nat) : Below False f f :=
  fun _ => ⟨Nat.le_refl _, nofun⟩

theorem mono (h : Below gone f g) (hg : gone' → gone) : Below gone' f g :=
  fun n => ⟨(h n).1, fun hg' => (h n).2 (hg hg')⟩

theorem add (h : Below gone f g) (h' : Below gone' f' g') :
    Below (gone ∨ gone') (fun n => f n + f' n) (fun n => g n + g' n) := by
  intro n
  obtain ⟨hl, hs⟩ := h n
  obtain ⟨hl', hs'⟩ := h' n
  refine ⟨Nat.add_le_add hl hl', ?_⟩
  rintro (hg | hg)
  · exact Nat.add_lt_add_of_lt_of_le (hs hg) hl'
  · exact Nat.add_lt_add_of_le_of_lt hl (hs' hg)

theorem const_add (h : Below gone f g) (c : Nat → Nat) : Below gone (fun n => c n + f n) (fun n => c n + g n) :=
  ((refl c).add h).mono .inr

theorem add_const (h : Below gone f g) (c : Nat → Nat) : Below gone (fun n => f n + c n) (fun n => g n + c n) :=
  (h.add (refl c)).mono .inl

/-- The weight of indented code. -/
theorem shift (h : Below gone f g) (k : Nat) : Below gone (fun n => f (n + k)) (fun n => g (n + k)) :=
  fun n => h (n + k)

theorem ne {a b : String} (h : Below gone (weight · a) (weight · b)) (hg : gone) : a ≠ b := by
  intro he
  have hl := (h 0).2 hg
  rw [he] at hl
  exact Nat.lt_irrefl _ hl

end Below

section
variable {β γ : Type}

theorem sum_filterMap_cons (find : β → Option γ) (w : γ → Nat) (x : β) (xs : List β) :
    (((x :: xs).filterMap find).map w).sum = (find x).elim 0 w + ((xs.filterMap find).map w).sum := by
  cases hx : find x with
  | none => simp [hx]
  | some y => simp [hx]

/-- What is found under some keys weighs less without one of them. -/
theorem below_found (xs : List β) (keyOf : β → String) (item : β → String → γ) (w : Nat → γ → Nat) (s : Styles)
    (key : String) :
    Below (∃ x ∈ xs, keyOf x = key ∧ ∃ v, s.get? key = some v ∧ ∀ n, 0 < w n (item x v))
      (fun n => ((xs.filterMap fun x => ((s.erase key).get? (keyOf x)).map (item x)).map (w n)).sum)
      (fun n => ((xs.filterMap fun x => (s.get? (keyOf x)).map (item x)).map (w n)).sum) := by
  induction xs with
  | nil => exact (Below.refl _).mono nofun
  | cons x xs ih =>
    have hx : Below (keyOf x = key ∧ ∃ v, s.get? key = some v ∧ ∀ n, 0 < w n (item x v))
        (fun n => (((s.erase key).get? (keyOf x)).map (item x)).elim 0 (w n))
        (fun n => ((s.get? (keyOf x)).map (item x)).elim 0 (w n)) := by
      intro n
      dsimp only
      by_cases hk : keyOf x = key
      · rw [Styles.get?_erase, if_pos hk, hk]
        refine ⟨Nat.zero_le _, ?_⟩
        rintro ⟨-, v, hv, hw⟩
        rw [hv]
        exact hw n
      · rw [Styles.get?_erase_of_ne s hk]
        exact ⟨Nat.le_refl _, fun h => absurd h.1 hk⟩
    simp only [sum_filterMap_cons]
    refine (hx.add ih).mono ?_
    rintro ⟨y, hy, hk⟩
    rcases List.mem_cons.mp hy with rfl | hy
    · exact .inl hk
    · exact .inr ⟨y, hy, hk⟩

theorem below_select (keys : List String) (w : Nat → String × String → Nat) (s : Styles) (key : String) :
    Below (key ∈ keys ∧ ∃ v, s.get? key = some v ∧ ∀ n, 0 < w n (key, v))
      (fun n => (((s.erase key).select keys).map (w n)).sum) (fun n => ((s.select keys).map (w n)).sum) := by
  refine (below_found keys id Prod.mk w s key).mono ?_
  rintro ⟨hk, hv⟩
  exact ⟨key, hk, rfl, hv⟩

theorem sum_filter (p : β → Bool) (w : β → Nat) (xs : List β) :
    ((xs.filter p).map w).sum ≤ (xs.map w).sum ∧
      ((∃ x ∈ xs, p x = false ∧ 0 < w x) → ((xs.filter p).map w).sum < (xs.map w).sum) := by
  induction xs with
  | nil => exact ⟨Nat.le_refl _, nofun⟩
  | cons x xs ih =>
    obtain ⟨hl, hs⟩ := ih
    rw [List.map_cons, List.sum_cons]
    cases hp : p x with
    | true =>
      rw [List.filter_cons_of_pos hp, List.map_cons, List.sum_cons]
      refine ⟨Nat.add_le_add_left hl _, ?_⟩
      rintro ⟨y, hy, hn, hw⟩
      rcases List.mem_cons.mp hy with rfl | hy
      · rw [hp] at hn
        cases hn
      · exact Nat.add_lt_add_left (hs ⟨y, hy, hn, hw⟩) _
    | false =>
      rw [List.filter_cons_of_neg (by simp [hp])]
      refine ⟨by omega, ?_⟩
      rintro ⟨y, hy, hn, hw⟩
      rcases List.mem_cons.mp hy with rfl | hy
      · omega
      · have := hs ⟨y, hy, hn, hw⟩
        omega

/-- The weight of a row of items: nothing without items, or else what is around the row, the items, and what is between
them. -/
def rowWeight (w : Nat → β → Nat) (around between : Nat → Nat) (xs : List β) (n : Nat) : Nat :=
  if xs.isEmpty then 0 else around n + ((xs.map (w n)).sum + (xs.length - 1) * between n)

/-- Without one of its items, a row weighs less. -/
theorem below_row (p : β → Bool) (w : Nat → β → Nat) (around between : Nat → Nat) (xs : List β) :
    Below (∃ x ∈ xs, p x = false ∧ ∀ n, 0 < w n x) (rowWeight w around between (xs.filter p))
      (rowWeight w around between xs) := by
  intro n
  have hm := Nat.mul_le_mul_right (between n) (Nat.sub_le_sub_right (List.length_filter_le p xs) 1)
  obtain ⟨hs, hlt⟩ := sum_filter p (w n) xs
  unfold rowWeight
  cases xs with
  | nil => exact ⟨Nat.le_refl _, nofun⟩
  | cons x xs =>
    rw [List.isEmpty_cons, if_neg Bool.false_ne_true]
    split
    · refine ⟨Nat.zero_le _, ?_⟩
      rintro ⟨y, hy, hp, hw⟩
      have hk := hlt ⟨y, hy, hp, hw n⟩
      omega
    · refine ⟨by omega, ?_⟩
      rintro ⟨y, hy, hp, hw⟩
      have hk := hlt ⟨y, hy, hp, hw n⟩
      omega

end

/-- Code that is lighter is another. -/
theorem Target.ShowsStyles.of_below {t : Target} {showNames : Bool} {aside asideInRuns : List String} {e : Element}
    (own : ∀ key, key ∉ aside → Below (∃ v, e.styles.get? key = some v ∧ v ≠ "")
      (fun n => weight n (t.render showNames (e.erase key))) (fun n => weight n (t.render showNames e)))
    (ofRuns : ∀ i s key, e.ofRun? i = some s → key ∉ asideInRuns → Below (∃ v, s.get? key = some v ∧ v ≠ "")
      (fun n => weight n (t.render showNames (e.eraseInRun i key))) (fun n => weight n (t.render showNames e))) :
    t.ShowsStyles showNames aside asideInRuns e where
  own key v hg hv hk := (own key hk).ne ⟨v, hg, hv⟩
  ofRuns i s key v hr hg hv hk := (ofRuns i s key hr hk).ne ⟨v, hg, hv⟩

end SceneCode
