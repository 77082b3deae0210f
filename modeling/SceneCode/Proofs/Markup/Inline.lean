import SceneCode.Proofs.Code.Texts
import SceneCode.Proofs.Skeleton
import SceneCode.Proofs.Tailwind.Looks

namespace SceneCode

namespace Tailwind

/-- One class, and not the one of a flex box. -/
def Boxless (v : String) : Prop :=
  Plain v ∧ v ≠ "flex"

instance (v : String) : Decidable (Boxless v) :=
  inferInstanceAs (Decidable (_ ∧ _))

theorem boxless_of_hyphen {v : String} (hp : Plain v) (hm : '-' ∈ v.toList) : Boxless v := by
  refine ⟨hp, ?_⟩
  rintro rfl
  revert hm
  decide

theorem flex_not_mem_wordsOf {vs : List String} (h : ∀ v ∈ vs, Boxless v) : "flex".toList ∉ wordsOf vs := by
  intro hm
  obtain ⟨v, hv, hm⟩ := List.mem_flatMap.mp hm
  obtain ⟨hp, hn⟩ := h v (List.mem_filter.mp hv).1
  have hs : ' ' ∉ v.toList := fun hs => absurd (hp ' ' hs) (by decide)
  rw [List.splitOn_eq_singleton hs, List.mem_singleton, String.toList_inj] at hm
  exact hn hm.symm

theorem boxless_textAlign (horizontal : HorizontalAlign) : ∀ d ∈ textAlign horizontal .top, Boxless d.value := by
  cases horizontal <;> decide

theorem flex_mem_wordsOf {vs : List String} (h : "flex" ∈ vs) : "flex".toList ∈ wordsOf vs :=
  List.mem_flatMap.mpr ⟨"flex", List.mem_filter.mpr ⟨h, by decide⟩, by decide⟩

theorem boxless_spacing (o : Options) {utility : String} (h : Plain utility) (x : Float) :
    Boxless (spacing o utility x) := by
  refine boxless_of_hyphen (plain_spacing o h x) ?_
  unfold spacing
  split <;> simp

theorem boxless_extent (o : Options) (key : String) {utility : String} (h : Plain utility) (primary : Bool)
    (e : Extent) : ∀ d ∈ extent o key utility primary e, Boxless d.value := by
  intro d hd
  cases e with
  | fixed length =>
    rw [List.mem_singleton.mp hd]
    exact boxless_spacing o h length
  | fill =>
    cases primary <;> rw [List.mem_singleton.mp hd] <;> decide
  | hug => cases hd

theorem boxless_blend (o : Options) (opacity rotation : Float) :
    ∀ d ∈ declarations o (.blend opacity rotation), Boxless d.value := by
  intro d hd
  rcases List.mem_append.mp hd with hd | hd
  · obtain ⟨-, hd⟩ := List.mem_ite_nil_right.mp hd
    rw [List.mem_singleton.mp hd]
    refine boxless_of_hyphen (plain_blendOpacity opacity) ?_
    simp only [Declaration.set, blendOpacity]
    split <;> simp
  · obtain ⟨-, hd⟩ := List.mem_ite_nil_right.mp hd
    rcases List.mem_pair.mp hd with rfl | rfl
    · exact boxless_of_hyphen (by simp [Declaration.set]; decide) (by simp [Declaration.set])
    · decide

end Tailwind

theorem Tailwind.boxless_of_isPlacement (o : Options) {a : Aspect} (h : a.IsPlacement) :
    ∀ d ∈ declarations o a, Boxless d.value := by
  cases a with
  | size s =>
    exact List.forall_mem_append.mpr ⟨boxless_extent o _ (by decide) _ _, boxless_extent o _ (by decide) _ _⟩
  | position x y =>
    intro d hd
    simp only [declarations, List.mem_cons, List.not_mem_nil, or_false] at hd
    rcases hd with rfl | rfl | rfl
    · decide
    · exact boxless_spacing o (by decide) x
    · exact boxless_spacing o (by decide) y
  | blend opacity rotation => exact boxless_blend o opacity rotation
  | _ => exact h.elim

/-- A text of several runs that is moved down in its box. -/
def Node.SplitsRuns : Node → Prop
  | .text _ box => 2 ≤ box.shownRuns.length ∧ box.vertical ≠ .top
  | _ => False

instance : DecidablePred Node.SplitsRuns
  | .text .. => inferInstanceAs (Decidable (_ ∧ _))
  | .frame .. | .group .. | .shape .. | .unknown => .isFalse id

/-- What stands in an element: one run is the text itself, several are a span each. -/
def Element.runs : Element → List Run
  | .text _ _ runs => runs
  | _ => []

namespace Target
variable {t : Target}

/-- The styles lay out what is in the element as a row or column: by `display`, or by the class for it. -/
def IsFlexBox (t : Target) (s : Styles) : Prop :=
  match t with
  | .html _ => s.get? "display" = some "flex"
  | .tailwind .. => "flex".toList ∈ Tailwind.classesOf s
  | _ => False

/-- The spans of an element are items of a flex box. -/
def SplitsRuns (t : Target) (e : Element) : Prop :=
  2 ≤ e.runs.length ∧ t.IsFlexBox e.styles

/-- What a node is written with inside its element. -/
def runsIn (t : Target) : Node → List Run
  | .text base box => t.runsOf base box
  | _ => []

theorem display_not_mem_keysOf (ht : t.isMarkup = true) {a : Aspect} (h : a.IsPlacement) : "display" ∉ t.keysOf a := by
  cases t with
  | flutter | swiftUI => cases ht
  | html =>
    cases a with
    | size | position | blend => simp [keysOf, Html.keysOf]
    | _ => exact h.elim
  | tailwind =>
    cases a with
    | size | position | blend => simp [keysOf, Tailwind.keysOf]
    | _ => exact h.elim

/-- Text is pushed down by making its element a flex box. -/
theorem display_of_textAlign (ht : t.isMarkup = true) (horizontal : HorizontalAlign) (vertical : VerticalAlign) :
    ∀ d ∈ t.declarations (.textAlign horizontal vertical), d.key = "display" → vertical ≠ .top ∧ d.value = "flex" := by
  cases t with
  | flutter | swiftUI => cases ht
  | html =>
    change ∀ d ∈ Html.textAlign horizontal vertical, _
    cases horizontal <;> cases vertical <;> decide
  | tailwind =>
    change ∀ d ∈ Tailwind.textAlign horizontal vertical, _
    cases horizontal <;> cases vertical <;> decide

theorem display_mem_textAlign (ht : t.isMarkup = true) (horizontal : HorizontalAlign) {vertical : VerticalAlign}
    (hv : vertical ≠ .top) : "display" ∈ (t.declarations (.textAlign horizontal vertical)).map (·.key) := by
  cases t with
  | flutter | swiftUI => cases ht
  | html =>
    change "display" ∈ (Html.textAlign horizontal vertical).map (·.key)
    cases vertical with
    | top => exact absurd rfl hv
    | center | bottom => cases horizontal <;> decide
  | tailwind =>
    change "display" ∈ (Tailwind.textAlign horizontal vertical).map (·.key)
    cases vertical with
    | top => exact absurd rfl hv
    | center | bottom => cases horizontal <;> decide

/-- The innermost element has the runs of the innermost node, and splits them where that is moved down. -/
def SplitsAlike (t : Target) (es : List Element) (os : List Occurrence) : Prop :=
  ∃ e ∈ es.head?, ∃ o ∈ os.head?, e.runs = t.runsIn o.node ∧ (t.SplitsRuns e ↔ o.node.SplitsRuns)

theorem runs_shapeElement (slot : Slot Float) (base : Base) (ellipse : Bool) :
    (t.shapeElement slot base ellipse).runs = [] := by
  unfold shapeElement
  split <;> rfl

theorem not_splitsRuns {e : Element} (h : e.runs = []) : ¬ t.SplitsRuns e := by
  rintro ⟨hl, -⟩
  rw [h] at hl
  cases hl

section
variable (ht : t.isMarkup = true) {slot : Slot Float} {base : Base} {box : TextBox}
include ht

theorem display_of_blockStyles {a : Aspect}
    (ha : a ∈ (Subject.ofBase base).placement slot (Hug.ofText box) ++ Subject.textAlign box) {d : Declaration}
    (hd : d ∈ t.declarations a) (hk : d.key = "display") : box.vertical ≠ .top ∧ d.value = "flex" := by
  rcases List.mem_append.mp ha with ha | ha
  · have hn := display_not_mem_keysOf ht (Subject.isPlacement_placement _ _ _ a ha)
    exact absurd (hk ▸ t.key_mem_keysOf a hd) hn
  · rw [List.mem_singleton.mp ha] at hd
    exact display_of_textAlign ht _ _ d hd hk

theorem get?_display : (t.blockStyles slot base box).get? "display" = some "flex" ↔ box.vertical ≠ .top := by
  constructor
  · intro h
    obtain ⟨a, ha, hm⟩ := (t.contains_styles _ _).mp (Styles.contains_iff.mpr ⟨_, h⟩)
    obtain ⟨d, hd, hk⟩ := List.mem_map.mp hm
    exact (display_of_blockStyles ht ha hd hk).1
  · intro hv
    have ha : .textAlign box.horizontal box.vertical ∈
        (Subject.ofBase base).placement slot (Hug.ofText box) ++ Subject.textAlign box :=
      List.mem_append_right _ (List.mem_singleton_self _)
    refine get?_styles_of_forall ha (display_mem_textAlign ht box.horizontal hv) ?_
    exact fun a ha d hd hk => (display_of_blockStyles ht ha hd hk).2

/-- The element of several runs is a flex box unless they stand at its top. -/
theorem isFlexBox_blockStyles : t.IsFlexBox (t.blockStyles slot base box) ↔ box.vertical ≠ .top := by
  have hg : (t.blockStyles slot base box).get? "display" = some "flex" ↔ box.vertical ≠ .top := get?_display ht
  cases t with
  | flutter | swiftUI => cases ht
  | html jsx => exact hg
  | tailwind jsx o =>
    constructor
    · intro hf hv
      refine Tailwind.flex_not_mem_wordsOf (fun v hm => ?_) hf
      obtain ⟨e, he, rfl⟩ := List.mem_map.mp hm
      obtain ⟨a, ha, d, hd, rfl⟩ := exists_of_mem_entries he
      rcases List.mem_append.mp ha with ha | ha
      · exact Tailwind.boxless_of_isPlacement o (Subject.isPlacement_placement _ _ _ a ha) d hd
      · rw [List.mem_singleton.mp ha, hv] at hd
        exact Tailwind.boxless_textAlign box.horizontal d hd
    · intro hv
      have he := Styles.mem_entries_of_get? (hg.mpr hv)
      exact Tailwind.flex_mem_wordsOf (List.mem_map_of_mem (f := Prod.snd) he)

theorem splitsRuns_text :
    t.SplitsRuns (t.element (.text slot base box)) ↔ (Node.text base box).SplitsRuns := by
  have hf : t.IsFlexBox (t.blockStyles slot base box) ↔ box.vertical ≠ .top := isFlexBox_blockStyles ht
  rw [element, SplitsRuns, Node.SplitsRuns, ← hf]
  unfold textElement
  rcases box.shownRuns with _ | ⟨run, _ | ⟨run', runs⟩⟩
  · simp [Element.runs]
  · simp [Element.runs]
  · simp [Element.runs, Element.styles]

/-- A piece is split where the node that it shows is. -/
theorem splitsAlike_of_shows {followHints : Bool} {p : Piece Float} {o : Occurrence} (h : p.Shows followHints o.node)
    (es : List Element) (os : List Occurrence) : t.SplitsAlike (t.element p :: es) (o :: os) := by
  obtain ⟨node, around⟩ := o
  refine ⟨_, rfl, _, rfl, ?_⟩
  cases p <;> cases node <;> simp only [Piece.Shows] at h
  case text.text slot base box base' box' =>
    obtain ⟨rfl, rfl⟩ := h
    refine ⟨?_, splitsRuns_text ht⟩
    rw [element, textElement_eq]
    rfl
  case frame.frame | group.group | line.shape => exact ⟨rfl, iff_of_false (not_splitsRuns rfl) id⟩
  case shape.shape slot base ellipse kind base' =>
    have hr := t.runs_shapeElement slot base ellipse
    exact ⟨hr, iff_of_false (not_splitsRuns hr) id⟩

end
end Target

/-- In HTML and Tailwind, the text elements of a scene have a span for each of several runs, and an element of several
spans is a flex box where the text does not stand at the top of its box, and nowhere else. So runs stay on their lines
if and only if every text of several runs that is drawn stands at the top. -/
theorem runs_inline_iff (s : Settings) (preview : Bool) (nodes : List Node) (ht : (s.target preview).isMarkup = true) :
    let t := s.target preview
    let elements := t.walkAll s.optimizeLayout .top nodes
    generate s preview nodes = t.page s.showLayerNames elements ∧
    Tree.MatchAll t.SplitsAlike [] [] (Element.trees elements) (Scene.drawn nodes) ∧
    ((∀ chain ∈ Tree.chains (Element.trees elements), ∀ e ∈ chain.head?, ¬ t.SplitsRuns e) ↔
      ∀ chain ∈ Tree.chains (Scene.drawn nodes), ∀ o ∈ chain.head?, ¬ o.node.SplitsRuns) := by
  intro t elements
  have hm : Tree.MatchAll t.SplitsAlike [] [] (Element.trees elements) (Scene.drawn nodes) := by
    have he : elements = t.elements (Scene.pieces s.optimizeLayout nodes) := t.walkAll_eq_elements _ _ nodes
    rw [he, t.elements_trees]
    refine (Scene.pieces_linked (SlotRule.any Base.position s.optimizeLayout) nodes).mapAll fun h => ?_
    cases h with
    | cons _ shows _ => exact Target.splitsAlike_of_shows ht shows _ _
  refine ⟨generate_eq_page s preview nodes, hm, hm.forall_chains ?_⟩
  rintro e es o os ⟨_, ⟨⟩, _, ⟨⟩, -, hs⟩
  simp only [List.head?_cons, Option.mem_def, Option.some.injEq, forall_eq']
  exact not_congr hs

/-- A text of two runs in the middle of its box. -/
def centredText : List Node :=
  [.text (.named "T" 0 0 100 40) { vertical := .center, runs := [{ characters := "a" }, { characters := "b" }] }]

/-- Its runs get on lines of their own. -/
theorem centredText_split : ∃ chain ∈ Tree.chains (Element.trees ((Target.html false).walkAll true .top centredText)),
    ∃ e ∈ chain.head?, (Target.html false).SplitsRuns e := by
  by_contra hn
  have hd : ∃ chain ∈ Tree.chains (Scene.drawn centredText), ∃ o ∈ chain.head?, o.node.SplitsRuns := by
    decide +kernel
  obtain ⟨chain, hc, o, ho, hs⟩ := hd
  have hi := (runs_inline_iff { framework := .html } false centredText rfl).2.2
  exact hi.mp (fun chain hc e he hs => hn ⟨chain, hc, e, he, hs⟩) chain hc o ho hs

end SceneCode
