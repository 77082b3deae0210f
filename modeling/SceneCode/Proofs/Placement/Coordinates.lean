import SceneCode.Proofs.Skeleton
import SceneCode.Proofs.Style.Aspects

namespace SceneCode

/-- How a node arranges what is drawn in it. -/
def Node.arrangesFreely (followHints : Bool) : Node → Bool
  | .group .. => true
  | .frame _ layout hint _ _ => (Layout.resolve followHints layout hint).isNone
  | _ => false

def Slot.isFree {α : Type} : Slot α → Bool
  | .free _ => true
  | _ => false

namespace Target

/-- The element has coordinates and is taken out of any flow by them. -/
def Placed (t : Target) (showNames : Bool) (e : Element) : Prop :=
  (∀ k ∈ t.coordinateKeys, e.styles.contains k = true) ∧
  match t with
  | .html _ | .tailwind .. => e.styles.get? "position" = some "absolute"
  | .flutter => ∃ left top widget, t.render showNames e = Flutter.named (label showNames e.name)
      (Flutter.call "Positioned" [("left", left), ("top", top), ("child", widget)])
  | .swiftUI => True

/-- The element has no coordinate at all. -/
def Unplaced (t : Target) (showNames : Bool) (e : Element) : Prop :=
  (∀ k ∈ t.coordinateKeys, e.styles.contains k = false) ∧
  match t with
  | .html _ | .tailwind .. => e.styles.get? "position" ≠ some "absolute"
  | .flutter => ∃ name arguments, name ≠ "Positioned" ∧
      t.render showNames e = Flutter.named (label showNames e.name) (Flutter.call name arguments)
  | .swiftUI => True

/-- The element is written so that coordinates in it count from its own corner. -/
def IsOrigin (t : Target) (showNames : Bool) (e : Element) : Prop :=
  match t with
  | .html _ | .tailwind .. => e.styles.contains "position" = true
  | .flutter => ∃ name styles children outer arguments, e = .container name styles children ∧
      Flutter.containerWidget styles (t.renderAll showNames children) = Flutter.call outer (arguments ++
        [("child", Flutter.call "Stack" [("children", Flutter.list (t.renderAll showNames children))])])
  | .swiftUI => ∃ name styles children, e = .container name styles children ∧
      SwiftUI.containerView styles (t.renderAll showNames children) = SwiftUI.freeStack ++ " \x7b" ++
        String.join ((t.renderAll showNames children).map Text.indent) ++ "\n\x7d"

/-- The innermost element of a chain is placed exactly where the element around it arranges freely. -/
def FollowsParent (t : Target) (followHints showNames : Bool) (es : List Element) (os : List Occurrence) : Prop :=
  ∃ e ∈ es.head?,
    let free := os.tail.head?.any fun o => o.node.arrangesFreely followHints
    (t.Placed showNames e ↔ free = true) ∧
    (free = true → ∃ parent ∈ es.tail.head?, t.IsOrigin showNames parent) ∧
    (free = false → t.Unplaced showNames e)

/-- In markup a position takes an element out of the flow, and an origin only makes it one. -/
theorem position_declared {t : Target} (ht : t.isMarkup = true) {a : Aspect} {d : Declaration}
    (hd : d ∈ t.declarations a) (hk : d.key = "position") :
    (a = .origin ∧ d = .fallbackTo "position" "relative") ∨
      ((∃ x y, a = .position x y) ∧ d = .set "position" "absolute") := by
  have hm := t.key_mem_keysOf a hd
  rw [hk] at hm
  cases t with
  | flutter => cases ht
  | swiftUI => cases ht
  | html jsx =>
    cases a <;> simp_all [keysOf, Html.keysOf, declarations, Html.declarations]
    rcases hd with rfl | rfl | rfl <;> simp_all [Declaration.set]
  | tailwind jsx o =>
    cases a <;> simp_all [keysOf, Tailwind.keysOf, declarations, Tailwind.declarations]
    rcases hd with rfl | rfl | rfl <;> simp_all [Declaration.set]

theorem get?_position_iff {t : Target} (ht : t.isMarkup = true) {aspects : List Aspect} :
    (t.styles aspects).get? "position" = some "absolute" ↔ ∃ x y, .position x y ∈ aspects := by
  constructor
  · intro h
    rw [styles_eq_declareAll] at h
    rcases Styles.get?_declareAll h with h | ⟨d, hd, hk, hv⟩
    · cases h
    · obtain ⟨a, ha, hda⟩ := List.mem_flatMap.mp hd
      rcases position_declared ht hda hk with ⟨-, rfl⟩ | ⟨⟨x, y, rfl⟩, -⟩
      · exact absurd hv (by decide)
      · exact ⟨x, y, ha⟩
  · rintro ⟨x, y, h⟩
    rw [styles_eq_declareAll]
    refine Styles.get?_declareAll_set (.inr ⟨.set "position" "absolute", ?_, rfl, rfl⟩) ?_
    · refine List.mem_flatMap.mpr ⟨_, h, ?_⟩
      cases t with
      | flutter => cases ht
      | swiftUI => cases ht
      | html jsx => exact List.mem_cons_self
      | tailwind jsx o => exact List.mem_cons_self
    · intro d hd hk hf
      obtain ⟨a, ha, hda⟩ := List.mem_flatMap.mp hd
      rcases position_declared ht hda hk with ⟨-, rfl⟩ | ⟨-, rfl⟩
      · cases hf
      · rfl

end Target

namespace Flutter

/-- A call of something that takes no coordinates. -/
def IsUnplaced (widget : String) : Prop :=
  ∃ name arguments, name ≠ "Positioned" ∧ widget = call name arguments

theorem around_isUnplaced {s : Styles} {key name : String} {arguments : String → List (String × String)}
    {widget : String} (hn : name ≠ "Positioned") (h : IsUnplaced widget) :
    IsUnplaced (around s key name arguments widget) := by
  unfold around
  split
  · exact ⟨_, _, hn, rfl⟩
  · exact h

/-- Every element is written as a widget without coordinates to which its placement is added last. -/
theorem render_placed (showNames : Bool) (e : Element) : ∃ widget, IsUnplaced widget ∧
    Target.flutter.render showNames e = named (Target.label showNames e.name) (placed e.styles widget) := by
  have wrap {s : Styles} {name : Option String} {widget : String} (h : IsUnplaced widget) :
      ∃ widget', IsUnplaced widget' ∧ named name (wrapped s widget) = named name (placed s widget') :=
    ⟨_, around_isUnplaced (by decide) (around_isUnplaced (by decide) (around_isUnplaced (by decide)
      (around_isUnplaced (by decide) h))), rfl⟩
  cases e with
  | container name s children =>
    refine wrap ⟨_, _, ?_, rfl⟩
    split <;> decide
  | image name s source =>
    exact wrap (around_isUnplaced (by decide) ⟨_, _, by decide, rfl⟩)
  | text name s runs =>
    refine wrap ?_
    have ht : IsUnplaced (textWidget s runs) := by
      unfold textWidget
      split <;> exact ⟨_, _, by decide, rfl⟩
    unfold sized
    dsimp only
    split
    · exact ht
    · exact ⟨_, _, by decide, rfl⟩

theorem placed_of_coordinates {s : Styles} (hf : s.contains "flex" = false) (hl : s.contains "left" = true)
    (ht : s.contains "top" = true) (widget : String) : ∃ left top,
      placed s widget = call "Positioned" [("left", left), ("top", top), ("child", widget)] := by
  obtain ⟨left, hl⟩ := Styles.contains_iff.mp hl
  obtain ⟨top, ht⟩ := Styles.contains_iff.mp ht
  exact ⟨left, top, by simp [placed, hf, Styles.select, hl, ht]⟩

theorem placed_of_none {s : Styles} {widget : String} (hl : s.contains "left" = false)
    (ht : s.contains "top" = false) (h : IsUnplaced widget) : IsUnplaced (placed s widget) := by
  unfold placed
  split
  · exact ⟨_, _, by decide, rfl⟩
  · simpa [Styles.select, Styles.get?_eq_none_iff.mpr hl, Styles.get?_eq_none_iff.mpr ht] using h

theorem containerWidget_stack {s : Styles} {fragments : List String} (hs : s.get? "layout" = some "Stack")
    (hf : fragments.isEmpty = false) : ∃ outer arguments, containerWidget s fragments =
      call outer (arguments ++ [("child", call "Stack" [("children", list fragments)])]) := by
  have ha : arranged s fragments = call "Stack" [("children", list fragments)] := by simp [arranged, hs]
  unfold containerWidget
  rw [hf, ha]
  exact ⟨_, _, rfl⟩

end Flutter

theorem SwiftUI.containerView_free {s : Styles} {fragments : List String} (hs : s.get? "stack" = some freeStack)
    (hn : s.get? "spacers" = none) (hf : fragments.isEmpty = false) : containerView s fragments =
      freeStack ++ " \x7b" ++ String.join (fragments.map Text.indent) ++ "\n\x7d" := by
  simp [containerView, spaced, hs, hn, hf]

namespace Piece
variable {p : Piece Float}

theorem size_mem {z : Size} : .size z ∈ p.aspects ↔ .size z ∈ p.size := by
  rw [mem_aspects rfl]
  constructor
  · rintro (h | h | h)
    · exact h
    · unfold Subject.coordinates at h
      split at h <;> simp at h
    · cases p <;> simp [layout, Subject.layout] at h
      split at h <;> simp at h
  · exact .inl

theorem size_within {z : Size} (h : .size z ∈ p.aspects) (hs : ∀ flow, p.slot ≠ .inFlow flow) : z.within = none := by
  obtain ⟨s, hug, he⟩ := exists_size (size_mem.mp h)
  cases he
  unfold Subject.sizeIn
  cases hp : p.slot with
  | inFlow flow => exact absurd hp (hs flow)
  | _ => rfl

/-- A group, or a frame that arranges something freely. -/
def IsOrigin (p : Piece Float) : Prop :=
  .origin ∈ p.aspects ∧ ∀ flow, .flow flow ∉ p.aspects

theorem mem_layout {a : Aspect} (h : a.places = true) (hs : ∀ z, a ≠ .size z) (hp : ∀ x y, a ≠ .position x y) :
    a ∈ p.aspects ↔ a ∈ p.layout := by
  rw [mem_aspects h]
  constructor
  · rintro (h | h | h)
    · obtain ⟨s, hug, he⟩ := exists_size h
      exact absurd he (hs _)
    · unfold Subject.coordinates at h
      split at h
      · exact absurd (List.mem_singleton.mp h) (hp _ _)
      · cases h
    · exact h
  · exact fun h => .inr (.inr h)

theorem isOrigin_of_shows {followHints : Bool} {o : Occurrence} (h : p.Shows followHints o.node)
    (hf : o.node.arrangesFreely followHints = true) (hc : p.children ≠ []) : p.IsOrigin := by
  have hl : p.layout = [.origin] := by
    obtain ⟨node, around⟩ := o
    cases p <;> cases node <;> simp only [Shows] at h <;> simp only [Node.arrangesFreely] at hf
    case frame.frame =>
      obtain ⟨-, rfl, -⟩ := h
      simp_all [layout, Subject.layout, children]
    case group.group => rfl
    all_goals cases hf
  refine ⟨(mem_layout (a := .origin) rfl (by simp) (by simp)).mpr (by simp [hl]), fun flow h => ?_⟩
  have hm := (mem_layout (a := .flow flow) rfl (by simp) (by simp)).mp h
  simp [hl] at hm

end Piece

namespace Target
variable {t : Target} {showNames : Bool} {p : Piece Float}

theorem element_eq_container (h : p.children ≠ []) :
    ∃ name styles, t.element p = .container name styles (t.elements p.children) := by
  cases p with
  | frame slot base flow clips children => exact ⟨_, _, rfl⟩
  | group slot base children => exact ⟨_, _, rfl⟩
  | _ => exact absurd rfl h

theorem get?_layout (h : p.IsOrigin) : (Target.flutter.styles p.aspects).get? "layout" = some "Stack" := by
  refine get?_styles_of_forall h.1 (by decide) fun a ha d hd hk => ?_
  have hm := Target.flutter.key_mem_keysOf a hd
  rw [hk] at hm
  cases a <;> simp_all [keysOf, Flutter.keysOf, declarations, Flutter.declarations, Declaration.fallbackTo]
  exact absurd ha (h.2 _)

theorem get?_stack (h : p.IsOrigin) : (Target.swiftUI.styles p.aspects).get? "stack" = some SwiftUI.freeStack := by
  refine get?_styles_of_forall h.1 (by decide) fun a ha d hd hk => ?_
  have hm := Target.swiftUI.key_mem_keysOf a hd
  rw [hk] at hm
  cases a <;> simp_all [keysOf, SwiftUI.keysOf, declarations, SwiftUI.declarations, Declaration.fallbackTo]
  exact absurd ha (h.2 _)

theorem get?_spacers (h : p.IsOrigin) : (Target.swiftUI.styles p.aspects).get? "spacers" = none := by
  rw [Styles.get?_eq_none_iff]
  refine Bool.eq_false_iff.mpr fun hc => ?_
  obtain ⟨a, ha, hm⟩ := (contains_styles ..).mp hc
  obtain ⟨d, hd, hk⟩ := List.mem_map.mp hm
  have hm := Target.swiftUI.key_mem_keysOf a hd
  rw [hk] at hm
  cases a <;> simp_all [keysOf, SwiftUI.keysOf]
  exact absurd ha (h.2 _)

/-- An element whose piece is an origin is written as one. -/
theorem isOrigin_element (h : p.IsOrigin) (hc : p.children ≠ []) : t.IsOrigin showNames (t.element p) := by
  have hs := t.element_styles p
  obtain ⟨name, styles, he⟩ := element_eq_container (t := t) hc
  rw [he] at hs
  have hn : (t.renderAll showNames (t.elements p.children)).isEmpty = false := by
    cases hp : p.children with
    | nil => exact absurd hp hc
    | cons q qs => rfl
  cases t with
  | flutter =>
    obtain ⟨outer, arguments, hw⟩ := Flutter.containerWidget_stack ((congrArg (·.get? "layout") hs).trans
      (get?_layout h)) hn
    exact ⟨name, styles, _, outer, arguments, he, hw⟩
  | swiftUI =>
    exact ⟨name, styles, _, he, SwiftUI.containerView_free ((congrArg (·.get? "stack") hs).trans (get?_stack h))
      ((congrArg (·.get? "spacers") hs).trans (get?_spacers h)) hn⟩
  | html jsx =>
    simp only [IsOrigin, he]
    rw [hs, contains_styles]
    exact ⟨_, h.1, List.mem_cons_self⟩
  | tailwind jsx o =>
    simp only [IsOrigin, he]
    rw [hs, contains_styles]
    exact ⟨_, h.1, List.mem_cons_self⟩

theorem not_contains_flex (h : ∀ z, .size z ∈ p.aspects → z.within = none) :
    (Target.flutter.styles p.aspects).contains "flex" = false := by
  refine Bool.eq_false_iff.mpr fun hc => ?_
  obtain ⟨a, ha, hm⟩ := (contains_styles ..).mp hc
  obtain ⟨d, hd, hk⟩ := List.mem_map.mp hm
  have hf := Target.flutter.key_mem_keysOf a hd
  rw [hk] at hf
  cases a with
  | size z =>
    have hz := h z ha
    have hw : Declaration.Within ["width", "height"] (Flutter.declarations (.size z)) := by
      simp [Flutter.declarations, Flutter.extent_within, Size.widthIsPrimary, Size.heightIsPrimary, hz]
    have hd := (hw d hd).1
    rw [hk] at hd
    exact absurd hd (by decide)
  | _ => simp [keysOf, Flutter.keysOf] at hf

theorem position_mem_iff_isFree : (∃ x y, .position x y ∈ p.aspects) ↔ p.slot.isFree = true := by
  simp only [Piece.position_mem, Piece.offset?]
  cases p.slot with
  | free origin => exact ⟨fun _ => rfl, fun _ => ⟨_, _, rfl⟩⟩
  | _ => simp [Slot.coordinates?, Slot.isFree]

/-- The keys of coordinates are in the styles of an element exactly where its slot is free. -/
theorem contains_coordinateKey_element {k : String} (hk : k ∈ t.coordinateKeys) :
    (t.element p).styles.contains k = p.slot.isFree := by
  rw [element_styles, Bool.eq_iff_iff, contains_coordinateKey hk, position_mem_iff_isFree]

theorem get?_position_element (ht : t.isMarkup = true) :
    (t.element p).styles.get? "position" = some "absolute" ↔ p.slot.isFree = true := by
  rw [element_styles, get?_position_iff ht, position_mem_iff_isFree]

theorem placed_element (hf : p.slot.isFree = true) : t.Placed showNames (t.element p) := by
  have hc : ∀ k ∈ t.coordinateKeys, (t.element p).styles.contains k = true := fun k hk =>
    (contains_coordinateKey_element hk).trans hf
  refine ⟨hc, ?_⟩
  cases t with
  | html jsx => exact (get?_position_element rfl).mpr hf
  | tailwind jsx o => exact (get?_position_element rfl).mpr hf
  | flutter =>
    obtain ⟨widget, -, hw⟩ := Flutter.render_placed showNames (Target.flutter.element p)
    have hx : (Target.flutter.element p).styles.contains "flex" = false := by
      rw [element_styles]
      refine not_contains_flex fun z hz => Piece.size_within hz fun flow h => ?_
      rw [h] at hf
      cases hf
    obtain ⟨left, top, hp⟩ := Flutter.placed_of_coordinates hx (hc "left" (by decide)) (hc "top" (by decide)) widget
    exact ⟨left, top, widget, hw.trans (congrArg _ hp)⟩
  | swiftUI => trivial

theorem unplaced_element (hf : p.slot.isFree = false) : t.Unplaced showNames (t.element p) := by
  have hc : ∀ k ∈ t.coordinateKeys, (t.element p).styles.contains k = false := fun k hk =>
    (contains_coordinateKey_element hk).trans hf
  refine ⟨hc, ?_⟩
  cases t with
  | html jsx => exact fun h => Bool.eq_false_iff.mp hf ((get?_position_element rfl).mp h)
  | tailwind jsx o => exact fun h => Bool.eq_false_iff.mp hf ((get?_position_element rfl).mp h)
  | flutter =>
    obtain ⟨widget, hu, hw⟩ := Flutter.render_placed showNames (Target.flutter.element p)
    obtain ⟨name, arguments, hn, hp⟩ :=
      Flutter.placed_of_none (hc "left" (by decide)) (hc "top" (by decide)) hu
    exact ⟨name, arguments, hn, hw.trans (congrArg _ hp)⟩
  | swiftUI => trivial

theorem Unplaced.not_placed {e : Element} (h : t.Unplaced showNames e) : ¬ t.Placed showNames e := by
  intro hp
  have hk : ∃ k, k ∈ t.coordinateKeys := by
    cases t <;> exact ⟨_, List.mem_cons_self⟩
  obtain ⟨k, hk⟩ := hk
  have hc := hp.1 k hk
  rw [h.1 k hk] at hc
  cases hc

end Target

/-- A slot says how the drawn node around arranges what is in it. -/
def Slot.FollowsParent {α : Type} (followHints : Bool) (slot : Slot α) (above : List Occurrence)
    (_ : List Node) : Prop :=
  match slot with
  | .top => above = []
  | .inFlow _ => ∃ a ∈ above.head?, a.node.arrangesFreely followHints = false
  | .free _ => ∃ a ∈ above.head?, a.node.arrangesFreely followHints = true

theorem SlotRule.followsParent {α : Type} [Sub α] [OfNat α 0] (position : Base → Point α) (followHints : Bool) :
    SlotRule position followHints (Slot.FollowsParent followHints) where
  start := rfl
  through {slot above around base layout hint clips children} h := by
    cases slot <;> exact h
  flattened h _ := h
  frame {slot above around base layout hint clips children} h := by
    cases hr : Layout.resolve followHints layout hint <;>
      exact ⟨_, rfl, by simp [Node.arrangesFreely, hr]⟩
  group h := ⟨_, rfl, rfl⟩

/-- In a chain of pieces each is in the next. -/
def Piece.Nested {α : Type} : List (Piece α) → Prop
  | p :: q :: _ => p ∈ q.children
  | _ => True

mutual
theorem Piece.nested_tree {α β : Type} {R : List (Piece α) → List β → Prop} {above : List (Piece α)}
    {above' : List β} : (p : Piece α) → {u : Tree β} → (hp : Nested (p :: above)) →
    Tree.Match R above above' p.tree u → Tree.Match (fun ps os => R ps os ∧ Nested ps) above above' p.tree u
  | .frame slot base flow clips children, .node b us, hp, h => by
    simp only [tree, Tree.Match] at h ⊢
    exact ⟨⟨h.1, hp⟩, nested_trees children (fun _ hq => hq) h.2⟩
  | .group slot base children, .node b us, hp, h => by
    simp only [tree, Tree.Match] at h ⊢
    exact ⟨⟨h.1, hp⟩, nested_trees children (fun _ hq => hq) h.2⟩
  | .shape slot base ellipse, .node b us, hp, h => by
    simp only [tree, Tree.Match] at h ⊢
    exact ⟨⟨h.1, hp⟩, h.2.nil⟩
  | .line slot base, .node b us, hp, h => by
    simp only [tree, Tree.Match] at h ⊢
    exact ⟨⟨h.1, hp⟩, h.2.nil⟩
  | .text slot base box, .node b us, hp, h => by
    simp only [tree, Tree.Match] at h ⊢
    exact ⟨⟨h.1, hp⟩, h.2.nil⟩

theorem Piece.nested_trees {α β : Type} {R : List (Piece α) → List β → Prop} {above : List (Piece α)}
    {above' : List β} : (ps : List (Piece α)) → {us : List (Tree β)} → (hp : ∀ p ∈ ps, Nested (p :: above)) →
    Tree.MatchAll R above above' (trees ps) us →
      Tree.MatchAll (fun ps os => R ps os ∧ Nested ps) above above' (trees ps) us
  | [], [], _, _ => trivial
  | p :: ps, u :: us, hp, h => by
    simp only [trees, Tree.MatchAll] at h ⊢
    exact ⟨nested_tree p (hp p (by simp)) h.1, nested_trees ps (fun q hq => hp q (by simp [hq])) h.2⟩
  | [], _ :: _, _, h => by simp [trees, Tree.MatchAll] at h
  | _ :: _, [], _, h => by simp [trees, Tree.MatchAll] at h
end

theorem Slot.FollowsParent.isFree {α : Type} {followHints : Bool} {slot : Slot α} {above : List Occurrence}
    {around : List Node} (h : slot.FollowsParent followHints above around) :
    (above.head?.any fun o => o.node.arrangesFreely followHints) = slot.isFree := by
  cases slot with
  | top =>
    cases h
    rfl
  | inFlow flow =>
    obtain ⟨a, ha, hf⟩ := h
    simpa [Option.mem_def.mp ha, Slot.isFree] using hf
  | free origin =>
    obtain ⟨a, ha, hf⟩ := h
    simpa [Option.mem_def.mp ha, Slot.isFree] using hf

theorem Linked.followsParent {followHints : Bool} {p : Piece Float} {ps : List (Piece Float)} {o : Occurrence}
    {os : List Occurrence} (h : Linked followHints (Slot.FollowsParent followHints) (p :: ps) (o :: os))
    (hn : Piece.Nested (p :: ps)) (t : Target) (showNames : Bool) :
    t.FollowsParent followHints showNames ((p :: ps).map t.element) (o :: os) := by
  cases h with
  | cons tail shows slot =>
    have hf := slot.isFree
    refine ⟨_, rfl, ?_⟩
    simp only [List.tail_cons, hf]
    cases hs : p.slot.isFree with
    | false =>
      have hu : t.Unplaced showNames (t.element p) := Target.unplaced_element hs
      simp [hu, hu.not_placed]
    | true =>
      refine ⟨by simp [Target.placed_element hs], fun _ => ?_, nofun⟩
      cases tail with
      | nil =>
        rw [hs] at hf
        cases hf
      | @cons q qs o' os' _ shows' _ =>
        have hq : o'.node.arrangesFreely followHints = true := by simpa [hs] using hf
        have hc : q.children ≠ [] := List.ne_nil_of_mem hn
        exact ⟨_, rfl, Target.isOrigin_element (Piece.isOrigin_of_shows shows' hq hc) hc⟩

/-- Every element of the code is placed at coordinates if and only if the element around it arranges freely, and then
that element is an origin. All others have no coordinates, whatever lies between them and what they are drawn in. -/
theorem coordinates_follow_parent (s : Settings) (preview : Bool) (nodes : List Node) :
    let t := s.target preview
    let elements := t.elements (Scene.pieces s.optimizeLayout nodes)
    generate s preview nodes = t.page s.showLayerNames elements ∧
    Tree.MatchAll (t.FollowsParent s.optimizeLayout s.showLayerNames) [] [] (Element.trees elements)
      (Scene.drawn nodes) := by
  intro t elements
  refine ⟨rfl, ?_⟩
  have hl := Scene.pieces_linked (SlotRule.followsParent Base.position s.optimizeLayout) nodes
  have hn : ∀ p ∈ Scene.pieces s.optimizeLayout nodes, Piece.Nested [p] := fun _ _ => trivial
  rw [t.elements_trees]
  exact (Piece.nested_trees _ hn hl).mapAll fun h => h.1.followsParent h.2 t s.showLayerNames

end SceneCode
