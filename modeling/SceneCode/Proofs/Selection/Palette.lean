import SceneCode.Proofs.Selection.Colors
import SceneCode.Proofs.Skeleton
import SceneCode.Proofs.Style.Painted

namespace SceneCode

namespace Tree
variable {α β : Type}

mutual
def Holds (P : α → Prop) : Tree α → Prop
  | .node a ts => P a ∧ HoldsAll P ts

def HoldsAll (P : α → Prop) : List (Tree α) → Prop
  | [] => True
  | t :: ts => t.Holds P ∧ HoldsAll P ts
end

theorem HoldsAll.append {P : α → Prop} {ts us : List (Tree α)} (ht : HoldsAll P ts) (hu : HoldsAll P us) :
    HoldsAll P (ts ++ us) := by
  induction ts with
  | nil => exact hu
  | cons t ts ih => exact ⟨ht.1, ih ht.2⟩

/-- Such a fact may be added to a relation between trees. -/
theorem MatchAll.and_holds {R : List α → List β → Prop} {P : β → Prop} {above : List α} {above' : List β} :
    {ts : List (Tree α)} → {us : List (Tree β)} → MatchAll R above above' ts us → HoldsAll P us →
    MatchAll (fun as bs => R as bs ∧ ∀ b ∈ bs.head?, P b) above above' ts us
  | [], [], _, _ => trivial
  | .node a ts :: ts', .node b us :: us', h, hp => by
    simp only [MatchAll, Match] at h ⊢
    simp only [HoldsAll, Holds] at hp
    have hb : ∀ b' ∈ (b :: above').head?, P b' := by
      rintro b' ⟨⟩
      exact hp.1.1
    exact ⟨⟨⟨h.1.1, hb⟩, h.1.2.and_holds hp.1.2⟩, h.2.and_holds hp.2⟩
  | [], _ :: _, h, _ => by simp [MatchAll] at h
  | _ :: _, [], h, _ => by simp [MatchAll] at h

end Tree

namespace Node

/-- The fill behind a node. A line is drawn with its stroke, and a group has no background. -/
def background? : Node → Option Fill
  | .frame base .. => Fill.top? base.fills
  | .shape kind base => if kind = .line then none else Fill.top? base.fills
  | _ => none

/-- The runs of text that a node shows. -/
def shownRuns : Node → List TextRun
  | .text _ box => box.shownRuns
  | _ => []

/-- The paints that a node may take its colours from. -/
def ownFills : Node → List Paint
  | .text base box => base.fills ++ box.runs.flatMap (·.fills)
  | node => (node.base?.map (·.fills)).getD []

end Node

/-- A run without styles of its own has those of the element. -/
def Element.runStyles : Element → List Styles
  | .text _ styles runs => runs.map fun run => run.styles.getD styles
  | _ => []

mutual
theorem Node.ownFills_drawn {paints : List Paint} (around : List Node) (top : Bool) : (n : Node) →
    Selection.paints n ⊆ paints → Tree.HoldsAll (fun o : Occurrence => o.node.ownFills ⊆ paints) (n.drawn around top)
  | .frame base layout hint clips children, h => by
    rw [drawn_frame]
    cases hv : base.visible with
    | false => exact trivial
    | true =>
      rw [Selection.paints, if_pos hv, List.append_subset] at h
      have hc := Node.ownFills_drawnAll (.frame base layout hint clips children :: around) top children h.2
      have hi := Node.ownFills_drawnAll (.frame base layout hint clips children :: around) false children h.2
      cases base.isDegenerate with
      | true => exact hc
      | false => exact ⟨⟨h.1, hi⟩, trivial⟩
  | .group base children, h => by
    rw [drawn_group]
    cases hv : base.visible with
    | false => exact trivial
    | true =>
      rw [Selection.paints, if_pos hv, List.append_subset] at h
      have hc := Node.ownFills_drawnAll (.group base children :: around) top children h.2
      have hi := Node.ownFills_drawnAll (.group base children :: around) false children h.2
      split
      · exact trivial
      · split
        · exact hc
        · split
          · exact trivial
          · exact ⟨⟨h.1, hi⟩, trivial⟩
  | .shape kind base, h => by
    rw [Selection.paints] at h
    by_cases hk : kind = .line
    · subst hk
      rw [drawn_line]
      cases hv : base.visible with
      | false => exact trivial
      | true =>
        rw [if_pos hv] at h
        split
        · exact trivial
        · exact ⟨⟨h, trivial⟩, trivial⟩
    · rw [drawn_shape around top base hk]
      cases hv : base.visible with
      | false => exact trivial
      | true =>
        rw [if_pos hv] at h
        split
        · exact trivial
        · exact ⟨⟨h, trivial⟩, trivial⟩
  | .text base box, h => by
    rw [drawn_text]
    rw [Selection.paints] at h
    cases hv : base.visible with
    | false => exact trivial
    | true =>
      rw [if_pos hv] at h
      split
      · exact trivial
      · exact ⟨⟨h, trivial⟩, trivial⟩
  | .unknown, _ => trivial

theorem Node.ownFills_drawnAll {paints : List Paint} (around : List Node) (top : Bool) : (ns : List Node) →
    Selection.paintsAll ns ⊆ paints →
    Tree.HoldsAll (fun o : Occurrence => o.node.ownFills ⊆ paints) (Node.drawnAll around top ns)
  | [], _ => trivial
  | n :: ns, h => by
    rw [Selection.paintsAll, List.append_subset] at h
    exact (Node.ownFills_drawn around top n h.1).append (Node.ownFills_drawnAll around top ns h.2)
end

theorem Paint.mem_of_top? {paints : List Paint} {p : Paint} (h : top? paints = some p) :
    p ∈ paints ∧ p.visible = true := by
  obtain ⟨hh, hv⟩ := Option.filter_eq_some_iff.mp h
  exact ⟨List.mem_of_head? hh, hv⟩

namespace Fill

theorem ofPaint?_solid {p : Paint} {c : Rgb} {opacity : Float} (h : ofPaint? p = some (.solid c opacity)) :
    ∃ q : SolidPaint, p = .solid q ∧ q.color = c ∧ q.opacity = opacity := by
  cases p with
  | solid q =>
    cases h
    exact ⟨q, rfl, rfl, rfl⟩
  | gradient kind q => cases kind <;> cases h
  | image q => cases h
  | unknown => cases h

theorem ofPaint?_gradient {p : Paint} {g : LinearGradient} (h : ofPaint? p = some (.gradient g)) :
    ∃ q : GradientPaint, p = .gradient .linear q ∧ .ofPaint q = g := by
  cases p with
  | solid q => cases h
  | gradient kind q =>
    cases kind <;> cases h
    exact ⟨q, rfl, rfl⟩
  | image q => cases h
  | unknown => cases h

end Fill

namespace Target
variable (t : Target) (paints : List Paint)

/-- A text that exactly one colour of a selection is exported as. -/
def ExportsColor (text : String) : Prop :=
  ((Selection.solidColors t paints).map (·.exported)).count text = 1

/-- A text that some gradient of a selection is exported as. -/
def ExportsGradient (text : String) : Prop :=
  text ∈ (Selection.gradients t paints).map (·.exported)

/-- Styles have the fill, as it is exported. -/
def HasFill (s : Styles) : Fill → Prop
  | .solid c opacity => t.backgroundEntry (t.color c opacity) ∈ s.entries ∧ t.ExportsColor paints (t.color c opacity)
  | .gradient g => t.gradientEntry (t.gradient g) ∈ s.entries ∧ t.ExportsGradient paints (t.gradient g)
  | .image _ => True

/-- The styles of a run have its colour, as it is exported. -/
def HasTextColor (base : Base) (run : TextRun) (s : Styles) : Prop :=
  ∀ c ∈ (Subject.ofBase base).textColor run,
    t.textEntry (t.color c.1 c.2) ∈ s.entries ∧ t.ExportsColor paints (t.color c.1 c.2)

/-- The innermost element has what the innermost node takes from its fills. -/
def ShowsColors (es : List Element) (os : List Occurrence) : Prop :=
  ∃ e ∈ es.head?, ∃ o ∈ os.head?,
    (∀ fill ∈ o.node.background?, t.HasFill paints e.styles fill) ∧
    List.Forall₂ (t.HasTextColor paints o.base) o.node.shownRuns e.runStyles

variable {t paints}

theorem hasFill_of_paint {own : List Paint} (ho : own ⊆ paints) {fill : Fill} (hf : Fill.top? own = some fill)
    {aspects : List Aspect} {width height : Float}
    (ha : aspects.filter Aspect.paints = [.background fill width height]) : t.HasFill paints (t.styles aspects) fill := by
  obtain ⟨p, hp, hf⟩ := Option.bind_eq_some_iff.mp hf
  obtain ⟨hm, hv⟩ := Paint.mem_of_top? hp
  cases fill with
  | solid c opacity =>
    obtain ⟨q, rfl, rfl, rfl⟩ := Fill.ofPaint?_solid hf
    exact ⟨(t.settles_background _ _ _ _).mem_entries ha, Selection.count_exported (ho hm) hv⟩
  | gradient g =>
    obtain ⟨q, rfl, rfl⟩ := Fill.ofPaint?_gradient hf
    exact ⟨(t.settles_gradient _ _ _).mem_entries ha, Selection.gradient_exported (ho hm) hv⟩
  | image mode => trivial

theorem hasFill_of_isImage {s : Styles} {own : List Paint} (hi : Fill.isImage own = true) {fill : Fill}
    (hf : Fill.top? own = some fill) : t.HasFill paints s fill := by
  obtain ⟨p, hp, hf⟩ := Option.bind_eq_some_iff.mp hf
  unfold Fill.isImage at hi
  rw [hp] at hi
  cases p with
  | image q =>
    cases hf
    trivial
  | _ => cases hi

theorem hasTextColor_of_typography {base : Base} {run : TextRun} (hb : base.fills ⊆ paints) (hr : run.fills ⊆ paints)
    {aspects : List Aspect} (ha : aspects.filter Aspect.paints = (Subject.ofBase base).typography run) :
    t.HasTextColor paints base run (t.styles aspects) := by
  intro c hc
  rw [Subject.typography, Option.mem_def.mp hc] at ha
  obtain ⟨fill, hf, hc⟩ := Option.bind_eq_some_iff.mp hc
  obtain ⟨p, hp, hf⟩ := Option.bind_eq_some_iff.mp hf
  have hm : p ∈ paints ∧ p.visible = true := by
    rcases Option.or_eq_some_iff.mp hp with hp | ⟨-, hp⟩
    · exact (Paint.mem_of_top? hp).imp_left (hr ·)
    · exact (Paint.mem_of_top? hp).imp_left (hb ·)
  cases fill with
  | solid color opacity =>
    cases hc
    obtain ⟨q, rfl, rfl, rfl⟩ := Fill.ofPaint?_solid hf
    exact ⟨(t.settles_text _ _).mem_entries ha, Selection.count_exported hm.1 hm.2⟩
  | _ => cases hc

theorem fills_of_mem_shownRuns {box : TextBox} {run : TextRun} (h : run ∈ box.shownRuns) :
    run.fills ⊆ box.runs.flatMap (·.fills) := by
  by_cases hr : box.runs = []
  · rw [TextBox.shownRuns_of_nil hr] at h
    rw [List.mem_singleton.mp h]
    exact List.nil_subset _
  · rw [TextBox.shownRuns_of_ne_nil hr] at h
    exact fun p hp => List.mem_flatMap.mpr ⟨run, h, hp⟩

/-- An only run has the styles of the element, several have their own. -/
theorem hasTextColor_textElement (slot : Slot Float) {base : Base} {box : TextBox} (hb : base.fills ⊆ paints)
    (hr : ∀ run ∈ box.shownRuns, run.fills ⊆ paints) :
    List.Forall₂ (t.HasTextColor paints base) box.shownRuns (t.textElement slot base box).runStyles := by
  have hs := t.element_styles (.text slot base box)
  have hp := Piece.aspects_paints (.text slot base box)
  simp only [element, textElement, Piece.paint, Piece.onlyRun] at hs hp ⊢
  split at hs
  · rename_i run he
    rw [he] at hp hr ⊢
    have ht := hasTextColor_of_typography (t := t) hb (hr run (by simp)) hp
    rw [← hs] at ht
    exact .cons ht .nil
  · rename_i runs _
    have he : (Element.text base.name (t.blockStyles slot base box) (box.shownRuns.map fun run =>
        ⟨t.textContent run.textCase run.characters, some (t.runStyles base run)⟩)).runStyles =
        box.shownRuns.map (t.runStyles base) := by
      simp [Element.runStyles, Function.comp_def]
    rw [he, List.forall₂_map_right_iff, List.forall₂_same]
    exact fun run hm => hasTextColor_of_typography hb (hr run hm) rfl

/-- A piece is painted from the fills of the node that it shows. -/
theorem showsColors {followHints : Bool} {p : Piece Float} {o : Occurrence} (h : p.Shows followHints o.node)
    (ho : o.node.ownFills ⊆ paints) (es : List Element) (os : List Occurrence) :
    t.ShowsColors paints (t.element p :: es) (o :: os) := by
  refine ⟨_, rfl, _, rfl, ?_⟩
  obtain ⟨node, around⟩ := o
  have hs := t.element_styles p
  have hp := p.aspects_paints
  cases p <;> cases node <;> simp only [Piece.Shows] at h
  case frame.frame slot base flow clips children base' layout hint clips' children' =>
    obtain ⟨rfl, -, -⟩ := h
    refine ⟨fun fill hf => ?_, .nil⟩
    have hf : Fill.top? base.fills = some fill := hf
    rw [Piece.paint, Subject.fill, hf] at hp
    exact hs ▸ hasFill_of_paint ho hf hp
  case group.group =>
    exact ⟨fun _ hf => absurd hf (Option.not_mem_none _), .nil⟩
  case line.shape =>
    obtain ⟨rfl, -⟩ := h
    exact ⟨fun _ hf => absurd hf (Option.not_mem_none _), .nil⟩
  case shape.shape slot base ellipse kind base' =>
    obtain ⟨hk, rfl, -⟩ := h
    have hn : (Node.shape kind base).background? = Fill.top? base.fills := if_neg hk
    rw [hn]
    cases hi : Fill.isImage base.fills with
    | true =>
      have he : (t.shapeElement slot base ellipse).runStyles = [] := by simp [shapeElement, hi, Element.runStyles]
      exact ⟨fun fill hf => hasFill_of_isImage hi hf, he ▸ .nil⟩
    | false =>
      have he : (t.shapeElement slot base ellipse).runStyles = [] := by simp [shapeElement, hi, Element.runStyles]
      refine ⟨fun fill hf => ?_, he ▸ .nil⟩
      rw [Piece.paint, hi, if_neg (by simp), Subject.fill, Option.mem_def.mp hf] at hp
      exact hs ▸ hasFill_of_paint ho hf hp
  case text.text slot base box base' box' =>
    obtain ⟨rfl, rfl⟩ := h
    rw [Node.ownFills, List.append_subset] at ho
    refine ⟨fun _ hf => absurd hf (Option.not_mem_none _), hasTextColor_textElement slot ho.1 fun run hm => ?_⟩
    exact List.Subset.trans (fills_of_mem_shownRuns hm) ho.2

end Target

/-- Every solid colour that an element has for a background or for a run of text is exported exactly once with the
selection, and every gradient that it has for a background is exported, both as the styles have them. -/
theorem palette_is_complete (s : Settings) (preview : Bool) (nodes : List Node) :
    let t := s.target preview
    let elements := t.elements (Scene.pieces s.optimizeLayout nodes)
    generate s preview nodes = t.page s.showLayerNames elements ∧
    Tree.MatchAll (t.ShowsColors (Selection.paintsAll nodes)) [] [] (Element.trees elements) (Scene.drawn nodes) := by
  intro t elements
  refine ⟨rfl, ?_⟩
  have hl := Scene.pieces_linked (SlotRule.any Base.position s.optimizeLayout) nodes
  have hd := Node.ownFills_drawnAll [] true nodes (List.Subset.refl _)
  rw [t.elements_trees]
  refine (hl.and_holds hd).mapAll fun h => ?_
  cases h.1 with
  | cons _ shows _ => exact Target.showsColors shows (h.2 _ rfl) _ _

end SceneCode
