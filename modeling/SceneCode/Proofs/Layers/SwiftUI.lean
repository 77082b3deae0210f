import SceneCode.Proofs.Layers.Commented

namespace SceneCode.SwiftUI
open Comments (Clears OneLine Line Steady Widget Fragment Fragments)
open Declaration (Values)
open Number (text)

/-- A modifier, or another value that stays as it is on a line of its own. -/
def Firm (v : String) : Prop :=
  Widget v v []

section
variable {s : Styles} (h : ∀ e ∈ s.entries, Firm e.2)
include h

theorem firm_get? {key v : String} (hv : s.get? key = some v) : Firm v :=
  h (key, v) (Styles.mem_entries_of_get? hv)

theorem firm_modifiers (keys : List String) : ∀ v ∈ modifiers s keys, Firm v := by
  intro v hv
  obtain ⟨e, he, rfl⟩ := List.mem_map.mp hv
  obtain ⟨key, -, hk⟩ := List.mem_filterMap.mp he
  obtain ⟨w, hw, rfl⟩ := Option.map_eq_some_iff.mp hk
  exact firm_get? h hw

theorem steady_modified : Steady (String.join ((modifiers s modifierOrder).map ("\n" ++ ·))) := by
  refine .join fun v hv => ?_
  obtain ⟨w, hw, rfl⟩ := List.mem_map.mp hv
  exact (Widget.fragment (firm_modifiers h _ w hw)).clears

/-- The comment above a view goes, and nothing else does. -/
theorem fragment_finished {f g : String} {ns : List String} (hf : Widget f g ns) {name : String}
    (hn : ∀ n ∈ Target.label true name, Comments.FitsLine n) :
    Fragment (finished (Target.label true name) s f) (finished (Target.label false name) s g)
      ((Target.label true name).toList ++ ns) := by
  have hl : Target.label false name = none := rfl
  have hw := hf.append_steady (steady_modified h)
  have hs : "\n// " = "\n" ++ "// " := by decide
  rw [hl]
  cases hl : Target.label true name with
  | none =>
    have hc := hw.fragment
    simpa [finished, String.append_assoc] using hc
  | some n =>
    have hc := hw.fragment_comment (hn n hl)
    unfold finished
    rw [hs] at hc
    simp only [String.append_assoc, String.empty_append] at hc ⊢
    exact hc

omit h in
theorem fragment_spacer : Fragment spacer spacer [] := by
  have hw : Line "Spacer()" := .ofList (by decide)
  have hs : spacer = "\n" ++ "Spacer()" := by decide
  rw [hs]
  exact hw.widget.fragment

omit h in
theorem fragments_intersperse {fs gs ns : List String} (hf : Fragments fs gs ns) :
    Fragments (fs.intersperse spacer) (gs.intersperse spacer) ns := by
  induction hf with
  | nil => exact .nil
  | cons hd htl ih =>
    cases htl with
    | nil => exact .cons hd .nil
    | cons hd' htl' =>
      have hs := Fragments.cons fragment_spacer ih
      rw [List.nil_append] at hs
      exact .cons hd hs

omit h in
theorem fragments_spaced {fs gs ns : List String} (hf : Fragments fs gs ns) :
    Fragments (spaced s fs) (spaced s gs) ns := by
  unfold spaced
  dsimp only
  split_ifs
  · exact fragments_intersperse hf
  · have hs := ((Fragments.cons fragment_spacer .nil).append hf).append (.cons fragment_spacer .nil)
    simpa using hs
  · exact .cons fragment_spacer hf
  · exact hf

theorem widget_container {fs gs ns : List String} (hf : Fragments fs gs ns) :
    Widget (containerView s fs) (containerView s gs) ns := by
  unfold containerView
  rw [← hf.isEmpty_eq]
  split
  · have he : fs = [] := List.isEmpty_iff.mp ‹_›
    subst he
    cases hf
    have hr : Line "Rectangle()" := .ofList (by decide)
    have hc : Line ".foregroundColor(.clear)" := .ofList (by decide)
    have hs : "Rectangle()\n.foregroundColor(.clear)" = "Rectangle()" ++ ("\n" ++ ".foregroundColor(.clear)") := by decide
    rw [hs]
    exact hr.widget.append_steady hc.widget.fragment.clears
  · have hs : Firm ((s.get? "stack").getD freeStack) := by
      cases hg : s.get? "stack" with
      | none =>
        have hl : Line freeStack := .ofList (by decide)
        exact hl.widget
      | some v => exact firm_get? h hg
    have hb : Steady " \x7b" := OneLine.steady (.ofList (by decide))
    have hc : Steady "\n\x7d" := Clears.line (Clears.inline (by decide)) (by decide)
    have hi := (fragments_spaced hf : Fragments (spaced s fs) (spaced s gs) ns).join_map fun _ _ _ hx => hx.indentText
    exact ((hs.append_steady hb).append hi).append_steady hc

end

theorem widget_image (source : String) : Firm ("AsyncImage(url: URL(string: " ++ Text.swift source ++ "))") := by
  have hl : Line "AsyncImage(url: URL(string: " := .ofList (by decide)
  exact (hl.next (.swift source) (by decide)).widget

theorem line_text (text : String) : Line ("Text(" ++ Text.swift text ++ ")") := by
  have hl : Line "Text(" := .ofList (by decide)
  exact hl.next (.swift text) (by decide)

theorem firm_runView {run : Run} (hr : ∀ s ∈ run.styles, ∀ e ∈ s.entries, Firm e.2) : Firm (runView run) := by
  refine (line_text run.text).widget.append_steady (.join fun v hv => ?_)
  cases hs : run.styles with
  | none =>
    rw [hs] at hv
    cases hv
  | some s =>
    rw [hs] at hv
    exact (firm_modifiers (hr s hs) _ v hv).clears

theorem firm_intercalate {separator : String} (hs : ∀ v, Firm v → Steady (separator ++ v)) {vs : List String}
    (hn : vs ≠ []) (hv : ∀ v ∈ vs, Firm v) : Firm (separator.intercalate vs) := by
  induction vs with
  | nil => exact absurd rfl hn
  | cons v vs ih =>
    rw [List.forall_mem_cons] at hv
    by_cases hn : vs = []
    · subst hn
      rw [String.intercalate_singleton]
      exact hv.1
    · rw [String.intercalate_cons_of_ne_nil hn, String.append_assoc]
      exact hv.1.append_steady (hs _ (ih hn hv.2))

theorem widget_text (s : Styles) {runs : List Run} (hn : runs ≠ [])
    (hr : ∀ s ∈ runs.filterMap (·.styles), ∀ e ∈ s.entries, Firm e.2) : Firm (textView s runs) := by
  have hp : Steady " + " := OneLine.steady (.ofList (by decide))
  have ho : Line "(" := .ofList (by decide)
  have hc : Steady ")" := OneLine.steady (.ofList (by decide))
  unfold textView
  split
  · exact (line_text _).widget
  · have hs : Firm (" + ".intercalate (runs.map runView)) := by
      refine firm_intercalate (fun v hv => hp.append hv.clears) (fun he => hn (List.map_eq_nil_iff.mp he)) fun v hv => ?_
      obtain ⟨run, hm, rfl⟩ := List.mem_map.mp hv
      exact firm_runView fun s hs => hr s (List.mem_filterMap.mpr ⟨run, hm, hs⟩)
    dsimp only
    split
    · exact hs
    · exact (ho.widget.append_steady hs.clears).append_steady hc

theorem oneLine_color (c : Rgb) (opacity : Float) : OneLine (color c opacity) := by
  have hc : OneLine "Color(red: " := .ofList (by decide)
  have ho : OneLine ".opacity(" := .ofList (by decide)
  refine OneLine.append_iff.mpr ⟨((hc.next (.text _) (by decide)).next (.text _) (by decide)).next (.text _) (by decide), ?_⟩
  split
  · exact ho.next (.text _) (by decide)
  · exact .ofList (by decide)

theorem oneLine_unitPoint (p : Point Float) : OneLine (unitPoint p) := by
  have hp : OneLine "UnitPoint(x: " := .ofList (by decide)
  exact (hp.next (.text _) (by decide)).next (.text _) (by decide)

theorem oneLine_gradient (g : LinearGradient) : OneLine (gradient g) := by
  have hg : OneLine "LinearGradient(stops: [" := .ofList (by decide)
  have hi : OneLine (", ".intercalate (g.stops.map (stop g))) := .intercalate (.ofList (by decide)) fun v hv => by
    obtain ⟨s, -, rfl⟩ := List.mem_map.mp hv
    have hs : OneLine "Gradient.Stop(color: " := .ofList (by decide)
    exact (hs.next (oneLine_color _ _) (by decide)).next (.text _) (by decide)
  exact ((hg.next hi (by decide)).next (oneLine_unitPoint _) (by decide)).next (oneLine_unitPoint _) (by decide)

theorem oneLine_background (fill : Fill) (width height : Float) : OneLine (background fill width height) := by
  cases fill with
  | solid c opacity => exact oneLine_color c opacity
  | gradient g => exact oneLine_gradient g
  | image mode =>
    have hi : OneLine "AsyncImage(url: URL(string: " := .ofList (by decide)
    have hm : OneLine (if mode = .fit then ".fit" else ".fill") := by split <;> exact .ofList (by decide)
    exact (hi.next (.swift _) (by decide)).next hm (by decide)

theorem oneLine_extent {small capital : String} (hs : OneLine small) (hc : OneLine capital) (flexible : Bool) (e : Extent) :
    ∀ v ∈ extent small capital flexible e, OneLine v := by
  have hw {front : String} (hf : OneLine front) (x : Float) : OneLine (front ++ capital ++ ": " ++ text x) :=
    OneLine.append_iff.mpr ⟨hf.next hc (by decide), .text x⟩
  have hn : OneLine "min" := .ofList (by decide)
  have hx : OneLine "max" := .ofList (by decide)
  cases e with
  | fixed length =>
    cases flexible with
    | true => exact List.forall_mem_cons.mpr ⟨hw hn length, List.forall_mem_singleton.mpr (hw hx length)⟩
    | false =>
      have hk : OneLine ": " := .ofList (by decide)
      exact List.forall_mem_singleton.mpr (OneLine.append_iff.mpr ⟨OneLine.append_iff.mpr ⟨hs, hk⟩, .text length⟩)
  | fill => exact List.forall_mem_singleton.mpr (hx.next hc (by decide))
  | hug => exact List.forall_mem_nil _

theorem line_border (s : Stroke) : Line (border s) := by
  have hl : Line ".overlay(Rectangle()" := .ofList (by decide)
  have hi : OneLine (inset s.align s.weight) := by
    cases s.align with
    | center => exact .ofList (by decide)
    | inside | outside =>
      have hb : OneLine ".inset(by: " := .ofList (by decide)
      exact hb.next (.text _) (by decide)
  exact ((hl.next hi (by decide)).next (oneLine_color _ _) (by decide)).next (.text _) (by decide)

theorem line_radius (r : Radius) : Line (radius r).value := by
  have hr : Line ".cornerRadius(" := .ofList (by decide)
  have hc : Line ".clipShape(UnevenRoundedRectangle(topLeadingRadius: " := .ofList (by decide)
  cases r with
  | uniform r => exact hr.next (.text r) (by decide)
  | corners c =>
    exact (((hc.next (.text _) (by decide)).next (.text _) (by decide)).next (.text _) (by decide)).next
      (.text _) (by decide)
  | full => exact .ofList (by decide)

theorem line_shadow (s : Shadow) : Line (shadow s) := by
  have hl : Line ".shadow(color: " := .ofList (by decide)
  exact (((hl.next (oneLine_color _ _) (by decide)).next (.text _) (by decide)).next (.text _) (by decide)).next (.text _)
    (by decide)

theorem values_shadows (ss : List Shadow) : Values Firm (shadows ss) := by
  unfold shadows
  dsimp only
  refine Declaration.values_ite (fun _ => Declaration.values_nil) fun hn => Declaration.values_single ?_
  refine firm_intercalate (fun v hv => (Widget.fragment hv).clears) ?_ fun v hv => ?_
  · intro he
    exact hn (by rw [List.map_eq_nil_iff.mp he]; rfl)
  · obtain ⟨s, -, rfl⟩ := List.mem_map.mp hv
    exact (line_shadow s).widget

/-- Two modifiers are on two lines. -/
theorem firm_padding (p : Padding) : Firm (padding p) := by
  have hl : Line ".padding(" := .ofList (by decide)
  have hh : Line ".padding(.horizontal, " := .ofList (by decide)
  have hv : Line ".padding(.vertical, " := .ofList (by decide)
  have he : Line ".padding(EdgeInsets(top: " := .ofList (by decide)
  have hc : Steady ")" := OneLine.steady (.ofList (by decide))
  have hs : ")\n.padding(.vertical, " = ")" ++ ("\n" ++ ".padding(.vertical, ") := by decide
  unfold padding
  split
  · exact (hl.next (.text _) (by decide)).widget
  · split
    · have hb : Steady ")\n.padding(.vertical, " := hs ▸ hc.append hv.widget.fragment.clears
      have ht (x : Float) : Steady (text x) := (OneLine.text x).steady
      exact (((hh.append (.text _)).widget.append_steady hb).append_steady (ht _)).append_steady hc
    · exact ((((he.next (.text _) (by decide)).next (.text _) (by decide)).next (.text _) (by decide)).next
        (.text _) (by decide)).widget

theorem line_stack (f : Flow) : Line (stack f) := by
  have hr : OneLine (rowAlign f.cross) := by cases f.cross <;> exact .ofList (by decide)
  have hc : OneLine (columnAlign f.cross) := by cases f.cross <;> exact .ofList (by decide)
  have hh : Line "HStack(alignment: " := .ofList (by decide)
  have hv : Line "VStack(alignment: " := .ofList (by decide)
  unfold stack
  dsimp only
  cases f.direction with
  | row => exact (hh.next hr (by decide)).next (.text _) (by decide)
  | column => exact (hv.next hc (by decide)).next (.text _) (by decide)

theorem values_flow (f : Flow) : Values Firm (flow f) := by
  unfold flow
  simp only [Declaration.values_append]
  refine ⟨⟨?_, ?_⟩, ?_⟩
  · exact Declaration.values_single (line_stack f).widget
  · refine Declaration.values_ite (fun _ => Declaration.values_nil) fun _ => Declaration.values_option fun v hv => ?_
    have hl : Line v := by cases hm : f.main <;> rw [hm] at hv <;> cases hv <;> exact .ofList (by decide)
    exact hl.widget
  · exact Declaration.values_ite (fun _ => Declaration.values_nil) fun _ =>
      Declaration.values_single (firm_padding f.padding)

theorem values_size (s : Size) : Values Line (size s) := by
  have hl : Line ".frame(" := .ofList (by decide)
  unfold size
  dsimp only
  refine Declaration.values_ite (fun _ => Declaration.values_nil) fun _ => Declaration.values_single ?_
  refine hl.next (.intercalate (.ofList (by decide)) fun v hv => ?_) (by decide)
  rcases List.mem_append.mp hv with hv | hv
  · exact oneLine_extent (.ofList (by decide)) (.ofList (by decide)) _ _ v hv
  · exact oneLine_extent (.ofList (by decide)) (.ofList (by decide)) _ _ v hv

theorem values_typography (run : TextRun) (fill : Option (Rgb × Float)) : Values Line (typography run fill) := by
  have hf : Line ".font(Font.custom(" := .ofList (by decide)
  have hk : Line ".kerning(" := .ofList (by decide)
  have hg : Line ".lineSpacing(" := .ofList (by decide)
  have hc : Line ".foregroundColor(" := .ofList (by decide)
  have hw : OneLine (fontWeight run.fontWeight) := by
    unfold fontWeight
    repeat' apply iteInduction <;> intro
    all_goals exact .ofList (by decide)
  unfold typography
  simp only [Declaration.values_append]
  refine ⟨⟨⟨⟨⟨?_, ?_⟩, ?_⟩, ?_⟩, ?_⟩, ?_⟩
  · exact Declaration.values_single (((hf.next (.swift _) (by decide)).next (.text _) (by decide)).next hw (by decide))
  · exact Declaration.values_ite (fun _ => Declaration.values_single (.ofList (by decide))) fun _ => Declaration.values_nil
  · exact Declaration.values_option fun v hv => by
      cases hd : run.decoration <;> rw [hd] at hv <;> cases hv <;> exact .ofList (by decide)
  · exact Declaration.values_ite (fun _ => Declaration.values_single (hk.next (.text _) (by decide))) fun _ =>
      Declaration.values_nil
  · exact Declaration.values_ite (fun _ => Declaration.values_single (hg.next (.text _) (by decide))) fun _ =>
      Declaration.values_nil
  · exact Declaration.values_option fun c _ => hc.next (oneLine_color c.1 c.2) (by decide)

theorem values_blend (opacity rotation : Float) : Values Line (declarations (.blend opacity rotation)) := by
  have ho : Line ".opacity(" := .ofList (by decide)
  have hr : Line ".rotationEffect(.degrees(" := .ofList (by decide)
  refine Declaration.values_append.mpr ⟨?_, ?_⟩
  · exact Declaration.values_ite (fun _ => Declaration.values_single (ho.next (.text _) (by decide))) fun _ =>
      Declaration.values_nil
  · exact Declaration.values_ite (fun _ => Declaration.values_single (hr.next (.text _) (by decide)))
      fun _ => Declaration.values_nil

theorem values_declarations (a : Aspect) : Values Firm (declarations a) := by
  have hl {ds : List Declaration} (h : Values Line ds) : Values Firm ds := fun d hd => (h d hd).widget
  have ho : Line ".offset(x: " := .ofList (by decide)
  have hg : Line ".background(" := .ofList (by decide)
  have hb : Line ".blur(radius: " := .ofList (by decide)
  have hm : Line ".multilineTextAlignment(" := .ofList (by decide)
  cases a with
  | size s => exact hl (values_size s)
  | position x y =>
    exact hl (Declaration.values_single ((ho.next (.text _) (by decide)).next (.text _) (by decide)))
  | blend opacity rotation => exact hl (values_blend opacity rotation)
  | background fill width height =>
    exact hl (Declaration.values_single (hg.next (oneLine_background _ _ _) (by decide)))
  | border s => exact hl (Declaration.values_single (line_border s))
  | radius r width height => exact hl (List.forall_mem_singleton.mpr (line_radius r))
  | shadows ss => exact values_shadows ss
  | blur b =>
    refine hl (Declaration.values_append.mpr ⟨?_, ?_⟩)
    · exact Declaration.values_option fun r _ => hb.next (.text _) (by decide)
    · exact Declaration.values_ite (fun _ => Declaration.values_single (.ofList (by decide))) fun _ => Declaration.values_nil
  | clip => exact hl (Declaration.values_single (.ofList (by decide)))
  | flow f => exact values_flow f
  | origin => exact hl (List.forall_mem_singleton.mpr (.ofList (by decide)))
  | typography run fill => exact hl (values_typography run fill)
  | textAlign horizontal vertical =>
    refine hl (Declaration.values_option fun v hv => hm.next ?_ (by decide))
    cases horizontal <;> cases hv <;> exact .ofList (by decide)

theorem commented : Comments.Commented .swiftUI Firm where
  values := values_declarations
  container hs _ hn _ _ _ hf := fragment_finished hs (widget_container hs hf) hn
  image hs _ hn source := by
    have hf := fragment_finished hs (widget_image source) hn
    rwa [List.append_nil] at hf
  text := fun {s} hs _ hn _ hr hne => by
    have hf := fragment_finished hs (widget_text s hne hr) hn
    rwa [List.append_nil] at hf

end SceneCode.SwiftUI
