import SceneCode.Proofs.Code.Swift
import SceneCode.Proofs.Code.Texts

namespace SceneCode.Swift
open Code (IsWord)
open Declaration (forall_ite forall_option)
open SwiftUI (background border color declarations extent gradient inset kerning padding shadow size stack stop
  typography unitPoint)
open Number (text)

theorem whole_color (c : Rgb) (opacity : Float) : Whole (color c opacity) [] := by
  have hc := ((((opens "Color(red: ").next (says_text c.r) ", green: ").next (says_text c.g) ", blue: ").next
    (says_text c.b) ")").whole (by decide)
  have ho : Whole (if opacity < 1 then ".opacity(" ++ text (Number.larger opacity 0) ++ ")" else "") [] := by
    split
    · exact ((opens ".opacity(").next (says_text _) ")").whole (by decide)
    · exact whole_empty
  exact hc.append ho

theorem whole_stop (g : LinearGradient) (s : ColorStop) : Whole (stop g s) [] :=
  (((opens "Gradient.Stop(color: ").next (whole_color _ _).value ", location: ").next (says_text _)
    ")").whole (by decide)

theorem whole_unitPoint (p : Point Float) : Whole (unitPoint p) [] :=
  (((opens "UnitPoint(x: ").next (says_text _) ", y: ").next (says_text _) ")").whole (by decide)

theorem whole_gradient (g : LinearGradient) : Whole (gradient g) [] := by
  have hs : Whole (", ".intercalate (g.stops.map (stop g))) ((g.stops.map (stop g)).flatMap fun _ => []) := by
    refine Whole.intercalate (whole ", " (by decide)) fun v hv => ?_
    obtain ⟨s, -, rfl⟩ := List.mem_map.mp hv
    exact whole_stop g s
  have ht : ((g.stops.map (stop g)).flatMap fun _ => ([] : List String)) = [] := by simp
  rw [ht] at hs
  exact ((((opens "LinearGradient(stops: [").next hs.value "], startPoint: ").next
    (whole_unitPoint _).value ", endPoint: ").next (whole_unitPoint _).value ")").whole (by decide)

theorem whole_background (fill : Fill) (width height : Float) :
    Whole (background fill width height) (Aspect.background fill width height).texts := by
  cases fill with
  | solid c opacity => exact whole_color c opacity
  | gradient g => exact whole_gradient g
  | image mode =>
    have hm : IsWord (if mode = .fit then ".fit" else ".fill") := by cases mode <;> decide
    exact (((opens "AsyncImage(url: URL(string: ").next (whole_swift _).value
      ")) \x7b image in image.resizable().aspectRatio(contentMode: ").next (says_word hm)
      ") \x7d placeholder: \x7b Color.gray \x7d").whole (by decide)

theorem whole_inset (align : StrokeAlign) (weight : Float) : Whole (inset align weight) [] := by
  cases align with
  | center => exact whole_empty
  | inside => exact ((opens ".inset(by: ").next (says_text _) ")").whole (by decide)
  | outside => exact ((opens ".inset(by: ").next (says_text _) ")").whole (by decide)

theorem whole_border (s : Stroke) : Whole (border s) [] :=
  (((((opens ".overlay(Rectangle()").append (whole_inset _ _)).fixed ".stroke(").next
    (whole_color _ _).value ", lineWidth: ").next (says_text _) "))").whole (by decide)

theorem whole_shadow (s : Shadow) : Whole (shadow s) [] :=
  (((((opens ".shadow(color: ").next (whole_color _ _).value ", radius: ").next (says_text _) ", x: ").next
    (says_text _) ", y: ").next (says_text _) ")").whole (by decide)

theorem whole_padding (p : Padding) : Whole (padding p) [] := by
  unfold padding
  split
  · exact ((opens ".padding(").next (says_text _) ")").whole (by decide)
  · split
    · exact (((opens ".padding(.horizontal, ").next (says_text _) ")\n.padding(.vertical, ").next
        (says_text _) ")").whole (by decide)
    · exact (((((opens ".padding(EdgeInsets(top: ").next (says_text _) ", leading: ").next
        (says_text _) ", bottom: ").next (says_text _) ", trailing: ").next (says_text _) "))").whole (by decide)

theorem whole_stack (f : Flow) : Whole (stack f) [] := by
  have hr : IsWord (SwiftUI.rowAlign f.cross) := by cases f.cross <;> exact .ofList (by decide)
  have hc : IsWord (SwiftUI.columnAlign f.cross) := by cases f.cross <;> exact .ofList (by decide)
  unfold stack
  dsimp only
  cases f.direction with
  | row =>
    exact (((opens "HStack(alignment: ").next (says_word hr) ", spacing: ").next (says_text _) ")").whole (by decide)
  | column =>
    exact (((opens "VStack(alignment: ").next (says_word hc) ", spacing: ").next (says_text _) ")").whole (by decide)

/-- The keys of the values that hold a literal. -/
def speakingKeys : List String :=
  ["background", "font"]

/-- The value of a declaration holds these texts, or none if its key is not one of those that speak. It is no code if it
says where spacers go. -/
def Spoken (texts : List String) (d : Declaration) : Prop :=
  d.key ≠ "spacers" → Whole d.value (if d.key ∈ speakingKeys then texts else [])

section Spoken
variable {texts : List String} {key v : String}

theorem spoken_set (h : Whole v []) (hk : key ∉ speakingKeys) : Spoken texts (.set key v) := by
  intro _
  rw [Declaration.set, if_neg hk]
  exact h

theorem spoken_speaking (h : Whole v texts) (hk : key ∈ speakingKeys) : Spoken texts (.set key v) := by
  intro _
  rw [Declaration.set, if_pos hk]
  exact h

theorem spoken_spacers : Spoken texts (.set "spacers" v) :=
  absurd rfl

theorem spoken_single (h : Spoken texts (.set key v)) : ∀ d ∈ [Declaration.set key v], Spoken texts d :=
  List.forall_mem_singleton.mpr h

end Spoken

theorem says_extent {small capital : String} (hs : IsWord small) (hc : IsWord capital) (flexible : Bool) (e : Extent) :
    ∀ v ∈ extent small capital flexible e, Says v [] := by
  have hw {key : String} (h : IsWord key) (v : String) (hv : IsWord v) : Says (key ++ ": " ++ v) [] := by
    have hl : Whole ("" ++ key ++ ": ") [] := (whole_empty.draft.next (says_word h) ": ").whole (by decide)
    rw [String.empty_append] at hl
    exact hl.before (says_word hv)
  have hn : IsWord ("min" ++ capital) := (by decide : IsWord "min").append hc.2
  have hx : IsWord ("max" ++ capital) := (by decide : IsWord "max").append hc.2
  cases e with
  | hug => exact nofun
  | fill =>
    have hi : "max" ++ capital ++ ": .infinity" = "max" ++ capital ++ ": " ++ ".infinity" := by
      rw [@String.append_assoc ("max" ++ capital)]
      rfl
    exact List.forall_mem_singleton.mpr (hi ▸ hw hx ".infinity" (by decide))
  | fixed length =>
    cases flexible with
    | true =>
      exact List.forall_mem_cons.mpr
        ⟨hw hn _ (.text length), List.forall_mem_singleton.mpr (hw hx _ (.text length))⟩
    | false => exact List.forall_mem_singleton.mpr (hw hs _ (.text length))

theorem spoken_size (s : Size) (texts : List String) : ∀ d ∈ size s, Spoken texts d := by
  unfold size
  extract_lets flexible bounds
  have hb : Says (", ".intercalate bounds) (bounds.flatMap fun _ => []) := by
    refine Says.intercalate (by decide) (List.forall_mem_append.mpr ⟨?_, ?_⟩)
    · exact says_extent (by decide) (by decide) flexible s.width
    · exact says_extent (by decide) (by decide) flexible s.height
  rw [List.flatMap_eq_nil_iff.mpr fun _ _ => rfl] at hb
  split
  · exact nofun
  · exact spoken_single (spoken_set (((opens ".frame(").next hb ")").whole (by decide)) (by decide))

theorem spoken_radius (r : Radius) (texts : List String) : Spoken texts (SwiftUI.radius r) := by
  cases r with
  | uniform r => exact spoken_set (((opens ".cornerRadius(").next (says_text _) ")").whole (by decide)) (by decide)
  | corners c =>
    exact spoken_set ((((((opens ".clipShape(UnevenRoundedRectangle(topLeadingRadius: ").next (says_text _)
      ", bottomLeadingRadius: ").next (says_text _) ", bottomTrailingRadius: ").next (says_text _)
      ", topTrailingRadius: ").next (says_text _) "))").whole (by decide)) (by decide)
  | full => exact spoken_set (whole ".clipShape(Ellipse())" (by decide)) (by decide)

theorem spoken_shadows (ss : List Shadow) (texts : List String) : ∀ d ∈ SwiftUI.shadows ss, Spoken texts d := by
  unfold SwiftUI.shadows
  extract_lets drops
  have hw : Whole ("\n".intercalate (drops.map shadow)) ((drops.map shadow).flatMap fun _ => []) := by
    refine Whole.intercalate (whole "\n" (by decide)) fun v hv => ?_
    obtain ⟨s, -, rfl⟩ := List.mem_map.mp hv
    exact whole_shadow s
  rw [List.flatMap_eq_nil_iff.mpr fun _ _ => rfl] at hw
  split
  · exact nofun
  · exact spoken_single (spoken_set hw (by decide))

theorem spoken_flow (f : Flow) (texts : List String) : ∀ d ∈ SwiftUI.flow f, Spoken texts d := by
  unfold SwiftUI.flow
  simp only [List.forall_mem_append]
  refine ⟨⟨spoken_single (spoken_set (whole_stack f) (by decide)), ?_⟩, ?_⟩
  · split
    · exact nofun
    · exact forall_option fun v _ => spoken_spacers
  · split
    · exact nofun
    · exact spoken_single (spoken_set (whole_padding f.padding) (by decide))

theorem isWord_fontWeight (weight : UInt16) : IsWord (SwiftUI.fontWeight weight) := by
  unfold SwiftUI.fontWeight
  repeat' apply iteInduction <;> intro
  all_goals exact .ofList (by decide)

theorem spoken_typography (run : TextRun) (fill : Option (Rgb × Float)) :
    ∀ d ∈ typography run fill, Spoken (Aspect.typography run fill).texts d := by
  have hw := isWord_fontWeight run.fontWeight
  have hf := ((((opens ".font(Font.custom(").next (whole_swift run.fontName.family).value ", size: ").next
    (says_text run.fontSize) ").weight(").next (says_word hw) "))").whole (by decide)
  unfold typography
  simp only [List.forall_mem_append, List.forall_mem_cons, List.not_mem_nil, false_imp_iff, implies_true, and_true]
  refine ⟨⟨⟨⟨⟨spoken_speaking hf (by decide), ?_⟩, ?_⟩, ?_⟩, ?_⟩, ?_⟩
  · exact forall_ite (spoken_single (spoken_set (whole ".italic()" (by decide)) (by decide)))
  · refine forall_option fun v hv => spoken_set ?_ (by decide)
    cases hd : run.decoration <;> rw [hd] at hv <;> cases hv <;> exact whole _ (by decide)
  · exact forall_ite (spoken_single (spoken_set (((opens ".kerning(").next (says_text _)
      ")").whole (by decide)) (by decide)))
  · exact forall_ite (spoken_single (spoken_set (((opens ".lineSpacing(").next (says_text _)
      ")").whole (by decide)) (by decide)))
  · exact forall_option fun c _ => spoken_set (((opens ".foregroundColor(").next (whole_color _ _).value
      ")").whole (by decide)) (by decide)

theorem declarations_spoken (a : Aspect) : ∀ d ∈ declarations a, Spoken a.texts d := by
  cases a with
  | size s => exact spoken_size s _
  | position x y =>
    exact spoken_single (spoken_set ((((opens ".offset(x: ").next (says_text x) ", y: ").next (says_text y)
      ")").whole (by decide)) (by decide))
  | blend opacity rotation =>
    exact List.forall_mem_append.mpr ⟨
      forall_ite (spoken_single (spoken_set (((opens ".opacity(").next (says_text _)
      ")").whole (by decide)) (by decide))), forall_ite (spoken_single (spoken_set
        (((opens ".rotationEffect(.degrees(").next (says_text _)
        "), anchor: .topLeading)").whole (by decide)) (by decide)))⟩
  | background fill width height =>
    have ho := opens ".background("
    exact spoken_single (spoken_speaking ((ho.next (whole_background fill width height).value
      ")").whole (by decide)) (by decide))
  | border s => exact spoken_single (spoken_set (whole_border s) (by decide))
  | radius r width height => exact List.forall_mem_singleton.mpr (spoken_radius r _)
  | shadows ss => exact spoken_shadows ss _
  | blur b =>
    exact List.forall_mem_append.mpr ⟨
      forall_option fun r _ => spoken_set (((opens ".blur(radius: ").next (says_text _)
      ")").whole (by decide)) (by decide), forall_ite (spoken_single (spoken_set (whole
        ".background(.ultraThinMaterial)" (by decide)) (by decide)))⟩
  | clip => exact spoken_single (spoken_set (whole ".clipped()" (by decide)) (by decide))
  | flow f => exact spoken_flow f _
  | origin =>
    exact List.forall_mem_singleton.mpr fun _ => whole "ZStack(alignment: .topLeading)" (by decide)
  | typography run fill => exact spoken_typography run fill
  | textAlign horizontal vertical =>
    refine forall_option fun v hv => spoken_set ?_ (by decide)
    have hw : IsWord v := by cases horizontal <;> cases hv <;> exact .ofList (by decide)
    exact ((opens ".multilineTextAlignment(").next (says_word hw) ")").whole (by decide)

end SceneCode.Swift
