import SceneCode.Proofs.Code.Widgets
import SceneCode.Proofs.Placement.Coordinates

namespace SceneCode

namespace Piece

def flow? {α : Type} : Piece α → Option Flow
  | .frame _ _ flow _ _ => flow
  | _ => none

/-- A piece that something is around has the size that its slot gives it. -/
theorem size_eq {p : Piece Float} (h : p.slot.isTop = false) :
    ∃ (s : Subject) (hug : Hug), s.base = p.base ∧ p.size = [.size (s.sizeIn p.slot hug)] := by
  cases p with
  | group slot base children =>
    have hs : slot.isTop = false := h
    exact ⟨.ofBase base, {}, rfl, if_neg (Bool.eq_false_iff.mp hs)⟩
  | frame slot base flow clips children => exact ⟨.ofBase base, .ofFlow flow, rfl, rfl⟩
  | shape slot base ellipse => exact ⟨.ofBase base, {}, rfl, rfl⟩
  | line slot base => exact ⟨base.bar, {}, rfl, rfl⟩
  | text slot base box => exact ⟨.ofBase base, .ofText box, rfl, rfl⟩

theorem flow_mem {p : Piece Float} {flow : Flow} : .flow flow ∈ p.aspects ↔ p.flow? = some flow := by
  rw [mem_layout rfl (by simp) (by simp)]
  cases p with
  | frame slot base flow' clips children =>
    cases flow' with
    | some flow' => simp [layout, Subject.layout, flow?, eq_comm]
    | none => cases children <;> simp [layout, Subject.layout, flow?]
  | _ => simp [layout, flow?]

theorem flow?_of_origin {p : Piece Float} (h : .origin ∈ p.aspects) : p.flow? = none := by
  have hl := (mem_layout rfl (by simp) (by simp)).mp h
  cases p with
  | frame slot base flow clips children =>
    cases flow with
    | some flow => simp [layout, Subject.layout] at hl
    | none => rfl
  | _ => rfl

/-- Along the flow that it is in, a piece takes the room that is left. -/
def grows (p : Piece Float) : Bool :=
  match p.slot with
  | .inFlow _ => decide (0 < p.base.layoutGrow)
  | _ => false

end Piece

namespace Dart
open Flutter (containerWidget declarations declarations_spoken imageWidget named speakingKeys textWidget sized wrapped)

/-- The widget that arranges children. -/
def arranger : Option Flow → String
  | none => "Stack"
  | some flow =>
    if flow.wrap then "Wrap"
    else match flow.direction with
      | .row => "Row"
      | .column => "Column"

/-- Where children stand. -/
def inside (flow : Option Flow) : Place :=
  .item (.argument (arranger flow) "children")

mutual
/-- Where the widgets stand that fill a row or column, in a piece that stands at a place. -/
def filled (place : Place) : Piece Float → List Place
  | .frame slot base flow clips children =>
    (if (Piece.frame slot base flow clips children).grows then [place] else []) ++ filledInAll (inside flow) children
  | .group slot base children =>
    (if (Piece.group slot base children).grows then [place] else []) ++ filledInAll (inside none) children
  | .shape slot base ellipse => if (Piece.shape slot base ellipse).grows then [place] else []
  | .line slot base => if (Piece.line slot base).grows then [place] else []
  | .text slot base box => if (Piece.text slot base box).grows then [place] else []

def filledInAll (place : Place) : List (Piece Float) → List Place
  | [] => []
  | p :: ps => filled place p ++ filledInAll place ps
end

theorem voiced_styles (aspects : List Aspect) : Voiced (Target.flutter.styles aspects) := by
  intro e he
  obtain ⟨a, -, d, hd, rfl⟩ := Target.exists_of_mem_entries he
  have hs := declarations_spoken a d hd
  refine ⟨⟨_, hs⟩, fun hk => ?_⟩
  rw [Flutter.Spoken, if_neg hk] at hs
  exact hs

theorem voices {key : String} (hk : key ∈ speakingKeys) :
    Target.flutter.Voices (fun v => (value v).literals) key where
  mine a ha := by
    rw [speakingKeys, List.mem_cons, List.mem_singleton] at hk
    rcases hk with rfl | rfl <;> cases a <;> simp_all [Aspect.paints, Target.keysOf, Flutter.keysOf]
  texts_eq a d hd he := by
    have hs := declarations_spoken a d hd
    rw [Flutter.Spoken, he, if_pos hk] at hs
    exact hs.2.1

theorem voices_image : Target.flutter.Voices (fun v => (value v).literals) "image" :=
  voices (by decide)

theorem voices_fontFamily : Target.flutter.Voices (fun v => (value v).literals) "fontFamily" :=
  voices (by decide)

theorem textsAt_image {aspects : List Aspect} {s : Subject} {paints : List Paint}
    (h : aspects.filter Aspect.paints = s.fill paints) :
    textsAt (Target.flutter.styles aspects) "image" = Fill.texts paints s.width s.height :=
  voices_image.fill (fun _ _ _ => List.mem_singleton_self _) h

theorem textsAt_fontFamily {aspects : List Aspect} {s : Subject} {run : TextRun}
    (h : aspects.filter Aspect.paints = s.typography run) :
    textsAt (Target.flutter.styles aspects) "fontFamily" = [run.fontName.family] :=
  voices_fontFamily.typography (fun run c => by simp [Target.declarations, declarations, Flutter.typography,
    Declaration.set]) h

theorem mem_sizeIn {s : Subject} {flow : Flow} {hug : Hug} :
    "flex" ∈ (declarations (.size (s.sizeIn (.inFlow flow : Slot Float) hug))).map (·.key) ↔ 0 < s.base.layoutGrow := by
  obtain ⟨spacing, direction⟩ := flow
  cases direction <;> by_cases hg : 0 < s.base.layoutGrow <;> cases hs : s.base.layoutAlign == .stretch <;>
    cases hw : hug.width <;> cases hh : hug.height <;>
    simp [declarations, Flutter.extent, Subject.sizeIn, Subject.extent, Size.widthIsPrimary, Size.heightIsPrimary,
      Declaration.set, hg, hs, hw, hh]

theorem contains_flex (p : Piece Float) : (Target.flutter.styles p.aspects).contains "flex" = p.grows := by
  by_cases hf : ∃ flow, p.slot = .inFlow flow
  · obtain ⟨flow, hs⟩ := hf
    obtain ⟨s, hug, hb, hz⟩ := Piece.size_eq (p := p) (by rw [hs]; rfl)
    have hg : p.grows = decide (0 < p.base.layoutGrow) := by rw [Piece.grows, hs]
    have hm {z : Size} : .size z ∈ p.aspects ↔ z = s.sizeIn p.slot hug := by
      rw [Piece.size_mem, hz, List.mem_singleton, Aspect.size.injEq]
    rw [hs] at hm
    rw [hg, ← hb, Bool.eq_iff_iff, decide_eq_true_eq, Target.contains_styles, ← mem_sizeIn]
    constructor
    · rintro ⟨a, ha, hd⟩
      obtain ⟨d, hda, hk⟩ := List.mem_map.mp hd
      have hkey := Target.flutter.key_mem_keysOf a hda
      rw [hk] at hkey
      cases a with
      | size z =>
        obtain rfl := hm.mp ha
        exact hd
      | _ => simp [Target.keysOf, Flutter.keysOf] at hkey
    · intro hd
      exact ⟨_, hm.mpr rfl, hd⟩
  · have hg : p.grows = false := by
      unfold Piece.grows
      split
      · exact absurd ⟨_, ‹_›⟩ hf
      · rfl
    rw [hg]
    exact Target.not_contains_flex fun z hz => Piece.size_within hz fun flow h => hf ⟨flow, h⟩

theorem flow_only (flow : Flow) : Declaration.Only "layout" (arranger (some flow)) (Flutter.flow flow) := by
  simp only [Flutter.flow, List.cons_append, List.nil_append, Declaration.only_cons_set, Declaration.only_append,
    Declaration.only_ite, Declaration.only_map, Declaration.only_nil]
  simp [Declaration.set]
  rfl

/-- Only what arranges the children of a piece names the widget that does. -/
theorem layout_value {p : Piece Float} {a : Aspect} (ha : a ∈ p.aspects) {d : Declaration} (hd : d ∈ declarations a)
    (hk : d.key = "layout") : d.value = arranger p.flow? := by
  have hkey := Target.flutter.key_mem_keysOf a hd
  rw [hk] at hkey
  cases a with
  | flow flow =>
    rw [Piece.flow_mem.mp ha]
    exact flow_only flow d hd hk
  | origin =>
    rw [Piece.flow?_of_origin ha, List.mem_singleton.mp hd]
    rfl
  | _ => simp [Target.keysOf, Flutter.keysOf] at hkey

theorem stackName_styles (p : Piece Float) : stackName (Target.flutter.styles p.aspects) = arranger p.flow? := by
  cases hg : (Target.flutter.styles p.aspects).get? "layout" with
  | none =>
    have hf : p.flow? = none := by
      rw [Option.eq_none_iff_forall_ne_some]
      intro flow hf
      have hc := (Target.flutter.contains_styles p.aspects "layout").mpr
        ⟨_, Piece.flow_mem.mpr hf, List.mem_map_of_mem List.mem_cons_self⟩
      rw [Styles.get?_eq_none_iff, hc] at hg
      cases hg
    rw [stackName, hg, hf]
    rfl
  | some v =>
    obtain ⟨a, ha, d, hd, he⟩ := Target.exists_of_mem_entries (Styles.mem_entries_of_get? hg)
    obtain ⟨hk, rfl⟩ := Prod.mk.inj he
    rw [stackName, hg, layout_value ha hd hk]
    cases p.flow? with
    | none => rfl
    | some flow =>
      unfold arranger
      dsimp only
      split
      · rfl
      · cases flow.direction <;> rfl

section
variable {w : String} {fs texts texts' : List String} {filled : Place → List Place} {p : Piece Float}

theorem fragment_piece {filled : List Place} (hw : Widget w texts filled) :
    Fragment (wrapped (Target.flutter.styles p.aspects) w) texts fun place =>
      (if p.grows then [place] else []) ++ filled := by
  have hf := fragment_wrapped (voiced_styles p.aspects) hw
  rwa [contains_flex] at hf

theorem fragment_container (hf : Fragments fs texts filled) :
    Fragment (wrapped (Target.flutter.styles p.aspects) (containerWidget (Target.flutter.styles p.aspects) fs))
      (textsAt (Target.flutter.styles p.aspects) "image" ++ texts) fun place =>
        (if p.grows then [place] else []) ++ filled (inside p.flow?) := by
  have hw := fragment_piece (p := p) (widget_container (voiced_styles p.aspects) hf)
  rwa [stackName_styles] at hw

/-- A widget on a line of its own, in front of others. -/
theorem Fragments.cons {f : Place → List Place} (hw : Fragment w texts f) (hf : Fragments fs texts' filled) :
    Fragments (named none w :: fs) (texts ++ texts') fun place => f place ++ filled place := by
  have hd := denotes_line hw.1.1.denotes
  refine ⟨List.forall_mem_cons.mpr ⟨hd.reads, hf.reads⟩, ?_, fun place => ?_⟩
  · rw [List.flatMap_cons, hf.texts_eq, named, hd.value_eq, hw.1.2.1]
  · rw [List.flatMap_cons, hf.filled_eq, named, hd.value_eq, hw.1.2.2]

theorem Fragments.nil : Fragments [] [] fun _ => [] :=
  ⟨nofun, rfl, fun _ => rfl⟩

end

theorem runTexts_styled (base : Base) (run : TextRun) (content : String) :
    runTexts ⟨content, some (Target.flutter.runStyles base run)⟩ = [content, run.fontName.family] := by
  have hf : ((Subject.ofBase base).typography run).filter Aspect.paints = (Subject.ofBase base).typography run := rfl
  have ht : textsAt (Target.flutter.runStyles base run) "fontFamily" = [run.fontName.family] := textsAt_fontFamily hf
  rw [runTexts, Option.map_some, Option.getD_some, ht]

theorem textTexts_styled {s : Styles} {content : TextRun → String} {styles : TextRun → Styles} (runs : List TextRun) :
    textTexts s (runs.map fun run => ⟨content run, some (styles run)⟩) =
      (runs.map fun run => Run.mk (content run) (some (styles run))).flatMap runTexts := by
  rcases runs with _ | ⟨run, _ | ⟨run', runs⟩⟩ <;> rfl

/-- A text says what its runs say, in their fonts. -/
theorem textTexts_text (slot : Slot Float) (base : Base) (box : TextBox) :
    textTexts (Target.flutter.styles (Piece.text slot base box).aspects) (Target.flutter.runsOf base box) =
      box.shownRuns.flatMap Target.flutter.runTexts := by
  have hp := (Piece.text slot base box).aspects_paints
  rw [Piece.paint, Piece.onlyRun] at hp
  unfold Target.runsOf
  dsimp only
  split
  · rename_i run hr
    rw [hr] at hp ⊢
    exact congrArg (_ :: ·) (textsAt_fontFamily hp)
  · rw [textTexts_styled, List.flatMap_map]
    exact List.flatMap_congr fun run _ => runTexts_styled base run _

theorem voiced_runs (base : Base) (box : TextBox) :
    ∀ run ∈ Target.flutter.runsOf base box, ∀ s ∈ run.styles, Voiced s := by
  intro run hr s hs
  obtain ⟨r, rfl⟩ := Target.exists_runStyles hr hs
  exact voiced_styles _

mutual
theorem fragment_element (p : Piece Float) : ∃ widget, Target.flutter.render false (Target.flutter.element p) =
    named none widget ∧ Fragment widget (p.texts .flutter) fun place => filled place p := by
  cases p with
  | frame slot base flow clips children =>
    have hw := fragment_container (p := .frame slot base flow clips children) (fragments_elements children)
    rw [textsAt_image (s := .ofBase base) (Piece.aspects_paints _)] at hw
    exact ⟨_, rfl, hw⟩
  | group slot base children =>
    have hw := fragment_container (p := .group slot base children) (fragments_elements children)
    rw [textsAt, voices_image.unpainted (Piece.aspects_paints _)] at hw
    exact ⟨_, rfl, hw⟩
  | shape slot base ellipse =>
    have hp := Piece.aspects_paints (.shape slot base ellipse)
    rw [Piece.paint] at hp
    rw [Target.element, Target.shapeElement_eq]
    split <;> rename_i hi
    · have hv := voiced_styles (Piece.shape slot base ellipse).aspects
      have hw := fragment_piece (p := .shape slot base ellipse)
        (widget_image hv (placeholderUrl base.width base.height))
      have ht : Fill.texts base.fills base.width base.height = [placeholderUrl base.width base.height] := if_pos hi
      simp only [List.append_nil] at hw
      rw [← ht] at hw
      exact ⟨_, rfl, hw⟩
    · have hw := fragment_container (p := .shape slot base ellipse) .nil
      rw [if_neg hi] at hp
      rw [textsAt_image (s := .ofBase base) hp] at hw
      simp only [List.append_nil] at hw
      exact ⟨_, rfl, hw⟩
  | line slot base =>
    have hw := fragment_container (p := .line slot base) .nil
    rw [textsAt_image (s := base.bar) (Piece.aspects_paints _)] at hw
    simp only [List.append_nil] at hw
    exact ⟨_, rfl, hw⟩
  | text slot base box =>
    have hv := voiced_styles (Piece.text slot base box).aspects
    have hw := fragment_piece (p := .text slot base box) (widget_sized hv (widget_text hv (voiced_runs base box)))
    simp only [textTexts_text, List.append_nil] at hw
    rw [Target.element, Target.textElement_eq]
    exact ⟨_, rfl, hw⟩

theorem fragments_elements (ps : List (Piece Float)) :
    Fragments (Target.flutter.renderAll false (Target.flutter.elements ps)) (Piece.textsInAll .flutter ps)
      fun place => filledInAll place ps := by
  cases ps with
  | nil => exact .nil
  | cons p ps =>
    obtain ⟨w, hr, hw⟩ := fragment_element p
    rw [Target.elements, Target.renderAll, hr]
    exact .cons hw (fragments_elements ps)
end

theorem lines_elements (ps : List (Piece Float)) :
    Lines (Target.flutter.renderAll false (Target.flutter.elements ps)) := by
  induction ps with
  | nil => exact nofun
  | cons p ps ih =>
    obtain ⟨w, hr, -, callee, arguments, hc⟩ := fragment_element p
    refine List.forall_mem_cons.mpr ⟨⟨w, callee, arguments, hr, hc⟩, ih⟩

/-- Fragments that are each one call of a constructor. -/
def AreCalls (fragments : List String) (calls : List Expr) : Prop :=
  List.Forall₂ (fun fragment call => exprs? fragment = some [call] ∧ ∃ callee arguments, call = .call callee arguments)
    fragments calls

theorem Lines.areCalls {fragments : List String} (h : Lines fragments) :
    AreCalls fragments (fragments.map value) := by
  rw [AreCalls, List.forall₂_map_right_iff, List.forall₂_same]
  intro fragment hf
  obtain ⟨code, callee, arguments, rfl, hc⟩ := h fragment hf
  have hd := hc.line.denotes
  rw [hd.value_eq]
  exact ⟨hd.exprs?_eq, callee, arguments, rfl⟩

/-- The code of some pieces is one call for each, and its literals are the texts of the pieces. -/
theorem reads_elements (ps : List (Piece Float)) :
    let fragments := Target.flutter.renderAll false (Target.flutter.elements ps)
    ∃ tokens, Code.Lexes Code.dart (String.join fragments) tokens ∧ exprsOf tokens = some (fragments.map value) ∧
      Code.WellNested tokens ∧ Code.literals tokens = Piece.textsInAll .flutter ps := by
  intro fragments
  have he := (lines_elements ps).exprs?_eq
  rw [exprs?, Option.bind_eq_bind, Option.bind_eq_some_iff] at he
  obtain ⟨tokens, ht, he⟩ := he
  obtain ⟨hb, hx⟩ := exprsOf_keeps he
  refine ⟨tokens, ht, he, hb, ?_⟩
  rw [hx, List.flatMap_map]
  exact (fragments_elements ps).texts_eq

end Dart
end SceneCode
