import SceneCode.Proofs.Code.Breaks
import SceneCode.Proofs.Code.Expanded
import SceneCode.Proofs.Joined
import SceneCode.Proofs.Template.Widget

namespace SceneCode

namespace Dart
open Text (BareBreaks)

/-- Code reads as the same widgets where it goes on in a line that is already moved in. -/
theorem widgets?_hanging (commented : Bool) {code : String} (h : Bare code) :
    widgets? commented (Wrap.hanging code) = widgets? commented code := by
  unfold widgets? exprs? Wrap.hanging
  cases commented with
  | false =>
    have hl := Code.lex_hangingIndent (q := Code.dart) 4 h.breaks
    rw [String.ofList_toList] at hl
    rw [if_neg Bool.false_ne_true, if_neg Bool.false_ne_true, hl]
  | true =>
    have hl := Comments.lex_erase_hangingIndent (q := Code.dart) 4 h.breaks
    rw [String.ofList_toList] at hl
    rw [if_pos rfl, if_pos rfl, hl]

theorem bare_page (showNames : Bool) (ps : List (Piece Float))
    (hn : showNames = true → ∀ name ∈ Element.namesAll (Target.flutter.elements ps), Comments.FitsLine name) :
    Bare (Target.flutter.page showNames (Target.flutter.elements ps)) := by
  cases showNames with
  | false =>
    obtain ⟨tokens, hl, -⟩ := reads_elements ps
    exact .of_lexes ((Code.lex_page ..).trans hl)
  | true =>
    have hb := (Bare.join (bare_elements ps (hn rfl))).breaks
    unfold Target.page
    split <;> refine ⟨?_⟩ <;> rw [String.toList_ofList]
    · rename_i rest hc
      rw [hc] at hb
      exact hb.2
    · exact hb

theorem bare_generate {s : Settings} {preview : Bool} {nodes : List Node} (ht : s.target preview = .flutter)
    (hn : s.showLayerNames = true → ∀ l ∈ Scene.layers nodes, Comments.FitsLine l.name) :
    Bare (generate s preview nodes) := by
  rw [generate_eq_page, ht, Target.walkAll_eq_elements]
  refine bare_page _ _ fun hs => ?_
  have hl := hn hs
  rw [← Target.layersAll_elements .flutter s.optimizeLayout] at hl
  exact (Target.flutter.forall_layers_iff _).mpr hl

end Dart

/-- There is one fragment of code for each node that is drawn at the top. -/
theorem Scene.length_fragments (t : Target) (followHints showNames : Bool) (nodes : List Node) :
    (t.renderAll showNames (t.elements (Scene.pieces followHints nodes))).length = (Scene.drawn nodes).length := by
  have hl := (Scene.pieces_linked (SlotRule.any Base.position followHints) nodes).length_eq
  rw [Piece.length_trees] at hl
  rw [Target.renderAll_eq_map, List.length_map, Target.elements_eq_map, List.length_map]
  exact hl

/-- The one of some calls. -/
theorem Dart.AreCalls.exists_eq {fragments : List String} {calls : List Dart.Expr} (h : Dart.AreCalls fragments calls) :
    (∃ callee arguments, calls = [.call callee arguments]) ↔ calls.length = 1 := by
  constructor
  · rintro ⟨callee, arguments, rfl⟩
    rfl
  · intro hl
    obtain ⟨call, rfl⟩ := List.length_eq_one_iff.mp hl
    cases h with
    | cons hc _ =>
      obtain ⟨-, callee, arguments, rfl⟩ := hc
      exact ⟨callee, arguments, rfl⟩

/-- In a file, the build method of a widget returns one constructor call for each node that is drawn at the top of the
scene, in their order and apart from comments. So it returns one widget if and only if one such node is drawn. -/
theorem build_returns_top_nodes (s : Settings) (nodes : List Node) (hf : s.framework = .flutter)
    (hm : s.flutterMode ≠ .snippet)
    (hn : s.showLayerNames = true → ∀ l ∈ Scene.layers nodes, Comments.FitsLine l.name) :
    let fragments := Target.flutter.renderAll false (Target.flutter.elements (Scene.pieces s.optimizeLayout nodes))
    let body := Wrap.hanging (generate s false nodes)
    let widgets := Dart.widgets? s.showLayerNames body
    (∃ front, generateCode s nodes = front ++ Wrap.widgetClass (Wrap.className (Scene.title nodes)) body) ∧
      (∃ calls, widgets = some calls ∧ Dart.AreCalls fragments calls ∧ calls.length = (Scene.drawn nodes).length) ∧
      ((∃ callee arguments, widgets = some [.call callee arguments]) ↔ (Scene.drawn nodes).length = 1) := by
  intro fragments body widgets
  have ht : s.target false = .flutter := by
    simp [Settings.target, hf]
  have hg : generateCode s nodes =
      Wrap.widgetFile s.flutterMode (Wrap.className (Scene.title nodes)) (generate s false nodes) := by
    unfold generateCode generateMarked
    simp [hf, Wrap.wrap_flutter hf]
  obtain ⟨tokens, hl, hx, -⟩ := Dart.reads_elements (Scene.pieces s.optimizeLayout nodes)
  have hw : widgets = some (fragments.map Dart.value) := by
    have hb := Dart.widgets?_hanging s.showLayerNames (Dart.bare_generate ht hn)
    rw [Dart.widgets?_generate s false nodes ht hn, Dart.exprs?, Code.lex_page, hl] at hb
    exact hb.trans hx
  have hc := (Dart.lines_elements (Scene.pieces s.optimizeLayout nodes)).areCalls
  have hlen : (fragments.map Dart.value).length = (Scene.drawn nodes).length := by
    rw [List.length_map]
    exact Scene.length_fragments ..
  refine ⟨?_, ⟨_, hw, hc, hlen⟩, ?_⟩
  · rw [hg]
    cases hmode : s.flutterMode with
    | snippet => exact absurd hmode hm
    | stateless => exact ⟨"", String.empty_append.symm⟩
    | fullApp => exact ⟨_, rfl⟩
  · simp only [hw, Option.some.injEq]
    rw [← hlen]
    exact hc.exists_eq

/-- Two rectangles with nothing around them. -/
def sideBySide : List Node :=
  [.shape .rectangle (.named "A" 0 0 10 10), .shape .rectangle (.named "B" 20 0 10 10)]

/-- The build method returns two calls, one after the other. -/
theorem sideBySide_returned : ∃ calls, Dart.widgets? true (Wrap.hanging
    (generate { framework := .flutter, flutterMode := .stateless, showLayerNames := true } false sideBySide)) =
      some calls ∧ calls.length = 2 := by
  have hn : ∀ l ∈ Scene.layers sideBySide, Comments.FitsLine l.name := by decide +kernel
  have hd : (Scene.drawn sideBySide).length = 2 := by decide +kernel
  obtain ⟨-, ⟨calls, hw, -, hl⟩, -⟩ := build_returns_top_nodes
    { framework := .flutter, flutterMode := .stateless, showLayerNames := true } sideBySide rfl (by decide) fun _ => hn
  exact ⟨calls, hw, hl.trans hd⟩

end SceneCode
