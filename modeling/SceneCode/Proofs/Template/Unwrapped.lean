import SceneCode.Proofs.Template.View
import SceneCode.Proofs.Text.Lines

namespace SceneCode.Wrap
open Text (moveIn moveOut withLaterLines)

/-- The text of a mode before and after the code, with the name of the component. -/
def surroundings? (s : Settings) (name : String) : Option (String × String) :=
  let classStart := "class " ++ name ++ classFront ++ name ++ buildFront
  let viewStart := viewFront ++ name ++ bodyFront
  match s.framework with
  | .html | .tailwind => none
  | .flutter =>
    match s.flutterMode with
    | .snippet => none
    | .stateless => some (classStart, buildBack)
    | .fullApp => some (appFront ++ name ++ appBack ++ classStart, buildBack)
  | .swiftUI =>
    match s.swiftUIMode with
    | .snippet => none
    | .viewStruct => some (viewStart, bodyBack)
    | .preview => some (viewStart, bodyBack ++ previewFront ++ name ++ previewBack)

/-- The code goes on in a line that is four spaces in, and so do its later lines. -/
def placed (code : String) : String :=
  String.ofList (withLaterLines moveIn code.toList)

def unplaced (code : String) : String :=
  String.ofList (withLaterLines moveOut code.toList)

/-- The code in a file, if that has the surroundings of the mode. -/
def unwrapped? (s : Settings) (layer file : String) : Option String :=
  match surroundings? s (className layer) with
  | none => some file
  | some (front, back) => do
    let rest ← file.toList.dropPrefix? front.toList
    let code ← rest.dropSuffix? back.toList
    return unplaced (String.ofList code)

theorem unplaced_placed (code : String) : unplaced (placed code) = code := by
  have hu : withLaterLines moveOut (withLaterLines moveIn code.toList) = code.toList :=
    Text.withLaterLines_undone Text.moveOut_moveIn (fun _ => Text.not_mem_moveIn) code.toList
  rw [unplaced, placed, String.toList_ofList, hu, String.ofList_toList]

theorem hanging_eq_placed {code : String} (hr : '\r' ∉ code.toList) (hb : code.toList.getLast? ≠ some '\n') :
    hanging code = placed code := by
  rw [hanging, Text.hangingIndent_eq hr hb, placed]

theorem wrap_eq (s : Settings) (layer code : String) :
    wrap s layer code = .ok (match surroundings? s (className layer) with
      | none => code
      | some (front, back) => front ++ hanging code ++ back) := by
  unfold surroundings?
  cases hf : s.framework with
  | html | tailwind => simp [wrap, templateName?, hf]
  | flutter =>
    rw [wrap_flutter hf]
    cases s.flutterMode <;> simp [widgetFile, widgetClass, String.append_assoc]
  | swiftUI =>
    rw [wrap_swiftUI hf]
    cases s.swiftUIMode <;> simp [viewFile, viewStruct, String.append_assoc]

theorem unwrapped?_eq {s : Settings} {layer front back : String}
    (h : surroundings? s (className layer) = some (front, back)) (code : String) :
    unwrapped? s layer (front ++ code ++ back) = some (unplaced code) := by
  have hp : (front ++ code ++ back).toList.dropPrefix? front.toList = some (code ++ back).toList := by
    rw [String.append_assoc, String.toList_append, List.dropPrefix?_append_of_beq _ (beq_self_eq_true _)]
  have hs : (code ++ back).toList.dropSuffix? back.toList = some code.toList := by
    rw [String.toList_append, List.dropSuffix?_eq_some_iff]
    exact ⟨_, rfl, beq_self_eq_true _⟩
  simp only [unwrapped?, h, hp, Option.bind_eq_bind, Option.bind_some, hs, String.ofList_toList, Option.pure_def]

/-- Code without carriage returns and a line break at its end is put into its file as it is, whatever stands in it and
in the name of the layer. A snippet and markup are their own file. Otherwise the file is the text of the mode around
the code, whose later lines are moved in unless they are blank, and the code can be taken out of it again. -/
theorem wrapping_keeps_code (s : Settings) (layer code : String) (hr : '\r' ∉ code.toList)
    (hb : code.toList.getLast? ≠ some '\n') :
    ∃ file, wrap s layer code = .ok file ∧ unwrapped? s layer file = some code ∧
      file = match surroundings? s (className layer) with
        | none => code
        | some (front, back) => front ++ placed code ++ back := by
  refine ⟨_, wrap_eq s layer code, ?_, ?_⟩
  · cases h : surroundings? s (className layer) with
    | none => simp only [unwrapped?, h]
    | some around =>
      obtain ⟨front, back⟩ := around
      dsimp only
      rw [unwrapped?_eq h, hanging_eq_placed hr hb, unplaced_placed]
  · rw [hanging_eq_placed hr hb]

/-- Braces in the code and in the name of the layer are no tags. -/
theorem braces_are_kept :
    let s : Settings := { framework := .swiftUI, swiftUIMode := .preview }
    let code := "Text(\"\x7b\x7bname\x7d\x7d\")\n\n  .opacity(0.5)"
    let file := "import SwiftUI\n\nstruct BodyCard: View \x7b\n  var body: some View \x7b\n" ++
      "    Text(\"\x7b\x7bname\x7d\x7d\")\n\n      .opacity(0.5)\n  \x7d\n\x7d\n#Preview \x7b\n  BodyCard()\n\x7d"
    '\r' ∉ code.toList ∧ code.toList.getLast? ≠ some '\n' ∧
      wrap s "\x7b\x7bbody\x7d\x7d card" code = .ok file ∧
      unwrapped? s "\x7b\x7bbody\x7d\x7d card" file = some code := by
  intro s code file
  have hr : '\r' ∉ code.toList := by decide +kernel
  have hb : code.toList.getLast? ≠ some '\n' := by decide +kernel
  have hn : className "\x7b\x7bbody\x7d\x7d card" = "BodyCard" := by decide +kernel
  obtain ⟨file', hw, hu, hf⟩ := wrapping_keeps_code s "\x7b\x7bbody\x7d\x7d card" code hr hb
  have he : file' = file := by
    rw [hf, hn]
    decide +kernel
  exact ⟨hr, hb, he ▸ hw, he ▸ hu⟩

end SceneCode.Wrap
