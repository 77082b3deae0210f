import SceneCode.Proofs.Template.Widget

namespace SceneCode.Wrap
open Template

def viewTag : List Word :=
  [.bare ['>'], .bare "swiftui_view".toList]

def viewFront : String := "import SwiftUI

struct "

/-- What comes between the name of a view and its code. -/
def bodyFront : String := ": View \x7b
  var body: some View \x7b
    "

def bodyBack : String := "
  \x7d
\x7d"

def previewFront : String := "
#Preview \x7b
  "

def previewBack : String := "()
\x7d"

/-- The structure of a view. Its body is the code. -/
def viewStruct (name code : String) : String :=
  viewFront ++ name ++ bodyFront ++ code ++ bodyBack

theorem swiftUIView_chunks : chunksInText [] swiftUIView.toList =
    some [.text viewFront.toList, .tag nameTag, .text bodyFront.toList, .tag bodyTag, .text bodyBack.toList] := by
  rw [swiftUIView, nameTag, bodyTag, viewFront, bodyFront, bodyBack]
  repeat rw [String.toList_ofList]
  decide +kernel

theorem swiftUIPreview_chunks : chunksInText [] swiftUIPreview.toList =
    some [.text [], .tag viewTag, .text ('\n' :: previewFront.toList), .tag nameTag, .text previewBack.toList] := by
  rw [swiftUIPreview, nameTag, viewTag, previewFront, previewBack]
  repeat rw [String.toList_ofList]
  decide +kernel

theorem part?_view (indent : List Char) : part? indent viewTag = some (.other "swiftui_view" indent) :=
  rfl

def viewTemplate : Template :=
  [.text viewFront.toList, namePart, .text bodyFront.toList, bodyPart, .text bodyBack.toList]

def previewTemplate : Template :=
  [.text [], .other "swiftui_view" [], .text previewFront.toList, namePart, .text previewBack.toList]

theorem ofText?_swiftUIView : ofText? swiftUIView = some viewTemplate := by
  have hn : namePart.isOther = false := rfl
  have hb : bodyPart.isOther = false := rfl
  rw [ofText?, swiftUIView_chunks]
  simp [parts?, part?_name, part?_body, viewTemplate, hn, hb]

/-- The line break behind the tag of the view goes with it. -/
theorem ofText?_swiftUIPreview : ofText? swiftUIPreview = some previewTemplate := by
  have hn : namePart.isOther = false := rfl
  have ht : trailingTabs [] = [] := rfl
  have hs : endsAtLineStart true [] = true := rfl
  have ho : (Template.Part.other "swiftui_view" []).isOther = true := rfl
  have hd : dropLineBreak ('\n' :: previewFront.toList) = previewFront.toList := rfl
  have hf (rest : List Chunk) : breaksFirst (.text ('\n' :: previewFront.toList) :: rest) = true := rfl
  rw [ofText?, swiftUIPreview_chunks]
  simp [parts?, part?_name, part?_view, previewTemplate, hn, ht, hs, ho, hd, hf]

theorem viewEntries_eq : [("swiftui_view", swiftUIView), ("swiftui_preview", swiftUIPreview)].filterMap entryOf? =
    [("swiftui_view", viewTemplate), ("swiftui_preview", previewTemplate)] := by
  have hv : entryOf? ("swiftui_view", swiftUIView) = some ("swiftui_view", viewTemplate) := by
    rw [entryOf?, ofText?_swiftUIView, Option.map_some]
  have hp : entryOf? ("swiftui_preview", swiftUIPreview) = some ("swiftui_preview", previewTemplate) := by
    rw [entryOf?, ofText?_swiftUIPreview, Option.map_some]
  rw [List.filterMap_cons_some hv, List.filterMap_cons_some hp, List.filterMap_nil]

section
variable (layer code : String)

theorem render?_view (templates : List (String × Template)) (depth : Nat) :
    render? templates (data layer code) (depth + 1) [] viewTemplate =
      some (viewStruct (className layer) (hanging code)).toList := by
  simp [render?, viewTemplate, render?_name, render?_body, render?_text, viewStruct]

theorem lookup_view : templates.entries.lookup "swiftui_view" = some viewTemplate := by
  simp [entries_eq, viewEntries_eq, List.lookup_cons]

theorem lookup_preview : templates.entries.lookup "swiftui_preview" = some previewTemplate := by
  simp [entries_eq, viewEntries_eq, List.lookup_cons]

theorem render?_preview (depth : Nat) : render? templates.entries (data layer code) (depth + 2) [] previewTemplate =
    some (viewStruct (className layer) (hanging code) ++ previewFront ++ className layer ++ previewBack).toList := by
  have hc (other : String → List Char → Option (List Char)) :
      (Template.Part.other "swiftui_view" []).render? other [] (data layer code) = other "swiftui_view" [] := rfl
  rw [render?]
  simp [previewTemplate, render?_name, render?_text, hc, lookup_view, render?_view]

theorem render_view : templates.render "swiftui_view" (data layer code) =
    .ok (viewStruct (className layer) (hanging code)) := by
  refine render_of_lookup lookup_view ?_
  rw [entries_eq, List.length_cons, render?_view]

theorem render_preview : templates.render "swiftui_preview" (data layer code) =
    .ok (viewStruct (className layer) (hanging code) ++ previewFront ++ className layer ++ previewBack) := by
  have hl : templates.entries.length = 2 + 2 := by rw [entries_eq, viewEntries_eq]; rfl
  refine render_of_lookup lookup_preview ?_
  rw [hl, render?_preview]

end

/-- The file that view code is kept in. -/
def viewFile (mode : SwiftUIMode) (name code : String) : String :=
  match mode with
  | .snippet => code
  | .viewStruct => viewStruct name (hanging code)
  | .preview => viewStruct name (hanging code) ++ previewFront ++ name ++ previewBack

theorem wrap_swiftUI {s : Settings} (h : s.framework = .swiftUI) (layer code : String) :
    wrap s layer code = .ok (viewFile s.swiftUIMode (className layer) code) := by
  unfold wrap templateName?
  rw [h]
  cases s.swiftUIMode with
  | snippet => rfl
  | viewStruct => exact render_view layer code
  | preview => exact render_preview layer code

end SceneCode.Wrap
