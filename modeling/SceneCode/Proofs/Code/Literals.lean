import SceneCode.Proofs.Code.Flutter
import SceneCode.Proofs.Code.SwiftUI
import SceneCode.Proofs.Skeleton

namespace SceneCode
open Code (WellNested Lexes Quoting dart literals swift)

/-- How a language that is no markup writes text. -/
def Target.quoting? : Target → Option Quoting
  | .flutter => some dart
  | .swiftUI => some swift
  | _ => none

namespace Code
variable {q : Quoting}

/-- A line break at the start of code is a blank like any other. -/
theorem lex_line (q : Quoting) (cs : List Char) : q.lex (String.ofList ('\n' :: cs)) = q.lex (String.ofList cs) := by
  have hb : q.step .code '\n' = some ([], .code) := rfl
  simp only [Quoting.lex, String.toList_ofList, Quoting.scan, hb, Option.bind_eq_bind, Option.bind_some]
  cases q.scan .code cs with
  | none => rfl
  | some read => rfl

/-- Code without the line break that its first fragment starts with reads as the fragments do. -/
theorem lex_page (q : Quoting) (t : Target) (showNames : Bool) (es : List Element) :
    q.lex (t.page showNames es) = q.lex (String.join (t.renderAll showNames es)) := by
  unfold Target.page
  split
  · rename_i rest hc
    rw [← lex_line, ← hc, String.ofList_toList]
  · rw [String.ofList_toList]

end Code

/-- Code is read to its end and ends outside of all literals. Its brackets match, and its literals are these. -/
def Code.Reads (q : Quoting) (code : String) (texts : List String) (tokens : List Code.Token) : Prop :=
  Lexes q code tokens ∧ WellNested tokens ∧ literals tokens = texts

/-- Calls, one for each fragment and nothing else. -/
def Dart.OneCallEach (fragments : List String) (tokens : List Code.Token) : Prop :=
  ∃ calls, exprsOf tokens = some calls ∧ AreCalls fragments calls

theorem Target.page_reads {t : Target} {q : Quoting} (hq : t.quoting? = some q) (pieces : List (Piece Float)) :
    ∃ tokens, Code.Reads q (t.page false (t.elements pieces)) (Piece.textsInAll t pieces) tokens ∧
      (t = .flutter → Dart.OneCallEach (t.renderAll false (t.elements pieces)) tokens) := by
  cases t with
  | flutter =>
    cases hq
    obtain ⟨tokens, hl, hx, hb, hs⟩ := Dart.reads_elements pieces
    exact ⟨tokens, ⟨(Code.lex_page ..).trans hl, hb, hs⟩, fun _ => ⟨_, hx, (Dart.lines_elements pieces).areCalls⟩⟩
  | swiftUI =>
    cases hq
    obtain ⟨tokens, hl, hb, hs⟩ := (Swift.fragments_elements pieces).whole_join
    exact ⟨tokens, ⟨(Code.lex_page ..).trans hl.lexes, hb, hs⟩, nofun⟩
  | html jsx => cases hq
  | tailwind jsx options => cases hq

/-- Without layer names, the code of a scene is read to its end and ends outside of all literals. Its brackets match,
and its literals are the texts, the fonts and the addresses of the scene, in their order and character by character. A
widget tree is one call for each piece at the top. -/
theorem texts_stay_in_literals (s : Settings) (preview : Bool) (nodes : List Node) (hidden : s.showLayerNames = false)
    (q : Quoting) (hq : (s.target preview).quoting? = some q) :
    let t := s.target preview
    let pieces := Scene.pieces s.optimizeLayout nodes
    ∃ tokens, Code.Reads q (generate s preview nodes) (Piece.textsInAll t pieces) tokens ∧
      (t = .flutter → Dart.OneCallEach (t.renderAll false (t.elements pieces)) tokens) := by
  intro t pieces
  have hg : generate s preview nodes = t.page false (t.elements pieces) := by
    rw [generate_eq_page, hidden, Target.walkAll_eq_elements]
    rfl
  rw [hg]
  exact Target.page_reads hq pieces

/-- A text that would end a literal, start an escape and put a value into the literal. -/
def priceTag : List Node :=
  [.text (.named "Price" 0 0 100 20)
    (.ofRuns [{ characters := "it's \\n $\x7bprice\x7d", fontName := { family := "O'Neil" } }])]

theorem priceTag_reads : ∃ tokens, Code.Reads dart (generate { framework := .flutter } false priceTag)
    ["it's \\n $\x7bprice\x7d", "O'Neil"] tokens := by
  obtain ⟨tokens, hr, -⟩ := texts_stay_in_literals { framework := .flutter } false priceTag rfl dart rfl
  have ht : Piece.textsInAll .flutter (Scene.pieces true priceTag) = ["it's \\n $\x7bprice\x7d", "O'Neil"] := by
    decide +kernel
  exact ⟨tokens, ht ▸ hr⟩

end SceneCode
