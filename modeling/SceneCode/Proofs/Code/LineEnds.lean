import SceneCode.Proofs.Code.Literals
import SceneCode.Proofs.Tailwind.Looks
import SceneCode.Proofs.Text.Encoded
import SceneCode.Proofs.Text.Numeric

/-! The ends of lines within literals. A literal has to end on the line that it starts on, and a carriage return ends a
line as a line feed does. -/
namespace SceneCode
open Code (Quoting dart)

namespace Code

/-- Where a quote is met: within a literal, with what has been read of it, or outside. -/
inductive Span where
  | outside
  | inside (read : List Char)
  /-- Behind a backslash, where a quote ends nothing. -/
  | escaped (read : List Char)

namespace Span

def step (quote : Char) : Span → Char → List String × Span
  | .outside, c => ([], if c = quote then .inside [c] else .outside)
  | .inside read, c =>
    if c = quote then ([String.ofList (read ++ [c])], .outside)
    else ([], if c = '\\' then .escaped (read ++ [c]) else .inside (read ++ [c]))
  | .escaped read, c => ([], .inside (read ++ [c]))

def run (quote : Char) : Span → List Char → List String × Span
  | span, [] => ([], span)
  | span, c :: cs =>
    let (first, span) := span.step quote c
    let (rest, span) := span.run quote cs
    (first ++ rest, span)

end Span

/-- The literals of code as they are written, with their quotes. Any character may stand between those. Nothing is said
of code that ends within a literal. -/
def Quoting.sources? (q : Quoting) (code : String) : Option (List String) :=
  match Span.run q.quote .outside code.toList with
  | (sources, .outside) => some sources
  | _ => none

/-- Each character can be written between the quotes in one way only. -/
structure Quoting.Writes (q : Quoting) (escape : Char → List Char) : Prop where
  begins : q.begin q.quote = some ([], .literal [])
  bare (c : Char) : q.isBare c = true → escape c = [c]
  escaped (c d : Char) : q.escaped? c = some d → escape d = ['\\', c]

theorem Quoting.Undoes.writes {q : Quoting} {e : Text.Escapes} (h : q.Undoes e) : q.Writes (Text.escapeBy e.table) where
  begins := h.begins
  bare c hc := Text.escapeBy_of_not_mem ((h.bare_iff c).mp hc)
  escaped c d hc := e.escapeBy_of_mem ((h.escaped_iff c d).mp hc)

section
variable {q : Quoting} {escape : Char → List Char}

/-- What has been read of a literal is what has been read of its text, as it is written. -/
def Span.of (q : Quoting) (escape : Char → List Char) : Mode → Span
  | .code | .word _ => .outside
  | .literal read => .inside (q.quote :: read.flatMap escape)
  | .escape read => .escaped (q.quote :: read.flatMap escape ++ ['\\'])

def sourcesOf (q : Quoting) (escape : Char → List Char) (tokens : List Token) : List String :=
  (literals tokens).map fun text => String.ofList (q.quote :: text.toList.flatMap escape ++ [q.quote])

theorem sourcesOf_eq {encode : String → String}
    (h : ∀ s, (encode s).toList = q.quote :: s.toList.flatMap escape ++ [q.quote]) (tokens : List Token) :
    sourcesOf q escape tokens = (literals tokens).map encode :=
  List.map_congr_left fun s _ => String.toList_inj.mp (String.toList_ofList.trans (h s).symm)

theorem Span.step_begin (h : q.Writes escape) {c : Char} {ts : List Token} {mode : Mode}
    (hs : q.begin c = some (ts, mode)) :
    Span.step q.quote .outside c = (sourcesOf q escape ts, .of q escape mode) := by
  by_cases hc : c = q.quote
  · subst hc
    rw [h.begins] at hs
    cases hs
    simp [Span.step, Span.of, sourcesOf, literals]
  · unfold Quoting.begin at hs
    split_ifs at hs <;> cases hs <;> simp [Span.step, Span.of, sourcesOf, literals, Token.literal?, hc]

theorem Span.step_of (h : q.Writes escape) {mode mode' : Mode} {c : Char} {ts : List Token}
    (hs : q.step mode c = some (ts, mode')) :
    Span.step q.quote (.of q escape mode) c = (sourcesOf q escape ts, .of q escape mode') := by
  cases mode with
  | code => exact Span.step_begin h hs
  | word read =>
    rw [Quoting.step] at hs
    split_ifs at hs with hw hc
    · cases hs
      have hq : c ≠ q.quote := by
        rintro rfl
        have hb := h.begins
        rw [Quoting.begin, not_isBlank_of_isWordChar hw, if_neg Bool.false_ne_true, if_pos hw] at hb
        cases hb
      simp [Span.step, Span.of, sourcesOf, literals, hq]
    · obtain ⟨⟨us, mode''⟩, hb, he⟩ := Option.map_eq_some_iff.mp hs
      cases he
      exact (Span.step_begin h hb).trans rfl
  | literal read =>
    rw [Quoting.step] at hs
    split_ifs at hs with hc hb hr <;> cases hs
    · simp [Span.step, Span.of, sourcesOf, literals, Token.literal?, hc]
    · subst hb
      simp [Span.step, Span.of, sourcesOf, literals, hc]
    · simp [Span.step, Span.of, sourcesOf, literals, hc, hb, h.bare c hr]
  | escape read =>
    obtain ⟨d, hd, he⟩ := Option.map_eq_some_iff.mp hs
    cases he
    simp [Span.step, Span.of, sourcesOf, literals, h.escaped c d hd]

/-- The literals that a reader of tokens finds are written with the texts that it finds in them. -/
theorem Scans.run (h : q.Writes escape) {mode mode' : Mode} {cs : List Char} {ts : List Token}
    (hs : Scans q mode cs ts mode') :
    Span.run q.quote (.of q escape mode) cs = (sourcesOf q escape ts, .of q escape mode') := by
  induction hs with
  | nil => rfl
  | cons first rest ih =>
    rw [Span.run, Span.step_of h first]
    simp only [ih]
    simp [sourcesOf, literals]

theorem Lexes.sources (h : q.Writes escape) {code : String} {tokens : List Token} (hl : Lexes q code tokens) :
    q.sources? code = some (sourcesOf q escape tokens) := by
  obtain ⟨read, mode, last, hs, hf, rfl⟩ := lexes_iff.mp hl
  have hr : Span.run q.quote .outside code.toList = _ := Scans.run h hs
  rw [Quoting.sources?, hr]
  cases mode with
  | code =>
    cases hf
    simp [Span.of]
  | word word =>
    cases hf
    simp [Span.of, sourcesOf, literals, Token.literal?]
  | literal | escape => cases hf

end
end Code

namespace Text

theorem return_mem_mapped {expansions : List (Nat × List Nat)} {shifts : List Table.Shift}
    (hx : ∀ e ∈ expansions, e.1 ≠ 13 ∧ ∀ code ∈ e.2, Char.ofNat code ≠ '\r')
    (hs : ∀ s ∈ shifts, Table.cased.covers s.image s.lastImage s.step = true)
    (hr : shifts.findSome? (·.map? 13) = none) {c : Char} : '\r' ∈ mapped expansions shifts c ↔ c = '\r' := by
  constructor
  · intro hm
    rcases mapped_cases expansions shifts c with ⟨codes, hc, he⟩ | ⟨-, ⟨s, hs', code, hc, he⟩ | he⟩
    · rw [he] at hm
      obtain ⟨code, hm, hd⟩ := List.mem_map.mp hm
      exact absurd hd ((hx _ hc).2 code hm)
    · rw [he, List.mem_singleton] at hm
      have ha := isAlphanumeric_ofNat (alphanumeric_of_map? hc (hs s hs'))
      rw [← hm] at ha
      exact absurd ha (by decide +kernel)
    · rw [he] at hm
      exact (List.mem_singleton.mp hm).symm
  · rintro rfl
    have hl : expansions.lookup ('\r').toNat = none := by
      refine List.lookup_eq_none_iff.mpr fun e he => ?_
      exact bne_iff_ne.mpr (Ne.symm (hx e he).1)
    rw [mapped, hl]
    change '\r' ∈ [Char.ofNat ((shifts.findSome? (·.map? 13)).getD 13)]
    rw [hr]
    decide

theorem return_mem_upper {c : Char} : '\r' ∈ upper c ↔ c = '\r' :=
  return_mem_mapped (by decide +kernel) cased_upperShifts (by decide +kernel)

theorem return_mem_lower {c : Char} : '\r' ∈ lower c ↔ c = '\r' :=
  return_mem_mapped (by decide +kernel) cased_lowerShifts (by decide +kernel)

theorem return_mem_upperText {cs : List Char} : '\r' ∈ upperText cs ↔ '\r' ∈ cs := by
  simp [upperText, List.mem_flatMap, return_mem_upper]

theorem return_mem_lowerAfter {before cs : List Char} : '\r' ∈ lowerAfter before cs ↔ '\r' ∈ cs := by
  induction cs generalizing before with
  | nil => rfl
  | cons c cs ih =>
    rw [lowerAfter, List.mem_append, List.mem_cons, ih]
    refine or_congr ?_ Iff.rfl
    split
    · rename_i hf
      simp only [isFinalSigma, Bool.and_eq_true, beq_iff_eq] at hf
      rw [hf.1.1]
      decide
    · rw [return_mem_lower, eq_comm]

theorem return_mem_titleText {starts : Bool} {cs : List Char} : '\r' ∈ titleText starts cs ↔ '\r' ∈ cs := by
  induction cs generalizing starts with
  | nil => rfl
  | cons c cs ih =>
    rw [titleText, List.mem_append, List.mem_cons, ih]
    refine or_congr ?_ Iff.rfl
    split
    · rw [return_mem_upper, eq_comm]
    · exact List.mem_singleton

theorem Escapes.return_mem_write (e : Escapes) (hk : '\r' ∉ e.table.map (·.1)) (hv : '\r' ∉ e.table.map (·.2)) (s : String) :
    '\r' ∈ (e.write s).toList ↔ '\r' ∈ s.toList := by
  have hq : '\r' ≠ e.quote := fun h => hk (h ▸ e.quote_mem)
  simp [toList_write, List.mem_flatMap, e.mem_escapeBy hk hv, hq]

end Text

theorem TextCase.return_mem_apply {case_ : TextCase} {text : String} :
    '\r' ∈ (case_.apply text).toList ↔ '\r' ∈ text.toList := by
  cases case_ with
  | asWritten => rfl
  | upper => rw [apply, String.toList_ofList, Text.return_mem_upperText]
  | lower => rw [apply, String.toList_ofList, Text.lowerText, Text.return_mem_lowerAfter]
  | title => rw [apply, String.toList_ofList, Text.return_mem_titleText]

/-- A return in what a run says or in the font it says it in. -/
def TextRun.Returns (run : TextRun) : Prop :=
  '\r' ∈ run.characters.toList ∨ '\r' ∈ run.fontName.family.toList

instance : DecidablePred TextRun.Returns :=
  fun _ => inferInstanceAs (Decidable (_ ∨ _))

namespace Target

/-- The literal that a text is written as. -/
def literal (t : Target) (s : String) : String :=
  match t with
  | .flutter => Text.dart s
  | .swiftUI => Text.swift s
  | .html _ | .tailwind .. => s

variable {t : Target} {q : Quoting} (hq : t.quoting? = some q)
include hq

theorem sources_page (pieces : List (Piece Float)) :
    q.sources? (t.page false (t.elements pieces)) = some ((Piece.textsInAll t pieces).map t.literal) := by
  obtain ⟨tokens, ⟨hl, -, hs⟩, -⟩ := page_reads hq pieces
  rw [← hs]
  cases t with
  | html | tailwind => cases hq
  | flutter =>
    cases hq
    rw [hl.sources Code.dart_undoes.writes, Code.sourcesOf_eq Text.dartEscapes.toList_write, ← Text.dart_eq]
    rfl
  | swiftUI =>
    cases hq
    rw [hl.sources Code.swift_undoes.writes, Code.sourcesOf_eq Text.swiftEscapes.toList_write, ← Text.swift_eq]
    rfl

theorem break_not_mem_literal (s : String) : '\n' ∉ (t.literal s).toList := by
  cases t with
  | html | tailwind => cases hq
  | flutter =>
    rw [literal, Text.dart_eq]
    exact Text.dartEscapes.break_not_mem_write s
  | swiftUI =>
    rw [literal, Text.swift_eq]
    exact Text.swiftEscapes.break_not_mem_write s

theorem return_mem_literal {s : String} : '\r' ∈ (t.literal s).toList ↔ '\r' ∈ s.toList := by
  cases t with
  | html | tailwind => cases hq
  | flutter =>
    rw [literal, Text.dart_eq]
    exact Text.dartEscapes.return_mem_write (by decide) (by decide) s
  | swiftUI =>
    rw [literal, Text.swift_eq]
    exact Text.swiftEscapes.return_mem_write (by decide) (by decide) s

end Target

theorem Target.return_mem_textContent (t : Target) {case_ : TextCase} {text : String} :
    '\r' ∈ (t.textContent case_ text).toList ↔ '\r' ∈ text.toList := by
  cases t with
  | html | tailwind => simp
  | flutter | swiftUI => simp [TextCase.return_mem_apply]

namespace Piece
variable (t : Target)

theorem return_not_mem_fill (paints : List Paint) (width height : Float) :
    ∀ text ∈ Fill.texts paints width height, '\r' ∉ text.toList := by
  intro text hm
  unfold Fill.texts at hm
  split at hm
  · rw [List.mem_singleton.mp hm]
    intro hr
    exact absurd (Tailwind.plain_placeholderUrl width height '\r' hr) (by decide)
  · cases hm

theorem returns_runTexts (run : TextRun) : (∀ text ∈ t.runTexts run, '\r' ∉ text.toList) ↔ ¬ run.Returns := by
  simp [Target.runTexts, TextRun.Returns, t.return_mem_textContent]

mutual
theorem returns_texts : (p : Piece Float) →
    ((∀ text ∈ p.texts t, '\r' ∉ text.toList) ↔ ∀ run ∈ p.runs, ¬ run.Returns)
  | .frame _ base _ _ children => by
    have hf := return_not_mem_fill base.fills base.width base.height
    rw [texts, runs, ← returns_textsInAll children]
    split
    · rw [List.forall_mem_append, and_iff_left hf]
    · rw [List.forall_mem_append, and_iff_right hf]
  | .group _ _ children => by
    rw [texts, runs]
    exact returns_textsInAll children
  | .shape _ base _ => by
    simp only [texts, runs]
    exact iff_of_true (return_not_mem_fill _ _ _) (List.forall_mem_nil _)
  | .line _ base => by
    simp only [texts, runs]
    exact iff_of_true (return_not_mem_fill _ _ _) (List.forall_mem_nil _)
  | .text _ _ box => by
    rw [texts, runs, List.forall_mem_flatMap]
    exact forall₂_congr fun run _ => returns_runTexts t run

/-- Only runs of text bring returns into the texts of a scene. -/
theorem returns_textsInAll : (ps : List (Piece Float)) →
    ((∀ text ∈ textsInAll t ps, '\r' ∉ text.toList) ↔ ∀ run ∈ runsAll ps, ¬ run.Returns)
  | [] => iff_of_true (List.forall_mem_nil _) (List.forall_mem_nil _)
  | p :: ps => by
    rw [textsInAll, runsAll, List.forall_mem_append, List.forall_mem_append, returns_texts p, returns_textsInAll ps]
end

end Piece

/-- Without layer names, the literals in the code of a scene are its texts, fonts and addresses, each written as one
literal. No line feed is ever in one. A return is, if one is in the characters or the font of a run. So every literal
ends on the line that it starts on if and only if no run that is drawn has a return in it. -/
theorem literals_on_one_line_iff (s : Settings) (preview : Bool) (nodes : List Node) (hidden : s.showLayerNames = false)
    (q : Quoting) (hq : (s.target preview).quoting? = some q) :
    let t := s.target preview
    let pieces := Scene.pieces s.optimizeLayout nodes
    ∃ sources, q.sources? (generate s preview nodes) = some sources ∧
      sources = (Piece.textsInAll t pieces).map t.literal ∧
      (∀ source ∈ sources, '\n' ∉ source.toList) ∧
      ((∀ source ∈ sources, '\r' ∉ source.toList) ↔ ∀ run ∈ Piece.runsAll pieces, ¬ run.Returns) := by
  intro t pieces
  refine ⟨_, ?_, rfl, List.forall_mem_map.mpr fun text _ => Target.break_not_mem_literal hq text, ?_⟩
  · rw [generate_eq_page, hidden, Target.walkAll_eq_elements]
    exact Target.sources_page hq pieces
  · rw [List.forall_mem_map, ← Piece.returns_textsInAll t]
    exact forall₂_congr fun text _ => not_congr (Target.return_mem_literal hq)

/-- A text that starts a line with a return. -/
def returned : List Node :=
  [.text (.named "T" 0 0 100 20) (.ofRuns [{ characters := "A\rB" }])]

/-- The return ends the line within the literal. -/
theorem returned_broken : ∃ sources, dart.sources? (generate { framework := .flutter } false returned) = some sources ∧
    ∃ source ∈ sources, '\r' ∈ source.toList := by
  obtain ⟨sources, hs, -, -, hr⟩ := literals_on_one_line_iff { framework := .flutter } false returned rfl dart rfl
  refine ⟨sources, hs, ?_⟩
  by_contra hn
  have hd : ¬ ∀ run ∈ Piece.runsAll (Scene.pieces true returned), ¬ run.Returns := by
    decide +kernel
  exact hd (hr.mp fun source hm hc => hn ⟨source, hm, hc⟩)

end SceneCode
