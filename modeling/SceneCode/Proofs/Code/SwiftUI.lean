import SceneCode.Proofs.Code.Modifiers

namespace SceneCode.Swift
open Code (literals swift)
open SwiftUI (containerView declarations finished freeStack modifierOrder modifiers runView spaced spacer textModifiers
  textView)

/-- The texts in the literals of some code. -/
def literalsOf (code : String) : List String :=
  ((swift.lex code).map literals).getD []

section
variable {v : String} {texts : List String}

theorem Whole.literalsOf_eq (h : Whole v texts) : literalsOf v = texts := by
  obtain ⟨ts, hc, -, hl⟩ := h
  have hx : swift.lex v = some ts := hc.lexes
  rw [literalsOf, hx]
  exact hl

theorem Whole.self (h : Whole v texts) : Whole v (literalsOf v) := by
  rwa [h.literalsOf_eq]

end

/-- The values that are written are code, those under most keys without literals. -/
def Voiced (s : Styles) : Prop :=
  ∀ e ∈ s.entries, e.1 ≠ "spacers" → ∃ texts, Whole e.2 texts ∧ (e.1 ∉ speakingKeys → texts = [])

/-- The literals of the value of a key. -/
def textsAt (s : Styles) (key : String) : List String :=
  (s.get? key).toList.flatMap literalsOf

section
variable {s : Styles} (h : Voiced s)
include h

theorem whole_get? {key v : String} (hv : s.get? key = some v) (hk : key ≠ "spacers") : Whole v (literalsOf v) := by
  obtain ⟨texts, hw, -⟩ := h (key, v) (Styles.mem_entries_of_get? hv) hk
  exact hw.self

theorem textsAt_quiet {key : String} (hk : key ≠ "spacers" ∧ key ∉ speakingKeys) : textsAt s key = [] := by
  unfold textsAt
  cases hg : s.get? key with
  | none => rfl
  | some v =>
    obtain ⟨texts, hw, hq⟩ := h (key, v) (Styles.mem_entries_of_get? hg) hk.1
    rw [Option.toList_some, List.flatMap_singleton, hw.literalsOf_eq]
    exact hq hk.2

theorem whole_modifiers {keys : List String} (hk : "spacers" ∉ keys) {lead : String} (hl : Whole lead []) :
    Whole (String.join ((modifiers s keys).map (lead ++ ·))) (keys.flatMap (textsAt s)) := by
  induction keys with
  | nil => exact whole_empty
  | cons key keys ih =>
    rw [List.mem_cons, not_or] at hk
    rw [List.flatMap_cons]
    cases hg : s.get? key with
    | none =>
      have hm : modifiers s (key :: keys) = modifiers s keys := by simp [modifiers, Styles.select, hg]
      have ht : textsAt s key = [] := by simp [textsAt, hg]
      rw [hm, ht]
      exact ih hk.2
    | some v =>
      have hm : modifiers s (key :: keys) = v :: modifiers s keys := by simp [modifiers, Styles.select, hg]
      have ht : textsAt s key = literalsOf v := by simp [textsAt, hg]
      rw [hm, ht, List.map_cons, String.join_cons]
      exact (hl.append (whole_get? h hg (Ne.symm hk.1))).append (ih hk.2)

/-- Where a view says its font, and where its background. -/
theorem modifierOrder_texts : modifierOrder.flatMap (textsAt s) = textsAt s "font" ++ textsAt s "background" := by
  have hs : modifierOrder = "font" :: ((modifierOrder.drop 1).take 8 ++ "background" :: modifierOrder.drop 10) := rfl
  have hq (keys : List String) (hk : ∀ key ∈ keys, key ≠ "spacers" ∧ key ∉ speakingKeys) :
      keys.flatMap (textsAt s) = [] :=
    List.flatMap_eq_nil_iff.mpr fun key hm => textsAt_quiet h (hk key hm)
  rw [hs, List.flatMap_cons, List.flatMap_append, List.flatMap_cons, hq _ (by decide), hq _ (by decide),
    List.append_nil, List.nil_append]

theorem whole_finished {view : String} {texts : List String} (hv : Whole view texts) :
    Whole (finished none s view) (texts ++ (textsAt s "font" ++ textsAt s "background")) := by
  have hm := whole_modifiers h (by decide : "spacers" ∉ modifierOrder) (whole "\n" (by decide))
  rw [modifierOrder_texts h] at hm
  have hl : Whole ("\n" ++ "") [] := whole "\n" (by decide)
  exact (hl.append hv).append hm

end

/-- Fragments that hold these texts. -/
def Fragments (fs : List String) (texts : List String) : Prop :=
  (∀ f ∈ fs, Whole f (literalsOf f)) ∧ fs.flatMap literalsOf = texts

section
variable {fs gs : List String} {f : String} {texts texts' : List String}

theorem Fragments.nil : Fragments [] [] :=
  ⟨nofun, rfl⟩

theorem Fragments.append (h : Fragments fs texts) (h' : Fragments gs texts') :
    Fragments (fs ++ gs) (texts ++ texts') := by
  refine ⟨List.forall_mem_append.mpr ⟨h.1, h'.1⟩, ?_⟩
  rw [List.flatMap_append, h.2, h'.2]

theorem Fragments.single (h : Whole f texts) : Fragments [f] texts :=
  ⟨List.forall_mem_singleton.mpr h.self, by rw [List.flatMap_singleton, h.literalsOf_eq]⟩

theorem fragments_spacer : Fragments [spacer] [] :=
  .single (whole "\nSpacer()" (by decide))

theorem Fragments.cons (hf : Whole f texts) (h : Fragments fs texts') : Fragments (f :: fs) (texts ++ texts') :=
  (single hf).append h

theorem Fragments.intersperse (h : Fragments fs texts) : Fragments (fs.intersperse spacer) texts := by
  induction fs generalizing texts with
  | nil => exact h
  | cons f fs ih =>
    obtain ⟨hw, rfl⟩ := h
    obtain ⟨hf, hs⟩ := List.forall_mem_cons.mp hw
    have hi := ih ⟨hs, rfl⟩
    cases fs with
    | nil => exact .cons hf .nil
    | cons g fs => exact .cons hf (.append fragments_spacer hi)

theorem Fragments.spaced (h : Fragments fs texts) (s : Styles) : Fragments (spaced s fs) texts := by
  have hs := fragments_spacer
  unfold SwiftUI.spaced
  dsimp only
  split_ifs
  · exact h.intersperse
  · have ha := (hs.append h).append hs
    rwa [List.append_nil] at ha
  · exact hs.append h
  · exact h

theorem Fragments.whole_indented (h : Fragments fs texts) : Whole (String.join (fs.map Text.indent)) texts := by
  induction fs generalizing texts with
  | nil =>
    rw [← h.2]
    exact whole_empty
  | cons f fs ih =>
    obtain ⟨hw, rfl⟩ := h
    obtain ⟨hf, hs⟩ := List.forall_mem_cons.mp hw
    rw [List.map_cons, String.join_cons, List.flatMap_cons]
    exact hf.indent.append (ih ⟨hs, rfl⟩)

theorem Fragments.whole_join (h : Fragments fs texts) : Whole (String.join fs) texts := by
  rw [← h.2]
  exact Whole.join h.1

end

theorem whole_container {s : Styles} (h : Voiced s) {fs : List String} {texts : List String} (hf : Fragments fs texts) :
    Whole (containerView s fs) texts := by
  have hs : Whole ((s.get? "stack").getD freeStack) [] := by
    cases hg : s.get? "stack" with
    | none => exact whole "ZStack(alignment: .topLeading)" (by decide)
    | some v =>
      have hw := whole_get? h hg (by decide)
      have ht : textsAt s "stack" = [] := textsAt_quiet h (by decide)
      have hv : textsAt s "stack" = literalsOf v := by simp [textsAt, hg]
      rwa [← hv, ht] at hw
  unfold containerView
  split
  · obtain rfl : fs = [] := List.isEmpty_iff.mp ‹_›
    rw [← hf.2]
    exact whole "Rectangle()\n.foregroundColor(.clear)" (by decide)
  · have ho := hs.draft.fixed " \x7b"
    exact ((ho.append (hf.spaced s).whole_indented).fixed "\n\x7d").whole (by decide)

theorem whole_image (source : String) : Whole ("AsyncImage(url: URL(string: " ++ Text.swift source ++ "))") [source] :=
  ((opens "AsyncImage(url: URL(string: ").next (whole_swift source).value "))").whole (by decide)

theorem whole_text (text : String) : Whole ("Text(" ++ Text.swift text ++ ")") [text] :=
  ((opens "Text(").next (whole_swift text).value ")").whole (by decide)

/-- A run says its text and, where it has styles of its own, its font. -/
def runTexts (run : Run) : List String :=
  run.text :: (run.styles.map (textsAt · "font")).getD []

theorem whole_runView {run : Run} (hr : ∀ s ∈ run.styles, Voiced s) : Whole (runView run) (runTexts run) := by
  refine (whole_text run.text).append ?_
  cases hs : run.styles with
  | none => exact whole_empty
  | some s =>
    have hv := hr s hs
    have hm := whole_modifiers hv (by decide : "spacers" ∉ textModifiers) whole_empty
    have hq : (textModifiers.drop 1).flatMap (textsAt s) = [] := by
      have hk : ∀ key ∈ textModifiers.drop 1, key ≠ "spacers" ∧ key ∉ speakingKeys := by decide
      exact List.flatMap_eq_nil_iff.mpr fun key hm => textsAt_quiet hv (hk key hm)
    have ht : textModifiers = "font" :: textModifiers.drop 1 := rfl
    rw [ht, List.flatMap_cons, hq, List.append_nil, ← ht] at hm
    simpa using hm

/-- Several runs are in brackets where modifiers come behind them. -/
theorem whole_textView {s : Styles} {runs : List Run} (hr : ∀ run ∈ runs, ∀ s ∈ run.styles, Voiced s) :
    Whole (textView s runs) (runs.flatMap runTexts) := by
  unfold textView
  split
  · exact whole_text _
  · have hv : ∀ view ∈ runs.map runView, Whole view (literalsOf view) := by
      intro view hm
      obtain ⟨run, hrun, rfl⟩ := List.mem_map.mp hm
      exact (whole_runView (hr run hrun)).self
    have hs := Whole.intercalate (whole " + " (by decide)) hv
    rw [List.flatMap_map] at hs
    have ht : (runs.flatMap fun run => literalsOf (runView run)) = runs.flatMap runTexts :=
      List.flatMap_congr fun run hm => (whole_runView (hr run hm)).literalsOf_eq
    rw [ht] at hs
    dsimp only
    split
    · exact hs
    · exact (((opens "(").append hs).fixed ")").whole (by decide)

theorem voiced_styles (aspects : List Aspect) : Voiced (Target.swiftUI.styles aspects) := by
  intro e he hs
  obtain ⟨a, -, d, hd, rfl⟩ := Target.exists_of_mem_entries he
  exact ⟨_, declarations_spoken a d hd hs, fun hk => if_neg hk⟩

theorem voices {key : String} (hk : key ∈ speakingKeys) : Target.swiftUI.Voices literalsOf key where
  mine a ha := by
    rw [speakingKeys, List.mem_cons, List.mem_singleton] at hk
    rcases hk with rfl | rfl <;> cases a <;> simp_all [Aspect.paints, Target.keysOf, SwiftUI.keysOf]
  texts_eq a d hd he := by
    have hn : ∀ key ∈ speakingKeys, key ≠ "spacers" := by decide
    have hs := declarations_spoken a d hd (he ▸ hn key hk)
    rw [he, if_pos hk] at hs
    exact hs.literalsOf_eq

theorem voices_background : Target.swiftUI.Voices literalsOf "background" :=
  voices (by decide)

theorem voices_font : Target.swiftUI.Voices literalsOf "font" :=
  voices (by decide)

theorem textsAt_background {aspects : List Aspect} {s : Subject} {paints : List Paint}
    (h : aspects.filter Aspect.paints = s.fill paints) :
    textsAt (Target.swiftUI.styles aspects) "font" = [] ∧
      textsAt (Target.swiftUI.styles aspects) "background" = Fill.texts paints s.width s.height := by
  refine ⟨voices_font.silent ?_, voices_background.fill (fun _ _ _ => List.mem_singleton_self _) h⟩
  rw [h]
  intro a ha
  obtain ⟨fill, -, rfl⟩ := List.mem_map.mp ha
  simp [Target.keysOf, SwiftUI.keysOf]

theorem textsAt_font {aspects : List Aspect} {s : Subject} {run : TextRun}
    (h : aspects.filter Aspect.paints = s.typography run) :
    textsAt (Target.swiftUI.styles aspects) "font" = [run.fontName.family] ∧
      textsAt (Target.swiftUI.styles aspects) "background" = [] := by
  refine ⟨voices_font.typography (fun _ _ => List.mem_map_of_mem List.mem_cons_self) h, voices_background.silent ?_⟩
  rw [h]
  intro a ha
  rw [List.mem_singleton.mp ha]
  simp [Target.keysOf, SwiftUI.keysOf]

theorem runTexts_styled (base : Base) (run : TextRun) (content : String) :
    runTexts ⟨content, some (Target.swiftUI.runStyles base run)⟩ = [content, run.fontName.family] := by
  have hf : ((Subject.ofBase base).typography run).filter Aspect.paints = (Subject.ofBase base).typography run := rfl
  have ht : textsAt (Target.swiftUI.runStyles base run) "font" = [run.fontName.family] := (textsAt_font hf).1
  rw [runTexts, Option.map_some, Option.getD_some, ht]

/-- The texts of the runs, and behind them those of the modifiers. -/
theorem texts_text (slot : Slot Float) (base : Base) (box : TextBox) :
    let s := Target.swiftUI.styles (Piece.text slot base box).aspects
    (Target.swiftUI.runsOf base box).flatMap runTexts ++ (textsAt s "font" ++ textsAt s "background") =
      box.shownRuns.flatMap Target.swiftUI.runTexts := by
  intro s
  have hp := (Piece.text slot base box).aspects_paints
  rw [Piece.paint, Piece.onlyRun] at hp
  unfold Target.runsOf
  dsimp only
  split <;> rename_i runs hr
  · rename_i run
    rw [hr] at hp ⊢
    obtain ⟨hf, hb⟩ := textsAt_font hp
    rw [hf, hb]
    rfl
  · have hn : (Piece.text slot base box).aspects.filter Aspect.paints = [] := by
      split at hp
      · exact absurd ‹_› (hr _)
      · exact hp
    have hf : textsAt s "font" = [] := voices_font.unpainted hn
    have hb : textsAt s "background" = [] := voices_background.unpainted hn
    rw [hf, hb, List.append_nil, List.append_nil, List.flatMap_map]
    exact List.flatMap_congr fun run _ => runTexts_styled base run _

theorem voiced_runs (base : Base) (box : TextBox) :
    ∀ run ∈ Target.swiftUI.runsOf base box, ∀ s ∈ run.styles, Voiced s := by
  intro run hr s hs
  obtain ⟨r, rfl⟩ := Target.exists_runStyles hr hs
  exact voiced_styles _

mutual
theorem whole_element (p : Piece Float) :
    Whole (Target.swiftUI.render false (Target.swiftUI.element p)) (p.texts .swiftUI) := by
  have hv := voiced_styles p.aspects
  have hp := p.aspects_paints
  cases p with
  | frame slot base flow clips children =>
    have hw := whole_finished hv (whole_container hv (fragments_elements children))
    obtain ⟨hf, hb⟩ := textsAt_background (s := .ofBase base) hp
    rw [hf, hb] at hw
    exact hw
  | group slot base children =>
    have hw := whole_finished hv (whole_container hv (fragments_elements children))
    have hf := voices_font.unpainted hp
    have hb := voices_background.unpainted hp
    rw [textsAt, textsAt, hf, hb, List.append_nil, List.append_nil] at hw
    exact hw
  | shape slot base ellipse =>
    rw [Target.element, Target.shapeElement_eq]
    rw [Piece.paint] at hp
    split <;> rename_i hi
    · rw [if_pos hi] at hp
      have hw := whole_finished hv (whole_image (placeholderUrl base.width base.height))
      have hf := voices_font.unpainted hp
      have hb := voices_background.unpainted hp
      have ht : Fill.texts base.fills base.width base.height = [placeholderUrl base.width base.height] := if_pos hi
      rw [textsAt, textsAt, hf, hb, List.append_nil, List.append_nil, ← ht] at hw
      exact hw
    · rw [if_neg hi] at hp
      have hw := whole_finished hv (whole_container hv .nil)
      obtain ⟨hf, hb⟩ := textsAt_background (s := .ofBase base) hp
      rw [hf, hb] at hw
      exact hw
  | line slot base =>
    have hw := whole_finished hv (whole_container hv .nil)
    obtain ⟨hf, hb⟩ := textsAt_background (s := base.bar) hp
    rw [hf, hb] at hw
    exact hw
  | text slot base box =>
    have hw := whole_finished hv (whole_textView (s := Target.swiftUI.styles (Piece.text slot base box).aspects)
      (voiced_runs base box))
    rw [Target.element, Target.textElement_eq]
    rw [texts_text] at hw
    exact hw

theorem fragments_elements (ps : List (Piece Float)) :
    Fragments (Target.swiftUI.renderAll false (Target.swiftUI.elements ps)) (Piece.textsInAll .swiftUI ps) := by
  cases ps with
  | nil => exact .nil
  | cons p ps => exact .cons (whole_element p) (fragments_elements ps)
end

end SceneCode.Swift
