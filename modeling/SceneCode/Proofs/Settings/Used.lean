import SceneCode.Proofs.Html.WellFormed

namespace SceneCode

namespace Settings

/-- What a class is marked with, which is nothing if the mark is absent or blank. -/
def mark (s : Settings) : List Char :=
  (s.customTailwindPrefix.map fun p => Text.trim p.toList).getD []

/-- The same framework, and the same settings as far as this framework has a use for them. -/
structure AgreesWith (s s' : Settings) : Prop where
  framework : s.framework = s'.framework
  optimizeLayout : s.optimizeLayout = s'.optimizeLayout
  showLayerNames : s.showLayerNames = s'.showLayerNames
  jsx : s.framework.isMarkup = true → s.jsx = s'.jsx
  tailwindOptions : s.framework = .tailwind → s.tailwindOptions = s'.tailwindOptions
  mark : s.framework = .tailwind → s.mark = s'.mark
  flutterMode : s.framework = .flutter → s.flutterMode = s'.flutterMode
  swiftUIMode : s.framework = .swiftUI → s.swiftUIMode = s'.swiftUIMode

theorem classPrefix?_eq_none_iff {s : Settings} : s.classPrefix? = none ↔ s.mark = [] := by
  unfold classPrefix? mark
  cases s.customTailwindPrefix with
  | none => simp
  | some p => simp

theorem trim_of_classPrefix? {s : Settings} {p : String} (h : s.classPrefix? = some p) : Text.trim p.toList = s.mark := by
  have hp : s.customTailwindPrefix = some p := (Option.filter_eq_some_iff.mp h).1
  rw [mark, hp]
  rfl

namespace AgreesWith
variable {s s' : Settings} (h : s.AgreesWith s')
include h

theorem writesJsx : s.writesJsx false = s'.writesJsx false := by
  unfold Settings.writesJsx
  rw [← h.framework]
  cases hm : s.framework.isMarkup with
  | true => rw [h.jsx hm]
  | false => rw [Bool.and_false, Bool.and_false]

theorem target : s.target false = s'.target false := by
  unfold Settings.target
  rw [← h.framework, h.writesJsx]
  cases hf : s.framework with
  | tailwind => rw [h.tailwindOptions hf]
  | html | flutter | swiftUI => rfl

theorem generate (nodes : List Node) : generate s false nodes = SceneCode.generate s' false nodes := by
  unfold SceneCode.generate
  rw [h.target, h.optimizeLayout, h.showLayerNames]

theorem templateName? : Wrap.templateName? s = Wrap.templateName? s' := by
  unfold Wrap.templateName?
  rw [← h.framework]
  cases hf : s.framework with
  | html | tailwind => rfl
  | flutter => rw [h.flutterMode hf]
  | swiftUI => rw [h.swiftUIMode hf]

end AgreesWith
end Settings

/-- White space around a mark makes no difference. -/
theorem ClassPrefix.apply_congr {mark mark' : String} (h : Text.trim mark.toList = Text.trim mark'.toList)
    (code : String) : apply mark code = apply mark' code := by
  unfold apply
  rw [h]

namespace Settings.AgreesWith
variable {s s' : Settings} (h : s.AgreesWith s')
include h

theorem generateMarked (nodes : List Node) : generateMarked s nodes = SceneCode.generateMarked s' nodes := by
  unfold SceneCode.generateMarked
  rw [← h.framework, ← h.generate]
  cases hf : s.framework with
  | html | flutter | swiftUI => rfl
  | tailwind =>
    have hm := h.mark hf
    cases hp : s.classPrefix? with
    | none =>
      have hp' : s'.classPrefix? = none := classPrefix?_eq_none_iff.mpr (hm ▸ classPrefix?_eq_none_iff.mp hp)
      rw [hp']
    | some p =>
      -- With the same mark, the other prefix is not blank either.
      have hn : s'.classPrefix? ≠ none := by
        intro hp'
        rw [classPrefix?_eq_none_iff, ← hm, ← classPrefix?_eq_none_iff, hp] at hp'
        cases hp'
      obtain ⟨p', hp'⟩ := Option.ne_none_iff_exists'.mp hn
      have ht : Text.trim p.toList = Text.trim p'.toList := by
        rw [trim_of_classPrefix? hp, hm, trim_of_classPrefix? hp']
      rw [hp']
      exact ClassPrefix.apply_congr ht _

theorem generateCode (nodes : List Node) : generateCode s nodes = SceneCode.generateCode s' nodes := by
  have hw (code : String) : Wrap.wrap s (Scene.title nodes) code = Wrap.wrap s' (Scene.title nodes) code := by
    unfold Wrap.wrap
    rw [h.templateName?]
  unfold SceneCode.generateCode
  dsimp only
  rw [h.generateMarked, hw]

end Settings.AgreesWith

/-- The preview is the plain code. -/
theorem generatePreview_eq (s : Settings) (nodes : List Node) :
    generatePreview s nodes = (Target.html false).code s.optimizeLayout s.showLayerNames nodes := by
  have ht : ({ s with framework := .html } : Settings).target true = .html false := by
    simp [Settings.target, Settings.writesJsx]
  unfold generatePreview generate
  rw [ht]

/-- Settings that agree in what their framework has a use for give the same code. The preview depends on hints and
layer names only. Whatever the settings say of JSX, it is the code of plain HTML, which reads as the elements of the
scene in plain syntax. -/
theorem unused_settings_are_inert (s s' : Settings) (nodes : List Node) :
    (s.AgreesWith s' → generateCode s nodes = generateCode s' nodes) ∧
    (s.optimizeLayout = s'.optimizeLayout → s.showLayerNames = s'.showLayerNames →
      generatePreview s nodes = generatePreview s' nodes) ∧
    generatePreview s nodes = generateCode { s with framework := .html, jsx := false } nodes ∧
    Markup.CodeShows Html.StyleOnly s.showLayerNames (generatePreview s nodes)
      ((Target.html false).elements (Scene.pieces s.optimizeLayout nodes)) := by
  refine ⟨fun h => h.generateCode nodes, fun ho hn => ?_, ?_, ?_⟩
  · rw [generatePreview_eq, generatePreview_eq, ho, hn]
  · rw [generatePreview_eq]
    rfl
  · rw [generatePreview_eq]
    exact html_page_shows s.showLayerNames _

/-- A mark with white space around it, and settings for other frameworks. -/
theorem unused_settings_are_inert_tailwind :
    let s : Settings := { framework := .tailwind, jsx := true, customTailwindPrefix := some "tw-" }
    let s' := { s with customTailwindPrefix := some " tw-\n", flutterMode := .fullApp, swiftUIMode := .preview }
    let box : List Node := [.shape .rectangle (.named "Box" 0 0 100 50)]
    s.AgreesWith s' ∧ s ≠ s' ∧ generateCode s box = generateCode s' box := by
  intro s s' box
  have hm : s.mark = s'.mark := by decide
  have hs : s.AgreesWith s' := ⟨rfl, rfl, rfl, fun _ => rfl, fun _ => rfl, fun _ => hm, nofun, nofun⟩
  exact ⟨hs, by decide, (unused_settings_are_inert s s' box).1 hs⟩

end SceneCode
