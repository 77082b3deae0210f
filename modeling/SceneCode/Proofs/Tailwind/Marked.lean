import SceneCode.Generate
import SceneCode.Proofs.Tailwind.Rows

namespace SceneCode
open ClassPrefix (Chunk Kept opens openingWords markFrom markFrom_iff)
open Text (isBlank)

/-- Text less the line break that it starts with. -/
def dropBreak : List Char → List Char
  | '\n' :: rest => rest
  | cs => cs

/-- The markup of elements as code. -/
def Element.page (attributes : Styles → String) (jsx showNames : Bool) (elements : List Element) : String :=
  String.ofList (dropBreak (String.join (markupAll attributes jsx showNames elements)).toList)

mutual
theorem Target.render_tailwind (jsx showNames : Bool) (o : Tailwind.Options) (e : Element) :
    (Target.tailwind jsx o).render showNames e = e.markup (Tailwind.attributes jsx) jsx showNames := by
  cases e with
  | container name styles children =>
    rw [render, Element.markup, renderAll_tailwind jsx showNames o children]
    rfl
  | image name styles source => rfl
  | text name styles runs => rfl

theorem Target.renderAll_tailwind (jsx showNames : Bool) (o : Tailwind.Options) (es : List Element) :
    (Target.tailwind jsx o).renderAll showNames es =
      Element.markupAll (Tailwind.attributes jsx) jsx showNames es := by
  cases es with
  | nil => rfl
  | cons e es => rw [renderAll, Element.markupAll, render_tailwind, renderAll_tailwind jsx showNames o es]
end

section
variable {s : Settings} (hf : s.framework = .tailwind)
include hf

theorem Settings.target_tailwind : s.target false = .tailwind s.jsx s.tailwindOptions := by
  simp [target, writesJsx, hf, Framework.isMarkup]

theorem generate_tailwind (nodes : List Node) : generate s false nodes =
    Element.page (Tailwind.attributes s.jsx) s.jsx s.showLayerNames
      ((s.target false).elements (Scene.pieces s.optimizeLayout nodes)) := by
  rw [generate, Target.code, Settings.target_tailwind hf, Target.renderAll_tailwind, Element.page]
  generalize (String.join _).toList = cs
  cases cs with
  | nil => rfl
  | cons c cs =>
    by_cases hc : c = '\n'
    · subst hc
      rfl
    · simp [dropBreak, hc]

end

theorem trim_of_unblanked {cs : List Char} (h : ∀ c ∈ cs, isBlank c = false) : Text.trim cs = cs := by
  have hd {cs : List Char} (h : ∀ c ∈ cs, isBlank c = false) : cs.dropWhile isBlank = cs := by
    cases cs with
    | nil => rfl
    | cons c cs => simp [h c List.mem_cons_self]
  rw [Text.trim, Text.trimStart, hd h, Text.trimEnd, hd (by simpa using h), List.reverse_reverse]

theorem generateCode_tailwind {s : Settings} (hf : s.framework = .tailwind) {mark : String}
    (hp : s.customTailwindPrefix = some mark) (hn : mark.toList ≠ []) (hm : ∀ c ∈ mark.toList, isBlank c = false)
    (nodes : List Node) :
    generateCode s nodes = String.ofList (markFrom mark.toList true (generate s false nodes).toList) := by
  have ht : Text.trim mark.toList = mark.toList := trim_of_unblanked hm
  have hc : s.classPrefix? = some mark := by
    simp [Settings.classPrefix?, hp, ht, hn]
  have ha (code : String) : ClassPrefix.apply mark code = String.ofList (markFrom mark.toList true code.toList) := by
    unfold ClassPrefix.apply
    rw [ht]
    split
    · contradiction
    · rfl
  simp [generateCode, generateMarked, hf, hc, Wrap.wrap, Wrap.templateName?, ha]

theorem Row.tail_written (mark : String) (jsx showNames wanted : Bool) (es : List Element) :
    (Row.ofElements mark jsx showNames es).tail.flatMap (Chunk.written wanted) =
      (Element.page (Row.attributes mark jsx wanted) jsx showNames es).toList := by
  rw [Element.page, String.toList_ofList, ← Row.written_ofElements]
  cases es with
  | nil => rfl
  | cons e es => cases e <;> rfl

theorem Row.tail_kept (mark : String) (jsx showNames : Bool) (es : List Element) :
    Kept mark.toList (Row.ofElements mark jsx showNames es).tail ↔
      Kept mark.toList (Row.ofElements mark jsx showNames es) := by
  cases es with
  | nil => exact Iff.rfl
  | cons e es => cases e <;> exact (ClassPrefix.kept_text ..).symm

/-- Openings in the middle of a text stand behind white space. -/
theorem ClassPrefix.opens_iff {b : Bool} {cs : List Char} : opens b cs = true ↔ (b = true ∧ cs ∈ openingWords) ∨
    ∃ front blank word, isBlank blank = true ∧ word ∈ openingWords ∧ cs = front ++ blank :: word := by
  induction cs generalizing b with
  | nil => simp [opens, openingWords]
  | cons c cs ih =>
    rw [opens, Bool.or_eq_true, ih]
    simp only [Bool.and_eq_true, List.contains_iff_mem]
    refine or_congr Iff.rfl ?_
    constructor
    · rintro (⟨hb, hw⟩ | ⟨front, blank, word, hb, hw, rfl⟩)
      · exact ⟨[], c, cs, hb, hw, rfl⟩
      · exact ⟨c :: front, blank, word, hb, hw, rfl⟩
    · rintro ⟨front, blank, word, hb, hw, he⟩
      cases front with
      | nil =>
        obtain ⟨rfl, rfl⟩ := List.cons.inj he
        exact .inl ⟨hb, hw⟩
      | cons d front =>
        obtain ⟨-, rfl⟩ := List.cons.inj he
        exact .inr ⟨front, blank, word, hb, hw, rfl⟩

theorem Quoted.opening_eq_false {q : Quoted} : q.opening = false ↔ ¬q.ReadsAsOpening := by
  cases q with
  | classes => simp [opening, ReadsAsOpening]
  | value text =>
    rw [← Bool.not_eq_true, opening, ClassPrefix.opens_iff]
    simp [ReadsAsOpening]

/-- Tailwind code differs from the code without a mark by nothing but a mark on every class, if and only if every font
family fits into its class and no layer name with quotes behind it reads as the start of a class attribute. -/
theorem marked_code_iff (s : Settings) (nodes : List Node) {mark : String} (hf : s.framework = .tailwind)
    (hp : s.customTailwindPrefix = some mark) (hn : mark ≠ "") (hm : ∀ c ∈ mark.toList, isBlank c = false ∧ c ≠ '"') :
    let pieces := Scene.pieces s.optimizeLayout nodes
    let elements := (s.target false).elements pieces
    let page := fun attributes => Element.page attributes s.jsx s.showLayerNames elements
    generate s false nodes = page (Tailwind.attributes s.jsx) ∧
    (generateCode s nodes = page (Tailwind.markedAttributes mark s.jsx) ↔
      (∀ run ∈ Piece.runsAll pieces, Tailwind.Fits run.fontName.family) ∧
      ∀ q ∈ (Element.quotedAll s.showLayerNames elements).dropLast, ¬q.ReadsAsOpening) := by
  intro pieces elements page
  have hn : mark.toList ≠ [] := by simpa using hn
  have hb : ∀ c ∈ mark.toList, isBlank c = false := fun c hc => (hm c hc).1
  have hq : '"' ∉ mark.toList := fun h => (hm _ h).2 rfl
  have hg : generate s false nodes = page (Tailwind.attributes s.jsx) := generate_tailwind hf nodes
  have ht : Tailwind.TypedBy (Piece.runsAll pieces) (Element.stylesInAll elements) := by
    have h := Target.typedBy_elements s.jsx s.tailwindOptions pieces
    rwa [← Settings.target_tailwind hf] at h
  have hr := Stands.elements s.jsx s.showLayerNames hn hb hq elements (ht.marks hq)
  have hw := Row.tail_written mark s.jsx s.showLayerNames
  have hk := markFrom_iff hn hb hq (fun c hc => hr.proper c (List.mem_of_mem_tail hc)) true
  rw [Row.tail_kept, hw, hw, ← String.ofList_inj, String.ofList_toList] at hk
  refine ⟨hg, ?_⟩
  have ho : (∀ b ∈ ((Element.quotedAll s.showLayerNames elements).map Quoted.opening).dropLast, b = false) ↔
      ∀ q ∈ (Element.quotedAll s.showLayerNames elements).dropLast, ¬q.ReadsAsOpening := by
    simp only [← List.map_dropLast, List.forall_mem_map, Quoted.opening_eq_false]
  rw [generateCode_tailwind hf hp hn hb, hg, ← ht.clean_iff hn hb hq, ← hr.clean, ← ho, ← hr.opens]
  exact hk

def spoiledSettings : Settings :=
  { framework := .tailwind, showLayerNames := true, customTailwindPrefix := some "tw-" }

/-- The name of the first box reads as the start of a class attribute. -/
def spoiledScene : List Node :=
  [.shape .rectangle (.named "Card class=" 0 0 100 50), .shape .rectangle (.named "Box" 0 60 100 50)]

theorem spoiledScene_marked : generateCode spoiledSettings spoiledScene ≠
    Element.page (Tailwind.markedAttributes "tw-" false) false true
      ((spoiledSettings.target false).elements (Scene.pieces true spoiledScene)) := by
  intro h
  have hp : Tailwind.Plain "tw-" := by decide
  have hb : ∀ c ∈ "tw-".toList, isBlank c = false ∧ c ≠ '"' := fun c hc => by
    simpa [Tailwind.isClassChar] using hp c hc
  have hr := ((marked_code_iff spoiledSettings spoiledScene rfl rfl (by decide) hb).2.mp h).2
  have hm : Quoted.value "Card class=" ∈ (Element.quotedAll true
      ((spoiledSettings.target false).elements (Scene.pieces true spoiledScene))).dropLast := by
    decide +kernel
  exact hr _ hm ⟨"Card".toList, ' ', "class=".toList, by decide, by decide, by decide⟩

end SceneCode
