import SceneCode.Proofs.Markup.Shown

namespace SceneCode
open Markup (Attribute CodeShows Styled)

namespace Tailwind

def classKey (jsx : Bool) : List Char :=
  (if jsx then "className" else "class").toList

def attribute? (jsx : Bool) (s : Styles) : Option Attribute :=
  if (classesOf s).isEmpty then none else some (classKey jsx, valueOf s)

/-- One class attribute. Its value is the values that are not empty, a space apart, and white space parts it into their
classes. Without such values there is no attribute. -/
def Classed (jsx : Bool) (s : Styles) (as : List Attribute) : Prop :=
  let values := (s.entries.map (·.2)).filter (!·.isEmpty)
  let value := (" ".intercalate values).toList
  as = (if values.isEmpty then [] else [(classKey jsx, value)]) ∧
    Text.unblanked value = values.flatMap (·.toList.splitOn ' ')

theorem classed_iff {jsx : Bool} {s : Styles} {as : List Attribute} :
    Classed jsx s as ↔ as = (attribute? jsx s).toList ∧ Text.unblanked (valueOf s) = classesOf s := by
  have hv : valueOf s = (" ".intercalate ((s.entries.map (·.2)).filter (!·.isEmpty))).toList :=
    join_wordsOf _
  have he : (classesOf s).isEmpty = ((s.entries.map (·.2)).filter (!·.isEmpty)).isEmpty := wordsOf_isEmpty _
  unfold Classed attribute?
  rw [hv, he]
  refine and_congr (Eq.congr rfl ?_) Iff.rfl
  split <;> rfl

theorem writes_attributes (jsx : Bool) : Markup.Writes (attributes jsx) (attribute? jsx) := by
  intro s
  rw [attributes_eq]
  unfold attribute?
  split
  · rfl
  · have hq : "\"".toList = ['"'] := by decide
    have hk : "=\"".toList = ['=', '"'] := by decide
    simp only [String.toList_append, String.toList_ofList, hq, hk, Option.map_some, Option.getD_some, Attribute.text,
      classKey]
    simp

section
variable {s : Styles} (h : Sound s) (jsx : Bool)
include h

theorem Sound.attribute_proper {a : Attribute} (ha : a ∈ attribute? jsx s) : a.Proper := by
  unfold attribute? at ha
  split at ha
  · cases ha
  · have hk : Markup.IsKey (classKey jsx) := by cases jsx <;> decide
    obtain rfl := Option.some.inj ha
    exact ⟨hk, ClassPrefix.unquoted_join fun w hw => (h w hw).2⟩

/-- The value has no line breaks, so it is the same at every depth. -/
theorem Sound.styled : Styled (Classed jsx) (attribute? jsx) s := by
  intro depth
  have hb : '\n' ∉ valueOf s := ClassPrefix.unbroken_join fun w hw => (h w hw).1
  refine classed_iff.mpr ⟨?_, ClassPrefix.unblanked_join fun w hw => (h w hw).1⟩
  unfold attribute?
  split
  · rfl
  · simp [Text.indentBy_of_not_mem depth hb]

end

/-- A value that reads as it should has no quotes, and no white space but between its classes. -/
theorem sound_of_cleanly {jsx : Bool} {s : Styles} (h : Markup.Cleanly (Classed jsx) s) : Sound s := by
  obtain ⟨as, hs, hq⟩ := h
  obtain ⟨rfl, hu⟩ := classed_iff.mp hs
  intro w hw
  have hm : w ∈ Text.unblanked (valueOf s) := hu ▸ hw
  refine ⟨ClassPrefix.isWord_of_mem_unblanked hm, fun hc => ?_⟩
  have he : (classesOf s).isEmpty = false := by
    cases hcs : classesOf s with
    | nil => rw [hcs] at hw; cases hw
    | cons v vs => rfl
  refine hq (classKey jsx, valueOf s) ?_ (ClassPrefix.mem_of_mem_unblanked hm hc)
  rw [attribute?, he]
  exact List.mem_singleton_self _

theorem Typed.fits {family : String} {s : Styles} (h : Typed family s) (hs : Sound s) : Fits family := by
  obtain ⟨us, ws, he, -, -, -⟩ := h
  have hf := hs (fontFamily family).toList (by simp [he])
  refine Classical.byContradiction fun hn => ?_
  obtain ⟨c, hc, rfl | hb⟩ := exists_of_not_fits hn
  · exact hf.2 hc
  · rw [hf.1.2 c hc] at hb
    exact absurd hb.1 (by decide)

theorem TypedBy.sound_iff {runs : List TextRun} {styles : List Styles} (h : TypedBy runs styles) :
    (∀ s ∈ styles, Sound s) ↔ ∀ run ∈ runs, Fits run.fontName.family := by
  constructor
  · intro hs run hr
    obtain ⟨s, hm, ht⟩ := h.2 run hr
    exact ht.fits (hs s hm)
  · intro hf s hs
    rcases h.1 s hs with hs | ⟨run, hr, ht⟩
    · exact hs
    · exact ht.sound (hf run hr)

end Tailwind

theorem Target.page_tailwind (jsx : Bool) (o : Tailwind.Options) (showNames : Bool) (es : List Element) :
    (Target.tailwind jsx o).page showNames es = Element.page (Tailwind.attributes jsx) jsx showNames es := by
  rw [page_eq, renderAll_tailwind]
  rfl

theorem tailwind_page_shows_iff (jsx showNames : Bool) (o : Tailwind.Options) (pieces : List (Piece Float)) :
    let elements := (Target.tailwind jsx o).elements pieces
    CodeShows (Tailwind.Classed jsx) showNames ((Target.tailwind jsx o).page showNames elements) elements ↔
      ∀ run ∈ Piece.runsAll pieces, Tailwind.Fits run.fontName.family := by
  intro elements
  have ht : Tailwind.TypedBy (Piece.runsAll pieces) (Element.stylesInAll elements) :=
    Target.typedBy_elements jsx o pieces
  rw [← ht.sound_iff, Target.page_tailwind]
  constructor
  · exact fun h s hs => Tailwind.sound_of_cleanly (h.cleanly s hs)
  · exact fun h => Markup.page_shows (Tailwind.writes_attributes jsx) (fun s hs a ha => (h s hs).attribute_proper jsx ha)
      fun s hs => (h s hs).styled jsx

/-- Tailwind code is the tree of elements that the scene is walked into, each with its classes in one attribute, if and
only if no font family has a quote or white space other than spaces in its name. Layer names and texts are of no
account. Each font family is one class. -/
theorem tailwind_shows_elements_iff (s : Settings) (preview : Bool) (nodes : List Node) :
    let s := { s with framework := .tailwind }
    let elements := (s.target preview).walkAll s.optimizeLayout .top nodes
    let runs := Piece.runsAll (Scene.pieces s.optimizeLayout nodes)
    (CodeShows (Tailwind.Classed (s.writesJsx preview)) s.showLayerNames (generate s preview nodes) elements ↔
      ∀ run ∈ runs, Tailwind.Fits run.fontName.family) ∧
    ∀ run ∈ runs, ∃ styles ∈ Element.stylesInAll elements,
      (Tailwind.fontFamily run.fontName.family).toList ∈ Tailwind.classesOf styles := by
  intro s elements runs
  have he : elements = (s.target preview).elements (Scene.pieces s.optimizeLayout nodes) :=
    Target.walkAll_eq_elements _ _ _ nodes
  have hg : generate s preview nodes = (s.target preview).page s.showLayerNames elements :=
    generate_eq_page s preview nodes
  rw [hg, he]
  refine ⟨tailwind_page_shows_iff _ _ _ _, fun run hr => ?_⟩
  obtain ⟨styles, hs, us, ws, hc, -⟩ := (Target.typedBy_elements (s.writesJsx preview) s.tailwindOptions _).2 run hr
  exact ⟨styles, hs, by simp [hc]⟩

end SceneCode
