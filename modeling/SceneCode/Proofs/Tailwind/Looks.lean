import SceneCode.Proofs.Style.Aspects
import SceneCode.Proofs.Tailwind.Classes

namespace SceneCode

namespace Tailwind

theorem sublist_option {β : Type} (key : String) {x : Option β} {f : β → String} :
    ((x.toList.map fun b => Declaration.set key (f b)).map (·.key)).Sublist [key] := by
  cases x with
  | none => exact List.nil_sublist _
  | some b => exact List.Sublist.refl _

theorem sublist_ite {c : Prop} [Decidable c] {key value : String} :
    ((if c then [Declaration.set key value] else []).map (·.key)).Sublist [key] := by
  split
  · exact List.Sublist.refl _
  · exact List.nil_sublist _

/-- Type is declared in the order of its keys, each once. -/
theorem typography_keys (o : Options) (run : TextRun) (fill : Option (Rgb × Float)) :
    ((typography o run fill).map (·.key)).Sublist (keysOf (.typography run fill)) := by
  simp only [typography, List.map_append]
  have hf : (["font-family", "font-size", "font-weight"] : List String).Sublist
    ["font-family", "font-size", "font-weight"] := List.Sublist.refl _
  exact ((((((sublist_option "color").append hf).append sublist_ite).append (sublist_option _)).append
    (sublist_option _)).append sublist_ite).append (sublist_option _)

theorem keysOf_disjoint {a : Aspect} (h : ∀ run fill, a ≠ .typography run fill) (run : TextRun)
    (fill : Option (Rgb × Float)) : ∀ k ∈ keysOf a, k ∉ keysOf (.typography run fill) := by
  cases a with
  | typography run fill => exact absurd rfl (h run fill)
  | _ => simp [keysOf]

end Tailwind

/-- No aspect is about type. -/
def Aspect.Typeless (aspects : List Aspect) : Prop :=
  ∀ a ∈ aspects, ∀ run fill, a ≠ .typography run fill

namespace Subject
open Aspect (Typeless)
variable (s : Subject)

theorem typeless_append {as bs : List Aspect} : Typeless (as ++ bs) ↔ Typeless as ∧ Typeless bs :=
  List.forall_mem_append

theorem typeless_fill (paints : List Paint) : Typeless (s.fill paints) := by
  intro a ha run fill
  obtain ⟨f, -, rfl⟩ := List.mem_map.mp ha
  simp

theorem typeless_blend : Typeless s.blend := by
  unfold blend
  split <;> simp [Typeless]

theorem typeless_placement (slot : Slot Float) (hug : Hug) : Typeless (s.placement slot hug) := by
  have hc : Typeless (s.coordinates slot) := by
    unfold coordinates
    split <;> simp [Typeless]
  simp only [placement, typeless_append]
  exact ⟨⟨by simp [Typeless, size], hc⟩, s.typeless_blend⟩

theorem typeless_shape (look : ShapeLook) : Typeless (s.shape look) := by
  simp only [shape, typeless_append]
  refine ⟨⟨⟨⟨?_, by simp [Typeless]⟩, by simp [Typeless]⟩, ?_⟩, ?_⟩
  · split
    · simp [Typeless]
    · exact s.typeless_fill _
  · split <;> simp [Typeless]
  · split <;> simp [Typeless]

end Subject

namespace Target
open Aspect (Typeless)

theorem exists_of_mem_entries {t : Target} {aspects : List Aspect} {e : String × String}
    (h : e ∈ (t.styles aspects).entries) : ∃ a ∈ aspects, ∃ d ∈ t.declarations a, (d.key, d.value) = e := by
  rw [styles_eq_declareAll] at h
  rcases Styles.mem_entries_declareAll h with h | ⟨d, hd, he⟩
  · cases h
  · obtain ⟨a, ha, hd⟩ := List.mem_flatMap.mp hd
    exact ⟨a, ha, d, hd, he⟩

variable (jsx : Bool) (o : Tailwind.Options) {aspects : List Aspect}

theorem tidy_of_typeless (h : Typeless aspects) :
    ∀ v ∈ ((Target.tailwind jsx o).styles aspects).entries.map (·.2), Tailwind.Tidy v := by
  intro v hv
  obtain ⟨e, he, rfl⟩ := List.mem_map.mp hv
  obtain ⟨a, ha, d, hd, rfl⟩ := exists_of_mem_entries he
  exact Tailwind.tidily_declarations o (h a ha) d hd

theorem sound_styles (h : Typeless aspects) : Tailwind.Sound ((Target.tailwind jsx o).styles aspects) :=
  Tailwind.isClass_of_tidy (tidy_of_typeless jsx o h)

/-- Type comes last: nothing before it has set its keys. -/
theorem entries_typography (h : Typeless aspects) (run : TextRun) (fill : Option (Rgb × Float)) :
    ((Target.tailwind jsx o).styles (aspects ++ [Aspect.typography run fill])).entries =
      ((Target.tailwind jsx o).styles aspects).entries ++
        (Tailwind.typography o run fill).map fun d : Declaration => (d.key, d.value) := by
  have hk : (Tailwind.keysOf (.typography run fill)).Nodup := by
    simp [Tailwind.keysOf]
  have hs := Tailwind.typography_keys o run fill
  rw [styles_append]
  refine Styles.entries_declareAll_of_fresh (fun d hd => ?_) (hk.sublist hs) fun d hd hm => ?_
  · exact (Tailwind.declarations_within o (a := .typography run fill) (by simp) d hd).2
  · obtain ⟨e, he, hek⟩ := List.mem_map.mp hm
    obtain ⟨a, ha, d', hd', rfl⟩ := exists_of_mem_entries he
    have hka : d.key ∈ Tailwind.keysOf a := hek ▸ (Target.tailwind jsx o).key_mem_keysOf a hd'
    exact Tailwind.keysOf_disjoint (h a ha) run fill _ hka (hs.mem (List.mem_map_of_mem hd))

theorem typed_styles (h : Typeless aspects) (run : TextRun) (fill : Option (Rgb × Float)) :
    Tailwind.Typed run.fontName.family ((Target.tailwind jsx o).styles (aspects ++ [Aspect.typography run fill])) := by
  have hc := Tailwind.tidily_color o fill
  have hr := Tailwind.tidily_typographyRest o run
  have hmap (ds : List Declaration) :
      (ds.map fun d => (d.key, d.value)).map (·.2) = ds.map (·.value) := by simp
  have hvs {ds : List Declaration} (hd : Tailwind.Tidily ds) : ∀ v ∈ ds.map (·.value), Tailwind.Tidy v := by
    intro v hv
    obtain ⟨d, hm, rfl⟩ := List.mem_map.mp hv
    exact hd d hm
  refine ⟨Tailwind.wordsOf (((Target.tailwind jsx o).styles aspects).entries.map (·.2) ++
      (fill.toList.map fun p => Declaration.set "color" ("text-" ++ Tailwind.color o p.1 p.2)).map (·.value)),
    Tailwind.wordsOf ((Tailwind.typographyRest o run).map (·.value)), ?_, ?_, ?_, Tailwind.isClass_of_tidy (hvs hr)⟩
  · rw [Tailwind.classesOf, entries_typography jsx o h, List.map_append, hmap, Tailwind.typography_eq, List.map_append,
      List.map_cons, ← List.append_assoc, Tailwind.wordsOf_append,
      Tailwind.wordsOf_cons (by simp [Declaration.set, Tailwind.fontFamily])]
    simp only [Declaration.set, List.splitOn_eq_singleton (Tailwind.space_not_mem_fontFamily _)]
    rfl
  · exact Tailwind.isClass_of_tidy (List.forall_mem_append.mpr ⟨tidy_of_typeless jsx o h, hvs hc⟩)
  · have hn : Tailwind.fontSize o run.fontSize ≠ "" := by simp [Tailwind.fontSize]
    simp [Tailwind.typographyRest, Declaration.set, Tailwind.wordsOf_cons hn, List.splitOn_ne_nil]

end Target

namespace Element

mutual
/-- The style maps of an element, of its runs and of all inside it. -/
def stylesIn : Element → List Styles
  | .container _ styles children => styles :: stylesInAll children
  | .image _ styles _ => [styles]
  | .text _ styles runs => styles :: runs.filterMap (·.styles)

def stylesInAll : List Element → List Styles
  | [] => []
  | e :: es => stylesIn e ++ stylesInAll es
end

end Element

namespace Piece

mutual
/-- The runs of text that are written for a piece. -/
def runs {α : Type} : Piece α → List TextRun
  | .frame _ _ _ _ children => runsAll children
  | .group _ _ children => runsAll children
  | .text _ _ box => box.shownRuns
  | _ => []

def runsAll {α : Type} : List (Piece α) → List TextRun
  | [] => []
  | p :: ps => runs p ++ runsAll ps
end

end Piece

namespace Tailwind

/-- Each style map is sound or typed by one of the runs, and each run types one. -/
def TypedBy (runs : List TextRun) (styles : List Styles) : Prop :=
  (∀ s ∈ styles, Sound s ∨ ∃ run ∈ runs, Typed run.fontName.family s) ∧
    ∀ run ∈ runs, ∃ s ∈ styles, Typed run.fontName.family s

theorem TypedBy.nil : TypedBy [] [] :=
  ⟨nofun, nofun⟩

theorem TypedBy.append {runs runs' : List TextRun} {styles styles' : List Styles} (h : TypedBy runs styles)
    (h' : TypedBy runs' styles') : TypedBy (runs ++ runs') (styles ++ styles') := by
  constructor
  · intro s hs
    rcases List.mem_append.mp hs with hs | hs
    · exact (h.1 s hs).imp_right fun ⟨run, hr, ht⟩ => ⟨run, List.mem_append_left _ hr, ht⟩
    · exact (h'.1 s hs).imp_right fun ⟨run, hr, ht⟩ => ⟨run, List.mem_append_right _ hr, ht⟩
  · intro run hr
    rcases List.mem_append.mp hr with hr | hr
    · obtain ⟨s, hs, ht⟩ := h.2 run hr
      exact ⟨s, List.mem_append_left _ hs, ht⟩
    · obtain ⟨s, hs, ht⟩ := h'.2 run hr
      exact ⟨s, List.mem_append_right _ hs, ht⟩

theorem TypedBy.cons {runs : List TextRun} {styles : List Styles} {s : Styles} (h : TypedBy runs styles)
    (hs : Sound s) : TypedBy runs (s :: styles) := by
  have hn : TypedBy [] [s] := ⟨by simpa using hs, nofun⟩
  exact hn.append h

theorem TypedBy.single {run : TextRun} {s : Styles} (h : Typed run.fontName.family s) : TypedBy [run] [s] := by
  constructor
  · intro s' hs
    rw [List.mem_singleton.mp hs]
    exact .inr ⟨run, List.mem_singleton_self run, h⟩
  · intro run' hr
    rw [List.mem_singleton.mp hr]
    exact ⟨s, List.mem_singleton_self s, h⟩

theorem TypedBy.marks {mark : List Char} (hq : '"' ∉ mark) {runs : List TextRun} {styles : List Styles}
    (h : TypedBy runs styles) : ∀ s ∈ styles, Marks mark s := by
  intro s hs
  rcases h.1 s hs with h | ⟨run, -, h⟩
  · exact .inl (h.clean mark)
  · exact h.marks hq

/-- All style maps are sound if and only if all font families fit. -/
theorem TypedBy.clean_iff {mark : List Char} (hn : mark ≠ []) (hm : ∀ c ∈ mark, Text.isBlank c = false)
    (hq : '"' ∉ mark) {runs : List TextRun} {styles : List Styles} (h : TypedBy runs styles) :
    (∀ s ∈ styles, ClassPrefix.Clean mark (valueOf s) (markedOf mark s)) ↔
      ∀ run ∈ runs, Fits run.fontName.family := by
  constructor
  · intro hc run hr
    obtain ⟨s, hs, ht⟩ := h.2 run hr
    exact Classical.byContradiction fun hf => (ht.garbled hq hf).not_clean hn hm hq (hc s hs)
  · intro hf s hs
    rcases h.1 s hs with hs | ⟨run, hr, ht⟩
    · exact hs.clean mark
    · exact (ht.sound (hf run hr)).clean mark

end Tailwind

namespace Target
open Tailwind (TypedBy)
variable (jsx : Bool) (o : Tailwind.Options)

theorem typedBy_runs (base : Base) (runs : List TextRun) :
    TypedBy runs (runs.map ((Target.tailwind jsx o).runStyles base)) := by
  have hl : Aspect.Typeless [] := fun _ h => absurd h List.not_mem_nil
  have ht (run : TextRun) : Tailwind.Typed run.fontName.family ((Target.tailwind jsx o).runStyles base run) :=
    typed_styles jsx o hl run _
  constructor
  · intro s hs
    obtain ⟨run, hr, rfl⟩ := List.mem_map.mp hs
    exact .inr ⟨run, hr, ht run⟩
  · exact fun run hr => ⟨_, List.mem_map_of_mem hr, ht run⟩

theorem typedBy_text (slot : Slot Float) (base : Base) (box : TextBox) :
    TypedBy box.shownRuns ((Target.tailwind jsx o).textElement slot base box).stylesIn := by
  have hl : Aspect.Typeless ((Subject.ofBase base).placement slot (Hug.ofText box) ++ Subject.textAlign box) :=
    Subject.typeless_append.mpr ⟨Subject.typeless_placement _ _ _, by simp [Aspect.Typeless, Subject.textAlign]⟩
  have he := (Target.tailwind jsx o).element_styles (.text slot base box)
  simp only [element, textElement, Piece.aspects, Piece.onlyRun] at he ⊢
  rcases hr : box.shownRuns with _ | ⟨run, _ | ⟨run', runs⟩⟩
  · exact TypedBy.nil.cons (sound_styles jsx o hl)
  · rw [hr] at he
    have hs : (Element.text base.name ((Target.tailwind jsx o).blockStyles slot base box |>.merge
        ((Target.tailwind jsx o).runStyles base run)) [⟨(Target.tailwind jsx o).textContent run.textCase
          run.characters, none⟩]).stylesIn = [(Target.tailwind jsx o).styles ((Subject.ofBase base).placement slot
            (Hug.ofText box) ++ Subject.textAlign box ++ (Subject.ofBase base).typography run)] :=
      congrArg (· :: []) he
    have ht := typed_styles jsx o hl run ((Subject.ofBase base).textColor run)
    rw [hs]
    exact .single ht
  · have hs := (typedBy_runs jsx o base (run :: run' :: runs)).cons (sound_styles jsx o hl)
    simpa [Element.stylesIn, blockStyles] using hs

theorem typeless_aspects {p : Piece Float} (h : ∀ slot base box, p ≠ .text slot base box) :
    Aspect.Typeless p.aspects := by
  cases p with
  | frame slot base flow clips children =>
    have hc : Aspect.Typeless (Subject.clip clips) := by cases clips <;> simp [Subject.clip, Aspect.Typeless]
    have hl : Aspect.Typeless (Subject.layout flow !children.isEmpty) := by
      unfold Subject.layout
      split
      · simp [Aspect.Typeless]
      · split <;> simp [Aspect.Typeless]
    simp only [Piece.aspects, Subject.typeless_append]
    exact ⟨⟨⟨Subject.typeless_placement _ _ _, Subject.typeless_shape _ _⟩, hc⟩, hl⟩
  | group slot base children =>
    simp only [Piece.aspects, Subject.typeless_append]
    refine ⟨?_, by simp [Aspect.Typeless]⟩
    split
    · exact Subject.typeless_blend _
    · exact Subject.typeless_placement _ _ _
  | shape slot base ellipse =>
    simp only [Piece.aspects, Subject.typeless_append]
    exact ⟨Subject.typeless_placement _ _ _, Subject.typeless_shape _ _⟩
  | line slot base =>
    simp only [Piece.aspects, Subject.typeless_append]
    exact ⟨Subject.typeless_placement _ _ _, Subject.typeless_fill _ _⟩
  | text slot base box => exact absurd rfl (h slot base box)

mutual
/-- Type is in the style maps of the elements of a piece exactly where the piece has runs. -/
theorem typedBy_element (p : Piece Float) : TypedBy p.runs ((Target.tailwind jsx o).element p).stylesIn := by
  have hs (h : ∀ slot base box, p ≠ .text slot base box) :
      Tailwind.Sound ((Target.tailwind jsx o).element p).styles := by
    rw [element_styles]
    exact sound_styles jsx o (typeless_aspects h)
  cases p with
  | frame slot base flow clips children =>
    have hs := hs (by simp)
    have hi := typedBy_elements children
    simp only [element, Piece.runs, Element.stylesIn, Element.styles] at hs hi ⊢
    exact hi.cons hs
  | group slot base children =>
    have hs := hs (by simp)
    have hi := typedBy_elements children
    simp only [element, Piece.runs, Element.stylesIn, Element.styles] at hs hi ⊢
    exact hi.cons hs
  | shape slot base ellipse =>
    have hs := hs (by simp)
    simp only [element, shapeElement, Piece.runs] at hs ⊢
    split at hs <;> rename_i hi <;> rw [Element.styles] at hs
    · rw [if_pos hi, Element.stylesIn]
      exact TypedBy.nil.cons hs
    · rw [if_neg hi, Element.stylesIn, Element.stylesInAll]
      exact TypedBy.nil.cons hs
  | line slot base =>
    have hs := hs (by simp)
    simp only [element, Piece.runs, Element.stylesIn, Element.stylesInAll, Element.styles] at hs ⊢
    exact TypedBy.nil.cons hs
  | text slot base box =>
    rw [element, Piece.runs]
    exact typedBy_text jsx o slot base box

theorem typedBy_elements (ps : List (Piece Float)) :
    TypedBy (Piece.runsAll ps) (Element.stylesInAll ((Target.tailwind jsx o).elements ps)) := by
  cases ps with
  | nil => exact TypedBy.nil
  | cons p ps =>
    have hp := typedBy_element p
    have hps := typedBy_elements ps
    rw [Piece.runsAll, elements, Element.stylesInAll]
    exact hp.append hps
end

end Target
end SceneCode
