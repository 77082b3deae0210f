import SceneCode.Proofs.Layers.Html

namespace SceneCode.Html
open Declaration (set Values)
open Number (text)

def isStyleChar (c : Char) : Bool :=
  Number.isNumberChar c || c ∈ [' ', '#', '%', '(', ')', ',', ':', '/']

def Mild (s : String) : Prop :=
  ∀ c ∈ s.toList, isStyleChar c = true

instance (s : String) : Decidable (Mild s) :=
  Text.decidableForallMem _ _

variable {a b : String}

@[simp] theorem mild_append : Mild (a ++ b) ↔ Mild a ∧ Mild b := by
  rw [Mild, String.toList_append, List.forall_mem_append]
  rfl

theorem isStyleChar_of_isNumberChar {c : Char} (h : Number.isNumberChar c = true) : isStyleChar c = true := by
  rw [isStyleChar, h, Bool.true_or]

@[simp] theorem mild_text (x : Float) : Mild (text x) := by
  intro c hc
  exact isStyleChar_of_isNumberChar (Number.isNumberChar_of_mem_text hc)

@[simp] theorem mild_repr (n : Nat) : Mild n.repr := by
  intro c hc
  exact isStyleChar_of_isNumberChar (Number.isNumberChar_of_mem_repr_nat hc)

theorem mild_intercalate {separator : String} {vs : List String} (hs : Mild separator) (h : ∀ v ∈ vs, Mild v) :
    Mild (separator.intercalate vs) := by
  intro c hc
  rcases ClassPrefix.mem_intercalate hc with hc | ⟨v, hv, hc⟩
  · exact hs c hc
  · exact h v hv c hc

@[simp] theorem mild_px (x : Float) : Mild (px x) := by
  rw [px, mild_append]
  exact ⟨mild_text x, by decide⟩

@[simp] theorem mild_hex (c : Rgb) : Mild c.hex := by
  rw [Rgb.hex, mild_append]
  exact ⟨by decide, fun _ hd => isStyleChar_of_isNumberChar (Number.isNumberChar_of_mem_hex6 hd)⟩

@[simp] theorem mild_color (c : Rgb) (opacity : Float) : Mild (color c opacity) := by
  unfold color
  split
  · exact mild_hex c
  · simp only [mild_append]
    refine ⟨⟨⟨⟨by decide, ?_⟩, by decide⟩, mild_text _⟩, by decide⟩
    apply mild_intercalate (by decide)
    intro v hv
    obtain ⟨n, -, rfl⟩ := List.mem_map.mp hv
    exact mild_repr n

theorem mild_gradient (g : LinearGradient) : Mild (gradient g) := by
  have hs : Mild (", ".intercalate (g.stops.map (stop g))) := by
    apply mild_intercalate (by decide)
    intro v hv
    obtain ⟨s, -, rfl⟩ := List.mem_map.mp hv
    simp only [stop, mild_append]
    exact ⟨⟨⟨mild_color _ _, by decide⟩, mild_text _⟩, by decide⟩
  unfold gradient
  simp only [mild_append]
  exact ⟨⟨⟨⟨by decide, mild_text _⟩, by decide⟩, hs⟩, by decide⟩

theorem mild_spaced (xs : List Float) : Mild (" ".intercalate (xs.map px)) := by
  apply mild_intercalate (by decide)
  intro v hv
  obtain ⟨x, -, rfl⟩ := List.mem_map.mp hv
  exact mild_px x

theorem mild_padding (p : Padding) : Mild (padding p) := by
  unfold padding
  split
  · exact mild_px _
  · split
    · simp only [mild_append, mild_px]
      decide
    · exact mild_spaced [p.top, p.right, p.bottom, p.left]

theorem mild_radius (r : Radius) : Mild (radius r) := by
  cases r with
  | uniform r => exact mild_px r
  | corners c => exact mild_spaced [c.topLeft, c.topRight, c.bottomRight, c.bottomLeft]
  | full => decide

theorem mild_shadow (s : Shadow) : Mild (shadow s) := by
  rw [shadow, mild_append]
  refine ⟨by split <;> decide, ?_⟩
  apply mild_intercalate (by decide)
  simp only [List.forall_mem_cons, mild_px, mild_color]
  exact ⟨trivial, trivial, trivial, trivial, trivial, List.forall_mem_nil _⟩

theorem mild_letterSpacing (s : LetterSpacing) : Mild (letterSpacing s) := by
  unfold letterSpacing
  split
  · exact mild_px _
  · rw [mild_append]
    exact ⟨mild_text _, by decide⟩

theorem mild_lineHeight {l : LineHeight} {v : String} (h : v ∈ lineHeight? l) : Mild v := by
  cases l with
  | auto => cases h
  | pixels value =>
    obtain rfl := Option.some.inj h
    exact mild_px value
  | percent value =>
    obtain rfl := Option.some.inj h
    rw [mild_append]
    exact ⟨mild_text value, by decide⟩

theorem mild_placeholderUrl (width height : Float) : Mild (placeholderUrl width height) := by
  intro c hc
  rcases Markup.Layers.mem_placeholderUrl hc with h | rfl | rfl
  · exact isStyleChar_of_isNumberChar h
  · decide
  · decide

theorem values_mild_extent {key : String} (primary : Bool) (e : Extent) : Values Mild (extent key primary e) := by
  cases e with
  | fixed length => exact Declaration.values_single (mild_px length)
  | fill => cases primary <;> exact Declaration.values_single (by decide)
  | hug => exact Declaration.values_nil

theorem values_mild_background (fill : Fill) (width height : Float) : Values Mild (background fill width height) := by
  cases fill with
  | solid c opacity => exact Declaration.values_single (mild_color c opacity)
  | gradient g => exact Declaration.values_single (mild_gradient g)
  | image mode =>
    have hu : Mild ("url(" ++ placeholderUrl width height ++ ")") := by
      simp only [mild_append]
      exact ⟨⟨by decide, mild_placeholderUrl width height⟩, by decide⟩
    refine Declaration.values_cons_set.mpr ⟨hu, Declaration.values_cons_set.mpr ⟨?_, ?_⟩⟩
    · cases mode <;> decide
    · exact Declaration.values_single (by decide)

theorem values_mild_border (s : Stroke) : Values Mild (border s) := by
  have hv : Mild (px s.weight ++ " solid " ++ color s.color s.opacity) := by
    simp only [mild_append]
    exact ⟨⟨mild_px _, by decide⟩, mild_color _ _⟩
  have hb := Declaration.values_cons_set (k := "border").mpr
    ⟨hv, Declaration.values_single (k := "box-sizing") (v := "border-box") (by decide)⟩
  unfold border
  cases s.align with
  | outside => exact Declaration.values_single hv
  | inside => exact hb
  | center => exact hb

theorem values_mild_flow (f : Flow) : Values Mild (flow f) := by
  have hd : Mild (direction f.direction) := by cases f.direction <;> decide
  have hm : Mild (mainAlign f.main) := by cases f.main <;> decide
  have hc : Mild (crossAlign f.cross) := by cases f.cross <;> decide
  unfold flow
  simp only [Declaration.values_append]
  refine ⟨⟨⟨⟨?_, ?_⟩, ?_⟩, ?_⟩, ?_⟩
  · exact Declaration.values_cons_set.mpr ⟨by decide, Declaration.values_single hd⟩
  · exact Declaration.values_ite (fun _ => Declaration.values_single (by decide)) fun _ => Declaration.values_nil
  · exact Declaration.values_cons_set.mpr ⟨hm, Declaration.values_single hc⟩
  · exact Declaration.values_option fun gap _ => mild_px gap
  · exact Declaration.values_ite (fun _ => Declaration.values_nil) fun _ =>
      Declaration.values_cons_set.mpr ⟨mild_padding _, Declaration.values_single (by decide)⟩

theorem values_mild_textAlign (horizontal : HorizontalAlign) (vertical : VerticalAlign) :
    Values Mild (textAlign horizontal vertical) := by
  have hs (ds : List Declaration) : Values Mild ds ↔ ∀ d ∈ ds, Mild d.value := Iff.rfl
  rw [hs]
  cases horizontal <;> cases vertical <;> decide

/-- Type less its family. -/
def typographyRest (run : TextRun) : List Declaration :=
  [set "font-size" (px run.fontSize), set "font-weight" (toString run.fontWeight.toNat)] ++
  (if run.isItalic then [set "font-style" "italic"] else []) ++
  (decoration? run.decoration).toList.map (set "text-decoration") ++
  (textTransform? run.textCase).toList.map (set "text-transform") ++
  (if run.letterSpacing.value != 0 then [set "letter-spacing" (letterSpacing run.letterSpacing)]
    else []) ++
  (lineHeight? run.lineHeight).toList.map (set "line-height")

theorem typography_eq (run : TextRun) (fill : Option (Rgb × Float)) :
    typography run fill = (fill.toList.map fun (c, opacity) => set "color" (color c opacity)) ++
      set "font-family" run.fontName.family :: typographyRest run := by
  simp [typography, typographyRest]

theorem values_mild_typographyRest (run : TextRun) : Values Mild (typographyRest run) := by
  unfold typographyRest
  simp only [Declaration.values_append]
  refine ⟨⟨⟨⟨⟨?_, ?_⟩, ?_⟩, ?_⟩, ?_⟩, ?_⟩
  · exact Declaration.values_cons_set.mpr ⟨mild_px _, Declaration.values_single (mild_repr _)⟩
  · exact Declaration.values_ite (fun _ => Declaration.values_single (by decide)) fun _ => Declaration.values_nil
  · apply Declaration.values_option
    intro v hv
    cases hd : run.decoration <;> rw [hd] at hv <;> cases hv <;> decide
  · apply Declaration.values_option
    intro v hv
    cases hd : run.textCase <;> rw [hd] at hv <;> cases hv <;> decide
  · exact Declaration.values_ite (fun _ => Declaration.values_single (mild_letterSpacing _)) fun _ =>
      Declaration.values_nil
  · exact Declaration.values_option fun v hv => mild_lineHeight hv

theorem values_mild_declarations {a : Aspect} (h : ∀ run fill, a ≠ .typography run fill) :
    Values Mild (declarations a) := by
  cases a with
  | size s => exact Declaration.values_append.mpr ⟨values_mild_extent _ _, values_mild_extent _ _⟩
  | position x y =>
    exact Declaration.values_cons_set.mpr ⟨by decide,
      Declaration.values_cons_set.mpr ⟨mild_px x, Declaration.values_single (mild_px y)⟩⟩
  | blend opacity rotation =>
    have ht : Mild ("rotate(" ++ text (-rotation) ++ "deg)") := by
      simp only [mild_append]
      exact ⟨⟨by decide, mild_text _⟩, by decide⟩
    refine Declaration.values_append.mpr ⟨?_, ?_⟩
    · exact Declaration.values_ite (fun _ => Declaration.values_single (mild_text _)) fun _ => Declaration.values_nil
    · exact Declaration.values_ite (fun _ => Declaration.values_cons_set.mpr
        ⟨ht, Declaration.values_single (by decide)⟩) fun _ => Declaration.values_nil
  | background fill width height => exact values_mild_background fill width height
  | border s => exact values_mild_border s
  | radius r width height => exact Declaration.values_single (mild_radius r)
  | shadows ss =>
    apply Declaration.values_single
    apply mild_intercalate (by decide)
    intro v hv
    obtain ⟨s, -, rfl⟩ := List.mem_map.mp hv
    exact mild_shadow s
  | blur b =>
    have hb (r : Float) : Mild ("blur(" ++ px r ++ ")") := by
      simp only [mild_append]
      exact ⟨⟨by decide, mild_px r⟩, by decide⟩
    exact Declaration.values_append.mpr
      ⟨Declaration.values_option fun r _ => hb r, Declaration.values_option fun r _ => hb r⟩
  | clip => exact Declaration.values_single (by decide)
  | flow f => exact values_mild_flow f
  | origin => exact List.forall_mem_singleton.mpr (by decide)
  | typography run fill => exact absurd rfl (h run fill)
  | textAlign horizontal vertical => exact values_mild_textAlign horizontal vertical

/-- Only a font family is written in characters of its own. -/
theorem mild_or_family {a : Aspect} {d : Declaration} (h : d ∈ declarations a) :
    Mild d.value ∨ ∃ run fill, a = .typography run fill ∧ d.value = run.fontName.family := by
  by_cases ht : ∃ run fill, a = .typography run fill
  · obtain ⟨run, fill, rfl⟩ := ht
    have hd : d ∈ typography run fill := h
    rw [typography_eq, List.mem_append, List.mem_cons] at hd
    rcases hd with hd | rfl | hd
    · obtain ⟨c, -, rfl⟩ := List.mem_map.mp hd
      exact .inl (mild_color c.1 c.2)
    · exact .inr ⟨run, fill, rfl, rfl⟩
    · exact .inl (values_mild_typographyRest run d hd)
  · simp only [not_exists] at ht
    exact .inl (values_mild_declarations ht d h)

theorem within_typographyRest (run : TextRun) : Declaration.Within ["font-size", "font-weight", "font-style",
    "text-decoration", "text-transform", "letter-spacing", "line-height"] (typographyRest run) := by
  simp [typographyRest]

/-- The family of a run is the only value of its key. -/
theorem value_of_family {a : Aspect} {d : Declaration} (h : d ∈ declarations a) (hk : d.key = "font-family") :
    ∃ run fill, a = .typography run fill ∧ d.value = run.fontName.family := by
  have hm : "font-family" ∈ keysOf a := hk ▸ (Target.html false).key_mem_keysOf a h
  cases a with
  | typography run fill =>
    refine ⟨run, fill, rfl, ?_⟩
    have hd : d ∈ typography run fill := h
    rw [typography_eq, List.mem_append, List.mem_cons] at hd
    rcases hd with hd | rfl | hd
    · obtain ⟨c, -, rfl⟩ := List.mem_map.mp hd
      exact absurd hk (by simp [Declaration.set])
    · rfl
    · have hr := (within_typographyRest run d hd).1
      rw [hk] at hr
      exact absurd hr (by simp)
  | _ => simp [keysOf] at hm

theorem family_mem (run : TextRun) (fill : Option (Rgb × Float)) :
    "font-family" ∈ (declarations (.typography run fill)).map (·.key) := by
  have hd : set "font-family" run.fontName.family ∈ declarations (.typography run fill) := by
    show _ ∈ typography run fill
    rw [typography_eq]
    exact List.mem_append_right _ List.mem_cons_self
  exact List.mem_map_of_mem (f := (·.key)) hd

end SceneCode.Html
