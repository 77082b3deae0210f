import SceneCode.Proofs.Layers.Tags

namespace SceneCode.Tailwind
open Declaration (set Values)
open Markup.Layers
open Text (indentBy)

theorem ended_pixels (x : Float) : Ended (pixels x) :=
  .append_ofList _ (by decide)

theorem ended_lookUp {table : List (Float × String)}
    (ht : ∀ entry ∈ table, ∀ c ∈ entry.2.toList, Number.isNumberChar c = true) {x : Float} {snap : Bool} {v : String}
    (h : lookUp table x snap = some v) : Ended v := by
  obtain ⟨entry, hm, rfl⟩ := exists_of_lookUp h
  exact .of_numberChars (ht entry hm)

theorem ended_spacing (o : Options) {utility : String} (h : Ended utility) (x : Float) : Ended (spacing o utility x) := by
  unfold spacing
  split
  · rename_i step hs
    have hm : Ended (if x < 0 then "-" else "") := by split <;> exact .ofList (by decide)
    exact .append (.append (hm.append h) (.ofList (by decide))) (ended_lookUp numberChars_spacingScale hs)
  · exact .append (h.append (.ofList (by decide))) (ended_pixels x)

theorem ended_palette {name : String} (h : name ∈ Palette.entries.map Prod.fst) : Ended name := by
  obtain ⟨entry, he, rfl⟩ := List.mem_map.mp h
  exact .of_numberChars (numberChars_palette entry he)

theorem ended_color (o : Options) (c : Rgb) (alpha : Float) : Ended (color o c alpha) := by
  have ho : Ended (opacity alpha) := by
    unfold opacity
    split
    · exact .ofList (by decide)
    · exact .append (.ofList (by decide)) (.repr_int _)
  refine .append ?_ ho
  split
  · rw [Option.getD_some]
    exact ended_palette (nearest_mem c)
  · cases h : Palette.written? c with
    | none => exact .append_ofList _ (by decide)
    | some name =>
      obtain ⟨entry, he, rfl⟩ := Option.map_eq_some_iff.mp h
      exact ended_palette (List.mem_map_of_mem (List.mem_of_find?_eq_some he))

theorem ended_fontFamily (family : String) : Ended (fontFamily family) :=
  .append_ofList _ (by decide)

theorem ended_gradient (o : Options) (g : LinearGradient) : Ended (gradient o g) := by
  have hs : ∀ i < 8, Ended (sides.getD i "") := by decide
  have hc {direction : String} (hn : direction ≠ "") (hd : Ended direction) (s : ColorStop) :
      direction ++ stop o g s ≠ "" ∧ Ended (direction ++ stop o g s) :=
    ⟨nonempty_append_left hn _, hd.append (ended_color _ _ _)⟩
  refine .intercalate _ fun v hv => ?_
  rcases List.mem_cons.mp hv with rfl | hv
  · exact ⟨nonempty_append_left (by decide) _, .append (.ofList (by decide)) (hs _ (Nat.mod_lt _ (by decide)))⟩
  · unfold stops at hv
    split at hv <;> simp only [List.mem_cons, List.not_mem_nil, or_false] at hv
    · subst hv
      exact hc (by decide) (.ofList (by decide)) _
    · rcases hv with rfl | rfl <;> exact hc (by decide) (.ofList (by decide)) _
    · rcases hv with rfl | rfl | rfl <;> exact hc (by decide) (.ofList (by decide)) _

theorem ended_padding (o : Options) (p : Padding) : Ended (padding o p) := by
  unfold padding
  split
  · exact ended_spacing o (.ofList (by decide)) _
  · split
    · exact .append_right _ ⟨spacing_ne_empty _ _ _, ended_spacing o (.ofList (by decide)) _⟩
    · refine .intercalate _ fun v hv => ?_
      obtain ⟨⟨utility, x⟩, hm, rfl⟩ := List.mem_map.mp hv
      have hu : ∀ utility ∈ ["pt", "pr", "pb", "pl"], Ended utility := by decide
      have hs : (utility, x) ∈ [("pt", p.top), ("pr", p.right), ("pb", p.bottom), ("pl", p.left)] :=
        (List.mem_filter.mp hm).1
      exact ⟨spacing_ne_empty _ _ _, ended_spacing o (hu utility (List.mem_map_of_mem (f := Prod.fst) hs)) x⟩

theorem ended_radius (o : Options) (r : Radius) : Ended (radius o r) := by
  have hp (x : Float) : pixels x ≠ "" := by simp [pixels]
  cases r with
  | full => exact (.ofList (by decide) : Ended "rounded-full")
  | uniform r =>
    rw [radius]
    cases h : lookUp radii r o.roundValues with
    | none => exact .append (.ofList (by decide)) (ended_pixels r)
    | some v => exact ended_lookUp numberChars_radii h
  | corners c =>
    refine .intercalate _ fun v hv => ?_
    obtain ⟨⟨corner, r⟩, -, rfl⟩ := List.mem_map.mp hv
    exact ⟨by simp, .append_right _ ⟨hp r, ended_pixels r⟩⟩

theorem ended_background (o : Options) (fill : Fill) (width height : Float) : Ended (background o fill width height) := by
  cases fill with
  | solid c alpha => exact .append (.ofList (by decide)) (ended_color _ _ _)
  | gradient g => exact ended_gradient o g
  | image mode => exact .append_ofList _ (by decide)

theorem ended_border (o : Options) (s : Stroke) : Ended (border o s).value :=
  .append (.append_ofList _ (by decide)) (ended_color _ _ _)

theorem ended_fontSize (o : Options) (size : Float) : Ended (fontSize o size) := by
  refine .append (.ofList (by decide)) ?_
  cases h : lookUp fontSizes size o.roundValues with
  | none => exact ended_pixels size
  | some v => exact ended_lookUp numberChars_fontSizes h

theorem ended_fontWeight (weight : UInt16) : Ended (fontWeight weight) := by
  unfold fontWeight
  split
  case h_10 => exact .append_ofList _ (by decide)
  all_goals exact .ofList (by decide)

theorem ended_letterSpacing (s : LetterSpacing) : Ended (letterSpacing s) := by
  unfold letterSpacing
  refine .append (.ofList (by decide)) ?_
  split
  · exact ended_pixels _
  · exact .append_ofList _ (by decide)

theorem ended_lineHeight {l : LineHeight} {v : String} (h : v ∈ lineHeight? l) : Ended v := by
  cases l with
  | auto => cases h
  | pixels value =>
    obtain rfl := Option.some.inj h
    exact .append (.ofList (by decide)) (ended_pixels value)
  | percent value =>
    obtain rfl := Option.some.inj h
    exact .append_ofList _ (by decide)

theorem ended_blendOpacity (x : Float) : Ended (blendOpacity x) := by
  unfold blendOpacity
  dsimp only
  split
  · exact .append (.ofList (by decide)) (.repr_int _)
  · exact .append_ofList _ (by decide)

theorem values_extent (o : Options) {key utility : String} (h : Ended utility) (primary : Bool) (e : Extent) :
    Values Ended (extent o key utility primary e) := by
  cases e with
  | fixed length => exact Declaration.values_single (ended_spacing o h length)
  | fill => cases primary <;> exact Declaration.values_single (.ofList (by decide))
  | hug => exact Declaration.values_nil

theorem values_flow (o : Options) (f : Flow) : Values Ended (flow o f) := by
  have hm : Ended (mainAlign f.main) := by cases f.main <;> exact .ofList (by decide)
  have hc : Ended (crossAlign f.cross) := by cases f.cross <;> exact .ofList (by decide)
  unfold flow
  simp only [Declaration.values_append]
  refine ⟨⟨⟨⟨⟨?_, ?_⟩, ?_⟩, ?_⟩, ?_⟩, ?_⟩
  · exact Declaration.values_single (.ofList (by decide))
  · exact Declaration.values_ite (fun _ => Declaration.values_single (.ofList (by decide))) fun _ => Declaration.values_nil
  · exact Declaration.values_ite (fun _ => Declaration.values_single (.ofList (by decide))) fun _ => Declaration.values_nil
  · exact Declaration.values_cons_set.mpr ⟨hm, Declaration.values_single hc⟩
  · exact Declaration.values_option fun gap _ => ended_spacing o (.ofList (by decide)) gap
  · exact Declaration.values_ite (fun _ => Declaration.values_nil) fun _ =>
      Declaration.values_single (ended_padding o f.padding)

theorem values_typography (o : Options) (run : TextRun) (fill : Option (Rgb × Float)) :
    Values Ended (typography o run fill) := by
  unfold typography
  simp only [Declaration.values_append]
  refine ⟨⟨⟨⟨⟨⟨?_, ?_⟩, ?_⟩, ?_⟩, ?_⟩, ?_⟩, ?_⟩
  · exact Declaration.values_option fun c _ => .append (.ofList (by decide)) (ended_color o c.1 c.2)
  · simp only [Declaration.values_cons_set]
    exact ⟨ended_fontFamily _, ended_fontSize o _, ended_fontWeight _, Declaration.values_nil⟩
  · exact Declaration.values_ite (fun _ => Declaration.values_single (.ofList (by decide))) fun _ => Declaration.values_nil
  · exact Declaration.values_option fun v hv => by
      cases hd : run.decoration <;> rw [hd] at hv <;> cases hv <;> exact .ofList (by decide)
  · exact Declaration.values_option fun v hv => by
      cases hd : run.textCase <;> rw [hd] at hv <;> cases hv <;> exact .ofList (by decide)
  · exact Declaration.values_ite (fun _ => Declaration.values_single (ended_letterSpacing _)) fun _ =>
      Declaration.values_nil
  · exact Declaration.values_option fun v hv => ended_lineHeight hv

theorem values_textAlign (horizontal : HorizontalAlign) (vertical : VerticalAlign) :
    Values Ended (textAlign horizontal vertical) := by
  have hs (ds : List Declaration) : Values Ended ds ↔ ∀ d ∈ ds, Ended d.value := Iff.rfl
  rw [hs]
  cases horizontal <;> cases vertical <;> decide

theorem values_declarations (o : Options) (a : Aspect) : Values Ended (declarations o a) := by
  cases a with
  | size s =>
    exact Declaration.values_append.mpr
      ⟨values_extent o (.ofList (by decide)) _ _, values_extent o (.ofList (by decide)) _ _⟩
  | position x y =>
    exact Declaration.values_cons_set.mpr ⟨.ofList (by decide),
      Declaration.values_cons_set.mpr ⟨ended_spacing o (.ofList (by decide)) x,
        Declaration.values_single (ended_spacing o (.ofList (by decide)) y)⟩⟩
  | blend opacity rotation =>
    refine Declaration.values_append.mpr ⟨?_, ?_⟩
    · exact Declaration.values_ite (fun _ => Declaration.values_single (ended_blendOpacity _)) fun _ =>
        Declaration.values_nil
    · exact Declaration.values_ite (fun _ => Declaration.values_cons_set.mpr
        ⟨.append_ofList _ (by decide), Declaration.values_single (.ofList (by decide))⟩) fun _ => Declaration.values_nil
  | background fill width height => exact Declaration.values_single (ended_background o fill width height)
  | border s => exact List.forall_mem_singleton.mpr (ended_border o s)
  | radius r width height => exact Declaration.values_single (ended_radius o r)
  | shadows ss => exact Declaration.values_single (.append_ofList _ (by decide))
  | blur b =>
    refine Declaration.values_append.mpr ⟨?_, ?_⟩
    · exact Declaration.values_option fun r _ => .append (.ofList (by decide)) (ended_pixels r)
    · exact Declaration.values_option fun r _ => .append (.ofList (by decide)) (ended_pixels r)
  | clip => exact Declaration.values_single (.ofList (by decide))
  | flow f => exact values_flow o f
  | origin => exact List.forall_mem_singleton.mpr (.ofList (by decide))
  | typography run fill => exact values_typography o run fill
  | textAlign horizontal vertical => exact values_textAlign horizontal vertical

theorem oneWord_append {xs ys : List Char} (h : OneWord xs) (h' : OneWord ys) : OneWord (xs ++ ys) := by
  intro front rest he
  rcases List.append_eq_append_iff.mp he with ⟨as, rfl, hy⟩ | ⟨bs, rfl, hy⟩
  · obtain ⟨c, hc, hb⟩ := h' as rest hy
    exact ⟨c, by rw [List.getLast?_append, hc]; rfl, hb⟩
  · cases bs with
    | nil =>
      obtain ⟨c, hc, -⟩ := h' [] rest hy.symm
      cases hc
    | cons b bs =>
      obtain rfl : ' ' = b := (List.cons.inj hy).1
      exact h front bs rfl

theorem oneWord_break (n : Nat) : OneWord ('\n' :: List.replicate n ' ') := by
  intro front rest he
  have hn : front ≠ [] := by
    rintro rfl
    exact absurd (List.cons.inj he).1 (by decide)
  have hl := List.getLast_mem hn
  refine ⟨front.getLast hn, List.getLast?_eq_some_getLast hn, ?_⟩
  have hm : front.getLast hn ∈ '\n' :: List.replicate n ' ' := he ▸ List.mem_append_left _ hl
  rcases List.mem_cons.mp hm with hb | hb
  · rw [hb]
    decide
  · rw [List.eq_of_mem_replicate hb]
    decide

/-- Spaces that an indentation puts into a word stand behind its line breaks. -/
theorem oneWord_indentBy {cs : List Char} (h : ' ' ∉ cs) (depth : Nat) : OneWord (indentBy depth cs) := by
  induction cs with
  | nil => exact .of_not_mem nofun
  | cons c cs ih =>
    simp only [List.mem_cons, not_or] at h
    by_cases hc : c = '\n'
    · subst hc
      rw [Text.indentBy_break]
      exact oneWord_append (oneWord_break _) (ih h.2)
    · have hs : OneWord [c] := .of_not_mem (by simpa using h.1)
      rw [Text.indentBy_cons depth hc]
      exact oneWord_append hs (ih h.2)

/-- One word, which does not start as a layer attribute does. -/
structure Token (cs : List Char) : Prop where
  oneWord : ' ' ∉ cs
  start : '"' ∉ cs ∨ cs.head? ≠ some 'd'

theorem head?_indentBy (depth : Nat) (cs : List Char) : (indentBy depth cs).head? = cs.head? := by
  cases cs with
  | nil => rfl
  | cons c cs =>
    by_cases hc : c = '\n'
    · subst hc
      rw [Text.indentBy_break]
      rfl
    · rw [Text.indentBy_cons depth hc]
      rfl

theorem Token.not_layerWord {cs : List Char} (h : Token cs) (depth : Nat) : ¬ layerWord <+: indentBy depth cs := by
  rintro ⟨rest, he⟩
  rcases h.start with hq | hd
  · have hm : '"' ∈ indentBy depth cs := he ▸ List.mem_append_left _ (by decide)
    exact hq ((Text.mem_indentBy (by decide)).mp hm)
  · rw [← head?_indentBy depth, ← he] at hd
    exact hd rfl

theorem Token.still {cs : List Char} (h : Token cs) (depth : Nat) : Still false (' ' :: indentBy depth cs) :=
  still_word (oneWord_indentBy h.oneWord depth) (h.not_layerWord depth) nofun

theorem token_of_isClass {w : List Char} (h : ClassPrefix.IsClass w) : Token w :=
  ⟨fun hm => absurd (h.1.2 ' ' hm) (by decide), .inl h.2⟩

theorem token_fontFamily (family : String) : Token (fontFamily family).toList := by
  refine ⟨space_not_mem_fontFamily family, .inr ?_⟩
  rw [toList_fontFamily]
  exact fun hc => absurd (Option.some.inj hc) (by decide)

/-- A font family is the only word that may have quotes. -/
theorem token_of_mem {s : Styles} (h : Sound s ∨ ∃ family, Typed family s) : ∀ w ∈ classesOf s, Token w := by
  rcases h with h | ⟨family, us, ws, he, hu, -, hw⟩
  · exact fun w hm => token_of_isClass (h w hm)
  · rw [he]
    refine List.forall_mem_append.mpr ⟨fun w hm => token_of_isClass (hu w hm), ?_⟩
    exact List.forall_mem_cons.mpr ⟨token_fontFamily family, fun w hm => token_of_isClass (hw w hm)⟩

/-- Words with a space in front of each. -/
theorem still_tokens {ws : List (List Char)} (h : ∀ w ∈ ws, Token w) (depth : Nat) :
    Still false (ws.flatMap fun w => ' ' :: indentBy depth w) := by
  induction ws with
  | nil => exact Erases.nil
  | cons w ws ih =>
    rw [List.forall_mem_cons] at h
    exact (h.1.still depth).append (ih h.2)

theorem indentBy_join (depth : Nat) (front w : List Char) (ws : List (List Char)) :
    ' ' :: indentBy depth (front ++ Text.join [' '] (w :: ws)) =
      ((front ++ w) :: ws).flatMap fun w => ' ' :: indentBy depth w := by
  induction ws generalizing front w with
  | nil => simp [Text.join]
  | cons v ws ih =>
    have hs : indentBy depth [' '] = [' '] := Text.indentBy_of_not_mem depth (by decide)
    have hi := ih [] v
    rw [List.nil_append, List.nil_append] at hi
    rw [ClassPrefix.join_cons [' '] w (List.cons_ne_nil v ws), ← List.append_assoc, Text.indentBy_append depth (front ++ w),
      Text.indentBy_append depth [' '], hs, List.singleton_append, hi]
    rfl

theorem getLast?_valueOf {s : Styles} (h : ∀ e ∈ s.entries, Ended e.2) : (valueOf s).getLast? ≠ some '=' := by
  have he : Ended (" ".intercalate ((s.entries.map (·.2)).filter (!·.isEmpty))) := .intercalate _ fun v hv => by
    obtain ⟨hm, hn⟩ := List.mem_filter.mp hv
    obtain ⟨e, he, rfl⟩ := List.mem_map.mp hm
    exact ⟨by simpa using hn, h e he⟩
  rw [valueOf, classesOf, join_wordsOf]
  exact he.getLast?_ne

theorem quiet_classes (jsx : Bool) {s : Styles} (ht : ∀ w ∈ classesOf s, Token w) (he : ∀ e ∈ s.entries, Ended e.2) :
    Quiet false (attributes jsx s) := by
  rw [attributes_eq]
  cases hc : classesOf s with
  | nil => exact .empty
  | cons w ws =>
    rw [hc, List.forall_mem_cons] at ht
    obtain ⟨key, hk⟩ : ∃ key : String, key = (if jsx then "className" else "class") ++ "=\"" := ⟨_, rfl⟩
    obtain ⟨hks, hkc, hkq⟩ : ' ' ∉ key.toList ∧ key.toList.head? = some 'c' ∧ key.toList.getLast? ≠ some '=' := by
      rw [hk]
      cases jsx <;> decide
    have ha : (if (w :: ws).isEmpty then "" else
        (if jsx then "className" else "class") ++ "=\"" ++ String.ofList (valueOf s) ++ "\"") =
          key ++ String.ofList (valueOf s) ++ "\"" := by
      rw [hk]
      rfl
    -- The key and the first class are one word.
    have hw : ∀ v ∈ (key.toList ++ w) :: ws, Token v := by
      refine List.forall_mem_cons.mpr ⟨⟨?_, .inr ?_⟩, ht.2⟩
      · rw [List.mem_append, not_or]
        exact ⟨hks, ht.1.oneWord⟩
      · rw [List.head?_append, hkc]
        exact fun hx => absurd (Option.some.inj hx) (by decide)
    have hv : valueOf s = Text.join [' '] (w :: ws) := by rw [valueOf, hc]
    rw [ha]
    refine .quoted fun depth => ?_
    rw [String.toList_append, String.toList_ofList]
    refine Still.closed ?_ (getLast?_indentBy_ne (Text.getLast?_append_ne hkq (getLast?_valueOf he)) depth)
    rw [hv, indentBy_join]
    exact still_tokens hw depth

theorem quiet_attributes (jsx : Bool) (o : Options) (ps : List (Piece Float)) :
    ∀ s ∈ Element.stylesInAll ((Target.tailwind jsx o).elements ps), Quiet false (attributes jsx s) := by
  intro s hs
  have ht : Sound s ∨ ∃ family, Typed family s :=
    ((Target.typedBy_elements jsx o ps).1 s hs).imp_right fun ⟨run, _, ht⟩ => ⟨run.fontName.family, ht⟩
  exact quiet_classes jsx (token_of_mem ht) (Target.values_styles (values_declarations o) ps s hs)

end SceneCode.Tailwind
