import SceneCode.Proofs.Layers.Tags
import SceneCode.Proofs.Target.Keys
import SceneCode.Proofs.Text.Words

/-! Inline styles hide no layer attribute. Font families are the only values that end as they like, and a font family is
never the last style of an element. -/
namespace SceneCode.Html
open Declaration (set)
open Markup.Layers
open Number (text)

theorem ended_px (x : Float) : px x ≠ "" ∧ Ended (px x) :=
  ⟨by simp [px], .append_ofList _ (by decide)⟩

theorem ended_hex (c : Rgb) : Ended c.hex := by
  have hb : Ended c.hex6 := .of_forall fun _ hd => isEnd_of_isNumberChar (Number.isNumberChar_of_mem_hex6 hd)
  exact .append (.ofList (by decide)) hb

theorem ended_color (c : Rgb) (opacity : Float) : color c opacity ≠ "" ∧ Ended (color c opacity) := by
  unfold color
  split
  · exact ⟨by simp [Rgb.hex], ended_hex c⟩
  · exact ⟨by simp, .append_ofList _ (by decide)⟩

theorem ended_padding (p : Padding) : Ended (padding p) := by
  unfold padding
  split
  · exact (ended_px _).2
  · split
    · exact .append_right _ (ended_px _)
    · refine .intercalate _ ?_
      simp only [List.forall_mem_cons]
      exact ⟨ended_px _, ended_px _, ended_px _, ended_px _, nofun⟩

theorem ended_radius (r : Radius) : Ended (radius r) := by
  cases r with
  | uniform r => exact (ended_px r).2
  | corners c =>
    have hv : ∀ v ∈ [px c.topLeft, px c.topRight, px c.bottomRight, px c.bottomLeft], v ≠ "" ∧ Ended v := by
      simp only [List.forall_mem_cons]
      exact ⟨ended_px _, ended_px _, ended_px _, ended_px _, nofun⟩
    rw [radius]
    exact .intercalate _ hv
  | full => exact .ofList (by decide)

theorem ended_shadow (s : Shadow) : shadow s ≠ "" ∧ Ended (shadow s) := by
  have hv : ∀ v ∈ [px s.x, px s.y, px s.blur, px s.spread, color s.color s.opacity], v ≠ "" ∧ Ended v := by
    simp only [List.forall_mem_cons]
    exact ⟨ended_px _, ended_px _, ended_px _, ended_px _, ended_color _ _, nofun⟩
  have hn : " ".intercalate [px s.x, px s.y, px s.blur, px s.spread, color s.color s.opacity] ≠ "" := by
    rw [String.intercalate_cons_of_ne_nil (List.cons_ne_nil _ _)]
    simp
  unfold shadow
  exact ⟨fun he => hn (String.append_eq_empty_iff.mp he).2, .append_right _ ⟨hn, .intercalate _ hv⟩⟩

theorem ended_letterSpacing (s : LetterSpacing) : Ended (letterSpacing s) := by
  unfold letterSpacing
  split
  · exact (ended_px _).2
  · exact .append_ofList _ (by decide)

/-- Every value but those of font families. -/
def Ending (ds : List Declaration) : Prop :=
  ∀ d ∈ ds, d.key ≠ "font-family" → Ended d.value

theorem ending_of_values {ds : List Declaration} (h : Declaration.Values Ended ds) : Ending ds :=
  fun d hd _ => h d hd

theorem values_extent {key : String} (primary : Bool) (e : Extent) : Declaration.Values Ended (extent key primary e) := by
  cases e with
  | fixed length => exact Declaration.values_single (ended_px length).2
  | fill => cases primary <;> exact Declaration.values_single (.ofList (by decide))
  | hug => exact Declaration.values_nil

theorem values_background (fill : Fill) (width height : Float) :
    Declaration.Values Ended (background fill width height) := by
  cases fill with
  | solid c opacity => exact Declaration.values_single (ended_color c opacity).2
  | gradient g => exact Declaration.values_single (.append_ofList _ (by decide))
  | image mode =>
    refine Declaration.values_cons_set.mpr ⟨.append_ofList _ (by decide), ?_⟩
    refine Declaration.values_cons_set.mpr ⟨by cases mode <;> exact .ofList (by decide),
      Declaration.values_single (.ofList (by decide))⟩

theorem values_border (s : Stroke) : Declaration.Values Ended (border s) := by
  have hv : Ended (px s.weight ++ " solid " ++ color s.color s.opacity) :=
    .append_right _ (ended_color _ _)
  unfold border
  dsimp only
  have hb : Declaration.Values Ended
      [set "border" (px s.weight ++ " solid " ++ color s.color s.opacity), set "box-sizing" "border-box"] :=
    Declaration.values_cons_set.mpr ⟨hv, Declaration.values_single (.ofList (by decide))⟩
  cases s.align with
  | outside => exact Declaration.values_single hv
  | inside => exact hb
  | center => exact hb

theorem values_flow (f : Flow) : Declaration.Values Ended (flow f) := by
  have hd : Ended (direction f.direction) := by cases f.direction <;> exact .ofList (by decide)
  have hm : Ended (mainAlign f.main) := by cases f.main <;> exact .ofList (by decide)
  have hc : Ended (crossAlign f.cross) := by cases f.cross <;> exact .ofList (by decide)
  unfold flow
  simp only [Declaration.values_append]
  refine ⟨⟨⟨⟨?_, ?_⟩, ?_⟩, ?_⟩, ?_⟩
  · exact Declaration.values_cons_set.mpr ⟨.ofList (by decide), Declaration.values_single hd⟩
  · exact Declaration.values_ite (fun _ => Declaration.values_single (.ofList (by decide))) fun _ => Declaration.values_nil
  · exact Declaration.values_cons_set.mpr ⟨hm, Declaration.values_single hc⟩
  · exact Declaration.values_option fun gap _ => (ended_px gap).2
  · exact Declaration.values_ite (fun _ => Declaration.values_nil) fun _ =>
      Declaration.values_cons_set.mpr ⟨ended_padding _, Declaration.values_single (.ofList (by decide))⟩

theorem values_textAlign (horizontal : HorizontalAlign) (vertical : VerticalAlign) :
    Declaration.Values Ended (textAlign horizontal vertical) := by
  have hs (ds : List Declaration) : Declaration.Values Ended ds ↔ ∀ d ∈ ds, Ended d.value := Iff.rfl
  rw [hs]
  cases horizontal <;> cases vertical <;> decide

theorem ended_lineHeight {l : LineHeight} {v : String} (h : v ∈ lineHeight? l) : Ended v := by
  cases l with
  | auto => cases h
  | pixels value =>
    obtain rfl := Option.some.inj h
    exact (ended_px value).2
  | percent value =>
    obtain rfl := Option.some.inj h
    exact .append_ofList _ (by decide)

theorem ending_typography (run : TextRun) (fill : Option (Rgb × Float)) : Ending (typography run fill) := by
  have hw : Declaration.Values Ended [set "font-size" (px run.fontSize), set "font-weight" (toString run.fontWeight.toNat)] :=
    Declaration.values_cons_set.mpr ⟨(ended_px _).2, Declaration.values_single (.repr_nat _)⟩
  unfold typography Ending
  simp only [List.forall_mem_append]
  refine ⟨⟨⟨⟨⟨⟨?_, ?_⟩, ?_⟩, ?_⟩, ?_⟩, ?_⟩, ?_⟩
  · exact ending_of_values (Declaration.values_option fun c _ => (ended_color c.1 c.2).2)
  · exact List.forall_mem_cons.mpr ⟨fun hk => absurd rfl hk, ending_of_values hw⟩
  · exact ending_of_values
      (Declaration.values_ite (fun _ => Declaration.values_single (.ofList (by decide))) fun _ => Declaration.values_nil)
  · exact ending_of_values (Declaration.values_option fun v hv => by
      cases hd : run.decoration <;> rw [hd] at hv <;> cases hv <;> exact .ofList (by decide))
  · exact ending_of_values (Declaration.values_option fun v hv => by
      cases hd : run.textCase <;> rw [hd] at hv <;> cases hv <;> exact .ofList (by decide))
  · exact ending_of_values
      (Declaration.values_ite (fun _ => Declaration.values_single (ended_letterSpacing _)) fun _ => Declaration.values_nil)
  · exact ending_of_values (Declaration.values_option fun v hv => ended_lineHeight hv)

theorem ending_declarations (a : Aspect) : Ending (declarations a) := by
  cases a with
  | size s => exact ending_of_values (Declaration.values_append.mpr ⟨values_extent _ _, values_extent _ _⟩)
  | position x y =>
    exact ending_of_values (Declaration.values_cons_set.mpr ⟨.ofList (by decide),
      Declaration.values_cons_set.mpr ⟨(ended_px x).2, Declaration.values_single (ended_px y).2⟩⟩)
  | blend opacity rotation =>
    refine ending_of_values (Declaration.values_append.mpr ⟨?_, ?_⟩)
    · exact Declaration.values_ite (fun _ => Declaration.values_single (.text _)) fun _ => Declaration.values_nil
    · exact Declaration.values_ite (fun _ => Declaration.values_cons_set.mpr
        ⟨.append_ofList _ (by decide), Declaration.values_single (.ofList (by decide))⟩) fun _ => Declaration.values_nil
  | background fill width height => exact ending_of_values (values_background fill width height)
  | border s => exact ending_of_values (values_border s)
  | radius r width height => exact ending_of_values (Declaration.values_single (ended_radius r))
  | shadows ss =>
    refine ending_of_values (Declaration.values_single (.intercalate _ fun v hv => ?_))
    obtain ⟨s, -, rfl⟩ := List.mem_map.mp hv
    exact ended_shadow s
  | blur b =>
    refine ending_of_values (Declaration.values_append.mpr ⟨?_, ?_⟩)
    · exact Declaration.values_option fun r _ => .append_ofList _ (by decide)
    · exact Declaration.values_option fun r _ => .append_ofList _ (by decide)
  | clip => exact ending_of_values (Declaration.values_single (.ofList (by decide)))
  | flow f => exact ending_of_values (values_flow f)
  | origin => exact ending_of_values (List.forall_mem_singleton.mpr (.ofList (by decide)))
  | typography run fill => exact ending_typography run fill
  | textAlign horizontal vertical => exact ending_of_values (values_textAlign horizontal vertical)

/-- A key goes behind those that are there. -/
def addKey (keys : List String) (key : String) : List String :=
  if key ∈ keys then keys else keys ++ [key]

theorem keys_insertEntry (key value : String) (entries : List (String × String)) :
    (Styles.insertEntry key value entries).map Prod.fst = addKey (entries.map Prod.fst) key :=
  Styles.keys_insertEntry key value entries

theorem keys_declare (s : Styles) (d : Declaration) :
    (s.declare d).entries.map Prod.fst = addKey (s.entries.map Prod.fst) d.key := by
  unfold Styles.declare
  split
  · rename_i h
    simp only [Bool.and_eq_true] at h
    obtain ⟨v, hv⟩ := Styles.contains_iff.mp h.2
    have hm : d.key ∈ s.entries.map Prod.fst := List.mem_map_of_mem (Styles.mem_entries_of_get? hv)
    rw [addKey, if_pos hm]
  · exact keys_insertEntry d.key d.value s.entries

theorem keys_declareAll (s : Styles) (ds : List Declaration) :
    (s.declareAll ds).entries.map Prod.fst = (ds.map (·.key)).foldl addKey (s.entries.map Prod.fst) := by
  induction ds generalizing s with
  | nil => rfl
  | cons d ds ih =>
    have hi := ih (s.declare d)
    rw [keys_declare] at hi
    exact hi

/-- A font family is not the last, and it is there if a font size is. -/
structure Closed (keys : List String) : Prop where
  last : keys.getLast? ≠ some "font-family"
  size : "font-size" ∈ keys → "font-family" ∈ keys

namespace Closed
variable {keys : List String}

theorem nil : Closed [] :=
  ⟨nofun, nofun⟩

theorem addKey (h : Closed keys) {key : String} (hf : key ≠ "font-family") (hs : key ≠ "font-size") :
    Closed (addKey keys key) := by
  unfold Html.addKey
  split
  · exact h
  · refine ⟨?_, fun hm => List.mem_append_left _ (h.size ?_)⟩
    · rw [List.getLast?_concat]
      exact fun he => hf (Option.some.inj he)
    · exact (List.mem_append.mp hm).resolve_right fun he => hs (List.mem_singleton.mp he).symm

theorem declareAll (h : Closed keys) (added : List String) (hf : "font-family" ∉ added) (hs : "font-size" ∉ added)
    {ds : List Declaration} (hd : ∀ d ∈ ds, d.key ∈ added) : Closed ((ds.map (·.key)).foldl Html.addKey keys) := by
  induction ds generalizing keys with
  | nil => exact h
  | cons d ds ih =>
    rw [List.forall_mem_cons] at hd
    exact ih (h.addKey (fun he => hf (he ▸ hd.1)) fun he => hs (he ▸ hd.1)) hd.2

/-- A font size goes behind its family. -/
theorem typeface (h : Closed keys) : Closed (Html.addKey (Html.addKey keys "font-family") "font-size") := by
  have hn : "font-size" ≠ "font-family" := by decide
  by_cases hf : "font-family" ∈ keys
  · have ha : Html.addKey keys "font-family" = keys := if_pos hf
    rw [ha]
    unfold Html.addKey
    split
    · exact h
    · refine ⟨?_, fun _ => List.mem_append_left _ hf⟩
      rw [List.getLast?_concat]
      exact fun he => hn (Option.some.inj he)
  · have hs : "font-size" ∉ keys ++ ["font-family"] := fun hm =>
      (List.mem_append.mp hm).elim (fun hm => hf (h.size hm)) fun hm => hn (List.mem_singleton.mp hm)
    have ha : Html.addKey keys "font-family" = keys ++ ["font-family"] := if_neg hf
    rw [ha, Html.addKey, if_neg hs]
    refine ⟨?_, fun _ => List.mem_append_left _ (List.mem_append_right _ (List.mem_singleton_self _))⟩
    rw [List.getLast?_concat]
    exact fun he => hn (Option.some.inj he)

end Closed

theorem closed_typography {keys : List String} (h : Closed keys) (run : TextRun) (fill : Option (Rgb × Float)) :
    Closed (((typography run fill).map (·.key)).foldl addKey keys) := by
  have hp (k : String) (hf : "font-family" ∉ [k]) (hs : "font-size" ∉ [k]) {ks : List String} {ds : List Declaration}
      (hd : Declaration.Within [k] ds) (h : Closed ks) : Closed ((ds.map (·.key)).foldl addKey ks) :=
    h.declareAll [k] hf hs fun d hm => (hd d hm).1
  simp only [typography, List.map_append, List.foldl_append]
  refine hp "line-height" (by decide) (by decide) (by simp) ?_
  refine hp "letter-spacing" (by decide) (by decide) (by simp) ?_
  refine hp "text-transform" (by decide) (by decide) (by simp) ?_
  refine hp "text-decoration" (by decide) (by decide) (by simp) ?_
  refine hp "font-style" (by decide) (by decide) (by simp) ?_
  have hw : "font-weight" ≠ "font-family" ∧ "font-weight" ≠ "font-size" := by decide
  exact (hp "color" (by decide) (by decide) (by simp) h).typeface.addKey hw.1 hw.2

/-- Each aspect leaves the last key no font family. -/
theorem closed_aspect {s : Styles} (h : Closed (s.entries.map Prod.fst)) (a : Aspect) :
    Closed ((s.declareAll (declarations a)).entries.map Prod.fst) := by
  rw [keys_declareAll]
  have hk (hf : "font-family" ∉ keysOf a) (hs : "font-size" ∉ keysOf a) :
      Closed (((declarations a).map (·.key)).foldl addKey (s.entries.map Prod.fst)) :=
    h.declareAll _ hf hs fun d hd => (Target.html false).key_mem_keysOf a hd
  cases a with
  | typography run fill => exact closed_typography h run fill
  | _ => exact hk (by simp [keysOf]) (by simp [keysOf])

theorem closed_styles (jsx : Bool) (aspects : List Aspect) :
    Closed (((Target.html jsx).styles aspects).entries.map Prod.fst) := by
  induction aspects using List.reverseRecOn with
  | nil => exact Closed.nil
  | append_singleton aspects a ih =>
    rw [Target.styles_append]
    exact closed_aspect ih a

def isKeyChar (c : Char) : Bool :=
  c.isLower || c = '-'

theorem isKeyChar_of_mem_ofList {cs : List Char} (h : ∀ c ∈ cs, isKeyChar c = true) :
    ∀ c ∈ (String.ofList cs).toList, isKeyChar c = true := by
  rwa [String.toList_ofList]

theorem isKeyChar_of_mem (a : Aspect) : ∀ key ∈ keysOf a, ∀ c ∈ key.toList, isKeyChar c = true := by
  cases a <;> simp only [keysOf, List.forall_mem_cons] <;>
    repeat refine ⟨isKeyChar_of_mem_ofList (by decide), ?_⟩
  all_goals exact List.forall_mem_nil _

theorem toNat_lt_of_isKeyChar {c : Char} (h : isKeyChar c = true) : c.toNat < 128 := by
  simp only [isKeyChar, Bool.or_eq_true, decide_eq_true_eq] at h
  rcases h with h | rfl
  · have hz : c.val ≤ 'z'.val := of_decide_eq_true (Bool.and_eq_true_iff.mp h).2
    exact Nat.lt_of_le_of_lt (UInt32.le_iff_toNat_le.mp hz) (by decide)
  · decide

/-- Without quotes and line breaks. -/
def Bare (cs : List Char) : Prop :=
  ∀ c ∈ cs, c ≠ '\'' ∧ c ≠ '\n'

theorem bare_cased {c : Char} (h : isKeyChar c = true) : Bare (Text.upper c ++ Text.lower c) := by
  have hs : ∀ n < 128, isKeyChar (Char.ofNat n) = true →
      ∀ d ∈ Text.upper (Char.ofNat n) ++ Text.lower (Char.ofNat n), d ≠ '\'' ∧ d ≠ '\n' := by
    decide +kernel
  have hc := hs c.toNat (toNat_lt_of_isKeyChar h)
  rw [Char.ofNat_toNat] at hc
  exact hc h

theorem bare_objectKey {a : Aspect} {key : String} (h : key ∈ keysOf a) : Bare (objectKey key).toList := by
  intro d hd
  rw [objectKey, String.toList_ofList] at hd
  rcases Text.mem_camelCase hd with rfl | ⟨c, hm, hd⟩
  · decide
  · exact bare_cased (isKeyChar_of_mem a key h c hm) d (List.mem_append.mpr hd)

/-- Keys are bare, and what is behind the last value can be told. -/
structure Shut (s : Styles) : Prop where
  keys : ∀ e ∈ s.entries, Bare (objectKey e.1).toList
  last : ∀ e ∈ s.entries.getLast?, Ended e.2

theorem shut_styles (jsx : Bool) (aspects : List Aspect) : Shut ((Target.html jsx).styles aspects) := by
  refine ⟨fun e he => ?_, fun e he => ?_⟩
  · obtain ⟨a, -, d, hd, rfl⟩ := Target.exists_of_mem_entries he
    exact bare_objectKey ((Target.html jsx).key_mem_keysOf a hd)
  · have hl := (closed_styles jsx aspects).last
    rw [List.getLast?_map, Option.mem_def.mp he] at hl
    obtain ⟨a, -, d, hd, rfl⟩ := Target.exists_of_mem_entries (List.mem_of_getLast? he)
    exact ending_declarations a d hd fun hk => hl (congrArg some hk)

theorem after_append {o o' : Object} {cs : List Char} (h : o.after cs = some o') (ds : List Char) :
    o.after (cs ++ ds) = o'.after ds := by
  have ha : o.after (cs ++ ds) = (o.after cs).bind (·.after ds) := List.foldlM_append
  rw [ha, h]
  rfl

theorem after_bare {cs : List Char} (h : '\'' ∉ cs) (c : Char) :
    (Object.behind c).after cs = some (.behind (cs.getLastD c)) := by
  induction cs generalizing c with
  | nil => rfl
  | cons d cs ih =>
    simp only [List.mem_cons, not_or] at h
    have hn : (Object.behind c).next d = some (.behind d) := by simp [Object.next, Ne.symm h.1]
    have ha : (Object.behind c).after (d :: cs) = ((Object.behind c).next d).bind (·.after cs) := rfl
    rw [ha, hn, Option.bind_some, ih h.2, List.getLastD_cons]

/-- No quote in a value is seen. -/
theorem after_escaped (depth : Nat) (value : List Char) (c : Char) :
    let written := Text.indentBy depth (value.flatMap Text.escapeSingleQuoteChar)
    (Object.behind c).after written = some (.behind (written.getLastD c)) := by
  intro written
  simp only [written]
  clear written
  induction value generalizing c with
  | nil => rfl
  | cons d value ih =>
    rw [List.flatMap_cons, Text.indentBy_append, Text.getLastD_append]
    by_cases hd : d = '\''
    · subst hd
      have he : Text.indentBy depth (Text.escapeSingleQuoteChar '\'') = ['\\', '\''] := by
        simp [Text.escapeSingleQuoteChar, Text.indentBy]
      have ha : (Object.behind c).after ['\\', '\''] = some (.behind '\'') := by simp [Object.after, Object.next]
      rw [he, after_append ha, ih]
      rfl
    · have he : '\'' ∉ Text.indentBy depth (Text.escapeSingleQuoteChar d) := by
        rw [Text.mem_indentBy (by decide)]
        simp [Text.escapeSingleQuoteChar, hd, Ne.symm hd]
      rw [after_append (after_bare he c), ih]

/-- What the last quote of a value stands behind. -/
theorem getLastD_escaped (depth : Nat) {value : String} (h : Ended value) :
    let last := (Text.indentBy depth (value.toList.flatMap Text.escapeSingleQuoteChar)).getLastD '\''
    last ≠ '\\' ∧ last ≠ ' ' := by
  intro last
  rcases List.eq_nil_or_concat value.toList with hn | ⟨init, c, hn⟩
  · have hl : last = '\'' := by simp [last, hn, Text.indentBy]
    rw [hl]
    decide
  · rw [List.concat_eq_append] at hn
    have hc : isEnd c = true := h c (by rw [hn, List.getLast?_concat]; rfl)
    simp only [isEnd, isEdge, Bool.and_eq_true, bne_iff_ne] at hc
    have hl : last = c := by
      simp only [last, hn]
      rw [List.flatMap_append, List.flatMap_singleton, Text.indentBy_append, Text.getLastD_append]
      unfold Text.escapeSingleQuoteChar
      split
      · rw [Text.indentBy_of_not_mem depth (by decide)]
        simp [*]
      · rw [Text.indentBy_of_not_mem depth (by simp [Ne.symm hc.1.1.2])]
        rfl
    rw [hl]
    exact ⟨hc.1.2, hc.1.1.1⟩

theorem after_last {c : Char} (h : c ≠ '\\' ∧ c ≠ ' ') : (Object.behind c).after ['\''] = some .quote := by
  simp [Object.after, Object.next, h.1, h.2]

theorem after_between (c : Char) : (Object.behind c).after ['\'', ',', ' '] = some (.behind ' ') := by
  by_cases h : c ≠ '\\' ∧ c ≠ ' ' <;> simp [Object.after, Object.next, h]

def entryText (e : String × String) : String :=
  objectKey e.1 ++ ": " ++ Text.singleQuoted e.2

/-- An entry up to the last quote of its value. -/
def opened (e : String × String) : List Char :=
  (objectKey e.1).toList ++ ": '".toList ++ e.2.toList.flatMap Text.escapeSingleQuoteChar

theorem toList_entryText (e : String × String) : (entryText e).toList = opened e ++ ['\''] := by
  have h₁ : ": ".toList = [':', ' '] := by decide
  have h₂ : "'".toList = ['\''] := by decide
  have h₃ : ": '".toList = [':', ' ', '\''] := by decide
  simp [entryText, opened, Text.singleQuoted, h₁, h₂, h₃]

theorem after_opened (depth : Nat) {e : String × String} (h : Bare (objectKey e.1).toList) (c : Char) :
    (Object.behind c).after (Text.indentBy depth (opened e)) =
      some (.behind ((Text.indentBy depth (e.2.toList.flatMap Text.escapeSingleQuoteChar)).getLastD '\'')) := by
  have hk : '\'' ∉ (objectKey e.1).toList := fun hm => (h _ hm).1 rfl
  have hb : '\n' ∉ (objectKey e.1).toList ++ ": '".toList := by
    rw [List.mem_append, not_or]
    exact ⟨fun hm => (h _ hm).2 rfl, by decide⟩
  have hq (d : Char) : (Object.behind d).after ": '".toList = some (.behind '\'') := by
    have hs : ": '".toList = [':', ' ', '\''] := by decide
    simp [hs, Object.after, Object.next]
  rw [opened, Text.indentBy_append, Text.indentBy_of_not_mem depth hb, List.append_assoc,
    after_append (after_bare hk c), after_append (hq _), after_escaped]

theorem after_entries (depth : Nat) {entries : List (String × String)} (hn : entries ≠ [])
    (hk : ∀ e ∈ entries, Bare (objectKey e.1).toList) (hl : ∀ e ∈ entries.getLast?, Ended e.2) (c : Char) :
    (Object.behind c).after (Text.indentBy depth (", ".intercalate (entries.map entryText)).toList) = some .quote := by
  have hq : '\n' ∉ ['\''] := by decide
  have hs : '\n' ∉ ['\'', ',', ' '] := by decide
  induction entries generalizing c with
  | nil => exact absurd rfl hn
  | cons e entries ih =>
    rw [List.forall_mem_cons] at hk
    by_cases he : entries = []
    · subst he
      rw [List.map_singleton, String.intercalate_singleton, toList_entryText, Text.indentBy_append,
        Text.indentBy_of_not_mem depth hq, after_append (after_opened depth hk.1 c)]
      exact after_last (getLastD_escaped depth (hl e rfl))
    · have hl : ∀ e ∈ entries.getLast?, Ended e.2 := by
        obtain ⟨d, ds, rfl⟩ := List.exists_cons_of_ne_nil he
        rwa [List.getLast?_cons_cons] at hl
      have hj : (", ".intercalate ((e :: entries).map entryText)).toList =
          opened e ++ (['\'', ',', ' '] ++ (", ".intercalate (entries.map entryText)).toList) := by
        have hc : ", ".toList = [',', ' '] := by decide
        have hm : entries.map entryText ≠ [] := fun h => he (List.map_eq_nil_iff.mp h)
        rw [List.map_cons, String.intercalate_cons_of_ne_nil hm, String.toList_append, String.toList_append,
          toList_entryText, hc]
        simp
      rw [hj, Text.indentBy_append, Text.indentBy_append, Text.indentBy_of_not_mem depth hs,
        after_append (after_opened depth hk.1 c), after_append (after_between _)]
      exact ih he hk.2 hl ' '

theorem entries_ne_nil {s : Styles} (h : s.isEmpty ≠ true) : s.entries ≠ [] :=
  fun he => h (List.isEmpty_iff.mpr he)

theorem quiet_object {s : Styles} (h : Shut s) : Quiet true (attributes true s) := by
  by_cases hs : s.isEmpty = true
  · have he : attributes true s = "" := if_pos hs
    rw [he]
    exact .empty
  · have he : attributes true s = "style=\x7b\x7b" ++ ", ".intercalate (s.entries.map entryText) ++ "\x7d\x7d" := if_neg hs
    have hw : " style=\x7b\x7b".toList = ' ' :: objectWord := rfl
    have hb : "\x7d\x7d".toList = ['\x7d', '\x7d'] := by decide
    have ht : (behindName (attributes true s)).toList =
        ' ' :: objectWord ++ (", ".intercalate (s.entries.map entryText)).toList ++ ['\x7d', '\x7d'] := by
      rw [← hw, ← hb]
      simp [behindName, he]
    have hi : '\n' ∉ ' ' :: objectWord := by decide
    have hz : '\n' ∉ ['\x7d', '\x7d'] := by decide
    refine ⟨fun depth => ?_, fun c hc => ?_⟩
    · unfold Loses
      rw [ht, Text.indentBy_append, Text.indentBy_append, Text.indentBy_of_not_mem depth hi,
        Text.indentBy_of_not_mem depth hz]
      exact still_object (after_entries depth (entries_ne_nil hs) h.keys h.last _)
    · rw [he, String.toList_append, hb, List.getLast?_append] at hc
      obtain rfl := Option.some.inj hc
      decide

/-- The text of a style attribute. -/
def declared (s : Styles) : String :=
  "; ".intercalate (s.entries.map fun (key, value) => key ++ ": " ++ value)

theorem getLast?_declared {s : Styles} (h : Shut s) (hs : s.isEmpty ≠ true) : (declared s).toList.getLast? ≠ some '=' := by
  obtain ⟨e, hl⟩ : ∃ e, s.entries.getLast? = some e := ⟨_, List.getLast?_eq_some_getLast (entries_ne_nil hs)⟩
  have hm : e.1 ++ ": " ++ e.2 ∈ (s.entries.map fun (key, value) => key ++ ": " ++ value).getLast? := by
    rw [List.getLast?_map, hl]
    rfl
  have hc : (e.1 ++ ": ").toList.getLast? ≠ some '=' := by
    have hs : ": ".toList = [':', ' '] := by decide
    simp [hs]
  rw [declared, Text.getLast?_intercalate _ hm (by simp), String.toList_append]
  exact Text.getLast?_append_ne hc (h.last e hl).getLast?_ne

theorem quiet_style {s : Styles} (h : Shut s) : Quiet false (attributes false s) := by
  by_cases hs : s.isEmpty = true
  · have he : attributes false s = "" := if_pos hs
    rw [he]
    exact .empty
  · have he : attributes false s = "style=\"" ++ Text.escapeAttribute (declared s) ++ "\"" := if_neg hs
    have hw : "style=\"".toList = "style".toList ++ ['=', '"'] := by decide
    have hi : '\n' ∉ "style=\"".toList := by decide
    rw [he]
    refine .quoted fun depth => ?_
    have hl : (indented depth (declared s)).toList.getLast? ≠ some '=' := by
      rw [indented, String.toList_ofList]
      exact getLast?_indentBy_ne (getLast?_declared h hs) depth
    have hv : Text.indentBy depth (Text.escapeAttribute (declared s)).toList = value (indented depth (declared s)) :=
      value_indented depth _
    rw [String.toList_append, Text.indentBy_append, Text.indentBy_of_not_mem depth hi, hv, hw]
    exact still_quoted (by decide) (by decide) (by decide) (unquoted_value _) (absurd · Bool.false_ne_true)
      (getLast?_value hl)

/-- Neither way hides a layer attribute. -/
theorem quiet_attributes (jsx : Bool) (ps : List (Piece Float)) :
    ∀ s ∈ Element.stylesInAll ((Target.html jsx).elements ps), Quiet jsx (attributes jsx s) := by
  intro s hs
  obtain ⟨aspects, rfl⟩ := (Target.html jsx).stylesIn_elements ps s hs
  cases jsx with
  | true => exact quiet_object (shut_styles true aspects)
  | false => exact quiet_style (shut_styles false aspects)

end SceneCode.Html
