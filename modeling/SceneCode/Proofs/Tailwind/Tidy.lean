import SceneCode.Proofs.ClassPrefix.Pairs
import SceneCode.Proofs.Number.Characters
import SceneCode.Proofs.Style.Entries

namespace SceneCode.Tailwind
open ClassPrefix (IsWord IsClass)
open Text (isBlank)
open Declaration (set)

def isClassChar (c : Char) : Bool :=
  !isBlank c && c != '"'

/-- Nothing in a text ends a class or its attribute. -/
def Plain (s : String) : Prop :=
  ∀ c ∈ s.toList, isClassChar c = true

instance (s : String) : Decidable (Plain s) :=
  decidable_of_iff (s.toList.all isClassChar = true) List.all_eq_true

/-- Classes one space apart, or nothing. -/
def Tidy (s : String) : Prop :=
  s = "" ∨ ∀ w ∈ s.toList.splitOn ' ', IsClass w

theorem Plain.ofList {cs : List Char} (h : ∀ c ∈ cs, isClassChar c = true) : Plain (String.ofList cs) := by
  rwa [Plain, String.toList_ofList]

@[simp] theorem plain_append {a b : String} : Plain (a ++ b) ↔ Plain a ∧ Plain b := by
  simp only [Plain, String.toList_append]
  exact List.forall_mem_append

/-- A value, and a fixed text behind it. -/
theorem Plain.next {a v : String} (h : Plain a) (hv : Plain v) {cs : List Char} (hb : ∀ c ∈ cs, isClassChar c = true) :
    Plain (a ++ v ++ String.ofList cs) :=
  plain_append.mpr ⟨plain_append.mpr ⟨h, hv⟩, .ofList hb⟩

@[simp] theorem plain_ite {c : Prop} [Decidable c] {a b : String} :
    Plain (if c then a else b) ↔ (c → Plain a) ∧ (¬c → Plain b) := by
  split <;> simp_all

/-- The visible characters of ASCII behind the quote. -/
theorem isClassChar_of_range {c : Char} (hl : 0x23 ≤ c.toNat) (hu : c.toNat ≤ 0x7E) : isClassChar c = true := by
  have hq : c ≠ '"' := by
    rintro rfl
    exact absurd hl (by decide)
  have hb : isBlank c = false := by
    simp only [isBlank, Bool.or_eq_false_iff, Bool.and_eq_false_iff, decide_eq_false_iff_not, List.contains_eq_mem]
    refine ⟨⟨by omega, by omega⟩, fun hm => ?_⟩
    simp only [List.mem_cons, List.not_mem_nil, or_false] at hm
    omega
  simp [isClassChar, hb, hq]

/-- The characters between two that are visible. -/
theorem isClassChar_of_between {c : Char} {low high : UInt32} (hl : 0x23 ≤ low.toNat) (hu : high.toNat ≤ 0x7E)
    (h : low ≤ c.val ∧ c.val ≤ high) : isClassChar c = true :=
  isClassChar_of_range (Nat.le_trans hl (UInt32.le_iff_toNat_le.mp h.1)) (Nat.le_trans (UInt32.le_iff_toNat_le.mp h.2) hu)

theorem isClassChar_of_isNumberChar {c : Char} (h : Number.isNumberChar c = true) : isClassChar c = true := by
  have hb {p q : Prop} [Decidable p] [Decidable q] (h : (decide p && decide q) = true) : p ∧ q := by simpa using h
  simp only [Number.isNumberChar, Char.isAlphanum, Bool.or_eq_true, decide_eq_true_eq] at h
  rcases h with ((h | h) | rfl) | rfl
  · rcases Bool.or_eq_true_iff.mp h with h | h
    · have hc : 'A'.val ≤ c.val ∧ c.val ≤ 'Z'.val := of_decide_eq_true h
      exact isClassChar_of_between (by decide) (by decide) hc
    · have hc : 'a'.val ≤ c.val ∧ c.val ≤ 'z'.val := hb h
      exact isClassChar_of_between (by decide) (by decide) hc
  · have hc : '0'.val ≤ c.val ∧ c.val ≤ '9'.val := hb h
    exact isClassChar_of_between (by decide) (by decide) hc
  · decide
  · decide

@[simp] theorem plain_text (x : Float) : Plain (Number.text x) :=
  fun _ hc => isClassChar_of_isNumberChar (Number.isNumberChar_of_mem_text hc)

@[simp] theorem plain_repr_nat (n : Nat) : Plain n.repr :=
  fun _ hc => isClassChar_of_isNumberChar (Number.isNumberChar_of_mem_repr_nat hc)

@[simp] theorem plain_repr_int (n : Int) : Plain n.repr :=
  fun _ hc => isClassChar_of_isNumberChar (Number.isNumberChar_of_mem_repr_int hc)

theorem plain_hexByte (n : Nat) : Plain (Rgb.hexByte n) :=
  fun _ hc => isClassChar_of_isNumberChar (Number.isNumberChar_of_mem_hexByte hc)

theorem plain_hex6 (c : Rgb) : Plain c.hex6 :=
  fun _ hc => isClassChar_of_isNumberChar (Number.isNumberChar_of_mem_hex6 hc)

@[simp] theorem plain_hex (c : Rgb) : Plain c.hex :=
  plain_append.mpr ⟨.ofList (by decide), plain_hex6 c⟩

theorem isClass_of_plain {s : String} (hn : s ≠ "") (h : Plain s) : IsClass s.toList := by
  refine ⟨⟨by simpa using hn, fun c hc => ?_⟩, fun hq => ?_⟩
  · have hp := h c hc
    simp [isClassChar] at hp
    exact hp.1
  · have hp := h _ hq
    simp [isClassChar] at hp

theorem tidy_of_plain {s : String} (h : Plain s) : Tidy s := by
  by_cases hn : s = ""
  · exact .inl hn
  · have hc := isClass_of_plain hn h
    have hs : ' ' ∉ s.toList := fun hm => by simpa [isBlank] using hc.1.2 _ hm
    exact .inr (by simpa [List.splitOn_eq_singleton hs] using hc)

theorem tidy_intercalate {vs : List String} (h : ∀ v ∈ vs, v ≠ "" ∧ Plain v) : Tidy (" ".intercalate vs) := by
  cases vs with
  | nil => exact .inl rfl
  | cons v vs =>
    right
    intro w hw
    have hc : ∀ w ∈ (v :: vs).map String.toList, IsClass w := fun w hw => by
      obtain ⟨u, hu, rfl⟩ := List.mem_map.mp hw
      exact isClass_of_plain (h u hu).1 (h u hu).2
    have hs : ∀ w ∈ (v :: vs).map String.toList, ' ' ∉ w := fun w hw hm => by
      simpa [isBlank] using (hc w hw).1.2 _ hm
    have ht : (" ".intercalate (v :: vs)).toList.splitOn ' ' = (v :: vs).map String.toList := by
      rw [String.toList_intercalate]
      exact List.splitOn_intercalate ' ' hs (by simp)
    exact hc w (ht ▸ hw)

theorem tidy_pair {a b : String} (ha : a ≠ "" ∧ Plain a) (hb : b ≠ "" ∧ Plain b) : Tidy (a ++ " " ++ b) := by
  have h : Tidy (" ".intercalate [a, b]) := tidy_intercalate (by simp [ha, hb])
  simpa using h

theorem nearest?_mem {x : Float} {table : List (Float × String)} {entry : Float × String}
    (h : nearest? x table = some entry) : entry ∈ table := by
  cases table with
  | nil => cases h
  | cons first table =>
    obtain rfl := Option.some.inj h
    refine List.foldlRecOn table _ (motive := (· ∈ first :: table)) List.mem_cons_self fun best hb entry he => ?_
    split
    · exact List.mem_cons_of_mem first he
    · exact hb

theorem exists_of_lookUp {table : List (Float × String)} {x : Float} {snap : Bool} {v : String}
    (h : lookUp table x snap = some v) : ∃ entry ∈ table, entry.2 = v := by
  obtain ⟨entry, he, rfl⟩ := Option.map_eq_some_iff.mp h
  refine ⟨entry, ?_, rfl⟩
  rcases Option.or_eq_some_iff.mp he with he | ⟨-, he⟩
  · exact List.mem_of_find?_eq_some he
  · split at he
    · exact nearest?_mem he
    · cases he

theorem plain_lookUp {table : List (Float × String)} (ht : ∀ entry ∈ table, Plain entry.2) {x : Float} {snap : Bool}
    {v : String} (h : lookUp table x snap = some v) : Plain v := by
  obtain ⟨entry, hm, rfl⟩ := exists_of_lookUp h
  exact ht entry hm

theorem plain_of_numberChars {s : String} (h : ∀ c ∈ s.toList, Number.isNumberChar c = true) : Plain s :=
  fun c hc => isClassChar_of_isNumberChar (h c hc)

theorem numberChars_spacingScale : ∀ entry ∈ spacingScale, ∀ c ∈ entry.2.toList, Number.isNumberChar c = true := by
  decide +kernel

theorem numberChars_fontSizes : ∀ entry ∈ fontSizes, ∀ c ∈ entry.2.toList, Number.isNumberChar c = true := by
  decide +kernel

theorem numberChars_radii : ∀ entry ∈ radii, ∀ c ∈ entry.2.toList, Number.isNumberChar c = true := by
  decide +kernel

theorem numberChars_palette : ∀ entry ∈ Palette.entries, ∀ c ∈ entry.1.toList, Number.isNumberChar c = true := by
  have h : (Palette.entries.all fun entry => entry.1.toList.all Number.isNumberChar) = true := by decide +kernel
  simpa only [List.all_eq_true] using h

theorem plain_spacingScale : ∀ entry ∈ spacingScale, Plain entry.2 :=
  fun entry he => plain_of_numberChars (numberChars_spacingScale entry he)

theorem plain_fontSizes : ∀ entry ∈ fontSizes, Plain entry.2 :=
  fun entry he => plain_of_numberChars (numberChars_fontSizes entry he)

theorem plain_radii : ∀ entry ∈ radii, Plain entry.2 :=
  fun entry he => plain_of_numberChars (numberChars_radii entry he)

theorem plain_palette : ∀ entry ∈ Palette.entries, Plain entry.1 :=
  fun entry he => plain_of_numberChars (numberChars_palette entry he)

@[simp] theorem plain_pixels (x : Float) : Plain (pixels x) := by
  have ho : Plain "[" := .ofList (by decide)
  exact ho.next (plain_text x) (by decide)

theorem plain_spacing (o : Options) {utility : String} (h : Plain utility) (x : Float) :
    Plain (spacing o utility x) := by
  unfold spacing
  split
  · rename_i step hs
    have hm : Plain (if x < 0 then "-" else "") :=
      plain_ite.mpr ⟨fun _ => .ofList (by decide), fun _ => .ofList (by decide)⟩
    exact plain_append.mpr ⟨hm.next h (by decide), plain_lookUp plain_spacingScale hs⟩
  · exact plain_append.mpr ⟨plain_append.mpr ⟨h, .ofList (by decide)⟩, plain_pixels x⟩

theorem spacing_ne_empty (o : Options) (utility : String) (x : Float) : spacing o utility x ≠ "" := by
  unfold spacing
  split <;> simp

theorem plain_written {c : Rgb} {name : String} (h : Palette.written? c = some name) : Plain name := by
  obtain ⟨entry, he, rfl⟩ := Option.map_eq_some_iff.mp h
  exact plain_palette entry (List.mem_of_find?_eq_some he)

theorem nearest_mem (c : Rgb) : Palette.nearest c ∈ Palette.entries.map Prod.fst := by
  have hc : ∀ entry ∈ Palette.colors, entry.1 ∈ Palette.entries.map Prod.fst := by
    intro entry he
    obtain ⟨⟨name, hex⟩, hm, hs⟩ := List.mem_filterMap.mp he
    obtain ⟨color, -, rfl⟩ := Option.map_eq_some_iff.mp hs
    exact List.mem_map_of_mem hm
  have hb : "black" ∈ Palette.entries.map Prod.fst := List.mem_cons_self
  rw [Palette.nearest_eq]
  refine List.foldlRecOn Palette.colors _ (motive := fun best : String × Float => best.1 ∈ Palette.entries.map Prod.fst)
    hb fun best hb entry he => ?_
  dsimp only
  split
  · exact hc entry he
  · exact hb

theorem plain_nearest (c : Rgb) : Plain (Palette.nearest c) := by
  obtain ⟨entry, he, hn⟩ := List.mem_map.mp (nearest_mem c)
  rw [← hn]
  exact plain_palette entry he

theorem plain_opacity (x : Float) : Plain (opacity x) := by
  simp +decide [opacity]

theorem plain_color (o : Options) (c : Rgb) (alpha : Float) : Plain (color o c alpha) := by
  rw [color, plain_append]
  refine ⟨?_, plain_opacity alpha⟩
  split
  · rw [Option.getD_some]
    exact plain_nearest c
  · cases h : Palette.written? c with
    | none =>
      have ho : Plain "[" := .ofList (by decide)
      exact ho.next (plain_hex c) (by decide)
    | some name => exact plain_written h

theorem plain_strokeWidth {utility : String} (h : Plain utility) (weight : Float) :
    Plain (strokeWidth utility weight) := by
  unfold strokeWidth
  split
  · exact h
  · simp +decide [h]

theorem plain_side (angle : Float) : Plain (side angle) := by
  have hs : ∀ i < 8, Plain (sides.getD i "") := by decide
  exact hs _ (Nat.mod_lt _ (by decide))

theorem plain_intercalate {separator : String} (hs : Plain separator) {vs : List String} (h : ∀ v ∈ vs, Plain v) :
    Plain (separator.intercalate vs) := by
  intro c hc
  rcases ClassPrefix.mem_intercalate hc with hc | ⟨v, hv, hc⟩
  · exact hs c hc
  · exact h v hv c hc

theorem plain_shadow (s : Shadow) : Plain (shadow s) := by
  have hp : Plain ("_".intercalate ([s.x, s.y, s.blur, s.spread].map (Number.text · ++ "px"))) :=
    plain_intercalate (.ofList (by decide)) fun v hv => by
      obtain ⟨x, -, rfl⟩ := List.mem_map.mp hv
      exact plain_append.mpr ⟨plain_text x, .ofList (by decide)⟩
  have hc : Plain (",".intercalate (s.color.bytes.map toString ++ [Number.text s.opacity])) :=
    plain_intercalate (.ofList (by decide)) fun v hv => by
      rcases List.mem_append.mp hv with hv | hv
      · obtain ⟨n, -, rfl⟩ := List.mem_map.mp hv
        exact plain_repr_nat n
      · rw [List.mem_singleton.mp hv]
        exact plain_text _
  have hi : Plain (if s.inset then "inset_" else "") :=
    plain_ite.mpr ⟨fun _ => .ofList (by decide), fun _ => .ofList (by decide)⟩
  unfold shadow
  simp only [plain_append]
  exact ⟨⟨⟨⟨hi, hp⟩, .ofList (by decide)⟩, hc⟩, .ofList (by decide)⟩

theorem plain_placeholderUrl (width height : Float) : Plain (placeholderUrl width height) := by
  unfold placeholderUrl
  simp only [plain_append]
  exact ⟨⟨⟨.ofList (by decide), plain_repr_int _⟩, .ofList (by decide)⟩, plain_repr_int _⟩

theorem nonempty_append_left {a : String} (h : a ≠ "") (b : String) : a ++ b ≠ "" := by
  simp [h]

theorem tidy_gradient (o : Options) (g : LinearGradient) : Tidy (gradient o g) := by
  have hs : ∀ {stop' : String} {s : ColorStop}, stop' ≠ "" → Plain stop' →
      stop' ++ stop o g s ≠ "" ∧ Plain (stop' ++ stop o g s) := fun hn hp =>
    ⟨nonempty_append_left hn _, plain_append.mpr ⟨hp, plain_color _ _ _⟩⟩
  refine tidy_intercalate fun v hv => ?_
  rcases List.mem_cons.mp hv with rfl | hv
  · exact ⟨nonempty_append_left (by decide) _, plain_append.mpr ⟨.ofList (by decide), plain_side _⟩⟩
  · unfold stops at hv
    split at hv <;> simp only [List.mem_cons, List.not_mem_nil, or_false] at hv
    · subst hv
      exact hs (by decide) (by decide)
    · rcases hv with rfl | rfl <;> exact hs (by decide) (by decide)
    · rcases hv with rfl | rfl | rfl <;> exact hs (by decide) (by decide)

theorem tidy_padding (o : Options) (p : Padding) : Tidy (padding o p) := by
  unfold padding
  split
  · exact tidy_of_plain (plain_spacing o (.ofList (by decide)) _)
  · split
    · exact tidy_pair ⟨spacing_ne_empty _ _ _, plain_spacing o (.ofList (by decide)) _⟩
        ⟨spacing_ne_empty _ _ _, plain_spacing o (.ofList (by decide)) _⟩
    · refine tidy_intercalate fun v hv => ?_
      obtain ⟨⟨utility, x⟩, hm, rfl⟩ := List.mem_map.mp hv
      have hu : ∀ utility ∈ ["pt", "pr", "pb", "pl"], Plain utility := by decide
      refine ⟨spacing_ne_empty _ _ _, plain_spacing o (hu utility ?_) x⟩
      have hs := List.mem_map_of_mem (f := Prod.fst) (List.mem_filter.mp hm).1
      simpa using hs

theorem tidy_background (o : Options) (fill : Fill) (width height : Float) :
    Tidy (background o fill width height) := by
  cases fill with
  | solid c alpha => exact tidy_of_plain (plain_append.mpr ⟨.ofList (by decide), plain_color _ _ _⟩)
  | gradient g => exact tidy_gradient o g
  | image mode =>
    have hf (fit : String) (hn : fit ≠ "") (hp : Plain fit) :
        Tidy ("bg-[url(" ++ placeholderUrl width height ++ ")] " ++ fit ++ " bg-center") := by
      have hu : Plain ("bg-[url(" ++ placeholderUrl width height ++ ")]") :=
        plain_append.mpr ⟨plain_append.mpr ⟨.ofList (by decide), plain_placeholderUrl width height⟩, .ofList (by decide)⟩
      have hi : Tidy (" ".intercalate ["bg-[url(" ++ placeholderUrl width height ++ ")]", fit, "bg-center"]) := by
        refine tidy_intercalate fun v hv => ?_
        simp only [List.mem_cons, List.not_mem_nil, or_false] at hv
        rcases hv with rfl | rfl | rfl
        · exact ⟨by simp, hu⟩
        · exact ⟨hn, hp⟩
        · exact ⟨by decide, .ofList (by decide)⟩
      have hs : ")] " = ")]" ++ " " := by decide
      have hc : " bg-center" = " " ++ "bg-center" := by decide
      rw [hs, hc]
      simpa [String.append_assoc] using hi
    cases mode <;> exact hf _ (by decide) (.ofList (by decide))

theorem tidy_radius (o : Options) (r : Radius) : Tidy (radius o r) := by
  unfold radius
  cases r with
  | full => exact tidy_of_plain (.ofList (by decide) : Plain "rounded-full")
  | uniform r =>
    refine tidy_of_plain ?_
    dsimp only
    cases h : lookUp radii r o.roundValues with
    | none => exact plain_append.mpr ⟨.ofList (by decide), plain_pixels r⟩
    | some v => exact plain_lookUp plain_radii h
  | corners c =>
    refine tidy_intercalate fun v hv => ?_
    obtain ⟨⟨corner, r⟩, hm, rfl⟩ := List.mem_map.mp hv
    have hc : ∀ corner ∈ ["tl", "tr", "br", "bl"], Plain corner := by decide
    have hs := List.mem_map_of_mem (f := Prod.fst) (List.mem_filter.mp hm).1
    have hp : Plain corner := hc corner (by simpa using hs)
    simp +decide [hp]

theorem tidy_border (o : Options) (s : Stroke) : Tidy (border o s).value := by
  have hk (key : String) (hk : Plain key) (hn : key ≠ "") :
      Tidy (strokeWidth key s.weight ++ " " ++ key ++ "-" ++ color o s.color s.opacity) := by
    have hw : strokeWidth key s.weight ≠ "" := by
      unfold strokeWidth
      split
      · exact hn
      · split <;> simp
    have hc : Plain (key ++ "-" ++ color o s.color s.opacity) :=
      plain_append.mpr ⟨plain_append.mpr ⟨hk, .ofList (by decide)⟩, plain_color _ _ _⟩
    have ht := tidy_pair ⟨hw, plain_strokeWidth hk s.weight⟩
      ⟨nonempty_append_left (nonempty_append_left hn "-") _, hc⟩
    simpa [String.append_assoc] using ht
  unfold border
  cases s.align <;> exact hk _ (.ofList (by decide)) (by decide)

theorem plain_fontWeight (weight : UInt16) : Plain (fontWeight weight) := by
  have ho : Plain "font-[" := .ofList (by decide)
  unfold fontWeight
  split
  case h_10 => exact ho.next (plain_repr_nat _) (by decide)
  all_goals exact .ofList (by decide)

theorem plain_fontSize (o : Options) (size : Float) : Plain (fontSize o size) := by
  rw [fontSize, plain_append]
  refine ⟨by decide, ?_⟩
  cases h : lookUp fontSizes size o.roundValues with
  | none => exact plain_pixels size
  | some v => exact plain_lookUp plain_fontSizes h

/-- All values of some declarations are tidy. -/
def Tidily (ds : List Declaration) : Prop :=
  ∀ d ∈ ds, Tidy d.value

@[simp] theorem tidily_nil : Tidily [] :=
  fun _ h => absurd h List.not_mem_nil

@[simp] theorem tidily_cons {d : Declaration} {ds : List Declaration} : Tidily (d :: ds) ↔ Tidy d.value ∧ Tidily ds :=
  List.forall_mem_cons

@[simp] theorem tidily_append {ds es : List Declaration} : Tidily (ds ++ es) ↔ Tidily ds ∧ Tidily es :=
  List.forall_mem_append

theorem tidily_ite {c : Prop} [Decidable c] {ds : List Declaration} (h : Tidily ds) :
    Tidily (if c then ds else []) := by
  split
  · exact h
  · exact tidily_nil

theorem tidily_of_option {β : Type} (x : Option β) {f : β → Declaration} (h : ∀ b ∈ x, Tidy (f b).value) :
    Tidily (x.toList.map f) := by
  cases x with
  | none => exact tidily_nil
  | some b => simpa using h b rfl

theorem tidily_extent (o : Options) (key : String) {utility : String} (h : Plain utility) (primary : Bool)
    (e : Extent) : Tidily (extent o key utility primary e) := by
  cases e with
  | fixed length => simpa [extent, Declaration.set] using tidy_of_plain (plain_spacing o h length)
  | fill => cases primary <;> simpa [extent, Declaration.set] using tidy_of_plain (by decide)
  | hug => exact tidily_nil

theorem tidily_flow (o : Options) (f : Flow) : Tidily (flow o f) := by
  have hd : Tidy "flex" := tidy_of_plain (.ofList (by decide))
  have hc : Tidy "flex-col" := tidy_of_plain (.ofList (by decide))
  have hw : Tidy "flex-wrap" := tidy_of_plain (.ofList (by decide))
  have hm : Tidy (mainAlign f.main) := tidy_of_plain (by cases f.main <;> exact .ofList (by decide))
  have hx : Tidy (crossAlign f.cross) := tidy_of_plain (by cases f.cross <;> exact .ofList (by decide))
  unfold flow
  simp only [tidily_append]
  refine ⟨⟨⟨⟨⟨?_, tidily_ite ?_⟩, tidily_ite ?_⟩, ?_⟩, tidily_of_option _ fun gap _ => ?_⟩, ?_⟩
  · simpa [Declaration.set] using hd
  · simpa [Declaration.set] using hc
  · simpa [Declaration.set] using hw
  · simpa [Declaration.set] using ⟨hm, hx⟩
  · exact tidy_of_plain (plain_spacing o (.ofList (by decide)) gap)
  · split
    · exact tidily_nil
    · simpa [Declaration.set] using tidy_padding o f.padding

theorem tidily_of_plain {ds : List Declaration} (h : ∀ d ∈ ds, Plain d.value) : Tidily ds :=
  fun d hd => tidy_of_plain (h d hd)

theorem tidily_textAlign (horizontal : HorizontalAlign) (vertical : VerticalAlign) :
    Tidily (textAlign horizontal vertical) := by
  cases horizontal <;> cases vertical <;> exact tidily_of_plain (by decide)

theorem plain_blendOpacity (x : Float) : Plain (blendOpacity x) := by
  unfold blendOpacity
  dsimp only
  split
  · exact plain_append.mpr ⟨.ofList (by decide), plain_repr_int _⟩
  · simp +decide

theorem plain_boxShadow (ss : List Shadow) : Plain ("shadow-[" ++ ",".intercalate (ss.map shadow) ++ "]") := by
  have hs : Plain (",".intercalate (ss.map shadow)) := plain_intercalate (.ofList (by decide)) fun v hv => by
    obtain ⟨s, -, rfl⟩ := List.mem_map.mp hv
    exact plain_shadow s
  exact plain_append.mpr ⟨plain_append.mpr ⟨.ofList (by decide), hs⟩, .ofList (by decide)⟩

/-- Every aspect but typography declares classes one space apart. -/
theorem tidily_declarations (o : Options) {a : Aspect} (h : ∀ run fill, a ≠ .typography run fill) :
    Tidily (declarations o a) := by
  cases a with
  | size s =>
    exact tidily_append.mpr ⟨tidily_extent o _ (.ofList (by decide)) _ _, tidily_extent o _ (.ofList (by decide)) _ _⟩
  | position x y =>
    refine tidily_of_plain ?_
    simp only [declarations, Declaration.set, List.forall_mem_cons]
    exact ⟨.ofList (by decide), plain_spacing o (.ofList (by decide)) x, plain_spacing o (.ofList (by decide)) y, nofun⟩
  | blend opacity rotation =>
    refine tidily_append.mpr ⟨tidily_ite ?_, tidily_ite ?_⟩
    · simpa [Declaration.set] using tidy_of_plain (plain_blendOpacity opacity)
    · refine tidily_of_plain ?_
      simp only [Declaration.set, List.forall_mem_cons]
      exact ⟨by simp +decide, by decide, nofun⟩
  | background fill width height => simpa [declarations, Declaration.set] using tidy_background o fill width height
  | border s => simpa [declarations] using tidy_border o s
  | radius r width height => simpa [declarations, Declaration.set] using tidy_radius o r
  | shadows ss => simpa [declarations, Declaration.set] using tidy_of_plain (plain_boxShadow ss)
  | blur b =>
    refine tidily_append.mpr ⟨tidily_of_option _ fun r _ => ?_, tidily_of_option _ fun r _ => ?_⟩
    · exact tidy_of_plain (plain_append.mpr ⟨.ofList (by decide), plain_pixels r⟩)
    · exact tidy_of_plain (plain_append.mpr ⟨.ofList (by decide), plain_pixels r⟩)
  | clip => simpa [declarations, Declaration.set] using tidy_of_plain (.ofList (by decide) : Plain "overflow-hidden")
  | flow f => exact tidily_flow o f
  | origin => simpa [declarations, Declaration.fallbackTo] using tidy_of_plain (.ofList (by decide) : Plain "relative")
  | typography run fill => exact absurd rfl (h run fill)
  | textAlign horizontal vertical => exact tidily_textAlign horizontal vertical

/-- The declarations of type behind the font family. -/
def typographyRest (o : Options) (run : TextRun) : List Declaration :=
  [set "font-size" (fontSize o run.fontSize), set "font-weight" (fontWeight run.fontWeight)] ++
  (if run.isItalic then [set "font-style" "italic"] else []) ++
  (decoration? run.decoration).toList.map (set "text-decoration") ++
  (textTransform? run.textCase).toList.map (set "text-transform") ++
  (if run.letterSpacing.value != 0 then [set "letter-spacing" (letterSpacing run.letterSpacing)] else []) ++
  (lineHeight? run.lineHeight).toList.map (set "line-height")

theorem typography_eq (o : Options) (run : TextRun) (fill : Option (Rgb × Float)) : typography o run fill =
    (fill.toList.map fun (c, alpha) => set "color" ("text-" ++ color o c alpha)) ++
      set "font-family" (fontFamily run.fontName.family) :: typographyRest o run := by
  simp [typography, typographyRest]

theorem tidily_color (o : Options) (fill : Option (Rgb × Float)) :
    Tidily (fill.toList.map fun (c, alpha) => set "color" ("text-" ++ color o c alpha)) :=
  tidily_of_option _ fun _ _ => tidy_of_plain (plain_append.mpr ⟨.ofList (by decide), plain_color _ _ _⟩)

theorem plain_decoration {decoration : TextDecoration} {v : String} (h : v ∈ decoration? decoration) : Plain v := by
  cases decoration with
  | none => cases h
  | underline => exact Option.some.inj h ▸ (.ofList (by decide))
  | strikethrough => exact Option.some.inj h ▸ (.ofList (by decide))

theorem plain_textTransform {textCase : TextCase} {v : String} (h : v ∈ textTransform? textCase) : Plain v := by
  cases textCase with
  | asWritten => cases h
  | upper => exact Option.some.inj h ▸ (.ofList (by decide))
  | lower => exact Option.some.inj h ▸ (.ofList (by decide))
  | title => exact Option.some.inj h ▸ (.ofList (by decide))

theorem plain_lineHeight {lineHeight : LineHeight} {v : String} (h : v ∈ lineHeight? lineHeight) : Plain v := by
  cases lineHeight with
  | auto => cases h
  | pixels value =>
    obtain rfl := Option.some.inj h
    exact plain_append.mpr ⟨.ofList (by decide), plain_pixels value⟩
  | percent value =>
    obtain rfl := Option.some.inj h
    exact plain_append.mpr ⟨plain_append.mpr ⟨.ofList (by decide), plain_text value⟩, by decide⟩

theorem plain_letterSpacing (s : LetterSpacing) : Plain (letterSpacing s) := by
  unfold letterSpacing
  split <;> simp +decide

theorem tidily_typographyRest (o : Options) (run : TextRun) : Tidily (typographyRest o run) := by
  unfold typographyRest
  simp only [tidily_append]
  refine ⟨⟨⟨⟨⟨?_, tidily_ite ?_⟩, tidily_of_option _ fun v hv => tidy_of_plain (plain_decoration hv)⟩,
    tidily_of_option _ fun v hv => tidy_of_plain (plain_textTransform hv)⟩, tidily_ite ?_⟩,
    tidily_of_option _ fun v hv => tidy_of_plain (plain_lineHeight hv)⟩
  · simpa [Declaration.set] using ⟨tidy_of_plain (plain_fontSize o _), tidy_of_plain (plain_fontWeight _)⟩
  · exact tidily_of_plain (by decide)
  · simpa [Declaration.set] using tidy_of_plain (plain_letterSpacing run.letterSpacing)

end SceneCode.Tailwind
