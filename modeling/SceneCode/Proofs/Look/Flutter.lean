import SceneCode.Proofs.Look.Weight
import SceneCode.Proofs.Placement.Coordinates

namespace SceneCode.Flutter

def load (n : Nat) (arguments : List (String × String)) : Nat :=
  (arguments.map fun e => weight n (argument e.1 e.2)).sum

section load
variable (n : Nat)

theorem load_append (as bs : List (String × String)) : load n (as ++ bs) = load n as + load n bs := by
  rw [load, List.map_append, List.sum_append]
  rfl

theorem argument_pos (key value : String) : 0 < weight n (argument key value) :=
  weight_pos n (by simp [argument])

theorem load_pos {as : List (String × String)} (h : as.isEmpty = false) : 0 < load n as := by
  cases as with
  | nil => cases h
  | cons a as => exact Nat.add_pos_left (argument_pos n a.1 a.2) _

theorem load_of_isEmpty {as : List (String × String)} (h : as.isEmpty = true) : load n as = 0 := by
  rw [List.isEmpty_iff.mp h]
  rfl

theorem weight_call (name : String) (as : List (String × String)) :
    weight n (call name as) =
      weight n name + if load n as = 0 then weight n "()" else weight n "(" + load n as + weight n "\n)" := by
  unfold call
  cases as with
  | nil => exact weight_append n name "()"
  | cons a as =>
    have hl : load n (a :: as) ≠ 0 := Nat.ne_of_gt (load_pos n rfl)
    rw [List.isEmpty_cons, if_neg Bool.false_ne_true, if_neg hl, weight_append, weight_append, weight_append,
      weight_join, List.map_map, Nat.add_assoc, Nat.add_assoc, Nat.add_assoc]
    rfl

theorem weight_child (name key widget : String) (as : List (String × String)) :
    weight n widget < weight n (call name (as ++ [(key, widget)])) := by
  have hw := weight_mono (Nat.le_add_right n 2) widget
  have hp : 0 < weight n "(" := weight_pos n (by decide)
  rw [weight_call, if_neg (Nat.ne_of_gt (load_pos n (by simp))), load_append]
  simp only [load, List.map_cons, List.map_nil, List.sum_cons, List.sum_nil, argument, weight_append, weight_indent]
  omega

end load

section below
variable {gone gone' : Prop} {as bs : List (String × String)} {w w' : String}

theorem below_argument (h : Below gone (weight · w) (weight · w')) (key : String) :
    Below gone (load · [(key, w)]) (load · [(key, w')]) := by
  simp only [load, List.map_cons, List.map_nil, List.sum_cons, List.sum_nil, argument, weight_append, weight_indent]
  exact (((h.shift 2).const_add _).add_const _).add_const _

theorem below_arguments (ha : Below gone (load · as) (load · bs)) {as' bs' : List (String × String)}
    (hb : Below gone' (load · as') (load · bs')) :
    Below (gone ∨ gone') (load · (as ++ as')) (load · (bs ++ bs')) := by
  simp only [load_append]
  exact ha.add hb

/-- Less goes into a call under a name that is not longer. -/
theorem below_call {name name' : String} (hn : ∀ n, weight n name ≤ weight n name')
    (h : Below gone (load · as) (load · bs)) :
    Below gone (fun n => weight n (call name as)) (fun n => weight n (call name' bs)) := by
  intro n
  have hp : weight n "()" ≤ weight n "(" + weight n "\n)" := by
    simp only [weight, charWeight, String.reduceToList, List.map_cons, List.map_nil, List.sum_cons, List.sum_nil,
      Char.reduceEq, if_false, if_true]
    omega
  have hn := hn n
  obtain ⟨hl, hg⟩ := h n
  dsimp only at hl hg ⊢
  rw [weight_call, weight_call]
  -- A call without arguments has its brackets on one line.
  split <;> split
  · refine ⟨by omega, fun g => ?_⟩
    have hlt := hg g
    omega
  · exact ⟨by omega, fun _ => by omega⟩
  · omega
  · refine ⟨by omega, fun g => ?_⟩
    have hlt := hg g
    omega

/-- Some arguments bring a call around the widget along. -/
theorem below_boxed (ha : Below gone (load · as) (load · bs)) (h : Below gone' (weight · w) (weight · w'))
    (name : String) :
    Below (gone ∨ gone') (fun n => weight n (if as.isEmpty then w else call name (as ++ [("child", w)])))
      (fun n => weight n (if bs.isEmpty then w' else call name (bs ++ [("child", w')]))) := by
  cases hb : bs.isEmpty with
  | true =>
    have he := load_of_isEmpty 0 hb
    obtain ⟨hl, hg⟩ := ha 0
    dsimp only at hl hg
    rw [he] at hl hg
    cases hs : as.isEmpty with
    | true => exact h.mono fun g => g.resolve_left fun g => Nat.not_lt_zero _ (hg g)
    | false => exact absurd (load_pos 0 hs) (Nat.not_lt.mpr hl)
  | false =>
    cases hs : as.isEmpty with
    | true =>
      intro n
      have hc := weight_child n name "child" w' bs
      have hl := (h n).1
      dsimp only at hl ⊢
      rw [if_pos rfl, if_neg Bool.false_ne_true]
      exact ⟨by omega, fun _ => by omega⟩
    | false => exact below_call (fun _ => Nat.le_refl _) (below_arguments ha (below_argument h "child"))

end below

section
variable {gone : Prop} {w w' : String} (s : Styles) (key : String)

theorem below_selected (keys : List String) :
    Below (key ∈ keys ∧ ∃ v, s.get? key = some v) (load · ((s.erase key).select keys)) (load · (s.select keys)) := by
  refine (below_select keys (fun n e => weight n (argument e.1 e.2)) s key).mono ?_
  rintro ⟨hk, v, hv⟩
  exact ⟨hk, v, hv, fun n => argument_pos n key v⟩

theorem below_around (h : Below gone (weight · w) (weight · w')) (k name : String)
    (arguments : String → List (String × String)) :
    Below (gone ∨ key ∈ [k] ∧ ∃ v, s.get? key = some v) (fun n => weight n (around (s.erase key) k name arguments w))
      (fun n => weight n (around s k name arguments w')) := by
  unfold around
  by_cases hk : k = key
  · subst hk
    rw [Styles.get?_erase, if_pos rfl]
    cases hv : s.get? k with
    | none => exact h.mono (by simp)
    | some v =>
      intro n
      have hc := weight_child n name "child" w' (arguments v)
      have hl := (h n).1
      dsimp only at hl ⊢
      exact ⟨by omega, fun _ => by omega⟩
  · rw [s.get?_erase_of_ne hk]
    have hm : gone ∨ key ∈ [k] ∧ (∃ v, s.get? key = some v) → gone :=
      fun g => g.resolve_right fun g => hk (List.mem_singleton.mp g.1).symm
    cases s.get? k with
    | none => exact h.mono hm
    | some v =>
      refine (below_call (fun _ => Nat.le_refl _) (below_arguments (.refl _) (below_argument h "child"))).mono ?_
      exact fun g => .inr (hm g)

theorem select_isEmpty {s : Styles} {keys : List String} (h : (s.select keys).isEmpty = true) {k : String}
    (hk : k ∈ keys) : s.get? k = none := by
  have hn := List.filterMap_eq_nil_iff.mp (List.isEmpty_iff.mp h) k hk
  exact Option.map_eq_none_iff.mp hn

/-- What fills its row or column has no coordinates that would go with it. -/
theorem below_placed (h : Below gone (weight · w) (weight · w'))
    (hf : s.contains "flex" = true → (s.select ["left", "top"]).isEmpty = true) :
    Below (gone ∨ key ∈ ["flex", "left", "top"] ∧ ∃ v, s.get? key = some v)
      (fun n => weight n (placed (s.erase key) w)) (fun n => weight n (placed s w')) := by
  unfold placed
  dsimp only
  rw [s.contains_erase]
  cases hc : s.contains "flex" with
  | false =>
    rw [ite_self, if_neg Bool.false_ne_true, if_neg Bool.false_ne_true]
    refine (below_boxed (below_selected s key ["left", "top"]) h "Positioned").mono ?_
    rintro (g | ⟨hm, v, hv⟩)
    · exact .inr g
    · refine .inl ⟨(List.mem_cons.mp hm).resolve_left ?_, v, hv⟩
      rintro rfl
      rw [Styles.contains, hv] at hc
      cases hc
  | true =>
    by_cases hk : "flex" = key
    · subst hk
      rw [if_pos rfl, if_pos rfl, if_neg Bool.false_ne_true, s.select_erase (by decide), hf hc, if_pos rfl]
      intro n
      have hlt := Nat.lt_of_le_of_lt (h n).1 (weight_child n "Expanded" "child" w' [])
      exact ⟨Nat.le_of_lt hlt, fun _ => hlt⟩
    · rw [if_neg hk, if_pos rfl, if_pos rfl]
      refine (below_call (fun _ => Nat.le_refl _) (below_argument h "child")).mono ?_
      rintro (g | ⟨hm, v, hv⟩)
      · exact g
      · have hn := select_isEmpty (hf hc) ((List.mem_cons.mp hm).resolve_left (Ne.symm hk))
        rw [hv] at hn
        cases hn

def wrapKeys : List String :=
  ["blur", "backdropBlur", "rotation", "opacity", "flex", "left", "top"]

theorem below_wrapped (h : Below gone (weight · w) (weight · w'))
    (hf : s.contains "flex" = true → (s.select ["left", "top"]).isEmpty = true) :
    Below (gone ∨ key ∈ wrapKeys ∧ ∃ v, s.get? key = some v)
      (fun n => weight n (wrapped (s.erase key) w)) (fun n => weight n (wrapped s w')) := by
  have hb := below_around s key h "blur" "ImageFiltered" fun v => [("imageFilter", sigma v)]
  have hb := below_around s key hb "backdropBlur" "BackdropFilter" fun v => [("filter", sigma v)]
  have hb := below_around s key hb "rotation" "Transform.rotate" fun v =>
    [("angle", v), ("alignment", "Alignment.topLeft")]
  have hb := below_around s key hb "opacity" "Opacity" fun v => [("opacity", v)]
  refine (below_placed s key hb hf).mono ?_
  simp only [wrapKeys, List.mem_cons, List.not_mem_nil, or_false]
  grind

theorem below_named (h : Below gone (weight · w) (weight · w')) (name : Option String) :
    Below gone (fun n => weight n (named name w)) (fun n => weight n (named name w')) := by
  cases name with
  | none =>
    simp only [named, weight_append]
    exact h.const_add _
  | some name =>
    simp only [named, weight_append]
    exact h.const_add _

def sizeKeys : List String :=
  ["width", "height"]

def frameKeys : List String :=
  ["padding", "clipBehavior"]

def decorationKeys : List String :=
  ["color", "gradient", "image", "border", "borderRadius", "boxShadow"]

/-- Arguments for an argument of their own. -/
theorem below_nested {as bs : List (String × String)} (h : Below gone (load · as) (load · bs)) (key name : String) :
    Below gone (load · (if as.isEmpty then [] else [(key, call name as)]))
      (load · (if bs.isEmpty then [] else [(key, call name bs)])) := by
  intro n
  obtain ⟨hl, hg⟩ := h n
  dsimp only at hl hg ⊢
  cases ha : as.isEmpty with
  | true =>
    have ha := load_of_isEmpty n ha
    cases hb : bs.isEmpty with
    | true =>
      have hb := load_of_isEmpty n hb
      exact ⟨Nat.le_refl _, fun g => absurd (hg g) (by omega)⟩
    | false => exact ⟨Nat.zero_le _, fun _ => load_pos n rfl⟩
  | false =>
    have ha := load_pos n ha
    cases hb : bs.isEmpty with
    | true =>
      have hb := load_of_isEmpty n hb
      omega
    | false => exact below_argument (below_call (fun _ => Nat.le_refl (weight _ name)) h) key n

theorem select_erase_isEmpty {s : Styles} {keys : List String} (h : (s.select keys).isEmpty = true) (key : String) :
    ((s.erase key).select keys).isEmpty = true := by
  refine List.isEmpty_iff.mpr (List.filterMap_eq_nil_iff.mpr fun k hk => ?_)
  rw [Styles.get?_erase, select_isEmpty h hk, ite_self]
  rfl

theorem arranged_erase {key : String} (hk : key ∉ Target.flutter.arrangementKeys) (children : List String) :
    arranged (s.erase key) children = arranged s children := by
  have hn (k : String) (hm : k ∈ Target.flutter.arrangementKeys) : (s.erase key).get? k = s.get? k :=
    s.get?_erase_of_ne (ne_of_mem_of_not_mem hm hk)
  have hs : (s.erase key).select (Target.flutter.arrangementKeys.drop 1) =
      s.select (Target.flutter.arrangementKeys.drop 1) :=
    s.select_erase (mt List.mem_of_mem_drop hk)
  rw [Target.arrangementKeys, List.drop_one, List.tail_cons] at hs
  unfold arranged
  rw [hn "layout" (by decide), hn "spacing" (by decide), hs]

theorem below_containerWidget {key : String} (hk : key ∉ Target.flutter.arrangementKeys) (children : List String) :
    Below (key ∈ sizeKeys ++ frameKeys ++ decorationKeys ∧ ∃ v, s.get? key = some v)
      (fun n => weight n (containerWidget (s.erase key) children))
      (fun n => weight n (containerWidget s children)) := by
  have hd := below_nested (below_selected s key decorationKeys) "decoration" "BoxDecoration"
  have hb := below_arguments (below_arguments (below_selected s key sizeKeys) (below_selected s key frameKeys)) hd
  have hb := below_arguments hb (.refl (load · (if children.isEmpty then [] else [("child", arranged s children)])))
  have hn (n : Nat) :
      weight n (if ((s.erase key).select decorationKeys).isEmpty && ((s.erase key).select frameKeys).isEmpty then
        "SizedBox" else "Container") ≤
      weight n (if (s.select decorationKeys).isEmpty && (s.select frameKeys).isEmpty then
        "SizedBox" else "Container") := by
    have hw : weight n "SizedBox" ≤ weight n "Container" := by simp [weight, charWeight]
    cases hp : (s.select decorationKeys).isEmpty && (s.select frameKeys).isEmpty with
    | true =>
      obtain ⟨hd, hf⟩ := Bool.and_eq_true_iff.mp hp
      rw [select_erase_isEmpty hd, select_erase_isEmpty hf]
      exact Nat.le_refl _
    | false =>
      rw [if_neg Bool.false_ne_true]
      split
      · exact hw
      · exact Nat.le_refl _
  unfold containerWidget
  rw [arranged_erase s hk]
  refine (below_call hn hb).mono ?_
  simp only [List.mem_append]
  grind

theorem below_imageWidget (source : String) :
    Below (key ∈ sizeKeys ++ ["borderRadius"] ∧ ∃ v, s.get? key = some v)
      (fun n => weight n (imageWidget (s.erase key) source)) (fun n => weight n (imageWidget s source)) := by
  have hs := below_arguments (below_arguments (.refl (load · [("", Text.dart source)])) (below_selected s key sizeKeys))
    (.refl (load · [("fit", "BoxFit.cover")]))
  have hc := below_call (fun n => Nat.le_refl (weight n "Image.network")) hs
  refine (below_around s key hc "borderRadius" "ClipRRect" fun v => [("borderRadius", v)]).mono ?_
  simp only [List.mem_append]
  grind

def typeKeys : List String :=
  textStyleFields.map (·.1)

theorem below_textStyle :
    Below (key ∈ typeKeys ∧ ∃ v, s.get? key = some v) (load · (textStyle (s.erase key))) (load · (textStyle s)) := by
  have hf : Below (key ∈ typeKeys ∧ ∃ v, s.get? key = some v)
      (load · (textStyleFields.filterMap fun x => ((s.erase key).get? x.1).map (x.2, ·)))
      (load · (textStyleFields.filterMap fun x => (s.get? x.1).map (x.2, ·))) := by
    refine (below_found textStyleFields Prod.fst (fun x v => (x.2, v))
      (fun n e => weight n (argument e.1 e.2)) s key).mono ?_
    rintro ⟨hk, v, hv⟩
    obtain ⟨x, hx, he⟩ := List.mem_map.mp hk
    exact ⟨x, hx, he, v, hv, fun n => argument_pos n x.2 v⟩
  exact below_nested hf "style" "TextStyle"

theorem below_textSpan (text : String) :
    Below (key ∈ typeKeys ∧ ∃ v, s.get? key = some v) (fun n => weight n (textSpan ⟨text, some (s.erase key)⟩))
      (fun n => weight n (textSpan ⟨text, some s⟩)) := by
  have hs := below_arguments (.refl (load · [("text", Text.dart text)])) (below_textStyle s key)
  have hc := below_call (fun n => Nat.le_refl (weight n "TextSpan")) hs
  simp only [textSpan, weight_append]
  exact (hc.const_add _).mono .inr

/-- Runs are spans. -/
theorem textWidget_spans {runs : List Run} (h : ∀ text, runs ≠ [⟨text, none⟩]) :
    textWidget s runs = call "Text.rich"
      ([("", call "TextSpan" [("children", list (runs.map textSpan))])] ++ s.select ["textAlign"]) := by
  unfold textWidget
  dsimp only
  split
  · exact absurd rfl (h _)
  · rfl

theorem weight_list (n : Nat) (items : List String) :
    weight n (list items) =
      weight n "[" + (items.map fun item => weight (n + 2) item + weight n ",").sum + weight n "\n]" := by
  simp only [list, weight_append, weight_join, List.map_map, Function.comp_def, weight_indent]

theorem below_textWidget_run (own : Styles) (before after : List Run) (text : String) :
    Below (key ∈ typeKeys ∧ ∃ v, s.get? key = some v)
      (fun n => weight n (textWidget own (before ++ ⟨text, some (s.erase key)⟩ :: after)))
      (fun n => weight n (textWidget own (before ++ ⟨text, some s⟩ :: after))) := by
  have hl : Below (key ∈ typeKeys ∧ ∃ v, s.get? key = some v)
      (fun n => weight n (list ((before ++ ⟨text, some (s.erase key)⟩ :: after).map textSpan)))
      (fun n => weight n (list ((before ++ ⟨text, some s⟩ :: after).map textSpan))) := by
    simp only [weight_list, List.map_append, List.map_cons, List.sum_append, List.sum_cons]
    exact ((((((below_textSpan s key text).shift 2).add_const _).add_const _).const_add _).const_add _).add_const _
  have hc := below_call (fun n => Nat.le_refl (weight n "TextSpan")) (below_argument hl "children")
  have ha := below_arguments (below_argument hc "") (.refl (load · (own.select ["textAlign"])))
  rw [textWidget_spans own (Run.ne_plain _ _ _ _), textWidget_spans own (Run.ne_plain _ _ _ _)]
  exact (below_call (fun n => Nat.le_refl (weight n "Text.rich")) ha).mono .inl

/-- An only run without styles of its own is written in the type of the element. -/
def ownTypeKeys : List Run → List String
  | [⟨_, none⟩] => typeKeys
  | _ => []

theorem below_textWidget (runs : List Run) :
    Below (key ∈ ["textAlign"] ++ ownTypeKeys runs ∧ ∃ v, s.get? key = some v)
      (fun n => weight n (textWidget (s.erase key) runs)) (fun n => weight n (textWidget s runs)) := by
  have ha := below_selected s key ["textAlign"]
  by_cases hr : ∃ text, runs = [⟨text, none⟩]
  · obtain ⟨text, rfl⟩ := hr
    have hs := below_arguments (below_arguments (.refl (load · [("", Text.dart text)])) ha) (below_textStyle s key)
    refine (below_call (fun n => Nat.le_refl (weight n "Text")) hs).mono ?_
    rintro ⟨hk, hv⟩
    exact (List.mem_append.mp hk).imp (fun hk => .inr ⟨hk, hv⟩) fun hk => ⟨hk, hv⟩
  · have hs := below_arguments
      (.refl (load · [("", call "TextSpan" [("children", list (runs.map textSpan))])])) ha
    have hn : ownTypeKeys runs = [] := by
      unfold ownTypeKeys
      split
      · exact absurd ⟨_, rfl⟩ hr
      · rfl
    rw [hn, textWidget_spans _ fun text he => hr ⟨text, he⟩, textWidget_spans _ fun text he => hr ⟨text, he⟩]
    exact (below_call (fun n => Nat.le_refl (weight n "Text.rich")) hs).mono .inr

theorem below_sized (h : Below gone (weight · w) (weight · w')) :
    Below (key ∈ sizeKeys ∧ (∃ v, s.get? key = some v) ∨ gone) (fun n => weight n (sized (s.erase key) w))
      (fun n => weight n (sized s w')) :=
  below_boxed (below_selected s key sizeKeys) h "SizedBox"

end

/-- The keys that an element is written by, apart from the arrangement of its children. -/
def shownKeys : Element → List String
  | .container .. => sizeKeys ++ frameKeys ++ decorationKeys ++ wrapKeys
  | .image .. => sizeKeys ++ ["borderRadius"] ++ wrapKeys
  | .text _ _ runs => sizeKeys ++ (["textAlign"] ++ ownTypeKeys runs) ++ wrapKeys

theorem below_render (showNames : Bool) (e : Element) {key : String} (hk : key ∉ Target.flutter.arrangementKeys)
    (hf : e.styles.contains "flex" = true → (e.styles.select ["left", "top"]).isEmpty = true) :
    Below (key ∈ shownKeys e ∧ ∃ v, e.styles.get? key = some v)
      (fun n => weight n (Target.flutter.render showNames (e.erase key)))
      (fun n => weight n (Target.flutter.render showNames e)) := by
  have hw {keys : List String} (hk : key ∈ keys ++ wrapKeys ∧ ∃ v, e.styles.get? key = some v) :
      (key ∈ keys ∧ ∃ v, e.styles.get? key = some v) ∨ key ∈ wrapKeys ∧ ∃ v, e.styles.get? key = some v := by
    simpa only [List.mem_append, or_and_right] using hk
  cases e with
  | container name styles children =>
    have hb := below_wrapped styles key
      (below_containerWidget styles hk (Target.flutter.renderAll showNames children)) hf
    exact (below_named hb (Target.label showNames name)).mono hw
  | image name styles source =>
    have hb := below_wrapped styles key (below_imageWidget styles key source) hf
    exact (below_named hb (Target.label showNames name)).mono hw
  | text name styles runs =>
    have hs := below_sized styles key (below_textWidget styles key runs)
    have hb := below_wrapped styles key hs hf
    refine (below_named hb (Target.label showNames name)).mono fun g => (hw g).imp_left fun g => ?_
    simpa only [List.mem_append, or_and_right, Element.styles] using g

theorem flex_without_coordinates (p : Piece Float) (h : (Target.flutter.element p).styles.contains "flex" = true) :
    ((Target.flutter.element p).styles.select ["left", "top"]).isEmpty = true := by
  have hf : p.slot.isFree = false := by
    rw [Bool.eq_false_iff]
    intro hf
    rw [Target.element_styles, Target.not_contains_flex] at h
    · cases h
    · refine fun z hz => Piece.size_within hz fun flow he => ?_
      rw [he] at hf
      cases hf
  refine List.isEmpty_iff.mpr (List.filterMap_eq_nil_iff.mpr fun k hk => ?_)
  have hc := Target.contains_coordinateKey_element (t := .flutter) (p := p) hk
  rw [hf, ← Styles.get?_eq_none_iff] at hc
  rw [hc]
  rfl

theorem keys_placement {s : Subject} {slot : Slot Float} {hug : Hug} {a : Aspect} (h : a ∈ s.placement slot hug) :
    keysOf a ⊆ sizeKeys ++ wrapKeys := by
  rcases List.mem_append.mp h with h | h
  · rcases List.mem_append.mp h with h | h
    · rw [List.mem_singleton.mp h]
      simp [keysOf, sizeKeys, wrapKeys]
    · unfold Subject.coordinates at h
      split at h
      · rw [List.mem_singleton.mp h]
        simp [keysOf, sizeKeys, wrapKeys]
      · cases h
  · unfold Subject.blend at h
    split at h
    · cases h
    · rw [List.mem_singleton.mp h]
      simp [keysOf, sizeKeys, wrapKeys]

theorem keys_fill {s : Subject} {paints : List Paint} {a : Aspect} (h : a ∈ s.fill paints) :
    keysOf a ⊆ decorationKeys := by
  obtain ⟨fill, -, rfl⟩ := List.mem_map.mp h
  simp [keysOf, decorationKeys]

theorem keys_shape {s : Subject} {look : ShapeLook} {a : Aspect} (h : a ∈ s.shape look) :
    keysOf a ⊆ (if look = .image then ["borderRadius", "border", "boxShadow"] else decorationKeys) ++ wrapKeys := by
  simp only [Subject.shape, List.mem_append, or_assoc] at h
  rcases h with h | h | h | h | h
  · split at h
    · cases h
    · rw [if_neg ‹_›]
      exact List.subset_append_of_subset_left _ (keys_fill h)
  · obtain ⟨r, -, rfl⟩ := List.mem_map.mp h
    split <;> simp [keysOf, decorationKeys]
  · obtain ⟨stroke, -, rfl⟩ := List.mem_map.mp h
    split <;> simp [keysOf, decorationKeys]
  · split at h
    · cases h
    · rw [List.mem_singleton.mp h]
      split <;> simp [keysOf, decorationKeys]
  · split at h
    · cases h
    · rw [List.mem_singleton.mp h]
      simp [keysOf, wrapKeys]

theorem keys_frame {flow : Option Flow} {clips hasChildren : Bool} {a : Aspect}
    (h : a ∈ Subject.clip clips ++ Subject.layout flow hasChildren) :
    keysOf a ⊆ frameKeys ++ Target.flutter.arrangementKeys := by
  rcases List.mem_append.mp h with h | h
  · unfold Subject.clip at h
    split at h
    · rw [List.mem_singleton.mp h]
      simp [keysOf, frameKeys]
    · cases h
  · unfold Subject.layout at h
    split at h
    · rw [List.mem_singleton.mp h]
      simp [keysOf, frameKeys, Target.arrangementKeys]
    · split at h
      · rw [List.mem_singleton.mp h]
        simp [keysOf, Target.arrangementKeys]
      · cases h

theorem keys_typography {s : Subject} {box : TextBox} {a : Aspect} (h : a ∈ Piece.onlyRun s box) :
    ∃ run, box.shownRuns = [run] ∧ keysOf a ⊆ typeKeys := by
  unfold Piece.onlyRun at h
  split at h
  · rename_i run hr
    rw [List.mem_singleton.mp h]
    exact ⟨run, hr, by simp [keysOf, typeKeys, textStyleFields]⟩
  · cases h

/-- Keys that an image has a place for neither in its widget nor around it. -/
def imageGaps : Element → List String
  | .image .. => ["border", "boxShadow"]
  | _ => []

/-- Whatever a piece says of its look is among what its element is written by. -/
theorem mem_shownKeys {p : Piece Float} {a : Aspect} (ha : a ∈ p.aspects) {k : String} (hk : k ∈ keysOf a)
    (hn : k ∉ Target.flutter.arrangementKeys) (hi : k ∉ imageGaps (Target.flutter.element p)) :
    k ∈ shownKeys (Target.flutter.element p) := by
  have hbox : k ∈ sizeKeys ++ wrapKeys ∨ k ∈ decorationKeys ++ wrapKeys ∨ k ∈ frameKeys →
      k ∈ sizeKeys ++ frameKeys ++ decorationKeys ++ wrapKeys := by
    simp only [List.mem_append]
    grind
  cases p with
  | frame slot base flow clips children =>
    simp only [Piece.aspects, List.append_assoc (_ ++ _), List.mem_append (s := _ ++ _)] at ha
    rcases ha with ha | ha
    · rcases List.mem_append.mp ha with ha | ha
      · exact hbox (.inl (keys_placement ha hk))
      · exact hbox (.inr (.inl (keys_shape ha hk)))
    · exact hbox (.inr (.inr ((List.mem_append.mp (keys_frame ha hk)).resolve_right hn)))
  | group slot base children =>
    rcases List.mem_append.mp ha with ha | ha
    · have hp : a ∈ (Subject.ofBase base).placement slot {} := by
        split at ha
        · exact List.mem_append_right _ ha
        · exact ha
      exact hbox (.inl (keys_placement hp hk))
    · exact hbox (.inr (.inr ((List.mem_append.mp ((@keys_frame none false true a ha) hk)).resolve_right hn)))
  | shape slot base ellipse =>
    rw [Target.element, Target.shapeElement_eq] at hi ⊢
    rcases List.mem_append.mp ha with ha | ha
    · have hp := keys_placement ha hk
      split
      · simp only [shownKeys, List.mem_append] at hp ⊢
        exact hp.imp_left .inl
      · exact hbox (.inl hp)
    · have hs := keys_shape ha hk
      unfold Piece.shapeLook at hs
      split <;> rename_i hf
      · rw [if_pos hf] at hi
        rw [if_pos hf, if_pos rfl] at hs
        simp only [shownKeys, imageGaps, List.mem_append, List.mem_cons, List.not_mem_nil, or_false] at hi hs ⊢
        grind
      · rw [if_neg hf, if_neg (by split <;> simp)] at hs
        exact hbox (.inr (.inl hs))
  | line slot base =>
    rcases List.mem_append.mp ha with ha | ha
    · exact hbox (.inl (keys_placement ha hk))
    · exact hbox (.inr (.inl (List.mem_append_left _ (keys_fill ha hk))))
  | text slot base box =>
    rw [Target.element, Target.textElement_eq, shownKeys]
    simp only [Piece.aspects, List.mem_append] at ha ⊢
    rcases ha with (ha | ha) | ha
    · have hp := keys_placement ha hk
      simp only [List.mem_append] at hp
      exact hp.imp_left .inl
    · rw [List.mem_singleton.mp ha] at hk
      exact .inl (.inr (.inl hk))
    · obtain ⟨run, hr, hs⟩ := keys_typography ha
      rw [Target.runsOf, hr]
      exact .inl (.inr (.inr (hs hk)))

theorem get?_empty (aspects : List Aspect) : (Target.flutter.styles aspects).get? "" = none := by
  rw [Option.eq_none_iff_forall_ne_some]
  intro v hv
  obtain ⟨a, -, ha⟩ := Target.exists_keysOf hv
  cases a <;> simp [Target.keysOf, keysOf] at ha

theorem showsStyles (showNames : Bool) (p : Piece Float) :
    Target.flutter.ShowsStyles showNames (Target.flutter.arrangementKeys ++ imageGaps (Target.flutter.element p)) []
      (Target.flutter.element p) := by
  refine .of_below (fun key hk => ?_) fun i s key hi _ => ?_
  · obtain ⟨hk, hg⟩ := not_or.mp (mt List.mem_append.mpr hk)
    refine (below_render showNames _ hk (flex_without_coordinates p)).mono ?_
    rintro ⟨v, hv, -⟩
    refine ⟨?_, v, hv⟩
    rw [Target.element_styles] at hv
    obtain ⟨a, ha, hka⟩ := Target.exists_keysOf hv
    exact mem_shownKeys ha hka hk hg
  · have hm : (∃ v, s.get? key = some v ∧ v ≠ "") → key ∈ typeKeys ∧ ∃ v, s.get? key = some v := by
      rintro ⟨v, hv, -⟩
      refine ⟨?_, v, hv⟩
      obtain ⟨base, run, rfl⟩ := Target.ofRun?_element hi
      obtain ⟨a, ha, hka⟩ := Target.exists_keysOf hv
      rw [List.mem_singleton.mp ha] at hka
      exact hka
    obtain ⟨name, styles, before, text, after, he, hr⟩ := Element.exists_of_ofRun? hi
    -- Nothing is taken from the styles around the runs, so an absent key may as well be.
    have hn : styles.get? "" = none := by
      have hs := Target.element_styles .flutter p
      rw [he, Element.styles] at hs
      rw [hs]
      exact get?_empty _
    have hf := flex_without_coordinates p
    rw [he] at hf
    have hb := below_sized styles "" ((below_textWidget_run s key styles before after text).mono hm)
    have hb := below_named (below_wrapped styles "" hb hf) (Target.label showNames name)
    rw [Styles.erase_of_none hn] at hb
    rw [hr, he]
    exact hb.mono fun g => .inl (.inr g)

end SceneCode.Flutter
