import SceneCode.Proofs.Code.Expanded

namespace SceneCode
namespace Dart
open Code (IsWord)
open Flutter (arranged around call containerWidget imageWidget list named placed sized speakingKeys textSpan textStyle
  textWidget wrapped)

namespace Expr

mutual
/-- The names of the arguments of each call of a name, those of a call before those of the calls in it. -/
def calls (sought : String) : Expr → List (List String)
  | literal _ | name _ => []
  | call callee arguments =>
    (if callee = sought then [arguments.map Prod.fst] else []) ++ callsInArguments sought arguments
  | list items => callsInItems sought items

def callsInArguments (sought : String) : List (String × Expr) → List (List String)
  | [] => []
  | (_, expr) :: arguments => expr.calls sought ++ callsInArguments sought arguments

def callsInItems (sought : String) : List Expr → List (List String)
  | [] => []
  | expr :: items => expr.calls sought ++ callsInItems sought items
end

theorem callsInArguments_eq (sought : String) (arguments : List (String × Expr)) :
    callsInArguments sought arguments = arguments.flatMap fun argument => argument.2.calls sought := by
  induction arguments with
  | nil => rfl
  | cons argument arguments ih => rw [callsInArguments, ih, List.flatMap_cons]

theorem callsInItems_eq (sought : String) (items : List Expr) :
    callsInItems sought items = items.flatMap (calls sought) := by
  induction items with
  | nil => rfl
  | cons expr items ih => rw [callsInItems, ih, List.flatMap_cons]

mutual
/-- Each call of a name stands at one place. -/
theorem length_calls (sought : String) (place : Place) :
    (expr : Expr) → (expr.calls sought).length = (expr.places sought place).length
  | literal _ | name _ => rfl
  | call callee arguments => by
    have ha := length_callsInArguments sought callee arguments
    rw [calls, places, List.length_append, List.length_append, ha]
    split <;> rfl
  | list items => by
    rw [calls, places]
    exact length_callsInItems sought (.item place) items

theorem length_callsInArguments (sought callee : String) : (arguments : List (String × Expr)) →
    (callsInArguments sought arguments).length = (placesInArguments sought callee arguments).length
  | [] => rfl
  | (key, expr) :: arguments => by
    rw [callsInArguments, placesInArguments, List.length_append, List.length_append,
      length_calls sought (.argument callee key) expr, length_callsInArguments sought callee arguments]

theorem length_callsInItems (sought : String) (place : Place) :
    (items : List Expr) → (callsInItems sought items).length = (placesInItems sought place items).length
  | [] => rfl
  | expr :: items => by
    rw [callsInItems, placesInItems, List.length_append, List.length_append, length_calls sought place expr,
      length_callsInItems sought place items]
end

end Expr

/-- Whether a container that clips is decorated, by the names of its arguments. -/
def clip? (arguments : List String) : Option Bool :=
  if "clipBehavior" ∈ arguments then some (decide ("decoration" ∈ arguments)) else none

/-- Whether the containers that clip are decorated. -/
def Expr.clips (expr : Expr) : List Bool :=
  (expr.calls "Container").filterMap clip?

theorem Expr.clips_call (callee : String) (arguments : List (String × Expr)) : (Expr.call callee arguments).clips =
    (if callee = "Container" then clip? (arguments.map Prod.fst) else none).toList ++
      arguments.flatMap fun argument => argument.2.clips := by
  rw [clips, calls, List.filterMap_append, callsInArguments_eq, List.filterMap_flatMap]
  congr 1
  split
  · rw [List.filterMap_cons, List.filterMap_nil]
    cases clip? (arguments.map Prod.fst) <;> rfl
  · rfl

theorem Expr.clips_list (items : List Expr) : (Expr.list items).clips = items.flatMap clips := by
  rw [clips, calls, callsInItems_eq, List.filterMap_flatMap]
  rfl

/-- Code with these containers that clip. -/
def Clips (code : String) (cs : List Bool) : Prop :=
  Reads code ∧ (value code).clips = cs

/-- Arguments with these containers that clip. -/
structure ClipsAll (as : List (String × String)) (cs : List Bool) : Prop where
  reads : ∀ a ∈ as, IsKey a.1 ∧ Reads a.2
  clips_eq : (as.flatMap fun a => (value a.2).clips) = cs

/-- Children with these containers that clip. -/
structure ClipsEach (fs : List String) (cs : List Bool) : Prop where
  reads : ∀ f ∈ fs, Reads f
  clips_eq : (fs.flatMap fun f => (value f).clips) = cs

section
variable {code name key v w : String} {as bs : List (String × String)} {fs : List String} {cs ds : List Bool}

/-- Code without containers has none that clip. -/
theorem clips_of_places (hr : Reads code) (h : (value code).places "Container" .top = []) : Clips code [] := by
  refine ⟨hr, ?_⟩
  have hc : (value code).calls "Container" = [] := by
    rw [← List.length_eq_zero_iff, Expr.length_calls "Container" .top, h, List.length_nil]
  rw [Expr.clips, hc, List.filterMap_nil]

theorem Speaks.clips {texts : List String} (h : Speaks code texts) : Clips code [] :=
  clips_of_places h.1 (h.2.2 "Container" (by decide) .top)

theorem Quiet.clips (h : Quiet code) : Clips code [] :=
  clips_of_places h.1 (h.2.2 "Container" (by decide) .top)

namespace ClipsAll

theorem append (h : ClipsAll as cs) (h' : ClipsAll bs ds) : ClipsAll (as ++ bs) (cs ++ ds) where
  reads := List.forall_mem_append.mpr ⟨h.reads, h'.reads⟩
  clips_eq := by rw [List.flatMap_append, h.clips_eq, h'.clips_eq]

theorem single (hk : IsKey key) (h : Clips v cs) : ClipsAll [(key, v)] cs where
  reads := List.forall_mem_singleton.mpr ⟨hk, h.1⟩
  clips_eq := by rw [List.flatMap_singleton, h.2]

theorem still (h : ∀ a ∈ as, IsKey a.1 ∧ Clips a.2 []) : ClipsAll as [] where
  reads a ha := ⟨(h a ha).1, (h a ha).2.1⟩
  clips_eq := List.flatMap_eq_nil_iff.mpr fun a ha => (h a ha).2.2

theorem call (hn : IsWord name) (h : ClipsAll as cs) :
    Clips (call name as) ((if name = "Container" then clip? (as.map Prod.fst) else none).toList ++ cs) := by
  have hd := denotes_call hn h.reads
  refine ⟨hd.reads, ?_⟩
  rw [hd.value_eq, Expr.clips_call, List.flatMap_map, List.map_map, h.clips_eq]
  rfl

/-- Only a container has something to clip. -/
theorem other (hn : IsWord name ∧ name ≠ "Container") (h : ClipsAll as cs) : Clips (Flutter.call name as) cs := by
  have hc := h.call hn.1
  rwa [if_neg hn.2] at hc

/-- No arguments, or one that is a call of them all. -/
theorem boxed (hk : IsKey key) (hn : IsWord name ∧ name ≠ "Container") (h : ClipsAll as []) :
    ClipsAll (if as.isEmpty then [] else [(key, Flutter.call name as)]) [] := by
  split
  · exact .still (List.forall_mem_nil _)
  · exact .single hk (h.other hn)

end ClipsAll

theorem ClipsEach.list (h : ClipsEach fs cs) : Clips (list fs) cs := by
  have hd := denotes_list h.reads
  refine ⟨hd.reads, ?_⟩
  rw [hd.value_eq, Expr.clips_list, List.flatMap_map]
  exact h.clips_eq

theorem ClipsEach.nil : ClipsEach [] [] :=
  ⟨List.forall_mem_nil _, rfl⟩

/-- A widget on a line of its own, in front of others. -/
theorem ClipsEach.cons (hw : Clips w cs) (hf : ClipsEach fs ds) : ClipsEach (named none w :: fs) (cs ++ ds) := by
  have hd := denotes_line hw.1.denotes
  refine ⟨List.forall_mem_cons.mpr ⟨hd.reads, hf.reads⟩, ?_⟩
  rw [List.flatMap_cons, hf.clips_eq, named, hd.value_eq, hw.2]

end

section
variable {s : Styles} (h : Voiced s) {key name w : String} {fs : List String} {cs : List Bool}
include h

theorem clips_get? {v : String} (hv : s.get? key = some v) : Clips v [] := by
  obtain ⟨⟨texts, hs⟩, -⟩ := h (key, v) (Styles.mem_entries_of_get? hv)
  exact hs.clips

/-- The values of styles have no containers, whatever they are arguments for. -/
theorem clipsAll_fields {fields : List (String × String)} (hk : ∀ field ∈ fields, IsKey field.2) :
    ClipsAll (fields.filterMap fun (key, field) => (s.get? key).map (field, ·)) [] := by
  refine .still fun a ha => ?_
  obtain ⟨⟨key, field⟩, hm, he⟩ := List.mem_filterMap.mp ha
  obtain ⟨v, hv, rfl⟩ := Option.map_eq_some_iff.mp he
  exact ⟨hk _ hm, clips_get? h hv⟩

theorem clipsAll_select {keys : List String} (hk : ∀ key ∈ keys, IsKey key) : ClipsAll (s.select keys) [] := by
  have hs : s.select keys =
      (keys.map fun key => (key, key)).filterMap fun (key, field) => (s.get? key).map (field, ·) := by
    rw [List.filterMap_map]
    rfl
  rw [hs]
  exact clipsAll_fields h (List.forall_mem_map.mpr hk)

theorem clips_around {arguments : String → List (String × String)} (hk : key ∉ speakingKeys)
    (hn : IsWord name ∧ name ∉ watched) (ha : ∀ v, Quiet v → ∀ a ∈ arguments v, IsKey a.1 ∧ Quiet a.2)
    (hw : Clips w cs) : Clips (around s key name arguments w) cs := by
  unfold around
  cases hg : s.get? key with
  | none => exact hw
  | some v =>
    have hc : IsKey "child" := by decide
    have hne : name ≠ "Container" := fun he => hn.2 (he ▸ by decide)
    have hq := ClipsAll.still fun a hm => (ha v (quiet_get? h hg hk) a hm).imp_right Quiet.clips
    exact (hq.append (.single hc hw)).other ⟨hn.1, hne⟩

theorem clips_placed (hw : Clips w cs) : Clips (placed s w) cs := by
  have hc : ClipsAll [("child", w)] cs := .single (by decide) hw
  unfold placed
  dsimp only
  split
  · exact hc.other (by decide)
  · split
    · exact hw
    · exact ((clipsAll_select h (by decide)).append hc).other (by decide)

theorem clips_wrapped (hw : Clips w cs) : Clips (wrapped s w) cs :=
  wrapped_of (Clips · cs) (Clips · cs) (fun _ _ _ _ hk hn ha hw => clips_around h hk hn ha hw)
    (fun _ => clips_placed h) w hw

theorem clips_arranged (hf : ClipsEach fs cs) : Clips (arranged s fs) cs := by
  have hc : ClipsAll [("children", list fs)] cs := .single (by decide) hf.list
  unfold arranged
  dsimp only
  split
  · rename_i hl
    refine ((clipsAll_select h (by decide)).append hc).other ?_
    rcases hl with hl | hl <;> rw [hl] <;> decide
  · split
    · have hq := ClipsAll.still fun a hm => (quiet_gaps h a hm).imp_right Quiet.clips
      exact (hq.append hc).other (by decide)
    · exact hc.other (by decide)

theorem clips_sized (hw : Clips w cs) : Clips (sized s w) cs := by
  have hc : ClipsAll [("child", w)] cs := .single (by decide) hw
  unfold sized
  dsimp only
  split
  · exact hw
  · exact ((clipsAll_select h (by decide)).append hc).other (by decide)

theorem clips_imageWidget (source : String) : Clips (imageWidget s source) [] := by
  have hk : IsKey "" ∧ IsKey "fit" ∧ IsKey "borderRadius" := by decide
  have hf : ClipsAll [("fit", "BoxFit.cover")] [] := .single hk.2.1 (Quiet.of_word (by decide)).clips
  have hs : ClipsAll [("", Text.dart source)] [] := .single hk.1 (Flutter.speaks_dart source).clips
  have ha := (hs.append (clipsAll_select h (by decide : ∀ key ∈ ["width", "height"], _))).append hf
  refine clips_around h (by decide) (by decide) (fun v hv => ?_) (ha.other (by decide))
  exact List.forall_mem_singleton.mpr ⟨hk.2.2, hv⟩

theorem clipsAll_textStyle : ClipsAll (textStyle s) [] :=
  (clipsAll_fields h (by decide)).boxed (by decide) (by decide)

omit h in
theorem clips_textSpan {run : Run} (hr : ∀ s ∈ run.styles, Voiced s) : Clips (textSpan run) [] := by
  have hs : ClipsAll ((run.styles.map textStyle).getD []) [] := by
    cases hs : run.styles with
    | none => exact .still (List.forall_mem_nil _)
    | some s => exact clipsAll_textStyle (hr s hs)
  have ht : ClipsAll [("text", Text.dart run.text)] [] := .single (by decide) (Flutter.speaks_dart run.text).clips
  have hw : Clips (call "TextSpan" ([("text", Text.dart run.text)] ++ _)) [] := (ht.append hs).other (by decide)
  have hd := denotes_line hw.1.denotes
  refine ⟨hd.reads, ?_⟩
  rw [textSpan, ← List.singleton_append, hd.value_eq]
  exact hw.2

theorem clips_textWidget {runs : List Run} (hr : ∀ run ∈ runs, ∀ s ∈ run.styles, Voiced s) :
    Clips (textWidget s runs) [] := by
  have ha := clipsAll_select h (by decide : ∀ key ∈ ["textAlign"], IsKey key)
  unfold textWidget
  split
  · rename_i text
    have ht : ClipsAll [("", Text.dart text)] [] := .single (by decide) (Flutter.speaks_dart text).clips
    exact ((ht.append ha).append (clipsAll_textStyle h)).other (by decide)
  · have hf : ClipsEach (runs.map textSpan) [] := by
      constructor
      · exact List.forall_mem_map.mpr fun run hm => (clips_textSpan (hr run hm)).1
      · rw [List.flatMap_map, List.flatMap_eq_nil_iff]
        exact fun run hm => (clips_textSpan (hr run hm)).2
    have hs : ClipsAll [("children", list (runs.map textSpan))] [] := .single (by decide) hf.list
    have hc : Clips (call "TextSpan" [("children", list (runs.map textSpan))]) [] := hs.other (by decide)
    have ht : ClipsAll [("", call "TextSpan" [("children", list (runs.map textSpan))])] [] := .single (by decide) hc
    exact (ht.append ha).other (by decide)

end

/-- What a decoration is made of. -/
def decorationKeys : List String :=
  ["color", "gradient", "image", "border", "borderRadius", "boxShadow"]

/-- Whether styles that clip decorate. -/
def styledClip? (s : Styles) : Option Bool :=
  if s.contains "clipBehavior" then some (decorationKeys.any s.contains) else none

section
variable {s : Styles} {fs : List String} {cs : List Bool}

theorem names_select (s : Styles) (keys : List String) : (s.select keys).map Prod.fst = keys.filter s.contains := by
  induction keys with
  | nil => rfl
  | cons key keys ih =>
    unfold Styles.select at ih ⊢
    cases hg : s.get? key <;> simp [Styles.contains, hg, ih]

theorem select_isEmpty (s : Styles) (keys : List String) : (s.select keys).isEmpty = !keys.any s.contains := by
  rw [← List.isEmpty_map (f := Prod.fst), names_select]
  cases h : keys.any s.contains <;> simp_all

/-- The names of the arguments say whether the styles clip and decorate. -/
theorem clip?_arguments (decoration child : String) : clip? ((s.select ["width", "height"] ++
    s.select ["padding", "clipBehavior"] ++
    (if (s.select decorationKeys).isEmpty then [] else [("decoration", decoration)]) ++
    (if fs.isEmpty then [] else [("child", child)])).map Prod.fst) = styledClip? s := by
  have hd : (s.select decorationKeys).isEmpty = !decorationKeys.any s.contains := select_isEmpty s decorationKeys
  have hc (b : Bool) (key value : String) :
      ((if b then [] else [(key, value)]).map Prod.fst) = if b then [] else [key] := by
    cases b <;> rfl
  rw [hd]
  simp only [List.map_append, names_select, hc, clip?, styledClip?, List.mem_append, List.mem_filter]
  cases decorationKeys.any s.contains <;> cases fs.isEmpty <;> simp

theorem clips_containerWidget (h : Voiced s) (hf : ClipsEach fs cs) :
    Clips (containerWidget s fs) ((styledClip? s).toList ++ cs) := by
  have hk : IsKey "decoration" ∧ IsKey "child" := by decide
  have hz := clipsAll_select h (by decide : ∀ key ∈ ["width", "height"], IsKey key)
  have hp := clipsAll_select h (by decide : ∀ key ∈ ["padding", "clipBehavior"], IsKey key)
  have hd := (clipsAll_select h (by decide : ∀ key ∈ decorationKeys, IsKey key)).boxed hk.1
    (by decide : IsWord "BoxDecoration" ∧ _)
  have hc : ClipsAll (if fs.isEmpty then [] else [("child", arranged s fs)]) cs := by
    split
    · have he : fs = [] := List.isEmpty_iff.mp ‹_›
      subst he
      rw [← hf.clips_eq]
      exact .still (List.forall_mem_nil _)
    · exact .single hk.2 (clips_arranged h hf)
  have ha := ((hz.append hp).append hd).append hc
  unfold containerWidget
  dsimp only
  split
  · rename_i he
    -- A box that has a size and nothing else does not clip.
    have hn : styledClip? s = none := by
      rw [Bool.and_eq_true, select_isEmpty, select_isEmpty] at he
      simp_all [styledClip?]
    rw [hn]
    exact ha.other (by decide)
  · have hn : IsWord "Container" := by decide
    have hw := ha.call hn
    rw [if_pos rfl, clip?_arguments] at hw
    exact hw

end
end Dart

/-- Says something that goes into a decoration. -/
def Aspect.decorates : Aspect → Bool
  | .background .. | .border _ | .radius .. | .shadows _ => true
  | _ => false

/-- Has a fill, rounded corners, a border or a shadow. -/
def Base.isDecorated (b : Base) : Bool :=
  (Fill.top? b.fills).isSome || (b.radius? false).isSome || b.stroke?.isSome || !b.shadows.isEmpty

namespace Subject
variable (s : Subject)

theorem placement_decorates (slot : Slot Float) (hug : Hug) : (s.placement slot hug).any Aspect.decorates = false := by
  rw [List.any_eq_false]
  intro a ha
  have hp := s.isPlacement_placement slot hug a ha
  cases a with
  | size | position | blend => exact Bool.false_ne_true
  | _ => exact hp.elim

theorem layout_decorates (flow : Option Flow) (hasChildren : Bool) :
    (layout flow hasChildren).any Aspect.decorates = false := by
  cases flow <;> cases hasChildren <;> rfl

theorem shape_decorates : (s.shape .box).any Aspect.decorates = s.base.isDecorated := by
  have ho {β : Type} (x : Option β) : (x.toList.any fun _ => true) = x.isSome := by cases x <;> rfl
  have hs : (if s.base.shadows.isEmpty then [] else [.shadows s.base.shadows]).any Aspect.decorates =
      !s.base.shadows.isEmpty := by
    cases s.base.shadows.isEmpty <;> rfl
  have hb : (if s.base.blur.isEmpty then [] else [.blur s.base.blur]).any Aspect.decorates = false := by
    cases s.base.blur.isEmpty <;> rfl
  have he : (ShapeLook.box == .ellipse) = false := rfl
  rw [shape, List.any_append, List.any_append, hs, hb, Bool.or_false]
  simp [fill, Base.isDecorated, Function.comp_def, Aspect.decorates, ho, he, Bool.or_assoc]

theorem clip_not_mem_shape (look : ShapeLook) : .clip ∉ s.shape look := by
  simp only [shape, fill]
  split <;> simp

end Subject

namespace Dart

theorem decorates_iff (a : Aspect) :
    a.decorates = true ↔ ∃ key ∈ decorationKeys, key ∈ (Flutter.declarations a).map (·.key) := by
  constructor
  · intro h
    cases a with
    | background fill width height =>
      cases fill with
      | solid => exact ⟨"color", by decide, List.mem_singleton_self _⟩
      | gradient => exact ⟨"gradient", by decide, List.mem_singleton_self _⟩
      | image => exact ⟨"image", by decide, List.mem_singleton_self _⟩
    | border => exact ⟨"border", by decide, List.mem_singleton_self _⟩
    | radius => exact ⟨"borderRadius", by decide, List.mem_singleton_self _⟩
    | shadows => exact ⟨"boxShadow", by decide, List.mem_singleton_self _⟩
    | _ => cases h
  · rintro ⟨key, hk, hm⟩
    obtain ⟨d, hd, rfl⟩ := List.mem_map.mp hm
    have hkey := Target.flutter.key_mem_keysOf a hd
    cases a with
    | background | border | radius | shadows => rfl
    | _ =>
      have hn : d.key ∉ decorationKeys := List.disjoint_left.mp (by
        simp [Target.keysOf, Flutter.keysOf, decorationKeys]) hkey
      exact absurd hk hn

theorem contains_decoration (aspects : List Aspect) :
    decorationKeys.any (Target.flutter.styles aspects).contains = aspects.any Aspect.decorates := by
  rw [Bool.eq_iff_iff, List.any_eq_true, List.any_eq_true]
  simp only [decorates_iff, Target.contains_styles]
  constructor
  · rintro ⟨key, hk, a, ha, hm⟩
    exact ⟨a, ha, key, hk, hm⟩
  · rintro ⟨a, ha, key, hk, hm⟩
    exact ⟨key, hk, a, ha, hm⟩

theorem contains_clipBehavior (aspects : List Aspect) :
    (Target.flutter.styles aspects).contains "clipBehavior" = true ↔ .clip ∈ aspects := by
  rw [Target.contains_styles]
  constructor
  · rintro ⟨a, ha, hm⟩
    obtain ⟨d, hd, hk⟩ := List.mem_map.mp hm
    have hkey := Target.flutter.key_mem_keysOf a hd
    rw [hk] at hkey
    cases a with
    | clip => exact ha
    | _ => simp [Target.keysOf, Flutter.keysOf] at hkey
  · intro ha
    exact ⟨.clip, ha, List.mem_singleton_self _⟩

end Dart

namespace Node

/-- Whether a node that clips is decorated. -/
def clip? : Node → Option Bool
  | .frame base _ _ clips _ => if clips then some base.isDecorated else none
  | _ => none

/-- A frame that clips what is in it and has nothing to be decorated with. -/
def ClipsBare : Node → Prop
  | .frame base _ _ clips _ => clips = true ∧ base.isDecorated = false
  | _ => False

instance : DecidablePred Node.ClipsBare
  | .frame .. => inferInstanceAs (Decidable (_ ∧ _))
  | .group .. | .shape .. | .text .. | .unknown => .isFalse id

theorem clipsBare_iff (n : Node) : n.ClipsBare ↔ n.clip? = some false := by
  cases n with
  | frame base layout hint clips children => cases clips <;> simp [ClipsBare, clip?]
  | _ => simp [ClipsBare, clip?]

end Node

namespace Piece

/-- Whether a piece that clips is decorated. -/
def clip? : Piece Float → Option Bool
  | .frame _ base _ clips _ => if clips then some base.isDecorated else none
  | _ => none

theorem Shows.clip? {followHints : Bool} {p : Piece Float} {n : Node} (h : p.Shows followHints n) :
    p.clip? = n.clip? := by
  cases p <;> cases n <;> simp only [Shows] at h
  case frame.frame =>
    obtain ⟨rfl, -, rfl⟩ := h
    rfl
  all_goals rfl

theorem clip_mem {p : Piece Float} : .clip ∈ p.aspects ↔ p.clip?.isSome = true := by
  have hp (s : Subject) (slot : Slot Float) (hug : Hug) : .clip ∉ s.placement slot hug :=
    fun h => s.isPlacement_placement slot hug _ h
  cases p with
  | frame slot base flow clips children =>
    cases clips <;> cases flow <;>
      simp [aspects, Piece.clip?, hp, Subject.clip_not_mem_shape, Subject.clip, Subject.layout]
  | group slot base children => cases slot <;> simp [aspects, Piece.clip?, hp, Slot.isTop, Subject.blend]
  | shape slot base ellipse => simp [aspects, Piece.clip?, hp, Subject.clip_not_mem_shape]
  | line slot base => simp [aspects, Piece.clip?, hp, Subject.line, Subject.fill]
  | text slot base box =>
    have hr : .clip ∉ onlyRun (Subject.ofBase base) box := by
      unfold onlyRun
      split <;> simp [Subject.typography]
    simp [aspects, Piece.clip?, hp, Subject.textAlign, hr]

end Piece

namespace Dart
open Flutter (containerWidget named wrapped)

/-- The styles of a piece clip and decorate where the piece does. -/
theorem styledClip?_styles (p : Piece Float) : styledClip? (Target.flutter.styles p.aspects) = p.clip? := by
  rw [styledClip?, contains_decoration]
  by_cases hc : .clip ∈ p.aspects
  · have hs := Piece.clip_mem.mp hc
    rw [if_pos ((contains_clipBehavior _).mpr hc)]
    cases p with
    | frame slot base flow clips children =>
      cases clips with
      | false => cases hs
      | true =>
        simp only [Piece.aspects, List.any_append, Subject.placement_decorates, Subject.shape_decorates,
          Subject.layout_decorates, Bool.false_or, Bool.or_false]
        exact congrArg some (Bool.or_false _)
    | _ => cases hs
  · rw [if_neg (mt (contains_clipBehavior _).mp hc)]
    exact (Option.not_isSome_iff_eq_none.mp (mt Piece.clip_mem.mpr hc)).symm

theorem clips_container (p : Piece Float) {fs : List String} {cs : List Bool} (hf : ClipsEach fs cs) :
    Clips (wrapped (Target.flutter.styles p.aspects) (containerWidget (Target.flutter.styles p.aspects) fs))
      (p.clip?.toList ++ cs) := by
  have hv := voiced_styles p.aspects
  rw [← styledClip?_styles]
  exact clips_wrapped hv (clips_containerWidget hv hf)

/-- Whether the first of these pieces is decorated, if it clips. -/
def firstClip? (ps : List (Piece Float)) : Option Bool :=
  ps.head?.bind Piece.clip?

theorem filterMap_firstClip? (p : Piece Float) (above : List (Piece Float)) (chains : List (List (Piece Float))) :
    ((p :: above) :: chains).filterMap firstClip? = p.clip?.toList ++ chains.filterMap firstClip? := by
  rw [List.filterMap_eq_flatMap_toList, List.flatMap_cons, ← List.filterMap_eq_flatMap_toList]
  rfl

mutual
/-- The containers that clip come in the order of the pieces, each where the piece that it is of comes. -/
theorem clips_element (above : List (Piece Float)) (p : Piece Float) : ∃ widget,
    Target.flutter.render false (Target.flutter.element p) = named none widget ∧
      Clips widget ((p.tree.chainsUnder above).filterMap firstClip?) := by
  have hv := voiced_styles p.aspects
  -- What a piece says of itself comes first, then what the pieces in it say.
  rw [p.tree_eq, Tree.chainsUnder, filterMap_firstClip?]
  cases p with
  | frame slot base flow clips children =>
    have hf := clips_elements (.frame slot base flow clips children :: above) children
    exact ⟨_, rfl, clips_container (.frame slot base flow clips children) hf⟩
  | group slot base children =>
    have hf := clips_elements (.group slot base children :: above) children
    exact ⟨_, rfl, clips_container (.group slot base children) hf⟩
  | shape slot base ellipse =>
    rw [Target.element, Target.shapeElement_eq]
    split
    · exact ⟨_, rfl, clips_wrapped hv (clips_imageWidget hv _)⟩
    · exact ⟨_, rfl, clips_container (.shape slot base ellipse) .nil⟩
  | line slot base => exact ⟨_, rfl, clips_container (.line slot base) .nil⟩
  | text slot base box =>
    rw [Target.element, Target.textElement_eq]
    exact ⟨_, rfl, clips_wrapped hv (clips_sized hv (clips_textWidget hv (voiced_runs base box)))⟩

theorem clips_elements (above : List (Piece Float)) (ps : List (Piece Float)) :
    ClipsEach (Target.flutter.renderAll false (Target.flutter.elements ps))
      ((Tree.chainsAllUnder above (Piece.trees ps)).filterMap firstClip?) := by
  cases ps with
  | nil => exact .nil
  | cons p ps =>
    obtain ⟨w, hr, hw⟩ := clips_element above p
    rw [Target.elements, Target.renderAll, hr, Piece.trees, Tree.chainsAllUnder, List.filterMap_append]
    exact .cons hw (clips_elements above ps)
end

end Dart

/-- Whether the first of these nodes is decorated, if it clips. -/
def Occurrence.firstClip? (os : List Occurrence) : Option Bool :=
  os.head?.bind (·.node.clip?)

theorem Linked.firstClip?_eq {followHints : Bool} {fits : Slot Float → List Occurrence → List Node → Prop}
    {ps : List (Piece Float)} {os : List Occurrence} (h : Linked followHints fits ps os) :
    Dart.firstClip? ps = Occurrence.firstClip? os := by
  cases h with
  | nil => rfl
  | cons _ shows _ => exact shows.clip?

theorem Scene.clips_pieces (followHints : Bool) (nodes : List Node) :
    (Tree.chains (Piece.trees (Scene.pieces followHints nodes))).filterMap Dart.firstClip? =
      (Tree.chains (Scene.drawn nodes)).filterMap Occurrence.firstClip? := by
  have hm := (Scene.pieces_linked (SlotRule.any Base.position followHints) nodes).map_chains (·.firstClip?_eq)
  have hi := congrArg (List.filterMap id) hm
  simp only [List.filterMap_map, Function.id_comp] at hi
  exact hi

/-- The names of the arguments of each call of a constructor in some widgets. -/
def Dart.callsIn (name : String) (widgets : List Dart.Expr) : List (List String) :=
  widgets.flatMap (Dart.Expr.calls name)

theorem Dart.clips_callsIn (fragments : List String) :
    (Dart.callsIn "Container" (fragments.map Dart.value)).filterMap Dart.clip? =
      fragments.flatMap fun fragment => (Dart.value fragment).clips := by
  rw [callsIn, List.filterMap_flatMap, List.flatMap_map]
  rfl

theorem Dart.forall_clip? (calls : List (List String)) :
    (∀ arguments ∈ calls, "clipBehavior" ∈ arguments → "decoration" ∈ arguments) ↔
      false ∉ calls.filterMap clip? := by
  simp [clip?]

theorem Occurrence.firstClip?_eq_iff (os : List Occurrence) :
    firstClip? os = some false ↔ ∃ o ∈ os.head?, o.node.ClipsBare := by
  simp [firstClip?, Option.bind_eq_some_iff, Node.clipsBare_iff]

/-- In the code of a scene, the containers that clip are those of the drawn frames that do, and they are decorated where
the frames have a fill, rounded corners, a border or a shadow. So every container that clips has a decoration if and
only if every drawn frame that clips has one of these. Layer names that fit into comments make no difference. -/
theorem clips_decorated_iff (s : Settings) (preview : Bool) (nodes : List Node) (ht : s.target preview = .flutter)
    (hn : s.showLayerNames = true → ∀ l ∈ Scene.layers nodes, Comments.FitsLine l.name) :
    ∃ widgets, Dart.widgets? s.showLayerNames (generate s preview nodes) = some widgets ∧
      (Dart.callsIn "Container" widgets).filterMap Dart.clip? =
        (Tree.chains (Scene.drawn nodes)).filterMap Occurrence.firstClip? ∧
      ((∀ arguments ∈ Dart.callsIn "Container" widgets, "clipBehavior" ∈ arguments → "decoration" ∈ arguments) ↔
        ∀ chain ∈ Tree.chains (Scene.drawn nodes), ∀ o ∈ chain.head?, ¬ o.node.ClipsBare) := by
  obtain ⟨tokens, hl, hx, -⟩ := Dart.reads_elements (Scene.pieces s.optimizeLayout nodes)
  have he := Dart.clips_elements [] (Scene.pieces s.optimizeLayout nodes)
  rw [← Tree.chains, Scene.clips_pieces] at he
  have hp : (Dart.callsIn "Container" (List.map Dart.value _)).filterMap Dart.clip? = _ :=
    (Dart.clips_callsIn _).trans he.clips_eq
  refine ⟨_, ?_, hp, ?_⟩
  · rw [Dart.widgets?_generate s preview nodes ht hn, Dart.exprs?, Code.lex_page, hl]
    exact hx
  · rw [Dart.forall_clip?, hp]
    simp [Occurrence.firstClip?_eq_iff]

/-- A card without any paint that clips a photo wider than itself. -/
def plainCard : List Node :=
  [.frame (.named "Card" 0 0 300 100) {} none true [.shape .rectangle (.named "Photo" 0 0 400 100)]]

/-- Its container clips and has no decoration. -/
theorem plainCard_undecorated : ∃ widgets,
    Dart.widgets? true (generate { framework := .flutter, showLayerNames := true } false plainCard) = some widgets ∧
      ∃ arguments ∈ Dart.callsIn "Container" widgets, "clipBehavior" ∈ arguments ∧ "decoration" ∉ arguments := by
  have hn : ∀ l ∈ Scene.layers plainCard, Comments.FitsLine l.name := by decide +kernel
  obtain ⟨widgets, hw, -, hd⟩ :=
    clips_decorated_iff { framework := .flutter, showLayerNames := true } false plainCard rfl fun _ => hn
  have hc : ∃ chain ∈ Tree.chains (Scene.drawn plainCard), ∃ o ∈ chain.head?, o.node.ClipsBare := by
    decide +kernel
  obtain ⟨chain, hm, o, ho, hb⟩ := hc
  refine ⟨widgets, hw, ?_⟩
  by_contra hno
  have hall : ∀ arguments ∈ Dart.callsIn "Container" widgets, "clipBehavior" ∈ arguments → "decoration" ∈ arguments :=
    fun arguments ha hclip => by_contra fun hbare => hno ⟨arguments, ha, hclip, hbare⟩
  exact hd.mp hall chain hm o ho hb

end SceneCode
