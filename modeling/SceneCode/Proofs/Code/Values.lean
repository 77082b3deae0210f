import SceneCode.Proofs.Code.Calls
import SceneCode.Proofs.Code.Expressions
import SceneCode.Proofs.Code.Texts

namespace SceneCode.Dart
open Code (IsWord)
open Flutter (call)

/-- The widgets whose places and arguments are looked at: the one that fills a row or column, and the one that clips. -/
def watched : List String :=
  ["Expanded", "Container"]

/-- Has no literal and none of the watched widgets. -/
def Expr.Quiet (expr : Expr) : Prop :=
  expr.literals = [] ∧ ∀ name ∈ watched, ∀ place, expr.places name place = []

def Quiet (code : String) : Prop :=
  Reads code ∧ (value code).Quiet

/-- The code up to where a further argument of a call comes, the arguments before it being quiet. -/
def Opens (code callee key : String) : Prop :=
  ∃ arguments, Begins code callee arguments key ∧ ∀ argument ∈ arguments, argument.2.Quiet

section
variable {code v callee key : String} {expr : Expr}

theorem quiet_name (word : String) : (Expr.name word).Quiet :=
  ⟨rfl, fun _ _ _ => rfl⟩

theorem quiet_call {arguments : List (String × Expr)} (hc : callee ∉ watched)
    (h : ∀ argument ∈ arguments, argument.2.Quiet) : (Expr.call callee arguments).Quiet := by
  refine ⟨?_, fun name hn place => ?_⟩
  · rw [Expr.literals, Expr.literalsOfArguments_eq, List.flatMap_eq_nil_iff]
    exact fun argument hm => (h argument hm).1
  · have hne : callee ≠ name := fun he => hc (he ▸ hn)
    rw [Expr.places, if_neg hne, Expr.placesInArguments_eq, List.nil_append, List.flatMap_eq_nil_iff]
    exact fun argument hm => (h argument hm).2 name hn _

theorem quiet_list {items : List Expr} (h : ∀ item ∈ items, item.Quiet) : (Expr.list items).Quiet := by
  refine ⟨?_, fun name hn place => ?_⟩
  · rw [Expr.literals, Expr.literalsOfItems_eq, List.flatMap_eq_nil_iff]
    exact fun item hm => (h item hm).1
  · rw [Expr.places, Expr.placesInItems_eq, List.flatMap_eq_nil_iff]
    exact fun item hm => (h item hm).2 name hn _

/-- Code that holds these literals and none of the watched widgets. -/
def Speaks (code : String) (texts : List String) : Prop :=
  Reads code ∧ (value code).literals = texts ∧ ∀ name ∈ watched, ∀ place, (value code).places name place = []

theorem Denotes.quiet (h : Denotes v expr) (he : expr.Quiet) : Quiet v := by
  rw [Quiet, h.value_eq]
  exact ⟨h.reads, he⟩

theorem Quiet.of_word (h : IsWord v) : Quiet v :=
  (denotes_word h).quiet (quiet_name v)

theorem Quiet.text (x : Float) : Quiet (Number.text x) :=
  .of_word (.text x)

theorem opens (code callee key : String)
    (h : Code.Closed Code.dart code ([.word callee, .mark '('] ++ keyTokens key)) :
    Opens code callee key :=
  ⟨[], begins code callee key h, nofun⟩

theorem Opens.next (h : Opens code callee key) (hv : Quiet v) (comma key' : String)
    (hc : Code.Fixed Code.dart comma (.mark ',' :: keyTokens key')) :
    Opens (code ++ v ++ comma) callee key' := by
  obtain ⟨arguments, hb, hq⟩ := h
  exact ⟨_, hb.next hv.1.denotes comma key' hc, List.forall_mem_append.mpr ⟨hq, List.forall_mem_singleton.mpr hv.2⟩⟩

theorem Opens.finish (h : Opens code callee key) (hv : Quiet v) (hc : callee ∉ watched) :
    Quiet (code ++ v ++ ")") := by
  obtain ⟨arguments, hb, hq⟩ := h
  exact (hb.finish hv.1.denotes).quiet
    (quiet_call hc (List.forall_mem_append.mpr ⟨hq, List.forall_mem_singleton.mpr hv.2⟩))

theorem Quiet.call {name : String} {as : List (String × String)} (hn : IsWord name ∧ name ∉ watched)
    (h : ∀ a ∈ as, IsKey a.1 ∧ Quiet a.2) : Quiet (call name as) := by
  refine (denotes_call hn.1 fun a ha => ⟨(h a ha).1, (h a ha).2.1⟩).quiet (quiet_call hn.2 ?_)
  intro argument hm
  obtain ⟨a, ha, rfl⟩ := List.mem_map.mp hm
  exact (h a ha).2.2

theorem quiet_items {items : List String} (h : ∀ v ∈ items, Quiet v) : ∀ item ∈ items.map value, item.Quiet := by
  intro item hm
  obtain ⟨v, hv, rfl⟩ := List.mem_map.mp hm
  exact (h v hv).2

theorem Quiet.list {items : List String} (h : ∀ v ∈ items, Quiet v) : Quiet (Flutter.list items) :=
  (denotes_list fun v hv => (h v hv).1).quiet (quiet_list (quiet_items h))

theorem Quiet.row {items : List String} (h : ∀ v ∈ items, Quiet v) : Quiet ("[" ++ ", ".intercalate items ++ "]") :=
  (denotes_row fun v hv => (h v hv).1).quiet (quiet_list (quiet_items h))

theorem Quiet.line (h : Quiet v) : Quiet ("\n" ++ v) :=
  (denotes_line h.1.denotes).quiet h.2

end
end SceneCode.Dart

namespace SceneCode.Flutter
open Dart (Quiet Opens opens IsKey Speaks)
open Code (IsWord)
open Declaration (forall_ite forall_option)
open Number (text)

theorem quiet_color (c : Rgb) (opacity : Float) : Quiet (color c opacity) := by
  have hw : IsWord ("0x" ++ (hexByte opacity ++ c.hex6)) := by
    have h0 : IsWord "0x" := by decide
    exact h0.append ((Code.WordChars.hexByte _).append (Code.WordChars.hex6 c))
  have hs : "Color(0x" = "Color(" ++ "0x" := by decide
  have hq := (opens "Color(" "Color" "" (by decide)).finish (.of_word hw) (by decide)
  simpa only [color, hs, String.append_assoc] using hq

theorem quiet_alignment (p : Point Float) : Quiet (alignment p) :=
  ((opens "Alignment(" "Alignment" "" (by decide)).next (.text _) ", " "" (by decide)).finish (.text _) (by decide)

theorem quiet_border (s : Stroke) : Quiet (border s) := by
  have ha : IsWord (strokeAlign s.align) := by cases s.align <;> exact .ofList (by decide)
  exact (((opens "Border.all(width: " "Border.all" "width" (by decide)).next (.text _) ", color: "
    "color" (by decide)).next (quiet_color _ _) ", strokeAlign: " "strokeAlign" (by decide)).finish
    (.of_word ha) (by decide)

theorem quiet_gradient (g : LinearGradient) : Quiet (gradient g) := by
  have hc : Quiet
      ("[" ++ ", ".intercalate (g.stops.map fun s => color (g.stopColor s).1 (g.stopColor s).2) ++ "]") := by
    apply Quiet.row
    intro v hv
    obtain ⟨s, -, rfl⟩ := List.mem_map.mp hv
    exact quiet_color _ _
  have hp : Quiet ("[" ++ ", ".intercalate (g.stops.map (text ·.position)) ++ "]") := by
    apply Quiet.row
    intro v hv
    obtain ⟨s, -, rfl⟩ := List.mem_map.mp hv
    exact .text _
  have hk : IsKey "begin" ∧ IsKey "end" ∧ IsKey "colors" ∧ IsKey "stops" := by decide
  refine Quiet.call (by decide) ?_
  simp only [List.forall_mem_cons, List.not_mem_nil, false_imp_iff, implies_true, and_true]
  exact ⟨⟨hk.1, quiet_alignment _⟩, ⟨hk.2.1, quiet_alignment _⟩, ⟨hk.2.2.1, hc⟩, hk.2.2.2, hp⟩

theorem quiet_insets (p : Padding) : Quiet (insets p) := by
  have hall : Opens "const EdgeInsets.all(" "EdgeInsets.all" "" := ⟨[], Dart.begins_const _ _ _ (.ofList (by decide)), nofun⟩
  have hsym : Opens "const EdgeInsets.symmetric(horizontal: " "EdgeInsets.symmetric" "horizontal" :=
    ⟨[], Dart.begins_const _ _ _ (.ofList (by decide)), nofun⟩
  have honly : Opens "const EdgeInsets.only(left: " "EdgeInsets.only" "left" := ⟨[], Dart.begins_const _ _
    _ (.ofList (by decide)), nofun⟩
  unfold insets
  split
  · exact hall.finish (.text _) (by decide)
  · split
    · exact (hsym.next (.text _) ", vertical: " "vertical" (by decide)).finish (.text _) (by decide)
    · exact (((honly.next (.text _) ", top: " "top" (by decide)).next (.text _) ", right: " "right" (by decide)).next
        (.text _) ", bottom: " "bottom" (by decide)).finish (.text _) (by decide)

theorem quiet_circular (r : Float) : Quiet (circular r) :=
  (opens "Radius.circular(" "Radius.circular" "" (by decide)).finish (.text _) (by decide)

/-- The elliptical radius is a call within a call. -/
theorem quiet_elliptical (x y : Float) :
    Quiet ("BorderRadius.all(Radius.elliptical(" ++ text x ++ ", " ++ text y ++ "))") := by
  have ho : "BorderRadius.all(Radius.elliptical(" = "BorderRadius.all(" ++ "Radius.elliptical(" := by decide
  have hc : "))" = ")" ++ ")" := by decide
  have hi := ((opens "Radius.elliptical(" "Radius.elliptical" "" (by decide)).next (.text x) ", " "" (by decide)).finish
    (.text y) (by decide)
  have hq := (opens "BorderRadius.all(" "BorderRadius.all" "" (by decide)).finish hi (by decide)
  simpa only [ho, hc, String.append_assoc] using hq

theorem quiet_radius (r : Radius) (width height : Float) : Quiet (radius r width height) := by
  cases r with
  | uniform r =>
    exact (opens "BorderRadius.circular(" "BorderRadius.circular" "" (by decide)).finish (.text _) (by decide)
  | corners c =>
    have hk : IsKey "topLeft" ∧ IsKey "topRight" ∧ IsKey "bottomLeft" ∧ IsKey "bottomRight" := by decide
    refine Quiet.call (by decide) ?_
    simp only [List.forall_mem_cons, List.not_mem_nil, false_imp_iff, implies_true, and_true]
    obtain ⟨htl, htr, hbl, hbr⟩ := hk
    exact ⟨⟨htl, quiet_circular _⟩, ⟨htr, quiet_circular _⟩, ⟨hbl, quiet_circular _⟩, hbr, quiet_circular _⟩
  | full => exact quiet_elliptical _ _

theorem quiet_shadow (s : Shadow) : Quiet (shadow s) := by
  have hk : IsKey "color" ∧ IsKey "blurRadius" ∧ IsKey "offset" ∧ IsKey "spreadRadius" ∧ IsKey "blurStyle" := by decide
  have ho : Quiet ("Offset(" ++ text s.x ++ ", " ++ text s.y ++ ")") :=
    ((opens "Offset(" "Offset" "" (by decide)).next (.text _) ", " "" (by decide)).finish (.text _) (by decide)
  have hi : ∀ a ∈ if s.inset then [("blurStyle", "BlurStyle.inner")] else [], IsKey a.1 ∧ Quiet a.2 := by
    split
    · exact List.forall_mem_singleton.mpr ⟨hk.2.2.2.2, .of_word (by decide)⟩
    · exact nofun
  refine Quiet.line (Quiet.call (by decide) (List.forall_mem_append.mpr ⟨?_, hi⟩))
  simp only [List.forall_mem_cons, List.not_mem_nil, false_imp_iff, implies_true, and_true]
  exact ⟨⟨hk.1, quiet_color _ _⟩, ⟨hk.2.1, .text _⟩, ⟨hk.2.2.1, ho⟩, hk.2.2.2.1, .text _⟩

/-- The keys of the values that hold a literal. -/
def speakingKeys : List String :=
  ["image", "fontFamily"]

/-- The value of a declaration holds these texts, or none if its key is not one of those that speak. -/
def Spoken (texts : List String) (d : Declaration) : Prop :=
  Speaks d.value (if d.key ∈ speakingKeys then texts else [])

section Spoken
variable {texts : List String} {key v : String}

theorem spoken_set (h : Quiet v) (hk : key ∉ speakingKeys) : Spoken texts (.set key v) := by
  rw [Spoken, Declaration.set, if_neg hk]
  exact h

theorem spoken_speaking (h : Speaks v texts) (hk : key ∈ speakingKeys) : Spoken texts (.set key v) := by
  rw [Spoken, Declaration.set, if_pos hk]
  exact h

theorem spoken_option {β : Type} {x : Option β} {f : β → String} (h : ∀ b ∈ x, Quiet (f b))
    (hk : key ∉ speakingKeys) : ∀ d ∈ x.toList.map fun b => .set key (f b), Spoken texts d :=
  forall_option fun b hb => spoken_set (h b hb) hk

end Spoken

theorem spoken_extent (key : String) (primary : Bool) (e : Extent) (texts : List String)
    (hk : key ∉ speakingKeys) : ∀ d ∈ extent key primary e, Spoken texts d := by
  cases e with
  | fixed length => exact List.forall_mem_singleton.mpr (spoken_set (.text _) hk)
  | fill =>
    cases primary with
    | true => exact List.forall_mem_singleton.mpr (spoken_set (.of_word (by decide)) (by decide))
    | false => exact List.forall_mem_singleton.mpr (spoken_set (.of_word (by decide)) hk)
  | hug => exact nofun

theorem speaks_dart (text : String) : Speaks (Text.dart text) [text] := by
  rw [Speaks, (Dart.denotes_dart text).value_eq]
  exact ⟨(Dart.denotes_dart text).reads, rfl, fun _ _ _ => rfl⟩

theorem speaks_image (address : String) {fit : String} (hf : IsWord fit) :
    Speaks (call "DecorationImage" [("image", "NetworkImage(" ++ Text.dart address ++ ")"), ("fit", fit)])
      [address] := by
  have hk : IsKey "image" ∧ IsKey "fit" := by decide
  have hn : IsWord "DecorationImage" := by decide
  have hi := (Dart.begins "NetworkImage(" "NetworkImage" "" (by decide)).finish (Dart.denotes_dart address)
  have hw := Dart.denotes_word hf
  have ha : ∀ a ∈ [("image", "NetworkImage(" ++ Text.dart address ++ ")"), ("fit", fit)],
      IsKey a.1 ∧ Dart.Reads a.2 := by
    simp only [List.forall_mem_cons, List.not_mem_nil, false_imp_iff, implies_true, and_true]
    exact ⟨⟨hk.1, hi.reads⟩, hk.2, hw.reads⟩
  have hd := Dart.denotes_call hn ha
  simp only [List.map_cons, List.map_nil, hi.value_eq, hw.value_eq] at hd
  rw [Speaks, hd.value_eq]
  refine ⟨hd.reads, ?_, fun name hn place => ?_⟩
  · simp only [List.nil_append, Dart.Expr.literals, Dart.Expr.literalsOfArguments, List.append_nil]
  · rcases List.mem_pair.mp hn with rfl | rfl <;> simp [Dart.Expr.places, Dart.Expr.placesInArguments]

theorem spoken_background (fill : Fill) (width height : Float) :
    Spoken (Aspect.background fill width height).texts (background fill width height) := by
  cases fill with
  | solid c opacity => exact spoken_set (quiet_color c opacity) (by decide)
  | gradient g => exact spoken_set (quiet_gradient g) (by decide)
  | image mode =>
    refine spoken_speaking (speaks_image _ ?_) (by decide)
    cases mode <;> decide

theorem spoken_flow (f : Flow) (texts : List String) : ∀ d ∈ flow f, Spoken texts d := by
  have hm : IsWord (mainAlign f.main) := by cases f.main <;> exact .ofList (by decide)
  have hc : IsWord (crossAlign f.cross) := by cases f.cross <;> exact .ofList (by decide)
  unfold flow
  simp only [List.forall_mem_append, List.forall_mem_cons, List.not_mem_nil, false_imp_iff, implies_true, and_true]
  refine ⟨⟨⟨⟨⟨spoken_set (.of_word ?_) (by decide), ?_⟩, spoken_set (.of_word hm) (by decide), spoken_set
    (.of_word hc) (by decide)⟩, ?_⟩, ?_⟩, ?_⟩
  · cases f.wrap <;> cases f.direction <;> exact .ofList (by decide)
  · exact forall_ite (List.forall_mem_singleton.mpr (spoken_set (.of_word (by decide)) (by decide)))
  · exact forall_ite (List.forall_mem_singleton.mpr (spoken_set (.of_word (by decide)) (by decide)))
  · exact spoken_option (fun gap _ => .text gap) (by decide)
  · split
    · exact nofun
    · exact List.forall_mem_singleton.mpr (spoken_set (quiet_insets f.padding) (by decide))

theorem spoken_typography (run : TextRun) (fill : Option (Rgb × Float)) :
    ∀ d ∈ typography run fill, Spoken (Aspect.typography run fill).texts d := by
  have hw : IsWord (fontWeight run.fontWeight) := by
    have hf : IsWord "FontWeight.w" := by decide
    exact hf.append (.repr _)
  unfold typography
  simp only [List.forall_mem_append, List.forall_mem_cons, List.not_mem_nil, false_imp_iff, implies_true, and_true]
  refine ⟨⟨⟨⟨⟨?_, spoken_speaking (speaks_dart _) (by decide), spoken_set (.text _) (by decide), spoken_set
    (.of_word hw) (by decide)⟩, ?_⟩, ?_⟩, ?_⟩, ?_⟩
  · exact spoken_option (fun c _ => quiet_color c.1 c.2) (by decide)
  · exact forall_ite (List.forall_mem_singleton.mpr (spoken_set (.of_word (by decide)) (by decide)))
  · refine spoken_option (f := id) (fun v hv => .of_word ?_) (by decide)
    cases hd : run.decoration <;> rw [hd] at hv <;> cases hv <;> exact .ofList (by decide)
  · exact forall_ite (List.forall_mem_singleton.mpr (spoken_set (.text _) (by decide)))
  · exact spoken_option (fun x _ => .text x) (by decide)

theorem declarations_spoken (a : Aspect) : ∀ d ∈ declarations a, Spoken a.texts d := by
  cases a with
  | size s =>
    exact List.forall_mem_append.mpr ⟨spoken_extent "width" _ _ _ (by decide), spoken_extent "height" _ _ _ (by decide)⟩
  | position x y =>
    exact List.forall_mem_cons.mpr ⟨spoken_set (.text x) (by decide), List.forall_mem_singleton.mpr
      (spoken_set (.text y) (by decide))⟩
  | blend opacity rotation =>
    exact List.forall_mem_append.mpr ⟨forall_ite (List.forall_mem_singleton.mpr (spoken_set (.text _) (by decide))),
      forall_ite (List.forall_mem_singleton.mpr (spoken_set (.text _) (by decide)))⟩
  | background fill width height => exact List.forall_mem_singleton.mpr (spoken_background fill width height)
  | border s => exact List.forall_mem_singleton.mpr (spoken_set (quiet_border s) (by decide))
  | radius r width height => exact List.forall_mem_singleton.mpr (spoken_set (quiet_radius r width height) (by decide))
  | shadows ss =>
    refine List.forall_mem_singleton.mpr (spoken_set (Quiet.list fun v hv => ?_) (by decide))
    obtain ⟨s, -, rfl⟩ := List.mem_map.mp hv
    exact quiet_shadow s
  | blur b =>
    exact List.forall_mem_append.mpr ⟨spoken_option (fun r _ => .text _) (by decide),
      spoken_option (fun r _ => .text _) (by decide)⟩
  | clip => exact List.forall_mem_singleton.mpr (spoken_set (.of_word (by decide)) (by decide))
  | flow f => exact spoken_flow f _
  | origin => exact List.forall_mem_singleton.mpr (spoken_set (.of_word (by decide)) (by decide))
  | typography run fill => exact spoken_typography run fill
  | textAlign horizontal vertical =>
    refine spoken_option (fun v hv => .of_word ?_) (by decide)
    cases horizontal <;> cases hv <;> exact .ofList (by decide)

end SceneCode.Flutter
