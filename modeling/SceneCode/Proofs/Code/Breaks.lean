import SceneCode.Proofs.Code.Flutter
import SceneCode.Proofs.Code.Shifted
import SceneCode.Proofs.Layers.Inert

/-! The line breaks of a widget tree. No line ends in a carriage return: such a character only stands in a literal, and
the literal goes on behind it. -/
namespace SceneCode

namespace Code
open Text (BareBreaks)
variable {mode mode' : Mode} {cs : List Char} {code : String} {ts : List Token}

/-- In Dart, a carriage return stands for itself within a literal, and nowhere else. -/
theorem step_return (h : dart.step mode '\r' = some (ts, mode')) : ∃ read, mode' = .literal read := by
  have hw : isWordChar '\r' = false := by decide
  have hb : dart.begin '\r' = none := by decide
  have hq : '\r' ≠ dart.quote := by decide
  cases mode with
  | code =>
    rw [Quoting.step, hb] at h
    cases h
  | word read =>
    rw [Quoting.step, hw, if_neg Bool.false_ne_true, if_neg hq, hb] at h
    cases h
  | literal read =>
    rw [Quoting.step, if_neg hq, if_neg (by decide), if_pos (by decide)] at h
    cases h
    exact ⟨_, rfl⟩
  | escape read => cases h

theorem bareBreaks_of_scans (h : Scans dart mode cs ts mode') (hf : mode'.finish ≠ none) : BareBreaks cs := by
  induction h with
  | nil => exact trivial
  | cons first rest ih =>
    refine ⟨?_, ih hf⟩
    rintro rfl
    obtain ⟨read, rfl⟩ := step_return first
    cases rest with
    | nil => exact absurd rfl hf
    | @cons _ _ _ d ds _ _ next _ =>
      refine ⟨d, rfl, ?_⟩
      rintro rfl
      rw [step_break_eq] at next
      cases next

end Code

namespace Dart
open Code (IsWord Lexes)
open Flutter (argument arranged around call containerWidget list named placed speakingKeys wrapped)
open Text (BareBreaks)

/-- No line of the code ends in a carriage return. -/
structure Bare (code : String) : Prop where
  breaks : BareBreaks code.toList

namespace Bare
variable {a b : String}

theorem fixed (a : String) (h : '\r' ∉ a.toList) : Bare a :=
  ⟨.of_not_mem h⟩

theorem of_fitsLine (h : Comments.FitsLine a) : Bare a :=
  ⟨.of_not_mem fun hm => absurd (h _ hm) (by decide)⟩

theorem append (h : Bare a) (h' : Bare b) : Bare (a ++ b) where
  breaks := by
    rw [String.toList_append]
    exact h.breaks.append h'.breaks

theorem indent (h : Bare a) : Bare (Text.indent a) where
  breaks := by
    rw [Text.indent, String.toList_ofList]
    exact h.breaks.indent

theorem join {parts : List String} (h : ∀ part ∈ parts, Bare part) : Bare (String.join parts) := by
  induction parts with
  | nil => exact .fixed "" (by decide)
  | cons part parts ih =>
    obtain ⟨hp, hs⟩ := List.forall_mem_cons.mp h
    rw [String.join_cons]
    exact hp.append (ih hs)

theorem of_lexes {ts : List Code.Token} (h : Lexes Code.dart a ts) : Bare a := by
  obtain ⟨read, mode, last, hs, hf, -⟩ := Code.lexes_iff.mp h
  refine ⟨Code.bareBreaks_of_scans hs ?_⟩
  rw [hf]
  exact Option.some_ne_none last

theorem of_reads (h : Reads a) : Bare a := by
  obtain ⟨tokens, hl, -⟩ := h.denotes
  exact of_lexes hl

end Bare

theorem bare_key {key : String} (h : IsKey key) : Bare key := by
  rcases h with rfl | hw
  · exact .fixed "" (by decide)
  · exact .of_lexes hw.lexes

/-- Arguments of which no line ends in a carriage return. -/
def BareAll (as : List (String × String)) : Prop :=
  ∀ a ∈ as, Bare a.1 ∧ Bare a.2

namespace BareAll
variable {as bs : List (String × String)} {key v : String}

theorem append (h : BareAll as) (h' : BareAll bs) : BareAll (as ++ bs) :=
  List.forall_mem_append.mpr ⟨h, h'⟩

theorem single (key : String) (hv : Bare v) (hk : IsKey key) : BareAll [(key, v)] :=
  List.forall_mem_singleton.mpr ⟨bare_key hk, hv⟩

end BareAll

theorem Arguments.bareAll {as : List (String × String)} {texts : List String} {filled : String → List Place}
    (h : Arguments as texts filled) : BareAll as :=
  fun a ha => ⟨bare_key (h.reads a ha).1, .of_reads (h.reads a ha).2⟩

section
variable {key name v w : String} {as : List (String × String)} {items : List String} {s : Styles}

theorem bare_argument (hk : Bare key) (hv : Bare v) : Bare (argument key v) := by
  have hl : Bare (if key.isEmpty then "" else key ++ ": ") := by
    split
    · exact .fixed "" (by decide)
    · exact hk.append (.fixed ": " (by decide))
  exact (((Bare.fixed "\n  " (by decide)).append hl).append hv.indent).append (.fixed "," (by decide))

theorem bare_call (hn : IsWord name) (h : BareAll as) : Bare (call name as) := by
  have hb : Bare name := .of_lexes hn.lexes
  unfold call
  split
  · exact hb.append (.fixed "()" (by decide))
  · refine ((hb.append (.fixed "(" (by decide))).append (.join fun line hl => ?_)).append (.fixed "\n)" (by decide))
    obtain ⟨a, ha, rfl⟩ := List.mem_map.mp hl
    exact bare_argument (h a ha).1 (h a ha).2

theorem bare_list (h : ∀ item ∈ items, Bare item) : Bare (list items) := by
  refine ((Bare.fixed "[" (by decide)).append (.join fun line hl => ?_)).append (.fixed "\n]" (by decide))
  obtain ⟨item, hi, rfl⟩ := List.mem_map.mp hl
  exact (h item hi).indent.append (.fixed "," (by decide))

theorem bare_named (hn : ∀ layer ∈ (Target.label true name).toList, Comments.FitsLine layer) (hw : Bare w) :
    Bare (named (Target.label true name) w) := by
  cases hl : Target.label true name with
  | none => exact (Bare.fixed "\n" (by decide)).append hw
  | some layer =>
    rw [hl] at hn
    have hf : Bare layer := .of_fitsLine (hn layer (List.mem_singleton_self layer))
    exact (((Bare.fixed "\n// " (by decide)).append hf).append (.fixed "\n" (by decide))).append hw

variable (h : Voiced s)
include h

theorem bare_around {arguments : String → List (String × String)} (hk : key ∉ speakingKeys) (hn : IsWord name)
    (ha : ∀ v, Quiet v → ∀ a ∈ arguments v, IsKey a.1 ∧ Quiet a.2) (hw : Bare w) :
    Bare (around s key name arguments w) := by
  unfold around
  cases hg : s.get? key with
  | none => exact hw
  | some v =>
    exact bare_call hn ((Arguments.quiet (ha v (quiet_get? h hg hk))).bareAll.append (.single "child" hw (by decide)))

theorem bare_placed (hw : Bare w) : Bare (placed s w) := by
  have hc : BareAll [("child", w)] := .single "child" hw (by decide)
  unfold placed
  dsimp only
  split
  · exact bare_call (by decide) hc
  · split
    · exact hw
    · exact bare_call (by decide) ((arguments_select h (by decide)).bareAll.append hc)

theorem bare_wrapped (hw : Bare w) : Bare (wrapped s w) :=
  wrapped_of Bare Bare (fun _ _ _ _ hk hn ha hw => bare_around h hk hn.1 ha hw) (fun _ => bare_placed h) w hw

theorem bare_arranged (hi : ∀ item ∈ items, Bare item) : Bare (arranged s items) := by
  have hc : BareAll [("children", list items)] := .single "children" (bare_list hi) (by decide)
  unfold arranged
  dsimp only
  split
  · rename_i hr
    refine bare_call ?_ ((arguments_select h (by decide)).bareAll.append hc)
    rcases hr with hr | hr <;> rw [hr] <;> decide
  · split
    · exact bare_call (by decide) ((Arguments.quiet (quiet_gaps h)).bareAll.append hc)
    · exact bare_call (by decide) hc

theorem bare_containerWidget (hi : ∀ item ∈ items, Bare item) : Bare (containerWidget s items) := by
  have hk : IsKey "decoration" := by decide
  have hd := (arguments_boxed hk (by decide : IsWord "BoxDecoration" ∧ _) (arguments_decoration h)).bareAll
  have hs := (arguments_select h (by decide : ∀ key ∈ ["width", "height"], _)).bareAll
  have hf := (arguments_select h (by decide : ∀ key ∈ ["padding", "clipBehavior"], _)).bareAll
  have hc : BareAll (if items.isEmpty then [] else [("child", arranged s items)]) := by
    split
    · exact nofun
    · exact .single "child" (bare_arranged h hi) (by decide)
  unfold containerWidget
  dsimp only
  split
  · exact bare_call (by decide) (((hs.append hf).append hd).append hc)
  · exact bare_call (by decide) (((hs.append hf).append hd).append hc)

end

theorem bare_leaf {w name : String} {texts : List String} {filled : Place → List Place}
    (hn : ∀ layer ∈ (Target.label true name).toList, Comments.FitsLine layer) (h : Fragment w texts filled) :
    Bare (named (Target.label true name) w) :=
  bare_named hn (.of_reads h.1.1)

mutual
theorem bare_element (p : Piece Float) (hn : ∀ name ∈ (Target.flutter.element p).names, Comments.FitsLine name) :
    Bare (Target.flutter.render true (Target.flutter.element p)) := by
  have hv := voiced_styles p.aspects
  have hi : ∀ item ∈ ([] : List String), Bare item := nofun
  rw [Target.names_element] at hn
  obtain ⟨hl, hc⟩ := List.forall_mem_append.mp hn
  cases p with
  | frame slot base flow clips children =>
    exact bare_named hl (bare_wrapped hv (bare_containerWidget hv (bare_elements children hc)))
  | group slot base children =>
    exact bare_named hl (bare_wrapped hv (bare_containerWidget hv (bare_elements children hc)))
  | shape slot base ellipse =>
    rw [Target.element, Target.shapeElement_eq]
    split
    · exact bare_leaf hl (fragment_wrapped hv (widget_image hv _))
    · exact bare_named hl (bare_wrapped hv (bare_containerWidget hv hi))
  | line slot base => exact bare_named hl (bare_wrapped hv (bare_containerWidget hv hi))
  | text slot base box =>
    rw [Target.element, Target.textElement_eq]
    exact bare_leaf hl (fragment_wrapped hv (widget_sized hv (widget_text hv (voiced_runs base box))))

theorem bare_elements (ps : List (Piece Float))
    (hn : ∀ name ∈ Element.namesAll (Target.flutter.elements ps), Comments.FitsLine name) :
    ∀ fragment ∈ Target.flutter.renderAll true (Target.flutter.elements ps), Bare fragment := by
  cases ps with
  | nil => exact nofun
  | cons p ps =>
    rw [Target.elements, Element.namesAll] at hn
    obtain ⟨hp, hs⟩ := List.forall_mem_append.mp hn
    exact List.forall_mem_cons.mpr ⟨bare_element p hp, bare_elements ps hs⟩
end

end Dart
end SceneCode
