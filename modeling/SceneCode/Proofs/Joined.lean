import SceneCode.Proofs.Layers.Flutter
import SceneCode.Proofs.Layers.SwiftUI
import SceneCode.Proofs.Pruning.Pieces

namespace SceneCode

namespace Joined

/-- Starts with something, and not with a line break. -/
def Begun (line : String) : Prop :=
  ∃ c ∈ line.toList.head?, c ≠ '\n'

instance (line : String) : Decidable (Begun line) :=
  decidable_of_iff (line.toList.head?.any (· != '\n') = true) (by simp [Begun, Option.any_eq_true])

/-- A line break, and none right behind it. -/
def Fragment (f : String) : Prop :=
  ∃ line, f = "\n" ++ line ∧ Begun line

/-- What a fragment has behind its line break. -/
def lineOf (f : String) : String :=
  String.ofList f.toList.tail

theorem Begun.append {line : String} (h : Begun line) (rest : String) : Begun (line ++ rest) := by
  obtain ⟨c, hc, hn⟩ := h
  refine ⟨c, ?_, hn⟩
  rw [String.toList_append, List.head?_append, Option.mem_def.mp hc]
  rfl

theorem Begun.ne_empty {line : String} (h : Begun line) : line ≠ "" := by
  intro he
  rw [he] at h
  revert h
  decide

theorem Begun.of_solid {line : String} (h : Comments.Solid line.toList) : Begun line := by
  unfold Begun
  cases hl : line.toList with
  | nil => exact (hl ▸ h).elim
  | cons c cs =>
    rw [hl, Comments.Solid, Comments.isSolid, Bool.and_eq_true, bne_iff_ne] at h
    exact ⟨c, rfl, h.2⟩

theorem lineOf_break (line : String) : lineOf ("\n" ++ line) = line := by
  have hb : "\n".toList = ['\n'] := by decide
  rw [lineOf, String.toList_append, hb, List.singleton_append, List.tail_cons, String.ofList_toList]

theorem Fragment.eq {f : String} (h : Fragment f) : f = "\n" ++ lineOf f := by
  obtain ⟨line, rfl, -⟩ := h
  rw [lineOf_break]

theorem Fragment.begun {f : String} (h : Fragment f) : Begun (lineOf f) := by
  obtain ⟨line, rfl, hb⟩ := h
  rwa [lineOf_break]

end Joined

open SceneCode.Joined (Begun Fragment lineOf)

namespace Markup

theorem begun_openTag (tag attributes : String) (name : Option String) : Begun (openTag tag attributes name) := by
  have ho : Begun "<" := by decide
  unfold openTag
  rw [String.append_assoc, String.append_assoc]
  exact ho.append _

theorem fragment_element (jsx : Bool) (attributes : String) (name : Option String) (children : List String) :
    Fragment (element jsx attributes name children) := by
  have ho := begun_openTag "div" attributes name
  unfold element
  dsimp only
  split
  · split
    · exact ⟨_, String.append_assoc .., ho.append _⟩
    · exact ⟨_, String.append_assoc .., ho.append _⟩
  · refine ⟨_, ?_, ho.append (">" ++ (String.join (children.map Text.indent) ++ "\n</div>"))⟩
    simp only [String.append_assoc]

theorem fragment_image (attributes : String) (name : Option String) (source : String) :
    Fragment (image attributes name source) := by
  refine ⟨_, ?_, (begun_openTag "img" attributes name).append (" src=\"" ++ (Text.escapeAttribute source ++ "\" />"))⟩
  simp only [image, String.append_assoc]

theorem fragment_text (jsx : Bool) (attributes : Styles → String) (name : Option String) (s : Styles) (runs : List Run) :
    Fragment (text jsx attributes name s runs) := by
  refine ⟨_, ?_, (begun_openTag "div" (attributes s) name).append (">" ++ (content jsx attributes runs ++ "</div>"))⟩
  simp only [text, String.append_assoc]

end Markup

namespace Flutter
variable {widget : String} (s : Styles)

theorem begun_call {name : String} (h : Begun name) (arguments : List (String × String)) : Begun (call name arguments) := by
  unfold call
  split
  · exact h.append _
  · rw [String.append_assoc, String.append_assoc]
    exact h.append _

theorem begun_around (key : String) {name : String} (hn : Begun name) (arguments : String → List (String × String))
    (h : Begun widget) : Begun (around s key name arguments widget) := by
  unfold around
  split
  · exact begun_call hn _
  · exact h

theorem begun_placed (h : Begun widget) : Begun (placed s widget) := by
  unfold placed
  split
  · exact begun_call (by decide) _
  · dsimp only
    split
    · exact h
    · exact begun_call (by decide) _

theorem begun_wrapped (h : Begun widget) : Begun (wrapped s widget) := by
  apply begun_placed
  apply begun_around s "opacity" (by decide)
  apply begun_around s "rotation" (by decide)
  apply begun_around s "backdropBlur" (by decide)
  exact begun_around s "blur" (by decide) _ h

theorem begun_containerWidget (children : List String) : Begun (containerWidget s children) := by
  apply begun_call
  split <;> decide

theorem begun_imageWidget (source : String) : Begun (imageWidget s source) :=
  begun_around s "borderRadius" (by decide) _ (begun_call (by decide) _)

theorem begun_textWidget (runs : List Run) : Begun (textWidget s runs) := by
  unfold textWidget
  split
  · exact begun_call (by decide) _
  · exact begun_call (by decide) _

theorem begun_sized (h : Begun widget) : Begun (sized s widget) := by
  unfold sized
  dsimp only
  split
  · exact h
  · exact begun_call (by decide) _

theorem fragment_named_line (name : Option String) (h : Begun widget) : Joined.Fragment (named name widget) := by
  cases name with
  | none => exact ⟨widget, rfl, h⟩
  | some name =>
    have hs : Begun "// " := by decide
    have hb : "\n// " = "\n" ++ "// " := by decide
    refine ⟨"// " ++ (name ++ ("\n" ++ widget)), ?_, hs.append _⟩
    simp only [named, hb, String.append_assoc]

theorem fragment_render (showNames : Bool) (e : Element) : Joined.Fragment (Target.flutter.render showNames e) := by
  cases e with
  | container name s children => exact fragment_named_line _ (begun_wrapped s (begun_containerWidget s _))
  | image name s source => exact fragment_named_line _ (begun_wrapped s (begun_imageWidget s source))
  | text name s runs => exact fragment_named_line _ (begun_wrapped s (begun_sized s (begun_textWidget s runs)))

end Flutter

namespace SwiftUI

theorem begun_containerView {s : Styles} (h : ∀ e ∈ s.entries, Firm e.2) (children : List String) :
    Begun (containerView s children) := by
  unfold containerView
  split
  · decide
  · rw [String.append_assoc, String.append_assoc]
    apply Begun.append
    cases hg : s.get? "stack" with
    | none => decide
    | some v => exact .of_solid (firm_get? h hg).solid

theorem fragment_finished_line (name : Option String) (s : Styles) {view : String} (h : Begun view) :
    Joined.Fragment (finished name s view) := by
  unfold finished
  cases name with
  | none =>
    refine ⟨_, ?_, h.append (String.join ((modifiers s modifierOrder).map ("\n" ++ ·)))⟩
    simp only [String.append_empty, String.append_assoc]
  | some name =>
    have hs : Begun "// " := by decide
    refine ⟨_, ?_, hs.append (name ++ ("\n" ++ (view ++ String.join ((modifiers s modifierOrder).map ("\n" ++ ·)))))⟩
    simp only [String.append_assoc]

theorem fragment_render (showNames : Bool) {e : Element} (hs : ∀ s ∈ e.stylesIn, ∀ x ∈ s.entries, Firm x.2)
    (hf : e.Filled) : Joined.Fragment (Target.swiftUI.render showNames e) := by
  cases e with
  | container name s children => exact fragment_finished_line _ s (begun_containerView (hs s List.mem_cons_self) _)
  | image name s source => exact fragment_finished_line _ s (.of_solid (widget_image source).solid)
  | text name s runs =>
    have hr : Firm (textView s runs) := widget_text s hf fun s hm => hs s (List.mem_cons_of_mem _ hm)
    exact fragment_finished_line _ s (.of_solid hr.solid)

end SwiftUI

namespace Target
variable (t : Target)

theorem fragment_render (showNames : Bool) (p : Piece Float) : Joined.Fragment (t.render showNames (t.element p)) := by
  cases t with
  | html jsx =>
    cases (Target.html jsx).element p with
    | container name s children => exact Markup.fragment_element ..
    | image name s source => exact Markup.fragment_image ..
    | text name s runs => exact Markup.fragment_text ..
  | tailwind jsx o =>
    cases (Target.tailwind jsx o).element p with
    | container name s children => exact Markup.fragment_element ..
    | image name s source => exact Markup.fragment_image ..
    | text name s runs => exact Markup.fragment_text ..
  | flutter => exact Flutter.fragment_render showNames _
  | swiftUI =>
    have hs := Target.values_styles SwiftUI.commented.values [p]
    rw [elements, elements, Element.stylesInAll, Element.stylesInAll, List.append_nil] at hs
    exact SwiftUI.fragment_render showNames hs (filled_element .swiftUI p)

theorem renderAll_eq_map (showNames : Bool) (es : List Element) : t.renderAll showNames es = es.map (t.render showNames) := by
  induction es with
  | nil => rfl
  | cons e es ih => rw [renderAll, ih, List.map_cons]

theorem elements_eq_map (ps : List (Piece Float)) : t.elements ps = ps.map t.element := by
  induction ps with
  | nil => rfl
  | cons p ps ih => rw [elements, ih, List.map_cons]

/-- The code of each piece, less the line break in front. -/
def linesOf (showNames : Bool) (ps : List (Piece Float)) : List String :=
  ps.map fun p => lineOf (t.render showNames (t.element p))

theorem begun_of_mem_linesOf {showNames : Bool} {ps : List (Piece Float)} {line : String}
    (h : line ∈ t.linesOf showNames ps) : Begun line := by
  obtain ⟨p, -, rfl⟩ := List.mem_map.mp h
  exact (t.fragment_render showNames p).begun

end Target

namespace Joined

/-- Lines behind their breaks are the joined lines behind one break. -/
theorem join_breaks {lines : List String} (hn : lines ≠ []) :
    String.join (lines.map ("\n" ++ ·)) = "\n" ++ "\n".intercalate lines := by
  induction lines with
  | nil => exact absurd rfl hn
  | cons line lines ih =>
    rw [List.map_cons, String.join_cons]
    by_cases he : lines = []
    · rw [he, List.map_nil, String.join_nil, String.append_empty, String.intercalate_singleton]
    · rw [ih he, String.intercalate_cons_of_ne_nil he]
      simp only [String.append_assoc]

/-- Texts with line breaks between them, less those that are empty. -/
def join (texts : List String) : String :=
  "\n".intercalate (texts.filter (· ≠ ""))

theorem intercalate_ne_empty {lines : List String} (hn : lines ≠ []) (h : ∀ line ∈ lines, Begun line) :
    "\n".intercalate lines ≠ "" := by
  obtain ⟨line, lines, rfl⟩ := List.exists_cons_of_ne_nil hn
  have hl := (h line List.mem_cons_self).ne_empty
  by_cases he : lines = []
  · rwa [he, String.intercalate_singleton]
  · rw [String.intercalate_cons_of_ne_nil he]
    intro hs
    exact hl (String.append_eq_empty_iff.mp (String.append_eq_empty_iff.mp hs).1).1

theorem join_cons_ne_empty {text : String} (h : text ≠ "") (texts : List String) :
    join (text :: texts) = "\n".intercalate (text :: texts.filter (· ≠ "")) := by
  rw [join, List.filter_cons_of_pos (by simpa using h)]

/-- Lines that are put together one list after another are joined as the lists are. -/
theorem intercalate_flatMap {α : Type} (lines : α → List String) (xs : List α)
    (h : ∀ x ∈ xs, ∀ line ∈ lines x, Begun line) :
    "\n".intercalate (xs.flatMap lines) = join (xs.map fun x => "\n".intercalate (lines x)) := by
  induction xs with
  | nil => rfl
  | cons x xs ih =>
    obtain ⟨hx, hxs⟩ := List.forall_mem_cons.mp h
    rw [List.flatMap_cons, List.map_cons]
    by_cases hn : lines x = []
    · rw [hn, List.nil_append, String.intercalate_nil, ih hxs]
      rfl
    · rw [join_cons_ne_empty (intercalate_ne_empty hn hx)]
      by_cases hm : xs.flatMap lines = []
      · have he : (xs.map fun x => "\n".intercalate (lines x)).filter (· ≠ "") = [] := by
          refine List.filter_eq_nil_iff.mpr fun text ht => ?_
          obtain ⟨y, hy, rfl⟩ := List.mem_map.mp ht
          rw [List.flatMap_eq_nil_iff.mp hm y hy]
          decide
        rw [hm, List.append_nil, he, String.intercalate_singleton]
      · have he : (xs.map fun x => "\n".intercalate (lines x)).filter (· ≠ "") ≠ [] := by
          obtain ⟨line, hl⟩ := List.exists_mem_of_ne_nil _ hm
          obtain ⟨y, hy, hl⟩ := List.mem_flatMap.mp hl
          have hne := intercalate_ne_empty (List.ne_nil_of_mem hl) (hxs y hy)
          exact List.ne_nil_of_mem (List.mem_filter.mpr ⟨List.mem_map.mpr ⟨y, hy, rfl⟩, by simpa using hne⟩)
        rw [String.intercalate_append_of_ne_nil hn hm, String.intercalate_cons_of_ne_nil he, ih hxs]
        rfl

theorem head?_intercalate {lines : List String} (h : ∀ line ∈ lines, Begun line) :
    ("\n".intercalate lines).toList.head? ≠ some '\n' := by
  cases lines with
  | nil => decide
  | cons line lines =>
    have hb : Begun ("\n".intercalate (line :: lines)) := by
      by_cases he : lines = []
      · rw [he, String.intercalate_singleton]
        exact h line List.mem_cons_self
      · rw [String.intercalate_cons_of_ne_nil he, String.append_assoc]
        exact (h line List.mem_cons_self).append _
    obtain ⟨c, hc, hn⟩ := hb
    rw [Option.mem_def.mp hc]
    intro he
    exact hn (Option.some.inj he)

end Joined

namespace Target
variable (t : Target) (followHints showNames : Bool)

/-- Code is the lines of its pieces. -/
theorem code_eq_intercalate (nodes : List Node) :
    t.code followHints showNames nodes = "\n".intercalate (t.linesOf showNames (Scene.pieces followHints nodes)) := by
  have hf : t.renderAll showNames (t.elements (Scene.pieces followHints nodes)) =
      (t.linesOf showNames (Scene.pieces followHints nodes)).map ("\n" ++ ·) := by
    rw [renderAll_eq_map, elements_eq_map, linesOf, List.map_map, List.map_map]
    exact List.map_congr_left fun p _ => (t.fragment_render showNames p).eq
  unfold code
  rw [hf]
  dsimp only
  by_cases hn : t.linesOf showNames (Scene.pieces followHints nodes) = []
  · rw [hn]
    rfl
  · have hb : "\n".toList = ['\n'] := by decide
    rw [Joined.join_breaks hn, String.toList_append, hb, List.singleton_append]
    exact String.ofList_toList

theorem linesOf_pieces (nodes : List Node) : t.linesOf showNames (Scene.pieces followHints nodes) =
    nodes.flatMap fun n => t.linesOf showNames (Scene.pieces followHints [n]) := by
  induction nodes with
  | nil => rfl
  | cons n nodes ih =>
    have hp : Scene.pieces followHints (n :: nodes) = Scene.pieces followHints [n] ++ Scene.pieces followHints nodes :=
      Node.piecesAll_append followHints .top [n] nodes
    rw [hp, linesOf, List.map_append, List.flatMap_cons, ← ih]
    rfl

end Target

/-- Whatever is drawn starts with one line break. So the code of a scene is the code of each of its nodes at the top,
joined line by line without those that draw nothing, and it does not start with a line break. -/
theorem code_joins_nodes (s : Settings) (preview : Bool) (nodes : List Node) :
    (∀ p : Piece Float, Fragment ((s.target preview).render s.showLayerNames ((s.target preview).element p))) ∧
    generate s preview nodes = Joined.join (nodes.map fun n => generate s preview [n]) ∧
    (generate s preview nodes).toList.head? ≠ some '\n' := by
  have hb (nodes : List Node) : ∀ line ∈ (s.target preview).linesOf s.showLayerNames
      (Scene.pieces s.optimizeLayout nodes), Begun line :=
    fun line hl => (s.target preview).begun_of_mem_linesOf hl
  refine ⟨fun p => (s.target preview).fragment_render s.showLayerNames p, ?_, ?_⟩
  · unfold generate
    simp only [Target.code_eq_intercalate]
    rw [Target.linesOf_pieces]
    exact Joined.intercalate_flatMap _ nodes fun n _ => hb [n]
  · unfold generate
    rw [Target.code_eq_intercalate]
    exact Joined.head?_intercalate (hb nodes)

end SceneCode
