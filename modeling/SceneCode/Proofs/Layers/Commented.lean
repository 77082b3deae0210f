import SceneCode.Proofs.Layers.Fragments
import SceneCode.Proofs.Skeleton
import SceneCode.Proofs.Style.Values

namespace SceneCode

namespace Element

mutual
/-- Images come from addresses that are made up for them, and texts have runs. -/
def Filled : Element → Prop
  | .container _ _ children => FilledAll children
  | .image _ _ source => ∃ width height, source = placeholderUrl width height
  | .text _ _ runs => runs ≠ []

def FilledAll : List Element → Prop
  | [] => True
  | e :: es => Filled e ∧ FilledAll es
end

end Element

namespace Target
variable (t : Target)

theorem shownRuns_ne_nil (box : TextBox) : box.shownRuns ≠ [] := by
  by_cases h : box.runs = []
  · rw [TextBox.shownRuns_of_nil h]
    exact List.cons_ne_nil _ _
  · rwa [TextBox.shownRuns_of_ne_nil h]

mutual
theorem filled_element (p : Piece Float) : (t.element p).Filled := by
  cases p with
  | frame slot base flow clips children => exact filled_elements children
  | group slot base children => exact filled_elements children
  | shape slot base ellipse =>
    rw [element, shapeElement]
    split
    · exact ⟨_, _, rfl⟩
    · exact trivial
  | line slot base => exact trivial
  | text slot base box =>
    have hn := shownRuns_ne_nil box
    rw [element, textElement]
    split
    · exact List.cons_ne_nil _ _
    · exact fun h => hn (List.map_eq_nil_iff.mp h)

theorem filled_elements (ps : List (Piece Float)) : Element.FilledAll (t.elements ps) := by
  cases ps with
  | nil => exact trivial
  | cons p ps => exact ⟨filled_element p, filled_elements ps⟩
end

end Target

namespace Comments
open Target (label)

/-- From an element written under its name, the comment goes, and what is left is the element without it. -/
structure Commented (t : Target) (Good : String → Prop) : Prop where
  values : ∀ a, Declaration.Values Good (t.declarations a)
  container {s : Styles} (hs : ∀ e ∈ s.entries, Good e.2) {name : String} (hn : ∀ n ∈ label true name, FitsLine n)
    {fs gs ns : List String} (hf : Fragments fs gs ns) :
    Fragment (t.container (label true name) s fs) (t.container (label false name) s gs) ((label true name).toList ++ ns)
  image {s : Styles} (hs : ∀ e ∈ s.entries, Good e.2) {name : String} (hn : ∀ n ∈ label true name, FitsLine n)
    (source : String) :
    Fragment (t.image (label true name) s source) (t.image (label false name) s source) (label true name).toList
  text {s : Styles} (hs : ∀ e ∈ s.entries, Good e.2) {name : String} (hn : ∀ n ∈ label true name, FitsLine n)
    {runs : List Run} (hr : ∀ s ∈ runs.filterMap (·.styles), ∀ e ∈ s.entries, Good e.2) (hne : runs ≠ []) :
    Fragment (t.text (label true name) s runs) (t.text (label false name) s runs) (label true name).toList

namespace Commented
variable {t : Target} {Good : String → Prop}

mutual
theorem fragment (h : Commented t Good) (e : Element) (hs : ∀ s ∈ e.stylesIn, ∀ x ∈ s.entries, Good x.2)
    (hn : ∀ n ∈ e.names, FitsLine n) (hf : e.Filled) : Fragment (t.render true e) (t.render false e) e.names := by
  cases e with
  | container name s children =>
    have hi := fragments h children (fun s hm => hs s (List.mem_cons_of_mem _ hm))
      (fun n hm => hn n (List.mem_append_right _ hm)) hf
    exact h.container (hs s List.mem_cons_self) (fun n hm => hn n (List.mem_append_left _ (Option.mem_toList.mpr hm))) hi
  | image name s source =>
    exact h.image (hs s List.mem_cons_self) (fun n hm => hn n (Option.mem_toList.mpr hm)) source
  | text name s runs =>
    exact h.text (hs s List.mem_cons_self) (fun n hm => hn n (Option.mem_toList.mpr hm))
      (fun s hm => hs s (List.mem_cons_of_mem _ hm)) hf

theorem fragments (h : Commented t Good) (es : List Element)
    (hs : ∀ s ∈ Element.stylesInAll es, ∀ x ∈ s.entries, Good x.2) (hn : ∀ n ∈ Element.namesAll es, FitsLine n)
    (hf : Element.FilledAll es) : Fragments (t.renderAll true es) (t.renderAll false es) (Element.namesAll es) := by
  cases es with
  | nil => exact .nil
  | cons e es =>
    have he := fragment h e (fun s hm => hs s (List.mem_append_left _ hm))
      (fun n hm => hn n (List.mem_append_left _ hm)) hf.1
    have hes := fragments h es (fun s hm => hs s (List.mem_append_right _ hm))
      (fun n hm => hn n (List.mem_append_right _ hm)) hf.2
    exact .cons he hes
end

/-- Code that is written under names can be had back from its comments, and the names too, if and only if a comment may
say each of them. -/
theorem page_iff (h : Commented t Good) (ps : List (Piece Float)) :
    let es := t.elements ps
    erase (t.page true es) = t.page false es ∧ notes (t.page true es) = Element.namesAll es ↔
      ∀ name ∈ Element.namesAll es, FitsLine name := by
  intro es
  constructor
  · rintro ⟨-, hn⟩ name hm
    exact fitsLine_of_mem_notes (hn ▸ hm)
  · intro hn
    have hf := h.fragments es (Target.values_styles h.values ps) hn (t.filled_elements ps)
    unfold Target.page
    generalize t.renderAll true es = fs, t.renderAll false es = gs, Element.namesAll es = ns at hf ⊢
    cases hf with
    | nil => decide
    | cons hd htl =>
      have hf := Fragments.cons hd htl
      have hc := hf.join
      obtain ⟨hx, hy⟩ := hf.head_join (List.cons_ne_nil _ _)
      obtain ⟨cs, hx⟩ := List.head?_eq_some_iff.mp hx
      obtain ⟨ds, hy⟩ := List.head?_eq_some_iff.mp hy
      rw [hx, hy] at hc ⊢
      exact erase_of_clears hc

end Commented
end Comments
end SceneCode
