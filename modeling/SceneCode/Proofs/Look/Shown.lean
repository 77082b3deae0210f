import SceneCode.Proofs.Look.Flutter
import SceneCode.Proofs.Look.Markup
import SceneCode.Proofs.Look.SwiftUI
import SceneCode.Proofs.Selection.Palette

namespace SceneCode

namespace Tree
variable {α β : Type} {P : β → Prop} {f : α → β}

mutual
theorem holds_map (h : ∀ a, P (f a)) : (t : Tree α) → (t.map f).Holds P
  | .node a ts => ⟨h a, holdsAll_map h ts⟩

theorem holdsAll_map (h : ∀ a, P (f a)) : (ts : List (Tree α)) → HoldsAll P (mapAll f ts)
  | [] => trivial
  | t :: ts => ⟨holds_map h t, holdsAll_map h ts⟩
end

end Tree

namespace Target

/-- The keys of an element that need not be seen: those for its children, and what an image has no place for. -/
def asideKeys (t : Target) (e : Element) : List String :=
  t.arrangementKeys ++ if t = .flutter then Flutter.imageGaps e else []

theorem showsStyles_element (t : Target) (showNames : Bool) (p : Piece Float) :
    t.ShowsStyles showNames (t.asideKeys (t.element p)) t.unaddedKeys (t.element p) := by
  cases t with
  | html jsx => exact showsStyles_markup rfl showNames _
  | tailwind jsx options => exact showsStyles_markup rfl showNames _
  | flutter => exact Flutter.showsStyles showNames p
  | swiftUI => exact SwiftUI.showsStyles showNames p

theorem render_eraseInRun (t : Target) (showNames : Bool) {e : Element} {i : Nat} {s : Styles}
    (h : e.ofRun? i = some s) {key : String} (hk : key ∈ t.unaddedKeys) :
    t.render showNames (e.eraseInRun i key) = t.render showNames e := by
  cases t with
  | swiftUI => exact SwiftUI.render_eraseInRun showNames h hk
  | _ => cases hk

end Target

/-- Every entry that has a value and says something of the look of an element is seen in the code for it: in its own
styles and in those of its runs, in every element of a scene and in every language. Only the line spacing of a run
is not, where runs are added up. -/
theorem styles_are_shown (s : Settings) (preview : Bool) (nodes : List Node) :
    let t := s.target preview
    let elements := t.walkAll s.optimizeLayout .top nodes
    generate s preview nodes = t.page s.showLayerNames elements ∧
    Tree.HoldsAll (fun e => t.ShowsStyles s.showLayerNames (t.asideKeys e) t.unaddedKeys e ∧
      ∀ i styles, e.ofRun? i = some styles → ∀ key ∈ t.unaddedKeys,
        t.render s.showLayerNames (e.eraseInRun i key) = t.render s.showLayerNames e) (Element.trees elements) := by
  intro t elements
  refine ⟨generate_eq_page s preview nodes, ?_⟩
  have he : elements = t.elements (Scene.pieces s.optimizeLayout nodes) := t.walkAll_eq_elements _ _ nodes
  rw [he, t.elements_trees]
  refine Tree.holdsAll_map (fun p => ⟨t.showsStyles_element _ p, ?_⟩) _
  intro i styles hi key hk
  exact t.render_eraseInRun _ hi hk

/-- A text of two runs, the first with lines that are higher than its font. -/
def greeting : List Node :=
  [.text (.named "Greeting" 0 0 100 40)
    (.ofRuns [{ characters := "Hello ", lineHeight := .pixels 20 }, { characters := "World" }])]

/-- The line spacing of the first run is not seen. -/
theorem greeting_loses_lineSpacing :
    let t := Settings.target { framework := .swiftUI } false
    ¬ Tree.HoldsAll (fun e => t.ShowsStyles false t.arrangementKeys [] e)
      (Element.trees (t.walkAll true .top greeting)) := by
  intro t h
  have hw : t.walkAll true .top greeting = [t.element (.text .top (.named "Greeting" 0 0 100 40)
      (.ofRuns [{ characters := "Hello ", lineHeight := .pixels 20 }, { characters := "World" }]))] := by
    have hv : (Base.named "Greeting" 0 0 100 40).visible = true := rfl
    have hd : (Base.named "Greeting" 0 0 100 40).isDegenerate = false := by decide +kernel
    simp [greeting, Target.walkAll, Target.walk, hv, hd, Target.element]
  rw [hw] at h
  have hg : (t.runStyles (.named "Greeting" 0 0 100 40) { characters := "Hello ", lineHeight := .pixels 20 }).get?
      "lineSpacing" = some ".lineSpacing(6)" := by decide +kernel
  refine h.1.1.ofRuns 0 _ "lineSpacing" _ rfl hg (by decide) List.not_mem_nil ?_
  exact SwiftUI.render_eraseInRun false rfl (List.mem_singleton_self _)

end SceneCode
