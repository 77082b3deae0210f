import SceneCode.Proofs.Layers.Comments
import SceneCode.Proofs.Tailwind.Tidy
import SceneCode.Proofs.Text.Escapes

namespace SceneCode

namespace Comments

/-- Without line breaks. -/
def OneLine (s : String) : Prop :=
  '\n' ∉ s.toList

instance (s : String) : Decidable (OneLine s) := inferInstanceAs (Decidable (_ ∉ _))

namespace OneLine
variable {a b v : String}

theorem ofList {cs : List Char} (h : '\n' ∉ cs) : OneLine (String.ofList cs) := by
  rwa [OneLine, String.toList_ofList]

@[simp] theorem append_iff : OneLine (a ++ b) ↔ OneLine a ∧ OneLine b := by
  simp [OneLine]

/-- A value, and a fixed text behind it. -/
theorem next (h : OneLine a) (hv : OneLine v) {cs : List Char} (hb : '\n' ∉ cs) : OneLine (a ++ v ++ String.ofList cs) :=
  append_iff.mpr ⟨append_iff.mpr ⟨h, hv⟩, .ofList hb⟩

theorem of_plain {s : String} (h : Tailwind.Plain s) : OneLine s := fun hn => by
  have hc := h _ hn
  revert hc
  decide

@[simp] theorem text (x : Float) : OneLine (Number.text x) :=
  of_plain (Tailwind.plain_text x)

@[simp] theorem repr (n : Nat) : OneLine n.repr :=
  of_plain (Tailwind.plain_repr_nat n)

theorem intercalate {separator : String} (hs : OneLine separator) {vs : List String} (h : ∀ v ∈ vs, OneLine v) :
    OneLine (separator.intercalate vs) := by
  intro hn
  rcases ClassPrefix.mem_intercalate hn with hn | ⟨v, hv, hn⟩
  · exact hs hn
  · exact h v hv hn

theorem dart (s : String) : OneLine (Text.dart s) := by
  rw [Text.dart_eq]
  exact Text.dartEscapes.break_not_mem_write s

theorem swift (s : String) : OneLine (Text.swift s) := by
  rw [Text.swift_eq]
  exact Text.swiftEscapes.break_not_mem_write s

end OneLine

/-- One line that starts with code. -/
structure Line (s : String) : Prop where
  oneLine : OneLine s
  solid : Solid s.toList

instance (s : String) : Decidable (Line s) :=
  decidable_of_iff (OneLine s ∧ Solid s.toList) ⟨fun h => ⟨h.1, h.2⟩, fun h => ⟨h.1, h.2⟩⟩

theorem Line.ofList {cs : List Char} (h : '\n' ∉ cs ∧ Solid cs) : Line (String.ofList cs) where
  oneLine := .ofList h.1
  solid := by
    rw [String.toList_ofList]
    exact h.2

theorem Line.append {a b : String} (ha : Line a) (hb : OneLine b) : Line (a ++ b) where
  oneLine := OneLine.append_iff.mpr ⟨ha.oneLine, hb⟩
  solid := by
    rw [String.toList_append]
    exact ha.solid.append _

/-- A value, and a fixed text behind it. -/
theorem Line.next {a v : String} (ha : Line a) (hv : OneLine v) {cs : List Char} (hb : '\n' ∉ cs) :
    Line (a ++ v ++ String.ofList cs) :=
  (ha.append hv).append (.ofList hb)

/-- Code without comments: it stays as it is, at every depth. -/
def Steady (s : String) : Prop :=
  Clears s.toList s.toList []

theorem OneLine.steady {s : String} (h : OneLine s) : Steady s :=
  Clears.inline h

theorem Steady.append {a b : String} (ha : Steady a) (hb : Steady b) : Steady (a ++ b) := by
  unfold Steady
  rw [String.toList_append]
  exact Clears.append ha hb

theorem Steady.join {vs : List String} (h : ∀ v ∈ vs, Steady v) : Steady (String.join vs) := by
  unfold Steady
  rw [String.toList_join]
  induction vs with
  | nil => exact Clears.nil
  | cons v vs ih =>
    exact Clears.append (h v List.mem_cons_self) (ih fun u hu => h u (List.mem_cons_of_mem _ hu))

/-- A view or a widget, which starts in the middle of a line or at its start. -/
structure Widget (f g : String) (names : List String) : Prop where
  clears : Clears f.toList g.toList names
  solid : Solid f.toList

theorem Line.widget {s : String} (h : Line s) : Widget s s [] :=
  ⟨h.oneLine.steady, h.solid⟩

theorem Widget.append {f g u v : String} {ms ns : List String} (h : Widget f g ms) (hu : Clears u.toList v.toList ns) :
    Widget (f ++ u) (g ++ v) (ms ++ ns) := by
  refine ⟨?_, ?_⟩
  · rw [String.toList_append, String.toList_append]
    exact h.clears.append hu
  · rw [String.toList_append]
    exact h.solid.append _

theorem Widget.append_steady {f g s : String} {names : List String} (h : Widget f g names) (hs : Steady s) :
    Widget (f ++ s) (g ++ s) names := by
  have hw := h.append hs
  rwa [List.append_nil] at hw

/-- A fragment, which starts with a line break, and what is left of it. -/
structure Fragment (f g : String) (names : List String) : Prop where
  clears : Clears f.toList g.toList names
  starts : f.toList.head? = some '\n' ∧ g.toList.head? = some '\n'

theorem Widget.fragment {f g : String} {names : List String} (h : Widget f g names) :
    Fragment ("\n" ++ f) ("\n" ++ g) names := by
  have hb : "\n".toList = ['\n'] := by decide
  have hc := h.clears.line h.solid
  refine ⟨?_, by simp [hb]⟩
  rw [String.toList_append, String.toList_append, hb]
  exact hc

theorem Widget.fragment_comment {f g name : String} {names : List String} (h : Widget f g names) (hn : FitsLine name) :
    Fragment ("\n// " ++ name ++ "\n" ++ f) ("\n" ++ g) (name :: names) := by
  have hb : "\n".toList = ['\n'] := by decide
  have hs : "\n// ".toList = ['\n', '/', '/', ' '] := by decide
  have hc := h.clears.comment h.solid hn
  exact ⟨by simpa [hb, hs] using hc, by simp [hb, hs]⟩

inductive Fragments : List String → List String → List String → Prop where
  | nil : Fragments [] [] []
  | cons {f g : String} {fs gs ms ns : List String} (h : Fragment f g ms) (hs : Fragments fs gs ns) :
    Fragments (f :: fs) (g :: gs) (ms ++ ns)

namespace Fragments
variable {fs gs ns : List String}

theorem steady (h : ∀ f ∈ fs, Fragment f f []) : Fragments fs fs [] := by
  induction fs with
  | nil => exact .nil
  | cons f fs ih =>
    rw [List.forall_mem_cons] at h
    exact .cons h.1 (ih h.2)

theorem append {fs' gs' ns' : List String} (h : Fragments fs gs ns) (h' : Fragments fs' gs' ns') :
    Fragments (fs ++ fs') (gs ++ gs') (ns ++ ns') := by
  induction h with
  | nil => exact h'
  | cons h hs ih =>
    rw [List.append_assoc]
    exact .cons h ih

theorem isEmpty_eq (h : Fragments fs gs ns) : fs.isEmpty = gs.isEmpty := by
  cases h <;> rfl

/-- The same put around every fragment. -/
theorem join_map (h : Fragments fs gs ns) {wrap : String → String}
    (hw : ∀ f g ms, Clears f.toList g.toList ms → Clears (wrap f).toList (wrap g).toList ms) :
    Clears (String.join (fs.map wrap)).toList (String.join (gs.map wrap)).toList ns := by
  induction h with
  | nil => exact Clears.nil
  | cons h hs ih => simpa using (hw _ _ _ h.clears).append ih

theorem join (h : Fragments fs gs ns) : Clears (String.join fs).toList (String.join gs).toList ns := by
  have hj : Clears (String.join (fs.map id)).toList (String.join (gs.map id)).toList ns := h.join_map fun _ _ _ hc => hc
  rwa [List.map_id, List.map_id] at hj

theorem head_join (h : Fragments fs gs ns) (hn : fs ≠ []) :
    (String.join fs).toList.head? = some '\n' ∧ (String.join gs).toList.head? = some '\n' := by
  cases h with
  | nil => exact absurd rfl hn
  | cons h hs => simp [h.starts]

end Fragments

theorem Clears.indentText {f g : String} {ns : List String} (h : Clears f.toList g.toList ns) :
    Clears (Text.indent f).toList (Text.indent g).toList ns := by
  rw [Text.indent, Text.indent, String.toList_ofList, String.toList_ofList]
  exact h.indent

end Comments

namespace Element

mutual
/-- The names that elements are written with, in document order. -/
def names : Element → List String
  | .container name _ children => (Target.label true name).toList ++ namesAll children
  | .image name _ _ => (Target.label true name).toList
  | .text name _ _ => (Target.label true name).toList

def namesAll : List Element → List String
  | [] => []
  | e :: es => names e ++ namesAll es
end

end Element
end SceneCode
