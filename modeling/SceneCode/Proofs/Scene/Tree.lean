import SceneCode.Element
import Mathlib.Data.List.Forall2

namespace SceneCode

inductive Tree (α : Type) where
  | node (label : α) (children : List (Tree α))

namespace Tree
variable {α β γ : Type}

mutual
def map (f : α → β) : Tree α → Tree β
  | .node a ts => .node (f a) (mapAll f ts)

def mapAll (f : α → β) : List (Tree α) → List (Tree β)
  | [] => []
  | t :: ts => t.map f :: mapAll f ts
end

mutual
/-- Every label with the labels above it, from the inside out. -/
def chainsUnder (above : List α) : Tree α → List (List α)
  | .node a ts => (a :: above) :: chainsAllUnder (a :: above) ts

def chainsAllUnder (above : List α) : List (Tree α) → List (List α)
  | [] => []
  | t :: ts => t.chainsUnder above ++ chainsAllUnder above ts
end

/-- One chain for each label, in document order. -/
def chains (ts : List (Tree α)) : List (List α) :=
  chainsAllUnder [] ts

mutual
theorem map_map (f : α → β) (g : β → γ) : (t : Tree α) → (t.map f).map g = t.map (g ∘ f)
  | .node a ts => by simp [map, mapAll_mapAll f g ts]

theorem mapAll_mapAll (f : α → β) (g : β → γ) :
    (ts : List (Tree α)) → mapAll g (mapAll f ts) = mapAll (g ∘ f) ts
  | [] => rfl
  | t :: ts => by simp [mapAll, map_map f g t, mapAll_mapAll f g ts]
end

section Match
variable (R : List α → List β → Prop)

mutual
def Match (above : List α) (above' : List β) : Tree α → Tree β → Prop
  | .node a ts, .node b us => R (a :: above) (b :: above') ∧ MatchAll (a :: above) (b :: above') ts us

def MatchAll (above : List α) (above' : List β) : List (Tree α) → List (Tree β) → Prop
  | [], [] => True
  | t :: ts, u :: us => Match above above' t u ∧ MatchAll above above' ts us
  | _, _ => False
end

variable {R} {above : List α} {above' : List β}

theorem MatchAll.append {ts : List (Tree α)} {us : List (Tree β)} {ts' : List (Tree α)} {us' : List (Tree β)}
    (h : MatchAll R above above' ts us) (h' : MatchAll R above above' ts' us') :
    MatchAll R above above' (ts ++ ts') (us ++ us') := by
  induction ts generalizing us with
  | nil =>
    cases us with
    | nil => exact h'
    | cons u us => simp [MatchAll] at h
  | cons t ts ih =>
    cases us with
    | nil => simp [MatchAll] at h
    | cons u us =>
      simp only [List.cons_append, MatchAll] at h ⊢
      exact ⟨h.1, ih h.2⟩

theorem MatchAll.isEmpty_eq {ts : List (Tree α)} {us : List (Tree β)} (h : MatchAll R above above' ts us) :
    ts.isEmpty = us.isEmpty := by
  cases ts <;> cases us <;> simp_all [MatchAll]

theorem MatchAll.length_eq {ts : List (Tree α)} {us : List (Tree β)} (h : MatchAll R above above' ts us) :
    ts.length = us.length := by
  induction ts generalizing us with
  | nil =>
    cases us with
    | nil => rfl
    | cons u us => simp [MatchAll] at h
  | cons t ts ih =>
    cases us with
    | nil => simp [MatchAll] at h
    | cons u us =>
      simp only [MatchAll] at h
      rw [List.length_cons, List.length_cons, ih h.2]

theorem MatchAll.nil {S : List α → List β → Prop} {us : List (Tree β)} (h : MatchAll R above above' [] us) :
    MatchAll S above above' [] us := by
  cases us with
  | nil => trivial
  | cons u us => simp [MatchAll] at h

mutual
theorem Match.chains {above : List α} {above' : List β} : {t : Tree α} → {u : Tree β} →
    Match R above above' t u → List.Forall₂ R (t.chainsUnder above) (u.chainsUnder above')
  | .node a ts, .node b us, h => by
    simp only [Match] at h
    exact .cons h.1 h.2.chainsAllUnder

/-- Every chain of one side stands opposite the chain at the same place on the other. -/
theorem MatchAll.chainsAllUnder {above : List α} {above' : List β} : {ts : List (Tree α)} → {us : List (Tree β)} →
    MatchAll R above above' ts us → List.Forall₂ R (Tree.chainsAllUnder above ts) (Tree.chainsAllUnder above' us)
  | [], [], _ => .nil
  | t :: ts, u :: us, h => by
    simp only [MatchAll] at h
    exact List.rel_append h.1.chains h.2.chainsAllUnder
  | [], _ :: _, h => by simp [MatchAll] at h
  | _ :: _, [], h => by simp [MatchAll] at h
end

theorem MatchAll.imp {S : List α → List β → Prop}
    (hRS : ∀ {a as b bs}, R (a :: as) (b :: bs) → S (a :: as) (b :: bs)) {above : List α} {above' : List β} :
    {ts : List (Tree α)} → {us : List (Tree β)} → MatchAll R above above' ts us → MatchAll S above above' ts us
  | [], [], _ => trivial
  | .node a ts :: ts', .node b us :: us', h => by
    simp only [MatchAll, Match] at h ⊢
    exact ⟨⟨hRS h.1.1, h.1.2.imp hRS⟩, h.2.imp hRS⟩
  | [], _ :: _, h => by simp [MatchAll] at h
  | _ :: _, [], h => by simp [MatchAll] at h

variable {f : α → γ} {g : β → γ}

mutual
theorem Match.map_eq (hR : ∀ {a as b bs}, R (a :: as) (b :: bs) → f a = g b) {above : List α} {above' : List β} :
    {t : Tree α} → {u : Tree β} → Match R above above' t u → t.map f = u.map g
  | .node a ts, .node b us, h => by
    simp only [Match] at h
    rw [map, map, hR h.1, h.2.mapAll_eq hR]

/-- Trees that agree place by place are one tree. -/
theorem MatchAll.mapAll_eq (hR : ∀ {a as b bs}, R (a :: as) (b :: bs) → f a = g b) {above : List α}
    {above' : List β} : {ts : List (Tree α)} → {us : List (Tree β)} →
    MatchAll R above above' ts us → mapAll f ts = mapAll g us
  | [], [], _ => rfl
  | t :: ts, u :: us, h => by
    simp only [MatchAll] at h
    rw [mapAll, mapAll, h.1.map_eq hR, h.2.mapAll_eq hR]
  | [], _ :: _, h => by simp [MatchAll] at h
  | _ :: _, [], h => by simp [MatchAll] at h
end

/-- A relation on trees is one on the trees that they come from. -/
theorem MatchAll.mapAll {S : List γ → List β → Prop} {f : α → γ}
    (hRS : ∀ {a as b bs}, R (a :: as) (b :: bs) → S ((a :: as).map f) (b :: bs)) {above : List α} {above' : List β} :
    {ts : List (Tree α)} → {us : List (Tree β)} → MatchAll R above above' ts us →
      MatchAll S (above.map f) above' (Tree.mapAll f ts) us
  | [], [], _ => trivial
  | .node a ts :: ts', .node b us :: us', h => by
    simp only [MatchAll, Match, Tree.mapAll, map] at h ⊢
    exact ⟨⟨hRS h.1.1, h.1.2.mapAll hRS⟩, h.2.mapAll hRS⟩
  | [], _ :: _, h => by simp [MatchAll] at h
  | _ :: _, [], h => by simp [MatchAll] at h

/-- What is said of each chain is said of the chains at the same places on the other side. -/
theorem MatchAll.map_chains {f : List α → γ} {g : List β → γ} {ts : List (Tree α)} {us : List (Tree β)}
    (h : MatchAll R [] [] ts us) (hR : ∀ {a as b bs}, R (a :: as) (b :: bs) → f (a :: as) = g (b :: bs)) :
    (chains ts).map f = (chains us).map g := by
  have hc : List.Forall₂ (fun as bs => f as = g bs) (chains ts) (chains us) := (h.imp hR).chainsAllUnder
  rw [← List.forall₂_eq_eq_eq, List.forall₂_map_left_iff, List.forall₂_map_right_iff]
  exact hc

theorem MatchAll.forall_chains {P : List α → Prop} {Q : List β → Prop} {ts : List (Tree α)} {us : List (Tree β)}
    (h : MatchAll R [] [] ts us) (hR : ∀ {a as b bs}, R (a :: as) (b :: bs) → (P (a :: as) ↔ Q (b :: bs))) :
    (∀ c ∈ chains ts, P c) ↔ ∀ c ∈ chains us, Q c := by
  have hc : (∀ p ∈ (chains ts).map P, p) ↔ ∀ p ∈ (chains us).map Q, p := by
    rw [h.map_chains fun hab => propext (hR hab)]
  simpa only [List.forall_mem_map] using hc

end Match
end Tree

mutual
/-- A piece over the pieces in it, each standing for itself. -/
def Piece.tree {α : Type} : Piece α → Tree (Piece α)
  | .frame slot base flow clips children => .node (.frame slot base flow clips children) (Piece.trees children)
  | .group slot base children => .node (.group slot base children) (Piece.trees children)
  | .shape slot base ellipse => .node (.shape slot base ellipse) []
  | .line slot base => .node (.line slot base) []
  | .text slot base box => .node (.text slot base box) []

def Piece.trees {α : Type} : List (Piece α) → List (Tree (Piece α))
  | [] => []
  | p :: ps => p.tree :: Piece.trees ps
end

mutual
/-- An element over the elements in it. -/
def Element.tree : Element → Tree Element
  | .container name styles children => .node (.container name styles children) (Element.trees children)
  | .image name styles source => .node (.image name styles source) []
  | .text name styles runs => .node (.text name styles runs) []

def Element.trees : List Element → List (Tree Element)
  | [] => []
  | e :: es => e.tree :: Element.trees es
end

theorem Piece.length_trees {α : Type} (ps : List (Piece α)) : (Piece.trees ps).length = ps.length := by
  induction ps with
  | nil => rfl
  | cons p ps ih => rw [trees, List.length_cons, ih, List.length_cons]

theorem Piece.trees_append {α : Type} (ps qs : List (Piece α)) :
    Piece.trees (ps ++ qs) = Piece.trees ps ++ Piece.trees qs := by
  induction ps with
  | nil => rfl
  | cons p ps ih => simp [Piece.trees, ih]

theorem Target.shapeElement_tree (t : Target) (slot : Slot Float) (base : Base) (ellipse : Bool) :
    (t.shapeElement slot base ellipse).tree = .node (t.shapeElement slot base ellipse) [] := by
  unfold Target.shapeElement
  split <;> simp [Element.tree, Element.trees]

theorem Target.textElement_tree (t : Target) (slot : Slot Float) (base : Base) (box : TextBox) :
    (t.textElement slot base box).tree = .node (t.textElement slot base box) [] := by
  unfold Target.textElement
  split <;> simp [Element.tree]

mutual
/-- One element for each piece, nested as the pieces are. -/
theorem Target.element_tree (t : Target) : (p : Piece Float) → (t.element p).tree = p.tree.map t.element
  | .frame slot base flow clips children => by
    simp [Target.element, Element.tree, Piece.tree, Tree.map, t.elements_trees children]
  | .group slot base children => by
    simp [Target.element, Element.tree, Piece.tree, Tree.map, t.elements_trees children]
  | .shape slot base ellipse => by
    simp [Target.element, Piece.tree, Tree.map, Tree.mapAll, t.shapeElement_tree slot base ellipse]
  | .line slot base => by simp [Target.element, Element.tree, Element.trees, Piece.tree, Tree.map, Tree.mapAll]
  | .text slot base box => by
    simp [Target.element, Piece.tree, Tree.map, Tree.mapAll, t.textElement_tree slot base box]

theorem Target.elements_trees (t : Target) :
    (ps : List (Piece Float)) → Element.trees (t.elements ps) = Tree.mapAll t.element (Piece.trees ps)
  | [] => rfl
  | p :: ps => by
    simp [Target.elements, Element.trees, Piece.trees, Tree.mapAll, t.element_tree p, t.elements_trees ps]
end

end SceneCode
