namespace SceneCode

structure Point (α : Type) where
  x : α
  y : α
deriving DecidableEq

instance {α : Type} [Sub α] : Sub (Point α) :=
  ⟨fun p q => ⟨p.x - q.x, p.y - q.y⟩⟩

def Point.zero {α : Type} [OfNat α 0] : Point α := ⟨0, 0⟩

end SceneCode
