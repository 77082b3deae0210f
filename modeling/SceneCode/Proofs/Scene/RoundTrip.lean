import SceneCode.Proofs.Scene.Written

namespace SceneCode
open Json

section Distinct

@[simp] theorem itemsDistinct_map {α : Type} {write : α → Json} (as : List α) (h : ∀ a, (write a).Distinct) :
    ItemsDistinct (as.map write) := by
  rw [itemsDistinct_iff, List.forall_mem_map]
  exact fun a _ => h a

@[simp] theorem Named.distinct {α : Type} [Named α] (a : α) : (Named.toJson a).Distinct := trivial

@[simp] theorem Rgb.distinct (c : Rgb) : c.toJson.Distinct := by
  simp [Rgb.toJson]

@[simp] theorem Rgba.distinct (c : Rgba) : c.toJson.Distinct := by
  simp [Rgba.toJson]

@[simp] theorem Point.distinct (p : Point Float) : p.toJson.Distinct := by
  simp [Point.toJson]

@[simp] theorem ColorStop.distinct (s : ColorStop) : s.toJson.Distinct := by
  simp [ColorStop.toJson]

@[simp] theorem Transform.distinct (t : Transform) : t.toJson.Distinct := by
  simp [Transform.toJson]

@[simp] theorem Json.distinct_ofOption {α : Type} {write : α → Json} (o : Option α) (h : ∀ a, (write a).Distinct) :
    (ofOption write o).Distinct := by
  cases o with
  | none => trivial
  | some a => exact h a

@[simp] theorem Paint.distinct (p : Paint) : p.toJson.Distinct := by
  cases p <;> simp [Paint.toJson]

@[simp] theorem Effect.distinct (e : Effect) : e.toJson.Distinct := by
  cases e <;> simp [Effect.toJson, ShadowEffect.toJson, BlurEffect.toJson]

@[simp] theorem CornerRadii.distinct (c : CornerRadii) : c.toJson.Distinct := by
  simp [CornerRadii.toJson]

@[simp] theorem LineHeight.distinct (h : LineHeight) : h.toJson.Distinct := by
  cases h <;> simp [LineHeight.toJson]

@[simp] theorem TextRun.distinct (t : TextRun) : t.toJson.Distinct := by
  simp [TextRun.toJson]

theorem Base.fieldsDistinct (b : Base) : FieldsDistinct b.toFields := by
  simp [Base.toFields]

theorem AutoLayout.fieldsDistinct (l : AutoLayout) : FieldsDistinct l.toFields := by
  simp [AutoLayout.toFields]

@[simp] theorem AutoLayout.distinct (l : AutoLayout) : l.toJson.Distinct := by
  refine ⟨?_, l.fieldsDistinct⟩
  simp [AutoLayout.toFields]

theorem TextBox.fieldsDistinct (t : TextBox) : FieldsDistinct t.toFields := by
  simp [TextBox.toFields]

/-- The parts that share one object do not take each other's names. -/
theorem Node.nodup_toFields (node : Node) : ((("type", .string node.kind) :: node.toFields).map (·.1)).Nodup := by
  cases node <;> simp [Node.toFields, Base.toFields, AutoLayout.toFields, TextBox.toFields]

theorem Node.distinct_of (node : Node) (h : FieldsDistinct node.toFields) : node.toJson.Distinct := by
  rw [Node.toJson]
  exact ⟨node.nodup_toFields, trivial, h⟩

mutual
theorem Node.fieldsDistinct : (node : Node) → FieldsDistinct node.toFields
  | .frame base layout hint clips children => by
    rw [Node.toFields, fieldsDistinct_append, fieldsDistinct_append]
    exact ⟨⟨base.fieldsDistinct, layout.fieldsDistinct⟩, distinct_ofOption hint AutoLayout.distinct, trivial,
      Node.itemsDistinct children, trivial⟩
  | .group base children => by
    rw [Node.toFields, fieldsDistinct_append]
    exact ⟨base.fieldsDistinct, Node.itemsDistinct children, trivial⟩
  | .shape _ base => by
    rw [Node.toFields]
    exact base.fieldsDistinct
  | .text base box => by
    rw [Node.toFields, fieldsDistinct_append]
    exact ⟨base.fieldsDistinct, box.fieldsDistinct⟩
  | .unknown => by
    rw [Node.toFields]
    trivial

theorem Node.itemsDistinct : (nodes : List Node) → ItemsDistinct (Node.listToJson nodes)
  | [] => by
    rw [Node.listToJson]
    trivial
  | node :: nodes => by
    rw [Node.listToJson]
    exact ⟨node.distinct_of (Node.fieldsDistinct node), Node.itemsDistinct nodes⟩
end

end Distinct

section Nodes

/-- The first field of the name counts. -/
theorem Node.childrenOfFields_of_said {fields : List (String × Json)} {items : List Json} {nodes : List Node}
    (said : FieldSays fields "children" (.array items))
    (h : ∀ items', ItemsSaidBy items items' → Node.listOfJson true items' = .ok nodes) :
    Node.childrenOfFields fields = .ok nodes := by
  obtain ⟨value, hl, items', rfl, hitems⟩ := said
  induction fields with
  | nil => cases hl
  | cons field fields ih =>
    rw [lookup_cons_if] at hl
    rw [Node.childrenOfFields]
    by_cases hkey : field.1 = "children"
    · rw [if_pos hkey.symm] at hl
      rw [if_pos hkey, Option.some.inj hl, Node.childrenOfJson, h items' hitems]
    · rw [if_neg (Ne.symm hkey)] at hl
      rw [if_neg hkey, ih hl]

theorem Node.reads_of {inside : Bool} {node : Node}
    (h : ∀ fields, FieldsSaidBy node.toFields fields →
      Json.tagged "type" NodeKind.kinds inside (.object fields) = .ok (NodeKind.ofName node.kind, .object fields) →
      Node.ofJson inside (.object fields) = .ok node) :
    Reads (Node.ofJson inside) node.toJson node := by
  rw [Node.toJson]
  rintro _ ⟨fields, rfl, htype, said⟩
  exact h fields said (tagged_of_said htype)

mutual
/-- The fields of a node may come in any order and among others. -/
theorem Node.reads (inside : Bool) : (node : Node) → Reads (Node.ofJson inside) node.toJson node
  | .frame base layout hint clips children => by
    refine Node.reads_of fun fields said htag => ?_
    rw [Node.toFields, fieldsSaidBy_append, fieldsSaidBy_append] at said
    obtain ⟨⟨hbase, hlayout⟩, hhint, hclips, hchildren, -⟩ := said
    rw [Node.ofJson, htag]
    -- The reader has a local name for the record, which no rewriting sees through.
    dsimp only
    rw [base.ofRecord_of_said (r := ⟨fields, false⟩) hbase,
      layout.ofRecord_of_said (r := ⟨fields, false⟩) hlayout,
      Record.findD_of_said (r := ⟨fields, false⟩) _ hhint (reads_nullable rfl AutoLayout.reads _),
      Record.findD_of_said (r := ⟨fields, false⟩) _ hclips (reads_flag _),
      Node.childrenOfFields_of_said hchildren (Node.listOfJson_of_said true children)]
    rfl
  | .group base children => by
    refine Node.reads_of fun fields said htag => ?_
    rw [Node.toFields, fieldsSaidBy_append] at said
    obtain ⟨hbase, hchildren, -⟩ := said
    rw [Node.ofJson, htag]
    dsimp only
    rw [base.ofRecord_of_said (r := ⟨fields, false⟩) hbase,
      Node.childrenOfFields_of_said hchildren (Node.listOfJson_of_said true children)]
    rfl
  | .shape kind base => by
    refine Node.reads_of fun fields said htag => ?_
    rw [Node.toFields] at said
    rw [Node.ofJson, htag]
    dsimp only
    rw [base.ofRecord_of_said (r := ⟨fields, false⟩) said]
    cases kind <;> rfl
  | .text base box => by
    refine Node.reads_of fun fields said htag => ?_
    rw [Node.toFields, fieldsSaidBy_append] at said
    rw [Node.ofJson, htag]
    dsimp only
    rw [base.ofRecord_of_said (r := ⟨fields, false⟩) said.1,
      box.ofRecord_of_said (r := ⟨fields, false⟩) said.2]
    rfl
  | .unknown => by
    refine Node.reads_of fun fields _ htag => ?_
    rw [Node.ofJson, htag]
    rfl

theorem Node.listOfJson_of_said (inside : Bool) : (nodes : List Node) →
    ∀ items, ItemsSaidBy (Node.listToJson nodes) items → Node.listOfJson inside items = .ok nodes
  | [], items, said => by
    rw [Node.listToJson] at said
    obtain rfl : items = [] := said
    rw [Node.listOfJson]
  | node :: nodes, items, said => by
    rw [Node.listToJson] at said
    obtain ⟨item, items, rfl, hitem, hitems⟩ := said
    rw [Node.listOfJson, Node.reads inside node item hitem, Node.listOfJson_of_said inside nodes items hitems]
    rfl
end

end Nodes
end SceneCode
