import SceneCode.Proofs.Payload.Positions

namespace SceneCode
open Json (AgreeOn)

def NodeKind.names : List String := ["FRAME", "COMPONENT", "COMPONENT_SET", "INSTANCE", "GROUP", "RECTANGLE", "ELLIPSE",
  "TEXT", "LINE", "VECTOR", "STAR", "POLYGON", "BOOLEAN_OPERATION"]

def PaintKind.names : List String :=
  ["SOLID", "GRADIENT_LINEAR", "GRADIENT_RADIAL", "GRADIENT_ANGULAR", "GRADIENT_DIAMOND", "IMAGE"]

def EffectKind.names : List String := ["DROP_SHADOW", "INNER_SHADOW", "LAYER_BLUR", "BACKGROUND_BLUR"]

theorem NodeKind.ofName_of_not_mem {name : String} (h : name ∉ names) : ofName name = .unknown := by
  unfold ofName
  split <;> simp_all [names]

theorem PaintKind.ofName_of_not_mem {name : String} (h : name ∉ names) : ofName name = .unknown := by
  unfold ofName
  split <;> simp_all [names]

theorem EffectKind.ofName_of_not_mem {name : String} (h : name ∉ names) : ofName name = .unknown := by
  unfold ofName
  split <;> simp_all [names]

namespace Part

/-- An object of a kind with an unknown name, and what stands for it. Its other fields may be anything. -/
inductive Foreign : (part : Part) → Json → part.Value → Prop
  | node {inside : Bool} {fields : List (String × Json)} {kind : String}
      (tag : fields.lookup "type" = some (.string kind)) (unknown : kind ∉ NodeKind.names) :
      Foreign (.node inside) (.object fields) .unknown
  | paint {fields : List (String × Json)} {kind : String} (tag : fields.lookup "type" = some (.string kind))
      (unknown : kind ∉ PaintKind.names) : Foreign .paint (.object fields) .unknown
  | effect {fields : List (String × Json)} {kind : String} (tag : fields.lookup "type" = some (.string kind))
      (unknown : kind ∉ EffectKind.names) : Foreign .effect (.object fields) .unknown

theorem Foreign.read_eq {part : Part} {json : Json} {value : part.Value} (foreign : Foreign part json value) :
    part.read json = .ok value := by
  cases foreign with
  | node tag unknown =>
    rw [read, node_object, Json.kindOf, tag]
    simp only [Json.Kinds.read, NodeKind.kinds, NodeKind.ofName_of_not_mem unknown]
    rfl
  | paint tag unknown =>
    rw [read, paint_object, Json.kindOf, tag]
    simp only [Json.Kinds.read, PaintKind.kinds, PaintKind.ofName_of_not_mem unknown]
    rfl
  | effect tag unknown =>
    rw [read, effect_object, Json.kindOf, tag]
    simp only [Json.Kinds.read, EffectKind.kinds, EffectKind.ofName_of_not_mem unknown]
    rfl

end Part

/-- A document grows to another one by undeclared fields of its objects and by objects of unknown kinds in its lists.
Only the latter have an effect on the nodes. -/
inductive Grows : Json → Json → (List Node → List Node) → Prop
  | same (doc : Json) : Grows doc doc id
  | fields {doc : Json} {effect : List Node → List Node} {part : Part} {around : Json → Json}
      {put : (part.Value → part.Value) → List Node → List Node} {fields fields' : List (String × Json)}
      (grown : Grows doc (around (.object fields)) effect) (position : Part.Position part around put)
      (holds : part.Holds (.object fields))
      (declared : (fields'.filter fun field => (part.declared fields).contains field.1) =
        fields.filter fun field => (part.declared fields).contains field.1) :
      Grows doc (around (.object fields')) effect
  | item {doc : Json} {effect : List Node → List Node} {part : Part} {around : Json → Json}
      {put : (List part.Value → List part.Value) → List Node → List Node} {front rest : List Json} {json : Json}
      {value : part.Value} (grown : Grows doc (around (.array (front ++ rest))) effect)
      (position : Part.Position (.list part) around put) (foreign : Part.Foreign part json value) :
      Grows doc (around (.array (front ++ json :: rest)))
        (put (fun values => values.insertIdx front.length value) ∘ effect)

/-- Undeclared fields and objects of unknown kinds neither make a document unreadable nor touch what stands beside
them. -/
theorem ofJson?_of_grows {doc doc' : Json} {effect : List Node → List Node} (h : Grows doc doc' effect) :
    Scene.ofJson? doc' = effect <$> Scene.ofJson? doc := by
  induction h with
  | same => rw [id_map]
  | @fields effect part around put fields fields' grown position holds declared ih =>
    have holds' : part.Holds (.object fields') := by
      cases part <;> first | exact ⟨fields', rfl⟩ | exact holds.elim nofun
    have hr : part.read (.object fields') = id <$> part.read (.object fields) := by
      rw [id_map]
      exact Part.read_of_agree (Json.agreeOn_of_filter declared)
    rw [position.ofJson?_eq holds holds' hr, position.put_id, id_map, ih]
  | @item effect part around put front rest json value grown position foreign ih =>
    rw [position.ofJson?_eq ⟨_, rfl⟩ ⟨_, rfl⟩ (Part.read_inserted foreign.read_eq), ih, ← comp_map]

/-- A frame with a picture in it, with further fields of the frame and paints before the picture. -/
def album (fields : List (String × Json)) (paints : List Json) : Json :=
  .array [.object (("type", .string "FRAME") :: fields ++ [("children", .array
    [.object [("type", .string "RECTANGLE"), ("name", .string "Picture"),
      ("fills", .array (paints ++ [.object [("type", .string "IMAGE")]]))]])])]

/-- A frame with foreign data is read as before, its picture with an unknown paint in front of its own. -/
theorem ofJson?_album :
    Scene.ofJson? (album [("pluginData", .bool true)] [.object [("type", .string "VIDEO"), ("opacity", .null)]]) =
      .ok [.frame {} {} none false [.shape .rectangle { name := "Picture", fills := [.unknown, .image {}] }]] := by
  have frame := Part.Position.item .nodes [] []
  have children := Part.Position.field frame (.children false)
    [("type", .string "FRAME"), ("pluginData", .bool true)] [] (by decide)
  have picture := Part.Position.item children [] []
  have fills := Part.Position.field picture (.fills true)
    [("type", .string "RECTANGLE"), ("name", .string "Picture")] [] (by decide)
  have video : Part.Foreign .paint (.object [("type", .string "VIDEO"), ("opacity", .null)]) .unknown :=
    .paint rfl (by decide)
  have padded : Grows (album [] []) (album [("pluginData", .bool true)] []) id :=
    .fields (by exact .same (album [] [])) frame (by exact ⟨_, rfl⟩) (by rfl)
  have grown := Grows.item padded fills video
  exact (ofJson?_of_grows grown).trans rfl

end SceneCode
