import SceneCode.Proofs.Payload.Parts

namespace SceneCode
open Json (Fault Record Differ AgreeOn)

namespace Node

def onBase (f : Base → Base) : Node → Node
  | .frame base layout hint clips children => .frame (f base) layout hint clips children
  | .group base children => .group (f base) children
  | .shape kind base => .shape kind (f base)
  | .text base box => .text (f base) box
  | .unknown => .unknown

def onHint (f : Option AutoLayout → Option AutoLayout) : Node → Node
  | .frame base layout hint clips children => .frame base layout (f hint) clips children
  | node => node

def onChildren (f : List Node → List Node) : Node → Node
  | .frame base layout hint clips children => .frame base layout hint clips (f children)
  | .group base children => .group base (f children)
  | node => node

def onRuns (f : List TextRun → List TextRun) : Node → Node
  | .text base box => .text base { box with runs := f box.runs }
  | node => node

end Node

def Paint.onColor (f : Rgb → Rgb) : Paint → Paint
  | .solid p => .solid { p with color := f p.color }
  | paint => paint

def Paint.onStops (f : List ColorStop → List ColorStop) : Paint → Paint
  | .gradient kind p => .gradient kind { p with stops := f p.stops }
  | paint => paint

def Effect.onShadow (f : ShadowEffect → ShadowEffect) : Effect → Effect
  | .dropShadow s => .dropShadow (f s)
  | .innerShadow s => .innerShadow (f s)
  | effect => effect

namespace Part

/-- The field of a part that is a part itself, and how its value is changed inside that of the whole. -/
inductive Field : (part inner : Part) → String → ((inner.Value → inner.Value) → part.Value → part.Value) → Prop
  | fills (inside : Bool) : Field (.node inside) (.list .paint) "fills"
      fun f => Node.onBase fun b => { b with fills := f b.fills }
  | strokes (inside : Bool) : Field (.node inside) (.list .paint) "strokes"
      fun f => Node.onBase fun b => { b with strokes := f b.strokes }
  | radii (inside : Bool) : Field (.node inside) .radii "cornerRadii"
      fun f => Node.onBase fun b => { b with cornerRadii := f b.cornerRadii }
  | effects (inside : Bool) : Field (.node inside) (.list .effect) "effects"
      fun f => Node.onBase fun b => { b with effects := f b.effects }
  | hint (inside : Bool) : Field (.node inside) .hint "inferredAutoLayout" Node.onHint
  | children (inside : Bool) : Field (.node inside) (.list (.node true)) "children" Node.onChildren
  | runs (inside : Bool) : Field (.node inside) (.list .run) "segments" Node.onRuns
  | color : Field .paint .rgb "color" Paint.onColor
  | stops : Field .paint (.list .stop) "gradientStops" Paint.onStops
  | stopColor : Field .stop .rgba "color" fun f s => { s with color := f s.color }
  | shadowColor : Field .effect .rgba "color" fun f => Effect.onShadow fun s => { s with color := f s.color }
  | offset : Field .effect .offset "offset" fun f => Effect.onShadow fun s => { s with offset := f s.offset }
  | fontName : Field .run .fontName "fontName" fun f r => { r with fontName := f r.fontName }
  | letterSpacing : Field .run .letterSpacing "letterSpacing" fun f r => { r with letterSpacing := f r.letterSpacing }
  | lineHeight : Field .run .lineHeight "lineHeight" fun f r => { r with lineHeight := f r.lineHeight }
  | runFills : Field .run (.list .paint) "fills" fun f r => { r with fills := f r.fills }

section Fields
open Json.Record
variable {part inner : Part} {key : String} {modify : (inner.Value → inner.Value) → part.Value → part.Value}
  {f : inner.Value → inner.Value} {json json' : Json} {fields fields' : List (String × Json)} {inside : Bool}

/-- What the nodes of each kind declare besides the attributes that all nodes share. -/
def ownNames : List String :=
  layoutNames ++ ["inferredAutoLayout", "clipsContent", "children", "characters", "segments", "textAlignHorizontal",
    "textAlignVertical", "textAutoResize"]

theorem nodeOf_onBase {g : Base → Base} {kind : NodeKind} (ha : AgreeOn ownNames fields fields')
    (hb : Base.ofRecord ⟨fields', false⟩ = g <$> Base.ofRecord ⟨fields, false⟩) :
    nodeOf fields' kind = Node.onBase g <$> nodeOf fields kind := by
  have hl : AutoLayout.ofRecord ⟨fields', false⟩ = AutoLayout.ofRecord ⟨fields, false⟩ := by
    apply layout_of_agree
    intro name hn
    exact ha name (List.mem_append_left _ hn)
  cases kind <;>
    simp (disch := decide) only [nodeOf, TextBox.ofRecord, hb, hl, findD_of_agree ha, map_bind, bind_map_left, map_pure,
      Node.onBase]

theorem nodeOf_field {modify : (inner.Value → inner.Value) → Node → Node} {kind : NodeKind}
    (field : Field (.node inside) inner key modify) (hd : Differ key json json' fields fields')
    (hr : inner.read json' = f <$> inner.read json) :
    nodeOf fields' kind = modify f <$> nodeOf fields kind := by
  have hb (h : key ∉ baseNames) : Base.ofRecord ⟨fields', false⟩ = Base.ofRecord ⟨fields, false⟩ :=
    base_of_agree (Json.agreeOn_of_differ hd h)
  have hl (h : key ∉ layoutNames) : AutoLayout.ofRecord ⟨fields', false⟩ = AutoLayout.ofRecord ⟨fields, false⟩ :=
    layout_of_agree (Json.agreeOn_of_differ hd h)
  cases field with
  | fills | strokes =>
    refine nodeOf_onBase (Json.agreeOn_of_differ hd (by decide)) ?_
    simp (disch := decide) only [Base.ofRecord, findD_of_ne hd, findD_of_differ paintsOfJson hd hr, map_bind,
      bind_map_left, map_pure]
  | radii =>
    refine nodeOf_onBase (Json.agreeOn_of_differ hd (by decide)) ?_
    simp (disch := decide) only [Base.ofRecord, findD_of_ne hd, findD_of_differ CornerRadii.ofJson hd hr,
      map_bind, bind_map_left, map_pure]
  | effects =>
    refine nodeOf_onBase (Json.agreeOn_of_differ hd (by decide)) ?_
    simp (disch := decide) only [Base.ofRecord, findD_of_ne hd, findD_of_differ (Json.list Effect.ofJson) hd hr,
      map_bind, bind_map_left, map_pure]
  | hint =>
    cases kind <;>
      simp (disch := decide) only [nodeOf, TextBox.ofRecord, hb, hl, findD_of_ne hd,
        findD_of_differ (Json.nullable AutoLayout.ofJson) hd hr, map_bind, bind_map_left, map_pure, Node.onHint]
  | children =>
    cases kind <;>
      simp (disch := decide) only [nodeOf, TextBox.ofRecord, hb, hl, findD_of_ne hd,
        findD_of_differ (Json.list (Node.ofJson true)) hd hr, map_bind, bind_map_left, map_pure, Node.onChildren]
  | runs =>
    cases kind <;>
      simp (disch := decide) only [nodeOf, TextBox.ofRecord, hb, hl, findD_of_ne hd,
        findD_of_differ (Json.list TextRun.ofJson) hd hr, map_bind, bind_map_left, map_pure, bind_assoc,
        pure_bind, Node.onRuns]

theorem paintOf_field {modify : (inner.Value → inner.Value) → Paint → Paint} {kind : PaintKind}
    (field : Field .paint inner key modify) (hd : Differ key json json' fields fields')
    (hr : inner.read json' = f <$> inner.read json) :
    paintOf fields' kind = modify f <$> paintOf fields kind := by
  cases field with
  | color =>
    cases kind <;>
      simp (disch := decide) only [paintOf, SolidPaint.ofJson, GradientPaint.ofJson, ImagePaint.ofJson,
        Json.record_object, pure_bind, find_of_ne hd, findD_of_ne hd, find_of_differ Rgb.ofJson hd hr,
        need_congr fields, need_map, map_bind, bind_map_left, map_pure, Paint.onColor, bind_assoc]
  | stops =>
    cases kind <;>
      simp (disch := decide) only [paintOf, SolidPaint.ofJson, GradientPaint.ofJson, ImagePaint.ofJson,
        Json.record_object, pure_bind, find_of_ne hd, findD_of_ne hd,
        find_of_differ (Json.list ColorStop.ofJson) hd hr,
        need_congr fields, need_map, map_bind, bind_map_left, map_pure, Paint.onStops, bind_assoc]

theorem effectOf_field {modify : (inner.Value → inner.Value) → Effect → Effect} {kind : EffectKind}
    (field : Field .effect inner key modify) (hd : Differ key json json' fields fields')
    (hr : inner.read json' = f <$> inner.read json) :
    effectOf fields' kind = modify f <$> effectOf fields kind := by
  cases field with
  | shadowColor =>
    cases kind <;>
      simp (disch := decide) only [effectOf, ShadowEffect.ofJson, BlurEffect.ofJson, Json.record_object, pure_bind,
        find_of_ne hd, findD_of_ne hd, find_of_differ Rgba.ofJson hd hr, need_congr fields, need_map, map_bind,
        bind_map_left, map_pure, bind_assoc, Effect.onShadow]
  | offset =>
    cases kind <;>
      simp (disch := decide) only [effectOf, ShadowEffect.ofJson, BlurEffect.ofJson, Json.record_object, pure_bind,
        find_of_ne hd, findD_of_ne hd, findD_of_differ Point.ofJson hd hr, need_congr fields, map_bind,
        bind_map_left, map_pure, bind_assoc, Effect.onShadow]

/-- What is read of a field goes into the value of the whole. -/
theorem read_field (field : Field part inner key modify) (hd : Differ key json json' fields fields')
    (hr : inner.read json' = f <$> inner.read json) :
    part.read (.object fields') = modify f <$> part.read (.object fields) := by
  cases part with
  | node inside =>
    have ht : key ≠ "type" := by
      cases field <;> decide
    simp only [read, node_object]
    exact Json.kindOf_bind (hd.others "type" ht.symm) fun _ _ => nodeOf_field field hd hr
  | paint =>
    have ht : key ≠ "type" := by
      cases field <;> decide
    simp only [read, paint_object]
    exact Json.kindOf_bind (hd.others "type" ht.symm) fun _ _ => paintOf_field field hd hr
  | effect =>
    have ht : key ≠ "type" := by
      cases field <;> decide
    simp only [read, effect_object]
    exact Json.kindOf_bind (hd.others "type" ht.symm) fun _ _ => effectOf_field field hd hr
  | stop =>
    cases field with
    | stopColor =>
      simp (disch := decide) only [read, ColorStop.ofJson, Json.record_object, pure_bind, find_of_ne hd,
        find_of_differ Rgba.ofJson hd hr, need_congr fields, need_map, map_bind, bind_map_left, map_pure]
  | run =>
    cases field with
    | fontName =>
      simp (disch := decide) only [read, TextRun.ofJson, Json.record_object, pure_bind, find_of_ne hd, findD_of_ne hd,
        findD_of_differ FontName.ofJson hd hr, need_congr fields, map_bind, bind_map_left, map_pure]
    | letterSpacing =>
      simp (disch := decide) only [read, TextRun.ofJson, Json.record_object, pure_bind, find_of_ne hd, findD_of_ne hd,
        findD_of_differ LetterSpacing.ofJson hd hr, need_congr fields, map_bind, bind_map_left, map_pure]
    | lineHeight =>
      simp (disch := decide) only [read, TextRun.ofJson, Json.record_object, pure_bind, find_of_ne hd, findD_of_ne hd,
        findD_of_differ LineHeight.ofJson hd hr, need_congr fields, map_bind, bind_map_left, map_pure]
    | runFills =>
      simp (disch := decide) only [read, TextRun.ofJson, Json.record_object, pure_bind, find_of_ne hd, findD_of_ne hd,
        findD_of_differ paintsOfJson hd hr, need_congr fields, map_bind, bind_map_left, map_pure]
  | _ => cases field

end Fields

section Lists
variable {part : Part} {f : part.Value → part.Value} {value : part.Value} {json json' : Json} {front rest : List Json}

theorem read_array (items : List Json) : (list part).read (.array items) = items.mapM part.read :=
  rfl

theorem read_item (hr : part.read json' = f <$> part.read json) :
    (list part).read (.array (front ++ json' :: rest)) =
      (fun values => values.modify front.length f) <$> (list part).read (.array (front ++ json :: rest)) := by
  simp only [read_array]
  induction front with
  | nil =>
    simp only [List.nil_append, List.mapM_cons, hr, bind_map_left, map_bind, map_pure, List.length_nil,
      List.modify_zero_cons]
  | cons item front ih =>
    simp only [List.cons_append, List.mapM_cons, ih, bind_map_left, map_bind, map_pure, List.length_cons,
      List.modify_succ_cons]

theorem read_inserted (hr : part.read json = .ok value) :
    (list part).read (.array (front ++ json :: rest)) =
      (fun values => values.insertIdx front.length value) <$> (list part).read (.array (front ++ rest)) := by
  simp only [read_array]
  induction front with
  | nil =>
    simp only [List.nil_append, List.mapM_cons, hr, List.length_nil, List.insertIdx_zero]
    cases rest.mapM part.read <;> rfl
  | cons item front ih =>
    simp only [List.cons_append, List.mapM_cons, ih, bind_map_left, map_bind, map_pure, List.length_cons,
      List.insertIdx_succ_cons]

end Lists

/-- Lists stand as arrays. Everything else is written as an object here. -/
def Holds : Part → Json → Prop
  | list _, json => ∃ items, json = .array items
  | _, json => ∃ fields, json = .object fields

theorem Field.holds {part inner : Part} {key : String} {modify : (inner.Value → inner.Value) → part.Value → part.Value}
    (field : Field part inner key modify) (fields : List (String × Json)) : part.Holds (.object fields) := by
  cases field <;> exact ⟨fields, rfl⟩

/-- A position in a document: what stands around it, and where in the nodes goes what is read there. -/
inductive Position : (part : Part) → (Json → Json) → ((part.Value → part.Value) → List Node → List Node) → Prop
  | nodes : Position (.list (.node false)) id id
  | single : Position (.node false) id List.map
  | item {part : Part} {around : Json → Json} {put : (List part.Value → List part.Value) → List Node → List Node}
      (outer : Position (.list part) around put) (front rest : List Json) :
      Position part (fun json => around (.array (front ++ json :: rest)))
        fun f => put fun values => values.modify front.length f
  | field {part inner : Part} {key : String} {modify : (inner.Value → inner.Value) → part.Value → part.Value}
      {around : Json → Json} {put : (part.Value → part.Value) → List Node → List Node}
      (outer : Position part around put) (field : Field part inner key modify) (front rest : List (String × Json))
      (first : key ∉ front.map (·.1)) :
      Position inner (fun json => around (.object (front ++ (key, json) :: rest))) fun f => put (modify f)

/-- A change of what is read at a position is a change of the nodes there and nowhere else. -/
theorem Position.ofJson?_eq {part : Part} {around : Json → Json}
    {put : (part.Value → part.Value) → List Node → List Node} (position : Position part around put)
    {f : part.Value → part.Value} {json json' : Json} (hj : part.Holds json) (hj' : part.Holds json')
    (hr : part.read json' = f <$> part.read json) :
    Scene.ofJson? (around json') = put f <$> Scene.ofJson? (around json) := by
  induction position generalizing json json' with
  | nodes =>
    obtain ⟨items, rfl⟩ := hj
    obtain ⟨items', rfl⟩ := hj'
    simp only [id_eq, Scene.ofJson?, listOfJson_eq]
    rw [read_array, read_array, read] at hr
    rw [hr]
    cases items.mapM (Node.ofJson false) <;> rfl
  | single =>
    obtain ⟨fields, rfl⟩ := hj
    obtain ⟨fields', rfl⟩ := hj'
    rw [read] at hr
    simp only [id_eq, Scene.ofJson?, hr]
    cases Node.ofJson false (.object fields) <;> rfl
  | item outer front rest ih => exact ih ⟨_, rfl⟩ ⟨_, rfl⟩ (read_item hr)
  | field outer field front rest first ih =>
    exact ih (field.holds _) (field.holds _) (read_field field (Json.differ_of_split first) hr)

theorem Field.modify_id {part inner : Part} {key : String} {modify : (inner.Value → inner.Value) → part.Value → part.Value}
    (field : Field part inner key modify) : modify id = id := by
  funext value
  cases field <;> first | rfl | cases value <;> rfl

theorem Position.put_id {part : Part} {around : Json → Json} {put : (part.Value → part.Value) → List Node → List Node}
    (position : Position part around put) : put id = id := by
  induction position with
  | nodes => rfl
  | single => exact List.map_id_fun
  | @item part _ _ _ front _ ih =>
    have hm : (fun values : List part.Value => values.modify front.length id) = id := by
      funext values
      exact List.modify_id ..
    exact (congrArg _ hm).trans ih
  | field _ field _ _ _ ih => exact (congrArg _ field.modify_id).trans ih

end Part
end SceneCode
