import Mathlib.Control.Basic
import Mathlib.Data.List.InsertIdx
import SceneCode.Proofs.Json.Said
import SceneCode.Scene.Reader

namespace SceneCode
open Json (Fault Record)

namespace Json

/-- The second fields have another value under the key, and the same one under every other name. -/
structure Differ (key : String) (json json' : Json) (fields fields' : List (String × Json)) : Prop where
  before : fields.lookup key = some json
  after : fields'.lookup key = some json'
  others : ∀ name ≠ key, fields'.lookup name = fields.lookup name

/-- Both have the same values under these names. -/
def AgreeOn (names : List String) (fields fields' : List (String × Json)) : Prop :=
  ∀ name ∈ names, fields'.lookup name = fields.lookup name

section Fields
variable {α κ : Type} {read : Json → Except Fault α} {f : α → α} {key name tag : String} {names : List String}
  {json json' : Json} {fields fields' front rest : List (String × Json)} {kinds : Kinds κ} {listed inside : Bool}

theorem lookup_append_cons (h : name ∉ front.map (·.1)) :
    (front ++ (name, json) :: rest).lookup name = some json := by
  have hf : front.lookup name = none := by
    rw [List.lookup_eq_none_iff]
    intro field hm
    rw [bne_iff_ne]
    rintro rfl
    exact h (List.mem_map_of_mem hm)
  rw [List.lookup_append, hf, lookup_cons_if, if_pos rfl, Option.none_or]

theorem lookup_append_cons_ne (h : name ≠ key) :
    (front ++ (key, json) :: rest).lookup name = (front ++ rest).lookup name := by
  rw [List.lookup_append, List.lookup_append, lookup_cons_if, if_neg h]

theorem differ_of_split (h : key ∉ front.map (·.1)) :
    Differ key json json' (front ++ (key, json) :: rest) (front ++ (key, json') :: rest) where
  before := lookup_append_cons h
  after := lookup_append_cons h
  others name hn := by rw [lookup_append_cons_ne hn, lookup_append_cons_ne hn]

theorem agreeOn_of_differ (hd : Differ key json json' fields fields') (h : key ∉ names) :
    AgreeOn names fields fields' := by
  intro name hn
  apply hd.others
  rintro rfl
  exact h hn

theorem lookup_filter (p : String → Bool) (hp : p name = true) :
    (fields.filter fun field => p field.1).lookup name = fields.lookup name := by
  induction fields with
  | nil => rfl
  | cons field fields ih =>
    rw [List.filter_cons, lookup_cons_if]
    split
    · rw [lookup_cons_if, ih]
    · rw [ih, if_neg]
      rintro rfl
      contradiction

/-- What is left of the fields without foreign ones decides what is found under the names. -/
theorem agreeOn_of_filter
    (h : (fields'.filter fun field => names.contains field.1) = fields.filter fun field => names.contains field.1) :
    AgreeOn names fields fields' := by
  intro name hn
  have hp : names.contains name = true := List.contains_iff_mem.mpr hn
  rw [← lookup_filter names.contains hp, h, lookup_filter names.contains hp]

theorem Record.find_of_differ (read : Json → Except Fault α) (hd : Differ key json json' fields fields')
    (h : read json' = f <$> read json) :
    Record.find ⟨fields', listed⟩ read key = Option.map f <$> Record.find ⟨fields, listed⟩ read key := by
  simp only [Record.find, hd.before, hd.after, h]
  cases read json <;> rfl

theorem Record.findD_of_differ (read : Json → Except Fault α) (hd : Differ key json json' fields fields')
    (h : read json' = f <$> read json) {default : α} :
    Record.findD ⟨fields', listed⟩ read key default = f <$> Record.findD ⟨fields, listed⟩ read key default := by
  simp only [Record.findD, Record.find, hd.before, hd.after, h]
  cases read json <;> rfl

theorem Record.find_of_ne (hd : Differ key json json' fields fields') (hn : name ≠ key)
    (read : Json → Except Fault α) :
    Record.find ⟨fields', listed⟩ read name = Record.find ⟨fields, listed⟩ read name := by
  simp only [Record.find, hd.others name hn]

theorem Record.findD_of_ne (hd : Differ key json json' fields fields') (hn : name ≠ key)
    (read : Json → Except Fault α) (default : α) :
    Record.findD ⟨fields', listed⟩ read name default = Record.findD ⟨fields, listed⟩ read name default := by
  rw [Record.findD, Record.findD, find_of_ne hd hn]

theorem Record.find_of_agree (h : AgreeOn names fields fields') (hn : name ∈ names)
    (read : Json → Except Fault α) :
    Record.find ⟨fields', listed⟩ read name = Record.find ⟨fields, listed⟩ read name := by
  simp only [Record.find, h name hn]

theorem Record.findD_of_agree (h : AgreeOn names fields fields') (hn : name ∈ names)
    (read : Json → Except Fault α) (default : α) :
    Record.findD ⟨fields', listed⟩ read name default = Record.findD ⟨fields, listed⟩ read name default := by
  rw [Record.findD, Record.findD, find_of_agree h hn]

/-- A missing field is reported in the same way for all objects. -/
theorem Record.need_congr (fields fields' : List (String × Json)) (o : Option α) :
    Record.need ⟨fields', listed⟩ name o = Record.need ⟨fields, listed⟩ name o :=
  rfl

theorem Record.need_map (r : Record) (f : α → α) (o : Option α) : r.need name (o.map f) = f <$> r.need name o := by
  cases o <;> rfl

theorem record_object (names : List String) : (object fields).record names = pure ⟨fields, false⟩ :=
  rfl

/-- The kind that some fields say they are of. -/
def kindOf {κ : Type} (tag : String) (kinds : Kinds κ) (inside : Bool) (fields : List (String × Json)) :
    Except Fault κ :=
  match fields.lookup tag with
  | none => .error (.missing tag)
  | some json => kinds.read inside json

theorem tagged_object :
    (object fields).tagged tag kinds inside = (·, .object fields) <$> kindOf tag kinds inside fields := by
  rw [tagged, kindOf]
  cases fields.lookup tag <;> rfl

theorem kindOf_congr (h : fields'.lookup tag = fields.lookup tag) :
    kindOf tag kinds inside fields' = kindOf tag kinds inside fields := by
  rw [kindOf, kindOf, h]

/-- A tagged object is read as what its fields say for its kind. -/
theorem kindOf_bind {of of' : κ → Except Fault α} (h : fields'.lookup tag = fields.lookup tag)
    (hk : ∀ kind, kindOf tag kinds inside fields = .ok kind → of' kind = f <$> of kind) :
    kindOf tag kinds inside fields' >>= of' = f <$> (kindOf tag kinds inside fields >>= of) := by
  rw [kindOf_congr h]
  cases hf : kindOf tag kinds inside fields with
  | error fault => rfl
  | ok kind => exact hk kind hf

end Fields
end Json

/-- What stands somewhere in a document. Nodes that stand inside other values may name their kind by a number. -/
inductive Part where
  | node (inside : Bool)
  | paint
  | effect
  | rgb
  | rgba
  | stop
  | offset
  | radii
  | run
  | fontName
  | letterSpacing
  | lineHeight
  | hint
  | list (part : Part)

namespace Part

abbrev Value : Part → Type
  | node _ => Node
  | paint => Paint
  | effect => Effect
  | rgb => Rgb
  | rgba => Rgba
  | stop => ColorStop
  | offset => Point Float
  | radii => CornerRadii
  | run => TextRun
  | fontName => FontName
  | letterSpacing => LetterSpacing
  | lineHeight => LineHeight
  | hint => Option AutoLayout
  | list part => List part.Value

def read : (part : Part) → Json → Except Fault part.Value
  | node inside => Node.ofJson inside
  | paint => Paint.ofJson true
  | effect => Effect.ofJson
  | rgb => Rgb.ofJson
  | rgba => Rgba.ofJson
  | stop => ColorStop.ofJson
  | offset => Point.ofJson
  | radii => CornerRadii.ofJson
  | run => TextRun.ofJson
  | fontName => FontName.ofJson
  | letterSpacing => LetterSpacing.ofJson
  | lineHeight => LineHeight.ofJson
  | hint => Json.nullable AutoLayout.ofJson
  | list part => Json.list part.read

def baseNames : List String := ["id", "name", "visible", "x", "y", "width", "height", "rotation", "opacity", "fills",
  "strokes", "strokeWeight", "strokeAlign", "cornerRadii", "effects", "layoutAlign", "layoutGrow"]

def layoutNames : List String := ["layoutMode", "layoutWrap", "itemSpacing", "paddingLeft", "paddingRight",
  "paddingTop", "paddingBottom", "primaryAxisAlignItems", "counterAxisAlignItems", "primaryAxisSizingMode",
  "counterAxisSizingMode"]

def nodeNames : NodeKind → List String
  | .frame => baseNames ++ layoutNames ++ ["inferredAutoLayout", "clipsContent", "children"]
  | .group => baseNames ++ ["children"]
  | .shape _ => baseNames
  | .text => baseNames ++
    ["characters", "segments", "textAlignHorizontal", "textAlignVertical", "textAutoResize"]
  | .unknown => []

def paintNames : PaintKind → List String
  | .solid => ["color", "opacity", "visible"]
  | .gradient _ => ["gradientStops", "gradientTransform", "opacity", "visible"]
  | .image => ["scaleMode", "imageHash", "opacity", "visible"]
  | .unknown => []

def effectNames : EffectKind → List String
  | .dropShadow | .innerShadow => ["color", "offset", "radius", "spread", "visible"]
  | .layerBlur | .backgroundBlur => ["radius", "visible"]
  | .unknown => []

def lineHeightNames : LineHeightKind → List String
  | .pixels | .percent => ["value"]
  | .auto => []

def namesOf {κ : Type} (names : κ → List String) : Except Fault κ → List String
  | .ok kind => names kind
  | .error _ => []

def recordNames : Part → List String
  | rgb => ["r", "g", "b"]
  | rgba => ["r", "g", "b", "a"]
  | stop => ["position", "color"]
  | offset => ["x", "y"]
  | radii => ["topLeft", "topRight", "bottomRight", "bottomLeft"]
  | run => ["characters", "fontName", "fontSize", "fontWeight", "textDecoration", "textCase", "letterSpacing",
    "lineHeight", "fills"]
  | fontName => ["family", "style"]
  | letterSpacing => ["value", "unit"]
  | hint => layoutNames
  | _ => []

/-- The fields that an object declares. Those of a tagged one depend on its kind. -/
def declared : Part → List (String × Json) → List String
  | node inside, fields => "type" :: namesOf nodeNames (Json.kindOf "type" NodeKind.kinds inside fields)
  | paint, fields => "type" :: namesOf paintNames (Json.kindOf "type" PaintKind.kinds true fields)
  | effect, fields => "type" :: namesOf effectNames (Json.kindOf "type" EffectKind.kinds true fields)
  | lineHeight, fields => "unit" :: namesOf lineHeightNames (Json.kindOf "unit" LineHeightKind.kinds true fields)
  | part, _ => recordNames part

section Fields
open Json (AgreeOn)
variable {part : Part} {fields fields' : List (String × Json)} {names : List String}

theorem listOfJson_eq (inside : Bool) (items : List Json) :
    Node.listOfJson inside items = items.mapM (Node.ofJson inside) := by
  induction items with
  | nil => rfl
  | cons item items ih => rw [Node.listOfJson, List.mapM_cons, ih]

/-- The children of a node are a field like any other. -/
theorem childrenOfFields_eq (fields : List (String × Json)) :
    Node.childrenOfFields fields = Record.findD ⟨fields, false⟩ (Json.list (Node.ofJson true)) "children" [] := by
  have hc (json : Json) : Node.childrenOfJson json = Json.list (Node.ofJson true) json := by
    cases json with
    | array items => exact listOfJson_eq true items
    | _ => rfl
  induction fields with
  | nil => rfl
  | cons field fields ih =>
    obtain ⟨key, value⟩ := field
    rw [Node.childrenOfFields]
    by_cases hk : key = "children"
    · subst hk
      rw [if_pos rfl, hc]
      simp only [Record.findD, Record.find, Json.lookup_cons_if, if_true]
      cases Json.list (Node.ofJson true) value <;> rfl
    · rw [if_neg hk, ih]
      simp only [Record.findD, Record.find, Json.lookup_cons_if, if_neg (Ne.symm hk)]

def nodeOf (fields : List (String × Json)) : NodeKind → Except Fault Node
  | .frame => do
    let base ← Base.ofRecord ⟨fields, false⟩
    let layout ← AutoLayout.ofRecord ⟨fields, false⟩
    let hint ← Record.findD ⟨fields, false⟩ (Json.nullable AutoLayout.ofJson) "inferredAutoLayout" none
    let clips ← Record.findD ⟨fields, false⟩ Json.flag "clipsContent" false
    let children ← Record.findD ⟨fields, false⟩ (Json.list (Node.ofJson true)) "children" []
    return .frame base layout hint clips children
  | .group => do
    let base ← Base.ofRecord ⟨fields, false⟩
    let children ← Record.findD ⟨fields, false⟩ (Json.list (Node.ofJson true)) "children" []
    return .group base children
  | .shape kind => return .shape kind (← Base.ofRecord ⟨fields, false⟩)
  | .text => do
    let base ← Base.ofRecord ⟨fields, false⟩
    let box ← TextBox.ofRecord ⟨fields, false⟩
    return .text base box
  | .unknown => return .unknown

def paintOf (fields : List (String × Json)) : PaintKind → Except Fault Paint
  | .solid => return .solid (← SolidPaint.ofJson (.object fields))
  | .gradient kind => return .gradient kind (← GradientPaint.ofJson (.object fields))
  | .image => return .image (← ImagePaint.ofJson (.object fields))
  | .unknown => return .unknown

def effectOf (fields : List (String × Json)) : EffectKind → Except Fault Effect
  | .dropShadow => return .dropShadow (← ShadowEffect.ofJson (.object fields))
  | .innerShadow => return .innerShadow (← ShadowEffect.ofJson (.object fields))
  | .layerBlur => return .layerBlur (← BlurEffect.ofJson (.object fields))
  | .backgroundBlur => return .backgroundBlur (← BlurEffect.ofJson (.object fields))
  | .unknown => return .unknown

def lineHeightOf (fields : List (String × Json)) : LineHeightKind → Except Fault LineHeight
  | .pixels => return .pixels (← LineHeight.valueOfJson (.object fields))
  | .percent => return .percent (← LineHeight.valueOfJson (.object fields))
  | .auto => return .auto

theorem node_object (inside : Bool) :
    Node.ofJson inside (.object fields) = Json.kindOf "type" NodeKind.kinds inside fields >>= nodeOf fields := by
  rw [Node.ofJson, childrenOfFields_eq, Json.tagged_object]
  cases Json.kindOf "type" NodeKind.kinds inside fields <;> rfl

theorem paint_object :
    Paint.ofJson true (.object fields) = Json.kindOf "type" PaintKind.kinds true fields >>= paintOf fields := by
  rw [Paint.ofJson, Json.tagged_object]
  cases Json.kindOf "type" PaintKind.kinds true fields <;> rfl

theorem effect_object :
    Effect.ofJson (.object fields) = Json.kindOf "type" EffectKind.kinds true fields >>= effectOf fields := by
  rw [Effect.ofJson, Json.tagged_object]
  cases Json.kindOf "type" EffectKind.kinds true fields <;> rfl

theorem lineHeight_object :
    LineHeight.ofJson (.object fields) =
      Json.kindOf "unit" LineHeightKind.kinds true fields >>= lineHeightOf fields := by
  rw [LineHeight.ofJson, Json.tagged_object]
  cases Json.kindOf "unit" LineHeightKind.kinds true fields <;> rfl

section Agreement
open Json.Record

theorem base_of_agree (h : AgreeOn baseNames fields fields') :
    Base.ofRecord ⟨fields', false⟩ = Base.ofRecord ⟨fields, false⟩ := by
  simp (disch := decide) only [Base.ofRecord, findD_of_agree h]

theorem layout_of_agree (h : AgreeOn layoutNames fields fields') :
    AutoLayout.ofRecord ⟨fields', false⟩ = AutoLayout.ofRecord ⟨fields, false⟩ := by
  simp (disch := decide) only [AutoLayout.ofRecord, findD_of_agree h]

theorem nodeOf_of_agree {kind : NodeKind} (h : AgreeOn (nodeNames kind) fields fields') :
    nodeOf fields' kind = nodeOf fields kind := by
  have hb (hk : baseNames ⊆ nodeNames kind) : Base.ofRecord ⟨fields', false⟩ = Base.ofRecord ⟨fields, false⟩ :=
    base_of_agree fun name hn => h name (hk hn)
  cases kind with
  | frame =>
    have hl := layout_of_agree fun name hn => h name (by simp [nodeNames, hn])
    simp (disch := decide) only [nodeOf, hb, hl, findD_of_agree h]
  | group => simp (disch := decide) only [nodeOf, hb, findD_of_agree h]
  | shape => rw [nodeOf, nodeOf, hb fun _ => id]
  | text => simp (disch := decide) only [nodeOf, hb, TextBox.ofRecord, findD_of_agree h]
  | unknown => rfl

theorem paintOf_of_agree {kind : PaintKind} (h : AgreeOn (paintNames kind) fields fields') :
    paintOf fields' kind = paintOf fields kind := by
  cases kind with
  | solid =>
    simp (disch := decide) only [paintOf, SolidPaint.ofJson, Json.record_object, pure_bind, find_of_agree h,
      findD_of_agree h, need_congr fields]
  | gradient kind =>
    replace h : AgreeOn (paintNames (.gradient .linear)) fields fields' := h
    simp (disch := decide) only [paintOf, GradientPaint.ofJson, Json.record_object, pure_bind, find_of_agree h,
      findD_of_agree h, need_congr fields]
  | image => simp (disch := decide) only [paintOf, ImagePaint.ofJson, Json.record_object, pure_bind, findD_of_agree h]
  | unknown => rfl

theorem effectOf_of_agree {kind : EffectKind} (h : AgreeOn (effectNames kind) fields fields') :
    effectOf fields' kind = effectOf fields kind := by
  cases kind with
  | unknown => rfl
  | _ =>
    simp (disch := decide) only [effectOf, ShadowEffect.ofJson, BlurEffect.ofJson, Json.record_object, pure_bind,
      find_of_agree h, findD_of_agree h, need_congr fields]

theorem lineHeightOf_of_agree {kind : LineHeightKind} (h : AgreeOn (lineHeightNames kind) fields fields') :
    lineHeightOf fields' kind = lineHeightOf fields kind := by
  cases kind with
  | auto => rfl
  | _ =>
    simp (disch := decide) only [lineHeightOf, LineHeight.valueOfJson, Json.record_object, pure_bind, find_of_agree h,
      need_congr fields]

/-- A tagged object is read by its tag and by what its kind declares. -/
theorem tagged_of_agree {κ α : Type} {tag : String} {kinds : Json.Kinds κ} {inside : Bool} {names : κ → List String}
    {of : List (String × Json) → κ → Except Fault α}
    (h : AgreeOn (tag :: namesOf names (Json.kindOf tag kinds inside fields)) fields fields')
    (hk : ∀ kind, AgreeOn (names kind) fields fields' → of fields' kind = of fields kind) :
    Json.kindOf tag kinds inside fields' >>= of fields' = Json.kindOf tag kinds inside fields >>= of fields := by
  rw [← id_map (Json.kindOf tag kinds inside fields >>= of fields)]
  refine Json.kindOf_bind (h tag (List.mem_cons_self ..)) fun kind ho => ?_
  rw [id_map]
  refine hk kind fun name hn => h name (List.mem_cons_of_mem _ ?_)
  rw [ho]
  exact hn

/-- Only the declared fields of an object are read. -/
theorem read_of_agree (h : AgreeOn (part.declared fields) fields fields') :
    part.read (.object fields') = part.read (.object fields) := by
  cases part with
  | list => rfl
  | node inside =>
    simp only [read, node_object]
    exact tagged_of_agree h fun _ => nodeOf_of_agree
  | paint =>
    simp only [read, paint_object]
    exact tagged_of_agree h fun _ => paintOf_of_agree
  | effect =>
    simp only [read, effect_object]
    exact tagged_of_agree h fun _ => effectOf_of_agree
  | lineHeight =>
    simp only [read, lineHeight_object]
    exact tagged_of_agree h fun _ => lineHeightOf_of_agree
  | hint =>
    simp only [read, Json.nullable, AutoLayout.ofJson, Json.record_object, pure_bind, layout_of_agree h]
  | _ =>
    simp only [declared] at h
    simp (disch := decide) only [read, Rgb.ofJson, Rgba.ofJson, ColorStop.ofJson, Point.ofJson,
      CornerRadii.ofJson, TextRun.ofJson, FontName.ofJson, LetterSpacing.ofJson, Json.record_object, pure_bind,
      find_of_agree h, findD_of_agree h, need_congr fields]

end Agreement
end Fields
end Part
end SceneCode
