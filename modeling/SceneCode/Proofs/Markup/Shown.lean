import SceneCode.Proofs.Markup.Elements
import SceneCode.Proofs.Skeleton

namespace SceneCode

theorem Target.page_eq (t : Target) (showNames : Bool) (es : List Element) :
    t.page showNames es = String.ofList (dropBreak (String.join (t.renderAll showNames es)).toList) := by
  unfold page
  generalize (String.join _).toList = cs
  split
  · rfl
  · rename_i hn
    unfold dropBreak
    split
    · exact (hn _ rfl).elim
    · rfl

namespace Markup

def layerKeys (showNames : Bool) (name : String) : List (List Char) :=
  if (Target.label showNames name).isSome then [layerKey] else []

/-- A tag of this name that starts with such attributes and goes on with these keys. -/
def Tag.Shows (tag : Tag) (name : String) (first : List Attribute → Prop) (keys : List (List Char)) : Prop :=
  ∃ as bs, tag = ⟨name.toList, as ++ bs⟩ ∧ first as ∧ bs.map Prod.fst = keys

section
variable (styled : Styles → List Attribute → Prop) (showNames : Bool)

/-- A run without styles has a bare tag. -/
def RunStyled (run : Run) (as : List Attribute) : Prop :=
  match run.styles with
  | some s => styled s as
  | none => as = []

inductive Item.ShowsRun : Item → Run → Prop where
  | element {tag : Tag} {inner : List Item} {run : Run} (h : tag.Shows "span" (RunStyled styled run) [])
    (ht : Item.text? inner = some run.text.toList) : ShowsRun (.element tag inner) run

/-- One run without styles is the text itself. -/
inductive ShowsRuns : List Item → List Run → Prop where
  | plain {items : List Item} {text : String} (h : Item.text? items = some text.toList) :
    ShowsRuns items [⟨text, none⟩]
  | runs {items : List Item} {runs : List Run} (h : List.Forall₂ (Item.ShowsRun styled) items runs)
    (hn : ∀ text, runs ≠ [⟨text, none⟩]) : ShowsRuns items runs

mutual
inductive Item.Shows : Nat → Item → Element → Prop where
  | container {depth : Nat} {tag : Tag} {items : List Item} {name : String} {s : Styles} {children : List Element}
    (h : tag.Shows "div" (styled s) (layerKeys showNames name)) (hc : ShowsAll (depth + 1) items children) :
    Item.Shows depth (.element tag (lines (depth + 1) items ++ if children.isEmpty then [] else line depth))
      (.container name s children)
  | image {depth : Nat} {tag : Tag} {name : String} {s : Styles} {source : String}
    (h : tag.Shows "img" (styled s) (layerKeys showNames name ++ [sourceKey])) :
    Item.Shows depth (.element tag []) (.image name s source)
  | text {depth : Nat} {tag : Tag} {items : List Item} {name : String} {s : Styles} {runs : List Run}
    (h : tag.Shows "div" (styled s) (layerKeys showNames name)) (hr : ShowsRuns styled items runs) :
    Item.Shows depth (.element tag items) (.text name s runs)

inductive ShowsAll : Nat → List Item → List Element → Prop where
  | nil {depth : Nat} : ShowsAll depth [] []
  | cons {depth : Nat} {item : Item} {items : List Item} {e : Element} {es : List Element}
    (h : Item.Shows depth item e) (hs : ShowsAll depth items es) : ShowsAll depth (item :: items) (e :: es)
end

/-- Read with its tags, a code is these elements, from the first line to the last. -/
def CodeShows (code : String) (es : List Element) : Prop :=
  ∃ items, read code.toList = some (items.intersperse (.char '\n')) ∧ ShowsAll styled showNames 0 items es

end

section
variable {styled : Styles → List Attribute → Prop} {showNames : Bool}

/-- The style map may have some attributes without quotes. -/
def Cleanly (styled : Styles → List Attribute → Prop) (s : Styles) : Prop :=
  ∃ as, styled s as ∧ ∀ a ∈ as, '"' ∉ a.2

theorem Tag.Shows.cleanly {tag : Tag} {name : String} {s : Styles} {keys : List (List Char)}
    (h : tag.Shows name (styled s) keys) (hu : tag.Unquoted) : Cleanly styled s := by
  obtain ⟨as, bs, rfl, hs, -⟩ := h
  exact ⟨as, hs, fun a ha => hu a (List.mem_append_left _ ha)⟩

theorem Item.ShowsRun.cleanly {item : Item} {run : Run} (h : item.ShowsRun styled run) (hu : item.Unquoted) {s : Styles}
    (hs : run.styles = some s) : Cleanly styled s := by
  obtain ⟨⟨as, bs, rfl, hr, -⟩, -⟩ := h
  obtain ⟨ht, -⟩ := hu.parts
  rw [RunStyled, hs] at hr
  exact ⟨as, hr, fun a ha => ht a (List.mem_append_left _ ha)⟩

theorem ShowsRuns.cleanly {items : List Item} {runs : List Run} (h : ShowsRuns styled items runs)
    (hu : ∀ i ∈ items, i.Unquoted) : ∀ s ∈ runs.filterMap (·.styles), Cleanly styled s := by
  cases h with
  | plain h => exact nofun
  | runs h hn =>
    clear hn
    induction h with
    | nil => exact nofun
    | @cons item run items runs h hs ih =>
      rw [List.forall_mem_cons] at hu
      intro s hm
      obtain ⟨run', hr, hs'⟩ := List.mem_filterMap.mp hm
      rcases List.mem_cons.mp hr with rfl | hr
      · exact h.cleanly hu.1 hs'
      · exact ih hu.2 s (List.mem_filterMap.mpr ⟨run', hr, hs'⟩)

theorem mem_lines {depth : Nat} {item : Item} {items : List Item} (h : item ∈ items) : item ∈ lines depth items :=
  List.mem_flatMap.mpr ⟨item, h, List.mem_append_right _ (List.mem_singleton_self item)⟩

mutual
theorem Item.Shows.cleanly {depth : Nat} {item : Item} {e : Element} (h : Item.Shows styled showNames depth item e)
    (hu : item.Unquoted) : ∀ s ∈ e.stylesIn, Cleanly styled s := by
  cases h with
  | container h hc =>
    obtain ⟨ht, hi⟩ := hu.parts
    exact List.forall_mem_cons.mpr
      ⟨h.cleanly ht, hc.cleanly fun i hm => hi i (List.mem_append_left _ (mem_lines hm))⟩
  | image h =>
    obtain ⟨ht, -⟩ := hu.parts
    exact List.forall_mem_singleton.mpr (h.cleanly ht)
  | text h hr =>
    obtain ⟨ht, hi⟩ := hu.parts
    exact List.forall_mem_cons.mpr ⟨h.cleanly ht, hr.cleanly hi⟩

theorem ShowsAll.cleanly {depth : Nat} {items : List Item} {es : List Element}
    (h : ShowsAll styled showNames depth items es) (hu : ∀ i ∈ items, i.Unquoted) :
    ∀ s ∈ Element.stylesInAll es, Cleanly styled s := by
  cases h with
  | nil => exact nofun
  | cons h hs =>
    rw [List.forall_mem_cons] at hu
    exact List.forall_mem_append.mpr ⟨h.cleanly hu.1, hs.cleanly hu.2⟩
end

theorem mem_intersperse {α : Type} {x separator : α} {xs : List α} (h : x ∈ xs) : x ∈ xs.intersperse separator := by
  induction xs with
  | nil => cases h
  | cons y ys ih =>
    cases ys with
    | nil => exact h
    | cons z zs =>
      rcases List.mem_cons.mp h with rfl | h
      · exact List.mem_cons_self
      · exact List.mem_cons_of_mem _ (List.mem_cons_of_mem _ (ih h))

theorem CodeShows.cleanly {code : String} {es : List Element} (h : CodeShows styled showNames code es) :
    ∀ s ∈ Element.stylesInAll es, Cleanly styled s := by
  obtain ⟨items, hr, hs⟩ := h
  exact hs.cleanly fun i hi => read_unquoted hr i (mem_intersperse hi)

end

section
variable {styled : Styles → List Attribute → Prop} {attribute? : Styles → Option Attribute} {jsx showNames : Bool}
  {depth : Nat}

/-- The attribute of a style map, at every depth, is one that the style map may have. -/
def Styled (styled : Styles → List Attribute → Prop) (attribute? : Styles → Option Attribute) (s : Styles) : Prop :=
  ∀ depth, styled s ((attribute? s).toList.map fun a => (a.1, Text.indentBy depth a.2))

theorem layer_keys (showNames : Bool) (name : String) (depth : Nat) :
    ((((Target.label showNames name).toList.map layerAttribute).map fun a : Attribute =>
      (a.1, Text.indentBy depth a.2)).map Prod.fst) = layerKeys showNames name := by
  unfold layerKeys
  cases Target.label showNames name <;> rfl

theorem Tag.div_shows {s : Styles} (h : Styled styled attribute? s) (name : String) :
    ((Tag.div attribute? s (Target.label showNames name)).indentBy depth).Shows "div" (styled s)
      (layerKeys showNames name) :=
  ⟨_, _, by rw [Tag.div, Tag.indentBy, List.map_append], h depth, layer_keys showNames name depth⟩

theorem Tag.img_shows {s : Styles} (h : Styled styled attribute? s) (name source : String) :
    ((Tag.img attribute? s (Target.label showNames name) source).indentBy depth).Shows "img" (styled s)
      (layerKeys showNames name ++ [sourceKey]) := by
  refine ⟨_, _, by rw [Tag.img, Tag.indentBy, List.append_assoc, List.map_append], h depth, ?_⟩
  rw [List.map_append, List.map_append, layer_keys]
  rfl

theorem ofRun_shows {run : Run} (h : ∀ s ∈ run.styles, Styled styled attribute? s) :
    Item.ShowsRun styled (Item.ofRun attribute? jsx depth run) run := by
  refine .element ⟨_, [], by rw [Tag.span, Tag.indentBy, List.append_nil], ?_, rfl⟩ (Item.text_ofChars jsx _)
  unfold RunStyled
  cases hs : run.styles with
  | none => rfl
  | some s => exact h s hs depth

theorem ofRuns_shows {runs : List Run} (h : ∀ s ∈ runs.filterMap (·.styles), Styled styled attribute? s) :
    ShowsRuns styled (Item.ofRuns attribute? jsx depth runs) runs := by
  unfold Item.ofRuns
  split
  · exact .plain (Item.text_ofChars jsx _)
  · rename_i hn
    refine .runs ?_ fun text he => hn text he
    rw [List.forall₂_map_left_iff, List.forall₂_same]
    exact fun run hr => ofRun_shows fun s hs => h s (List.mem_filterMap.mpr ⟨run, hr, hs⟩)

mutual
theorem ofElement_shows (depth : Nat) (e : Element) (h : ∀ s ∈ e.stylesIn, Styled styled attribute? s) :
    Item.Shows styled showNames depth (Item.ofElement attribute? jsx showNames depth e) e := by
  cases e with
  | container name s children =>
    have hc := ofElements_shows (depth + 1) children fun s hs => h s (List.mem_cons_of_mem _ hs)
    exact .container (Tag.div_shows (h s List.mem_cons_self) name) hc
  | image name s source => exact .image (Tag.img_shows (h s List.mem_cons_self) name source)
  | text name s runs =>
    exact .text (Tag.div_shows (h s List.mem_cons_self) name) (ofRuns_shows fun s hs => h s (List.mem_cons_of_mem _ hs))

theorem ofElements_shows (depth : Nat) (es : List Element)
    (h : ∀ s ∈ Element.stylesInAll es, Styled styled attribute? s) :
    ShowsAll styled showNames depth (Item.ofElements attribute? jsx showNames depth es) es := by
  cases es with
  | nil => exact .nil
  | cons e es =>
    rw [Element.stylesInAll] at h
    exact .cons (ofElement_shows depth e fun s hs => h s (List.mem_append_left _ hs))
      (ofElements_shows depth es fun s hs => h s (List.mem_append_right _ hs))
end

theorem page_shows {attributes : Styles → String} (hw : Writes attributes attribute?) {es : List Element}
    (hp : ∀ s ∈ Element.stylesInAll es, ∀ a ∈ attribute? s, Attribute.Proper a)
    (hs : ∀ s ∈ Element.stylesInAll es, Styled styled attribute? s) :
    CodeShows styled showNames (Element.page attributes jsx showNames es) es :=
  ⟨_, read_page hw hp, ofElements_shows 0 es hs⟩

end
end Markup
end SceneCode
