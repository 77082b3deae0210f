import SceneCode.Proofs.Style.Entries

namespace SceneCode

/-- Only these keys, and none of them as a fallback. -/
def Declaration.Within (keys : List String) (ds : List Declaration) : Prop :=
  ∀ d ∈ ds, d.key ∈ keys ∧ d.fallback = false

namespace Declaration
variable {keys : List String} {ds es : List Declaration}

@[simp] theorem within_nil : Within keys [] :=
  fun _ h => absurd h List.not_mem_nil

@[simp] theorem within_cons_set {k v : String} : Within keys (set k v :: ds) ↔ k ∈ keys ∧ Within keys ds := by
  simp [Within, set]

@[simp] theorem within_append : Within keys (ds ++ es) ↔ Within keys ds ∧ Within keys es :=
  List.forall_mem_append

@[simp] theorem within_ite {c : Prop} [Decidable c] :
    Within keys (if c then ds else es) ↔ (c → Within keys ds) ∧ (¬c → Within keys es) := by
  split <;> simp_all

@[simp] theorem within_map_set {β : Type} {k : String} {f : β → String} {x : Option β} :
    Within keys (x.toList.map fun b => set k (f b)) ↔ (x.isSome = true → k ∈ keys) := by
  cases x <;> simp

@[simp] theorem within_map_set' {k : String} {x : Option String} :
    Within keys (x.toList.map (set k)) ↔ (x.isSome = true → k ∈ keys) := by
  cases x <;> simp

end Declaration

open Declaration (Within)

namespace Html

def keysOf : Aspect → List String
  | .size _ => ["width", "height", "flex", "align-self"]
  | .position .. => ["position", "left", "top"]
  | .blend .. => ["opacity", "transform", "transform-origin"]
  | .background .. => ["background", "background-image", "background-size", "background-position"]
  | .border _ => ["outline", "border", "box-sizing"]
  | .radius .. => ["border-radius"]
  | .shadows _ => ["box-shadow"]
  | .blur _ => ["filter", "backdrop-filter"]
  | .clip => ["overflow"]
  | .flow _ => ["display", "flex-direction", "flex-wrap", "justify-content", "align-items", "gap", "padding",
      "box-sizing"]
  | .origin => ["position"]
  | .typography .. => ["color", "font-family", "font-size", "font-weight", "font-style", "text-decoration",
      "text-transform", "letter-spacing", "line-height"]
  | .textAlign .. => ["text-align", "display", "flex-direction", "justify-content"]

theorem extent_within {keys : List String} {key : String} (hk : key ∈ keys) (hf : "flex" ∈ keys)
    (ha : "align-self" ∈ keys) (primary : Bool) (e : Extent) : Within keys (extent key primary e) := by
  cases e <;> simp [extent, hk, hf, ha]

theorem declarations_within {a : Aspect} (h : a ≠ .origin) : Within (keysOf a) (declarations a) := by
  cases a with
  | size s => simp [declarations, keysOf, extent_within]
  | background fill width height => cases fill <;> simp [declarations, keysOf, background]
  | border s =>
    simp only [declarations, border]
    split <;> simp [keysOf]
  | textAlign horizontal vertical =>
    simp only [declarations, textAlign]
    split <;> simp [keysOf]
  | origin => exact absurd rfl h
  | _ => simp [declarations, keysOf, typography, flow]

end Html

namespace Tailwind

def keysOf : Aspect → List String
  | .size _ => ["width", "height", "flex", "align-self"]
  | .position .. => ["position", "left", "top"]
  | .blend .. => ["opacity", "transform", "transform-origin"]
  | .background .. => ["background"]
  | .border _ => ["outline", "border"]
  | .radius .. => ["border-radius"]
  | .shadows _ => ["box-shadow"]
  | .blur _ => ["filter", "backdrop-filter"]
  | .clip => ["overflow"]
  | .flow _ => ["display", "flex-direction", "flex-wrap", "justify-content", "align-items", "gap", "padding"]
  | .origin => ["position"]
  | .typography .. => ["color", "font-family", "font-size", "font-weight", "font-style", "text-decoration",
      "text-transform", "letter-spacing", "line-height"]
  | .textAlign .. => ["text-align", "display", "flex-direction", "justify-content"]

theorem extent_within {keys : List String} {key : String} (hk : key ∈ keys) (hf : "flex" ∈ keys)
    (ha : "align-self" ∈ keys) (o : Options) (utility : String) (primary : Bool) (e : Extent) :
    Within keys (extent o key utility primary e) := by
  cases e <;> simp [extent, hk, hf, ha]

theorem declarations_within (o : Options) {a : Aspect} (h : a ≠ .origin) :
    Within (keysOf a) (declarations o a) := by
  cases a with
  | size s => simp [declarations, keysOf, extent_within]
  | border s =>
    simp only [declarations, border]
    split <;> simp [keysOf]
  | textAlign horizontal vertical =>
    simp only [declarations, textAlign]
    split <;> simp [keysOf]
  | origin => exact absurd rfl h
  | _ => simp [declarations, keysOf, typography, flow]

end Tailwind

namespace Flutter

def keysOf : Aspect → List String
  | .size _ => ["width", "height", "flex"]
  | .position .. => ["left", "top"]
  | .blend .. => ["opacity", "rotation"]
  | .background .. => ["color", "gradient", "image"]
  | .border _ => ["border"]
  | .radius .. => ["borderRadius"]
  | .shadows _ => ["boxShadow"]
  | .blur _ => ["blur", "backdropBlur"]
  | .clip => ["clipBehavior"]
  | .flow _ => ["layout", "mainAxisSize", "mainAxisAlignment", "crossAxisAlignment", "textBaseline", "spacing",
      "padding"]
  | .origin => ["layout"]
  | .typography .. => ["textColor", "fontFamily", "fontSize", "fontWeight", "fontStyle", "textDecoration",
      "letterSpacing", "lineHeight"]
  | .textAlign .. => ["textAlign"]

theorem extent_within {keys : List String} {key : String} {primary : Bool} (hk : key ∈ keys)
    (hf : primary = true → "flex" ∈ keys) (e : Extent) : Within keys (extent key primary e) := by
  cases e <;> simp [extent, hk]
  exact hf

theorem declarations_within {a : Aspect} (h : a ≠ .origin) : Within (keysOf a) (declarations a) := by
  cases a with
  | size s => simp [declarations, keysOf, extent_within]
  | background fill width height => cases fill <;> simp [declarations, keysOf, background]
  | origin => exact absurd rfl h
  | _ => simp [declarations, keysOf, typography, flow]

end Flutter

namespace SwiftUI

def keysOf : Aspect → List String
  | .size _ => ["frame"]
  | .position .. => ["offset"]
  | .blend .. => ["opacity", "rotationEffect"]
  | .background .. => ["background"]
  | .border _ => ["overlay"]
  | .radius .. => ["cornerRadius", "clipShape"]
  | .shadows _ => ["shadow"]
  | .blur _ => ["blur", "backgroundBlur"]
  | .clip => ["clipped"]
  | .flow _ => ["stack", "spacers", "padding"]
  | .origin => ["stack"]
  | .typography .. => ["font", "italic", "decoration", "kerning", "lineSpacing", "foregroundColor"]
  | .textAlign .. => ["multilineTextAlignment"]

theorem declarations_within {a : Aspect} (h : a ≠ .origin) : Within (keysOf a) (declarations a) := by
  cases a with
  | radius r width height => cases r <;> simp [declarations, keysOf, radius]
  | origin => exact absurd rfl h
  | _ => simp [declarations, keysOf, typography, flow, size, shadows]

end SwiftUI

namespace Target

def keysOf : Target → Aspect → List String
  | .html _ => Html.keysOf
  | .tailwind .. => Tailwind.keysOf
  | .flutter => Flutter.keysOf
  | .swiftUI => SwiftUI.keysOf

theorem declarations_within (t : Target) {a : Aspect} (h : a ≠ .origin) : Within (t.keysOf a) (t.declarations a) := by
  cases t with
  | html jsx => exact Html.declarations_within h
  | tailwind jsx o => exact Tailwind.declarations_within o h
  | flutter => exact Flutter.declarations_within h
  | swiftUI => exact SwiftUI.declarations_within h

theorem key_mem_keysOf (t : Target) (a : Aspect) {d : Declaration} (h : d ∈ t.declarations a) :
    d.key ∈ t.keysOf a := by
  by_cases ho : a = .origin
  · subst ho
    cases t <;>
      simp_all [declarations, keysOf, Html.declarations, Html.keysOf, Tailwind.declarations, Tailwind.keysOf,
        Flutter.declarations, Flutter.keysOf, SwiftUI.declarations, SwiftUI.keysOf, Declaration.fallbackTo]
  · exact (t.declarations_within ho d h).1

def isMarkup : Target → Bool
  | .html _ | .tailwind .. => true
  | _ => false

/-- The keys of coordinates. -/
def coordinateKeys : Target → List String
  | .swiftUI => ["offset"]
  | _ => ["left", "top"]

theorem coordinateKeys_subset (t : Target) (x y : Float) :
    t.coordinateKeys ⊆ (t.declarations (.position x y)).map (·.key) := by
  cases t with
  | html jsx => exact List.subset_cons_self ..
  | tailwind jsx o => exact List.subset_cons_self ..
  | flutter => exact List.Subset.refl _
  | swiftUI => exact List.Subset.refl _

/-- Only a position sets coordinates. -/
theorem position_of_coordinateKey {t : Target} {k : String} {a : Aspect} (hk : k ∈ t.coordinateKeys)
    (ha : k ∈ t.keysOf a) : ∃ x y, a = .position x y := by
  cases t <;> simp only [coordinateKeys, List.mem_cons, List.not_mem_nil, or_false] at hk <;>
    rcases hk with rfl | rfl <;> cases a <;>
    simp_all [keysOf, Html.keysOf, Tailwind.keysOf, Flutter.keysOf, SwiftUI.keysOf]

theorem contains_coordinateKey {t : Target} {aspects : List Aspect} {k : String} (hk : k ∈ t.coordinateKeys) :
    (t.styles aspects).contains k = true ↔ ∃ x y, .position x y ∈ aspects := by
  rw [contains_styles]
  constructor
  · rintro ⟨a, ha, hm⟩
    obtain ⟨d, hd, rfl⟩ := List.mem_map.mp hm
    obtain ⟨x, y, rfl⟩ := position_of_coordinateKey hk (t.key_mem_keysOf a hd)
    exact ⟨x, y, ha⟩
  · rintro ⟨x, y, ha⟩
    exact ⟨_, ha, t.coordinateKeys_subset x y hk⟩

/-- A key that is declared with one value only ends up with it. -/
theorem get?_styles_of_forall {t : Target} {aspects : List Aspect} {k v : String} {a : Aspect}
    (ha : a ∈ aspects) (hk : k ∈ (t.declarations a).map (·.key))
    (hv : ∀ a ∈ aspects, ∀ d ∈ t.declarations a, d.key = k → d.value = v) : (t.styles aspects).get? k = some v := by
  have hc : (t.styles aspects).contains k = true := (t.contains_styles aspects k).mpr ⟨a, ha, hk⟩
  obtain ⟨v', hg⟩ := Styles.contains_iff.mp hc
  rw [styles_eq_declareAll] at hg
  rcases Styles.get?_declareAll hg with h | ⟨d, hd, hdk, rfl⟩
  · cases h
  · obtain ⟨b, hb, hdb⟩ := List.mem_flatMap.mp hd
    rw [styles_eq_declareAll, hg, hv b hb d hdb hdk]

end Target
end SceneCode
