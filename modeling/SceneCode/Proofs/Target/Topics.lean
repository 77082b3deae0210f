import Mathlib.Data.List.Pairwise
import SceneCode.Proofs.Style.Painted
import SceneCode.Proofs.Style.Settled

namespace SceneCode

namespace Declaration
variable {ds es fs : List Declaration}

/-- A key of both has one value. -/
def Agree (ds es : List Declaration) : Prop :=
  ∀ d ∈ ds, Only d.key d.value es

@[simp] theorem agree_nil : Agree [] es :=
  fun _ h => absurd h List.not_mem_nil

@[simp] theorem agree_cons_set {k v : String} : Agree (set k v :: ds) es ↔ Only k v es ∧ Agree ds es :=
  List.forall_mem_cons

@[simp] theorem agree_append : Agree (ds ++ es) fs ↔ Agree ds fs ∧ Agree es fs :=
  List.forall_mem_append

@[simp] theorem agree_ite {c : Prop} [Decidable c] :
    Agree (if c then ds else es) fs ↔ (c → Agree ds fs) ∧ (¬c → Agree es fs) := by
  split <;> simp_all

@[simp] theorem agree_map {β : Type} {x : Option β} {f : β → Declaration} :
    Agree (x.toList.map f) es ↔ ∀ b ∈ x, Only (f b).key (f b).value es := by
  simp [Agree]

@[simp] theorem key_set (k v : String) : (set k v).key = k := rfl

@[simp] theorem value_set (k v : String) : (set k v).value = v := rfl

end Declaration

open Declaration (Agree Coherent Only)

theorem Html.declarations_agree (a : Aspect) : Agree (declarations a) (declarations a) := by
  cases a with
  | size s =>
    obtain ⟨width, height, within⟩ := s
    cases width <;> cases height <;> simp [declarations, extent]
  | background fill width height => cases fill <;> simp [declarations, background]
  | border s =>
    simp only [declarations, border]
    split <;> simp
  | textAlign horizontal vertical =>
    simp only [declarations, textAlign]
    split <;> simp <;> grind
  | origin => simp [declarations, Agree, Only]
  | _ => simp [declarations, flow, typography] <;> grind

theorem Tailwind.declarations_agree (o : Options) (a : Aspect) : Agree (declarations o a) (declarations o a) := by
  cases a with
  | size s =>
    obtain ⟨width, height, within⟩ := s
    cases width <;> cases height <;> simp [declarations, extent]
  | border s => simp [declarations, border]
  | textAlign horizontal vertical =>
    simp only [declarations, textAlign]
    split <;> simp <;> grind
  | origin => simp [declarations, Agree, Only]
  | _ => simp [declarations, flow, typography] <;> grind

theorem Flutter.declarations_agree (a : Aspect) : Agree (declarations a) (declarations a) := by
  cases a with
  | size s =>
    obtain ⟨width, height, within⟩ := s
    cases width <;> cases height <;> simp [declarations, extent]
  | background fill width height => cases fill <;> simp [declarations, background]
  | origin => simp [declarations, Agree, Only]
  | _ => simp [declarations, flow, typography] <;> grind

theorem SwiftUI.declarations_agree (a : Aspect) : Agree (declarations a) (declarations a) := by
  cases a with
  | radius r width height => cases r <;> simp [declarations, radius]
  | origin => simp [declarations, Agree, Only]
  | _ => simp [declarations, flow, typography, size, shadows] <;> grind

theorem Target.declarations_agree (t : Target) (a : Aspect) : Agree (t.declarations a) (t.declarations a) := by
  cases t with
  | html jsx => exact Html.declarations_agree a
  | tailwind jsx o => exact Tailwind.declarations_agree o a
  | flutter => exact Flutter.declarations_agree a
  | swiftUI => exact SwiftUI.declarations_agree a

/-- Both a flow and an alignment of text say how an element arranges what is in it. -/
inductive Topic where
  | size
  | position
  | blend
  | background
  | border
  | radius
  | shadows
  | blur
  | clip
  | arrangement
  | origin
  | typography
deriving DecidableEq

def Aspect.topic : Aspect → Topic
  | .size _ => .size
  | .position .. => .position
  | .blend .. => .blend
  | .background .. => .background
  | .border _ => .border
  | .radius .. => .radius
  | .shadows _ => .shadows
  | .blur _ => .blur
  | .clip => .clip
  | .flow _ | .textAlign .. => .arrangement
  | .origin => .origin
  | .typography .. => .typography

namespace Topic

def all : List Topic :=
  [size, position, blend, background, border, radius, shadows, blur, clip, arrangement, origin, typography]

theorem mem_all (topic : Topic) : topic ∈ all := by
  cases topic <;> decide

/-- Aspects that can set whatever is set on a topic. An origin sets nothing, it only falls back. -/
def samples : Topic → List Aspect
  | size => [.size ⟨.hug, .hug, none⟩]
  | position => [.position 0 0]
  | blend => [.blend 1 0]
  | background => [.background (.image .fill) 0 0]
  | border => [.border ⟨0, .black, 1, .center⟩]
  | radius => [.radius .full 0 0]
  | shadows => [.shadows []]
  | blur => [.blur {}]
  | clip => [.clip]
  | arrangement => [.flow { direction := .row }, .textAlign .left .top]
  | origin => []
  | typography => [.typography { characters := "" } none]

end Topic

namespace Target
variable (t : Target)

/-- The keys that are set on a topic. -/
def keysOn (topic : Topic) : List String :=
  topic.samples.flatMap t.keysOf

theorem keysOf_subset {a : Aspect} (h : a ≠ .origin) : t.keysOf a ⊆ t.keysOn a.topic := by
  cases t <;> cases a <;> first
    | exact absurd rfl h
    | exact List.subset_append_left _ _
    | exact List.subset_append_of_subset_right _ (List.subset_append_left _ _)

theorem key_mem_keysOn {a : Aspect} {d : Declaration} (hd : d ∈ t.declarations a) (hf : d.fallback = false) :
    d.key ∈ t.keysOn a.topic := by
  by_cases h : a = .origin
  · subst h
    cases t <;> cases List.mem_singleton.mp hd <;> cases hf
  · exact t.keysOf_subset h (t.key_mem_keysOf a hd)

/-- A border and a padding both say what a size includes. -/
def sharedKey : String :=
  "box-sizing"

/-- Nothing else is set on both topics. -/
def Apart (topic topic' : Topic) : Prop :=
  ∀ k ∈ t.keysOn topic, k ∈ t.keysOn topic' → k = sharedKey

instance : DecidableRel t.Apart :=
  fun _ _ => inferInstanceAs (Decidable (∀ _ ∈ _, _))

instance : Std.Symm t.Apart :=
  ⟨fun _ _ h k hk hk' => h k hk' hk⟩

theorem topics_apart : Topic.all.Pairwise t.Apart := by
  cases t <;> exact of_decide_eq_true rfl

theorem only_of_not_mem {a : Aspect} {k : String} (h : k ∉ t.keysOf a) (v : String) : Only k v (t.declarations a) :=
  fun _ hd hk => absurd (hk ▸ t.key_mem_keysOf a hd) h

theorem sharedKey_only (a : Aspect) : Only sharedKey "border-box" (t.declarations a) := by
  cases t with
  | html jsx =>
    cases a with
    | border s =>
      simp only [declarations, Html.declarations, Html.border]
      split <;> simp [sharedKey]
    | flow f => simp [declarations, Html.declarations, Html.flow, sharedKey]
    | _ => exact only_of_not_mem _ (by simp [keysOf, Html.keysOf, sharedKey]) _
  | _ =>
    refine only_of_not_mem _ ?_ _
    cases a <;> simp [keysOf, Tailwind.keysOf, Flutter.keysOf, SwiftUI.keysOf, sharedKey]

/-- What is set on different topics agrees. -/
theorem agree_of_topic_ne {a b : Aspect} (hn : a.topic ≠ b.topic) {d e : Declaration} (hd : d ∈ t.declarations a)
    (he : e ∈ t.declarations b) (hdf : d.fallback = false) (hef : e.fallback = false) (hk : d.key = e.key) :
    d.value = e.value := by
  have hdk := t.key_mem_keysOn hd hdf
  have hek := t.key_mem_keysOn he hef
  have hs : d.key = sharedKey :=
    t.topics_apart.forall a.topic.mem_all b.topic.mem_all hn d.key hdk (hk ▸ hek)
  rw [t.sharedKey_only a d hd hs, t.sharedKey_only b e he (hk.symm.trans hs)]

theorem origin_of_fallback {a : Aspect} {d : Declaration} (hd : d ∈ t.declarations a) (hf : d.fallback = true) :
    a = .origin := by
  by_contra h
  rw [(t.declarations_within h d hd).2] at hf
  cases hf

/-- A look that says one thing on each topic gives each key one value. -/
theorem coherent_declarationsOf {look : List Aspect} (h : ∀ a ∈ look, ∀ b ∈ look, a.topic = b.topic → a = b) :
    Coherent (t.declarationsOf look) := by
  intro d hd e he hk hf
  obtain ⟨a, ha, hda⟩ := List.mem_flatMap.mp hd
  obtain ⟨b, hb, heb⟩ := List.mem_flatMap.mp he
  by_cases hab : a = b
  · subst hab
    exact (t.declarations_agree a d hda e heb hk.symm).symm
  · cases hdf : d.fallback with
    | true => exact absurd ((t.origin_of_fallback hda hdf).trans (t.origin_of_fallback heb (hf ▸ hdf)).symm) hab
    | false => exact t.agree_of_topic_ne (fun hn => hab (h a ha b hb hn)) hda heb hdf (hf ▸ hdf) hk

end Target
end SceneCode
