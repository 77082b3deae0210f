import SceneCode.Proofs.Target.Topics

namespace SceneCode

/-- What the steps for a box are told. -/
structure BoxBrief where
  subject : Subject
  slot : Slot Float
  hug : Hug
  look : ShapeLook
  clips : Bool
  flow : Option Flow
  hasChildren : Bool

inductive BoxStep where
  | size
  | placement
  | blend
  | shape
  | clip
  | layout
  | origin
deriving DecidableEq

/-- What the steps for a text are told. -/
structure TextBrief where
  subject : Subject
  slot : Slot Float
  hug : Hug
  box : TextBox
  run : TextRun

inductive TextStep where
  | size
  | placement
  | blend
  | align
  | typography
  /-- The typography too, but by way of the styles that the run has on its own. -/
  | run
deriving DecidableEq

/-- The step itself, with the two ways to the typography taken for one. -/
def TextStep.plain : TextStep → TextStep
  | .run => .typography
  | step => step

namespace BoxBrief

def aspects (b : BoxBrief) : BoxStep → List Aspect
  | .size => b.subject.size b.slot b.hug
  | .placement => b.subject.placement b.slot b.hug
  | .blend => b.subject.blend
  | .shape => b.subject.shape b.look
  | .clip => Subject.clip b.clips
  | .layout => Subject.layout b.flow b.hasChildren
  | .origin => [.origin]

def take (t : Target) (b : BoxBrief) (s : Styles) (step : BoxStep) : Styles :=
  (b.aspects step).foldl t.declare s

def takeAll (t : Target) (b : BoxBrief) (s : Styles) (steps : List BoxStep) : Styles :=
  steps.foldl (b.take t) s

end BoxBrief

namespace TextBrief

def aspects (b : TextBrief) : TextStep → List Aspect
  | .size => b.subject.size b.slot b.hug
  | .placement => b.subject.placement b.slot b.hug
  | .blend => b.subject.blend
  | .align => Subject.textAlign b.box
  | .typography | .run => b.subject.typography b.run

def take (t : Target) (b : TextBrief) (s : Styles) (step : TextStep) : Styles :=
  match step with
  | .run => s.merge (t.runStyles b.subject.base b.run)
  | step => (b.aspects step).foldl t.declare s

def takeAll (t : Target) (b : TextBrief) (s : Styles) (steps : List TextStep) : Styles :=
  steps.foldl (b.take t) s

end TextBrief

namespace Target
variable (t : Target)

theorem foldl_declare (s : Styles) (aspects : List Aspect) :
    aspects.foldl t.declare s = s.declareAll (t.declarationsOf aspects) := by
  simp only [declarationsOf, Styles.declareAll, List.flatMap, List.foldl_flatten, List.foldl_map]
  rfl

theorem foldl_aspects {β : Type} (aspects : β → List Aspect) (s : Styles) (steps : List β) :
    steps.foldl (fun s step => (aspects step).foldl t.declare s) s =
      s.declareAll (t.declarationsOf (steps.flatMap aspects)) := by
  rw [← foldl_declare, List.flatMap, List.foldl_flatten, List.foldl_map]

end Target

theorem BoxBrief.takeAll_eq (t : Target) (b : BoxBrief) (s : Styles) (steps : List BoxStep) :
    b.takeAll t s steps = s.declareAll (t.declarationsOf (steps.flatMap b.aspects)) :=
  t.foldl_aspects b.aspects s steps

/-- The styles of a run are put in as if it were typed in place. -/
theorem TextBrief.take_eq (t : Target) (b : TextBrief) (s : Styles) (step : TextStep) :
    b.take t s step = (b.aspects step).foldl t.declare s := by
  cases step with
  | run =>
    have hf : ∀ d ∈ t.declarationsOf (b.subject.typography b.run), d.fallback = false := by
      intro d hd
      obtain ⟨a, ha, hda⟩ := List.mem_flatMap.mp hd
      obtain rfl := List.mem_singleton.mp ha
      have hn : Aspect.typography b.run (b.subject.textColor b.run) ≠ .origin := nofun
      exact (t.declarations_within hn d hda).2
    rw [take, Target.runStyles, Target.styles_eq_declareAll, Target.foldl_declare]
    exact Styles.merge_declareAll s .empty hf
  | size | placement | blend | align | typography => rfl

theorem TextBrief.aspects_plain (b : TextBrief) (step : TextStep) : b.aspects step.plain = b.aspects step := by
  cases step <;> rfl

theorem TextBrief.takeAll_eq (t : Target) (b : TextBrief) (s : Styles) (steps : List TextStep) :
    b.takeAll t s steps = s.declareAll (t.declarationsOf ((steps.map TextStep.plain).flatMap b.aspects)) := by
  have h : b.take t = fun s step => (b.aspects step.plain).foldl t.declare s :=
    funext fun s => funext fun step => b.aspects_plain step ▸ b.take_eq t s step
  rw [← t.foldl_aspects, List.foldl_map, takeAll, h]

/-- A frame takes four of the steps. -/
theorem Target.frameStyles_eq_takeAll (t : Target) (slot : Slot Float) (base : Base) (flow : Option Flow)
    (clips hasChildren : Bool) :
    t.frameStyles slot base flow clips hasChildren =
      (BoxBrief.mk (.ofBase base) slot (Hug.ofFlow flow) .box clips flow hasChildren).takeAll t .empty
        [.placement, .shape, .clip, .layout] := by
  simp only [Target.frameStyles, Target.styles, List.foldl_append]
  rfl

/-- A text with one run takes three. -/
theorem Target.textStyles_eq_takeAll (t : Target) (slot : Slot Float) (base : Base) (box : TextBox) (run : TextRun) :
    (t.blockStyles slot base box).merge (t.runStyles base run) =
      (TextBrief.mk (.ofBase base) slot (Hug.ofText box) box run).takeAll t .empty [.placement, .align, .run] := by
  simp only [Target.blockStyles, Target.styles, List.foldl_append]
  rfl

namespace Subject
variable (s : Subject)

/-- What a node has to say on where it is and how large. -/
def placed? (slot : Slot Float) (hug : Hug) : Topic → Option Aspect
  | .size => some (.size (s.sizeIn slot hug))
  | .position => (slot.coordinates? s.base.position).map fun p => .position p.x p.y
  | .blend => some (.blend s.base.shownOpacity s.base.rotation)
  | _ => none

theorem placed_size {slot : Slot Float} {hug : Hug} {a : Aspect} (h : a ∈ s.size slot hug) :
    s.placed? slot hug a.topic = some a := by
  obtain rfl := List.mem_singleton.mp h
  rfl

theorem placed_coordinates {slot : Slot Float} {hug : Hug} {a : Aspect} (h : a ∈ s.coordinates slot) :
    s.placed? slot hug a.topic = some a := by
  unfold coordinates at h
  split at h
  · rename_i p hp
    obtain rfl := List.mem_singleton.mp h
    exact congrArg (Option.map _) hp
  · cases h

theorem placed_blend {slot : Slot Float} {hug : Hug} {a : Aspect} (h : a ∈ s.blend) :
    s.placed? slot hug a.topic = some a := by
  unfold blend at h
  split at h
  · cases h
  · obtain rfl := List.mem_singleton.mp h
    rfl

theorem placed_placement {slot : Slot Float} {hug : Hug} {a : Aspect} (h : a ∈ s.placement slot hug) :
    s.placed? slot hug a.topic = some a := by
  rcases List.mem_append.mp h with h | h
  · rcases List.mem_append.mp h with h | h
    · exact s.placed_size h
    · exact s.placed_coordinates h
  · exact s.placed_blend h

/-- What a node has to say on its shape. -/
def shaped? (look : ShapeLook) : Topic → Option Aspect
  | .background => (Fill.top? s.base.fills).map (.background · s.width s.height)
  | .radius => (s.base.radius? (look == .ellipse)).map (.radius · s.width s.height)
  | .border => s.base.stroke?.map .border
  | .shadows => some (.shadows s.base.shadows)
  | .blur => some (.blur s.base.blur)
  | _ => none

theorem shaped_shape {look : ShapeLook} {a : Aspect} (h : a ∈ s.shape look) : s.shaped? look a.topic = some a := by
  simp only [shape, fill, List.mem_append, List.mem_map, Option.mem_toList, List.mem_ite_nil_left,
    List.mem_singleton] at h
  rcases h with (((⟨-, f, hf, rfl⟩ | ⟨r, hr, rfl⟩) | ⟨st, hst, rfl⟩) | ⟨-, rfl⟩) | ⟨-, rfl⟩
  · exact congrArg (Option.map _) hf
  · exact congrArg (Option.map _) hr
  · exact congrArg (Option.map _) hst
  · rfl
  · rfl

end Subject

namespace BoxBrief
variable (b : BoxBrief)

/-- All that is said in the steps for a box, by topic. -/
def about : Topic → Option Aspect
  | .size => b.subject.placed? b.slot b.hug .size
  | .position => b.subject.placed? b.slot b.hug .position
  | .blend => b.subject.placed? b.slot b.hug .blend
  | .clip => some .clip
  | .arrangement => b.flow.map .flow
  | .origin => some .origin
  | topic => b.subject.shaped? b.look topic

theorem about_of_placed {topic : Topic} {a : Aspect} (h : b.subject.placed? b.slot b.hug topic = some a) :
    b.about topic = some a := by
  cases topic with
  | size | position | blend => exact h
  | _ => cases h

theorem about_of_shaped {topic : Topic} {a : Aspect} (h : b.subject.shaped? b.look topic = some a) :
    b.about topic = some a := by
  cases topic with
  | background | radius | border | shadows | blur => exact h
  | _ => cases h

theorem about_of_layout {a : Aspect} (h : a ∈ Subject.layout b.flow b.hasChildren) : b.about a.topic = some a := by
  unfold Subject.layout at h
  split at h
  · rename_i flow hf
    obtain rfl := List.mem_singleton.mp h
    exact congrArg (Option.map _) hf
  · obtain ⟨-, h⟩ := List.mem_ite_nil_right.mp h
    obtain rfl := List.mem_singleton.mp h
    rfl

theorem about_of_mem {step : BoxStep} {a : Aspect} (h : a ∈ b.aspects step) : b.about a.topic = some a := by
  cases step with
  | size => exact b.about_of_placed (b.subject.placed_size h)
  | placement => exact b.about_of_placed (b.subject.placed_placement h)
  | blend => exact b.about_of_placed (b.subject.placed_blend h)
  | shape => exact b.about_of_shaped (b.subject.shaped_shape h)
  | clip =>
    obtain ⟨-, h⟩ := List.mem_ite_nil_right.mp h
    obtain rfl := List.mem_singleton.mp h
    rfl
  | layout => exact b.about_of_layout h
  | origin =>
    obtain rfl := List.mem_singleton.mp h
    rfl

end BoxBrief

namespace TextBrief
variable (b : TextBrief)

/-- All that is said in the steps for a text, by topic. -/
def about : Topic → Option Aspect
  | .arrangement => some (.textAlign b.box.horizontal b.box.vertical)
  | .typography => some (.typography b.run (b.subject.textColor b.run))
  | topic => b.subject.placed? b.slot b.hug topic

theorem about_of_placed {topic : Topic} {a : Aspect} (h : b.subject.placed? b.slot b.hug topic = some a) :
    b.about topic = some a := by
  cases topic with
  | arrangement | typography => cases h
  | _ => exact h

theorem about_of_mem {step : TextStep} {a : Aspect} (h : a ∈ b.aspects step) : b.about a.topic = some a := by
  cases step with
  | size => exact b.about_of_placed (b.subject.placed_size h)
  | placement => exact b.about_of_placed (b.subject.placed_placement h)
  | blend => exact b.about_of_placed (b.subject.placed_blend h)
  | align | typography | run =>
    obtain rfl := List.mem_singleton.mp h
    rfl

end TextBrief

namespace Target
variable (t : Target)

section
variable {β : Type} {aspects : β → List Aspect} {about : Topic → Option Aspect}

/-- Steps whose aspects are all out of one table by topic. -/
theorem coherent_steps (h : ∀ x, ∀ a ∈ aspects x, about a.topic = some a) (steps : List β) :
    Declaration.Coherent (t.declarationsOf (steps.flatMap aspects)) := by
  refine t.coherent_declarationsOf fun a ha b hb hab => ?_
  obtain ⟨x, -, ha⟩ := List.mem_flatMap.mp ha
  obtain ⟨y, -, hb⟩ := List.mem_flatMap.mp hb
  exact Option.some.inj ((h x a ha).symm.trans (hab ▸ h y b hb))

/-- Such steps may come in any order and more than once. -/
theorem steps_alike (h : ∀ x, ∀ a ∈ aspects x, about a.topic = some a) {steps steps' : List β}
    (hm : ∀ x, x ∈ steps ↔ x ∈ steps') (s : Styles) :
    let left := s.declareAll (t.declarationsOf (steps.flatMap aspects))
    let right := s.declareAll (t.declarationsOf (steps'.flatMap aspects))
    (∀ k, left.get? k = right.get? k) ∧ left.entries.Perm right.entries := by
  intro left right
  have hk (k : String) : left.get? k = right.get? k := by
    refine Styles.get?_declareAll_congr (t.coherent_steps h steps) (fun d => ?_) k
    simp only [declarationsOf, List.mem_flatMap, hm]
  exact ⟨hk, Styles.perm_of_get? hk⟩

end

theorem fallback_of_origin {d : Declaration} (h : d ∈ t.declarations .origin) : d.fallback = true := by
  cases t <;> obtain rfl := List.mem_singleton.mp h <;> rfl

/-- An origin that comes in anywhere changes no value that is there without it. -/
theorem get?_origin (b : BoxBrief) (s : Styles) (before after : List BoxStep) {k v : String}
    (h : (b.takeAll t s (before ++ after)).get? k = some v) :
    (b.takeAll t s (before ++ .origin :: after)).get? k = some v := by
  rw [BoxBrief.takeAll_eq] at h ⊢
  refine Styles.get?_declareAll_of_fallbacks (t.coherent_steps (fun _ _ => b.about_of_mem) _) (fun d hd => ?_)
    (fun d hd => ?_) h
  · simp only [declarationsOf, List.flatMap_append, List.flatMap_cons, List.mem_append] at hd ⊢
    exact hd.imp_right .inr
  · simp only [declarationsOf, List.flatMap_append, List.flatMap_cons, List.mem_append] at hd ⊢
    rcases hd with hd | hd | hd
    · exact .inl (.inl hd)
    · refine .inr (t.fallback_of_origin ?_)
      simpa [BoxBrief.aspects] using hd
    · exact .inl (.inr hd)

/-- For a box and for a text, two rows with the same steps in them lead to the same properties, in another order at
most. The origin of a box takes no value from another step. -/
theorem steps_commute (s : Styles) :
    (∀ (b : BoxBrief) (steps steps' : List BoxStep), (∀ x, x ∈ steps ↔ x ∈ steps') →
      (∀ k, (b.takeAll t s steps).get? k = (b.takeAll t s steps').get? k) ∧
      (b.takeAll t s steps).entries.Perm (b.takeAll t s steps').entries) ∧
    (∀ (b : TextBrief) (steps steps' : List TextStep),
      (∀ x, x ∈ steps.map TextStep.plain ↔ x ∈ steps'.map TextStep.plain) →
      (∀ k, (b.takeAll t s steps).get? k = (b.takeAll t s steps').get? k) ∧
      (b.takeAll t s steps).entries.Perm (b.takeAll t s steps').entries) ∧
    ∀ (b : BoxBrief) (before after : List BoxStep) (k v : String),
      (b.takeAll t s (before ++ after)).get? k = some v →
      (b.takeAll t s (before ++ .origin :: after)).get? k = some v := by
  refine ⟨fun b steps steps' hm => ?_, fun b steps steps' hm => ?_, fun b before after _ _ =>
    t.get?_origin b s before after⟩
  · rw [b.takeAll_eq, b.takeAll_eq]
    exact t.steps_alike (fun _ _ => b.about_of_mem) hm s
  · rw [b.takeAll_eq, b.takeAll_eq]
    exact t.steps_alike (fun _ _ => b.about_of_mem) hm s

end Target

/-- A card that places what is on it freely. -/
def card : BoxBrief :=
  { subject := .ofBase (.named "Card" 10 20 100 40), slot := .free .zero, hug := {}, look := .box, clips := true,
    flow := none, hasChildren := true }

/-- The text on it. -/
def cardText : TextBrief :=
  { subject := .ofBase (.named "Title" 0 0 80 20), slot := .free .zero, hug := {}, box := { characters := "Title" },
    run := { characters := "Title" } }

/-- It is placed before and after it becomes the origin for what is on it, and stays where it is. -/
theorem card_stays :
    let t := Target.html false
    (card.takeAll t .empty [.placement, .layout, .clip]).entries.Perm
      (card.takeAll t .empty [.clip, .layout, .placement, .clip]).entries ∧
    (cardText.takeAll t .empty [.placement, .align, .run]).entries.Perm
      (cardText.takeAll t .empty [.typography, .align, .placement]).entries ∧
    (card.takeAll t .empty [.origin, .placement]).get? "position" = some "absolute" := by
  intro t
  obtain ⟨hbox, htext, horigin⟩ := t.steps_commute .empty
  refine ⟨(hbox card _ _ fun x => ?_).2, (htext cardText _ _ fun x => ?_).2, horigin card [] [.placement] _ _ ?_⟩
  · cases x <;> decide
  · cases x <;> decide
  · decide +kernel

end SceneCode
