import Mathlib.Data.List.Induction
import SceneCode.Proofs.Layers.Comments
import SceneCode.Proofs.Text.Characters

/-! Layer attributes out of tags. An attribute is known by its name behind a single space, so style objects, which may
hold the same text, are passed over. -/
namespace SceneCode.Markup.Layers
open Text (indentBy)

/-- Where a style object is being read. -/
inductive Object where
  | behind (c : Char)
  /-- Behind a quote that is neither written with a backslash nor the first of a value. -/
  | quote
  | brace

/-- A style object ends with its last value, behind two braces. -/
def Object.next : Object → Char → Option Object
  | .behind last, c => some (if c = '\'' ∧ last ≠ '\\' ∧ last ≠ ' ' then .quote else .behind c)
  | .quote, c => some (if c = '\x7d' then .brace else .behind c)
  | .brace, c => if c = '\x7d' then none else some (.behind c)

inductive Mode where
  | tags
  | object (o : Object)
  | value (note : List Char)

/-- Neither a space nor a line break. -/
def isEdge (c : Char) : Bool :=
  c != ' ' && c != '\n'

/-- What a layer attribute starts with, behind a space. -/
def layerWord : List Char := "data-layer=\"".toList

def objectWord : List Char := "style=\x7b\x7b".toList

def front (kept : List Char) : List Char :=
  kept.take (kept.length - layerWord.length - 1)

/-- At the value of a layer attribute. -/
def Opens (kept : List Char) : Prop :=
  ' ' :: layerWord <:+ kept ∧ ∀ c ∈ (front kept).getLast?, isEdge c = true

instance (kept : List Char) : Decidable (Opens kept) := inferInstanceAs (Decidable (_ ∧ _))

/-- Objects are read where there are any. -/
def step (objects : Bool) (e : Erasure Mode) (c : Char) : Erasure Mode :=
  match e.mode with
  | .tags =>
    let kept := e.kept ++ [c]
    if Opens kept then { e with mode := .value [], kept := front kept }
    else if objects ∧ ' ' :: objectWord <:+ kept then { e with mode := .object (.behind c), kept }
    else { e with kept }
  | .object o =>
    match o.next c with
    | some o => { e with mode := .object o, kept := e.kept ++ [c] }
    | none => { e with mode := .tags, kept := e.kept ++ [c] }
  | .value note =>
    if c = '"' then { e with mode := .tags, notes := e.notes ++ [note] }
    else { e with mode := .value (note ++ [c]) }

/-- Code is read from a line break on, which is no part of it. -/
def run (objects : Bool) (code : String) : Erasure Mode :=
  ('\n' :: code.toList).foldl (step objects) ⟨.tags, [], []⟩

/-- Markup without its layer attributes. -/
def erase (objects : Bool) (code : String) : String :=
  String.ofList ((run objects code).kept.drop 1)

/-- The values of the layer attributes, in order, without references. -/
def notes (objects : Bool) (code : String) : List String :=
  (run objects code).notes.map fun value => String.ofList (Text.unescape value)

variable {objects : Bool}

/-- A word and what follows the last space are one if the text ends with the word behind a space. -/
theorem eq_of_suffix {word cs : List Char} (hw : ' ' ∉ word) (hc : ' ' ∉ cs) {kept : List Char}
    (h : ' ' :: word <:+ kept ++ ' ' :: cs) : word = cs := by
  have hr (xs ys : List Char) (hy : ' ' ∉ ys) : (xs ++ ' ' :: ys).reverse.takeWhile (· != ' ') = ys.reverse := by
    have hp : ∀ c ∈ ys.reverse, (c != ' ') = true := fun c hc => by
      simpa using fun he : c = ' ' => hy (he ▸ List.mem_reverse.mp hc)
    have hs : (xs ++ ' ' :: ys).reverse = ys.reverse ++ ' ' :: xs.reverse := by simp
    rw [hs, List.takeWhile_append_of_pos hp]
    simp
  obtain ⟨front, he⟩ := h
  have hx := hr front word hw
  rw [he, hr kept cs hc] at hx
  exact (List.reverse_inj.mp hx).symm

theorem not_suffix_of_last {word kept : List Char} {c d : Char} (h : c ≠ d) : ¬ word ++ [d] <:+ kept ++ [c] := by
  rintro ⟨front, he⟩
  rw [← List.append_assoc] at he
  exact h (List.append_inj_right' he rfl |> List.cons.inj |>.1).symm

theorem front_append (kept : List Char) : front (kept ++ ' ' :: layerWord) = kept := by
  have hl : (kept ++ ' ' :: layerWord).length - layerWord.length - 1 = kept.length := by
    rw [List.length_append, List.length_cons]
    omega
  rw [front, hl, List.take_left']
  rfl

theorem opens_append {kept : List Char} :
    Opens (kept ++ ' ' :: layerWord) ↔ ∀ c ∈ kept.getLast?, isEdge c = true := by
  rw [Opens, front_append]
  exact and_iff_right (List.suffix_append _ _)

theorem not_opens_of_last {kept : List Char} {c : Char} (h : c ≠ '"') : ¬ Opens (kept ++ [c]) := by
  have hl : ' ' :: layerWord = (' ' :: "data-layer=".toList) ++ ['"'] := by decide
  exact fun ho => not_suffix_of_last h (hl ▸ ho.1)

theorem step_tags {kept : List Char} {c : Char} (h : ¬ Opens (kept ++ [c]))
    (ho : objects = true → ¬ ' ' :: objectWord <:+ kept ++ [c]) (before : List (List Char)) :
    step objects ⟨.tags, kept, before⟩ c = ⟨.tags, kept ++ [c], before⟩ := by
  have ho : ¬ (objects = true ∧ ' ' :: objectWord <:+ kept ++ [c]) := fun hc => ho hc.1 hc.2
  simp [step, h, ho]

/-- Markup without layer attributes: it stays as it is. -/
def Still (objects : Bool) (cs : List Char) : Prop :=
  Erases (step objects) .tags cs cs []

theorem Still.append {cs ds : List Char} (h : Still objects cs) (h' : Still objects ds) : Still objects (cs ++ ds) :=
  Erases.append h h'

/-- Text without quotes, and without braces where they may start an object. -/
theorem still_plain {cs : List Char} (h : '"' ∉ cs) (hb : objects = true → '\x7b' ∉ cs) : Still objects cs := by
  intro kept before
  have ho : ' ' :: objectWord = (' ' :: "style=\x7b".toList) ++ ['\x7b'] := by decide
  induction cs generalizing kept with
  | nil => simp
  | cons c cs ih =>
    simp only [List.mem_cons, not_or] at h hb
    have hs : step objects ⟨.tags, kept, before⟩ c = ⟨.tags, kept ++ [c], before⟩ :=
      step_tags (not_opens_of_last (Ne.symm h.1)) (fun h => ho ▸ not_suffix_of_last (Ne.symm (hb h).1)) before
    rw [List.foldl_cons, hs, ih h.2 fun h => (hb h).2, List.append_assoc]
    rfl

/-- A word that has been indented. -/
def OneWord (cs : List Char) : Prop :=
  ∀ front rest, cs = front ++ ' ' :: rest → ∃ c ∈ front.getLast?, isEdge c = false

theorem OneWord.of_not_mem {cs : List Char} (h : ' ' ∉ cs) : OneWord cs := by
  rintro front rest rfl
  exact absurd (List.mem_append_right _ List.mem_cons_self) h

theorem OneWord.not_opens {cs : List Char} (h : OneWord cs) (hl : ¬ layerWord <+: cs) {part : List Char}
    (hp : part <+: cs) (kept : List Char) : ¬ Opens (kept ++ ' ' :: part) := by
  have hw : ' ' ∉ layerWord := by decide
  intro ho
  by_cases hs : ' ' ∈ part
  · obtain ⟨xs, ys, rfl, hy⟩ := Text.exists_last hs
    obtain ⟨rest, rfl⟩ := hp
    obtain ⟨c, hc, hb⟩ := h xs (ys ++ rest) (by simp)
    have he : kept ++ ' ' :: (xs ++ ' ' :: ys) = (kept ++ ' ' :: xs) ++ ' ' :: ys := by simp
    rw [he] at ho
    obtain rfl := eq_of_suffix hw hy ho.1
    have hlast : c ∈ (kept ++ ' ' :: xs).getLast? := by
      cases xs with
      | nil => cases hc
      | cons x xs =>
        rw [List.getLast?_append_cons, List.getLast?_cons_cons]
        exact hc
    rw [opens_append.mp ho c hlast] at hb
    cases hb
  · exact hl (eq_of_suffix hw hs ho.1 ▸ hp)

/-- A word that starts like neither. -/
theorem still_word {cs : List Char} (hs : OneWord cs) (hl : ¬ layerWord <+: cs)
    (ho : objects = true → ' ' ∉ cs ∧ ¬ objectWord <+: cs) : Still objects (' ' :: cs) := by
  intro kept before
  have hw : ' ' ∉ objectWord := by decide
  have hn {part : List Char} (hp : part <+: cs) (hb : objects = true) : ¬ ' ' :: objectWord <:+ kept ++ ' ' :: part :=
    fun hx => (ho hb).2 (eq_of_suffix hw (fun hm => (ho hb).1 (hp.subset hm)) hx ▸ hp)
  -- Reading has come to the end of a part of the word.
  have hf : ∀ part, part <+: cs →
      (' ' :: part).foldl (step objects) ⟨.tags, kept, before⟩ = ⟨.tags, kept ++ ' ' :: part, before⟩ := by
    intro part
    induction part using List.reverseRecOn with
    | nil => exact fun hp => step_tags (hs.not_opens hl hp kept) (hn hp) before
    | append_singleton part c ih =>
      intro hp
      have he : kept ++ ' ' :: part ++ [c] = kept ++ ' ' :: (part ++ [c]) := by simp
      have hst : step objects ⟨.tags, kept ++ ' ' :: part, before⟩ c = ⟨.tags, kept ++ ' ' :: part ++ [c], before⟩ :=
        step_tags (he ▸ hs.not_opens hl hp kept) (he ▸ hn hp) before
      rw [← List.cons_append, List.foldl_append, ih ((List.prefix_append _ _).trans hp), List.foldl_cons, List.foldl_nil,
        hst, he]
      rfl
  rw [hf cs (List.prefix_refl cs), List.append_nil]

/-- The quote that closes an attribute opens none. -/
theorem Still.closed {cs : List Char} (h : Still objects (' ' :: cs)) (hl : cs.getLast? ≠ some '=') :
    Still objects (' ' :: cs ++ ['"']) := by
  intro kept before
  have ho : ' ' :: objectWord = (' ' :: "style=\x7b".toList) ++ ['\x7b'] := by decide
  have hw : ' ' :: layerWord = (' ' :: "data-layer".toList) ++ ['='] ++ ['"'] := by decide
  have hn : ¬ ' ' :: layerWord <:+ kept ++ ' ' :: cs ++ ['"'] := by
    rw [hw]
    rintro ⟨front, he⟩
    rw [← List.append_assoc] at he
    have hx := congrArg List.getLast? (List.append_inj_left' he rfl)
    rw [← List.append_assoc, List.getLast?_concat, List.getLast?_append_cons] at hx
    cases cs with
    | nil => exact absurd hx (by decide)
    | cons c cs =>
      rw [List.getLast?_cons_cons] at hx
      exact hl hx.symm
  have hs : step objects ⟨.tags, kept ++ ' ' :: cs, before⟩ '"' = ⟨.tags, kept ++ ' ' :: cs ++ ['"'], before⟩ :=
    step_tags (fun hx => hn hx.1) (fun _ => ho ▸ not_suffix_of_last (by decide)) before
  rw [List.foldl_append, h, List.append_nil, List.foldl_cons, List.foldl_nil, hs, List.append_assoc]

theorem foldl_value {value : List Char} (h : '"' ∉ value) (note kept : List Char) (before : List (List Char)) :
    value.foldl (step objects) ⟨.value note, kept, before⟩ = ⟨.value (note ++ value), kept, before⟩ := by
  induction value generalizing note with
  | nil => simp
  | cons c cs ih =>
    simp only [List.mem_cons, not_or] at h
    have hs : step objects ⟨.value note, kept, before⟩ c = ⟨.value (note ++ [c]), kept, before⟩ := by
      simp [step, Ne.symm h.1]
    rw [List.foldl_cons, hs, ih h.2, List.append_assoc]
    rfl

theorem step_layer {kept : List Char} (h : ∀ c ∈ kept.getLast?, isEdge c = true) (before : List (List Char)) :
    step objects ⟨.tags, kept ++ ' ' :: "data-layer=".toList, before⟩ '"' = ⟨.value [], kept, before⟩ := by
  have hw : ' ' :: "data-layer=".toList ++ ['"'] = ' ' :: layerWord := by decide
  have hk : kept ++ ' ' :: "data-layer=".toList ++ ['"'] = kept ++ ' ' :: layerWord := by
    rw [List.append_assoc, hw]
  simp only [step, hk, opens_append.mpr h, if_true, front_append]

/-- An attribute may go on behind it. -/
def Edged (cs : List Char) : Prop :=
  ∃ c ∈ cs.getLast?, isEdge c = true

theorem Edged.append {cs ds : List Char} (h : Edged cs) (hd : ∀ c ∈ ds.getLast?, isEdge c = true) : Edged (cs ++ ds) := by
  obtain ⟨c, hc, he⟩ := h
  unfold Edged
  rw [List.getLast?_append]
  cases hl : ds.getLast? with
  | none => exact ⟨c, hc, he⟩
  | some d => exact ⟨d, rfl, hd d hl⟩

theorem Edged.of_forall {cs : List Char} (hn : cs ≠ []) (h : ∀ c ∈ cs, isEdge c = true) : Edged cs :=
  ⟨cs.getLast hn, List.getLast?_eq_some_getLast hn, h _ (List.getLast_mem hn)⟩

theorem Edged.indentBy {cs : List Char} (h : Edged cs) (depth : Nat) : Edged (indentBy depth cs) := by
  obtain ⟨c, hc, he⟩ := h
  have hb : c ≠ '\n' := by
    rintro rfl
    cases he
  obtain ⟨init, rfl⟩ := List.getLast?_eq_some_iff.mp hc
  refine ⟨c, ?_, he⟩
  rw [Text.indentBy_append, Text.indentBy_cons depth hb]
  simp [Text.indentBy]

/-- A layer attribute behind other text goes as a whole. -/
theorem erases_layer {cs ds : List Char} (h : Erases (step objects) .tags cs ds []) (hd : Edged ds) {value : List Char}
    (hv : '"' ∉ value) :
    Erases (step objects) .tags (cs ++ (' ' :: layerWord ++ value ++ ['"'])) ds [value] := by
  intro kept before
  have hw : ' ' :: layerWord = ' ' :: "data-layer=".toList ++ ['"'] := by decide
  have hl : Still objects (' ' :: "data-layer=".toList) :=
    still_word (.of_not_mem (by decide)) (by decide) fun _ => by decide
  have he : ∀ d ∈ (kept ++ ds).getLast?, isEdge d = true := by
    obtain ⟨c, hc, he⟩ := hd
    rw [List.getLast?_append, hc]
    rintro d hm
    exact Option.some.inj hm ▸ he
  have ho : (' ' :: layerWord).foldl (step objects) ⟨.tags, kept ++ ds, before⟩ = ⟨.value [], kept ++ ds, before⟩ := by
    rw [hw, List.foldl_append, hl, List.append_nil, List.foldl_cons, List.foldl_nil, step_layer he]
  have hq : step objects ⟨.value value, kept ++ ds, before⟩ '"' = ⟨.tags, kept ++ ds, before ++ [value]⟩ := by simp [step]
  rw [List.foldl_append, h, List.append_nil, List.foldl_append, List.foldl_append, ho, foldl_value hv, List.nil_append,
    List.foldl_cons, List.foldl_nil, hq]

/-- Where an object has been read to behind more of it. It may have ended. -/
def Object.after (o : Object) (cs : List Char) : Option Object :=
  cs.foldlM Object.next o

theorem foldl_object {o o' : Object} {cs : List Char} (h : o.after cs = some o') (kept : List Char)
    (before : List (List Char)) :
    cs.foldl (step objects) ⟨.object o, kept, before⟩ = ⟨.object o', kept ++ cs, before⟩ := by
  induction cs generalizing o kept with
  | nil =>
    obtain rfl := Option.some.inj h
    simp
  | cons c cs ih =>
    obtain ⟨o₁, hn, ha⟩ := Option.bind_eq_some_iff.mp h
    have hs : step objects ⟨.object o, kept, before⟩ c = ⟨.object o₁, kept ++ [c], before⟩ := by simp [step, hn]
    rw [List.foldl_cons, hs, ih ha, List.append_assoc]
    rfl

theorem step_object (kept : List Char) (before : List (List Char)) :
    step true ⟨.tags, kept ++ ' ' :: "style=\x7b".toList, before⟩ '\x7b' =
      ⟨.object (.behind '\x7b'), kept ++ ' ' :: objectWord, before⟩ := by
  have hw : ' ' :: "style=\x7b".toList ++ ['\x7b'] = ' ' :: objectWord := by decide
  have hk : kept ++ ' ' :: "style=\x7b".toList ++ ['\x7b'] = kept ++ ' ' :: objectWord := by
    rw [List.append_assoc, hw]
  have hn : ¬ Opens (kept ++ ' ' :: objectWord) := hk ▸ not_opens_of_last (by decide)
  simp only [step, hk, hn, if_false, List.suffix_append, and_self, if_true]

/-- A style object whose last value has been closed. -/
theorem still_object {body : List Char} (h : (Object.behind '\x7b').after body = some .quote) :
    Still true (' ' :: objectWord ++ body ++ ['\x7d', '\x7d']) := by
  intro kept before
  have hw : ' ' :: objectWord = ' ' :: "style=\x7b".toList ++ ['\x7b'] := by decide
  have hl : Still true (' ' :: "style=\x7b".toList) :=
    still_word (.of_not_mem (by decide)) (by decide) fun _ => by decide
  have ho : (' ' :: objectWord).foldl (step true) ⟨.tags, kept, before⟩ =
      ⟨.object (.behind '\x7b'), kept ++ ' ' :: objectWord, before⟩ := by
    rw [hw, List.foldl_append, hl, List.append_nil, List.foldl_cons, List.foldl_nil, step_object, hw]
  have hc : ['\x7d', '\x7d'].foldl (step true) ⟨.object .quote, kept ++ ' ' :: objectWord ++ body, before⟩ =
      ⟨.tags, kept ++ ' ' :: objectWord ++ body ++ ['\x7d', '\x7d'], before⟩ := by
    simp [step, Object.next]
  rw [List.foldl_append, List.foldl_append, ho, foldl_object h, hc]
  simp

end SceneCode.Markup.Layers
