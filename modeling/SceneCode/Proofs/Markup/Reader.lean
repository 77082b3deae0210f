import Mathlib.Data.List.Basic
import SceneCode.Proofs.Text.Characters

/-! A reader of tags. What stands between double quotes in a tag is a value, whatever it is, and an ending tag has to
be that of the innermost element that is open. -/
namespace SceneCode.Markup

/-- A key with what stands between its quotes. -/
abbrev Attribute := List Char × List Char

structure Tag where
  name : List Char
  attributes : List Attribute := []
deriving DecidableEq

inductive Item where
  | char (c : Char)
  | element (tag : Tag) (inner : List Item)

inductive Mode where
  | content
  /-- Behind the bracket that opens a tag. -/
  | opened
  | name (tag : Tag)
  | gap (tag : Tag)
  | key (tag : Tag) (key : List Char)
  | equals (tag : Tag) (key : List Char)
  | value (tag : Tag) (key value : List Char)
  /-- Behind the quote that closes a value. -/
  | valued (tag : Tag)
  | slash (tag : Tag)
  | ending (name : List Char)

/-- What has been read of the innermost open element, and of those around it. -/
structure Reader where
  mode : Mode := .content
  inner : List Item := []
  outer : List (Tag × List Item) := []

namespace Reader

def add (r : Reader) (item : Item) : Reader :=
  { r with mode := .content, inner := r.inner ++ [item] }

def enter (r : Reader) (tag : Tag) : Reader :=
  ⟨.content, [], (tag, r.inner) :: r.outer⟩

def leave (r : Reader) (name : List Char) : Option Reader :=
  match r.outer with
  | [] => none
  | (tag, before) :: outer =>
    if tag.name = name then some ⟨.content, before ++ [.element tag r.inner], outer⟩ else none

/-- Where a name or a value has ended, the tag goes on or ends. -/
def goOn (r : Reader) (tag : Tag) (c : Char) : Option Reader :=
  if c = ' ' then some { r with mode := .gap tag }
  else if c = '/' then some { r with mode := .slash tag }
  else if c = '>' then some (r.enter tag)
  else none

def step (r : Reader) (c : Char) : Option Reader :=
  match r.mode with
  | .content => some (if c = '<' then { r with mode := .opened } else r.add (.char c))
  | .opened =>
    if c = '/' then some { r with mode := .ending [] }
    else if c.isAlpha then some { r with mode := .name ⟨[c], []⟩ }
    else none
  | .name tag =>
    if c.isAlpha then some { r with mode := .name { tag with name := tag.name ++ [c] } } else r.goOn tag c
  | .gap tag => if c.isAlpha then some { r with mode := .key tag [c] } else r.goOn tag c
  | .key tag key =>
    if c.isAlpha || c = '-' then some { r with mode := .key tag (key ++ [c]) }
    else if c = '=' then some { r with mode := .equals tag key }
    else none
  | .equals tag key => if c = '"' then some { r with mode := .value tag key [] } else none
  | .value tag key value =>
    if c = '"' then some { r with mode := .valued { tag with attributes := tag.attributes ++ [(key, value)] } }
    else some { r with mode := .value tag key (value ++ [c]) }
  | .valued tag => r.goOn tag c
  | .slash tag => if c = '>' then some (r.add (.element tag [])) else none
  | .ending name =>
    if c = '>' then r.leave name
    else if c.isAlpha then some { r with mode := .ending (name ++ [c]) }
    else none

/-- The items of a text, provided that it ends outside of all tags and elements. -/
def items? (r : Reader) : Option (List Item) :=
  match r.mode, r.outer with
  | .content, [] => some r.inner
  | _, _ => none

/-- A text takes the reader from here to there. -/
def Reads (r : Reader) (cs : List Char) (r' : Reader) : Prop :=
  cs.foldlM step r = some r'

end Reader

def read (cs : List Char) : Option (List Item) :=
  (cs.foldlM Reader.step {}).bind Reader.items?

namespace Reader
variable {r r' r'' : Reader}

theorem Reads.nil : Reads r [] r := rfl

theorem Reads.cons {c : Char} {cs : List Char} (h : r.step c = some r') (hs : Reads r' cs r'') :
    Reads r (c :: cs) r'' := by
  unfold Reads
  rw [List.foldlM_cons, h]
  exact hs

theorem Reads.append {cs ds : List Char} (h : Reads r cs r') (h' : Reads r' ds r'') : Reads r (cs ++ ds) r'' := by
  unfold Reads
  rw [List.foldlM_append, h]
  exact h'

end Reader

def Tag.Unquoted (tag : Tag) : Prop :=
  ∀ a ∈ tag.attributes, '"' ∉ a.2

inductive Item.Unquoted : Item → Prop where
  | char (c : Char) : Unquoted (.char c)
  | element {tag : Tag} {inner : List Item} (ht : tag.Unquoted) (hi : ∀ i ∈ inner, Unquoted i) :
    Unquoted (.element tag inner)

theorem Item.Unquoted.parts {tag : Tag} {inner : List Item} (h : (Item.element tag inner).Unquoted) :
    tag.Unquoted ∧ ∀ i ∈ inner, i.Unquoted := by
  cases h with
  | element ht hi => exact ⟨ht, hi⟩

def Mode.Unquoted : Mode → Prop
  | .content | .opened | .ending _ => True
  | .name tag | .gap tag | .key tag _ | .equals tag _ | .valued tag | .slash tag => tag.Unquoted
  | .value tag _ v => tag.Unquoted ∧ '"' ∉ v

namespace Reader

structure Unquoted (r : Reader) : Prop where
  mode : r.mode.Unquoted
  inner : ∀ i ∈ r.inner, i.Unquoted
  outer : ∀ p ∈ r.outer, p.1.Unquoted ∧ ∀ i ∈ p.2, i.Unquoted

namespace Unquoted
variable {r r' : Reader} (h : r.Unquoted)
include h

theorem withMode {m : Mode} (hm : m.Unquoted) : Unquoted { r with mode := m } :=
  ⟨hm, h.inner, h.outer⟩

theorem add {item : Item} (hi : item.Unquoted) : (r.add item).Unquoted :=
  ⟨trivial, List.forall_mem_append.mpr ⟨h.inner, List.forall_mem_singleton.mpr hi⟩, h.outer⟩

theorem goOn {tag : Tag} (ht : tag.Unquoted) {c : Char} (hs : r.goOn tag c = some r') : r'.Unquoted := by
  unfold Reader.goOn at hs
  split_ifs at hs <;> obtain rfl := Option.some.inj hs
  · exact h.withMode ht
  · exact h.withMode ht
  · exact ⟨trivial, nofun, List.forall_mem_cons.mpr ⟨⟨ht, h.inner⟩, h.outer⟩⟩

theorem leave {name : List Char} (hs : r.leave name = some r') : r'.Unquoted := by
  unfold Reader.leave at hs
  split at hs
  · cases hs
  · rename_i tag before outer ho
    obtain ⟨⟨ht, hb⟩, houter⟩ := List.forall_mem_cons.mp (ho ▸ h.outer)
    split at hs
    · obtain rfl := Option.some.inj hs
      exact ⟨trivial, List.forall_mem_append.mpr ⟨hb, List.forall_mem_singleton.mpr (.element ht h.inner)⟩, houter⟩
    · cases hs

theorem step {c : Char} (hs : r.step c = some r') : r'.Unquoted := by
  have hm := h.mode
  unfold Reader.step at hs
  cases hmode : r.mode with
  | content =>
    rw [hmode] at hs
    obtain rfl := Option.some.inj hs
    split
    · exact h.withMode trivial
    · exact h.add (.char c)
  | opened =>
    simp only [hmode] at hs
    split_ifs at hs <;> obtain rfl := Option.some.inj hs
    · exact h.withMode trivial
    · exact h.withMode fun a ha => absurd ha List.not_mem_nil
  | name tag =>
    simp only [hmode] at hs hm
    split at hs
    · obtain rfl := Option.some.inj hs
      exact h.withMode hm
    · exact h.goOn hm hs
  | gap tag =>
    simp only [hmode] at hs hm
    split at hs
    · obtain rfl := Option.some.inj hs
      exact h.withMode hm
    · exact h.goOn hm hs
  | key tag key =>
    simp only [hmode] at hs hm
    split_ifs at hs <;> obtain rfl := Option.some.inj hs <;> exact h.withMode hm
  | equals tag key =>
    simp only [hmode] at hs hm
    split at hs
    · obtain rfl := Option.some.inj hs
      exact h.withMode ⟨hm, List.not_mem_nil⟩
    · cases hs
  | value tag key value =>
    simp only [hmode] at hs hm
    split at hs <;> obtain rfl := Option.some.inj hs
    · exact h.withMode (List.forall_mem_append.mpr ⟨hm.1, List.forall_mem_singleton.mpr hm.2⟩)
    · rename_i hc
      refine h.withMode ⟨hm.1, ?_⟩
      simp [hm.2, Ne.symm hc]
  | valued tag =>
    simp only [hmode] at hs hm
    exact h.goOn hm hs
  | slash tag =>
    simp only [hmode] at hs hm
    split at hs
    · obtain rfl := Option.some.inj hs
      exact h.add (.element hm nofun)
    · cases hs
  | ending name =>
    simp only [hmode] at hs
    split_ifs at hs
    · exact h.leave hs
    · obtain rfl := Option.some.inj hs
      exact h.withMode trivial

theorem reads {cs : List Char} (hr : Reads r cs r') : r'.Unquoted := by
  induction cs generalizing r with
  | nil =>
    obtain rfl := Option.some.inj hr
    exact h
  | cons c cs ih =>
    unfold Reads at hr
    rw [List.foldlM_cons] at hr
    obtain ⟨r₁, h₁, hr⟩ := Option.bind_eq_some_iff.mp hr
    exact ih (h.step h₁) hr

end Unquoted
end Reader

theorem read_unquoted {cs : List Char} {items : List Item} (h : read cs = some items) : ∀ i ∈ items, i.Unquoted := by
  obtain ⟨r, hr, hi⟩ := Option.bind_eq_some_iff.mp h
  have hs : Reader.Unquoted {} := ⟨trivial, nofun, nofun⟩
  have hu : r.Unquoted := hs.reads hr
  unfold Reader.items? at hi
  split at hi
  · obtain rfl := Option.some.inj hi
    exact hu.inner
  · cases hi

/-- What a tag is called. -/
def IsName (cs : List Char) : Prop :=
  cs ≠ [] ∧ ∀ c ∈ cs, c.isAlpha = true

instance (cs : List Char) : Decidable (IsName cs) := inferInstanceAs (Decidable (_ ∧ _))

def isKeyChar (c : Char) : Bool :=
  c.isAlpha || c = '-'

/-- What an attribute is called. -/
def IsKey : List Char → Prop
  | [] => False
  | c :: cs => c.isAlpha = true ∧ ∀ d ∈ cs, isKeyChar d = true

instance : (cs : List Char) → Decidable (IsKey cs)
  | [] => inferInstanceAs (Decidable False)
  | _ :: _ => inferInstanceAs (Decidable (_ ∧ _))

namespace Attribute

def text (a : Attribute) : List Char :=
  a.1 ++ '=' :: '"' :: a.2 ++ ['"']

def Proper (a : Attribute) : Prop :=
  IsKey a.1 ∧ '"' ∉ a.2

end Attribute

namespace Tag

/-- A tag up to where it ends or closes itself. -/
def text (tag : Tag) : List Char :=
  '<' :: tag.name ++ tag.attributes.flatMap fun a => ' ' :: Attribute.text a

structure Proper (tag : Tag) : Prop where
  name : IsName tag.name
  attributes : ∀ a ∈ tag.attributes, Attribute.Proper a

end Tag

/-- A tag may go on or end. -/
inductive Mode.Whole (tag : Tag) : Mode → Prop where
  | name : Whole tag (.name tag)
  | valued : Whole tag (.valued tag)

namespace Reader
variable {inner : List Item} {outer : List (Tag × List Item)} {tag : Tag}

theorem step_whole {m : Mode} (h : m.Whole tag) {c : Char} (hc : c.isAlpha = false) :
    step ⟨m, inner, outer⟩ c = goOn ⟨m, inner, outer⟩ tag c := by
  cases h with
  | name => simp [step, hc]
  | valued => rfl

theorem reads_name {name : List Char} (h : IsName name) :
    Reads ⟨.content, inner, outer⟩ ('<' :: name) ⟨.name ⟨name, []⟩, inner, outer⟩ := by
  have rest (cs : List Char) (hc : ∀ c ∈ cs, c.isAlpha = true) (front : List Char) :
      Reads ⟨.name ⟨front, []⟩, inner, outer⟩ cs ⟨.name ⟨front ++ cs, []⟩, inner, outer⟩ := by
    induction cs generalizing front with
    | nil => simpa using Reads.nil
    | cons c cs ih =>
      have hs := ih (fun d hd => hc d (List.mem_cons_of_mem _ hd)) (front ++ [c])
      rw [List.append_assoc, List.singleton_append] at hs
      exact .cons (by simp [step, hc c List.mem_cons_self]) hs
  cases name with
  | nil => exact absurd rfl h.1
  | cons c cs =>
    have ha : c.isAlpha = true := h.2 c List.mem_cons_self
    have hn : c ≠ '/' := by
      rintro rfl
      revert ha
      decide
    refine .cons rfl (.cons ?_ (rest cs (fun d hd => h.2 d (List.mem_cons_of_mem _ hd)) [c]))
    simp [step, hn, ha]

theorem reads_key {key : List Char} (h : IsKey key) :
    Reads ⟨.gap tag, inner, outer⟩ (key ++ ['=']) ⟨.equals tag key, inner, outer⟩ := by
  have rest (cs : List Char) (hc : ∀ c ∈ cs, isKeyChar c = true) (front : List Char) :
      Reads ⟨.key tag front, inner, outer⟩ (cs ++ ['=']) ⟨.equals tag (front ++ cs), inner, outer⟩ := by
    induction cs generalizing front with
    | nil =>
      rw [List.append_nil]
      exact .cons (by simp [step]) .nil
    | cons c cs ih =>
      have hs := ih (fun d hd => hc d (List.mem_cons_of_mem _ hd)) (front ++ [c])
      have hk := hc c List.mem_cons_self
      rw [List.append_assoc, List.singleton_append] at hs
      exact .cons (by simp only [step, isKeyChar] at hk ⊢; simp [hk]) hs
  cases key with
  | nil => exact h.elim
  | cons c cs => exact .cons (by simp [step, h.1]) (rest cs h.2 [c])

theorem reads_value {key value : List Char} (h : '"' ∉ value) :
    Reads ⟨.equals tag key, inner, outer⟩ ('"' :: value ++ ['"'])
      ⟨.valued { tag with attributes := tag.attributes ++ [(key, value)] }, inner, outer⟩ := by
  have rest (cs : List Char) (hc : '"' ∉ cs) (front : List Char) : Reads ⟨.value tag key front, inner, outer⟩
      (cs ++ ['"']) ⟨.valued { tag with attributes := tag.attributes ++ [(key, front ++ cs)] }, inner, outer⟩ := by
    induction cs generalizing front with
    | nil =>
      rw [List.append_nil]
      exact .cons (by simp [step]) .nil
    | cons c cs ih =>
      simp only [List.mem_cons, not_or] at hc
      have hs := ih hc.2 (front ++ [c])
      rw [List.append_assoc, List.singleton_append] at hs
      exact .cons (by simp [step, Ne.symm hc.1]) hs
  exact .cons (by simp [step]) (rest value h [])

/-- One more attribute. -/
theorem reads_attribute {m : Mode} (hm : m.Whole tag) {a : Attribute} (h : a.Proper) :
    Reads ⟨m, inner, outer⟩ (' ' :: a.text)
      ⟨.valued { tag with attributes := tag.attributes ++ [a] }, inner, outer⟩ := by
  have ht : a.text = a.1 ++ ['='] ++ ('"' :: a.2 ++ ['"']) := by simp [Attribute.text]
  rw [ht]
  exact .cons (by rw [step_whole hm (by decide)]; rfl) ((reads_key h.1).append (reads_value h.2))

theorem reads_tag (h : tag.Proper) :
    ∃ m, m.Whole tag ∧ Reads ⟨.content, inner, outer⟩ tag.text ⟨m, inner, outer⟩ := by
  have rest (as : List Attribute) (ha : ∀ a ∈ as, a.Proper) (m : Mode) (tag : Tag) (hm : m.Whole tag) :
      ∃ m', m'.Whole { tag with attributes := tag.attributes ++ as } ∧
        Reads ⟨m, inner, outer⟩ (as.flatMap fun a => ' ' :: a.text) ⟨m', inner, outer⟩ := by
    induction as generalizing m tag with
    | nil => exact ⟨m, by simpa using hm, .nil⟩
    | cons a as ih =>
      have hr : Reads ⟨m, inner, outer⟩ (' ' :: a.text) _ := reads_attribute hm (ha a List.mem_cons_self)
      obtain ⟨m', hm', hs⟩ := ih (fun b hb => ha b (List.mem_cons_of_mem _ hb)) _
        { tag with attributes := tag.attributes ++ [a] } .valued
      rw [List.append_assoc] at hm'
      exact ⟨m', hm', hr.append hs⟩
  obtain ⟨m, hm, hr⟩ := rest tag.attributes h.attributes _ ⟨tag.name, []⟩ .name
  exact ⟨m, hm, (reads_name h.name).append hr⟩

theorem reads_ending {before : List Item} {name : List Char} (ht : tag.name = name) (h : IsName name) :
    Reads ⟨.content, inner, (tag, before) :: outer⟩ ('<' :: '/' :: name ++ ['>'])
      ⟨.content, before ++ [.element tag inner], outer⟩ := by
  have rest (cs : List Char) (hc : ∀ c ∈ cs, c.isAlpha = true) (front : List Char) (hf : front ++ cs = name) :
      Reads ⟨.ending front, inner, (tag, before) :: outer⟩ (cs ++ ['>'])
        ⟨.content, before ++ [.element tag inner], outer⟩ := by
    induction cs generalizing front with
    | nil =>
      rw [List.append_nil] at hf
      exact .cons (by simp [step, leave, ht, hf]) .nil
    | cons c cs ih =>
      have ha : c.isAlpha = true := hc c List.mem_cons_self
      have hn : c ≠ '>' := by
        rintro rfl
        revert ha
        decide
      have hs := ih (fun d hd => hc d (List.mem_cons_of_mem _ hd)) (front ++ [c]) (by simpa using hf)
      exact .cons (by simp [step, hn, ha]) hs
  exact .cons rfl (.cons rfl (rest name h.2 [] rfl))

end Reader

/-- The reader gets over the text and has these items more. -/
def ReadsAs (cs : List Char) (items : List Item) : Prop :=
  ∀ before outer, Reader.Reads ⟨.content, before, outer⟩ cs ⟨.content, before ++ items, outer⟩

namespace ReadsAs
open Reader (Reads)

theorem read_eq {cs : List Char} {items : List Item} (h : ReadsAs cs items) : read cs = some items := by
  have hr : cs.foldlM Reader.step {} = some ⟨.content, items, []⟩ := h [] []
  rw [read, hr]
  rfl

theorem nil : ReadsAs [] [] := fun before outer => by
  simpa using Reads.nil

theorem append {cs ds : List Char} {items items' : List Item} (h : ReadsAs cs items) (h' : ReadsAs ds items') :
    ReadsAs (cs ++ ds) (items ++ items') := fun before outer => by
  rw [← List.append_assoc]
  exact (h before outer).append (h' (before ++ items) outer)

theorem flatMap {α : Type} {xs : List α} {f : α → List Char} {g : α → List Item}
    (h : ∀ x ∈ xs, ReadsAs (f x) (g x)) : ReadsAs (xs.flatMap f) (xs.flatMap g) := by
  induction xs with
  | nil => exact nil
  | cons x xs ih => exact (h x List.mem_cons_self).append (ih fun y hy => h y (List.mem_cons_of_mem _ hy))

theorem char {c : Char} (h : c ≠ '<') : ReadsAs [c] [.char c] := fun before outer =>
  .cons (by simp [Reader.step, Reader.add, h]) .nil

theorem text {cs : List Char} (h : '<' ∉ cs) : ReadsAs cs (cs.map .char) := by
  induction cs with
  | nil => exact nil
  | cons c cs ih =>
    simp only [List.mem_cons, not_or] at h
    exact (char (Ne.symm h.1)).append (ih h.2)

variable {tag : Tag} (ht : tag.Proper)
include ht

theorem element {cs : List Char} {items : List Item} (h : ReadsAs cs items) :
    ReadsAs (tag.text ++ '>' :: cs ++ ('<' :: '/' :: tag.name ++ ['>'])) [.element tag items] := fun before outer => by
  obtain ⟨m, hm, hr⟩ : ∃ m, m.Whole tag ∧ Reads ⟨.content, before, outer⟩ tag.text ⟨m, before, outer⟩ :=
    Reader.reads_tag ht
  have ho : Reads ⟨m, before, outer⟩ ('>' :: cs) ⟨.content, items, (tag, before) :: outer⟩ :=
    .cons (by rw [Reader.step_whole hm (by decide)]; rfl) (h [] ((tag, before) :: outer))
  exact (hr.append ho).append (Reader.reads_ending rfl ht.name)

/-- A tag that closes itself, with or without a space in front of the slash. -/
theorem closed (space : Bool) :
    ReadsAs (tag.text ++ (if space then [' ', '/', '>'] else ['/', '>'])) [.element tag []] := fun before outer => by
  obtain ⟨m, hm, hr⟩ : ∃ m, m.Whole tag ∧ Reads ⟨.content, before, outer⟩ tag.text ⟨m, before, outer⟩ :=
    Reader.reads_tag ht
  have hs : Reads ⟨.slash tag, before, outer⟩ ['>'] ⟨.content, before ++ [.element tag []], outer⟩ :=
    .cons (by simp [Reader.step, Reader.add]) .nil
  refine hr.append ?_
  cases space with
  | false => exact .cons (by rw [Reader.step_whole hm (by decide)]; rfl) hs
  | true => exact .cons (by rw [Reader.step_whole hm (by decide)]; rfl) (.cons rfl hs)

end ReadsAs
end SceneCode.Markup
