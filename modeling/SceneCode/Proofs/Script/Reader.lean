import SceneCode.Json.Lexeme
import SceneCode.Text.Blank
import SceneCode.Text.Quoted

namespace SceneCode.Script
open Json (hexValue?)

/-- The UTF-16 code units of a code point. -/
def unitsOf (n : Nat) : List Nat :=
  if n < 0x10000 then [n] else [0xD800 + (n - 0x10000) / 0x400, 0xDC00 + (n - 0x10000) % 0x400]

/-- A text as a value holds it, which no other text is held as (`units_inj`). -/
def units (cs : List Char) : List Nat :=
  cs.flatMap fun c => unitsOf c.toNat

/-- What the front of a text says, and what is left of the text. -/
abbrev Reading (α : Type) (cs : List Char) :=
  Option (α × { rest : List Char // rest <:+ cs })

def number? (digits : List Char) : Option Nat :=
  if digits.isEmpty then none
  else digits.foldlM (fun n d => (hexValue? d).map (n * 16 + ·)) 0

/-- So many digits, all hexadecimal. -/
def digits? (count : Nat) (cs : List Char) : Reading Nat cs :=
  if count ≤ cs.length then (number? (cs.take count)).map fun n => (n, ⟨cs.drop count, List.drop_suffix count cs⟩)
  else none

def isOpen (c : Char) : Bool :=
  c != '\x7d'

/-- A code point in braces. The first of them has been seen. -/
def codePoint? (cs : List Char) : Reading Nat cs :=
  match (number? (cs.takeWhile isOpen)), (cs.dropWhile isOpen).isEmpty with
  | some n, false =>
    if n < 0x110000 then
      some (n, ⟨(cs.dropWhile isOpen).tail, (List.tail_suffix _).trans (List.dropWhile_suffix _)⟩)
    else none
  | _, _ => none

/-- Letters that stand for control characters behind a backslash. -/
def controls : List (Char × Nat) :=
  [('b', 0x08), ('t', 0x09), ('n', 0x0A), ('v', 0x0B), ('f', 0x0C), ('r', 0x0D)]

def startsWith (c : Char) (cs : List Char) : Bool :=
  cs.head? == some c

/-- What a backslash and `c` stand for, with what is behind them. A line break is left out, and a character without a
meaning of its own stands for itself. -/
def escape? (c : Char) (cs : List Char) : Reading (List Nat) cs :=
  if c = 'x' then (digits? 2 cs).map fun (n, rest) => ([n], rest)
  else if c = 'u' then
    if startsWith '\x7b' cs then
      (codePoint? cs.tail).map fun (n, rest) => (unitsOf n, ⟨rest.1, rest.2.trans (List.tail_suffix cs)⟩)
    else (digits? 4 cs).map fun (n, rest) => ([n], rest)
  else if c = '\r' then some ([], if startsWith '\n' cs then ⟨cs.tail, List.tail_suffix cs⟩ else ⟨cs, List.suffix_rfl⟩)
  else if c = '\n' || c = '\u2028' || c = '\u2029' then some ([], ⟨cs, List.suffix_rfl⟩)
  else if c.isDigit then if c = '0' && !cs.head?.any Char.isDigit then some ([0], ⟨cs, List.suffix_rfl⟩) else none
  else some (unitsOf ((controls.lookup c).getD c.toNat), ⟨cs, List.suffix_rfl⟩)

/-- The code units up to the closing quote. -/
def literal? (cs : List Char) : Reading (List Nat) cs :=
  match cs with
  | [] => none
  | c :: cs =>
    if c = '\'' then some ([], ⟨cs, List.suffix_cons c cs⟩)
    else if c = '\n' || c = '\r' then none
    else if c = '\\' then
      match cs with
      | [] => none
      | e :: cs => do
        let (us, ⟨rest, h⟩) ← escape? e cs
        let (vs, ⟨rest', h'⟩) ← literal? rest
        return (us ++ vs, ⟨rest', ((h'.trans h).trans (List.suffix_cons e cs)).trans (List.suffix_cons c _)⟩)
    else do
      let (vs, ⟨rest, h⟩) ← literal? cs
      return (unitsOf c.toNat ++ vs, ⟨rest, h.trans (List.suffix_cons c cs)⟩)
termination_by cs.length
decreasing_by
  · have := h.length_le
    simp only [List.length_cons]
    omega
  · simp

def isWordChar (c : Char) : Bool :=
  c.isAlphanum || c = '_' || c = '$'

def skip (cs : List Char) : List Char :=
  cs.dropWhile Text.isBlank

/-- Such a character behind blanks, and the shorter text behind it. -/
def mark? (c : Char) (cs : List Char) : Option { rest : List Char // rest <:+ cs ∧ rest.length < cs.length } :=
  if h : startsWith c (skip cs) then
    some ⟨(skip cs).tail, (List.tail_suffix _).trans (List.dropWhile_suffix _), by
      have hn : skip cs ≠ [] := by
        intro he
        rw [he] at h
        cases h
      have hl : (skip cs).length ≤ cs.length := (List.dropWhile_suffix _).length_le
      have hp : 0 < (skip cs).length := List.length_pos_iff.mpr hn
      rw [List.length_tail]
      omega⟩
  else none

/-- A key with the code units of its value. -/
abbrev Entry := List Char × List Nat

def isKey (cs : List Char) : Bool :=
  !cs.isEmpty && !cs.head?.any Char.isDigit

def pair? (cs : List Char) : Reading Entry cs := do
  let key := cs.takeWhile isWordChar
  let ⟨value, h⟩ ← mark? ':' (cs.dropWhile isWordChar)
  let ⟨text, h'⟩ ← mark? '\'' value
  let (us, ⟨rest, h''⟩) ← literal? text
  if isKey key then
    some ((key, us), ⟨rest, h''.trans (h'.1.trans (h.1.trans (List.dropWhile_suffix _)))⟩)
  else none

/-- The braces that close the object and the expression, and nothing behind them. -/
def ends (cs : List Char) : Bool :=
  match mark? '\x7d' cs with
  | some rest => skip rest == ['\x7d']
  | none => false

/-- The entries up to the closing braces. -/
def entries? (cs : List Char) : Option (List Entry) :=
  if ends cs then some []
  else do
    let (e, behind) ← pair? (skip cs)
    if ends behind.1 then some [e]
    else do
      let ⟨rest, _⟩ ← mark? ',' behind.1
      (entries? rest).map (e :: ·)
termination_by cs.length
decreasing_by
  have hb : behind.1.length ≤ cs.length := (behind.2.trans (List.dropWhile_suffix _)).length_le
  omega

/-- The entries of a style object. Without a text there are none. -/
def object? (text : String) : Option (List Entry) :=
  let cs := text.toList
  let front := "style=\x7b\x7b".toList
  if cs.isEmpty then some []
  else if front.isPrefixOf cs then entries? (cs.drop front.length)
  else none

theorem isScalar (c : Char) : c.toNat < 0xD800 ∨ 0xDFFF < c.toNat ∧ c.toNat < 0x110000 :=
  c.valid

theorem unitsOf_ne_nil (n : Nat) : unitsOf n ≠ [] := by
  unfold unitsOf
  split <;> exact List.cons_ne_nil _ _

/-- A surrogate is no character, so that the first unit says how many there are. -/
theorem unitsOf_append_inj {c d : Char} {us vs : List Nat} (h : unitsOf c.toNat ++ us = unitsOf d.toNat ++ vs) :
    c = d ∧ us = vs := by
  have hc := isScalar c
  have hd := isScalar d
  have hn : c.toNat = d.toNat ∧ us = vs := by
    unfold unitsOf at h
    split at h <;> split at h <;> simp only [List.cons_append, List.nil_append, List.cons.injEq] at h
    · exact h
    · omega
    · omega
    · obtain ⟨hh, hl, ht⟩ := h
      exact ⟨by omega, ht⟩
  exact ⟨Char.toNat_inj.mp hn.1, hn.2⟩

theorem units_inj {cs ds : List Char} (h : units cs = units ds) : cs = ds := by
  induction cs generalizing ds with
  | nil =>
    cases ds with
    | nil => rfl
    | cons d ds => exact absurd (List.append_eq_nil_iff.mp h.symm).1 (unitsOf_ne_nil _)
  | cons c cs ih =>
    cases ds with
    | nil => exact absurd (List.append_eq_nil_iff.mp h).1 (unitsOf_ne_nil _)
    | cons d ds =>
      obtain ⟨rfl, ht⟩ := unitsOf_append_inj h
      rw [ih ht]

/-- Goes into a literal as it is, or with a backslash if it is a quote. -/
def isFaithful (c : Char) : Bool :=
  c != '\\' && c != '\n' && c != '\r'

def quoted (value : List Char) : List Char :=
  value.flatMap Text.escapeSingleQuoteChar

def written : List (List Char × List Char) → List Char
  | [] => ['\x7d', '\x7d']
  | e :: es => e.1 ++ (':' :: ' ' :: '\'' :: (quoted e.2 ++
      '\'' :: if es.isEmpty then ['\x7d', '\x7d'] else ',' :: ' ' :: written es))

def entryOf (e : List Char × List Char) : Entry :=
  (e.1, units e.2)

/-- The front of a text is read as `a`, and the rest of it is left. -/
def Reads {α : Type} {cs : List Char} (r : Reading α cs) (a : α) (rest : List Char) : Prop :=
  ∃ h, r = some (a, ⟨rest, h⟩)

theorem reads_end (rest : List Char) : Reads (literal? ('\'' :: rest)) [] rest :=
  ⟨List.suffix_cons _ _, by rw [literal?.eq_def]; rfl⟩

section Literals
variable {us : List Nat} {cs rest : List Char}

theorem reads_quote (h : Reads (literal? cs) us rest) :
    Reads (literal? ('\\' :: '\'' :: cs)) (unitsOf '\''.toNat ++ us) rest := by
  obtain ⟨hs, hr⟩ := h
  have he : escape? '\'' cs = some (unitsOf '\''.toNat, ⟨cs, List.suffix_rfl⟩) := rfl
  refine ⟨(hs.trans (List.suffix_cons _ _)).trans (List.suffix_cons _ _), ?_⟩
  rw [literal?.eq_def]
  simp only [he, Option.bind_eq_bind, Option.bind_some, hr]
  rfl

theorem reads_char {c : Char} (hq : c ≠ '\'') (hc : isFaithful c = true) (h : Reads (literal? cs) us rest) :
    Reads (literal? (c :: cs)) (unitsOf c.toNat ++ us) rest := by
  obtain ⟨hs, hr⟩ := h
  simp only [isFaithful, Bool.and_eq_true, bne_iff_ne] at hc
  have hb : (decide (c = '\n') || decide (c = '\r')) = false := by simp [hc.1.2, hc.2]
  refine ⟨hs.trans (List.suffix_cons _ _), ?_⟩
  rw [literal?.eq_def]
  simp only [if_neg hq, if_neg (Bool.eq_false_iff.mp hb), if_neg hc.1.1, Option.bind_eq_bind, Option.bind_some, hr]
  rfl

end Literals

theorem reads_literal {value : List Char} (h : ∀ c ∈ value, isFaithful c = true) (rest : List Char) :
    Reads (literal? (quoted value ++ '\'' :: rest)) (units value) rest := by
  induction value with
  | nil => exact reads_end rest
  | cons c value ih =>
    rw [List.forall_mem_cons] at h
    have hi := ih h.2
    by_cases hq : c = '\''
    · subst hq
      exact reads_quote hi
    · have he : quoted (c :: value) ++ '\'' :: rest = c :: (quoted value ++ '\'' :: rest) := by
        simp [quoted, Text.escapeSingleQuoteChar, hq]
      rw [he]
      exact reads_char hq h.1 hi

theorem skip_blank {c : Char} (h : Text.isBlank c = true) (cs : List Char) : skip (c :: cs) = skip cs :=
  List.dropWhile_cons_of_pos h

theorem skip_solid {c : Char} (h : Text.isBlank c = false) (cs : List Char) : skip (c :: cs) = c :: cs :=
  List.dropWhile_cons_of_neg (Bool.eq_false_iff.mp h)

theorem mark?_of_skip {c : Char} {cs rest : List Char} (h : skip cs = c :: rest) :
    ∃ hr, mark? c cs = some ⟨rest, hr⟩ := by
  have hs : startsWith c (skip cs) = true := by simp [startsWith, h]
  have ht : (skip cs).tail = rest := by rw [h, List.tail_cons]
  subst ht
  exact ⟨_, dif_pos hs⟩

theorem ends_of_other {d : Char} {cs rest : List Char} (h : skip cs = d :: rest) (hd : d ≠ '\x7d') : ends cs = false := by
  have hs : startsWith '\x7d' (skip cs) = false := by simp [startsWith, h, hd]
  simp [ends, mark?, hs]

/-- An identifier of letters. -/
structure IsName (key : List Char) : Prop where
  ne_nil : key ≠ []
  letters : ∀ c ∈ key, c.isAlpha = true

theorem toNat_of_isAlpha {c : Char} (h : c.isAlpha = true) : 65 ≤ c.toNat ∧ c.toNat ≤ 90 ∨ 97 ≤ c.toNat ∧ c.toNat ≤ 122 := by
  rcases Bool.or_eq_true_iff.mp h with h | h
  · exact .inl (of_decide_eq_true h)
  · obtain ⟨ha, hz⟩ := Bool.and_eq_true_iff.mp h
    exact .inr ⟨of_decide_eq_true ha, of_decide_eq_true hz⟩

theorem isBlank_of_isAlpha {c : Char} (h : c.isAlpha = true) : Text.isBlank c = false := by
  have hn := toNat_of_isAlpha h
  simp [Text.isBlank]
  omega

namespace IsName
variable {key : List Char}

theorem isKey (h : IsName key) : isKey key = true := by
  obtain ⟨c, cs, rfl⟩ := List.exists_cons_of_ne_nil h.ne_nil
  have hn := toNat_of_isAlpha (h.letters c List.mem_cons_self)
  have hd : c.isDigit = false := by
    simp only [Char.isDigit, Bool.and_eq_false_iff, decide_eq_false_iff_not, UInt32.le_iff_toNat_le, ge_iff_le]
    have ht : c.toNat = c.val.toNat := rfl
    have hz : '9'.val.toNat = 57 := rfl
    omega
  simp [Script.isKey, hd]

theorem isWordChar (h : IsName key) : ∀ c ∈ key, isWordChar c = true := by
  intro c hc
  simp [Script.isWordChar, Char.isAlphanum, h.letters c hc]

theorem takeWhile (h : IsName key) {c : Char} (hc : Script.isWordChar c = false) (rest : List Char) :
    (key ++ c :: rest).takeWhile Script.isWordChar = key := by
  rw [List.takeWhile_append_of_pos h.isWordChar, List.takeWhile_cons_of_neg (Bool.eq_false_iff.mp hc), List.append_nil]

theorem dropWhile (h : IsName key) {c : Char} (hc : Script.isWordChar c = false) (rest : List Char) :
    (key ++ c :: rest).dropWhile Script.isWordChar = c :: rest := by
  rw [List.dropWhile_append_of_pos h.isWordChar, List.dropWhile_cons_of_neg (Bool.eq_false_iff.mp hc)]

theorem skip_append (h : IsName key) (rest : List Char) : skip (key ++ rest) = key ++ rest := by
  obtain ⟨c, cs, rfl⟩ := List.exists_cons_of_ne_nil h.ne_nil
  exact skip_solid (isBlank_of_isAlpha (h.letters c List.mem_cons_self)) _

theorem ends_of_skip (h : IsName key) {cs rest : List Char} (hs : skip cs = key ++ rest) : ends cs = false := by
  obtain ⟨c, key, rfl⟩ := List.exists_cons_of_ne_nil h.ne_nil
  apply ends_of_other hs
  intro he
  have hc := h.letters c List.mem_cons_self
  rw [he] at hc
  cases hc

end IsName

theorem reads_pair {key value : List Char} (hk : IsName key) (hv : ∀ c ∈ value, isFaithful c = true) (rest : List Char) :
    Reads (pair? (key ++ ':' :: ' ' :: '\'' :: (quoted value ++ '\'' :: rest))) (key, units value) rest := by
  obtain ⟨hl, hr⟩ := reads_literal hv rest
  generalize he : quoted value ++ '\'' :: rest = text at hl hr ⊢
  have hw : isWordChar ':' = false := by decide
  have hc : skip ((key ++ ':' :: ' ' :: '\'' :: text).dropWhile isWordChar) = ':' :: ' ' :: '\'' :: text := by
    rw [hk.dropWhile hw]
    exact skip_solid (by decide) _
  have hq : skip (' ' :: '\'' :: text) = '\'' :: text := by
    rw [skip_blank (by decide)]
    exact skip_solid (by decide) _
  obtain ⟨hv, hm⟩ := mark?_of_skip hc
  obtain ⟨ht, hm'⟩ := mark?_of_skip hq
  have hs : rest <:+ key ++ ':' :: ' ' :: '\'' :: text :=
    hl.trans (ht.1.trans (hv.1.trans (List.dropWhile_suffix _)))
  refine ⟨hs, ?_⟩
  simp only [pair?, hm, hm', hr, hk.takeWhile hw, hk.isKey, Option.bind_eq_bind, Option.bind_some, if_true]

theorem skip_written {es : List (List Char × List Char)} (hk : ∀ e ∈ es, IsName e.1) : skip (written es) = written es := by
  cases es with
  | nil => rfl
  | cons e es => exact (hk e List.mem_cons_self).skip_append _

/-- What is written is read back, in front of it blanks or not. -/
theorem entries?_of_skip {es : List (List Char × List Char)} (hk : ∀ e ∈ es, IsName e.1)
    (hv : ∀ e ∈ es, ∀ c ∈ e.2, isFaithful c = true) {cs : List Char} (h : skip cs = written es) :
    entries? cs = some (es.map entryOf) := by
  induction es generalizing cs with
  | nil =>
    obtain ⟨hr, hm⟩ := mark?_of_skip h
    have he : ends cs = true := by
      simp only [ends, hm]
      rfl
    rw [entries?, if_pos he]
    rfl
  | cons e es ih =>
    have hkt := (List.forall_mem_cons.mp hk).2
    rw [List.forall_mem_cons] at hk hv
    have hn := hk.1.ends_of_skip h
    have he := reads_pair hk.1 hv.1 (if es.isEmpty then ['\x7d', '\x7d'] else ',' :: ' ' :: written es)
    rw [written] at h
    rw [← h] at he
    generalize hb : (if es.isEmpty then ['\x7d', '\x7d'] else ',' :: ' ' :: written es) = behind at he
    obtain ⟨hs, he⟩ := he
    rw [entries?, if_neg (Bool.eq_false_iff.mp hn)]
    simp only [he, Option.bind_eq_bind, Option.bind_some]
    cases es with
    | nil =>
      subst hb
      rfl
    | cons e' es =>
      obtain rfl : ',' :: ' ' :: written (e' :: es) = behind := hb
      have hm : skip (',' :: ' ' :: written (e' :: es)) = ',' :: ' ' :: written (e' :: es) := skip_solid (by decide) _
      have hf : ends (',' :: ' ' :: written (e' :: es)) = false := ends_of_other hm (by decide)
      obtain ⟨hr, hm⟩ := mark?_of_skip hm
      have hw : skip (' ' :: written (e' :: es)) = written (e' :: es) := by
        rw [skip_blank (by decide), skip_written hkt]
      rw [hf, hm]
      simp only [Bool.false_eq_true, if_false, Option.bind_some, ih hkt hv.2 hw]
      rfl

end SceneCode.Script
