import SceneCode.Json.Value

namespace SceneCode.Json
open Number (digits)

/-- Values that are kept are read exactly. Values that are passed over need only look like values: numbers of any
size and unpaired surrogates will do. -/
inductive Care where
  | exact
  | passing
deriving DecidableEq

/-- A reading of the front of a text, which leaves less of it. -/
abbrev Step (α : Type) (cs : List Char) :=
  Except Fault (α × { rest : List Char // rest.length < cs.length })

def isSpace (c : Char) : Bool :=
  c = ' ' || c = '\n' || c = '\t' || c = '\r'

def skipSpace (cs : List Char) : List Char :=
  cs.dropWhile isSpace

theorem skipSpace_length (cs : List Char) : (skipSpace cs).length ≤ cs.length :=
  (List.dropWhile_sublist _).length_le

theorem length_lt_of_skipSpace {cs rest : List Char} {c : Char} (h : skipSpace cs = c :: rest) :
    rest.length < cs.length := by
  have := skipSpace_length cs
  rw [h, List.length_cons] at this
  omega

/-- The rest of a word whose first letter has been seen. -/
def word : (expected cs : List Char) → Except Fault { rest : List Char // rest.length ≤ cs.length }
  | [], cs => .ok ⟨cs, Nat.le_refl _⟩
  | _ :: _, [] => .error .truncated
  | e :: expected, c :: cs =>
    if c = e then do
      let ⟨rest, h⟩ ← word expected cs
      return ⟨rest, Nat.le_succ_of_le h⟩
    else .error .malformed

def isDigit (c : Char) : Bool :=
  '0' ≤ c && c ≤ '9'

def natural (ds : List Char) : Nat :=
  ds.foldl (fun n d => n * 10 + (d.toNat - '0'.toNat)) 0

/-- The digits in front of a text, and what follows them. -/
def spanDigits (cs : List Char) : List Char × List Char :=
  (cs.takeWhile isDigit, cs.dropWhile isDigit)

/-- `mantissa * 10 ^ exponent` as a double, or nothing beyond the largest one. Where so many digits settle it, no
power is computed. -/
def scaled? (negative : Bool) (mantissa : Nat) (exponent : Int) : Option Float :=
  let size : Int := (digits mantissa).length + exponent
  let magnitude : Option Float :=
    if mantissa = 0 ∨ size < -400 then some 0
    else if 400 < size then none
    else
      let x := Float.ofScientific mantissa (decide (exponent < 0)) exponent.natAbs
      if x.isFinite then some x else none
  magnitude.map fun x => if negative then -x else x

/-- The parts of a number as they are written. -/
structure Numeral where
  whole : List Char
  fraction : Option (List Char)
  exponent : Option (Bool × List Char)

/-- What is said of a number that stops short: the text ended, or it goes on with something else. -/
def Care.stopped (care : Care) (rest : List Char) : Fault :=
  if rest.isEmpty ∧ care = .exact then .truncated else .malformed

theorem spanDigits_length (cs : List Char) : (spanDigits cs).2.length ≤ cs.length :=
  (List.dropWhile_sublist _).length_le

def wholePart (care : Care) (cs : List Char) : Step (List Char) cs :=
  match cs with
  | '0' :: rest =>
    if (spanDigits rest).1.isEmpty then .ok (['0'], ⟨rest, by simp⟩) else .error .malformed
  | c :: rest =>
    if isDigit c then
      let span := spanDigits rest
      .ok (c :: span.1, ⟨span.2, Nat.lt_succ_of_le (spanDigits_length rest)⟩)
    else .error .malformed
  | [] => .error (care.stopped [])

/-- A reading that may take nothing of the text. -/
abbrev Suffix (α : Type) (cs : List Char) :=
  Except Fault (α × { rest : List Char // rest.length ≤ cs.length })

def fractionPart (care : Care) (cs : List Char) : Suffix (Option (List Char)) cs :=
  match cs with
  | '.' :: cs =>
    let span := spanDigits cs
    if span.1.isEmpty then .error (care.stopped span.2)
    else .ok (some span.1, ⟨span.2, Nat.le_succ_of_le (spanDigits_length cs)⟩)
  | cs => .ok (none, ⟨cs, Nat.le_refl _⟩)

/-- The sign of an exponent, if it has one. -/
def signPart (cs : List Char) : Bool × { rest : List Char // rest.length ≤ cs.length } :=
  match cs with
  | '+' :: cs => (false, ⟨cs, by simp⟩)
  | '-' :: cs => (true, ⟨cs, by simp⟩)
  | cs => (false, ⟨cs, Nat.le_refl _⟩)

def exponentPart (care : Care) (cs : List Char) : Suffix (Option (Bool × List Char)) cs :=
  match cs with
  | c :: cs =>
    if c = 'e' || c = 'E' then
      let (negative, ⟨rest, h⟩) := signPart cs
      let span := spanDigits rest
      if span.1.isEmpty then .error (care.stopped span.2)
      else .ok (some (negative, span.1),
        ⟨span.2, Nat.le_succ_of_le (Nat.le_trans (spanDigits_length rest) h)⟩)
    else .ok (none, ⟨c :: cs, Nat.le_refl _⟩)
  | [] => .ok (none, ⟨[], Nat.le_refl _⟩)

/-- The number behind an optional minus sign. -/
def numeral (care : Care) (cs : List Char) : Step Numeral cs := do
  let (whole, ⟨rest, h⟩) ← wholePart care cs
  let (fraction, ⟨rest, h'⟩) ← fractionPart care rest
  let (exponent, ⟨rest, h''⟩) ← exponentPart care rest
  return (⟨whole, fraction, exponent⟩, ⟨rest, by omega⟩)

def Numeral.integer? (n : Numeral) (negative : Bool) : Option Int :=
  if n.fraction.isNone ∧ n.exponent.isNone then
    let magnitude := natural n.whole
    if negative then
      if 0 < magnitude ∧ magnitude ≤ Nat.pow 2 63 then some (-(magnitude : Int)) else none
    else if magnitude < Nat.pow 2 64 then some magnitude else none
  else none

def Numeral.real? (n : Numeral) (negative : Bool) : Option Float :=
  let fraction := n.fraction.getD []
  let exponent : Int := match n.exponent with
    | some (true, ds) => -(natural ds : Int)
    | some (false, ds) => natural ds
    | none => 0
  scaled? negative (natural (n.whole ++ fraction)) (exponent - fraction.length)

def Numeral.value (n : Numeral) (care : Care) (negative : Bool) : Except Fault Json :=
  match n.integer? negative, n.real? negative with
  | some i, _ => .ok (.integer i)
  | none, some x => .ok (.real x)
  | none, none => if care = .passing then .ok .null else .error .malformed

def hexValue? (c : Char) : Option Nat :=
  if '0' ≤ c ∧ c ≤ '9' then some (c.toNat - '0'.toNat)
  else if 'a' ≤ c ∧ c ≤ 'f' then some (c.toNat - 'a'.toNat + 10)
  else if 'A' ≤ c ∧ c ≤ 'F' then some (c.toNat - 'A'.toNat + 10)
  else none

/-- Four hexadecimal digits. A text with fewer than four bytes left has ended too early, whatever they are. -/
def hexQuad (cs : List Char) : Step Nat cs :=
  match cs with
  | a :: b :: c :: d :: rest =>
    match hexValue? a, hexValue? b, hexValue? c, hexValue? d with
    | some a, some b, some c, some d =>
      .ok (((a * 16 + b) * 16 + c) * 16 + d, ⟨rest, by simp only [List.length_cons]; omega⟩)
    | _, _, _, _ => .error .malformed
  | cs => .error (if cs.foldl (fun n c => n + c.utf8Size) 0 < 4 then .truncated else .malformed)

def isHighSurrogate (n : Nat) : Bool := 0xD800 ≤ n && n < 0xDC00

def isLowSurrogate (n : Nat) : Bool := 0xDC00 ≤ n && n < 0xE000

/-- The character behind `\u`: one quad, or a pair of surrogates. -/
def unicodeEscape (care : Care) (cs : List Char) : Step Char cs := do
  let (high, ⟨rest, h⟩) ← hexQuad cs
  if care = .passing then return (Char.ofNat high, ⟨rest, h⟩)
  else if isLowSurrogate high then .error .malformed
  else if isHighSurrogate high then
    match rest, h with
    | [], _ | ['\\'], _ => .error .truncated
    | '\\' :: 'u' :: rest, h =>
      let (low, ⟨rest', h'⟩) ← hexQuad rest
      if isLowSurrogate low then
        return (Char.ofNat (0x10000 + (high - 0xD800) * 0x400 + (low - 0xDC00)),
          ⟨rest', by simp only [List.length_cons] at h; omega⟩)
      else .error .malformed
    | _, _ => .error .malformed
  else return (Char.ofNat high, ⟨rest, h⟩)

/-- The character behind a backslash. -/
def escape (care : Care) (cs : List Char) : Step Char cs :=
  match cs with
  | [] => .error .truncated
  | c :: rest =>
    let plain (c : Char) : Step Char (c :: rest) := .ok (c, ⟨rest, by simp⟩)
    match c with
    | '"' => plain '"'
    | '\\' => plain '\\'
    | '/' => plain '/'
    | 'b' => plain '\x08'
    | 'f' => plain '\x0c'
    | 'n' => plain '\n'
    | 'r' => plain '\r'
    | 't' => plain '\t'
    | 'u' => do
      let (c, ⟨rest', h⟩) ← unicodeEscape care rest
      return (c, ⟨rest', by simp only [List.length_cons]; omega⟩)
    | _ => .error .malformed

/-- The rest of a string whose opening quote has been seen; `front` is what was read of it, backwards. -/
def stringFrom (care : Care) (front : List Char) (cs : List Char) : Step String cs :=
  match cs with
  | [] => .error .truncated
  | c :: rest =>
    if c = '"' then .ok (String.ofList front.reverse, ⟨rest, by simp⟩)
    else if c = '\\' then do
      let (e, ⟨rest', h⟩) ← escape care rest
      let (s, ⟨rest'', h'⟩) ← stringFrom care (e :: front) rest'
      return (s, ⟨rest'', by simp only [List.length_cons]; omega⟩)
    else if c.toNat < 0x20 then .error .malformed
    else do
      let (s, ⟨rest', h⟩) ← stringFrom care (c :: front) rest
      return (s, ⟨rest', by simp only [List.length_cons]; omega⟩)
termination_by cs.length
decreasing_by all_goals simp only [List.length_cons]; omega

end SceneCode.Json
