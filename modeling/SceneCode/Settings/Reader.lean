import SceneCode.Json.Reader
import SceneCode.Settings.Basic

/-! Settings are typed while their text is read. The first fault in the order of the text counts, whatever it is. -/
namespace SceneCode.Settings
open Json

abbrev Reader (α : Type) := (cs : List Char) → Step α cs

section Lengths
variable {cs rest rest₁ : List Char}

theorem length_lt_trans (h : rest.length < cs.length) (h₁ : rest₁.length < rest.length) : rest₁.length < cs.length :=
  Nat.lt_trans h₁ h

theorem length_lt_of_quote (h : skipSpace cs = '"' :: rest) : rest.length < cs.length :=
  length_lt_of_skipSpace h

theorem length_lt_of_comma (h : skipSpace cs = ',' :: rest) : rest.length < cs.length :=
  length_lt_of_skipSpace h

theorem length_lt_of_brace (h : skipSpace cs = '\x7d' :: rest) : rest.length < cs.length :=
  length_lt_of_skipSpace h

end Lengths

namespace Reader
variable {α β : Type}

/-- One reading and a second one that goes on where it ended. -/
def andThen (first : Reader α) (second : α → Reader β) : Reader β := fun cs => do
  let (a, ⟨rest, h⟩) ← first cs
  let (b, ⟨rest', h'⟩) ← second a rest
  return (b, ⟨rest', length_lt_trans h h'⟩)

/-- A reading of what is not of the type that is wanted is refused once it is done. -/
def typed (reader : Reader α) (convert : α → Option β) : Reader β := fun cs => do
  let (a, rest) ← reader cs
  match convert a with
  | some b => return (b, rest)
  | none => .error .mistyped

def mark (c : Char) : Reader Unit := fun cs =>
  match h : skipSpace cs with
  | [] => .error .truncated
  | d :: rest => if d = c then .ok ((), ⟨rest, length_lt_of_skipSpace h⟩) else .error .malformed

/-- A value that opens no bracket. A bracket is not looked into. -/
def leaf : Reader Json := fun cs =>
  match h : skipSpace cs with
  | [] => .error .truncated
  | '[' :: _ | '\x7b' :: _ => .error .mistyped
  | c :: rest => do
    let (json, ⟨tail, ht⟩) ← scalar .exact c rest
    return (json, ⟨tail, Nat.lt_of_lt_of_le (h ▸ ht) (skipSpace_length cs)⟩)

def flag : Reader Bool :=
  leaf.typed fun
    | .bool b => some b
    | _ => none

def text : Reader String :=
  leaf.typed fun
    | .string s => some s
    | _ => none

def optionalText : Reader (Option String) :=
  leaf.typed fun
    | .null => some none
    | .string s => some (some s)
    | _ => none

def null : Reader Unit :=
  leaf.typed fun
    | .null => some ()
    | _ => none

/-- One of the names, as a string or as the only key of an object with a null. -/
def choice (names : List (String × α)) : Reader α := fun cs =>
  let name : Reader α := fun cs =>
    match skipSpace cs with
    | [] => .error .truncated
    | '"' :: _ => (text.typed fun s => names.lookup s) cs
    | _ => .error .malformed
  match skipSpace cs with
  | [] => .error .truncated
  | '"' :: _ => name cs
  | '\x7b' :: _ =>
    (mark '\x7b').andThen (fun _ => name.andThen fun a =>
      (mark ':').andThen fun _ => null.andThen fun _ => (mark '\x7d').typed fun _ => some a) cs
  | _ => .error .malformed

/-- Any value, however deep. -/
def anything : Reader Unit := fun cs => do
  let (_, rest) ← value .passing cs.length cs
  return ((), rest)

end Reader

/-- How a setting changes all of them once its value is read. -/
def slot {α : Type} (reader : Reader α) (put : Settings → α → Settings) : Reader (Settings → Settings) :=
  reader.typed fun a => some (put · a)

/-- The settings in their order, each with its name. -/
def slots : List (String × Reader (Settings → Settings)) := [
  ("framework", slot (.choice (Framework.all.map fun f => (f.name, f))) fun s v => { s with framework := v }),
  ("jsx", slot .flag fun s v => { s with jsx := v }),
  ("optimizeLayout", slot .flag fun s v => { s with optimizeLayout := v }),
  ("showLayerNames", slot .flag fun s v => { s with showLayerNames := v }),
  ("roundTailwindValues", slot .flag fun s v => { s with roundTailwindValues := v }),
  ("roundTailwindColors", slot .flag fun s v => { s with roundTailwindColors := v }),
  ("customTailwindPrefix", slot .optionalText fun s v => { s with customTailwindPrefix := v }),
  ("flutterGenerationMode",
    slot (.choice (FlutterMode.all.map fun m => (m.name, m))) fun s v => { s with flutterMode := v }),
  ("swiftUIGenerationMode",
    slot (.choice (SwiftUIMode.all.map fun m => (m.name, m))) fun s v => { s with swiftUIMode := v })]

/-- Settings in their order behind a bracket. The last ones may be left out. -/
def listed (first : Bool) (s : Settings) : List (Reader (Settings → Settings)) → Reader Settings
  | [], cs => ((Reader.mark ']').typed fun _ => some s) cs
  | reader :: readers, cs =>
    match h : skipSpace cs with
    | ']' :: rest => .ok (s, ⟨rest, length_lt_of_skipSpace h⟩)
    | _ =>
      let next := reader.andThen fun change => listed false (change s) readers
      if first then next cs else ((Reader.mark ',').andThen fun _ => next) cs

/-- The value behind a key that has been read. A setting may be given only once, other keys do not matter. -/
def keyed (seen : List String) (s : Settings) (key : String) : Reader Settings :=
  match slots.lookup key with
  | none => (Reader.mark ':').andThen fun _ => Reader.anything.typed fun _ => some s
  | some reader =>
    if seen.contains key then fun _ => .error .mistyped
    else (Reader.mark ':').andThen fun _ => reader.typed fun change => some (change s)

/-- One key with its value and those that follow. -/
def field (seen : List String) (s : Settings) (cs : List Char) : Step Settings cs :=
  match h : skipSpace cs with
  | [] => .error .truncated
  | '"' :: rest => do
    let (key, ⟨rest₁, h₁⟩) ← stringFrom .exact [] rest
    let (s, ⟨rest₂, h₂⟩) ← keyed seen s key rest₁
    have h := length_lt_trans (length_lt_trans (length_lt_of_quote h) h₁) h₂
    match h₃ : skipSpace rest₂ with
    | [] => .error .truncated
    | '\x7d' :: rest₃ => return (s, ⟨rest₃, length_lt_trans h (length_lt_of_brace h₃)⟩)
    | ',' :: rest₃ =>
      have h := length_lt_trans h (length_lt_of_comma h₃)
      let (s, ⟨tail, ht⟩) ← field (key :: seen) s rest₃
      return (s, ⟨tail, length_lt_trans h ht⟩)
    | _ => .error .malformed
  | _ => .error .malformed
termination_by cs.length

def fields : Reader Settings := fun cs =>
  match h : skipSpace cs with
  | '\x7d' :: rest => .ok ({}, ⟨rest, length_lt_of_brace h⟩)
  | _ => field [] {} cs

/-- What is not said keeps its default. -/
def document : Reader Settings := fun cs =>
  match skipSpace cs with
  | '[' :: _ => (Reader.mark '[').andThen (fun _ => listed true {} (slots.map (·.2))) cs
  | '\x7b' :: _ => (Reader.mark '\x7b').andThen (fun _ => fields) cs
  | _ => (Reader.leaf.typed fun _ => none) cs

def ofText? (text : String) : Except Fault Settings := do
  let (s, ⟨rest, _⟩) ← document text.toList
  finish rest
  return s

end SceneCode.Settings
