import SceneCode.Json.Lexeme

namespace SceneCode.Json

/-- A number whose first character has been seen to be a digit or a minus sign. -/
def numberFrom (care : Care) (cs : List Char) : Step Json cs :=
  match cs with
  | '-' :: cs => do
    let (n, ⟨rest, h⟩) ← numeral care cs
    return (← n.value care true, ⟨rest, Nat.lt_succ_of_lt h⟩)
  | cs => do
    let (n, rest) ← numeral care cs
    return (← n.value care false, rest)

/-- A value that opens no bracket, by its first character. -/
def scalar (care : Care) (c : Char) (rest : List Char) : Step Json (c :: rest) :=
  let literal (expected : List Char) (json : Json) : Step Json (c :: rest) := do
    let ⟨rest', h⟩ ← word expected rest
    return (json, ⟨rest', by simp only [List.length_cons]; omega⟩)
  match c with
  | 'n' => literal ['u', 'l', 'l'] .null
  | 't' => literal ['r', 'u', 'e'] (.bool true)
  | 'f' => literal ['a', 'l', 's', 'e'] (.bool false)
  | '"' => do
    let (s, ⟨rest', h⟩) ← stringFrom care [] rest
    return (.string s, ⟨rest', by simp only [List.length_cons]; omega⟩)
  | c => if c = '-' || isDigit c then numberFrom care (c :: rest)
    else .error .malformed

mutual
/-- A value with at most `depth` brackets inside one another. -/
def value (care : Care) (depth : Nat) (cs : List Char) : Step Json cs :=
  match h : skipSpace cs with
  | [] => .error .truncated
  | '[' :: rest =>
    match depth with
    | 0 => .error .malformed
    | depth + 1 =>
      have := length_lt_of_skipSpace h
      do
        let (items, ⟨tail, ht⟩) ← items care depth rest
        return (.array items, ⟨tail, by omega⟩)
  | '\x7b' :: rest =>
    match depth with
    | 0 => .error .malformed
    | depth + 1 =>
      have := length_lt_of_skipSpace h
      do
        let (fields, ⟨tail, ht⟩) ← fields care depth rest
        return (.object fields, ⟨tail, by omega⟩)
  | c :: rest => do
    let (json, ⟨tail, ht⟩) ← scalar care c rest
    return (json, ⟨tail, by
      have := skipSpace_length cs
      rw [h] at this
      omega⟩)
termination_by (cs.length, 0)

/-- The items of an array behind its bracket. -/
def items (care : Care) (depth : Nat) (cs : List Char) : Step (List Json) cs :=
  match h : skipSpace cs with
  | ']' :: rest => .ok ([], ⟨rest, length_lt_of_skipSpace h⟩)
  | _ => item care depth cs
termination_by (cs.length, 2)

/-- One item and those that follow. -/
def item (care : Care) (depth : Nat) (cs : List Char) : Step (List Json) cs := do
  let (json, ⟨rest, h⟩) ← value care depth cs
  match h' : skipSpace rest with
  | [] => .error .truncated
  | ']' :: rest' => return ([json], ⟨rest', by have := length_lt_of_skipSpace h'; omega⟩)
  | ',' :: rest' =>
    have := length_lt_of_skipSpace h'
    let (jsons, ⟨tail, ht⟩) ← item care depth rest'
    return (json :: jsons, ⟨tail, by omega⟩)
  | _ => .error .malformed
termination_by (cs.length, 1)

/-- The fields of an object behind its bracket. -/
def fields (care : Care) (depth : Nat) (cs : List Char) : Step (List (String × Json)) cs :=
  match h : skipSpace cs with
  | '\x7d' :: rest => .ok ([], ⟨rest, length_lt_of_skipSpace h⟩)
  | _ => field care depth [] cs
termination_by (cs.length, 2)

/-- One field and those that follow; `done` are the fields before it. -/
def field (care : Care) (depth : Nat) (done : List (String × Json)) (cs : List Char) :
    Step (List (String × Json)) cs :=
  match h : skipSpace cs with
  | [] => .error .truncated
  | '"' :: rest =>
    have := length_lt_of_skipSpace h
    do
      let (key, ⟨rest₁, h₁⟩) ← stringFrom care [] rest
      match h₂ : skipSpace rest₁ with
      | [] => .error .truncated
      | ':' :: rest₂ =>
        have := length_lt_of_skipSpace h₂
        let (json, ⟨rest₃, h₃⟩) ← value care depth rest₂
        let done := insertField key json done
        match h₄ : skipSpace rest₃ with
        | [] => .error .truncated
        | '\x7d' :: rest₄ => return (done, ⟨rest₄, by have := length_lt_of_skipSpace h₄; omega⟩)
        | ',' :: rest₄ =>
          have := length_lt_of_skipSpace h₄
          let (fields, ⟨tail, ht⟩) ← field care depth done rest₄
          return (fields, ⟨tail, by omega⟩)
        | _ => .error .malformed
      | _ => .error .malformed
  | _ => .error .malformed
termination_by (cs.length, 0)
end

/-- Nothing but blanks may follow the value of a text. -/
def finish (rest : List Char) : Except Fault Unit :=
  if (skipSpace rest).isEmpty then .ok () else .error .malformed

def ofText? (depth : Nat) (text : String) : Except Fault Json := do
  let (json, ⟨rest, _⟩) ← value .exact depth text.toList
  finish rest
  return json

end SceneCode.Json
