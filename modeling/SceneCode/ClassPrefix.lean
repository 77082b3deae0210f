import SceneCode.Text.Blank

/-! A mark in front of every class of finished markup. The markup is taken as text: only what reads as a class
attribute is changed. -/
namespace SceneCode.ClassPrefix
open Text (isBlank)

/-- A negative utility keeps its minus in front. -/
def markClass (mark : List Char) : List Char → List Char
  | '-' :: rest => '-' :: mark ++ rest
  | word => mark ++ word

def markValue (mark value : List Char) : List Char :=
  Text.join [' '] ((Text.unblanked value).map (markClass mark))

/-- How the value of a class attribute is opened. -/
def openings : List (List Char) :=
  ["className=\"".toList, "class=\"".toList]

/-- A class attribute in front of a text. -/
structure Attribute where
  opening : List Char
  value : List Char
  /-- What follows the closing quote. -/
  rest : List Char

def opened? (opening cs : List Char) : Option Attribute := do
  let behind ← opening.isPrefixOf? cs
  match behind.dropWhile (· != '"') with
  | [] => none
  | _ :: rest => return ⟨opening, behind.takeWhile (· != '"'), rest⟩

def attribute? (cs : List Char) : Option Attribute :=
  openings.findSome? (opened? · cs)

theorem length_of_isPrefixOf? {front cs behind : List Char} (h : front.isPrefixOf? cs = some behind) :
    behind.length ≤ cs.length := by
  induction front generalizing cs with
  | nil =>
    obtain rfl : cs = behind := Option.some.inj h
    exact Nat.le_refl _
  | cons c front ih =>
    cases cs with
    | nil => cases h
    | cons d cs =>
      have h : (if c == d then front.isPrefixOf? cs else none) = some behind := h
      split at h
      · exact Nat.le_succ_of_le (ih h)
      · cases h

theorem opened?_shorter {opening cs : List Char} {a : Attribute} (h : opened? opening cs = some a) :
    a.rest.length < cs.length := by
  simp only [opened?, bind, Option.bind_eq_some_iff] at h
  obtain ⟨behind, hb, h⟩ := h
  have hl := (List.dropWhile_sublist (· != '"') (l := behind)).length_le
  have := length_of_isPrefixOf? hb
  split at h
  · simp at h
  · rename_i rest hd
    rw [hd, List.length_cons] at hl
    simp only [pure, Option.some.injEq] at h
    subst h
    simp only
    omega

theorem attribute?_shorter {cs : List Char} {a : Attribute} (h : attribute? cs = some a) :
    a.rest.length < cs.length := by
  obtain ⟨_, _, h⟩ := List.exists_of_findSome?_eq_some h
  exact opened?_shorter h

/-- Attributes start behind white space, or where the text starts. -/
def markFrom (mark : List Char) (mayStart : Bool) (cs : List Char) : List Char :=
  match cs with
  | [] => []
  | c :: rest =>
    match _h : if mayStart then attribute? (c :: rest) else none with
    | some a => a.opening ++ markValue mark a.value ++ '"' :: markFrom mark false a.rest
    | none => c :: markFrom mark (isBlank c) rest
termination_by cs.length
decreasing_by
  · split at _h
    · exact attribute?_shorter _h
    · simp at _h
  · simp

/-- A blank mark changes nothing. -/
def apply (mark code : String) : String :=
  match Text.trim mark.toList with
  | [] => code
  | mark => String.ofList (markFrom mark true code.toList)

end SceneCode.ClassPrefix
