import SceneCode.Proofs.Markup.Content

namespace SceneCode

/-- A text that is being erased: what stays, and what has gone. -/
structure Erasure (Mode : Type) where
  mode : Mode
  kept : List Char := []
  notes : List (List Char) := []

/-- Wherever it is read from, this much of the text stays and this is what goes. -/
def Erases {Mode : Type} (step : Erasure Mode → Char → Erasure Mode) (mode : Mode) (cs ds : List Char)
    (notes : List (List Char)) : Prop :=
  ∀ kept before, cs.foldl step ⟨mode, kept, before⟩ = ⟨mode, kept ++ ds, before ++ notes⟩

namespace Erases
variable {Mode : Type} {step : Erasure Mode → Char → Erasure Mode} {mode : Mode}

theorem nil : Erases step mode [] [] [] := fun kept before => by
  simp

theorem append {cs cs' ds ds' : List Char} {ns ns' : List (List Char)} (h : Erases step mode cs ds ns)
    (h' : Erases step mode cs' ds' ns') : Erases step mode (cs ++ cs') (ds ++ ds') (ns ++ ns') := fun kept before => by
  rw [List.foldl_append, h, h', List.append_assoc, List.append_assoc]

end Erases

namespace Comments
open Text (indentBy indentChars)

inductive Mode where
  | code
  /-- In the white space at the start of a line. -/
  | start (held : List Char)
  /-- Behind a slash that comes first in its line. -/
  | slash (held : List Char)
  | comment (note : List Char)

/-- Where a comment ends. -/
def isLineEnd (c : Char) : Bool :=
  c = '\n' || c = '\r'

/-- A comment may say it. -/
def FitsLine (name : String) : Prop :=
  ∀ c ∈ name.toList, isLineEnd c = false

instance (name : String) : Decidable (FitsLine name) := inferInstanceAs (Decidable (∀ _ ∈ _, _))

/-- The note of a comment stands behind a space. -/
def step (e : Erasure Mode) (c : Char) : Erasure Mode :=
  match e.mode with
  | .code => if c = '\n' then { e with mode := .start [c] } else { e with kept := e.kept ++ [c] }
  | .start held =>
    if c = ' ' then { e with mode := .start (held ++ [c]) }
    else if c = '/' then { e with mode := .slash held }
    else if c = '\n' then { e with mode := .start [c], kept := e.kept ++ held }
    else { e with mode := .code, kept := e.kept ++ held ++ [c] }
  | .slash held =>
    if c = '/' then { e with mode := .comment [] }
    else if c = '\n' then { e with mode := .start [c], kept := e.kept ++ held ++ ['/'] }
    else { e with mode := .code, kept := e.kept ++ held ++ ['/', c] }
  | .comment note =>
    if isLineEnd c then { e with mode := .start [c], notes := e.notes ++ [note.drop 1] }
    else { e with mode := .comment (note ++ [c]) }

/-- At the end of the text. -/
def finish (e : Erasure Mode) : Erasure Mode :=
  match e.mode with
  | .code => e
  | .start held => { e with mode := .code, kept := e.kept ++ held }
  | .slash held => { e with mode := .code, kept := e.kept ++ held ++ ['/'] }
  | .comment note => { e with mode := .code, notes := e.notes ++ [note.drop 1] }

/-- Code is read from a line break on, which is no part of it. -/
def run (code : String) : Erasure Mode :=
  finish (('\n' :: code.toList).foldl step ⟨.code, [], []⟩)

/-- Code without its comments. -/
def erase (code : String) : String :=
  String.ofList ((run code).kept.drop 1)

/-- What the comments of code say, in order. -/
def notes (code : String) : List String :=
  (run code).notes.map String.ofList

def Within (e : Erasure Mode) : Prop :=
  (∀ note ∈ e.notes, ∀ c ∈ note, isLineEnd c = false) ∧
    ∀ note, e.mode = .comment note → ∀ c ∈ note, isLineEnd c = false

theorem within_step {e : Erasure Mode} (h : Within e) (c : Char) : Within (step e c) := by
  obtain ⟨mode, kept, notes⟩ := e
  obtain ⟨hn, hm⟩ := h
  cases mode with
  | code =>
    simp only [step]
    split <;> exact ⟨hn, nofun⟩
  | start held =>
    simp only [step]
    split_ifs <;> exact ⟨hn, nofun⟩
  | slash held =>
    simp only [step]
    split_ifs
    · exact ⟨hn, fun note he d hd => absurd (Mode.comment.inj he ▸ hd) List.not_mem_nil⟩
    · exact ⟨hn, nofun⟩
    · exact ⟨hn, nofun⟩
  | comment note =>
    have hnote := hm note rfl
    simp only [step]
    split
    · refine ⟨List.forall_mem_append.mpr ⟨hn, List.forall_mem_singleton.mpr fun d hd => ?_⟩, nofun⟩
      exact hnote d (List.mem_of_mem_drop hd)
    · rename_i hc
      refine ⟨hn, fun note' he d hd => ?_⟩
      obtain rfl := Mode.comment.inj he
      rcases List.mem_append.mp hd with hd | hd
      · exact hnote d hd
      · rw [List.mem_singleton.mp hd]
        exact Bool.eq_false_iff.mpr hc

theorem within_foldl {e : Erasure Mode} (h : Within e) (cs : List Char) : Within (cs.foldl step e) := by
  induction cs generalizing e with
  | nil => exact h
  | cons c cs ih => exact ih (within_step h c)

theorem within_finish {e : Erasure Mode} (h : Within e) : ∀ note ∈ (finish e).notes, ∀ c ∈ note, isLineEnd c = false := by
  unfold finish
  cases hmode : e.mode with
  | comment note =>
    refine List.forall_mem_append.mpr ⟨h.1, List.forall_mem_singleton.mpr fun d hd => ?_⟩
    exact h.2 note hmode d (List.mem_of_mem_drop hd)
  | _ => exact h.1

theorem fitsLine_of_mem_notes {code note : String} (h : note ∈ notes code) : FitsLine note := by
  have hs : Within ⟨.code, [], []⟩ := ⟨nofun, nofun⟩
  obtain ⟨cs, hm, rfl⟩ := List.mem_map.mp h
  rw [FitsLine, String.toList_ofList]
  exact within_finish (within_foldl hs _) cs hm

/-- Indented to any depth, the first fragment without its comments is the second. -/
def Clears (cs ds : List Char) (names : List String) : Prop :=
  ∀ depth, Erases step .code (indentBy depth cs) (indentBy depth ds) (names.map String.toList)

/-- Neither blank nor a slash nor the end of a line. -/
def isSolid (c : Char) : Bool :=
  c != ' ' && c != '/' && c != '\n'

/-- Starts with a character that no comment starts with. -/
def Solid : List Char → Prop
  | [] => False
  | c :: _ => isSolid c = true

instance : (cs : List Char) → Decidable (Solid cs)
  | [] => inferInstanceAs (Decidable False)
  | c :: _ => inferInstanceAs (Decidable (isSolid c = true))

theorem Solid.append {cs : List Char} (h : Solid cs) (ds : List Char) : Solid (cs ++ ds) := by
  cases cs with
  | nil => exact h.elim
  | cons c cs => exact h

/-- At the start of a line, code is kept together with what has been held. -/
theorem foldl_start {depth : Nat} {cs : List Char} (h : Solid cs) (held kept : List Char) (before : List (List Char)) :
    (indentBy depth cs).foldl step ⟨.start held, kept, before⟩ =
      (indentBy depth cs).foldl step ⟨.code, kept ++ held, before⟩ := by
  cases cs with
  | nil => exact h.elim
  | cons c cs =>
    simp only [Solid, isSolid, Bool.and_eq_true, bne_iff_ne] at h
    rw [Text.indentBy_cons depth h.2, List.foldl_cons, List.foldl_cons]
    simp [step, h.1.1, h.1.2, h.2]

theorem foldl_spaces (n : Nat) (held kept : List Char) (before : List (List Char)) :
    (List.replicate n ' ').foldl step ⟨.start held, kept, before⟩ =
      ⟨.start (held ++ List.replicate n ' '), kept, before⟩ := by
  induction n generalizing held with
  | zero => simp
  | succ n ih =>
    have hs : step ⟨.start held, kept, before⟩ ' ' = ⟨.start (held ++ [' ']), kept, before⟩ := by simp [step]
    rw [List.replicate_succ, List.foldl_cons, hs, ih, List.append_assoc]
    rfl

theorem foldl_comment {name : List Char} (h : ∀ c ∈ name, isLineEnd c = false) (note kept : List Char)
    (before : List (List Char)) :
    name.foldl step ⟨.comment note, kept, before⟩ = ⟨.comment (note ++ name), kept, before⟩ := by
  induction name generalizing note with
  | nil => simp
  | cons c cs ih =>
    have hs : step ⟨.comment note, kept, before⟩ c = ⟨.comment (note ++ [c]), kept, before⟩ := by
      simp [step, h c List.mem_cons_self]
    rw [List.foldl_cons, hs, ih fun d hd => h d (List.mem_cons_of_mem _ hd), List.append_assoc]
    rfl

namespace Clears

theorem nil : Clears [] [] [] := fun _ => Erases.nil

theorem append {cs cs' ds ds' : List Char} {ns ns' : List String} (h : Clears cs ds ns) (h' : Clears cs' ds' ns') :
    Clears (cs ++ cs') (ds ++ ds') (ns ++ ns') := fun depth => by
  rw [Text.indentBy_append, Text.indentBy_append, List.map_append]
  exact (h depth).append (h' depth)

/-- One line of code, from anywhere in it. -/
theorem inline {cs : List Char} (h : '\n' ∉ cs) : Clears cs cs [] := fun depth kept before => by
  rw [Text.indentBy_of_not_mem depth h]
  induction cs generalizing kept with
  | nil => simp
  | cons c cs ih =>
    simp only [List.mem_cons, not_or] at h
    have hs : step ⟨.code, kept, before⟩ c = ⟨.code, kept ++ [c], before⟩ := by simp [step, Ne.symm h.1]
    rw [List.foldl_cons, hs, ih h.2, List.append_assoc]
    rfl

theorem indent {cs ds : List Char} {ns : List String} (h : Clears cs ds ns) :
    Clears (indentChars cs) (indentChars ds) ns := fun depth => by
  rw [Text.indentBy_indentChars, Text.indentBy_indentChars]
  exact h (depth + 1)

theorem line {cs ds : List Char} {ns : List String} (h : Clears cs ds ns) (hs : Solid cs) :
    Clears ('\n' :: cs) ('\n' :: ds) ns := fun depth kept before => by
  have hb : step ⟨.code, kept, before⟩ '\n' = ⟨.start ['\n'], kept, before⟩ := by simp [step]
  rw [Text.indentBy_break, Text.indentBy_break, List.cons_append, List.foldl_cons, List.foldl_append, hb, foldl_spaces,
    foldl_start hs, h depth, List.append_assoc]
  rfl

/-- A comment goes with the line that it is on. -/
theorem comment {cs ds : List Char} {ns : List String} (h : Clears cs ds ns) (hs : Solid cs) {name : String}
    (hn : FitsLine name) :
    Clears ('\n' :: '/' :: '/' :: ' ' :: name.toList ++ '\n' :: cs) ('\n' :: ds) (name :: ns) := fun depth kept before => by
  have hb : step ⟨.code, kept, before⟩ '\n' = ⟨.start ['\n'], kept, before⟩ := by simp [step]
  have hslash (held : List Char) : ['/', '/', ' '].foldl step ⟨.start held, kept, before⟩ =
      ⟨.comment [' '], kept, before⟩ := by
    have hl : isLineEnd ' ' = false := by decide
    simp [step, hl]
  have he : step ⟨.comment (' ' :: name.toList), kept, before⟩ '\n' = ⟨.start ['\n'], kept, before ++ [name.toList]⟩ := by
    simp [step, isLineEnd]
  have hni : '\n' ∉ name.toList := fun hm => absurd (hn _ hm) (by decide)
  have ht : indentBy depth ('\n' :: '/' :: '/' :: ' ' :: name.toList ++ '\n' :: cs) =
      '\n' :: (List.replicate (2 * depth) ' ' ++ (['/', '/', ' '] ++ (name.toList ++
        '\n' :: (List.replicate (2 * depth) ' ' ++ indentBy depth cs)))) := by
    have hslashes : '\n' ∉ '/' :: '/' :: ' ' :: name.toList := by simp [hni]
    simp only [List.cons_append, List.nil_append, Text.indentBy_break]
    have ha := Text.indentBy_append depth ('/' :: '/' :: ' ' :: name.toList) ('\n' :: cs)
    rw [Text.indentBy_of_not_mem depth hslashes, Text.indentBy_break] at ha
    exact congrArg _ (congrArg _ ha)
  rw [ht, List.foldl_cons, hb, List.foldl_append, foldl_spaces, List.foldl_append, hslash, List.foldl_append,
    foldl_comment hn, List.foldl_cons, List.singleton_append, he, List.foldl_append, foldl_spaces, foldl_start hs, h depth,
    Text.indentBy_break]
  simp

end Clears

/-- Code that starts with the first text and code that starts with the second, from their first line on. -/
theorem erase_of_clears {cs ds : List Char} {ns : List String} (h : Clears ('\n' :: cs) ('\n' :: ds) ns) :
    erase (String.ofList cs) = String.ofList ds ∧ notes (String.ofList cs) = ns := by
  have hr : run (String.ofList cs) = ⟨.code, '\n' :: ds, ns.map String.toList⟩ := by
    have h0 := h 0 [] []
    rw [Text.indentBy_zero, Text.indentBy_zero] at h0
    rw [run, String.toList_ofList, h0]
    rfl
  rw [erase, notes, hr]
  refine ⟨rfl, ?_⟩
  simp

end Comments
end SceneCode
