import Mathlib.Logic.Function.Iterate
import SceneCode.Proofs.Code.Words
import SceneCode.Proofs.Markup.Content

namespace SceneCode

namespace Text

theorem indent_of_not_mem {s : String} (h : '\n' ∉ s.toList) : indent s = s := by
  have hi : indentChars s.toList = s.toList := by
    rw [← indentBy_zero (indentChars s.toList), indentBy_indentChars, indentBy_of_not_mem _ h]
  rw [indent, hi, String.ofList_toList]

/-- What a way to write text is good for. -/
structure Encodes (encode : String → String) (decode? : String → Option String) : Prop where
  decoded (s : String) : decode? (encode s) = some s
  injective : Function.Injective encode
  unbroken (s : String) : '\n' ∉ (encode s).toList
  indented (s : String) (n : Nat) : indent^[n] (encode s) = encode s

theorem Encodes.of {encode : String → String} {decode? : String → Option String}
    (hd : ∀ s, decode? (encode s) = some s) (hu : ∀ s, '\n' ∉ (encode s).toList) : Encodes encode decode? where
  decoded := hd
  injective s r h := Option.some.inj ((hd s).symm.trans ((congrArg decode? h).trans (hd r)))
  unbroken := hu
  indented s := Function.iterate_fixed (indent_of_not_mem (hu s))

/-- Markup less the tags for line breaks. -/
def withoutBreaks : List Char → List Char
  | '<' :: 'b' :: 'r' :: '/' :: '>' :: cs => withoutBreaks cs
  | c :: cs => c :: withoutBreaks cs
  | [] => []

theorem withoutBreaks_cons {c : Char} (h : c ≠ '<') (cs : List Char) :
    withoutBreaks (c :: cs) = c :: withoutBreaks cs := by
  rw [withoutBreaks.eq_def]
  split <;> simp_all

theorem withoutBreaks_append {cs : List Char} (h : '<' ∉ cs) (ds : List Char) :
    withoutBreaks (cs ++ ds) = cs ++ withoutBreaks ds := by
  induction cs with
  | nil => rfl
  | cons c cs ih =>
    simp only [List.mem_cons, not_or] at h
    rw [List.cons_append, withoutBreaks_cons (Ne.symm h.1), ih h.2, List.cons_append]

/-- What is left without the tags are the characters of the lines. -/
theorem withoutBreaks_escaped (jsx : Bool) (cs : List Char) :
    withoutBreaks (cs.flatMap (escapeMarkupChar jsx)) = (cs.filter (· ≠ '\n')).flatMap (escapeMarkupChar jsx) := by
  induction cs with
  | nil => rfl
  | cons c cs ih =>
    by_cases hc : c = '\n'
    · subst hc
      rw [List.flatMap_cons, escapeMarkupChar_break, List.filter_cons_of_neg (by decide), ← ih]
      rfl
    · rw [List.flatMap_cons, withoutBreaks_append (not_mem_escapeMarkupChar (List.mem_append_left _ (by decide)) (by decide) hc), ih,
        List.filter_cons_of_pos (by simpa using hc), List.flatMap_cons]

/-- Text between tags with no tag in it but line breaks, no quote and, in JSX, no code. -/
structure IsContent (jsx : Bool) (code : String) : Prop where
  opening : '<' ∉ withoutBreaks code.toList
  closing : '>' ∉ withoutBreaks code.toList
  quote : '"' ∉ code.toList
  braces : jsx = true → '\x7b' ∉ code.toList ∧ '\x7d' ∉ code.toList

/-- No character that markup writes out is left between the tags of the line breaks. -/
theorem not_mem_withoutBreaks {jsx : Bool} {d : Char} (hd : d ∈ markupChars jsx) (hr : ∀ w ∈ references, d ∉ w)
    (s : String) : d ∉ withoutBreaks (escapeMarkup jsx s).toList := by
  rw [escapeMarkup, String.toList_ofList, withoutBreaks_escaped]
  intro hm
  obtain ⟨c, hc, hm⟩ := List.mem_flatMap.mp hm
  have hn : c ≠ '\n' := by simpa using (List.mem_filter.mp hc).2
  exact not_mem_escapeMarkupChar hd hr hn hm

theorem isContent_escapeMarkup (jsx : Bool) (s : String) : IsContent jsx (escapeMarkup jsx s) where
  opening := not_mem_withoutBreaks (List.mem_append_left _ (by decide)) (by decide) s
  closing := not_mem_withoutBreaks (List.mem_append_left _ (by decide)) (by decide) s
  quote := quote_not_mem_escapeMarkup jsx s
  braces := by
    rintro rfl
    exact ⟨not_mem_escapeMarkup (by decide) (by decide) (by decide) s,
      not_mem_escapeMarkup (by decide) (by decide) (by decide) s⟩

/-- The text within quotes cut into characters, each with the backslash that it stands behind. -/
def units : List Char → List (List Char)
  | '\\' :: c :: cs => ['\\', c] :: units cs
  | c :: cs => [c] :: units cs
  | [] => []

theorem units_cons {c : Char} (h : c ≠ '\\') (cs : List Char) : units (c :: cs) = [c] :: units cs := by
  rw [units.eq_def]
  split <;> simp_all

/-- Every character of a text is written as one unit. -/
theorem units_flatMap {escape : Char → List Char}
    (h : ∀ c, (c ≠ '\\' ∧ escape c = [c]) ∨ ∃ d, escape c = ['\\', d]) (cs : List Char) :
    units (cs.flatMap escape) = cs.map escape := by
  induction cs with
  | nil => rfl
  | cons c cs ih =>
    rw [List.flatMap_cons, List.map_cons, ← ih]
    rcases h c with ⟨hc, he⟩ | ⟨d, he⟩
    · rw [he]
      exact units_cons hc _
    · rw [he]
      rfl

/-- A text between two quotes. None of the barred characters in it stands for itself, and behind a backslash there is
nothing but these. -/
def IsLiteral (quote : Char) (barred escapes : List Char) (code : String) : Prop :=
  ∃ body, code.toList = quote :: body ++ [quote] ∧ (∀ c ∈ barred, [c] ∉ units body) ∧
    ∀ c, ['\\', c] ∈ units body → c ∈ escapes

/-- How each character of a literal is written. -/
def IsEscape (barred escapes : List Char) (c : Char) (code : List Char) : Prop :=
  (c ≠ '\\' ∧ code = [c] ∧ c ∉ barred) ∨ ∃ d ∈ escapes, code = ['\\', d]

theorem isLiteral_of_units {quote : Char} {barred escapes : List Char} {code : String} {escape : Char → List Char}
    {cs : List Char} (hc : code.toList = quote :: cs.flatMap escape ++ [quote])
    (h : ∀ c, IsEscape barred escapes c (escape c)) : IsLiteral quote barred escapes code := by
  have hu : units (cs.flatMap escape) = cs.map escape :=
    units_flatMap (fun c => (h c).imp (fun h => ⟨h.1, h.2.1⟩) fun ⟨d, _, he⟩ => ⟨d, he⟩) cs
  refine ⟨_, hc, fun c hb hm => ?_, fun c hm => ?_⟩
  · rw [hu] at hm
    obtain ⟨d, -, hd⟩ := List.mem_map.mp hm
    rcases h d with ⟨-, he, hn⟩ | ⟨e, -, he⟩
    · rw [he, List.singleton_inj] at hd
      exact hn (hd ▸ hb)
    · rw [he] at hd
      cases hd
  · rw [hu] at hm
    obtain ⟨d, -, hd⟩ := List.mem_map.mp hm
    rcases h d with ⟨-, he, -⟩ | ⟨e, hm, he⟩
    · rw [he] at hd
      cases hd
    · rw [he] at hd
      cases hd
      exact hm

theorem Escapes.isLiteral (e : Escapes) {barred escapes : List Char} (hb : barred ⊆ e.table.map (·.1))
    (he : e.table.map (·.2) ⊆ escapes) (s : String) : IsLiteral e.quote barred escapes (e.write s) := by
  refine isLiteral_of_units (e.toList_write s) fun c => ?_
  rcases escapeBy_cases e.table c with ⟨hn, hw⟩ | ⟨d, hm, hw⟩
  · exact .inl ⟨fun hc => hn (hc ▸ e.backslash_mem), hw, fun hc => hn (hb hc)⟩
  · exact .inr ⟨d, he (List.mem_map_of_mem hm), hw⟩

/-- Escaping goes through the text once for each character, with the backslash first. -/
theorem dart_eq_replaceAll (s : String) :
    dart s = String.ofList ('\'' :: replaceAll '\n' ['\\', 'n'] (replaceAll '$' ['\\', '$']
      (replaceAll '\'' ['\\', '\''] (replaceAll '\\' ['\\', '\\'] s.toList))) ++ ['\'']) := by
  rw [dart_eq]
  exact dartEscapes.write_eq_replaceAll s

theorem swift_eq_replaceAll (s : String) :
    swift s = String.ofList ('"' :: replaceAll '\n' ['\\', 'n'] (replaceAll '"' ['\\', '"']
      (replaceAll '\\' ['\\', '\\'] s.toList)) ++ ['"']) := by
  rw [swift_eq]
  exact swiftEscapes.write_eq_replaceAll s

end Text

/-- The text that content of an element shows. -/
def Markup.textOf? (code : String) : Option String :=
  ((read code.toList).bind Item.text?).map String.ofList

theorem Markup.textOf?_escapeMarkup (jsx : Bool) (s : String) : textOf? (Text.escapeMarkup jsx s) = some s := by
  rw [textOf?, (ReadsAs.escapeMarkup jsx s).read_eq, Option.bind_some, Item.text_ofChars, Option.map_some,
    String.ofList_toList]

/-- The text that code of one literal stands for. -/
def Code.Quoting.textOf? (q : Quoting) (code : String) : Option String :=
  (q.lex code).bind fun tokens =>
    match tokens with
    | [.literal text] => some text
    | _ => none

theorem Code.Quoting.textOf?_of_closed {q : Quoting} {code text : String} (h : Closed q code [.literal text]) :
    q.textOf? code = some text := by
  rw [textOf?, h.lexes]
  rfl

theorem Code.Quoting.Undoes.encodes {q : Quoting} {e : Text.Escapes} (h : q.Undoes e) : Text.Encodes e.write q.textOf? :=
  .of (fun s => textOf?_of_closed (h.closed s)) e.break_not_mem_write

namespace Text

/-- Text goes through each encoding and comes back. No encoding leaves a line break to indent, or a character that could
end the content or the literal. -/
theorem encodings_are_faithful :
    (∀ jsx, Encodes (escapeMarkup jsx) Markup.textOf? ∧ ∀ s, IsContent jsx (escapeMarkup jsx s)) ∧
    (Encodes dart Code.dart.textOf? ∧ ∀ s, IsLiteral '\'' ['\'', '$', '\\'] ['\\', '\'', '$', 'n'] (dart s)) ∧
    (Encodes swift Code.swift.textOf? ∧ ∀ s, IsLiteral '"' ['"', '\\'] ['\\', '"', 'n'] (swift s)) := by
  rw [dart_eq, swift_eq]
  refine ⟨fun jsx => ⟨?_, isContent_escapeMarkup jsx⟩, ⟨?_, fun s => ?_⟩, ⟨?_, fun s => ?_⟩⟩
  · exact .of (Markup.textOf?_escapeMarkup jsx) (break_not_mem_escapeMarkup jsx)
  · exact Code.dart_undoes.encodes
  · exact dartEscapes.isLiteral (by decide) (by decide) s
  · exact Code.swift_undoes.encodes
  · exact swiftEscapes.isLiteral (by decide) (by decide) s

end Text
end SceneCode
