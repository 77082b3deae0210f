import Mathlib.Data.List.Basic
import SceneCode.Proofs.Json.Said
import SceneCode.Proofs.Json.Strings
import SceneCode.Settings.Reader
import SceneCode.Settings.Writer

namespace SceneCode.Settings
open Json

/-- The reader gets `a` from the text and stops at its end, whatever follows. -/
def Takes {α : Type} (reader : Reader α) (text : List Char) (a : α) : Prop :=
  ∀ rest, Gives (reader (text ++ rest)) a rest

section Combinators
variable {α β : Type} {text text' : List Char} {a : α} {b : β}

theorem Takes.andThen {first : Reader α} {second : α → Reader β} (h : Takes first text a)
    (h' : Takes (second a) text' b) : Takes (first.andThen second) (text ++ text') b := by
  intro rest
  rw [List.append_assoc]
  obtain ⟨hlt, h⟩ := h (text' ++ rest)
  obtain ⟨hlt', h'⟩ := h' rest
  refine ⟨Nat.lt_trans hlt' hlt, ?_⟩
  simp only [Reader.andThen, h, h', bind, Except.bind]
  rfl

theorem Takes.typed {reader : Reader α} {convert : α → Option β} (h : Takes reader text a)
    (hc : convert a = some b) : Takes (reader.typed convert) text b := by
  intro rest
  obtain ⟨hlt, h⟩ := h rest
  refine ⟨hlt, ?_⟩
  simp only [Reader.typed, h, bind, Except.bind, hc]
  rfl

theorem takes_mark {c : Char} (hc : isSpace c = false) : Takes (Reader.mark c) [c] () := by
  intro rest
  have hskip : skipSpace (c :: rest) = c :: rest := by rw [skipSpace, List.dropWhile_cons, hc]; rfl
  refine ⟨Nat.lt_succ_self _, ?_⟩
  simp only [List.singleton_append, Reader.mark]
  split
  next h => exact nomatch hskip.symm.trans h
  next d tail h =>
    obtain ⟨rfl, rfl⟩ := List.cons.inj (hskip.symm.trans h)
    rw [if_pos rfl]

theorem takes_true : Takes Reader.leaf ['t', 'r', 'u', 'e'] (.bool true) :=
  fun _ => ⟨_, rfl⟩

theorem takes_false : Takes Reader.leaf ['f', 'a', 'l', 's', 'e'] (.bool false) :=
  fun _ => ⟨_, rfl⟩

theorem takes_null : Takes Reader.leaf ['n', 'u', 'l', 'l'] .null :=
  fun _ => ⟨_, rfl⟩

theorem leaf_quote (tail : List Char) : Reader.leaf ('"' :: tail) =
    stringFrom .exact [] tail >>= fun p => .ok (.string p.1, ⟨p.2.1, Nat.lt_succ_of_lt p.2.2⟩) := by
  have hscalar : scalar .exact '"' tail =
      stringFrom .exact [] tail >>= fun p => .ok (.string p.1, ⟨p.2.1, Nat.lt_succ_of_lt p.2.2⟩) := rfl
  have hleaf : Reader.leaf ('"' :: tail) = scalar .exact '"' tail >>= fun p => .ok (p.1, ⟨p.2.1, p.2.2⟩) := rfl
  rw [hleaf, hscalar]
  cases stringFrom .exact [] tail <;> rfl

theorem takes_string (s : String) : Takes Reader.leaf (writeString s) (.string s) := by
  intro rest
  obtain ⟨hlt, h⟩ := stringFrom_written .exact [] s.toList rest
  rw [writeString, List.cons_append, List.cons_append, List.append_assoc, List.singleton_append, leaf_quote, h]
  refine ⟨Nat.lt_succ_of_lt hlt, ?_⟩
  rw [List.reverse_nil, List.nil_append, String.ofList_toList]
  rfl

theorem takes_flag (b : Bool) : Takes Reader.flag (write (.bool b)) b := by
  cases b with
  | true => exact takes_true.typed rfl
  | false => exact takes_false.typed rfl

theorem takes_text (s : String) : Takes Reader.text (writeString s) s :=
  (takes_string s).typed rfl

theorem takes_optionalText (o : Option String) :
    Takes Reader.optionalText (write (match o with | some s => .string s | none => .null)) o := by
  cases o with
  | none => exact takes_null.typed rfl
  | some s => exact (takes_string s).typed rfl

/-- A name stands as a string here, never as the key of an object. -/
theorem takes_choice {names : List (String × α)} {name : String} (h : names.lookup name = some a) :
    Takes (Reader.choice names) (writeString name) a := by
  have hname : Takes (Reader.text.typed fun s => names.lookup s) (writeString name) a := (takes_text name).typed h
  exact fun rest => hname rest

end Combinators

/-- `t` with the settings of these names as they are in `s`. -/
def adopt (s t : Settings) (names : List String) : Settings where
  framework := if "framework" ∈ names then s.framework else t.framework
  jsx := if "jsx" ∈ names then s.jsx else t.jsx
  optimizeLayout := if "optimizeLayout" ∈ names then s.optimizeLayout else t.optimizeLayout
  showLayerNames := if "showLayerNames" ∈ names then s.showLayerNames else t.showLayerNames
  roundTailwindValues := if "roundTailwindValues" ∈ names then s.roundTailwindValues else t.roundTailwindValues
  roundTailwindColors := if "roundTailwindColors" ∈ names then s.roundTailwindColors else t.roundTailwindColors
  customTailwindPrefix := if "customTailwindPrefix" ∈ names then s.customTailwindPrefix else t.customTailwindPrefix
  flutterMode := if "flutterGenerationMode" ∈ names then s.flutterMode else t.flutterMode
  swiftUIMode := if "swiftUIGenerationMode" ∈ names then s.swiftUIMode else t.swiftUIMode

theorem adopt_adopt (s t : Settings) (names names' : List String) :
    s.adopt (s.adopt t names) names' = s.adopt t (names ++ names') := by
  simp only [adopt, List.mem_append]
  congr 1 <;> grind

/-- All settings of `s` with their names, in their order. -/
def entries (s : Settings) : List (String × Json) := [
  ("framework", .string s.framework.name),
  ("jsx", .bool s.jsx),
  ("optimizeLayout", .bool s.optimizeLayout),
  ("showLayerNames", .bool s.showLayerNames),
  ("roundTailwindValues", .bool s.roundTailwindValues),
  ("roundTailwindColors", .bool s.roundTailwindColors),
  ("customTailwindPrefix", match s.customTailwindPrefix with
    | some p => .string p
    | none => .null),
  ("flutterGenerationMode", .string s.flutterMode.name),
  ("swiftUIGenerationMode", .string s.swiftUIMode.name)]

theorem toJson_eq (s : Settings) : s.toJson = .object s.entries := rfl

theorem takes_slot {α : Type} {t t' : Settings} {seen : List String} {key : String} {text : List Char}
    {reader : Reader α} {put : Settings → α → Settings} {a : α} (hslot : slots.lookup key = some (slot reader put))
    (hseen : key ∉ seen) (hput : put t a = t') (h : Takes reader text a) :
    Takes (keyed seen t key) (':' :: text) t' := by
  have hcontains : seen.contains key = false := by simpa using hseen
  have hchange : Takes (slot reader put) text (put · a) := h.typed rfl
  rw [keyed, hslot]
  simp only [hcontains, Bool.false_eq_true, if_false]
  exact (takes_mark rfl).andThen (hchange.typed (congrArg some hput))

theorem takes_keyed (s t : Settings) {seen : List String} {key : String} {value : Json}
    (hm : (key, value) ∈ s.entries) (hseen : key ∉ seen) :
    Takes (keyed seen t key) (':' :: value.write) (s.adopt t [key]) := by
  simp only [entries, List.mem_cons, List.not_mem_nil, or_false, Prod.mk.injEq] at hm
  rcases hm with ⟨rfl, rfl⟩ | ⟨rfl, rfl⟩ | ⟨rfl, rfl⟩ | ⟨rfl, rfl⟩ | ⟨rfl, rfl⟩ | ⟨rfl, rfl⟩ | ⟨rfl, rfl⟩ | ⟨rfl, rfl⟩ |
    ⟨rfl, rfl⟩
  · exact takes_slot rfl hseen rfl (takes_choice (by cases s.framework <;> rfl))
  · exact takes_slot rfl hseen rfl (takes_flag _)
  · exact takes_slot rfl hseen rfl (takes_flag _)
  · exact takes_slot rfl hseen rfl (takes_flag _)
  · exact takes_slot rfl hseen rfl (takes_flag _)
  · exact takes_slot rfl hseen rfl (takes_flag _)
  · exact takes_slot rfl hseen rfl (takes_optionalText _)
  · exact takes_slot rfl hseen rfl (takes_choice (by cases s.flutterMode <;> rfl))
  · exact takes_slot rfl hseen rfl (takes_choice (by cases s.swiftUIMode <;> rfl))

section Fields
variable {seen : List String} {t t' u : Settings} {key : String} {text cs rest : List Char}

/-- A key that is read with its value, up to the mark behind them. -/
theorem field_of_takes (h : Takes (keyed seen t key) text t') (cs : List Char) :
    ∃ tail h₁ h₂, writeString key ++ text ++ cs = '"' :: tail ∧
      stringFrom .exact [] tail = .ok (key, ⟨text ++ cs, h₁⟩) ∧ keyed seen t key (text ++ cs) = .ok (t', ⟨cs, h₂⟩) := by
  obtain ⟨h₁, hkey⟩ := stringFrom_written .exact [] key.toList (text ++ cs)
  obtain ⟨h₂, hvalue⟩ := h cs
  refine ⟨_, h₁, h₂, ?_, ?_, hvalue⟩
  · simp only [writeString, List.cons_append, List.append_assoc, List.nil_append]
  · rw [hkey, List.reverse_nil, List.nil_append, String.ofList_toList]

theorem field_last (h : Takes (keyed seen t key) text t') :
    Gives (field seen t (writeString key ++ text ++ '\x7d' :: rest)) t' rest := by
  obtain ⟨tail, h₁, h₂, htext, hkey, hvalue⟩ := field_of_takes h ('\x7d' :: rest)
  rw [htext, field]
  split
  next hs => cases hs
  next tail' hs =>
    obtain ⟨-, rfl⟩ : _ ∧ tail = tail' := List.cons.inj hs
    simp only [hkey, hvalue, bind, Except.bind]
    split
    next hs => cases hs
    next rest' hs =>
      obtain ⟨-, rfl⟩ : _ ∧ rest = rest' := List.cons.inj hs
      exact ⟨_, rfl⟩
    next hs => cases hs
    next hs _ => exact absurd rfl (hs rest)
  next _ hs => exact absurd rfl (hs tail)

theorem field_more (h : Takes (keyed seen t key) text t') (ih : Gives (field (key :: seen) t' cs) u rest) :
    Gives (field seen t (writeString key ++ text ++ ',' :: cs)) u rest := by
  obtain ⟨tail, h₁, h₂, htext, hkey, hvalue⟩ := field_of_takes h (',' :: cs)
  obtain ⟨h₃, ih⟩ := ih
  rw [htext, field]
  split
  next hs => cases hs
  next tail' hs =>
    obtain ⟨-, rfl⟩ : _ ∧ tail = tail' := List.cons.inj hs
    simp only [hkey, hvalue, bind, Except.bind]
    split
    next hs => cases hs
    next hs => cases hs
    next cs' hs =>
      obtain ⟨-, rfl⟩ : _ ∧ cs = cs' := List.cons.inj hs
      simp only [ih]
      exact ⟨_, rfl⟩
    next _ hs => exact absurd rfl (hs cs)
  next _ hs => exact absurd rfl (hs tail)

/-- Fields of `s` behind those that are read already. -/
theorem field_entries {s : Settings} {fields : List (String × Json)} (hne : fields ≠ [])
    (hs : ∀ f ∈ fields, f ∈ s.entries) (hseen : (seen ++ fields.map (·.1)).Nodup) (rest : List Char) :
    Gives (field seen t (writeFields fields ++ '\x7d' :: rest)) (s.adopt t (fields.map (·.1))) rest := by
  -- What is seen and what is set so far grow with every field, so both vary in the induction.
  induction fields generalizing seen t with
  | nil => exact absurd rfl hne
  | cons f fields ih =>
    obtain ⟨key, value⟩ := f
    have hcons := List.nodup_middle.mp hseen
    have hkey : key ∉ seen := fun h => (List.nodup_cons.mp hcons).1 (List.mem_append_left _ h)
    have hvalue := takes_keyed s t (hs _ List.mem_cons_self) hkey
    cases fields with
    | nil => exact field_last hvalue
    | cons f fields =>
      have hmore : Gives (field (key :: seen) (s.adopt t [key]) (writeFields (f :: fields) ++ '\x7d' :: rest)) _ rest :=
        ih (List.cons_ne_nil _ _) (fun g hg => hs g (List.mem_cons_of_mem _ hg)) hcons
      rw [adopt_adopt] at hmore
      rw [writeFields, List.append_assoc, List.cons_append]
      · exact field_more hvalue hmore
      · exact nofun

end Fields

theorem adopt_entries {s t : Settings} {names : List String} (h : ∀ f ∈ s.entries, f.1 ∈ names) :
    s.adopt t names = s := by
  simp only [entries, List.forall_mem_cons] at h
  simp only [adopt, h, if_true]

theorem writeFields_quote {fields : List (String × Json)} (hne : fields ≠ []) :
    ∃ tail, writeFields fields = '"' :: tail := by
  match fields with
  | [(key, value)] => exact ⟨_, rfl⟩
  | (key, value) :: f :: fields => exact ⟨_, rfl⟩

section Documents
variable {s : Settings} {fields : List (String × Json)}

theorem takes_fields (h : fields.Perm s.entries) : Takes Settings.fields (writeFields fields ++ ['\x7d']) s := by
  have hne : fields ≠ [] := by
    rintro rfl
    exact nomatch h.nil_eq
  have hn : (fields.map (·.1)).Nodup := (h.map (·.1)).nodup_iff.mpr (by simp [entries])
  have hall : ∀ f ∈ s.entries, f.1 ∈ fields.map (·.1) := fun f hf => List.mem_map.mpr ⟨f, h.mem_iff.mpr hf, rfl⟩
  obtain ⟨tail, htail⟩ := writeFields_quote hne
  intro rest
  have hread : Gives (field [] {} (writeFields fields ++ '\x7d' :: rest)) _ rest :=
    field_entries hne (fun f => h.mem_iff.mp) hn rest
  rw [adopt_entries hall] at hread
  rw [List.append_assoc, List.singleton_append]
  -- A quote in front is what tells fields from no fields.
  rw [htail] at hread ⊢
  exact hread

theorem takes_document (h : fields.Perm s.entries) : Takes document (Json.object fields).write s := by
  have hbehind : Takes ((Reader.mark '\x7b').andThen fun _ => Settings.fields)
      ('\x7b' :: (writeFields fields ++ ['\x7d'])) s := (takes_mark rfl).andThen (takes_fields h)
  exact fun rest => hbehind rest

/-- Settings may stand in any order. -/
theorem ofText?_of_perm (h : fields.Perm s.entries) : ofText? (Json.object fields).toText = .ok s := by
  have hread : Gives (document (Json.object fields).toText.toList) s [] := by
    rw [Json.toText, String.toList_ofList, ← List.append_nil (Json.write _)]
    exact takes_document h []
  obtain ⟨_, hread⟩ := hread
  rw [ofText?, hread]
  rfl

end Documents

theorem normal_toJson (s : Settings) : ∃ fields, s.toJson.normal = .object fields ∧ fields.Perm s.entries := by
  have hvalues : s.entries.map (fun f => (f.1, f.2.normal)) = s.entries := by
    unfold entries
    cases s.customTailwindPrefix <;> rfl
  have hperm : (normalFields [] s.entries).Perm _ := normalFields_perm (by simp [entries])
  rw [hvalues] at hperm
  exact ⟨_, rfl, hperm⟩

end SceneCode.Settings
