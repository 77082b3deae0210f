import Mathlib.Algebra.GroupWithZero.Nat
import SceneCode.Proofs.Layers.Html

namespace SceneCode.Html

/-- Less the one space that stands behind a semicolon and a colon. -/
def unspaced : List Char → List Char
  | ' ' :: cs => cs
  | cs => cs

def isKeyPart (c : Char) : Bool :=
  c != ':'

/-- What is before the first colon, and what is behind it. -/
def declaration? (cs : List Char) : Option (String × String) :=
  match cs.dropWhile isKeyPart with
  | _ :: value => some (String.ofList (unspaced (cs.takeWhile isKeyPart)), String.ofList (unspaced value))
  | [] => none

def declarations? (cs : List Char) : Option (List (String × String)) :=
  (cs.splitOn ';').mapM declaration?

def isInQuotes (c : Char) : Bool :=
  c != '"'

/-- The declarations of a style string. Without a text there are none. -/
def style? (text : String) : Option (List (String × String)) :=
  let cs := text.toList
  let front := "style=\"".toList
  let behind := cs.drop front.length
  if cs.isEmpty then some []
  else if front.isPrefixOf cs && behind.dropWhile isInQuotes == ['"'] then
    declarations? (Text.unescape (behind.takeWhile isInQuotes))
  else none

def declarationText (e : String × String) : List Char :=
  e.1.toList ++ ':' :: ' ' :: e.2.toList

def styleText : List (String × String) → List Char
  | [] => []
  | e :: es => declarationText e ++ if es.isEmpty then [] else ';' :: ' ' :: styleText es

theorem toList_declared (s : Styles) : (declared s).toList = styleText s.entries := by
  have hc : ": ".toList = [':', ' '] := by decide
  have hs : "; ".toList = [';', ' '] := by decide
  unfold declared
  induction s.entries with
  | nil => rfl
  | cons e es ih =>
    cases es with
    | nil => simp [styleText, declarationText, hc]
    | cons e' es =>
      rw [List.map_cons, String.intercalate_cons_of_ne_nil (by simp), String.toList_append, ih]
      simp [styleText, declarationText, hc, hs]

theorem unspaced_key {key : List Char} (h : ∀ c ∈ key, isKeyChar c = true) : unspaced key = key := by
  unfold unspaced
  split
  · rename_i cs
    have hs := h ' ' List.mem_cons_self
    cases hs
  · rfl

theorem isKeyPart_of_isKeyChar {c : Char} (h : isKeyChar c = true) : isKeyPart c = true := by
  apply bne_iff_ne.mpr
  intro he
  rw [he] at h
  cases h

/-- A declaration is read back, behind a space or not. -/
theorem declaration?_text {e : String × String} (h : ∀ c ∈ e.1.toList, isKeyChar c = true) {front : List Char}
    (hf : front = [] ∨ front = [' ']) : declaration? (front ++ declarationText e) = some e := by
  have hk : ∀ c ∈ front ++ e.1.toList, isKeyPart c = true := by
    rw [List.forall_mem_append]
    refine ⟨?_, fun c hc => isKeyPart_of_isKeyChar (h c hc)⟩
    rcases hf with rfl | rfl <;> decide
  have hc : isKeyPart ':' = false := by decide
  have hu : unspaced (front ++ e.1.toList) = e.1.toList := by
    rcases hf with rfl | rfl
    · exact unspaced_key h
    · rfl
  have ht : front ++ declarationText e = (front ++ e.1.toList) ++ ':' :: ' ' :: e.2.toList := by
    simp [declarationText]
  rw [declaration?, ht, List.dropWhile_append_of_pos hk, List.dropWhile_cons_of_neg (by simp [hc]),
    List.takeWhile_append_of_pos hk, List.takeWhile_cons_of_neg (by simp [hc]), List.append_nil, hu]
  simp [unspaced]

theorem semicolon_not_mem {e : String × String} (h : ∀ c ∈ e.1.toList, isKeyChar c = true) (hv : ';' ∉ e.2.toList) :
    ';' ∉ declarationText e := by
  intro hm
  simp only [declarationText, List.mem_append, List.mem_cons] at hm
  rcases hm with hm | hm | hm | hm
  · cases h _ hm
  · cases hm
  · cases hm
  · exact hv hm

theorem declarations?_text {es : List (String × String)} (hn : es ≠ [])
    (hk : ∀ e ∈ es, ∀ c ∈ e.1.toList, isKeyChar c = true) (hv : ∀ e ∈ es, ';' ∉ e.2.toList) {front : List Char}
    (hf : front = [] ∨ front = [' ']) : declarations? (front ++ styleText es) = some es := by
  induction es generalizing front with
  | nil => exact absurd rfl hn
  | cons e es ih =>
    rw [List.forall_mem_cons] at hk hv
    have hd := declaration?_text hk.1 hf
    have hs : ';' ∉ front ++ declarationText e := by
      rw [List.mem_append, not_or]
      refine ⟨?_, semicolon_not_mem hk.1 hv.1⟩
      rcases hf with rfl | rfl <;> decide
    cases hes : es.isEmpty with
    | true =>
      obtain rfl := List.isEmpty_iff.mp hes
      rw [styleText, List.isEmpty_nil, if_pos rfl, List.append_nil, declarations?, List.splitOn_eq_singleton hs]
      simp [hd]
    | false =>
      have hi := ih (List.isEmpty_eq_false_iff.mp hes) hk.2 hv.2 (.inr rfl)
      have ht : front ++ styleText (e :: es) = (front ++ declarationText e) ++ ';' :: ([' '] ++ styleText es) := by
        simp [styleText, hes]
      rw [declarations?] at hi
      rw [ht, declarations?, List.splitOn_append_cons_self_of_not_mem hs, List.mapM_cons, hd, hi]
      rfl

theorem count_styleText {es : List (String × String)} (hn : es ≠ [])
    (hk : ∀ e ∈ es, ∀ c ∈ e.1.toList, isKeyChar c = true) :
    (styleText es).count ';' + 1 = es.length + (es.map fun e => e.2.toList.count ';').sum := by
  induction es with
  | nil => exact absurd rfl hn
  | cons e es ih =>
    rw [List.forall_mem_cons] at hk
    have hz : e.1.toList.count ';' = 0 := by
      apply List.count_eq_zero.mpr
      intro hm
      cases hk.1 _ hm
    have hd : (declarationText e).count ';' = e.2.toList.count ';' := by
      simp [declarationText, List.count_append, hz]
    cases hes : es.isEmpty with
    | true =>
      obtain rfl := List.isEmpty_iff.mp hes
      simp [styleText, hd, Nat.add_comm]
    | false =>
      have hi := ih (List.isEmpty_eq_false_iff.mp hes) hk.2
      simp only [styleText, hes, Bool.false_eq_true, if_false, List.count_append, List.count_cons, hd, List.length_cons,
        List.map_cons, List.sum_cons]
      simp only [beq_self_eq_true, if_true, Char.reduceBEq, Bool.false_eq_true, if_false]
      omega

theorem length_of_mapM {α β : Type} {f : α → Option β} {xs : List α} {ys : List β} (h : xs.mapM f = some ys) :
    ys.length = xs.length := by
  induction xs generalizing ys with
  | nil =>
    obtain rfl := Option.some.inj h
    rfl
  | cons x xs ih =>
    rw [List.mapM_cons] at h
    obtain ⟨y, -, h⟩ := Option.bind_eq_some_iff.mp h
    obtain ⟨zs, hz, h⟩ := Option.bind_eq_some_iff.mp h
    obtain rfl := Option.some.inj h
    rw [List.length_cons, List.length_cons, ih hz]

theorem declarations?_text_iff {es : List (String × String)} (hn : es ≠ [])
    (hk : ∀ e ∈ es, ∀ c ∈ e.1.toList, isKeyChar c = true) :
    declarations? (styleText es) = some es ↔ ∀ e ∈ es, ';' ∉ e.2.toList := by
  constructor
  · intro h e he
    have hl := length_of_mapM h
    rw [ClassPrefix.splitOn_length] at hl
    have hc := count_styleText hn hk
    have hz : (es.map fun e => e.2.toList.count ';').sum = 0 := by omega
    exact List.count_eq_zero.mp (List.sum_eq_zero_iff_forall_eq_nat.mp hz _ (List.mem_map_of_mem he))
  · intro hv
    exact declarations?_text hn hk hv (.inl rfl)

/-- A style string is read back if and only if no value has a semicolon. -/
theorem style?_iff {s : Styles} (hk : ∀ e ∈ s.entries, ∀ c ∈ e.1.toList, isKeyChar c = true) :
    style? (attributes false s) = some s.entries ↔ ∀ e ∈ s.entries, ';' ∉ e.2.toList := by
  by_cases hs : s.isEmpty = true
  · have he : attributes false s = "" := if_pos hs
    have hn : s.entries = [] := List.isEmpty_iff.mp hs
    rw [he, hn]
    exact ⟨fun _ => List.forall_mem_nil _, fun _ => rfl⟩
  · have he : attributes false s = "style=\"" ++ Text.escapeAttribute (declared s) ++ "\"" := if_neg hs
    have hw : (attributes false s).toList = "style=\"".toList ++ (Markup.Layers.value (declared s) ++ ['"']) := by
      have hq : "\"".toList = ['"'] := by decide
      rw [he, String.toList_append, String.toList_append, hq, List.append_assoc]
      rfl
    have hi : ∀ c ∈ Markup.Layers.value (declared s), isInQuotes c = true := by
      intro c hc
      apply bne_iff_ne.mpr
      intro hq
      exact Markup.Layers.unquoted_value (declared s) (hq ▸ hc)
    have hr : style? (attributes false s) = declarations? (Text.unescape (Markup.Layers.value (declared s))) := by
      have hq : isInQuotes '"' = false := by decide
      have hd : (Markup.Layers.value (declared s) ++ ['"']).dropWhile isInQuotes = ['"'] := by
        rw [List.dropWhile_append_of_pos hi, List.dropWhile_cons_of_neg (by simp [hq])]
      have ht : (Markup.Layers.value (declared s) ++ ['"']).takeWhile isInQuotes = Markup.Layers.value (declared s) := by
        rw [List.takeWhile_append_of_pos hi, List.takeWhile_cons_of_neg (by simp [hq]), List.append_nil]
      simp only [style?, hw]
      simp [hd, ht]
    have hu : Text.unescape (Markup.Layers.value (declared s)) = styleText s.entries := by
      rw [Markup.Layers.value, Text.escapeAttribute, String.toList_ofList, Text.unescape_escapeAttribute, toList_declared]
    rw [hr, hu]
    exact declarations?_text_iff (entries_ne_nil hs) hk

end SceneCode.Html
