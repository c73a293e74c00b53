import Mathlib.Data.List.Infix
import TaroTria.Json.Value

/-!
# `JSON.parse`

The standard's reading of a text as a JSON value, over code units, with the
escape sequences of strings decoded. A string without escape sequences is a part
of the text that it comes from.

## Implementation notes

The mutual recursion is bounded by a number that no text can exhaust: every
value takes at least one code unit, and no unit is looked at by more than two
nested calls.
-/

namespace TaroTria

namespace Json

open JsString (unit)

def isSpace (u : UInt16) : Bool := u = 0x20 || u = 0x09 || u = 0x0A || u = 0x0D

def skipSpace (text : JsString) : JsString := text.dropWhile isSpace

def digit? (u : UInt16) : Option Nat :=
  if unit '0' ≤ u ∧ u ≤ unit '9' then some (u.toNat - '0'.toNat) else none

def hexDigit? (u : UInt16) : Option Nat :=
  if unit '0' ≤ u ∧ u ≤ unit '9' then some (u.toNat - '0'.toNat)
  else if unit 'a' ≤ u ∧ u ≤ unit 'f' then some (u.toNat - 'a'.toNat + 10)
  else if unit 'A' ≤ u ∧ u ≤ unit 'F' then some (u.toNat - 'A'.toNat + 10)
  else none

/-- The unit that four hexadecimal digits name. -/
def hexUnit? (a b c d : UInt16) : Option UInt16 := do
  let a ← hexDigit? a
  let b ← hexDigit? b
  let c ← hexDigit? c
  let d ← hexDigit? d
  return UInt16.ofNat (((a * 16 + b) * 16 + c) * 16 + d)

/-- The unit that a backslash and one more unit name. -/
def escaped? (u : UInt16) : Option UInt16 :=
  if u = unit '"' ∨ u = unit '\\' ∨ u = unit '/' then some u
  else if u = unit 'b' then some 0x08
  else if u = unit 'f' then some 0x0C
  else if u = unit 'n' then some 0x0A
  else if u = unit 'r' then some 0x0D
  else if u = unit 't' then some 0x09
  else none

/-- The string whose opening quote stands before the text, and what follows its
closing quote. -/
def parseChars : JsString → Option (JsString × JsString)
  | [] => none
  | u :: rest =>
      if u = unit '"' then some ([], rest)
      else if u = unit '\\' then
        match rest with
        | [] => none
        | e :: rest =>
            if e = unit 'u' then
              match rest with
              | a :: b :: c :: d :: rest => do
                  let v ← hexUnit? a b c d
                  let (s, rest) ← parseChars rest
                  return (v :: s, rest)
              | _ => none
            else do
              let v ← escaped? e
              let (s, rest) ← parseChars rest
              return (v :: s, rest)
      else if u < 0x20 then none
      else do
        let (s, rest) ← parseChars rest
        return (u :: s, rest)

/-- The digits at the start of a text. -/
def takeDigits : JsString → List Nat × JsString
  | [] => ([], [])
  | u :: rest =>
      match digit? u with
      | some d => (d :: (takeDigits rest).1, (takeDigits rest).2)
      | none => ([], u :: rest)

def ofDigits (digits : List Nat) : Nat := digits.foldl (fun n d => n * 10 + d) 0

/-- A sign before a number, and what follows it. -/
def takeSign (plus : Bool) : JsString → Int × JsString
  | u :: rest =>
      if u = unit '-' then (-1, rest)
      else if plus ∧ u = unit '+' then (1, rest)
      else (1, u :: rest)
  | [] => (1, [])

/-- The digits after a decimal point, if there is one. -/
def parseFraction : JsString → Option (List Nat × JsString)
  | u :: rest =>
      if u = unit '.' then
        match takeDigits rest with
        | ([], _) => none
        | (digits, rest) => some (digits, rest)
      else some ([], u :: rest)
  | [] => some ([], [])

def parseExponent : JsString → Option (Int × JsString)
  | u :: rest =>
      if u = unit 'e' ∨ u = unit 'E' then
        match takeDigits (takeSign true rest).2 with
        | ([], _) => none
        | (digits, rest') => some ((takeSign true rest).1 * ofDigits digits, rest')
      else some (0, u :: rest)
  | [] => some (0, [])

def parseNumber (text : JsString) : Option (Decimal × JsString) := do
  let (sign, text) := takeSign false text
  let (digits, text) := takeDigits text
  if digits = [] ∨ (digits.head? = some 0 ∧ digits.length ≠ 1) then
    none
  let (fraction, text) ← parseFraction text
  let (exponent, text) ← parseExponent text
  return (⟨sign * ofDigits (digits ++ fraction), exponent - fraction.length⟩, text)

/-- What follows a word at the start of a text. -/
def dropWord (word : String) (text : JsString) : Option JsString :=
  (JsString.ofAscii word.toList).isPrefixOf? text

/-- The properties of an object literal: a repeated name keeps its place and takes the
later value. -/
def ownProperties (fields : List (JsString × Json JsString)) : List (JsString × Json JsString) :=
  fields.foldl (fun own field =>
    if own.any fun e => e.1 = field.1 then
      own.map fun e => if e.1 = field.1 then field else e
    else own ++ [field]) []

/-- The name of a property and the colon after it. -/
def parseName : JsString → Option (JsString × JsString)
  | [] => none
  | u :: rest =>
      if u = unit '"' then do
        let (name, rest) ← parseChars rest
        match skipSpace rest with
        | [] => none
        | u :: rest => if u = unit ':' then some (name, rest) else none
      else none

mutual

def parseValue : Nat → JsString → Option (Json JsString × JsString)
  | 0, _ => none
  | n + 1, text =>
      match skipSpace text with
      | [] => none
      | u :: rest =>
          if u = unit '"' then do
            let (s, rest) ← parseChars rest
            return (.str s, rest)
          else if u = unit '[' then
            parseArray n rest
          else if u = unit '\x7b' then
            parseObject n rest
          else if let some rest := dropWord "true" (u :: rest) then
            some (.bool true, rest)
          else if let some rest := dropWord "false" (u :: rest) then
            some (.bool false, rest)
          else if let some rest := dropWord "null" (u :: rest) then
            some (.null, rest)
          else do
            let (number, rest) ← parseNumber (u :: rest)
            return (.num number, rest)

/-- An array whose opening bracket stands before the text. -/
def parseArray : Nat → JsString → Option (Json JsString × JsString)
  | 0, _ => none
  | n + 1, text =>
      match skipSpace text with
      | [] => none
      | u :: rest =>
          if u = unit ']' then some (.arr [], rest)
          else do
            let (items, rest) ← parseItems n (u :: rest)
            return (.arr items, rest)

def parseItems : Nat → JsString → Option (List (Json JsString) × JsString)
  | 0, _ => none
  | n + 1, text => do
      let (v, rest) ← parseValue n text
      match skipSpace rest with
      | [] => none
      | u :: rest =>
          if u = unit ',' then do
            let (items, rest) ← parseItems n rest
            return (v :: items, rest)
          else if u = unit ']' then some ([v], rest)
          else none

/-- An object whose opening brace stands before the text. -/
def parseObject : Nat → JsString → Option (Json JsString × JsString)
  | 0, _ => none
  | n + 1, text =>
      match skipSpace text with
      | [] => none
      | u :: rest =>
          if u = unit '\x7d' then some (.obj [], rest)
          else do
            let (fields, rest) ← parseFields n (u :: rest)
            return (.obj (ownProperties fields), rest)

def parseFields : Nat → JsString → Option (List (JsString × Json JsString) × JsString)
  | 0, _ => none
  | n + 1, text => do
      let (name, rest) ← parseName (skipSpace text)
      let (v, rest) ← parseValue n rest
      match skipSpace rest with
      | [] => none
      | u :: rest =>
          if u = unit ',' then do
            let (fields, rest) ← parseFields n rest
            return ((name, v) :: fields, rest)
          else if u = unit '\x7d' then some ([(name, v)], rest)
          else none

end

/-- The value of a text, which holds nothing else but spaces. -/
def parse (text : JsString) : Option (Json JsString) := do
  let (v, rest) ← parseValue (3 * text.length + 1) text
  if skipSpace rest = [] then
    return v
  else none

/-! ## The parts of a text -/

/-- A string literal of a text has the value `s`. -/
def HasLiteral (text s : JsString) : Prop :=
  ∃ after post, unit '"' :: after <:+ text ∧ parseChars after = some (s, post)

theorem HasLiteral.of_suffix {part text s : JsString} (hpart : part <:+ text)
    (h : HasLiteral part s) : HasLiteral text s := by
  obtain ⟨after, post, hafter, hs⟩ := h
  exact ⟨after, post, hafter.trans hpart, hs⟩

/-- What is left of a text after some of it was read. -/
def Shorter (rest text : JsString) : Prop := rest <:+ text ∧ rest.length < text.length

theorem Shorter.trans_suffix {rest middle text : JsString} (h : Shorter rest middle)
    (h' : middle <:+ text) : Shorter rest text :=
  ⟨h.1.trans h', h.2.trans_le h'.length_le⟩

theorem shorter_of_suffix {rest text : JsString} {u : UInt16} (h : rest <:+ text) :
    Shorter rest (u :: text) :=
  ⟨h.trans (List.suffix_cons u text), Nat.lt_succ_of_le h.length_le⟩

theorem skipSpace_suffix (text : JsString) : skipSpace text <:+ text := List.dropWhile_suffix _

theorem cons_suffix_of_skipSpace {text rest : JsString} {u : UInt16}
    (h : skipSpace text = u :: rest) : u :: rest <:+ text := h ▸ skipSpace_suffix text

/-- The characters of a literal stand before its closing quote; without a backslash they
are the string itself. -/
theorem parseChars_spec {text s rest : JsString} (h : parseChars text = some (s, rest)) :
    ∃ raw, text = raw ++ unit '"' :: rest ∧ (unit '\\' ∉ raw → s = raw) := by
  fun_induction parseChars text generalizing s rest with
  | case1 => cases h
  | case2 =>
      cases h
      exact ⟨[], rfl, fun _ => rfl⟩
  | case3 => cases h
  | case4 a b c d rest' hne ih =>
      simp only [Option.bind_eq_bind, Option.bind_eq_some_iff, Option.pure_def,
        Option.some.injEq, Prod.mk.injEq] at h
      obtain ⟨v, -, ⟨s', rest''⟩, hrest, rfl, rfl⟩ := h
      obtain ⟨raw, rfl, -⟩ := ih hrest
      exact ⟨unit '\\' :: unit 'u' :: a :: b :: c :: d :: raw, rfl,
        fun hraw => absurd List.mem_cons_self hraw⟩
  | case5 => cases h
  | case6 e rest' he hne ih =>
      simp only [Option.bind_eq_bind, Option.bind_eq_some_iff, Option.pure_def,
        Option.some.injEq, Prod.mk.injEq] at h
      obtain ⟨v, -, ⟨s', rest''⟩, hrest, rfl, rfl⟩ := h
      obtain ⟨raw, rfl, -⟩ := ih hrest
      exact ⟨unit '\\' :: e :: raw, rfl, fun hraw => absurd List.mem_cons_self hraw⟩
  | case7 => cases h
  | case8 u rest' hquote hslash hcontrol ih =>
      simp only [Option.bind_eq_bind, Option.bind_eq_some_iff, Option.pure_def,
        Option.some.injEq, Prod.mk.injEq] at h
      obtain ⟨⟨s', rest''⟩, hrest, rfl, rfl⟩ := h
      obtain ⟨raw, rfl, hraw⟩ := ih hrest
      exact ⟨u :: raw, rfl, fun hnot => by rw [hraw fun hmem => hnot (List.mem_cons_of_mem u hmem)]⟩

theorem parseChars_shorter {text s rest : JsString} (h : parseChars text = some (s, rest)) :
    Shorter rest text := by
  obtain ⟨raw, rfl, -⟩ := parseChars_spec h
  exact ⟨⟨raw ++ [unit '"'], by simp⟩, by simp; omega⟩

theorem takeDigits_suffix (text : JsString) : (takeDigits text).2 <:+ text := by
  induction text with
  | nil => exact List.suffix_rfl
  | cons u text ih =>
      simp only [takeDigits]
      split
      · exact ih.trans (List.suffix_cons u text)
      · exact List.suffix_rfl

theorem takeDigits_shorter {text rest : JsString} {digits : List Nat}
    (h : takeDigits text = (digits, rest)) (hne : digits ≠ []) : Shorter rest text := by
  cases text with
  | nil =>
      cases h
      exact absurd rfl hne
  | cons u text =>
      simp only [takeDigits] at h
      split at h
      · cases h
        exact shorter_of_suffix (takeDigits_suffix text)
      · cases h
        exact absurd rfl hne

theorem takeSign_suffix (plus : Bool) (text : JsString) : (takeSign plus text).2 <:+ text := by
  cases text with
  | nil => exact List.suffix_rfl
  | cons u text =>
      simp only [takeSign]
      split
      · exact List.suffix_cons u text
      · split
        · exact List.suffix_cons u text
        · exact List.suffix_rfl

theorem parseFraction_suffix {text rest : JsString} {digits : List Nat}
    (h : parseFraction text = some (digits, rest)) : rest <:+ text := by
  cases text with
  | nil =>
      cases h
      exact List.suffix_rfl
  | cons u text =>
      simp only [parseFraction] at h
      split at h
      · split at h
        · cases h
        · rename_i heq
          cases h
          have hsuffix := takeDigits_suffix text
          rw [heq] at hsuffix
          exact hsuffix.trans (List.suffix_cons u text)
      · cases h
        exact List.suffix_rfl

theorem parseExponent_suffix {text rest : JsString} {exponent : Int}
    (h : parseExponent text = some (exponent, rest)) : rest <:+ text := by
  cases text with
  | nil =>
      cases h
      exact List.suffix_rfl
  | cons u text =>
      simp only [parseExponent] at h
      split at h
      · split at h
        · cases h
        · rename_i heq
          cases h
          have hsuffix := takeDigits_suffix (takeSign true text).2
          rw [heq] at hsuffix
          exact (hsuffix.trans (takeSign_suffix true text)).trans (List.suffix_cons u text)
      · cases h
        exact List.suffix_rfl

theorem parseNumber_shorter {text rest : JsString} {number : Decimal}
    (h : parseNumber text = some (number, rest)) : Shorter rest text := by
  simp only [parseNumber] at h
  split at h
  · cases h
  rename_i hdigits
  simp only [Option.bind_eq_bind, Option.bind_eq_some_iff, Option.pure_def,
    Option.some.injEq, Prod.mk.injEq] at h
  obtain ⟨⟨fraction, rest₁⟩, hfraction, ⟨exponent, rest₂⟩, hexponent, -, rfl⟩ := h
  have hne : (takeDigits (takeSign false text).2).1 ≠ [] := fun hnil => hdigits (.inl hnil)
  have hint : Shorter (takeDigits (takeSign false text).2).2 (takeSign false text).2 :=
    takeDigits_shorter rfl hne
  have hrest := (parseExponent_suffix hexponent).trans (parseFraction_suffix hfraction)
  have hshort := hint.trans_suffix (takeSign_suffix false text)
  exact ⟨hrest.trans hshort.1, hrest.length_le.trans_lt hshort.2⟩

theorem dropWord_shorter {word : String} {text rest : JsString} (hword : word ≠ "")
    (h : dropWord word text = some rest) : Shorter rest text := by
  obtain rfl : JsString.ofAscii word.toList ++ rest = text :=
    List.isPrefixOf?_eq_some_iff_append_eq.mp h
  have hpos : 0 < (JsString.ofAscii word.toList).length := by
    rw [JsString.ofAscii, List.length_map, List.length_pos_iff]
    simpa using hword
  exact ⟨List.suffix_append _ rest, by rw [List.length_append]; omega⟩

/-- The properties of an object are among the fields of its literal. -/
theorem mem_ownProperties {fields : List (JsString × Json JsString)}
    {e : JsString × Json JsString} (h : e ∈ ownProperties fields) : e ∈ fields := by
  have fold : ∀ (fields own : List (JsString × Json JsString)) (e),
      e ∈ fields.foldl (fun own field =>
        if own.any fun e => e.1 = field.1 then
          own.map fun e => if e.1 = field.1 then field else e
        else own ++ [field]) own → e ∈ own ∨ e ∈ fields := by
    intro fields
    induction fields with
    | nil => exact fun own e h => .inl h
    | cons field fields ih =>
        intro own e h
        rcases ih _ e h with h | h
        · dsimp only at h
          split at h
          · obtain ⟨e', he', rfl⟩ := List.mem_map.mp h
            split
            · exact .inr List.mem_cons_self
            · exact .inl he'
          · rcases List.mem_append.mp h with h | h
            · exact .inl h
            · exact .inr (List.mem_cons.mpr (.inl (List.mem_singleton.mp h)))
        · exact .inr (List.mem_cons_of_mem field h)
  exact (fold fields [] e h).resolve_left List.not_mem_nil

theorem strings_ownProperties {fields : List (JsString × Json JsString)} {s : JsString}
    (h : s ∈ (obj (ownProperties fields)).strings) : s ∈ stringsFields fields := by
  obtain ⟨e, he, hs⟩ := mem_stringsFields.mp h
  exact mem_stringsFields.mpr ⟨e, mem_ownProperties he, hs⟩

/-- A part of a text was read: less is left, and the strings read are literals. -/
structure Reads (text rest : JsString) (strings : List JsString) : Prop where
  shorter : Shorter rest text
  literal : ∀ s ∈ strings, HasLiteral text s

theorem Reads.of_suffix {part text rest : JsString} {strings : List JsString}
    (h : Reads part rest strings) (hpart : part <:+ text) : Reads text rest strings :=
  ⟨h.shorter.trans_suffix hpart, fun s hs => (h.literal s hs).of_suffix hpart⟩

theorem Reads.of_shorter {text rest : JsString} (h : Shorter rest text) : Reads text rest [] :=
  ⟨h, fun _ hs => absurd hs List.not_mem_nil⟩

/-- One part after another. -/
theorem Reads.append {text middle rest : JsString} {strings strings' : List JsString}
    (h : Reads text middle strings) (h' : Reads middle rest strings') :
    Reads text rest (strings ++ strings') := by
  refine ⟨h'.shorter.trans_suffix h.shorter.1, fun s hs => ?_⟩
  rcases List.mem_append.mp hs with hs | hs
  · exact h.literal s hs
  · exact (h'.literal s hs).of_suffix h.shorter.1

theorem parseName_shorter {text name rest : JsString} (h : parseName text = some (name, rest)) :
    Shorter rest text := by
  cases text with
  | nil => cases h
  | cons u text =>
      simp only [parseName] at h
      split at h
      · obtain ⟨⟨name', after⟩, hname, h⟩ := Option.bind_eq_some_iff.mp h
        dsimp only at h
        split at h
        · cases h
        · rename_i v after' hskip
          split at h
          · cases h
            have hafter := (List.suffix_cons v rest).trans (cons_suffix_of_skipSpace hskip)
            exact shorter_of_suffix (hafter.trans (parseChars_shorter hname).1)
          · cases h
      · cases h

mutual

/-- What is left after a value is shorter, and its strings are literals of the text. -/
theorem parseValue_reads : ∀ n {text rest : JsString} {v : Json JsString},
    parseValue n text = some (v, rest) → Reads text rest v.strings
  | 0, _, _, _, h => by cases h
  | n + 1, text, rest, v, h => by
      simp only [parseValue] at h
      split at h
      · cases h
      rename_i u after hskip
      have hsuffix := cons_suffix_of_skipSpace hskip
      refine Reads.of_suffix ?_ hsuffix
      split at h
      · rename_i hquote
        obtain ⟨⟨s, after'⟩, hs, h⟩ := Option.bind_eq_some_iff.mp h
        cases h
        have hshort := parseChars_shorter hs
        refine ⟨shorter_of_suffix hshort.1, fun s' hs' => ?_⟩
        obtain rfl := List.mem_singleton.mp hs'
        exact ⟨after, after', hquote ▸ List.suffix_rfl, hs⟩
      split at h
      · exact (parseArray_reads n h).of_suffix (List.suffix_cons u after)
      split at h
      · exact (parseObject_reads n h).of_suffix (List.suffix_cons u after)
      split at h
      · rename_i hword
        cases h
        exact Reads.of_shorter (dropWord_shorter (by decide) hword)
      split at h
      · rename_i hword
        cases h
        exact Reads.of_shorter (dropWord_shorter (by decide) hword)
      split at h
      · rename_i hword
        cases h
        exact Reads.of_shorter (dropWord_shorter (by decide) hword)
      · obtain ⟨⟨number, after'⟩, hnumber, h⟩ := Option.bind_eq_some_iff.mp h
        cases h
        exact Reads.of_shorter (parseNumber_shorter hnumber)

theorem parseArray_reads : ∀ n {text rest : JsString} {v : Json JsString},
    parseArray n text = some (v, rest) → Reads text rest v.strings
  | 0, _, _, _, h => by cases h
  | n + 1, text, rest, v, h => by
      simp only [parseArray] at h
      split at h
      · cases h
      rename_i u after hskip
      refine Reads.of_suffix ?_ (cons_suffix_of_skipSpace hskip)
      split at h
      · cases h
        exact Reads.of_shorter (shorter_of_suffix List.suffix_rfl)
      · obtain ⟨⟨items, after'⟩, hitems, h⟩ := Option.bind_eq_some_iff.mp h
        cases h
        exact parseItems_reads n hitems

theorem parseItems_reads : ∀ n {text rest : JsString} {items : List (Json JsString)},
    parseItems n text = some (items, rest) → Reads text rest (stringsItems items)
  | 0, _, _, _, h => by cases h
  | n + 1, text, rest, items, h => by
      simp only [parseItems] at h
      obtain ⟨⟨v, after⟩, hv, h⟩ := Option.bind_eq_some_iff.mp h
      have hfirst := parseValue_reads n hv
      dsimp only at h
      split at h
      · cases h
      rename_i u after' hskip
      have hsuffix := cons_suffix_of_skipSpace hskip
      split at h
      · obtain ⟨⟨items', after''⟩, hitems, h⟩ := Option.bind_eq_some_iff.mp h
        cases h
        have hrest := (parseItems_reads n hitems).of_suffix (List.suffix_cons u after')
        exact hfirst.append (hrest.of_suffix hsuffix)
      · split at h
        · cases h
          have hrest := Reads.of_shorter (shorter_of_suffix (u := u) (List.suffix_refl rest))
          exact hfirst.append (hrest.of_suffix hsuffix)
        · cases h

theorem parseObject_reads : ∀ n {text rest : JsString} {v : Json JsString},
    parseObject n text = some (v, rest) → Reads text rest v.strings
  | 0, _, _, _, h => by cases h
  | n + 1, text, rest, v, h => by
      simp only [parseObject] at h
      split at h
      · cases h
      rename_i u after hskip
      refine Reads.of_suffix ?_ (cons_suffix_of_skipSpace hskip)
      split at h
      · cases h
        exact Reads.of_shorter (shorter_of_suffix List.suffix_rfl)
      · obtain ⟨⟨fields, after'⟩, hfields, h⟩ := Option.bind_eq_some_iff.mp h
        cases h
        have hreads := parseFields_reads n hfields
        exact ⟨hreads.shorter, fun s hs => hreads.literal s (strings_ownProperties hs)⟩

theorem parseFields_reads : ∀ n {text rest : JsString} {fields : List (JsString × Json JsString)},
    parseFields n text = some (fields, rest) → Reads text rest (stringsFields fields)
  | 0, _, _, _, h => by cases h
  | n + 1, text, rest, fields, h => by
      simp only [parseFields] at h
      obtain ⟨⟨name, named⟩, hname, h⟩ := Option.bind_eq_some_iff.mp h
      obtain ⟨⟨v, after⟩, hv, h⟩ := Option.bind_eq_some_iff.mp h
      have hnamed := (parseName_shorter hname).trans_suffix (skipSpace_suffix text)
      have hfirst := (parseValue_reads n hv).of_suffix hnamed.1
      dsimp only at h
      split at h
      · cases h
      rename_i u after' hskip
      have hsuffix := cons_suffix_of_skipSpace hskip
      split at h
      · obtain ⟨⟨fields', after''⟩, hfields, h⟩ := Option.bind_eq_some_iff.mp h
        cases h
        have hrest := (parseFields_reads n hfields).of_suffix (List.suffix_cons u after')
        exact hfirst.append (hrest.of_suffix hsuffix)
      · split at h
        · cases h
          have hrest := Reads.of_shorter (shorter_of_suffix (u := u) (List.suffix_refl rest))
          exact hfirst.append (hrest.of_suffix hsuffix)
        · cases h

end

theorem length_le_of_skipSpace {text rest : JsString} {u : UInt16}
    (h : skipSpace text = u :: rest) : rest.length + 1 ≤ text.length :=
  (cons_suffix_of_skipSpace h).length_le

mutual

/-- Beyond a bound that grows with the text, the bound does not matter. -/
theorem parseValue_bound : ∀ n m (text : JsString), 3 * text.length + 1 ≤ n →
    3 * text.length + 1 ≤ m → parseValue n text = parseValue m text
  | 0, _, _, hn, _ => by omega
  | _ + 1, 0, _, _, hm => by omega
  | n + 1, m + 1, text, hn, hm => by
      simp only [parseValue]
      cases hskip : skipSpace text with
      | nil => rfl
      | cons u rest =>
          have hlen := length_le_of_skipSpace hskip
          dsimp only
          rw [parseArray_bound n m rest (by omega) (by omega),
            parseObject_bound n m rest (by omega) (by omega)]

theorem parseArray_bound : ∀ n m (text : JsString), 3 * text.length + 3 ≤ n →
    3 * text.length + 3 ≤ m → parseArray n text = parseArray m text
  | 0, _, _, hn, _ => by omega
  | _ + 1, 0, _, _, hm => by omega
  | n + 1, m + 1, text, hn, hm => by
      simp only [parseArray]
      cases hskip : skipSpace text with
      | nil => rfl
      | cons u rest =>
          have hlen := length_le_of_skipSpace hskip
          dsimp only
          rw [parseItems_bound n m (u :: rest) (by rw [List.length_cons]; omega)
            (by rw [List.length_cons]; omega)]

theorem parseItems_bound : ∀ n m (text : JsString), 3 * text.length + 2 ≤ n →
    3 * text.length + 2 ≤ m → parseItems n text = parseItems m text
  | 0, _, _, hn, _ => by omega
  | _ + 1, 0, _, _, hm => by omega
  | n + 1, m + 1, text, hn, hm => by
      simp only [parseItems]
      rw [parseValue_bound n m text (by omega) (by omega)]
      refine Option.bind_congr fun ⟨v, after⟩ hv => ?_
      have hshort := (parseValue_reads m hv).shorter.2
      dsimp only
      cases hskip : skipSpace after with
      | nil => rfl
      | cons u rest =>
          have hlen := length_le_of_skipSpace hskip
          dsimp only
          rw [parseItems_bound n m rest (by omega) (by omega)]

theorem parseObject_bound : ∀ n m (text : JsString), 3 * text.length + 3 ≤ n →
    3 * text.length + 3 ≤ m → parseObject n text = parseObject m text
  | 0, _, _, hn, _ => by omega
  | _ + 1, 0, _, _, hm => by omega
  | n + 1, m + 1, text, hn, hm => by
      simp only [parseObject]
      cases hskip : skipSpace text with
      | nil => rfl
      | cons u rest =>
          have hlen := length_le_of_skipSpace hskip
          dsimp only
          rw [parseFields_bound n m (u :: rest) (by rw [List.length_cons]; omega)
            (by rw [List.length_cons]; omega)]

theorem parseFields_bound : ∀ n m (text : JsString), 3 * text.length + 2 ≤ n →
    3 * text.length + 2 ≤ m → parseFields n text = parseFields m text
  | 0, _, _, hn, _ => by omega
  | _ + 1, 0, _, _, hm => by omega
  | n + 1, m + 1, text, hn, hm => by
      simp only [parseFields]
      refine Option.bind_congr fun ⟨name, named⟩ hname => ?_
      have hnamed := (parseName_shorter hname).trans_suffix (skipSpace_suffix text)
      have hlt := hnamed.2
      dsimp only
      rw [parseValue_bound n m named (by omega) (by omega)]
      refine Option.bind_congr fun ⟨v, after⟩ hv => ?_
      have hshort := (parseValue_reads m hv).shorter.2
      dsimp only
      cases hskip : skipSpace after with
      | nil => rfl
      | cons u rest =>
          have hlen := length_le_of_skipSpace hskip
          dsimp only
          rw [parseFields_bound n m rest (by omega) (by omega)]

end

/-- `parse` takes enough fuel: a text has the same value with more of it. -/
theorem parse_eq_some_iff {text : JsString} {v : Json JsString} :
    parse text = some v ↔ ∃ n rest, 3 * text.length + 1 ≤ n ∧
      parseValue n text = some (v, rest) ∧ skipSpace rest = [] := by
  constructor
  · intro h
    obtain ⟨⟨v', rest⟩, hv, h⟩ := Option.bind_eq_some_iff.mp h
    dsimp only at h
    split at h
    · cases h
      exact ⟨_, rest, le_rfl, hv, ‹_›⟩
    · cases h
  · rintro ⟨n, rest, hn, hv, hrest⟩
    rw [parseValue_bound n (3 * text.length + 1) text hn le_rfl] at hv
    simp [parse, hv, hrest]

/-- Every string that occurs in the value of a text is a literal of the text. -/
theorem hasLiteral_of_parse {text s : JsString} {v : Json JsString} (h : parse text = some v)
    (hs : s ∈ v.strings) : HasLiteral text s := by
  obtain ⟨n, rest, -, hv, -⟩ := parse_eq_some_iff.mp h
  exact (parseValue_reads n hv).literal s hs

end Json

end TaroTria
