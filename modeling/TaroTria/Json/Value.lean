import Mathlib.Data.List.Basic

/-!
# JSON values

The values that `JSON.parse` makes and that a `Json` column holds, over any
type of strings and any type of numbers. Where nothing else is said, a number is
the decimal that its literal names. The fields of an object are its own properties,
each name once.
-/

namespace TaroTria

/-- The UTF-16 code units of a string. -/
abbrev JsString := List UInt16

/-- The characters of code units, where a surrogate without its partner is U+FFFD. -/
def JsString.toChars : JsString → List Char
  | [] => []
  | [u] => [if 0xD800 ≤ u ∧ u < 0xE000 then '\uFFFD' else Char.ofNat u.toNat]
  | u :: v :: rest =>
      if 0xD800 ≤ u ∧ u < 0xDC00 ∧ 0xDC00 ≤ v ∧ v < 0xE000 then
        Char.ofNat (0x10000 + (u.toNat - 0xD800) * 0x400 + (v.toNat - 0xDC00)) :: toChars rest
      else (if 0xD800 ≤ u ∧ u < 0xE000 then '\uFFFD' else Char.ofNat u.toNat) ::
        toChars (v :: rest)

def JsString.toString (s : JsString) : String := String.ofList (toChars s)

/-- The code unit of a character of the basic plane. -/
def JsString.unit (c : Char) : UInt16 := UInt16.ofNat c.toNat

/-- The code units of a text. -/
def JsString.ofString (s : String) : JsString :=
  s.toList.flatMap fun c =>
    if c.toNat < 0x10000 then [UInt16.ofNat c.toNat]
    else [UInt16.ofNat (0xD800 + (c.toNat - 0x10000) / 0x400),
      UInt16.ofNat (0xDC00 + (c.toNat - 0x10000) % 0x400)]

/-- The code units of the ASCII text that names a field. -/
def JsString.ofAscii (s : List Char) : JsString := s.map fun c => UInt16.ofNat c.toNat

/-- The number `mantissa * 10 ^ exponent`. -/
structure Json.Decimal where
  mantissa : Int
  exponent : Int
  deriving DecidableEq, Repr

inductive Json (Str : Type) (Num : Type := Json.Decimal)
  | null
  | bool (b : Bool)
  | num (n : Num)
  | str (s : Str)
  | arr (items : List (Json Str Num))
  | obj (fields : List (Str × Json Str Num))
  deriving Repr

namespace Json

variable {Str Num : Type} [DecidableEq Str] [DecidableEq Num]

mutual

def beq : Json Str Num → Json Str Num → Bool
  | null, null => true
  | bool b, bool b' => b == b'
  | num n, num n' => n == n'
  | str s, str s' => s == s'
  | arr items, arr items' => beqItems items items'
  | obj fields, obj fields' => beqFields fields fields'
  | _, _ => false

def beqItems : List (Json Str Num) → List (Json Str Num) → Bool
  | [], [] => true
  | v :: items, v' :: items' => beq v v' && beqItems items items'
  | _, _ => false

def beqFields : List (Str × Json Str Num) → List (Str × Json Str Num) → Bool
  | [], [] => true
  | (k, v) :: fields, (k', v') :: fields' => k == k' && beq v v' && beqFields fields fields'
  | _, _ => false

end

mutual

theorem beq_iff : ∀ v v' : Json Str Num, v.beq v' = true ↔ v = v'
  | null, v' => by cases v' <;> simp [beq]
  | bool b, v' => by cases v' <;> simp [beq]
  | num n, v' => by cases v' <;> simp [beq]
  | str s, v' => by cases v' <;> simp [beq]
  | arr items, v' => by cases v' <;> simp [beq, beqItems_iff items]
  | obj fields, v' => by cases v' <;> simp [beq, beqFields_iff fields]

theorem beqItems_iff : ∀ items items' : List (Json Str Num),
    beqItems items items' = true ↔ items = items'
  | [], items' => by cases items' <;> simp [beqItems]
  | v :: items, items' => by cases items' <;> simp [beqItems, beq_iff v, beqItems_iff items]

theorem beqFields_iff : ∀ fields fields' : List (Str × Json Str Num),
    beqFields fields fields' = true ↔ fields = fields'
  | [], fields' => by cases fields' <;> simp [beqFields]
  | (k, v) :: fields, fields' => by
      rcases fields' with _ | ⟨⟨k', v'⟩, fields'⟩ <;>
        simp [beqFields, beq_iff v, beqFields_iff fields]

end

instance : DecidableEq (Json Str Num) := fun v v' => decidable_of_iff _ (beq_iff v v')

mutual

/-- The string values that occur in a value. -/
def strings : Json Str Num → List Str
  | str s => [s]
  | arr items => stringsItems items
  | obj fields => stringsFields fields
  | _ => []

def stringsItems : List (Json Str Num) → List Str
  | [] => []
  | v :: items => v.strings ++ stringsItems items

def stringsFields : List (Str × Json Str Num) → List Str
  | [] => []
  | (_, v) :: fields => v.strings ++ stringsFields fields

end

omit [DecidableEq Str] [DecidableEq Num] in
theorem mem_stringsFields {fields : List (Str × Json Str Num)} {s : Str} :
    s ∈ stringsFields fields ↔ ∃ e ∈ fields, s ∈ e.2.strings := by
  induction fields with
  | nil => simp [stringsFields]
  | cons e fields ih => simp [stringsFields, ih]

/-- A property of an object. -/
def field? (name : Str) : Json Str Num → Option (Json Str Num)
  | obj fields => fields.lookup name
  | _ => none

omit [DecidableEq Num] in
/-- The strings of a property are strings of its object. -/
theorem strings_subset_of_field? {v field : Json Str Num} {name : Str}
    (h : v.field? name = some field) : field.strings ⊆ v.strings := by
  cases v with
  | obj fields =>
      have hmem : (name, field) ∈ fields := by
        simp only [field?] at h
        obtain ⟨l₁, l₂, rfl, -⟩ := List.lookup_eq_some_iff.mp h
        exact List.mem_append_right l₁ List.mem_cons_self
      exact fun s hs => mem_stringsFields.mpr ⟨_, hmem, hs⟩
  | _ => cases h

end Json

end TaroTria
