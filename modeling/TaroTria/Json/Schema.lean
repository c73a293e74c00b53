import Mathlib.Data.Option.Basic
import TaroTria.Json.Value

/-!
# Schemas of JSON values

The validators that `zod` builds from strings, booleans, arrays and objects. A
schema keeps the strings of a value as they are, and drops the properties that
an object schema does not name.
-/

namespace TaroTria

namespace Json

/-- A validator. Strings and arrays have a least length, and an array may have a
greatest one; the properties of an object are all required. -/
inductive Schema
  | boolean
  | string (min : Nat)
  | array (item : Schema) (min : Nat) (max : Option Nat)
  | object (shape : List (JsString × Schema))

namespace Schema

/-- The number of items of an array is within its bounds. -/
def allowsSize (min : Nat) (max : Option Nat) (size : Nat) : Bool :=
  min ≤ size && max.all fun max => size ≤ max

mutual

/-- The value that a schema accepts, if it does. -/
def safeParse : Schema → Json JsString → Option (Json JsString)
  | boolean, .bool b => some (.bool b)
  | string min, .str s => if min ≤ s.length then some (.str s) else none
  | array item min max, .arr items => do
      let items ← items.mapM (item.safeParse ·)
      if allowsSize min max items.length then
        return .arr items
      else none
  | object shape, .obj fields => do
      return .obj (← safeParseShape shape (.obj fields))
  | _, _ => none

def safeParseShape : List (JsString × Schema) → Json JsString →
    Option (List (JsString × Json JsString))
  | [], _ => some []
  | (name, schema) :: shape, value => do
      let field ← value.field? name
      let field ← schema.safeParse field
      let fields ← safeParseShape shape value
      return (name, field) :: fields

end

theorem mapM_strings_subset {f : Json JsString → Option (Json JsString)}
    (hf : ∀ {v data}, f v = some data → data.strings ⊆ v.strings)
    {items datas : List (Json JsString)} (h : items.mapM f = some datas) :
    stringsItems datas ⊆ stringsItems items := by
  induction items generalizing datas with
  | nil =>
      cases h
      exact List.Subset.refl _
  | cons v items ih =>
      simp only [List.mapM_cons, Option.bind_eq_bind, Option.bind_eq_some_iff, Option.pure_def,
        Option.some.injEq] at h
      obtain ⟨data, hdata, datas', hdatas, rfl⟩ := h
      simp only [stringsItems]
      exact List.append_subset.mpr ⟨List.subset_append_of_subset_left _ (hf hdata),
        List.subset_append_of_subset_right _ (ih hdatas)⟩

mutual

/-- A schema makes no string of its own. -/
theorem strings_safeParse_subset : ∀ (schema : Schema) {v data : Json JsString},
    schema.safeParse v = some data → data.strings ⊆ v.strings
  | boolean, v, data, h => by
      cases v with
      | bool b =>
          cases h
          exact List.Subset.refl _
      | _ => cases h
  | string min, v, data, h => by
      cases v with
      | str s =>
          simp only [safeParse] at h
          split at h
          · cases h
            exact List.Subset.refl _
          · cases h
      | _ => cases h
  | array item min max, v, data, h => by
      cases v with
      | arr items =>
          simp only [safeParse] at h
          obtain ⟨datas, hdatas, h⟩ := Option.bind_eq_some_iff.mp h
          split at h
          · cases h
            exact mapM_strings_subset (fun hv => strings_safeParse_subset item hv) hdatas
          · cases h
      | _ => cases h
  | object shape, v, data, h => by
      cases v with
      | obj fields =>
          simp only [safeParse] at h
          obtain ⟨datas, hdatas, h⟩ := Option.bind_eq_some_iff.mp h
          cases h
          exact strings_safeParseShape_subset shape hdatas
      | _ => cases h

theorem strings_safeParseShape_subset : ∀ (shape : List (JsString × Schema))
    {v : Json JsString} {fields : List (JsString × Json JsString)},
    safeParseShape shape v = some fields → stringsFields fields ⊆ v.strings
  | [], v, fields, h => by
      cases h
      exact List.nil_subset _
  | (name, schema) :: shape, v, fields, h => by
      simp only [safeParseShape] at h
      obtain ⟨field, hfield, h⟩ := Option.bind_eq_some_iff.mp h
      obtain ⟨data, hdata, h⟩ := Option.bind_eq_some_iff.mp h
      obtain ⟨rest, hrest, h⟩ := Option.bind_eq_some_iff.mp h
      cases h
      have hfirst := List.Subset.trans (strings_safeParse_subset schema hdata)
        (strings_subset_of_field? hfield)
      exact List.append_subset.mpr ⟨hfirst, strings_safeParseShape_subset shape hrest⟩

end

end Schema

end Json

end TaroTria
