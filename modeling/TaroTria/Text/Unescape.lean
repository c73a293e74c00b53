import TaroTria.Text.Escape

/-!
# Reading escaped text back

A chain of replacements changes each character once, when no replacement acts on what an
earlier one has written. If all entities begin with one marker and none begins another,
they can be replaced back from left to right.
-/

namespace TaroTria.Text

variable {entities : List (Char × String)}

/-- What becomes of one character. -/
def entityOf (entities : List (Char × String)) (c : Char) : List Char :=
  ((entities.lookup c).map String.toList).getD [c]

/-- No replacement of a table acts on what an earlier one has written. -/
def InOrder (entities : List (Char × String)) : Prop :=
  entities.Pairwise fun e e' => e'.1 ∉ e.2.toList

/-- A table whose entities can be read back: they begin with the marker `m`, which is
replaced itself, they do not contain it again, and none begins another. -/
structure Readable (m : Char) (entities : List (Char × String)) : Prop where
  inOrder : InOrder entities
  replaced : m ∈ entities.map Prod.fst
  marked : ∀ e ∈ entities, ∃ rest, e.2.toList = m :: rest ∧ m ∉ rest
  unambiguous : ∀ e ∈ entities, ∀ e' ∈ entities, e.2.toList <+: e'.2.toList → e = e'

/-- The entity at the start of a text. -/
def entity? (entities : List (Char × String)) (text : List Char) : Option (Char × String) :=
  entities.find? fun e => e.2.toList.isPrefixOf text

/-- A text with its entities replaced by their characters from left to right, from a
position on that `skip` more characters belong to the last entity. -/
def unescapeFrom (entities : List (Char × String)) : (skip : Nat) → List Char → List Char
  | _, [] => []
  | skip + 1, _ :: rest => unescapeFrom entities skip rest
  | 0, c :: rest =>
      match entity? entities (c :: rest) with
      | some e => e.1 :: unescapeFrom entities (e.2.toList.length - 1) rest
      | none => c :: unescapeFrom entities 0 rest

def unescape (entities : List (Char × String)) (text : String) : String :=
  String.ofList (unescapeFrom entities 0 text.toList)

theorem lookup_eq_none_iff {c : Char} :
    entities.lookup c = none ↔ c ∉ entities.map Prod.fst := by
  rw [List.lookup_eq_none_iff]
  simp only [List.mem_map, not_exists, not_and, bne_iff_ne, ne_eq]
  exact forall₂_congr fun e _ => not_congr eq_comm

/-- A character is replaced by its entity, or it has none and stays. -/
theorem entityOf_cases (entities : List (Char × String)) (c : Char) :
    (∃ entity, (c, entity) ∈ entities ∧ entityOf entities c = entity.toList) ∨
      (c ∉ entities.map Prod.fst ∧ entityOf entities c = [c]) := by
  unfold entityOf
  cases h : entities.lookup c with
  | some entity =>
      refine .inl ⟨entity, ?_, rfl⟩
      obtain ⟨before, after, rfl, -⟩ := List.lookup_eq_some_iff.mp h
      simp
  | none => exact .inr ⟨lookup_eq_none_iff.mp h, rfl⟩

theorem flatMap_entityOf_self {text : List Char} (h : ∀ e ∈ entities, e.1 ∉ text) :
    text.flatMap (entityOf entities) = text := by
  induction text with
  | nil => rfl
  | cons c text ih =>
      have hc : entities.lookup c = none := by
        rw [lookup_eq_none_iff, List.mem_map]
        rintro ⟨e, he, rfl⟩
        exact h e he List.mem_cons_self
      rw [List.flatMap_cons, ih fun e he hmem => h e he (List.mem_cons_of_mem c hmem), entityOf, hc]
      rfl

/-- The replacements, made one after the other, change each character once. -/
theorem toList_escape (h : InOrder entities) (text : String) :
    (escape entities text).toList = text.toList.flatMap (entityOf entities) := by
  induction entities generalizing text with
  | nil => exact (flatMap_entityOf_self (by simp)).symm
  | cons e entities ih =>
      obtain ⟨hlater, hrest⟩ := List.pairwise_cons.mp h
      calc
        (escape (e :: entities) text).toList
            = (escape entities (replaceAll e.1 e.2 text)).toList := rfl
        _ = (text.toList.flatMap fun c => if c = e.1 then e.2.toList else [c]).flatMap
              (entityOf entities) := by
          rw [ih hrest, replaceAll, String.toList_ofList]
        _ = text.toList.flatMap fun c =>
              (if c = e.1 then e.2.toList else [c]).flatMap (entityOf entities) :=
          List.flatMap_assoc
        _ = text.toList.flatMap (entityOf (e :: entities)) := by
          congr 1
          funext c
          by_cases hc : c = e.1
          · rw [if_pos hc, flatMap_entityOf_self hlater, entityOf, hc, List.lookup_cons_self]
            rfl
          · rw [if_neg hc, List.flatMap_singleton, entityOf, entityOf, List.lookup_cons,
              beq_eq_false_iff_ne.mpr hc]

section Reading

variable {m : Char} (h : Readable m entities)
include h

theorem Readable.entity?_append {e : Char × String} (he : e ∈ entities) (rest : List Char) :
    entity? entities (e.2.toList ++ rest) = some e := by
  cases hfind : entity? entities (e.2.toList ++ rest) with
  | none =>
      have hnone := List.find?_eq_none.mp hfind e he
      simp at hnone
  | some e' =>
      have he' : e' ∈ entities := List.mem_of_find?_eq_some hfind
      have hprefix : e'.2.toList.isPrefixOf (e.2.toList ++ rest) = true := by
        simpa using List.find?_some hfind
      rw [List.isPrefixOf_iff_prefix] at hprefix
      -- One of two beginnings of a text begins the other.
      rcases List.prefix_or_prefix_of_prefix hprefix (List.prefix_append _ _) with hle | hle
      · rw [h.unambiguous e' he' e he hle]
      · rw [h.unambiguous e he e' he' hle]

theorem Readable.entity?_cons {c : Char} (hc : c ≠ m) (rest : List Char) :
    entity? entities (c :: rest) = none := by
  refine List.find?_eq_none.mpr fun e he hprefix => hc ?_
  obtain ⟨tail, htail, -⟩ := h.marked e he
  rw [htail, List.isPrefixOf_iff_prefix, List.cons_prefix_cons] at hprefix
  exact hprefix.1.symm

omit h in
theorem unescapeFrom_skip (skipped rest : List Char) :
    unescapeFrom entities skipped.length (skipped ++ rest) = unescapeFrom entities 0 rest := by
  induction skipped with
  | nil => rfl
  | cons c skipped ih => exact ih

theorem Readable.unescapeFrom_entity {e : Char × String} (he : e ∈ entities) (rest : List Char) :
    unescapeFrom entities 0 (e.2.toList ++ rest) = e.1 :: unescapeFrom entities 0 rest := by
  have hentity := h.entity?_append he rest
  obtain ⟨tail, htail, -⟩ := h.marked e he
  rw [htail, List.cons_append] at hentity ⊢
  simp only [unescapeFrom, hentity, htail, List.length_cons, Nat.add_sub_cancel,
    unescapeFrom_skip]

theorem Readable.unescapeFrom_flatMap (text : List Char) :
    unescapeFrom entities 0 (text.flatMap (entityOf entities)) = text := by
  induction text with
  | nil => rfl
  | cons c text ih =>
      rw [List.flatMap_cons]
      rcases entityOf_cases entities c with ⟨entity, he, hc⟩ | ⟨hnot, hc⟩
      · rw [hc, h.unescapeFrom_entity he, ih]
      · have hne : c ≠ m := fun hcm => hnot (hcm ▸ h.replaced)
        rw [hc, List.singleton_append, unescapeFrom, h.entity?_cons hne, ih]

/-- What was escaped is read back. -/
theorem Readable.unescape_escape (text : String) :
    unescape entities (escape entities text) = text := by
  rw [unescape, toList_escape h.inOrder, h.unescapeFrom_flatMap, String.ofList_toList]

theorem Readable.escape_injective : Function.Injective (escape entities) :=
  Function.LeftInverse.injective h.unescape_escape

/-- Every marker in an escaped text starts an entity. -/
theorem Readable.marker_starts {text before after : List Char}
    (htext : text.flatMap (entityOf entities) = before ++ m :: after) :
    ∃ e ∈ entities, e.2.toList <+: m :: after := by
  induction text generalizing before with
  | nil => simp at htext
  | cons c text ih =>
      rw [List.flatMap_cons] at htext
      rcases List.append_eq_append_iff.mp htext with ⟨before', -, hrest⟩ | ⟨part, hpart, hrest⟩
      · exact ih hrest
      · rcases part with _ | ⟨d, part⟩
        · have hnow : text.flatMap (entityOf entities) = [] ++ m :: after := hrest.symm
          exact ih hnow
        · obtain ⟨rfl, hafter⟩ := List.cons.inj hrest
          rcases entityOf_cases entities c with ⟨entity, he, hc⟩ | ⟨hnot, hc⟩
          · obtain ⟨tail, htail, hmark⟩ := h.marked _ he
            rw [hc, htail] at hpart
            -- The marker stands only at the start of the entity.
            rcases before with _ | ⟨b, before⟩
            · refine ⟨_, he, text.flatMap (entityOf entities), ?_⟩
              rw [htail, hpart, hafter]
              rfl
            · obtain ⟨-, rfl⟩ := List.cons.inj hpart
              simp at hmark
          · rw [hc] at hpart
            rcases before with _ | ⟨b, before⟩
            · obtain ⟨rfl, -⟩ := List.cons.inj hpart
              exact absurd h.replaced hnot
            · simp at hpart

end Reading

end TaroTria.Text
