import Mathlib.Data.List.AList
import Mathlib.Data.List.MinMax
import Mathlib.Algebra.BigOperators.Group.List.Basic
import Mathlib.Algebra.Ring.Int.Defs

/-!
# Keyed tables

A table is a finite association list with distinct keys, so a key addresses at
most one row. Rows have no order: a query that needs one sorts by a column.
-/

namespace TaroTria.Transactions

/-- A table with unique key `K` and rows `V`. -/
abbrev Table (K V : Type) := AList fun _ : K => V

namespace Table

variable {K V : Type} [DecidableEq K]

/-- Store a row under its key, or remove the row when none is given. -/
def write (t : Table K V) (k : K) : Option V → Table K V
  | some v => t.insert k v
  | none => t.erase k

theorem lookup_write (t : Table K V) (k k' : K) (v : Option V) :
    (t.write k v).lookup k' = if k' = k then v else t.lookup k' := by
  by_cases h : k' = k
  · subst h
    cases v <;> simp [write]
  · cases v <;> simp [write, h]

@[simp] theorem lookup_write_self (t : Table K V) (k : K) (v : Option V) :
    (t.write k v).lookup k = v := by
  simp [lookup_write]

theorem lookup_write_of_ne (t : Table K V) {k k' : K} (v : Option V) (h : k' ≠ k) :
    (t.write k v).lookup k' = t.lookup k' := by
  simp [lookup_write, h]

theorem lookup_write_congr {t t' : Table K V} {k : K} (k' : K) (v : Option V)
    (h : t.lookup k = t'.lookup k) : (t.write k' v).lookup k = (t'.write k' v).lookup k := by
  simp only [lookup_write, h]

/-- The only row of a table. -/
theorem eq_of_lookup_single {k k' : K} {v v' : V}
    (h : ((∅ : Table K V).write k (some v)).lookup k' = some v') : k' = k ∧ v' = v := by
  rw [lookup_write] at h
  split at h
  · exact ⟨‹_›, (Option.some.inj h).symm⟩
  · simp at h

/-- The rows of a table, with their keys. -/
def toRows (t : Table K V) : List (K × V) :=
  t.entries.map fun e => (e.1, e.2)

theorem mem_toRows (t : Table K V) (k : K) (v : V) :
    (k, v) ∈ t.toRows ↔ t.lookup k = some v := by
  rw [← Option.mem_def, AList.mem_lookup_iff]
  simp only [toRows, List.mem_map, Prod.mk.injEq]
  constructor
  · rintro ⟨e, he, rfl, rfl⟩
    exact he
  · intro h
    exact ⟨⟨k, v⟩, h, rfl, rfl⟩

/-- The rows satisfying a `where` clause. -/
def findMany (t : Table K V) (p : K → V → Bool) : List (K × V) :=
  t.toRows.filter fun e => p e.1 e.2

theorem mem_findMany (t : Table K V) (p : K → V → Bool) (k : K) (v : V) :
    (k, v) ∈ t.findMany p ↔ t.lookup k = some v ∧ p k v = true := by
  simp [findMany, mem_toRows]

omit [DecidableEq K] in
theorem nodup_keys_findMany (t : Table K V) (p : K → V → Bool) :
    ((t.findMany p).map Prod.fst).Nodup := by
  have hkeys : t.toRows.map Prod.fst = t.entries.keys := by simp [toRows, List.keys]
  exact List.Nodup.sublist (List.Sublist.map _ List.filter_sublist) (hkeys ▸ t.nodupKeys)

theorem findMany_eq_nil {t : Table K V} {p : K → V → Bool} :
    t.findMany p = [] ↔ ∀ k v, t.lookup k = some v → p k v = false := by
  rw [List.eq_nil_iff_forall_not_mem]
  constructor
  · intro h k v hlookup
    by_contra hp
    exact h (k, v) ((mem_findMany t p k v).mpr ⟨hlookup, by simpa using hp⟩)
  · rintro h ⟨k, v⟩ hmem
    obtain ⟨hlookup, hp⟩ := (mem_findMany t p k v).mp hmem
    simp [h k v hlookup] at hp

/-- The only row of a `where` clause. -/
theorem head?_findMany {t : Table K V} {p : K → V → Bool} {k : K} {v : V}
    (h : t.lookup k = some v) (hp : p k v = true)
    (hsole : ∀ k' v', t.lookup k' = some v' → p k' v' = true → k' = k) :
    (t.findMany p).head? = some (k, v) := by
  rcases hrows : t.findMany p with _ | ⟨⟨k', v'⟩, rest⟩
  · simp [findMany_eq_nil.mp hrows k v h] at hp
  · obtain ⟨h', hp'⟩ := (mem_findMany t p k' v').mp (by simp [hrows])
    obtain rfl := hsole k' v' h' hp'
    rw [h, Option.some.injEq] at h'
    rw [h', List.head?_cons]

/-- `findFirst` with a descending order of the keys by `rank`. -/
def last (t : Table K V) (p : K → V → Bool) (rank : K → Nat) : Option (K × V) :=
  (t.findMany p).argmax fun e => rank e.1

theorem last_spec {t : Table K V} {p : K → V → Bool} {rank : K → Nat} {k : K} {v : V}
    (h : t.last p rank = some (k, v)) : t.lookup k = some v ∧ p k v = true ∧
      ∀ k' v', t.lookup k' = some v' → p k' v' = true → rank k' ≤ rank k := by
  obtain ⟨hlookup, hp⟩ := (mem_findMany t p k v).mp (List.argmax_mem h)
  exact ⟨hlookup, hp, fun k' v' hlookup' hp' =>
    List.le_of_mem_argmax (f := fun e : K × V => rank e.1)
      ((mem_findMany t p k' v').mpr ⟨hlookup', hp'⟩) h⟩

theorem last_eq_none {t : Table K V} {p : K → V → Bool} {rank : K → Nat} :
    t.last p rank = none ↔ ∀ k v, t.lookup k = some v → p k v = false := by
  rw [last, List.argmax_eq_none, findMany_eq_nil]

/-- Whether some row satisfies a `where` clause. -/
def existsRow (t : Table K V) (p : K → V → Bool) : Bool :=
  t.toRows.any fun e => p e.1 e.2

/-- The sum of a column over the rows. -/
def sumBy (t : Table K V) (f : V → Int) : Int :=
  (t.entries.map fun e => f e.2).sum

omit [DecidableEq K] in
@[simp] theorem sumBy_empty (f : V → Int) : sumBy (∅ : Table K V) f = 0 := rfl

/-- A row under a fresh key adds its own summand. -/
theorem sumBy_write_fresh {t : Table K V} {k : K} (v : V) (f : V → Int)
    (h : t.lookup k = none) : (t.write k (some v)).sumBy f = f v + t.sumBy f := by
  have hk : k ∉ t := (AList.lookup_eq_none).mp h
  simp only [write, sumBy, AList.entries_insert_of_notMem hk, List.map_cons, List.sum_cons]

/-- The number of rows satisfying a `where` clause. -/
def count (t : Table K V) (p : K → V → Bool) : Nat := (t.findMany p).length

omit [DecidableEq K] in
@[simp] theorem count_empty (p : K → V → Bool) : count (∅ : Table K V) p = 0 := rfl

omit [DecidableEq K] in
theorem count_eq_countP (t : Table K V) (p : K → V → Bool) :
    t.count p = t.entries.countP fun e => p e.1 e.2 := by
  simp only [count, findMany, toRows, ← List.countP_eq_length_filter, List.countP_map]
  rfl

omit [DecidableEq K] in
/-- Counting among the rows of a `where` clause. -/
theorem countP_findMany (t : Table K V) (p q : K → V → Bool) :
    (t.findMany p).countP (fun e => q e.1 e.2) = t.count fun k v => q k v && p k v := by
  rw [count, findMany, findMany, List.countP_filter, List.countP_eq_length_filter]

theorem count_congr {t : Table K V} {p q : K → V → Bool}
    (h : ∀ k v, t.lookup k = some v → p k v = q k v) : t.count p = t.count q := by
  rw [count_eq_countP, count_eq_countP]
  refine List.countP_congr fun e he => ?_
  rw [h e.1 e.2 (AList.mem_lookup_iff.mpr he)]

omit [DecidableEq K] in
theorem count_le_length (t : Table K V) (p : K → V → Bool) : t.count p ≤ t.entries.length := by
  rw [count_eq_countP]
  exact List.countP_le_length

theorem count_eq_zero {t : Table K V} {p : K → V → Bool}
    (h : ∀ k v, t.lookup k = some v → p k v = false) : t.count p = 0 := by
  rw [count_eq_countP, List.countP_eq_zero]
  intro e he
  simp [h e.1 e.2 (AList.mem_lookup_iff.mpr he)]

/-- At most one row has a key. -/
theorem count_key (t : Table K V) (k : K) :
    (t.count fun k' _ => decide (k' = k)) = if (t.lookup k).isSome then 1 else 0 := by
  have hkeys : t.entries.countP (fun e => decide (e.1 = k)) = t.entries.keys.count k := by
    rw [List.keys, List.count, List.countP_map]
    rfl
  rw [count_eq_countP, hkeys, List.Nodup.count t.nodupKeys]
  exact if_congr AList.lookup_isSome.symm rfl rfl

theorem count_write_fresh {t : Table K V} {k : K} (v : V) (p : K → V → Bool)
    (h : t.lookup k = none) :
    (t.write k (some v)).count p = t.count p + if p k v then 1 else 0 := by
  have hk : k ∉ t := (AList.lookup_eq_none).mp h
  rw [count_eq_countP, count_eq_countP, write, AList.entries_insert_of_notMem hk, List.countP_cons]

theorem findMany_write_fresh {t : Table K V} {k : K} (v : V) (p : K → V → Bool)
    (h : t.lookup k = none) : (t.write k (some v)).findMany p =
      if p k v then (k, v) :: t.findMany p else t.findMany p := by
  have hk : k ∉ t := (AList.lookup_eq_none).mp h
  simp only [findMany, toRows, write, AList.entries_insert_of_notMem hk, List.map_cons,
    List.filter_cons]

/-- The row replaced is no longer counted, the new one is. -/
theorem count_write_of_lookup {t : Table K V} {k : K} {v : V} (v' : V) (p : K → V → Bool)
    (h : t.lookup k = some v) :
    (t.write k (some v')).count p + (if p k v then 1 else 0) =
      t.count p + if p k v' then 1 else 0 := by
  have hmem : (⟨k, v⟩ : Sigma fun _ : K => V) ∈ t.entries := AList.mem_lookup_iff.mp h
  obtain ⟨w, l₁, l₂, hnot, hsplit, herase⟩ := List.exists_of_kerase (List.mem_keys_of_mem hmem)
  have hw : w = v := by
    have hw' : (⟨k, w⟩ : Sigma fun _ : K => V) ∈ t.entries := by simp [hsplit]
    have hlookup : t.lookup k = some w := AList.mem_lookup_iff.mpr hw'
    exact Option.some.inj (hlookup.symm.trans h)
  subst hw
  rw [count_eq_countP, count_eq_countP, write, AList.entries_insert, herase, hsplit]
  simp only [List.countP_cons, List.countP_append]
  omega

theorem count_write_same {t : Table K V} {k : K} {v : V} (v' : V) (p : K → V → Bool)
    (h : t.lookup k = some v) (hp : p k v' = p k v) :
    (t.write k (some v')).count p = t.count p := by
  have hcount := count_write_of_lookup v' p h
  rw [hp] at hcount
  exact Nat.add_right_cancel hcount

/-- Tables whose rows agree under each key, as far as `f` shows, have the same rows as
far as `f` shows. -/
theorem perm_toRows {t t' : Table K V} {β : Type} (f : V → β)
    (h : ∀ k, (t.lookup k).map f = (t'.lookup k).map f) :
    (t.toRows.map fun e => (e.1, f e.2)).Perm (t'.toRows.map fun e => (e.1, f e.2)) := by
  have nodup : ∀ t : Table K V, (t.toRows.map fun e => (e.1, f e.2)).Nodup := by
    intro t
    refine List.Nodup.of_map Prod.fst ?_
    have hkeys : (t.toRows.map fun e => (e.1, f e.2)).map Prod.fst = t.entries.keys := by
      simp [toRows, List.keys]
    rw [hkeys]
    exact t.nodupKeys
  have mem : ∀ (t : Table K V) k b, (k, b) ∈ (t.toRows.map fun e => (e.1, f e.2)) ↔
      (t.lookup k).map f = some b := by
    intro t k b
    simp only [List.mem_map, Prod.exists, Prod.mk.injEq, Option.map_eq_some_iff, mem_toRows]
    constructor
    · rintro ⟨k', v, hv, rfl, rfl⟩
      exact ⟨v, hv, rfl⟩
    · rintro ⟨v, hv, rfl⟩
      exact ⟨k, v, hv, rfl, rfl⟩
  refine (List.perm_ext_iff_of_nodup (nodup t) (nodup t')).mpr ?_
  rintro ⟨k, b⟩
  rw [mem, mem, h]

theorem sumBy_congr {t t' : Table K V} {β : Type} (f : V → β) (g : β → Int)
    (h : ∀ k, (t.lookup k).map f = (t'.lookup k).map f) :
    (t.sumBy fun v => g (f v)) = t'.sumBy fun v => g (f v) := by
  have hsum : ∀ t : Table K V, (t.sumBy fun v => g (f v)) =
      ((t.toRows.map fun e => (e.1, f e.2)).map fun e => g e.2).sum := by
    intro t
    simp only [sumBy, toRows, List.map_map]
    rfl
  rw [hsum, hsum]
  exact ((perm_toRows f h).map _).sum_eq

/-- Rows that correspond one to one, by a key that each row names, show the same values. -/
theorem perm_findMany_of_bijOn {K' V' β : Type} [DecidableEq K'] {t : Table K V}
    {t' : Table K' V'} {p : K → V → Bool} {p' : K' → V' → Bool} (f : V → β) (g : V' → β)
    (φ : K → V → K')
    (maps : ∀ k v, t.lookup k = some v → p k v = true →
      ∃ v', t'.lookup (φ k v) = some v' ∧ p' (φ k v) v' = true ∧ g v' = f v)
    (inj : ∀ k v l w, t.lookup k = some v → p k v = true → t.lookup l = some w → p l w = true →
      φ k v = φ l w → k = l)
    (surj : ∀ k' v', t'.lookup k' = some v' → p' k' v' = true →
      ∃ k v, t.lookup k = some v ∧ p k v = true ∧ φ k v = k') :
    ((t.findMany p).map fun e => f e.2).Perm ((t'.findMany p').map fun e => g e.2) := by
  have hkeys : ((t.findMany p).map fun e => φ e.1 e.2).Perm
      ((t'.findMany p').map Prod.fst) := by
    refine (List.perm_ext_iff_of_nodup ?_ (nodup_keys_findMany t' p')).mpr fun k' => ?_
    · refine List.Nodup.map_on ?_ (List.Nodup.of_map Prod.fst (nodup_keys_findMany t p))
      rintro ⟨k, v⟩ hk ⟨l, w⟩ hl heq
      obtain ⟨hv, hp⟩ := (mem_findMany t p k v).mp hk
      obtain ⟨hw, hq⟩ := (mem_findMany t p l w).mp hl
      obtain rfl := inj k v l w hv hp hw hq heq
      rw [hv, Option.some.injEq] at hw
      rw [hw]
    · simp only [List.mem_map, Prod.exists, mem_findMany, exists_and_right, exists_eq_right]
      constructor
      · rintro ⟨k, v, ⟨hv, hp⟩, rfl⟩
        obtain ⟨v', hv', hp', -⟩ := maps k v hv hp
        exact ⟨v', hv', hp'⟩
      · rintro ⟨v', hv', hp'⟩
        obtain ⟨k, v, hv, hp, hφ⟩ := surj k' v' hv' hp'
        exact ⟨k, v, ⟨hv, hp⟩, hφ⟩
  -- Both lists of values are read off the second table under these keys.
  have hf : ((t.findMany p).map fun e => some (f e.2)) =
      ((t.findMany p).map fun e => φ e.1 e.2).map fun k' => (t'.lookup k').map g := by
    rw [List.map_map]
    refine List.map_congr_left fun e he => ?_
    obtain ⟨hv, hp⟩ := (mem_findMany t p e.1 e.2).mp he
    obtain ⟨v', hv', -, hg⟩ := maps e.1 e.2 hv hp
    simp [hv', hg]
  have hg : ((t'.findMany p').map fun e => some (g e.2)) =
      ((t'.findMany p').map Prod.fst).map fun k' => (t'.lookup k').map g := by
    rw [List.map_map]
    refine List.map_congr_left fun e he => ?_
    obtain ⟨hv, -⟩ := (mem_findMany t' p' e.1 e.2).mp he
    simp [hv]
  have hperm := hkeys.map fun k' => (t'.lookup k').map g
  rw [← hf, ← hg] at hperm
  refine (List.map_perm_map_iff (Option.some_injective β)).mp ?_
  rw [List.map_map, List.map_map]
  exact hperm
/-- Every row of `t` is still in `t'`, changed only as `R` allows. -/
def Persists (R : V → V → Prop) (t t' : Table K V) : Prop :=
  ∀ k v, t.lookup k = some v → ∃ v', t'.lookup k = some v' ∧ R v v'

theorem Persists.refl {R : V → V → Prop} (hR : ∀ v, R v v) (t : Table K V) : Persists R t t :=
  fun _ v h => ⟨v, h, hR v⟩

theorem Persists.trans {R : V → V → Prop} (hR : ∀ {v v' v''}, R v v' → R v' v'' → R v v'')
    {t t' t'' : Table K V} (h : Persists R t t') (h' : Persists R t' t'') : Persists R t t'' := by
  intro k v hv
  obtain ⟨v', hv', hr⟩ := h k v hv
  obtain ⟨v'', hv'', hr'⟩ := h' k v' hv'
  exact ⟨v'', hv'', hR hr hr'⟩

/-- Inserting a row under a fresh key. -/
theorem Persists.insert {R : V → V → Prop} (hR : ∀ v, R v v) {t : Table K V} {k : K} (v : V)
    (h : t.lookup k = none) : Persists R t (t.write k (some v)) := by
  intro k' v' hv'
  have hne : k' ≠ k := by
    rintro rfl
    simp [h] at hv'
  exact ⟨v', by rw [lookup_write_of_ne t _ hne, hv'], hR v'⟩

/-- Replacing a row as `R` allows. -/
theorem Persists.replace {R : V → V → Prop} (hR : ∀ v, R v v) {t : Table K V} {k : K} {v v' : V}
    (h : t.lookup k = some v) (hr : R v v') : Persists R t (t.write k (some v')) := by
  intro k' w hw
  by_cases hk : k' = k
  · subst hk
    rw [h] at hw
    cases hw
    exact ⟨v', lookup_write_self t _ _, hr⟩
  · exact ⟨w, by rw [lookup_write_of_ne t _ hk, hw], hR w⟩

/-- Rows that persist and are still counted are not fewer than before. -/
theorem count_le_of_persists {R : V → V → Prop} {t t' : Table K V} {p q : K → V → Bool}
    (h : Persists R t t') (hpq : ∀ k v v', R v v' → p k v = true → q k v' = true) :
    t.count p ≤ t'.count q := by
  have hsub : (t.findMany p).map Prod.fst ⊆ (t'.findMany q).map Prod.fst := by
    intro k hk
    obtain ⟨⟨k, v⟩, hv, rfl⟩ := List.mem_map.mp hk
    obtain ⟨hlookup, hp⟩ := (mem_findMany t p k v).mp hv
    obtain ⟨v', hv', hr⟩ := h k v hlookup
    exact List.mem_map.mpr ⟨(k, v'), (mem_findMany t' q k v').mpr ⟨hv', hpq k v v' hr hp⟩, rfl⟩
  have hlength := (List.subperm_of_subset (nodup_keys_findMany t p) hsub).length_le
  simpa only [List.length_map, count] using hlength

end Table

end TaroTria.Transactions
