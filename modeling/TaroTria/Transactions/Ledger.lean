import Mathlib.Algebra.Order.Ring.Int
import TaroTria.Transactions.Table

/-!
# Accounts and their ledger

An account table holds balances and a second table holds the entries that moved
them. The two are reconciled when no balance is negative and each one is the
sum of the entries of its account.
-/

namespace TaroTria.Transactions

namespace Ledger

variable {A V K R : Type} [DecidableEq A] [DecidableEq K]

section Total

variable (account : R → A) (amount : R → Int)

/-- What the entries of one account add up to. -/
def total (entries : Table K R) (a : A) : Int :=
  entries.sumBy fun r => if account r = a then amount r else 0

omit [DecidableEq K] in
@[simp] theorem total_empty (a : A) : total account amount (∅ : Table K R) a = 0 := rfl

theorem total_write_fresh {entries : Table K R} {k : K} (r : R) (a : A)
    (hk : entries.lookup k = none) :
    total account amount (entries.write k (some r)) a =
      (if account r = a then amount r else 0) + total account amount entries a :=
  Table.sumBy_write_fresh r _ hk

/-- An account without entries has moved nothing. -/
theorem total_eq_zero {entries : Table K R} {a : A}
    (h : ∀ k r, entries.lookup k = some r → account r ≠ a) :
    total account amount entries a = 0 := by
  apply List.sum_eq_zero
  intro x hx
  obtain ⟨e, he, rfl⟩ := List.mem_map.mp hx
  have hne := h e.1 e.2 (Option.mem_def.mp (AList.mem_lookup_iff.mpr he))
  simp [hne]

end Total

variable (balance : V → Int) (account : R → A) (amount : R → Int)

/-- No balance is negative, each is the sum of its entries, and entries belong
to accounts that exist. -/
structure Reconciled (accounts : Table A V) (entries : Table K R) : Prop where
  nonneg : ∀ a v, accounts.lookup a = some v → 0 ≤ balance v
  exact : ∀ a v, accounts.lookup a = some v → balance v = total account amount entries a
  owned : ∀ k r, entries.lookup k = some r → ∃ v, accounts.lookup (account r) = some v

variable {balance account amount} {accounts : Table A V} {entries : Table K R}

/-- An empty ledger over no accounts is reconciled. -/
theorem reconciled_empty :
    Reconciled balance account amount (∅ : Table A V) (∅ : Table K R) where
  nonneg := by simp
  exact := by simp
  owned := by simp

/-- A new account starts at zero. -/
theorem Reconciled.openAccount (h : Reconciled balance account amount accounts entries) {a : A}
    {v : V} (ha : accounts.lookup a = none) (hv : balance v = 0) :
    Reconciled balance account amount (accounts.write a (some v)) entries := by
  have hnone : ∀ k r, entries.lookup k = some r → account r ≠ a := by
    rintro k r hr rfl
    obtain ⟨w, hw⟩ := h.owned k r hr
    simp [ha] at hw
  refine ⟨fun b w hw => ?_, fun b w hw => ?_, fun k r hr => ?_⟩
  · rw [Table.lookup_write] at hw
    split at hw
    · cases hw
      exact hv.ge
    · exact h.nonneg b w hw
  · rw [Table.lookup_write] at hw
    split at hw
    · rename_i hb
      cases hw
      rw [hb, hv, total_eq_zero account amount hnone]
    · exact h.exact b w hw
  · rw [Table.lookup_write_of_ne _ _ (hnone k r hr)]
    exact h.owned k r hr

/-- A new entry and the new balance of its account, moved by its amount. -/
theorem Reconciled.move (h : Reconciled balance account amount accounts entries) {k : K} (r : R)
    {v : V} (v' : V) (hk : entries.lookup k = none) (hv : accounts.lookup (account r) = some v)
    (hmove : balance v' = balance v + amount r) (hfunds : 0 ≤ balance v') :
    Reconciled balance account amount (accounts.write (account r) (some v'))
      (entries.write k (some r)) := by
  refine ⟨fun b w hw => ?_, fun b w hw => ?_, fun k' r' hr' => ?_⟩
  · rw [Table.lookup_write] at hw
    split at hw
    · cases hw
      exact hfunds
    · exact h.nonneg b w hw
  · rw [total_write_fresh account amount r b hk]
    rw [Table.lookup_write] at hw
    split at hw
    · rename_i hb
      cases hw
      rw [hb, if_pos rfl, ← h.exact _ v hv, hmove]
      omega
    · rename_i hb
      rw [if_neg (Ne.symm hb), ← h.exact b w hw]
      omega
  · rw [Table.lookup_write] at hr' ⊢
    split
    · exact ⟨v', rfl⟩
    · rename_i hne
      split at hr'
      · cases hr'
        exact absurd rfl hne
      · exact h.owned k' r' hr'

/-- An entry that moves nothing. -/
theorem Reconciled.note (h : Reconciled balance account amount accounts entries) {k : K} (r : R)
    {v : V} (hk : entries.lookup k = none) (hv : accounts.lookup (account r) = some v)
    (hzero : amount r = 0) :
    Reconciled balance account amount accounts (entries.write k (some r)) := by
  refine ⟨h.nonneg, fun b w hw => ?_, fun k' r' hr' => ?_⟩
  · rw [total_write_fresh account amount r b hk, hzero, ite_self, zero_add]
    exact h.exact b w hw
  · rw [Table.lookup_write] at hr'
    split at hr'
    · cases hr'
      exact ⟨v, hv⟩
    · exact h.owned k' r' hr'

/-- Entries that keep their accounts and their amounts. -/
theorem Reconciled.congr {entries' : Table K R}
    (h : Reconciled balance account amount accounts entries)
    (hsame : ∀ k, (entries'.lookup k).map (fun r => (account r, amount r)) =
      (entries.lookup k).map fun r => (account r, amount r)) :
    Reconciled balance account amount accounts entries' := by
  refine ⟨h.nonneg, fun a v hv => ?_, fun k r hr => ?_⟩
  · rw [h.exact a v hv]
    exact (Table.sumBy_congr (fun r => (account r, amount r))
      (fun e => if e.1 = a then e.2 else 0) hsame).symm
  · have hk := hsame k
    rw [hr] at hk
    obtain ⟨r', hr', heq⟩ := Option.map_eq_some_iff.mp hk.symm
    rw [← (Prod.mk.inj heq).1]
    exact h.owned k r' hr'

/-- A new account whose first entry is its balance. -/
theorem Reconciled.openWith (h : Reconciled balance account amount accounts entries) {k : K}
    (r : R) (v : V) (ha : accounts.lookup (account r) = none) (hk : entries.lookup k = none)
    (hv : balance v = amount r) (hfunds : 0 ≤ amount r) :
    Reconciled balance account amount (accounts.write (account r) (some v))
      (entries.write k (some r)) := by
  have hnone : ∀ k r', entries.lookup k = some r' → account r' ≠ account r := by
    intro k r' hr' heq
    obtain ⟨w, hw⟩ := h.owned k r' hr'
    rw [heq, ha] at hw
    cases hw
  refine ⟨fun b w hw => ?_, fun b w hw => ?_, fun k' r' hr' => ?_⟩
  · rw [Table.lookup_write] at hw
    split at hw
    · cases hw
      exact hv ▸ hfunds
    · exact h.nonneg b w hw
  · rw [total_write_fresh account amount r b hk]
    rw [Table.lookup_write] at hw
    split at hw
    · rename_i hb
      cases hw
      rw [hb, if_pos rfl, total_eq_zero account amount hnone, hv, add_zero]
    · rename_i hb
      rw [if_neg (Ne.symm hb), zero_add]
      exact h.exact b w hw
  · rw [Table.lookup_write] at hr' ⊢
    split
    · exact ⟨v, rfl⟩
    · rename_i hne
      split at hr'
      · cases hr'
        exact absurd rfl hne
      · exact h.owned k' r' hr'

section Running

variable {R : Type} (amount after : R → Int)

/-- The balance after the newest of some entries, newest first. -/
def lastAfter : List R → Int
  | [] => 0
  | r :: _ => after r

/-- The balance after each entry is the one before it, moved by the entry's amount. -/
def Running : List R → Prop
  | [] => True
  | r :: rs => after r = lastAfter after rs + amount r ∧ Running rs

end Running

end Ledger

end TaroTria.Transactions
