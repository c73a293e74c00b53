import Mathlib.Algebra.BigOperators.Group.Finset.Piecewise
import Mathlib.Algebra.Order.BigOperators.Group.Finset
import Mathlib.Logic.Relation
import TaroTria.Transactions.Table

/-!
# Escrow books

An escrow book says of each account what it was given and what of it is free,
and keeps the holds that were placed on the rest. A hold is spent or given back,
once. Whatever the steps, what was given is free, held or spent.
-/

namespace TaroTria.Transactions

namespace Escrow

/-- Where a hold stands. -/
inductive Stage
  | held | spent | returned
  deriving DecidableEq, Repr

/-- An amount set apart from an account. -/
structure Hold (A : Type) where
  account : A
  amount : Nat
  stage : Stage

/-- What each account was given and has free, with the holds by their keys. -/
structure Book (A H : Type) where
  given : A → Int
  free : A → Int
  holds : H → Option (Hold A)

variable {A H : Type} [DecidableEq A] [DecidableEq H]

namespace Book

/-- Give to an account, or take from what it has free when `n` is negative. -/
def give (b : Book A H) (a : A) (n : Int) : Book A H :=
  { b with
    given := Function.update b.given a (b.given a + n)
    free := Function.update b.free a (b.free a + n) }

/-- Place a new hold on an account. -/
def hold (b : Book A H) (k : H) (a : A) (n : Nat) : Book A H :=
  { b with
    free := Function.update b.free a (b.free a - n)
    holds := Function.update b.holds k (some ⟨a, n, .held⟩) }

/-- Spend a hold. -/
def spend (b : Book A H) (k : H) (h : Hold A) : Book A H :=
  { b with holds := Function.update b.holds k (some { h with stage := .spent }) }

/-- Give a hold back to its account. -/
def giveBack (b : Book A H) (k : H) (h : Hold A) : Book A H :=
  { b with
    free := Function.update b.free h.account (b.free h.account + h.amount)
    holds := Function.update b.holds k (some { h with stage := .returned }) }

/-- The empty book. -/
def empty : Book A H := ⟨fun _ => 0, fun _ => 0, fun _ => none⟩

end Book

/-- The steps of a book. -/
inductive Step : Book A H → Book A H → Prop
  | give {b : Book A H} (a : A) (n : Int) (funds : n < 0 → -n ≤ b.free a) : Step b (b.give a n)
  | hold {b : Book A H} (k : H) (a : A) (n : Nat) (fresh : b.holds k = none)
      (funds : n ≤ b.free a) : Step b (b.hold k a n)
  | spend {b : Book A H} (k : H) (h : Hold A) (found : b.holds k = some h)
      (held : h.stage = .held) : Step b (b.spend k h)
  | giveBack {b : Book A H} (k : H) (h : Hold A) (found : b.holds k = some h)
      (held : h.stage = .held) : Step b (b.giveBack k h)

/-- What a hold sets apart from an account at a stage. -/
def share (s : Stage) (a : A) : Option (Hold A) → Int
  | some h => if h.account = a ∧ h.stage = s then h.amount else 0
  | none => 0

omit [DecidableEq H] in
@[simp] theorem share_none (s : Stage) (a : A) : share s a (none : Option (Hold A)) = 0 := rfl

omit [DecidableEq H] in
theorem share_some (s : Stage) (a : A) (h : Hold A) :
    share s a (some h) = if h.account = a ∧ h.stage = s then (h.amount : Int) else 0 := rfl

theorem share_nonneg (s : Stage) (a : A) (o : Option (Hold A)) : 0 ≤ share s a o := by
  cases o with
  | none => exact le_rfl
  | some h =>
      rw [share_some]
      split
      · exact Int.natCast_nonneg _
      · exact le_rfl

/-- What the holds under some keys set apart from an account at a stage. -/
def total (b : Book A H) (s : Stage) (a : A) (F : Finset H) : Int :=
  ∑ k ∈ F, share s a (b.holds k)

omit [DecidableEq H] in
theorem total_nonneg (b : Book A H) (s : Stage) (a : A) (F : Finset H) : 0 ≤ total b s a F :=
  Finset.sum_nonneg fun _ _ => share_nonneg s a _

/-- One hold of a sum is replaced. -/
theorem sum_update (holds : H → Option (Hold A)) {F : Finset H} {k : H} (hk : k ∈ F)
    (o : Option (Hold A)) (s : Stage) (a : A) :
    ∑ k' ∈ F, share s a (Function.update holds k o k') =
      ∑ k' ∈ F, share s a (holds k') - share s a (holds k) + share s a o := by
  rw [← Finset.add_sum_erase F _ hk, ← Finset.add_sum_erase F (fun k' => share s a (holds k')) hk]
  have hrest : ∑ k' ∈ F.erase k, share s a (Function.update holds k o k') =
      ∑ k' ∈ F.erase k, share s a (holds k') := by
    refine Finset.sum_congr rfl fun k' hk' => ?_
    rw [Function.update_of_ne (Finset.ne_of_mem_erase hk')]
  rw [hrest, Function.update_self]
  omega

/-- What an account was given is free, held or spent, once all the holds are counted. -/
def Balanced (b : Book A H) : Prop :=
  ∀ (F : Finset H) (a : A), (∀ k ∉ F, b.holds k = none) →
    b.given a = b.free a + total b .held a F + total b .spent a F

omit [DecidableEq H] in
theorem balanced_empty : Balanced (Book.empty : Book A H) := by
  intro F a _
  simp [Book.empty, total]

omit [DecidableEq A] in
/-- The keys that count before a hold is replaced count after it. -/
theorem covered_of_update {holds : H → Option (Hold A)} {F : Finset H} {k : H} {h : Hold A}
    (hF : ∀ k' ∉ F, Function.update holds k (some h) k' = none) :
    k ∈ F ∧ ∀ k' ∉ F, holds k' = none := by
  have hk : k ∈ F := by
    by_contra hk
    simpa using hF k hk
  refine ⟨hk, fun k' hk' => ?_⟩
  have hne : k' ≠ k := fun heq => hk' (heq ▸ hk)
  simpa [Function.update_of_ne hne] using hF k' hk'

theorem Step.balanced {b b' : Book A H} (step : Step b b') (h : Balanced b) : Balanced b' := by
  intro F a hF
  cases step with
  | give a₀ n funds =>
      have hb := h F a hF
      simp only [total, Book.give] at hb ⊢
      by_cases ha : a = a₀
      · subst ha
        simp only [Function.update_self]
        omega
      · simpa only [Function.update_of_ne ha] using hb
  | hold k a₀ n fresh funds =>
      obtain ⟨hk, hF₀⟩ := covered_of_update hF
      have hb := h F a hF₀
      simp only [total, Book.hold, sum_update _ hk, fresh, share_none, share_some] at hb ⊢
      by_cases ha : a = a₀
      · subst ha
        simp only [Function.update_self, true_and, if_true, reduceCtorEq, if_false]
        omega
      · simp only [Function.update_of_ne ha, Ne.symm ha, false_and, if_false]
        omega
  | spend k h₀ found held =>
      obtain ⟨hk, hF₀⟩ := covered_of_update hF
      have hb := h F a hF₀
      simp only [total, Book.spend, sum_update _ hk, found, share_some, held] at hb ⊢
      by_cases ha : h₀.account = a
      · simp only [ha, true_and, if_true, reduceCtorEq, if_false]
        omega
      · simp only [ha, false_and, if_false]
        omega
  | giveBack k h₀ found held =>
      obtain ⟨hk, hF₀⟩ := covered_of_update hF
      have hb := h F a hF₀
      simp only [total, Book.giveBack, sum_update _ hk, found, share_some, held] at hb ⊢
      by_cases ha : a = h₀.account
      · subst ha
        simp only [Function.update_self, true_and, if_true, reduceCtorEq, if_false]
        omega
      · simp only [Function.update_of_ne ha, Ne.symm ha, false_and, if_false]
        omega

omit [DecidableEq H] in
/-- What is free of an account never turns negative. -/
theorem Step.free_nonneg [DecidableEq H] {b b' : Book A H} (step : Step b b')
    (h : ∀ a, 0 ≤ b.free a) : ∀ a, 0 ≤ b'.free a := by
  intro a
  have hold := h a
  cases step with
  | give a₀ n funds =>
      by_cases ha : a = a₀
      · subst ha
        simp only [Book.give, Function.update_self]
        by_cases hn : n < 0
        · have := funds hn
          omega
        · omega
      · simpa only [Book.give, Function.update_of_ne ha] using hold
  | hold k a₀ n fresh funds =>
      by_cases ha : a = a₀
      · subst ha
        simp only [Book.hold, Function.update_self]
        omega
      · simpa only [Book.hold, Function.update_of_ne ha] using hold
  | spend k h₀ found held => exact hold
  | giveBack k h₀ found held =>
      by_cases ha : a = h₀.account
      · subst ha
        simp only [Book.giveBack, Function.update_self]
        omega
      · simpa only [Book.giveBack, Function.update_of_ne ha] using hold

/-- In every run from the empty book, what an account was given is free, held or
spent, and no more is spent than was given. -/
theorem conserved {b : Book A H} (run : Relation.ReflTransGen Step Book.empty b) :
    Balanced b ∧ ∀ a, 0 ≤ b.free a := by
  induction run with
  | refl => exact ⟨balanced_empty, fun _ => le_rfl⟩
  | tail _ step ih => exact ⟨step.balanced ih.1, step.free_nonneg ih.2⟩

/-- The holds of a table, counted over its keys. -/
theorem total_table {V : Type} (t : Table H V) (toHold : V → Hold A) (given free : A → Int)
    (s : Stage) (a : A) :
    total ⟨given, free, fun k => (t.lookup k).map toHold⟩ s a t.keys.toFinset =
      t.sumBy fun v => share s a (some (toHold v)) := by
  have hnodup : t.keys.Nodup := t.nodupKeys
  rw [total, List.sum_toFinset _ hnodup, Table.sumBy, AList.keys, List.keys, List.map_map]
  refine congrArg List.sum (List.map_congr_left fun e he => ?_)
  have hlookup : t.lookup e.1 = some e.2 := Option.mem_def.mp (AList.mem_lookup_iff.mpr he)
  simp [hlookup]

end Escrow

end TaroTria.Transactions
