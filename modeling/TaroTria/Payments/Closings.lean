import Mathlib.Algebra.Order.BigOperators.Group.Finset
import TaroTria.Backend.Effects
import TaroTria.Payments.ConfirmationPaths
import TaroTria.Transactions.Ledger

/-!
# The closing of payments

Transactions are applied one after another. At most one of the transactions of a
payment takes effect, and payments of different orders touch different rows, but
for the wallet. So the outcome depends only on which payments have had a
transaction that was due, as long as the wallets have room for all of them.
-/

namespace TaroTria

open Transactions

namespace PaymentsService

/-- The transaction closes the payment with this status. -/
structure Due (D : Db) (p : Payment) (t : TransactionResult) (status : PaymentStatus) : Prop where
  pending : p.status = .PENDING
  matched : Matches p t
  terminal : TERMINAL_STATUS_MAP t.status = some status
  credited : status = .APPROVED → (creditable D p.orderId).isSome = true

/-- An order after the rejection of one of its payments. -/
def cancel (o : Order) : Order := if o.status = .PENDING then { o with status := .CANCELLED } else o

/-- The row that records the purchase of an order. -/
def purchaseRow (o : Order) (orderId : Id) (balanceAfter : Int) : WalletTransaction where
  walletId := o.userId
  type := .PURCHASE
  amount := o.credits
  balanceAfter := balanceAfter
  readingId := none
  orderId := some orderId

/-- An order after the closing of one of its payments. -/
def orderAfter (status : PaymentStatus) (o : Order) : Order :=
  if status = .APPROVED then { o with status := .PAID } else cancel o

/-- What the ledger leaves of the balance of a wallet. -/
def unrecorded (D : Db) (userId : Id) : Option Int :=
  (D.wallets.lookup userId).map fun w => w.balance -
    Ledger.total WalletTransaction.walletId WalletTransaction.amount D.walletTransactions userId

/-- The credits that the approval of a payment adds to the wallet of a user. -/
def creditsFor (D : Db) (userId : Id) (key : String × String) : Nat :=
  match (D.payments.lookup key).bind fun p => D.orders.lookup p.orderId with
  | some o => if o.userId = userId then o.credits else 0
  | none => 0

/-- The transaction `t` closes its payment `p` with this status: the payment and its
order change, and an approval is recorded in the ledger and credited. -/
structure Closes (name : String) (t : TransactionResult) (p : Payment) (status : PaymentStatus)
    (D D' : Db) : Prop where
  payment_mem : D.payments.lookup (name, t.reference) = some p
  due : Due D p t status
  payments : D'.payments = D.payments.write (name, t.reference) (some (settled p t status))
  orders : ∀ id, D'.orders.lookup id =
    if id = p.orderId then (D.orders.lookup id).map (orderAfter status) else D.orders.lookup id
  recorded : status = .APPROVED → ∃ o balance, D.orders.lookup p.orderId = some o ∧
    D'.walletTransactions = D.walletTransactions.write (.purchase p.orderId)
      (some (purchaseRow o p.orderId balance))
  unrecorded : status ≠ .APPROVED → D'.walletTransactions = D.walletTransactions
  wallets : ∀ userId, PaymentsService.unrecorded D' userId = PaymentsService.unrecorded D userId
  balances : ∀ userId, (D'.wallets.lookup userId).map (·.balance) =
    (D.wallets.lookup userId).map fun w => w.balance +
      if status = .APPROVED then (creditsFor D userId (name, t.reference) : Int) else 0

variable {name : String} {t : TransactionResult} {D : Db}

theorem creditsFor_eq {key : String × String} {p : Payment} {o : Order}
    (hp : D.payments.lookup key = some p) (ho : D.orders.lookup p.orderId = some o) (userId : Id) :
    creditsFor D userId key = if o.userId = userId then o.credits else 0 := by
  simp [creditsFor, hp, ho]

theorem Due.unique {p : Payment} {status status' : PaymentStatus} (h : Due D p t status)
    (h' : Due D p t status') : status = status' :=
  Option.some.inj (h.terminal.symm.trans h'.terminal)

theorem not_due_of_writes_nil {p : Payment} (h : settlingWrites (name, t.reference) p t D = []) :
    ∀ status, ¬ Due D p t status := by
  rintro status ⟨hpending, hmatch, hstatus, hcredited⟩
  simp only [settlingWrites, hpending, hmatch, and_self, if_true, hstatus] at h
  split at h
  · rename_i heq
    cases heq
  · rename_i heq
    cases heq
    obtain ⟨row, hrow⟩ := Option.isSome_iff_exists.mp (hcredited rfl)
    simp [hrow, approvalWrites] at h
  · cases h

/-- The cancelling of an order touches orders alone. -/
theorem view_cancelWrites (E : Db) (orderId : Id) : view (cancelWrites D orderId) E =
    { E with orders := (view (cancelWrites D orderId) E).orders } := by
  unfold cancelWrites
  split
  · split <;> rfl
  · rfl

theorem lookup_cancelWrites {E : Db} (horders : E.orders = D.orders) (orderId id : Id) :
    (view (cancelWrites D orderId) E).orders.lookup id =
      if id = orderId then (D.orders.lookup id).map cancel else D.orders.lookup id := by
  unfold cancelWrites
  by_cases hid : id = orderId
  · subst hid
    cases ho : D.orders.lookup id with
    | none => simp [horders, ho]
    | some o =>
        by_cases hopen : o.status = .PENDING
        · simp [hopen, cancel]
        · simp [hopen, cancel, horders, ho]
  · rw [if_neg hid]
    split
    · split
      · simp [Table.lookup_write, hid, horders]
      · simp [horders]
    · simp [horders]

theorem approval_closes {p : Payment} {o : Order} {w : Wallet}
    (hp : D.payments.lookup (name, t.reference) = some p) (hdue : Due D p t .APPROVED)
    (ho : D.orders.lookup p.orderId = some o) (hw : D.wallets.lookup o.userId = some w)
    (hk : D.walletTransactions.lookup (.purchase p.orderId) = none) :
    Closes name t p .APPROVED D (view (approvalWrites (name, t.reference) p t o w) D) where
  payment_mem := hp
  due := hdue
  payments := rfl
  orders id := by
    by_cases hid : id = p.orderId
    · subst hid
      simp [approvalWrites, WalletService.purchaseWrites, ho, orderAfter]
    · simp [approvalWrites, WalletService.purchaseWrites, hid, Table.lookup_write]
  recorded _ := ⟨o, w.balance + o.credits, ho, rfl⟩
  unrecorded h := absurd rfl h
  wallets userId := by
    -- The balance and the ledger of the owner both grow by the credits.
    have htotal := Ledger.total_write_fresh WalletTransaction.walletId WalletTransaction.amount
      (purchaseRow o p.orderId (w.balance + o.credits)) userId hk
    simp only [PaymentsService.unrecorded, approvalWrites, WalletService.purchaseWrites,
      List.cons_append, List.nil_append, view_cons, view_nil, apply_eq, RowWrite.apply]
    simp only [purchaseRow] at htotal
    rw [htotal, Table.lookup_write]
    by_cases hu : userId = o.userId
    · subst hu
      simp only [if_true, hw, Option.map_some, Option.some.injEq]
      omega
    · simp [hu, Ne.symm hu]
  balances userId := by
    rw [creditsFor_eq hp ho]
    by_cases hu : userId = o.userId
    · subst hu
      simp [approvalWrites, WalletService.purchaseWrites, hw]
    · simp [approvalWrites, WalletService.purchaseWrites, Table.lookup_write, hu, Ne.symm hu]

theorem rejection_closes {p : Payment} {status : PaymentStatus}
    (hp : D.payments.lookup (name, t.reference) = some p) (hdue : Due D p t status)
    (hne : status ≠ .APPROVED) :
    Closes name t p status D (view (.payment (name, t.reference) (some (settled p t status)) ::
      cancelWrites D p.orderId) D) := by
  have hafter : orderAfter status = cancel := funext fun o => if_neg hne
  rw [view_cons, view_cancelWrites]
  refine ⟨hp, hdue, rfl, fun id => ?_, fun h => absurd h hne, fun _ => rfl, fun _ => rfl,
    fun _ => by simp [hne]⟩
  rw [hafter]
  exact lookup_cancelWrites rfl p.orderId id

/-- A transaction closes its payment, or nothing is due and nothing changes. -/
theorem settle_closes (name : String) (t : TransactionResult) (D : Db) :
    (settle name t D = D ∧ ∀ p status, D.payments.lookup (name, t.reference) = some p →
      ¬ Due D p t status) ∨
    ∃ p status, Closes name t p status D (settle name t D) := by
  cases hp : D.payments.lookup (name, t.reference) with
  | none => exact .inl ⟨by rw [settle, hp], by simp⟩
  | some p =>
      rw [settle, hp]
      simp only
      by_cases hnil : settlingWrites (name, t.reference) p t D = []
      · rw [hnil]
        refine .inl ⟨rfl, fun p' status hp' => ?_⟩
        obtain rfl : p = p' := Option.some.inj hp'
        exact not_due_of_writes_nil hnil status
      right
      unfold settlingWrites at hnil ⊢
      split
      · rename_i hopen
        split
        · rename_i hstatus
          simp [hopen, hstatus] at hnil
        · rename_i hstatus
          cases hc : creditable D p.orderId with
          | none => simp [hopen, hstatus, hc] at hnil
          | some row =>
              obtain ⟨o, w⟩ := row
              obtain ⟨ho, hw, hk, -⟩ := creditable_eq_some.mp hc
              have hdue : Due D p t .APPROVED := ⟨hopen.1, hopen.2, hstatus, fun _ => by simp [hc]⟩
              exact ⟨p, .APPROVED, approval_closes hp hdue ho hw hk⟩
        · rename_i status hne hstatus
          exact ⟨p, status, rejection_closes hp
            ⟨hopen.1, hopen.2, hstatus, fun h => absurd h hne⟩ hne⟩
      · rename_i hopen
        simp [hopen] at hnil

/-- A transaction that is due closes its payment. -/
theorem Due.closes {p : Payment} {status : PaymentStatus} (h : Due D p t status)
    (hp : D.payments.lookup (name, t.reference) = some p) :
    Closes name t p status D (settle name t D) := by
  rcases settle_closes name t D with ⟨-, hidle⟩ | ⟨p', status', hclose⟩
  · exact absurd h (hidle p status hp)
  · obtain rfl : p = p' := Option.some.inj (hp.symm.trans hclose.payment_mem)
    obtain rfl := h.unique hclose.due
    exact hclose

/-! ## Sets of transactions -/

/-- The rows of a payment are as they were. -/
structure Untouched (key : String × String) (p : Payment) (D D' : Db) : Prop where
  payment : D'.payments.lookup key = some p
  order : D'.orders.lookup p.orderId = D.orders.lookup p.orderId
  ledger : D'.walletTransactions.lookup (.purchase p.orderId) =
    D.walletTransactions.lookup (.purchase p.orderId)

/-- The rows of a payment are those of its closing with a status. -/
structure ClosedWith (status : PaymentStatus) (key : String × String) (p : Payment)
    (D D' : Db) : Prop where
  payment : ∃ providerTransactionId,
    D'.payments.lookup key = some { p with status, providerTransactionId }
  order : D'.orders.lookup p.orderId = (D.orders.lookup p.orderId).map (orderAfter status)
  recorded : status = .APPROVED → ∃ o balance, D.orders.lookup p.orderId = some o ∧
    D'.walletTransactions.lookup (.purchase p.orderId) = some (purchaseRow o p.orderId balance)
  unrecorded : status ≠ .APPROVED → D'.walletTransactions.lookup (.purchase p.orderId) =
    D.walletTransactions.lookup (.purchase p.orderId)

/-- Each order has at most one payment. -/
def OnePayment (D : Db) : Prop :=
  ∀ key p key' p', D.payments.lookup key = some p → D.payments.lookup key' = some p' →
    p.orderId = p'.orderId → key = key'

open Classical in
/-- The payments that a transaction of `A` is due to approve. -/
noncomputable def approvals (name : String) (D : Db) (A : TransactionResult → Prop) :
    Finset (String × String) :=
  D.payments.keys.toFinset.filter fun key => ∃ p t, D.payments.lookup key = some p ∧ A t ∧
    key = (name, t.reference) ∧ Due D p t .APPROVED

theorem mem_approvals {A : TransactionResult → Prop} {key : String × String} :
    key ∈ approvals name D A ↔ ∃ p t, D.payments.lookup key = some p ∧ A t ∧
      key = (name, t.reference) ∧ Due D p t .APPROVED := by
  simp only [approvals, Finset.mem_filter, List.mem_toFinset, and_iff_right_iff_imp]
  rintro ⟨p, t, hp, -⟩
  exact AList.mem_keys.mp (AList.lookup_isSome.mp (by simp [hp]))

/-- What the approvals of these payments add to the wallet of a user. -/
def creditsOf (D : Db) (userId : Id) (keys : Finset (String × String)) : Int :=
  ∑ key ∈ keys, (creditsFor D userId key : Int)

theorem creditsOf_nonneg (userId : Id) (keys : Finset (String × String)) :
    0 ≤ creditsOf D userId keys :=
  Finset.sum_nonneg fun _ _ => Int.natCast_nonneg _

theorem creditsOf_insert {key : String × String} {keys : Finset (String × String)}
    (hkey : key ∉ keys) (userId : Id) :
    creditsOf D userId (insert key keys) = creditsFor D userId key + creditsOf D userId keys := by
  rw [creditsOf, Finset.sum_insert hkey]
  rfl

/-- Every wallet has room for all the approvals that transactions of `A` are due to make. -/
def Affordable (name : String) (D : Db) (A : TransactionResult → Prop) : Prop :=
  ∀ key ∈ approvals name D A, ∀ p o w, D.payments.lookup key = some p →
    D.orders.lookup p.orderId = some o → D.wallets.lookup o.userId = some w →
    Wallet.fits ⟨w.balance + creditsOf D o.userId (approvals name D A)⟩ = true

/-- The wallets of `D'` are those of `D` with the approvals of these payments. -/
def Credited (D D' : Db) (keys : Finset (String × String)) : Prop :=
  ∀ userId, (D'.wallets.lookup userId).map (·.balance) =
    (D.wallets.lookup userId).map fun w => w.balance + creditsOf D userId keys

/-- No wallet of `D'` has less than in `D`. -/
def Grown (D D' : Db) : Prop :=
  ∀ userId w', D'.wallets.lookup userId = some w' →
    ∃ w, D.wallets.lookup userId = some w ∧ w.balance ≤ w'.balance

/-- From `D`, the transactions in `T` have been applied, each at least once. All are
from `A`. -/
structure Progress (name : String) (D : Db) (A T : TransactionResult → Prop) (D' : Db) :
    Prop where
  untouched : ∀ key p, D.payments.lookup key = some p →
    (∀ t status, T t → key = (name, t.reference) → ¬ Due D p t status) → Untouched key p D D'
  closed : ∀ p t status, D.payments.lookup (name, t.reference) = some p → T t →
    Due D p t status → ClosedWith status (name, t.reference) p D D'
  payments : ∀ key, D.payments.lookup key = none → D'.payments.lookup key = none
  orders : ∀ id, (∀ key p, D.payments.lookup key = some p → p.orderId ≠ id) →
    D'.orders.lookup id = D.orders.lookup id
  ledger : ∀ k, (∀ key p, D.payments.lookup key = some p → k ≠ .purchase p.orderId) →
    D'.walletTransactions.lookup k = D.walletTransactions.lookup k
  wallets : ∀ userId, PaymentsService.unrecorded D' userId = PaymentsService.unrecorded D userId
  credited : ∃ keys ⊆ approvals name D A, Credited D D' keys ∧
    ∀ key ∈ keys, ∀ p, D'.payments.lookup key = some p → p.status ≠ .PENDING

theorem Credited.refl (D : Db) : Credited D D ∅ := by
  intro userId
  simp [creditsOf]

theorem Progress.refl (name : String) (D : Db) (A : TransactionResult → Prop) :
    Progress name D A (fun _ => False) D where
  untouched _ _ hp _ := ⟨hp, rfl, rfl⟩
  closed _ _ _ _ hT := hT.elim
  payments _ h := h
  orders _ _ := rfl
  ledger _ _ := rfl
  wallets _ := rfl
  credited := ⟨∅, Finset.empty_subset _, .refl D, by simp⟩

variable {A T : TransactionResult → Prop} {D' : Db}

theorem Wallet.fits_of_le {b b' : Int} (h : b ≤ b') (hfits : Wallet.fits ⟨b'⟩ = true) :
    Wallet.fits ⟨b⟩ = true := by
  simp only [Wallet.fits, decide_eq_true_eq] at hfits ⊢
  exact h.trans hfits

theorem Credited.grown {keys : Finset (String × String)} (h : Credited D D' keys) :
    Grown D D' := by
  intro userId w' hw'
  have hbalance := h userId
  cases hw : D.wallets.lookup userId with
  | none => simp [hw, hw'] at hbalance
  | some w =>
      rw [hw, hw', Option.map_some, Option.map_some, Option.some.injEq] at hbalance
      have := creditsOf_nonneg (D := D) userId keys
      exact ⟨w, rfl, by omega⟩

theorem Grown.refl (D : Db) : Grown D D := fun _ w hw => ⟨w, hw, le_rfl⟩

theorem Grown.trans {D'' : Db} (h : Grown D D') (h' : Grown D' D'') : Grown D D'' := by
  intro userId w'' hw''
  obtain ⟨w', hw', hle'⟩ := h' userId w'' hw''
  obtain ⟨w, hw, hle⟩ := h userId w' hw'
  exact ⟨w, hw, hle.trans hle'⟩

/-- What is due for a payment was due before, when its rows were the same and the wallets
had no more. -/
theorem Untouched.due_before {key : String × String} {p : Payment} {status : PaymentStatus}
    (h : Untouched key p D D') (hgrown : Grown D D') (hdue : Due D' p t status) :
    Due D p t status := by
  refine ⟨hdue.pending, hdue.matched, hdue.terminal, fun happroved => ?_⟩
  obtain ⟨⟨o, w'⟩, hc⟩ := Option.isSome_iff_exists.mp (hdue.credited happroved)
  obtain ⟨ho, hw', hk, hfits⟩ := creditable_eq_some.mp hc
  obtain ⟨w, hw, hle⟩ := hgrown o.userId w' hw'
  have hcredited : creditable D p.orderId = some (o, w) := creditable_eq_some.mpr
    ⟨h.order ▸ ho, hw, h.ledger ▸ hk, Wallet.fits_of_le (by omega) hfits⟩
  rw [hcredited]
  rfl

/-- What is due for a payment stays due while its rows are untouched, as the wallets have
room for all approvals. -/
theorem Untouched.due_after {p : Payment} {status : PaymentStatus}
    (h : Untouched (name, t.reference) p D D') (haff : Affordable name D A)
    (hp : D.payments.lookup (name, t.reference) = some p) (hA : A t)
    {keys : Finset (String × String)} (hkeys : keys ⊆ approvals name D A)
    (hcredited : Credited D D' keys)
    (hclosed : ∀ key ∈ keys, ∀ p, D'.payments.lookup key = some p → p.status ≠ .PENDING)
    (hdue : Due D p t status) : Due D' p t status := by
  refine ⟨hdue.pending, hdue.matched, hdue.terminal, fun happroved => ?_⟩
  subst happroved
  obtain ⟨⟨o, w⟩, hc⟩ := Option.isSome_iff_exists.mp (hdue.credited rfl)
  obtain ⟨ho, hw, hk, -⟩ := creditable_eq_some.mp hc
  have hmem : (name, t.reference) ∈ approvals name D A :=
    mem_approvals.mpr ⟨p, t, hp, hA, rfl, hdue⟩
  -- The payment is open, so its own credits are still missing in the balance.
  have hopen : (name, t.reference) ∉ keys := fun hkey =>
    hclosed _ hkey p h.payment hdue.pending
  have hmore : creditsOf D o.userId keys + o.credits ≤
      creditsOf D o.userId (approvals name D A) := by
    have hsum : creditsOf D o.userId (insert (name, t.reference) keys) =
        o.credits + creditsOf D o.userId keys := by
      rw [creditsOf_insert hopen, creditsFor_eq hp ho, if_pos rfl]
    have hle : creditsOf D o.userId (insert (name, t.reference) keys) ≤
        creditsOf D o.userId (approvals name D A) :=
      Finset.sum_le_sum_of_subset_of_nonneg (Finset.insert_subset hmem hkeys)
        fun _ _ _ => Int.natCast_nonneg _
    omega
  have hbalance := hcredited o.userId
  rw [hw, Option.map_some] at hbalance
  obtain ⟨w', hw', hsame⟩ := Option.map_eq_some_iff.mp hbalance
  have hfits := Wallet.fits_of_le (b := w'.balance + o.credits) (by omega)
    (haff _ hmem p o w hp ho hw)
  have hcredited' : creditable D' p.orderId = some (o, w') := creditable_eq_some.mpr
    ⟨h.order.trans ho, hw', h.ledger.trans hk, hfits⟩
  rw [hcredited']
  rfl

/-- A payment that is stored after some transactions was stored before them. -/
theorem Progress.payment_mem (h : Progress name D A T D') {key : String × String} {p' : Payment}
    (hp' : D'.payments.lookup key = some p') : ∃ p, D.payments.lookup key = some p := by
  cases hp : D.payments.lookup key with
  | none => simp [h.payments key hp] at hp'
  | some p => exact ⟨p, rfl⟩

/-- A payment that a transaction is due for has had no transaction that was due. -/
theorem Progress.untouched_of_pending (h : Progress name D A T D') {p' : Payment}
    (hp' : D'.payments.lookup (name, t.reference) = some p') (hpending : p'.status = .PENDING) :
    D.payments.lookup (name, t.reference) = some p' ∧
      Untouched (name, t.reference) p' D D' ∧
      ∀ t' status, T t' → t'.reference = t.reference → ¬ Due D p' t' status := by
  obtain ⟨p, hp⟩ := h.payment_mem hp'
  have hnone : ∀ t' status, T t' → (name, t.reference) = (name, t'.reference) →
      ¬ Due D p t' status := by
    intro t' status hT hkey hdue
    obtain ⟨id, hid⟩ := (h.closed p t' status (hkey ▸ hp) hT hdue).payment
    rw [← hkey, hp', Option.some.injEq] at hid
    rw [hid] at hpending
    exact terminal_ne_pending hdue.terminal hpending
  have huntouched := h.untouched _ p hp hnone
  obtain rfl : p' = p := Option.some.inj (hp'.symm.trans huntouched.payment)
  exact ⟨hp, huntouched, fun t' status hT hreference => hnone t' status hT (by rw [hreference])⟩

section Step

variable {p : Payment} {status : PaymentStatus} {E : Db}

theorem Closes.payments_other (h : Closes name t p status D' E) {key : String × String}
    (hne : key ≠ (name, t.reference)) : E.payments.lookup key = D'.payments.lookup key := by
  rw [h.payments, Table.lookup_write_of_ne _ _ hne]

theorem Closes.orders_other (h : Closes name t p status D' E) {id : Id} (hne : id ≠ p.orderId) :
    E.orders.lookup id = D'.orders.lookup id := by
  rw [h.orders, if_neg hne]

theorem Closes.ledger_other (h : Closes name t p status D' E) {k : IdempotencyKey}
    (hne : k ≠ .purchase p.orderId) :
    E.walletTransactions.lookup k = D'.walletTransactions.lookup k := by
  by_cases happroved : status = .APPROVED
  · obtain ⟨o, balance, -, hledger⟩ := h.recorded happroved
    rw [hledger, Table.lookup_write_of_ne _ _ hne]
  · rw [h.unrecorded happroved]

theorem Closes.grown (h : Closes name t p status D' E) : Grown D' E := by
  intro userId w' hw'
  have hbalance := h.balances userId
  cases hw : D'.wallets.lookup userId with
  | none => simp [hw, hw'] at hbalance
  | some w =>
      rw [hw, hw', Option.map_some, Option.map_some, Option.some.injEq] at hbalance
      refine ⟨w, rfl, ?_⟩
      split at hbalance <;> omega

/-- Payments keep their orders. -/
theorem Closes.onePayment (h : Closes name t p status D' E) (hone : OnePayment D') :
    OnePayment E := by
  have back : ∀ {key q}, E.payments.lookup key = some q →
      ∃ q', D'.payments.lookup key = some q' ∧ q'.orderId = q.orderId := by
    intro key q hq
    rw [h.payments, Table.lookup_write] at hq
    split at hq
    · rename_i hkey
      cases hq
      exact ⟨p, hkey ▸ h.payment_mem, rfl⟩
    · exact ⟨q, hq, rfl⟩
  intro key q key' q' hq hq' horder
  obtain ⟨r, hr, hro⟩ := back hq
  obtain ⟨r', hr', hro'⟩ := back hq'
  exact hone key r key' r' hr hr' (by rw [hro, horder, hro'])

/-- The rows of a payment of another order are left as they are. -/
theorem Closes.untouched_other (h : Closes name t p status D' E) {key : String × String}
    {p' : Payment} (hkey : key ≠ (name, t.reference)) (horder : p'.orderId ≠ p.orderId)
    (hp' : Untouched key p' D D') : Untouched key p' D E where
  payment := (h.payments_other hkey).trans hp'.payment
  order := (h.orders_other horder).trans hp'.order
  ledger := (h.ledger_other (by simpa using horder)).trans hp'.ledger

theorem Closes.closedWith_other (h : Closes name t p status D' E) {key : String × String}
    {p' : Payment} {status' : PaymentStatus} (hkey : key ≠ (name, t.reference))
    (horder : p'.orderId ≠ p.orderId) (hp' : ClosedWith status' key p' D D') :
    ClosedWith status' key p' D E where
  payment := by
    rw [h.payments_other hkey]
    exact hp'.payment
  order := (h.orders_other horder).trans hp'.order
  recorded happroved := by
    rw [h.ledger_other (by simpa using horder)]
    exact hp'.recorded happroved
  unrecorded hne := (h.ledger_other (by simpa using horder)).trans (hp'.unrecorded hne)

/-- The rows of the payment itself. -/
theorem Closes.closedWith (h : Closes name t p status D' E)
    (hp : Untouched (name, t.reference) p D D') :
    ClosedWith status (name, t.reference) p D E where
  payment := ⟨some t.providerTransactionId, by
    rw [h.payments, Table.lookup_write_self]
    rfl⟩
  order := by rw [h.orders, if_pos rfl, hp.order]
  recorded happroved := by
    obtain ⟨o, balance, ho, hledger⟩ := h.recorded happroved
    exact ⟨o, balance, hp.order.symm.trans ho, by rw [hledger, Table.lookup_write_self]⟩
  unrecorded hne := by rw [h.unrecorded hne, hp.ledger]

end Step

/-- The credits of one more approval. -/
theorem Closes.credited_insert (h : Closes name t p .APPROVED D' E)
    (hp : D.payments.lookup (name, t.reference) = some p)
    (huntouched : Untouched (name, t.reference) p D D') {keys : Finset (String × String)}
    (hopen : (name, t.reference) ∉ keys) (hcredited : Credited D D' keys) :
    Credited D E (insert (name, t.reference) keys) := by
  intro userId
  have hsame : creditsFor D' userId (name, t.reference) =
      creditsFor D userId (name, t.reference) := by
    simp only [creditsFor, huntouched.payment, hp, Option.bind_some, huntouched.order]
  have hstep := h.balances userId
  rw [if_pos rfl, hsame] at hstep
  have hbefore := hcredited userId
  rw [hstep, creditsOf_insert hopen]
  cases hw : D.wallets.lookup userId with
  | none =>
      rw [hw] at hbefore
      simp [Option.map_eq_none_iff.mp hbefore]
  | some w =>
      rw [hw] at hbefore
      obtain ⟨w', hw', hbalance⟩ := Option.map_eq_some_iff.mp hbefore
      simp only [hw', Option.map_some, Option.some.injEq, hbalance]
      omega

/-- The approvals of a run and the next one. -/
theorem Closes.credited (h : Closes name t p status D' E) (hdue : Due D p t status) (hA : A t)
    (hp : D.payments.lookup (name, t.reference) = some p)
    (huntouched : Untouched (name, t.reference) p D D') {keys : Finset (String × String)}
    (hkeys : keys ⊆ approvals name D A) (hcredited : Credited D D' keys)
    (hclosed : ∀ key ∈ keys, ∀ p, D'.payments.lookup key = some p → p.status ≠ .PENDING) :
    ∃ keys' ⊆ approvals name D A, Credited D E keys' ∧
      ∀ key ∈ keys', ∀ p, E.payments.lookup key = some p → p.status ≠ .PENDING := by
  have hopen : (name, t.reference) ∉ keys := fun hkey =>
    hclosed _ hkey p huntouched.payment hdue.pending
  have still : ∀ key ∈ keys, ∀ q, E.payments.lookup key = some q → q.status ≠ .PENDING := by
    intro key hkey q hq
    have hne : key ≠ (name, t.reference) := fun heq => hopen (heq ▸ hkey)
    exact hclosed key hkey q ((h.payments_other hne).symm.trans hq)
  by_cases happroved : status = .APPROVED
  · subst happroved
    refine ⟨insert (name, t.reference) keys, Finset.insert_subset
      (mem_approvals.mpr ⟨p, t, hp, hA, rfl, hdue⟩) hkeys,
      h.credited_insert hp huntouched hopen hcredited, fun key hkey q hq => ?_⟩
    rcases Finset.mem_insert.mp hkey with rfl | hkey
    · rw [h.payments, Table.lookup_write_self, Option.some.injEq] at hq
      exact hq ▸ terminal_ne_pending hdue.terminal
    · exact still key hkey q hq
  · refine ⟨keys, hkeys, fun userId => ?_, still⟩
    have hstep := h.balances userId
    simp only [happroved, if_false, add_zero] at hstep
    exact hstep.trans (hcredited userId)

/-- One more transaction is applied. -/
theorem Progress.settle (hone : OnePayment D) (haff : Affordable name D A) (hA : A t)
    (h : Progress name D A T D')
    (hsame : ∀ t' status status', T t' → t'.reference = t.reference →
      TERMINAL_STATUS_MAP t'.status = some status' → TERMINAL_STATUS_MAP t.status = some status →
      status' = status) :
    Progress name D A (fun t' => T t' ∨ t' = t) (settle name t D') := by
  obtain ⟨keys, hkeys, hcredited, hkeysClosed⟩ := h.credited
  rcases settle_closes name t D' with ⟨hsettle, hidle⟩ | ⟨p, status, hclose⟩
  · rw [hsettle]
    refine { h with untouched := fun key p hp hnone => ?_, closed := fun p t' status hp hT hdue => ?_ }
    · exact h.untouched key p hp fun t' status hT => hnone t' status (.inl hT)
    · rcases hT with hT | rfl
      · exact h.closed p t' status hp hT hdue
      -- The transaction is no longer due, so another one of the payment was.
      · by_cases hearlier : ∃ t'' status', T t'' ∧ t''.reference = t'.reference ∧
            Due D p t'' status'
        · obtain ⟨t'', status', hT, hreference, hdue'⟩ := hearlier
          obtain rfl := hsame t'' status status' hT hreference hdue'.terminal hdue.terminal
          have := h.closed p t'' status' (hreference ▸ hp) hT hdue'
          rwa [hreference] at this
        · have huntouched := h.untouched (name, t'.reference) p hp fun t'' status' hT hkey hdue' =>
            hearlier ⟨t'', status', hT, (Prod.mk.inj hkey).2.symm, hdue'⟩
          exact absurd (huntouched.due_after haff hp hA hkeys hcredited hkeysClosed hdue)
            (hidle p status huntouched.payment)
  · obtain ⟨hp, huntouched, hnone⟩ :=
      h.untouched_of_pending hclose.payment_mem hclose.due.pending
    have hdue := huntouched.due_before hcredited.grown hclose.due
    -- Another payment belongs to another order.
    have other : ∀ {key p'}, D.payments.lookup key = some p' → key ≠ (name, t.reference) →
        p'.orderId ≠ p.orderId :=
      fun hp' hkey horder => hkey (hone _ _ _ _ hp' hp horder)
    refine ⟨fun key p' hp' hnot => ?_, fun p' t' status' hp' hT hdue' => ?_, fun key hkey => ?_,
      fun id hid => ?_, fun k hk => ?_, fun userId => ?_,
      hclose.credited hdue hA hp huntouched hkeys hcredited hkeysClosed⟩
    · by_cases hkey : key = (name, t.reference)
      · subst hkey
        obtain rfl : p = p' := Option.some.inj (hp.symm.trans hp')
        exact absurd hdue (hnot t status (.inr rfl) rfl)
      · exact hclose.untouched_other hkey (other hp' hkey)
          (h.untouched key p' hp' fun t' status hT => hnot t' status (.inl hT))
    · by_cases hreference : t'.reference = t.reference
      · rw [hreference] at hp' ⊢
        obtain rfl : p = p' := Option.some.inj (hp.symm.trans hp')
        have hstatus : status' = status := by
          rcases hT with hT | rfl
          · exact absurd hdue' (hnone t' status' hT hreference)
          · exact hdue'.unique hdue
        rw [hstatus]
        exact hclose.closedWith huntouched
      · have hkey : (name, t'.reference) ≠ (name, t.reference) := fun heq =>
          hreference (Prod.mk.inj heq).2
        have hT' : T t' := hT.resolve_right fun heq => hreference (by rw [heq])
        exact hclose.closedWith_other hkey (other hp' hkey) (h.closed p' t' status' hp' hT' hdue')
    · have hne : key ≠ (name, t.reference) := by
        rintro rfl
        simp [hkey] at hp
      exact (hclose.payments_other hne).trans (h.payments key hkey)
    · exact (hclose.orders_other (hid _ p hp).symm).trans (h.orders id hid)
    · exact (hclose.ledger_other (hk _ p hp)).trans (h.ledger k hk)
    · exact (hclose.wallets userId).trans (h.wallets userId)

/-! ## Outcomes -/

/-- The amounts of the purchases in the ledger. -/
def purchaseAmounts (D : Db) : Multiset Int :=
  ((D.walletTransactions.findMany fun _ row => row.type = .PURCHASE).map fun e => e.2.amount :
    List Int)

/-- The statuses of payments and orders, the balances and the purchases are the same. -/
structure SameOutcome (D₁ D₂ : Db) : Prop where
  payments : ∀ key, (D₁.payments.lookup key).map (·.status) =
    (D₂.payments.lookup key).map (·.status)
  orders : ∀ id, (D₁.orders.lookup id).map (·.status) = (D₂.orders.lookup id).map (·.status)
  wallets : ∀ userId, (D₁.wallets.lookup userId).map (·.balance) =
    (D₂.wallets.lookup userId).map (·.balance)
  purchases : purchaseAmounts D₁ = purchaseAmounts D₂

/-- A ledger row without its running balance. -/
def entry (row : WalletTransaction) : WalletTransaction := { row with balanceAfter := 0 }

/-- The ledgers have the same entries. -/
abbrev SameLedger (D₁ D₂ : Db) : Prop :=
  ∀ k, (D₁.walletTransactions.lookup k).map entry = (D₂.walletTransactions.lookup k).map entry

section Ledgers

variable {D₁ D₂ : Db}

theorem SameLedger.purchases (h : SameLedger D₁ D₂) : purchaseAmounts D₁ = purchaseAmounts D₂ := by
  have hrows : ∀ D : Db, purchaseAmounts D =
      (((D.walletTransactions.toRows.map fun e => (e.1, entry e.2)).filter fun e =>
        e.2.type = .PURCHASE).map fun e => e.2.amount : List Int) := by
    intro D
    rw [List.filter_map, List.map_map]
    rfl
  rw [hrows, hrows]
  exact Multiset.coe_eq_coe.mpr (((Table.perm_toRows entry h).filter _).map _)

/-- With the same ledger, what the ledger leaves of a balance determines the balance. -/
theorem SameLedger.balance (h : SameLedger D₁ D₂) {userId : Id}
    (hsame : unrecorded D₁ userId = unrecorded D₂ userId) :
    (D₁.wallets.lookup userId).map (·.balance) = (D₂.wallets.lookup userId).map (·.balance) := by
  have htotal : Ledger.total WalletTransaction.walletId WalletTransaction.amount
      D₁.walletTransactions userId = Ledger.total WalletTransaction.walletId
        WalletTransaction.amount D₂.walletTransactions userId :=
    Table.sumBy_congr entry
      (fun row : WalletTransaction => if row.walletId = userId then row.amount else 0) h
  unfold unrecorded at hsame
  rw [htotal] at hsame
  cases h₁ : D₁.wallets.lookup userId with
  | none =>
      cases h₂ : D₂.wallets.lookup userId with
      | none => rfl
      | some w₂ => simp [h₁, h₂] at hsame
  | some w₁ =>
      cases h₂ : D₂.wallets.lookup userId with
      | none => simp [h₁, h₂] at hsame
      | some w₂ => simpa [h₁, h₂] using hsame

end Ledgers

/-- A transaction that is due among the first ones has one with its status among the second. -/
def Covered (D : Db) (name : String) (T₁ T₂ : TransactionResult → Prop) : Prop :=
  ∀ p t status, D.payments.lookup (name, t.reference) = some p → T₁ t → Due D p t status →
    ∃ t', T₂ t' ∧ t'.reference = t.reference ∧ Due D p t' status

/-- The outcome depends only on the payments that a transaction was due for. -/
theorem Progress.sameOutcome {T₁ T₂ : TransactionResult → Prop} {D₁ D₂ : Db}
    (h₁ : Progress name D A T₁ D₁) (h₂ : Progress name D A T₂ D₂) (h₁₂ : Covered D name T₁ T₂)
    (h₂₁ : Covered D name T₂ T₁) : SameOutcome D₁ D₂ := by
  have rows : ∀ key p, D.payments.lookup key = some p →
      (∃ status, ClosedWith status key p D D₁ ∧ ClosedWith status key p D D₂) ∨
        Untouched key p D D₁ ∧ Untouched key p D D₂ := by
    intro key p hp
    by_cases hdue : ∃ t status, T₁ t ∧ key = (name, t.reference) ∧ Due D p t status
    · obtain ⟨t, status, hT, rfl, hdue⟩ := hdue
      obtain ⟨t', hT', hreference, hdue'⟩ := h₁₂ p t status hp hT hdue
      have hclosed := h₂.closed p t' status (hreference ▸ hp) hT' hdue'
      rw [hreference] at hclosed
      exact .inl ⟨status, h₁.closed p t status hp hT hdue, hclosed⟩
    · refine .inr ⟨h₁.untouched key p hp fun t status hT hkey hd => hdue ⟨t, status, hT, hkey, hd⟩,
        h₂.untouched key p hp fun t status hT hkey hd => hdue ?_⟩
      subst hkey
      obtain ⟨t', hT', hreference, hdue'⟩ := h₂₁ p t status hp hT hd
      exact ⟨t', status, hT', by rw [hreference], hdue'⟩
  have orders : ∀ id, D₁.orders.lookup id = D₂.orders.lookup id := by
    intro id
    by_cases hid : ∃ key p, D.payments.lookup key = some p ∧ p.orderId = id
    · obtain ⟨key, p, hp, rfl⟩ := hid
      rcases rows key p hp with ⟨status, hc₁, hc₂⟩ | ⟨hu₁, hu₂⟩
      · rw [hc₁.order, hc₂.order]
      · rw [hu₁.order, hu₂.order]
    · have hnone : ∀ key p, D.payments.lookup key = some p → p.orderId ≠ id :=
        fun key p hp horder => hid ⟨key, p, hp, horder⟩
      rw [h₁.orders id hnone, h₂.orders id hnone]
  have ledger : SameLedger D₁ D₂ := by
    intro k
    by_cases hk : ∃ key p, D.payments.lookup key = some p ∧ k = .purchase p.orderId
    · obtain ⟨key, p, hp, rfl⟩ := hk
      rcases rows key p hp with ⟨status, hc₁, hc₂⟩ | ⟨hu₁, hu₂⟩
      · by_cases happroved : status = .APPROVED
        · obtain ⟨o, balance, ho, hrow⟩ := hc₁.recorded happroved
          obtain ⟨o', balance', ho', hrow'⟩ := hc₂.recorded happroved
          obtain rfl : o = o' := Option.some.inj (ho.symm.trans ho')
          rw [hrow, hrow']
          rfl
        · rw [hc₁.unrecorded happroved, hc₂.unrecorded happroved]
      · rw [hu₁.ledger, hu₂.ledger]
    · have hnone : ∀ key p, D.payments.lookup key = some p → k ≠ .purchase p.orderId :=
        fun key p hp heq => hk ⟨key, p, hp, heq⟩
      rw [h₁.ledger k hnone, h₂.ledger k hnone]
  refine ⟨fun key => ?_, fun id => by rw [orders id], fun userId => ledger.balance ?_,
    ledger.purchases⟩
  · cases hp : D.payments.lookup key with
    | none => rw [h₁.payments key hp, h₂.payments key hp]
    | some p =>
        rcases rows key p hp with ⟨status, hc₁, hc₂⟩ | ⟨hu₁, hu₂⟩
        · obtain ⟨id₁, hpayment₁⟩ := hc₁.payment
          obtain ⟨id₂, hpayment₂⟩ := hc₂.payment
          rw [hpayment₁, hpayment₂]
          rfl
        · rw [hu₁.payment, hu₂.payment]
  · rw [h₁.wallets, h₂.wallets]

end PaymentsService

end TaroTria
