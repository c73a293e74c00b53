import TaroTria.Backend.Refinement

/-!
# Orders and their payments

The status of an order says which payments it has and whether its purchase is
in the ledger, in every committed state.
-/

namespace TaroTria

open Transactions WalletService PaymentsService

variable {Body : Type}

/-- The payment under `key` belongs to the order and has this status. -/
def HasPayment (D : Db) (orderId : Id) (status : PaymentStatus) (key : String × String) : Prop :=
  ∃ p, D.payments.lookup key = some p ∧ p.orderId = orderId ∧ p.status = status

/-- What each status of an order means. No order becomes `REFUNDED`. -/
def OrderState (D : Db) (orderId : Id) (o : Order) : OrderStatus → Prop
  | .PENDING => (∀ status key, HasPayment D orderId status key → status = .PENDING) ∧
      D.walletTransactions.lookup (.purchase orderId) = none
  | .PAID => (∃! key, HasPayment D orderId .APPROVED key) ∧
      ∃ balanceAfter, D.walletTransactions.lookup (.purchase orderId) =
        some ⟨o.userId, .PURCHASE, o.credits, balanceAfter, none, some orderId⟩
  | .CANCELLED => (∀ key, ¬ HasPayment D orderId .APPROVED key) ∧
      (∃ key, HasPayment D orderId .DECLINED key ∨ HasPayment D orderId .FAILED key) ∧
      D.walletTransactions.lookup (.purchase orderId) = none
  | .REFUNDED => False

/-- A transaction of the provider that bears out the payment under `key`. -/
def Approves (P : PaymentProvider Body) (key : String × String) (p : Payment) : Prop :=
  ∃ t, P.Reported t ∧ t.status = .APPROVED ∧ key = (P.name, t.reference) ∧
    p.providerTransactionId = some t.providerTransactionId ∧
    p.amountCents = t.amountInCents ∧ p.currency = t.currency

/-- Orders, payments and purchases fit together. -/
structure OrdersConsistent (P : PaymentProvider Body) (D : Db) : Prop where
  state : ∀ orderId o, D.orders.lookup orderId = some o → OrderState D orderId o o.status
  priced : ∀ key p, D.payments.lookup key = some p → ∃ o,
    D.orders.lookup p.orderId = some o ∧ p.amountCents = o.priceCents ∧ p.currency = o.currency
  approved : ∀ key p, D.payments.lookup key = some p → p.status = .APPROVED → Approves P key p
  keyed : ∀ key row orderId, D.walletTransactions.lookup key = some row →
    row.orderId = some orderId → key = .purchase orderId
  fresh : ∀ orderId, D.orders.lookup orderId = none →
    D.walletTransactions.lookup (.purchase orderId) = none

theorem OrdersConsistent.of_empty {P : PaymentProvider Body} {D : Db} (ho : D.orders = ∅)
    (hp : D.payments = ∅) (hl : D.walletTransactions = ∅) : OrdersConsistent P D where
  state := by simp [ho]
  priced := by simp [hp]
  approved := by simp [hp]
  keyed := by simp [hl]
  fresh := by simp [hl]

section Step

variable {P : PaymentProvider Body} {D D' : Db}

/-- The state of an order depends on its payments and its purchase only. -/
theorem OrderState.congr {orderId : Id} {o o' : Order} {status : OrderStatus}
    (h : OrderState D orderId o status)
    (hp : ∀ st key, HasPayment D' orderId st key ↔ HasPayment D orderId st key)
    (hl : D'.walletTransactions.lookup (.purchase orderId) =
      D.walletTransactions.lookup (.purchase orderId))
    (huser : o'.userId = o.userId) (hcredits : o'.credits = o.credits) :
    OrderState D' orderId o' status := by
  cases status with
  | REFUNDED => exact h
  | _ => simpa only [OrderState, hp, hl, huser, hcredits] using h

/-- A change of other tables, but for ledger rows of no order. -/
theorem OrdersConsistent.elsewhere (h : OrdersConsistent P D) (ho : D'.orders = D.orders)
    (hp : D'.payments = D.payments)
    (hpurchase : ∀ orderId, D'.walletTransactions.lookup (.purchase orderId) =
      D.walletTransactions.lookup (.purchase orderId))
    (hrows : ∀ key row orderId, D'.walletTransactions.lookup key = some row →
      row.orderId = some orderId → D.walletTransactions.lookup key = some row) :
    OrdersConsistent P D' where
  state orderId o hlookup := by
    rw [ho] at hlookup
    exact (h.state orderId o hlookup).congr (by simp [HasPayment, hp]) (hpurchase orderId) rfl rfl
  priced key p hlookup := by
    rw [hp] at hlookup
    exact ho ▸ h.priced key p hlookup
  approved key p hlookup := by
    rw [hp] at hlookup
    exact h.approved key p hlookup
  keyed key row orderId hlookup hid := h.keyed key row orderId (hrows key row orderId hlookup hid) hid
  fresh orderId hlookup := by
    rw [ho] at hlookup
    rw [hpurchase]
    exact h.fresh orderId hlookup

theorem OrdersConsistent.same (h : OrdersConsistent P D) (ho : D'.orders = D.orders)
    (hp : D'.payments = D.payments) (hl : D'.walletTransactions = D.walletTransactions) :
    OrdersConsistent P D' :=
  h.elsewhere ho hp (fun _ => by rw [hl]) fun _ _ _ hk _ => hl ▸ hk

/-- A ledger that gains one row, which is no purchase. -/
theorem OrdersConsistent.gain (h : OrdersConsistent P D) {key : IdempotencyKey}
    {row : WalletTransaction} (hkey : ∀ orderId, key ≠ .purchase orderId)
    (hrow : row.orderId = none) (ho : D'.orders = D.orders) (hp : D'.payments = D.payments)
    (hl : D'.walletTransactions = D.walletTransactions.write key (some row)) :
    OrdersConsistent P D' := by
  refine h.elsewhere ho hp (fun orderId => ?_) fun k row' orderId hk hid => ?_
  · rw [hl, Table.lookup_write_of_ne _ _ (Ne.symm (hkey orderId))]
  · rw [hl, Table.lookup_write] at hk
    split at hk
    · cases hk
      simp [hrow] at hid
    · exact hk

/-- A new `PENDING` order has no payments yet. -/
theorem OrdersConsistent.insertOrder (h : OrdersConsistent P D) {orderId : Id} {o : Order}
    (hfresh : D.orders.lookup orderId = none) (hstatus : o.status = .PENDING)
    (ho : D'.orders = D.orders.write orderId (some o)) (hp : D'.payments = D.payments)
    (hl : D'.walletTransactions = D.walletTransactions) : OrdersConsistent P D' where
  state orderId' o' hlookup := by
    have hsame : ∀ st key, HasPayment D' orderId' st key ↔ HasPayment D orderId' st key := by
      simp [HasPayment, hp]
    rw [ho, Table.lookup_write] at hlookup
    split at hlookup
    · rename_i heq
      cases hlookup
      subst heq
      rw [hstatus]
      refine ⟨fun st key hpay => ?_, hl ▸ h.fresh orderId' hfresh⟩
      obtain ⟨p, hp', hid, -⟩ := (hsame st key).mp hpay
      obtain ⟨o'', ho'', -⟩ := h.priced key p hp'
      rw [hid, hfresh] at ho''
      cases ho''
    · exact (h.state orderId' o' hlookup).congr hsame (by rw [hl]) rfl rfl
  priced key p hlookup := by
    rw [hp] at hlookup
    obtain ⟨o', ho', hpriced⟩ := h.priced key p hlookup
    have hne : p.orderId ≠ orderId := by
      intro heq
      rw [heq, hfresh] at ho'
      cases ho'
    exact ⟨o', by rw [ho, Table.lookup_write_of_ne _ _ hne, ho'], hpriced⟩
  approved key p hlookup := by
    rw [hp] at hlookup
    exact h.approved key p hlookup
  keyed := hl ▸ h.keyed
  fresh orderId' hlookup := by
    rw [ho, Table.lookup_write] at hlookup
    split at hlookup
    · cases hlookup
    · exact hl ▸ h.fresh orderId' hlookup

/-- The payments of an order after one payment is written. -/
theorem hasPayment_write {key : String × String} {p : Payment}
    (hp : D'.payments = D.payments.write key (some p)) (orderId : Id) (st : PaymentStatus)
    (key' : String × String) : HasPayment D' orderId st key' ↔
      if key' = key then p.orderId = orderId ∧ p.status = st else HasPayment D orderId st key' := by
  unfold HasPayment
  rw [hp, Table.lookup_write]
  split
  · constructor
    · rintro ⟨p', hp', h⟩
      cases hp'
      exact h
    · exact fun h => ⟨p, rfl, h⟩
  · exact Iff.rfl

/-- A new `PENDING` payment at the terms of its order. -/
theorem OrdersConsistent.insertPayment (h : OrdersConsistent P D) {key : String × String}
    {p : Payment} {o : Order} (hfresh : D.payments.lookup key = none)
    (hstatus : p.status = .PENDING) (horder : D.orders.lookup p.orderId = some o)
    (hamount : p.amountCents = o.priceCents) (hcurrency : p.currency = o.currency)
    (ho : D'.orders = D.orders) (hp : D'.payments = D.payments.write key (some p))
    (hl : D'.walletTransactions = D.walletTransactions) : OrdersConsistent P D' where
  state orderId o' hlookup := by
    rw [ho] at hlookup
    -- The new payment is `PENDING`; the statuses that count are unchanged.
    have hsame : ∀ st key', st ≠ .PENDING →
        (HasPayment D' orderId st key' ↔ HasPayment D orderId st key') := by
      intro st key' hne
      rw [hasPayment_write hp]
      split
      · rename_i heq
        subst heq
        simp [HasPayment, hfresh, hstatus, hne.symm]
      · exact Iff.rfl
    have hold := h.state orderId o' hlookup
    cases hst : o'.status with
    | PENDING =>
        rw [hst] at hold
        refine ⟨fun st key' hpay => ?_, hl ▸ hold.2⟩
        by_cases hne : st = .PENDING
        · exact hne
        · exact hold.1 st key' ((hsame st key' hne).mp hpay)
    | PAID =>
        rw [hst] at hold
        simpa only [OrderState, hsame .APPROVED _ (by simp), hl] using hold
    | CANCELLED =>
        rw [hst] at hold
        simpa only [OrderState, hsame .APPROVED _ (by simp), hsame .DECLINED _ (by simp),
          hsame .FAILED _ (by simp), hl] using hold
    | REFUNDED =>
        rw [hst] at hold
        exact hold
  priced key' p' hlookup := by
    rw [hp, Table.lookup_write] at hlookup
    split at hlookup
    · cases hlookup
      exact ⟨o, ho ▸ horder, hamount, hcurrency⟩
    · exact ho ▸ h.priced key' p' hlookup
  approved key' p' hlookup hst := by
    rw [hp, Table.lookup_write] at hlookup
    split at hlookup
    · cases hlookup
      simp [hstatus] at hst
    · exact h.approved key' p' hlookup hst
  keyed := hl ▸ h.keyed
  fresh := ho ▸ hl ▸ h.fresh

variable (s : Settlement P D) {status : PaymentStatus}

/-- The payments of another order do not see a settlement. -/
theorem Settlement.hasPayment_other
    (hp : D'.payments = D.payments.write s.key (some (settled s.payment s.transaction status)))
    {orderId : Id} (hne : orderId ≠ s.payment.orderId) (st : PaymentStatus)
    (key : String × String) : HasPayment D' orderId st key ↔ HasPayment D orderId st key := by
  rw [hasPayment_write hp]
  split
  · rename_i heq
    subst heq
    simp [HasPayment, s.payment_mem, settled, hne.symm]
  · exact Iff.rfl

/-- The payments of the settled order: the one payment leaves `PENDING`. -/
theorem Settlement.hasPayment_own
    (hp : D'.payments = D.payments.write s.key (some (settled s.payment s.transaction status)))
    {st : PaymentStatus} (hst : st ≠ .PENDING) (key : String × String) :
    HasPayment D' s.payment.orderId st key ↔
      (key = s.key ∧ status = st) ∨ HasPayment D s.payment.orderId st key := by
  rw [hasPayment_write hp]
  split
  · rename_i heq
    subst heq
    simp [HasPayment, s.payment_mem, s.pending, settled, hst.symm]
  · rename_i hne
    simp [hne]

/-- Prices and evidence after a settlement. -/
theorem Settlement.consistent (h : OrdersConsistent P D) {o : Order}
    (hp : D'.payments = D.payments.write s.key (some (settled s.payment s.transaction status)))
    (happroved : status = .APPROVED → s.transaction.status = .APPROVED)
    (ho : ∀ orderId, D'.orders.lookup orderId =
      if orderId = s.payment.orderId then some o else D.orders.lookup orderId)
    (hprice : o.priceCents = s.order.priceCents) (hcurrency : o.currency = s.order.currency)
    (hstate : OrderState D' s.payment.orderId o o.status)
    (hpurchase : ∀ orderId, orderId ≠ s.payment.orderId →
      D'.walletTransactions.lookup (.purchase orderId) =
        D.walletTransactions.lookup (.purchase orderId))
    (hkeyed : ∀ key row orderId, D'.walletTransactions.lookup key = some row →
      row.orderId = some orderId → key = .purchase orderId) : OrdersConsistent P D' where
  state orderId o' hlookup := by
    rw [ho] at hlookup
    split at hlookup
    · rename_i heq
      cases hlookup
      exact heq ▸ hstate
    · rename_i hne
      exact (h.state orderId o' hlookup).congr (s.hasPayment_other hp hne) (hpurchase orderId hne)
        rfl rfl
  priced key p hlookup := by
    have hold : ∃ p₀, D.payments.lookup key = some p₀ ∧ p₀.orderId = p.orderId ∧
        p₀.amountCents = p.amountCents ∧ p₀.currency = p.currency := by
      rw [hp, Table.lookup_write] at hlookup
      split at hlookup
      · rename_i heq
        cases hlookup
        exact ⟨s.payment, heq ▸ s.payment_mem, rfl, rfl, rfl⟩
      · exact ⟨p, hlookup, rfl, rfl, rfl⟩
    obtain ⟨p₀, hp₀, hid, ha, hc⟩ := hold
    obtain ⟨o', ho', ha', hc'⟩ := h.priced key p₀ hp₀
    rw [ho, ← hid]
    split
    · rename_i heq
      rw [heq] at ho'
      obtain rfl := Option.some.inj (s.order_mem.symm.trans ho')
      exact ⟨o, rfl, by rw [← ha, ha', hprice], by rw [← hc, hc', hcurrency]⟩
    · exact ⟨o', ho', ha.symm.trans ha', hc.symm.trans hc'⟩
  approved key p hlookup hst := by
    rw [hp, Table.lookup_write] at hlookup
    split at hlookup
    · rename_i heq
      cases hlookup
      exact ⟨s.transaction, s.reported, happroved hst, heq.trans s.reference, rfl, s.amount,
        s.currency⟩
    · exact h.approved key p hlookup hst
  keyed := hkeyed
  fresh orderId hlookup := by
    rw [ho] at hlookup
    split at hlookup
    · cases hlookup
    · rename_i hne
      rw [hpurchase orderId hne]
      exact h.fresh orderId hlookup

theorem Settlement.approve (h : OrdersConsistent P D) {w : Wallet}
    (happroved : s.transaction.status = .APPROVED)
    (hk : D.walletTransactions.lookup (.purchase s.payment.orderId) = none) :
    OrdersConsistent P (view ([s.paymentWrite .APPROVED,
        .order s.payment.orderId (some { s.order with status := .PAID })] ++
      purchaseWrites s.order.userId s.payment.orderId s.order.credits w) D) := by
  -- Before a purchase is recorded the order has no approved payment.
  have hnone : ∀ key, ¬ HasPayment D s.payment.orderId .APPROVED key := by
    have hstate := h.state _ _ s.order_mem
    cases hst : s.order.status with
    | PENDING =>
        rw [hst] at hstate
        exact fun key hpay => absurd (hstate.1 _ key hpay) (by simp)
    | PAID =>
        rw [hst] at hstate
        obtain ⟨-, b, hb⟩ := hstate
        simp [hk] at hb
    | CANCELLED =>
        rw [hst] at hstate
        exact hstate.1
    | REFUNDED =>
        rw [hst] at hstate
        exact hstate.elim
  refine s.consistent h rfl (fun _ => happroved) (fun orderId => Table.lookup_write _ _ _ _) rfl rfl
    ?_ (fun orderId hne => ?_) fun key row orderId hrow hid => ?_
  · refine ⟨⟨s.key, ?_, fun key hpay => ?_⟩, _, Table.lookup_write_self _ _ _⟩
    · exact (s.hasPayment_own rfl (by simp) s.key).mpr (.inl ⟨rfl, rfl⟩)
    · rcases (s.hasPayment_own rfl (by simp) key).mp hpay with ⟨hkey, -⟩ | hpay
      · exact hkey
      · exact absurd hpay (hnone key)
  · exact Table.lookup_write_of_ne _ _ (by simpa using hne)
  · have hrow' := hrow
    simp only [view_append, view_cons, view_nil, purchaseWrites, apply_eq, RowWrite.apply,
      Settlement.paymentWrite, Table.lookup_write] at hrow'
    split at hrow'
    · rename_i heq
      cases hrow'
      rw [heq, Option.some.inj hid]
    · exact h.keyed key row orderId hrow' hid

theorem Settlement.close (h : OrdersConsistent P D)
    (hstatus : TERMINAL_STATUS_MAP s.transaction.status = some status)
    (hrejected : status ≠ .APPROVED) :
    OrdersConsistent P (view (s.paymentWrite status ::
      if s.order.status = .PENDING then
        [.order s.payment.orderId (some { s.order with status := .CANCELLED })]
      else []) D) := by
  have hkind : status = .DECLINED ∨ status = .FAILED := by
    cases ht : s.transaction.status <;> simp_all [TERMINAL_STATUS_MAP, eq_comm]
  have hne : status ≠ .PENDING := by
    rcases hkind with rfl | rfl <;> simp
  have hstate := h.state _ _ s.order_mem
  split
  · rename_i hopen
    rw [hopen] at hstate
    refine s.consistent h rfl (fun hst => absurd hst hrejected)
      (fun orderId => Table.lookup_write _ _ _ _) rfl rfl ?_ (fun _ _ => rfl) h.keyed
    refine ⟨fun key hpay => ?_, ⟨s.key, ?_⟩, hstate.2⟩
    · rcases (s.hasPayment_own rfl (by simp) key).mp hpay with ⟨-, hst⟩ | hpay
      · exact hrejected hst
      · exact absurd (hstate.1 _ key hpay) (by simp)
    · rcases hkind with rfl | rfl
      · exact .inl ((s.hasPayment_own rfl (by simp) s.key).mpr (.inl ⟨rfl, rfl⟩))
      · exact .inr ((s.hasPayment_own rfl (by simp) s.key).mpr (.inl ⟨rfl, rfl⟩))
  · rename_i hclosed
    refine s.consistent h rfl (fun hst => absurd hst hrejected) (o := s.order) (fun orderId => ?_)
      rfl rfl ?_ (fun _ _ => rfl) h.keyed
    · split
      · rename_i heq
        exact heq ▸ s.order_mem
      · rfl
    · have happ : ∀ key, HasPayment (view [s.paymentWrite status] D) s.payment.orderId .APPROVED
          key ↔ HasPayment D s.payment.orderId .APPROVED key :=
        fun key => (s.hasPayment_own rfl (by simp) key).trans (by simp [hrejected])
      cases hst : s.order.status with
      | PENDING => exact absurd hst hclosed
      | PAID =>
          rw [hst] at hstate
          exact ⟨(existsUnique_congr happ).mpr hstate.1, hstate.2⟩
      | CANCELLED =>
          rw [hst] at hstate
          obtain ⟨hnone, ⟨key, hkey⟩, hpurchase⟩ := hstate
          refine ⟨fun key => (happ key).not.mpr (hnone key), ⟨key, ?_⟩, hpurchase⟩
          exact hkey.imp (fun hpay => (s.hasPayment_own rfl (by simp) key).mpr (.inr hpay))
            fun hpay => (s.hasPayment_own rfl (by simp) key).mpr (.inr hpay)
      | REFUNDED =>
          rw [hst] at hstate
          exact hstate

variable {S : Deployment Body} {c : Call Body} {L : List RowWrite}

theorem Effect.ordersConsistent (he : Effect S c D L) (h : OrdersConsistent S.provider D) :
    OrdersConsistent S.provider (view L D) := by
  cases he with
  | createWallet hw hk =>
      unfold bonusWrites
      split
      · exact h.gain (by simp) rfl rfl rfl rfl
      · exact h.same rfl rfl rfl
  | adjust hw hfunds hk => exact h.gain (by simp) rfl rfl rfl rfl
  | submit s =>
      rw [s.view_writes]
      exact h.gain (by simp) rfl rfl rfl rfl
  | confirm hc hres hactive hw hk => exact h.gain (by simp) rfl rfl rfl rfl
  | release hc hres hactive hw hk => exact h.gain (by simp) rfl rfl rfl rfl
  | createReading hr ho hdraft => exact h.same rfl rfl rfl
  | setReading hc hr hsame hstatus => exact h.same rfl rfl rfl
  | enqueue hc => exact h.same rfl rfl rfl
  | createOrder ho hpkg => exact h.insertOrder ho rfl rfl rfl rfl
  | createDiscountedOrder ho hoffer hclock hactive hpkg => exact h.insertOrder ho rfl rfl rfl rfl
  | createPayment hk ho => exact h.insertPayment hk rfl ho rfl rfl rfl rfl rfl
  | recordDelivery hk => exact h.same rfl rfl rfl
  | approve s hc happroved hw hk => exact s.approve h happroved hk
  | close s hc hstatus hrejected => exact s.close h hstatus hrejected
  | openSession hk ho htype hcreated => exact h.same rfl rfl rfl
  | logEvent hc => exact h.same rfl rfl rfl
  | expireSession hc hsession hopen => exact h.same rfl rfl rfl
  | completeSession s hc =>
      rw [s.view_writes]
      exact h.same rfl rfl rfl
  | unlockDailyCard hcount henough => exact h.same rfl rfl rfl

end Step

/-! ## What is never taken back -/

/-- Between two states: `PAID` is kept, and so is a payment that left `PENDING`. -/
structure Irrevocable (D D' : Db) : Prop where
  paid : Table.Persists (fun o o' : Order => o.status = .PAID → o'.status = .PAID) D.orders D'.orders
  closed : Table.Persists (fun p p' : Payment => p.status ≠ .PENDING → p' = p) D.payments D'.payments

theorem Irrevocable.refl (D : Db) : Irrevocable D D :=
  ⟨.refl (fun _ => id) _, .refl (fun _ _ => rfl) _⟩

theorem Irrevocable.trans {D₁ D₂ D₃ : Db} (h : Irrevocable D₁ D₂) (h' : Irrevocable D₂ D₃) :
    Irrevocable D₁ D₃ where
  paid := by
    refine Table.Persists.trans ?_ h.paid h'.paid
    exact fun hp hp' hpaid => hp' (hp hpaid)
  closed := by
    refine Table.Persists.trans ?_ h.closed h'.closed
    intro p p' p'' hp hp' hclosed
    obtain rfl := hp hclosed
    exact hp' hclosed

variable {S : Deployment Body} {c : Call Body} {D : Db} {L : List RowWrite}

theorem Effect.irrevocable (he : Effect S c D L) : Irrevocable D (view L D) := by
  have noOrder := (Irrevocable.refl D).paid
  have noPayment := (Irrevocable.refl D).closed
  cases he with
  | createWallet hw hk =>
      unfold bonusWrites
      split <;> exact ⟨noOrder, noPayment⟩
  | submit s =>
      rw [s.view_writes]
      exact ⟨noOrder, noPayment⟩
  | createOrder ho hpkg => exact ⟨.insert (fun _ => id) _ ho, noPayment⟩
  | createDiscountedOrder ho hoffer hclock hactive hpkg => exact ⟨.insert (fun _ => id) _ ho, noPayment⟩
  | createPayment hk ho => exact ⟨noOrder, .insert (fun _ _ => rfl) _ hk⟩
  | approve s hc happroved hw hk =>
      exact ⟨.replace (fun _ => id) s.order_mem fun _ => rfl,
        .replace (fun _ _ => rfl) s.payment_mem fun h => absurd s.pending h⟩
  | @close _ _ s status hc hstatus hrejected =>
      have hclosed : Table.Persists (fun p p' : Payment => p.status ≠ .PENDING → p' = p) D.payments
          (D.payments.write s.key (some (settled s.payment s.transaction status))) :=
        .replace (fun _ _ => rfl) s.payment_mem fun h => absurd s.pending h
      split
      · rename_i hopen
        exact ⟨.replace (fun _ => id) s.order_mem fun h => by simp [hopen] at h, hclosed⟩
      · exact ⟨noOrder, hclosed⟩
  | adjust hw hfunds hk => exact ⟨noOrder, noPayment⟩
  | confirm hc hres hactive hw hk => exact ⟨noOrder, noPayment⟩
  | release hc hres hactive hw hk => exact ⟨noOrder, noPayment⟩
  | createReading hr ho hdraft => exact ⟨noOrder, noPayment⟩
  | setReading hc hr hsame hstatus => exact ⟨noOrder, noPayment⟩
  | enqueue hc => exact ⟨noOrder, noPayment⟩
  | recordDelivery hk => exact ⟨noOrder, noPayment⟩
  | openSession hk ho htype hcreated => exact ⟨noOrder, noPayment⟩
  | logEvent hc => exact ⟨noOrder, noPayment⟩
  | expireSession hc hsession hopen => exact ⟨noOrder, noPayment⟩
  | completeSession s hc =>
      rw [s.view_writes]
      exact ⟨noOrder, noPayment⟩
  | unlockDailyCard hcount henough => exact ⟨noOrder, noPayment⟩

theorem irrevocable_path {calls : Call Body → Prop} {D₀ : Db}
    {hist : List (Call Body × List RowWrite)}
    (path : Path ((discipline S).Permits calls) D₀ hist D) : Irrevocable D₀ D := by
  induction path with
  | nil => exact .refl D₀
  | cons tail he ih => exact ih.trans he.2.irrevocable

/-! ## The law of an order -/

/-- The law of an order and its payments. -/
structure OrderLaw (P : PaymentProvider Body) (D : Db) (orderId : Id) (o : Order) : Prop where
  paid_iff_approved : o.status = .PAID ↔ ∃! key, HasPayment D orderId .APPROVED key
  paid_iff_purchase : o.status = .PAID ↔ ∃! key, ∃ row,
    D.walletTransactions.lookup key = some row ∧ row.orderId = some orderId ∧
      row.type = .PURCHASE
  purchase : ∀ key row, D.walletTransactions.lookup key = some row →
    row.orderId = some orderId → row.type = .PURCHASE →
      row.amount = o.credits ∧ row.walletId = o.userId
  cancelled_iff : o.status = .CANCELLED ↔ (∀ key, ¬ HasPayment D orderId .APPROVED key) ∧
    ∃ key, HasPayment D orderId .DECLINED key ∨ HasPayment D orderId .FAILED key
  pending_iff : o.status = .PENDING ↔ ∀ key p, D.payments.lookup key = some p →
    p.orderId = orderId → p.status = .PENDING
  priced : ∀ key p, D.payments.lookup key = some p → p.orderId = orderId →
    p.amountCents = o.priceCents ∧ p.currency = o.currency
  approved : ∀ key p, D.payments.lookup key = some p → p.orderId = orderId →
    p.status = .APPROVED → Approves P key p

theorem OrdersConsistent.law {P : PaymentProvider Body} (h : OrdersConsistent P D) {orderId : Id}
    {o : Order} (ho : D.orders.lookup orderId = some o) : OrderLaw P D orderId o := by
  have hstate := h.state orderId o ho
  -- Every ledger row of the order has the purchase key.
  have hrow : ∀ key row, D.walletTransactions.lookup key = some row →
      row.orderId = some orderId → D.walletTransactions.lookup (.purchase orderId) = some row :=
    fun key row hk hid => h.keyed key row orderId hk hid ▸ hk
  have hpriced : ∀ key p, D.payments.lookup key = some p → p.orderId = orderId →
      p.amountCents = o.priceCents ∧ p.currency = o.currency := by
    rintro key p hp rfl
    obtain ⟨o', ho', hprice⟩ := h.priced key p hp
    obtain rfl := Option.some.inj (ho.symm.trans ho')
    exact hprice
  have happroved : ∀ key p, D.payments.lookup key = some p → p.orderId = orderId →
      p.status = .APPROVED → Approves P key p := fun key p hp _ => h.approved key p hp
  cases hst : o.status with
  | PENDING =>
      rw [hst] at hstate
      obtain ⟨hpending, hnone⟩ := hstate
      have hno : ∀ st key, st ≠ .PENDING → ¬ HasPayment D orderId st key :=
        fun st key hne hpay => hne (hpending st key hpay)
      exact
        { paid_iff_approved := by simp [hst, hno, ExistsUnique]
          paid_iff_purchase := by
            simp only [hst, reduceCtorEq, false_iff]
            rintro ⟨key, ⟨row, hk, hid, -⟩, -⟩
            simp [hrow key row hk hid] at hnone
          purchase := fun key row hk hid => by simp [hrow key row hk hid] at hnone
          cancelled_iff := by simp [hst, hno]
          pending_iff := by
            simp only [hst, true_iff]
            exact fun key p hp hid => hpending p.status key ⟨p, hp, hid, rfl⟩
          priced := hpriced
          approved := happroved }
  | PAID =>
      rw [hst] at hstate
      obtain ⟨hone, b, hb⟩ := hstate
      obtain ⟨key₀, ⟨p₀, hp₀, hid₀, hst₀⟩, -⟩ := id hone
      exact
        { paid_iff_approved := by simp [hst, hone]
          paid_iff_purchase := by
            simp only [hst, true_iff]
            refine ⟨.purchase orderId, ⟨_, hb, rfl, rfl⟩, ?_⟩
            rintro key ⟨row, hk, hid, -⟩
            exact h.keyed key row orderId hk hid
          purchase := fun key row hk hid _ => by
            obtain rfl := Option.some.inj (hb.symm.trans (hrow key row hk hid))
            exact ⟨rfl, rfl⟩
          cancelled_iff := by
            simp only [hst, reduceCtorEq, false_iff, not_and]
            exact fun hnone => absurd ⟨p₀, hp₀, hid₀, hst₀⟩ (hnone key₀)
          pending_iff := by
            simp only [hst, reduceCtorEq, false_iff]
            intro hall
            simp [hall key₀ p₀ hp₀ hid₀] at hst₀
          priced := hpriced
          approved := happroved }
  | CANCELLED =>
      rw [hst] at hstate
      obtain ⟨hno, ⟨key₀, hrejected⟩, hnone⟩ := hstate
      exact
        { paid_iff_approved := by simp [hst, hno, ExistsUnique]
          paid_iff_purchase := by
            simp only [hst, reduceCtorEq, false_iff]
            rintro ⟨key, ⟨row, hk, hid, -⟩, -⟩
            simp [hrow key row hk hid] at hnone
          purchase := fun key row hk hid => by simp [hrow key row hk hid] at hnone
          cancelled_iff := by
            simp only [hst, true_iff]
            exact ⟨hno, key₀, hrejected⟩
          pending_iff := by
            simp only [hst, reduceCtorEq, false_iff]
            intro hall
            rcases hrejected with ⟨p, hp, hid, hp'⟩ | ⟨p, hp, hid, hp'⟩ <;>
              simp [hall key₀ p hp hid] at hp'
          priced := hpriced
          approved := happroved }
  | REFUNDED =>
      rw [hst] at hstate
      exact hstate.elim

/-- Orders and payments in every committed state of every run without removals
that starts without them: every order obeys its law, a `PAID` order stays `PAID`
and a payment that has left `PENDING` stays as it is. -/
theorem order_lifecycle (S : Deployment Body) (D : Db) (horders : D.orders = ∅)
    (hpayments : D.payments = ∅) (hledger : D.walletTransactions = ∅) (s : BackendServer Body)
    (run : Server.Reach (backend S) (fun c => c.removes = none) (.idle D) s) :
    (∀ orderId o, s.db.orders.lookup orderId = some o → OrderLaw S.provider s.db orderId o) ∧
      ∀ s' : BackendServer Body, Server.Reach (backend S) (fun c => c.removes = none) s s' →
        (∀ orderId o, s.db.orders.lookup orderId = some o → o.status = .PAID →
          ∃ o', s'.db.orders.lookup orderId = some o' ∧ o'.status = .PAID) ∧
        ∀ key p, s.db.payments.lookup key = some p → p.status ≠ .PENDING →
          s'.db.payments.lookup key = some p := by
  have hD : PaymentsBelong D := .of_empty hpayments
  have hconsistent : OrdersConsistent S.provider s.db :=
    (reach_commits (fun _ hc => hc) hD run).invariant (OrdersConsistent S.provider)
      (.of_empty horders hpayments hledger) fun c D' L hD' he => he.2.ordersConsistent hD'
  refine ⟨fun orderId o ho => hconsistent.law ho, fun s' run' => ?_⟩
  obtain ⟨hist, -, path⟩ := reach_commits_from (fun _ hc => hc) hD run run'
  have hkept := irrevocable_path path
  refine ⟨fun orderId o ho hpaid => ?_, fun key p hp hclosed => ?_⟩
  · obtain ⟨o', ho', hpaid'⟩ := hkept.paid orderId o ho
    exact ⟨o', ho', hpaid' hpaid⟩
  · obtain ⟨p', hp', hsame⟩ := hkept.closed key p hp
    exact hsame hclosed ▸ hp'

theorem order_lifecycle_of_purchase : ∃ (s : BackendServer ParsedWebhook) (o : Order),
    s.db.orders.lookup "o1" = some o ∧ o.status = .PAID ∧
      OrderLaw sampleDeployment.provider s.db "o1" o := by
  have purchased : ∃ s, Server.Reach (backend sampleDeployment) (fun c => c.removes = none)
      (.idle sampleShop) s ∧
      s.db.orders.lookup "o1" = some ⟨"ana", "ten", 10, 5000, none, "COP", .PAID⟩ :=
    ⟨_, Server.Reach.refl.run purchaseSchedule
      (by simp [purchaseSchedule, Move.Admissible, Call.removes, backend, Deployment.answers]) rfl,
      rfl⟩
  obtain ⟨s, run, hs⟩ := purchased
  exact ⟨s, _, hs, rfl, (order_lifecycle sampleDeployment sampleShop rfl rfl rfl s run).1 "o1" _ hs⟩

end TaroTria
