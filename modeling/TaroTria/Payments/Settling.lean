import TaroTria.Payments.PaymentsService
import TaroTria.Transactions.Alone

/-!
# The settling of a payment

What a reported transaction does to the rows when its request runs alone, as a
function of the rows.
-/

namespace TaroTria

open Transactions

namespace PaymentsService

/-- The transaction has the amount and the currency of the payment. -/
def Matches (p : Payment) (t : TransactionResult) : Prop :=
  p.amountCents = t.amountInCents ∧ p.currency = t.currency

instance (p : Payment) (t : TransactionResult) : Decidable (Matches p t) :=
  inferInstanceAs (Decidable (_ ∧ _))

/-- The order and the wallet that an approval credits, unless the order has been
credited before, one of the two is missing or the new balance would not fit. -/
def creditable (D : Db) (orderId : Id) : Option (Order × Wallet) := do
  let o ← D.orders.lookup orderId
  let w ← D.wallets.lookup o.userId
  if (D.walletTransactions.lookup (.purchase orderId)).isNone &&
      Wallet.fits ⟨w.balance + o.credits⟩ then some (o, w) else none

/-- The writes of an approval. -/
def approvalWrites (key : String × String) (p : Payment) (t : TransactionResult) (o : Order)
    (w : Wallet) : List RowWrite :=
  [.payment key (some (settled p t .APPROVED)),
    .order p.orderId (some { o with status := .PAID })] ++
    WalletService.purchaseWrites o.userId p.orderId o.credits w

/-- The write that cancels a pending order. -/
def cancelWrites (D : Db) (orderId : Id) : List RowWrite :=
  match D.orders.lookup orderId with
  | some o => if o.status = .PENDING then
      [.order orderId (some { o with status := .CANCELLED })] else []
  | none => []

/-- The writes of a transaction for its payment at `D`. -/
def settlingWrites (key : String × String) (p : Payment) (t : TransactionResult) (D : Db) :
    List RowWrite :=
  if p.status = .PENDING ∧ Matches p t then
    match TERMINAL_STATUS_MAP t.status with
    | none => []
    | some .APPROVED =>
        match creditable D p.orderId with
        | some (o, w) => approvalWrites key p t o w
        | none => []
    | some status => .payment key (some (settled p t status)) :: cancelWrites D p.orderId
  else []

/-- The rows after the transaction `t` has been applied to its payment, if it has one. -/
def settle (name : String) (t : TransactionResult) (D : Db) : Db :=
  match D.payments.lookup (name, t.reference) with
  | some p => view (settlingWrites (name, t.reference) p t D) D
  | none => D

/-- An approval is due that the order cannot be credited for. -/
def Refused (D : Db) (p : Payment) (t : TransactionResult) : Prop :=
  p.status = .PENDING ∧ Matches p t ∧ t.status = .APPROVED ∧ creditable D p.orderId = none

variable {key : String × String} {p : Payment} {t : TransactionResult} {D : Db}

theorem creditable_eq_some {orderId : Id} {o : Order} {w : Wallet} :
    creditable D orderId = some (o, w) ↔ D.orders.lookup orderId = some o ∧
      D.wallets.lookup o.userId = some w ∧
      D.walletTransactions.lookup (.purchase orderId) = none ∧
      Wallet.fits ⟨w.balance + o.credits⟩ = true := by
  unfold creditable
  cases ho : D.orders.lookup orderId with
  | none => simp
  | some o' =>
      cases hw : D.wallets.lookup o'.userId with
      | none =>
          simp only [hw, Option.bind_eq_bind, Option.bind_some, Option.bind_none, reduceCtorEq,
            Option.some.injEq, false_iff]
          rintro ⟨rfl, hw', -⟩
          simp [hw] at hw'
      | some w' =>
          simp only [hw, Option.bind_eq_bind, Option.bind_some, Option.ite_none_right_eq_some,
            Bool.and_eq_true, Option.isNone_iff_eq_none, Option.some.injEq, Prod.mk.injEq]
          constructor
          · rintro ⟨⟨hk, hfits⟩, rfl, rfl⟩
            exact ⟨rfl, hw, hk, hfits⟩
          · rintro ⟨rfl, hw', hk, hfits⟩
            obtain rfl := Option.some.inj (hw.symm.trans hw')
            exact ⟨⟨hk, hfits⟩, rfl, rfl⟩

section Runs

variable (hp : D.payments.lookup key = some p)
include hp

/-- A payment that is no longer `PENDING` is left as it is. -/
theorem run_settlePayment_closed (hclosed : p.status ≠ .PENDING) (status : PaymentStatus) :
    (settlePayment key t status).run D [] = .ok (0, []) := by
  apply Db.payment.run_updateMany_none
  intro p' hp'
  obtain rfl : p = p' := Option.some.inj (hp.symm.trans hp')
  simpa using hclosed

theorem run_settlePayment (hpending : p.status = .PENDING) (status : PaymentStatus) :
    (settlePayment key t status).run D [] =
      .ok (1, [.payment key (some (settled p t status))]) :=
  Db.payment.run_updateMany _ hp (by simpa using hpending)

theorem run_approvePaymentTx (hpending : p.status = .PENDING) {o : Order} {w : Wallet}
    (hc : creditable D p.orderId = some (o, w)) :
    (approvePaymentTx key p t .APPROVED).run D [] = .ok ((), approvalWrites key p t o w) := by
  obtain ⟨ho, hw, hk, hfits⟩ := creditable_eq_some.mp hc
  unfold approvePaymentTx
  rw [Tx.run_bind_ok (run_settlePayment hp hpending _)]
  simp only [one_ne_zero, if_false]
  rw [Tx.run_bind_ok (Db.order.run_findUniqueOrThrow (by simpa using ho)),
    Tx.run_bind_ok (Db.order.run_update _ (by simpa using ho))]
  unfold WalletService.creditPurchase
  rw [Tx.run_bind_ok (Db.wallet.run_findUniqueOrThrow (by simpa using hw)),
    Tx.run_bind_ok (Db.wallet.run_updateWithin _ (by simpa using hw) hfits),
    Tx.run_bind_ok (Db.walletTransaction.run_create (by simpa using hk))]
  simp [approvalWrites, WalletService.purchaseWrites]

theorem run_approvePaymentTx_refused (hpending : p.status = .PENDING)
    (hc : creditable D p.orderId = none) :
    ∃ e, (approvePaymentTx key p t .APPROVED).run D [] = .error e := by
  unfold approvePaymentTx
  rw [Tx.run_bind_ok (run_settlePayment hp hpending _)]
  simp only [one_ne_zero, if_false]
  cases ho : D.orders.lookup p.orderId with
  | none => exact ⟨_, Tx.run_bind_error
      (Db.order.run_findUniqueOrThrow_none (by simpa using ho))⟩
  | some o =>
      rw [Tx.run_bind_ok (Db.order.run_findUniqueOrThrow (by simpa using ho)),
        Tx.run_bind_ok (Db.order.run_update _ (by simpa using ho))]
      unfold WalletService.creditPurchase
      cases hw : D.wallets.lookup o.userId with
      | none => exact ⟨_, Tx.run_bind_error
          (Db.wallet.run_findUniqueOrThrow_none (by simpa using hw))⟩
      | some w =>
          rw [Tx.run_bind_ok (Db.wallet.run_findUniqueOrThrow (by simpa using hw))]
          cases hfits : Wallet.fits ⟨w.balance + o.credits⟩ with
          | false => exact ⟨_, Tx.run_bind_error
              (Db.wallet.run_updateWithin_unfit _ (by simpa using hw) hfits)⟩
          | true =>
              rw [Tx.run_bind_ok (Db.wallet.run_updateWithin _ (by simpa using hw) hfits)]
              cases hk : D.walletTransactions.lookup (.purchase p.orderId) with
              | none => simp [creditable_eq_some.mpr ⟨ho, hw, hk, hfits⟩] at hc
              | some row =>
                  exact ⟨_, Tx.run_bind_error
                    (Db.walletTransaction.run_create_exists (by simpa using hk))⟩

theorem run_markPaymentTerminalTx (hpending : p.status = .PENDING) (status : PaymentStatus) :
    (markPaymentTerminalTx key p t status).run D [] =
      .ok ((), .payment key (some (settled p t status)) :: cancelWrites D p.orderId) := by
  unfold markPaymentTerminalTx
  rw [Tx.run_bind_ok (run_settlePayment hp hpending _)]
  simp only [one_ne_zero, if_false, cancelWrites]
  cases ho : D.orders.lookup p.orderId with
  | none =>
      rw [Tx.run_bind_ok (Db.order.run_updateMany_none _ (by simp [ho]))]
      rfl
  | some o =>
      by_cases hopen : o.status = .PENDING
      · rw [Tx.run_bind_ok (Db.order.run_updateMany _ (by simpa using ho) (by simpa using hopen))]
        simp [hopen]
      · rw [Tx.run_bind_ok (Db.order.run_updateMany_none _ (by simpa [ho] using hopen))]
        simp [hopen]

end Runs

/-! ## The end of both paths -/

theorem settlingWrites_of_closed (h : p.status ≠ .PENDING) : settlingWrites key p t D = [] := by
  simp [settlingWrites, h]

theorem settlingWrites_of_mismatch (h : ¬ Matches p t) : settlingWrites key p t D = [] := by
  simp [settlingWrites, h]

/-- The transaction of a terminal status. -/
def settlingTx (key : String × String) (p : Payment) (t : TransactionResult) :
    PaymentStatus → TxM Unit
  | .APPROVED => approvePaymentTx key p t .APPROVED
  | status => markPaymentTerminalTx key p t status

theorem applyTransaction_eq (hmatch : Matches p t) {status : PaymentStatus}
    (hstatus : TERMINAL_STATUS_MAP t.status = some status) :
    applyTransaction key p t = Proc.transaction (settlingTx key p t status) := by
  unfold applyTransaction
  rw [if_neg (by simpa [Matches] using hmatch), hstatus]
  cases status <;> rfl

/-- Without a terminal status, or for another amount, nothing is done. -/
theorem applyTransaction_idle {k : String × String}
    (h : ¬ Matches p t ∨ TERMINAL_STATUS_MAP t.status = none) :
    applyTransaction k p t = Proc.ret () ∧ settlingWrites k p t D = [] ∧
      ¬ Refused D p t := by
  by_cases hmatch : Matches p t
  · have hstatus := h.resolve_left (not_not.mpr hmatch)
    refine ⟨?_, by simp [settlingWrites, hstatus], ?_⟩
    · unfold applyTransaction
      rw [if_neg (by simpa [Matches] using hmatch), hstatus]
      rfl
    · rintro ⟨-, -, happroved, -⟩
      simp [happroved, TERMINAL_STATUS_MAP] at hstatus
  · refine ⟨?_, settlingWrites_of_mismatch hmatch, fun hrefused => hmatch hrefused.2.1⟩
    unfold applyTransaction
    rw [if_pos (not_and_or.mp hmatch)]
    rfl

theorem run_settlingTx (hp : D.payments.lookup key = some p) (hmatch : Matches p t)
    {status : PaymentStatus} (hstatus : TERMINAL_STATUS_MAP t.status = some status) :
    (settlingTx key p t status).run D [] = .ok ((), settlingWrites key p t D) ∧ ¬ Refused D p t ∨
      (∃ e, (settlingTx key p t status).run D [] = .error e) ∧ Refused D p t ∧
        settlingWrites key p t D = [] := by
  by_cases hpending : p.status = .PENDING
  · cases status with
    | APPROVED =>
        have happroved : t.status = .APPROVED := by
          cases ht : t.status <;> simp [ht, TERMINAL_STATUS_MAP] at hstatus ⊢
        cases hc : creditable D p.orderId with
        | none =>
            exact .inr ⟨run_approvePaymentTx_refused hp hpending hc,
              ⟨hpending, hmatch, happroved, hc⟩, by simp [settlingWrites, hstatus, hc]⟩
        | some row =>
            obtain ⟨o, w⟩ := row
            refine .inl ⟨?_, fun hrefused => by simp [hrefused.2.2.2] at hc⟩
            simpa [settlingTx, settlingWrites, hstatus, hc, hpending, hmatch] using
              run_approvePaymentTx hp hpending hc
    | _ =>
        refine .inl ⟨?_, ?_⟩
        · simpa [settlingTx, settlingWrites, hstatus, hpending, hmatch] using
            run_markPaymentTerminalTx hp hpending _
        · rintro ⟨-, -, happroved, -⟩
          simp [happroved, TERMINAL_STATUS_MAP] at hstatus
  · refine .inl ⟨?_, fun hrefused => hpending hrefused.1⟩
    rw [settlingWrites_of_closed hpending]
    have hclosed := fun status => run_settlePayment_closed (t := t) hp hpending status
    cases status <;>
      (simp only [settlingTx, approvePaymentTx, markPaymentTerminalTx]
       rw [Tx.run_bind_ok (hclosed _)]
       rfl)

variable {env : Proc.Surroundings Answer} {n : Nat}

/-- What `applyTransaction` leaves, whatever becomes of its step. -/
theorem exec_applyTransaction_db (hp : D.payments.lookup key = some p) :
    ((applyTransaction key p t).exec env n D).1 =
      if env.fate n = some .done ∨ env.fate n = some .lost then
        view (settlingWrites key p t D) D else D := by
  by_cases h : ¬ Matches p t ∨ TERMINAL_STATUS_MAP t.status = none
  · obtain ⟨heq, hnil, -⟩ := applyTransaction_idle (k := key) (D := D) h
    simp [heq, hnil]
  · obtain ⟨hmatch, hterminal⟩ := not_or.mp h
    obtain ⟨status, hstatus⟩ := Option.ne_none_iff_exists'.mp hterminal
    rw [applyTransaction_eq (not_not.mp hmatch) hstatus]
    rcases run_settlingTx hp (not_not.mp hmatch) hstatus with ⟨hrun, -⟩ | ⟨⟨e, hrun⟩, -, hnil⟩
    · cases hf : env.fate n with
      | none => simp [Proc.transaction, Proc.exec, hf]
      | some fate => cases fate <;> simp [Proc.transaction, Proc.exec, hf, Tx.outcome, hrun]
    · cases hf : env.fate n with
      | none => simp [Proc.transaction, Proc.exec, hf]
      | some fate => cases fate <;> simp [Proc.transaction, Proc.exec, hf, Tx.outcome, hrun, hnil]

/-- `applyTransaction` returns only when it has been made, and always then, unless its
approval is refused. -/
theorem exec_applyTransaction_ok (hp : D.payments.lookup key = some p) :
    (((applyTransaction key p t).exec env n D).2 = .ok () →
      ((applyTransaction key p t).exec env n D).1 = view (settlingWrites key p t D) D) ∧
    (env.fate n = some .done →
      (((applyTransaction key p t).exec env n D).2 = .ok () ↔ ¬ Refused D p t)) := by
  by_cases h : ¬ Matches p t ∨ TERMINAL_STATUS_MAP t.status = none
  · obtain ⟨heq, hnil, hnot⟩ := applyTransaction_idle (k := key) (D := D) h
    simp [heq, hnil, hnot]
  · obtain ⟨hmatch, hterminal⟩ := not_or.mp h
    obtain ⟨status, hstatus⟩ := Option.ne_none_iff_exists'.mp hterminal
    rw [applyTransaction_eq (not_not.mp hmatch) hstatus]
    rcases run_settlingTx hp (not_not.mp hmatch) hstatus with
      ⟨hrun, hnot⟩ | ⟨⟨e, hrun⟩, hrefused, hnil⟩
    · cases hf : env.fate n with
      | none => simp [Proc.transaction, Proc.exec, hf]
      | some fate => cases fate <;> simp [Proc.transaction, Proc.exec, hf, Tx.outcome, hrun, hnot]
    · cases hf : env.fate n with
      | none => simp [Proc.transaction, Proc.exec, hf]
      | some fate =>
          cases fate <;> simp [Proc.transaction, Proc.exec, hf, Tx.outcome, hrun, hrefused]

/-! ## Whole deliveries and confirmations -/

section Requests

variable {Body : Type} {P : PaymentProvider Body} {body : Body} {eventId : String}

/-- The rows with the delivery of an event recorded. -/
def recorded (name eventId : String) (t : TransactionResult) (D : Db) : Db :=
  { D with webhookEvents := D.webhookEvents.write (name, eventId) (some ⟨t.status⟩) }

theorem settlingWrites_recorded (name eventId : String) (t' : TransactionResult) :
    settlingWrites key p t (recorded name eventId t' D) = settlingWrites key p t D := rfl

/-- Settling looks at no event and writes none. -/
theorem view_settlingWrites_recorded (name eventId : String) (t' : TransactionResult) :
    view (settlingWrites key p t D) (recorded name eventId t' D) =
      recorded name eventId t' (view (settlingWrites key p t D) D) := by
  unfold settlingWrites
  split
  · split
    · rfl
    · split
      · rfl
      · rfl
    · unfold cancelWrites
      split
      · split <;> rfl
      · rfl
  · rfl

theorem settle_recorded (name eventId : String) (t' : TransactionResult) :
    settle name t (recorded name eventId t' D) = recorded name eventId t' (settle name t D) := by
  unfold settle
  have hsame : (recorded name eventId t' D).payments = D.payments := rfl
  rw [hsame]
  cases D.payments.lookup (name, t.reference) with
  | none => rfl
  | some p =>
      simp only [settlingWrites_recorded]
      exact view_settlingWrites_recorded name eventId t'

/-- A delivery that was recorded before is ignored. -/
theorem exec_handleWebhook_duplicate
    (hparse : P.verifyAndParseWebhook body = some ⟨eventId, t⟩)
    {row : WebhookEvent} (hevent : D.webhookEvents.lookup (P.name, eventId) = some row)
    (hfate : env.fate n = some .done) :
    (handleWebhook P body).exec env n D = (D, .ok ()) := by
  have hrun := Db.webhookEvent.run_create_exists (E := Err) (L := []) (v := ⟨t.status⟩) hevent
  unfold handleWebhook recordDelivery
  rw [hparse]
  simp [Proc.transaction, Proc.exec, hfate, Tx.outcome, hrun]
  rfl

section Fresh

variable (hparse : P.verifyAndParseWebhook body = some ⟨eventId, t⟩)
  (hfresh : D.webhookEvents.lookup (P.name, eventId) = none)
include hparse hfresh

/-- A delivery whose first two steps are made and answered goes on to the payment. -/
theorem exec_handleWebhook_fresh (h₀ : env.fate n = some .done)
    (h₁ : env.fate (n + 1) = some .done) :
    (handleWebhook P body).exec env n D =
      match D.payments.lookup (P.name, t.reference) with
      | none => (recorded P.name eventId t D, .ok ())
      | some p => (applyTransaction (P.name, t.reference) p t).exec env (n + 2)
          (recorded P.name eventId t D) := by
  have hrun := Db.webhookEvent.run_create (E := Err) (L := []) (v := ⟨t.status⟩) hfresh
  unfold handleWebhook recordDelivery
  rw [hparse]
  simp only [Proc.transaction, Proc.tx_bind, Proc.handle_tx, Proc.exec, h₀, Tx.outcome, hrun,
    Proc.ofExcept_ok, Proc.ret_bind, Proc.handle_ret, Proc.pure_eq, if_true, h₁]
  cases hp : D.payments.lookup (P.name, t.reference) with
  | none => simp [Delegate.findUnique, hp, recorded]
  | some p => simp [Delegate.findUnique, hp, recorded]

omit hfresh in
/-- A delivery whose first step is not made changes nothing. -/
theorem exec_handleWebhook_unmade (h₀ : env.fate n = none ∨ env.fate n = some .failed) :
    ∃ e, (handleWebhook P body).exec env n D = (D, .error e) := by
  unfold handleWebhook recordDelivery
  rw [hparse]
  refine ⟨.fault, ?_⟩
  rcases h₀ with h₀ | h₀
  · simp [Proc.transaction, Proc.exec, h₀, SqlError.fault]
  · simp [Proc.transaction, Proc.exec, h₀, SqlError.fault, Tx.outcome]

/-- A delivery that fails between the record of the event and the payment leaves
the record behind. -/
theorem exec_handleWebhook_recorded
    (h : env.fate n = some .lost ∨ env.fate n = some .done ∧ env.fate (n + 1) ≠ some .done) :
    ∃ e, (handleWebhook P body).exec env n D = (recorded P.name eventId t D, .error e) := by
  have hrun := Db.webhookEvent.run_create (E := Err) (L := []) (v := ⟨t.status⟩) hfresh
  unfold handleWebhook recordDelivery
  rw [hparse]
  refine ⟨.fault, ?_⟩
  rcases h with h₀ | ⟨h₀, h₁⟩
  · simp [Proc.transaction, Proc.exec, h₀, SqlError.fault, Tx.outcome, hrun, recorded]
  · cases hf : env.fate (n + 1) with
    | none => simp [Proc.transaction, Proc.exec, h₀, hf, SqlError.fault, Tx.outcome, hrun, recorded]
    | some fate =>
        cases fate with
        | done => exact absurd hf h₁
        | _ =>
            simp [Proc.transaction, Proc.exec, h₀, hf, SqlError.fault, Tx.outcome, hrun, recorded,
              Delegate.findUnique]

/-- A delivery that nothing disturbs records its event and settles the payment. -/
theorem exec_handleWebhook_healthy (henv : env.Healthy) :
    ((handleWebhook P body).exec env n D).1 = recorded P.name eventId t (settle P.name t D) ∧
      (((handleWebhook P body).exec env n D).2 = .ok () ↔
        ∀ p, D.payments.lookup (P.name, t.reference) = some p → ¬ Refused D p t) := by
  rw [exec_handleWebhook_fresh hparse hfresh (henv n) (henv (n + 1)), ← settle_recorded]
  cases hp : D.payments.lookup (P.name, t.reference) with
  | none => simp [settle, recorded, hp]
  | some p =>
      have hp' : (recorded P.name eventId t D).payments.lookup (P.name, t.reference) = some p := hp
      constructor
      · simp only [exec_applyTransaction_db hp', henv (n + 2), true_or, if_true, settle, hp']
      · rw [(exec_applyTransaction_ok hp').2 (henv (n + 2))]
        simp only [Option.some.injEq, forall_eq']
        exact Iff.rfl

end Fresh

/-- The `PENDING` payment of an order that `confirmFromReturn` takes. -/
def newestPending (name : String) (orderId : Id) (D : Db) :
    Option ((String × String) × Payment) :=
  newest (·.createdAt) (D.payments.findMany fun key p =>
    p.orderId = orderId && key.1 = name && p.status = .PENDING)

/-- A confirmation of an order that the user does not own changes nothing. -/
theorem exec_confirmFromReturn_foreign {userId orderId providerTransactionId : Id}
    (hfate : env.fate n = some .done)
    (hforeign : ¬ ∃ o, D.orders.lookup orderId = some o ∧ o.userId = userId) :
    ((confirmFromReturn P userId orderId providerTransactionId).exec env n D).1 = D := by
  have hnone : (D.orders.lookup orderId).filter (fun o => decide (o.userId = userId)) = none := by
    rw [Option.filter_eq_none_iff]
    intro o ho huser
    exact hforeign ⟨o, ho, of_decide_eq_true huser⟩
  unfold confirmFromReturn
  rw [findOwned, Proc.exec_select hfate]
  simp only [Delegate.find, Db.order_rows, hnone]
  rfl

/-- A confirmation that nothing disturbs settles the newest pending payment of the
order, if the transaction names it. -/
theorem exec_confirmFromReturn {userId orderId : Id} {o : Order} (henv : env.Healthy)
    (ho : D.orders.lookup orderId = some o) (huser : o.userId = userId)
    (hanswer : env.answer (n + 2) (.fetchTransaction t.providerTransactionId) = some t) :
    ((confirmFromReturn P userId orderId t.providerTransactionId).exec env n D).1 =
      if (newestPending P.name orderId D).map Prod.fst = some (P.name, t.reference) then
        settle P.name t D else D := by
  unfold confirmFromReturn
  have howned : (D.orders.lookup orderId).filter (fun o => decide (o.userId = userId)) = some o := by
    simp [ho, huser]
  rw [findOwned, Proc.exec_select (henv n)]
  simp only [Delegate.find, Db.order_rows, howned]
  rw [Delegate.findMany, Proc.exec_select (henv (n + 1))]
  cases hnewest : newestPending P.name orderId D with
  | none =>
      unfold newestPending at hnewest
      simp [hnewest]
  | some row =>
      obtain ⟨key, p⟩ := row
      have hmem := newest_mem hnewest
      obtain ⟨hp, hwhere⟩ := (Table.mem_findMany _ _ _ _).mp hmem
      simp only [Bool.and_eq_true, decide_eq_true_eq] at hwhere
      unfold newestPending at hnewest
      simp only [Db.payment_rows, hnewest]
      rw [Proc.exec_call (henv (n + 2)), hanswer]
      simp only [Option.map_some, Option.some.injEq]
      by_cases hreference : t.reference = key.2
      · have hkey : key = (P.name, t.reference) := Prod.ext hwhere.1.2 hreference.symm
        subst hkey
        simp only [ne_eq, not_true_eq_false, if_false, if_true]
        rw [exec_applyTransaction_db hp]
        simp [henv (n + 3), settle, hp]
      · have hkey : key ≠ (P.name, t.reference) := fun heq => hreference (by rw [heq])
        simp [hreference, hkey]

end Requests

end PaymentsService

end TaroTria
