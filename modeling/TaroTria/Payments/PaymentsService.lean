import TaroTria.Payments.OrdersService
import TaroTria.Wallet.WalletService

/-!
# The payments service

## Implementation notes

The payment provider is the interface `PaymentProvider`: its check of a webhook
body is a function of the body, and its answer to `fetchTransaction` comes from
outside. A body type is left open, since the service only hands it over.
-/

namespace TaroTria

open Transactions

structure CheckoutIntent where
  reference : String
  publicKey : String
  amountInCents : Int
  currency : String
  integritySignature : String
  redirectUrl : String
  deriving DecidableEq, Repr

/-- A parsed webhook. -/
structure ParsedWebhook where
  eventId : String
  transaction : TransactionResult
  deriving DecidableEq, Repr

/-- The provider as the service sees it. `vouches id t` says that the provider
may answer `t` when asked for the transaction `id`. -/
structure PaymentProvider (Body : Type) where
  name : String
  buildCheckoutIntent : (reference : String) → (amountInCents : Int) → (currency : String) →
    (redirectUrl : String) → CheckoutIntent
  verifyAndParseWebhook : Body → Option ParsedWebhook
  vouches : String → TransactionResult → Prop

namespace PaymentsService

variable {Body : Type} (P : PaymentProvider Body)

def TERMINAL_STATUS_MAP : TransactionStatus → Option PaymentStatus
  | .PENDING => none
  | .APPROVED => some .APPROVED
  | .DECLINED => some .DECLINED
  | .ERROR => some .FAILED
  | .VOIDED => some .DECLINED

/-- `order.findFirst({ where: { id, userId } })`. -/
def findOwned (userId orderId : Id) : TxM (Option Order) :=
  Tx.select fun D => (Db.order.find D orderId).filter fun o => o.userId = userId

def orderNotFound : Err := .notFound "Orden no encontrada."

def createCheckoutIntent (appUrl : String) (userId orderId : Id) : Request CheckoutIntent := do
  let some order ← Proc.transaction (findOwned userId orderId)
    | throw orderNotFound
  if order.status ≠ .PENDING then
    throw (Err.badRequest "Esta orden ya no está pendiente de pago.")
  let uuid ← Proc.call .randomUUID
  let reference := "order-" ++ orderId ++ "-" ++ uuid
  let intent := P.buildCheckoutIntent reference order.priceCents order.currency
    (appUrl ++ "/wallet/checkout/" ++ orderId)
  let now ← Proc.call .now
  let _ ← Proc.transaction <| Db.payment.create (P.name, reference)
    { orderId, providerTransactionId := none, status := .PENDING,
      amountCents := order.priceCents, currency := order.currency, createdAt := now }
  return intent

/-- The guard of both closings: the payment leaves PENDING once. -/
def settlePayment (key : String × String) (transaction : TransactionResult)
    (status : PaymentStatus) : TxM Nat :=
  Db.payment.updateMany key (fun p => p.status = .PENDING)
    (fun p => { p with status := status,
                       providerTransactionId := transaction.providerTransactionId })

def approvePaymentTx (key : String × String) (payment : Payment)
    (transaction : TransactionResult) (status : PaymentStatus) : TxM Unit := do
  let updated ← settlePayment key transaction status
  if updated = 0 then
    return ()
  let order ← Db.order.findUniqueOrThrow payment.orderId
  let _ ← Db.order.update payment.orderId (fun o => { o with status := .PAID })
  WalletService.creditPurchase order.userId payment.orderId order.credits

def markPaymentTerminalTx (key : String × String) (payment : Payment)
    (transaction : TransactionResult) (status : PaymentStatus) : TxM Unit := do
  let updated ← settlePayment key transaction status
  if updated = 0 then
    return ()
  let _ ← Db.order.updateMany payment.orderId (fun o => o.status = .PENDING)
    (fun o => { o with status := .CANCELLED })

/-- The end that `confirmFromReturn` and `handleWebhook` have in common: amount and currency
are compared, and the payment is approved or closed by the status of the transaction. -/
def applyTransaction (key : String × String) (payment : Payment)
    (transaction : TransactionResult) : Request Unit := do
  if payment.amountCents ≠ transaction.amountInCents ∨
      payment.currency ≠ transaction.currency then
    return ()
  match TERMINAL_STATUS_MAP transaction.status with
  | none => return ()
  | some .APPROVED => Proc.transaction (approvePaymentTx key payment transaction .APPROVED)
  | some status => Proc.transaction (markPaymentTerminalTx key payment transaction status)

def confirmFromReturn (userId orderId : Id) (providerTransactionId : String) :
    Request Unit := do
  let some _ ← Proc.transaction (findOwned userId orderId)
    | throw orderNotFound
  let pending ← Proc.transaction <| Db.payment.findMany fun key p =>
    p.orderId = orderId && key.1 = P.name && p.status = .PENDING
  let some (key, payment) := newest (·.createdAt) pending
    | return ()
  let some transaction ← Proc.call (Query.fetchTransaction providerTransactionId)
    | return ()
  if transaction.reference ≠ key.2 then
    return ()
  applyTransaction key payment transaction

/-- Record the delivery; a delivery recorded before is reported as `false`. -/
def recordDelivery (eventId : String) (eventType : TransactionStatus) : Request Bool :=
  (do let _ ← Proc.transaction <| Db.webhookEvent.create (P.name, eventId) ⟨eventType⟩
      return true).handle fun
    | .uniqueConstraintViolation => pure false
    | e => throw e

def handleWebhook (rawBody : Body) : Request Unit := do
  let some ⟨eventId, transaction⟩ := P.verifyAndParseWebhook rawBody
    | throw (Err.unauthorized "Firma de webhook inválida.")
  if ← recordDelivery P eventId transaction.status then
    let key := (P.name, transaction.reference)
    let some payment ← Proc.transaction (Db.payment.findUnique key)
      | return ()
    applyTransaction key payment transaction

section Rules

variable {Call : Type} {G : Discipline Db RowWrite RowRef Call} {D : Db} {L : List RowWrite}

/-- The row of a payment closed by a transaction. -/
def settled (p : Payment) (transaction : TransactionResult) (status : PaymentStatus) : Payment :=
  { p with status := status, providerTransactionId := transaction.providerTransactionId }

theorem wp_approvePaymentTx {key : String × String} {payment : Payment}
    {transaction : TransactionResult} {status : PaymentStatus} {P : Unit → List RowWrite → Prop}
    (h₀ : P () [])
    (h₁ : ∀ (p : Payment) D₀ (seen o : Order) (w : Wallet), G.Earlier [] D₀ D →
      D₀.orders.lookup payment.orderId = some seen → D.payments.lookup key = some p →
      p.status = .PENDING → D.orders.lookup payment.orderId = some o →
      D.wallets.lookup seen.userId = some w →
      D.walletTransactions.lookup (.purchase payment.orderId) = none →
      Wallet.fits ⟨w.balance + seen.credits⟩ = true →
      P () ([.payment key (some (settled p transaction status)),
          .order payment.orderId (some { o with status := .PAID })] ++
        WalletService.purchaseWrites seen.userId payment.orderId seen.credits w)) :
    (approvePaymentTx key payment transaction status).wp G D P [] := by
  unfold approvePaymentTx settlePayment
  apply Tx.wp_bind
  apply Db.payment.wp_updateMany
  · intro _ _ _
    exact h₀
  · intro p hp hpending
    apply Tx.wp_bind
    apply Db.order.wp_findUniqueOrThrow
    intro D₀ seen hD₀ hseen
    apply Tx.wp_bind
    apply Db.order.wp_update
    intro o ho
    apply WalletService.wp_creditPurchase
    intro w hw hk hfits
    have := h₁ p D₀ seen o w ⟨hD₀.inv, hD₀.mono, by simp [AgreeOn]⟩ (by simpa using hseen)
      (by simpa using hp) (by simpa using hpending) (by simpa using ho) (by simpa using hw)
      (by simpa using hk) hfits
    simpa [settled] using this

theorem wp_markPaymentTerminalTx {key : String × String} {payment : Payment}
    {transaction : TransactionResult} {status : PaymentStatus} {P : Unit → List RowWrite → Prop}
    (h₀ : P () [])
    (h₁ : ∀ (p : Payment) D₀, D.payments.lookup key = some p → p.status = .PENDING →
      G.Earlier [.payment key (some (settled p transaction status))] D₀ D →
      (∀ o, D₀.orders.lookup payment.orderId = some o → o.status ≠ .PENDING) →
      P () [.payment key (some (settled p transaction status))])
    (h₂ : ∀ (p : Payment) (o : Order), D.payments.lookup key = some p → p.status = .PENDING →
      D.orders.lookup payment.orderId = some o → o.status = .PENDING →
      P () [.payment key (some (settled p transaction status)),
        .order payment.orderId (some { o with status := .CANCELLED })]) :
    (markPaymentTerminalTx key payment transaction status).wp G D P [] := by
  unfold markPaymentTerminalTx settlePayment
  apply Tx.wp_bind
  apply Db.payment.wp_updateMany
  · intro _ _ _
    exact h₀
  · intro p hp hpending
    apply Tx.wp_bind
    apply Db.order.wp_updateMany
    · intro D₀ hD₀ hnot
      refine h₁ p D₀ (by simpa using hp) (by simpa using hpending) hD₀ fun o ho => ?_
      simpa using hnot o (by simpa using ho)
    · intro o ho hopen
      exact h₂ p o (by simpa using hp) (by simpa using hpending) (by simpa using ho)
        (by simpa using hopen)

end Rules

end PaymentsService

end TaroTria
