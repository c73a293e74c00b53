import TaroTria.Backend.Calls
import TaroTria.Payments.Settling

/-!
# The two paths of a confirmation

An order may have several open payments. The webhook looks a payment up by the
reference of the transaction, the return of the user takes the newest open payment
of the order, and the ledger has one purchase for each order.
-/

namespace TaroTria

open Transactions

namespace PaymentsService

variable {name : String} {p : Payment} {t : TransactionResult} {D : Db}

/-- A transaction leaves its payment with its own status. -/
theorem settle_payment (hp : D.payments.lookup (name, t.reference) = some p)
    (hpending : p.status = .PENDING) (hmatch : Matches p t) {status : PaymentStatus}
    (hstatus : TERMINAL_STATUS_MAP t.status = some status) (hnot : ¬ Refused D p t) :
    (settle name t D).payments.lookup (name, t.reference) = some (settled p t status) := by
  simp only [settle, hp, settlingWrites, hpending, hmatch, and_self, if_true, hstatus]
  split
  · rename_i heq
    cases heq
  · rename_i heq
    cases heq
    have happroved : t.status = .APPROVED := by
      cases ht : t.status <;> simp [ht, TERMINAL_STATUS_MAP] at hstatus ⊢
    split
    · simp [approvalWrites, WalletService.purchaseWrites]
    · rename_i hc
      exact absurd ⟨hpending, hmatch, happroved, hc⟩ hnot
  · rename_i heq
    cases heq
    unfold cancelWrites
    split
    · split <;> simp
    · simp

/-- A transaction that is no terminal one of its payment, or whose approval is refused,
changes nothing. -/
theorem settle_idle (hp : D.payments.lookup (name, t.reference) = some p)
    (h : ¬ Matches p t ∨ TERMINAL_STATUS_MAP t.status = none ∨ Refused D p t) :
    settle name t D = D := by
  rcases h with h | h | ⟨-, -, happroved, hc⟩
  · simp [settle, hp, settlingWrites_of_mismatch h]
  · simp [settle, hp, settlingWrites, h]
  · simp [settle, hp, settlingWrites, happroved, TERMINAL_STATUS_MAP, hc]

theorem terminal_ne_pending {status : PaymentStatus}
    (h : TERMINAL_STATUS_MAP t.status = some status) : status ≠ .PENDING := by
  rintro rfl
  cases ht : t.status <;> simp [ht, TERMINAL_STATUS_MAP] at h

theorem settle_webhookEvents : (settle name t D).webhookEvents = D.webhookEvents := by
  unfold settle settlingWrites cancelWrites
  repeat' split
  all_goals rfl

end PaymentsService

section Paths

open PaymentsService

variable {Body : Type} (P : PaymentProvider Body) {body : Body} {eventId : String}
  {p : Payment} {t : TransactionResult} {D : Db} {env env' : Proc.Surroundings Answer}

/-- The two paths change the rows alike if and only if the transaction is the one of
the newest open payment of the order, or changes nothing on either path. -/
theorem confirmation_paths_agree_iff {userId orderId : Id} {o : Order} (n m : Nat)
    (hparse : P.verifyAndParseWebhook body = some ⟨eventId, t⟩)
    (hfresh : D.webhookEvents.lookup (P.name, eventId) = none)
    (ho : D.orders.lookup orderId = some o) (huser : o.userId = userId)
    (hp : D.payments.lookup (P.name, t.reference) = some p) (hpending : p.status = .PENDING)
    (hanswer : ∀ k, env.answer k (.fetchTransaction t.providerTransactionId) = some t)
    (henv : env.Healthy) (henv' : env'.Healthy) :
    ((confirmFromReturn P userId orderId t.providerTransactionId).exec env n D).1 =
        { ((handleWebhook P body).exec env' m D).1 with webhookEvents := D.webhookEvents } ↔
      (newestPending P.name orderId D).map Prod.fst = some (P.name, t.reference) ∨
        ¬ Matches p t ∨ TERMINAL_STATUS_MAP t.status = none ∨ Refused D p t := by
  have hwebhook : { ((handleWebhook P body).exec env' m D).1 with
      webhookEvents := D.webhookEvents } = settle P.name t D := by
    rw [(exec_handleWebhook_healthy hparse hfresh henv').1, ← @settle_webhookEvents P.name]
    rfl
  rw [hwebhook, exec_confirmFromReturn henv ho huser (hanswer _)]
  by_cases hnewest : (newestPending P.name orderId D).map Prod.fst = some (P.name, t.reference)
  · simp [hnewest]
  · simp only [hnewest, if_false, false_or]
    constructor
    · intro hsame
      by_contra hdue
      obtain ⟨hmatch, hdue⟩ := not_or.mp hdue
      obtain ⟨hterminal, hnot⟩ := not_or.mp hdue
      obtain ⟨status, hstatus⟩ := Option.ne_none_iff_exists'.mp hterminal
      have hsettled := settle_payment hp hpending (not_not.mp hmatch) hstatus hnot
      rw [← hsame, hp, Option.some.injEq] at hsettled
      rw [hsettled] at hpending
      exact terminal_ne_pending hstatus hpending
    · intro hidle
      exact (settle_idle hp hidle).symm

/-- A fresh approval of an open payment returns and is recorded if and only if the
order of the payment has not been credited before and the new balance fits. -/
theorem approval_settles_iff {o : Order} {w : Wallet} (n : Nat)
    (hparse : P.verifyAndParseWebhook body = some ⟨eventId, t⟩)
    (hfresh : D.webhookEvents.lookup (P.name, eventId) = none) (happroved : t.status = .APPROVED)
    (hp : D.payments.lookup (P.name, t.reference) = some p) (hpending : p.status = .PENDING)
    (hamount : p.amountCents = t.amountInCents) (hcurrency : p.currency = t.currency)
    (ho : D.orders.lookup p.orderId = some o) (hw : D.wallets.lookup o.userId = some w)
    (henv : env.Healthy) :
    (((handleWebhook P body).exec env n D).2 = .ok () ∧
      ∃ p', ((handleWebhook P body).exec env n D).1.payments.lookup (P.name, t.reference) =
        some p' ∧ p'.status = .APPROVED) ↔
      D.walletTransactions.lookup (.purchase p.orderId) = none ∧
        Wallet.fits ⟨w.balance + o.credits⟩ = true := by
  have hmatch : Matches p t := ⟨hamount, hcurrency⟩
  have hstatus : TERMINAL_STATUS_MAP t.status = some .APPROVED := by
    rw [happroved]
    rfl
  obtain ⟨hdb, hok⟩ := exec_handleWebhook_healthy (n := n) hparse hfresh henv
  have hrefused : ¬ Refused D p t ↔ D.walletTransactions.lookup (.purchase p.orderId) = none ∧
      Wallet.fits ⟨w.balance + o.credits⟩ = true := by
    simp [Refused, hpending, hmatch, happroved, creditable, ho, hw]
  constructor
  · rintro ⟨hreturned, -⟩
    exact hrefused.mp (hok.mp hreturned p hp)
  · intro hcreditable
    have hnot : ¬ Refused D p t := hrefused.mpr hcreditable
    refine ⟨hok.mpr fun p' hp' => Option.some.inj (hp.symm.trans hp') ▸ hnot, ?_⟩
    rw [hdb]
    exact ⟨_, settle_payment hp hpending hmatch hstatus hnot, rfl⟩

end Paths

/-! ## An order with two open checkouts -/

/-- Surroundings for concrete runs: every step is made, a new row gets this id, and the
provider answers with this transaction. -/
def undisturbed (id : Id) (now : Time) (t : Option TransactionResult) :
    Proc.Surroundings Answer where
  fate _ := some .done
  answer _ := fun
    | .randomUUID => id
    | .now => now
    | .fetchTransaction _ => t
    | q => sampleAnswer .COMPLETED q

theorem undisturbed_healthy (id : Id) (now : Time) (t : Option TransactionResult) :
    (undisturbed id now t).Healthy := fun _ => rfl

/-- The rows after a request that runs alone. -/
abbrev after {α : Type} (env : Proc.Surroundings Answer) (request : Request α) (D : Db) : Db :=
  (request.exec env 0 D).1

/-- The user orders a package and opens two checkouts for the order. -/
def twoCheckouts : Db :=
  let P := sampleDeployment.provider
  after (undisturbed "u2" 2 none) (PaymentsService.createCheckoutIntent P "" "ana" "o1") <|
    after (undisturbed "u1" 1 none) (PaymentsService.createCheckoutIntent P "" "ana" "o1") <|
      after (undisturbed "o1" 0 none) (OrdersService.create "ana" "ten") sampleShop

/-- The approved payment of a checkout. -/
def approvalOf (uuid : Id) : ParsedWebhook where
  eventId := uuid ++ "-APPROVED-1"
  transaction :=
    { reference := "order-o1-" ++ uuid, providerTransactionId := uuid, status := .APPROVED,
      amountInCents := 5000, currency := "COP" }

section Samples

open PaymentsService

/-- The newest checkout is confirmed alike on both paths. -/
theorem confirmation_paths_agree_of_newest :
    ((confirmFromReturn sampleDeployment.provider "ana" "o1" "u2").exec
        (undisturbed "e" 3 (some (approvalOf "u2").transaction)) 0 twoCheckouts).1 =
      { ((handleWebhook sampleDeployment.provider (approvalOf "u2")).exec
          (undisturbed "e" 3 none) 0 twoCheckouts).1 with
        webhookEvents := twoCheckouts.webhookEvents } :=
  (confirmation_paths_agree_iff sampleDeployment.provider
    (p := ⟨"o1", none, .PENDING, 5000, "COP", 2⟩) (t := (approvalOf "u2").transaction)
    (o := ⟨"ana", "ten", 10, 5000, none, "COP", .PENDING⟩) 0 0
    rfl (by decide +kernel) (by decide +kernel) rfl (by decide +kernel) rfl (fun _ => rfl)
    (undisturbed_healthy _ _ _) (undisturbed_healthy _ _ _)).mpr (.inl (by decide +kernel))

/-- The approval of the older checkout is applied by the webhook, and the return of the
user, for the same transaction, leaves it open. -/
theorem older_checkout_unconfirmed :
    (twoCheckouts.orders.lookup "o1").map (·.userId) = some "ana" ∧
    (twoCheckouts.payments.lookup ("wompi", "order-o1-u1")).map
      (fun p => (p.orderId, p.status)) = some ("o1", .PENDING) ∧
    ((confirmFromReturn sampleDeployment.provider "ana" "o1" "u1").exec
        (undisturbed "e" 3 (some (approvalOf "u1").transaction)) 0
        twoCheckouts).1.payments.lookup ("wompi", "order-o1-u1") =
      twoCheckouts.payments.lookup ("wompi", "order-o1-u1") ∧
    (((handleWebhook sampleDeployment.provider (approvalOf "u1")).exec
        (undisturbed "e" 3 none) 0 twoCheckouts).1.payments.lookup
        ("wompi", "order-o1-u1")).map (·.status) = some .APPROVED :=
  ⟨rfl, rfl, rfl, rfl⟩

/-- The first approval of an order is recorded. -/
theorem approval_settles_of_first :
    ((handleWebhook sampleDeployment.provider (approvalOf "u1")).exec
        (undisturbed "e" 3 none) 0 twoCheckouts).2 = .ok () ∧
      ∃ p, ((handleWebhook sampleDeployment.provider (approvalOf "u1")).exec
        (undisturbed "e" 3 none) 0 twoCheckouts).1.payments.lookup ("wompi", "order-o1-u1") =
          some p ∧ p.status = .APPROVED :=
  (approval_settles_iff sampleDeployment.provider (t := (approvalOf "u1").transaction)
    (o := ⟨"ana", "ten", 10, 5000, none, "COP", .PENDING⟩) (w := ⟨0⟩) 0 rfl rfl rfl rfl rfl rfl rfl
    rfl rfl (undisturbed_healthy _ _ _)).mpr ⟨rfl, rfl⟩

/-- Both checkouts are paid. The second approval fails, and its payment stays open. -/
theorem second_approval_unrecorded :
    let D := after (undisturbed "e" 3 none)
      (handleWebhook sampleDeployment.provider (approvalOf "u1")) twoCheckouts
    (D.payments.lookup ("wompi", "order-o1-u2")).map
      (fun p => (p.status, p.amountCents, p.currency)) = some (.PENDING, 5000, "COP") ∧
    (D.wallets.lookup "ana").isSome = true ∧
    D.webhookEvents.lookup ("wompi", "u2-APPROVED-1") = none ∧
    ((handleWebhook sampleDeployment.provider (approvalOf "u2")).exec
      (undisturbed "e" 4 none) 0 D).2 = .error .uniqueConstraintViolation ∧
    (((handleWebhook sampleDeployment.provider (approvalOf "u2")).exec
      (undisturbed "e" 4 none) 0 D).1.payments.lookup ("wompi", "order-o1-u2")).map
        (·.status) = some .PENDING :=
  ⟨rfl, rfl, rfl, rfl, rfl⟩

end Samples

end TaroTria
