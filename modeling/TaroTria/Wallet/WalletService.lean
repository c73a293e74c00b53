import TaroTria.Prisma.Client

/-!
# The wallet service

The six operations of `wallet.service.ts` that move a balance or a reservation.
`reserveCreditsForReading` and `creditPurchase` run inside the transaction of
their caller, the others open their own.
-/

namespace TaroTria

open Transactions

namespace WalletService

/-- `bonusAmount` is the configured `WALLET_INITIAL_BONUS_CREDITS`. -/
def createWalletWithBonus (userId : Id) (bonusAmount : Nat) : TxM Unit := do
  let _ ← Db.wallet.create userId ⟨bonusAmount⟩
  if 0 < bonusAmount then
    let _ ← Db.walletTransaction.create (.bonus userId)
      { walletId := userId, type := .BONUS, amount := bonusAmount, balanceAfter := bonusAmount,
        readingId := none, orderId := none }
    pure ()

def insufficientBalance : Err := .badRequest "Saldo insuficiente para enviar esta lectura."

/-- Two submissions of one reading collide on the unique reservation. -/
def toAlreadySubmitted : Err → Err
  | .uniqueConstraintViolation => .readingAlreadySubmitted
  | e => e

def reserveCreditsForReading (userId readingId : Id) (amount : Nat) : TxM Unit := do
  let _ ← Db.wallet.findUniqueOrThrow userId
  let debited ← Db.wallet.updateMany userId (fun w => amount ≤ w.balance)
    (fun w => ⟨w.balance - amount⟩)
  if debited = 0 then
    Tx.throw insufficientBalance
  let updatedWallet ← Db.wallet.findUniqueOrThrow userId
  let _ ← (Db.creditReservation.create readingId
    { walletId := userId, amount := amount, status := .ACTIVE }).rethrow toAlreadySubmitted
  let _ ← Db.walletTransaction.create (.reservation readingId)
    { walletId := userId, type := .RESERVATION, amount := -amount,
      balanceAfter := updatedWallet.balance, readingId := readingId, orderId := none }

def confirmConsumption (readingId : Id) : TxM Unit := do
  let updated ← Db.creditReservation.updateMany readingId (fun r => r.status = .ACTIVE)
    (fun r => { r with status := .CONSUMED })
  if updated = 0 then
    return ()
  let reservation ← Db.creditReservation.findUniqueOrThrow readingId
  let wallet ← Db.wallet.findUniqueOrThrow reservation.walletId
  let _ ← Db.walletTransaction.create (.consumption readingId)
    { walletId := reservation.walletId, type := .CONSUMPTION, amount := 0,
      balanceAfter := wallet.balance, readingId := readingId, orderId := none }

def releaseReservation (readingId : Id) : TxM Unit := do
  let updated ← Db.creditReservation.updateMany readingId (fun r => r.status = .ACTIVE)
    (fun r => { r with status := .RELEASED })
  if updated = 0 then
    return ()
  let reservation ← Db.creditReservation.findUniqueOrThrow readingId
  let updatedWallet ← Db.wallet.updateWithin Wallet.fits reservation.walletId
    (fun w => ⟨w.balance + reservation.amount⟩)
  let _ ← Db.walletTransaction.create (.release readingId)
    { walletId := reservation.walletId, type := .RELEASE, amount := reservation.amount,
      balanceAfter := updatedWallet.balance, readingId := readingId, orderId := none }

def creditPurchase (userId orderId : Id) (credits : Nat) : TxM Unit := do
  let _ ← Db.wallet.findUniqueOrThrow userId
  let updatedWallet ← Db.wallet.updateWithin Wallet.fits userId
    (fun w => ⟨w.balance + credits⟩)
  let _ ← Db.walletTransaction.create (.purchase orderId)
    { walletId := userId, type := .PURCHASE, amount := credits,
      balanceAfter := updatedWallet.balance, readingId := none, orderId := orderId }

/-- The body of the transaction of `adjustBalance`. `uuid` ends its idempotency
key and `auditId` is the id of its audit row. -/
def adjustBalanceTx (userId : Id) (amount : Int) (reason : String) (actorUserId uuid auditId : Id) :
    TxM Wallet := do
  let some _ ← Db.wallet.findUnique userId
    | Tx.throw (.notFound "No se encontró el wallet del usuario.")
  let updatedWallet ←
    if amount < 0 then do
      let result ← Db.wallet.updateMany userId (fun w => -amount ≤ w.balance)
        (fun w => ⟨w.balance - -amount⟩)
      if result = 0 then
        Tx.throw (.badRequest "El ajuste dejaría el saldo en negativo.")
      Db.wallet.findUniqueOrThrow userId
    else
      Db.wallet.updateWithin Wallet.fits userId (fun w => ⟨w.balance + amount⟩)
  let _ ← Db.walletTransaction.create (.adjustment uuid)
    { walletId := userId, type := .ADJUSTMENT, amount := amount,
      balanceAfter := updatedWallet.balance, readingId := none, orderId := none }
  let _ ← Db.auditLog.create auditId
    { actorUserId := actorUserId, action := "wallet.adjustment", targetType := "User",
      targetId := userId, reason := reason, amount := amount,
      balanceAfter := updatedWallet.balance }
  return updatedWallet

def adjustBalance (userId : Id) (amount : Int) (reason : String) (actorUserId : Id) :
    Request Wallet := do
  if amount = 0 then
    throw (Err.badRequest "El ajuste no puede ser cero.")
  let uuid ← Proc.call .randomUUID
  let auditId ← Proc.call .randomUUID
  Proc.transaction (adjustBalanceTx userId amount reason actorUserId uuid auditId)

/-- The rows of a new wallet and of its bonus. -/
def bonusWrites (userId : Id) (bonusAmount : Nat) : List RowWrite :=
  .wallet userId (some ⟨bonusAmount⟩) ::
    if 0 < bonusAmount then
      [.walletTransaction (.bonus userId) (some
        { walletId := userId, type := .BONUS, amount := bonusAmount, balanceAfter := bonusAmount,
          readingId := none, orderId := none })]
    else []

/-- The rows of a reservation made from the wallet `w`. -/
def reservationWrites (userId readingId : Id) (amount : Nat) (w : Wallet) : List RowWrite :=
  [.wallet userId (some ⟨w.balance - amount⟩),
   .creditReservation readingId (some { walletId := userId, amount := amount, status := .ACTIVE }),
   .walletTransaction (.reservation readingId) (some
     { walletId := userId, type := .RESERVATION, amount := -amount,
       balanceAfter := w.balance - amount, readingId := readingId, orderId := none })]

/-- The rows of a confirmed consumption. -/
def consumptionWrites (readingId : Id) (res : CreditReservation) (balanceAfter : Int) :
    List RowWrite :=
  [.creditReservation readingId (some { res with status := .CONSUMED }),
   .walletTransaction (.consumption readingId) (some
     { walletId := res.walletId, type := .CONSUMPTION, amount := 0, balanceAfter := balanceAfter,
       readingId := readingId, orderId := none })]

/-- The rows of a release into the wallet `w`. -/
def releaseWrites (readingId : Id) (res : CreditReservation) (w : Wallet) : List RowWrite :=
  [.creditReservation readingId (some { res with status := .RELEASED }),
   .wallet res.walletId (some ⟨w.balance + res.amount⟩),
   .walletTransaction (.release readingId) (some
     { walletId := res.walletId, type := .RELEASE, amount := res.amount,
       balanceAfter := w.balance + res.amount, readingId := readingId, orderId := none })]

/-- The rows of a purchase credited to the wallet `w`. -/
def purchaseWrites (userId orderId : Id) (credits : Nat) (w : Wallet) : List RowWrite :=
  [.wallet userId (some ⟨w.balance + credits⟩),
   .walletTransaction (.purchase orderId) (some
     { walletId := userId, type := .PURCHASE, amount := credits,
       balanceAfter := w.balance + credits, readingId := none, orderId := orderId })]

/-- The rows of an adjustment of the wallet `w`. -/
def adjustmentWrites (userId : Id) (amount : Int) (reason : String) (actorUserId uuid auditId : Id)
    (w : Wallet) : List RowWrite :=
  [.wallet userId (some ⟨w.balance + amount⟩),
   .walletTransaction (.adjustment uuid) (some
     { walletId := userId, type := .ADJUSTMENT, amount := amount,
       balanceAfter := w.balance + amount, readingId := none, orderId := none }),
   .auditLog auditId (some
     { actorUserId := actorUserId, action := "wallet.adjustment", targetType := "User",
       targetId := userId, reason := reason, amount := amount,
       balanceAfter := w.balance + amount })]

section Rules

variable {Call : Type} {G : Discipline Db RowWrite RowRef Call} {D : Db} {L : List RowWrite}

theorem wp_createWalletWithBonus {userId : Id} {bonusAmount : Nat}
    {P : Unit → List RowWrite → Prop}
    (h : (view L D).wallets.lookup userId = none →
      (0 < bonusAmount → (view L D).walletTransactions.lookup (.bonus userId) = none) →
      P () (L ++ bonusWrites userId bonusAmount)) :
    (createWalletWithBonus userId bonusAmount).wp G D P L := by
  unfold createWalletWithBonus
  apply Tx.wp_bind
  apply Db.wallet.wp_create
  intro hw
  by_cases hb : 0 < bonusAmount
  · simp only [hb, if_true]
    apply Tx.wp_bind
    apply Db.walletTransaction.wp_create
    intro ht
    have := h (by simpa using hw) (fun _ => by simpa [view_append] using ht)
    simpa [bonusWrites, hb] using this
  · simpa [bonusWrites, hb] using h (by simpa using hw) (fun hb' => absurd hb' hb)

theorem wp_reserveCreditsForReading {userId readingId : Id} {amount : Nat}
    {P : Unit → List RowWrite → Prop}
    (h : ∀ w : Wallet, (view L D).wallets.lookup userId = some w → amount ≤ w.balance →
      (view L D).creditReservations.lookup readingId = none →
      (view L D).walletTransactions.lookup (.reservation readingId) = none →
      P () (L ++ reservationWrites userId readingId amount w)) :
    (reserveCreditsForReading userId readingId amount).wp G D P L := by
  unfold reserveCreditsForReading
  apply Tx.wp_bind
  apply Db.wallet.wp_findUniqueOrThrow
  intro _ _ _ _
  apply Tx.wp_bind
  apply Db.wallet.wp_updateMany
  · intro _ _ _
    trivial
  · intro w hw hfunds
    apply Tx.wp_bind
    apply Db.wallet.wp_findUniqueOrThrow_own (List.mem_append_right L List.mem_cons_self)
    intro w' hw'
    simp [view_append] at hw'
    subst hw'
    apply Tx.wp_bind
    apply Tx.wp_rethrow
    apply Db.creditReservation.wp_create
    intro hr
    apply Tx.wp_bind
    apply Db.walletTransaction.wp_create
    intro ht
    have := h w (by simpa using hw) (by simpa using hfunds) (by simpa [view_append] using hr)
      (by simpa [view_append] using ht)
    simpa [reservationWrites] using this

theorem wp_confirmConsumption {readingId : Id} {P : Unit → List RowWrite → Prop}
    (h₀ : P () L)
    (h₁ : ∀ (res : CreditReservation) D₀ (seen : Wallet), G.Earlier L D₀ D →
      (view L D₀).wallets.lookup res.walletId = some seen →
      (view L D).creditReservations.lookup readingId = some res → res.status = .ACTIVE →
      (view L D).walletTransactions.lookup (.consumption readingId) = none →
      P () (L ++ consumptionWrites readingId res seen.balance)) :
    (confirmConsumption readingId).wp G D P L := by
  unfold confirmConsumption
  apply Tx.wp_bind
  apply Db.creditReservation.wp_updateMany
  · intro _ _ _
    exact h₀
  · intro res hres hactive
    apply Tx.wp_bind
    apply Db.creditReservation.wp_findUniqueOrThrow_own
      (List.mem_append_right L List.mem_cons_self)
    intro res' hres'
    simp [view_append] at hres'
    subst hres'
    apply Tx.wp_bind
    apply Db.wallet.wp_findUniqueOrThrow
    intro D₀ seen hD₀ hseen
    apply Tx.wp_bind
    apply Db.walletTransaction.wp_create
    intro ht
    have := h₁ res D₀ seen hD₀.left (by simpa [view_append] using hseen) (by simpa using hres)
      (by simpa using hactive) (by simpa [view_append] using ht)
    simpa [consumptionWrites] using this

theorem wp_releaseReservation {readingId : Id} {P : Unit → List RowWrite → Prop}
    (h₀ : P () L)
    (h₁ : ∀ (res : CreditReservation) (w : Wallet),
      (view L D).creditReservations.lookup readingId = some res → res.status = .ACTIVE →
      (view L D).wallets.lookup res.walletId = some w →
      (view L D).walletTransactions.lookup (.release readingId) = none →
      Wallet.fits ⟨w.balance + res.amount⟩ = true → P () (L ++ releaseWrites readingId res w)) :
    (releaseReservation readingId).wp G D P L := by
  unfold releaseReservation
  apply Tx.wp_bind
  apply Db.creditReservation.wp_updateMany
  · intro _ _ _
    exact h₀
  · intro res hres hactive
    apply Tx.wp_bind
    apply Db.creditReservation.wp_findUniqueOrThrow_own
      (List.mem_append_right L List.mem_cons_self)
    intro res' hres'
    simp [view_append] at hres'
    subst hres'
    apply Tx.wp_bind
    apply Db.wallet.wp_updateWithin
    intro w hw hfits
    apply Tx.wp_bind
    apply Db.walletTransaction.wp_create
    intro ht
    have := h₁ res w (by simpa using hres) (by simpa using hactive)
      (by simpa [view_append] using hw) (by simpa [view_append] using ht) hfits
    simpa [releaseWrites] using this

theorem wp_creditPurchase {userId orderId : Id} {credits : Nat} {P : Unit → List RowWrite → Prop}
    (h : ∀ w : Wallet, (view L D).wallets.lookup userId = some w →
      (view L D).walletTransactions.lookup (.purchase orderId) = none →
      Wallet.fits ⟨w.balance + credits⟩ = true →
      P () (L ++ purchaseWrites userId orderId credits w)) :
    (creditPurchase userId orderId credits).wp G D P L := by
  unfold creditPurchase
  apply Tx.wp_bind
  apply Db.wallet.wp_findUniqueOrThrow
  intro _ _ _ _
  apply Tx.wp_bind
  apply Db.wallet.wp_updateWithin
  intro w hw hfits
  apply Tx.wp_bind
  apply Db.walletTransaction.wp_create
  intro ht
  have := h w (by simpa using hw) (by simpa [view_append] using ht) hfits
  simpa [purchaseWrites] using this

theorem wp_adjustBalanceTx {userId : Id} {amount : Int} {reason : String}
    {actorUserId uuid auditId : Id} {P : Wallet → List RowWrite → Prop}
    (h : ∀ w : Wallet, (view L D).wallets.lookup userId = some w →
      (amount < 0 → -amount ≤ w.balance) →
      (view L D).walletTransactions.lookup (.adjustment uuid) = none →
      (0 ≤ amount → Wallet.fits ⟨w.balance + amount⟩ = true) →
      P ⟨w.balance + amount⟩
        (L ++ adjustmentWrites userId amount reason actorUserId uuid auditId w)) :
    (adjustBalanceTx userId amount reason actorUserId uuid auditId).wp G D P L := by
  -- Both branches end with the same two insertions.
  have record : ∀ w : Wallet, (view L D).wallets.lookup userId = some w →
      (amount < 0 → -amount ≤ w.balance) →
      (0 ≤ amount → Wallet.fits ⟨w.balance + amount⟩ = true) →
      (do let _ ← Db.walletTransaction.create (.adjustment uuid)
            { walletId := userId, type := .ADJUSTMENT, amount := amount,
              balanceAfter := w.balance + amount, readingId := none, orderId := none }
          let _ ← Db.auditLog.create auditId
            { actorUserId := actorUserId, action := "wallet.adjustment", targetType := "User",
              targetId := userId, reason := reason, amount := amount,
              balanceAfter := w.balance + amount }
          return (⟨w.balance + amount⟩ : Wallet) : TxM Wallet).wp G D P
        (L ++ [.wallet userId (some ⟨w.balance + amount⟩)]) := by
    intro w hw hfunds hfits
    apply Tx.wp_bind
    apply Db.walletTransaction.wp_create
    intro ht
    apply Tx.wp_bind
    apply Db.auditLog.wp_create
    intro _
    have := h w hw hfunds (by simpa [view_append] using ht) hfits
    simpa [adjustmentWrites] using this
  unfold adjustBalanceTx
  apply Tx.wp_bind
  apply Db.wallet.wp_findUnique
  intro D₀ _
  split
  · split
    · rename_i hneg
      apply Tx.wp_bind
      apply Db.wallet.wp_updateMany
      · intro _ _ _
        trivial
      · intro w hw hfunds
        apply Tx.wp_bind
        apply Db.wallet.wp_findUniqueOrThrow_own (List.mem_append_right L List.mem_cons_self)
        intro w' hw'
        simp [view_append] at hw'
        subst hw'
        have := record w (by simpa using hw) (fun _ => by simpa using hfunds)
          fun h' => absurd hneg (Int.not_lt.mpr h')
        simpa using this
    · rename_i hneg
      apply Tx.wp_bind
      apply Db.wallet.wp_updateWithin
      intro w hw hfits
      exact record w (by simpa using hw) (fun h' => absurd h' hneg) fun _ => hfits
  · trivial

end Rules
end WalletService

end TaroTria
