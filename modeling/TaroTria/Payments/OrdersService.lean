import Mathlib.Data.Rat.Floor
import TaroTria.Prisma.Client

/-!
# The orders service

## Implementation notes

`new Date()` is asked for just before the transaction that uses it, once for the
search of the offer and once for its consumption.
-/

namespace TaroTria

open Transactions

namespace OrdersService

/-- JavaScript's `Math.round`: halves go up. -/
def mathRound (q : ℚ) : Int := ⌊q + 1 / 2⌋

def findActiveByCode (code : String) : Request CreditPackage := do
  let some pkg ← Proc.transaction (Tx.select fun D =>
      (D.creditPackages.lookup code).filter fun pkg => pkg.isActive)
    | throw (Err.notFound "Paquete de créditos no encontrado.")
  return pkg

/-- The offers that `findFirst` may take: unconsumed and unexpired ones. -/
def isActiveOffer (userId : Id) (packageCode : String) (now : Time) (offer : FlashOfferUnlock) :
    Bool :=
  offer.userId = userId && offer.packageCode = packageCode && offer.consumedAt = none &&
    now < offer.expiresAt

/-- The body of the transaction of `create`. -/
def createTx (userId : Id) (packageCode : String) (pkg : CreditPackage) (orderId : Id)
    (readAt consumedAt : Time) : TxM Order := do
  let offers ← Db.flashOfferUnlock.findMany fun _ offer =>
    isActiveOffer userId packageCode readAt offer
  let discount ← match newest (·.createdAt) offers with
    | none => pure none
    | some (offerId, offer) => do
        let consumed ← Db.flashOfferUnlock.updateMany offerId (fun o => o.consumedAt = none)
          (fun o => { o with consumedAt := consumedAt })
        pure (if 0 < consumed then some offer.discountPercent else none)
  let priceCents := match discount with
    | some percent => mathRound ((pkg.priceCents * (100 - percent) : ℚ) / 100)
    | none => pkg.priceCents
  Db.order.create orderId
    { userId, creditPackageId := pkg.id, credits := pkg.credits, priceCents,
      discountAppliedPercent := discount, currency := pkg.currency, status := .PENDING }

def create (userId : Id) (packageCode : String) : Request Order := do
  let pkg ← findActiveByCode packageCode
  let orderId ← Proc.call .randomUUID
  let readAt ← Proc.call .now
  let consumedAt ← Proc.call .now
  Proc.transaction (createTx userId packageCode pkg orderId readAt consumedAt)

section Rules

variable {Call : Type} {G : Discipline Db RowWrite RowRef Call} {D : Db} {L : List RowWrite}

/-- The price of a package with a discount in percent. -/
def discountedPrice (pkg : CreditPackage) : Option Int → Int
  | some percent => mathRound ((pkg.priceCents * (100 - percent) : ℚ) / 100)
  | none => pkg.priceCents

/-- The row of a new order. -/
def newOrder (userId : Id) (pkg : CreditPackage) (discount : Option Int) : Order :=
  { userId, creditPackageId := pkg.id, credits := pkg.credits,
    priceCents := discountedPrice pkg discount, discountAppliedPercent := discount,
    currency := pkg.currency, status := .PENDING }

theorem wp_createTx {userId : Id} {packageCode : String} {pkg : CreditPackage} {orderId : Id}
    {readAt consumedAt : Time} {P : Order → List RowWrite → Prop}
    (h₀ : D.orders.lookup orderId = none →
      P (newOrder userId pkg none) [.order orderId (some (newOrder userId pkg none))])
    (h₁ : ∀ offerId D₀ (seen offer : FlashOfferUnlock), G.Earlier [] D₀ D →
      D₀.flashOfferUnlocks.lookup offerId = some seen →
      isActiveOffer userId packageCode readAt seen = true →
      D.flashOfferUnlocks.lookup offerId = some offer → offer.consumedAt = none →
      D.orders.lookup orderId = none →
      P (newOrder userId pkg (some seen.discountPercent))
        [.flashOfferUnlock offerId (some { offer with consumedAt := consumedAt }),
         .order orderId (some (newOrder userId pkg (some seen.discountPercent)))]) :
    (createTx userId packageCode pkg orderId readAt consumedAt).wp G D P [] := by
  unfold createTx
  apply Tx.wp_bind
  apply Db.flashOfferUnlock.wp_findMany
  intro D₀ hD₀
  split
  · rename_i hnew
    apply Db.order.wp_create
    intro ho
    exact h₀ ho
  · rename_i offerId seen hnew
    have hseen := (Table.mem_findMany _ _ _ _).mp (newest_mem hnew)
    apply Tx.wp_bind
    apply Db.flashOfferUnlock.wp_updateMany
    · intro _ _ _
      apply Db.order.wp_create
      intro ho
      exact h₀ ho
    · intro offer hoffer hunconsumed
      apply Db.order.wp_create
      intro ho
      exact h₁ offerId D₀ seen offer hD₀ hseen.1 hseen.2 hoffer (by simpa using hunconsumed)
        (by simpa using ho)
end Rules

end OrdersService

end TaroTria
