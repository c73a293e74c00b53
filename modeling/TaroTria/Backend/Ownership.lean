import TaroTria.Backend.Calls
import TaroTria.Payments.PaymentsService
import TaroTria.Readings.ReadingDetail
import TaroTria.Readings.ReadingInputs
import TaroTria.Transactions.Alone
import TaroTria.Transactions.World

/-!
# The rows of another user

Every operation of a user on a reading or an order looks for the row under the
id of the row and of the user before it does anything else. So the row of
another user is as good as none: the operation ends with the same error, and it
has asked nothing of the world and written nothing.
-/

namespace TaroTria

open Transactions

structure OrderSummary where
  id : Id
  status : OrderStatus
  credits : Nat
  priceCents : Int
  discountAppliedPercent : Option Int
  currency : String
  deriving DecidableEq, Repr

namespace OrdersService

def toOrderSummary (id : Id) (order : Order) : OrderSummary where
  id
  status := order.status
  credits := order.credits
  priceCents := order.priceCents
  discountAppliedPercent := order.discountAppliedPercent
  currency := order.currency

def findOneForUser (userId orderId : Id) : Request OrderSummary := do
  let some order ← Proc.transaction (PaymentsService.findOwned userId orderId)
    | throw PaymentsService.orderNotFound
  return toOrderSummary orderId order

end OrdersService

/-- The row that an operation is about. -/
inductive OwnedRow
  | reading (id : Id)
  | order (id : Id)

namespace OwnedRow

/-- The row exists and belongs to another user. -/
def ForeignTo (userId : Id) (D : Db) : OwnedRow → Prop
  | reading id => ∃ r, D.readings.lookup id = some r ∧ r.userId ≠ userId
  | order id => ∃ o, D.orders.lookup id = some o ∧ o.userId ≠ userId

/-- The database with the row absent. -/
def without (D : Db) : OwnedRow → Db
  | reading id => { D with readings := D.readings.write id none }
  | order id => { D with orders := D.orders.write id none }

/-- The answer to an operation on a row that is not found. -/
def notFound : OwnedRow → Err
  | reading _ => ReadingsService.readingNotFound
  | order _ => PaymentsService.orderNotFound

/-- The query for the row by its id and its owner finds nothing. -/
def Missing (userId : Id) (D : Db) : OwnedRow → Prop
  | reading id => (Db.reading.find D id).filter (fun r => r.userId = userId) = none
  | order id => (Db.order.find D id).filter (fun o => o.userId = userId) = none

theorem ForeignTo.missing {userId : Id} {D : Db} {row : OwnedRow} (h : row.ForeignTo userId D) :
    row.Missing userId D := by
  cases row with
  | reading id =>
      obtain ⟨r, hr, hne⟩ := h
      simp [Missing, Delegate.find, hr, hne]
  | order id =>
      obtain ⟨o, ho, hne⟩ := h
      simp [Missing, Delegate.find, ho, hne]

theorem missing_without (userId : Id) (D : Db) (row : OwnedRow) :
    row.Missing userId (row.without D) := by
  cases row <;> simp [Missing, without, Delegate.find]

end OwnedRow

/-- The operations of a user on a reading or an order of theirs. -/
inductive OwnedCall
  | findOneForUser (readingId : Id)
  | updateInputs (readingId : Id) (answers : ReadingsService.ReadingAnswers)
  | presignImage (readingId : Id) (contentType : PalmImageMimeType)
  | confirmImage (readingId : Id) (key : String)
  | submit (readingId : Id)
  | retry (readingId : Id)
  | remove (readingId : Id)
  | createShareLink (readingId : Id)
  | revokeShareLink (readingId : Id)
  | findOrder (orderId : Id)
  | createCheckoutIntent (orderId : Id)
  | confirmFromReturn (orderId : Id) (providerTransactionId : String)

/-- The configuration of the services of the operations. -/
structure OwnedConfig (Body : Type) where
  sharing : SharingConfig
  images : PalmImageConfig
  provider : PaymentProvider Body
  appUrl : String

namespace OwnedCall

def row : OwnedCall → OwnedRow
  | findOneForUser readingId => .reading readingId
  | updateInputs readingId _ => .reading readingId
  | presignImage readingId _ => .reading readingId
  | confirmImage readingId _ => .reading readingId
  | submit readingId => .reading readingId
  | retry readingId => .reading readingId
  | remove readingId => .reading readingId
  | createShareLink readingId => .reading readingId
  | revokeShareLink readingId => .reading readingId
  | findOrder orderId => .order orderId
  | createCheckoutIntent orderId => .order orderId
  | confirmFromReturn orderId _ => .order orderId

/-- What an operation answers. -/
def Result : OwnedCall → Type
  | findOneForUser _ => ReadingDetail
  | updateInputs _ _ => Reading
  | presignImage _ _ => PresignedUpload
  | confirmImage _ _ => PalmImageSummary
  | submit _ => Reading
  | retry _ => Reading
  | remove _ => Unit
  | createShareLink _ => ShareLinkCreated
  | revokeShareLink _ => Unit
  | findOrder _ => OrderSummary
  | createCheckoutIntent _ => CheckoutIntent
  | confirmFromReturn _ _ => Unit

variable {Body : Type} (C : OwnedConfig Body) (userId : Id)

/-- The request of an operation by a user. -/
def prog : (c : OwnedCall) → Request c.Result
  | findOneForUser readingId => ReadingsService.findDetailForUser C.sharing userId readingId
  | updateInputs readingId answers => ReadingsService.updateInputs userId readingId answers
  | presignImage readingId contentType =>
      ReadingsService.presignImage userId readingId contentType
  | confirmImage readingId key => ReadingsService.confirmImage C.images userId readingId key
  | submit readingId => ReadingsService.submit userId readingId
  | retry readingId => ReadingsService.retry userId readingId
  | remove readingId => ReadingsService.remove userId readingId
  | createShareLink readingId => SharingService.createShareLink C.sharing userId readingId
  | revokeShareLink readingId => SharingService.revokeShareLink userId readingId
  | findOrder orderId => OrdersService.findOneForUser userId orderId
  | createCheckoutIntent orderId =>
      PaymentsService.createCheckoutIntent C.provider C.appUrl userId orderId
  | confirmFromReturn orderId providerTransactionId =>
      PaymentsService.confirmFromReturn C.provider userId orderId providerTransactionId

end OwnedCall

section Refusal

variable {W α β : Type} {world : World W Err Answer} {w : W} {D : Db}
  {userId readingId orderId : Id}

/-- The request ends with an error before it has asked or written anything. -/
def Refuses (world : World W Err Answer) (w : W) (D : Db) (e : Err) (p : Request α) : Prop :=
  p.play world w D = (w, D, .error e)

theorem Refuses.bind {e : Err} {p : Request α} (h : Refuses world w D e p) (f : α → Request β) :
    Refuses world w D e (p >>= f) :=
  Proc.play_bind_error h

/-- A request that starts with a query and throws when it finds nothing. -/
theorem refuses_select {e : Err} {g : Db → Option β} {f : Option β → Request α}
    (hnone : g D = none) (hthrow : f none = throw e) :
    Refuses world w D e (Proc.transaction (Tx.select g) >>= f) := by
  refine (Proc.play_select_bind g).trans ?_
  rw [hnone, hthrow]
  rfl

theorem refuses_findOwnedDraft (h : (OwnedRow.reading readingId).Missing userId D) :
    Refuses world w D ReadingsService.readingNotFound
      (ReadingsService.findOwnedDraft userId readingId) :=
  refuses_select h rfl

/-- An operation on a row that its user does not own, or that does not exist, is refused. -/
theorem OwnedCall.refuses {Body : Type} (C : OwnedConfig Body) (c : OwnedCall)
    (h : c.row.Missing userId D) : Refuses world w D c.row.notFound (c.prog C userId) := by
  cases c with
  | findOneForUser readingId =>
      have hnone : ReadingsService.findWithDetail userId readingId D = none := by
        have hreading : (Db.reading.find D readingId).filter (fun r => r.userId = userId) = none :=
          h
        simp only [ReadingsService.findWithDetail, hreading, Option.bind_eq_bind, Option.bind_none]
      exact refuses_select hnone rfl
  | updateInputs readingId answers => exact (refuses_findOwnedDraft h).bind _
  | presignImage readingId contentType => exact (refuses_findOwnedDraft h).bind _
  | confirmImage readingId key => exact (refuses_findOwnedDraft h).bind _
  | submit readingId => exact (refuses_findOwnedDraft h).bind _
  | retry readingId =>
      -- The query joins the service to the reading that it has found.
      have hquery : (ReadingsService.withService
          (ReadingsService.findOwned userId readingId)).run D [] = .ok (none, []) := by
        have hreading : (Db.reading.find D readingId).filter (fun r => r.userId = userId) = none :=
          h
        unfold ReadingsService.withService ReadingsService.findOwned
        rw [Tx.run_select_bind, view_nil, hreading]
        rfl
      exact Proc.play_transaction_ok hquery
  | remove readingId => exact (refuses_findOwnedDraft h).bind _
  | createShareLink readingId => exact refuses_select h rfl
  | revokeShareLink readingId => exact refuses_select h rfl
  | findOrder orderId => exact refuses_select h rfl
  | createCheckoutIntent orderId => exact refuses_select h rfl
  | confirmFromReturn orderId providerTransactionId => exact refuses_select h rfl

end Refusal

/-- On the row of another user, in any state and any world, every operation ends as it does
without that row, with the error for a missing one, and leaves the world and the database as
they were. -/
theorem ownership_isolation {Body W : Type} (C : OwnedConfig Body) (c : OwnedCall) (userId : Id)
    (world : World W Err Answer) (w : W) (D : Db) (hforeign : c.row.ForeignTo userId D) :
    (c.prog C userId).play world w D = (w, D, .error c.row.notFound) ∧
      (c.prog C userId).play world w (c.row.without D) =
        (w, c.row.without D, .error c.row.notFound) :=
  ⟨c.refuses C hforeign.missing, c.refuses C (c.row.missing_without userId D)⟩

/-- A configuration for concrete runs. -/
def sampleOwnedConfig : OwnedConfig ParsedWebhook where
  sharing := ⟨"", ""⟩
  images := ⟨0, 0, fun _ => none⟩
  provider := sampleDeployment.provider
  appUrl := ""

/-- A completed reading of `ana`. -/
def completedDb : Db :=
  { Db.empty with
    readings := (∅ : Table Id Reading).write "r1"
      (some ⟨"ana", "palm", none, none, .COMPLETED, none⟩) }

/-- `eva` cannot tell the reading of `ana` from none, and her request makes no call. -/
theorem ownership_isolation_of_eva :
    ((OwnedCall.createShareLink "r1").prog sampleOwnedConfig "eva").play
        (fun q calls => (.ok (sampleAnswer .COMPLETED q), calls + 1)) 0 completedDb =
      ((0 : Nat), completedDb, .error (.notFound "Lectura no encontrada.")) :=
  (ownership_isolation sampleOwnedConfig (.createShareLink "r1") "eva" _ 0 completedDb
    ⟨⟨"ana", "palm", none, none, .COMPLETED, none⟩, rfl, by decide⟩).1

end TaroTria
