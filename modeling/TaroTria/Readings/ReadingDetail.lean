import TaroTria.Readings.PalmImages
import TaroTria.Readings.ReadingProcessing
import TaroTria.Sharing.SharingService

/-!
# The detail of a reading

`findOneForUser` with the tables that its answer joins, and `toReadingDetail`.

## Implementation notes

The `include` of the query is one read. The code of a card, which is not in the
table of cards, and the date of creation of a reading are left out.
-/

namespace TaroTria

open Transactions

structure ReadingDraw where
  position : String
  orientation : CardOrientation
  card : TarotCard
  deriving DecidableEq, Repr

structure ReadingDetail where
  id : Id
  serviceCode : String
  status : ReadingStatus
  submittedAt : Option Time
  input : Option ReadingInput
  draws : List ReadingDraw
  images : List PalmImageSummary
  aiResult : Option (Json JsString)
  share : Option ShareLinkCreated
  deriving DecidableEq, Repr

/-- A reading with the rows of `DETAIL_INCLUDE`. -/
structure ReadingWithDetail where
  reading : Reading
  service : Service
  positions : List TarotSpreadPosition
  input : Option ReadingInput
  draws : List (String × CardOrientation × TarotCard)
  aiExecutions : List (Id × AIExecution)
  palmImages : List (Id × PalmImage)

namespace ReadingsService

/-- The executions of a reading that completed, whatever their task. -/
def completedExecutions (readingId : Id) (D : Db) : List (Id × AIExecution) :=
  D.aiExecutions.findMany fun _ e => e.readingId = some readingId && e.status = .COMPLETED

/-- `reading.findFirst({ where: { id, userId }, include: DETAIL_INCLUDE })`; the joins follow
foreign keys, so that each joined row exists. -/
def findWithDetail (userId readingId : Id) (D : Db) : Option ReadingWithDetail := do
  let reading ← (Db.reading.find D readingId).filter fun r => r.userId = userId
  let service ← D.services.lookup reading.serviceId
  return {
    reading
    service
    positions := ((reading.spreadId.bind D.tarotSpreads.lookup).map (·.positions)).getD []
    input := D.readingInputs.lookup readingId
    draws := (D.tarotDraws.findMany fun key _ => key.1 = readingId).filterMap fun e =>
      (D.tarotCards.lookup e.2.cardId).map fun card => (e.1.2, e.2.orientation, card)
    aiExecutions := (newest (·.createdAt) (completedExecutions readingId D)).toList
    palmImages := (D.palmImages.findMany fun _ image => image.readingId = readingId).mergeSort
      fun a b => a.2.createdAt ≤ b.2.createdAt }

def toReadingDetail (readingId : Id) (row : ReadingWithDetail) (share : Option ShareLinkCreated) :
    ReadingDetail where
  id := readingId
  serviceCode := row.service.code
  status := row.reading.status
  submittedAt := row.reading.submittedAt
  input := row.input
  draws := (row.draws.mergeSort fun a b =>
      ReadingProcessing.positionOrder row.positions a.1 ≤
        ReadingProcessing.positionOrder row.positions b.1).map
    fun draw => { position := draw.1, orientation := draw.2.1, card := draw.2.2 }
  images := row.palmImages.map fun e => toPalmImageSummary e.1 e.2
  aiResult := row.aiExecutions.head?.bind fun e => e.2.outputJson
  share

/-- `findOneForUser`, with its whole answer. -/
def findDetailForUser (C : SharingConfig) (userId readingId : Id) : Request ReadingDetail := do
  let some row ← Proc.transaction (Tx.select (findWithDetail userId readingId))
    | throw readingNotFound
  let share ← Proc.transaction (SharingService.findActiveOf readingId)
  return toReadingDetail readingId row
    (share.map fun e => SharingService.toShareLinkCreated C e.1 e.2)

/-- The output that the detail shows is that of the latest completed execution. -/
theorem aiResult_toReadingDetail {userId readingId : Id} {D : Db} {row : ReadingWithDetail}
    (h : findWithDetail userId readingId D = some row) (share : Option ShareLinkCreated) :
    (toReadingDetail readingId row share).aiResult =
      (newest (·.createdAt) (completedExecutions readingId D)).bind fun e => e.2.outputJson := by
  obtain ⟨reading, -, h⟩ := Option.bind_eq_some_iff.mp h
  obtain ⟨service, -, h⟩ := Option.bind_eq_some_iff.mp h
  cases h
  simp only [toReadingDetail]
  cases newest (·.createdAt) (completedExecutions readingId D) <;> rfl

end ReadingsService

end TaroTria
