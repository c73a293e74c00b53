import TaroTria.Readings.ReadingProcessing
import TaroTria.DailyCard.DailyCardService

/-!
# The sharing service

Share links of readings and what they show, as in `sharing.service.ts`.

## Implementation notes

The ids that the database makes are asked for just before the transaction that
uses them. `findFirst` without an order takes one of the matching rows.
-/

namespace TaroTria

open Transactions

structure SharingConfig where
  appUrl : String
  apiUrl : String

inductive SharedReadingType
  | TAROT | PALM
  deriving DecidableEq, Repr

structure SharedCardSummary where
  position : String
  positionLabel : String
  cardName : String
  arcana : ArcanaType
  suit : Option MinorSuit
  orientation : CardOrientation
  deriving DecidableEq, Repr

structure SanitizedReadingData where
  readingType : SharedReadingType
  title : String
  cards : Option (List SharedCardSummary)
  deriving DecidableEq, Repr

structure SharedSummary extends SanitizedReadingData where
  disclaimer : String
  imageStatus : ShareImageStatus
  imageUrl : Option String
  deriving DecidableEq, Repr

structure ShareLinkCreated where
  token : Id
  url : String
  imageStatus : ShareImageStatus
  deriving DecidableEq, Repr

structure ShareImageBytes where
  buffer : Buffer
  contentType : String
  deriving DecidableEq, Repr

namespace SharingService

variable (C : SharingConfig)

def SHARE_CREATED : String := "SHARE_CREATED"

def SHARE_VIEWED : String := "SHARE_VIEWED"

def SHARE_REVOKED : String := "SHARE_REVOKED"

def GENERIC_SHARE_TITLES : SharedReadingType → String
  | .TAROT => "Hice una lectura de tarot en TAROTRIA"
  | .PALM => "Hice una lectura de manos en TAROTRIA"

def linkNotFound : Err := .notFound "Enlace no encontrado."

def toShareLinkCreated (id : Id) (link : ShareLink) : ShareLinkCreated where
  token := id
  url := C.appUrl ++ "/r/" ++ id
  imageStatus := link.imageStatus

/-- A new row, with the defaults of the schema. -/
def newLink (readingId : Id) : ShareLink :=
  { readingId, imageKey := none, imageStatus := .PENDING, revokedAt := none }

/-- `shareLink.findFirst({ where: { readingId, revokedAt: null } })`. -/
def findActiveOf (readingId : Id) : TxM (Option (Id × ShareLink)) :=
  Tx.select fun D => (D.shareLinks.findMany fun _ link =>
    link.readingId = readingId && link.revokedAt.isNone).head?

def generateShareImageJobId (shareLinkId : Id) : String :=
  "GENERATE_SHARE_IMAGE-" ++ shareLinkId

/-- `queue.add`: a job under an id that exists already is not added again. -/
def addShareImageJob (shareLinkId : Id) : TxM Unit := do
  let _ ← Db.shareImageJob.upsert (generateShareImageJobId shareLinkId) shareLinkId id

def logEvent (type : String) (shareLinkId userId : Option Id) : Request Unit := do
  let id ← Proc.call .randomUUID
  let _ ← Proc.transaction <| Db.analyticsEvent.create id
    { type, shareLinkId, userId, metadata := [] }

def createShareLink (userId readingId : Id) : Request ShareLinkCreated := do
  let some reading ← Proc.transaction (ReadingsService.findOwned userId readingId)
    | throw ReadingsService.readingNotFound
  if reading.status ≠ .COMPLETED then
    throw (Err.badRequest "Solo se puede compartir una lectura completada.")
  if let some (id, link) ← Proc.transaction (findActiveOf readingId) then
    return toShareLinkCreated C id link
  let id ← Proc.call .randomUUID
  let link ← Proc.transaction (Db.shareLink.create id (newLink readingId))
  Proc.transaction (addShareImageJob id)
  logEvent SHARE_CREATED (some id) none
  return toShareLinkCreated C id link

def revokeShareLink (userId readingId : Id) : Request Unit := do
  let some _ ← Proc.transaction (ReadingsService.findOwned userId readingId)
    | throw ReadingsService.readingNotFound
  let some (id, _) ← Proc.transaction (findActiveOf readingId)
    | return ()
  let now ← Proc.call .now
  let _ ← Proc.transaction <| Db.shareLink.update id
    (fun link => { link with revokedAt := some now })
  logEvent SHARE_REVOKED (some id) none

/-- `shareLink.findFirst({ where: { id: token, revokedAt: null } })`. -/
def findUnrevoked (token : Id) : TxM (Option ShareLink) :=
  Tx.select fun D => (Db.shareLink.find D token).filter fun link => link.revokedAt.isNone

def findActiveShareLink (token : Id) : Request ShareLink := do
  let some link ← Proc.transaction (findUnrevoked token)
    | throw linkNotFound
  let some reading ← Proc.transaction (Db.reading.findUnique link.readingId)
    | throw linkNotFound
  if reading.status ≠ .COMPLETED then
    throw linkNotFound
  return link

/-- The label of a position code, or the code for an unknown one. -/
def positionLabel (positions : List TarotSpreadPosition) (code : String) : String :=
  ((positions.reverse.find? fun p => p.code = code).map (·.label)).getD code

def cardSummary (positions : List TarotSpreadPosition) :
    String × CardOrientation × TarotCard → SharedCardSummary
  | (position, orientation, card) =>
      { position, positionLabel := positionLabel positions position, cardName := card.name
        arcana := card.arcana, suit := card.suit, orientation }

def getSanitizedReadingData (readingId : Id) : Request SanitizedReadingData := do
  let row ← Proc.transaction (Tx.selectOrThrow (ReadingProcessing.findTarotReading readingId))
  if ReadingsService.isPalmService row.serviceCode then
    return { readingType := .PALM, title := GENERIC_SHARE_TITLES .PALM, cards := none }
  let orderedDraws := row.draws.mergeSort fun a b =>
    ReadingProcessing.positionOrder row.positions a.1 ≤
      ReadingProcessing.positionOrder row.positions b.1
  return {
    readingType := .TAROT, title := GENERIC_SHARE_TITLES .TAROT
    cards := some (orderedDraws.map (cardSummary row.positions)) }

def getPublicSummary (token : Id) : Request SharedSummary := do
  let link ← findActiveShareLink token
  let data ← getSanitizedReadingData link.readingId
  logEvent SHARE_VIEWED (some token) none
  return { data with
    disclaimer := DailyCardService.DAILY_CARD_DISCLAIMER
    imageStatus := link.imageStatus
    imageUrl := if link.imageStatus = .READY then
      some (C.apiUrl ++ "/shared/" ++ token ++ "/image") else none }

/-- An exception of the lookup counts as no link. -/
def getShareImageBytes (token : Id) : Request (Option ShareImageBytes) := do
  let found : Option ShareLink ←
    (do return some (← findActiveShareLink token)).handle fun _ => pure none
  let some link := found
    | return none
  let imageKey := link.imageKey.getD ""
  if link.imageStatus ≠ .READY ∨ imageKey = "" then
    return none
  let buffer ← Proc.call (Query.downloadObject imageKey)
  return some { buffer, contentType := "image/png" }

def markImageReady (shareLinkId : Id) (imageKey : String) : Request Unit := do
  let _ ← Proc.transaction <| Db.shareLink.update shareLinkId
    (fun link => { link with imageKey := some imageKey, imageStatus := .READY })

def markImageFailed (shareLinkId : Id) : Request Unit := do
  let _ ← Proc.transaction <| Db.shareLink.updateMany shareLinkId
    (fun link => link.imageStatus ≠ .READY) (fun link => { link with imageStatus := .FAILED })

end SharingService

end TaroTria
