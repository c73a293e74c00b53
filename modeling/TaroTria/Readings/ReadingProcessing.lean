import TaroTria.Ai.TaskRegistry
import TaroTria.Readings.ReadingsService

/-!
# The processing of a reading

The two processors of the `reading-processing` queue and the failure handler of
its consumer.
-/

namespace TaroTria

open Transactions

namespace ReadingProcessing

/-- The end of an attempt: the result and the prompt version are written. -/
def writeResult (readingId promptVersionId : Id) (status : ReadingStatus) : Request Unit :=
  Proc.transaction do
    let _ ← Db.reading.update readingId
      (fun r => { r with status := status, promptVersionId := promptVersionId })

/-- The status of a reading after an execution; an execution is not `PENDING`. -/
def toReadingStatus : AIExecutionStatus → ReadingStatus
  | .PENDING => .PENDING
  | .COMPLETED => .COMPLETED
  | .FAILED => .FAILED

/-- The reservation is confirmed or released in its own transaction, and the
result is written after it. -/
def closeReading (readingId promptVersionId : Id) (result : AIExecutionStatus) :
    Request Unit := do
  if result = .COMPLETED then
    Proc.transaction (WalletService.confirmConsumption readingId)
  else
    Proc.transaction (WalletService.releaseReservation readingId)
  writeResult readingId promptVersionId (toReadingStatus result)

/-- The part common to both processors, from the call of the AI on. -/
def interpret (readingId : Id) (input : AIOrchestratorExecuteInput) : Request Unit := do
  let result ← Proc.call (Query.execute input)
  closeReading readingId input.promptVersionId result.status

/-! ## Tarot -/

def SUIT_LABELS : MinorSuit → String
  | .WANDS => "Bastos"
  | .CUPS => "Copas"
  | .SWORDS => "Espadas"
  | .PENTACLES => "Oros"

/-- The row of a tarot reading with the tables its query joins. -/
structure TarotReadingRow where
  reading : Reading
  question : Option String
  serviceCode : String
  positions : List TarotSpreadPosition
  draws : List (String × CardOrientation × TarotCard)

/-- The joins follow foreign keys, so that each joined row exists. -/
def findTarotReading (readingId : Id) (D : Db) : Option TarotReadingRow := do
  let reading ← Db.reading.find D readingId
  let service ← D.services.lookup reading.serviceId
  return {
    reading
    question := (D.readingInputs.lookup readingId).bind (·.question)
    serviceCode := service.code
    positions := ((reading.spreadId.bind D.tarotSpreads.lookup).map (·.positions)).getD []
    draws := (D.tarotDraws.findMany fun key _ => key.1 = readingId).filterMap fun e =>
      (D.tarotCards.lookup e.2.cardId).map fun card => (e.1.2, e.2.orientation, card) }

/-- The `orderIndex` of a position code, or 0 for an unknown one. -/
def positionOrder (positions : List TarotSpreadPosition) (code : String) : Int :=
  ((positions.reverse.find? fun p => p.code = code).map (·.orderIndex)).getD 0

def cardLine : String × CardOrientation × TarotCard → String
  | (position, orientation, card) =>
      let orientationText := match orientation with
        | .UPRIGHT => "derecha"
        | .REVERSED => "invertida"
      let suit := match card.suit with
        | some suit => " de " ++ SUIT_LABELS suit
        | none => ""
      position ++ ": " ++ card.name ++ suit ++ " (" ++ orientationText ++ ")"

def cardsText (row : TarotReadingRow) : String :=
  let orderedDraws := row.draws.mergeSort fun a b =>
    positionOrder row.positions a.1 ≤ positionOrder row.positions b.1
  "\n".intercalate (orderedDraws.map cardLine)

def processTarotReading (readingId : Id) : Request Unit := do
  let some row ← Proc.transaction (Tx.select (findTarotReading readingId))
    | return ()
  if row.reading.status = .COMPLETED then
    return ()
  Proc.transaction (ReadingsService.setStatus readingId .PROCESSING)
  let promptVersionId ← Proc.ofExcept
    (← Proc.call (.publishedVersionId (row.serviceCode ++ "_INTERPRETATION")))
  let question := row.question.getD ""
  interpret readingId
    { promptVersionId, readingId
      promptVariables := [("question", question), ("cards", cardsText row)]
      riskCheckText := question
      images := [] }

/-! ## Palm -/

/-- The valid images of a reading by increasing `createdAt`. -/
def validImages (readingId : Id) (D : Db) : List PalmImage :=
  ((D.palmImages.findMany fun _ image =>
      image.readingId = readingId && image.status = .VALID).map Prod.snd).mergeSort
    fun a b => a.createdAt ≤ b.createdAt

def downloadImages : List PalmImage → Request (List AIProviderImage)
  | [] => pure []
  | image :: images => do
      let bytes ← Proc.call (Query.downloadObject image.storageKey)
      let rest ← downloadImages images
      return ⟨bytes.toBase64, image.mimeType.getD "image/jpeg"⟩ :: rest

def processPalmReading (readingId : Id) : Request Unit := do
  let some (reading, palmImages) ← Proc.transaction
      (Tx.select fun D => (Db.reading.find D readingId).map fun r => (r, validImages readingId D))
    | return ()
  if reading.status = .COMPLETED then
    return ()
  Proc.transaction (ReadingsService.setStatus readingId .PROCESSING)
  let promptVersionId ← Proc.ofExcept
    (← Proc.call (.publishedVersionId PALM_READING_INTERPRETATION_TASK))
  let images ← downloadImages palmImages
  interpret readingId
    { promptVersionId, readingId, promptVariables := [], riskCheckText := "", images }

/-! ## The consumer -/

def process (job : ReadingJob) : Request Unit :=
  match job.name with
  | .PROCESS_TAROT => processTarotReading job.readingId
  | .PROCESS_PALM => processPalmReading job.readingId

/-- `attempts` of the queue options. -/
def MAX_ATTEMPTS : Nat := 3

def onFailed (readingId : Id) (attemptsMade : Nat) : Request Unit := do
  if attemptsMade < MAX_ATTEMPTS then
    return ()
  Proc.transaction (WalletService.releaseReservation readingId)
  Proc.transaction do
    let _ ← Db.reading.updateMany readingId (fun r => r.status ≠ .COMPLETED)
      (fun r => { r with status := .FAILED })

end ReadingProcessing

end TaroTria
