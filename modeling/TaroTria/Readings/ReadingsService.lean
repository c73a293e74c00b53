import TaroTria.Rewards.TryConsumeUnlock
import TaroTria.Tarot.DrawEngine
import TaroTria.Wallet.WalletService

/-!
# The readings service

Creation, submission, retry and removal of a reading, as in `readings.service.ts`.

## Implementation notes

`new Date()` and the ids that the database or `randomUUID` make inside a
transaction are asked for just before it. `findOneForUser` returns the row of
the reading; the joined tables of its answer are read-only and left out.
-/

namespace TaroTria

open Transactions

namespace ReadingsService

def AD_UNLOCKABLE_TAROT_SERVICE_CODE : String := "TAROT_THREE"

def DEFAULT_TAROT_DECK_CODE : String := "RIDER_WAITE_ES"

def PALM_SERVICE_IMAGE_SLOTS : List (String × Nat) := [("PALM_BASIC", 1), ("PALM_COMPLETE", 2)]

/-- The names that the `in` operator finds on every object. -/
def OBJECT_PROTOTYPE_NAMES : List String :=
  ["constructor", "hasOwnProperty", "isPrototypeOf", "propertyIsEnumerable", "toLocaleString",
    "toString", "valueOf", "__proto__", "__defineGetter__", "__defineSetter__",
    "__lookupGetter__", "__lookupSetter__"]

def isPalmService (serviceCode : String) : Bool :=
  (PALM_SERVICE_IMAGE_SLOTS.lookup serviceCode).isSome ||
    OBJECT_PROTOTYPE_NAMES.contains serviceCode

/-- An inherited name gives a value that no count is less than, as zero does. -/
def requiredPalmImageSlots (serviceCode : String) : Nat :=
  (PALM_SERVICE_IMAGE_SLOTS.lookup serviceCode).getD 0

/-- The comparison `count >= requiredPalmImageSlots(code)`, which is also false for an
inherited name. -/
def reachesRequiredSlots (serviceCode : String) (count : Nat) : Bool :=
  (PALM_SERVICE_IMAGE_SLOTS.lookup serviceCode).any (· ≤ count)

theorem reachesRequiredSlots_eq_false {serviceCode : String} {count : Nat}
    (h : count < requiredPalmImageSlots serviceCode) :
    reachesRequiredSlots serviceCode count = false := by
  unfold requiredPalmImageSlots at h
  unfold reachesRequiredSlots
  cases hslots : PALM_SERVICE_IMAGE_SLOTS.lookup serviceCode with
  | none => rfl
  | some slots =>
      rw [hslots, Option.getD_some] at h
      simpa using h

/-- `service.findFirst({ where: { code, isActive: true } })`. -/
def findActiveService (serviceCode : String) : TxM (Option (Id × Service)) :=
  Tx.select fun D => (D.services.findMany fun _ s => s.code = serviceCode && s.isActive).head?

/-- `tarotSpread.findFirst({ where: { code, isActive: true } })`. -/
def findActiveSpread (serviceCode : String) : TxM (Option (Id × TarotSpread)) :=
  Tx.select fun D => (D.tarotSpreads.findMany fun _ s => s.code = serviceCode && s.isActive).head?

def create (userId : Id) (serviceCode : String) : Request Reading := do
  let some (serviceId, _) ← Proc.transaction (findActiveService serviceCode)
    | throw (Err.notFound "Servicio no encontrado.")
  let spread ← Proc.transaction (findActiveSpread serviceCode)
  let readingId ← Proc.call .randomUUID
  Proc.transaction <| Db.reading.create readingId
    { userId, serviceId, spreadId := spread.map Prod.fst, promptVersionId := none,
      status := .DRAFT, submittedAt := none }

/-- `reading.findFirst({ where: { id, userId } })`. -/
def findOwned (userId readingId : Id) : TxM (Option Reading) :=
  Tx.select fun D => (Db.reading.find D readingId).filter fun r => r.userId = userId

def readingNotFound : Err := .notFound "Lectura no encontrada."

def findOneForUser (userId readingId : Id) : Request Reading := do
  let some reading ← Proc.transaction (findOwned userId readingId)
    | throw readingNotFound
  return reading

def findOwnedDraft (userId readingId : Id) : Request Reading := do
  let some reading ← Proc.transaction (findOwned userId readingId)
    | throw readingNotFound
  if reading.status ≠ .DRAFT then
    throw (Err.badRequest "Esta lectura ya fue enviada y no se puede modificar.")
  return reading

/-- `service.findUniqueOrThrow`. -/
def findService (serviceId : Id) : TxM Service :=
  Tx.selectOrThrow fun D => D.services.lookup serviceId

/-- `tarotSpread.findUniqueOrThrow`. -/
def findSpread (spreadId : Id) : TxM TarotSpread :=
  Tx.selectOrThrow fun D => D.tarotSpreads.lookup spreadId

/-- The position codes by increasing `orderIndex`. -/
def orderedPositions (spread : TarotSpread) : List String :=
  (spread.positions.mergeSort fun p q => p.orderIndex ≤ q.orderIndex).map (·.code)

/-- `queue.add`: a job under an id that exists already is not added again. -/
def addJob (jobId : String) (job : ReadingJob) : TxM Unit := do
  let _ ← Db.readingJob.upsert jobId job id

def markPending (readingId : Id) (submittedAt : Time) : TxM Unit := do
  let _ ← Db.reading.update readingId
    (fun r => { r with status := .PENDING, submittedAt := submittedAt })

def submitPalmTx (userId readingId : Id) (service : Service) (now : Time) : TxM Unit := do
  WalletService.reserveCreditsForReading userId readingId service.creditCost
  markPending readingId now

/-- `tarotDraw.createMany`. -/
def createDraws (readingId : Id) : List (DrawEngine.TarotDraw TarotDeckCard) → TxM Unit
  | [] => pure ()
  | draw :: draws => do
      let _ ← Db.tarotDraw.create (readingId, draw.position)
        { cardId := draw.card.id, orientation := draw.orientation }
      createDraws readingId draws

def submitTarotTx (userId readingId : Id) (service : Service)
    (draws : List (DrawEngine.TarotDraw TarotDeckCard)) (now : Time) : TxM Unit := do
  let unlockedViaAds ←
    if service.code = AD_UNLOCKABLE_TAROT_SERVICE_CODE then
      RewardsService.tryConsumeUnlock userId .TAROT_READING_UNLOCK
    else pure false
  let creditCost := if unlockedViaAds then 0 else service.creditCost
  WalletService.reserveCreditsForReading userId readingId creditCost
  createDraws readingId draws
  markPending readingId now

/-- The transaction of a submission, whose collision with another submission
of the same reading counts as this one having been made already. -/
def submitOnce (userId readingId : Id) (body : TxM Unit) (job : ReadingJob) (jobId : String) :
    Request Reading := do
  let outcome ← (do Proc.transaction body; return true).handle fun
    | .readingAlreadySubmitted => pure false
    | e => throw e
  if outcome then
    Proc.transaction (addJob jobId job)
  findOneForUser userId readingId

def submitPalmReading (userId readingId : Id) (service : Service) : Request Reading := do
  let validImages ← Proc.transaction <|
    Db.palmImage.count fun _ image => image.readingId = readingId && image.status = .VALID
  if validImages < requiredPalmImageSlots service.code then
    throw (Err.badRequest
      "Debes subir y validar tus fotos de palma antes de enviar la lectura.")
  let now ← Proc.call .now
  submitOnce userId readingId (submitPalmTx userId readingId service now)
    ⟨.PROCESS_PALM, readingId⟩ ("PROCESS_PALM-" ++ readingId)

def submitTarotReading (userId readingId : Id) (reading : Reading) (service : Service) :
    Request Reading := do
  let some _ ← Proc.transaction (Db.readingInput.findUnique readingId)
    | throw (Err.badRequest "Debes completar el formulario antes de enviar la lectura.")
  let some spreadId := reading.spreadId
    | throw (Err.badRequest
        "Este servicio todavía no tiene una tirada de tarot configurada.")
  let spread ← Proc.transaction (findSpread spreadId)
  let deck ← Proc.ofExcept (← Proc.call (.activeDeckCards DEFAULT_TAROT_DECK_CODE))
  let positions := orderedPositions spread
  let choices ← Proc.call (.randomInts deck.length positions.length)
  let draws ← Proc.ofExcept (DrawEngine.draw deck positions choices)
  let now ← Proc.call .now
  submitOnce userId readingId (submitTarotTx userId readingId service draws now)
    ⟨.PROCESS_TAROT, readingId⟩ ("PROCESS_TAROT-" ++ readingId)

def submit (userId readingId : Id) : Request Reading := do
  let reading ← findOwnedDraft userId readingId
  let service ← Proc.transaction (findService reading.serviceId)
  if isPalmService service.code then
    submitPalmReading userId readingId service
  else
    submitTarotReading userId readingId reading service

def setStatus (readingId : Id) (status : ReadingStatus) : TxM Unit := do
  let _ ← Db.reading.update readingId (fun r => { r with status := status })

def performRetry (readingId : Id) (reading : Reading) (service : Service) : Request Unit := do
  if reading.status ≠ .FAILED then
    throw (Err.badRequest "Solo se pueden reintentar lecturas en estado FAILED.")
  Proc.transaction (setStatus readingId .PENDING)
  let uuid ← Proc.call .randomUUID
  if isPalmService service.code then
    Proc.transaction (addJob ("PROCESS_PALM-" ++ readingId ++ "-retry-" ++ uuid)
      ⟨.PROCESS_PALM, readingId⟩)
  else
    Proc.transaction (addJob ("PROCESS_TAROT-" ++ readingId ++ "-retry-" ++ uuid)
      ⟨.PROCESS_TAROT, readingId⟩)

/-- The reading and its service, read by one query with `include: { service }`. -/
def withService (reading : TxM (Option Reading)) : TxM (Option (Reading × Service)) := do
  let some reading ← reading
    | return none
  let service ← findService reading.serviceId
  return some (reading, service)

def retry (userId readingId : Id) : Request Reading := do
  let some (reading, service) ← Proc.transaction (withService (findOwned userId readingId))
    | throw readingNotFound
  performRetry readingId reading service
  findOneForUser userId readingId

def retryAsAdmin (readingId : Id) : Request Reading := do
  let some (reading, service) ← Proc.transaction (withService (Db.reading.findUnique readingId))
    | throw readingNotFound
  performRetry readingId reading service
  findOneForUser reading.userId readingId

/-- The rows that go with a deleted reading: the foreign keys of its inputs,
draws, images and reservation cascade, and its ledger rows lose their reading. -/
def deletionWrites (readingId : Id) (D : Db) : List RowWrite :=
  [.reading readingId none, .readingInput readingId none, .creditReservation readingId none] ++
  (D.tarotDraws.findMany fun key _ => key.1 = readingId).map (fun e => .tarotDraw e.1 none) ++
  (D.palmImages.findMany fun _ image => image.readingId = readingId).map
    (fun e => .palmImage e.1 none) ++
  (D.walletTransactions.findMany fun _ row => row.readingId = some readingId).map
    (fun e => .walletTransaction e.1 (some { e.2 with readingId := none }))

/-- `reading.delete`. -/
def deleteReading (readingId : Id) : TxM Unit :=
  .stmt (fun D => match Db.reading.find D readingId with
    | some _ => .ok ((), deletionWrites readingId D)
    | none => .error .recordNotFound) .ret

def deleteObjects : List String → Request Unit
  | [] => pure ()
  | key :: keys => do
      Proc.call (Query.deleteObject key)
      deleteObjects keys

def remove (userId readingId : Id) : Request Unit := do
  let _ ← findOwnedDraft userId readingId
  let images ← Proc.transaction <|
    Db.palmImage.findMany fun _ image => image.readingId = readingId
  deleteObjects (images.map fun e => e.2.storageKey)
  Proc.transaction (deleteReading readingId)

section Rules

variable {Call : Type} {G : Discipline Db RowWrite RowRef Call} {D : Db} {L : List RowWrite}

/-- The rows of the draws of a reading. -/
def drawWrites (readingId : Id) (draws : List (DrawEngine.TarotDraw TarotDeckCard)) :
    List RowWrite :=
  draws.map fun draw => .tarotDraw (readingId, draw.position)
    (some { cardId := draw.card.id, orientation := draw.orientation })

/-- The draws of a reading stored in the table of draws. -/
def storeDraws (readingId : Id) (draws : List (DrawEngine.TarotDraw TarotDeckCard))
    (t : Table (Id × String) TarotDraw) : Table (Id × String) TarotDraw :=
  draws.foldl (fun t draw => t.write (readingId, draw.position)
    (some { cardId := draw.card.id, orientation := draw.orientation })) t

@[simp] theorem view_drawWrites (readingId : Id)
    (draws : List (DrawEngine.TarotDraw TarotDeckCard)) (D : Db) :
    view (drawWrites readingId draws) D =
      { D with tarotDraws := storeDraws readingId draws D.tarotDraws } := by
  induction draws generalizing D with
  | nil => rfl
  | cons draw draws ih => simp [drawWrites, storeDraws] at ih ⊢; rw [ih]

theorem wp_markPending {readingId : Id} {submittedAt : Time} {P : Unit → List RowWrite → Prop}
    (h : ∀ r : Reading, (view L D).readings.lookup readingId = some r →
      P () (L ++ [.reading readingId
        (some { r with status := .PENDING, submittedAt := submittedAt })])) :
    (markPending readingId submittedAt).wp G D P L := by
  unfold markPending
  apply Tx.wp_bind
  apply Db.reading.wp_update
  exact h

theorem wp_setStatus {readingId : Id} {status : ReadingStatus} {P : Unit → List RowWrite → Prop}
    (h : ∀ r : Reading, (view L D).readings.lookup readingId = some r →
      P () (L ++ [.reading readingId (some { r with status := status })])) :
    (setStatus readingId status).wp G D P L := by
  unfold setStatus
  apply Tx.wp_bind
  apply Db.reading.wp_update
  exact h

theorem wp_addJob {jobId : String} {job : ReadingJob} {P : Unit → List RowWrite → Prop}
    (h : ∀ job', P () (L ++ [.readingJob jobId (some job')])) :
    (addJob jobId job).wp G D P L := by
  unfold addJob
  apply Tx.wp_bind
  apply Db.readingJob.wp_upsert
  · intro _
    exact h job
  · intro job' _
    exact h job'

theorem wp_createDraws {readingId : Id} {draws : List (DrawEngine.TarotDraw TarotDeckCard)}
    {P : Unit → List RowWrite → Prop}
    (h : P () (L ++ drawWrites readingId draws)) :
    (createDraws readingId draws).wp G D P L := by
  induction draws generalizing L with
  | nil => simpa [createDraws, drawWrites] using h
  | cons draw draws ih =>
      unfold createDraws
      apply Tx.wp_bind
      apply Db.tarotDraw.wp_create
      intro _
      apply ih
      simpa [drawWrites] using h

/-- The credits that a submission reserves. -/
def reservedAmount (service : Service) (unlocked : Bool) : Nat :=
  if unlocked then 0 else service.creditCost

/-- The rows of a submission: the consumed unlock, the reservation from the
wallet `w`, the draws, and the reading `r` now `PENDING`. -/
def submissionWrites (userId readingId : Id) (service : Service) (unlocked : Bool) (w : Wallet)
    (draws : List (DrawEngine.TarotDraw TarotDeckCard)) (r : Reading) (now : Time) :
    List RowWrite :=
  (if unlocked then RewardsService.unlockWrites userId .TAROT_READING_UNLOCK else []) ++
    WalletService.reservationWrites userId readingId (reservedAmount service unlocked) w ++
    drawWrites readingId draws ++
    [.reading readingId (some { r with status := .PENDING, submittedAt := now })]

theorem view_submissionWrites (userId readingId : Id) (service : Service) (unlocked : Bool)
    (w : Wallet) (draws : List (DrawEngine.TarotDraw TarotDeckCard)) (r : Reading) (now : Time)
    (D : Db) : view (submissionWrites userId readingId service unlocked w draws r now) D =
    { D with
      rewardProgress := if unlocked then
        D.rewardProgress.write (userId, .TAROT_READING_UNLOCK) (some 0) else D.rewardProgress
      wallets := D.wallets.write userId (some ⟨w.balance - reservedAmount service unlocked⟩)
      creditReservations := D.creditReservations.write readingId
        (some ⟨userId, reservedAmount service unlocked, .ACTIVE⟩)
      walletTransactions := D.walletTransactions.write (.reservation readingId)
        (some ⟨userId, .RESERVATION, -reservedAmount service unlocked,
          w.balance - reservedAmount service unlocked, some readingId, none⟩)
      tarotDraws := storeDraws readingId draws D.tarotDraws
      readings := D.readings.write readingId
        (some { r with status := .PENDING, submittedAt := now }) } := by
  unfold submissionWrites
  cases unlocked <;>
    simp [view_append, WalletService.reservationWrites, RewardsService.unlockWrites]

/-- The rule shared by both kinds of submission, from the reservation on. -/
theorem wp_reserveAndMark {userId readingId : Id} {service : Service} (unlocked : Bool)
    (draws : List (DrawEngine.TarotDraw TarotDeckCard)) {now : Time}
    {P : Unit → List RowWrite → Prop}
    (hL : (view L D).wallets = D.wallets ∧ (view L D).creditReservations = D.creditReservations ∧
      (view L D).walletTransactions = D.walletTransactions ∧ (view L D).readings = D.readings)
    (h : ∀ (w : Wallet) (r : Reading), D.wallets.lookup userId = some w →
      reservedAmount service unlocked ≤ w.balance →
      D.creditReservations.lookup readingId = none →
      D.walletTransactions.lookup (.reservation readingId) = none →
      D.readings.lookup readingId = some r →
      P () (L ++ (WalletService.reservationWrites userId readingId
        (reservedAmount service unlocked) w ++ drawWrites readingId draws ++
        [.reading readingId (some { r with status := .PENDING, submittedAt := now })]))) :
    (do WalletService.reserveCreditsForReading userId readingId (reservedAmount service unlocked)
        createDraws readingId draws
        markPending readingId now : TxM Unit).wp G D P L := by
  obtain ⟨hwallets, hreservations, hledger, hreadings⟩ := hL
  apply Tx.wp_bind
  apply WalletService.wp_reserveCreditsForReading
  intro w hw hfunds hres hkey
  apply Tx.wp_bind
  apply wp_createDraws
  apply wp_markPending
  intro r hr
  have hr' : D.readings.lookup readingId = some r := by
    simpa [view_append, WalletService.reservationWrites, hreadings] using hr
  have := h w r (hwallets ▸ hw) hfunds (hreservations ▸ hres) (hledger ▸ hkey) hr'
  simpa only [List.append_assoc] using this

theorem wp_submitPalmTx {userId readingId : Id} {service : Service} {now : Time}
    {P : Unit → List RowWrite → Prop}
    (h : ∀ (w : Wallet) (r : Reading), D.wallets.lookup userId = some w →
      reservedAmount service false ≤ w.balance →
      D.creditReservations.lookup readingId = none →
      D.walletTransactions.lookup (.reservation readingId) = none →
      D.readings.lookup readingId = some r →
      P () (submissionWrites userId readingId service false w [] r now)) :
    (submitPalmTx userId readingId service now).wp G D P [] :=
  wp_reserveAndMark false [] ⟨rfl, rfl, rfl, rfl⟩ h

theorem wp_submitTarotTx {userId readingId : Id} {service : Service}
    {draws : List (DrawEngine.TarotDraw TarotDeckCard)} {now : Time}
    {P : Unit → List RowWrite → Prop}
    (h : ∀ (unlocked : Bool) (w : Wallet) (r : Reading),
      (unlocked = true → service.code = AD_UNLOCKABLE_TAROT_SERVICE_CODE ∧ ∃ n,
        D.rewardProgress.lookup (userId, .TAROT_READING_UNLOCK) = some n ∧
        RewardsService.REWARD_ADS_REQUIRED .TAROT_READING_UNLOCK ≤ n) →
      D.wallets.lookup userId = some w → reservedAmount service unlocked ≤ w.balance →
      D.creditReservations.lookup readingId = none →
      D.walletTransactions.lookup (.reservation readingId) = none →
      D.readings.lookup readingId = some r →
      P () (submissionWrites userId readingId service unlocked w draws r now)) :
    (submitTarotTx userId readingId service draws now).wp G D P [] := by
  unfold submitTarotTx
  have paid : (do
      WalletService.reserveCreditsForReading userId readingId (reservedAmount service false)
      createDraws readingId draws
      markPending readingId now : TxM Unit).wp G D P [] :=
    wp_reserveAndMark false draws ⟨rfl, rfl, rfl, rfl⟩ fun w r => h false w r (by simp)
  split
  · rename_i hcode
    apply Tx.wp_bind
    apply RewardsService.wp_tryConsumeUnlock
    · exact paid
    · intro n hn hreq
      exact wp_reserveAndMark true draws ⟨rfl, rfl, rfl, rfl⟩ fun w r =>
        h true w r fun _ => ⟨hcode, n, hn, hreq⟩
  · exact paid

end Rules

end ReadingsService

end TaroTria
