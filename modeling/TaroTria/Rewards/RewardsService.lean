import TaroTria.Rewards.TryConsumeUnlock

/-!
# The rewards service

Sessions of rewarded ads: their creation, the callbacks that complete or expire
them, and the counters and flash offers that a completed ad pays for.

## Implementation notes

`new Date()`, `Date.now()` and the ids are asked for just before the transaction
that uses them, and so is `createdAt`, the time at which the database starts it.
The days of the local time zone are a `Calendar`.
-/

namespace TaroTria

open Transactions

/-- Local time, as `setHours(0, 0, 0, 0)` sees it. -/
structure Calendar where
  startOfDay : Time → Time
  startOfDay_le : ∀ t, startOfDay t ≤ t
  startOfDay_mono : ∀ {t t'}, t ≤ t' → startOfDay t ≤ startOfDay t'
  startOfDay_idem : ∀ t, startOfDay (startOfDay t) = startOfDay t

/-- Universal time. -/
def Calendar.utc : Calendar where
  startOfDay t := t / 86400000 * 86400000
  startOfDay_le t := Nat.div_mul_le_self t _
  startOfDay_mono h := Nat.mul_le_mul_right _ (Nat.div_le_div_right h)
  startOfDay_idem t := by rw [Nat.mul_div_cancel _ (by decide)]

structure ProcessCallbackResult where
  granted : Bool
  reason : Option String
  deriving DecidableEq, Repr

structure RewardSessionSummary where
  id : Id
  rewardType : RewardType
  provider : String
  status : RewardSessionStatus
  expiresAt : Time
  deriving DecidableEq, Repr

structure RewardProgressSummary where
  rewardType : RewardType
  currentCount : Nat
  requiredCount : Nat
  unlocked : Bool
  deriving DecidableEq, Repr

/-- The check of a provider's callback, which gives the id of the session. -/
abbrev AdCallbackVerifier := List (String × String) → Except Err Id

/-- The configuration of the service. -/
structure RewardsConfig where
  verifiersByProvider : String → Option AdCallbackVerifier
  isProduction : Bool
  stubSecret : Option String
  calendar : Calendar

def RewardType.name : RewardType → String
  | .DAILY_CARD_UNLOCK => "DAILY_CARD_UNLOCK"
  | .TAROT_READING_UNLOCK => "TAROT_READING_UNLOCK"
  | .FLASH_OFFER_UNLOCK => "FLASH_OFFER_UNLOCK"

def RewardSessionStatus.name : RewardSessionStatus → String
  | .CREATED => "CREATED"
  | .STARTED => "STARTED"
  | .COMPLETED => "COMPLETED"
  | .EXPIRED => "EXPIRED"
  | .FAILED => "FAILED"
  | .REJECTED => "REJECTED"

/-- `status: { in: ['CREATED', 'STARTED'] }`. -/
def RewardSession.isOpen (session : RewardSession) : Bool :=
  session.status = .CREATED || session.status = .STARTED

/-- The stub provider shares a secret with the backend. -/
def stubAdCallbackVerifier (expectedSecret : Option String) : AdCallbackVerifier :=
  fun rawParams =>
    let sessionId := (rawParams.lookup "sessionId").getD ""
    if sessionId = "" ∨ rawParams.lookup "secret" ≠ expectedSecret then
      .error (.unauthorized "Firma de callback de publicidad inválida.")
    else
      .ok sessionId

namespace RewardsService

def REWARD_SESSION_TTL_SECONDS : Nat := 10 * 60

def FLASH_OFFER_DAILY_LIMIT : Nat := 1

def FLASH_OFFER_PACKAGE_CODE : String := "BASICO_FUEGO"

def FLASH_OFFER_DISCOUNT_PERCENT : Int := 20

def FLASH_OFFER_WINDOW_MINUTES : Nat := 30

def defaultProvider : String := "stub"

def logEvent (type : String) (userId : Id) (metadata : List (String × String)) :
    Request Unit := do
  let id ← Proc.call .randomUUID
  let _ ← Proc.transaction <| Db.analyticsEvent.create id
    { type, shareLinkId := none, userId := some userId, metadata }

/-- The completed ads of a user that count for the day of `now`. -/
def completedToday (K : Calendar) (userId : Id) (now : Time) (t : RewardTransaction) : Bool :=
  t.userId = userId && t.rewardType = .FLASH_OFFER_UNLOCK && K.startOfDay now ≤ t.createdAt

/-- The ads completed on a day have earned as many unlocks as the day allows. -/
def dailyLimitReached (completed : Nat) : Bool :=
  FLASH_OFFER_DAILY_LIMIT ≤ completed / REWARD_ADS_REQUIRED .FLASH_OFFER_UNLOCK

def assertFlashOfferDailyLimitNotExceeded (K : Calendar) (userId : Id) : Request Unit := do
  let now ← Proc.call .now
  let completed ← Proc.transaction <|
    Db.rewardTransaction.count fun _ t => completedToday K userId now t
  if dailyLimitReached completed then
    throw (Err.badRequest "Ya alcanzaste el límite diario de ofertas flash. Vuelve mañana.")

def toRewardSessionSummary (id : Id) (session : RewardSession) : RewardSessionSummary where
  id := id
  rewardType := session.rewardType
  provider := session.provider
  status := session.status
  expiresAt := session.expiresAt

def createSession (K : Calendar) (userId : Id) (rewardType : RewardType) :
    Request RewardSessionSummary := do
  if rewardType = .FLASH_OFFER_UNLOCK then
    assertFlashOfferDailyLimitNotExceeded K userId
  let now ← Proc.call .now
  let id ← Proc.call .randomUUID
  let session ← Proc.transaction <| Db.rewardSession.create id
    { userId, rewardType, provider := defaultProvider, status := .CREATED, completedAt := none,
      expiresAt := now + REWARD_SESSION_TTL_SECONDS * 1000 }
  logEvent "ad_requested" userId
    [("rewardType", rewardType.name), ("provider", session.provider), ("sessionId", id)]
  return toRewardSessionSummary id session

def getProgress (userId : Id) (rewardType : RewardType) : Request RewardProgressSummary := do
  let progress ← Proc.transaction (Db.rewardProgressOf.findUnique (userId, rewardType))
  let requiredCount := REWARD_ADS_REQUIRED rewardType
  let currentCount := progress.getD 0
  return { rewardType, currentCount, requiredCount, unlocked := requiredCount ≤ currentCount }

/-- The offer of a completed cycle of ads. -/
def flashOffer (userId : Id) (offeredAt createdAt : Time) : FlashOfferUnlock where
  userId := userId
  packageCode := FLASH_OFFER_PACKAGE_CODE
  discountPercent := FLASH_OFFER_DISCOUNT_PERCENT
  expiresAt := offeredAt + FLASH_OFFER_WINDOW_MINUTES * 60000
  consumedAt := none
  createdAt := createdAt

/-- The row of the ad that a session has completed. -/
def adTransaction (session : RewardSession) (provider : String) (createdAt : Time) :
    RewardTransaction where
  userId := session.userId
  rewardType := session.rewardType
  rewardAmount := 1
  provider := provider
  createdAt := createdAt

/-- Whether a counter that has come to `currentCount` is a completed cycle of the
flash offer. -/
def completesCycle (rewardType : RewardType) (currentCount : Nat) : Bool :=
  rewardType = .FLASH_OFFER_UNLOCK && REWARD_ADS_REQUIRED .FLASH_OFFER_UNLOCK ≤ currentCount

/-- A completed cycle of the flash offer is paid at once: the counter starts again
and the offer is made. -/
def grantFlashOffer (session : RewardSession) (currentCount : Nat) (offeredAt createdAt : Time)
    (offerId : Id) : TxM Unit := do
  if completesCycle session.rewardType currentCount then
    let _ ← Db.rewardProgressOf.update (session.userId, .FLASH_OFFER_UNLOCK) (fun _ => 0)
    let _ ← Db.flashOfferUnlock.create offerId (flashOffer session.userId offeredAt createdAt)

/-- The transaction of a completed session. -/
def completionTx (sessionId : Id) (session : RewardSession) (provider : String)
    (completedAt offeredAt createdAt : Time) (offerId : Id) : TxM Bool := do
  let updated ← Db.rewardSession.updateMany sessionId RewardSession.isOpen
    (fun s => { s with status := .COMPLETED, completedAt := some completedAt })
  if updated = 0 then
    return false
  let _ ← Db.rewardTransaction.create sessionId (adTransaction session provider createdAt)
  let currentCount ← Db.rewardProgressOf.upsert (session.userId, session.rewardType) 1 (· + 1)
  grantFlashOffer session currentCount offeredAt createdAt offerId
  return true

/-- The transaction of an expired session. -/
def expireSession (sessionId : Id) : TxM Nat :=
  Db.rewardSession.updateMany sessionId RewardSession.isOpen (fun s => { s with status := .EXPIRED })

/-- The end of a callback whose session was still open when it was read. -/
def completeSession (sessionId : Id) (session : RewardSession) (provider : String) :
    Request ProcessCallbackResult := do
  let completedAt ← Proc.call .now
  let offeredAt ← Proc.call .now
  let createdAt ← Proc.call .now
  let offerId ← Proc.call .randomUUID
  let wasCompletedHere ← (Proc.transaction
      (completionTx sessionId session provider completedAt offeredAt createdAt offerId)).handle
    fun
    | .uniqueConstraintViolation => pure false
    | e => throw e
  if !wasCompletedHere then
    return ⟨false, some "already_completed"⟩
  let metadata := [("rewardType", session.rewardType.name), ("sessionId", sessionId),
    ("provider", provider)]
  logEvent "ad_completed" session.userId metadata
  logEvent "reward_granted" session.userId metadata
  return ⟨true, none⟩

def registerCompletedSession (sessionId : Id) (provider : String) :
    Request ProcessCallbackResult := do
  let some session ← Proc.transaction (Db.rewardSession.findUnique sessionId)
    | return ⟨false, some "session_not_found"⟩
  if session.status = .COMPLETED then
    return ⟨false, some "already_completed"⟩
  if session.status ≠ .CREATED ∧ session.status ≠ .STARTED then
    logEvent "reward_rejected" session.userId [("rewardType", session.rewardType.name),
      ("sessionId", sessionId), ("reason", session.status.name)]
    return ⟨false, some "session_not_reusable"⟩
  let now ← Proc.call .now
  if session.expiresAt < now then
    let _ ← Proc.transaction (expireSession sessionId)
    logEvent "reward_session_expired" session.userId
      [("rewardType", session.rewardType.name), ("sessionId", sessionId)]
    return ⟨false, some "session_expired"⟩
  completeSession sessionId session provider

def processProviderCallback (R : RewardsConfig) (providerName : String)
    (rawParams : List (String × String)) : Request ProcessCallbackResult := do
  let some verifier := R.verifiersByProvider providerName
    | throw (Err.notFound
        ("No hay un proveedor de anuncios registrado como \"" ++ providerName ++ "\"."))
  let externalSessionId ← Proc.ofExcept (verifier rawParams)
  registerCompletedSession externalSessionId providerName

/-- The parameters of the callback that stands for the stub provider's. -/
def stubParams (R : RewardsConfig) (sessionId : Id) : List (String × String) :=
  ("sessionId", sessionId) :: (R.stubSecret.map fun secret => ("secret", secret)).toList

def simulateStubCompletion (R : RewardsConfig) (userId sessionId : Id) :
    Request ProcessCallbackResult := do
  if R.isProduction then
    throw (Err.notFound "Not Found")
  let session ← Proc.transaction (Db.rewardSession.findUnique sessionId)
  if (session.filter fun s => s.userId = userId).isNone then
    throw (Err.forbidden "Esta sesión de recompensa no es tuya.")
  processProviderCallback R defaultProvider (stubParams R sessionId)

section Rules

variable {Call : Type} {G : Discipline Db RowWrite RowRef Call} {D : Db} {L : List RowWrite}

/-- The rows of a flash offer that a completed cycle pays for. -/
def offerWrites (userId : Id) (offeredAt createdAt : Time) (offerId : Id) : List RowWrite :=
  [.rewardProgress (userId, .FLASH_OFFER_UNLOCK) (some 0),
   .flashOfferUnlock offerId (some (flashOffer userId offeredAt createdAt))]

/-- The rows of a completed session, whose counter has come to `currentCount`. -/
def completionWrites (sessionId : Id) (session : RewardSession) (provider : String)
    (completedAt offeredAt createdAt : Time) (offerId : Id) (currentCount : Nat) : List RowWrite :=
  [.rewardSession sessionId
      (some { session with status := .COMPLETED, completedAt := some completedAt }),
   .rewardTransaction sessionId (some (adTransaction session provider createdAt)),
   .rewardProgress (session.userId, session.rewardType) (some currentCount)] ++
  if completesCycle session.rewardType currentCount then
    offerWrites session.userId offeredAt createdAt offerId
  else []

/-- The database after a completed session. -/
theorem view_completionWrites (sessionId : Id) (session : RewardSession) (provider : String)
    (completedAt offeredAt createdAt : Time) (offerId : Id) (currentCount : Nat) (D : Db) :
    view (completionWrites sessionId session provider completedAt offeredAt createdAt offerId
      currentCount) D =
    { D with
      rewardSessions := D.rewardSessions.write sessionId
        (some { session with status := .COMPLETED, completedAt := some completedAt })
      rewardTransactions :=
        D.rewardTransactions.write sessionId (some (adTransaction session provider createdAt))
      rewardProgress := if completesCycle session.rewardType currentCount then
        (D.rewardProgress.write (session.userId, session.rewardType) (some currentCount)).write
          (session.userId, .FLASH_OFFER_UNLOCK) (some 0)
        else D.rewardProgress.write (session.userId, session.rewardType) (some currentCount)
      flashOfferUnlocks := if completesCycle session.rewardType currentCount then
        D.flashOfferUnlocks.write offerId (some (flashOffer session.userId offeredAt createdAt))
        else D.flashOfferUnlocks } := by
  unfold completionWrites offerWrites
  cases completesCycle session.rewardType currentCount <;> simp

/-- The counter of a user after one more ad. -/
def nextCount (D : Db) (userId : Id) (rewardType : RewardType) : Nat :=
  (D.rewardProgress.lookup (userId, rewardType)).getD 0 + 1

theorem wp_grantFlashOffer {session : RewardSession} {currentCount : Nat}
    {offeredAt createdAt : Time} {offerId : Id} {P : Unit → List RowWrite → Prop}
    (h : (completesCycle session.rewardType currentCount = true →
        (view L D).flashOfferUnlocks.lookup offerId = none) →
      P () (L ++ if completesCycle session.rewardType currentCount then
        offerWrites session.userId offeredAt createdAt offerId else [])) :
    (grantFlashOffer session currentCount offeredAt createdAt offerId).wp G D P L := by
  unfold grantFlashOffer
  split
  · rename_i hcycle
    apply Tx.wp_bind
    apply Db.rewardProgressOf.wp_update
    intro _ _
    apply Tx.wp_bind
    apply Db.flashOfferUnlock.wp_create
    intro ho
    have := h fun _ => by simpa [view_append] using ho
    simpa [hcycle, offerWrites] using this
  · rename_i hcycle
    simpa [hcycle] using h fun hcycle' => absurd hcycle' hcycle

theorem wp_completionTx {sessionId : Id} {session : RewardSession} {provider : String}
    {completedAt offeredAt createdAt : Time} {offerId : Id} {P : Bool → List RowWrite → Prop}
    (hsame : ∀ row : RewardSession, D.rewardSessions.lookup sessionId = some row →
      row.userId = session.userId ∧ row.rewardType = session.rewardType)
    (h₀ : P false [])
    (h₁ : ∀ row : RewardSession, D.rewardSessions.lookup sessionId = some row →
      row.isOpen = true → D.rewardTransactions.lookup sessionId = none →
      (completesCycle row.rewardType (nextCount D row.userId row.rewardType) = true →
        D.flashOfferUnlocks.lookup offerId = none) →
      P true (completionWrites sessionId row provider completedAt offeredAt createdAt offerId
        (nextCount D row.userId row.rewardType))) :
    (completionTx sessionId session provider completedAt offeredAt createdAt offerId).wp G D P
      [] := by
  unfold completionTx
  apply Tx.wp_bind
  apply Db.rewardSession.wp_updateMany
  · intro _ _ _
    exact h₀
  · intro row hrow hopen
    obtain ⟨huser, htype⟩ := hsame row (by simpa using hrow)
    apply Tx.wp_bind
    apply Db.rewardTransaction.wp_create
    intro ht
    have finish := h₁ row (by simpa using hrow) hopen (by simpa using ht)
    simp only [huser, htype] at finish
    apply Tx.wp_bind
    apply Db.rewardProgressOf.wp_upsert
    · intro hcount
      have hnext : nextCount D session.userId session.rewardType = 1 := by
        rw [nextCount, show D.rewardProgress.lookup (session.userId, session.rewardType) = none by
          simpa using hcount]
        rfl
      rw [hnext] at finish
      apply Tx.wp_bind
      apply wp_grantFlashOffer
      intro ho
      have := finish fun hcycle => by simpa using ho hcycle
      simpa [completionWrites, huser, htype, adTransaction] using this
    · intro currentCount hcount
      have hnext : nextCount D session.userId session.rewardType = currentCount + 1 := by
        rw [nextCount, show D.rewardProgress.lookup (session.userId, session.rewardType) =
          some currentCount by simpa using hcount]
        rfl
      rw [hnext] at finish
      apply Tx.wp_bind
      apply wp_grantFlashOffer
      intro ho
      have := finish fun hcycle => by simpa using ho hcycle
      simpa [completionWrites, huser, htype, adTransaction] using this

theorem wp_expireSession {sessionId : Id} {P : Nat → List RowWrite → Prop} (h₀ : P 0 [])
    (h₁ : ∀ row : RewardSession, D.rewardSessions.lookup sessionId = some row →
      row.isOpen = true →
      P 1 [.rewardSession sessionId (some { row with status := .EXPIRED })]) :
    (expireSession sessionId).wp G D P [] := by
  unfold expireSession
  apply Db.rewardSession.wp_updateMany
  · intro _ _ _
    exact h₀
  · intro row hrow hopen
    exact h₁ row (by simpa using hrow) hopen

end Rules

end RewardsService

end TaroTria
