import TaroTria.Prisma.Schema

/-!
# The database client and the outside world of the services

One delegate for each table that the services write, the exceptions they raise
and the calls they make outside the database.
-/

namespace TaroTria

open Transactions

/-- The exceptions of the services. The first three are Prisma's `P2002`,
`P2025` and any failure of a call; `error` is a plain `Error`. -/
inductive Err
  | uniqueConstraintViolation
  | recordNotFound
  | fault
  | error (message : String)
  | badRequest (message : String)
  | notFound (message : String)
  | unauthorized (message : String)
  | forbidden (message : String)
  | conflict (message : String)
  | readingAlreadySubmitted
  deriving DecidableEq, Repr

instance : SqlError Err where
  uniqueViolation := .uniqueConstraintViolation
  recordNotFound := .recordNotFound
  fault := .fault

structure TarotDeckCard where
  id : Id
  code : String
  name : String
  arcana : ArcanaType
  suit : Option MinorSuit
  uprightMeaning : String
  reversedMeaning : String
  deriving DecidableEq, Repr

structure DailyCardResult where
  date : String
  code : String
  name : String
  arcana : ArcanaType
  suit : Option MinorSuit
  orientation : CardOrientation
  interpretation : String
  disclaimer : String
  deriving DecidableEq, Repr

inductive DailyCardResponse
  | unlocked (result : DailyCardResult)
  | locked (requiredAds : Nat)
  deriving DecidableEq, Repr

structure AIProviderImage where
  base64 : String
  mimeType : String
  deriving DecidableEq, Repr

structure AIProviderRequest where
  systemPrompt : String
  userPrompt : String
  model : String
  temperature : Option Json.Decimal
  maxOutputTokens : Option Nat
  timeoutMs : Nat
  images : List AIProviderImage
  deriving DecidableEq, Repr

/-- An answer of the AI provider; its tokens and latency are figures that nothing here reads. -/
structure AIProviderResponse where
  content : JsString
  model : String
  deriving DecidableEq, Repr

/-- The input of `AiOrchestratorService.execute`; `promptVariables` are the question
and the cards of a tarot prompt, and nothing for a palm prompt. The test of a prompt
has no reading. -/
structure AIOrchestratorExecuteInput where
  promptVersionId : Id
  readingId : Option Id
  promptVariables : List (String × String)
  riskCheckText : String
  images : List AIProviderImage
  deriving DecidableEq, Repr

structure AIOrchestratorExecuteResult where
  aiExecutionId : Id
  status : AIExecutionStatus
  output : Option (Json JsString)
  errorMessage : Option String
  deriving DecidableEq, Repr

structure TransactionResult where
  reference : String
  providerTransactionId : String
  status : TransactionStatus
  amountInCents : Int
  currency : String
  deriving DecidableEq, Repr

structure SendEmailInput where
  toAddress : String
  subject : String
  templateId : String
  context : List (String × String)
  deriving DecidableEq, Repr

/-- The calls of the services outside the database. Five of them hash and verify
passwords with `argon2` and sign and verify the tokens of a session; `cacheGet`
and `cacheSet` are the Redis cache of daily cards; `toPng` is the rendering of
an SVG by `sharp`. -/
inductive Query
  | now
  | randomUUID
  | randomInts (deckSize positions : Nat)
  | activeDeckCards (deckCode : String)
  | publishedVersionId (promptCode : String)
  | headObject (key : String)
  | downloadObject (key : String)
  | deleteObject (key : String)
  | cacheGet (key : String)
  | cacheSet (key : String) (value : DailyCardResponse) (ttlSeconds : Nat)
  | cacheDel (key : String)
  | execute (input : AIOrchestratorExecuteInput)
  | complete (request : AIProviderRequest)
  | fetchTransaction (providerTransactionId : String)
  | hashPassword (password : String)
  | verifyPassword (passwordHash password : String)
  | signAccessToken (sub : Id) (roles : List String)
  | signRefreshToken (sub jti : Id)
  | verifyRefreshToken (rawRefreshToken : String)
  | generateOpaqueToken
  | sendEmail (input : SendEmailInput)
  | roleId (code : String)
  | toPng (svg : String)
  | uploadObject (key : String) (body : Buffer) (contentType : String)
  deriving DecidableEq, Repr

/-- Their answers. `randomInts` gives, for each position, the two numbers that
`draw` takes from `randomInt`; the lookups of a deck, of a prompt version and of
a role may answer with their own exception. `headObject` gives the size of an object in
bytes. `verifyRefreshToken` gives the `sub` of a token
that it accepts. -/
abbrev Answer : Query → Type
  | .now => Time
  | .randomUUID => Id
  | .randomInts _ _ => List (Nat × Nat)
  | .activeDeckCards _ => Except Err (List TarotDeckCard)
  | .publishedVersionId _ => Except Err Id
  | .headObject _ => Option Nat
  | .downloadObject _ => Buffer
  | .deleteObject _ => Unit
  | .cacheGet _ => Option DailyCardResponse
  | .cacheSet _ _ _ => Unit
  | .cacheDel _ => Unit
  | .execute _ => AIOrchestratorExecuteResult
  | .complete _ => AIProviderResponse
  | .fetchTransaction _ => Option TransactionResult
  | .hashPassword _ => String
  | .verifyPassword _ _ => Bool
  | .signAccessToken _ _ => String
  | .signRefreshToken _ _ => String
  | .verifyRefreshToken _ => Option Id
  | .generateOpaqueToken => String
  | .sendEmail _ => Unit
  | .roleId _ => Except Err Id
  | .toPng _ => Buffer
  | .uploadObject _ _ _ => Unit

/-- A body of a Prisma transaction. -/
abbrev TxM := Tx Db RowWrite Err

/-- A request to the backend. -/
abbrev Request := Proc Db RowWrite Err Answer

attribute [simp] Delegate.find

/-- `findFirst` with `orderBy: { createdAt: 'desc' }`, over the matching rows. -/
def newest {K V : Type} (createdAt : V → Time) : List (K × V) → Option (K × V)
  | [] => none
  | row :: rows =>
      match newest createdAt rows with
      | some best => if createdAt row.2 < createdAt best.2 then some best else some row
      | none => some row

theorem newest_eq_none {K V : Type} {createdAt : V → Time} {rows : List (K × V)} :
    newest createdAt rows = none ↔ rows = [] := by
  cases rows with
  | nil => simp [newest]
  | cons first rows =>
      simp only [newest, reduceCtorEq, iff_false]
      split
      · split <;> simp
      · simp

theorem newest_mem {K V : Type} {createdAt : V → Time} {rows : List (K × V)} {row : K × V}
    (h : newest createdAt rows = some row) : row ∈ rows := by
  induction rows generalizing row with
  | nil => simp [newest] at h
  | cons first rows ih =>
      simp only [newest] at h
      split at h
      · rename_i best hbest
        split at h
        · cases h
          exact List.mem_cons_of_mem first (ih hbest)
        · cases h
          exact List.mem_cons_self
      · cases h
        exact List.mem_cons_self

theorem newest_le {K V : Type} {createdAt : V → Time} {rows : List (K × V)} {best row : K × V}
    (h : newest createdAt rows = some best) (hrow : row ∈ rows) :
    createdAt row.2 ≤ createdAt best.2 := by
  induction rows generalizing best with
  | nil => cases hrow
  | cons first rows ih =>
      simp only [newest] at h
      split at h
      · rename_i best' hbest
        split at h
        · rename_i hlt
          cases h
          rcases List.mem_cons.mp hrow with rfl | hrow
          · exact hlt.le
          · exact ih hbest hrow
        · rename_i hle
          cases h
          rcases List.mem_cons.mp hrow with rfl | hrow
          · exact le_rfl
          · exact (ih hbest hrow).trans (not_lt.mp hle)
      · rename_i hnone
        cases h
        rw [newest_eq_none] at hnone
        subst hnone
        rw [List.mem_singleton.mp hrow]

namespace Db

def user : Delegate Db Id User where
  rows := users
  write := .user
  key := .user
  ref_write _ _ := rfl
  rows_apply _ _ _ := rfl
  agree_iff _ _ _ := Iff.rfl

def service : Delegate Db Id Service where
  rows := services
  write := .service
  key := .service
  ref_write _ _ := rfl
  rows_apply _ _ _ := rfl
  agree_iff _ _ _ := Iff.rfl

def refreshToken : Delegate Db String RefreshToken where
  rows := refreshTokens
  write := .refreshToken
  key := .refreshToken
  ref_write _ _ := rfl
  rows_apply _ _ _ := rfl
  agree_iff _ _ _ := Iff.rfl

def palmImage : Delegate Db Id PalmImage where
  rows := palmImages
  write := .palmImage
  key := .palmImage
  ref_write _ _ := rfl
  rows_apply _ _ _ := rfl
  agree_iff _ _ _ := Iff.rfl

def readingInput : Delegate Db Id ReadingInput where
  rows := readingInputs
  write := .readingInput
  key := .readingInput
  ref_write _ _ := rfl
  rows_apply _ _ _ := rfl
  agree_iff _ _ _ := Iff.rfl

def reading : Delegate Db Id Reading where
  rows := readings
  write := .reading
  key := .reading
  ref_write _ _ := rfl
  rows_apply _ _ _ := rfl
  agree_iff _ _ _ := Iff.rfl

def tarotDraw : Delegate Db (Id × String) TarotDraw where
  rows := tarotDraws
  write := .tarotDraw
  key := .tarotDraw
  ref_write _ _ := rfl
  rows_apply _ _ _ := rfl
  agree_iff _ _ _ := Iff.rfl

def rewardProgressOf : Delegate Db (Id × RewardType) Nat where
  rows := rewardProgress
  write := .rewardProgress
  key := .rewardProgress
  ref_write _ _ := rfl
  rows_apply _ _ _ := rfl
  agree_iff _ _ _ := Iff.rfl

def wallet : Delegate Db Id Wallet where
  rows := wallets
  write := .wallet
  key := .wallet
  ref_write _ _ := rfl
  rows_apply _ _ _ := rfl
  agree_iff _ _ _ := Iff.rfl

def walletTransaction : Delegate Db IdempotencyKey WalletTransaction where
  rows := walletTransactions
  write := .walletTransaction
  key := .walletTransaction
  ref_write _ _ := rfl
  rows_apply _ _ _ := rfl
  agree_iff _ _ _ := Iff.rfl

def creditReservation : Delegate Db Id CreditReservation where
  rows := creditReservations
  write := .creditReservation
  key := .creditReservation
  ref_write _ _ := rfl
  rows_apply _ _ _ := rfl
  agree_iff _ _ _ := Iff.rfl

def auditLog : Delegate Db Id AuditLog where
  rows := auditLogs
  write := .auditLog
  key := .auditLog
  ref_write _ _ := rfl
  rows_apply _ _ _ := rfl
  agree_iff _ _ _ := Iff.rfl

def flashOfferUnlock : Delegate Db Id FlashOfferUnlock where
  rows := flashOfferUnlocks
  write := .flashOfferUnlock
  key := .flashOfferUnlock
  ref_write _ _ := rfl
  rows_apply _ _ _ := rfl
  agree_iff _ _ _ := Iff.rfl

def order : Delegate Db Id Order where
  rows := orders
  write := .order
  key := .order
  ref_write _ _ := rfl
  rows_apply _ _ _ := rfl
  agree_iff _ _ _ := Iff.rfl

def payment : Delegate Db (String × String) Payment where
  rows := payments
  write := .payment
  key := .payment
  ref_write _ _ := rfl
  rows_apply _ _ _ := rfl
  agree_iff _ _ _ := Iff.rfl

def webhookEvent : Delegate Db (String × String) WebhookEvent where
  rows := webhookEvents
  write := .webhookEvent
  key := .webhookEvent
  ref_write _ _ := rfl
  rows_apply _ _ _ := rfl
  agree_iff _ _ _ := Iff.rfl

def readingJob : Delegate Db String ReadingJob where
  rows := readingJobs
  write := .readingJob
  key := .readingJob
  ref_write _ _ := rfl
  rows_apply _ _ _ := rfl
  agree_iff _ _ _ := Iff.rfl

def verificationToken : Delegate Db String VerificationToken where
  rows := verificationTokens
  write := .verificationToken
  key := .verificationToken
  ref_write _ _ := rfl
  rows_apply _ _ _ := rfl
  agree_iff _ _ _ := Iff.rfl

def rewardSession : Delegate Db Id RewardSession where
  rows := rewardSessions
  write := .rewardSession
  key := .rewardSession
  ref_write _ _ := rfl
  rows_apply _ _ _ := rfl
  agree_iff _ _ _ := Iff.rfl

def rewardTransaction : Delegate Db Id RewardTransaction where
  rows := rewardTransactions
  write := .rewardTransaction
  key := .rewardTransaction
  ref_write _ _ := rfl
  rows_apply _ _ _ := rfl
  agree_iff _ _ _ := Iff.rfl

def shareLink : Delegate Db Id ShareLink where
  rows := shareLinks
  write := .shareLink
  key := .shareLink
  ref_write _ _ := rfl
  rows_apply _ _ _ := rfl
  agree_iff _ _ _ := Iff.rfl

def analyticsEvent : Delegate Db Id AnalyticsEvent where
  rows := analyticsEvents
  write := .analyticsEvent
  key := .analyticsEvent
  ref_write _ _ := rfl
  rows_apply _ _ _ := rfl
  agree_iff _ _ _ := Iff.rfl

def imageAnalysisJob : Delegate Db String Id where
  rows := imageAnalysisJobs
  write := .imageAnalysisJob
  key := .imageAnalysisJob
  ref_write _ _ := rfl
  rows_apply _ _ _ := rfl
  agree_iff _ _ _ := Iff.rfl

def shareImageJob : Delegate Db String Id where
  rows := shareImageJobs
  write := .shareImageJob
  key := .shareImageJob
  ref_write _ _ := rfl
  rows_apply _ _ _ := rfl
  agree_iff _ _ _ := Iff.rfl

def serviceForm : Delegate Db (Id × Nat) ServiceForm where
  rows := serviceForms
  write := .serviceForm
  key := .serviceForm
  ref_write _ _ := rfl
  rows_apply _ _ _ := rfl
  agree_iff _ _ _ := Iff.rfl

def prompt : Delegate Db String Prompt where
  rows := prompts
  write := .prompt
  key := .prompt
  ref_write _ _ := rfl
  rows_apply _ _ _ := rfl
  agree_iff _ _ _ := Iff.rfl

def promptVersion : Delegate Db (String × Nat) PromptVersion where
  rows := promptVersions
  write := .promptVersion
  key := .promptVersion
  ref_write _ _ := rfl
  rows_apply _ _ _ := rfl
  agree_iff _ _ _ := Iff.rfl

def aiExecution : Delegate Db Id AIExecution where
  rows := aiExecutions
  write := .aiExecution
  key := .aiExecution
  ref_write _ _ := rfl
  rows_apply _ _ _ := rfl
  agree_iff _ _ _ := Iff.rfl

def object : Delegate Db String Buffer where
  rows := objects
  write := .object
  key := .object
  ref_write _ _ := rfl
  rows_apply _ _ _ := rfl
  agree_iff _ _ _ := Iff.rfl

def clockRow : Delegate Db Unit Time where
  rows := clock
  write := .clock
  key := .clock
  ref_write _ _ := rfl
  rows_apply _ _ _ := rfl
  agree_iff _ _ _ := Iff.rfl

@[simp] theorem user_rows : user.rows = users := rfl
@[simp] theorem user_write : user.write = RowWrite.user := rfl
@[simp] theorem service_rows : service.rows = services := rfl
@[simp] theorem service_write : service.write = RowWrite.service := rfl
@[simp] theorem refreshToken_rows : refreshToken.rows = refreshTokens := rfl
@[simp] theorem refreshToken_write : refreshToken.write = RowWrite.refreshToken := rfl
@[simp] theorem palmImage_rows : palmImage.rows = palmImages := rfl
@[simp] theorem palmImage_write : palmImage.write = RowWrite.palmImage := rfl
@[simp] theorem readingInput_rows : readingInput.rows = readingInputs := rfl
@[simp] theorem readingInput_write : readingInput.write = RowWrite.readingInput := rfl
@[simp] theorem reading_rows : reading.rows = readings := rfl
@[simp] theorem reading_write : reading.write = RowWrite.reading := rfl
@[simp] theorem tarotDraw_rows : tarotDraw.rows = tarotDraws := rfl
@[simp] theorem tarotDraw_write : tarotDraw.write = RowWrite.tarotDraw := rfl
@[simp] theorem rewardProgressOf_rows : rewardProgressOf.rows = rewardProgress := rfl
@[simp] theorem rewardProgressOf_write : rewardProgressOf.write = RowWrite.rewardProgress := rfl
@[simp] theorem wallet_rows : wallet.rows = wallets := rfl
@[simp] theorem wallet_write : wallet.write = RowWrite.wallet := rfl
@[simp] theorem walletTransaction_rows : walletTransaction.rows = walletTransactions := rfl
@[simp] theorem walletTransaction_write : walletTransaction.write = RowWrite.walletTransaction := rfl
@[simp] theorem creditReservation_rows : creditReservation.rows = creditReservations := rfl
@[simp] theorem creditReservation_write : creditReservation.write = RowWrite.creditReservation := rfl
@[simp] theorem auditLog_rows : auditLog.rows = auditLogs := rfl
@[simp] theorem auditLog_write : auditLog.write = RowWrite.auditLog := rfl
@[simp] theorem flashOfferUnlock_rows : flashOfferUnlock.rows = flashOfferUnlocks := rfl
@[simp] theorem flashOfferUnlock_write : flashOfferUnlock.write = RowWrite.flashOfferUnlock := rfl
@[simp] theorem order_rows : order.rows = orders := rfl
@[simp] theorem order_write : order.write = RowWrite.order := rfl
@[simp] theorem payment_rows : payment.rows = payments := rfl
@[simp] theorem payment_write : payment.write = RowWrite.payment := rfl
@[simp] theorem webhookEvent_rows : webhookEvent.rows = webhookEvents := rfl
@[simp] theorem webhookEvent_write : webhookEvent.write = RowWrite.webhookEvent := rfl
@[simp] theorem readingJob_rows : readingJob.rows = readingJobs := rfl
@[simp] theorem readingJob_write : readingJob.write = RowWrite.readingJob := rfl
@[simp] theorem verificationToken_rows : verificationToken.rows = verificationTokens := rfl
@[simp] theorem verificationToken_write : verificationToken.write = RowWrite.verificationToken := rfl
@[simp] theorem rewardSession_rows : rewardSession.rows = rewardSessions := rfl
@[simp] theorem rewardSession_write : rewardSession.write = RowWrite.rewardSession := rfl
@[simp] theorem rewardTransaction_rows : rewardTransaction.rows = rewardTransactions := rfl
@[simp] theorem rewardTransaction_write : rewardTransaction.write = RowWrite.rewardTransaction := rfl
@[simp] theorem shareLink_rows : shareLink.rows = shareLinks := rfl
@[simp] theorem shareLink_write : shareLink.write = RowWrite.shareLink := rfl
@[simp] theorem analyticsEvent_rows : analyticsEvent.rows = analyticsEvents := rfl
@[simp] theorem analyticsEvent_write : analyticsEvent.write = RowWrite.analyticsEvent := rfl
@[simp] theorem imageAnalysisJob_rows : imageAnalysisJob.rows = imageAnalysisJobs := rfl
@[simp] theorem imageAnalysisJob_write : imageAnalysisJob.write = RowWrite.imageAnalysisJob := rfl
@[simp] theorem shareImageJob_rows : shareImageJob.rows = shareImageJobs := rfl
@[simp] theorem shareImageJob_write : shareImageJob.write = RowWrite.shareImageJob := rfl
@[simp] theorem serviceForm_rows : serviceForm.rows = serviceForms := rfl
@[simp] theorem serviceForm_write : serviceForm.write = RowWrite.serviceForm := rfl
@[simp] theorem prompt_rows : prompt.rows = prompts := rfl
@[simp] theorem prompt_write : prompt.write = RowWrite.prompt := rfl
@[simp] theorem promptVersion_rows : promptVersion.rows = promptVersions := rfl
@[simp] theorem promptVersion_write : promptVersion.write = RowWrite.promptVersion := rfl
@[simp] theorem aiExecution_rows : aiExecution.rows = aiExecutions := rfl
@[simp] theorem aiExecution_write : aiExecution.write = RowWrite.aiExecution := rfl
@[simp] theorem object_rows : object.rows = objects := rfl
@[simp] theorem object_write : object.write = RowWrite.object := rfl
@[simp] theorem clockRow_rows : clockRow.rows = clock := rfl
@[simp] theorem clockRow_write : clockRow.write = RowWrite.clock := rfl

end Db

@[simp] theorem apply_eq (w : RowWrite) (D : Db) : RowStore.apply w D = w.apply D := rfl

end TaroTria
