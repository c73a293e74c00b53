import TaroTria.Json.Value
import TaroTria.Storage.ImageValidation
import TaroTria.Transactions.Delegate

/-!
# The tables behind the services

The rows of `schema.prisma` that wallets, readings, orders, payments, sessions,
rewards, share links, forms and prompts read or write, the jobs in the Redis
queues, the objects in the bucket and, in one row, the clock. A table is addressed by a
unique key of the schema.

## Implementation notes

`Wallet` is addressed by its unique `userId` and `Payment` by its unique
`(provider, providerReference)`, `RefreshToken` by its unique `tokenHash`, which
`replacedBy` then names too, `VerificationToken` by its unique `tokenHash` and
`RewardTransaction` by its unique `rewardSessionId`; the surrogate `id` of these
rows would only rename the address. `WalletTransaction` is addressed by its unique
`idempotencyKey`. `Prompt` is addressed by its unique `code`, which stands for
its id, `PromptVersion` by its unique `(promptId, version)` and `ServiceForm` by
its unique `(serviceId, version)`. Credits that are only ever non-negative
integers are `Nat`.
-/

namespace TaroTria

open Transactions

/-- A UUID, compared by equality only. -/
abbrev Id := String

/-- Milliseconds. -/
abbrev Time := Nat

inductive ReadingStatus
  | DRAFT | PENDING | PROCESSING | COMPLETED | FAILED | REFUNDED | CANCELLED
  deriving DecidableEq, Repr

inductive CardOrientation
  | UPRIGHT | REVERSED
  deriving DecidableEq, Repr

inductive ArcanaType
  | MAJOR | MINOR
  deriving DecidableEq, Repr

inductive MinorSuit
  | WANDS | CUPS | SWORDS | PENTACLES
  deriving DecidableEq, Repr

inductive PalmImageStatus
  | UPLOADED | PENDING_REVIEW | VALID | INVALID
  deriving DecidableEq, Repr

/-- `PENDING` is never the outcome of an execution. -/
inductive AIExecutionStatus
  | PENDING | COMPLETED | FAILED
  deriving DecidableEq, Repr

inductive PromptVersionStatus
  | DRAFT | PUBLISHED | ARCHIVED
  deriving DecidableEq, Repr

inductive WalletTransactionType
  | PURCHASE | RESERVATION | CONSUMPTION | RELEASE | REFUND | BONUS | PROMOTION | REFERRAL
  | ADJUSTMENT
  deriving DecidableEq, Repr

inductive CreditReservationStatus
  | ACTIVE | CONSUMED | RELEASED
  deriving DecidableEq, Repr

inductive OrderStatus
  | PENDING | PAID | CANCELLED | REFUNDED
  deriving DecidableEq, Repr

inductive PaymentStatus
  | PENDING | APPROVED | DECLINED | FAILED | REFUNDED
  deriving DecidableEq, Repr

inductive RewardType
  | DAILY_CARD_UNLOCK | TAROT_READING_UNLOCK | FLASH_OFFER_UNLOCK
  deriving DecidableEq, Repr

/-- The status of a transaction as the payment provider reports it. -/
inductive TransactionStatus
  | PENDING | APPROVED | DECLINED | ERROR | VOIDED
  deriving DecidableEq, Repr

inductive RewardSessionStatus
  | CREATED | STARTED | COMPLETED | EXPIRED | FAILED | REJECTED
  deriving DecidableEq, Repr

inductive ShareImageStatus
  | PENDING | READY | FAILED
  deriving DecidableEq, Repr

inductive VerificationTokenPurpose
  | EMAIL_VERIFICATION | PASSWORD_RESET
  deriving DecidableEq, Repr

inductive UserStatus
  | ACTIVE | BLOCKED | DELETED
  deriving DecidableEq, Repr

/-- A user with the codes of their roles. -/
structure User where
  email : String
  name : String
  passwordHash : String
  status : UserStatus
  emailVerifiedAt : Option Time
  createdAt : Time
  roles : List String
  deriving DecidableEq, Repr

structure RefreshToken where
  userId : Id
  expiresAt : Time
  revokedAt : Option Time
  replacedBy : Option String
  deriving DecidableEq, Repr

structure VerificationToken where
  userId : Id
  purpose : VerificationTokenPurpose
  expiresAt : Time
  usedAt : Option Time
  deriving DecidableEq, Repr

structure Service where
  code : String
  name : String
  description : Option String
  creditCost : Nat
  isActive : Bool
  deriving DecidableEq, Repr

structure DynamicFormField where
  key : String
  label : String
  required : Bool
  minLength : Option Int
  maxLength : Option Int
  options : Option (List String)
  deriving DecidableEq, Repr

/-- The `schema` of a form. The column holds any JSON; a value with an array of
`fields` is taken to have the fields of the interface. -/
inductive FormSchema
  | dynamic (fields : List DynamicFormField)
  | other
  deriving DecidableEq, Repr

structure ServiceForm where
  schema : FormSchema
  isActive : Bool
  deriving DecidableEq, Repr

structure TarotCard where
  name : String
  arcana : ArcanaType
  suit : Option MinorSuit
  deriving DecidableEq, Repr

structure TarotSpreadPosition where
  code : String
  label : String
  orderIndex : Int
  deriving DecidableEq, Repr

/-- A spread with its positions, whose codes are distinct by
`@@unique([spreadId, code])`. -/
structure TarotSpread where
  code : String
  isActive : Bool
  positions : List TarotSpreadPosition
  nodup : (positions.map TarotSpreadPosition.code).Nodup
  deriving DecidableEq

structure Reading where
  userId : Id
  serviceId : Id
  spreadId : Option Id
  promptVersionId : Option Id
  status : ReadingStatus
  submittedAt : Option Time
  deriving DecidableEq, Repr

structure ReadingInput where
  formVersion : Nat
  answers : List (String × Json String)
  deriving DecidableEq, Repr

/-- The question of the answers, which the jobs use when it is a string. -/
def ReadingInput.question (input : ReadingInput) : Option String :=
  match input.answers.lookup "question" with
  | some (.str question) => some question
  | _ => none

structure PalmImage where
  readingId : Id
  storageKey : String
  status : PalmImageStatus
  mimeType : Option String
  createdAt : Time
  sizeBytes : Option Nat
  widthPx : Option Nat
  heightPx : Option Nat
  validationError : Option String
  consentAt : Option Time
  expiresAt : Option Time
  deletedAt : Option Time
  deriving DecidableEq, Repr

/-- The draw of one position of a reading, addressed by
`@@unique([readingId, position])`. -/
structure TarotDraw where
  cardId : Id
  orientation : CardOrientation
  deriving DecidableEq, Repr

structure Prompt where
  name : String
  deriving DecidableEq, Repr

/-- What the author of a prompt version writes. -/
structure PromptVersionContent where
  systemPrompt : String
  userPromptTemplate : String
  model : String
  temperature : Option Json.Decimal
  maxOutputTokens : Option Nat
  outputSchema : List (String × Json String)
  deriving DecidableEq, Repr

structure PromptVersion where
  id : Id
  content : PromptVersionContent
  status : PromptVersionStatus
  authorId : Option Id
  publishedAt : Option Time
  deriving DecidableEq, Repr

/-- An execution of a prompt version; its tokens, latency and cost are figures
that nothing here reads. -/
structure AIExecution where
  promptVersionId : Id
  readingId : Option Id
  provider : String
  model : String
  status : AIExecutionStatus
  inputSummary : List (String × String)
  outputJson : Option (Json JsString)
  errorMessage : Option String
  createdAt : Time
  deriving DecidableEq, Repr

structure Wallet where
  balance : Int
  deriving DecidableEq, Repr

/-- The balance fits its `INTEGER` column. Only the upper end can be passed: a balance is
lowered by no more than it holds. -/
def Wallet.fits (w : Wallet) : Bool := w.balance ≤ 2147483647

/-- The idempotency keys that the services build, each a fixed prefix followed
by an id: `bonus:<userId>`, `reservation:<readingId>` and so on. -/
inductive IdempotencyKey
  | bonus (userId : Id)
  | reservation (readingId : Id)
  | consumption (readingId : Id)
  | release (readingId : Id)
  | purchase (orderId : Id)
  | adjustment (uuid : Id)
  deriving DecidableEq, Repr

/-- A ledger row; `walletId` is the owner of the wallet. -/
structure WalletTransaction where
  walletId : Id
  type : WalletTransactionType
  amount : Int
  balanceAfter : Int
  readingId : Option Id
  orderId : Option Id
  deriving DecidableEq, Repr

structure CreditReservation where
  walletId : Id
  amount : Nat
  status : CreditReservationStatus
  deriving DecidableEq, Repr

structure CreditPackage where
  id : Id
  credits : Nat
  priceCents : Int
  currency : String
  isActive : Bool
  deriving DecidableEq, Repr

structure Order where
  userId : Id
  creditPackageId : Id
  credits : Nat
  priceCents : Int
  discountAppliedPercent : Option Int
  currency : String
  status : OrderStatus
  deriving DecidableEq, Repr

structure Payment where
  orderId : Id
  providerTransactionId : Option String
  status : PaymentStatus
  amountCents : Int
  currency : String
  createdAt : Time
  deriving DecidableEq, Repr

structure WebhookEvent where
  eventType : TransactionStatus
  deriving DecidableEq, Repr

structure FlashOfferUnlock where
  userId : Id
  packageCode : String
  discountPercent : Int
  expiresAt : Time
  consumedAt : Option Time
  createdAt : Time
  deriving DecidableEq, Repr

structure RewardSession where
  userId : Id
  rewardType : RewardType
  provider : String
  status : RewardSessionStatus
  completedAt : Option Time
  expiresAt : Time
  deriving DecidableEq, Repr

structure RewardTransaction where
  userId : Id
  rewardType : RewardType
  rewardAmount : Nat
  provider : String
  createdAt : Time
  deriving DecidableEq, Repr

structure ShareLink where
  readingId : Id
  imageKey : Option String
  imageStatus : ShareImageStatus
  revokedAt : Option Time
  deriving DecidableEq, Repr

/-- An event with the fields of its metadata. -/
structure AnalyticsEvent where
  type : String
  shareLinkId : Option Id
  userId : Option Id
  metadata : List (String × String)
  deriving DecidableEq, Repr

structure AuditLog where
  actorUserId : Id
  action : String
  targetType : String
  targetId : Id
  reason : String
  amount : Int
  balanceAfter : Int
  deriving DecidableEq, Repr

/-- The queue job that processes a reading, by the job name. -/
inductive ReadingJobName
  | PROCESS_TAROT | PROCESS_PALM
  deriving DecidableEq, Repr

structure ReadingJob where
  name : ReadingJobName
  readingId : Id
  deriving DecidableEq, Repr

structure Db where
  users : Table Id User
  services : Table Id Service
  tarotCards : Table Id TarotCard
  tarotSpreads : Table Id TarotSpread
  creditPackages : Table String CreditPackage
  refreshTokens : Table String RefreshToken
  palmImages : Table Id PalmImage
  readingInputs : Table Id ReadingInput
  readings : Table Id Reading
  tarotDraws : Table (Id × String) TarotDraw
  rewardProgress : Table (Id × RewardType) Nat
  wallets : Table Id Wallet
  walletTransactions : Table IdempotencyKey WalletTransaction
  creditReservations : Table Id CreditReservation
  auditLogs : Table Id AuditLog
  flashOfferUnlocks : Table Id FlashOfferUnlock
  orders : Table Id Order
  payments : Table (String × String) Payment
  webhookEvents : Table (String × String) WebhookEvent
  readingJobs : Table String ReadingJob
  verificationTokens : Table String VerificationToken
  rewardSessions : Table Id RewardSession
  rewardTransactions : Table Id RewardTransaction
  shareLinks : Table Id ShareLink
  analyticsEvents : Table Id AnalyticsEvent
  imageAnalysisJobs : Table String Id
  shareImageJobs : Table String Id
  serviceForms : Table (Id × Nat) ServiceForm
  prompts : Table String Prompt
  promptVersions : Table (String × Nat) PromptVersion
  aiExecutions : Table Id AIExecution
  objects : Table String Buffer
  clock : Table Unit Time

/-- A database without rows. -/
def Db.empty : Db :=
  ⟨∅, ∅, ∅, ∅, ∅, ∅, ∅, ∅, ∅, ∅, ∅, ∅, ∅, ∅, ∅, ∅, ∅, ∅, ∅, ∅, ∅, ∅, ∅, ∅, ∅, ∅, ∅, ∅, ∅, ∅, ∅, ∅, ∅⟩

/-- The write of one row: its key and its new content, or nothing for a removal. -/
inductive RowWrite
  | user (id : Id) (row : Option User)
  | service (id : Id) (row : Option Service)
  | refreshToken (tokenHash : String) (row : Option RefreshToken)
  | palmImage (id : Id) (row : Option PalmImage)
  | readingInput (readingId : Id) (row : Option ReadingInput)
  | reading (id : Id) (row : Option Reading)
  | tarotDraw (key : Id × String) (row : Option TarotDraw)
  | rewardProgress (key : Id × RewardType) (row : Option Nat)
  | wallet (userId : Id) (row : Option Wallet)
  | walletTransaction (key : IdempotencyKey) (row : Option WalletTransaction)
  | creditReservation (readingId : Id) (row : Option CreditReservation)
  | auditLog (id : Id) (row : Option AuditLog)
  | flashOfferUnlock (id : Id) (row : Option FlashOfferUnlock)
  | order (id : Id) (row : Option Order)
  | payment (key : String × String) (row : Option Payment)
  | webhookEvent (key : String × String) (row : Option WebhookEvent)
  | readingJob (jobId : String) (row : Option ReadingJob)
  | verificationToken (tokenHash : String) (row : Option VerificationToken)
  | rewardSession (id : Id) (row : Option RewardSession)
  | rewardTransaction (rewardSessionId : Id) (row : Option RewardTransaction)
  | shareLink (id : Id) (row : Option ShareLink)
  | analyticsEvent (id : Id) (row : Option AnalyticsEvent)
  | imageAnalysisJob (jobId : String) (row : Option Id)
  | shareImageJob (jobId : String) (row : Option Id)
  | serviceForm (key : Id × Nat) (row : Option ServiceForm)
  | prompt (code : String) (row : Option Prompt)
  | promptVersion (key : String × Nat) (row : Option PromptVersion)
  | aiExecution (id : Id) (row : Option AIExecution)
  | object (key : String) (row : Option Buffer)
  | clock (key : Unit) (row : Option Time)
  deriving DecidableEq

/-- The address of a row, which is also its lock. -/
inductive RowRef
  | user (id : Id)
  | service (id : Id)
  | refreshToken (tokenHash : String)
  | palmImage (id : Id)
  | readingInput (readingId : Id)
  | reading (id : Id)
  | tarotDraw (key : Id × String)
  | rewardProgress (key : Id × RewardType)
  | wallet (userId : Id)
  | walletTransaction (key : IdempotencyKey)
  | creditReservation (readingId : Id)
  | auditLog (id : Id)
  | flashOfferUnlock (id : Id)
  | order (id : Id)
  | payment (key : String × String)
  | webhookEvent (key : String × String)
  | readingJob (jobId : String)
  | verificationToken (tokenHash : String)
  | rewardSession (id : Id)
  | rewardTransaction (rewardSessionId : Id)
  | shareLink (id : Id)
  | analyticsEvent (id : Id)
  | imageAnalysisJob (jobId : String)
  | shareImageJob (jobId : String)
  | serviceForm (key : Id × Nat)
  | prompt (code : String)
  | promptVersion (key : String × Nat)
  | aiExecution (id : Id)
  | object (key : String)
  | clock (key : Unit)
  deriving DecidableEq

namespace RowWrite

def ref : RowWrite → RowRef
  | user id _ => .user id
  | service id _ => .service id
  | refreshToken tokenHash _ => .refreshToken tokenHash
  | palmImage id _ => .palmImage id
  | readingInput id _ => .readingInput id
  | reading id _ => .reading id
  | tarotDraw key _ => .tarotDraw key
  | rewardProgress key _ => .rewardProgress key
  | wallet userId _ => .wallet userId
  | walletTransaction key _ => .walletTransaction key
  | creditReservation id _ => .creditReservation id
  | auditLog id _ => .auditLog id
  | flashOfferUnlock id _ => .flashOfferUnlock id
  | order id _ => .order id
  | payment key _ => .payment key
  | webhookEvent key _ => .webhookEvent key
  | readingJob id _ => .readingJob id
  | verificationToken tokenHash _ => .verificationToken tokenHash
  | rewardSession id _ => .rewardSession id
  | rewardTransaction rewardSessionId _ => .rewardTransaction rewardSessionId
  | shareLink id _ => .shareLink id
  | analyticsEvent id _ => .analyticsEvent id
  | imageAnalysisJob jobId _ => .imageAnalysisJob jobId
  | shareImageJob jobId _ => .shareImageJob jobId
  | serviceForm key _ => .serviceForm key
  | prompt code _ => .prompt code
  | promptVersion key _ => .promptVersion key
  | aiExecution id _ => .aiExecution id
  | object key _ => .object key
  | clock key _ => .clock key

@[simp] def apply : RowWrite → Db → Db
  | user k v, D => { D with users := D.users.write k v }
  | service k v, D => { D with services := D.services.write k v }
  | refreshToken k v, D => { D with refreshTokens := D.refreshTokens.write k v }
  | palmImage k v, D => { D with palmImages := D.palmImages.write k v }
  | readingInput k v, D => { D with readingInputs := D.readingInputs.write k v }
  | reading k v, D => { D with readings := D.readings.write k v }
  | tarotDraw k v, D => { D with tarotDraws := D.tarotDraws.write k v }
  | rewardProgress k v, D => { D with rewardProgress := D.rewardProgress.write k v }
  | wallet k v, D => { D with wallets := D.wallets.write k v }
  | walletTransaction k v, D => { D with walletTransactions := D.walletTransactions.write k v }
  | creditReservation k v, D => { D with creditReservations := D.creditReservations.write k v }
  | auditLog k v, D => { D with auditLogs := D.auditLogs.write k v }
  | flashOfferUnlock k v, D => { D with flashOfferUnlocks := D.flashOfferUnlocks.write k v }
  | order k v, D => { D with orders := D.orders.write k v }
  | payment k v, D => { D with payments := D.payments.write k v }
  | webhookEvent k v, D => { D with webhookEvents := D.webhookEvents.write k v }
  | readingJob k v, D => { D with readingJobs := D.readingJobs.write k v }
  | verificationToken k v, D => { D with verificationTokens := D.verificationTokens.write k v }
  | rewardSession k v, D => { D with rewardSessions := D.rewardSessions.write k v }
  | rewardTransaction k v, D => { D with rewardTransactions := D.rewardTransactions.write k v }
  | shareLink k v, D => { D with shareLinks := D.shareLinks.write k v }
  | analyticsEvent k v, D => { D with analyticsEvents := D.analyticsEvents.write k v }
  | imageAnalysisJob k v, D => { D with imageAnalysisJobs := D.imageAnalysisJobs.write k v }
  | shareImageJob k v, D => { D with shareImageJobs := D.shareImageJobs.write k v }
  | serviceForm k v, D => { D with serviceForms := D.serviceForms.write k v }
  | prompt k v, D => { D with prompts := D.prompts.write k v }
  | promptVersion k v, D => { D with promptVersions := D.promptVersions.write k v }
  | aiExecution k v, D => { D with aiExecutions := D.aiExecutions.write k v }
  | object k v, D => { D with objects := D.objects.write k v }
  | clock k v, D => { D with clock := D.clock.write k v }

end RowWrite

/-- Two databases have the same row at an address. -/
def RowRef.Agree : RowRef → Db → Db → Prop
  | .user k, D, D' => D.users.lookup k = D'.users.lookup k
  | .service k, D, D' => D.services.lookup k = D'.services.lookup k
  | .refreshToken k, D, D' => D.refreshTokens.lookup k = D'.refreshTokens.lookup k
  | .palmImage k, D, D' => D.palmImages.lookup k = D'.palmImages.lookup k
  | .readingInput k, D, D' => D.readingInputs.lookup k = D'.readingInputs.lookup k
  | .reading k, D, D' => D.readings.lookup k = D'.readings.lookup k
  | .tarotDraw k, D, D' => D.tarotDraws.lookup k = D'.tarotDraws.lookup k
  | .rewardProgress k, D, D' => D.rewardProgress.lookup k = D'.rewardProgress.lookup k
  | .wallet k, D, D' => D.wallets.lookup k = D'.wallets.lookup k
  | .walletTransaction k, D, D' =>
      D.walletTransactions.lookup k = D'.walletTransactions.lookup k
  | .creditReservation k, D, D' =>
      D.creditReservations.lookup k = D'.creditReservations.lookup k
  | .auditLog k, D, D' => D.auditLogs.lookup k = D'.auditLogs.lookup k
  | .flashOfferUnlock k, D, D' => D.flashOfferUnlocks.lookup k = D'.flashOfferUnlocks.lookup k
  | .order k, D, D' => D.orders.lookup k = D'.orders.lookup k
  | .payment k, D, D' => D.payments.lookup k = D'.payments.lookup k
  | .webhookEvent k, D, D' => D.webhookEvents.lookup k = D'.webhookEvents.lookup k
  | .readingJob k, D, D' => D.readingJobs.lookup k = D'.readingJobs.lookup k
  | .verificationToken k, D, D' => D.verificationTokens.lookup k = D'.verificationTokens.lookup k
  | .rewardSession k, D, D' => D.rewardSessions.lookup k = D'.rewardSessions.lookup k
  | .rewardTransaction k, D, D' => D.rewardTransactions.lookup k = D'.rewardTransactions.lookup k
  | .shareLink k, D, D' => D.shareLinks.lookup k = D'.shareLinks.lookup k
  | .analyticsEvent k, D, D' => D.analyticsEvents.lookup k = D'.analyticsEvents.lookup k
  | .imageAnalysisJob k, D, D' => D.imageAnalysisJobs.lookup k = D'.imageAnalysisJobs.lookup k
  | .shareImageJob k, D, D' => D.shareImageJobs.lookup k = D'.shareImageJobs.lookup k
  | .serviceForm k, D, D' => D.serviceForms.lookup k = D'.serviceForms.lookup k
  | .prompt k, D, D' => D.prompts.lookup k = D'.prompts.lookup k
  | .promptVersion k, D, D' => D.promptVersions.lookup k = D'.promptVersions.lookup k
  | .aiExecution k, D, D' => D.aiExecutions.lookup k = D'.aiExecutions.lookup k
  | .object k, D, D' => D.objects.lookup k = D'.objects.lookup k
  | .clock k, D, D' => D.clock.lookup k = D'.clock.lookup k

instance : RowStore Db RowWrite RowRef where
  apply := RowWrite.apply
  ref := RowWrite.ref
  Agree := RowRef.Agree
  agree_refl r D := by cases r <;> rfl
  agree_trans {r D₁ D₂ D₃} h₁ h₂ := by cases r <;> exact Eq.trans h₁ h₂
  agree_apply {r D₁ D₂} w h := by
    -- A write of another table leaves the table of `r` as it was.
    cases r <;> cases w <;>
      first
        | exact h
        | exact Table.lookup_write_congr _ _ h
  agree_of_ne {r} w D h := by
    cases r <;> cases w <;>
      first
        | rfl
        | exact (Table.lookup_write_of_ne _ _ fun hk => h (by rw [hk]; rfl)).symm

end TaroTria
