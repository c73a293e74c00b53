import TaroTria.DailyCard.DailyCardService
import TaroTria.Payments.PaymentsService
import TaroTria.Readings.ReadingProcessing
import TaroTria.Transactions.Latch

/-!
# The calls of the backend

Every entry point of the modelled services is a call, made by a user, an
administrator, the payment provider or a queue worker.
-/

namespace TaroTria

open Transactions

/-- The configuration and the payment provider of a deployment, and the times that
its clock shows. -/
structure Deployment (Body : Type) where
  clock : Time → Prop
  walletInitialBonusCredits : Nat
  appUrl : String
  provider : PaymentProvider Body
  rewards : RewardsConfig
  dailyCard : DailyCardConfig

inductive Call (Body : Type)
  | createWalletWithBonus (userId : Id)
  | adjustBalance (userId : Id) (amount : Int) (reason : String) (actorUserId : Id)
  | createReading (userId : Id) (serviceCode : String)
  | submit (userId readingId : Id)
  | remove (userId readingId : Id)
  | retry (userId readingId : Id)
  | retryAsAdmin (readingId : Id)
  | confirmConsumption (readingId : Id)
  | releaseReservation (readingId : Id)
  | process (job : ReadingJob)
  | onFailed (readingId : Id) (attemptsMade : Nat)
  | createOrder (userId : Id) (packageCode : String)
  | createCheckoutIntent (userId orderId : Id)
  | handleWebhook (rawBody : Body)
  | confirmFromReturn (userId orderId : Id) (providerTransactionId : String)
  | createSession (userId : Id) (rewardType : RewardType)
  | processProviderCallback (providerName : String) (rawParams : List (String × String))
  | simulateStubCompletion (userId sessionId : Id)
  | getTodaysCard (userId : Id)

namespace Call

variable {Body : Type}

/-- The reading that a call closes, retries or processes. -/
def processes : Call Body → Option Id
  | retry _ readingId => some readingId
  | retryAsAdmin readingId => some readingId
  | confirmConsumption readingId => some readingId
  | releaseReservation readingId => some readingId
  | process job => some job.readingId
  | onFailed readingId _ => some readingId
  | _ => none

/-- The reading whose job a call may queue. -/
def enqueues : Call Body → Option Id
  | submit _ readingId => some readingId
  | retry _ readingId => some readingId
  | retryAsAdmin readingId => some readingId
  | _ => none

/-- The reading that a call may delete. -/
def removes : Call Body → Option Id
  | remove _ readingId => some readingId
  | _ => none

/-- The calls that approve or close a payment. -/
def settles : Call Body → Bool
  | handleWebhook _ => true
  | confirmFromReturn _ _ _ => true
  | _ => false

/-- The calls that complete or expire a session of an ad. -/
def completes : Call Body → Bool
  | processProviderCallback _ _ => true
  | simulateStubCompletion _ _ => true
  | _ => false

/-- The calls that log analytics events. -/
def logs : Call Body → Bool
  | createSession _ _ => true
  | c => c.completes

/-- The request of a call; what it returns to its caller is dropped. -/
def prog (S : Deployment Body) : Call Body → Request Unit
  | createWalletWithBonus userId =>
      Proc.transaction (WalletService.createWalletWithBonus userId S.walletInitialBonusCredits)
  | adjustBalance userId amount reason actorUserId => do
      let _ ← WalletService.adjustBalance userId amount reason actorUserId
  | createReading userId serviceCode => do
      let _ ← ReadingsService.create userId serviceCode
  | remove userId readingId => ReadingsService.remove userId readingId
  | submit userId readingId => do
      let _ ← ReadingsService.submit userId readingId
  | retry userId readingId => do
      let _ ← ReadingsService.retry userId readingId
  | retryAsAdmin readingId => do
      let _ ← ReadingsService.retryAsAdmin readingId
  | confirmConsumption readingId =>
      Proc.transaction (WalletService.confirmConsumption readingId)
  | releaseReservation readingId =>
      Proc.transaction (WalletService.releaseReservation readingId)
  | process job => ReadingProcessing.process job
  | onFailed readingId attemptsMade => ReadingProcessing.onFailed readingId attemptsMade
  | createOrder userId packageCode => do
      let _ ← OrdersService.create userId packageCode
  | createCheckoutIntent userId orderId => do
      let _ ← PaymentsService.createCheckoutIntent S.provider S.appUrl userId orderId
  | handleWebhook rawBody => PaymentsService.handleWebhook S.provider rawBody
  | confirmFromReturn userId orderId providerTransactionId =>
      PaymentsService.confirmFromReturn S.provider userId orderId providerTransactionId
  | createSession userId rewardType => do
      let _ ← RewardsService.createSession S.rewards.calendar userId rewardType
  | processProviderCallback providerName rawParams => do
      let _ ← RewardsService.processProviderCallback S.rewards providerName rawParams
  | simulateStubCompletion userId sessionId => do
      let _ ← RewardsService.simulateStubCompletion S.rewards userId sessionId
  | getTodaysCard userId => do
      let _ ← DailyCardService.getTodaysCard S.dailyCard userId

end Call

/-- What the outside world may answer: times of the clock, numbers in the range of
`randomInt`, and transactions that the provider vouches for. -/
def Deployment.answers {Body : Type} (S : Deployment Body) : (q : Query) → Answer q → Prop
  | .now, t => S.clock t
  | .randomInts deckSize positions, choices => DrawEngine.Choices deckSize positions choices
  | .fetchTransaction id, some t => S.provider.vouches id t
  | _, _ => True

/-- The backend of a deployment. -/
def backend {Body : Type} (S : Deployment Body) :
    Transactions.Service Db RowWrite Err (Call Body) Answer Unit where
  prog := Call.prog S
  answers := S.answers

/-- A running backend. -/
abbrev BackendServer (Body : Type) := Server Db RowWrite RowRef Err (Call Body) Answer Unit

/-- A running backend whose transactions are single steps. -/
abbrev BackendPool (Body : Type) := Pool Db RowWrite Err (Call Body) Answer Unit

/-- A deployment for concrete runs, whose provider accepts every parsed webhook. -/
def sampleDeployment : Deployment ParsedWebhook where
  clock := fun _ => True
  walletInitialBonusCredits := 3
  appUrl := ""
  provider :=
    { name := "wompi"
      buildCheckoutIntent := fun reference amountInCents currency redirectUrl =>
        { reference, publicKey := "", amountInCents, currency, integritySignature := "",
          redirectUrl }
      verifyAndParseWebhook := some
      vouches := fun id t => t.providerTransactionId = id }
  rewards :=
    { verifiersByProvider := fun providerName =>
        if providerName = "stub" then some (stubAdCallbackVerifier (some "s")) else none
      isProduction := false
      stubSecret := some "s"
      calendar := .utc }
  dailyCard := { secret := "", hmacSha256 := fun _ _ _ => 0 }

@[simp] theorem sampleDeployment_clock (t : Time) : sampleDeployment.clock t := trivial

/-- A wallet of five credits and a palm reading, ready to be submitted for two. -/
def sampleDb : Db :=
  { Db.empty with
    services := (∅ : Table Id Service).write "palm" (some ⟨"PALM_BASIC", "Una palma", none, 2, true⟩)
    wallets := (∅ : Table Id Wallet).write "ana" (some ⟨5⟩)
    readings := (∅ : Table Id Reading).write "r1" (some ⟨"ana", "palm", none, none, .DRAFT, none⟩)
    palmImages := (∅ : Table Id PalmImage).write "i1"
      (some ⟨"r1", "i1.jpg", .VALID, some "image/jpeg", 0, none, none, none, none, none, none, none⟩) }

/-- The schedule of one submission of a palm reading, up to its commit. -/
def submitSchedule (t : Nat) (userId readingId : Id) : List (Move (Call ParsedWebhook) Answer) :=
  [.spawn t (.submit userId readingId), .start t, .exec t, .commit t, .start t, .exec t,
    .commit t, .start t, .exec t, .commit t, .answer t .now (0 : Time), .start t, .exec t, .exec t,
    .exec t, .exec t, .exec t, .exec t, .commit t]

/-- The only card of the deck. -/
def sampleCard : TarotDeckCard := ⟨"c1", "MAJOR_00", "El Loco", .MAJOR, none, "inicio", "freno"⟩

/-- A wallet of five credits and a tarot reading of one card, ready to be submitted for two. -/
def tarotDb : Db :=
  { Db.empty with
    services := (∅ : Table Id Service).write "tarot" (some ⟨"TAROT_FIVE", "Cinco", none, 2, true⟩)
    tarotSpreads := (∅ : Table Id TarotSpread).write "s1"
      (some ⟨"TAROT_FIVE", true, [⟨"p1", "Presente", 0⟩], by simp⟩)
    readingInputs := (∅ : Table Id ReadingInput).write "r1" (some ⟨1, []⟩)
    wallets := (∅ : Table Id Wallet).write "ana" (some ⟨5⟩)
    readings := (∅ : Table Id Reading).write "r1"
      (some ⟨"ana", "tarot", some "s1", none, .DRAFT, none⟩) }

/-- The tarot reading right after its submission. -/
def submittedDb : Db :=
  view (ReadingsService.submissionWrites "ana" "r1" ⟨"TAROT_FIVE", "Cinco", none, 2, true⟩ false ⟨5⟩
    [⟨"p1", sampleCard, .UPRIGHT⟩] ⟨"ana", "tarot", some "s1", none, .DRAFT, none⟩ 0) tarotDb

/-- Answers for concrete runs, with `status` as the outcome of the AI. -/
def sampleAnswer (status : AIExecutionStatus) : (q : Query) → Answer q
  | .now => (0 : Time)
  | .randomUUID => "u1"
  | .randomInts _ _ => []
  | .activeDeckCards _ => .ok []
  | .publishedVersionId _ => .ok "v1"
  | .headObject _ => none
  | .downloadObject _ => []
  | .deleteObject _ => ()
  | .cacheGet _ => none
  | .cacheSet _ _ _ => ()
  | .cacheDel _ => ()
  | .execute _ => ⟨"e1", status, none, none⟩
  | .complete _ => ⟨[], ""⟩
  | .fetchTransaction _ => none
  | .hashPassword _ => ""
  | .verifyPassword _ _ => true
  | .signAccessToken _ _ => ""
  | .signRefreshToken _ jti => jti
  | .verifyRefreshToken _ => none
  | .generateOpaqueToken => ""
  | .sendEmail _ => ()
  | .roleId _ => .ok "r1"
  | .toPng _ => []
  | .uploadObject _ _ _ => ()

/-- `n` steps of task `t`, all made. -/
def steps (t n : Nat) (status : AIExecutionStatus) : List (Event (Call ParsedWebhook) Answer) :=
  List.replicate n (.go t .done (sampleAnswer status))

/-- A shop with one package and one wallet. -/
def sampleShop : Db :=
  { Db.empty with
    creditPackages := (∅ : Table String CreditPackage).write "ten" (some ⟨"ten", 10, 5000, "COP", true⟩)
    wallets := (∅ : Table Id Wallet).write "ana" (some ⟨0⟩) }

/-- The webhook of the approved payment of order `o1`. -/
def sampleWebhook : ParsedWebhook :=
  { eventId := "t1-APPROVED-1"
    transaction :=
      { reference := "order-o1-u1", providerTransactionId := "t1", status := .APPROVED,
        amountInCents := 5000, currency := "COP" } }

/-- The schedule of an order, its checkout and its webhook. -/
def purchaseSchedule : List (Move (Call ParsedWebhook) Answer) :=
  [.spawn 0 (.createOrder "ana" "ten"), .start 0, .exec 0, .commit 0,
    .answer 0 .randomUUID "o1", .answer 0 .now (0 : Time), .answer 0 .now (0 : Time), .start 0,
    .exec 0, .exec 0, .commit 0,
    .spawn 1 (.createCheckoutIntent "ana" "o1"), .start 1, .exec 1, .commit 1,
    .answer 1 .randomUUID "u1", .answer 1 .now (1 : Time), .start 1, .exec 1, .commit 1,
    .spawn 2 (.handleWebhook sampleWebhook), .start 2, .exec 2, .commit 2, .start 2, .exec 2,
    .commit 2, .start 2, .exec 2, .exec 2, .exec 2, .exec 2, .exec 2, .exec 2, .commit 2]

/-- A user without a wallet, with a palm reading to submit for two credits, and a shop. -/
def openingDb : Db := { sampleDb with creditPackages := sampleShop.creditPackages, wallets := ∅ }

/-- The schedule of a bonus and a submission. -/
def openingSchedule : List (Move (Call ParsedWebhook) Answer) :=
  [.spawn 3 (.createWalletWithBonus "ana"), .start 3, .exec 3, .exec 3, .commit 3] ++
    submitSchedule 4 "ana" "r1"

/-- The schedule of the confirmation of a consumption. -/
def consumptionSchedule (t : Nat) (readingId : Id) : List (Move (Call ParsedWebhook) Answer) :=
  [.spawn t (.confirmConsumption readingId), .start t, .exec t, .exec t, .exec t, .exec t,
    .commit t]

/-- The schedule of an adjustment. -/
def adjustSchedule (t : Nat) : List (Move (Call ParsedWebhook) Answer) :=
  [.spawn t (.adjustBalance "ana" 10 "regalo" "admin"), .answer t .randomUUID "u1",
    .answer t .randomUUID "a1", .start t, .exec t, .exec t, .exec t, .exec t, .commit t]

/-- The schedule of a request for a session of an ad, up to its commit; the daily
limit of flash offers is checked first. -/
def sessionSchedule (t : Nat) (userId : Id) (rewardType : RewardType) (sessionId : Id) :
    List (Move (Call ParsedWebhook) Answer) :=
  .spawn t (.createSession userId rewardType) ::
    (if rewardType = .FLASH_OFFER_UNLOCK then
      [.answer t .now (0 : Time), .start t, .exec t, .commit t] else []) ++
    [.answer t .now (0 : Time), .answer t .randomUUID sessionId, .start t, .exec t, .commit t]

/-- The schedule of the callback of an ad, up to its commit. -/
def callbackSchedule (t : Nat) (sessionId : Id) (writes : Nat) :
    List (Move (Call ParsedWebhook) Answer) :=
  [.spawn t (.processProviderCallback "stub" [("sessionId", sessionId), ("secret", "s")]),
    .start t, .exec t, .commit t, .answer t .now (0 : Time), .answer t .now (0 : Time),
    .answer t .now (0 : Time), .answer t .now (0 : Time), .answer t .randomUUID sessionId,
    .start t] ++ List.replicate writes (.exec t) ++ [.commit t]

/-- The purchase of an order for ten credits while the transaction of a submission is open,
after a bonus of three. The two credits of the submission are consumed. -/
theorem reach_opening : ∃ s : BackendServer ParsedWebhook,
    Server.Reach (backend sampleDeployment) (fun c => c.removes = none) (.idle openingDb) s ∧
      s.db.wallets.lookup "ana" = some ⟨11⟩ ∧
      s.db.creditReservations.lookup "r1" = some ⟨"ana", 2, .CONSUMED⟩ :=
  ⟨_, Server.Reach.refl.run
    (openingSchedule.take 18 ++ purchaseSchedule ++ openingSchedule.drop 18 ++
      consumptionSchedule 5 "r1")
    (by simp [openingSchedule, submitSchedule, purchaseSchedule, consumptionSchedule,
      Move.Admissible, Call.removes, backend, Deployment.answers]) rfl, rfl, rfl⟩

section Schedules

variable {calls : Call ParsedWebhook → Prop} {t : Nat} {sessionId : Id}

theorem admissible_sessionSchedule {userId : Id} {rewardType : RewardType}
    (h : calls (.createSession userId rewardType)) :
    ∀ m ∈ sessionSchedule t userId rewardType sessionId,
      m.Admissible (backend sampleDeployment) calls := by
  unfold sessionSchedule
  split <;> simp [Move.Admissible, backend, Deployment.answers, h]

theorem admissible_callbackSchedule {writes : Nat}
    (h : calls (.processProviderCallback "stub" [("sessionId", sessionId), ("secret", "s")])) :
    ∀ m ∈ callbackSchedule t sessionId writes,
      m.Admissible (backend sampleDeployment) calls := by
  simp only [callbackSchedule, List.forall_mem_append]
  refine ⟨⟨?_, fun m hm => ?_⟩, ?_⟩
  · simp [Move.Admissible, backend, Deployment.answers, h]
  · rw [List.eq_of_mem_replicate hm]
    trivial
  · simp [Move.Admissible]

end Schedules

end TaroTria
