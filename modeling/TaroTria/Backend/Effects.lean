import TaroTria.Backend.Calls

/-!
# What the calls commit

Every commit of the backend is one of the changes listed here: a wallet is
created or adjusted, a reading is created, submitted, confirmed, released or
given a status, an order is made, a payment is opened, approved or closed, a
delivery is recorded, a job is queued, a session of an ad is opened, completed
or expired, a daily card is unlocked, an event is logged. Each change names the rows it found and
the rows it leaves, so that what holds of all runs is a case split over them.

## Implementation notes

The rows are those of the committing database, although the requests read
some of them earlier: the columns that requests rely on never change, as
`Mono` says.
-/

namespace TaroTria

open Transactions

/-- A reading keeps its owner, service and spread. -/
def Reading.Continues (r r' : Reading) : Prop :=
  r'.userId = r.userId ∧ r'.serviceId = r.serviceId ∧ r'.spreadId = r.spreadId

/-- An order keeps its terms and does not become `PENDING` again. -/
def Order.Continues (o o' : Order) : Prop :=
  o'.userId = o.userId ∧ o'.credits = o.credits ∧ o'.priceCents = o.priceCents ∧
    o'.currency = o.currency ∧ (o.status ≠ .PENDING → o'.status ≠ .PENDING)

/-- A payment keeps its order and its amount. -/
def Payment.Continues (p p' : Payment) : Prop :=
  p'.orderId = p.orderId ∧ p'.amountCents = p.amountCents ∧ p'.currency = p.currency

/-- An offer keeps all but its consumption. -/
def FlashOfferUnlock.Continues (o o' : FlashOfferUnlock) : Prop :=
  o'.userId = o.userId ∧ o'.packageCode = o.packageCode ∧
    o'.discountPercent = o.discountPercent ∧ o'.expiresAt = o.expiresAt

/-- A session of an ad keeps its user and type, and its status once it is closed. -/
def RewardSession.Continues (r r' : RewardSession) : Prop :=
  r'.userId = r.userId ∧ r'.rewardType = r.rewardType ∧ (r.isOpen = false → r'.status = r.status)

/-- Every payment belongs to an order, as its foreign key says. -/
def PaymentsBelong (D : Db) : Prop :=
  ∀ key p, D.payments.lookup key = some p → ∃ o, D.orders.lookup p.orderId = some o

theorem PaymentsBelong.of_empty {D : Db} (h : D.payments = ∅) : PaymentsBelong D := by
  intro key p hp
  simp [h] at hp

/-- What no commit of the backend takes back. -/
structure Mono (D D' : Db) : Prop where
  services : D'.services = D.services
  tarotSpreads : D'.tarotSpreads = D.tarotSpreads
  creditPackages : D'.creditPackages = D.creditPackages
  wallets : Table.Persists (fun _ _ => True) D.wallets D'.wallets
  readings : Table.Persists Reading.Continues D.readings D'.readings
  orders : Table.Persists Order.Continues D.orders D'.orders
  payments : Table.Persists Payment.Continues D.payments D'.payments
  offers : Table.Persists FlashOfferUnlock.Continues D.flashOfferUnlocks D'.flashOfferUnlocks
  sessions : Table.Persists RewardSession.Continues D.rewardSessions D'.rewardSessions
  belong : PaymentsBelong D → PaymentsBelong D'

theorem Reading.Continues.refl (r : Reading) : r.Continues r := ⟨rfl, rfl, rfl⟩

theorem Order.Continues.refl (o : Order) : o.Continues o := ⟨rfl, rfl, rfl, rfl, id⟩

theorem Payment.Continues.refl (p : Payment) : p.Continues p := ⟨rfl, rfl, rfl⟩

theorem FlashOfferUnlock.Continues.refl (o : FlashOfferUnlock) : o.Continues o :=
  ⟨rfl, rfl, rfl, rfl⟩

theorem RewardSession.Continues.refl (r : RewardSession) : r.Continues r := ⟨rfl, rfl, fun _ => rfl⟩

theorem Mono.refl (D : Db) : Mono D D where
  services := rfl
  tarotSpreads := rfl
  creditPackages := rfl
  wallets := .refl (fun _ => trivial) _
  readings := .refl Reading.Continues.refl _
  orders := .refl Order.Continues.refl _
  payments := .refl Payment.Continues.refl _
  offers := .refl FlashOfferUnlock.Continues.refl _
  sessions := .refl RewardSession.Continues.refl _
  belong := id

theorem Mono.trans {D₁ D₂ D₃ : Db} (h : Mono D₁ D₂) (h' : Mono D₂ D₃) : Mono D₁ D₃ where
  services := h'.services.trans h.services
  tarotSpreads := h'.tarotSpreads.trans h.tarotSpreads
  creditPackages := h'.creditPackages.trans h.creditPackages
  wallets := .trans (fun _ _ => trivial) h.wallets h'.wallets
  readings := by
    refine Table.Persists.trans ?_ h.readings h'.readings
    rintro r r' r'' ⟨h₁, h₂, h₃⟩ ⟨h₁', h₂', h₃'⟩
    exact ⟨h₁'.trans h₁, h₂'.trans h₂, h₃'.trans h₃⟩
  orders := by
    refine Table.Persists.trans ?_ h.orders h'.orders
    rintro o o' o'' ⟨h₁, h₂, h₃, h₄, h₅⟩ ⟨h₁', h₂', h₃', h₄', h₅'⟩
    exact ⟨h₁'.trans h₁, h₂'.trans h₂, h₃'.trans h₃, h₄'.trans h₄, h₅' ∘ h₅⟩
  payments := by
    refine Table.Persists.trans ?_ h.payments h'.payments
    rintro p p' p'' ⟨h₁, h₂, h₃⟩ ⟨h₁', h₂', h₃'⟩
    exact ⟨h₁'.trans h₁, h₂'.trans h₂, h₃'.trans h₃⟩
  offers := by
    refine Table.Persists.trans ?_ h.offers h'.offers
    rintro o o' o'' ⟨h₁, h₂, h₃, h₄⟩ ⟨h₁', h₂', h₃', h₄'⟩
    exact ⟨h₁'.trans h₁, h₂'.trans h₂, h₃'.trans h₃, h₄'.trans h₄⟩
  sessions := by
    refine Table.Persists.trans ?_ h.sessions h'.sessions
    rintro r r' r'' ⟨h₁, h₂, h₃⟩ ⟨h₁', h₂', h₃'⟩
    refine ⟨h₁'.trans h₁, h₂'.trans h₂, fun hclosed => ?_⟩
    have hstatus := h₃ hclosed
    have hclosed' : r'.isOpen = false := by
      simpa [RewardSession.isOpen, hstatus] using hclosed
    exact (h₃' hclosed').trans hstatus
  belong := h'.belong ∘ h.belong

/-- A submission that the database allows. -/
structure Submission (D : Db) (userId readingId : Id) where
  reading : Reading
  service : Service
  wallet : Wallet
  unlocked : Bool
  draws : List (DrawEngine.TarotDraw TarotDeckCard)
  now : Time
  reading_mem : D.readings.lookup readingId = some reading
  owner : reading.userId = userId
  service_mem : D.services.lookup reading.serviceId = some service
  wallet_mem : D.wallets.lookup userId = some wallet
  funds : ReadingsService.reservedAmount service unlocked ≤ wallet.balance
  unlock : unlocked = true →
    service.code = ReadingsService.AD_UNLOCKABLE_TAROT_SERVICE_CODE ∧ ∃ n,
      D.rewardProgress.lookup (userId, .TAROT_READING_UNLOCK) = some n ∧
      RewardsService.REWARD_ADS_REQUIRED .TAROT_READING_UNLOCK ≤ n
  unreserved : D.creditReservations.lookup readingId = none
  unrecorded : D.walletTransactions.lookup (.reservation readingId) = none
  palm : ReadingsService.isPalmService service.code = true → draws = []
  tarot : ReadingsService.isPalmService service.code = false → ∃ spreadId spread deck choices,
    reading.spreadId = some spreadId ∧ D.tarotSpreads.lookup spreadId = some spread ∧
    DrawEngine.Choices deck.length (ReadingsService.orderedPositions spread).length choices ∧
    DrawEngine.draw deck (ReadingsService.orderedPositions spread) choices = .ok draws

namespace Submission

variable {D : Db} {userId readingId : Id}

/-- The credits that the submission reserves. -/
def amount (s : Submission D userId readingId) : Nat :=
  ReadingsService.reservedAmount s.service s.unlocked

/-- The rows that the submission writes. -/
def writes (s : Submission D userId readingId) : List RowWrite :=
  ReadingsService.submissionWrites userId readingId s.service s.unlocked s.wallet s.draws
    s.reading s.now

/-- The database after the submission. -/
theorem view_writes (s : Submission D userId readingId) : view s.writes D =
    { D with
      rewardProgress := if s.unlocked then
        D.rewardProgress.write (userId, .TAROT_READING_UNLOCK) (some 0) else D.rewardProgress
      wallets := D.wallets.write userId (some ⟨s.wallet.balance - s.amount⟩)
      creditReservations :=
        D.creditReservations.write readingId (some ⟨userId, s.amount, .ACTIVE⟩)
      walletTransactions := D.walletTransactions.write (.reservation readingId)
        (some ⟨userId, .RESERVATION, -s.amount, s.wallet.balance - s.amount, some readingId,
          none⟩)
      tarotDraws := ReadingsService.storeDraws readingId s.draws D.tarotDraws
      readings := D.readings.write readingId
        (some { s.reading with status := .PENDING, submittedAt := s.now }) } :=
  ReadingsService.view_submissionWrites ..

end Submission

/-- A session of an ad that is completed. -/
structure Completion (D : Db) where
  sessionId : Id
  session : RewardSession
  provider : String
  completedAt : Time
  offeredAt : Time
  createdAt : Time
  offerId : Id
  session_mem : D.rewardSessions.lookup sessionId = some session
  isOpen : session.isOpen = true
  unrecorded : D.rewardTransactions.lookup sessionId = none
  offer : RewardsService.completesCycle session.rewardType
      (RewardsService.nextCount D session.userId session.rewardType) = true →
    D.flashOfferUnlocks.lookup offerId = none

namespace Completion

variable {D : Db}

/-- The counter after the completion, before an offer resets it. -/
def count (s : Completion D) : Nat :=
  RewardsService.nextCount D s.session.userId s.session.rewardType

/-- The completion pays for a flash offer. -/
def grantsOffer (s : Completion D) : Bool :=
  RewardsService.completesCycle s.session.rewardType s.count

/-- The rows that the completion writes. -/
def writes (s : Completion D) : List RowWrite :=
  RewardsService.completionWrites s.sessionId s.session s.provider s.completedAt s.offeredAt
    s.createdAt s.offerId s.count

/-- The database after the completion. -/
theorem view_writes (s : Completion D) : view s.writes D =
    { D with
      rewardSessions := D.rewardSessions.write s.sessionId
        (some { s.session with status := .COMPLETED, completedAt := some s.completedAt })
      rewardTransactions := D.rewardTransactions.write s.sessionId
        (some (RewardsService.adTransaction s.session s.provider s.createdAt))
      rewardProgress := if s.grantsOffer then
        (D.rewardProgress.write (s.session.userId, s.session.rewardType) (some s.count)).write
          (s.session.userId, .FLASH_OFFER_UNLOCK) (some 0)
        else D.rewardProgress.write (s.session.userId, s.session.rewardType) (some s.count)
      flashOfferUnlocks := if s.grantsOffer then
        D.flashOfferUnlocks.write s.offerId
          (some (RewardsService.flashOffer s.session.userId s.offeredAt s.createdAt))
        else D.flashOfferUnlocks } :=
  RewardsService.view_completionWrites ..

end Completion

variable {Body : Type}

/-- The provider has reported the transaction, in a webhook that passed its
check or in an answer to `fetchTransaction`. -/
def PaymentProvider.Reported (P : PaymentProvider Body) (t : TransactionResult) : Prop :=
  (∃ body eventId, P.verifyAndParseWebhook body = some ⟨eventId, t⟩) ∨ ∃ id, P.vouches id t

/-- A `PENDING` payment and the reported transaction that closes it. -/
structure Settlement (P : PaymentProvider Body) (D : Db) where
  key : String × String
  payment : Payment
  transaction : TransactionResult
  order : Order
  payment_mem : D.payments.lookup key = some payment
  pending : payment.status = .PENDING
  reported : P.Reported transaction
  reference : key = (P.name, transaction.reference)
  amount : payment.amountCents = transaction.amountInCents
  currency : payment.currency = transaction.currency
  order_mem : D.orders.lookup payment.orderId = some order

/-- The payment write of a settlement. -/
def Settlement.paymentWrite {P : PaymentProvider Body} {D : Db} (s : Settlement P D)
    (status : PaymentStatus) : RowWrite :=
  .payment s.key (some (PaymentsService.settled s.payment s.transaction status))

/-- The changes that each call may commit. -/
inductive Effect (S : Deployment Body) : Call Body → Db → List RowWrite → Prop
  | createWallet {D userId} (hw : D.wallets.lookup userId = none)
      (hk : 0 < S.walletInitialBonusCredits →
        D.walletTransactions.lookup (.bonus userId) = none) :
      Effect S (.createWalletWithBonus userId) D
        (WalletService.bonusWrites userId S.walletInitialBonusCredits)
  | adjust {D userId amount reason actorUserId uuid auditId w}
      (hw : D.wallets.lookup userId = some w) (hfunds : amount < 0 → -amount ≤ w.balance)
      (hk : D.walletTransactions.lookup (.adjustment uuid) = none)
      (hfits : 0 ≤ amount → Wallet.fits ⟨w.balance + amount⟩ = true) :
      Effect S (.adjustBalance userId amount reason actorUserId) D
        (WalletService.adjustmentWrites userId amount reason actorUserId uuid auditId w)
  | createReading {D userId serviceCode readingId r} (hr : D.readings.lookup readingId = none)
      (ho : r.userId = userId) (hdraft : r.status = .DRAFT) :
      Effect S (.createReading userId serviceCode) D [.reading readingId (some r)]
  | submit {D userId readingId} (s : Submission D userId readingId) :
      Effect S (.submit userId readingId) D s.writes
  | confirm {c D readingId res w balanceAfter} (hc : c.processes = some readingId)
      (hres : D.creditReservations.lookup readingId = some res) (hactive : res.status = .ACTIVE)
      (hw : D.wallets.lookup res.walletId = some w)
      (hk : D.walletTransactions.lookup (.consumption readingId) = none) :
      Effect S c D (WalletService.consumptionWrites readingId res balanceAfter)
  | release {c D readingId res w} (hc : c.processes = some readingId)
      (hres : D.creditReservations.lookup readingId = some res) (hactive : res.status = .ACTIVE)
      (hw : D.wallets.lookup res.walletId = some w)
      (hk : D.walletTransactions.lookup (.release readingId) = none)
      (hfits : Wallet.fits ⟨w.balance + res.amount⟩ = true) :
      Effect S c D (WalletService.releaseWrites readingId res w)
  | setReading {c D readingId r r'} (hc : c.processes = some readingId)
      (hr : D.readings.lookup readingId = some r) (hsame : r.Continues r')
      (hstatus : r'.status ≠ .DRAFT) : Effect S c D [.reading readingId (some r')]
  | enqueue {c D readingId jobId job} (hc : c.enqueues = some readingId) :
      Effect S c D [.readingJob jobId (some job)]
  | createOrder {D userId packageCode pkg orderId} (ho : D.orders.lookup orderId = none)
      (hpkg : D.creditPackages.lookup packageCode = some pkg) :
      Effect S (.createOrder userId packageCode) D
        [.order orderId (some (OrdersService.newOrder userId pkg none))]
  | createDiscountedOrder {D userId packageCode pkg orderId readAt consumedAt offerId}
      {offer : FlashOfferUnlock} (ho : D.orders.lookup orderId = none)
      (hoffer : D.flashOfferUnlocks.lookup offerId = some offer) (hclock : S.clock readAt)
      (hactive : OrdersService.isActiveOffer userId packageCode readAt offer = true)
      (hpkg : D.creditPackages.lookup packageCode = some pkg) :
      Effect S (.createOrder userId packageCode) D
        [.flashOfferUnlock offerId (some { offer with consumedAt := some consumedAt }),
         .order orderId (some (OrdersService.newOrder userId pkg (some offer.discountPercent)))]
  | createPayment {D userId orderId order key now} (hk : D.payments.lookup key = none)
      (ho : D.orders.lookup orderId = some order) :
      Effect S (.createCheckoutIntent userId orderId) D
        [.payment key (some
          { orderId, providerTransactionId := none, status := .PENDING,
            amountCents := order.priceCents, currency := order.currency, createdAt := now })]
  | recordDelivery {D rawBody key row} (hk : D.webhookEvents.lookup key = none) :
      Effect S (.handleWebhook rawBody) D [.webhookEvent key (some row)]
  | approve {c D} (s : Settlement S.provider D) {w} (hc : c.settles = true)
      (happroved : s.transaction.status = .APPROVED)
      (hw : D.wallets.lookup s.order.userId = some w)
      (hk : D.walletTransactions.lookup (.purchase s.payment.orderId) = none)
      (hfits : Wallet.fits ⟨w.balance + s.order.credits⟩ = true) :
      Effect S c D ([s.paymentWrite .APPROVED,
          .order s.payment.orderId (some { s.order with status := .PAID })] ++
        WalletService.purchaseWrites s.order.userId s.payment.orderId s.order.credits w)
  | close {c D} (s : Settlement S.provider D) {status : PaymentStatus} (hc : c.settles = true)
      (hstatus : PaymentsService.TERMINAL_STATUS_MAP s.transaction.status = some status)
      (hrejected : status ≠ .APPROVED) :
      Effect S c D (s.paymentWrite status ::
        if s.order.status = .PENDING then
          [.order s.payment.orderId (some { s.order with status := .CANCELLED })]
        else [])
  | openSession {D userId rewardType sessionId session}
      (hk : D.rewardSessions.lookup sessionId = none) (ho : session.userId = userId)
      (htype : session.rewardType = rewardType) (hcreated : session.status = .CREATED) :
      Effect S (.createSession userId rewardType) D [.rewardSession sessionId (some session)]
  | logEvent {c D eventId event} (hc : c.logs = true) :
      Effect S c D [.analyticsEvent eventId (some event)]
  | expireSession {c D sessionId session} (hc : c.completes = true)
      (hsession : D.rewardSessions.lookup sessionId = some session)
      (hopen : session.isOpen = true) :
      Effect S c D [.rewardSession sessionId (some { session with status := .EXPIRED })]
  | completeSession {c D} (s : Completion D) (hc : c.completes = true) : Effect S c D s.writes
  | unlockDailyCard {D userId currentCount}
      (hcount : D.rewardProgress.lookup (userId, .DAILY_CARD_UNLOCK) = some currentCount)
      (henough : RewardsService.REWARD_ADS_REQUIRED .DAILY_CARD_UNLOCK ≤ currentCount) :
      Effect S (.getTodaysCard userId) D
        (RewardsService.unlockWrites userId .DAILY_CARD_UNLOCK)

/-- Orders stay, so a payment needs an order only when it is made. -/
theorem PaymentsBelong.of_persists {D D' : Db}
    (ho : Table.Persists Order.Continues D.orders D'.orders)
    (hp : ∀ key p, D'.payments.lookup key = some p →
      (∃ p₀, D.payments.lookup key = some p₀ ∧ p₀.orderId = p.orderId) ∨
        ∃ o, D.orders.lookup p.orderId = some o)
    (h : PaymentsBelong D) : PaymentsBelong D' := by
  intro key p hkey
  have hold : ∃ o, D.orders.lookup p.orderId = some o := by
    rcases hp key p hkey with ⟨p₀, hp₀, hid⟩ | hold
    · exact hid ▸ h key p₀ hp₀
    · exact hold
  obtain ⟨o, ho'⟩ := hold
  obtain ⟨o', ho'', -⟩ := ho _ o ho'
  exact ⟨o', ho''⟩

/-- A change that leaves the tracked tables alone, but for wallets and readings. -/
theorem Mono.of_readings {D D' : Db} (hs : D'.services = D.services)
    (ht : D'.tarotSpreads = D.tarotSpreads) (hk : D'.creditPackages = D.creditPackages)
    (ha : D'.rewardSessions = D.rewardSessions)
    (hw : Table.Persists (fun _ _ => True) D.wallets D'.wallets) (ho : D'.orders = D.orders)
    (hp : D'.payments = D.payments) (hf : D'.flashOfferUnlocks = D.flashOfferUnlocks)
    (hr : Table.Persists Reading.Continues D.readings D'.readings) : Mono D D' where
  services := hs
  tarotSpreads := ht
  creditPackages := hk
  wallets := hw
  readings := hr
  orders := ho ▸ .refl Order.Continues.refl _
  payments := hp ▸ .refl Payment.Continues.refl _
  offers := hf ▸ .refl FlashOfferUnlock.Continues.refl _
  sessions := ha ▸ .refl RewardSession.Continues.refl _
  belong h := by
    intro key p hkey
    rw [hp] at hkey
    exact ho ▸ h key p hkey

/-- A change that leaves the tracked tables alone, but for wallets, orders,
payments and offers. -/
theorem Mono.of_orders {D D' : Db} (hs : D'.services = D.services)
    (ht : D'.tarotSpreads = D.tarotSpreads) (hk : D'.creditPackages = D.creditPackages)
    (ha : D'.rewardSessions = D.rewardSessions)
    (hw : Table.Persists (fun _ _ => True) D.wallets D'.wallets) (hr : D'.readings = D.readings)
    (ho : Table.Persists Order.Continues D.orders D'.orders)
    (hp : Table.Persists Payment.Continues D.payments D'.payments)
    (hf : Table.Persists FlashOfferUnlock.Continues D.flashOfferUnlocks D'.flashOfferUnlocks)
    (hb : ∀ key p, D'.payments.lookup key = some p →
      (∃ p₀, D.payments.lookup key = some p₀ ∧ p₀.orderId = p.orderId) ∨
        ∃ o, D.orders.lookup p.orderId = some o) : Mono D D' where
  services := hs
  tarotSpreads := ht
  creditPackages := hk
  wallets := hw
  readings := hr ▸ .refl Reading.Continues.refl _
  orders := ho
  payments := hp
  offers := hf
  sessions := ha ▸ .refl RewardSession.Continues.refl _
  belong := .of_persists ho hb

/-- A change that leaves the tracked tables alone, but for sessions of ads and offers. -/
theorem Mono.of_sessions {D D' : Db} (hs : D'.services = D.services)
    (ht : D'.tarotSpreads = D.tarotSpreads) (hk : D'.creditPackages = D.creditPackages)
    (hw : D'.wallets = D.wallets) (hr : D'.readings = D.readings) (ho : D'.orders = D.orders)
    (hp : D'.payments = D.payments)
    (hf : Table.Persists FlashOfferUnlock.Continues D.flashOfferUnlocks D'.flashOfferUnlocks)
    (ha : Table.Persists RewardSession.Continues D.rewardSessions D'.rewardSessions) :
    Mono D D' where
  services := hs
  tarotSpreads := ht
  creditPackages := hk
  wallets := hw ▸ .refl (fun _ => trivial) _
  readings := hr ▸ .refl Reading.Continues.refl _
  orders := ho ▸ .refl Order.Continues.refl _
  payments := hp ▸ .refl Payment.Continues.refl _
  offers := hf
  sessions := ha
  belong h := by
    intro key p hkey
    rw [hp] at hkey
    exact ho ▸ h key p hkey

section Mono

open WalletService ReadingsService PaymentsService

variable {S : Deployment Body} {c : Call Body} {D : Db} {L : List RowWrite}

/-- Closing a payment leaves every other payment's order alone. -/
theorem Settlement.orderId_kept {P : PaymentProvider Body} (s : Settlement P D)
    (status : PaymentStatus) {key : String × String} {p : Payment}
    (h : (D.payments.write s.key (some (settled s.payment s.transaction status))).lookup key =
      some p) : ∃ p₀, D.payments.lookup key = some p₀ ∧ p₀.orderId = p.orderId := by
  rw [Table.lookup_write] at h
  split at h
  · rename_i hk
    cases h
    exact ⟨s.payment, hk ▸ s.payment_mem, rfl⟩
  · exact ⟨p, h, rfl⟩

/-- The database after an approval. -/
theorem Settlement.view_approval {P : PaymentProvider Body} (s : Settlement P D) (w : Wallet) :
    view ([s.paymentWrite .APPROVED,
          .order s.payment.orderId (some { s.order with status := .PAID })] ++
        purchaseWrites s.order.userId s.payment.orderId s.order.credits w) D =
    { D with
      payments := D.payments.write s.key (some (settled s.payment s.transaction .APPROVED))
      orders := D.orders.write s.payment.orderId (some { s.order with status := .PAID })
      wallets := D.wallets.write s.order.userId (some ⟨w.balance + s.order.credits⟩)
      walletTransactions := D.walletTransactions.write (.purchase s.payment.orderId)
        (some ⟨s.order.userId, .PURCHASE, s.order.credits, w.balance + s.order.credits, none,
          some s.payment.orderId⟩) } := by
  simp [paymentWrite, purchaseWrites]

theorem Effect.mono (h : Effect S c D L) : Mono D (view L D) := by
  have noWallet : Table.Persists (fun _ _ => True) D.wallets D.wallets := .refl (fun _ => trivial) _
  have noReading : Table.Persists Reading.Continues D.readings D.readings :=
    .refl Reading.Continues.refl _
  have noOrder : Table.Persists Order.Continues D.orders D.orders := .refl Order.Continues.refl _
  have noPayment : Table.Persists Payment.Continues D.payments D.payments :=
    .refl Payment.Continues.refl _
  have noOffer : Table.Persists FlashOfferUnlock.Continues D.flashOfferUnlocks
      D.flashOfferUnlocks := .refl FlashOfferUnlock.Continues.refl _
  have wallet : ∀ {userId w} w', D.wallets.lookup userId = some w →
      Table.Persists (fun _ _ => True) D.wallets (D.wallets.write userId (some w')) :=
    fun w' hw => .replace (fun _ => trivial) hw trivial
  cases h with
  | createWallet hw hk =>
      have hw' := Table.Persists.insert (R := fun _ _ => True) (fun _ => trivial)
        (⟨S.walletInitialBonusCredits⟩ : Wallet) hw
      unfold bonusWrites
      split <;> exact .of_readings rfl rfl rfl rfl hw' rfl rfl rfl noReading
  | adjust hw hfunds hk => exact .of_readings rfl rfl rfl rfl (wallet _ hw) rfl rfl rfl noReading
  | createReading hr ho hdraft =>
      exact .of_readings rfl rfl rfl rfl noWallet rfl rfl rfl (.insert Reading.Continues.refl _ hr)
  | submit s =>
      rw [s.view_writes]
      exact .of_readings rfl rfl rfl rfl (wallet _ s.wallet_mem) rfl rfl rfl
        (.replace Reading.Continues.refl s.reading_mem ⟨rfl, rfl, rfl⟩)
  | confirm hc hres hactive hw hk => exact .of_readings rfl rfl rfl rfl noWallet rfl rfl rfl noReading
  | release hc hres hactive hw hk => exact .of_readings rfl rfl rfl rfl (wallet _ hw) rfl rfl rfl noReading
  | setReading hc hr hsame hstatus =>
      exact .of_readings rfl rfl rfl rfl noWallet rfl rfl rfl (.replace Reading.Continues.refl hr hsame)
  | enqueue hc => exact .of_readings rfl rfl rfl rfl noWallet rfl rfl rfl noReading
  | createOrder ho hpkg =>
      exact .of_orders rfl rfl rfl rfl noWallet rfl (.insert Order.Continues.refl _ ho) noPayment noOffer
        fun key p hp => .inl ⟨p, hp, rfl⟩
  | createDiscountedOrder ho hoffer hclock hactive hpkg =>
      exact .of_orders rfl rfl rfl rfl noWallet rfl (.insert Order.Continues.refl _ ho) noPayment
        (.replace FlashOfferUnlock.Continues.refl hoffer ⟨rfl, rfl, rfl, rfl⟩)
        fun key p hp => .inl ⟨p, hp, rfl⟩
  | @createPayment _ userId orderId order key now hk ho =>
      refine .of_orders rfl rfl rfl rfl noWallet rfl noOrder (.insert Payment.Continues.refl _ hk)
        noOffer ?_
      intro key' p hp
      by_cases hkey : key' = key
      · subst hkey
        simp at hp
        subst hp
        exact .inr ⟨order, ho⟩
      · exact .inl ⟨p, by simpa [Table.lookup_write, hkey] using hp, rfl⟩
  | recordDelivery hk => exact .of_readings rfl rfl rfl rfl noWallet rfl rfl rfl noReading
  | approve s hc happroved hw hk =>
      rw [s.view_approval]
      exact .of_orders rfl rfl rfl rfl (wallet _ hw) rfl
        (.replace Order.Continues.refl s.order_mem ⟨rfl, rfl, rfl, rfl, by simp⟩)
        (.replace Payment.Continues.refl s.payment_mem ⟨rfl, rfl, rfl⟩)
        noOffer fun key p hp => .inl (s.orderId_kept _ hp)
  | @close _ _ s status hc hstatus hrejected =>
      have hp : Table.Persists Payment.Continues D.payments
          (D.payments.write s.key (some (settled s.payment s.transaction status))) :=
        .replace Payment.Continues.refl s.payment_mem ⟨rfl, rfl, rfl⟩
      split
      · exact .of_orders rfl rfl rfl rfl noWallet rfl
          (.replace Order.Continues.refl s.order_mem ⟨rfl, rfl, rfl, rfl, by simp⟩) hp
          noOffer fun key p hp => .inl (s.orderId_kept _ hp)
      · exact .of_orders rfl rfl rfl rfl noWallet rfl noOrder hp
          noOffer fun key p hp => .inl (s.orderId_kept _ hp)
  | openSession hk ho htype hcreated =>
      exact .of_sessions rfl rfl rfl rfl rfl rfl rfl noOffer
        (.insert RewardSession.Continues.refl _ hk)
  | logEvent hc => exact .of_readings rfl rfl rfl rfl noWallet rfl rfl rfl noReading
  | expireSession hc hsession hopen =>
      exact .of_sessions rfl rfl rfl rfl rfl rfl rfl noOffer
        (.replace RewardSession.Continues.refl hsession
          ⟨rfl, rfl, fun hclosed => by simp [hopen] at hclosed⟩)
  | completeSession s hc =>
      rw [s.view_writes]
      refine .of_sessions rfl rfl rfl rfl rfl rfl rfl ?_
        (.replace RewardSession.Continues.refl s.session_mem
          ⟨rfl, rfl, fun hclosed => by simp [s.isOpen] at hclosed⟩)
      simp only
      split
      · rename_i hgrants
        exact .insert FlashOfferUnlock.Continues.refl _ (s.offer hgrants)
      · exact noOffer
  | unlockDailyCard hcount henough =>
      exact .of_readings rfl rfl rfl rfl noWallet rfl rfl rfl noReading

end Mono

/-- The discipline of the backend. -/
def discipline (S : Deployment Body) : Discipline Db RowWrite RowRef (Call Body) where
  Mono := Mono
  mono_refl := Mono.refl
  mono_trans := Mono.trans
  Inv := PaymentsBelong
  inv_mono h := h.belong
  Effect := Effect S
  mono_effect := Effect.mono

end TaroTria
