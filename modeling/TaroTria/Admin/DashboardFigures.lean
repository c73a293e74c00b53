import TaroTria.Admin.AdminMetricsService
import TaroTria.Payments.OrderLifecycle
import TaroTria.Readings.ReservationLifecycle
import TaroTria.Rewards.AdGrantsOnce

/-!
# The dashboard and the books

Each query of the report reads a committed state of its own. The sales that it
shows are the approved payments and the purchases of the ledger, its average
cost of a tarot reading is that of the reservations, and its funnel counts the
recorded ads.
-/

namespace TaroTria

open Transactions AdminMetricsService

/-- The type of the ledger rows under a key. -/
def IdempotencyKey.type : IdempotencyKey → WalletTransactionType
  | .bonus _ => .BONUS
  | .reservation _ => .RESERVATION
  | .consumption _ => .CONSUMPTION
  | .release _ => .RELEASE
  | .purchase _ => .PURCHASE
  | .adjustment _ => .ADJUSTMENT

/-- The reading that the ledger rows under a key refer to. -/
def IdempotencyKey.readingId : IdempotencyKey → Option Id
  | .reservation readingId | .consumption readingId | .release readingId => some readingId
  | .bonus _ | .purchase _ | .adjustment _ => none

/-- The key of a ledger row says its type and its reading. -/
def LedgerKeyed (D : Db) : Prop :=
  ∀ key row, D.walletTransactions.lookup key = some row →
    row.type = key.type ∧ row.readingId = key.readingId

section Keyed

open WalletService

variable {Body : Type} {S : Deployment Body} {c : Call Body} {D : Db} {L : List RowWrite}

theorem LedgerKeyed.write {D' : Db} (h : LedgerKeyed D) {key : IdempotencyKey}
    {row : WalletTransaction} (hrow : row.type = key.type ∧ row.readingId = key.readingId)
    (hl : D'.walletTransactions = D.walletTransactions.write key (some row)) : LedgerKeyed D' := by
  intro key' row' hrow'
  rw [hl, Table.lookup_write] at hrow'
  split at hrow'
  · rename_i hkey
    cases hrow'
    exact hkey ▸ hrow
  · exact h key' row' hrow'

theorem Effect.ledgerKeyed (he : Effect S c D L) (h : LedgerKeyed D) : LedgerKeyed (view L D) := by
  cases he with
  | createWallet hw hk =>
      unfold bonusWrites
      split
      · exact h.write ⟨rfl, rfl⟩ rfl
      · exact h
  | adjust hw hfunds hk => exact h.write ⟨rfl, rfl⟩ rfl
  | submit s =>
      rw [s.view_writes]
      exact h.write ⟨rfl, rfl⟩ rfl
  | confirm hc hres hactive hw hk => exact h.write ⟨rfl, rfl⟩ rfl
  | release hc hres hactive hw hk => exact h.write ⟨rfl, rfl⟩ rfl
  | approve s hc happroved hw hk =>
      rw [s.view_approval]
      exact h.write ⟨rfl, rfl⟩ rfl
  | close s hc hstatus hrejected => split <;> exact h
  | completeSession s hc =>
      rw [s.view_writes]
      exact h
  | createReading hr ho hdraft => exact h
  | setReading hc hr hsame hstatus => exact h
  | enqueue hc => exact h
  | createOrder ho hpkg => exact h
  | createDiscountedOrder ho hoffer hclock hactive hpkg => exact h
  | createPayment hk ho => exact h
  | recordDelivery hk => exact h
  | openSession hk ho htype hcreated => exact h
  | logEvent hc => exact h
  | expireSession hc hsession hopen => exact h
  | unlockDailyCard hcount henough => exact h

theorem LedgerKeyed.purchase (h : LedgerKeyed D) {key : IdempotencyKey} {row : WalletTransaction}
    (hrow : D.walletTransactions.lookup key = some row) (htype : row.type = .PURCHASE) :
    ∃ orderId, key = .purchase orderId := by
  have hkey := (h key row hrow).1
  cases key with
  | purchase orderId => exact ⟨orderId, rfl⟩
  | _ => simp [htype, IdempotencyKey.type] at hkey

theorem LedgerKeyed.reservation (h : LedgerKeyed D) {key : IdempotencyKey}
    {row : WalletTransaction} (hrow : D.walletTransactions.lookup key = some row)
    (htype : row.type = .RESERVATION) :
    ∃ readingId, key = .reservation readingId ∧ row.readingId = some readingId := by
  obtain ⟨hkey, hreading⟩ := h key row hrow
  cases key with
  | reservation readingId => exact ⟨readingId, rfl, hreading⟩
  | _ => simp [htype, IdempotencyKey.type] at hkey

end Keyed

/-! ## Sales -/

section Sales

def approvedPayments (D : Db) : List ((String × String) × Payment) :=
  D.payments.findMany fun _ p => p.status = .APPROVED

def purchaseRows (D : Db) : List (IdempotencyKey × WalletTransaction) :=
  D.walletTransactions.findMany fun _ t => t.type = .PURCHASE

variable {Body : Type} {P : PaymentProvider Body} {D : Db}

/-- An order with an approved payment is paid. -/
theorem OrdersConsistent.paid_of_approved (h : OrdersConsistent P D) {key : String × String}
    {p : Payment} (hp : D.payments.lookup key = some p) (happroved : p.status = .APPROVED) :
    ∃ o, D.orders.lookup p.orderId = some o ∧ o.status = .PAID ∧ o.priceCents = p.amountCents ∧
      ∃! key, HasPayment D p.orderId .APPROVED key := by
  obtain ⟨o, ho, hamount, -⟩ := h.priced key p hp
  have hpay : HasPayment D p.orderId .APPROVED key := ⟨p, hp, rfl, happroved⟩
  have hstate := h.state p.orderId o ho
  cases hst : o.status with
  | PENDING =>
      rw [hst] at hstate
      exact absurd (hstate.1 _ _ hpay) (by simp)
  | PAID =>
      rw [hst] at hstate
      exact ⟨o, ho, hst, hamount.symm, hstate.1⟩
  | CANCELLED =>
      rw [hst] at hstate
      exact absurd hpay (hstate.1 key)
  | REFUNDED =>
      rw [hst] at hstate
      exact hstate.elim

/-- An order with a purchase in the ledger is paid. -/
theorem OrdersConsistent.paid_of_purchase (h : OrdersConsistent P D) {orderId : Id}
    {row : WalletTransaction} (hrow : D.walletTransactions.lookup (.purchase orderId) = some row) :
    ∃ o, D.orders.lookup orderId = some o ∧ o.status = .PAID := by
  cases ho : D.orders.lookup orderId with
  | none => simp [h.fresh orderId ho] at hrow
  | some o =>
      have hstate := h.state orderId o ho
      refine ⟨o, rfl, ?_⟩
      cases hst : o.status with
      | PENDING =>
          rw [hst] at hstate
          simp [hstate.2] at hrow
      | PAID => rfl
      | CANCELLED =>
          rw [hst] at hstate
          simp [hstate.2.2] at hrow
      | REFUNDED =>
          rw [hst] at hstate
          exact hstate.elim

/-- The approved payments are those of the paid orders, at their prices. -/
theorem OrdersConsistent.perm_approved (h : OrdersConsistent P D) :
    ((approvedPayments D).map fun e => e.2.amountCents).Perm
      ((paidOrders D).map fun e => e.2.priceCents) := by
  refine Table.perm_findMany_of_bijOn _ _ (fun _ p => p.orderId) ?_ ?_ ?_
  · intro key p hp happroved
    obtain ⟨o, ho, hpaid, hprice, -⟩ := h.paid_of_approved hp (of_decide_eq_true happroved)
    exact ⟨o, ho, decide_eq_true hpaid, hprice⟩
  · intro key p key' p' hp happroved hp' happroved' hid
    obtain ⟨-, -, -, -, hone⟩ := h.paid_of_approved hp (of_decide_eq_true happroved)
    exact hone.unique ⟨p, hp, rfl, of_decide_eq_true happroved⟩
      ⟨p', hp', hid.symm, of_decide_eq_true happroved'⟩
  · intro orderId o ho hpaid
    have hstate := h.state orderId o ho
    rw [of_decide_eq_true hpaid] at hstate
    obtain ⟨key, p, hp, hid, happroved⟩ := hstate.1.exists
    exact ⟨key, p, hp, decide_eq_true happroved, hid⟩

/-- The paid orders are those with a purchase, which went to their user. -/
theorem OrdersConsistent.perm_purchases (h : OrdersConsistent P D) (hkeyed : LedgerKeyed D) :
    ((paidOrders D).map fun e => e.2.userId).Perm
      ((purchaseRows D).map fun e => e.2.walletId) := by
  refine Table.perm_findMany_of_bijOn _ _ (fun orderId _ => .purchase orderId) ?_ ?_ ?_
  · intro orderId o ho hpaid
    have hstate := h.state orderId o ho
    rw [of_decide_eq_true hpaid] at hstate
    obtain ⟨b, hb⟩ := hstate.2
    exact ⟨_, hb, rfl, rfl⟩
  · intro orderId o orderId' o' _ _ _ _ hkey
    exact IdempotencyKey.purchase.inj hkey
  · intro key row hrow htype
    obtain ⟨orderId, rfl⟩ := hkeyed.purchase hrow (of_decide_eq_true htype)
    obtain ⟨o, ho, hpaid⟩ := h.paid_of_purchase hrow
    exact ⟨orderId, o, ho, decide_eq_true hpaid, rfl⟩

end Sales

section Runs

variable {Body : Type} {S : Deployment Body} {D : Db}

theorem ordersConsistent_of_reach (horders : D.orders = ∅) (hpayments : D.payments = ∅)
    (hledger : D.walletTransactions = ∅) {s : BackendServer Body}
    (run : Server.Reach (backend S) (fun c => c.removes = none) (.idle D) s) :
    OrdersConsistent S.provider s.db ∧ LedgerKeyed s.db := by
  have hD : PaymentsBelong D := .of_empty hpayments
  refine (reach_commits (fun _ hc => hc) hD run).invariant
    (fun D' => OrdersConsistent S.provider D' ∧ LedgerKeyed D')
    ⟨.of_empty horders hpayments hledger, fun key row hrow => by simp [hledger] at hrow⟩ ?_
  intro c D' L hD' he
  exact ⟨he.2.ordersConsistent hD'.1, he.2.ledgerKeyed hD'.2⟩

/-- In every run without removals that starts without orders, payments and ledger rows,
whichever committed states the queries of the report read: the paid orders are as many as the
approved payments and as the purchases of the ledger, the revenue is what the
approved payments paid, and the buyers are the users whose wallets got a purchase. -/
theorem sales_agree_with_books (S : Deployment Body) (D : Db) (horders : D.orders = ∅)
    (hpayments : D.payments = ∅) (hledger : D.walletTransactions = ∅)
    (states : MetricsQuery → BackendServer Body)
    (run : ∀ q, Server.Reach (backend S) (fun c => c.removes = none) (.idle D) (states q)) :
    let metrics := getMetrics fun q => (states q).db
    metrics.paidOrdersCount = (approvedPayments (states .paidOrders).db).length ∧
      metrics.paidOrdersCount = (purchaseRows (states .paidOrders).db).length ∧
      metrics.revenueCents =
        ((approvedPayments (states .paidOrders).db).map fun e => e.2.amountCents).sum ∧
      metrics.usersWithAtLeastOnePurchase =
        ((purchaseRows (states .usersWithPurchase).db).map fun e => e.2.walletId).dedup.length := by
  have books := fun q => ordersConsistent_of_reach horders hpayments hledger (run q)
  obtain ⟨horders₁, hkeyed₁⟩ := books .paidOrders
  obtain ⟨horders₂, hkeyed₂⟩ := books .usersWithPurchase
  refine ⟨?_, ?_, ?_, ?_⟩
  · have hlength := horders₁.perm_approved.length_eq
    rw [List.length_map, List.length_map] at hlength
    exact hlength.symm
  · have hlength := (horders₁.perm_purchases hkeyed₁).length_eq
    rw [List.length_map, List.length_map] at hlength
    exact hlength
  · exact horders₁.perm_approved.sum_eq.symm
  · exact (horders₂.perm_purchases hkeyed₂).dedup.length_eq

theorem sales_agree_with_books_of_purchase :
    ∃ states : MetricsQuery → BackendServer ParsedWebhook,
      (getMetrics fun q => (states q).db).revenueCents = 5000 ∧
        ((approvedPayments (states .paidOrders).db).map fun e => e.2.amountCents).sum = 5000 := by
  have bought : ∃ s, Server.Reach (backend sampleDeployment) (fun c => c.removes = none)
      (.idle sampleShop) s ∧ (getMetrics fun _ => s.db).revenueCents = 5000 :=
    ⟨_, Server.Reach.refl.run purchaseSchedule (by
      simp [purchaseSchedule, Move.Admissible, Call.removes, backend, Deployment.answers]) rfl, rfl⟩
  obtain ⟨s, run, hrevenue⟩ := bought
  have hbooks := sales_agree_with_books sampleDeployment sampleShop rfl rfl rfl (fun _ => s)
    fun _ => run
  exact ⟨fun _ => s, hrevenue, hbooks.2.2.1.symm.trans hrevenue⟩

/-! ## The cost of a tarot reading -/

/-- The reservations of the tarot readings. -/
def tarotReservations (D : Db) : List (Id × CreditReservation) :=
  D.creditReservations.findMany fun readingId _ =>
    (D.readings.lookup readingId).any (isTarotReading D)

theorem sum_neg_natCast (l : List Nat) :
    (l.map fun n : Nat => -(n : Int)).sum = -(l.sum : Int) := by
  induction l with
  | nil => rfl
  | cons n l ih =>
      rw [List.map_cons, List.sum_cons, ih, List.sum_cons]
      omega

/-- The rows that reserved credits for tarot readings are those of their reservations. -/
theorem ReservationsRecorded.perm_rows (h : ReservationsRecorded D) (hkeyed : LedgerKeyed D) :
    ((tarotReservations D).map fun e => -(e.2.amount : Int)).Perm
      ((tarotReservationRows D).map fun e => e.2.amount) := by
  refine Table.perm_findMany_of_bijOn (fun res : CreditReservation => -(res.amount : Int))
    WalletTransaction.amount (fun readingId _ => .reservation readingId) ?_ ?_ ?_
  · intro readingId res hres htarot
    obtain ⟨b, hb⟩ := (h.reserved readingId res hres).reservation
    exact ⟨_, hb, by simpa using htarot, rfl⟩
  · intro readingId res readingId' res' _ _ _ _ hkey
    exact IdempotencyKey.reservation.inj hkey
  · intro key row hrow htarot
    rw [Bool.and_eq_true, decide_eq_true_eq] at htarot
    obtain ⟨readingId, rfl, hreading⟩ := hkeyed.reservation hrow htarot.1
    cases hres : D.creditReservations.lookup readingId with
    | none => exact absurd hreading (h.unreserved readingId hres _ row hrow)
    | some res => exact ⟨readingId, res, hres, by simpa [hreading] using htarot.2, rfl⟩

/-- In every run without removals that starts without reservations and ledger rows, the
average cost of a tarot reading on the dashboard is the average of the reservations that
tarot readings made, free ones among them. -/
theorem avgCredits_agree_with_reservations (S : Deployment Body) (D : Db) (hD : PaymentsBelong D)
    (hreservations : D.creditReservations = ∅) (hledger : D.walletTransactions = ∅)
    (snapshots : Snapshots) (s : BackendServer Body)
    (run : Server.Reach (backend S) (fun c => c.removes = none) (.idle D) s)
    (hs : snapshots .tarotReservations = s.db) :
    getAvgCreditsPerTarotReading snapshots =
      ratio ((tarotReservations s.db).map fun e => e.2.amount).sum
        (tarotReservations s.db).length := by
  have hinv := (reach_commits (fun _ hc => hc) hD run).invariant
    (fun D' => ReservationsRecorded D' ∧ LedgerKeyed D')
    ⟨.of_empty hreservations hledger, fun key row hrow => by simp [hledger] at hrow⟩
    fun c D' L hD' he => ⟨he.2.reservationsRecorded hD'.1, he.2.ledgerKeyed hD'.2⟩
  have hperm := hinv.1.perm_rows hinv.2
  have hsum : ((tarotReservationRows s.db).map fun e => e.2.amount).sum =
      -((((tarotReservations s.db).map fun e => e.2.amount).sum : Nat) : Int) := by
    rw [← hperm.sum_eq, ← sum_neg_natCast, List.map_map]
    rfl
  have hlength := hperm.length_eq
  rw [List.length_map, List.length_map] at hlength
  simp only [getAvgCreditsPerTarotReading, hs, hsum, Int.natAbs_neg, Int.natAbs_natCast, hlength]

/-- The schedule of the submission of a tarot reading of one card. -/
def tarotSchedule : List (Move (Call ParsedWebhook) Answer) :=
  [.spawn 0 (.submit "ana" "r1"), .start 0, .exec 0, .commit 0, .start 0, .exec 0, .commit 0,
    .start 0, .exec 0, .commit 0, .start 0, .exec 0, .commit 0,
    .answer 0 (.activeDeckCards ReadingsService.DEFAULT_TAROT_DECK_CODE) (.ok [sampleCard]),
    .answer 0 (.randomInts 1 1) [(0, 0)], .answer 0 .now (0 : Time), .start 0, .exec 0, .exec 0,
    .exec 0, .exec 0, .exec 0, .exec 0, .exec 0, .commit 0]

theorem avgCredits_agree_with_reservations_of_submit : ∃ s : BackendServer ParsedWebhook,
    tarotReservations s.db = [("r1", ⟨"ana", 2, .ACTIVE⟩)] ∧
      getAvgCreditsPerTarotReading (fun _ => s.db) = ratio 2 1 := by
  have hrun : ((Server.idle tarotDb : BackendServer ParsedWebhook).run (backend sampleDeployment)
      tarotSchedule).map (fun s => tarotReservations s.db) =
        some [("r1", ⟨"ana", 2, .ACTIVE⟩)] := by decide +kernel
  obtain ⟨s, hs, hreservations⟩ := Option.map_eq_some_iff.mp hrun
  have run : Server.Reach (backend sampleDeployment) (fun c => c.removes = none) (.idle tarotDb) s :=
    Server.Reach.refl.run tarotSchedule (by
      simp [tarotSchedule, Move.Admissible, Call.removes, backend, Deployment.answers,
        DrawEngine.Choices]) hs
  have havg := avgCredits_agree_with_reservations sampleDeployment tarotDb (.of_empty rfl) rfl rfl
    (fun _ => s.db) s run rfl
  rw [hreservations] at havg
  exact ⟨s, hreservations, havg⟩

end Runs

/-! ## The funnel of rewarded ads -/

section Funnel

variable {Body : Type} {S : Deployment Body} {c : Call Body} {D : Db} {L : List RowWrite}

/-- A recorded ad has the type of its session. -/
def AdsTyped (D : Db) : Prop :=
  ∀ sessionId t session, D.rewardTransactions.lookup sessionId = some t →
    D.rewardSessions.lookup sessionId = some session → t.rewardType = session.rewardType

theorem Effect.adsTyped (he : Effect S c D L) (hpaid : SessionsPaid D) (h : AdsTyped D) :
    AdsTyped (view L D) := by
  intro sessionId t session ht hsession
  rcases he.ads_eq with ⟨s, rfl⟩ | ⟨hads, -⟩
  · rw [s.view_writes] at ht hsession
    replace ht := (Table.lookup_write ..).symm.trans ht
    replace hsession := (Table.lookup_write ..).symm.trans hsession
    split at ht
    · rename_i hid
      rw [if_pos hid] at hsession
      cases ht
      cases hsession
      rfl
    · rename_i hid
      rw [if_neg hid] at hsession
      exact h sessionId t session ht hsession
  · rw [hads] at ht
    obtain ⟨session₀, hsession₀⟩ := hpaid.owned sessionId t ht
    obtain ⟨session', hsession', -, htype, -⟩ := he.mono.sessions sessionId session₀ hsession₀
    obtain rfl := Option.some.inj (hsession'.symm.trans hsession)
    exact (h sessionId t session₀ ht hsession₀).trans htype.symm

/-- The recorded ads of a type. -/
def adsOfType (D : Db) (rewardType : RewardType) : Nat :=
  D.rewardTransactions.count fun _ t => t.rewardType = rewardType

def sessionsOfType (D : Db) (rewardType : RewardType) : Nat :=
  D.rewardSessions.count fun _ s => s.rewardType = rewardType

def completedOfType (D : Db) (rewardType : RewardType) : Nat :=
  D.rewardSessions.count fun _ s => s.status = .COMPLETED && s.rewardType = rewardType

/-- The completed sessions of a type are those with a recorded ad of the type. -/
theorem SessionsPaid.completedOfType_eq (h : SessionsPaid D) (htyped : AdsTyped D)
    (rewardType : RewardType) : completedOfType D rewardType = adsOfType D rewardType := by
  have hperm : ((D.rewardTransactions.findMany fun _ t => t.rewardType = rewardType).map
      fun e => e.2.rewardType).Perm ((D.rewardSessions.findMany fun _ s =>
        s.status = .COMPLETED && s.rewardType = rewardType).map fun e => e.2.rewardType) := by
    refine Table.perm_findMany_of_bijOn _ _ (fun sessionId _ => sessionId) ?_ ?_ ?_
    · intro sessionId t ht htype
      obtain ⟨session, hsession⟩ := h.owned sessionId t ht
      have hcompleted := (h.completed_iff sessionId session hsession).mpr
        (by simp [transactionsOf_eq, ht])
      have hsame := htyped sessionId t session ht hsession
      exact ⟨session, hsession, by simp_all, hsame.symm⟩
    · exact fun _ _ _ _ _ _ _ _ heq => heq
    · intro sessionId session hsession hboth
      rw [Bool.and_eq_true, decide_eq_true_eq, decide_eq_true_eq] at hboth
      have hone := (h.completed_iff sessionId session hsession).mp hboth.1
      rw [transactionsOf_eq] at hone
      cases ht : D.rewardTransactions.lookup sessionId with
      | none => simp [ht] at hone
      | some t =>
          have hsame := htyped sessionId t session ht hsession
          exact ⟨sessionId, t, ht, decide_eq_true (hsame.trans hboth.2), rfl⟩
  have hlength := hperm.length_eq
  rw [List.length_map, List.length_map] at hlength
  exact hlength.symm

/-- Sessions are never taken back, so those completed by then were all created by now. -/
theorem completedOfType_le {D' : Db} (h : Mono D D') (rewardType : RewardType) :
    completedOfType D rewardType ≤ sessionsOfType D' rewardType := by
  refine Table.count_le_of_persists h.sessions fun _ session session' hsame hboth => ?_
  rw [Bool.and_eq_true, decide_eq_true_eq, decide_eq_true_eq] at hboth
  exact decide_eq_true (hsame.2.1.trans hboth.2)

/-- In every run without removals that starts without sessions and ads: a session of each
type is completed for every recorded ad of the type, and when the sessions are counted no
earlier than the completed ones, no more are completed than created and every rate
of the funnel is between zero and one. -/
theorem rewardFunnel_agrees_with_ads (S : Deployment Body) (D : Db) (hD : PaymentsBelong D)
    (hsessions : D.rewardSessions = ∅) (hads : D.rewardTransactions = ∅) (snapshots : Snapshots)
    (s s' : BackendServer Body)
    (run : Server.Reach (backend S) (fun c => c.removes = none) (.idle D) s)
    (run' : Server.Reach (backend S) (fun c => c.removes = none) s s')
    (hcompleted : snapshots .completedSessions = s.db)
    (hcreated : snapshots .createdSessions = s'.db) :
    let funnel := getRewardFunnel snapshots
    funnel.sessionsCompleted = (REWARD_TYPES.map (adsOfType s.db)).sum ∧
      funnel.sessionsCompleted ≤ funnel.sessionsCreated ∧
      0 ≤ funnel.completionRate ∧ funnel.completionRate ≤ 1 ∧
      ∀ entry ∈ funnel.byType, entry.2.sessionsCompleted = adsOfType s.db entry.1 ∧
        entry.2.sessionsCompleted ≤ entry.2.sessionsCreated ∧
        0 ≤ entry.2.completionRate ∧ entry.2.completionRate ≤ 1 := by
  have hinv := (reach_commits (fun _ hc => hc) hD run).invariant
    (fun D' => SessionsPaid D' ∧ AdsTyped D')
    ⟨.of_empty hsessions hads, by simp [AdsTyped, hads]⟩
    fun c D' L hD' he => ⟨he.2.sessionsPaid hD'.1, he.2.adsTyped hD'.1 hD'.2⟩
  obtain ⟨hist, -, hpath⟩ := reach_commits_from (fun _ hc => hc) hD run run'
  have hmono : Mono s.db s'.db := (discipline S).path_mono hpath
  have hexact := hinv.1.completedOfType_eq hinv.2
  have hle := completedOfType_le hmono
  have htotal : (REWARD_TYPES.map (completedOfType s.db)).sum ≤
      (REWARD_TYPES.map (sessionsOfType s'.db)).sum := List.sum_le_sum fun t _ => hle t
  have hfunnel : getRewardFunnel snapshots =
      { sessionsCreated := (REWARD_TYPES.map (sessionsOfType s'.db)).sum
        sessionsCompleted := (REWARD_TYPES.map (completedOfType s.db)).sum
        completionRate := ratio (REWARD_TYPES.map (completedOfType s.db)).sum
          (REWARD_TYPES.map (sessionsOfType s'.db)).sum
        byType := REWARD_TYPES.map fun rewardType => (rewardType,
          { sessionsCreated := sessionsOfType s'.db rewardType
            sessionsCompleted := completedOfType s.db rewardType
            completionRate := ratio (completedOfType s.db rewardType)
              (sessionsOfType s'.db rewardType) }) } := by
    unfold getRewardFunnel
    rw [hcompleted, hcreated]
    rfl
  simp only [hfunnel]
  refine ⟨?_, htotal, ratio_nonneg _ _, ratio_le_one htotal, ?_⟩
  · rw [funext hexact]
  · intro entry hentry
    obtain ⟨rewardType, -, rfl⟩ := List.mem_map.mp hentry
    exact ⟨hexact rewardType, hle rewardType, ratio_nonneg _ _, ratio_le_one (hle rewardType)⟩

theorem rewardFunnel_agrees_with_ads_of_one : ∃ snapshots : Snapshots,
    (getRewardFunnel snapshots).sessionsCompleted = 1 ∧
      (getRewardFunnel snapshots).completionRate ≤ 1 := by
  have completed : ∃ s, Server.Reach (backend sampleDeployment) (fun c => c.removes = none)
      (.idle Db.empty) s ∧ (getRewardFunnel fun _ => s.db).sessionsCompleted = 1 := by
    refine ⟨_, Server.Reach.refl.run
      (sessionSchedule 0 "ana" .DAILY_CARD_UNLOCK "a1" ++ callbackSchedule 1 "a1" 3) ?_ rfl, rfl⟩
    rw [List.forall_mem_append]
    exact ⟨admissible_sessionSchedule rfl, admissible_callbackSchedule rfl⟩
  obtain ⟨s, run, hone⟩ := completed
  exact ⟨fun _ => s.db, hone, (rewardFunnel_agrees_with_ads sampleDeployment Db.empty
    (.of_empty rfl) rfl rfl _ s s run .refl rfl rfl).2.2.2.1⟩

end Funnel

end TaroTria
