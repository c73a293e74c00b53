import TaroTria.Backend.Refinement

/-!
# Ads pay for unlocks

Every unlock is paid for with completed ads: what was unlocked, at its price in
ads, and the counter never exceed the ads that were completed. A flash offer is
granted as soon as it is paid, so there the two are equal.
-/

namespace TaroTria

open Transactions

/-- The ads of a type that a user has completed. -/
def adsCompleted (D : Db) (userId : Id) (rewardType : RewardType) : Nat :=
  D.rewardTransactions.count fun _ t => t.userId = userId && t.rewardType = rewardType

/-- The counter of a user, which is 0 before its first ad. -/
def adsCounted (D : Db) (userId : Id) (rewardType : RewardType) : Nat :=
  (D.rewardProgress.lookup (userId, rewardType)).getD 0

/-- The flash offers that a user was granted. -/
def offersGranted (D : Db) (userId : Id) : Nat :=
  D.flashOfferUnlocks.count fun _ offer => offer.userId = userId

variable {Body : Type}

/-- The commits that consumed an unlock: each starts the counter again, as
`tryConsumeUnlock` does exactly when it answers `true` (`wp_tryConsumeUnlock_iff`). -/
def unlocksConsumed (hist : List (Call Body × List RowWrite)) (userId : Id)
    (rewardType : RewardType) : Nat :=
  hist.countP fun e => decide (RowWrite.rewardProgress (userId, rewardType) (some 0) ∈ e.2)

/-- The unlocks of a user: flash offers, and consumed unlocks of the other types. -/
def unlocksGranted (hist : List (Call Body × List RowWrite)) (D : Db) (userId : Id) :
    RewardType → Nat
  | .FLASH_OFFER_UNLOCK => offersGranted D userId
  | rewardType => unlocksConsumed hist userId rewardType

/-- The ads of every user cover its unlocks. -/
structure AdsPay (hist : List (Call Body × List RowWrite)) (D : Db) : Prop where
  consumed : ∀ userId rewardType, rewardType ≠ .FLASH_OFFER_UNLOCK →
    RewardsService.REWARD_ADS_REQUIRED rewardType * unlocksConsumed hist userId rewardType +
      adsCounted D userId rewardType ≤ adsCompleted D userId rewardType
  offered : ∀ userId,
    RewardsService.REWARD_ADS_REQUIRED .FLASH_OFFER_UNLOCK * offersGranted D userId +
      adsCounted D userId .FLASH_OFFER_UNLOCK = adsCompleted D userId .FLASH_OFFER_UNLOCK ∧
    adsCounted D userId .FLASH_OFFER_UNLOCK <
      RewardsService.REWARD_ADS_REQUIRED .FLASH_OFFER_UNLOCK

theorem AdsPay.of_empty {D : Db} (hads : D.rewardTransactions = ∅) (hcounts : D.rewardProgress = ∅)
    (hoffers : D.flashOfferUnlocks = ∅) : AdsPay ([] : List (Call Body × List RowWrite)) D where
  consumed := by simp [unlocksConsumed, adsCounted, adsCompleted, hads, hcounts]
  offered := by
    simp [offersGranted, adsCounted, adsCompleted, hads, hcounts, hoffers,
      RewardsService.REWARD_ADS_REQUIRED]

/-! ## What a commit does to the rewards -/

section Changes

open WalletService ReadingsService PaymentsService

/-- A commit with the writes `L` that leaves ads, counters and offers alone, but
for the consumption of an offer. -/
structure AdsAside (D D' : Db) (L : List RowWrite) : Prop where
  ads : D'.rewardTransactions = D.rewardTransactions
  counts : D'.rewardProgress = D.rewardProgress
  offers : ∀ p : FlashOfferUnlock → Bool, (∀ offer t, p { offer with consumedAt := t } = p offer) →
    D'.flashOfferUnlocks.count (fun _ => p) = D.flashOfferUnlocks.count fun _ => p
  no_reset : ∀ key, RowWrite.rewardProgress key (some 0) ∉ L
  no_ad : ∀ sessionId row, RowWrite.rewardTransaction sessionId row ∉ L

/-- A commit with the writes `L` that consumes a counter which has come to the
price of its unlock. -/
structure UnlockConsumed (D D' : Db) (L : List RowWrite) (userId : Id) (rewardType : RewardType) :
    Prop where
  not_offer : rewardType ≠ .FLASH_OFFER_UNLOCK
  enough : RewardsService.REWARD_ADS_REQUIRED rewardType ≤ adsCounted D userId rewardType
  ads : D'.rewardTransactions = D.rewardTransactions
  counts : D'.rewardProgress = D.rewardProgress.write (userId, rewardType) (some 0)
  offers : D'.flashOfferUnlocks = D.flashOfferUnlocks
  reset_mem_iff : ∀ key, RowWrite.rewardProgress key (some 0) ∈ L ↔ key = (userId, rewardType)
  no_ad : ∀ sessionId row, RowWrite.rewardTransaction sessionId row ∉ L

variable {S : Deployment Body} {c : Call Body} {L : List RowWrite} {D D' : Db}

theorem AdsAside.of_eq (hads : D'.rewardTransactions = D.rewardTransactions)
    (hcounts : D'.rewardProgress = D.rewardProgress)
    (hoffers : D'.flashOfferUnlocks = D.flashOfferUnlocks)
    (hreset : ∀ key, RowWrite.rewardProgress key (some 0) ∉ L)
    (had : ∀ sessionId row, RowWrite.rewardTransaction sessionId row ∉ L) : AdsAside D D' L :=
  ⟨hads, hcounts, fun _ _ => by rw [hoffers], hreset, had⟩

/-- A submission starts the counter again exactly when its `tryConsumeUnlock` has
answered `true`. -/
theorem Submission.reset_mem_iff {userId readingId : Id} (s : Submission D userId readingId) :
    RowWrite.rewardProgress (userId, .TAROT_READING_UNLOCK) (some 0) ∈ s.writes ↔
      s.unlocked = true := by
  cases hunlocked : s.unlocked <;>
    simp [Submission.writes, submissionWrites, reservationWrites, drawWrites, hunlocked,
      RewardsService.unlockWrites]

/-- A change of the backend completes an ad, consumes an unlock, or does neither. -/
theorem Effect.rewards (he : Effect S c D L) :
    (∃ s : Completion D, L = s.writes) ∨
      (∃ userId rewardType, UnlockConsumed D (view L D) L userId rewardType) ∨
      AdsAside D (view L D) L := by
  cases he with
  | completeSession s hc => exact .inl ⟨s, rfl⟩
  | @unlockDailyCard _ userId n hcount henough =>
      refine .inr (.inl ⟨userId, _, by simp, ?_, rfl, rfl, rfl, ?_, ?_⟩)
      · simpa [adsCounted, hcount] using henough
      · simp [RewardsService.unlockWrites]
      · simp [RewardsService.unlockWrites]
  | @submit _ userId readingId s =>
      rw [s.view_writes]
      cases hunlocked : s.unlocked with
      | false =>
          refine .inr (.inr (.of_eq rfl rfl rfl ?_ ?_)) <;>
            simp [Submission.writes, submissionWrites, reservationWrites, drawWrites, hunlocked]
      | true =>
          obtain ⟨-, n, hn, henough⟩ := s.unlock hunlocked
          refine .inr (.inl ⟨userId, .TAROT_READING_UNLOCK, by simp, ?_, rfl, rfl, rfl, ?_, ?_⟩)
          · simpa [adsCounted, hn] using henough
          all_goals
            simp [Submission.writes, submissionWrites, reservationWrites, drawWrites, hunlocked,
              RewardsService.unlockWrites]
  | createDiscountedOrder ho hoffer hclock hactive hpkg =>
      refine .inr (.inr ⟨rfl, rfl, fun p hp => ?_, by simp, by simp⟩)
      exact Table.count_write_same _ (fun _ => p) hoffer (hp _ _)
  | createWallet hw hk =>
      unfold bonusWrites
      split <;> exact .inr (.inr (.of_eq rfl rfl rfl (by simp) (by simp)))
  | close s hc hstatus hrejected =>
      split <;> exact .inr (.inr (.of_eq rfl rfl rfl (by simp [Settlement.paymentWrite])
        (by simp [Settlement.paymentWrite])))
  | approve s hc happroved hw hk =>
      rw [s.view_approval]
      exact .inr (.inr (.of_eq rfl rfl rfl (by simp [Settlement.paymentWrite, purchaseWrites])
        (by simp [Settlement.paymentWrite, purchaseWrites])))
  | adjust hw hfunds hk =>
      exact .inr (.inr (.of_eq rfl rfl rfl (by simp [adjustmentWrites])
        (by simp [adjustmentWrites])))
  | confirm hc hres hactive hw hk =>
      exact .inr (.inr (.of_eq rfl rfl rfl (by simp [consumptionWrites])
        (by simp [consumptionWrites])))
  | release hc hres hactive hw hk =>
      exact .inr (.inr (.of_eq rfl rfl rfl (by simp [releaseWrites]) (by simp [releaseWrites])))
  | createReading hr ho hdraft => exact .inr (.inr (.of_eq rfl rfl rfl (by simp) (by simp)))
  | setReading hc hr hsame hstatus => exact .inr (.inr (.of_eq rfl rfl rfl (by simp) (by simp)))
  | enqueue hc => exact .inr (.inr (.of_eq rfl rfl rfl (by simp) (by simp)))
  | createOrder ho hpkg => exact .inr (.inr (.of_eq rfl rfl rfl (by simp) (by simp)))
  | createPayment hk ho => exact .inr (.inr (.of_eq rfl rfl rfl (by simp) (by simp)))
  | recordDelivery hk => exact .inr (.inr (.of_eq rfl rfl rfl (by simp) (by simp)))
  | openSession hk ho htype hcreated =>
      exact .inr (.inr (.of_eq rfl rfl rfl (by simp) (by simp)))
  | logEvent hc => exact .inr (.inr (.of_eq rfl rfl rfl (by simp) (by simp)))
  | expireSession hc hsession hopen =>
      exact .inr (.inr (.of_eq rfl rfl rfl (by simp) (by simp)))

end Changes

namespace Completion

variable {D : Db} (s : Completion D) (userId : Id) (rewardType : RewardType)

/-- The session belongs to this user and earns this type. -/
def earns : Prop := s.session.userId = userId ∧ s.session.rewardType = rewardType

instance : Decidable (s.earns userId rewardType) := by
  unfold earns
  infer_instance

theorem key_eq_iff : (userId, rewardType) = (s.session.userId, s.session.rewardType) ↔
    s.earns userId rewardType := by
  rw [Prod.mk.injEq, earns, eq_comm, @eq_comm _ rewardType]

theorem count_eq : s.count = adsCounted D s.session.userId s.session.rewardType + 1 := rfl

/-- A completion grants an offer when its counter comes to the price of one. -/
theorem grantsOffer_iff : s.grantsOffer = true ↔ s.session.rewardType = .FLASH_OFFER_UNLOCK ∧
    RewardsService.REWARD_ADS_REQUIRED .FLASH_OFFER_UNLOCK ≤ s.count := by
  simp [grantsOffer, RewardsService.completesCycle]

theorem adsCompleted_view : adsCompleted (view s.writes D) userId rewardType =
    adsCompleted D userId rewardType + if s.earns userId rewardType then 1 else 0 := by
  rw [s.view_writes]
  unfold adsCompleted
  rw [Table.count_write_fresh _ _ s.unrecorded]
  refine congrArg (_ + ·) (if_congr ?_ rfl rfl)
  simp only [Bool.and_eq_true, decide_eq_true_eq]
  rfl

theorem offersGranted_view : offersGranted (view s.writes D) userId =
    offersGranted D userId +
      if s.grantsOffer = true ∧ s.session.userId = userId then 1 else 0 := by
  rw [s.view_writes]
  by_cases hgrants : s.grantsOffer = true
  · simp only [offersGranted, hgrants, if_true, true_and]
    rw [Table.count_write_fresh _ _ (s.offer hgrants)]
    refine congrArg (_ + ·) (if_congr ?_ rfl rfl)
    simp only [decide_eq_true_eq]
    rfl
  · simp [offersGranted, hgrants]

/-- The counter after the completion: an offer starts it again. -/
theorem adsCounted_view : adsCounted (view s.writes D) userId rewardType =
    if s.earns userId rewardType then if s.grantsOffer then 0 else s.count
    else adsCounted D userId rewardType := by
  rw [s.view_writes]
  unfold adsCounted
  by_cases hgrants : s.grantsOffer = true
  · have htype := (s.grantsOffer_iff.mp hgrants).1
    simp only [hgrants, if_true, ← htype, Table.lookup_write, s.key_eq_iff]
    split <;> simp
  · simp only [hgrants, Table.lookup_write, Bool.false_eq_true, if_false, s.key_eq_iff]
    split <;> simp

/-- A counter that starts again has paid for an offer. -/
theorem reset_mem_iff : RowWrite.rewardProgress (userId, rewardType) (some 0) ∈ s.writes ↔
    s.grantsOffer = true ∧ s.earns userId rewardType := by
  have hne : 0 ≠ s.count := by
    rw [s.count_eq]
    omega
  unfold writes RewardsService.completionWrites RewardsService.offerWrites
  by_cases hgrants : s.grantsOffer = true
  · have htype := (s.grantsOffer_iff.mp hgrants).1
    have hcycle : RewardsService.completesCycle s.session.rewardType s.count = true := hgrants
    rw [if_pos hcycle, ← s.key_eq_iff, htype]
    simp [hne, hgrants]
  · have hcycle : ¬ RewardsService.completesCycle s.session.rewardType s.count = true := hgrants
    rw [if_neg hcycle]
    simp [hne, hgrants]

end Completion

/-! ## The law -/

section Law

variable {S : Deployment Body} {hist : List (Call Body × List RowWrite)} {c : Call Body}
  {L : List RowWrite} {D D' : Db}

theorem unlocksConsumed_cons (userId : Id) (rewardType : RewardType) :
    unlocksConsumed ((c, L) :: hist) userId rewardType = unlocksConsumed hist userId rewardType +
      if RowWrite.rewardProgress (userId, rewardType) (some 0) ∈ L then 1 else 0 := by
  simp only [unlocksConsumed, List.countP_cons, decide_eq_true_eq]

theorem AdsPay.aside (h : AdsPay hist D) (hs : AdsAside D D' L) : AdsPay ((c, L) :: hist) D' := by
  refine ⟨fun userId rewardType hne => ?_, fun userId => ?_⟩
  · have hpaid := h.consumed userId rewardType hne
    rw [unlocksConsumed_cons, if_neg (hs.no_reset _)]
    simpa only [adsCounted, adsCompleted, hs.ads, hs.counts, add_zero] using hpaid
  · have hpaid := h.offered userId
    have hoffers : offersGranted D' userId = offersGranted D userId :=
      hs.offers (fun offer => offer.userId = userId) fun _ _ => rfl
    simpa only [adsCounted, adsCompleted, hs.ads, hs.counts, hoffers] using hpaid

theorem AdsPay.consume (h : AdsPay hist D) {userId : Id} {rewardType : RewardType}
    (hs : UnlockConsumed D D' L userId rewardType) : AdsPay ((c, L) :: hist) D' := by
  refine ⟨fun user type hother => ?_, fun user => ?_⟩
  · have hpaid := h.consumed user type hother
    rw [unlocksConsumed_cons]
    by_cases hkey : (user, type) = (userId, rewardType)
    · obtain ⟨rfl, rfl⟩ := Prod.mk.inj hkey
      have henough := hs.enough
      have hnew : adsCounted D' user type = 0 := by simp [adsCounted, hs.counts]
      have hsame : adsCompleted D' user type = adsCompleted D user type := by
        simp only [adsCompleted, hs.ads]
      rw [if_pos ((hs.reset_mem_iff _).mpr rfl), hnew, hsame, Nat.mul_add]
      omega
    · rw [if_neg ((hs.reset_mem_iff _).not.mpr hkey)]
      simpa only [adsCounted, adsCompleted, hs.ads, hs.counts, Table.lookup_write, hkey, if_false,
        add_zero] using hpaid
  · have hpaid := h.offered user
    have hkey : (user, RewardType.FLASH_OFFER_UNLOCK) ≠ (userId, rewardType) :=
      fun heq => hs.not_offer (Prod.mk.inj heq).2.symm
    simpa only [adsCounted, adsCompleted, offersGranted, hs.ads, hs.counts, hs.offers,
      Table.lookup_write, hkey, if_false] using hpaid

/-- One more ad, and perhaps the offer that it pays for. -/
theorem AdsPay.complete (h : AdsPay hist D) (s : Completion D) :
    AdsPay ((c, s.writes) :: hist) (view s.writes D) := by
  refine ⟨fun userId rewardType hne => ?_, fun userId => ?_⟩
  · have hpaid := h.consumed userId rewardType hne
    rw [unlocksConsumed_cons, s.adsCompleted_view, s.adsCounted_view]
    by_cases hearns : s.earns userId rewardType
    · have hgrants : ¬ s.grantsOffer = true :=
        fun hg => hne (hearns.2.symm.trans (s.grantsOffer_iff.mp hg).1)
      have hreset : RowWrite.rewardProgress (userId, rewardType) (some 0) ∉ s.writes :=
        fun hmem => hgrants ((s.reset_mem_iff _ _).mp hmem).1
      have hcount := s.count_eq
      rw [hearns.1, hearns.2] at hcount
      rw [if_pos hearns, if_pos hearns, if_neg hgrants, if_neg hreset, add_zero]
      omega
    · have hreset : RowWrite.rewardProgress (userId, rewardType) (some 0) ∉ s.writes :=
        fun hmem => hearns ((s.reset_mem_iff _ _).mp hmem).2
      rw [if_neg hearns, if_neg hearns, if_neg hreset]
      exact hpaid
  · obtain ⟨hpaid, hlt⟩ := h.offered userId
    rw [s.offersGranted_view, s.adsCompleted_view, s.adsCounted_view]
    by_cases hearns : s.earns userId .FLASH_OFFER_UNLOCK
    · have hcount := s.count_eq
      rw [hearns.1, hearns.2] at hcount
      rw [if_pos hearns, if_pos hearns]
      by_cases hgrants : s.grantsOffer = true
      · have henough := (s.grantsOffer_iff.mp hgrants).2
        rw [if_pos ⟨hgrants, hearns.1⟩, if_pos hgrants, Nat.mul_add]
        omega
      · have hshort := (s.grantsOffer_iff.not.mp hgrants)
        rw [if_neg fun hg => hgrants hg.1, if_neg hgrants, add_zero]
        simp only [hearns.2, true_and] at hshort
        omega
    · have hnot : ¬ (s.grantsOffer = true ∧ s.session.userId = userId) :=
        fun ⟨hgrants, huser⟩ => hearns ⟨huser, (s.grantsOffer_iff.mp hgrants).1⟩
      rw [if_neg hearns, if_neg hearns, if_neg hnot]
      exact ⟨hpaid, hlt⟩

/-- Every change of the backend keeps the ads and the unlocks in balance. -/
theorem Effect.adsPay (he : Effect S c D L) (h : AdsPay hist D) :
    AdsPay ((c, L) :: hist) (view L D) := by
  rcases he.rewards with ⟨s, rfl⟩ | ⟨_, _, hs⟩ | hs
  · exact h.complete s
  · exact h.consume hs
  · exact h.aside hs

theorem AdsPay.of_path {calls : Call Body → Prop} {D₀ : Db} (h₀ : AdsPay ([] : List (Call Body ×
    List RowWrite)) D₀) (path : Path ((discipline S).Permits calls) D₀ hist D) : AdsPay hist D := by
  induction path with
  | nil => exact h₀
  | cons tail he ih => exact he.2.adsPay ih

end Law

/-- Ads pay for every unlock, in every committed state of every run that starts
without ads, counters and offers: the price of the unlocks and the counter are
covered by the completed ads, and for flash offers they are equal to them. -/
theorem ads_pay_for_unlocks (S : Deployment Body) (D : Db) (hD : PaymentsBelong D)
    (hads : D.rewardTransactions = ∅) (hcounts : D.rewardProgress = ∅)
    (hoffers : D.flashOfferUnlocks = ∅) (s : BackendServer Body)
    (run : Server.Reach (backend S) (fun c => c.removes = none) (.idle D) s) (userId : Id)
    (rewardType : RewardType) :
    RewardsService.REWARD_ADS_REQUIRED rewardType *
        unlocksGranted s.history s.db userId rewardType + adsCounted s.db userId rewardType ≤
      adsCompleted s.db userId rewardType ∧
    (rewardType = .FLASH_OFFER_UNLOCK →
      RewardsService.REWARD_ADS_REQUIRED rewardType *
          unlocksGranted s.history s.db userId rewardType + adsCounted s.db userId rewardType =
        adsCompleted s.db userId rewardType ∧
      adsCounted s.db userId rewardType < RewardsService.REWARD_ADS_REQUIRED rewardType ∧
      unlocksGranted s.history s.db userId rewardType =
        adsCompleted s.db userId rewardType / 2) := by
  have h : AdsPay s.history s.db :=
    .of_path (.of_empty hads hcounts hoffers) (reach_commits (fun _ hc => hc) hD run)
  obtain ⟨hpaid, hlt⟩ := h.offered userId
  cases rewardType with
  | DAILY_CARD_UNLOCK => exact ⟨h.consumed userId _ (by simp), by simp⟩
  | TAROT_READING_UNLOCK => exact ⟨h.consumed userId _ (by simp), by simp⟩
  | FLASH_OFFER_UNLOCK =>
      refine ⟨hpaid.le, fun _ => ⟨hpaid, hlt, ?_⟩⟩
      simp only [RewardsService.REWARD_ADS_REQUIRED, unlocksGranted] at hpaid hlt ⊢
      omega

/-- A user who has had five free daily cards. -/
def oldUserDb : Db :=
  { Db.empty with
    users := (∅ : Table Id User).write "ana"
      (some ⟨"ana@example.com", "Ana", "", .ACTIVE, none, 0, ["USER"]⟩) }

/-- The schedule of a daily card on the sixth day, up to the consumption of the unlock. -/
def sixthCardSchedule : List (Move (Call ParsedWebhook) Answer) :=
  [.spawn 2 (.getTodaysCard "ana"), .answer 2 .now (5 * DailyCardService.MS_PER_DAY : Nat),
    .answer 2 (.cacheGet (DailyCardService.dailyCardCacheKey "ana" "1970-01-06")) none,
    .start 2, .exec 2, .commit 2, .start 2, .exec 2, .commit 2]

/-- One ad for the daily card is completed and consumed. -/
theorem ads_pay_for_unlocks_of_daily_card : ∃ s : BackendServer ParsedWebhook,
    adsCompleted s.db "ana" .DAILY_CARD_UNLOCK = 1 ∧
      unlocksGranted s.history s.db "ana" .DAILY_CARD_UNLOCK = 1 ∧
      adsCounted s.db "ana" .DAILY_CARD_UNLOCK = 0 := by
  have hrun : ((Server.idle oldUserDb : BackendServer ParsedWebhook).run (backend sampleDeployment)
      (sessionSchedule 0 "ana" .DAILY_CARD_UNLOCK "a1" ++ callbackSchedule 1 "a1" 3 ++
        sixthCardSchedule)).map (fun s => (adsCompleted s.db "ana" .DAILY_CARD_UNLOCK,
          unlocksGranted s.history s.db "ana" .DAILY_CARD_UNLOCK)) = some (1, 1) := by
    decide +kernel
  obtain ⟨s, hs, hcounts⟩ := Option.map_eq_some_iff.mp hrun
  obtain ⟨hcompleted, hgranted⟩ := Prod.mk.inj hcounts
  have run : Server.Reach (backend sampleDeployment) (fun c => c.removes = none) (.idle oldUserDb)
      s := Server.Reach.refl.run _ (List.forall_mem_append.mpr ⟨List.forall_mem_append.mpr
        ⟨admissible_sessionSchedule rfl, admissible_callbackSchedule rfl⟩,
        by simp [sixthCardSchedule, Move.Admissible, Call.removes, backend, Deployment.answers]⟩) hs
  have h := (ads_pay_for_unlocks sampleDeployment oldUserDb (.of_empty rfl) rfl rfl rfl s run "ana"
    .DAILY_CARD_UNLOCK).1
  rw [hcompleted, hgranted, RewardsService.REWARD_ADS_REQUIRED] at h
  exact ⟨s, hcompleted, hgranted, by omega⟩

end TaroTria
