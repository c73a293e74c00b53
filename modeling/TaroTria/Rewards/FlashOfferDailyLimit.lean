import TaroTria.Rewards.AdsPayForUnlocks

/-!
# The daily limit of flash offers

The limit is checked when a session is opened, and the offer is granted when
the session is completed. A day ends with too many offers exactly when some
offer is granted although the check would fail by then.
-/

namespace TaroTria

open Transactions RewardsService

/-- The flash offers granted to a user on the day that starts at `day`. -/
def offersOn (K : Calendar) (D : Db) (userId : Id) (day : Time) : Nat :=
  D.flashOfferUnlocks.count fun _ offer =>
    offer.userId = userId && K.startOfDay offer.createdAt = day

/-- The ads for flash offers that a user completed on a day. -/
def adsOn (K : Calendar) (D : Db) (userId : Id) (day : Time) : Nat :=
  D.rewardTransactions.count fun _ t =>
    t.userId = userId && t.rewardType = .FLASH_OFFER_UNLOCK && K.startOfDay t.createdAt = day

/-- The ad for a flash offer that a row write records. -/
def RowWrite.flashAd : RowWrite → Option RewardTransaction
  | .rewardTransaction _ row => row.filter fun t => t.rewardType = .FLASH_OFFER_UNLOCK
  | _ => none

/-- The row write makes an offer. -/
def RowWrite.makesOffer : RowWrite → Bool
  | .flashOfferUnlock _ row => row.isSome
  | _ => false

/-- The ads for flash offers that a commit records. -/
def flashAds (L : List RowWrite) : List RewardTransaction := L.filterMap RowWrite.flashAd

variable {Body : Type}

/-- The ads of each user are committed in the order of their days. -/
def InDayOrder (K : Calendar) (hist : List (Call Body × List RowWrite)) : Prop :=
  hist.Pairwise fun newer older => ∀ t ∈ flashAds newer.2, ∀ t' ∈ flashAds older.2,
    t'.userId = t.userId → K.startOfDay t'.createdAt ≤ K.startOfDay t.createdAt

instance (K : Calendar) (hist : List (Call Body × List RowWrite)) : Decidable (InDayOrder K hist) :=
  inferInstanceAs (Decidable (List.Pairwise _ _))

/-- A commit that completes an ad and makes an offer finds the daily limit not
reached: the check made when the session was opened still passes. -/
def WithinLimit (K : Calendar) (D : Db) (L : List RowWrite) : Prop :=
  L.any RowWrite.makesOffer = true → ∀ t ∈ flashAds L, dailyLimitReached
    (D.rewardTransactions.count fun _ => completedToday K t.userId t.createdAt) = false

/-- Every commit since `D₀` was within the limit. -/
def AllWithinLimit (K : Calendar) (D₀ : Db) : List (Call Body × List RowWrite) → Prop
  | [] => True
  | (_, L) :: older => WithinLimit K (replay older D₀) L ∧ AllWithinLimit K D₀ older

/-- A commit that records no ad records none for a flash offer. -/
theorem flashAds_eq_nil {L : List RowWrite}
    (h : ∀ sessionId row, RowWrite.rewardTransaction sessionId row ∉ L) : flashAds L = [] := by
  rw [flashAds, List.filterMap_eq_nil_iff]
  intro w hw
  cases w with
  | rewardTransaction sessionId row => exact absurd hw (h sessionId row)
  | _ => rfl

/-! ## What a completion does to a day -/

namespace Completion

variable {K : Calendar} {D : Db} (s : Completion D) (userId : Id) (day : Time)

theorem adsOn_view : adsOn K (view s.writes D) userId day = adsOn K D userId day +
    if s.earns userId .FLASH_OFFER_UNLOCK ∧ K.startOfDay s.createdAt = day then 1 else 0 := by
  rw [s.view_writes]
  unfold adsOn
  rw [Table.count_write_fresh _ _ s.unrecorded]
  refine congrArg (_ + ·) (if_congr ?_ rfl rfl)
  simp only [Bool.and_eq_true, decide_eq_true_eq]
  rfl

theorem offersOn_view : offersOn K (view s.writes D) userId day = offersOn K D userId day +
    if s.grantsOffer = true ∧ s.session.userId = userId ∧ K.startOfDay s.createdAt = day then 1
    else 0 := by
  rw [s.view_writes]
  by_cases hgrants : s.grantsOffer = true
  · simp only [offersOn, hgrants, if_true, true_and]
    rw [Table.count_write_fresh _ _ (s.offer hgrants)]
    refine congrArg (_ + ·) (if_congr ?_ rfl rfl)
    simp only [Bool.and_eq_true, decide_eq_true_eq]
    rfl
  · simp [offersOn, hgrants]

theorem flashAds_writes : flashAds s.writes =
    if s.session.rewardType = .FLASH_OFFER_UNLOCK then
      [adTransaction s.session s.provider s.createdAt] else [] := by
  have hoffer : (if completesCycle s.session.rewardType s.count = true then
      offerWrites s.session.userId s.offeredAt s.createdAt s.offerId else []).filterMap
        RowWrite.flashAd = [] := by
    split <;> rfl
  unfold flashAds writes completionWrites
  rw [List.filterMap_append, hoffer]
  split <;> rename_i htype <;>
    simp [List.filterMap_cons, RowWrite.flashAd, Option.filter, adTransaction, htype]

theorem makesOffer_writes : s.writes.any RowWrite.makesOffer = s.grantsOffer := by
  unfold writes completionWrites offerWrites grantsOffer
  split <;> simp_all [RowWrite.makesOffer, count]

end Completion

/-! ## The law of a day -/

section Law

variable {K : Calendar} {D₀ D D' : Db} {hist : List (Call Body × List RowWrite)} {c : Call Body}
  {L : List RowWrite}

/-- No ad for a flash offer of a user is of a later day. -/
def NoLaterAd (K : Calendar) (D : Db) (userId : Id) (day : Time) : Prop :=
  ∀ sessionId t, D.rewardTransactions.lookup sessionId = some t → t.userId = userId →
    t.rewardType = .FLASH_OFFER_UNLOCK → K.startOfDay t.createdAt ≤ day

/-- On its last day a user has earned one offer for two ads, up to the ad that its
counter carries into the day or out of it. The limit is kept as long as every
commit is within it. -/
structure DayLaw (K : Calendar) (D₀ : Db) (hist : List (Call Body × List RowWrite)) (D : Db) :
    Prop where
  recorded : ∀ sessionId t, D.rewardTransactions.lookup sessionId = some t →
    t.rewardType = .FLASH_OFFER_UNLOCK → ∃ e ∈ hist, t ∈ flashAds e.2
  balanced : ∀ userId day, NoLaterAd K D userId day →
    adsOn K D userId day ≤
      2 * offersOn K D userId day + adsCounted D userId .FLASH_OFFER_UNLOCK ∧
    2 * offersOn K D userId day + adsCounted D userId .FLASH_OFFER_UNLOCK ≤
      adsOn K D userId day + 1
  limit : (∀ userId day, offersOn K D userId day ≤ FLASH_OFFER_DAILY_LIMIT) ↔
    AllWithinLimit K D₀ hist

theorem DayLaw.of_empty (hads : D.rewardTransactions = ∅) (hcounts : D.rewardProgress = ∅)
    (hoffers : D.flashOfferUnlocks = ∅) :
    DayLaw K D ([] : List (Call Body × List RowWrite)) D where
  recorded := by simp [hads]
  balanced := by simp [adsOn, offersOn, adsCounted, hads, hcounts, hoffers]
  limit := by simp [offersOn, hoffers, AllWithinLimit]

/-- Before its last day a user has no ad of that day. -/
theorem adsOn_eq_zero {userId : Id} {day day' : Time} (h : NoLaterAd K D userId day)
    (hday : day < day') : adsOn K D userId day' = 0 := by
  refine Table.count_eq_zero fun sessionId t ht => ?_
  by_contra hof
  simp only [Bool.not_eq_false, Bool.and_eq_true, decide_eq_true_eq] at hof
  obtain ⟨⟨huser, htype⟩, heq⟩ := hof
  exact absurd (heq ▸ h sessionId t ht huser htype) (not_le.mpr hday)

/-- The ads that the check of the limit counts are those of the last day. -/
theorem count_completedToday {userId : Id} {now : Time}
    (h : NoLaterAd K D userId (K.startOfDay now)) :
    (D.rewardTransactions.count fun _ => completedToday K userId now) =
      adsOn K D userId (K.startOfDay now) := by
  refine Table.count_congr fun sessionId t ht => ?_
  rw [Bool.eq_iff_iff]
  simp only [completedToday, Bool.and_eq_true, decide_eq_true_eq, and_congr_right_iff]
  rintro ⟨huser, htype⟩
  constructor
  · intro hle
    refine le_antisymm (h sessionId t ht huser htype) ?_
    rw [← K.startOfDay_idem now]
    exact K.startOfDay_mono hle
  · intro heq
    exact heq ▸ K.startOfDay_le t.createdAt

/-- A commit without an ad for a flash offer, and without such an offer. -/
theorem DayLaw.same (h : DayLaw K D₀ hist D)
    (hrows : ∀ sessionId t, t.rewardType = .FLASH_OFFER_UNLOCK →
      (D'.rewardTransactions.lookup sessionId = some t ↔
        D.rewardTransactions.lookup sessionId = some t))
    (hads : ∀ userId day, adsOn K D' userId day = adsOn K D userId day)
    (hoffers : ∀ userId day, offersOn K D' userId day = offersOn K D userId day)
    (hcounts : ∀ userId, adsCounted D' userId .FLASH_OFFER_UNLOCK =
      adsCounted D userId .FLASH_OFFER_UNLOCK)
    (hL : flashAds L = []) : DayLaw K D₀ ((c, L) :: hist) D' where
  recorded := by
    intro sessionId t ht htype
    obtain ⟨e, he, hmem⟩ := h.recorded sessionId t ((hrows sessionId t htype).mp ht) htype
    exact ⟨e, List.mem_cons_of_mem _ he, hmem⟩
  balanced := by
    intro userId day hlast
    rw [hads, hoffers, hcounts]
    exact h.balanced userId day fun id t ht huser htype =>
      hlast id t ((hrows id t htype).mpr ht) huser htype
  limit := by
    have hwithin : WithinLimit K (replay hist D₀) L := by
      simp [WithinLimit, hL]
    simp only [hoffers, h.limit, AllWithinLimit, hwithin, true_and]

/-- The rows of ads that a completion leaves. -/
theorem Completion.lookup_rewardTransactions (s : Completion D) (sessionId : Id) :
    (view s.writes D).rewardTransactions.lookup sessionId =
      if sessionId = s.sessionId then some (adTransaction s.session s.provider s.createdAt)
      else D.rewardTransactions.lookup sessionId := by
  rw [s.view_writes]
  exact Table.lookup_write _ _ _ _

/-- The ads of before are still there. -/
theorem Completion.rewardTransactions_kept (s : Completion D) {sessionId : Id}
    {t : RewardTransaction} (ht : D.rewardTransactions.lookup sessionId = some t) :
    (view s.writes D).rewardTransactions.lookup sessionId = some t := by
  rw [s.lookup_rewardTransactions, if_neg, ht]
  rintro rfl
  simp [s.unrecorded] at ht

/-- A completed ad of another type. -/
theorem DayLaw.completeOther (h : DayLaw K D₀ hist D) (s : Completion D)
    (htype : s.session.rewardType ≠ .FLASH_OFFER_UNLOCK) :
    DayLaw K D₀ ((c, s.writes) :: hist) (view s.writes D) := by
  have hearns : ∀ userId, ¬ s.earns userId .FLASH_OFFER_UNLOCK := fun _ hearns => htype hearns.2
  have hgrants : ¬ s.grantsOffer = true := fun hg => htype (s.grantsOffer_iff.mp hg).1
  refine h.same (fun sessionId t ht => ?_) (fun userId day => ?_) (fun userId day => ?_)
    (fun userId => ?_) (by rw [s.flashAds_writes, if_neg htype])
  · refine ⟨fun hnew => ?_, s.rewardTransactions_kept⟩
    rw [s.lookup_rewardTransactions] at hnew
    split at hnew
    · cases hnew
      exact absurd ht htype
    · exact hnew
  · rw [s.adsOn_view, if_neg fun hon => hearns _ hon.1, add_zero]
  · rw [s.offersOn_view, if_neg fun hon => hgrants hon.1, add_zero]
  · rw [s.adsCounted_view, if_neg (hearns _)]

/-- A completed ad for a flash offer, of a day that no ad of its user is later than. -/
theorem DayLaw.completeFlash (h : DayLaw K D₀ hist D) (hD : replay hist D₀ = D)
    (hpay : AdsPay hist D) (s : Completion D)
    (htype : s.session.rewardType = .FLASH_OFFER_UNLOCK)
    (hlast : NoLaterAd K D s.session.userId (K.startOfDay s.createdAt)) :
    DayLaw K D₀ ((c, s.writes) :: hist) (view s.writes D) := by
  have hlt := (hpay.offered s.session.userId).2
  have hcount := s.count_eq
  rw [htype] at hcount
  have hgrants : s.grantsOffer = true ↔ 2 ≤ s.count := by
    simp [s.grantsOffer_iff, htype, REWARD_ADS_REQUIRED]
  simp only [REWARD_ADS_REQUIRED] at hlt
  have hearns : ∀ userId, s.earns userId .FLASH_OFFER_UNLOCK ↔ s.session.userId = userId :=
    fun userId => and_iff_left htype
  refine ⟨fun sessionId t ht hflash => ?_, fun userId day hnew => ?_, ?_⟩
  · rw [s.lookup_rewardTransactions] at ht
    split at ht
    · refine ⟨_, List.mem_cons_self, ?_⟩
      rw [s.flashAds_writes, if_pos htype, Option.some.inj ht]
      exact List.mem_cons_self
    · obtain ⟨e, he, hmem⟩ := h.recorded sessionId t ht hflash
      exact ⟨e, List.mem_cons_of_mem _ he, hmem⟩
  · have hbalanced := h.balanced userId day fun id t ht => hnew id t (s.rewardTransactions_kept ht)
    rw [s.adsOn_view, s.offersOn_view, s.adsCounted_view]
    simp only [hearns]
    by_cases huser : s.session.userId = userId
    · subst huser
      have hday : K.startOfDay s.createdAt ≤ day :=
        hnew s.sessionId _ (by rw [s.lookup_rewardTransactions, if_pos rfl]) rfl htype
      rcases hday.eq_or_lt with rfl | hbefore
      · by_cases hg : s.grantsOffer = true
        · have := hgrants.mp hg
          simp only [hg, true_and, if_true]
          omega
        · have := hgrants.not.mp hg
          simp only [hg, Bool.false_eq_true, false_and, true_and, if_true, if_false]
          omega
      · -- The day has not begun: no ad is of it, so no offer is either.
        have hnone := adsOn_eq_zero hlast hbefore
        simp only [hbefore.ne, and_false, if_false, if_true, add_zero]
        split
        · omega
        · rename_i hg
          have := hgrants.not.mp hg
          omega
    · simpa only [huser, false_and, and_false, if_false, add_zero] using hbalanced
  · have hwithin : WithinLimit K D s.writes ↔ (s.grantsOffer = true →
        adsOn K D s.session.userId (K.startOfDay s.createdAt) < 2) := by
      unfold WithinLimit
      rw [s.makesOffer_writes, s.flashAds_writes, if_pos htype]
      simp only [List.mem_singleton, forall_eq]
      rw [show (adTransaction s.session s.provider s.createdAt).userId = s.session.userId from rfl,
        show (adTransaction s.session s.provider s.createdAt).createdAt = s.createdAt from rfl,
        count_completedToday hlast]
      refine imp_congr_right fun _ => ?_
      rw [dailyLimitReached, decide_eq_false_iff_not]
      simp only [FLASH_OFFER_DAILY_LIMIT, REWARD_ADS_REQUIRED]
      omega
    have hbalanced := h.balanced _ _ hlast
    simp only [AllWithinLimit, hD, ← h.limit, hwithin, FLASH_OFFER_DAILY_LIMIT, s.offersOn_view]
    constructor
    · intro hkept
      refine ⟨fun hg => ?_, fun userId day => (Nat.le_add_right _ _).trans (hkept userId day)⟩
      have hone := hkept s.session.userId (K.startOfDay s.createdAt)
      simp only [hg, true_and, if_true] at hone
      omega
    · rintro ⟨hshort, hkept⟩ userId day
      split
      · rename_i hon
        obtain ⟨hg, rfl, rfl⟩ := hon
        have := hshort hg
        have := hgrants.mp hg
        omega
      · exact hkept userId day

theorem AdsAside.dayLaw (hs : AdsAside D D' L) (h : DayLaw K D₀ hist D) :
    DayLaw K D₀ ((c, L) :: hist) D' := by
  refine h.same (fun _ _ _ => by rw [hs.ads]) (fun _ _ => by simp only [adsOn, hs.ads])
    (fun userId day => ?_) (fun _ => by simp only [adsCounted, hs.counts]) (flashAds_eq_nil hs.no_ad)
  exact hs.offers (fun offer => offer.userId = userId && K.startOfDay offer.createdAt = day)
    fun _ _ => rfl

theorem UnlockConsumed.dayLaw {userId : Id} {rewardType : RewardType}
    (hs : UnlockConsumed D D' L userId rewardType) (h : DayLaw K D₀ hist D) :
    DayLaw K D₀ ((c, L) :: hist) D' := by
  refine h.same (fun _ _ _ => by rw [hs.ads]) (fun _ _ => by simp only [adsOn, hs.ads])
    (fun _ _ => by simp only [offersOn, hs.offers]) (fun user => ?_) (flashAds_eq_nil hs.no_ad)
  have hkey : (user, RewardType.FLASH_OFFER_UNLOCK) ≠ (userId, rewardType) :=
    fun heq => hs.not_offer (Prod.mk.inj heq).2.symm
  rw [adsCounted, hs.counts, Table.lookup_write_of_ne _ _ hkey, adsCounted]

variable {S : Deployment Body}

theorem DayLaw.of_path {calls : Call Body → Prop} (path : Path ((discipline S).Permits calls) D₀
    hist D) (h₀ : DayLaw K D₀ ([] : List (Call Body × List RowWrite)) D₀)
    (hpay₀ : AdsPay ([] : List (Call Body × List RowWrite)) D₀) (hclock : InDayOrder K hist) :
    DayLaw K D₀ hist D := by
  induction path with
  | nil => exact h₀
  | @cons hist D c L tail he ih =>
      obtain ⟨hnewer, holder⟩ := List.pairwise_cons.mp hclock
      have h := ih holder
      rcases he.2.rewards with ⟨s, rfl⟩ | ⟨_, _, hs⟩ | hs
      · by_cases htype : s.session.rewardType = .FLASH_OFFER_UNLOCK
        · refine h.completeFlash tail.replay_eq (hpay₀.of_path tail) s htype ?_
          intro sessionId t ht huser hflash
          obtain ⟨e, he, hmem⟩ := h.recorded sessionId t ht hflash
          refine hnewer e he (adTransaction s.session s.provider s.createdAt) ?_ t hmem huser
          rw [s.flashAds_writes, if_pos htype]
          exact List.mem_singleton_self _
        · exact h.completeOther s htype
      · exact hs.dayLaw h
      · exact hs.dayLaw h

end Law

/-- In every run that starts without ads, counters and offers, and whose ads are
committed in the order of their days, no user gets more flash offers on a day
than the limit allows if and only if every commit that makes an offer is within
the limit: the ads of that day have not earned an offer before it. -/
theorem flash_offers_within_limit_iff (S : Deployment Body) (D : Db) (hD : PaymentsBelong D)
    (hads : D.rewardTransactions = ∅) (hcounts : D.rewardProgress = ∅)
    (hoffers : D.flashOfferUnlocks = ∅) (s : BackendServer Body)
    (run : Server.Reach (backend S) (fun c => c.removes = none) (.idle D) s)
    (hclock : InDayOrder S.rewards.calendar s.history) :
    (∀ userId day, offersOn S.rewards.calendar s.db userId day ≤ FLASH_OFFER_DAILY_LIMIT) ↔
      AllWithinLimit S.rewards.calendar D s.history :=
  (DayLaw.of_path (reach_commits (fun _ hc => hc) hD run) (.of_empty hads hcounts hoffers)
    (.of_empty hads hcounts hoffers) hclock).limit

set_option maxRecDepth 2000 in
/-- Two sessions, and the offer that they earn together. -/
theorem flash_offers_within_limit_of_two : ∃ s : BackendServer ParsedWebhook,
    offersOn .utc s.db "ana" 0 = 1 ∧ AllWithinLimit .utc Db.empty s.history := by
  have completed : ∃ s, Server.Reach (backend sampleDeployment) (fun c => c.removes = none)
      (.idle Db.empty) s ∧ InDayOrder .utc s.history ∧ offersOn .utc s.db "ana" 0 = 1 ∧
      s.db.flashOfferUnlocks.entries.length = 1 := by
    refine ⟨_, Server.Reach.refl.run
      (sessionSchedule 0 "ana" .FLASH_OFFER_UNLOCK "a1" ++
        sessionSchedule 1 "ana" .FLASH_OFFER_UNLOCK "a2" ++
        callbackSchedule 2 "a1" 3 ++ callbackSchedule 3 "a2" 5) ?_ rfl, ?_, ?_, rfl⟩
    · simp only [List.forall_mem_append]
      exact ⟨⟨⟨admissible_sessionSchedule rfl, admissible_sessionSchedule rfl⟩,
        admissible_callbackSchedule rfl⟩, admissible_callbackSchedule rfl⟩
    · decide
    · decide
  obtain ⟨s, run, hclock, hone, hlength⟩ := completed
  have hiff := flash_offers_within_limit_iff sampleDeployment Db.empty (.of_empty rfl) rfl rfl rfl
    s run hclock
  refine ⟨s, hone, hiff.mp fun userId day => ?_⟩
  exact (Table.count_le_length _ _).trans hlength.le

set_option maxRecDepth 4000 in
/-- Four sessions that are opened while no ad is completed earn two offers on one day. -/
theorem flash_offers_over_limit : ∃ s : BackendServer ParsedWebhook,
    Server.Reach (backend sampleDeployment)
      (fun c => c.completes = true ∨ ∃ userId rewardType, c = .createSession userId rewardType)
      (.idle Db.empty) s ∧ FLASH_OFFER_DAILY_LIMIT < offersOn .utc s.db "ana" 0 := by
  refine ⟨_, Server.Reach.refl.run
    (sessionSchedule 0 "ana" .FLASH_OFFER_UNLOCK "a1" ++
      sessionSchedule 1 "ana" .FLASH_OFFER_UNLOCK "a2" ++
      sessionSchedule 2 "ana" .FLASH_OFFER_UNLOCK "a3" ++
      sessionSchedule 3 "ana" .FLASH_OFFER_UNLOCK "a4" ++
      callbackSchedule 4 "a1" 3 ++ callbackSchedule 5 "a2" 5 ++ callbackSchedule 6 "a3" 3 ++
      callbackSchedule 7 "a4" 5) ?_ rfl, ?_⟩
  · have hopen : ∀ t sessionId, ∀ m ∈ sessionSchedule t "ana" .FLASH_OFFER_UNLOCK sessionId,
        m.Admissible (backend sampleDeployment) fun c : Call ParsedWebhook =>
          c.completes = true ∨ ∃ userId rewardType, c = .createSession userId rewardType :=
      fun t sessionId => admissible_sessionSchedule (.inr ⟨_, _, rfl⟩)
    have hwatch : ∀ t sessionId writes, ∀ m ∈ callbackSchedule t sessionId writes,
        m.Admissible (backend sampleDeployment) fun c : Call ParsedWebhook =>
          c.completes = true ∨ ∃ userId rewardType, c = .createSession userId rewardType :=
      fun t sessionId writes => admissible_callbackSchedule (.inl rfl)
    simp only [List.forall_mem_append]
    exact ⟨⟨⟨⟨⟨⟨⟨hopen 0 _, hopen 1 _⟩, hopen 2 _⟩, hopen 3 _⟩, hwatch 4 _ _⟩, hwatch 5 _ _⟩,
      hwatch 6 _ _⟩, hwatch 7 _ _⟩
  · decide

end TaroTria
