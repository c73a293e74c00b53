import TaroTria.Backend.ReadingCalls

/-!
# The calls on rewards

The requests of the rewards service and of the daily card commit only the
changes of `Effect`, whatever else runs at the same time.
-/

namespace TaroTria

open Transactions

namespace RewardsService
variable {Body : Type} {S : Deployment Body} {c : Call Body} {D : Db}

/-- After an event nothing about the rows needs to be known. -/
theorem safe_logEvent {type : String} {userId : Id} {metadata : List (String × String)}
    {P : Except Err Unit → Db → Prop} (hc : c.logs = true) (hP : ∀ r D', Mono D D' → P r D') :
    (logEvent type userId metadata).Safe (discipline S) S.answers c P D := by
  unfold logEvent
  apply Proc.Safe.bind
  apply safe_call
  · exact fun e D' hD' => hP _ D' hD'
  intro id _ D₁ hD₁
  apply Proc.Safe.bind
  apply safe_commit
  · intro r D₂ hD₂
    cases r with
    | ok _ => exact fun D' hD' => hP _ D' (hD₁.trans (hD₂.trans hD'))
    | error e => exact hP _ D₂ (hD₁.trans hD₂)
  intro D₂ _
  apply Db.analyticsEvent.wp_create
  intro _ _
  exact .logEvent hc

/-- An event and an answer at the end of a request. -/
theorem safe_logEvent_then {α : Type} {type : String} {userId : Id}
    {metadata : List (String × String)} {rest : Request α} (hc : c.logs = true)
    (h : ∀ D', rest.Safe (discipline S) S.answers c (fun _ _ => True) D') :
    (do logEvent type userId metadata; rest : Request α).Safe (discipline S) S.answers c
      (fun _ _ => True) D := by
  apply Proc.Safe.bind
  apply safe_logEvent hc
  intro r D' _
  cases r with
  | ok _ => exact h D'
  | error e => trivial

theorem safe_getProgress {userId : Id} {rewardType : RewardType} :
    (getProgress userId rewardType).Safe (discipline S) S.answers c (fun _ _ => True) D := by
  unfold getProgress
  apply Proc.Safe.bind
  apply safe_read
  · intros; trivial
  · exact fun _ _ _ _ _ _ => trivial

theorem safe_assertFlashOfferDailyLimitNotExceeded {K : Calendar} {userId : Id} :
    (assertFlashOfferDailyLimitNotExceeded K userId).Safe (discipline S) S.answers c
      (fun _ _ => True) D := by
  unfold assertFlashOfferDailyLimitNotExceeded
  apply Proc.Safe.bind
  apply safe_call
  · intros; trivial
  intro now _ D₁ _
  apply Proc.Safe.bind
  apply safe_read
  · intros; trivial
  intro D₀ D₂ _ _
  simp only
  split <;> exact fun _ _ => trivial

theorem safe_createSession {userId : Id} {rewardType : RewardType} :
    (createSession S.rewards.calendar userId rewardType).Safe (discipline S) S.answers
      (.createSession userId rewardType) (fun _ _ => True) D := by
  have opening : ∀ D', (do
      let now ← Proc.call .now
      let id ← Proc.call .randomUUID
      let session ← Proc.transaction <| Db.rewardSession.create id
        { userId, rewardType, provider := defaultProvider, status := .CREATED, completedAt := none,
          expiresAt := now + REWARD_SESSION_TTL_SECONDS * 1000 }
      logEvent "ad_requested" userId
        [("rewardType", rewardType.name), ("provider", session.provider), ("sessionId", id)]
      return toRewardSessionSummary id session : Request RewardSessionSummary).Safe (discipline S)
        S.answers (.createSession userId rewardType) (fun _ _ => True) D' := by
    intro D'
    apply Proc.Safe.bind
    apply safe_call
    · intros; trivial
    intro now _ D₁ _
    apply Proc.Safe.bind
    apply safe_call
    · intros; trivial
    intro id _ D₂ _
    apply Proc.Safe.bind
    apply safe_commit
    · rintro (e | session) D₃ _
      · trivial
      · exact safe_logEvent_then rfl fun _ _ _ => trivial
    intro D₃ _
    apply Db.rewardSession.wp_create
    intro hk _
    exact .openSession hk rfl rfl rfl
  unfold createSession
  split
  · apply Proc.Safe.bind
    refine safe_assertFlashOfferDailyLimitNotExceeded.mono fun r D' _ => ?_
    cases r with
    | ok _ => exact opening D'
    | error e => trivial
  · exact opening D

theorem safe_completeSession {sessionId : Id} {session : RewardSession} {provider : String}
    {D₀ : Db} (hc : c.completes = true) (hD₀ : Mono D₀ D)
    (hsession : D₀.rewardSessions.lookup sessionId = some session) :
    (completeSession sessionId session provider).Safe (discipline S) S.answers c
      (fun _ _ => True) D := by
  have hlogs : c.logs = true := by
    cases c <;> first | exact hc | rfl
  unfold completeSession
  apply Proc.Safe.bind
  apply safe_call
  · intros; trivial
  intro completedAt _ D₁ hD₁
  apply Proc.Safe.bind
  apply safe_call
  · intros; trivial
  intro offeredAt _ D₂ hD₂
  apply Proc.Safe.bind
  apply safe_call
  · intros; trivial
  intro createdAt _ D₃ hD₃
  apply Proc.Safe.bind
  apply safe_call
  · intros; trivial
  intro offerId _ D₄ hD₄
  have answer : ∀ (wasCompletedHere : Bool) D', (do
      if !wasCompletedHere then
        return ⟨false, some "already_completed"⟩
      let metadata := [("rewardType", session.rewardType.name), ("sessionId", sessionId),
        ("provider", provider)]
      logEvent "ad_completed" session.userId metadata
      logEvent "reward_granted" session.userId metadata
      return ⟨true, none⟩ : Request ProcessCallbackResult).Safe (discipline S) S.answers c
        (fun _ _ => True) D' := by
    intro wasCompletedHere D'
    cases wasCompletedHere with
    | false => exact fun _ _ => trivial
    | true => exact safe_logEvent_then hlogs fun _ => safe_logEvent_then hlogs fun _ _ _ => trivial
  apply Proc.Safe.bind
  apply Proc.Safe.handle
  apply safe_commit
  · rintro (e | wasCompletedHere) D₅ _
    · cases e <;> first | exact fun D' _ => answer false D' | exact fun _ _ => trivial
    · exact answer wasCompletedHere D₅
  intro D₅ hD₅
  have hmono := hD₀.trans (hD₁.trans (hD₂.trans (hD₃.trans (hD₄.trans hD₅))))
  apply wp_completionTx
  · intro row hrow
    obtain ⟨row', hrow', huser, htype, -⟩ := hmono.sessions sessionId session hsession
    obtain rfl : row' = row := Option.some.inj (hrow'.symm.trans hrow)
    exact ⟨huser, htype⟩
  · exact fun hnil => absurd rfl hnil
  · intro row hrow hopen hunrecorded hoffer _
    exact .completeSession
      { sessionId, session := row, provider, completedAt, offeredAt, createdAt, offerId
        session_mem := hrow, isOpen := hopen, unrecorded := hunrecorded, offer := hoffer } hc

theorem safe_registerCompletedSession {sessionId : Id} {provider : String}
    (hc : c.completes = true) :
    (registerCompletedSession sessionId provider).Safe (discipline S) S.answers c
      (fun _ _ => True) D := by
  have hlogs : c.logs = true := by
    cases c <;> first | exact hc | rfl
  unfold registerCompletedSession
  apply Proc.Safe.bind
  apply safe_read
  · intros; trivial
  intro D₀ D₁ hD₀ _
  cases hsession : Db.rewardSession.find D₀ sessionId with
  | none => exact fun _ _ => trivial
  | some session =>
      simp only
      split
      · exact fun _ _ => trivial
      split
      · exact safe_logEvent_then hlogs fun _ _ _ => trivial
      apply Proc.Safe.bind
      apply safe_call
      · intros; trivial
      intro now _ D₂ hD₂
      simp only
      split
      · apply Proc.Safe.bind
        apply safe_commit
        · rintro (e | _) D₃ _
          · trivial
          · exact safe_logEvent_then hlogs fun _ _ _ => trivial
        intro D₃ _
        apply wp_expireSession
        · exact fun hnil => absurd rfl hnil
        · intro row hrow hopen _
          exact .expireSession hc hrow hopen
      · exact safe_completeSession hc (hD₀.trans hD₂) hsession

theorem safe_processProviderCallback {providerName : String} {rawParams : List (String × String)}
    (hc : c.completes = true) :
    (processProviderCallback S.rewards providerName rawParams).Safe (discipline S) S.answers c
      (fun _ _ => True) D := by
  unfold processProviderCallback
  split
  · apply Proc.Safe.bind
    apply safe_ofExcept
    intro D' _
    split
    · exact safe_registerCompletedSession hc
    · trivial
  · exact fun _ _ => trivial

theorem safe_simulateStubCompletion {userId sessionId : Id} :
    (simulateStubCompletion S.rewards userId sessionId).Safe (discipline S) S.answers
      (.simulateStubCompletion userId sessionId) (fun _ _ => True) D := by
  unfold simulateStubCompletion
  split
  · exact fun _ _ => trivial
  apply Proc.Safe.bind
  apply safe_read
  · intros; trivial
  intro D₀ D₁ _ _
  simp only
  split
  · exact fun _ _ => trivial
  · exact safe_processProviderCallback rfl

end RewardsService

namespace DailyCardService
variable {Body : Type} {S : Deployment Body} {c : Call Body} {D : Db}

theorem safe_isWithinFreeWindow {userId : Id} {today : Time} :
    (isWithinFreeWindow userId today).Safe (discipline S) S.answers c (fun _ _ => True) D := by
  unfold isWithinFreeWindow
  apply Proc.Safe.bind
  apply safe_read
  · intros; trivial
  intro D₀ D₁ _ _
  simp only
  split <;> exact fun _ _ => trivial

theorem safe_deliverTodaysCard {userId : Id} {date : String} :
    (deliverTodaysCard S.dailyCard userId date).Safe (discipline S) S.answers c
      (fun _ _ => True) D := by
  unfold deliverTodaysCard
  rw [buildTodaysCard_eq]
  apply Proc.Safe.bind
  apply Proc.Safe.bind
  apply safe_call
  · intros; trivial
  intro cards _ D₁ _
  apply Proc.Safe.bind
  apply safe_ofExcept
  intro D₂ _
  cases cards with
  | error e => trivial
  | ok cards =>
      simp only
      split
      · intro D₃ _
        apply Proc.Safe.bind
        apply safe_call (q := .cacheSet _ _ _)
        · intros; trivial
        · exact fun _ _ _ _ _ _ => trivial
      · exact fun _ _ => trivial

theorem safe_getTodaysCard {userId : Id} :
    (getTodaysCard S.dailyCard userId).Safe (discipline S) S.answers (.getTodaysCard userId)
      (fun _ _ => True) D := by
  unfold getTodaysCard
  apply Proc.Safe.bind
  apply safe_call
  · intros; trivial
  intro today _ D₁ _
  apply Proc.Safe.bind
  apply safe_call (q := .cacheGet _)
  · intros; trivial
  intro cached _ D₂ _
  simp only
  split
  · exact fun _ _ => trivial
  apply Proc.Safe.bind
  refine safe_isWithinFreeWindow.mono fun r D₃ _ => ?_
  cases r with
  | error e => trivial
  | ok isWithin =>
      simp only
      split
      · exact safe_deliverTodaysCard
      apply Proc.Safe.bind
      apply safe_commit
      · rintro (e | unlockedNow) D₄ _
        · trivial
        cases unlockedNow with
        | true => exact safe_deliverTodaysCard
        | false =>
            apply Proc.Safe.bind
            refine RewardsService.safe_getProgress.mono fun r D₅ _ => ?_
            cases r with
            | error e => trivial
            | ok progress => exact fun _ _ => trivial
      intro D₄ _
      apply RewardsService.wp_tryConsumeUnlock
      · exact fun hnil => absurd rfl hnil
      · intro currentCount hcount henough _
        exact .unlockDailyCard hcount henough

end DailyCardService

end TaroTria
