import TaroTria.Rewards.AdsPayForUnlocks
import TaroTria.Transactions.Earned

/-!
# An ad grants at most once

A session of an ad is completed by at most one commit, which records its ad and
counts it once, and at most one callback answers that it was granted.

## Implementation notes

The results of the other calls are dropped, as in `backend`.
-/

namespace TaroTria

open Transactions RewardsService

variable {Body : Type}

/-- The request of a call, with what a callback answers. -/
def Call.result (S : Deployment Body) : Call Body → Request (Option ProcessCallbackResult)
  | processProviderCallback providerName rawParams => do
      let result ← RewardsService.processProviderCallback S.rewards providerName rawParams
      return some result
  | simulateStubCompletion userId sessionId => do
      let result ← RewardsService.simulateStubCompletion S.rewards userId sessionId
      return some result
  | c => do
      let _ ← c.prog S
      return none

/-- The backend, with what the callbacks answer. -/
def callbacks (S : Deployment Body) : Transactions.Service Db RowWrite Err (Call Body) Answer
    (Option ProcessCallbackResult) where
  prog := Call.result S
  answers := S.answers

/-- A running backend, with what the callbacks answer. -/
abbrev CallbackServer (Body : Type) :=
  Server Db RowWrite RowRef Err (Call Body) Answer (Option ProcessCallbackResult)

/-- The session that a provider's callback is about, if it is accepted. -/
def callbackSession (R : RewardsConfig) (providerName : String)
    (rawParams : List (String × String)) : Option Id :=
  (R.verifiersByProvider providerName).bind fun verifier => (verifier rawParams).toOption

/-- The session that a call may complete. -/
def Call.session (R : RewardsConfig) : Call Body → Option Id
  | processProviderCallback providerName rawParams => callbackSession R providerName rawParams
  | simulateStubCompletion _ sessionId => callbackSession R defaultProvider (stubParams R sessionId)
  | _ => none

/-- The row write records the ad of a session. -/
def RowWrite.recordsAd (sessionId : Id) : RowWrite → Bool
  | .rewardTransaction id row => id = sessionId && row.isSome
  | _ => false

/-- The writes record the ad of a session. -/
def recordsAd (sessionId : Id) (L : List RowWrite) : Bool := L.any (RowWrite.recordsAd sessionId)

/-- The rows of ads that refer to a session. -/
def transactionsOf (D : Db) (sessionId : Id) : Nat :=
  D.rewardTransactions.count fun id _ => id = sessionId

/-! ## What a callback must earn -/

section Results

/-- The result does not grant. -/
def NotGranted (r : Except Err ProcessCallbackResult) : Prop :=
  ∀ result, r = .ok result → result.granted = false

theorem notGranted_error (e : Err) : NotGranted (.error e) := by
  rintro result ⟨⟩

theorem notGranted_ok {result : ProcessCallbackResult} (h : result.granted = false) :
    NotGranted (.ok result) := by
  rintro _ ⟨⟩
  exact h

/-- A granting transaction records the ad. -/
theorem all_completionTx {sessionId : Id} {session : RewardSession} {provider : String}
    {completedAt offeredAt createdAt : Time} {offerId : Id} :
    (completionTx sessionId session provider completedAt offeredAt createdAt offerId).All
      (fun wasCompletedHere L => wasCompletedHere = true → recordsAd sessionId L = true) [] := by
  unfold completionTx
  apply Tx.all_bind
  apply Tx.all_of_append
  intro updated L
  split
  · exact fun h => by cases h
  · apply Tx.all_bind
    apply Db.rewardTransaction.all_create
    apply Tx.all_of_append
    intro _ L' _
    simp [recordsAd, RowWrite.recordsAd]

theorem unearned_completeSession {sessionId : Id} {session : RewardSession} {provider : String} :
    (completeSession sessionId session provider).Unearned (recordsAd sessionId) NotGranted := by
  unfold completeSession
  apply Proc.unearned_bind notGranted_error
  intro completedAt
  apply Proc.unearned_bind notGranted_error
  intro offeredAt
  apply Proc.unearned_bind notGranted_error
  intro createdAt
  apply Proc.unearned_bind notGranted_error
  intro offerId
  apply Proc.Unearned.bind
  apply Proc.Unearned.handle
  apply Proc.unearned_transaction
  · intro e
    cases e <;> first | exact notGranted_ok rfl | exact notGranted_error _
  · refine Tx.all_mono (fun wasCompletedHere L hL => ?_) all_completionTx
    cases wasCompletedHere with
    | false => exact .inr (notGranted_ok rfl)
    | true => exact .inl (hL rfl)

theorem unearned_registerCompletedSession {sessionId : Id} {provider : String} :
    (registerCompletedSession sessionId provider).Unearned (recordsAd sessionId) NotGranted := by
  have refused : ∀ {type userId metadata reason}, (do
      logEvent type userId metadata
      return ⟨false, reason⟩ : Request ProcessCallbackResult).Unearned (recordsAd sessionId)
        NotGranted :=
    Proc.unearned_bind notGranted_error fun _ => notGranted_ok rfl
  unfold registerCompletedSession
  apply Proc.unearned_bind notGranted_error
  intro found
  cases found with
  | none => exact notGranted_ok rfl
  | some session =>
      simp only
      split
      · exact notGranted_ok rfl
      split
      · exact refused
      apply Proc.unearned_bind notGranted_error
      intro now
      split
      · apply Proc.unearned_bind notGranted_error
        exact fun _ => refused
      · exact unearned_completeSession

/-- A callback that is accepted for a session must record its ad, any other one
never grants. -/
theorem unearned_processProviderCallback {R : RewardsConfig} {providerName : String}
    {rawParams : List (String × String)} {K : List RowWrite → Bool}
    (hK : ∀ sessionId, callbackSession R providerName rawParams = some sessionId →
      K = recordsAd sessionId) :
    (processProviderCallback R providerName rawParams).Unearned K NotGranted := by
  unfold processProviderCallback
  split
  · rename_i verifier hverifier
    cases hparams : verifier rawParams with
    | error e => exact notGranted_error e
    | ok sessionId =>
        obtain rfl := hK sessionId (by simp [callbackSession, hverifier, hparams, Except.toOption])
        exact unearned_registerCompletedSession
  · exact notGranted_error _

/-- The result of a call does not grant. -/
def ResultNotGranted (r : Except Err (Option ProcessCallbackResult)) : Prop :=
  ∀ result, r = .ok (some result) → result.granted = false

theorem unearned_some {p : Request ProcessCallbackResult} {K : List RowWrite → Bool}
    (h : p.Unearned K NotGranted) :
    (do let result ← p; return some result : Request (Option ProcessCallbackResult)).Unearned K
      ResultNotGranted := by
  apply Proc.Unearned.bind
  refine h.mono fun r hr => ?_
  cases r with
  | error e => rintro result ⟨⟩
  | ok result =>
      rintro _ ⟨⟩
      exact hr result rfl

theorem unearned_result (S : Deployment Body) (c : Call Body) {K : List RowWrite → Bool}
    (hK : ∀ sessionId, c.session S.rewards = some sessionId → K = recordsAd sessionId) :
    (c.result S).Unearned K ResultNotGranted := by
  have dropped : ∀ c' : Call Body, (do
      let _ ← c'.prog S
      return none : Request (Option ProcessCallbackResult)).Unearned K ResultNotGranted := by
    intro c'
    apply Proc.unearned_bind
    · rintro e result ⟨⟩
    · rintro _ result ⟨⟩
  cases c with
  | processProviderCallback providerName rawParams =>
      exact unearned_some (unearned_processProviderCallback hK)
  | simulateStubCompletion userId sessionId =>
      refine unearned_some ?_
      unfold simulateStubCompletion
      split
      · exact notGranted_error _
      apply Proc.unearned_bind notGranted_error
      intro found
      simp only
      split
      · exact notGranted_error _
      · exact unearned_processProviderCallback hK
  | _ => exact dropped _

end Results

/-! ## What a commit does to the sessions -/

section Changes

open WalletService ReadingsService PaymentsService

variable {S : Deployment Body} {c : Call Body} {L : List RowWrite} {D D' : Db}

/-- A change of the backend completes a session, stores one that is open, expires
one that is open, or leaves the sessions alone. -/
theorem Effect.sessions (he : Effect S c D L) :
    (∃ s : Completion D, L = s.writes) ∨
      (∃ sessionId session, D.rewardSessions.lookup sessionId = none ∧
        session.status = .CREATED ∧ (view L D).rewardSessions =
          D.rewardSessions.write sessionId (some session)) ∨
      (∃ sessionId session, D.rewardSessions.lookup sessionId = some session ∧
        session.isOpen = true ∧ (view L D).rewardSessions =
          D.rewardSessions.write sessionId (some { session with status := .EXPIRED })) ∨
      (view L D).rewardSessions = D.rewardSessions := by
  cases he with
  | completeSession s hc => exact .inl ⟨s, rfl⟩
  | openSession hk ho htype hcreated => exact .inr (.inl ⟨_, _, hk, hcreated, rfl⟩)
  | expireSession hc hsession hopen => exact .inr (.inr (.inl ⟨_, _, hsession, hopen, rfl⟩))
  | submit s => exact .inr (.inr (.inr (by rw [s.view_writes])))
  | approve s hc happroved hw hk => exact .inr (.inr (.inr (by rw [s.view_approval])))
  | createWallet hw hk =>
      unfold bonusWrites
      split <;> exact .inr (.inr (.inr rfl))
  | close s hc hstatus hrejected => split <;> exact .inr (.inr (.inr rfl))
  | adjust hw hfunds hk => exact .inr (.inr (.inr rfl))
  | confirm hc hres hactive hw hk => exact .inr (.inr (.inr rfl))
  | release hc hres hactive hw hk => exact .inr (.inr (.inr rfl))
  | createReading hr ho hdraft => exact .inr (.inr (.inr rfl))
  | setReading hc hr hsame hstatus => exact .inr (.inr (.inr rfl))
  | enqueue hc => exact .inr (.inr (.inr rfl))
  | createOrder ho hpkg => exact .inr (.inr (.inr rfl))
  | createDiscountedOrder ho hoffer hclock hactive hpkg => exact .inr (.inr (.inr rfl))
  | createPayment hk ho => exact .inr (.inr (.inr rfl))
  | recordDelivery hk => exact .inr (.inr (.inr rfl))
  | logEvent hc => exact .inr (.inr (.inr rfl))
  | unlockDailyCard hcount henough => exact .inr (.inr (.inr rfl))

end Changes

/-! ## The law of a session -/

section Law

variable {S : Deployment Body} {c : Call Body} {L : List RowWrite} {D D' : Db}

/-- A session is completed when exactly one ad refers to it, and every ad refers to
a session. -/
structure SessionsPaid (D : Db) : Prop where
  completed_iff : ∀ sessionId session, D.rewardSessions.lookup sessionId = some session →
    (session.status = .COMPLETED ↔ transactionsOf D sessionId = 1)
  owned : ∀ sessionId t, D.rewardTransactions.lookup sessionId = some t →
    ∃ session, D.rewardSessions.lookup sessionId = some session

theorem transactionsOf_eq (D : Db) (sessionId : Id) : transactionsOf D sessionId =
    if (D.rewardTransactions.lookup sessionId).isSome then 1 else 0 :=
  Table.count_key _ _

theorem transactionsOf_congr (h : D'.rewardTransactions = D.rewardTransactions)
    (sessionId : Id) : transactionsOf D' sessionId = transactionsOf D sessionId := by
  rw [transactionsOf, h, transactionsOf]

theorem transactionsOf_eq_zero {sessionId : Id}
    (h : D.rewardTransactions.lookup sessionId = none) : transactionsOf D sessionId = 0 := by
  simp [transactionsOf_eq, h]

/-- A completion records the ad of its session. -/
theorem Completion.transactionsOf_view (s : Completion D) (sessionId : Id) :
    transactionsOf (view s.writes D) sessionId =
      transactionsOf D sessionId + if s.sessionId = sessionId then 1 else 0 := by
  rw [s.view_writes]
  unfold transactionsOf
  rw [Table.count_write_fresh _ _ s.unrecorded]
  simp

/-- A commit that changes the status of a session without an ad. -/
theorem SessionsPaid.write (h : SessionsPaid D) {sessionId : Id} {session : RewardSession}
    (hads : D'.rewardTransactions = D.rewardTransactions)
    (hunpaid : D.rewardTransactions.lookup sessionId = none)
    (hstatus : session.status ≠ .COMPLETED)
    (hsessions : D'.rewardSessions = D.rewardSessions.write sessionId (some session)) :
    SessionsPaid D' where
  completed_iff other session' hsession' := by
    rw [transactionsOf_congr hads]
    rw [hsessions, Table.lookup_write] at hsession'
    split at hsession'
    · rename_i heq
      obtain rfl := Option.some.inj hsession'
      rw [heq, transactionsOf_eq_zero hunpaid]
      simp [hstatus]
    · exact h.completed_iff other session' hsession'
  owned other t ht := by
    rw [hsessions, Table.lookup_write]
    split
    · exact ⟨session, rfl⟩
    · exact h.owned other t (hads ▸ ht)

theorem SessionsPaid.complete (h : SessionsPaid D) (s : Completion D) :
    SessionsPaid (view s.writes D) where
  completed_iff other session hsession := by
    rw [s.transactionsOf_view]
    rw [s.view_writes] at hsession
    replace hsession := (Table.lookup_write ..).symm.trans hsession
    split at hsession
    · rename_i heq
      obtain rfl := Option.some.inj hsession
      rw [heq, transactionsOf_eq_zero s.unrecorded]
      simp
    · rename_i hne
      rw [if_neg (Ne.symm hne), add_zero]
      exact h.completed_iff other session hsession
  owned other t ht := by
    rw [s.view_writes] at ht ⊢
    replace ht := (Table.lookup_write ..).symm.trans ht
    change ∃ session, (Table.write ..).lookup other = some session
    rw [Table.lookup_write]
    split
    · exact ⟨_, rfl⟩
    · rename_i hne
      rw [if_neg hne] at ht
      exact h.owned other t ht

/-- A commit that completes no session leaves the ads alone. -/
theorem Effect.ads_eq (he : Effect S c D L) :
    (∃ s : Completion D, L = s.writes) ∨
      (view L D).rewardTransactions = D.rewardTransactions ∧ ∀ id, recordsAd id L = false := by
  have unrecorded : (∀ sessionId row, RowWrite.rewardTransaction sessionId row ∉ L) →
      ∀ id, recordsAd id L = false := by
    intro h id
    rw [recordsAd, List.any_eq_false]
    intro w hw
    cases w with
    | rewardTransaction sessionId row => exact absurd hw (h sessionId row)
    | _ => simp [RowWrite.recordsAd]
  rcases he.rewards with hs | ⟨_, _, hs⟩ | hs
  · exact .inl hs
  · exact .inr ⟨hs.ads, unrecorded hs.no_ad⟩
  · exact .inr ⟨hs.ads, unrecorded hs.no_ad⟩

theorem Effect.sessionsPaid (he : Effect S c D L) (h : SessionsPaid D) :
    SessionsPaid (view L D) := by
  rcases he.ads_eq with ⟨s, rfl⟩ | ⟨hads, hnone⟩
  · exact h.complete s
  rcases he.sessions with ⟨s, rfl⟩ | ⟨sessionId, session, hk, hcreated, hsessions⟩ |
    ⟨sessionId, session, hsession, hopen, hsessions⟩ | hsessions
  · exact h.complete s
  · have hunpaid : D.rewardTransactions.lookup sessionId = none := by
      rw [Option.eq_none_iff_forall_ne_some]
      intro t ht
      obtain ⟨session', hsession'⟩ := h.owned sessionId t ht
      rw [hk] at hsession'
      cases hsession'
    exact h.write hads hunpaid (by simp [hcreated]) hsessions
  · have hunpaid : D.rewardTransactions.lookup sessionId = none := by
      rw [Option.eq_none_iff_forall_ne_some]
      intro t ht
      have hcompleted := (h.completed_iff sessionId session hsession).mpr
        (by simp [transactionsOf_eq, ht])
      simp [RewardSession.isOpen, hcompleted] at hopen
    exact h.write hads hunpaid (by simp) hsessions
  · refine ⟨fun other session hsession => ?_, fun other t ht => ?_⟩
    · rw [transactionsOf_congr hads]
      exact h.completed_iff other session (hsessions ▸ hsession)
    · rw [hsessions]
      exact h.owned other t (hads ▸ ht)

theorem Completion.recordsAd_writes (s : Completion D) (sessionId : Id) :
    recordsAd sessionId s.writes = decide (s.sessionId = sessionId) := by
  unfold recordsAd Completion.writes completionWrites offerWrites
  split <;> simp [RowWrite.recordsAd]

/-- Each commit that records the ad of a session adds its row. -/
theorem commitsOf_path {calls : Call Body → Prop} {D₀ : Db} {hist : List (Call Body × List RowWrite)}
    (path : Path ((discipline S).Permits calls) D₀ hist D) (sessionId : Id) :
    Server.commitsOf (recordsAd sessionId) hist + transactionsOf D₀ sessionId =
      transactionsOf D sessionId := by
  induction path with
  | nil => simp [Server.commitsOf]
  | @cons hist D c L tail he ih =>
      rw [Server.commitsOf, List.countP_cons]
      rcases he.2.ads_eq with ⟨s, rfl⟩ | ⟨hads, hnone⟩
      · rw [s.transactionsOf_view, s.recordsAd_writes, ← ih, Server.commitsOf]
        simp only [decide_eq_true_eq]
        omega
      · rw [transactionsOf_congr hads, hnone, ← ih, Server.commitsOf]
        simp

/-- A commit counts the ad of a session: the counter of its user and type goes one
up, or starts again when that completes a cycle, and no other counter changes. -/
def CountsAd (D : Db) (sessionId : Id) (L : List RowWrite) : Prop :=
  ∃ session, D.rewardSessions.lookup sessionId = some session ∧ session.isOpen = true ∧
    ∀ userId rewardType, adsCounted (view L D) userId rewardType =
      if session.userId = userId ∧ session.rewardType = rewardType then
        if completesCycle rewardType (adsCounted D userId rewardType + 1) then 0
        else adsCounted D userId rewardType + 1
      else adsCounted D userId rewardType

theorem Completion.countsAd (s : Completion D) : CountsAd D s.sessionId s.writes := by
  refine ⟨s.session, s.session_mem, s.isOpen, fun userId rewardType => ?_⟩
  rw [s.adsCounted_view]
  by_cases hearns : s.earns userId rewardType
  · refine (if_pos hearns).trans ?_
    obtain ⟨rfl, rfl⟩ := hearns
    exact (if_pos ⟨rfl, rfl⟩).symm
  · exact (if_neg hearns).trans (if_neg hearns).symm

theorem Effect.countsAd (he : Effect S c D L) {sessionId : Id}
    (hK : recordsAd sessionId L = true) : CountsAd D sessionId L := by
  rcases he.ads_eq with ⟨s, rfl⟩ | ⟨-, hnone⟩
  · rw [s.recordsAd_writes, decide_eq_true_eq] at hK
    exact hK ▸ s.countsAd
  · simp [hnone] at hK

end Law

/-- A call keeps the discipline of the backend when its result is kept. -/
theorem result_safe (S : Deployment Body) (c : Call Body) (hc : c.removes = none) (D : Db) :
    (c.result S).Safe (discipline S) S.answers c (fun _ _ => True) D := by
  have kept : ∀ {α β : Type} {p : Request α} (f : α → β),
      p.Safe (discipline S) S.answers c (fun _ _ => True) D →
      (do let a ← p; return f a : Request β).Safe (discipline S) S.answers c (fun _ _ => True)
        D := by
    intro α β p f hp
    apply Proc.Safe.bind
    refine hp.mono fun r D' _ => ?_
    cases r with
    | ok _ => exact fun _ _ => trivial
    | error e => trivial
  cases c with
  | processProviderCallback providerName rawParams =>
      exact kept some (safe_processProviderCallback rfl)
  | simulateStubCompletion userId sessionId => exact kept some safe_simulateStubCompletion
  | _ => exact kept (fun _ => none) (prog_safe S _ hc D)

/-- A rewarded ad grants at most once, in every run in which sessions and ads agree
at the start. A session is completed exactly when one ad refers to it; completed
and expired sessions stay so; two callbacks for one session do not both grant; and
the commits that record its ad are as many as the rows they add, each counting it
once. -/
theorem ad_grants_once (S : Deployment Body) (D : Db) (hD : PaymentsBelong D)
    (hpaid : SessionsPaid D) (s : CallbackServer Body)
    (run : Server.Reach (callbacks S) (fun c => c.removes = none) (.idle D) s) :
    (∀ sessionId session, s.db.rewardSessions.lookup sessionId = some session →
      (session.status = .COMPLETED ↔ transactionsOf s.db sessionId = 1)) ∧
    (∀ s' : CallbackServer Body,
      Server.Reach (callbacks S) (fun c => c.removes = none) s s' → ∀ sessionId session,
      s.db.rewardSessions.lookup sessionId = some session →
      session.status = .COMPLETED ∨ session.status = .EXPIRED → ∃ session',
        s'.db.rewardSessions.lookup sessionId = some session' ∧
          session'.status = session.status) ∧
    (∀ t₁ t₂ c₁ c₂ result₁ result₂,
      s.threads t₁ = some (c₁, .between (.ret (some result₁))) → result₁.granted = true →
      s.threads t₂ = some (c₂, .between (.ret (some result₂))) → result₂.granted = true →
      c₁.session S.rewards = c₂.session S.rewards → t₁ = t₂) ∧
    ∀ sessionId,
      Server.commitsOf (recordsAd sessionId) s.history + transactionsOf D sessionId =
        transactionsOf s.db sessionId ∧
      ∀ newer c L older, s.history = newer ++ (c, L) :: older → recordsAd sessionId L = true →
        CountsAd (replay older D) sessionId L := by
  have hS := fun c hc D' (_ : PaymentsBelong D') => result_safe S c hc D'
  have hI : (discipline S).Inv (Server.idle D : CallbackServer Body).db := hD
  obtain ⟨hsound, hist, hhist, path⟩ := Server.reach_path hS hI (Server.sound_idle D) run
  obtain rfl : hist = s.history := by simpa [Server.idle] using hhist.symm
  have hpaid' : SessionsPaid s.db :=
    path.invariant SessionsPaid hpaid fun c D' L hD' he => he.2.sessionsPaid hD'
  have hle : ∀ sessionId, Server.commitsOf (recordsAd sessionId) s.history ≤ 1 := by
    intro sessionId
    have := commitsOf_path path sessionId
    have hrow := transactionsOf_eq s.db sessionId
    split at hrow <;> omega
  refine ⟨hpaid'.completed_iff, fun s' run' sessionId session hsession hended => ?_,
    fun t₁ t₂ c₁ c₂ result₁ result₂ ht₁ hg₁ ht₂ hg₂ hsame => ?_,
    fun sessionId => ⟨commitsOf_path path sessionId, fun newer c L older hsplit hK => ?_⟩⟩
  · obtain ⟨-, _, -, path'⟩ := Server.reach_path hS
      ((discipline S).inv_mono ((discipline S).path_mono path) hI) hsound run'
    obtain ⟨session', hsession', -, -, hstatus⟩ :=
      ((discipline S).path_mono path').sessions sessionId session hsession
    refine ⟨session', hsession', hstatus ?_⟩
    rcases hended with h | h <;> simp [RewardSession.isOpen, h]
  · have won : ∀ {K t c result}, s.threads t = some (c, .between (.ret (some result))) →
        result.granted = true → c.session S.rewards = c₁.session S.rewards →
        s.Earned K ResultNotGranted (fun c => c.session S.rewards = c₁.session S.rewards) t := by
      intro K t c result ht hg hmine
      refine ⟨c, _, ht, hmine, fun hun => ?_⟩
      rw [hun result rfl] at hg
      cases hg
    cases hsession : c₁.session S.rewards with
    | none =>
        have honce : s.EarnsOnce (fun _ => false) ResultNotGranted
            fun c => c.session S.rewards = c₁.session S.rewards :=
          run.earnsOnce rfl (fun c hmine => unearned_result S c fun sessionId h => by
            simp [hmine, hsession] at h) (Server.earnsOnce_idle D)
        exact absurd (won ht₁ hg₁ rfl) (honce.none (by simp [Server.commitsOf]) t₁)
    | some sessionId =>
        have honce : s.EarnsOnce (recordsAd sessionId) ResultNotGranted
            fun c => c.session S.rewards = c₁.session S.rewards :=
          run.earnsOnce rfl (fun c hmine => unearned_result S c fun sessionId' h => by
            rw [hmine, hsession] at h
            rw [Option.some.inj h]) (Server.earnsOnce_idle D)
        exact honce.one (hle sessionId) t₁ t₂ (won ht₁ hg₁ rfl) (won ht₂ hg₂ hsame.symm)
  · rw [hsplit] at path
    obtain ⟨D', hold, he⟩ := path.of_append
    obtain rfl : replay older D = D' := hold.replay_eq
    exact he.2.countsAd hK

theorem SessionsPaid.of_empty {D : Db} (hsessions : D.rewardSessions = ∅)
    (hads : D.rewardTransactions = ∅) : SessionsPaid D where
  completed_iff := by simp [hsessions]
  owned := by simp [hads]

/-- Two callbacks read one open session, and only the first one grants. -/
theorem ad_grants_once_of_two : ∃ s : CallbackServer ParsedWebhook,
    (∃ session, s.db.rewardSessions.lookup "a1" = some session ∧ session.status = .COMPLETED) ∧
      transactionsOf s.db "a1" = 1 ∧ (∃ c, s.threads 1 = some (c, .between (.ret (some ⟨true, none⟩)))) ∧
      ∀ t c result, s.threads t = some (c, .between (.ret (some result))) →
        result.granted = true → c.session sampleDeployment.rewards = some "a1" → t = 1 := by
  let callback : Call ParsedWebhook :=
    .processProviderCallback "stub" [("sessionId", "a1"), ("secret", "s")]
  let reads (t : Nat) : List (Move (Call ParsedWebhook) Answer) :=
    [.spawn t callback, .start t, .exec t, .commit t, .answer t .now (0 : Time)]
  let asks (t : Nat) : List (Move (Call ParsedWebhook) Answer) :=
    [.answer t .now (0 : Time), .answer t .now (0 : Time), .answer t .now (0 : Time),
      .answer t .randomUUID "o", .start t]
  let logs (id : Id) : List (Move (Call ParsedWebhook) Answer) :=
    [.answer 1 .randomUUID id, .start 1, .exec 1, .commit 1]
  have completed : ∃ s, Server.Reach (callbacks sampleDeployment) (fun c => c.removes = none)
      (.idle Db.empty) s ∧
      s.threads 1 = some (callback, .between (.ret (some ⟨true, none⟩))) ∧
      ∃ session, s.db.rewardSessions.lookup "a1" = some session ∧ session.status = .COMPLETED := by
    refine ⟨_, Server.Reach.refl.run
      (sessionSchedule 0 "ana" .DAILY_CARD_UNLOCK "a1" ++ reads 1 ++ reads 2 ++ asks 1 ++
        [.exec 1, .exec 1, .exec 1, .commit 1] ++ asks 2 ++ [.exec 2, .commit 2] ++ logs "e1" ++
        logs "e2") ?_ rfl, rfl, _, rfl, rfl⟩
    simp [sessionSchedule, reads, asks, logs, callback, Move.Admissible, Call.removes, callbacks,
      Deployment.answers]
  obtain ⟨s, run, ht, session, hsession, hcompleted⟩ := completed
  obtain ⟨hpaid, -, honce, -⟩ := ad_grants_once sampleDeployment Db.empty (.of_empty rfl)
    (.of_empty rfl rfl) s run
  refine ⟨s, ⟨session, hsession, hcompleted⟩, (hpaid "a1" session hsession).mp hcompleted,
    ⟨callback, ht⟩, fun t c result hresult hgranted hc => ?_⟩
  exact honce t 1 c callback result _ hresult hgranted ht rfl (hc.trans rfl)

end TaroTria
