import TaroTria.Readings.ReservationLifecycle

/-!
# Submitting a reading

Concurrent submissions of one `DRAFT` reading: at most one transaction commits,
and what it leaves is one submission's reservation, ledger row, debit and draws.
-/

namespace TaroTria

open Transactions WalletService ReadingsService

variable {Body : Type} {S : Deployment Body} {c : Call Body} {D : Db} {L : List RowWrite}

/-! ## Readings that were never submitted -/

/-- A reading that does not exist or is `DRAFT` has no reservation and no draws. -/
def DraftsUntouched (D : Db) : Prop :=
  ∀ readingId, (∀ r, D.readings.lookup readingId = some r → r.status = .DRAFT) →
    D.creditReservations.lookup readingId = none ∧
      ∀ position, D.tarotDraws.lookup (readingId, position) = none

theorem DraftsUntouched.of_empty (hres : D.creditReservations = ∅) (hdraws : D.tarotDraws = ∅) :
    DraftsUntouched D := by
  intro readingId _
  simp [hres, hdraws]

theorem lookup_storeDraws_of_ne {readingId other : Id} (hne : other ≠ readingId)
    (draws : List (DrawEngine.TarotDraw TarotDeckCard)) (t : Table (Id × String) TarotDraw)
    (position : String) : (storeDraws readingId draws t).lookup (other, position) =
      t.lookup (other, position) := by
  induction draws generalizing t with
  | nil => rfl
  | cons draw draws ih =>
      have htail := ih (t.write (readingId, draw.position)
        (some { cardId := draw.card.id, orientation := draw.orientation }))
      refine htail.trans (Table.lookup_write_of_ne t _ fun h => hne (Prod.mk.inj h).1)

/-- A position that no draw has. -/
theorem lookup_storeDraws_of_notMem {readingId : Id}
    {draws : List (DrawEngine.TarotDraw TarotDeckCard)} {position : String}
    (hpos : position ∉ draws.map (·.position)) (t : Table (Id × String) TarotDraw) :
    (storeDraws readingId draws t).lookup (readingId, position) =
      t.lookup (readingId, position) := by
  induction draws generalizing t with
  | nil => rfl
  | cons draw draws ih =>
      simp only [List.map_cons, List.mem_cons, not_or] at hpos
      have htail := ih hpos.2 (t.write (readingId, draw.position)
        (some { cardId := draw.card.id, orientation := draw.orientation }))
      exact htail.trans (Table.lookup_write_of_ne t _ fun h => hpos.1 (Prod.mk.inj h).2)

/-- Draws at distinct positions are all stored. -/
theorem lookup_storeDraws_of_mem {readingId : Id}
    {draws : List (DrawEngine.TarotDraw TarotDeckCard)} (hnodup : (draws.map (·.position)).Nodup)
    {draw : DrawEngine.TarotDraw TarotDeckCard} (hmem : draw ∈ draws)
    (t : Table (Id × String) TarotDraw) :
    (storeDraws readingId draws t).lookup (readingId, draw.position) =
      some ⟨draw.card.id, draw.orientation⟩ := by
  induction draws generalizing t with
  | nil => cases hmem
  | cons first draws ih =>
      simp only [List.map_cons, List.nodup_cons] at hnodup
      rcases List.mem_cons.mp hmem with rfl | hmem
      · exact (lookup_storeDraws_of_notMem hnodup.1 _).trans (Table.lookup_write_self t _ _)
      · exact ih hnodup.2 hmem _

theorem DraftsUntouched.same {D' : Db} (h : DraftsUntouched D)
    (hres : D'.creditReservations = D.creditReservations) (hdraws : D'.tarotDraws = D.tarotDraws)
    (hr : D'.readings = D.readings) : DraftsUntouched D' := by
  intro readingId hdraft
  rw [hres, hdraws]
  exact h readingId (hr ▸ hdraft)

/-- A reservation that exists belongs to a reading that was submitted. -/
theorem DraftsUntouched.settle {D' : Db} (h : DraftsUntouched D) {readingId : Id}
    {res res' : CreditReservation} (hold : D.creditReservations.lookup readingId = some res)
    (hres : D'.creditReservations = D.creditReservations.write readingId (some res'))
    (hdraws : D'.tarotDraws = D.tarotDraws) (hr : D'.readings = D.readings) :
    DraftsUntouched D' := by
  intro other hdraft
  rw [hr] at hdraft
  have hne : other ≠ readingId := by
    rintro rfl
    simp [(h other hdraft).1] at hold
  rw [hres, hdraws, Table.lookup_write_of_ne _ _ hne]
  exact h other hdraft

theorem Effect.draftsUntouched (he : Effect S c D L) (h : DraftsUntouched D) :
    DraftsUntouched (view L D) := by
  cases he with
  | createWallet hw hk =>
      unfold bonusWrites
      split <;> exact h.same rfl rfl rfl
  | adjust hw hfunds hk => exact h.same rfl rfl rfl
  | @createReading _ _ _ readingId r hr ho hdraft =>
      intro other hdraft'
      refine h other fun r' hr' => hdraft' r' ?_
      have hne : other ≠ readingId := by
        rintro rfl
        simp [hr] at hr'
      simpa [Table.lookup_write, hne] using hr'
  | @submit _ userId readingId s =>
      rw [s.view_writes]
      intro other hdraft
      have hne : other ≠ readingId := by
        rintro rfl
        have := hdraft _ (Table.lookup_write_self _ _ _)
        simp at this
      have hold := h other fun r hr => hdraft r (by rwa [Table.lookup_write_of_ne _ _ hne])
      refine ⟨?_, fun position => ?_⟩
      · rw [Table.lookup_write_of_ne _ _ hne, hold.1]
      · rw [lookup_storeDraws_of_ne hne, hold.2]
  | confirm hc hres hactive hw hk => exact h.settle hres rfl rfl rfl
  | release hc hres hactive hw hk => exact h.settle hres rfl rfl rfl
  | @setReading _ _ readingId r r' hc hr hsame hstatus =>
      intro other hdraft
      have hne : other ≠ readingId := by
        rintro rfl
        exact hstatus (hdraft r' (Table.lookup_write_self _ _ _))
      exact h other fun r'' hr'' => hdraft r'' (by simpa [Table.lookup_write, hne] using hr'')
  | close s hc hstatus hrejected => split <;> exact h.same rfl rfl rfl
  | approve s hc happroved hw hk =>
      rw [s.view_approval]
      exact h.same rfl rfl rfl
  | enqueue hc => exact h.same rfl rfl rfl
  | createOrder ho hpkg => exact h.same rfl rfl rfl
  | createDiscountedOrder ho hoffer hclock hactive hpkg => exact h.same rfl rfl rfl
  | createPayment hk ho => exact h.same rfl rfl rfl
  | recordDelivery hk => exact h.same rfl rfl rfl
  | openSession hk ho htype hcreated => exact h.same rfl rfl rfl
  | logEvent hc => exact h.same rfl rfl rfl
  | expireSession hc hsession hopen => exact h.same rfl rfl rfl
  | completeSession s hc =>
      rw [s.view_writes]
      exact h.same rfl rfl rfl
  | unlockDailyCard hcount henough => exact h.same rfl rfl rfl

/-! ## What one submission leaves -/

theorem nodup_orderedPositions (spread : TarotSpread) : (orderedPositions spread).Nodup :=
  ((List.mergeSort_perm spread.positions _).map _).nodup_iff.mpr spread.nodup

/-- A tarot submission draws for the positions of the reading's spread. -/
theorem Submission.positions {userId readingId : Id} (s : Submission D userId readingId)
    (htarot : isPalmService s.service.code = false) : ∃ spreadId spread,
    s.reading.spreadId = some spreadId ∧ D.tarotSpreads.lookup spreadId = some spread ∧
      s.draws.map (·.position) = orderedPositions spread := by
  obtain ⟨spreadId, spread, deck, choices, hid, hspread, hchoices, hdraw⟩ := s.tarot htarot
  exact ⟨spreadId, spread, hid, hspread, DrawEngine.positions_draw hchoices hdraw⟩

theorem Submission.nodup {userId readingId : Id} (s : Submission D userId readingId) :
    (s.draws.map (·.position)).Nodup := by
  cases hpalm : isPalmService s.service.code with
  | true => simp [s.palm hpalm]
  | false =>
      obtain ⟨spreadId, spread, -, -, hpositions⟩ := s.positions hpalm
      exact hpositions ▸ nodup_orderedPositions spread

/-- The rows of the draws after a submission, when there were none before. -/
theorem Submission.lookup_draws {userId readingId : Id} (s : Submission D userId readingId)
    (hundrawn : ∀ position, D.tarotDraws.lookup (readingId, position) = none) (position : String)
    (row : TarotDraw) : (view s.writes D).tarotDraws.lookup (readingId, position) = some row ↔
      ∃ draw ∈ s.draws, draw.position = position ∧ row = ⟨draw.card.id, draw.orientation⟩ := by
  rw [s.view_writes]
  constructor
  · intro hrow
    by_cases hpos : position ∈ s.draws.map (·.position)
    · obtain ⟨draw, hdraw, rfl⟩ := List.mem_map.mp hpos
      rw [lookup_storeDraws_of_mem s.nodup hdraw] at hrow
      exact ⟨draw, hdraw, rfl, (Option.some.inj hrow).symm⟩
    · rw [lookup_storeDraws_of_notMem hpos, hundrawn] at hrow
      cases hrow
  · rintro ⟨draw, hdraw, rfl, rfl⟩
    exact lookup_storeDraws_of_mem s.nodup hdraw _

/-- The state `D'` that the submission `s` made at `D` leaves: one reservation of
its amount, one ledger row, one debit, the reading `PENDING`, its draws, one for
each position, and the reward counter. -/
structure Submitted {userId readingId : Id} (s : Submission D userId readingId) (D' : Db) :
    Prop where
  reservation : D'.creditReservations =
    D.creditReservations.write readingId (some ⟨userId, s.amount, .ACTIVE⟩)
  amount : s.amount = if s.unlocked then 0 else s.service.creditCost
  onlyThree : s.unlocked = true → s.service.code = AD_UNLOCKABLE_TAROT_SERVICE_CODE
  ledger : D'.walletTransactions = D.walletTransactions.write (.reservation readingId)
    (some ⟨userId, .RESERVATION, -s.amount, s.wallet.balance - s.amount, some readingId, none⟩)
  oneRow : ∃! key, ∃ row, D'.walletTransactions.lookup key = some row ∧
    row.readingId = some readingId ∧ row.type = .RESERVATION
  wallet : D'.wallets = D.wallets.write userId (some ⟨s.wallet.balance - s.amount⟩)
  reading : D'.readings = D.readings.write readingId
    (some { s.reading with status := .PENDING, submittedAt := s.now })
  progress : D'.rewardProgress = if s.unlocked then
    D.rewardProgress.write (userId, .TAROT_READING_UNLOCK) (some 0) else D.rewardProgress
  draws : ∀ position row, D'.tarotDraws.lookup (readingId, position) = some row ↔
    ∃ draw ∈ s.draws, draw.position = position ∧ row = ⟨draw.card.id, draw.orientation⟩
  onePerPosition : isPalmService s.service.code = false → ∃ spreadId spread,
    s.reading.spreadId = some spreadId ∧ D.tarotSpreads.lookup spreadId = some spread ∧
      s.draws.map (·.position) = orderedPositions spread
  otherDraws : ∀ other position, other ≠ readingId →
    D'.tarotDraws.lookup (other, position) = D.tarotDraws.lookup (other, position)
  rest : ∃ jobs, D' = { view s.writes D with readingJobs := jobs }

theorem Submission.submitted {userId readingId : Id} (s : Submission D userId readingId)
    (hundrawn : ∀ position, D.tarotDraws.lookup (readingId, position) = none)
    (hunrecorded : ∀ key row, D.walletTransactions.lookup key = some row →
      row.readingId ≠ some readingId) (jobs : Table String ReadingJob) :
    Submitted s { view s.writes D with readingJobs := jobs } := by
  have hrows := congrArg Db.walletTransactions s.view_writes
  have hdraws := congrArg Db.tarotDraws s.view_writes
  exact
    { reservation := congrArg Db.creditReservations s.view_writes
      amount := rfl
      onlyThree := fun h => (s.unlock h).1
      ledger := hrows
      oneRow := by
        refine ⟨.reservation readingId, ⟨⟨userId, .RESERVATION, -s.amount,
          s.wallet.balance - s.amount, some readingId, none⟩, ?_, rfl, rfl⟩, ?_⟩
        · rw [hrows, Table.lookup_write_self]
        · rintro key ⟨row, hrow, hreading, -⟩
          exact key_of_gain (p := fun k => k = .reservation readingId) hrows rfl
            (fun k v hk hv => absurd hv (hunrecorded k v hk)) key row hrow hreading
      wallet := congrArg Db.wallets s.view_writes
      reading := congrArg Db.readings s.view_writes
      progress := congrArg Db.rewardProgress s.view_writes
      draws := s.lookup_draws hundrawn
      onePerPosition := s.positions
      otherDraws := fun other position hne => by
        rw [hdraws]
        exact lookup_storeDraws_of_ne hne _ _ _
      rest := ⟨jobs, rfl⟩ }

/-! ## Concurrent submissions -/

/-- The commits of a history that reserved credits for a reading. -/
def submissionsOf (readingId : Id) (hist : List (Call Body × List RowWrite)) :
    List (Call Body × List RowWrite) :=
  hist.filter fun e => e.2.any fun w => w.ref = .creditReservation readingId

theorem Submission.reserves {userId readingId : Id} (s : Submission D userId readingId) :
    (s.writes.any fun w => w.ref = .creditReservation readingId) = true := by
  simp [Submission.writes, submissionWrites, reservationWrites, RowWrite.ref]

/-- A submission does not look at the queued jobs. -/
def Submission.ofJobs {userId readingId : Id} {jobs : Table String ReadingJob}
    (s : Submission { D with readingJobs := jobs } userId readingId) :
    Submission D userId readingId :=
  { s with }

theorem Submission.view_jobs {userId readingId : Id} (s : Submission D userId readingId)
    (jobs : Table String ReadingJob) :
    view s.writes { D with readingJobs := jobs } = { view s.writes D with readingJobs := jobs } := by
  rw [s.view_writes]
  exact Submission.view_writes (D := { D with readingJobs := jobs }) { s with }

/-- Runs of submissions of one reading commit one submission at most, and apart
from it only queue jobs. -/
theorem path_of_submits {D₀ : Db} {readingId : Id} {hist : List (Call Body × List RowWrite)}
    (path : Path ((discipline S).Permits fun c => ∃ userId, c = .submit userId readingId) D₀
      hist D) :
    (submissionsOf readingId hist = [] ∧ ∃ jobs, D = { D₀ with readingJobs := jobs }) ∨
      ∃ userId, ∃ s : Submission D₀ userId readingId,
        submissionsOf readingId hist = [(.submit userId readingId, s.writes)] ∧
        ∃ jobs, D = { view s.writes D₀ with readingJobs := jobs } := by
  induction path with
  | nil => exact .inl ⟨rfl, D₀.readingJobs, rfl⟩
  | @cons hist D c L tail he ih =>
      obtain ⟨⟨userId, rfl⟩, he⟩ := he
      cases he with
      | enqueue hc =>
          rcases ih with ⟨hnone, jobs, rfl⟩ | ⟨userId', s, hone, jobs, rfl⟩
          · exact .inl ⟨by simpa [submissionsOf, RowWrite.ref] using hnone, _, rfl⟩
          · exact .inr ⟨userId', s, by simpa [submissionsOf, RowWrite.ref] using hone, _, rfl⟩
      | submit s =>
          rcases ih with ⟨hnone, jobs, rfl⟩ | ⟨userId', s', hone, jobs, rfl⟩
          · refine .inr ⟨userId, s.ofJobs, ?_, jobs, ?_⟩
            · have hnone' : submissionsOf readingId hist = [] := hnone
              simp only [submissionsOf, List.filter_cons, s.reserves, if_true] at hnone' ⊢
              rw [hnone']
              rfl
            · exact s.ofJobs.view_jobs jobs
          · have hreserved := s.unreserved
            simp [s'.view_writes] at hreserved
      | confirm hc => cases hc
      | release hc => cases hc
      | setReading hc => cases hc
      | approve s hc => cases hc
      | close s hc => cases hc
      | logEvent hc => cases hc
      | expireSession hc => cases hc
      | completeSession s hc => cases hc

/-- Concurrent submissions of a `DRAFT` reading, in any state that a run without
removals reaches: at most one of their transactions commits. If none does, only
queued jobs may differ; if one does, the state is what that one leaves. -/
theorem submit_commits_at_most_once (S : Deployment Body) (D : Db) (hD : PaymentsBelong D)
    (hreservations : D.creditReservations = ∅) (hdraws : D.tarotDraws = ∅)
    (hledger : D.walletTransactions = ∅) (s₁ : BackendServer Body)
    (run₁ : Server.Reach (backend S) (fun c => c.removes = none) (.idle D) s₁) (readingId : Id)
    (r : Reading) (hr : s₁.db.readings.lookup readingId = some r) (hdraft : r.status = .DRAFT)
    (s : BackendServer Body)
    (run : Server.Reach (backend S) (fun c => ∃ userId, c = .submit userId readingId)
      (.idle s₁.db) s) :
    (submissionsOf readingId s.history = [] ∧
        ∃ jobs, s.db = { s₁.db with readingJobs := jobs }) ∨
      ∃ userId, ∃ sub : Submission s₁.db userId readingId,
        submissionsOf readingId s.history = [(.submit userId readingId, sub.writes)] ∧
          Submitted sub s.db := by
  have path₁ := reach_commits (fun _ hc => hc) hD run₁
  have hrecorded : ReservationsRecorded s₁.db :=
    path₁.invariant ReservationsRecorded (.of_empty hreservations hledger)
      fun c D' L hD' he => he.2.reservationsRecorded hD'
  have huntouched : DraftsUntouched s₁.db :=
    path₁.invariant DraftsUntouched (.of_empty hreservations hdraws)
      fun c D' L hD' he => he.2.draftsUntouched hD'
  have hbelong : PaymentsBelong s₁.db := ((discipline S).path_mono path₁).belong hD
  obtain ⟨hunreserved, hundrawn⟩ := huntouched readingId fun r' hr' => by
    obtain rfl := Option.some.inj (hr.symm.trans hr')
    exact hdraft
  have path := reach_commits (by rintro c ⟨userId, rfl⟩; rfl) hbelong run
  rcases path_of_submits path with hnone | ⟨userId, sub, hone, jobs, hjobs⟩
  · exact .inl hnone
  · refine .inr ⟨userId, sub, hone, ?_⟩
    rw [hjobs]
    exact sub.submitted hundrawn (hrecorded.unreserved readingId hunreserved) jobs

theorem submit_commits_at_most_once_of_two : ∃ s : BackendServer ParsedWebhook,
    submissionsOf "r1" s.history ≠ [] ∧ ∃ userId, ∃ sub : Submission sampleDb userId "r1",
      submissionsOf "r1" s.history = [(.submit userId "r1", sub.writes)] ∧ Submitted sub s.db := by
  -- Both submissions have read the draft and opened their transactions when the first one
  -- commits; the second one finds the reading `PENDING`.
  have submitted : ∃ s, Server.Reach (backend sampleDeployment)
      (fun c => ∃ userId, c = .submit userId "r1") (.idle sampleDb) s ∧
      submissionsOf "r1" s.history ≠ [] :=
    ⟨_, Server.Reach.refl.run ((submitSchedule 0 "ana" "r1").take 12 ++
        (submitSchedule 1 "ana" "r1").take 12 ++ (submitSchedule 0 "ana" "r1").drop 12 ++
        [.exec 1, .exec 1])
      (by simp [submitSchedule, Move.Admissible, backend, Deployment.answers]) rfl, by decide⟩
  obtain ⟨s, run, hs⟩ := submitted
  rcases submit_commits_at_most_once sampleDeployment sampleDb (.of_empty rfl) rfl rfl rfl
    (.idle sampleDb) .refl "r1" _ rfl rfl s run with ⟨hnone, -⟩ | hone
  · exact absurd hnone hs
  · exact ⟨s, hs, hone⟩

end TaroTria
