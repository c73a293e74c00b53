import TaroTria.Backend.Calls
import TaroTria.Readings.JobAttempt

/-!
# The outcome of a job

A job is attempted up to three times. An attempt closes the reservation in one
commit and writes the result in another, and the AI is asked again in each attempt,
so that the reservation follows the first verdict that closes it and the reading
the first completion that is written.
-/

namespace TaroTria

open Transactions

namespace ReadingProcessing

section Verdicts

variable (code : String) (k : Nat) (room : Bool)

/-- The verdict of the first attempt whose closing commits. -/
def firstClosing : List Attempt → Option AIExecutionStatus
  | [] => none
  | a :: attempts => if a.Closes code k room then some a.verdict else firstClosing attempts

/-- Some attempt writes a completion. -/
def CompletionWritten (attempts : List Attempt) : Prop :=
  ∃ a ∈ attempts, a.Writes code k ∧ a.verdict = .COMPLETED

variable {code k room}

theorem firstClosing_cons (a : Attempt) (attempts : List Attempt) :
    firstClosing code k room (a :: attempts) =
      (firstClosing code k room [a] <|> firstClosing code k room attempts) := by
  by_cases h : a.Closes code k room
  · simp [firstClosing, h]
  · simp [firstClosing, h]

theorem completionWritten_cons (a : Attempt) (attempts : List Attempt) :
    CompletionWritten code k (a :: attempts) ↔
      CompletionWritten code k [a] ∨ CompletionWritten code k attempts := by
  simp [CompletionWritten]

end Verdicts

/-- The attempts at a job, after `attemptsMade` earlier ones, up to its end: an attempt
returns, or the last one fails and `onFailed` runs undisturbed to its end. -/
inductive Execution (job : ReadingJob) : Nat → Db → List Attempt → Db → Prop
  | returned {attemptsMade : Nat} {D : Db} {a : Attempt} :
      ((process job).exec a.env 0 D).2 = .ok () →
      Execution job attemptsMade D [a] ((process job).exec a.env 0 D).1
  | retried {attemptsMade : Nat} {D E : Db} {a : Attempt} {attempts : List Attempt} {e : Err}
      {env : Proc.Surroundings Answer} :
      ((process job).exec a.env 0 D).2 = .error e → attemptsMade + 1 < MAX_ATTEMPTS →
      Execution job (attemptsMade + 1) ((onFailed job.readingId (attemptsMade + 1)).exec env 0
        ((process job).exec a.env 0 D).1).1 attempts E →
      Execution job attemptsMade D (a :: attempts) E
  | exhausted {attemptsMade : Nat} {D : Db} {a : Attempt} {e : Err}
      {env : Proc.Surroundings Answer} :
      ((process job).exec a.env 0 D).2 = .error e → attemptsMade + 1 = MAX_ATTEMPTS →
      env.Healthy → ((onFailed job.readingId (attemptsMade + 1)).exec env 0
        ((process job).exec a.env 0 D).1).2 = .ok () →
      Execution job attemptsMade D [a] ((onFailed job.readingId (attemptsMade + 1)).exec env 0
        ((process job).exec a.env 0 D).1).1

/-- The reading with its reservation before the job. -/
structure Reserved (readingId : Id) (r : Reading) (service : Service) (c : CreditReservation)
    (w : Wallet) (D : Db) : Prop where
  reading : D.readings.lookup readingId = some r
  service : D.services.lookup r.serviceId = some service
  incomplete : r.status ≠ .COMPLETED
  reservation : D.creditReservations.lookup readingId = some c
  active : c.status = .ACTIVE
  wallet : D.wallets.lookup c.walletId = some w
  unconsumed : D.walletTransactions.lookup (.consumption readingId) = none
  unreleased : D.walletTransactions.lookup (.release readingId) = none

/-- A completed reading has a consumed reservation, and a failed one a released one with
its credits back. -/
structure Consistent (readingId : Id) (c : CreditReservation) (w : Wallet) (E : Db) : Prop where
  completed : ∀ r, E.readings.lookup readingId = some r → r.status = .COMPLETED →
    (E.creditReservations.lookup readingId).map (·.status) = some .CONSUMED
  failed : ∀ r, E.readings.lookup readingId = some r → r.status = .FAILED →
    (E.creditReservations.lookup readingId).map (·.status) = some .RELEASED ∧
      E.wallets.lookup c.walletId = some ⟨w.balance + c.amount⟩

section Runs

variable {job : ReadingJob} {r : Reading} {service : Service} {c : CreditReservation} {w : Wallet}
  {D E F : Db} {closing : Option AIExecutionStatus} {completed : Prop} {code : String} {k : Nat}

/-- An attempt at a completed reading changes nothing. -/
theorem Stands.attempt_completed (h : Stands job r c w D closing True E)
    (hservice : D.services.lookup r.serviceId = some service) (a : Attempt) :
    ((process job).exec a.env 0 E).1 = E := by
  obtain ⟨r', hr', hserviceId, hstatus⟩ := h.reading
  have hcompleted : r'.status = .COMPLETED := hstatus.mpr trivial
  unfold process
  by_cases h₀ : a.env.fate 0 = some .done
  · cases job.name with
    | PROCESS_TAROT =>
        obtain ⟨row, hrow, rfl, -⟩ := exists_findTarotReading hr'
          (by rw [h.services, hserviceId]; exact hservice)
        simp only [processTarotReading]
        rw [Proc.exec_select h₀, hrow]
        simp [hcompleted]
    | PROCESS_PALM =>
        have hfind : Db.reading.find E job.readingId = some r' := hr'
        simp only [processPalmReading]
        rw [Proc.exec_select h₀, hfind]
        simp [hcompleted]
  · have hfirst : ∃ e, (process job).exec a.env 0 E = (E, .error e) := by
      unfold process
      cases job.name with
      | PROCESS_TAROT => exact Proc.exec_select_unanswered h₀
      | PROCESS_PALM => exact Proc.exec_select_unanswered h₀
    obtain ⟨e, he⟩ := hfirst
    exact congrArg Prod.fst he

theorem exec_onFailed_early {readingId : Id} {attemptsMade : Nat} (h : attemptsMade < MAX_ATTEMPTS)
    (env : Proc.Surroundings Answer) : ((onFailed readingId attemptsMade).exec env 0 E).1 = E := by
  unfold onFailed
  rw [if_pos h]
  rfl

/-- The failure handler releases the reservation that no attempt has closed, and fails
the reading that is not completed. -/
theorem Stands.onFailed (h : Stands job r c w D closing completed E)
    {env : Proc.Surroundings Answer} (henv : env.Healthy)
    (hreturned : ((onFailed job.readingId MAX_ATTEMPTS).exec env 0 E).2 = .ok ()) :
    Held job.readingId c w (some (closing.getD .FAILED))
      ((onFailed job.readingId MAX_ATTEMPTS).exec env 0 E).1 ∧
    ∃ r', ((onFailed job.readingId MAX_ATTEMPTS).exec env 0 E).1.readings.lookup job.readingId =
        some r' ∧ (completed → r'.status = .COMPLETED) ∧ (¬ completed → r'.status = .FAILED) := by
  have hfits : closing = none → AIExecutionStatus.FAILED = .COMPLETED ∨ refundFits c w = true := by
    rintro rfl
    by_contra hunfit
    have hrun := run_closingTx_unfit h.held hunfit
    unfold ReadingProcessing.onFailed at hreturned
    rw [if_neg (Nat.lt_irrefl _),
      Proc.exec_transaction_error (henv 0) (by simpa [closingTx] using hrun)] at hreturned
    cases hreturned
  obtain ⟨L, hrun, hheld, hframe⟩ := run_closingTx (v := .FAILED) h.held (by simp) hfits
  have hclosing : (closing <|> some AIExecutionStatus.FAILED) = some (closing.getD .FAILED) := by
    cases closing <;> rfl
  rw [hclosing] at hheld
  obtain ⟨r', hr', -, hstatus⟩ := h.reading
  have hr'' : (view L E).readings.lookup job.readingId = some r' := by
    rw [hframe]
    exact hr'
  unfold ReadingProcessing.onFailed
  rw [if_neg (Nat.lt_irrefl _), Proc.exec_transaction_ok (henv 0) (by simpa [closingTx] using hrun)]
  by_cases hcompleted : completed
  · have hidle := Db.reading.run_updateMany_none (E := Err) (D := view L E) (L := [])
      (k := job.readingId) (p := fun r => r.status ≠ .COMPLETED)
      (fun r : Reading => { r with status := .FAILED })
      fun v hv => by
        obtain rfl : r' = v := Option.some.inj (hr''.symm.trans hv)
        simp [hstatus, hcompleted]
    rw [Proc.exec_transaction (henv 1) (Tx.run_bind_ok hidle)]
    exact ⟨hheld, r', hr'', fun _ => hstatus.mpr hcompleted, fun h => absurd hcompleted h⟩
  · have hfail := Db.reading.run_updateMany (E := Err) (D := view L E) (L := [])
      (p := fun r => r.status ≠ .COMPLETED) (fun r : Reading => { r with status := .FAILED }) hr''
      (by simp [hstatus, hcompleted])
    rw [Proc.exec_transaction (henv 1) (Tx.run_bind_ok hfail)]
    refine ⟨⟨hheld.reservation, hheld.wallet, hheld.unconsumed, hheld.unreleased⟩,
      { r' with status := .FAILED }, ?_, fun h => absurd h hcompleted, fun _ => rfl⟩
    simp

section Steps

variable (hservice : D.services.lookup r.serviceId = some service)
  (hcode : code = promptCode job service) (hk : k = aiStep job D)
include hservice hcode hk

/-- One attempt, at an open reading or a completed one. -/
theorem Stands.next (h : Stands job r c w D closing completed E) (a : Attempt) :
    Stands job r c w D (closing <|> firstClosing code k (refundFits c w) [a])
      (completed ∨ CompletionWritten code k [a]) ((process job).exec a.env 0 E).1 ∧
    (((process job).exec a.env 0 E).2 = .ok () →
      (closing <|> firstClosing code k (refundFits c w) [a]) ≠ none ∧
      ∃ r', ((process job).exec a.env 0 E).1.readings.lookup job.readingId = some r' ∧
        (¬ (completed ∨ CompletionWritten code k [a]) → r'.status = .FAILED)) := by
  by_cases hcompleted : completed
  · obtain ⟨v, rfl⟩ := Option.ne_none_iff_exists'.mp (h.closed hcompleted)
    obtain ⟨r', hr', -, -⟩ := h.reading
    rw [(h.congr (iff_of_true trivial hcompleted)).attempt_completed hservice a]
    exact ⟨h.congr (by simp [hcompleted]), fun _ => ⟨by simp, r', hr', by simp [hcompleted]⟩⟩
  · obtain ⟨hnext, hreturned⟩ :=
      (h.congr (iff_of_false not_false hcompleted)).attempt hservice a hcode hk
    have hclosing : (closing <|> firstClosing code k (refundFits c w) [a]) =
        if a.Closes code k (refundFits c w) then closing <|> some a.verdict else closing := by
      by_cases hcloses : a.Closes code k (refundFits c w)
      · simp [firstClosing, hcloses]
      · simp [firstClosing, hcloses]
    rw [hclosing]
    refine ⟨hnext.congr (by simp [CompletionWritten, hcompleted]), fun hok => ?_⟩
    obtain ⟨hwrites, hfits, r', hr', hstatus⟩ := hreturned hok
    have hclosed : (if a.Closes code k (refundFits c w) then closing <|> some a.verdict
        else closing) ≠ none := by
      cases closing with
      | none =>
          rw [if_pos ⟨hwrites.1, hwrites.2.1, .inl hwrites.2.2.1, hfits rfl⟩]
          simp
      | some v => split <;> simp
    refine ⟨hclosed, r', hr', fun hnot => ?_⟩
    have hverdict : a.verdict ≠ .COMPLETED := fun hv => hnot (.inr ⟨a, by simp, hwrites, hv⟩)
    have hjudged := a.judged
    rw [hstatus]
    cases hv : a.verdict with
    | PENDING => exact absurd hv hjudged
    | COMPLETED => exact absurd hv hverdict
    | FAILED => rfl

/-- The end of a job. -/
theorem Stands.execution {attemptsMade : Nat} {attempts : List Attempt}
    (hrun : Execution job attemptsMade E attempts F) (h : Stands job r c w D closing completed E) :
    Held job.readingId c w
      (some ((closing <|> firstClosing code k (refundFits c w) attempts).getD .FAILED)) F ∧
    ∃ r', F.readings.lookup job.readingId = some r' ∧
      (completed ∨ CompletionWritten code k attempts → r'.status = .COMPLETED) ∧
      (¬ (completed ∨ CompletionWritten code k attempts) → r'.status = .FAILED) := by
  induction hrun generalizing closing completed with
  | @returned attemptsMade E a hok =>
      obtain ⟨hnext, hreturned⟩ := h.next hservice hcode hk a
      obtain ⟨hclosed, r', hr', hfailed⟩ := hreturned hok
      obtain ⟨r'', hr'', -, hstatus⟩ := hnext.reading
      obtain rfl : r' = r'' := Option.some.inj (hr'.symm.trans hr'')
      obtain ⟨v, hv⟩ := Option.ne_none_iff_exists'.mp hclosed
      have hheld := hnext.held
      rw [hv] at hheld ⊢
      exact ⟨hheld, r', hr', hstatus.mpr, hfailed⟩
  | @retried attemptsMade E F a attempts e env herror hmore hrest ih =>
      rw [exec_onFailed_early hmore env] at ih
      have hassoc : (closing <|> firstClosing code k (refundFits c w) (a :: attempts)) =
          ((closing <|> firstClosing code k (refundFits c w) [a]) <|>
            firstClosing code k (refundFits c w) attempts) := by
        rw [firstClosing_cons]
        cases closing <;> rfl
      rw [hassoc, completionWritten_cons, ← or_assoc]
      exact ih (h.next hservice hcode hk a).1
  | @exhausted attemptsMade E a e env herror hlast henv hreturned =>
      rw [hlast] at hreturned ⊢
      obtain ⟨hheld, r', hr', hstatus⟩ := (h.next hservice hcode hk a).1.onFailed henv hreturned
      exact ⟨hheld, r', hr', hstatus⟩

end Steps

end Runs

end ReadingProcessing

section Jobs

open ReadingProcessing

variable {job : ReadingJob} {r : Reading} {service : Service} {c : CreditReservation} {w : Wallet}
  {D E : Db}

/-- At its end a job agrees with the reservation if and only if the first verdict that
closes the reservation is a completion exactly when some completion is written. -/
theorem job_outcome_consistent_iff {attempts : List Attempt}
    (hD : Reserved job.readingId r service c w D) (hrun : Execution job 0 D attempts E) :
    Consistent job.readingId c w E ↔
      (firstClosing (promptCode job service) (aiStep job D) (refundFits c w) attempts =
          some .COMPLETED ↔
        CompletionWritten (promptCode job service) (aiStep job D) attempts) := by
  have hstands : Stands job r c w D none False D :=
    { held := ⟨by simp [hD.reservation, reservationStatus, ← hD.active],
        by simp [hD.wallet, refund, reservationStatus], fun _ => hD.unconsumed,
        fun _ => hD.unreleased⟩
      reading := ⟨r, hD.reading, rfl, by simp [hD.incomplete]⟩
      services := rfl
      palmImages := rfl
      closed := nofun }
  obtain ⟨hheld, r', hr', hcompleted, hfailed⟩ := hstands.execution hD.service rfl rfl hrun
  simp only [false_or] at hcompleted hfailed
  generalize hv : (none <|> firstClosing (promptCode job service) (aiStep job D) (refundFits c w)
    attempts).getD .FAILED = v at hheld
  have hfirst : firstClosing (promptCode job service) (aiStep job D) (refundFits c w) attempts =
      some .COMPLETED ↔ v = .COMPLETED := by
    rw [← hv]
    cases firstClosing (promptCode job service) (aiStep job D) (refundFits c w) attempts <;> simp
  rw [hfirst]
  by_cases hwritten : CompletionWritten (promptCode job service) (aiStep job D) attempts
  · have hstatus := hcompleted hwritten
    constructor
    · intro h
      have hconsumed := h.completed r' hr' hstatus
      rw [hheld.reservation] at hconsumed
      exact iff_of_true (by cases v <;> simp [reservationStatus] at hconsumed ⊢) hwritten
    · intro h
      obtain rfl := h.mpr hwritten
      refine ⟨fun _ _ _ => by rw [hheld.reservation]; rfl, fun r'' hr'' hstatus' => ?_⟩
      obtain rfl : r' = r'' := Option.some.inj (hr'.symm.trans hr'')
      simp [hstatus] at hstatus'
  · have hstatus := hfailed hwritten
    constructor
    · intro h
      have hreleased := (h.failed r' hr' hstatus).1
      rw [hheld.reservation] at hreleased
      exact iff_of_false (by rintro rfl; simp [reservationStatus] at hreleased) hwritten
    · intro h
      have hne : v ≠ .COMPLETED := fun hv => hwritten (h.mp hv)
      have hreleased : reservationStatus (some v) = .RELEASED := by
        cases v with
        | COMPLETED => exact absurd rfl hne
        | _ => rfl
      refine ⟨fun r'' hr'' hstatus' => ?_, fun _ _ _ => ⟨?_, ?_⟩⟩
      · obtain rfl : r' = r'' := Option.some.inj (hr'.symm.trans hr'')
        simp [hstatus] at hstatus'
      · rw [hheld.reservation, hreleased]
        rfl
      · rw [hheld.wallet, refund, if_pos hreleased]

/-- A submitted tarot reading, whose reservation is open. -/
def submittedTarot : Db :=
  { Db.empty with
    services := (∅ : Table Id Service).write "three" (some ⟨"TAROT_THREE", "Tres", none, 5, true⟩)
    readings := (∅ : Table Id Reading).write "r1" (some
      ⟨"ana", "three", none, none, .PENDING, some 0⟩)
    wallets := (∅ : Table Id Wallet).write "ana" (some ⟨3⟩)
    creditReservations := (∅ : Table Id CreditReservation).write "r1" (some ⟨"ana", 5, .ACTIVE⟩) }

theorem reserved_submittedTarot :
    Reserved "r1" ⟨"ana", "three", none, none, .PENDING, some 0⟩ ⟨"TAROT_THREE", "Tres", none, 5, true⟩
      ⟨"ana", 5, .ACTIVE⟩ ⟨3⟩ submittedTarot :=
  ⟨rfl, rfl, by decide, rfl, rfl, rfl, rfl, rfl⟩

/-- An attempt whose steps from the `n`-th on fail, and whose verdict is a completion. -/
def attemptUpTo (n : Nat) : Attempt where
  env := { fate := fun k => if k < n then some .done else some .failed
           answer := fun _ => sampleAnswer .COMPLETED }
  verdict := .COMPLETED
  answers _ _ := rfl
  judged := by decide

/-- The failure handler, undisturbed. -/
def calm : Proc.Surroundings Answer := ⟨fun _ => some .done, fun _ => sampleAnswer .COMPLETED⟩

/-- An attempt in which nothing fails. -/
theorem job_outcome_consistent_of_calm :
    Consistent "r1" ⟨"ana", 5, .ACTIVE⟩ ⟨3⟩
      ((process ⟨.PROCESS_TAROT, "r1"⟩).exec (attemptUpTo 9).env 0 submittedTarot).1 :=
  (@job_outcome_consistent_iff ⟨.PROCESS_TAROT, "r1"⟩ _ _ _ _ _ _ _ reserved_submittedTarot
    (.returned rfl)).mpr
    (iff_of_true rfl ⟨attemptUpTo 9, List.mem_singleton_self _, by decide, rfl⟩)

/-- The first attempt consumes the reservation and cannot write its result, and the two
others fail. The reading fails with its credits consumed. -/
theorem failed_with_credits_consumed : ∃ attempts E,
    Execution ⟨.PROCESS_TAROT, "r1"⟩ 0 submittedTarot attempts E ∧
    (E.readings.lookup "r1").map (·.status) = some .FAILED ∧
    (E.creditReservations.lookup "r1").map (·.status) = some .CONSUMED ∧
    E.wallets.lookup "ana" = some ⟨3⟩ :=
  ⟨[attemptUpTo 5, attemptUpTo 0, attemptUpTo 0], _,
    @Execution.retried _ _ _ _ _ _ .fault calm rfl (by decide)
      (@Execution.retried _ _ _ _ _ _ .fault calm rfl (by decide)
        (@Execution.exhausted _ _ _ _ .fault calm rfl rfl (fun _ => rfl) rfl)), rfl, rfl, rfl⟩

end Jobs

end TaroTria
