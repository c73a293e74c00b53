import TaroTria.Readings.ReadingWrites

/-!
# A completed reading

Jobs, retries and the failure handler of a reading, in any interleaving of
their transactions. A job and a retry read the status of the reading with their
first step and write it later without looking again; only the failure handler
looks again. So a completed reading stays completed when no job or retry that
started earlier is still running at its completion, and may be lost otherwise.

## Implementation notes

A transaction is one step here, and every step may fail or lose its answer.
-/

namespace TaroTria

open Transactions

/-- The reading is `COMPLETED`. -/
def Completed (readingId : Id) (D : Db) : Prop :=
  ∃ r, D.readings.lookup readingId = some r ∧ r.status = .COMPLETED

theorem NoReading.completed {D : Db} {L : List RowWrite} {readingId : Id} (h : NoReading D L)
    (hc : Completed readingId D) : Completed readingId (view L D) := by
  unfold Completed
  rw [h]
  exact hc

theorem OnlyReading.completed {D : Db} {L : List RowWrite} {id readingId : Id}
    (h : OnlyReading id D L) (hid : readingId ≠ id) (hc : Completed readingId D) :
    Completed readingId (view L D) := by
  unfold Completed
  rw [h readingId hid]
  exact hc

instance (readingId : Id) (D : Db) : Decidable (Completed readingId D) :=
  decidable_of_iff ((D.readings.lookup readingId).any fun r => r.status = .COMPLETED)
    (by simp [Completed, Option.any_eq_true])

namespace ReadingProcessing

theorem every_onFailed (readingId : Id) (attemptsMade : Nat) :
    (onFailed readingId attemptsMade).Every fun D L =>
      OnlyReading readingId D L ∧ (Completed readingId D → Completed readingId (view L D)) := by
  apply every_onFailed_of
  · exact fun D => ⟨onlyReading_nil readingId D, id⟩
  · exact WalletService.release_noReading.mono fun D L h => ⟨h.only readingId, h.completed⟩
  · intro D r hr hopen
    refine ⟨onlyReading_write readingId D _, ?_⟩
    rintro ⟨r', hr', hcompleted⟩
    obtain rfl : r' = r := Option.some.inj (hr'.symm.trans hr)
    exact absurd hcompleted hopen

theorem reading_of_findTarotReading {readingId : Id} {D : Db} {row : TarotReadingRow}
    (h : findTarotReading readingId D = some row) :
    D.readings.lookup readingId = some row.reading := by
  obtain ⟨r, hr, h⟩ := Option.bind_eq_some_iff.mp h
  obtain ⟨service, -, h⟩ := Option.bind_eq_some_iff.mp h
  cases h
  exact hr

/-- A job that finds its reading completed ends there. -/
theorem checks_process (job : ReadingJob) : (process job).Checks (Completed job.readingId) := by
  unfold process
  split
  · apply Proc.checks_select
    rintro D ⟨r, hr, hcompleted⟩
    cases hrow : findTarotReading job.readingId D with
    | none => trivial
    | some row =>
        obtain rfl : r = row.reading :=
          Option.some.inj (hr.symm.trans (reading_of_findTarotReading hrow))
        simp only [hcompleted, if_true]
        trivial
  · apply Proc.checks_select
    rintro D ⟨r, hr, hcompleted⟩
    have hfind : Db.reading.find D job.readingId = some r := hr
    simp only [hfind, Option.map_some, hcompleted, if_true]
    trivial

end ReadingProcessing

namespace ReadingsService

/-- A retry that finds the reading completed is refused. -/
theorem keeps_performRetry {readingId : Id} {r : Reading} {service : Service} {I : Db → Prop}
    (h : r.status = .COMPLETED) : (performRetry readingId r service).Keeps I := by
  unfold performRetry
  simp only [h, ne_eq, reduceCtorEq, not_false_eq_true, if_true]
  trivial

theorem checks_retry (userId readingId : Id) :
    (retry userId readingId).Checks (Completed readingId) := by
  apply Proc.checks_transaction
  rintro D ⟨r, hr, hcompleted⟩
  apply Tx.wp_bind
  apply Tx.wp_select
  rintro D₀ ⟨-, rfl, -⟩
  have hcomp : Completed readingId D₀ := ⟨r, hr, hcompleted⟩
  cases hfind : (Db.reading.find (view [] D₀) readingId).filter fun r => r.userId = userId with
  | none => exact ⟨hcomp, trivial⟩
  | some r' =>
      simp [Option.filter_eq_some_iff] at hfind
      obtain rfl : r = r' := Option.some.inj (hr.symm.trans hfind.1)
      apply Tx.wp_bind
      apply Tx.wp_selectOrThrow
      intro _ service _ _
      exact ⟨hcomp, (keeps_performRetry hcompleted).bind fun _ =>
        (every_findOneForUser userId readingId).mono fun _ _ h => h.completed⟩

theorem checks_retryAsAdmin (readingId : Id) :
    (retryAsAdmin readingId).Checks (Completed readingId) := by
  apply Proc.checks_transaction
  rintro D ⟨r, hr, hcompleted⟩
  apply Tx.wp_bind
  apply Tx.wp_select
  rintro D₀ ⟨-, rfl, -⟩
  have hfind : Db.reading.find (view [] D₀) readingId = some r := hr
  simp only [hfind]
  apply Tx.wp_bind
  apply Tx.wp_selectOrThrow
  intro _ service _ _
  exact ⟨⟨r, hr, hcompleted⟩, (keeps_performRetry hcompleted).bind fun _ =>
    (every_findOneForUser r.userId readingId).mono fun _ _ h => h.completed⟩

end ReadingsService

section Calls

variable {Body : Type}

/-- The calls that process, close or retry a reading write no other reading. -/
theorem every_processes (S : Deployment Body) {c : Call Body} {readingId : Id}
    (hc : c.processes = some readingId) : (c.prog S).Every (OnlyReading readingId) := by
  cases c with
  | retry userId id =>
      cases hc
      exact (ReadingsService.every_retry userId _).bind fun _ => trivial
  | retryAsAdmin id =>
      cases hc
      exact (ReadingsService.every_retryAsAdmin _).bind fun _ => trivial
  | confirmConsumption id =>
      cases hc
      exact (WalletService.confirm_noReading).mono fun _ _ h => h.only _
  | releaseReservation id =>
      cases hc
      exact (WalletService.release_noReading).mono fun _ _ h => h.only _
  | process job =>
      cases hc
      exact ReadingProcessing.every_process job
  | onFailed id attemptsMade =>
      cases hc
      exact (ReadingProcessing.every_onFailed _ attemptsMade).mono fun _ _ h => h.1
  | _ => cases hc

/-- A call that starts after the completion of a reading leaves it completed. -/
theorem checks_completed (S : Deployment Body) {c : Call Body} (hc : c.processes.isSome)
    (readingId : Id) : (c.prog S).Checks (Completed readingId) := by
  obtain ⟨id, hid⟩ := Option.isSome_iff_exists.mp hc
  by_cases hne : readingId = id
  · subst hne
    cases c with
    | retry userId id =>
        cases hid
        exact (ReadingsService.checks_retry userId _).bind fun _ => trivial
    | retryAsAdmin id =>
        cases hid
        exact (ReadingsService.checks_retryAsAdmin _).bind fun _ => trivial
    | confirmConsumption id =>
        exact Proc.Keeps.checks
          ((WalletService.confirm_noReading).mono fun _ _ h => h.completed)
    | releaseReservation id =>
        exact Proc.Keeps.checks
          ((WalletService.release_noReading).mono fun _ _ h => h.completed)
    | process job =>
        cases hid
        exact ReadingProcessing.checks_process job
    | onFailed id attemptsMade =>
        cases hid
        exact Proc.Keeps.checks
          ((ReadingProcessing.every_onFailed _ attemptsMade).mono fun _ _ h => h.2)
    | _ => cases hid
  · exact Proc.Keeps.checks ((every_processes S hid).mono fun _ _ h => h.completed hne)

/-- A step that completes a reading leaves no request behind that has read the
reading before and may still overwrite its status. -/
def CompletesAlone (s s' : BackendPool Body) : Prop :=
  ∀ readingId, s.SetsAlone (Completed readingId) s'

/-- In every run whose steps complete readings alone, a reading that is
`COMPLETED` stays so. -/
theorem completed_absorbing (S : Deployment Body) (D : Db) (s s' : BackendPool Body)
    (run : Pool.Reach (Call.prog S) (fun c => c.processes.isSome) CompletesAlone (.idle D) s)
    (run' : Pool.Reach (Call.prog S) (fun c => c.processes.isSome) CompletesAlone s s')
    (readingId : Id) (h : Completed readingId s.db) : Completed readingId s'.db := by
  exact Pool.Reach.latched (fun c hc => checks_completed S hc readingId)
    (fun _ _ hok => hok readingId) run run' h

end Calls

/-- No reading becomes completed between the two databases. -/
def noCompletion (D D' : Db) : Bool :=
  D'.readings.toRows.all fun e => e.2.status ≠ .COMPLETED ||
    (D.readings.lookup e.1).any fun r => r.status = .COMPLETED

theorem completesAlone_of_noCompletion {Body : Type} {s s' : BackendPool Body}
    (h : noCompletion s.db s'.db = true) : CompletesAlone s s' := by
  rintro readingId hnot ⟨r, hr, hcompleted⟩
  have hrow := List.all_eq_true.mp h _ ((Table.mem_toRows _ _ _).mpr hr)
  simp only [hcompleted, ne_eq, not_true_eq_false, decide_false, Bool.false_or,
    Option.any_eq_true, decide_eq_true_eq] at hrow
  exact absurd hrow hnot

/-- A job completes its reading, and then a second job, a retry and the failure
handler find it completed. -/
theorem completed_absorbing_of_job : ∃ s : BackendPool ParsedWebhook,
    Completed "r1" s.db ∧ (s.tasks 3).isSome = true := by
  obtain ⟨s₁, k, s', hs₁, hk, hcompleted, hrest, hs', htask⟩ :
      ∃ (s₁ : BackendPool ParsedWebhook) (k : Task Db RowWrite Err _ Answer Unit)
        (s' : BackendPool ParsedWebhook),
        Pool.run (Call.prog sampleDeployment) noCompletion (.idle submittedDb)
          (.spawn 0 (.process ⟨.PROCESS_TAROT, "r1"⟩) :: steps 0 5 .COMPLETED) = some s₁ ∧
        s₁.tasks 0 = some k ∧
        Completed "r1" (s₁.advance 0 k .done (sampleAnswer .COMPLETED)).db ∧
        (k.rest.step s₁.db .done (sampleAnswer .COMPLETED)).2 = .ret () ∧
        Pool.run (Call.prog sampleDeployment) noCompletion
          (s₁.advance 0 k .done (sampleAnswer .COMPLETED))
          ([.spawn 1 (.process ⟨.PROCESS_TAROT, "r1"⟩), .spawn 2 (.retry "ana" "r1"),
            .spawn 3 (.onFailed "r1" 3)] ++
            steps 1 1 .FAILED ++ steps 2 1 .FAILED ++ steps 3 2 .FAILED) = some s' ∧
        (s'.tasks 3).isSome = true := by
    refine ⟨_, _, _, rfl, rfl, ?_, rfl, rfl, rfl⟩
    decide
  have run₁ : Pool.Reach (Call.prog sampleDeployment) (fun c => c.processes.isSome)
      CompletesAlone (.idle submittedDb) s₁ :=
    Pool.Reach.refl.run (fun _ _ => completesAlone_of_noCompletion) _
      (by simp [steps, Event.Starts, Call.processes]) hs₁
  have alone : ∀ u, u ≠ 0 → s₁.tasks u = none := fun u hu =>
    Pool.tasks_run (by simp [steps, Event.task, hu.symm]) hs₁
  have run := run₁.go hk .done (sampleAnswer .COMPLETED) fun _ _ _ =>
    .of_alone alone (by rw [hrest]; trivial)
  have run' : Pool.Reach (Call.prog sampleDeployment) (fun c => c.processes.isSome)
      CompletesAlone (s₁.advance 0 k .done (sampleAnswer .COMPLETED)) s' :=
    Pool.Reach.refl.run (fun _ _ => completesAlone_of_noCompletion) _
      (by simp [steps, Event.Starts, Call.processes]) hs'
  exact ⟨s', completed_absorbing sampleDeployment submittedDb _ s' run run' "r1" hcompleted, htask⟩

/-- Two jobs read the reading, one of them completes it, and the other one
then marks it `PROCESSING`. -/
theorem completed_overwritten : ∃ s s' : BackendPool ParsedWebhook,
    Pool.Reach (Call.prog sampleDeployment) (fun c => c.processes.isSome) (fun _ _ => True)
      (.idle submittedDb) s ∧
    Pool.Reach (Call.prog sampleDeployment) (fun c => c.processes.isSome) (fun _ _ => True) s s' ∧
    Completed "r1" s.db ∧ ¬ Completed "r1" s'.db := by
  have any : ∀ s s' : BackendPool ParsedWebhook, Pool.unchecked s.db s'.db = true → True :=
    fun _ _ _ => trivial
  refine ⟨_, _, Pool.Reach.refl.run any
      ([.spawn 0 (.process ⟨.PROCESS_TAROT, "r1"⟩), .spawn 1 (.process ⟨.PROCESS_TAROT, "r1"⟩)] ++
        steps 0 1 .COMPLETED ++ steps 1 6 .COMPLETED)
      (by simp [steps, Event.Starts, Call.processes]) rfl,
    Pool.Reach.refl.run any (steps 0 1 .COMPLETED) (by simp [steps, Event.Starts]) rfl, ?_, ?_⟩
  · decide
  · decide

end TaroTria
