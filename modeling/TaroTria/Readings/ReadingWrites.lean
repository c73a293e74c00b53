import TaroTria.Backend.Calls

/-!
# The readings that a call writes

A call on one reading writes no other reading, and the closings of a
reservation write none. These are facts about each transaction by itself,
whatever the request has read before.
-/

namespace TaroTria

open Transactions

/-- Only the row of this reading is written, if any. -/
def OnlyReading (readingId : Id) (D : Db) (L : List RowWrite) : Prop :=
  ∀ id, id ≠ readingId → (view L D).readings.lookup id = D.readings.lookup id

/-- No row of a reading is written. -/
def NoReading (D : Db) (L : List RowWrite) : Prop := (view L D).readings = D.readings

theorem noReading_nil (D : Db) : NoReading D [] := rfl

theorem onlyReading_nil (readingId : Id) (D : Db) : OnlyReading readingId D [] := fun _ _ => rfl

theorem NoReading.only {D : Db} {L : List RowWrite} (readingId : Id) (h : NoReading D L) :
    OnlyReading readingId D L := fun id _ => by rw [h]

theorem onlyReading_write (readingId : Id) (D : Db) (r : Option Reading) :
    OnlyReading readingId D [.reading readingId r] := by
  intro id hid
  simp [Table.lookup_write_of_ne _ _ hid]

namespace WalletService

variable {K : Db → List RowWrite → Prop} {readingId : Id}

theorem every_confirmConsumption (hnil : ∀ D, K D [])
    (h : ∀ D res balanceAfter, D.creditReservations.lookup readingId = some res →
      D.walletTransactions.lookup (.consumption readingId) = none →
      K D (consumptionWrites readingId res balanceAfter)) :
    (Proc.transaction (confirmConsumption readingId) : Request Unit).Every K := by
  apply Proc.every_transaction
  intro D
  apply wp_confirmConsumption
  · exact hnil D
  · intro res _ seen _ _ hres _ hk
    exact h D res seen.balance hres hk

theorem every_releaseReservation (hnil : ∀ D, K D [])
    (h : ∀ D res w, D.creditReservations.lookup readingId = some res →
      D.walletTransactions.lookup (.release readingId) = none →
      K D (releaseWrites readingId res w)) :
    (Proc.transaction (releaseReservation readingId) : Request Unit).Every K := by
  apply Proc.every_transaction
  intro D
  apply wp_releaseReservation
  · exact hnil D
  · intro res w hres _ _ hk _
    exact h D res w hres hk

/-- Confirming a consumption writes no reading. -/
theorem confirm_noReading :
    (Proc.transaction (confirmConsumption readingId) : Request Unit).Every NoReading :=
  every_confirmConsumption noReading_nil fun _ _ _ _ _ => rfl

/-- Releasing a reservation writes no reading. -/
theorem release_noReading :
    (Proc.transaction (releaseReservation readingId) : Request Unit).Every NoReading :=
  every_releaseReservation noReading_nil fun _ _ _ _ _ => rfl

end WalletService

namespace ReadingsService

theorem every_addJob_of {K : Db → List RowWrite → Prop} {jobId : String} {job : ReadingJob}
    (h : ∀ D job', K D [.readingJob jobId (some job')]) :
    (Proc.transaction (addJob jobId job) : Request Unit).Every K :=
  Proc.every_transaction fun D => wp_addJob (h D)

theorem every_addJob (jobId : String) (job : ReadingJob) :
    (Proc.transaction (addJob jobId job) : Request Unit).Every NoReading :=
  every_addJob_of fun _ _ => rfl

theorem every_setStatus (readingId : Id) (status : ReadingStatus) :
    (Proc.transaction (setStatus readingId status) : Request Unit).Every
      (OnlyReading readingId) := by
  apply Proc.every_transaction
  intro D
  apply wp_setStatus
  intro r _
  exact onlyReading_write readingId D _

theorem every_findOneForUser_of_nil {K : Db → List RowWrite → Prop} (hnil : ∀ D, K D [])
    (userId readingId : Id) : (findOneForUser userId readingId).Every K := by
  apply (Proc.every_select hnil _).bind
  intro r
  cases r <;> trivial

theorem every_findOneForUser (userId readingId : Id) :
    (findOneForUser userId readingId).Every NoReading :=
  every_findOneForUser_of_nil noReading_nil userId readingId

theorem every_withService {K : Db → List RowWrite → Prop} (hnil : ∀ D, K D [])
    (reading : Db → Option Reading) :
    (Proc.transaction (withService (Tx.select reading)) :
      Request (Option (Reading × Service))).Every K := by
  apply Proc.every_transaction
  intro D
  apply Tx.wp_bind
  apply Tx.wp_select
  intro D₀ _
  cases reading (view [] D₀) with
  | none => exact hnil D
  | some r =>
      apply Tx.wp_bind
      apply Tx.wp_selectOrThrow
      intro D₁ service _ _
      exact hnil D

/-- Every write of a submission, for a property that holds of the empty one and
of the reading's queued job. -/
theorem every_submit {K : Db → List RowWrite → Prop} {userId readingId : Id}
    (hnil : ∀ D, K D [])
    (hjob : ∀ jobId name,
      (Proc.transaction (addJob jobId ⟨name, readingId⟩) : Request Unit).Every K)
    (h : ∀ D service unlocked w draws r now, D.wallets.lookup userId = some w →
      D.creditReservations.lookup readingId = none →
      D.walletTransactions.lookup (.reservation readingId) = none →
      D.readings.lookup readingId = some r →
      K D (submissionWrites userId readingId service unlocked w draws r now)) :
    (submit userId readingId).Every K := by
  have answer : (findOneForUser userId readingId).Every K := by
    apply (Proc.every_select hnil _).bind
    intro r
    cases r <;> trivial
  -- The end of both kinds of submission.
  have finish : ∀ (body : TxM Unit) name jobId, (∀ D, body.wp still D (fun _ L => K D L) []) →
      (submitOnce userId readingId body ⟨name, readingId⟩ jobId).Every K := by
    intro body name jobId hbody
    unfold submitOnce
    refine Proc.Every.bind (Proc.Every.handle ?_ ?_) ?_
    · exact (Proc.every_transaction hbody).bind fun _ => trivial
    · intro e
      cases e <;> trivial
    · intro outcome
      cases outcome with
      | false => exact answer
      | true => exact (hjob jobId name).bind fun _ => answer
  unfold submit findOwnedDraft
  rw [bind_assoc]
  apply (Proc.every_select hnil _).bind
  rintro (_ | reading)
  · trivial
  by_cases hdraft : reading.status = .DRAFT
  · simp only [hdraft, ne_eq, not_true_eq_false, if_false]
    apply (Proc.every_selectOrThrow hnil _).bind
    intro service
    split
    · apply (Proc.every_select hnil _).bind
      intro validImages
      split
      · trivial
      apply (Proc.every_call _).bind
      intro now
      apply finish
      intro D
      apply wp_submitPalmTx
      intro w r hw _ hres hk hr
      exact h D service false w [] r now hw hres hk hr
    · apply (Proc.every_select hnil _).bind
      rintro (_ | input)
      · trivial
      simp only
      split
      · apply (Proc.every_selectOrThrow hnil _).bind
        intro spread
        apply (Proc.every_call _).bind
        intro deck?
        apply (Proc.every_ofExcept deck?).bind
        intro deck
        apply (Proc.every_call _).bind
        intro choices
        apply (Proc.every_ofExcept _).bind
        intro draws
        apply (Proc.every_call _).bind
        intro now
        apply finish
        intro D
        apply wp_submitTarotTx
        intro unlocked w r _ hw _ hres hk hr
        exact h D service unlocked w draws r now hw hres hk hr
      · trivial
  · simp only [hdraft, ne_eq, not_false_eq_true, if_true]
    trivial

theorem every_deleteObjects {K : Db → List RowWrite → Prop} (keys : List String) :
    (deleteObjects keys).Every K := by
  induction keys with
  | nil => trivial
  | cons key keys ih => exact (Proc.every_call _).bind fun _ => ih

/-- Every write of a removal after its check. -/
theorem every_deletion {K : Db → List RowWrite → Prop} {readingId : Id}
    (h : ∀ D r, D.readings.lookup readingId = some r → K D (deletionWrites readingId D)) :
    (Proc.transaction (deleteReading readingId) : Request Unit).Every K := by
  apply Proc.every_transaction
  rintro D D₀ _ ws ⟨-, rfl, -⟩ hs
  simp only [Delegate.find, Db.reading_rows, view_nil] at hs
  split at hs
  · rename_i r hr
    cases hs
    exact h _ r hr
  · cases hs

section Retry

variable {K : Db → List RowWrite → Prop} {readingId : Id} (hnil : ∀ D, K D [])
  (hstatus : (Proc.transaction (setStatus readingId .PENDING) : Request Unit).Every K)
  (hjob : ∀ jobId name,
    (Proc.transaction (addJob jobId ⟨name, readingId⟩) : Request Unit).Every K)
include hstatus hjob

theorem every_performRetry_of (r : Reading) (service : Service) :
    (performRetry readingId r service).Every K := by
  unfold performRetry
  by_cases hfailed : r.status = .FAILED
  · simp only [hfailed, ne_eq, not_true_eq_false, if_false]
    apply hstatus.bind
    intro _
    apply (Proc.every_call _).bind
    intro uuid
    split <;> exact hjob _ _
  · simp only [hfailed, ne_eq, not_false_eq_true, if_true]
    trivial

include hnil

theorem every_retry_of (userId : Id) : (retry userId readingId).Every K := by
  apply (every_withService hnil _).bind
  rintro (_ | ⟨r, service⟩)
  · trivial
  · apply (every_performRetry_of hstatus hjob r service).bind
    intro _
    exact every_findOneForUser_of_nil hnil userId readingId

theorem every_retryAsAdmin_of : (retryAsAdmin readingId).Every K := by
  apply (every_withService hnil _).bind
  rintro (_ | ⟨r, service⟩)
  · trivial
  · apply (every_performRetry_of hstatus hjob r service).bind
    intro _
    exact every_findOneForUser_of_nil hnil r.userId readingId

end Retry

theorem every_retry (userId readingId : Id) :
    (retry userId readingId).Every (OnlyReading readingId) :=
  every_retry_of (onlyReading_nil readingId) (every_setStatus readingId .PENDING)
    (fun jobId _ => (every_addJob jobId _).mono fun _ _ h => h.only readingId) userId

theorem every_retryAsAdmin (readingId : Id) :
    (retryAsAdmin readingId).Every (OnlyReading readingId) :=
  every_retryAsAdmin_of (onlyReading_nil readingId) (every_setStatus readingId .PENDING)
    fun jobId _ => (every_addJob jobId _).mono fun _ _ h => h.only readingId

end ReadingsService

namespace ReadingProcessing

section Closing

variable {K : Db → List RowWrite → Prop} {readingId promptVersionId : Id}

/-- The wallet closes the reservation, and the result is written after it. -/
theorem every_closeReading_of
    (hconfirm : (Proc.transaction (WalletService.confirmConsumption readingId) :
      Request Unit).Every K)
    (hrelease : (Proc.transaction (WalletService.releaseReservation readingId) :
      Request Unit).Every K)
    (hwrite : ∀ D status r, D.readings.lookup readingId = some r →
      K D [.reading readingId (some { r with
        status := status, promptVersionId := promptVersionId })])
    (result : AIExecutionStatus) : (closeReading readingId promptVersionId result).Every K := by
  have write : ∀ status, (writeResult readingId promptVersionId status).Every K := by
    intro status
    apply Proc.every_transaction
    intro D
    apply Tx.wp_bind
    exact Db.reading.wp_update fun r hr => hwrite D status r hr
  unfold closeReading
  split
  · exact hconfirm.bind fun _ => write _
  · exact hrelease.bind fun _ => write _

/-- The failure handler writes a reading only while it is not completed. -/
theorem every_onFailed_of (hnil : ∀ D, K D [])
    (hrelease : (Proc.transaction (WalletService.releaseReservation readingId) :
      Request Unit).Every K)
    (hwrite : ∀ D r, D.readings.lookup readingId = some r → r.status ≠ .COMPLETED →
      K D [.reading readingId (some { r with status := .FAILED })])
    (attemptsMade : Nat) : (onFailed readingId attemptsMade).Every K := by
  unfold onFailed
  split
  · trivial
  · apply hrelease.bind
    intro _
    apply Proc.every_transaction
    intro D
    apply Tx.wp_bind
    apply Db.reading.wp_updateMany
    · exact fun _ _ _ => hnil D
    · exact fun r hr hopen => hwrite D r hr (by simpa using hopen)

end Closing

theorem every_interpret (readingId : Id) (input : AIOrchestratorExecuteInput) :
    (interpret readingId input).Every (OnlyReading readingId) := by
  unfold interpret
  apply (Proc.every_call _).bind
  intro result
  apply every_closeReading_of
  · exact WalletService.confirm_noReading.mono fun _ _ h => h.only _
  · exact WalletService.release_noReading.mono fun _ _ h => h.only _
  · exact fun D _ _ _ => onlyReading_write readingId D _

theorem every_downloadImages {K : Db → List RowWrite → Prop} (images : List PalmImage) :
    (downloadImages images).Every K := by
  induction images with
  | nil => trivial
  | cons image images ih =>
      apply (Proc.every_call _).bind
      intro bytes
      exact ih.bind fun _ => trivial

theorem every_processTarotReading (readingId : Id) :
    (processTarotReading readingId).Every (OnlyReading readingId) := by
  apply (Proc.every_select (onlyReading_nil readingId) _).bind
  rintro (_ | row)
  · trivial
  simp only
  split
  · trivial
  apply (ReadingsService.every_setStatus readingId .PROCESSING).bind
  intro _
  apply (Proc.every_call _).bind
  intro version
  apply (Proc.every_ofExcept version).bind
  exact fun _ => every_interpret readingId _

theorem every_processPalmReading (readingId : Id) :
    (processPalmReading readingId).Every (OnlyReading readingId) := by
  apply (Proc.every_select (onlyReading_nil readingId) _).bind
  rintro (_ | ⟨r, palmImages⟩)
  · trivial
  simp only
  split
  · trivial
  apply (ReadingsService.every_setStatus readingId .PROCESSING).bind
  intro _
  apply (Proc.every_call _).bind
  intro version
  apply (Proc.every_ofExcept version).bind
  intro promptVersionId
  apply (every_downloadImages palmImages).bind
  exact fun _ => every_interpret readingId _

theorem every_process (job : ReadingJob) : (process job).Every (OnlyReading job.readingId) := by
  unfold process
  split
  · exact every_processTarotReading job.readingId
  · exact every_processPalmReading job.readingId

end ReadingProcessing

end TaroTria
