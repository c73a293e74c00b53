import TaroTria.Readings.ImageWrites
import TaroTria.Readings.ReadingWrites
import TaroTria.Sharing.SharingService
import TaroTria.Transactions.Alone

/-!
# Jobs that are never queued

Each producer of jobs commits the new status of its entity first and adds the job in a
step of its own. When that step fails, the status stays, and the status is what every
producer checks: so no later request adds the job.
-/

namespace TaroTria

open Transactions

/-- The requests that add jobs of readings, images and share links to the queues. -/
inductive Producer
  | submit (userId readingId : Id)
  | retry (userId readingId : Id)
  | retryAsAdmin (readingId : Id)
  | confirmImage (userId readingId : Id) (key : String)
  | createShareLink (userId readingId : Id)

/-- The request of a producer; what it returns to its caller is dropped. -/
def Producer.prog (C : PalmImageConfig) (S : SharingConfig) : Producer → Request Unit
  | submit userId readingId => do
      let _ ← ReadingsService.submit userId readingId
  | retry userId readingId => do
      let _ ← ReadingsService.retry userId readingId
  | retryAsAdmin readingId => do
      let _ ← ReadingsService.retryAsAdmin readingId
  | confirmImage userId readingId key => do
      let _ ← ReadingsService.confirmImage C userId readingId key
  | createShareLink userId readingId => do
      let _ ← SharingService.createShareLink S userId readingId

/-- What a job is for. -/
inductive Entity
  | reading (id : Id)
  | image (id : Id)
  | shareLink (id : Id)

namespace Entity

/-- The job under this id is one of the entity. -/
def HasJob (D : Db) (jobId : String) : Entity → Prop
  | reading id => ∃ job, D.readingJobs.lookup jobId = some job ∧ job.readingId = id
  | image id => D.imageAnalysisJobs.lookup jobId = some id
  | shareLink id => D.shareImageJobs.lookup jobId = some id

/-- The status of the entity that its producer leaves when it adds the job. -/
def Sent (D : Db) : Entity → Prop
  | reading id => ∃ r, D.readings.lookup id = some r ∧ r.status = .PENDING
  | image id => ∃ i, D.palmImages.lookup id = some i ∧ i.status = .PENDING_REVIEW
  | shareLink id => ∃ link, D.shareLinks.lookup id = some link

end Entity

section Enqueueing

variable (C : PalmImageConfig) (S : SharingConfig)

/-- The producer commits the new status of the entity, and then it throws without the job. -/
structure FailsToEnqueue (p : Producer) (s : Entity) (env : Proc.Surroundings Answer) (D : Db) :
    Prop where
  unsent : ¬ s.Sent D
  committed : s.Sent ((p.prog C S).exec env 0 D).1
  throws : ∃ e, ((p.prog C S).exec env 0 D).2 = .error e
  unqueued : ∀ jobId, s.HasJob ((p.prog C S).exec env 0 D).1 jobId → s.HasJob D jobId

/-- Some request adds a job of the entity. -/
def CanEnqueue (s : Entity) (D : Db) : Prop :=
  ∃ (q : Producer) (env : Proc.Surroundings Answer) (jobId : String),
    ¬ s.HasJob D jobId ∧ s.HasJob ((q.prog C S).exec env 0 D).1 jobId

end Enqueueing

/-! ## Requests that add no job of an entity -/

/-- The writes add no job of the entity. -/
def AddsNone (s : Entity) (D : Db) (L : List RowWrite) : Prop :=
  ∀ jobId, s.HasJob (view L D) jobId → s.HasJob D jobId

/-- The request, run alone from here, adds no job of the entity. -/
def QueuesNone {α : Type} (s : Entity) (env : Proc.Surroundings Answer) (p : Request α) (n : Nat)
    (D : Db) : Prop :=
  ∀ jobId, s.HasJob (p.exec env n D).1 jobId → s.HasJob D jobId

section Rules

variable {α β : Type} {s : Entity} {env : Proc.Surroundings Answer} {n : Nat} {D : Db}

theorem addsNone_nil (s : Entity) (D : Db) : AddsNone s D [] := fun _ => id

/-- Writes to other tables. -/
theorem AddsNone.of_eq {L : List RowWrite} (hreadings : (view L D).readingJobs = D.readingJobs)
    (himages : (view L D).imageAnalysisJobs = D.imageAnalysisJobs)
    (hlinks : (view L D).shareImageJobs = D.shareImageJobs) : AddsNone s D L := by
  intro jobId h
  cases s with
  | reading id => simpa only [Entity.HasJob, hreadings] using h
  | image id => simpa only [Entity.HasJob, himages] using h
  | shareLink id => simpa only [Entity.HasJob, hlinks] using h

theorem queuesNone_of_every {p : Request α} (h : p.Every (AddsNone s)) :
    QueuesNone s env p n D := by
  intro jobId
  exact h.exec (I := fun E => s.HasJob E jobId → s.HasJob D jobId) (addsNone_nil s)
    (fun _ _ hK hI hjob => hI (hK jobId hjob)) env n id

theorem queuesNone_of_error {p : Request α} (h : ∃ e, p.exec env n D = (D, .error e)) :
    QueuesNone s env p n D := by
  obtain ⟨e, he⟩ := h
  intro jobId hjob
  rwa [he] at hjob

theorem queuesNone_throw (e : Err) : QueuesNone s env (Proc.throw e : Request α) n D := fun _ => id

theorem queuesNone_select {g : Db → β} {f : β → Request α}
    (h : QueuesNone s env (f (g D)) (n + 1) D) :
    QueuesNone s env (Proc.transaction (Tx.select g) >>= f) n D := by
  by_cases hfate : env.fate n = some .done
  · intro jobId hjob
    rw [Proc.exec_select hfate] at hjob
    exact h jobId hjob
  · exact queuesNone_of_error (Proc.exec_select_unanswered hfate)

theorem queuesNone_call {q : Query} {f : Answer q → Request α}
    (h : ∀ a, QueuesNone s env (f a) (n + 1) D) : QueuesNone s env (Proc.call q >>= f) n D := by
  by_cases hfate : env.fate n = some .done
  · intro jobId hjob
    rw [Proc.exec_call hfate] at hjob
    exact h _ jobId hjob
  · exact queuesNone_of_error (Proc.exec_call_unanswered hfate)

theorem queuesNone_transaction {body : TxM β} {f : β → Request α}
    (h : ∀ b L, body.run D [] = .ok (b, L) →
      AddsNone s D L ∧ QueuesNone s env (f b) (n + 1) (view L D)) :
    QueuesNone s env (Proc.transaction body >>= f) n D := by
  cases hrun : body.run D [] with
  | error e => exact queuesNone_of_error (Proc.exec_transaction_refused hrun)
  | ok out =>
      obtain ⟨b, L⟩ := out
      obtain ⟨hnone, hrest⟩ := h b L hrun
      intro jobId hjob
      by_cases hfate : env.fate n = some .done
      · rw [Proc.exec_transaction_ok hfate hrun] at hjob
        exact hnone jobId (hrest jobId hjob)
      · rcases Proc.exec_transaction_unanswered (b := body) (f := f) (D := D) hfate with
          ⟨b', L', -, hrun', he⟩ | ⟨e, he⟩
        · cases hrun.symm.trans hrun'
          rw [he] at hjob
          exact hnone jobId hjob
        · rwa [he] at hjob

/-- A job that is there already, or belongs to another entity. -/
theorem addsNone_readingJob {jobId : String} {job : ReadingJob}
    (h : s ≠ .reading job.readingId ∨ D.readingJobs.lookup jobId = some job) :
    AddsNone s D [.readingJob jobId (some job)] := by
  intro jobId' hjob
  cases s with
  | image id => exact hjob
  | shareLink id => exact hjob
  | reading id =>
      obtain ⟨job', hlookup, hid⟩ := hjob
      change (D.readingJobs.write jobId (some job)).lookup jobId' = some job' at hlookup
      rw [Table.lookup_write] at hlookup
      split at hlookup
      · rename_i hkey
        cases hlookup
        rcases h with hother | hthere
        · exact absurd (congrArg Entity.reading hid.symm) hother
        · exact ⟨job, hkey ▸ hthere, hid⟩
      · exact ⟨job', hlookup, hid⟩

theorem addsNone_imageJob {jobId : String} {imageId : Id}
    (h : s ≠ .image imageId ∨ D.imageAnalysisJobs.lookup jobId = some imageId) :
    AddsNone s D [.imageAnalysisJob jobId (some imageId)] := by
  intro jobId' hjob
  cases s with
  | reading id => exact hjob
  | shareLink id => exact hjob
  | image id =>
      change (D.imageAnalysisJobs.write jobId (some imageId)).lookup jobId' = some id at hjob
      rw [Table.lookup_write] at hjob
      split at hjob
      · rename_i hkey
        cases hjob
        rcases h with hother | hthere
        · exact absurd rfl hother
        · exact hkey ▸ hthere
      · exact hjob

theorem addsNone_shareJob {jobId : String} {linkId : Id}
    (h : s ≠ .shareLink linkId ∨ D.shareImageJobs.lookup jobId = some linkId) :
    AddsNone s D [.shareImageJob jobId (some linkId)] := by
  intro jobId' hjob
  cases s with
  | reading id => exact hjob
  | image id => exact hjob
  | shareLink id =>
      change (D.shareImageJobs.write jobId (some linkId)).lookup jobId' = some id at hjob
      rw [Table.lookup_write] at hjob
      split at hjob
      · rename_i hkey
        cases hjob
        rcases h with hother | hthere
        · exact absurd rfl hother
        · exact hkey ▸ hthere
      · exact hjob

end Rules

/-! ## The producers of other entities -/

section Others

variable {s : Entity} {D : Db}

theorem every_addJob_other (jobId : String) {job : ReadingJob} (h : s ≠ .reading job.readingId) :
    (Proc.transaction (ReadingsService.addJob jobId job) : Request Unit).Every (AddsNone s) := by
  refine Proc.every_transaction fun D => ?_
  apply Tx.wp_bind
  apply Db.readingJob.wp_upsert
  · exact fun _ => addsNone_readingJob (.inl h)
  · exact fun _ hthere => addsNone_readingJob (.inr hthere)

theorem every_addValidation_other {imageId : Id} (h : s ≠ .image imageId) :
    (Proc.transaction (ReadingsService.addValidation imageId) : Request Unit).Every
      (AddsNone s) := by
  refine Proc.every_transaction fun D => ?_
  apply Tx.wp_bind
  apply Db.imageAnalysisJob.wp_upsert
  · exact fun _ => addsNone_imageJob (.inl h)
  · exact fun _ hthere => addsNone_imageJob (.inr hthere)

theorem every_addShareImageJob_other {linkId : Id} (h : s ≠ .shareLink linkId) :
    (Proc.transaction (SharingService.addShareImageJob linkId) : Request Unit).Every
      (AddsNone s) := by
  refine Proc.every_transaction fun D => ?_
  apply Tx.wp_bind
  apply Db.shareImageJob.wp_upsert
  · exact fun _ => addsNone_shareJob (.inl h)
  · exact fun _ hthere => addsNone_shareJob (.inr hthere)

variable {env : Proc.Surroundings Answer} {n : Nat}

theorem every_submit_other {userId readingId : Id} (h : s ≠ .reading readingId) :
    (ReadingsService.submit userId readingId).Every (AddsNone s) := by
  refine ReadingsService.every_submit (addsNone_nil s)
    (fun jobId name => every_addJob_other jobId h) ?_
  intro D service unlocked w draws r now _ _ _ _
  rw [AddsNone, ReadingsService.view_submissionWrites]
  exact fun _ => id

theorem every_setStatus_none (readingId : Id) :
    (Proc.transaction (ReadingsService.setStatus readingId .PENDING) : Request Unit).Every
      (AddsNone s) :=
  Proc.every_transaction fun _ => ReadingsService.wp_setStatus fun _ _ => .of_eq rfl rfl rfl

theorem every_confirmImage_other (C : PalmImageConfig) (userId readingId : Id) (key : String)
    (h : ∀ imageId, s ≠ .image imageId) :
    (ReadingsService.confirmImage C userId readingId key).Every (AddsNone s) :=
  ReadingsService.every_confirmImage_of (addsNone_nil s) (fun _ _ _ => .of_eq rfl rfl rfl)
    (fun _ _ imageId => addsNone_imageJob (.inl (h imageId))) C userId readingId key

theorem every_logEvent_none (type : String) (shareLinkId userId : Option Id) :
    (SharingService.logEvent type shareLinkId userId).Every (AddsNone s) := by
  apply (Proc.every_call _).bind
  intro id
  refine Proc.Every.bind (Proc.every_transaction fun D => ?_) fun _ => trivial
  apply Db.analyticsEvent.wp_create
  intro _
  exact .of_eq rfl rfl rfl

/-- The end of a request for a share link. -/
theorem every_announceLink_other {α : Type} {linkId : Id} (h : s ≠ .shareLink linkId) (a : α) :
    (do
      Proc.transaction (SharingService.addShareImageJob linkId)
      SharingService.logEvent SharingService.SHARE_CREATED (some linkId) none
      return a : Request α).Every (AddsNone s) := by
  apply (every_addShareImageJob_other h).bind
  intro _
  exact (every_logEvent_none _ _ _).bind fun _ => trivial

theorem every_createShareLink_other (S : SharingConfig) (userId readingId : Id)
    (h : ∀ linkId, s ≠ .shareLink linkId) :
    (SharingService.createShareLink S userId readingId).Every (AddsNone s) := by
  apply (Proc.every_select (addsNone_nil s) _).bind
  rintro (_ | reading)
  · trivial
  simp only
  split
  · trivial
  apply (Proc.every_select (addsNone_nil s) _).bind
  rintro (_ | ⟨linkId, link⟩)
  · apply (Proc.every_call _).bind
    intro linkId
    refine Proc.Every.bind (Proc.every_transaction fun D => ?_) fun link =>
      every_announceLink_other (h linkId) _
    apply Db.shareLink.wp_create
    intro _
    exact .of_eq rfl rfl rfl
  · trivial

end Others

/-! ## The producers of an entity that has its new status -/

section Refused

variable {α : Type} {s : Entity} {env : Proc.Surroundings Answer} {n : Nat} {D : Db}

theorem queuesNone_findOwnedDraft {userId readingId : Id} {f : Reading → Request α}
    (h : ∀ r, D.readings.lookup readingId = some r → r.status = .DRAFT →
      QueuesNone s env (f r) (n + 1) D) :
    QueuesNone s env (ReadingsService.findOwnedDraft userId readingId >>= f) n D := by
  unfold ReadingsService.findOwnedDraft ReadingsService.findOwned
  rw [bind_assoc]
  apply queuesNone_select
  cases hfind : (Db.reading.find D readingId).filter fun r => r.userId = userId with
  | none => exact queuesNone_throw _
  | some r =>
      have hrow := (Option.filter_eq_some_iff.mp hfind).1
      by_cases hdraft : r.status = .DRAFT
      · simp only [hdraft, ne_eq, not_true_eq_false, if_false]
        exact h r hrow hdraft
      · simp only [hdraft, ne_eq, not_false_eq_true, if_true]
        exact queuesNone_throw _

theorem queuesNone_submit {readingId : Id} (hsent : (Entity.reading readingId).Sent D) (userId : Id)
    (f : Reading → Request α) :
    QueuesNone s env (ReadingsService.submit userId readingId >>= f) n D := by
  obtain ⟨r, hr, hpending⟩ := hsent
  unfold ReadingsService.submit
  rw [bind_assoc]
  apply queuesNone_findOwnedDraft
  intro r' hr' hdraft
  cases hr.symm.trans hr'
  cases hpending.symm.trans hdraft

/-- A retry reads the reading with its service and goes on for a failed one only. -/
theorem queuesNone_withService {readingId : Id} (hsent : (Entity.reading readingId).Sent D)
    {g : Db → Option Reading} (hg : ∀ r, g D = some r → D.readings.lookup readingId = some r)
    {f : Option (Reading × Service) → Request α} (hnone : ∃ e, f none = Proc.throw e)
    (hsome : ∀ r service, r.status ≠ .FAILED → ∃ e, f (some (r, service)) = Proc.throw e) :
    QueuesNone s env (Proc.transaction (ReadingsService.withService (Tx.select g)) >>= f) n D := by
  obtain ⟨r, hr, hpending⟩ := hsent
  apply queuesNone_transaction
  intro b L hrun
  unfold ReadingsService.withService ReadingsService.findService at hrun
  rw [Tx.run_select_bind, view_nil] at hrun
  cases hfind : g D with
  | none =>
      rw [hfind] at hrun
      cases hrun
      obtain ⟨e, he⟩ := hnone
      exact ⟨addsNone_nil s D, he ▸ queuesNone_throw e⟩
  | some r' =>
      cases hr.symm.trans (hg r' hfind)
      simp only [hfind] at hrun
      cases hservice : D.services.lookup r.serviceId with
      | none =>
          rw [Tx.run_bind_error (Tx.run_selectOrThrow_none (D := D) (L := []) hservice)] at hrun
          cases hrun
      | some service =>
          rw [Tx.run_bind_ok (Tx.run_selectOrThrow (D := D) (L := []) hservice)] at hrun
          cases hrun
          obtain ⟨e, he⟩ := hsome r service (by simp [hpending])
          exact ⟨addsNone_nil s D, he ▸ queuesNone_throw e⟩

theorem queuesNone_retry {readingId : Id} (hsent : (Entity.reading readingId).Sent D) (userId : Id)
    (f : Reading → Request α) :
    QueuesNone s env (ReadingsService.retry userId readingId >>= f) n D := by
  unfold ReadingsService.retry
  rw [bind_assoc]
  refine queuesNone_withService hsent (fun r hr => (Option.filter_eq_some_iff.mp hr).1) ⟨_, rfl⟩ ?_
  intro r service hfailed
  simp only [ReadingsService.performRetry, hfailed, ne_eq, not_false_eq_true, if_true]
  exact ⟨_, rfl⟩

theorem queuesNone_retryAsAdmin {readingId : Id} (hsent : (Entity.reading readingId).Sent D)
    (f : Reading → Request α) :
    QueuesNone s env (ReadingsService.retryAsAdmin readingId >>= f) n D := by
  unfold ReadingsService.retryAsAdmin
  rw [bind_assoc]
  refine queuesNone_withService hsent (fun r hr => hr) ⟨_, rfl⟩ ?_
  intro r service hfailed
  simp only [ReadingsService.performRetry, hfailed, ne_eq, not_false_eq_true, if_true]
  exact ⟨_, rfl⟩

theorem queuesNone_confirmImage {imageId : Id} (hsent : (Entity.image imageId).Sent D)
    (C : PalmImageConfig) (userId readingId : Id) (key : String) (a : α) :
    QueuesNone (.image imageId) env
      (ReadingsService.confirmImage C userId readingId key >>= fun _ => pure a) n D := by
  obtain ⟨image, himage, hreview⟩ := hsent
  unfold ReadingsService.confirmImage ReadingsService.findImage
  rw [bind_assoc]
  apply queuesNone_findOwnedDraft
  intro r _ _
  rw [bind_assoc]
  apply queuesNone_select
  cases hfind : (D.palmImages.findMany fun _ image =>
      image.readingId = readingId && image.storageKey = key).head? with
  | none => exact queuesNone_throw _
  | some row =>
      obtain ⟨imageId', image'⟩ := row
      have hrow := ((Table.mem_findMany _ _ _ _).mp (List.mem_of_head? hfind)).1
      by_cases hup : image'.status = .UPLOADED
      · -- The image that it confirms is another one.
        simp only [hup, ne_eq, not_true_eq_false, if_false]
        have hother : Entity.image imageId ≠ .image imageId' := by
          rintro heq
          cases heq
          cases himage.symm.trans hrow
          cases hreview.symm.trans hup
        exact queuesNone_of_every ((ReadingsService.every_confirmFound_of
          (fun f _ => ReadingsService.every_updateImage_of (fun D _ _ => .of_eq rfl rfl rfl) _ f)
          (every_addValidation_other hother) C key).bind fun _ => trivial)
      · simp only [hup, ne_eq, not_false_eq_true, if_true]
        exact queuesNone_throw _

theorem queuesNone_createShareLink {linkId : Id} (hsent : (Entity.shareLink linkId).Sent D)
    (S : SharingConfig) (userId readingId : Id) (a : α) :
    QueuesNone (.shareLink linkId) env
      (SharingService.createShareLink S userId readingId >>= fun _ => pure a) n D := by
  obtain ⟨link, hlink⟩ := hsent
  unfold SharingService.createShareLink ReadingsService.findOwned SharingService.findActiveOf
  rw [bind_assoc]
  apply queuesNone_select
  cases (Db.reading.find D readingId).filter fun r => r.userId = userId with
  | none => exact queuesNone_throw _
  | some r =>
      by_cases hcompleted : r.status = .COMPLETED
      · simp only [hcompleted, ne_eq, not_true_eq_false, if_false]
        rw [bind_assoc]
        apply queuesNone_select
        cases (D.shareLinks.findMany fun _ link =>
            link.readingId = readingId && link.revokedAt.isNone).head? with
        | some row => exact fun _ => id
        | none =>
            simp only
            rw [bind_assoc]
            apply queuesNone_call
            intro linkId'
            rw [bind_assoc]
            apply queuesNone_transaction
            intro created L hrun
            cases hfind : D.shareLinks.lookup linkId' with
            | some link' =>
                rw [Db.shareLink.run_create_exists (D := D) (L := []) hfind] at hrun
                cases hrun
            | none =>
                rw [Db.shareLink.run_create (D := D) (L := []) hfind] at hrun
                cases hrun
                -- Its link is another one.
                have hother : Entity.shareLink linkId ≠ .shareLink linkId' := by
                  rintro heq
                  cases heq
                  cases hlink.symm.trans hfind
                exact ⟨.of_eq rfl rfl rfl, queuesNone_of_every
                  ((every_announceLink_other hother _).bind fun _ => trivial)⟩
      · simp only [hcompleted, ne_eq, not_false_eq_true, if_true]
        exact queuesNone_throw _

end Refused

/-- No producer adds a job of an entity that has its new status. -/
theorem queuesNone_producer {s : Entity} {D : Db} (hsent : s.Sent D) (C : PalmImageConfig)
    (S : SharingConfig) (q : Producer) (env : Proc.Surroundings Answer) :
    QueuesNone s env (q.prog C S) 0 D := by
  cases q with
  | submit userId readingId =>
      by_cases hid : s = .reading readingId
      · subst hid
        exact queuesNone_submit hsent userId _
      · exact queuesNone_of_every ((every_submit_other hid).bind fun _ => trivial)
  | retry userId readingId =>
      by_cases hid : s = .reading readingId
      · subst hid
        exact queuesNone_retry hsent userId _
      · exact queuesNone_of_every ((ReadingsService.every_retry_of (addsNone_nil s)
          (every_setStatus_none readingId) (fun jobId _ => every_addJob_other jobId hid)
            userId).bind fun _ => trivial)
  | retryAsAdmin readingId =>
      by_cases hid : s = .reading readingId
      · subst hid
        exact queuesNone_retryAsAdmin hsent _
      · exact queuesNone_of_every ((ReadingsService.every_retryAsAdmin_of (addsNone_nil s)
          (every_setStatus_none readingId) fun jobId _ => every_addJob_other jobId hid).bind
            fun _ => trivial)
  | confirmImage userId readingId key =>
      cases s with
      | image imageId => exact queuesNone_confirmImage hsent C userId readingId key _
      | _ =>
          exact queuesNone_of_every ((every_confirmImage_other C userId readingId key
            fun _ heq => by cases heq).bind fun _ => trivial)
  | createShareLink userId readingId =>
      cases s with
      | shareLink linkId => exact queuesNone_createShareLink hsent S userId readingId _
      | _ =>
          exact queuesNone_of_every ((every_createShareLink_other S userId readingId
            fun _ heq => by cases heq).bind fun _ => trivial)

theorem Entity.Sent.not_canEnqueue {s : Entity} {D : Db} (hsent : s.Sent D) (C : PalmImageConfig)
    (S : SharingConfig) : ¬ CanEnqueue C S s D := by
  rintro ⟨q, env, jobId, hbefore, hafter⟩
  exact hbefore (queuesNone_producer hsent C S q env jobId hafter)

/-- A producer that commits and then fails to add the job leaves its entity in a status from
which no request adds the job. -/
theorem enqueue_failure_strands (C : PalmImageConfig) (S : SharingConfig) (p : Producer)
    (s : Entity) (env : Proc.Surroundings Answer) (D : Db) (h : FailsToEnqueue C S p s env D) :
    ¬ CanEnqueue C S s ((p.prog C S).exec env 0 D).1 :=
  h.committed.not_canEnqueue C S

/-- Configurations for concrete runs. -/
def producerImages : PalmImageConfig := ⟨1000, 24, fun _ => some (300, 300)⟩

def producerSharing : SharingConfig := ⟨"https://app", "https://api"⟩

/-- Surroundings for concrete runs, in which the queue takes no job of the submission. -/
def queueDown : Proc.Surroundings Answer where
  fate n := some (if n = 5 then .failed else .done)
  answer _ q := sampleAnswer .COMPLETED q

/-- A palm reading, submitted while the queue is down. -/
def strandedSubmission : Db × Except Err Unit :=
  ((Producer.submit "ana" "r1").prog producerImages producerSharing).exec queueDown 0 sampleDb

theorem failsToEnqueue_strandedSubmission :
    FailsToEnqueue producerImages producerSharing (.submit "ana" "r1") (.reading "r1") queueDown
      sampleDb where
  unsent := by
    rintro ⟨r, hr, hpending⟩
    cases hr
    cases hpending
  committed := ⟨_, rfl, rfl⟩
  throws := ⟨_, rfl⟩
  unqueued := fun _ h => h

theorem enqueue_failure_strands_submission :
    ¬ CanEnqueue producerImages producerSharing (.reading "r1") strandedSubmission.1 :=
  enqueue_failure_strands producerImages producerSharing (.submit "ana" "r1") (.reading "r1")
    queueDown sampleDb failsToEnqueue_strandedSubmission

/-- The credits of the reading are debited and reserved, no job is queued, and a submission
and the retries of its user and of an admin are refused. -/
theorem queue_down_strands_submission :
    (FailsToEnqueue producerImages producerSharing (.submit "ana" "r1") (.reading "r1") queueDown
        sampleDb ∧
      ¬ CanEnqueue producerImages producerSharing (.reading "r1") strandedSubmission.1) ∧
    strandedSubmission.1.wallets.lookup "ana" = some ⟨3⟩ ∧
    ((strandedSubmission.1.creditReservations.lookup "r1").map (·.status) = some .ACTIVE) ∧
    strandedSubmission.1.readingJobs = ∅ ∧
    ∀ q ∈ [Producer.submit "ana" "r1", .retry "ana" "r1", .retryAsAdmin "r1"],
      (((q.prog producerImages producerSharing).exec ⟨fun _ => some .done, queueDown.answer⟩ 0
        strandedSubmission.1).2.isOk = false) := by
  refine ⟨⟨failsToEnqueue_strandedSubmission,
    failsToEnqueue_strandedSubmission.committed.not_canEnqueue _ _⟩, rfl, rfl, rfl, fun q hq => ?_⟩
  simp only [List.mem_cons, List.not_mem_nil, or_false] at hq
  obtain rfl | rfl | rfl := hq <;> rfl

end TaroTria
