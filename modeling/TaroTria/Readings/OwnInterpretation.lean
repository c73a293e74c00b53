import TaroTria.Ai.ProhibitedContent
import TaroTria.Ai.PromptsService
import TaroTria.Readings.ImageLifecycle
import TaroTria.Readings.ImageWrites
import TaroTria.Readings.ReadingDetail
import TaroTria.Readings.ReadingWrites
import TaroTria.Transactions.Resolve

/-!
# The interpretation that a reading shows

The detail of a reading shows the output of its latest completed execution. The
jobs of a reading run its interpretation task, and the validation of its images
runs another task under the same reading. So the detail shows an interpretation
as long as no completed check of an image is the latest execution.
-/

namespace TaroTria

open Transactions

/-- The calls that bring a reading from its images to its result. -/
inductive InterpretationCall
  | presignImage (userId readingId : Id) (contentType : PalmImageMimeType)
  | confirmImage (userId readingId : Id) (key : String)
  | validateImage (palmImageId : Id)
  | imageFailed (palmImageId : Id) (attemptsMade maxAttempts : Nat)
  | submit (userId readingId : Id)
  | work (jobId : String)
  | readingFailed (readingId : Id) (attemptsMade : Nat)
  | retry (userId readingId : Id)
  | retryAsAdmin (readingId : Id)

/-- The services that answer the jobs. -/
def aiCallees (R : AiRuntime) : Proc.Callees Db RowWrite Err Answer
  | .execute input => some (AiOrchestratorService.execute R input)
  | .publishedVersionId code => some (PromptsService.getPublishedVersionId code).attempt
  | _ => none

/-- The worker takes a job from the queue. -/
def ReadingProcessing.work (jobId : String) : Request Unit := do
  let some job ← Proc.transaction (Db.readingJob.findUnique jobId)
    | return ()
  process job

/-- The request of a call; what it returns is dropped. -/
def InterpretationCall.prog (R : AiRuntime) (C : PalmImageConfig) :
    InterpretationCall → Request Unit
  | presignImage userId readingId contentType => do
      let _ ← ReadingsService.presignImage userId readingId contentType
  | confirmImage userId readingId key => do
      let _ ← ReadingsService.confirmImage C userId readingId key
  | validateImage palmImageId =>
      (PalmImageValidation.validateImage palmImageId).resolve (aiCallees R)
  | imageFailed palmImageId attemptsMade maxAttempts =>
      PalmImageValidation.onFailed palmImageId attemptsMade maxAttempts
  | submit userId readingId => do
      let _ ← ReadingsService.submit userId readingId
  | work jobId => (ReadingProcessing.work jobId).resolve (aiCallees R)
  | readingFailed readingId attemptsMade => ReadingProcessing.onFailed readingId attemptsMade
  | retry userId readingId => do
      let _ ← ReadingsService.retry userId readingId
  | retryAsAdmin readingId => do
      let _ ← ReadingsService.retryAsAdmin readingId

abbrev InterpretationPool := Pool Db RowWrite Err InterpretationCall Answer Unit

/-! ## The task of a reading -/

/-- The code of the prompt that the processor of a service runs. -/
def interpretationTask (serviceCode : String) : String :=
  if ReadingsService.isPalmService serviceCode then PALM_READING_INTERPRETATION_TASK
  else serviceCode ++ "_INTERPRETATION"

/-- The job of a submission or a retry. -/
def jobName (serviceCode : String) : ReadingJobName :=
  if ReadingsService.isPalmService serviceCode then .PROCESS_PALM else .PROCESS_TAROT

/-- The reading is one of this service. -/
def Serves (D : Db) (readingId : Id) (service : Service) : Prop :=
  ∃ r, D.readings.lookup readingId = some r ∧ D.services.lookup r.serviceId = some service

theorem Serves.unique {D : Db} {readingId : Id} {service service' : Service}
    (h : Serves D readingId service) (h' : Serves D readingId service') : service = service' := by
  obtain ⟨r, hr, hservice⟩ := h
  obtain ⟨r', hr', hservice'⟩ := h'
  obtain rfl := Option.some.inj (hr.symm.trans hr')
  exact Option.some.inj (hservice.symm.trans hservice')

/-- The interpretation task of a reading. -/
def InterpretedBy (D : Db) (readingId : Id) (code : String) : Prop :=
  ∃ service, Serves D readingId service ∧ code = interpretationTask service.code

/-- A version with this id belongs to the prompt of the task. -/
def VersionOf (D : Db) (code : String) (promptVersionId : Id) : Prop :=
  ∃ n version, D.promptVersions.lookup (code, n) = some version ∧ version.id = promptVersionId

/-- The execution completed for the reading. -/
def CompletedFor (readingId : Id) (e : AIExecution) : Prop :=
  e.readingId = some readingId ∧ e.status = .COMPLETED

/-- The job is the one of its reading's service. -/
def Suits (D : Db) (job : ReadingJob) : Prop :=
  ∃ service, Serves D job.readingId service ∧ job.name = jobName service.code

def QueueMatches (D : Db) : Prop :=
  ∀ jobId job, D.readingJobs.lookup jobId = some job → Suits D job

/-- The latest completed executions of a reading ran its interpretation task. -/
def ShowsOwn (readingId : Id) (D : Db) : Prop :=
  ∀ id e, D.aiExecutions.lookup id = some e → CompletedFor readingId e →
    (∀ id' e', D.aiExecutions.lookup id' = some e' → CompletedFor readingId e' →
      e'.createdAt ≤ e.createdAt) →
    ∃ code, InterpretedBy D readingId code ∧ VersionOf D code e.promptVersionId

/-- A completed check of an image, when a step records it, is older than some completed
execution of its reading. -/
def ChecksSuperseded (readingId : Id) (D D' : Db) : Prop :=
  ∀ id e, D'.aiExecutions.lookup id = some e → D.aiExecutions.lookup id = none →
    CompletedFor readingId e → VersionOf D PALM_IMAGE_LEGIBILITY_TASK e.promptVersionId →
    ∃ id' e', D.aiExecutions.lookup id' = some e' ∧ CompletedFor readingId e' ∧
      e.createdAt < e'.createdAt

/-! ## What the calls change -/

def SameService (r r' : Reading) : Prop := r'.serviceId = r.serviceId

theorem SameService.refl (r : Reading) : SameService r r := rfl

theorem SameService.trans {r r' r'' : Reading} (h : SameService r r') (h' : SameService r' r'') :
    SameService r r'' := Eq.trans h' h

/-- Services and prompts are as they were, and readings, jobs and executions are kept. -/
structure Extends (D D' : Db) : Prop where
  services : D'.services = D.services
  promptVersions : D'.promptVersions = D.promptVersions
  readings : Table.Persists SameService D.readings D'.readings
  executions : Table.Persists Eq D.aiExecutions D'.aiExecutions
  queue : QueueMatches D → QueueMatches D'

theorem Extends.refl (D : Db) : Extends D D :=
  ⟨rfl, rfl, .refl SameService.refl _, .refl (fun _ => rfl) _, id⟩

theorem Extends.trans {D D' D'' : Db} (h : Extends D D') (h' : Extends D' D'') : Extends D D'' where
  services := h'.services.trans h.services
  promptVersions := h'.promptVersions.trans h.promptVersions
  readings := Table.Persists.trans (R := SameService) SameService.trans h.readings h'.readings
  executions := Table.Persists.trans (R := Eq) Eq.trans h.executions h'.executions
  queue := h'.queue ∘ h.queue

theorem Serves.later {D D' : Db} {readingId : Id} {service : Service}
    (h : Serves D readingId service) (hD : Extends D D') : Serves D' readingId service := by
  obtain ⟨r, hr, hservice⟩ := h
  obtain ⟨r', hr', hsame⟩ := hD.readings readingId r hr
  refine ⟨r', hr', ?_⟩
  rw [hD.services, show r'.serviceId = r.serviceId from hsame]
  exact hservice

theorem InterpretedBy.later {D D' : Db} {readingId : Id} {code : String}
    (h : InterpretedBy D readingId code) (hD : Extends D D') : InterpretedBy D' readingId code := by
  obtain ⟨service, hservice, hcode⟩ := h
  exact ⟨service, hservice.later hD, hcode⟩

theorem VersionOf.later {D D' : Db} {code : String} {id : Id} (h : VersionOf D code id)
    (hD : Extends D D') : VersionOf D' code id := by
  unfold VersionOf
  rwa [hD.promptVersions]

theorem Suits.later {D D' : Db} {job : ReadingJob} (h : Suits D job) (hD : Extends D D') :
    Suits D' job := by
  obtain ⟨service, hservice, hname⟩ := h
  exact ⟨service, hservice.later hD, hname⟩

/-- Each new execution ran the check of an image or the interpretation of its reading. -/
def Records (D D' : Db) : Prop :=
  ∀ id e, D'.aiExecutions.lookup id = some e → D.aiExecutions.lookup id = none →
    VersionOf D PALM_IMAGE_LEGIBILITY_TASK e.promptVersionId ∨
      ∀ readingId, e.readingId = some readingId →
        ∃ code, InterpretedBy D readingId code ∧ VersionOf D code e.promptVersionId

def interpretationDiscipline : Discipline Db RowWrite RowRef InterpretationCall where
  Mono := Extends
  mono_refl := .refl
  mono_trans := .trans
  Inv := QueueMatches
  inv_mono h := h.queue
  Effect _ D L := Extends D (view L D) ∧ Records D (view L D)
  mono_effect h := h.1

/-- What a permitted change leaves: where no check of an image comes on top, the latest
execution is still an interpretation. -/
theorem ShowsOwn.step {readingId : Id} {D D' : Db} (h : ShowsOwn readingId D) (hD : Extends D D')
    (hrecords : Records D D') (hok : ChecksSuperseded readingId D D') : ShowsOwn readingId D' := by
  intro id e he hcompleted hlatest
  have hkept : ∀ id' e', D.aiExecutions.lookup id' = some e' →
      D'.aiExecutions.lookup id' = some e' := by
    intro id' e' he'
    obtain ⟨e'', he'', rfl⟩ := hD.executions id' e' he'
    exact he''
  cases hold : D.aiExecutions.lookup id with
  | some e' =>
      obtain rfl := Option.some.inj ((hkept id e' hold).symm.trans he)
      obtain ⟨code, hcode, hversion⟩ := h id e' hold hcompleted
        fun id' e' he' => hlatest id' e' (hkept id' e' he')
      exact ⟨code, hcode.later hD, hversion.later hD⟩
  | none =>
      rcases hrecords id e he hold with hcheck | hown
      · obtain ⟨id', e', he', hcompleted', hlt⟩ := hok id e he hold hcompleted hcheck
        exact absurd (hlatest id' e' (hkept id' e' he') hcompleted') (not_le.mpr hlt)
      · obtain ⟨code, hcode, hversion⟩ := hown readingId hcompleted.1
        exact ⟨code, hcode.later hD, hversion.later hD⟩

/-- A change that touches neither services, prompts, jobs nor executions, and keeps the
service of each reading. -/
structure Quiet (D : Db) (L : List RowWrite) : Prop where
  services : (view L D).services = D.services
  promptVersions : (view L D).promptVersions = D.promptVersions
  readingJobs : (view L D).readingJobs = D.readingJobs
  aiExecutions : (view L D).aiExecutions = D.aiExecutions
  readings : Table.Persists SameService D.readings (view L D).readings

theorem quiet_of_readings_eq {D : Db} {L : List RowWrite}
    (hservices : (view L D).services = D.services)
    (hversions : (view L D).promptVersions = D.promptVersions)
    (hjobs : (view L D).readingJobs = D.readingJobs)
    (hexecutions : (view L D).aiExecutions = D.aiExecutions)
    (hreadings : (view L D).readings = D.readings) : Quiet D L :=
  ⟨hservices, hversions, hjobs, hexecutions, hreadings ▸ .refl SameService.refl _⟩

theorem quiet_nil (D : Db) : Quiet D [] := quiet_of_readings_eq rfl rfl rfl rfl rfl

theorem quiet_reading {D : Db} {readingId : Id} {r r' : Reading}
    (h : D.readings.lookup readingId = some r) (hservice : SameService r r') :
    Quiet D [.reading readingId (some r')] :=
  ⟨rfl, rfl, rfl, rfl, .replace SameService.refl h hservice⟩

variable {c : InterpretationCall} {D : Db} {L : List RowWrite}

theorem Quiet.extends (h : Quiet D L) : Extends D (view L D) where
  services := h.services
  promptVersions := h.promptVersions
  readings := h.readings
  executions := h.aiExecutions ▸ .refl (fun _ => rfl) _
  queue hqueue jobId job hjob := by
    rw [h.readingJobs] at hjob
    obtain ⟨service, ⟨r, hr, hservice⟩, hname⟩ := hqueue jobId job hjob
    obtain ⟨r', hr', hsame⟩ := h.readings _ r hr
    refine ⟨service, ⟨r', hr', ?_⟩, hname⟩
    rw [h.services, show r'.serviceId = r.serviceId from hsame]
    exact hservice

theorem Quiet.effect (h : Quiet D L) : interpretationDiscipline.Effect c D L := by
  refine ⟨h.extends, fun id e he hnone => ?_⟩
  rw [h.aiExecutions, hnone] at he
  cases he

/-! ## The requests that record no execution -/

section Plain

theorem follows_quiet {p : Request Unit} (h : p.Every Quiet) (D : Db) :
    p.Follows interpretationDiscipline c (fun _ _ => True) D :=
  Proc.follows_of_every h fun _ _ _ hquiet _ => hquiet.effect

theorem quiet_image (D : Db) (id : Id) (row : PalmImage) : Quiet D [.palmImage id (some row)] :=
  quiet_of_readings_eq rfl rfl rfl rfl rfl

theorem quiet_submissionWrites {userId readingId : Id} {service : Service} {unlocked : Bool}
    {w : Wallet} {draws : List (DrawEngine.TarotDraw TarotDeckCard)} {r : Reading} {now : Time}
    (h : D.readings.lookup readingId = some r) :
    Quiet D (ReadingsService.submissionWrites userId readingId service unlocked w draws r now) := by
  have hview := ReadingsService.view_submissionWrites userId readingId service unlocked w draws r
    now D
  constructor
  case readings =>
    rw [hview]
    exact .replace SameService.refl h rfl
  all_goals rw [hview]

theorem every_setStatus_quiet (readingId : Id) (status : ReadingStatus) :
    (Proc.transaction (ReadingsService.setStatus readingId status) : Request Unit).Every Quiet :=
  Proc.every_transaction fun _ => ReadingsService.wp_setStatus fun _ hr => quiet_reading hr rfl

theorem every_confirmConsumption_quiet (readingId : Id) :
    (Proc.transaction (WalletService.confirmConsumption readingId) : Request Unit).Every Quiet :=
  WalletService.every_confirmConsumption quiet_nil fun _ _ _ _ _ =>
    quiet_of_readings_eq rfl rfl rfl rfl rfl

theorem every_releaseReservation_quiet (readingId : Id) :
    (Proc.transaction (WalletService.releaseReservation readingId) : Request Unit).Every Quiet :=
  WalletService.every_releaseReservation quiet_nil fun _ _ _ _ _ =>
    quiet_of_readings_eq rfl rfl rfl rfl rfl

theorem every_closeReading_quiet (readingId promptVersionId : Id) (result : AIExecutionStatus) :
    (ReadingProcessing.closeReading readingId promptVersionId result).Every Quiet :=
  ReadingProcessing.every_closeReading_of (every_confirmConsumption_quiet readingId)
    (every_releaseReservation_quiet readingId) (fun _ _ _ hr => quiet_reading hr rfl) result

theorem every_readingFailed_quiet (readingId : Id) (attemptsMade : Nat) :
    (ReadingProcessing.onFailed readingId attemptsMade).Every Quiet :=
  ReadingProcessing.every_onFailed_of quiet_nil (every_releaseReservation_quiet readingId)
    (fun _ _ hr _ => quiet_reading hr rfl) attemptsMade

end Plain

/-! ## The requests that queue a job -/

section Queue

theorem suits_later_iff {D D' : Db} (hservices : D'.services = D.services)
    (hreadings : D'.readings = D.readings) (job : ReadingJob) : Suits D' job ↔ Suits D job := by
  unfold Suits Serves
  rw [hservices, hreadings]

/-- A job of its reading's service may be queued. -/
theorem follows_addJob {jobId : String} {job : ReadingJob} (h : Suits D job) :
    (Proc.transaction (ReadingsService.addJob jobId job) : Request Unit).Follows
      interpretationDiscipline c (fun _ _ => True) D := by
  refine Proc.follows_transaction (fun _ _ _ => trivial) fun D' hm hqueue => ?_
  have hjob : ∀ job', Suits D' job' → interpretationDiscipline.Effect c D'
      [.readingJob jobId (some job')] := by
    intro job' hsuits
    refine ⟨⟨rfl, rfl, .refl SameService.refl _, .refl (fun _ => rfl) _, fun _ => ?_⟩,
      fun id e he hnone => ?_⟩
    · intro jobId' job'' hlookup
      have hsuits' : Suits D' job'' := by
        by_cases hid : jobId' = jobId
        · subst hid
          rw [show job'' = job' by simpa [eq_comm] using hlookup]
          exact hsuits
        · exact hqueue jobId' job'' (by simpa [Table.lookup_write_of_ne _ _ hid] using hlookup)
      exact (suits_later_iff rfl rfl job'').mpr hsuits'
    · cases hnone.symm.trans he
  unfold ReadingsService.addJob
  apply Tx.wp_bind
  apply Db.readingJob.wp_upsert
  · exact fun _ => ⟨fun _ => hjob job (h.later hm), fun _ _ => trivial⟩
  · exact fun job' hold => ⟨fun _ => hjob job' (hqueue jobId job' hold), fun _ _ => trivial⟩

theorem follows_findOneForUser {userId readingId : Id} :
    (ReadingsService.findOneForUser userId readingId).Follows interpretationDiscipline c
      (fun _ _ => True) D :=
  Proc.follows_of_every
    (ReadingsService.every_findOneForUser_of_nil quiet_nil userId readingId)
    fun _ _ _ h _ => h.effect

theorem follows_submitOnce {userId readingId : Id} {body : TxM Unit} {job : ReadingJob}
    {jobId : String} (hbody : ∀ D, body.wp still D (fun _ L => Quiet D L) []) (h : Suits D job) :
    (ReadingsService.submitOnce userId readingId body job jobId).Follows interpretationDiscipline c
      (fun _ _ => True) D := by
  unfold ReadingsService.submitOnce
  refine Proc.Follows.bind (Proc.Every.follows (Proc.Every.handle (K := Quiet)
    ((Proc.every_transaction hbody).bind fun _ => trivial) fun e => ?_)
    (fun _ _ _ hquiet _ => hquiet.effect) fun r D' hm => ?_)
  · cases e <;> trivial
  rcases r with e | outcome
  · trivial
  cases outcome with
  | false => exact follows_findOneForUser
  | true =>
      refine Proc.Follows.bind ((follows_addJob (h.later hm)).mono fun r D'' _ => ?_)
      rcases r with e | _
      · trivial
      · exact follows_findOneForUser

variable {userId readingId : Id} {service : Service}

theorem follows_submitPalmReading (h : Serves D readingId service)
    (hpalm : ReadingsService.isPalmService service.code = true) :
    (ReadingsService.submitPalmReading userId readingId service).Follows interpretationDiscipline c
      (fun _ _ => True) D := by
  unfold ReadingsService.submitPalmReading
  refine Proc.Follows.bind (Proc.follows_select (fun _ _ _ => trivial) fun D₀ D₁ h₀ _ h₁ => ?_)
  simp only
  split
  · exact fun _ _ => trivial
  refine Proc.Follows.bind (Proc.follows_call fun r D₂ h₂ => ?_)
  rcases r with e | now
  · trivial
  refine follows_submitOnce (fun D => ?_)
    ⟨service, h.later ((h₀.trans h₁).trans h₂), by simp [jobName, hpalm]⟩
  exact ReadingsService.wp_submitPalmTx fun w r _ _ _ _ hr => quiet_submissionWrites hr

theorem follows_submitTarotReading {reading : Reading} (h : Serves D readingId service)
    (hpalm : ReadingsService.isPalmService service.code = false) :
    (ReadingsService.submitTarotReading userId readingId reading service).Follows
      interpretationDiscipline c (fun _ _ => True) D := by
  unfold ReadingsService.submitTarotReading
  refine Proc.Follows.bind (Proc.follows_select (fun _ _ _ => trivial) fun D₀ D₁ h₀ _ h₁ => ?_)
  have hD₁ := h.later (h₀.trans h₁)
  cases Db.readingInput.find D₀ readingId with
  | none => exact fun _ _ => trivial
  | some input =>
      cases reading.spreadId with
      | none => exact fun _ _ => trivial
      | some spreadId =>
          refine Proc.Follows.bind (Proc.follows_selectOrThrow (fun _ _ _ => trivial)
            fun D₂ D₃ spread h₂ _ h₃ _ => ?_)
          have hD₃ := hD₁.later (h₂.trans h₃)
          refine Proc.Follows.bind (Proc.follows_call fun r D₄ h₄ => ?_)
          rcases r with e | (e | deck)
          · trivial
          · exact fun _ _ => trivial
          simp only [Proc.ofExcept_ok, Proc.ret_bind]
          refine Proc.Follows.bind (Proc.follows_call fun r D₅ h₅ => ?_)
          rcases r with e | choices
          · trivial
          cases hdraws : DrawEngine.draw deck (ReadingsService.orderedPositions spread) choices with
          | error e =>
              simp only [hdraws]
              exact fun _ _ => trivial
          | ok draws =>
              simp only [hdraws, Proc.ofExcept_ok, Proc.ret_bind]
              refine Proc.Follows.bind (Proc.follows_call fun r D₆ h₆ => ?_)
              rcases r with e | now
              · trivial
              refine follows_submitOnce (fun D => ?_)
                ⟨service, hD₃.later ((h₄.trans h₅).trans h₆), by simp [jobName, hpalm]⟩
              exact ReadingsService.wp_submitTarotTx
                fun _ w r _ _ _ _ _ hr => quiet_submissionWrites hr

theorem follows_submit (userId readingId : Id) :
    (ReadingsService.submit userId readingId).Follows interpretationDiscipline c
      (fun _ _ => True) D := by
  unfold ReadingsService.submit ReadingsService.findOwnedDraft
  rw [bind_assoc]
  refine Proc.Follows.bind (Proc.follows_select (fun _ _ _ => trivial) fun D₀ D₁ _ _ h₁ => ?_)
  cases hfind : (Db.reading.find D₀ readingId).filter fun r => r.userId = userId with
  | none => exact fun _ _ => trivial
  | some r =>
      have hr : D₀.readings.lookup readingId = some r := (Option.filter_eq_some_iff.mp hfind).1
      by_cases hdraft : r.status = .DRAFT
      · simp only [hdraft, ne_eq, not_true_eq_false, if_false, Proc.pure_eq, Proc.ret_bind]
        refine Proc.Follows.bind (Proc.follows_selectOrThrow (fun _ _ _ => trivial)
          fun D₂ D₃ service h₂ _ h₃ hservice => ?_)
        have hserves : Serves D₃ readingId service := by
          have hservices : D₂.services = D₀.services := (h₁.trans h₂).services
          exact Serves.later ⟨r, hr, hservices ▸ hservice⟩ ((h₁.trans h₂).trans h₃)
        simp only
        split
        · rename_i hpalm
          exact follows_submitPalmReading hserves hpalm
        · rename_i hpalm
          exact follows_submitTarotReading hserves (by simpa using hpalm)
      · simp only [hdraft, ne_eq, not_false_eq_true, if_true]
        exact fun _ _ => trivial

theorem follows_performRetry {r : Reading} (h : Serves D readingId service) :
    (ReadingsService.performRetry readingId r service).Follows interpretationDiscipline c
      (fun _ _ => True) D := by
  unfold ReadingsService.performRetry
  by_cases hfailed : r.status = .FAILED
  · simp only [hfailed, ne_eq, not_true_eq_false, if_false]
    refine Proc.Follows.bind ((every_setStatus_quiet readingId .PENDING).follows
      (fun _ _ _ hquiet _ => hquiet.effect) fun r D₁ h₁ => ?_)
    rcases r with e | _
    · trivial
    refine Proc.Follows.bind (Proc.follows_call fun r D₂ h₂ => ?_)
    rcases r with e | uuid
    · trivial
    have hserves := h.later (h₁.trans h₂)
    simp only
    split
    · rename_i hpalm
      exact follows_addJob ⟨service, hserves, by simp [jobName, hpalm]⟩
    · rename_i hpalm
      exact follows_addJob ⟨service, hserves, by simp [jobName, hpalm]⟩
  · simp only [hfailed, ne_eq, not_false_eq_true, if_true]
    exact fun _ _ => trivial

/-- The reading and the service that the query of a retry finds. -/
theorem follows_withService {find : Db → Option Reading}
    (hfind : ∀ {D r}, find D = some r → D.readings.lookup readingId = some r)
    {P : Except Err (Option (Reading × Service)) → Db → Prop} (herr : ∀ e D', P (.error e) D')
    (hok : ∀ found D', (∀ r service, found = some (r, service) → Serves D' readingId service) →
      P (.ok found) D') :
    (Proc.transaction (ReadingsService.withService (Tx.select find)) :
      Request (Option (Reading × Service))).Follows interpretationDiscipline c P D := by
  refine Proc.follows_transaction (fun e D' _ => herr e D') fun D₁ _ _ => ?_
  unfold ReadingsService.withService
  apply Tx.wp_bind
  apply Tx.wp_select
  rintro D₀ ⟨-, rfl, -⟩
  rw [view_nil]
  cases hr : find D₀ with
  | none => exact ⟨fun h => absurd rfl h, fun D₂ _ => hok _ _ fun _ _ h => by cases h⟩
  | some r =>
      apply Tx.wp_bind
      apply Tx.wp_selectOrThrow
      rintro D₀ service ⟨-, rfl, -⟩ hservice
      refine ⟨fun h => absurd rfl h, fun D₂ h₂ => hok _ _ ?_⟩
      rintro _ _ ⟨⟩
      exact Serves.later ⟨r, hfind hr, hservice⟩ h₂

theorem follows_retry (userId readingId : Id) :
    (ReadingsService.retry userId readingId).Follows interpretationDiscipline c
      (fun _ _ => True) D := by
  refine Proc.Follows.bind (follows_withService (fun h => (Option.filter_eq_some_iff.mp h).1)
    (fun _ _ => trivial) fun found D₁ hserves => ?_)
  rcases found with _ | ⟨r, service⟩
  · exact fun _ _ => trivial
  refine Proc.Follows.bind ((follows_performRetry (hserves r service rfl)).mono fun r' D₂ _ => ?_)
  rcases r' with e | _
  · trivial
  · exact follows_findOneForUser

theorem follows_retryAsAdmin (readingId : Id) :
    (ReadingsService.retryAsAdmin readingId).Follows interpretationDiscipline c
      (fun _ _ => True) D := by
  refine Proc.Follows.bind (follows_withService (fun h => h)
    (fun _ _ => trivial) fun found D₁ hserves => ?_)
  rcases found with _ | ⟨r, service⟩
  · exact fun _ _ => trivial
  refine Proc.Follows.bind ((follows_performRetry (hserves r service rfl)).mono fun r' D₂ _ => ?_)
  rcases r' with e | _
  · trivial
  · exact follows_findOneForUser

end Queue

/-! ## The requests that record an execution -/

/-- At most one execution is recorded, under a new id and of this input. -/
def Logs (input : AIOrchestratorExecuteInput) (D : Db) (L : List RowWrite) : Prop :=
  L = [] ∨ ∃ id e, L = [.aiExecution id (some e)] ∧ D.aiExecutions.lookup id = none ∧
    e.promptVersionId = input.promptVersionId ∧ e.readingId = input.readingId

namespace AiOrchestratorService

variable {R : AiRuntime} {input : AIOrchestratorExecuteInput} {version : PromptVersion}

theorem every_createExecution (hversion : version.id = input.promptVersionId)
    (status : AIExecutionStatus) (errorMessage : Option String)
    (response : Option AIProviderResponse) (outputJson : Option (Json JsString)) :
    (createExecution R version input status errorMessage response outputJson).Every
      (Logs input) := by
  unfold createExecution
  apply (Proc.every_call _).bind
  intro id
  apply (Proc.every_call _).bind
  intro createdAt
  refine Proc.Every.bind (Proc.every_transaction fun D => ?_) fun _ => trivial
  exact Db.aiExecution.wp_create fun hnone => .inr ⟨id, _, rfl, hnone, hversion, rfl⟩

theorem every_fail (hversion : version.id = input.promptVersionId) (recorded message : String)
    (response : Option AIProviderResponse) :
    (fail R version input recorded response message).Every (Logs input) :=
  (every_createExecution hversion _ _ _ _).bind fun _ => trivial

theorem every_complete {K : Db → List RowWrite → Prop} (request : AIProviderRequest)
    (retries : Nat) : (complete request retries).Every K := by
  induction retries with
  | zero => exact fun _ => trivial
  | succ retries ih =>
      rintro (e | response)
      · exact ih
      · trivial

theorem every_handleResponse (hversion : version.id = input.promptVersionId)
    (entry : RegistryEntry) (response : AIProviderResponse) :
    (handleResponse R version input entry response).Every (Logs input) := by
  unfold handleResponse
  cases Json.parse response.content with
  | none => exact every_fail hversion _ _ _
  | some parsed =>
      cases entry with
      | inherited => trivial
      | schema schema =>
          cases hdata : schema.safeParse parsed with
          | none =>
              simp only [hdata]
              exact every_fail hversion _ _ _
          | some data =>
              simp only [hdata]
              split
              · exact every_fail hversion _ _ _
              · exact (every_createExecution hversion _ _ _ _).bind fun _ => trivial

theorem id_of_findVersion {promptVersionId : Id} {D : Db} {code : String}
    (h : findVersion promptVersionId D = some (code, version)) : version.id = promptVersionId := by
  obtain ⟨⟨key, row⟩, hmem, heq⟩ := Option.map_eq_some_iff.mp h
  cases heq
  have hrow := ((Table.mem_findMany _ _ _ _).mp (List.mem_of_head? hmem)).2
  simpa using hrow

/-- An execution records itself only, whatever discipline it follows. -/
theorem follows_execute_of {Call : Type} {G : Discipline Db RowWrite RowRef Call} {c : Call} {D : Db}
    (hlogs : ∀ D' L, G.Mono D D' → Logs input D' L → G.Effect c D' L) :
    (execute R input).Follows G c (fun _ D' => G.Mono D D') D := by
  unfold execute
  refine Proc.Follows.bind (Proc.follows_select (fun _ _ h => h) fun D₀ D₁ h₀ _ h₁ => ?_)
  have hD₁ : G.Mono D D₁ := G.mono_trans h₀ h₁
  have logs : ∀ {p : Request AIOrchestratorExecuteResult}, p.Every (Logs input) →
      p.Follows G c (fun _ D' => G.Mono D D') D₁ := fun h =>
    h.follows (fun D' L hm hL _ => hlogs D' L (G.mono_trans hD₁ hm) hL)
      fun _ _ hm => G.mono_trans hD₁ hm
  cases hfind : findVersion input.promptVersionId D₀ with
  | none => exact fun _ hm => G.mono_trans hD₁ hm
  | some found =>
      obtain ⟨code, version⟩ := found
      have hversion := id_of_findVersion hfind
      cases hentry : registryEntry R code with
      | none =>
          simp only [hentry]
          exact fun _ hm => G.mono_trans hD₁ hm
      | some entry =>
          simp only [hentry]
          split
          · exact logs (every_fail hversion _ _ _)
          · refine logs ((every_complete _ _).bind ?_)
            rintro (e | response)
            · exact every_fail hversion _ _ _
            · exact every_handleResponse hversion entry response

end AiOrchestratorService

/-- The version that is resolved is the last published one of some moment before. -/
theorem PromptsService.follows_getPublishedVersionId_of {Call : Type}
    {G : Discipline Db RowWrite RowRef Call} {c : Call} {D : Db} {code : String}
    {P : Except Err Id → Db → Prop} (herr : ∀ e D', P (.error e) D')
    (hok : ∀ D₀ D' key version, G.Mono D D₀ → lastPublished code D₀ = some (key, version) →
      G.Mono D₀ D' → P (.ok version.id) D') :
    (getPublishedVersionId code).Follows G c P D := by
  unfold getPublishedVersionId
  refine Proc.Follows.bind (Proc.follows_select (fun e D' _ => herr e D') fun D₀ D₁ h₀ _ h₁ => ?_)
  cases Db.prompt.find D₀ code with
  | none => exact fun D' _ => herr _ D'
  | some prompt =>
      refine Proc.Follows.bind (Proc.follows_select (fun e D' _ => herr e D')
        fun D₂ D₃ h₂ _ h₃ => ?_)
      cases hlast : lastPublished code D₂ with
      | none => exact fun D' _ => herr _ D'
      | some found =>
          obtain ⟨key, version⟩ := found
          intro D₄ h₄
          exact hok D₂ D₄ key version (G.mono_trans (G.mono_trans h₀ h₁) h₂) hlast
            (G.mono_trans h₃ h₄)

/-- A validation runs the last published version of its task, and stores a status. -/
theorem PalmImageValidation.follows_validateImage_of {Call : Type}
    {G : Discipline Db RowWrite RowRef Call} {c : Call} {D : Db} {R : AiRuntime} {palmImageId : Id}
    (hexecute : ∀ D₀ D' key version input, G.Mono D₀ D' →
      PromptsService.lastPublished PALM_IMAGE_LEGIBILITY_TASK D₀ = some (key, version) →
      input.promptVersionId = version.id →
      (AiOrchestratorService.execute R input).Follows G c (fun _ _ => True) D')
    (hstatus : ∀ D' image, G.Effect c D' [.palmImage palmImageId (some image)]) :
    ((validateImage palmImageId).resolve (aiCallees R)).Follows G c (fun _ _ => True) D := by
  unfold validateImage
  rw [Proc.resolve_bind, Proc.resolve_transaction]
  refine Proc.Follows.bind (Proc.follows_select (fun _ _ _ => trivial) fun D₀ D₁ _ _ _ => ?_)
  cases Db.palmImage.find D₀ palmImageId with
  | none => exact fun _ _ => trivial
  | some image =>
      simp only
      split
      · exact fun _ _ => trivial
      unfold validateFound
      rw [Proc.resolve_bind, Proc.resolve_call_of_none rfl]
      refine Proc.Follows.bind (Proc.follows_call fun r D₂ _ => ?_)
      rcases r with e | bytes
      · trivial
      dsimp only
      rw [Proc.resolve_bind, Proc.resolve_call_of_some rfl]
      simp only [Proc.resolve_bind, Proc.resolve_ofExcept, Proc.attempt_bind_ofExcept_bind]
      refine Proc.Follows.bind (PromptsService.follows_getPublishedVersionId_of (fun _ _ => trivial)
        fun D₃ D₄ key version _ hlast h => ?_)
      dsimp only
      rw [Proc.resolve_call_of_some rfl]
      refine Proc.Follows.bind ((hexecute D₃ D₄ key version _ h hlast rfl).mono fun r D₅ _ => ?_)
      rcases r with e | result
      · trivial
      refine Proc.follows_of_every
        (K := fun _ L => ∃ image, L = [.palmImage palmImageId (some image)]) ?_ ?_
      · apply (Proc.every_ofExcept _).bind
        rintro ⟨status, validationError⟩
        simp only [Proc.resolve_transaction, Proc.pure_eq, Proc.resolve_ret]
        refine Proc.Every.bind (Proc.every_transaction fun D => ?_) fun _ => trivial
        exact Db.palmImage.wp_update fun _ _ => ⟨_, rfl⟩
      · rintro D' L _ ⟨image, rfl⟩ _
        exact hstatus D' image

/-- An execution of this input is a check of an image or the interpretation of its reading. -/
def Recordable (D : Db) (input : AIOrchestratorExecuteInput) : Prop :=
  VersionOf D PALM_IMAGE_LEGIBILITY_TASK input.promptVersionId ∨
    ∀ readingId, input.readingId = some readingId →
      ∃ code, InterpretedBy D readingId code ∧ VersionOf D code input.promptVersionId

theorem Recordable.later {D D' : Db} {input : AIOrchestratorExecuteInput} (h : Recordable D input)
    (hD : Extends D D') : Recordable D' input := by
  refine h.imp (·.later hD) fun hown readingId hreading => ?_
  obtain ⟨code, hcode, hversion⟩ := hown readingId hreading
  exact ⟨code, hcode.later hD, hversion.later hD⟩

section Jobs

variable {R : AiRuntime} {input : AIOrchestratorExecuteInput} {readingId : Id}

theorem Logs.effect (h : Logs input D L) (hrec : Recordable D input) :
    interpretationDiscipline.Effect c D L := by
  rcases h with rfl | ⟨id, e, rfl, hnone, hversion, hreading⟩
  · exact (quiet_nil D).effect
  refine ⟨⟨rfl, rfl, .refl SameService.refl _, .insert (fun _ => rfl) e hnone, fun hqueue => ?_⟩,
    fun id' e' he' hnone' => ?_⟩
  · exact fun jobId job hjob => (suits_later_iff rfl rfl job).mpr (hqueue jobId job hjob)
  · obtain ⟨-, rfl⟩ : id' = id ∧ e' = e := by
      have he'' : (D.aiExecutions.write id (some e)).lookup id' = some e' := he'
      by_cases hid : id' = id
      · subst hid
        exact ⟨rfl, by simpa [eq_comm] using he''⟩
      · rw [Table.lookup_write_of_ne _ _ hid, hnone'] at he''
        cases he''
    unfold Recordable at hrec
    rwa [← hversion, ← hreading] at hrec

theorem follows_execute (hrec : Recordable D input) :
    (AiOrchestratorService.execute R input).Follows interpretationDiscipline c
      (fun _ _ => True) D := by
  have hexecute := AiOrchestratorService.follows_execute_of (R := R) (G := interpretationDiscipline)
    (c := c) fun D' L hm (hlogs : Logs input D' L) => hlogs.effect (hrec.later hm)
  exact hexecute.mono fun _ _ _ => trivial

theorem versionOf_lastPublished {code : String} {key : String × Nat} {version : PromptVersion}
    (h : PromptsService.lastPublished code D = some (key, version)) :
    VersionOf D code version.id := by
  obtain ⟨n, -, hlookup, -⟩ := PromptsService.lastPublished_spec h
  exact ⟨n, version, hlookup, rfl⟩

/-- The version that a job runs belongs to the prompt it asked for. -/
theorem follows_getPublishedVersionId {code : String} {P : Except Err Id → Db → Prop}
    (herr : ∀ e D', P (.error e) D')
    (hok : ∀ id D', Extends D D' → VersionOf D' code id → P (.ok id) D') :
    (PromptsService.getPublishedVersionId code).Follows interpretationDiscipline c P D := by
  refine PromptsService.follows_getPublishedVersionId_of herr
    fun D₀ D' key version h₀ hlast h₁ => ?_
  exact hok version.id D' (Extends.trans h₀ h₁) ((versionOf_lastPublished hlast).later h₁)

theorem resolve_closeReading (callee : Proc.Callees Db RowWrite Err Answer)
    (readingId promptVersionId : Id) (result : AIExecutionStatus) :
    (ReadingProcessing.closeReading readingId promptVersionId result).resolve callee =
      ReadingProcessing.closeReading readingId promptVersionId result := by
  unfold ReadingProcessing.closeReading ReadingProcessing.writeResult
  split <;> simp only [Proc.resolve_bind, Proc.resolve_transaction]

theorem follows_interpret (hrec : Recordable D input) :
    ((ReadingProcessing.interpret readingId input).resolve (aiCallees R)).Follows
      interpretationDiscipline c (fun _ _ => True) D := by
  unfold ReadingProcessing.interpret
  rw [Proc.resolve_bind, Proc.resolve_call_of_some rfl]
  refine Proc.Follows.bind ((follows_execute hrec).mono fun r D' _ => ?_)
  rcases r with e | result
  · trivial
  · simp only [resolve_closeReading]
    exact follows_quiet (every_closeReading_quiet _ _ _) D'

/-- A step that records nothing, and what comes after it. -/
theorem follows_quiet_bind {p : Request Unit} {f : Request Unit} (h : p.Every Quiet)
    (hf : ∀ D', Extends D D' → f.Follows interpretationDiscipline c (fun _ _ => True) D') :
    (do p; f).Follows interpretationDiscipline c (fun _ _ => True) D := by
  refine Proc.Follows.bind (h.follows (fun _ _ _ hquiet _ => hquiet.effect) fun r D' hm => ?_)
  rcases r with e | _
  · trivial
  · exact hf D' hm

theorem serves_of_findTarotReading {row : ReadingProcessing.TarotReadingRow}
    (h : ReadingProcessing.findTarotReading readingId D = some row) :
    ∃ service, Serves D readingId service ∧ row.serviceCode = service.code := by
  obtain ⟨r, hr, h⟩ := Option.bind_eq_some_iff.mp h
  obtain ⟨service, hservice, h⟩ := Option.bind_eq_some_iff.mp h
  cases h
  exact ⟨service, ⟨r, hr, hservice⟩, rfl⟩

theorem follows_processTarotReading {service : Service} (hserves : Serves D readingId service)
    (hpalm : ReadingsService.isPalmService service.code = false) :
    ((ReadingProcessing.processTarotReading readingId).resolve (aiCallees R)).Follows
      interpretationDiscipline c (fun _ _ => True) D := by
  unfold ReadingProcessing.processTarotReading
  rw [Proc.resolve_bind, Proc.resolve_transaction]
  refine Proc.Follows.bind (Proc.follows_select (fun _ _ _ => trivial) fun D₀ D₁ h₀ _ h₁ => ?_)
  cases hfind : ReadingProcessing.findTarotReading readingId D₀ with
  | none => exact fun _ _ => trivial
  | some row =>
      obtain ⟨service', hserves', hcode⟩ := serves_of_findTarotReading hfind
      obtain rfl := hserves'.unique (hserves.later h₀)
      have hD₁ := hserves'.later h₁
      simp only
      split
      · exact fun _ _ => trivial
      rw [Proc.resolve_bind, Proc.resolve_transaction]
      refine follows_quiet_bind (every_setStatus_quiet readingId .PROCESSING) fun D₂ h₂ => ?_
      rw [Proc.resolve_bind, Proc.resolve_call_of_some rfl]
      simp only [Proc.resolve_bind, Proc.resolve_ofExcept, Proc.attempt_bind_ofExcept_bind]
      refine Proc.Follows.bind (follows_getPublishedVersionId (fun _ _ => trivial)
        fun promptVersionId D₃ h₃ hversion => ?_)
      refine follows_interpret (.inr ?_)
      rintro _ ⟨⟩
      exact ⟨_, ⟨service', hD₁.later (h₂.trans h₃), by simp [interpretationTask, hpalm, hcode]⟩,
        hversion⟩

theorem resolve_downloadImages (images : List PalmImage) :
    (ReadingProcessing.downloadImages images).resolve (aiCallees R) =
      ReadingProcessing.downloadImages images := by
  induction images with
  | nil => rfl
  | cons image images ih =>
      simp only [ReadingProcessing.downloadImages, Proc.resolve_bind, ih, Proc.pure_eq,
        Proc.resolve_ret,
        @Proc.resolve_call_of_none _ _ _ _ _ (aiCallees R) (.downloadObject image.storageKey) rfl]

theorem follows_processPalmReading {service : Service} (hserves : Serves D readingId service)
    (hpalm : ReadingsService.isPalmService service.code = true) :
    ((ReadingProcessing.processPalmReading readingId).resolve (aiCallees R)).Follows
      interpretationDiscipline c (fun _ _ => True) D := by
  unfold ReadingProcessing.processPalmReading
  rw [Proc.resolve_bind, Proc.resolve_transaction]
  refine Proc.Follows.bind (Proc.follows_select (fun _ _ _ => trivial) fun D₀ D₁ h₀ _ h₁ => ?_)
  have hD₁ := hserves.later (h₀.trans h₁)
  cases Db.reading.find D₀ readingId with
  | none => exact fun _ _ => trivial
  | some r =>
      simp only [Option.map_some]
      split
      · exact fun _ _ => trivial
      rw [Proc.resolve_bind, Proc.resolve_transaction]
      refine follows_quiet_bind (every_setStatus_quiet readingId .PROCESSING) fun D₂ h₂ => ?_
      rw [Proc.resolve_bind, Proc.resolve_call_of_some rfl]
      simp only [Proc.resolve_bind, Proc.resolve_ofExcept, Proc.attempt_bind_ofExcept_bind]
      refine Proc.Follows.bind (follows_getPublishedVersionId (fun _ _ => trivial)
        fun promptVersionId D₃ h₃ hversion => ?_)
      rw [resolve_downloadImages]
      refine Proc.Follows.bind ((ReadingProcessing.every_downloadImages (K := Quiet) _).follows
        (fun _ _ _ hquiet _ => hquiet.effect) fun r D₄ h₄ => ?_)
      rcases r with e | images
      · trivial
      refine follows_interpret (.inr ?_)
      rintro _ ⟨⟩
      exact ⟨_, ⟨service, hD₁.later ((h₂.trans h₃).trans h₄), by simp [interpretationTask, hpalm]⟩,
        hversion.later h₄⟩

/-- A job from the queue is one of its reading's service. -/
theorem follows_work (jobId : String) :
    ((ReadingProcessing.work jobId).resolve (aiCallees R)).Follows interpretationDiscipline c
      (fun _ _ => True) D := by
  unfold ReadingProcessing.work
  rw [Proc.resolve_bind, Proc.resolve_transaction]
  refine Proc.Follows.bind (Proc.follows_select (fun _ _ _ => trivial)
    fun D₀ D₁ _ hqueue h₁ => ?_)
  cases hjob : Db.readingJob.find D₀ jobId with
  | none => exact fun _ _ => trivial
  | some job =>
      obtain ⟨service, hserves, hname⟩ := hqueue jobId job hjob
      have hD₁ := hserves.later h₁
      unfold jobName at hname
      simp only [ReadingProcessing.process]
      split at hname
      · rename_i hpalm
        rw [hname]
        exact follows_processPalmReading hD₁ hpalm
      · rename_i hpalm
        rw [hname]
        exact follows_processTarotReading hD₁ (by simpa using hpalm)

theorem follows_validation (palmImageId : Id) :
    ((PalmImageValidation.validateImage palmImageId).resolve (aiCallees R)).Follows
      interpretationDiscipline c (fun _ _ => True) D := by
  refine PalmImageValidation.follows_validateImage_of
    (fun D₀ D' key version input h hlast hinput => follows_execute (.inl ?_))
    fun D' image => (quiet_image D' palmImageId image).effect
  rw [hinput]
  exact (versionOf_lastPublished hlast).later h

end Jobs

/-! ## The interpretation shown -/

theorem follows_calls (R : AiRuntime) (C : PalmImageConfig) (c : InterpretationCall) (D : Db) :
    (c.prog R C).Follows interpretationDiscipline c (fun _ _ => True) D := by
  have drop : ∀ {α : Type} {p : Request α} {P : Except Err α → Db → Prop},
      p.Follows interpretationDiscipline c P D →
      (do let _ ← p; return () : Request Unit).Follows interpretationDiscipline c
        (fun _ _ => True) D := by
    intro α p P h
    refine Proc.Follows.bind (h.mono fun r D' _ => ?_)
    cases r with
    | error e => trivial
    | ok a => exact fun _ _ => trivial
  cases c with
  | presignImage userId readingId contentType =>
      exact drop (Proc.follows_of_every
        (ReadingsService.every_presignImage quiet_nil quiet_image userId readingId contentType)
        fun _ _ _ h _ => h.effect)
  | confirmImage userId readingId key =>
      exact drop (Proc.follows_of_every
        (ReadingsService.every_confirmImage_of quiet_nil quiet_image
          (fun _ _ _ => quiet_of_readings_eq rfl rfl rfl rfl rfl) C userId readingId key)
        fun _ _ _ h _ => h.effect)
  | validateImage palmImageId => exact follows_validation palmImageId
  | imageFailed palmImageId attemptsMade maxAttempts =>
      exact follows_quiet (PalmImageValidation.every_onFailed_of quiet_nil
        (fun D _ _ _ => quiet_image D palmImageId _) attemptsMade maxAttempts) D
  | submit userId readingId => exact drop (follows_submit userId readingId)
  | work jobId => exact follows_work jobId
  | readingFailed readingId attemptsMade =>
      exact follows_quiet (every_readingFailed_quiet readingId attemptsMade) D
  | retry userId readingId => exact drop (follows_retry userId readingId)
  | retryAsAdmin readingId => exact drop (follows_retryAsAdmin readingId)

theorem shows_own_of_reach (R : AiRuntime) (C : PalmImageConfig) {readingId : Id} {D₀ : Db}
    {s : InterpretationPool} (hqueue : QueueMatches D₀) (h₀ : ShowsOwn readingId D₀)
    (run : Pool.Reach (InterpretationCall.prog R C) (fun _ => True)
      (fun s s' => ChecksSuperseded readingId s.db s'.db) (.idle D₀) s) :
    QueueMatches s.db ∧ ShowsOwn readingId s.db := by
  induction run with
  | refl => exact ⟨hqueue, h₀⟩
  | @step s₁ s₂ e tail he hs hok ih =>
      obtain ⟨hqueue₁, h₁⟩ := ih
      have hI : interpretationDiscipline.Inv (Pool.idle D₀ : InterpretationPool).db := hqueue
      have hfollow := (tail.following (fun _ h => h) (fun c _ D _ => follows_calls R C c D) hI
        (Pool.following_idle D₀)).1
      obtain ⟨-, hstep⟩ := hfollow.moved (fun _ h => h) (fun c _ D _ => follows_calls R C c D)
        hqueue₁ (Pool.step_moved he hs)
      rcases hstep with ⟨hdb, -⟩ | ⟨c, L, ⟨-, hextends, hrecords⟩, hdb, -⟩
      · exact hdb ▸ ⟨hqueue₁, h₁⟩
      · rw [hdb] at hok ⊢
        exact ⟨hextends.queue hqueue₁, h₁.step hextends hrecords hok⟩

/-- The detail shows the output of the latest completed execution. -/
theorem ReadingsService.ends_findDetailForUser (S : SharingConfig) (userId readingId : Id)
    (answers : (q : Query) → Answer q → Prop) :
    (ReadingsService.findDetailForUser S userId readingId).Ends answers (fun r _ =>
      ∀ detail, r = .ok detail → detail.aiResult =
        (newest (·.createdAt) (ReadingsService.completedExecutions readingId D)).bind
          fun e => e.2.outputJson) D := by
  unfold ReadingsService.findDetailForUser
  refine Proc.Ends.bind (Proc.ends_select (fun _ _ h => by cases h) ?_)
  cases hrow : ReadingsService.findWithDetail userId readingId D with
  | none => exact fun _ h => by cases h
  | some row =>
      refine Proc.Ends.bind (Proc.ends_select (fun _ _ h => by cases h) ?_)
      rintro detail ⟨⟩
      exact ReadingsService.aiResult_toReadingDetail hrow _

/-- Where the latest executions are interpretations, the detail shows the output of one. -/
theorem ShowsOwn.detail {readingId : Id} (h : ShowsOwn readingId D) {S : SharingConfig}
    {userId : Id} {env : Proc.Surroundings Answer} {n : Nat} {D' : Db} {detail : ReadingDetail}
    {output : Json JsString}
    (hexec : (ReadingsService.findDetailForUser S userId readingId).exec env n D = (D', .ok detail))
    (houtput : detail.aiResult = some output) :
    ∃ id e code, D.aiExecutions.lookup id = some e ∧ CompletedFor readingId e ∧
      InterpretedBy D readingId code ∧ VersionOf D code e.promptVersionId ∧
      e.outputJson = some output := by
  have hends := (ReadingsService.ends_findDetailForUser S userId readingId (D := D)
    (fun _ _ => True)).exec env (fun _ _ => trivial) n
  rw [hexec] at hends
  rw [hends detail rfl, Option.bind_eq_some_iff] at houtput
  obtain ⟨⟨id, e⟩, hnewest, hout⟩ := houtput
  have hmem : ∀ {id e}, (id, e) ∈ ReadingsService.completedExecutions readingId D ↔
      D.aiExecutions.lookup id = some e ∧ CompletedFor readingId e := by
    intro id e
    simp [ReadingsService.completedExecutions, Table.mem_findMany, CompletedFor]
  obtain ⟨hlookup, hcompleted⟩ := hmem.mp (newest_mem hnewest)
  obtain ⟨code, hcode, hversion⟩ := h id e hlookup hcompleted fun id' e' hlookup' hcompleted' =>
    newest_le hnewest (hmem.mpr ⟨hlookup', hcompleted'⟩)
  exact ⟨id, e, code, hlookup, hcompleted, hcode, hversion, hout⟩

/-- In every run in which no completed check of an image is recorded later than the
completed executions of its reading, the detail of the reading shows the output of an
execution of its interpretation task, or nothing. -/
theorem detail_shows_interpretation (R : AiRuntime) (C : PalmImageConfig) (S : SharingConfig)
    (readingId : Id) (D₀ : Db) (s : InterpretationPool) (hqueue : QueueMatches D₀)
    (h₀ : ShowsOwn readingId D₀)
    (run : Pool.Reach (InterpretationCall.prog R C) (fun _ => True)
      (fun s s' => ChecksSuperseded readingId s.db s'.db) (.idle D₀) s)
    (userId : Id) (env : Proc.Surroundings Answer) (n : Nat) (D' : Db) (detail : ReadingDetail)
    (hexec : (ReadingsService.findDetailForUser S userId readingId).exec env n s.db =
      (D', .ok detail)) (output : Json JsString) (houtput : detail.aiResult = some output) :
    ∃ id e code, s.db.aiExecutions.lookup id = some e ∧ CompletedFor readingId e ∧
      InterpretedBy s.db readingId code ∧ VersionOf s.db code e.promptVersionId ∧
      e.outputJson = some output :=
  (shows_own_of_reach R C hqueue h₀ run).2.detail hexec houtput

/-- The check of an image is the interpretation task of no service. -/
theorem interpretationTask_ne (serviceCode : String) :
    interpretationTask serviceCode ≠ PALM_IMAGE_LEGIBILITY_TASK := by
  unfold interpretationTask
  split
  · decide
  · intro h
    have hlast := congrArg (fun s : String => s.toList.getLast?) h
    rw [String.toList_append, List.getLast?_append] at hlast
    have hend : "_INTERPRETATION".toList.getLast? = some 'N' := by decide
    rw [hend, Option.some_or] at hlast
    exact absurd hlast (by decide)

/-- Answers for concrete runs: the object is a JPEG, and the provider answers `content`. -/
def answeringJobs (content : JsString) : (q : Query) → Answer q
  | .complete _ => ⟨content, "gpt"⟩
  | .randomUUID => "e1"
  | q => imageAnswer q

/-- `n` steps of task `t`, all made. -/
def jobSteps (content : JsString) (t n : Nat) : List (Event InterpretationCall Answer) :=
  List.replicate n (.go t .done (answeringJobs content))

/-- A database with the prompt of a task and its published version. -/
def withPrompt (code : String) (D : Db) : Db :=
  { D with
    prompts := (∅ : Table String Prompt).write code (some ⟨code⟩)
    promptVersions := (∅ : Table (String × Nat) PromptVersion).write (code, 1)
      (some AiOrchestratorService.sampleVersion) }

/-- What the detail of reading `r1` of `ana` shows, when nothing fails. -/
def shownResult (D : Db) : Option (Json JsString) :=
  match ((ReadingsService.findDetailForUser ⟨"", ""⟩ "ana" "r1").exec
    (AiOrchestratorService.answering []) 0 D).2 with
  | .ok detail => detail.aiResult
  | .error _ => none

theorem exec_of_shownResult {output : Json JsString} (h : shownResult D = some output) :
    ∃ D' detail, (ReadingsService.findDetailForUser ⟨"", ""⟩ "ana" "r1").exec
      (AiOrchestratorService.answering []) 0 D = (D', .ok detail) ∧
      detail.aiResult = some output := by
  unfold shownResult at h
  split at h
  · rename_i detail hdetail
    exact ⟨_, detail, Prod.ext rfl hdetail, h⟩
  · cases h

theorem queueMatches_of_empty (h : D.readingJobs = ∅) : QueueMatches D := by
  intro jobId job hjob
  simp [h] at hjob

theorem showsOwn_of_empty {readingId : Id} (h : D.aiExecutions = ∅) : ShowsOwn readingId D := by
  intro id e he
  simp [h] at he

/-- A draft palm reading with one uploaded image, and the prompt of its check. -/
def uncheckedDb : Db := withPrompt PALM_IMAGE_LEGIBILITY_TASK uploadedDb

/-- The image is confirmed and its check completes. -/
def checkSchedule : List (Event InterpretationCall Answer) :=
  .spawn 0 (.confirmImage "ana" "r1" "k1") :: jobSteps AiOrchestratorService.plainAnswer 0 8 ++
    .spawn 1 (.validateImage "i1") :: jobSteps AiOrchestratorService.plainAnswer 1 10

/-- The detail of a draft shows the output of the check of its image. -/
theorem image_check_shown : ∃ (s : InterpretationPool) (D' : Db) (detail : ReadingDetail)
    (output : Json JsString), QueueMatches uncheckedDb ∧ ShowsOwn "r1" uncheckedDb ∧
    Pool.Reach (InterpretationCall.prog AiOrchestratorService.sampleRuntime samplePalmConfig)
      (fun _ => True) (fun _ _ => True) (.idle uncheckedDb) s ∧
    (ReadingsService.findDetailForUser ⟨"", ""⟩ "ana" "r1").exec
      (AiOrchestratorService.answering []) 0 s.db = (D', .ok detail) ∧
    detail.aiResult = some output ∧
    ¬ ∃ id e code, s.db.aiExecutions.lookup id = some e ∧ CompletedFor "r1" e ∧
      InterpretedBy s.db "r1" code ∧ VersionOf s.db code e.promptVersionId ∧
      e.outputJson = some output := by
  have hrun : (Pool.run
      (InterpretationCall.prog AiOrchestratorService.sampleRuntime samplePalmConfig) Pool.unchecked
      (.idle uncheckedDb) checkSchedule).any (fun s => (shownResult s.db).isSome &&
        s.db.promptVersions.toRows.all fun e => e.1.1 = PALM_IMAGE_LEGIBILITY_TASK) = true := by
    decide +kernel
  obtain ⟨s, hs, hcheck⟩ := (Option.any_eq_true _ _).mp hrun
  obtain ⟨hshown, hversions⟩ := Bool.and_eq_true_iff.mp hcheck
  obtain ⟨output, houtput⟩ := Option.isSome_iff_exists.mp hshown
  obtain ⟨D', detail, hexec, hresult⟩ := exec_of_shownResult houtput
  refine ⟨s, D', detail, output, queueMatches_of_empty rfl, showsOwn_of_empty rfl,
    Pool.Reach.of_run checkSchedule hs, hexec, hresult, ?_⟩
  rintro ⟨id, e, code, -, -, ⟨service, -, hcode⟩, ⟨n, version, hversion, -⟩, -⟩
  have hlegibility : code = PALM_IMAGE_LEGIBILITY_TASK := by
    simpa using List.all_eq_true.mp hversions _ ((Table.mem_toRows _ _ _).mpr hversion)
  exact interpretationTask_ne service.code (hcode.symm.trans hlegibility)

/-! A tarot reading whose job runs. -/

/-- An interpretation of three cards, each text of one letter. -/
def tarotAnswer : JsString :=
  JsString.ofString <| "\x7b\"title\":\"a\",\"summary\":\"a\",\"cards\":[\x7b\"position\":\"a\"," ++
    "\"cardCode\":\"a\",\"interpretation\":\"a\"\x7d],\"insights\":[\"a\"]," ++
    "\"suggestedActions\":[\"a\"],\"closingReflection\":\"a\",\"disclaimer\":\"a\"\x7d"

/-- A submitted tarot reading with its job, and the prompt of its task. -/
def queuedDb : Db :=
  withPrompt TAROT_INTERPRETATION_TASK
    { Db.empty with
      services := (∅ : Table Id Service).write "tarot" (some ⟨"TAROT_THREE", "Tres", none, 0, true⟩)
      readings := (∅ : Table Id Reading).write "r1"
        (some ⟨"ana", "tarot", none, none, .PENDING, none⟩)
      readingJobs := (∅ : Table String ReadingJob).write "j1" (some ⟨.PROCESS_TAROT, "r1"⟩) }

theorem queueMatches_queuedDb : QueueMatches queuedDb := by
  intro jobId job hjob
  obtain ⟨rfl, rfl⟩ := Table.eq_of_lookup_single hjob
  exact ⟨⟨"TAROT_THREE", "Tres", none, 0, true⟩, ⟨_, rfl, rfl⟩, by decide⟩

/-- No completed check of an image is recorded between the two databases. -/
def noChecks (D D' : Db) : Bool :=
  D'.aiExecutions.toRows.all fun e => (D.aiExecutions.lookup e.1).isSome ||
    D.promptVersions.toRows.all fun v =>
      v.1.1 ≠ PALM_IMAGE_LEGIBILITY_TASK || v.2.id ≠ e.2.promptVersionId

theorem checksSuperseded_of_noChecks {readingId : Id} {D' : Db} (h : noChecks D D' = true) :
    ChecksSuperseded readingId D D' := by
  rintro id e he hnone - ⟨n, version, hversion, hid⟩
  have hrow := List.all_eq_true.mp h _ ((Table.mem_toRows _ _ _).mpr he)
  rw [hnone, Option.isSome_none, Bool.false_or] at hrow
  have hother := List.all_eq_true.mp hrow _ ((Table.mem_toRows _ _ _).mpr hversion)
  simp [hid] at hother

/-- The job of the reading runs up to its execution. -/
def interpretSchedule : List (Event InterpretationCall Answer) :=
  .spawn 0 (.work "j1") :: jobSteps tarotAnswer 0 10

/-- The detail of the reading shows its interpretation. -/
theorem detail_shows_interpretation_of_job : ∃ (s : InterpretationPool) (D' : Db)
    (detail : ReadingDetail) (output : Json JsString),
    (ReadingsService.findDetailForUser ⟨"", ""⟩ "ana" "r1").exec
      (AiOrchestratorService.answering []) 0 s.db = (D', .ok detail) ∧
    detail.aiResult = some output ∧
    ∃ id e code, s.db.aiExecutions.lookup id = some e ∧ CompletedFor "r1" e ∧
      InterpretedBy s.db "r1" code ∧ VersionOf s.db code e.promptVersionId ∧
      e.outputJson = some output := by
  have hrun : (Pool.run
      (InterpretationCall.prog AiOrchestratorService.sampleRuntime samplePalmConfig) noChecks
      (.idle queuedDb) interpretSchedule).any (fun s => (shownResult s.db).isSome) = true := by
    decide +kernel
  obtain ⟨s, hs, hshown⟩ := (Option.any_eq_true _ _).mp hrun
  obtain ⟨output, houtput⟩ := Option.isSome_iff_exists.mp hshown
  obtain ⟨D', detail, hexec, hresult⟩ := exec_of_shownResult houtput
  have run : Pool.Reach (InterpretationCall.prog AiOrchestratorService.sampleRuntime
      samplePalmConfig) (fun _ => True) (fun s s' => ChecksSuperseded "r1" s.db s'.db)
      (.idle queuedDb) s :=
    Pool.Reach.refl.run (fun _ _ => checksSuperseded_of_noChecks) interpretSchedule
      (by simp [interpretSchedule, jobSteps, Event.Starts]) hs
  exact ⟨s, D', detail, output, hexec, hresult, detail_shows_interpretation _ _ _ "r1" queuedDb s
    queueMatches_queuedDb (showsOwn_of_empty rfl) run "ana" _ 0 D' detail hexec output hresult⟩

end TaroTria
