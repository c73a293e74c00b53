import TaroTria.Ai.PromptSeeds
import TaroTria.Ai.PromptVersions
import TaroTria.Readings.OwnInterpretation

/-!
# Drafts in tests

Administrators write, publish and test the versions of prompts while jobs run them for
readings, and the seed may be run again. What is run for a reading has been published, and
its content does not change any more. A draft is run in tests only, which belong to no
reading.
-/

namespace TaroTria

open Transactions

/-- `POST admin/prompts/:id/test`. -/
def AdminPromptsController.test (R : AiRuntime) (code : String) (promptVersionId : Option Id)
    (promptVariables : List (String × String)) : Request AIOrchestratorExecuteResult := do
  let promptVersionId ← PromptsService.resolveVersionForTest code promptVersionId
  let riskCheckText := " ".intercalate (promptVariables.map Prod.snd)
  AiOrchestratorService.execute R
    { promptVersionId, readingId := none, promptVariables, riskCheckText
      images := [] }

namespace PromptRuns

variable {Other : Type}

/-- The calls that run prompts, those that change them, and others. -/
inductive RunCall (Other : Type)
  | interpretation (c : InterpretationCall)
  | prompt (c : PromptCall)
  | test (code : String) (promptVersionId : Option Id) (promptVariables : List (String × String))
  | seedPrompts
  | other (o : Other)

/-- The request of a call; what it returns is dropped. -/
def RunCall.prog (R : AiRuntime) (C : PalmImageConfig) (texts : String → PromptTexts)
    (others : Other → Request Unit) : RunCall Other → Request Unit
  | interpretation c => c.prog R C
  | prompt c => c.prog
  | test code promptVersionId promptVariables => do
      let _ ← AdminPromptsController.test R code promptVersionId promptVariables
  | seedPrompts => Seed.seedPrompts texts
  | other o => others o

abbrev RunPool (Other : Type) := Pool Db RowWrite Err (RunCall Other) Answer Unit

/-! ## What the calls change -/

/-- A version with this id has been published. -/
def Released (D : Db) (id : Id) : Prop :=
  ∃ key row, D.promptVersions.lookup key = some row ∧ row.id = id ∧ row.status ≠ .DRAFT

/-- The versions that are run for readings have been published. -/
structure OnlyReleased (D : Db) : Prop where
  executions : ∀ id e, D.aiExecutions.lookup id = some e → e.readingId ≠ none →
    Released D e.promptVersionId
  readings : ∀ id r promptVersionId, D.readings.lookup id = some r →
    r.promptVersionId = some promptVersionId → Released D promptVersionId

/-- A task finds its prompt and a published version of it. -/
def Available (code : String) (D : Db) : Prop :=
  (D.prompts.lookup code).isSome ∧ ∃ n, Published code n D

/-- A version keeps its content, and does not become a draft again. -/
def Stays (row row' : PromptVersion) : Prop :=
  row'.id = row.id ∧ row'.content = row.content ∧ (row.status ≠ .DRAFT → row'.status ≠ .DRAFT)

theorem Stays.refl (row : PromptVersion) : Stays row row := ⟨rfl, rfl, id⟩

theorem Stays.trans {row row' row'' : PromptVersion} (h : Stays row row')
    (h' : Stays row' row'') : Stays row row'' :=
  ⟨h'.1.trans h.1, h'.2.1.trans h.2.1, fun hdraft => h'.2.2 (h.2.2 hdraft)⟩

/-- Versions stay, what is run for readings goes on being published, and tasks stay
available. -/
structure Onward (D D' : Db) : Prop where
  versions : Table.Persists Stays D.promptVersions D'.promptVersions
  released : OnlyReleased D → OnlyReleased D'
  available : ∀ code, Available code D → Available code D'

theorem Onward.refl (D : Db) : Onward D D := ⟨.refl Stays.refl _, id, fun _ => id⟩

theorem Onward.trans {D D' D'' : Db} (h : Onward D D') (h' : Onward D' D'') : Onward D D'' where
  versions := Table.Persists.trans (R := Stays) Stays.trans h.versions h'.versions
  released := h'.released ∘ h.released
  available code := h'.available code ∘ h.available code

theorem Released.of_versions {D D' : Db} {id : Id} (h : Released D id)
    (hversions : Table.Persists Stays D.promptVersions D'.promptVersions) : Released D' id := by
  obtain ⟨key, row, hrow, hid, hdraft⟩ := h
  obtain ⟨row', hrow', hsame, -, hstays⟩ := hversions key row hrow
  exact ⟨key, row', hrow', hsame.trans hid, hstays hdraft⟩

theorem Released.later {D D' : Db} {id : Id} (h : Released D id) (hD : Onward D D') :
    Released D' id :=
  h.of_versions hD.versions

def runDiscipline (Other : Type) : Discipline Db RowWrite RowRef (RunCall Other) where
  Mono := Onward
  mono_refl := .refl
  mono_trans := .trans
  Inv _ := True
  inv_mono _ := id
  Effect _ D L := Onward D (view L D)
  mono_effect := id

section Writes

variable {D D' : Db} {L : List RowWrite}

/-- A change of the versions that leaves readings and executions alone. -/
theorem Onward.of_versions
    (hversions : Table.Persists Stays D.promptVersions D'.promptVersions)
    (hprompts : ∀ code, (D.prompts.lookup code).isSome → (D'.prompts.lookup code).isSome)
    (hpublished : ∀ code n, Published code n D → ∃ m, Published code m D')
    (hexecutions : D'.aiExecutions = D.aiExecutions) (hreadings : D'.readings = D.readings) :
    Onward D D' where
  versions := hversions
  available code := fun ⟨hprompt, n, hn⟩ => ⟨hprompts code hprompt, hpublished code n hn⟩
  released h :=
    { executions := fun id e he hreading =>
        (h.executions id e (hexecutions ▸ he) hreading).of_versions hversions
      readings := fun id r promptVersionId hr hversion =>
        (h.readings id r promptVersionId (hreadings ▸ hr) hversion).of_versions hversions }

/-- Prompts are left alone, no execution is recorded, and readings get no other version. -/
structure Aside (D : Db) (L : List RowWrite) : Prop where
  prompts : (view L D).prompts = D.prompts
  versions : (view L D).promptVersions = D.promptVersions
  executions : ∀ id e, (view L D).aiExecutions.lookup id = some e →
    D.aiExecutions.lookup id = some e
  readings : ∀ id r, (view L D).readings.lookup id = some r → r.promptVersionId = none ∨
    ∃ r₀, D.readings.lookup id = some r₀ ∧ r₀.promptVersionId = r.promptVersionId

theorem aside_of_eq (hprompts : (view L D).prompts = D.prompts)
    (hversions : (view L D).promptVersions = D.promptVersions)
    (hexecutions : (view L D).aiExecutions = D.aiExecutions)
    (hreadings : (view L D).readings = D.readings) : Aside D L where
  prompts := hprompts
  versions := hversions
  executions _ _ he := hexecutions ▸ he
  readings _ r hr := .inr ⟨r, hreadings ▸ hr, rfl⟩

theorem aside_nil (D : Db) : Aside D [] := aside_of_eq rfl rfl rfl rfl

theorem Aside.onward (h : Aside D L) : Onward D (view L D) where
  versions := h.versions ▸ .refl Stays.refl _
  available code := by
    unfold Available Published
    rw [h.prompts, h.versions]
    exact id
  released hD :=
    { executions := fun id e he hreading =>
        (hD.executions id e (h.executions id e he) hreading).of_versions
          (h.versions ▸ .refl Stays.refl _)
      readings := fun id r promptVersionId hr hversion => by
        rcases h.readings id r hr with hnone | ⟨r₀, hr₀, hsame⟩
        · rw [hversion] at hnone
          cases hnone
        · exact (hD.readings id r₀ promptVersionId hr₀ (hsame.trans hversion)).of_versions
            (h.versions ▸ .refl Stays.refl _) }

/-- The row of a reading is written with the version that it had. -/
theorem aside_reading {readingId : Id} {r r' : Reading}
    (hr : D.readings.lookup readingId = some r)
    (hprompts : (view L D).prompts = D.prompts)
    (hversions : (view L D).promptVersions = D.promptVersions)
    (hexecutions : (view L D).aiExecutions = D.aiExecutions)
    (hreadings : (view L D).readings = D.readings.write readingId (some r'))
    (hsame : r'.promptVersionId = r.promptVersionId) : Aside D L where
  prompts := hprompts
  versions := hversions
  executions _ _ he := hexecutions ▸ he
  readings id r'' hr'' := by
    rw [hreadings, Table.lookup_write] at hr''
    split at hr''
    · rename_i hid
      cases hr''
      exact .inr ⟨r, hid ▸ hr, hsame.symm⟩
    · exact .inr ⟨r'', hr'', rfl⟩

end Writes

/-! ## The calls that leave prompts alone -/

section Plain

variable {D : Db}

theorem aside_submissionWrites {userId readingId : Id} {service : Service} {unlocked : Bool}
    {w : Wallet} {draws : List (DrawEngine.TarotDraw TarotDeckCard)} {r : Reading} {now : Time}
    (h : D.readings.lookup readingId = some r) :
    Aside D (ReadingsService.submissionWrites userId readingId service unlocked w draws r now) := by
  have hview := ReadingsService.view_submissionWrites userId readingId service unlocked w draws r
    now D
  have hreadings : (view (ReadingsService.submissionWrites userId readingId service unlocked w draws
      r now) D).readings = D.readings.write readingId
        (some { r with status := .PENDING, submittedAt := now }) := by rw [hview]
  exact aside_reading h (by rw [hview]) (by rw [hview]) (by rw [hview]) hreadings rfl

theorem every_setStatus_aside (readingId : Id) (status : ReadingStatus) :
    (Proc.transaction (ReadingsService.setStatus readingId status) : Request Unit).Every Aside :=
  Proc.every_transaction fun _ => ReadingsService.wp_setStatus fun _ hr =>
    aside_reading hr rfl rfl rfl rfl rfl

theorem every_addJob_aside (jobId : String) (job : ReadingJob) :
    (Proc.transaction (ReadingsService.addJob jobId job) : Request Unit).Every Aside :=
  ReadingsService.every_addJob_of fun _ _ => aside_of_eq rfl rfl rfl rfl

theorem every_confirmConsumption_aside (readingId : Id) :
    (Proc.transaction (WalletService.confirmConsumption readingId) : Request Unit).Every Aside :=
  WalletService.every_confirmConsumption aside_nil fun _ _ _ _ _ => aside_of_eq rfl rfl rfl rfl

theorem every_releaseReservation_aside (readingId : Id) :
    (Proc.transaction (WalletService.releaseReservation readingId) : Request Unit).Every Aside :=
  WalletService.every_releaseReservation aside_nil fun _ _ _ _ _ => aside_of_eq rfl rfl rfl rfl

theorem aside_image (D : Db) (id : Id) (row : PalmImage) : Aside D [.palmImage id (some row)] :=
  aside_of_eq rfl rfl rfl rfl

variable {c : RunCall Other} {p : Request Unit}

theorem follows_aside (h : p.Every Aside) (D : Db) :
    p.Follows (runDiscipline Other) c (fun _ _ => True) D :=
  Proc.follows_of_every h fun _ _ _ haside _ => haside.onward

end Plain

/-! ## The calls that change prompts -/

section Prompts

variable {D : Db}

theorem onward_version {key : String × Nat} (row : PromptVersion)
    (hnew : D.promptVersions.lookup key = none) :
    Onward D (view [RowWrite.promptVersion key (some row)] D) := by
  refine .of_versions (.insert Stays.refl row hnew) (fun _ h => h) ?_ rfl rfl
  rintro code n ⟨row', hrow', hstatus⟩
  have hne : (code, n) ≠ key := by
    rintro rfl
    cases hnew.symm.trans hrow'
  exact ⟨n, row', (Table.lookup_write_of_ne _ _ hne).trans hrow', hstatus⟩

theorem onward_prompt (code : String) (prompt : Prompt) :
    Onward D (view [RowWrite.prompt code (some prompt)] D) := by
  refine .of_versions (.refl Stays.refl _) (fun code' h => ?_) (fun _ n h => ⟨n, h⟩) rfl rfl
  change ((D.prompts.write code (some prompt)).lookup code').isSome
  rw [Table.lookup_write]
  split
  · rfl
  · exact h

/-- Writes of versions leave prompts, readings and executions alone. -/
theorem view_versions (f : PromptVersion → PromptVersion)
    (rows : List ((String × Nat) × PromptVersion)) (D : Db) :
    (view (rows.map fun e => RowWrite.promptVersion e.1 (some (f e.2))) D).prompts = D.prompts ∧
      (view (rows.map fun e => RowWrite.promptVersion e.1 (some (f e.2))) D).aiExecutions =
        D.aiExecutions ∧
      (view (rows.map fun e => RowWrite.promptVersion e.1 (some (f e.2))) D).readings =
        D.readings := by
  induction rows generalizing D with
  | nil => exact ⟨rfl, rfl, rfl⟩
  | cons e rows ih =>
      rw [List.map_cons, view_cons]
      exact ih _

theorem stays_archive (row : PromptVersion) : Stays row (PromptsService.archive row) :=
  ⟨rfl, rfl, fun _ => by simp [PromptsService.archive]⟩

theorem stays_release {now : Time} {old row : PromptVersion}
    (hrow : row = old ∨ row = PromptsService.archive old) :
    Stays old (PromptsService.release now row) := by
  rcases hrow with rfl | rfl <;> exact ⟨rfl, rfl, fun _ => by simp [PromptsService.release]⟩

theorem onward_publish {code : String} {version : Nat} {now : Time} {old row : PromptVersion}
    (hold : D.promptVersions.lookup (code, version) = some old)
    (hrow : row = old ∨ row = PromptsService.archive old) :
    Onward D (view (publishWrites code version now row D) D) := by
  obtain ⟨hprompts, hexecutions, hreadings⟩ := view_versions PromptsService.archive
    (D.promptVersions.findMany (PromptsService.isPublished code)) D
  have hpublished : Published code version (view (publishWrites code version now row D) D) :=
    ⟨_, by rw [lookup_publishWrites, if_pos rfl], rfl⟩
  refine .of_versions (fun key row' hrow' => ?_) (fun code' h => ?_) ?_ ?_ ?_
  · rw [lookup_publishWrites]
    split
    · rename_i hkey
      obtain rfl : old = row' := Option.some.inj (hold.symm.trans (hkey ▸ hrow'))
      exact ⟨_, rfl, stays_release hrow⟩
    · rw [hrow', Option.map_some]
      refine ⟨_, rfl, ?_⟩
      split
      · exact stays_archive row'
      · exact .refl row'
  · unfold publishWrites
    rw [view_append]
    exact hprompts ▸ h
  · rintro code' n ⟨row', hrow', hstatus⟩
    by_cases hcode : code' = code
    · exact ⟨version, hcode ▸ hpublished⟩
    · refine ⟨n, row', ?_, hstatus⟩
      rw [lookup_publishWrites, if_neg (by simp [hcode]), hrow']
      simp [PromptsService.isPublished, hcode]
  · unfold publishWrites
    rw [view_append]
    exact hexecutions
  · unfold publishWrites
    rw [view_append]
    exact hreadings

/-- Versions stay, and nothing else that is run for readings changes. -/
def Moves (D : Db) (L : List RowWrite) : Prop := Onward D (view L D)

theorem moves_nil (D : Db) : Moves D [] := .refl D

theorem every_findOne_moves (code : String) : (PromptsService.findOne code).Every Moves := by
  apply (Proc.every_select moves_nil _).bind
  rintro (_ | prompt) <;> trivial

/-- A draft is created, and its prompt is read again. -/
theorem every_draft_moves (code : String) (n : Nat) (dto : PromptVersionContent) (authorId : Id) :
    (do let id ← Proc.call .randomUUID
        let _ ← Proc.transaction
          (Db.promptVersion.create (code, n) (PromptsService.draft id dto authorId))
        PromptsService.findOne code : Request AdminPrompt).Every Moves := by
  apply (Proc.every_call _).bind
  intro id
  refine Proc.Every.bind (Proc.every_transaction fun D => ?_) fun _ => every_findOne_moves code
  exact Db.promptVersion.wp_create (onward_version _)

theorem every_create_moves (code name : String) (dto : PromptVersionContent) (authorId : Id) :
    (PromptsService.create code name dto authorId).Every Moves := by
  unfold PromptsService.create
  apply (Proc.every_select moves_nil _).bind
  intro existing
  simp only
  split
  · trivial
  refine Proc.Every.bind (Proc.every_transaction fun D => ?_) fun _ =>
    every_draft_moves code 1 dto authorId
  exact Db.prompt.wp_create fun _ => onward_prompt code _

theorem every_createVersion_moves (code : String) (dto : PromptVersionContent) (authorId : Id) :
    (PromptsService.createVersion code dto authorId).Every Moves := by
  unfold PromptsService.createVersion
  apply (Proc.every_select moves_nil _).bind
  rintro (_ | prompt)
  · trivial
  apply (Proc.every_select moves_nil _).bind
  exact fun lastVersion => every_draft_moves code _ dto authorId

theorem every_publishTx_moves (code : String) (version : Nat) (now : Time) :
    (Proc.transaction (PromptsService.publishTx code version now) : Request PromptVersion).Every
      Moves := by
  refine Proc.every_transaction fun D => ?_
  unfold PromptsService.publishTx
  apply Tx.wp_bind
  apply Delegate.wp_updateAll_still
  apply Db.promptVersion.wp_update
  intro row hrow
  simp only [List.nil_append, Db.promptVersion_rows, Db.promptVersion_write, view_nil,
    Delegate.find, PromptsService.lookup_archived, Option.map_eq_some_iff] at hrow
  obtain ⟨old, hold, rfl⟩ := hrow
  refine onward_publish hold ?_
  split
  · exact .inr rfl
  · exact .inl rfl

theorem every_publish_moves (code : String) : (PromptsService.publish code).Every Moves := by
  unfold PromptsService.publish
  apply (Proc.every_select moves_nil _).bind
  rintro (_ | ⟨key, row⟩)
  · trivial
  apply (Proc.every_call _).bind
  intro now
  exact (every_publishTx_moves code key.2 now).bind fun _ => every_findOne_moves code

theorem every_seedPrompts_moves (texts : String → PromptTexts) :
    (Seed.seedPrompts texts).Every Moves := by
  refine Proc.every_forM fun promptSeed _ => ?_
  unfold Seed.seedPrompt
  refine Proc.Every.bind (Proc.every_transaction fun D => ?_) fun _ => ?_
  · exact Db.prompt.wp_upsert (fun _ => onward_prompt _ _) fun _ _ => onward_prompt _ _
  unfold Seed.seedVersion
  apply (Proc.every_select moves_nil _).bind
  intro existingVersion
  split
  · apply (Proc.every_call _).bind
    intro id
    apply (Proc.every_call _).bind
    intro now
    refine Proc.Every.bind (Proc.every_transaction fun D => ?_) fun _ => trivial
    exact Db.promptVersion.wp_create (onward_version _)
  · trivial

theorem every_prompt_moves (c : PromptCall) : c.prog.Every Moves := by
  cases c with
  | create code name dto authorId =>
      exact (every_create_moves code name dto authorId).bind fun _ => trivial
  | createVersion code dto authorId =>
      exact (every_createVersion_moves code dto authorId).bind fun _ => trivial
  | publish code => exact (every_publish_moves code).bind fun _ => trivial

end Prompts

/-! ## The calls that run prompts -/

section Runs

variable {c : RunCall Other} {R : AiRuntime} {input : AIOrchestratorExecuteInput} {D : Db}
  {L : List RowWrite} {readingId promptVersionId : Id}

/-- An execution may be recorded in a test, or of a published version. -/
theorem Logs.onward (h : Logs input D L)
    (hrun : input.readingId ≠ none → Released D input.promptVersionId) : Onward D (view L D) := by
  rcases h with rfl | ⟨id, e, rfl, -, hversion, hreading⟩
  · exact .refl D
  refine ⟨.refl Stays.refl _, fun hD => ⟨fun id' e' he' hreading' => ?_, hD.readings⟩,
    fun _ h => h⟩
  change (D.aiExecutions.write id (some e)).lookup id' = some e' at he'
  rw [Table.lookup_write] at he'
  split at he'
  · cases he'
    rw [hreading] at hreading'
    exact hversion ▸ hrun hreading'
  · exact hD.executions id' e' he' hreading'

theorem follows_execute (hrun : input.readingId ≠ none → Released D input.promptVersionId) :
    (AiOrchestratorService.execute R input).Follows (runDiscipline Other) c
      (fun _ D' => Onward D D') D :=
  AiOrchestratorService.follows_execute_of fun _ _ hm hlogs =>
    Logs.onward hlogs fun hreading => (hrun hreading).later hm

theorem released_lastPublished {code : String} {key : String × Nat} {version : PromptVersion}
    (h : PromptsService.lastPublished code D = some (key, version)) : Released D version.id := by
  obtain ⟨n, -, hlookup, hstatus⟩ := PromptsService.lastPublished_spec h
  exact ⟨(code, n), version, hlookup, rfl, by simp [hstatus]⟩

/-- The version that is resolved has been published. -/
theorem follows_getPublishedVersionId {code : String} {P : Except Err Id → Db → Prop}
    (herr : ∀ e D', P (.error e) D')
    (hok : ∀ id D', Onward D D' → Released D' id → P (.ok id) D') :
    (PromptsService.getPublishedVersionId code).Follows (runDiscipline Other) c P D := by
  refine PromptsService.follows_getPublishedVersionId_of herr
    fun D₀ D' key version h₀ hlast h₁ => ?_
  exact hok version.id D' (Onward.trans h₀ h₁) ((released_lastPublished hlast).later h₁)

/-- The reading is closed with the version that ran. -/
theorem follows_closeReading (h : Released D promptVersionId) (result : AIExecutionStatus) :
    (ReadingProcessing.closeReading readingId promptVersionId result).Follows
      (runDiscipline Other) c (fun _ _ => True) D := by
  refine Proc.follows_of_every (K := fun D L => Released D promptVersionId → Moves D L)
    (ReadingProcessing.every_closeReading_of ?_ ?_ (fun D status r hr hreleased => ?_) result)
    fun D' _ hm hmoves _ => hmoves (h.later hm)
  · exact (every_confirmConsumption_aside readingId).mono fun _ _ haside _ => haside.onward
  · exact (every_releaseReservation_aside readingId).mono fun _ _ haside _ => haside.onward
  · refine ⟨.refl Stays.refl _,
      fun hD => ⟨hD.executions, fun id r' version hr' hversion => ?_⟩, fun _ => id⟩
    change (D.readings.write readingId _).lookup id = some r' at hr'
    rw [Table.lookup_write] at hr'
    split at hr'
    · cases hr'
      cases hversion
      exact hreleased
    · exact hD.readings id r' version hr' hversion

/-- A step that leaves prompts alone, and what comes after it. -/
theorem follows_aside_bind {p f : Request Unit} (h : p.Every Aside)
    (hf : ∀ D', f.Follows (runDiscipline Other) c (fun _ _ => True) D') :
    (do p; f).Follows (runDiscipline Other) c (fun _ _ => True) D := by
  refine Proc.Follows.bind (h.follows (fun _ _ _ haside _ => haside.onward) fun r D' _ => ?_)
  rcases r with e | _
  · trivial
  · exact hf D'

theorem follows_interpret (h : Released D input.promptVersionId) :
    ((ReadingProcessing.interpret readingId input).resolve (aiCallees R)).Follows
      (runDiscipline Other) c (fun _ _ => True) D := by
  unfold ReadingProcessing.interpret
  rw [Proc.resolve_bind, Proc.resolve_call_of_some rfl]
  refine Proc.Follows.bind ((follows_execute fun _ => h).mono fun r D' h' => ?_)
  rcases r with e | result
  · trivial
  · simp only [resolve_closeReading]
    exact follows_closeReading (h.later h') _

theorem follows_processTarotReading (readingId : Id) :
    ((ReadingProcessing.processTarotReading readingId).resolve (aiCallees R)).Follows
      (runDiscipline Other) c (fun _ _ => True) D := by
  unfold ReadingProcessing.processTarotReading
  rw [Proc.resolve_bind, Proc.resolve_transaction]
  refine Proc.Follows.bind (Proc.follows_select (fun _ _ _ => trivial) fun D₀ D₁ _ _ _ => ?_)
  cases ReadingProcessing.findTarotReading readingId D₀ with
  | none => exact fun _ _ => trivial
  | some row =>
      simp only
      split
      · exact fun _ _ => trivial
      rw [Proc.resolve_bind, Proc.resolve_transaction]
      refine follows_aside_bind (every_setStatus_aside readingId .PROCESSING) fun D₂ => ?_
      rw [Proc.resolve_bind, Proc.resolve_call_of_some rfl]
      simp only [Proc.resolve_bind, Proc.resolve_ofExcept, Proc.attempt_bind_ofExcept_bind]
      exact Proc.Follows.bind (follows_getPublishedVersionId (fun _ _ => trivial)
        fun promptVersionId D₃ _ hreleased => follows_interpret hreleased)

theorem follows_processPalmReading (readingId : Id) :
    ((ReadingProcessing.processPalmReading readingId).resolve (aiCallees R)).Follows
      (runDiscipline Other) c (fun _ _ => True) D := by
  unfold ReadingProcessing.processPalmReading
  rw [Proc.resolve_bind, Proc.resolve_transaction]
  refine Proc.Follows.bind (Proc.follows_select (fun _ _ _ => trivial) fun D₀ D₁ _ _ _ => ?_)
  cases Db.reading.find D₀ readingId with
  | none => exact fun _ _ => trivial
  | some r =>
      simp only [Option.map_some]
      split
      · exact fun _ _ => trivial
      rw [Proc.resolve_bind, Proc.resolve_transaction]
      refine follows_aside_bind (every_setStatus_aside readingId .PROCESSING) fun D₂ => ?_
      rw [Proc.resolve_bind, Proc.resolve_call_of_some rfl]
      simp only [Proc.resolve_bind, Proc.resolve_ofExcept, Proc.attempt_bind_ofExcept_bind]
      refine Proc.Follows.bind (follows_getPublishedVersionId (fun _ _ => trivial)
        fun promptVersionId D₃ _ hreleased => ?_)
      rw [resolve_downloadImages]
      refine Proc.Follows.bind ((ReadingProcessing.every_downloadImages (K := Aside) _).follows
        (fun _ _ _ haside _ => haside.onward) fun r D₄ h₄ => ?_)
      rcases r with e | images
      · trivial
      · exact follows_interpret (hreleased.later h₄)

theorem follows_work (jobId : String) :
    ((ReadingProcessing.work jobId).resolve (aiCallees R)).Follows (runDiscipline Other) c
      (fun _ _ => True) D := by
  unfold ReadingProcessing.work
  rw [Proc.resolve_bind, Proc.resolve_transaction]
  refine Proc.Follows.bind (Proc.follows_select (fun _ _ _ => trivial) fun D₀ D₁ _ _ _ => ?_)
  cases Db.readingJob.find D₀ jobId with
  | none => exact fun _ _ => trivial
  | some job =>
      simp only [ReadingProcessing.process]
      cases job.name with
      | PROCESS_TAROT => exact follows_processTarotReading _
      | PROCESS_PALM => exact follows_processPalmReading _

theorem follows_validation (palmImageId : Id) :
    ((PalmImageValidation.validateImage palmImageId).resolve (aiCallees R)).Follows
      (runDiscipline Other) c (fun _ _ => True) D := by
  refine PalmImageValidation.follows_validateImage_of
    (fun D₀ D' key version input h hlast hinput => ?_)
    fun D' image => (aside_image D' palmImageId image).onward
  have hreleased : Released D' input.promptVersionId :=
    hinput ▸ (released_lastPublished hlast).later h
  exact (follows_execute fun _ => hreleased).mono fun _ _ _ => trivial

/-- A test runs any version, for no reading. -/
theorem follows_test (code : String) (explicitVersionId : Option Id)
    (promptVariables : List (String × String)) :
    (AdminPromptsController.test R code explicitVersionId promptVariables).Follows
      (runDiscipline Other) c (fun _ _ => True) D := by
  have hread : (PromptsService.resolveVersionForTest code explicitVersionId).Every Aside := by
    unfold PromptsService.resolveVersionForTest
    split
    all_goals
      apply (Proc.every_select aside_nil _).bind
      rintro (_ | ⟨key, version⟩) <;> trivial
  refine Proc.Follows.bind (hread.follows (fun _ _ _ haside _ => haside.onward) fun r D₁ _ => ?_)
  rcases r with e | promptVersionId
  · trivial
  · exact (follows_execute fun h => absurd rfl h).mono fun _ _ _ => trivial

end Runs

/-! ## Every run -/

section Calls

variable {R : AiRuntime} {C : PalmImageConfig} {texts : String → PromptTexts}
  {others : Other → Request Unit} {D : Db}

theorem follows_interpretation {c : RunCall Other} (i : InterpretationCall) :
    (i.prog R C).Follows (runDiscipline Other) c (fun _ _ => True) D := by
  have drop : ∀ {α : Type} {p : Request α}, p.Every Aside →
      (do let _ ← p; return () : Request Unit).Follows (runDiscipline Other) c
        (fun _ _ => True) D := by
    intro α p h
    have hdropped : (do let _ ← p; return () : Request Unit).Every Aside := h.bind fun _ => trivial
    exact follows_aside hdropped D
  cases i with
  | presignImage userId readingId contentType =>
      exact drop (ReadingsService.every_presignImage aside_nil aside_image userId readingId
        contentType)
  | confirmImage userId readingId key =>
      exact drop (ReadingsService.every_confirmImage_of aside_nil aside_image
        (fun _ _ _ => aside_of_eq rfl rfl rfl rfl) C userId readingId key)
  | validateImage palmImageId => exact follows_validation palmImageId
  | imageFailed palmImageId attemptsMade maxAttempts =>
      exact follows_aside (PalmImageValidation.every_onFailed_of aside_nil
        (fun D _ _ _ => aside_image D palmImageId _) attemptsMade maxAttempts) D
  | submit userId readingId =>
      exact drop (ReadingsService.every_submit aside_nil (fun _ _ => every_addJob_aside _ _)
        fun _ _ _ _ _ _ _ _ _ _ hr => aside_submissionWrites hr)
  | work jobId => exact follows_work jobId
  | readingFailed readingId attemptsMade =>
      exact follows_aside (ReadingProcessing.every_onFailed_of aside_nil
        (every_releaseReservation_aside readingId)
        (fun _ _ hr _ => aside_reading hr rfl rfl rfl rfl rfl) attemptsMade) D
  | retry userId readingId =>
      exact drop (ReadingsService.every_retry_of aside_nil
        (every_setStatus_aside readingId .PENDING) (fun _ _ => every_addJob_aside _ _) userId)
  | retryAsAdmin readingId =>
      exact drop (ReadingsService.every_retryAsAdmin_of aside_nil
        (every_setStatus_aside readingId .PENDING) fun _ _ => every_addJob_aside _ _)

theorem follows_calls (hothers : ∀ o, (others o).Every Aside) (c : RunCall Other) :
    (c.prog R C texts others).Follows (runDiscipline Other) c (fun _ _ => True) D := by
  cases c with
  | interpretation i => exact follows_interpretation i
  | prompt c => exact Proc.follows_of_every (every_prompt_moves c) fun _ _ _ hmoves _ => hmoves
  | test code promptVersionId promptVariables =>
      refine Proc.Follows.bind ((follows_test code promptVersionId promptVariables).mono
        fun r D' _ => ?_)
      rcases r with e | result
      · trivial
      · exact fun _ _ => trivial
  | seedPrompts =>
      exact Proc.follows_of_every (every_seedPrompts_moves texts) fun _ _ _ hmoves _ => hmoves
  | other o => exact follows_aside (hothers o) D

/-- From one database of a run to a later one, prompts move onward. -/
theorem onward_of_reach (hothers : ∀ o, (others o).Every Aside) {D₀ : Db} {s s' : RunPool Other}
    (run : Pool.Reach (RunCall.prog R C texts others) (fun _ => True) (fun _ _ => True)
      (.idle D₀) s)
    (run' : Pool.Reach (RunCall.prog R C texts others) (fun _ => True) (fun _ _ => True) s s') :
    Onward D₀ s.db ∧ Onward s.db s'.db := by
  have hprog : ∀ c, True → ∀ D, True →
      (RunCall.prog R C texts others c).Follows (runDiscipline Other) c (fun _ _ => True) D :=
    fun c _ D _ => follows_calls hothers c
  have hinv : ∀ D, (runDiscipline Other).Inv D := fun _ => trivial
  obtain ⟨hfollow, hist, -, hpath⟩ := run.following (fun _ _ => trivial) hprog (hinv _)
    (Pool.following_idle D₀)
  obtain ⟨-, hist', -, hpath'⟩ := run'.following (fun _ _ => trivial) hprog (hinv _) hfollow
  exact ⟨(runDiscipline Other).path_mono hpath, (runDiscipline Other).path_mono hpath'⟩

/-- In every run of jobs, of changes and tests of prompts, of the seed and of other calls that
leave prompts and executions alone, every version that has been run for a reading is published
or was, and keeps its content from then on. -/
theorem drafts_in_tests_only (R : AiRuntime) (C : PalmImageConfig) (texts : String → PromptTexts)
    (others : Other → Request Unit) (hothers : ∀ o, (others o).Every Aside) (D₀ : Db)
    (h₀ : OnlyReleased D₀) (s s' : RunPool Other)
    (run : Pool.Reach (RunCall.prog R C texts others) (fun _ => True) (fun _ _ => True)
      (.idle D₀) s)
    (run' : Pool.Reach (RunCall.prog R C texts others) (fun _ => True) (fun _ _ => True) s s') :
    OnlyReleased s.db ∧ Table.Persists Stays s.db.promptVersions s'.db.promptVersions := by
  obtain ⟨honward, honward'⟩ := onward_of_reach hothers run run'
  exact ⟨honward.released h₀, honward'.versions⟩

end Calls

/-! A draft is tested while the job of a reading runs the published version. -/

def sampleTexts (_ : String) : PromptTexts := ⟨"", "", []⟩

def confirmations (readingId : Id) : Request Unit :=
  Proc.transaction (WalletService.confirmConsumption readingId)

def answeringRuns (id : Id) : (q : Query) → Answer q
  | .randomUUID => id
  | q => answeringJobs tarotAnswer q

/-- A call that takes `n` steps, all made. -/
def runSteps (id : Id) (t : Nat) (c : RunCall Id) (n : Nat) : List (Event (RunCall Id) Answer) :=
  .spawn t c :: List.replicate n (.go t .done (answeringRuns id))

def draftTest : List (Event (RunCall Id) Answer) :=
  runSteps "v2" 0 (.prompt (.createVersion TAROT_INTERPRETATION_TASK sampleContent "ana")) 5 ++
    runSteps "e2" 1 (.test TAROT_INTERPRETATION_TASK none []) 8

def readingRun : List (Event (RunCall Id) Answer) :=
  runSteps "e1" 2 (.interpretation (.work "j1")) 12

/-- The executions of the test and of the reading. -/
def testedAndRead (D : Db) : Bool :=
  ((D.aiExecutions.lookup "e2").any fun e => e.promptVersionId = "v2" && e.readingId = none) &&
    (D.aiExecutions.lookup "e1").any fun e => e.promptVersionId = "v1" && e.readingId = some "r1"

theorem onlyReleased_queuedDb : OnlyReleased queuedDb where
  executions id e he := by simp [queuedDb, withPrompt, Db.empty] at he
  readings id r promptVersionId hr hversion := by
    obtain ⟨-, rfl⟩ := Table.eq_of_lookup_single hr
    cases hversion

theorem drafts_in_tests_only_of_draft : ∃ s s' : RunPool Id,
    testedAndRead s.db = true ∧ publishedNumber TAROT_INTERPRETATION_TASK s'.db = some 2 ∧
      OnlyReleased s.db ∧ Table.Persists Stays s.db.promptVersions s'.db.promptVersions := by
  have hrun : (Pool.run (RunCall.prog AiOrchestratorService.sampleRuntime samplePalmConfig
      sampleTexts confirmations) Pool.unchecked (.idle queuedDb) (draftTest ++ readingRun)).any (fun s =>
        testedAndRead s.db && (Pool.run (RunCall.prog AiOrchestratorService.sampleRuntime
          samplePalmConfig sampleTexts confirmations) Pool.unchecked s
          (runSteps "" 3 (.prompt (.publish TAROT_INTERPRETATION_TASK)) 4)).any fun s' =>
            publishedNumber TAROT_INTERPRETATION_TASK s'.db = some 2) = true := by
    decide +kernel
  obtain ⟨s, hs, hafter⟩ := (Option.any_eq_true _ _).mp hrun
  obtain ⟨htested, hpublish⟩ := Bool.and_eq_true_iff.mp hafter
  obtain ⟨s', hs', htwo⟩ := (Option.any_eq_true _ _).mp hpublish
  refine ⟨s, s', htested, of_decide_eq_true htwo, ?_⟩
  exact drafts_in_tests_only _ _ _ confirmations every_confirmConsumption_aside queuedDb
    onlyReleased_queuedDb s s' (Pool.Reach.of_run _ hs) (Pool.Reach.of_run _ hs')

end PromptRuns

end TaroTria
