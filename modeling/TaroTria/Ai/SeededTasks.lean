import TaroTria.Ai.DraftsInTests
import TaroTria.Services.Seed

/-!
# Seeded tasks

The jobs ask for prompts by codes that their processors make from the code of a service, or
have as a constant. The seed stores a published version for each of these codes, and neither
a publication nor anything else takes the last one away.
-/

namespace TaroTria

open Transactions

namespace PromptRuns

variable {Other : Type} {texts : String → PromptTexts} {D : Db} {code : String}

/-- The tasks that the jobs of the seeded services run. -/
inductive JobTask : String → Prop
  | interpretation (service : ServiceSeed) (hseeded : service ∈ BASE_SERVICES)
      (hreads : Seed.hasForm service.code ∨ ReadingsService.isPalmService service.code) :
      JobTask (interpretationTask service.code)
  | legibility : JobTask PALM_IMAGE_LEGIBILITY_TASK

theorem interpretationTask_mem : ∀ service ∈ BASE_SERVICES,
    Seed.hasForm service.code ∨ ReadingsService.isPalmService service.code →
      interpretationTask service.code ∈ AI_TASK_SCHEMAS.map Prod.fst := by
  decide

/-- What the jobs run has a schema. -/
theorem JobTask.mem (h : JobTask code) : code ∈ AI_TASK_SCHEMAS.map Prod.fst := by
  cases h with
  | interpretation service hseeded hreads => exact interpretationTask_mem service hseeded hreads
  | legibility => decide

/-- The seed stores a prompt for every schema. -/
theorem codes_promptSeeds (texts : String → PromptTexts) :
    (Seed.promptSeeds texts).map (·.code) = AI_TASK_SCHEMAS.map Prod.fst := rfl

/-! ## The seed -/

/-- Where the first version of a seeded prompt is there, some version is published. -/
def FirstPublished (texts : String → PromptTexts) (D : Db) : Prop :=
  ∀ promptSeed ∈ Seed.promptSeeds texts,
    (D.promptVersions.lookup (promptSeed.code, promptSeed.version)).isSome →
      ∃ n, Published promptSeed.code n D

theorem firstPublished_of_empty (h : D.promptVersions = ∅) : FirstPublished texts D := by
  intro promptSeed _ hfirst
  simp [h] at hfirst

/-- The version that the seed creates is published. -/
theorem FirstPublished.version {promptSeed : PromptSeed} (h : FirstPublished texts D) (id : Id)
    (now : Time)
    (hnew : D.promptVersions.lookup (promptSeed.code, promptSeed.version) = none) :
    FirstPublished texts (view [RowWrite.promptVersion (promptSeed.code, promptSeed.version)
        (some (Seed.seededVersion promptSeed id now))] D) ∧
      Published promptSeed.code promptSeed.version
        (view [RowWrite.promptVersion (promptSeed.code, promptSeed.version)
          (some (Seed.seededVersion promptSeed id now))] D) := by
  have hpublished : Published promptSeed.code promptSeed.version
      (view [RowWrite.promptVersion (promptSeed.code, promptSeed.version)
        (some (Seed.seededVersion promptSeed id now))] D) :=
    ⟨_, Table.lookup_write_self _ _ _, rfl⟩
  refine ⟨fun other hother hfirst => ?_, hpublished⟩
  by_cases hkey : (other.code, other.version) = (promptSeed.code, promptSeed.version)
  · obtain ⟨hcode, hversion⟩ := Prod.mk.inj hkey
    exact ⟨promptSeed.version, hcode ▸ hpublished⟩
  · have hold : (D.promptVersions.lookup (other.code, other.version)).isSome := by
      rwa [← Table.lookup_write_of_ne D.promptVersions _ hkey]
    obtain ⟨n, row, hrow, hstatus⟩ := h other hother hold
    have hne : (other.code, n) ≠ (promptSeed.code, promptSeed.version) := by
      intro heq
      rw [heq, hnew] at hrow
      cases hrow
    exact ⟨n, row, (Table.lookup_write_of_ne _ _ hne).trans hrow, hstatus⟩

/-- What a turn of the seed leaves, of its prompt and of the others. -/
def Turned (texts : String → PromptTexts) (promptSeed : PromptSeed) (D : Db) (r : Except Err Unit)
    (D' : Db) : Prop :=
  (FirstPublished texts D' ∧ Onward D D') ∧ (r = .ok () → Available promptSeed.code D')

theorem ends_seedVersion {promptSeed : PromptSeed} {D₁ : Db}
    (hmem : promptSeed ∈ Seed.promptSeeds texts) (h : FirstPublished texts D₁)
    (honward : Onward D D₁) (hprompt : (D₁.prompts.lookup promptSeed.code).isSome) :
    (Seed.seedVersion promptSeed).Ends (fun _ _ => True) (Turned texts promptSeed D) D₁ := by
  have hfailed : ∀ e, Turned texts promptSeed D (.error e) D₁ := fun e =>
    ⟨⟨h, honward⟩, fun h => nomatch h⟩
  unfold Seed.seedVersion
  refine Proc.Ends.bind (Proc.ends_select hfailed ?_)
  cases hfirst : D₁.promptVersions.lookup (promptSeed.code, promptSeed.version) with
  | some row =>
      obtain ⟨n, hn⟩ := h promptSeed hmem (by rw [hfirst]; rfl)
      simp only [Delegate.find, Db.promptVersion_rows, hfirst, Option.isNone_some]
      exact ⟨⟨h, honward⟩, fun _ => ⟨hprompt, n, hn⟩⟩
  | none =>
      simp only [Delegate.find, Db.promptVersion_rows, hfirst, Option.isNone_none, if_true]
      refine Proc.Ends.bind (Proc.ends_call hfailed fun id _ => ?_)
      refine Proc.Ends.bind (Proc.ends_call hfailed fun now _ => ?_)
      obtain ⟨hkept, hpublished⟩ := h.version id now hfirst
      have honward' := honward.trans
        (onward_version (Seed.seededVersion promptSeed id now) hfirst)
      refine Proc.Ends.bind (Proc.ends_transaction hfailed (Db.promptVersion.wp_create fun _ => ?_))
      exact ⟨⟨⟨hkept, honward'⟩, fun _ => ⟨hprompt, _, hpublished⟩⟩,
        fun e => ⟨⟨hkept, honward'⟩, fun h => nomatch h⟩⟩

/-- A turn of the seed leaves its prompt available. -/
theorem ends_seedPrompt {promptSeed : PromptSeed} (hmem : promptSeed ∈ Seed.promptSeeds texts)
    (h : FirstPublished texts D) :
    (Seed.seedPrompt promptSeed).Ends (fun _ _ => True) (Turned texts promptSeed D) D := by
  have hstored : ∀ prompt : Prompt,
      (Seed.seedVersion promptSeed).Ends (fun _ _ => True) (Turned texts promptSeed D)
        (view [RowWrite.prompt promptSeed.code (some prompt)] D) := by
    intro prompt
    refine ends_seedVersion hmem h (onward_prompt _ prompt) ?_
    change ((D.prompts.write promptSeed.code (some prompt)).lookup promptSeed.code).isSome
    rw [Table.lookup_write_self]
    rfl
  have hlost : ∀ (prompt : Prompt) (e : Err), Turned texts promptSeed D (.error e)
      (view [RowWrite.prompt promptSeed.code (some prompt)] D) := fun prompt e =>
    ⟨⟨h, onward_prompt _ prompt⟩, fun h => nomatch h⟩
  unfold Seed.seedPrompt
  refine Proc.Ends.bind (Proc.ends_transaction
    (fun e => ⟨⟨h, .refl D⟩, fun h => nomatch h⟩) ?_)
  exact Db.prompt.wp_upsert (fun _ => ⟨hstored _, hlost _⟩) fun _ _ => ⟨hstored _, hlost _⟩

/-- A completed seed leaves all its prompts available. -/
theorem ends_seedPrompts (h : FirstPublished texts D) :
    (Seed.seedPrompts texts).Ends (fun _ _ => True) (fun r D' => r = .ok () →
      ∀ promptSeed ∈ Seed.promptSeeds texts, Available promptSeed.code D') D := by
  refine (Proc.ends_forM_each (I := FirstPublished texts)
    (J := fun promptSeed : PromptSeed => Available promptSeed.code)
    (fun promptSeed hmem D hD => ?_) h).mono fun _ _ ⟨_, _, hdone⟩ => hdone
  exact (ends_seedPrompt hmem hD).mono fun _ _ ⟨⟨hkept, honward⟩, hturn⟩ =>
    ⟨hkept, fun other => honward.available other.code, hturn⟩

/-! ## The jobs -/

/-- An available task resolves to a published version of its prompt. -/
theorem exec_getPublishedVersionId (h : Available code D) {env : Proc.Surroundings Answer}
    (henv : env.Healthy) (n : Nat) :
    ∃ id, (PromptsService.getPublishedVersionId code).exec env n D = (D, .ok id) ∧
      ∃ m row, D.promptVersions.lookup (code, m) = some row ∧ row.id = id ∧
        row.status = .PUBLISHED := by
  obtain ⟨hprompt, w, hw⟩ := h
  obtain ⟨prompt, hprompt⟩ := Option.isSome_iff_exists.mp hprompt
  obtain ⟨m, hm, -⟩ := exists_publishedNumber hw
  obtain ⟨⟨key, version⟩, hlast, -⟩ := Option.map_eq_some_iff.mp hm
  obtain ⟨number, -, hlookup, hstatus⟩ := PromptsService.lastPublished_spec hlast
  refine ⟨version.id, ?_, number, version, hlookup, rfl, hstatus⟩
  have hfind : Db.prompt.find D code = some prompt := hprompt
  unfold PromptsService.getPublishedVersionId Delegate.findUnique
  rw [Proc.exec_select (henv n), hfind]
  simp only
  rw [Proc.exec_select (henv (n + 1)), hlast]
  rfl

theorem JobTask.available (h : JobTask code)
    (hseeded : ∀ promptSeed ∈ Seed.promptSeeds texts, Available promptSeed.code D) :
    Available code D := by
  have hmem := h.mem
  rw [← codes_promptSeeds texts] at hmem
  obtain ⟨promptSeed, hprompt, rfl⟩ := List.mem_map.mp hmem
  exact hseeded promptSeed hprompt

/-- After the seed has completed once, in every run of jobs, of changes and tests of prompts,
of the seed again and of other calls that leave prompts and executions alone, every task that
the jobs of the seeded services run has a schema and resolves to a published version of its own
prompt. -/
theorem seeded_tasks_available (R : AiRuntime) (C : PalmImageConfig) (texts : String → PromptTexts)
    (others : Other → Request Unit) (hothers : ∀ o, (others o).Every Aside) (D₀ D₁ : Db)
    (hfirst : FirstPublished texts D₀) (env₀ : Proc.Surroundings Answer) (n₀ : Nat)
    (hseed : (Seed.seedPrompts texts).exec env₀ n₀ D₀ = (D₁, .ok ())) (s : RunPool Other)
    (run : Pool.Reach (RunCall.prog R C texts others) (fun _ => True) (fun _ _ => True)
      (.idle D₁) s)
    (code : String) (hcode : JobTask code) (env : Proc.Surroundings Answer) (henv : env.Healthy)
    (n : Nat) :
    (AI_TASK_SCHEMAS.lookup code).isSome ∧
      ∃ id, (PromptsService.getPublishedVersionId code).exec env n s.db = (s.db, .ok id) ∧
        ∃ m row, s.db.promptVersions.lookup (code, m) = some row ∧ row.id = id ∧
          row.status = .PUBLISHED := by
  have hends := (ends_seedPrompts hfirst).exec env₀ (fun _ _ => trivial) n₀
  rw [hseed] at hends
  have honward : Onward D₁ s.db := (onward_of_reach hothers run .refl).1
  have havailable : Available code s.db := honward.available code (hcode.available (hends rfl))
  obtain ⟨entry, hentry, hname⟩ := List.mem_map.mp hcode.mem
  exact ⟨List.lookup_isSome_iff.mpr ⟨entry, hentry, by simp [hname]⟩,
    exec_getPublishedVersionId havailable henv n⟩

/-- Answers for a seed on a fresh database, and no failure. -/
def seedingEnv : Proc.Surroundings Answer := ⟨fun _ => some .done, fun _ => answeringRuns "v1"⟩

/-- The first version of a task is replaced by a second one while it is running. -/
def replacement : List (Event (RunCall Id) Answer) :=
  runSteps "v2" 0 (.prompt (.createVersion TAROT_FIVE_INTERPRETATION_TASK sampleContent "ana")) 5 ++
    runSteps "" 1 (.prompt (.publish TAROT_FIVE_INTERPRETATION_TASK)) 4 ++
    runSteps "v3" 2 .seedPrompts 10

theorem seeded_tasks_available_of_replacement : ∃ s : RunPool Id,
    publishedNumber TAROT_FIVE_INTERPRETATION_TASK s.db = some 2 ∧
    (AI_TASK_SCHEMAS.lookup TAROT_FIVE_INTERPRETATION_TASK).isSome ∧
      ∃ id, (PromptsService.getPublishedVersionId TAROT_FIVE_INTERPRETATION_TASK).exec seedingEnv 0
          s.db = (s.db, .ok id) ∧
        ∃ m row, s.db.promptVersions.lookup (TAROT_FIVE_INTERPRETATION_TASK, m) = some row ∧
          row.id = id ∧ row.status = .PUBLISHED := by
  have hseed : (Seed.seedPrompts sampleTexts).exec seedingEnv 0 Db.empty =
      (((Seed.seedPrompts sampleTexts).exec seedingEnv 0 Db.empty).1, .ok ()) := Prod.ext rfl rfl
  have hrun : (Pool.run (RunCall.prog AiOrchestratorService.sampleRuntime samplePalmConfig
      sampleTexts confirmations) Pool.unchecked
      (.idle ((Seed.seedPrompts sampleTexts).exec seedingEnv 0 Db.empty).1) replacement).any
        (fun s => publishedNumber TAROT_FIVE_INTERPRETATION_TASK s.db = some 2) = true := by
    decide +kernel
  obtain ⟨s, hs, htwo⟩ := (Option.any_eq_true _ _).mp hrun
  have hname : interpretationTask "TAROT_FIVE" = TAROT_FIVE_INTERPRETATION_TASK := by decide
  have hcode : JobTask TAROT_FIVE_INTERPRETATION_TASK :=
    hname ▸ .interpretation (BASE_SERVICES.get ⟨2, by decide⟩) (List.get_mem _ _) (.inl (by decide))
  exact ⟨s, of_decide_eq_true htwo, seeded_tasks_available _ _ sampleTexts confirmations
    every_confirmConsumption_aside Db.empty _ (firstPublished_of_empty rfl) seedingEnv 0 hseed s
    (Pool.Reach.of_run _ hs) _ hcode seedingEnv (fun _ => rfl) 0⟩

end PromptRuns

end TaroTria
