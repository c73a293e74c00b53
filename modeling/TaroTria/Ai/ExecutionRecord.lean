import TaroTria.Ai.ProhibitedContent
import TaroTria.Transactions.World

/-!
# The record of an execution

What `execute` does for a registered task, whatever the provider answers to each
of its calls: which calls it makes, the one row it writes and the result that it
returns with it. A code that every object inherits a property for passes the
check for a missing schema, and is the only way out without a record.
-/

namespace TaroTria

open Transactions
open Json (Schema)

namespace Transactions.Table

/-- A table leaves some key of an infinite type unused. -/
theorem exists_lookup_none {K V : Type} [DecidableEq K] [Infinite K] (t : Table K V) :
    ∃ k, t.lookup k = none := by
  obtain ⟨k, hk⟩ := Infinite.exists_notMem_finset t.keys.toFinset
  exact ⟨k, AList.lookup_eq_none.mpr fun hmem => hk (List.mem_toFinset.mpr hmem)⟩

end Transactions.Table

namespace AiOrchestratorService

variable {R : AiRuntime} {input : AIOrchestratorExecuteInput} {code : String}
  {version : PromptVersion} {schema : Schema} {D : Db}
  {outcomes : Nat → Except Err AIProviderResponse} {answer : (q : Query) → Answer q}
  {calls : List AIProviderRequest}

/-- The world of an execution: the provider's `k`-th call has the outcome `outcomes k`, and
the calls made so far are its state. -/
def providerWorld (outcomes : Nat → Except Err AIProviderResponse)
    (answer : (q : Query) → Answer q) : World (List AIProviderRequest) Err Answer
  | .complete request, calls => (outcomes calls.length, calls ++ [request])
  | q, calls => (.ok (answer q), calls)

/-- The request that the provider gets in every attempt. -/
def providerRequest (R : AiRuntime) (version : PromptVersion) (input : AIOrchestratorExecuteInput) :
    AIProviderRequest where
  systemPrompt := version.content.systemPrompt
  userPrompt := interpolate R version.content.userPromptTemplate input.promptVariables
  model := version.content.model
  temperature := version.content.temperature
  maxOutputTokens := version.content.maxOutputTokens
  timeoutMs := AI_REQUEST_TIMEOUT_MS
  images := input.images

/-- The calls end after `n` of at most `limit`: all of them but the last have failed, and the
last has succeeded unless no other is allowed. -/
structure StopsAfter (outcomes : Nat → Except Err AIProviderResponse) (limit n : Nat) : Prop where
  pos : 0 < n
  le : n ≤ limit
  failed : ∀ k, k + 1 < n → ∃ e, outcomes k = .error e
  last : n = limit ∨ ∃ response, outcomes (n - 1) = .ok response

/-- One of the allowed calls succeeds, the ones before it failed, and every check lets its
answer through with this output. -/
def Releases (outcomes : Nat → Except Err AIProviderResponse) (schema : Schema)
    (input : AIOrchestratorExecuteInput) (output : Json JsString) : Prop :=
  detectHighRiskContent input.riskCheckText = false ∧
    ∃ k response, k ≤ AI_MAX_TECHNICAL_RETRIES ∧ (∀ j, j < k → ∃ e, outcomes j = .error e) ∧
      outcomes k = .ok response ∧ Accepted schema response.content output

/-- The calls of an execution are those its input and the outcomes allow. -/
def CallsAllowed (R : AiRuntime) (outcomes : Nat → Except Err AIProviderResponse)
    (version : PromptVersion) (input : AIOrchestratorExecuteInput)
    (calls : List AIProviderRequest) : Prop :=
  (detectHighRiskContent input.riskCheckText = true → calls = []) ∧
    (detectHighRiskContent input.riskCheckText = false → ∃ n,
      calls = List.replicate n (providerRequest R version input) ∧
        StopsAfter outcomes (AI_MAX_TECHNICAL_RETRIES + 1) n)

/-- What an execution of a registered task leaves. -/
structure Recorded (R : AiRuntime) (outcomes : Nat → Except Err AIProviderResponse)
    (version : PromptVersion) (schema : Schema) (input : AIOrchestratorExecuteInput) (D : Db)
    (calls : List AIProviderRequest) (D' : Db) (result : AIOrchestratorExecuteResult) : Prop where
  row : ∃ row : AIExecution, D.aiExecutions.lookup result.aiExecutionId = none ∧
    D' = view [.aiExecution result.aiExecutionId (some row)] D ∧
    row.status = result.status ∧ row.outputJson = result.output
  calls : CallsAllowed R outcomes version input calls
  status : result.status = .COMPLETED ∨ result.status = .FAILED
  completed : result.status = .COMPLETED ↔ ∃ output, Releases outcomes schema input output
  output : ∀ output, result.output = some output ↔ Releases outcomes schema input output

/-- `execute` leaves its record for a registered task, and throws before any effect without a
version or a schema, whatever the outcomes of the provider's calls. -/
def ExecutesExactly (R : AiRuntime) (input : AIOrchestratorExecuteInput) (D : Db) : Prop :=
  ∀ (outcomes : Nat → Except Err AIProviderResponse) (answer : (q : Query) → Answer q) calls D' r,
    D.aiExecutions.lookup (answer .randomUUID) = none →
    (execute R input).play (providerWorld outcomes answer) [] D = (calls, D', r) →
    (∀ code version schema, findVersion input.promptVersionId D = some (code, version) →
      AI_TASK_SCHEMAS.lookup code = some schema →
      ∃ result, r = .ok result ∧ Recorded R outcomes version schema input D calls D' result) ∧
    ((∀ code version, findVersion input.promptVersionId D = some (code, version) →
      AI_TASK_SCHEMAS.lookup code = none) → calls = [] ∧ D' = D ∧ ∃ e, r = .error e)

/-! ### The parts of an execution -/

theorem play_createExecution {α : Type} {status : AIExecutionStatus} {errorMessage : Option String}
    {response : Option AIProviderResponse} {outputJson : Option (Json JsString)}
    {next : Id → Request α} (hfree : D.aiExecutions.lookup (answer .randomUUID) = none) :
    (createExecution R version input status errorMessage response outputJson >>= next).play
        (providerWorld outcomes answer) calls D =
      (next (answer .randomUUID)).play (providerWorld outcomes answer) calls
        (view [.aiExecution (answer .randomUUID) (some (executionRow R version input status
          errorMessage response outputJson (answer .now)))] D) := by
  unfold createExecution
  rw [bind_assoc, Proc.play_call rfl, bind_assoc, Proc.play_call rfl, bind_assoc,
    Proc.play_transaction_ok (Db.aiExecution.run_create (by simpa using hfree))]
  rfl

/-- From `calls` on, the request makes the provider's calls up to `calls'`, writes one row with
a fresh id and returns its status and its output, which is the one that `released` allows. -/
def Records (outcomes : Nat → Except Err AIProviderResponse) (answer : (q : Query) → Answer q)
    (D : Db) (released : Json JsString → Prop) (calls calls' : List AIProviderRequest)
    (p : Request AIOrchestratorExecuteResult) : Prop :=
  ∃ row result, p.play (providerWorld outcomes answer) calls D =
      (calls', view [.aiExecution (answer .randomUUID) (some row)] D, .ok result) ∧
    result.aiExecutionId = answer .randomUUID ∧
    row.status = result.status ∧ row.outputJson = result.output ∧
    (result.status = .COMPLETED ∧ (∃ output, result.output = some output) ∨
      result.status = .FAILED ∧ result.output = none) ∧
    ∀ output, result.output = some output ↔ released output

variable {released : Json JsString → Prop}

theorem records_fail {recorded message : String} {response : Option AIProviderResponse}
    (hfree : D.aiExecutions.lookup (answer .randomUUID) = none)
    (hnot : ∀ output, ¬ released output) :
    Records outcomes answer D released calls calls
      (fail R version input recorded response message) := by
  refine ⟨executionRow R version input .FAILED (some recorded) response none (answer .now),
    ⟨answer .randomUUID, .FAILED, none, some message⟩, ?_, rfl, rfl, rfl, .inr ⟨rfl, rfl⟩,
    fun output => ⟨fun h => (by cases h), fun h => absurd h (hnot output)⟩⟩
  unfold fail
  rw [play_createExecution hfree]
  rfl

theorem records_handleResponse {response : AIProviderResponse}
    (hfree : D.aiExecutions.lookup (answer .randomUUID) = none)
    (hreleased : ∀ output, released output ↔ Accepted schema response.content output) :
    Records outcomes answer D released calls calls
      (handleResponse R version input (.schema schema) response) := by
  unfold handleResponse
  cases hparse : Json.parse response.content with
  | none =>
      refine records_fail hfree fun output h => ?_
      obtain ⟨parsed, hparsed, -⟩ := ((hreleased output).mp h).parsed
      rw [hparse] at hparsed
      cases hparsed
  | some parsed =>
      have hdata_of (output : Json JsString) (h : released output) :
          schema.safeParse parsed = some output := by
        obtain ⟨parsed', hparsed, hdata⟩ := ((hreleased output).mp h).parsed
        rw [hparse] at hparsed
        cases hparsed
        exact hdata
      cases hdata : schema.safeParse parsed with
      | none =>
          simp only [hdata]
          refine records_fail hfree fun output h => ?_
          rw [hdata_of output h] at hdata
          cases hdata
      | some data =>
          simp only [hdata]
          split
          · rename_i hflag
            refine records_fail hfree fun output h => ?_
            rw [((hreleased output).mp h).unflagged] at hflag
            cases hflag
          · rename_i hflag
            have haccepted : Accepted schema response.content data :=
              ⟨⟨parsed, hparse, hdata⟩, by simpa using hflag⟩
            refine ⟨executionRow R version input .COMPLETED none (some response) (some data)
              (answer .now), ⟨answer .randomUUID, .COMPLETED, some data, none⟩, ?_, rfl, rfl, rfl,
              .inl ⟨rfl, data, rfl⟩, fun output => ⟨fun h => ?_, fun h => ?_⟩⟩
            · rw [play_createExecution hfree]
              rfl
            · cases h
              exact (hreleased data).mpr haccepted
            · rw [← hdata, hdata_of output h]

/-- The attempts end with the first success, or when none is left. -/
theorem play_complete (request : AIProviderRequest) (retries : Nat) :
    ∃ n, StopsAfter (fun k => outcomes (calls.length + k)) (retries + 1) n ∧
      (complete request retries : Request _).play (providerWorld outcomes answer) calls D =
        (calls ++ List.replicate n request, D, .ok (outcomes (calls.length + (n - 1)))) := by
  induction retries generalizing calls with
  | zero =>
      exact ⟨1, ⟨Nat.one_pos, le_rfl, fun k hk => by omega, .inl rfl⟩, rfl⟩
  | succ retries ih =>
      cases houtcome : outcomes calls.length with
      | ok response =>
          refine ⟨1, ⟨Nat.one_pos, by omega, fun k hk => by omega, .inr ⟨response, houtcome⟩⟩, ?_⟩
          simp [complete, providerWorld, houtcome]
      | error e =>
          obtain ⟨n, hstops, hplay⟩ := @ih (calls ++ [request])
          have hlen (k : Nat) : (calls ++ [request]).length + k = calls.length + (k + 1) := by
            simp only [List.length_append, List.length_singleton]
            omega
          simp only [hlen] at hstops hplay
          have hpos := hstops.pos
          have hle := hstops.le
          refine ⟨n + 1, ⟨by omega, by omega, fun k hk => ?_, ?_⟩, ?_⟩
          · cases k with
            | zero => exact ⟨e, houtcome⟩
            | succ k => exact hstops.failed k (by omega)
          · rcases hstops.last with rfl | hlast
            · exact .inl rfl
            · exact .inr (by rwa [show n + 1 - 1 = n - 1 + 1 by omega])
          · simp only [complete, Proc.play_ask, providerWorld, houtcome]
            rw [hplay, List.append_assoc, List.singleton_append, ← List.replicate_succ,
              show n + 1 - 1 = n - 1 + 1 by omega]

/-- The request after the attempts makes the record of the whole. -/
theorem Records.bind {α : Type} {calls' calls'' : List AIProviderRequest} {p : Request α} {a : α}
    {next : α → Request AIOrchestratorExecuteResult}
    (hplay : p.play (providerWorld outcomes answer) calls D = (calls', D, .ok a))
    (h : Records outcomes answer D released calls' calls'' (next a)) :
    Records outcomes answer D released calls calls'' (p >>= next) := by
  obtain ⟨row, result, hnext, hrest⟩ := h
  exact ⟨row, result, (Proc.play_bind_ok hplay).trans hnext, hrest⟩

/-- The outcome of the last call decides what is released. -/
theorem releases_iff {n : Nat} (hrisk : detectHighRiskContent input.riskCheckText = false)
    (hstops : StopsAfter outcomes (AI_MAX_TECHNICAL_RETRIES + 1) n) (output : Json JsString) :
    Releases outcomes schema input output ↔
      ∃ response, outcomes (n - 1) = .ok response ∧ Accepted schema response.content output := by
  have hpos := hstops.pos
  have hle := hstops.le
  constructor
  · rintro ⟨-, k, response, hk, hfailed, hok, haccepted⟩
    have hnotLater : ¬ k + 1 < n := by
      intro hlt
      obtain ⟨e, he⟩ := hstops.failed k hlt
      rw [hok] at he
      cases he
    have hnotEarlier : ¬ n - 1 < k := by
      intro hlt
      obtain ⟨e, he⟩ := hfailed _ hlt
      rcases hstops.last with rfl | ⟨response', hlast⟩
      · omega
      · rw [hlast] at he
        cases he
    obtain rfl : k = n - 1 := by omega
    exact ⟨response, hok, haccepted⟩
  · rintro ⟨response, hok, haccepted⟩
    exact ⟨hrisk, n - 1, response, by omega, fun j hj => hstops.failed j (by omega), hok, haccepted⟩

theorem records_execute (hfree : D.aiExecutions.lookup (answer .randomUUID) = none)
    (hversion : findVersion input.promptVersionId D = some (code, version))
    (hschema : AI_TASK_SCHEMAS.lookup code = some schema) :
    ∃ calls, CallsAllowed R outcomes version input calls ∧
      Records outcomes answer D (Releases outcomes schema input) [] calls (execute R input) := by
  unfold execute
  cases hrisk : detectHighRiskContent input.riskCheckText with
  | true =>
      refine ⟨[], ⟨fun _ => rfl, fun h => (by cases hrisk.symm.trans h)⟩,
        Records.bind (Proc.play_select _) ?_⟩
      simp only [hversion, registryEntry, hschema, if_true]
      refine records_fail hfree fun output h => ?_
      cases hrisk.symm.trans h.1
  | false =>
      obtain ⟨n, hstops, hplay⟩ := @play_complete D outcomes answer []
        (providerRequest R version input) AI_MAX_TECHNICAL_RETRIES
      simp only [List.length_nil, Nat.zero_add, List.nil_append] at hstops hplay
      refine ⟨List.replicate n (providerRequest R version input),
        ⟨fun h => (by cases hrisk.symm.trans h), fun _ => ⟨n, rfl, hstops⟩⟩,
        Records.bind (Proc.play_select _) ?_⟩
      simp only [hversion, registryEntry, hschema]
      rw [if_neg Bool.false_ne_true]
      refine Records.bind hplay ?_
      have hiff := @releases_iff input schema outcomes n hrisk hstops
      cases houtcome : outcomes (n - 1) with
      | error e =>
          refine records_fail hfree fun output h => ?_
          obtain ⟨response, hok, -⟩ := (hiff output).mp h
          rw [houtcome] at hok
          cases hok
      | ok response =>
          refine records_handleResponse hfree fun output => (hiff output).trans ?_
          simp [houtcome]

/-- An inherited property passes for a schema, and an execution whose calls all fail is
recorded. -/
theorem records_execute_inherited (hfree : D.aiExecutions.lookup (answer .randomUUID) = none)
    (hversion : findVersion input.promptVersionId D = some (code, version))
    (hentry : registryEntry R code = some .inherited) :
    ∃ calls, Records (fun _ => .error .fault) answer D (fun _ => False) [] calls
      (execute R input) := by
  unfold execute
  cases hrisk : detectHighRiskContent input.riskCheckText with
  | true =>
      refine ⟨[], Records.bind (Proc.play_select _) ?_⟩
      simp only [hversion, hentry, if_true]
      exact records_fail hfree fun _ => id
  | false =>
      obtain ⟨n, -, hplay⟩ := @play_complete D (fun _ => .error .fault)
        answer [] (providerRequest R version input) AI_MAX_TECHNICAL_RETRIES
      refine ⟨List.replicate n (providerRequest R version input),
        Records.bind (Proc.play_select _) ?_⟩
      simp only [hversion, hentry]
      rw [if_neg Bool.false_ne_true]
      exact Records.bind hplay (records_fail hfree fun _ => id)

theorem Records.recorded {calls : List AIProviderRequest}
    (hfree : D.aiExecutions.lookup (answer .randomUUID) = none)
    (hcalls : CallsAllowed R outcomes version input calls)
    (h : Records outcomes answer D (Releases outcomes schema input) [] calls (execute R input)) :
    ∃ D' result, (execute R input).play (providerWorld outcomes answer) [] D =
      (calls, D', .ok result) ∧ Recorded R outcomes version schema input D calls D' result := by
  obtain ⟨row, result, hplay, hid, hstatus, hjson, hcases, houtput⟩ := h
  refine ⟨_, result, hplay, ⟨row, by rwa [hid], by rw [hid], hstatus, hjson⟩, hcalls,
    hcases.imp And.left And.left, ⟨fun hcompleted => ?_, fun ⟨output, hreleased⟩ => ?_⟩, houtput⟩
  · rcases hcases with ⟨-, output, hout⟩ | ⟨hfailed, -⟩
    · exact ⟨output, (houtput output).mp hout⟩
    · rw [hfailed] at hcompleted
      cases hcompleted
  · rcases hcases with ⟨hcompleted, -⟩ | ⟨-, hnone⟩
    · exact hcompleted
    · rw [(houtput output).mpr hreleased] at hnone
      cases hnone

/-! ### When the record is exact -/

/-- The texts for concrete runs, with a property that every object has. -/
def objectRuntime : AiRuntime :=
  { sampleRuntime with
    inherited := fun key =>
      if key = "constructor" then some "function Object() { [native code] }" else none }

end AiOrchestratorService

end TaroTria
