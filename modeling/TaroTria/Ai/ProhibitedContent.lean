import TaroTria.Ai.AiOrchestrator
import TaroTria.Backend.Calls
import TaroTria.Transactions.Alone

/-!
# Prohibited content in the output of an execution

The output guardrail reads the text of the answer, and the output is the value
of that text. A string that the text spells without escape sequences stands in
the text, so that the guardrail sees it; one that is spelt with them is seen
only by chance. The main result says for which answers no completed execution
stores or returns a prohibited string.
-/

namespace TaroTria

open Transactions
open JsString (unit)
open Json (Schema)

namespace Json

/-- A string literal of a text with an escape sequence in it has the value `s`. -/
def HasEscapedLiteral (text s : JsString) : Prop :=
  ∃ raw post, unit '"' :: (raw ++ unit '"' :: post) <:+ text ∧
    parseChars (raw ++ unit '"' :: post) = some (s, post) ∧ unit '\\' ∈ raw

/-- A string is spelt with an escape sequence, or it is a part of the text. -/
theorem HasLiteral.spelt_escaped_or_plain {text s : JsString} (h : HasLiteral text s) :
    HasEscapedLiteral text s ∨ s <:+: text := by
  obtain ⟨after, post, hafter, hs⟩ := h
  obtain ⟨raw, rfl, hraw⟩ := parseChars_spec hs
  by_cases hslash : unit '\\' ∈ raw
  · exact .inl ⟨raw, post, hafter, hs, hslash⟩
  · obtain rfl := hraw hslash
    refine .inr (List.IsInfix.trans ?_ hafter.isInfix)
    exact ⟨[unit '"'], unit '"' :: post, by simp⟩

end Json

namespace AiOrchestratorService

variable {R : AiRuntime} {input : AIOrchestratorExecuteInput} {code : String}
  {version : PromptVersion} {schema : Schema} {content : JsString} {D : Db}

/-- No string of an output matches a prohibited pattern. -/
def Clean (output : Json JsString) : Prop :=
  ∀ s ∈ output.strings, containsProhibitedContent s = false

/-- The checks of an answer let it through with this output. -/
structure Accepted (schema : Schema) (content : JsString) (output : Json JsString) : Prop where
  parsed : ∃ v, Json.parse content = some v ∧ schema.safeParse v = some output
  unflagged : containsProhibitedContent content = false

/-- No string that an accepted answer spells with an escape sequence is prohibited. -/
def PlainlySpelt (schema : Schema) (content : JsString) : Prop :=
  ∀ output, Accepted schema content output → ∀ s ∈ output.strings,
    Json.HasEscapedLiteral content s → containsProhibitedContent s = false

theorem Accepted.hasLiteral {output : Json JsString} (h : Accepted schema content output)
    {s : JsString} (hs : s ∈ output.strings) : Json.HasLiteral content s := by
  obtain ⟨v, hv, houtput⟩ := h.parsed
  exact Json.hasLiteral_of_parse hv (schema.strings_safeParse_subset houtput hs)

theorem clean_of_plainlySpelt {output : Json JsString} (hplain : PlainlySpelt schema content)
    (h : Accepted schema content output) : Clean output := by
  intro s hs
  rcases (h.hasLiteral hs).spelt_escaped_or_plain with hescaped | hinfix
  · exact hplain output h s hs hescaped
  · cases hc : containsProhibitedContent s with
    | false => rfl
    | true =>
        have hflagged := containsProhibitedContent_of_infix hinfix hc
        rw [h.unflagged] at hflagged
        cases hflagged

/-! ## What an execution leaves -/

/-- A completed execution returns and stores an output that the checks let through. -/
def CompletedAccepted (schema : Schema) (content : JsString)
    (r : Except Err AIOrchestratorExecuteResult) (D : Db) : Prop :=
  ∀ result, r = .ok result → result.status = .COMPLETED →
    ∃ output, Accepted schema content output ∧ result.output = some output ∧
      ∃ row, D.aiExecutions.lookup result.aiExecutionId = some row ∧
        row.outputJson = some output

variable {answers : (q : Query) → Answer q → Prop}

theorem completedAccepted_error (e : Err) (D : Db) :
    CompletedAccepted schema content (.error e) D := fun _ h _ => by cases h

theorem ends_createExecution {P : Except Err Id → Db → Prop} {status : AIExecutionStatus}
    {errorMessage : Option String} {response : Option AIProviderResponse}
    {outputJson : Option (Json JsString)} (herr : ∀ e D', P (.error e) D')
    (hok : ∀ id D' row, D'.aiExecutions.lookup id = some row → row.outputJson = outputJson →
      P (.ok id) D') :
    (createExecution R version input status errorMessage response outputJson).Ends answers P D := by
  unfold createExecution
  refine Proc.Ends.bind (Proc.ends_call (fun e => herr e _) fun id _ => ?_)
  refine Proc.Ends.bind (Proc.ends_call (fun e => herr e _) fun createdAt _ => ?_)
  refine Proc.Ends.bind (Proc.ends_transaction (fun e => herr e _) ?_)
  refine Db.aiExecution.wp_create fun _ => ⟨?_, fun e => herr e _⟩
  refine hok id _ (executionRow R version input status errorMessage response outputJson createdAt)
    ?_ rfl
  simp [RowWrite.apply]

theorem ends_fail {recorded message : String} {response : Option AIProviderResponse} :
    (fail R version input recorded response message).Ends answers
      (CompletedAccepted schema content) D := by
  unfold fail
  refine Proc.Ends.bind (ends_createExecution completedAccepted_error fun id D' _ _ _ => ?_)
  rintro _ ⟨⟩ ⟨⟩

theorem ends_complete {P : Except Err (Except Err AIProviderResponse) → Db → Prop}
    {request : AIProviderRequest} (herr : ∀ e, P (.error e) D) (hfail : ∀ e, P (.ok (.error e)) D)
    (hok : ∀ response, answers (.complete request) response → P (.ok (.ok response)) D)
    (retries : Nat) : (complete request retries).Ends answers P D := by
  induction retries with
  | zero => exact ⟨herr _, hfail, hok⟩
  | succ retries ih => exact ⟨herr _, fun _ => ih, hok⟩

theorem ends_handleResponse {response : AIProviderResponse} :
    (handleResponse R version input (.schema schema) response).Ends answers
      (CompletedAccepted schema response.content) D := by
  unfold handleResponse
  cases hparse : Json.parse response.content with
  | none => exact ends_fail
  | some parsed =>
      cases hdata : schema.safeParse parsed with
      | none => simpa only [hdata] using ends_fail
      | some data =>
          simp only [hdata]
          split
          · exact ends_fail
          · rename_i hflag
            refine Proc.Ends.bind (ends_createExecution completedAccepted_error
              fun id D' row hrow hout => ?_)
            rintro _ ⟨⟩ -
            exact ⟨data, ⟨⟨parsed, hparse, hdata⟩, by simpa using hflag⟩, rfl, row, hrow, hout⟩

/-- A completed execution has passed every check of its answer. -/
theorem ends_execute (hanswers : ∀ request response, answers (.complete request) response →
      response.content = content)
    (hversion : findVersion input.promptVersionId D = some (code, version))
    (hschema : AI_TASK_SCHEMAS.lookup code = some schema) :
    (execute R input).Ends answers (CompletedAccepted schema content) D := by
  unfold execute
  refine Proc.Ends.bind (Proc.ends_select (fun e => completedAccepted_error e D) ?_)
  simp only [hversion, registryEntry, hschema]
  split
  · exact ends_fail
  · refine Proc.Ends.bind (ends_complete (fun e => completedAccepted_error e D)
      (fun e => ends_fail) (fun response hresponse => ?_) _)
    rw [← hanswers _ _ hresponse]
    exact ends_handleResponse

/-! ## An accepted answer is released -/

theorem exec_createExecution {α : Type} {env : Proc.Surroundings Answer} (henv : env.Healthy)
    {n : Nat} {status : AIExecutionStatus} {errorMessage : Option String}
    {response : Option AIProviderResponse} {outputJson : Option (Json JsString)}
    {next : Id → Request α} (hfree : D.aiExecutions.lookup (env.answer n .randomUUID) = none) :
    (createExecution R version input status errorMessage response outputJson >>= next).exec env n D =
      (next (env.answer n .randomUUID)).exec env (n + 3)
        (view [.aiExecution (env.answer n .randomUUID) (some (executionRow R version input status
          errorMessage response outputJson (env.answer (n + 1) .now)))] D) := by
  unfold createExecution
  rw [bind_assoc, Proc.exec_call (henv n), bind_assoc, Proc.exec_call (henv (n + 1)), bind_assoc,
    Proc.exec_transaction_ok (henv (n + 2)) (Db.aiExecution.run_create (by simpa using hfree))]
  rfl

theorem exec_complete {α : Type} {env : Proc.Surroundings Answer} {n : Nat}
    (hfate : env.fate n = some .done) {request : AIProviderRequest} (retries : Nat)
    {next : Except Err AIProviderResponse → Request α} :
    (complete request retries >>= next).exec env n D =
      (next (.ok (env.answer n (.complete request)))).exec env (n + 1) D := by
  cases retries with
  | zero => simp [complete, Proc.exec, hfate, Fate.reply]
  | succ retries => simp [complete, Proc.exec, hfate, Fate.reply]

/-- With nothing in its way, an accepted answer becomes the output. -/
theorem exec_execute_accepted {env : Proc.Surroundings Answer} (henv : env.Healthy)
    {output : Json JsString} (hversion : findVersion input.promptVersionId D = some (code, version))
    (hschema : AI_TASK_SCHEMAS.lookup code = some schema)
    (hrisk : detectHighRiskContent input.riskCheckText = false)
    (hcontent : ∀ request, (env.answer 1 (.complete request)).content = content)
    (haccepted : Accepted schema content output)
    (hfree : D.aiExecutions.lookup (env.answer 2 .randomUUID) = none) :
    ∃ D', (execute R input).exec env 0 D =
      (D', .ok ⟨env.answer 2 .randomUUID, .COMPLETED, some output, none⟩) := by
  obtain ⟨⟨parsed, hparse, hdata⟩, hflag⟩ := haccepted
  unfold execute
  rw [Proc.exec_select (henv 0)]
  simp only [hversion, registryEntry, hschema, hrisk]
  rw [if_neg Bool.false_ne_true, exec_complete (henv 1)]
  simp only [handleResponse, hcontent, hparse, hdata, hflag]
  rw [if_neg Bool.false_ne_true, exec_createExecution henv hfree]
  exact ⟨_, rfl⟩

/-! ## Which answers deliver nothing prohibited -/

/-- An execution returns or stores the output. -/
def Delivers (result : AIOrchestratorExecuteResult) (D : Db) (output : Json JsString) : Prop :=
  result.output = some output ∨
    ∃ row, D.aiExecutions.lookup result.aiExecutionId = some row ∧ row.outputJson = some output

/-- Whatever the prompt version, the input and the failures, a completed execution of the
task delivers no prohibited string when the provider answers `content`. -/
def DeliversClean (R : AiRuntime) (code : String) (content : JsString) : Prop :=
  ∀ (env : Proc.Surroundings Answer) (input : AIOrchestratorExecuteInput)
    (version : PromptVersion) (D D' : Db) (result : AIOrchestratorExecuteResult),
    (∀ n request, (env.answer n (.complete request)).content = content) →
    findVersion input.promptVersionId D = some (code, version) →
    (execute R input).exec env 0 D = (D', .ok result) → result.status = .COMPLETED →
    ∀ output, Delivers result D' output → Clean output

/-- A surroundings where nothing fails and the provider answers `content`. -/
def answering (content : JsString) : Proc.Surroundings Answer where
  fate _ := some .done
  answer _ q := match q with
    | .complete _ => ⟨content, "gpt"⟩
    | q => sampleAnswer .COMPLETED q

def sampleVersion : PromptVersion :=
  { id := "v1", content := ⟨"", "", "gpt", none, none, []⟩, status := .PUBLISHED
    authorId := none, publishedAt := none }

/-- A database with one prompt version. -/
def onePrompt (code : String) : Db :=
  { Db.empty with
    promptVersions := (∅ : Table (String × Nat) PromptVersion).write (code, 1) (some sampleVersion) }

def sampleInput : AIOrchestratorExecuteInput :=
  { promptVersionId := "v1", readingId := none, promptVariables := [], riskCheckText := ""
    images := [] }

theorem DeliversClean.clean {output : Json JsString} (h : DeliversClean R code content)
    (hschema : AI_TASK_SCHEMAS.lookup code = some schema)
    (haccepted : Accepted schema content output) : Clean output := by
  obtain ⟨D', hexec⟩ := @exec_execute_accepted R sampleInput code sampleVersion schema content
    (onePrompt code) (answering content) (fun _ => rfl) output rfl hschema (by decide)
    (fun _ => rfl) haccepted rfl
  exact h _ _ _ _ _ _ (fun _ _ => rfl) rfl hexec rfl output (.inl rfl)

/-- A completed execution delivers nothing prohibited, for every prompt, input and failure, if
and only if no accepted string that the answer spells with an escape sequence is prohibited. -/
theorem deliversClean_iff (R : AiRuntime) {code : String} {schema : Schema}
    (hschema : AI_TASK_SCHEMAS.lookup code = some schema) (content : JsString) :
    DeliversClean R code content ↔ PlainlySpelt schema content := by
  constructor
  · intro h output haccepted s hs _
    exact h.clean hschema haccepted s hs
  · intro hplain env input version D D' result hcontent hversion hexec hcompleted output hdelivers
    let answers : (q : Query) → Answer q → Prop := fun q a => match q, a with
      | .complete _, response => response.content = content
      | _, _ => True
    have hanswers : ∀ request response, answers (.complete request) response →
        response.content = content := fun _ _ h => h
    have hends := ends_execute (R := R) hanswers hversion hschema
    have hleft := hends.exec env (fun n q => by
      cases q with
      | complete request => exact hcontent n request
      | _ => trivial) 0
    rw [hexec] at hleft
    obtain ⟨output', haccepted, hreturned, row, hrow, hstored⟩ := hleft result rfl hcompleted
    have hclean := clean_of_plainlySpelt hplain haccepted
    rcases hdelivers with hout | ⟨row', hrow', hout⟩
    · obtain rfl := Option.some.inj (hreturned.symm.trans hout)
      exact hclean
    · obtain rfl := Option.some.inj (hrow.symm.trans hrow')
      obtain rfl := Option.some.inj (hstored.symm.trans hout)
      exact hclean

/-- An answer without backslashes delivers nothing prohibited. -/
theorem plainlySpelt_of_notMem (h : unit '\\' ∉ content) : PlainlySpelt schema content := by
  rintro output - s - ⟨raw, post, hsuffix, -, hslash⟩
  have hmem : unit '\\' ∈ unit '"' :: (raw ++ unit '"' :: post) := by simp [hslash]
  exact absurd (hsuffix.subset hmem) h

/-- The texts of a client, of `zod` and of the language, for concrete runs. -/
def sampleRuntime : AiRuntime where
  providerName := "openai"
  errorText _ := "Request was aborted."
  zodText _ _ := "Invalid input"
  inherited _ := none

def plainAnswer : JsString :=
  JsString.ofString "\x7b\"isLegiblePalm\":true,\"reason\":\"La palma se ve completa.\"\x7d"

theorem deliversClean_plainAnswer :
    DeliversClean sampleRuntime PALM_IMAGE_LEGIBILITY_TASK plainAnswer :=
  (deliversClean_iff sampleRuntime rfl plainAnswer).mpr (plainlySpelt_of_notMem (by decide))

/-- A diagnosis whose accented letter is spelt `\u00e1`. -/
def escapedDiagnosis : JsString :=
  JsString.ofString "\x7b\"isLegiblePalm\":true,\"reason\":\"tienes c\\u00e1ncer\"\x7d"

/-- What the diagnosis reads as. -/
def readDiagnosis : Json JsString :=
  .obj [(JsString.ofString "isLegiblePalm", .bool true),
    (JsString.ofString "reason", .str (JsString.ofString "tienes cáncer"))]

theorem escapedDiagnosis_accepted :
    Accepted palmImageLegibilitySchema escapedDiagnosis readDiagnosis where
  parsed := ⟨readDiagnosis, by decide +kernel, by decide +kernel⟩
  unflagged := by decide +kernel

/-- The guardrail lets the diagnosis through, and the output contains it. -/
theorem not_deliversClean_escapedDiagnosis :
    ¬ DeliversClean sampleRuntime PALM_IMAGE_LEGIBILITY_TASK escapedDiagnosis := by
  intro h
  have hclean := h.clean rfl escapedDiagnosis_accepted (JsString.ofString "tienes cáncer")
    (by decide)
  revert hclean
  decide +kernel

end AiOrchestratorService

end TaroTria
