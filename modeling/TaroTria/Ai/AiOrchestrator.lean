import TaroTria.Ai.Guardrails
import TaroTria.Ai.TaskRegistry
import TaroTria.Json.Parse
import TaroTria.Prisma.Client
import TaroTria.Transactions.Atomic

/-!
# The orchestrator of the AI tasks

`AiOrchestratorService.execute`: the guardrail on the input, up to three calls
of the provider, the checks of its answer in their order, and the execution
that records the outcome.

## Implementation notes

The texts that come from the provider's client, from `zod` and from the
prototype of every object are parameters. The tokens, the latency and the cost
of an execution are left out.
-/

namespace TaroTria

open Transactions
open Json (Schema)

def AI_REQUEST_TIMEOUT_MS : Nat := 30000

def AI_MAX_TECHNICAL_RETRIES : Nat := 2

/-- What the orchestrator uses of the provider, of `zod` and of the language:
`inherited` is the text of a property that every object has. -/
structure AiRuntime where
  providerName : String
  errorText : Err → String
  zodText : Schema → Json JsString → String
  inherited : String → Option String

namespace AiOrchestratorService

def RISK_GUARDRAIL_MESSAGE : String :=
  "Tu consulta menciona contenido sensible. Por tu bienestar, te invitamos a buscar apoyo profesional; esta herramienta no está diseñada para ese propósito."

def PROVIDER_FAILURE_MESSAGE : String :=
  "No fue posible generar la interpretación en este momento."

def QUALITY_FAILURE_MESSAGE : String :=
  "La respuesta generada no cumplió los criterios de calidad y seguridad requeridos."

/-- The class `\w`. -/
def isWordChar (c : Char) : Bool := c.isAlphanum || c = '_'

/-- The name of a placeholder `\{\{(\w+)\}\}` at the start of a template. -/
def placeholder? : List Char → Option (List Char)
  | '\x7b' :: '\x7b' :: rest =>
      let name := rest.takeWhile isWordChar
      if name ≠ [] ∧ ['\x7d', '\x7d'].isPrefixOf (rest.dropWhile isWordChar) then some name
      else none
  | _ => none

/-- A template with its placeholders replaced, from a position on that `skip` more
characters are not copied to the result. -/
def replacePlaceholders (value : String → String) : (skip : Nat) → List Char → List Char
  | _, [] => []
  | skip + 1, _ :: rest => replacePlaceholders value skip rest
  | 0, c :: rest =>
      match placeholder? (c :: rest) with
      | some name =>
          (value (String.ofList name)).toList ++
            replacePlaceholders value (name.length + 3) rest
      | none => c :: replacePlaceholders value 0 rest

variable (R : AiRuntime)

def interpolate (template : String) (promptVariables : List (String × String)) : String :=
  let value key := (promptVariables.lookup key <|> R.inherited key).getD ""
  String.ofList (replacePlaceholders value 0 template.toList)

/-- A prompt version by its id, with the code of its prompt. -/
def findVersion (promptVersionId : Id) (D : Db) : Option (String × PromptVersion) :=
  (D.promptVersions.findMany fun _ row => row.id = promptVersionId).head?.map fun e =>
    (e.1.1, e.2)

/-- What `AI_TASK_SCHEMAS[code]` finds: a schema, or a property that every object has. -/
inductive RegistryEntry
  | schema (s : Schema)
  | inherited

def registryEntry (code : String) : Option RegistryEntry :=
  match AI_TASK_SCHEMAS.lookup code with
  | some s => some (.schema s)
  | none => (R.inherited code).map fun _ => .inherited

/-- The row of an execution. -/
def executionRow (promptVersion : PromptVersion) (input : AIOrchestratorExecuteInput)
    (status : AIExecutionStatus) (errorMessage : Option String)
    (response : Option AIProviderResponse) (outputJson : Option (Json JsString))
    (createdAt : Time) : AIExecution :=
  { promptVersionId := promptVersion.id
    readingId := input.readingId
    provider := R.providerName
    model := (response.map (·.model)).getD promptVersion.content.model
    status
    inputSummary := input.promptVariables
    outputJson
    errorMessage
    createdAt }

def createExecution (promptVersion : PromptVersion) (input : AIOrchestratorExecuteInput)
    (status : AIExecutionStatus) (errorMessage : Option String)
    (response : Option AIProviderResponse) (outputJson : Option (Json JsString)) :
    Request Id := do
  let id ← Proc.call .randomUUID
  let createdAt ← Proc.call .now
  let _ ← Proc.transaction <| Db.aiExecution.create id
    (executionRow R promptVersion input status errorMessage response outputJson createdAt)
  return id

/-- The ways out without a result: what is recorded, and what the user is told. -/
def fail (promptVersion : PromptVersion) (input : AIOrchestratorExecuteInput)
    (recorded : String) (response : Option AIProviderResponse) (message : String) :
    Request AIOrchestratorExecuteResult := do
  let id ← createExecution R promptVersion input .FAILED (some recorded) response none
  return { aiExecutionId := id, status := .FAILED, output := none, errorMessage := some message }

/-- The last answer of the provider, which is asked again after a failure. -/
def complete (request : AIProviderRequest) : (retries : Nat) →
    Request (Except Err AIProviderResponse)
  | 0 => .ask (.complete request) .ret
  | retries + 1 => .ask (.complete request) fun
      | .ok response => .ret (.ok response)
      | .error _ => complete request retries

def handleResponse (promptVersion : PromptVersion) (input : AIOrchestratorExecuteInput)
    (entry : RegistryEntry) (response : AIProviderResponse) :
    Request AIOrchestratorExecuteResult := do
  let reject recorded :=
    fail R promptVersion input recorded (some response) QUALITY_FAILURE_MESSAGE
  let some parsed := Json.parse response.content
    | reject "invalid_json_output"
  -- An inherited property has no `safeParse`.
  let .schema schema := entry
    | throw Err.fault
  let some data := schema.safeParse parsed
    | reject ("schema_validation_failed: " ++ R.zodText schema parsed)
  if containsProhibitedContent response.content then
    reject "blocked_by_output_guardrail"
  else
    let id ← createExecution R promptVersion input .COMPLETED none (some response) (some data)
    return { aiExecutionId := id, status := .COMPLETED, output := some data, errorMessage := none }

def execute (input : AIOrchestratorExecuteInput) : Request AIOrchestratorExecuteResult := do
  let some (code, promptVersion) ←
      Proc.transaction (Tx.select (findVersion input.promptVersionId))
    | throw (Err.notFound
        ("No existe una versión de prompt con id \"" ++ input.promptVersionId ++ "\"."))
  let some entry := registryEntry R code
    | throw (Err.notFound
        ("No hay un validador de salida registrado para la tarea \"" ++ code ++ "\"."))
  if detectHighRiskContent input.riskCheckText then
    fail R promptVersion input "blocked_by_risk_guardrail" none RISK_GUARDRAIL_MESSAGE
  else
    let response ← complete
      { systemPrompt := promptVersion.content.systemPrompt
        userPrompt := interpolate R promptVersion.content.userPromptTemplate input.promptVariables
        model := promptVersion.content.model
        temperature := promptVersion.content.temperature
        maxOutputTokens := promptVersion.content.maxOutputTokens
        timeoutMs := AI_REQUEST_TIMEOUT_MS
        images := input.images } AI_MAX_TECHNICAL_RETRIES
    match response with
    | .error e => fail R promptVersion input (R.errorText e) none PROVIDER_FAILURE_MESSAGE
    | .ok response => handleResponse R promptVersion input entry response

end AiOrchestratorService

end TaroTria
