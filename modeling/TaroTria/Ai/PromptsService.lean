import TaroTria.Prisma.Client
import TaroTria.Transactions.Atomic

/-!
# The prompts service

The prompts of the AI tasks and their versions, as in `prompts.service.ts`.

## Implementation notes

A prompt is named by its `code`, and a version of it by the number of the
version, which stands for its id in the queries of this service.
-/

namespace TaroTria

open Transactions

/-- A prompt with its versions by decreasing number. -/
structure AdminPrompt where
  code : String
  name : String
  versions : List (Nat × PromptVersion)
  deriving DecidableEq, Repr

namespace PromptsService

def promptNotFound : Err := .notFound "Prompt no encontrado."

/-- `prompt.findUnique` with its versions in descending order. -/
def findWithVersions (code : String) : TxM (Option AdminPrompt) :=
  Tx.select fun D => (D.prompts.lookup code).map fun prompt =>
    { code, name := prompt.name
      versions := ((D.promptVersions.findMany fun key _ => key.1 = code).map fun e =>
        (e.1.2, e.2)).mergeSort fun a b => b.1 ≤ a.1 }

def findOne (code : String) : Request AdminPrompt := do
  let some prompt ← Proc.transaction (findWithVersions code)
    | throw promptNotFound
  return prompt

/-- A version as it is created. -/
def draft (id : Id) (dto : PromptVersionContent) (authorId : Id) : PromptVersion :=
  { id, content := dto, status := .DRAFT, authorId := some authorId, publishedAt := none }

def create (code name : String) (dto : PromptVersionContent) (authorId : Id) :
    Request AdminPrompt := do
  let existing ← Proc.transaction (Db.prompt.findUnique code)
  if existing.isSome then
    throw (Err.conflict "Ya existe un prompt con ese code.")
  let _ ← Proc.transaction (Db.prompt.create code { name })
  let id ← Proc.call .randomUUID
  let _ ← Proc.transaction (Db.promptVersion.create (code, 1) (draft id dto authorId))
  findOne code

/-- `promptVersion.findFirst({ where: { promptId }, orderBy: { version: 'desc' } })`. -/
def findLastVersion (code : String) : TxM (Option ((String × Nat) × PromptVersion)) :=
  Tx.select fun D => D.promptVersions.last (fun key _ => key.1 = code) Prod.snd

def createVersion (code : String) (dto : PromptVersionContent) (authorId : Id) :
    Request AdminPrompt := do
  let some _ ← Proc.transaction (Db.prompt.findUnique code)
    | throw promptNotFound
  let lastVersion ← Proc.transaction (findLastVersion code)
  let nextVersion := ((lastVersion.map fun e => e.1.2).getD 0) + 1
  let id ← Proc.call .randomUUID
  let _ ← Proc.transaction
    (Db.promptVersion.create (code, nextVersion) (draft id dto authorId))
  findOne code

/-- The last draft of a prompt. -/
def findLastDraft (code : String) : TxM (Option ((String × Nat) × PromptVersion)) :=
  Tx.select fun D =>
    D.promptVersions.last (fun key row => key.1 = code && row.status = .DRAFT) Prod.snd

/-- A published version of a prompt. -/
def isPublished (code : String) (key : String × Nat) (row : PromptVersion) : Bool :=
  key.1 = code && row.status = .PUBLISHED

def archive (row : PromptVersion) : PromptVersion := { row with status := .ARCHIVED }

def release (now : Time) (row : PromptVersion) : PromptVersion :=
  { row with status := .PUBLISHED, publishedAt := some now }

/-- The transaction of `publish`. -/
def publishTx (code : String) (version : Nat) (now : Time) : TxM PromptVersion := do
  Db.promptVersion.updateAll (isPublished code) archive
  Db.promptVersion.update (code, version) (release now)

def publish (code : String) : Request AdminPrompt := do
  let some (key, _) ← Proc.transaction (findLastDraft code)
    | throw (Err.badRequest "No hay una versión en borrador para publicar.")
  let now ← Proc.call .now
  let _ ← Proc.transaction (publishTx code key.2 now)
  findOne code

/-- The published version of a prompt that a task runs. -/
def lastPublished (code : String) (D : Db) : Option ((String × Nat) × PromptVersion) :=
  D.promptVersions.last (isPublished code) Prod.snd

theorem lastPublished_spec {code : String} {D : Db} {key : String × Nat} {version : PromptVersion}
    (h : lastPublished code D = some (key, version)) :
    ∃ n, key = (code, n) ∧ D.promptVersions.lookup (code, n) = some version ∧
      version.status = .PUBLISHED := by
  obtain ⟨code', n⟩ := key
  obtain ⟨hlookup, hpublished, -⟩ := Table.last_spec h
  obtain ⟨rfl, hstatus⟩ : code' = code ∧ version.status = .PUBLISHED := by
    simpa [isPublished] using hpublished
  exact ⟨n, rfl, hlookup, hstatus⟩

def getPublishedVersionId (code : String) : Request Id := do
  let some _ ← Proc.transaction (Db.prompt.findUnique code)
    | throw (Err.notFound ("No existe un prompt con code \"" ++ code ++ "\"."))
  let some (_, version) ← Proc.transaction (Tx.select (lastPublished code))
    | throw (Err.notFound ("El prompt \"" ++ code ++ "\" no tiene una versión publicada."))
  return version.id

/-- The version that a test runs: the one that is asked for, or the last one. -/
def resolveVersionForTest (code : String) (explicitVersionId : Option Id) : Request Id := do
  match explicitVersionId.filter (· ≠ "") with
  | some id =>
      let some (_, version) ← Proc.transaction (Tx.select fun D =>
          (D.promptVersions.findMany fun key row => key.1 = code && row.id = id).head?)
        | throw (Err.notFound "La versión indicada no pertenece a este prompt.")
      return version.id
  | none =>
      let some (_, version) ← Proc.transaction (findLastVersion code)
        | throw (Err.notFound "Este prompt todavía no tiene versiones.")
      return version.id

end PromptsService

end TaroTria
