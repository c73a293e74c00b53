import TaroTria.Ai.PromptsService
import TaroTria.Ai.TaskRegistry

/-!
# The seed of the prompts

`seedPrompts` of the seed script, which may be run any number of times, and the
prompts it stores.

## Implementation notes

The texts of a prompt and its output schema are a parameter.
-/

namespace TaroTria

open Transactions

/-- A prompt of the seed. -/
structure PromptSeed where
  code : String
  name : String
  version : Nat
  content : PromptVersionContent

/-- The long texts of a prompt of the seed. -/
structure PromptTexts where
  systemPrompt : String
  userPromptTemplate : String
  outputSchema : List (String × Json String)

section Seeds

variable (texts : String → PromptTexts)

/-- A prompt of the seed; its temperature is counted in tenths. -/
def promptSeed (code name : String) (tenths : Int) (maxOutputTokens : Nat) : PromptSeed where
  code := code
  name := name
  version := 1
  content :=
    { systemPrompt := (texts code).systemPrompt
      userPromptTemplate := (texts code).userPromptTemplate
      model := "gpt-4o-mini"
      temperature := some ⟨tenths, -1⟩
      maxOutputTokens := some maxOutputTokens
      outputSchema := (texts code).outputSchema }

def TAROT_THREE_INTERPRETATION_PROMPT : PromptSeed :=
  promptSeed texts "TAROT_THREE_INTERPRETATION" "Interpretación de tarot de tres cartas" 7 1200

def TAROT_FIVE_INTERPRETATION_PROMPT : PromptSeed :=
  promptSeed texts "TAROT_FIVE_INTERPRETATION" "Interpretación de tarot de cinco cartas" 7 1600

def TAROT_TEN_INTERPRETATION_PROMPT : PromptSeed :=
  promptSeed texts "TAROT_TEN_INTERPRETATION" "Interpretación de tarot de diez cartas (Cruz Celta)"
    7 2400

def PALM_READING_INTERPRETATION_PROMPT : PromptSeed :=
  promptSeed texts "PALM_READING_INTERPRETATION" "Interpretación de lectura de manos" 7 1200

def PALM_IMAGE_LEGIBILITY_PROMPT : PromptSeed :=
  promptSeed texts "PALM_IMAGE_LEGIBILITY_CHECK"
    "Verificación técnica de legibilidad de imagen de palma" 2 150

end Seeds

namespace Seed

/-- The version of a prompt as the seed creates it. -/
def seededVersion (promptSeed : PromptSeed) (id : Id) (now : Time) : PromptVersion :=
  { id, content := promptSeed.content, status := .PUBLISHED, authorId := none
    publishedAt := some now }

/-- The second half of `seedPrompt`. -/
def seedVersion (promptSeed : PromptSeed) : Request Unit := do
  let existingVersion ←
    Proc.transaction (Db.promptVersion.findUnique (promptSeed.code, promptSeed.version))
  if existingVersion.isNone then
    let id ← Proc.call .randomUUID
    let now ← Proc.call .now
    let _ ← Proc.transaction (Db.promptVersion.create (promptSeed.code, promptSeed.version)
      (seededVersion promptSeed id now))

def seedPrompt (promptSeed : PromptSeed) : Request Unit := do
  let _ ← Proc.transaction (Db.prompt.upsert promptSeed.code { name := promptSeed.name }
    fun prompt => { prompt with name := promptSeed.name })
  seedVersion promptSeed

/-- The prompts in the order of `seedPrompts`. -/
def promptSeeds (texts : String → PromptTexts) : List PromptSeed :=
  [TAROT_THREE_INTERPRETATION_PROMPT texts, TAROT_FIVE_INTERPRETATION_PROMPT texts,
    TAROT_TEN_INTERPRETATION_PROMPT texts, PALM_IMAGE_LEGIBILITY_PROMPT texts,
    PALM_READING_INTERPRETATION_PROMPT texts]

def seedPrompts (texts : String → PromptTexts) : Request Unit :=
  (promptSeeds texts).forM seedPrompt

end Seed

end TaroTria
