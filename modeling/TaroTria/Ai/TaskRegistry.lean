import TaroTria.Json.Schema

/-!
# The output schemas of the AI tasks

The validators under `tasks/` and the registry `AI_TASK_SCHEMAS` that finds the
one of a prompt by its code.
-/

namespace TaroTria

open Json (Schema)

namespace TaskSchema

/-- `z.string().min(1)`. -/
def text : Schema := .string 1

/-- `z.array(z.string().min(1)).min(1)`. -/
def texts : Schema := .array text 1 none

/-- An object by the names of its properties. -/
def object (shape : List (String × Schema)) : Schema :=
  .object (shape.map fun e => (JsString.ofAscii e.1.toList, e.2))

/-- The three tarot interpretations, which differ in the number of cards. -/
def tarot (min : Nat) (max : Option Nat) : Schema :=
  object
    [("title", text), ("summary", text),
      ("cards", .array (object [("position", text), ("cardCode", text), ("interpretation", text)])
        min max),
      ("insights", texts), ("suggestedActions", texts), ("closingReflection", text),
      ("disclaimer", text)]

end TaskSchema

open TaskSchema

def TAROT_INTERPRETATION_TASK : String := "TAROT_THREE_INTERPRETATION"

def tarotInterpretationSchema : Schema := tarot 1 none

def TAROT_FIVE_INTERPRETATION_TASK : String := "TAROT_FIVE_INTERPRETATION"

def tarotFiveInterpretationSchema : Schema := tarot 5 (some 5)

def TAROT_TEN_INTERPRETATION_TASK : String := "TAROT_TEN_INTERPRETATION"

def tarotTenInterpretationSchema : Schema := tarot 10 (some 10)

def PALM_IMAGE_LEGIBILITY_TASK : String := "PALM_IMAGE_LEGIBILITY_CHECK"

def palmImageLegibilitySchema : Schema :=
  object [("isLegiblePalm", .boolean), ("reason", text)]

def PALM_READING_INTERPRETATION_TASK : String := "PALM_READING_INTERPRETATION"

def palmReadingInterpretationSchema : Schema :=
  object
    [("title", text), ("summary", text),
      ("observations", object [("heartLine", text), ("headLine", text), ("lifeLine", text),
        ("generalShape", text)]),
      ("strengths", texts), ("growthAreas", texts), ("reflection", text), ("disclaimer", text)]

def AI_TASK_SCHEMAS : List (String × Schema) :=
  [(TAROT_INTERPRETATION_TASK, tarotInterpretationSchema),
    (TAROT_FIVE_INTERPRETATION_TASK, tarotFiveInterpretationSchema),
    (TAROT_TEN_INTERPRETATION_TASK, tarotTenInterpretationSchema),
    (PALM_IMAGE_LEGIBILITY_TASK, palmImageLegibilitySchema),
    (PALM_READING_INTERPRETATION_TASK, palmReadingInterpretationSchema)]

end TaroTria
