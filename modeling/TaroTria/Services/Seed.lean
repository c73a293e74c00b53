import TaroTria.Prisma.Client

/-!
# The seed of the services

`seedServices` of the seed script, which may be run any number of times, and the
services it stores.
-/

namespace TaroTria

open Transactions

/-- A service of the seed. -/
structure ServiceSeed where
  code : String
  name : String
  description : String
  creditCost : Nat

def BASE_SERVICES : List ServiceSeed :=
  [ { code := "DAILY_CARD", name := "Carta diaria"
      description := "Una carta e interpretación distinta cada día, sin costo."
      creditCost := 0 },
    { code := "TAROT_THREE", name := "Tarot de tres cartas"
      description := "Pasado, presente y tendencia a partir de tu pregunta."
      creditCost := 10 },
    { code := "TAROT_FIVE", name := "Tarot de cinco cartas"
      description :=
        "Lectura de profundidad intermedia: situación, desafío, pasado, futuro y resultado."
      creditCost := 18 },
    { code := "TAROT_TEN", name := "Tarot de diez cartas (Cruz Celta)"
      description := "Lectura profunda y detallada para consultas complejas."
      creditCost := 35 },
    { code := "PALM_BASIC", name := "Lectura de una palma"
      description := "Reporte guiado a partir de la foto de una sola palma."
      creditCost := 15 },
    { code := "PALM_COMPLETE", name := "Lectura de dos palmas"
      description := "Reporte guiado a partir de la foto de ambas palmas."
      creditCost := 25 } ]

def TAROT_THREE_FORM_SCHEMA : FormSchema :=
  .dynamic
    [ { key := "question", label := "¿Qué quieres consultar?", required := true
        minLength := some 5, maxLength := some 500, options := none } ]

namespace Seed

/-- The services whose form the seed stores. -/
def hasForm (code : String) : Bool := ["TAROT_THREE", "TAROT_FIVE", "TAROT_TEN"].contains code

/-- `service.upsert` by its unique code; `id` is for a service that is created. -/
def upsertService (id : Id) (service : ServiceSeed) : TxM Id := do
  let existing ← Db.service.findMany fun _ row => row.code = service.code
  match existing.head? with
  | some (existingId, _) =>
      let _ ← Db.service.update existingId fun row =>
        { row with
          name := service.name
          description := some service.description
          creditCost := service.creditCost }
      return existingId
  | none =>
      let _ ← Db.service.create id
        { code := service.code, name := service.name, description := some service.description
          creditCost := service.creditCost, isActive := true }
      return id

/-- `serviceForm.upsert` of the first version of a form. -/
def upsertForm (serviceId : Id) : TxM ServiceForm :=
  Db.serviceForm.upsert (serviceId, 1) { schema := TAROT_THREE_FORM_SCHEMA, isActive := true }
    fun form => { form with schema := TAROT_THREE_FORM_SCHEMA, isActive := true }

/-- One turn of the loop of `seedServices`. -/
def seedService (service : ServiceSeed) : Request Unit := do
  let id ← Proc.call .randomUUID
  let serviceId ← Proc.transaction (upsertService id service)
  if hasForm service.code then
    let _ ← Proc.transaction (upsertForm serviceId)

def seedServices : Request Unit := BASE_SERVICES.forM seedService

end Seed

end TaroTria
