import TaroTria.Prisma.Client

/-!
# The services and their forms

The catalogue of services and the publication of their forms, as in
`services.service.ts`.

## Implementation notes

The catalogue returns a service with its active form of the highest version.
The dates of a service are left out.
-/

namespace TaroTria

open Transactions

def SERVICES_LIST_CACHE_KEY : String := "services:list"

structure PublicService where
  code : String
  name : String
  description : Option String
  creditCost : Nat
  formSchema : Option FormSchema
  deriving DecidableEq, Repr

structure AdminService where
  id : Id
  code : String
  name : String
  description : Option String
  creditCost : Nat
  isActive : Bool
  activeFormVersion : Option Nat
  deriving DecidableEq, Repr

structure ServiceWithActiveForm where
  id : Id
  service : Service
  form : Option (Nat × ServiceForm)

def toPublicService (row : ServiceWithActiveForm) : PublicService where
  code := row.service.code
  name := row.service.name
  description := row.service.description
  creditCost := row.service.creditCost
  formSchema := row.form.map fun form => form.2.schema

def toAdminService (row : ServiceWithActiveForm) : AdminService where
  id := row.id
  code := row.service.code
  name := row.service.name
  description := row.service.description
  creditCost := row.service.creditCost
  isActive := row.service.isActive
  activeFormVersion := row.form.map Prod.fst

namespace ServicesService

def serviceNotFound : Err := .notFound "Servicio no encontrado."

/-- An active form of a service. -/
def isActiveForm (serviceId : Id) (key : Id × Nat) (form : ServiceForm) : Bool :=
  key.1 = serviceId && form.isActive

/-- The form that `ACTIVE_FORM_INCLUDE` takes, with its version. -/
def activeForm (serviceId : Id) (D : Db) : Option (Nat × ServiceForm) :=
  (D.serviceForms.last (isActiveForm serviceId) Prod.snd).map fun row => (row.1.2, row.2)

/-- `findFirst({ where: { code, isActive: true }, include: ACTIVE_FORM_INCLUDE })`. -/
def findActiveService (code : String) : TxM (Option ServiceWithActiveForm) :=
  Tx.select fun D =>
    ((D.services.findMany fun _ service => service.code = code && service.isActive).head?).map
      fun (id, service) => { id, service, form := activeForm id D }

def findActiveByCode (code : String) : Request PublicService := do
  let some service ← Proc.transaction (findActiveService code)
    | throw serviceNotFound
  return toPublicService service

/-- `serviceForm.findFirst({ where: { serviceId }, orderBy: { version: 'desc' } })`. -/
def findLastForm (serviceId : Id) : TxM (Option ((Id × Nat) × ServiceForm)) :=
  Tx.select fun D => D.serviceForms.last (fun key _ => key.1 = serviceId) Prod.snd

/-- The version that follows the last form found. -/
def nextVersion (lastForm : Option ((Id × Nat) × ServiceForm)) : Nat :=
  ((lastForm.map fun row => row.1.2).getD 0) + 1

def deactivate (form : ServiceForm) : ServiceForm := { form with isActive := false }

/-- `service.findUniqueOrThrow` with `ACTIVE_FORM_INCLUDE`. -/
def findWithActiveForm (id : Id) : TxM ServiceWithActiveForm :=
  Tx.selectOrThrow fun D => (D.services.lookup id).map fun service =>
    { id, service, form := activeForm id D }

/-- The transaction of `publishForm`. -/
def publishFormTx (serviceId : Id) (version : Nat) (schema : FormSchema) :
    TxM ServiceWithActiveForm := do
  Db.serviceForm.updateAll (isActiveForm serviceId) deactivate
  let _ ← Db.serviceForm.create (serviceId, version) { schema, isActive := true }
  findWithActiveForm serviceId

def publishForm (serviceId : Id) (schema : FormSchema) : Request AdminService := do
  let some _ ← Proc.transaction (Db.service.findUnique serviceId)
    | throw serviceNotFound
  let lastForm ← Proc.transaction (findLastForm serviceId)
  let updated ← Proc.transaction (publishFormTx serviceId (nextVersion lastForm) schema)
  let _ ← Proc.call (Query.cacheDel SERVICES_LIST_CACHE_KEY)
  return toAdminService updated

end ServicesService

end TaroTria
