import TaroTria.Readings.ReadingsService

/-!
# The answers of a reading

`updateInputs` of the readings service and the validator of the answers, as in
`reading-form.validator.ts`.

## Implementation notes

The string values of an answer are measured as JavaScript does, in UTF-16 code
units. A field of the form without `required` is one that is not required.
-/

namespace TaroTria

open Transactions

/-- `value.length`. -/
def utf16Length (value : String) : Nat :=
  (value.toList.map fun c => if c.val < 0x10000 then 1 else 2).sum

namespace ReadingsService

abbrev ReadingAnswers := List (String × Json String)

/-- `value === undefined || value === null || value === ''`. A missing answer is
undefined unless every object inherits its name. -/
def isEmptyAnswer (key : String) : Option (Json String) → Bool
  | none => !OBJECT_PROTOTYPE_NAMES.contains key
  | some .null => true
  | some (.str value) => value == ""
  | some _ => false

/-- The checks that only a string has to pass. -/
def validateText (field : DynamicFormField) (value : String) : Except Err Unit := do
  if let some minLength := field.minLength then
    if (utf16Length value : Int) < minLength then
      throw (Err.badRequest ("El campo \"" ++ field.label ++ "\" debe tener al menos " ++
        toString minLength ++ " caracteres."))
  if let some maxLength := field.maxLength then
    if (utf16Length value : Int) > maxLength then
      throw (Err.badRequest ("El campo \"" ++ field.label ++ "\" no puede superar " ++
        toString maxLength ++ " caracteres."))
  if let some options := field.options then
    if !options.contains value then
      throw (Err.badRequest ("El campo \"" ++ field.label ++ "\" tiene un valor inválido."))

def validateField (field : DynamicFormField) (answers : ReadingAnswers) : Except Err Unit := do
  let value := answers.lookup field.key
  let isEmpty := isEmptyAnswer field.key value
  if field.required && isEmpty then
    throw (Err.badRequest ("El campo \"" ++ field.label ++ "\" es obligatorio."))
  if isEmpty then
    return ()
  if let some (.str text) := value then
    validateText field text

def validateReadingAnswers (schema : FormSchema) (answers : ReadingAnswers) : Except Err Unit :=
  match schema with
  | .other => throw (Err.badRequest "El formulario de este servicio no está disponible.")
  | .dynamic fields => fields.forM fun field => validateField field answers

/-- The service and some active form of it with its version, read by one query with
`include: { forms: { where: { isActive: true }, take: 1 } }`. -/
def findServiceForm (serviceId : Id) : TxM (Service × Option (Nat × ServiceForm)) :=
  Tx.selectOrThrow fun D => (D.services.lookup serviceId).map fun service =>
    (service, ((D.serviceForms.findMany fun key form => key.1 = serviceId && form.isActive).map
      fun e => (e.1.2, e.2)).head?)

def updateInputs (userId readingId : Id) (answers : ReadingAnswers) : Request Reading := do
  let reading ← findOwnedDraft userId readingId
  let (_, activeForm) ← Proc.transaction (findServiceForm reading.serviceId)
  let some (version, form) := activeForm
    | throw (Err.badRequest "Este servicio no tiene un formulario configurado.")
  Proc.ofExcept (validateReadingAnswers form.schema answers)
  let _ ← Proc.transaction <| Db.readingInput.upsert readingId ⟨version, answers⟩
    fun _ => ⟨version, answers⟩
  findOneForUser userId readingId

end ReadingsService

end TaroTria
