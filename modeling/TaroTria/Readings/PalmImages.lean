import TaroTria.Ai.TaskRegistry
import TaroTria.Readings.ReadingsService

/-!
# The palm images of a reading

`presignImage` and `confirmImage` of the readings service, the processor of the
`image-analysis` queue with its failure handler, and the processor that deletes
the images whose retention has expired.

## Implementation notes

The signed URL of an upload is an opaque text and left out. The library that
measures an image is a parameter; an image that it fails on has no dimensions.
-/

namespace TaroTria

open Transactions

/-- `MIME_TYPE_TO_EXTENSION`. -/
def PalmImageMimeType.extension : PalmImageMimeType → String
  | .jpeg => "jpg"
  | .png => "png"
  | .webp => "webp"

def PALM_IMAGE_MIN_DIMENSION_PX : Nat := 200

def PRESIGNED_UPLOAD_EXPIRY_SECONDS : Nat := 5 * 60

/-- The configuration of palm images and the library that reads their dimensions. -/
structure PalmImageConfig where
  palmImageMaxSizeBytes : Nat
  palmImageRetentionHours : Nat
  imageSize : Buffer → Option (Nat × Nat)

def readImageDimensions (C : PalmImageConfig) (buffer : Buffer) : Option (Nat × Nat) :=
  (C.imageSize buffer).filter fun d => d.1 ≠ 0 && d.2 ≠ 0

structure PresignedUpload where
  key : String
  expiresInSeconds : Nat
  deriving DecidableEq, Repr

structure PalmImageSummary where
  id : Id
  status : PalmImageStatus
  validationError : Option String
  deriving DecidableEq, Repr

namespace ReadingsService

variable (C : PalmImageConfig)

def buildPalmImageKey (userId readingId uuid : Id) (contentType : PalmImageMimeType) : String :=
  "palm-reading/" ++ userId ++ "/" ++ readingId ++ "/" ++ uuid ++ "." ++ contentType.extension

/-- `palmImage.create`; the storage key is unique. -/
def createImage (imageId : Id) (row : PalmImage) : TxM Unit := do
  let taken ← Db.palmImage.count fun _ image => image.storageKey = row.storageKey
  if taken ≠ 0 then
    .throw Err.uniqueConstraintViolation
  let _ ← Db.palmImage.create imageId row

def presignImage (userId readingId : Id) (contentType : PalmImageMimeType) :
    Request PresignedUpload := do
  let reading ← findOwnedDraft userId readingId
  let service ← Proc.transaction (findService reading.serviceId)
  if !isPalmService service.code then
    throw (Err.badRequest "Este servicio no acepta imágenes de palma.")
  let existingSlots ← Proc.transaction <|
    Db.palmImage.count fun _ image => image.readingId = readingId && image.status ≠ .INVALID
  if reachesRequiredSlots service.code existingSlots then
    throw (Err.badRequest "Ya alcanzaste el número de imágenes requeridas para este servicio.")
  let uuid ← Proc.call .randomUUID
  let key := buildPalmImageKey userId readingId uuid contentType
  let imageId ← Proc.call .randomUUID
  let createdAt ← Proc.call .now
  Proc.transaction <| createImage imageId
    { readingId, storageKey := key, status := .UPLOADED, mimeType := none, createdAt
      sizeBytes := none, widthPx := none, heightPx := none, validationError := none
      consentAt := none, expiresAt := none, deletedAt := none }
  return { key, expiresInSeconds := PRESIGNED_UPLOAD_EXPIRY_SECONDS }

/-- `palmImage.findFirst({ where: { readingId, storageKey } })`. -/
def findImage (readingId : Id) (key : String) : TxM (Option (Id × PalmImage)) :=
  Tx.select fun D => (D.palmImages.findMany fun _ image =>
    image.readingId = readingId && image.storageKey = key).head?

def toPalmImageSummary (id : Id) (image : PalmImage) : PalmImageSummary :=
  { id, status := image.status, validationError := image.validationError }

/-- `palmImage.update` of the image that was found. -/
def updateImage (imageId : Id) (f : PalmImage → PalmImage) : Request PalmImageSummary := do
  let updated ← Proc.transaction (Db.palmImage.update imageId f)
  return toPalmImageSummary imageId updated

def invalidate (imageId : Id) (reason : String) : Request PalmImageSummary :=
  updateImage imageId fun image => { image with status := .INVALID, validationError := some reason }

/-- `storageService.headObject`, which takes any failure for a missing object. -/
def headObject (key : String) : Request (Option Nat) :=
  (Proc.call (Query.headObject key)).handle fun _ => pure none

/-- `imageAnalysisQueue.add`. -/
def addValidation (imageId : Id) : TxM Unit := do
  let _ ← Db.imageAnalysisJob.upsert ("VALIDATE_PALM_IMAGE-" ++ imageId) imageId id

/-- The last exit of `confirmImage`: the image is accepted and its validation queued. -/
def acceptImage (imageId : Id) (mimeType : PalmImageMimeType) (sizeBytes widthPx heightPx : Nat) :
    Request PalmImageSummary := do
  let now ← Proc.call .now
  let expiresAt := now + C.palmImageRetentionHours * 60 * 60 * 1000
  let consentAt ← Proc.call .now
  let summary ← updateImage imageId fun image =>
    { image with
      status := .PENDING_REVIEW, mimeType := some mimeType.toString, sizeBytes := some sizeBytes
      widthPx := some widthPx, heightPx := some heightPx, consentAt := some consentAt
      expiresAt := some expiresAt, validationError := none }
  Proc.transaction (addValidation imageId)
  return summary

/-- `confirmImage` from the storage on, for the image that its query has found. -/
def confirmFound (key : String) (imageId : Id) : Request PalmImageSummary := do
  let head ← headObject key
  let some sizeBytes := head.filter (0 < ·)
    | invalidate imageId "No se encontró el archivo cargado. Intenta subirlo de nuevo."
  if C.palmImageMaxSizeBytes < sizeBytes then
    invalidate imageId "El archivo supera el tamaño máximo permitido."
  else
    let bytes ← Proc.call (Query.downloadObject key)
    let some realMimeType := sniffImageMimeType bytes
      | invalidate imageId "El archivo no es una imagen JPEG, PNG o WebP válida."
    let some (widthPx, heightPx) := (readImageDimensions C bytes).filter fun d =>
        PALM_IMAGE_MIN_DIMENSION_PX ≤ d.1 && PALM_IMAGE_MIN_DIMENSION_PX ≤ d.2
      | invalidate imageId "La imagen es demasiado pequeña o está corrupta."
    acceptImage C imageId realMimeType sizeBytes widthPx heightPx

def confirmImage (userId readingId : Id) (key : String) : Request PalmImageSummary := do
  let _ ← findOwnedDraft userId readingId
  let some (imageId, image) ← Proc.transaction (findImage readingId key)
    | throw (Err.notFound "Imagen no encontrada.")
  if image.status ≠ .UPLOADED then
    throw (Err.badRequest "Esta imagen ya fue confirmada.")
  confirmFound C key imageId

end ReadingsService

/-! ## The validation of an image -/

namespace PalmImageValidation

def GENERIC_FAILURE_MESSAGE : String := "No fue posible validar la imagen."

structure PalmImageLegibility where
  isLegiblePalm : Bool
  reason : JsString
  deriving DecidableEq, Repr

/-- An output that the schema of the task lets through. -/
def PalmImageLegibility.ofOutput (output : Json JsString) : Option PalmImageLegibility :=
  match output.field? (.ofAscii "isLegiblePalm".toList), output.field? (.ofAscii "reason".toList) with
  | some (.bool isLegiblePalm), some (.str reason) => some { isLegiblePalm, reason }
  | _, _ => none

/-- The status that an execution gives the image, with its error. -/
def verdict (result : AIOrchestratorExecuteResult) : Except Err (PalmImageStatus × Option String) :=
  if result.status = .COMPLETED then
    match result.output.bind PalmImageLegibility.ofOutput with
    | some output =>
        if output.isLegiblePalm then .ok (.VALID, none)
        else .ok (.INVALID, some output.reason.toString)
    | none => .error .fault
  else .ok (.INVALID, some (result.errorMessage.getD GENERIC_FAILURE_MESSAGE))

/-- `validateImage` from the download on, for an image that it has found under review. -/
def validateFound (palmImageId : Id) (image : PalmImage) : Request Unit := do
  let bytes ← Proc.call (Query.downloadObject image.storageKey)
  let promptVersionId ← Proc.ofExcept
    (← Proc.call (.publishedVersionId PALM_IMAGE_LEGIBILITY_TASK))
  let result ← Proc.call <| Query.execute
    { promptVersionId, readingId := image.readingId, promptVariables := [], riskCheckText := ""
      images := [⟨bytes.toBase64, image.mimeType.getD "image/jpeg"⟩] }
  let (status, validationError) ← Proc.ofExcept (verdict result)
  let _ ← Proc.transaction <| Db.palmImage.update palmImageId fun image =>
    { image with status, validationError }

def validateImage (palmImageId : Id) : Request Unit := do
  let some image ← Proc.transaction (Db.palmImage.findUnique palmImageId)
    | return ()
  if image.status ≠ .PENDING_REVIEW then
    return ()
  validateFound palmImageId image

/-- The `failed` event of a job; `maxAttempts` is `job.opts.attempts ?? 1`. -/
def onFailed (palmImageId : Id) (attemptsMade maxAttempts : Nat) : Request Unit := do
  if attemptsMade < maxAttempts then
    return ()
  let _ ← Proc.transaction <| Db.palmImage.updateMany palmImageId
    (fun image => image.status ≠ .VALID)
    fun image => { image with status := .INVALID, validationError := some GENERIC_FAILURE_MESSAGE }

end PalmImageValidation

/-! ## The deletion of expired images -/

namespace ImageCleanup

def CLEANUP_BATCH_SIZE : Nat := 100

/-- The `where` clause of the cleanup. -/
def expired (now : Time) (image : PalmImage) : Bool :=
  (image.expiresAt.any fun expiresAt => expiresAt ≤ now) && image.deletedAt.isNone

/-- One image of the batch; a failure is logged and the next one follows. -/
def deleteImage (imageId : Id) (image : PalmImage) : Request Unit :=
  Proc.handle (fun _ => pure ()) do
    Proc.call (Query.deleteObject image.storageKey)
    let deletedAt ← Proc.call .now
    let _ ← Proc.transaction <| Db.palmImage.update imageId
      fun image => { image with deletedAt := some deletedAt }

def deleteImages : List (Id × PalmImage) → Request Unit
  | [] => pure ()
  | (imageId, image) :: images => do
      deleteImage imageId image
      deleteImages images

def deleteExpiredImages : Request Unit := do
  let now ← Proc.call .now
  let expiredImages ← Proc.transaction <| Db.palmImage.findMany fun _ image => expired now image
  deleteImages (expiredImages.take CLEANUP_BATCH_SIZE)

end ImageCleanup

end TaroTria
