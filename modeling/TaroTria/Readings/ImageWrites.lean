import TaroTria.Readings.PalmImages
import TaroTria.Transactions.Atomic

/-!
# The writes of the image requests

An upload slot, a confirmation, a validation and a failed one write rows of
images and jobs of their validation, and nothing else.
-/

namespace TaroTria

open Transactions

theorem PalmImageValidation.verdict_decides {result : AIOrchestratorExecuteResult}
    {status : PalmImageStatus} {validationError : Option String}
    (h : verdict result = .ok (status, validationError)) :
    status = .VALID ∨ status = .INVALID := by
  unfold verdict at h
  split at h
  · split at h
    · split at h
      · cases h
        exact .inl rfl
      · cases h
        exact .inr rfl
    · cases h
  · cases h
    exact .inr rfl

section Writes

variable {K : Db → List RowWrite → Prop} (hnil : ∀ D, K D [])
  (himage : ∀ D id row, K D [.palmImage id (some row)])
include hnil himage

namespace ReadingsService

omit himage in
theorem every_findOwnedDraft {α : Type} {userId readingId : Id} {f : Reading → Request α}
    (h : ∀ r, (f r).Every K) : (findOwnedDraft userId readingId >>= f).Every K := by
  unfold findOwnedDraft
  rw [bind_assoc]
  apply (Proc.every_select hnil _).bind
  rintro (_ | r)
  · trivial
  by_cases hdraft : r.status = .DRAFT
  · simp only [hdraft, ne_eq, not_true_eq_false, if_false]
    exact h r
  · simp only [hdraft, ne_eq, not_false_eq_true, if_true]
    trivial

omit himage in
/-- An upload slot is a new row, without a retention. -/
theorem every_presignImage_of
    (hcreate : ∀ D id (row : PalmImage), D.palmImages.lookup id = none → row.status = .UPLOADED →
      row.expiresAt = none → row.deletedAt = none → K D [.palmImage id (some row)])
    (userId readingId : Id) (contentType : PalmImageMimeType) :
    (presignImage userId readingId contentType).Every K := by
  apply every_findOwnedDraft hnil
  intro reading
  apply (Proc.every_selectOrThrow hnil _).bind
  intro service
  split
  · trivial
  apply (Proc.every_select hnil _).bind
  intro existingSlots
  split
  · trivial
  apply (Proc.every_call _).bind
  intro uuid
  apply (Proc.every_call _).bind
  intro imageId
  apply (Proc.every_call _).bind
  intro createdAt
  refine Proc.Every.bind (Proc.every_transaction fun D => ?_) fun _ => trivial
  apply Tx.wp_bind
  apply Tx.wp_select
  intro D₀ _
  split
  · trivial
  · apply Tx.wp_bind
    exact Db.palmImage.wp_create fun hnone => hcreate D imageId _ hnone rfl rfl rfl

theorem every_presignImage (userId readingId : Id) (contentType : PalmImageMimeType) :
    (presignImage userId readingId contentType).Every K :=
  every_presignImage_of hnil (fun D id row _ _ _ _ => himage D id row) userId readingId contentType

omit hnil in
theorem every_updateImage_of (imageId : Id) (f : PalmImage → PalmImage) :
    (updateImage imageId f).Every K :=
  (Proc.every_transaction fun D => Db.palmImage.wp_update fun _ _ => himage D imageId _).bind
    fun _ => trivial

omit hnil himage in
/-- A confirmation leaves the image under review or invalid, and may queue its validation. -/
theorem every_confirmFound_of {imageId : Id}
    (hwrite : ∀ f : PalmImage → PalmImage,
      (∀ image, (f image).status = .PENDING_REVIEW ∨ (f image).status = .INVALID) →
      (updateImage imageId f).Every K)
    (hjob : (Proc.transaction (addValidation imageId) : Request Unit).Every K)
    (C : PalmImageConfig) (key : String) : (confirmFound C key imageId).Every K := by
  have reject : ∀ reason, (invalidate imageId reason).Every K :=
    fun reason => hwrite _ fun _ => .inr rfl
  have accept : ∀ mimeType sizeBytes widthPx heightPx,
      (acceptImage C imageId mimeType sizeBytes widthPx heightPx).Every K := by
    intro mimeType sizeBytes widthPx heightPx
    apply (Proc.every_call _).bind
    intro now
    apply (Proc.every_call _).bind
    intro consentAt
    apply (hwrite _ fun _ => .inl rfl).bind
    intro summary
    exact hjob.bind fun _ => trivial
  unfold confirmFound headObject
  apply Proc.Every.bind
  · exact (Proc.every_call _).handle fun _ => trivial
  intro head
  cases head.filter (0 < ·) with
  | none => exact reject _
  | some sizeBytes =>
      simp only
      split
      · exact reject _
      apply (Proc.every_call _).bind
      intro bytes
      cases sniffImageMimeType bytes with
      | none => exact reject _
      | some realMimeType =>
          simp only
          split
          · exact accept _ _ _ _
          · exact reject _

omit himage in
theorem every_confirmImage_of_found {C : PalmImageConfig} {key : String}
    (hfound : ∀ imageId, (confirmFound C key imageId).Every K) (userId readingId : Id) :
    (confirmImage C userId readingId key).Every K := by
  apply every_findOwnedDraft hnil
  intro r
  apply (Proc.every_select hnil _).bind
  rintro (_ | ⟨imageId, image⟩)
  · trivial
  simp only
  split
  · trivial
  · exact hfound imageId

theorem every_confirmImage_of (hjob : ∀ D jobId id, K D [.imageAnalysisJob jobId (some id)])
    (C : PalmImageConfig) (userId readingId : Id) (key : String) :
    (confirmImage C userId readingId key).Every K := by
  apply every_confirmImage_of_found hnil
  intro imageId
  apply every_confirmFound_of
  · exact fun f _ => every_updateImage_of himage imageId f
  · apply Proc.every_transaction
    intro D
    apply Tx.wp_bind
    exact Db.imageAnalysisJob.wp_upsert (fun _ => hjob D _ _) fun _ _ => hjob D _ _

end ReadingsService

namespace PalmImageValidation

omit hnil himage in
/-- A validation gives the image the status of its verdict. -/
theorem every_validateFound_of {palmImageId : Id}
    (hwrite : ∀ D image status validationError, D.palmImages.lookup palmImageId = some image →
      status = .VALID ∨ status = .INVALID →
      K D [.palmImage palmImageId (some { image with status, validationError })])
    (image : PalmImage) : (validateFound palmImageId image).Every K := by
  unfold validateFound
  apply (Proc.every_call _).bind
  intro bytes
  apply (Proc.every_call _).bind
  intro version
  apply (Proc.every_ofExcept _).bind
  intro promptVersionId
  apply (Proc.every_call _).bind
  intro result
  cases hverdict : verdict result with
  | error e => trivial
  | ok v =>
      obtain ⟨status, validationError⟩ := v
      simp only [Proc.ofExcept_ok, Proc.ret_bind]
      refine Proc.Every.bind (Proc.every_transaction fun D => ?_) fun _ => trivial
      apply Db.palmImage.wp_update
      exact fun image' hlookup => hwrite D image' status validationError hlookup
        (verdict_decides hverdict)

omit himage in
/-- The failure handler leaves a `VALID` image, and makes any other one `INVALID`. -/
theorem every_onFailed_of {palmImageId : Id}
    (hwrite : ∀ D image, D.palmImages.lookup palmImageId = some image → image.status ≠ .VALID →
      K D [.palmImage palmImageId (some { image with
        status := .INVALID, validationError := some GENERIC_FAILURE_MESSAGE })])
    (attemptsMade maxAttempts : Nat) :
    (onFailed palmImageId attemptsMade maxAttempts).Every K := by
  unfold onFailed
  split
  · trivial
  · refine Proc.Every.bind (Proc.every_transaction fun D => ?_) fun _ => trivial
    apply Db.palmImage.wp_updateMany
    · exact fun _ _ _ => hnil D
    · exact fun image hlookup hopen => hwrite D image hlookup (by simpa using hopen)

end PalmImageValidation

end Writes

end TaroTria
