import TaroTria.Readings.ImageRetention
import TaroTria.Transactions.Alone

/-!
# The images of a palm reading

A submission counts the valid images of its reading, and an upload slot is given while
fewer images than required are there that are not invalid. So an image keeps its slot from
the start of its upload on, and a submission is backed by images whose objects are there
unless one of them has been deleted in the meantime.
-/

namespace TaroTria

open Transactions

namespace PalmSlots

/-- The images of a reading that are valid and whose objects have not been deleted. -/
def usableImages (D : Db) (readingId : Id) : Nat :=
  D.palmImages.count fun _ image =>
    image.readingId = readingId && image.status = .VALID && image.deletedAt.isNone

/-- The images of a reading that have a slot. -/
def takenSlots (D : Db) (readingId : Id) : Nat :=
  D.palmImages.count fun _ image => image.readingId = readingId && image.status ≠ .INVALID

/-- The submission commits a reservation. -/
def Reserves (env : Proc.Surroundings Answer) (D : Db) (userId readingId : Id) : Prop :=
  D.creditReservations.lookup readingId = none ∧
    (((ReadingsService.submit userId readingId).exec env 0 D).1.creditReservations.lookup
      readingId).isSome = true

/-- No valid image of the reading has been deleted. -/
def NoneDeleted (D : Db) (readingId : Id) : Prop :=
  ∀ id image, D.palmImages.lookup id = some image → image.readingId = readingId →
    image.status = .VALID → image.deletedAt = none

section Submission

open ReadingsService

variable {env : Proc.Surroundings Answer} {D : Db} {userId readingId : Id} {reading : Reading}
  {service : Service}

variable (D) in
theorem run_count (p : Id → PalmImage → Bool) :
    (Db.palmImage.count p : TxM Nat).run D [] = .ok (D.palmImages.count p, []) :=
  Tx.run_select (L := []) _

variable (env D userId readingId) in
theorem exec_findOwnedDraft {α : Type} (f : Reading → Request α) (n : Nat) :
    (∃ e, (findOwnedDraft userId readingId >>= f).exec env n D = (D, .error e)) ∨
      ∃ r, D.readings.lookup readingId = some r ∧
        (findOwnedDraft userId readingId >>= f).exec env n D = (f r).exec env (n + 1) D := by
  unfold findOwnedDraft findOwned
  rw [bind_assoc]
  rcases Proc.exec_read (Tx.run_select (E := Err) (D := D) (L := []) _) with h | ⟨-, hexec⟩
  · exact .inl h
  rw [hexec, view_nil]
  cases hfind : (Db.reading.find D readingId).filter fun r => r.userId = userId with
  | none => exact .inl ⟨readingNotFound, rfl⟩
  | some r =>
      by_cases hdraft : r.status = .DRAFT
      · simp only [hdraft, ne_eq, not_true_eq_false, if_false]
        exact .inr ⟨r, (Option.filter_eq_some_iff.mp hfind).1, rfl⟩
      · simp only [hdraft, ne_eq, not_false_eq_true, if_true]
        exact .inl ⟨_, rfl⟩

variable (env userId) in
/-- A submission without enough valid images is refused. -/
theorem exec_submit_short (hreading : D.readings.lookup readingId = some reading)
    (hservice : D.services.lookup reading.serviceId = some service)
    (hpalm : isPalmService service.code = true)
    (hshort : (D.palmImages.count fun _ image => image.readingId = readingId &&
      image.status = .VALID) < requiredPalmImageSlots service.code) :
    ∃ e, (submit userId readingId).exec env 0 D = (D, .error e) := by
  unfold submit
  rcases exec_findOwnedDraft env D userId readingId (fun reading => do
    let service ← Proc.transaction (findService reading.serviceId)
    if isPalmService service.code then
      submitPalmReading userId readingId service
    else
      submitTarotReading userId readingId reading service) 0 with h | ⟨r, hr, hexec⟩
  · exact h
  cases hr.symm.trans hreading
  rw [hexec]
  have hfound : (findService reading.serviceId).run D [] = .ok (service, []) :=
    Tx.run_selectOrThrow (L := []) hservice
  rcases Proc.exec_read hfound with h | ⟨-, hexec⟩
  · exact h
  rw [hexec]
  simp only [hpalm, if_true]
  unfold submitPalmReading
  rcases Proc.exec_read (run_count D _) with h | ⟨-, hexec⟩
  · exact h
  rw [hexec]
  simp only [hshort, if_true]
  exact ⟨_, rfl⟩

/-- The valid images, when none of them has been deleted. -/
theorem count_valid (h : NoneDeleted D readingId) :
    (D.palmImages.count fun _ image => image.readingId = readingId && image.status = .VALID) =
      usableImages D readingId := by
  refine Table.count_congr fun id image hlookup => ?_
  by_cases hreading : image.readingId = readingId
  · by_cases hvalid : image.status = .VALID
    · simp [hreading, hvalid, h id image hlookup hreading hvalid]
    · simp [hvalid]
  · simp [hreading]

theorem Reserves.usable (h : Reserves env D userId readingId)
    (hreading : D.readings.lookup readingId = some reading)
    (hservice : D.services.lookup reading.serviceId = some service)
    (hpalm : isPalmService service.code = true) (hnone : NoneDeleted D readingId) :
    requiredPalmImageSlots service.code ≤ usableImages D readingId := by
  by_contra hshort
  obtain ⟨hbefore, hafter⟩ := h
  rw [not_le, ← count_valid hnone] at hshort
  obtain ⟨e, hexec⟩ := exec_submit_short env userId hreading hservice hpalm hshort
  rw [hexec, hbefore] at hafter
  cases hafter

end Submission

section Slots

open ReadingsService

variable {env : Proc.Surroundings Answer} {D : Db} {userId readingId : Id} {reading : Reading}
  {service : Service} {contentType : PalmImageMimeType}

/-- The key of the object that a new slot is for, named by the third call. -/
def newKey (env : Proc.Surroundings Answer) (userId readingId : Id)
    (contentType : PalmImageMimeType) : String :=
  buildPalmImageKey userId readingId (env.answer 3 .randomUUID) contentType

/-- The row of a new slot. -/
def newSlot (env : Proc.Surroundings Answer) (userId readingId : Id)
    (contentType : PalmImageMimeType) : PalmImage where
  readingId := readingId
  storageKey := newKey env userId readingId contentType
  status := .UPLOADED
  mimeType := none
  createdAt := env.answer 5 .now
  sizeBytes := none
  widthPx := none
  heightPx := none
  validationError := none
  consentAt := none
  expiresAt := none
  deletedAt := none

/-- The calls of a request for a slot answer, and the id and the key that it draws are new. -/
structure Fresh (env : Proc.Surroundings Answer) (D : Db) (userId readingId : Id)
    (contentType : PalmImageMimeType) : Prop where
  calls : ∀ n < 7, env.fate n = some .done
  id : D.palmImages.lookup (env.answer 4 .randomUUID) = none
  key : ∀ id image, D.palmImages.lookup id = some image →
    image.storageKey ≠ newKey env userId readingId contentType

theorem run_createImage {imageId : Id} (row : PalmImage)
    (hid : D.palmImages.lookup imageId = none)
    (hkey : ∀ id image, D.palmImages.lookup id = some image → image.storageKey ≠ row.storageKey) :
    (createImage imageId row).run D [] = .ok ((), [.palmImage imageId (some row)]) := by
  have hunused : (D.palmImages.count fun _ image => image.storageKey = row.storageKey) = 0 :=
    Table.count_eq_zero fun id image hlookup => by simp [hkey id image hlookup]
  unfold createImage
  rw [Tx.run_bind_ok (run_count D _), hunused]
  simp only [ne_eq, not_true_eq_false, if_false]
  rw [Tx.run_bind_ok (Db.palmImage.run_create (L := []) hid)]
  rfl

/-- A draft palm reading that has not reached its slots gets one. -/
theorem exec_presignImage (hfresh : Fresh env D userId readingId contentType)
    (hreading : D.readings.lookup readingId = some reading) (howner : reading.userId = userId)
    (hdraft : reading.status = .DRAFT)
    (hservice : D.services.lookup reading.serviceId = some service)
    (hpalm : isPalmService service.code = true)
    (hfree : reachesRequiredSlots service.code (takenSlots D readingId) = false) :
    (presignImage userId readingId contentType).exec env 0 D =
      (view [.palmImage (env.answer 4 .randomUUID)
          (some (newSlot env userId readingId contentType))] D,
        .ok ⟨newKey env userId readingId contentType, PRESIGNED_UPLOAD_EXPIRY_SECONDS⟩) := by
  have hfound : (findService reading.serviceId).run D [] = .ok (service, []) :=
    Tx.run_selectOrThrow (L := []) hservice
  have hcalls := hfresh.calls
  simp only [takenSlots, ne_eq] at hfree
  unfold presignImage findOwnedDraft findOwned
  rw [bind_assoc, Proc.exec_select (hcalls 0 (by omega))]
  simp only [Db.reading_rows, Delegate.find, hreading, howner, Option.filter_some, decide_true,
    if_true, hdraft, ne_eq, not_true_eq_false, if_false]
  rw [Proc.pure_eq, Proc.ret_bind, Proc.exec_transaction_ok (hcalls 1 (by omega)) hfound]
  simp only [hpalm, Bool.not_true, Bool.false_eq_true, if_false, view_nil]
  rw [Proc.exec_transaction_ok (hcalls 2 (by omega)) (run_count D _), view_nil,
    if_neg (Bool.eq_false_iff.mp hfree), Proc.exec_call (hcalls 3 (by omega)),
    Proc.exec_call (hcalls 4 (by omega)), Proc.exec_call (hcalls 5 (by omega))]
  have hcreate := run_createImage (newSlot env userId readingId contentType) hfresh.id hfresh.key
  exact Proc.exec_transaction_ok (hcalls 6 (by omega)) hcreate

end Slots

open ReadingsService

/-- A submission that reserves credits is backed by enough valid images, of which none has
been deleted, and a draft palm reading with a free slot gets it. -/
theorem reservations_backed :
    (∀ env D userId readingId (reading : Reading) (service : Service),
      D.readings.lookup readingId = some reading →
        D.services.lookup reading.serviceId = some service →
          isPalmService service.code = true → NoneDeleted D readingId →
            Reserves env D userId readingId →
              requiredPalmImageSlots service.code ≤ usableImages D readingId) ∧
    ∀ env D userId readingId contentType (reading : Reading) (service : Service),
      Fresh env D userId readingId contentType → D.readings.lookup readingId = some reading →
        reading.userId = userId → reading.status = .DRAFT →
          D.services.lookup reading.serviceId = some service →
            isPalmService service.code = true →
              takenSlots D readingId < requiredPalmImageSlots service.code →
                (presignImage userId readingId contentType).exec env 0 D =
                  (view [.palmImage (env.answer 4 .randomUUID)
                      (some (newSlot env userId readingId contentType))] D,
                    .ok ⟨newKey env userId readingId contentType,
                      PRESIGNED_UPLOAD_EXPIRY_SECONDS⟩) := by
  refine ⟨?_, ?_⟩
  · intro env D userId readingId reading service hreading hservice hpalm hnone hreserves
    exact hreserves.usable hreading hservice hpalm hnone
  · intro env D userId readingId contentType reading service hfresh hreading howner hdraft
      hservice hpalm hfree
    exact exec_presignImage hfresh hreading howner hdraft hservice hpalm
      (reachesRequiredSlots_eq_false hfree)

/-- Surroundings for concrete runs, in which every call succeeds. -/
def answering : Proc.Surroundings Answer where
  fate _ := some .done
  answer _ q := sampleAnswer .COMPLETED q

theorem reservations_backed_sample :
    requiredPalmImageSlots "PALM_BASIC" ≤ usableImages sampleDb "r1" ∧
      (presignImage "ana" "r1" .jpeg).exec answering 0 ImageRetention.slotDb =
        (view [.palmImage "u1" (some (newSlot answering "ana" "r1" .jpeg))] ImageRetention.slotDb,
          .ok ⟨"palm-reading/ana/r1/u1.jpg", PRESIGNED_UPLOAD_EXPIRY_SECONDS⟩) := by
  have hnone : NoneDeleted sampleDb "r1" := by
    intro id image h _ _
    change ((∅ : Table Id PalmImage).write "i1" _).lookup id = some image at h
    rw [Table.lookup_write] at h
    split at h <;> cases h
    rfl
  have hreserves : Reserves answering sampleDb "ana" "r1" := ⟨rfl, rfl⟩
  have hfresh : Fresh answering ImageRetention.slotDb "ana" "r1" .jpeg :=
    ⟨fun _ _ => rfl, rfl, fun _ _ h => by cases h⟩
  exact ⟨reservations_backed.1 answering sampleDb "ana" "r1" _ _ rfl rfl rfl hnone hreserves,
    reservations_backed.2 answering ImageRetention.slotDb "ana" "r1" .jpeg _ _ hfresh rfl rfl rfl
      rfl rfl (by decide)⟩

/-! ## A slot that waits, and an image that is deleted -/

section Failures

open ImageRetention

/-- The row of an image that was accepted and validated. -/
def validSlot : PalmImage := { acceptedSlot with status := .VALID }

/-- The database after its validation, and after the cleanup. -/
def validatedDb : Db := view [.palmImage "u1" (some validSlot)] acceptedDb

def cleanedDb : Db :=
  view [.palmImage "u1" (some { validSlot with deletedAt := some (retention samplePalmConfig) })]
    validatedDb

/-- The world after the retention of its object, and after the cleanup. -/
def retainedWorld : Surroundings := (afterRetention [0xff, 0xd8, 0xff] acceptedDb).world

def cleanedWorld : Surroundings :=
  { retainedWorld with objects := retainedWorld.objects.write slot.storageKey none }

theorem reach_cleanedDb : (service samplePalmConfig).Reach (fun _ _ _ _ => True)
    ⟨⟨∅, 0, []⟩, slotDb, fun _ => none⟩ ⟨cleanedWorld, cleanedDb, fun _ => none⟩ := by
  have hlets : ∀ p w D, Proc.Lets bucketWorld (fun _ _ _ _ => True) (p : Request (Option Id)) w D :=
    Proc.lets_of_forall fun _ _ _ _ => trivial
  have hvalidate : ((service samplePalmConfig).prog (.validateImage "u1")).play bucketWorld
      retainedWorld acceptedDb = (retainedWorld, validatedDb, .ok none) := rfl
  have hcleanup : ((service samplePalmConfig).prog .deleteExpiredImages).play bucketWorld
      retainedWorld validatedDb = (cleanedWorld, cleanedDb, .ok none) := rfl
  have hconfirmed := reach_afterRetention (hlets _ _ _) trivial (hlets _ _ _)
    play_confirm_accepted trivial
  have hvalidated := Setting.serve (H := service samplePalmConfig) (t := 0)
    (s := ⟨retainedWorld, acceptedDb, fun _ => none⟩) replies_bucketWorld rfl (hlets _ _ _)
    hvalidate
  have hcleaned := Setting.serve (H := service samplePalmConfig) (t := 0)
    (s := ⟨retainedWorld, validatedDb, fun _ => none⟩) replies_bucketWorld rfl (hlets _ _ _)
    hcleanup
  exact hconfirmed.trans (hvalidated.trans hcleaned)

theorem reach_slot : (service samplePalmConfig).Reach (fun _ _ _ _ => True)
    ⟨⟨∅, 0, []⟩, slotDb, fun _ => none⟩
    ⟨⟨∅, 0, []⟩, view [.palmImage "u1" (some slot)] slotDb, fun _ => none⟩ := by
  have hpresigned := Setting.serve (H := service samplePalmConfig) (t := 0)
    (s := ⟨⟨∅, 0, []⟩, slotDb, fun _ => none⟩) replies_bucketWorld rfl
    (Proc.lets_of_forall (fun _ _ _ _ => trivial) _ _ _) play_presign
  exact hpresigned

/-- A reading whose only slot waits for its upload has no valid image and gets no slot, and
one whose only image was valid and has been deleted is submitted. -/
theorem slots_and_reservations_fail :
    (∃ s, (service samplePalmConfig).Reach (fun _ _ _ _ => True)
        ⟨⟨∅, 0, []⟩, slotDb, fun _ => none⟩ s ∧
      usableImages s.db "r1" < requiredPalmImageSlots "PALM_BASIC" ∧
      ((presignImage "ana" "r1" .jpeg).exec answering 0 s.db).2 = .error (.badRequest
        "Ya alcanzaste el número de imágenes requeridas para este servicio.")) ∧
    ∃ s, (service samplePalmConfig).Reach (fun _ _ _ _ => True)
        ⟨⟨∅, 0, []⟩, slotDb, fun _ => none⟩ s ∧
      usableImages s.db "r1" < requiredPalmImageSlots "PALM_BASIC" ∧
      Reserves answering s.db "ana" "r1" := by
  refine ⟨⟨_, reach_slot, by decide, rfl⟩, ⟨_, reach_cleanedDb, by decide, rfl, rfl⟩⟩

end Failures

end PalmSlots

end TaroTria
