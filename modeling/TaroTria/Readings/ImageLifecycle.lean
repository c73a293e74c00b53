import TaroTria.Backend.Calls
import TaroTria.Readings.ImageWrites
import TaroTria.Readings.ReadingWrites
import TaroTria.Transactions.Follow
import TaroTria.Transactions.Seal

/-!
# The life of a palm image

Confirmations, validations and failures of palm images, in any interleaving of
their calls. A confirmation and a validation read the status of the image, make
long calls and write a status by id without looking again. So a final status
stays when no request that read the image earlier still has its write ahead, and
may be overwritten otherwise; no status is ever taken back to `UPLOADED`, so a
validation, which starts from `PENDING_REVIEW`, never validates an image that
nobody has confirmed.
-/

namespace TaroTria

open Transactions

inductive ImageCall
  | confirmImage (userId readingId : Id) (key : String)
  | validateImage (palmImageId : Id)
  | onFailed (palmImageId : Id) (attemptsMade maxAttempts : Nat)

/-- The request of a call; the summary that it returns is dropped. -/
def ImageCall.prog (C : PalmImageConfig) : ImageCall → Request Unit
  | confirmImage userId readingId key => do
      let _ ← ReadingsService.confirmImage C userId readingId key
  | validateImage palmImageId => PalmImageValidation.validateImage palmImageId
  | onFailed palmImageId attemptsMade maxAttempts =>
      PalmImageValidation.onFailed palmImageId attemptsMade maxAttempts

/-- The number of transactions before the one that reads the image to write it later. -/
def ImageCall.checkAt : ImageCall → Nat
  | confirmImage _ _ _ => 1
  | _ => 0

abbrev ImagePool := Pool Db RowWrite Err ImageCall Answer Unit

namespace PalmImageStatus

/-- `VALID` and `INVALID`. -/
def Final (status : PalmImageStatus) : Prop := status = .VALID ∨ status = .INVALID

/-- One move of the life of an image, or none. -/
inductive Advances : PalmImageStatus → PalmImageStatus → Prop
  | stay (status) : Advances status status
  | confirmed : Advances .UPLOADED .PENDING_REVIEW
  | rejected : Advances .UPLOADED .INVALID
  | validated : Advances .PENDING_REVIEW .VALID
  | invalidated : Advances .PENDING_REVIEW .INVALID

/-- What a write makes of a status, whoever makes it: `UPLOADED` is never written, and
only a confirmed image is validated. -/
def Rewrites (status status' : PalmImageStatus) : Prop :=
  status' = status ∨ status' = .PENDING_REVIEW ∨ status' = .INVALID ∨
    (status' = .VALID ∧ status ≠ .UPLOADED)

theorem Rewrites.advances {status status' : PalmImageStatus} (h : Rewrites status status')
    (hfinal : status.Final → status' = status) : Advances status status' := by
  rcases h with rfl | rfl | rfl | ⟨rfl, hup⟩
  · exact .stay _
  · cases status with
    | UPLOADED => exact .confirmed
    | PENDING_REVIEW => exact .stay _
    | VALID => cases hfinal (.inl rfl)
    | INVALID => cases hfinal (.inr rfl)
  · cases status with
    | UPLOADED => exact .rejected
    | PENDING_REVIEW => exact .invalidated
    | VALID => cases hfinal (.inl rfl)
    | INVALID => exact .stay _
  · cases status with
    | UPLOADED => exact absurd rfl hup
    | PENDING_REVIEW => exact .validated
    | VALID => exact .stay _
    | INVALID => cases hfinal (.inr rfl)

end PalmImageStatus

/-- The image has this status. -/
def HasStatus (imageId : Id) (status : PalmImageStatus) (D : Db) : Prop :=
  ∃ image, D.palmImages.lookup imageId = some image ∧ image.status = status

instance (imageId : Id) (status : PalmImageStatus) (D : Db) :
    Decidable (HasStatus imageId status D) :=
  decidable_of_iff ((D.palmImages.lookup imageId).any fun image => image.status = status)
    (by simp [HasStatus, Option.any_eq_true])

/-- The image has this status, and it is a final one. -/
def Settled (imageId : Id) (status : PalmImageStatus) (D : Db) : Prop :=
  status.Final ∧ HasStatus imageId status D

theorem Settled.unique {imageId : Id} (D : Db) (v w : PalmImageStatus)
    (hv : Settled imageId v D) (hw : Settled imageId w D) : v = w := by
  obtain ⟨-, image, himage, rfl⟩ := hv
  obtain ⟨-, image', himage', rfl⟩ := hw
  rw [Option.some.inj (himage.symm.trans himage')]

/-- The writes touch no image but this one. -/
def OnlyImage (imageId : Id) (D : Db) (L : List RowWrite) : Prop :=
  ∀ id, id ≠ imageId → (view L D).palmImages.lookup id = D.palmImages.lookup id

theorem onlyImage_nil (imageId : Id) (D : Db) : OnlyImage imageId D [] := fun _ _ => rfl

theorem onlyImage_write (imageId : Id) (D : Db) (row : PalmImage) :
    OnlyImage imageId D [.palmImage imageId (some row)] :=
  fun _ hid => Table.lookup_write_of_ne _ _ hid

theorem OnlyImage.settled {imageId id : Id} {D : Db} {L : List RowWrite} {v : PalmImageStatus}
    (h : OnlyImage imageId D L) (hid : id ≠ imageId) (hs : Settled id v D) :
    Settled id v (view L D) := by
  unfold Settled HasStatus
  rw [h id hid]
  exact hs

/-! ## The writes of each call -/

/-- The writes change no image, or this one by a write that may come at any time:
`PENDING_REVIEW` or `INVALID`. -/
def Confirms (imageId : Id) (D : Db) (L : List RowWrite) : Prop :=
  OnlyImage imageId D L ∧ ∀ image, D.palmImages.lookup imageId = some image →
    ∃ image', (view L D).palmImages.lookup imageId = some image' ∧
      (image'.status = image.status ∨ image'.status = .PENDING_REVIEW ∨ image'.status = .INVALID)

theorem confirms_nil (imageId : Id) (D : Db) : Confirms imageId D [] :=
  ⟨onlyImage_nil imageId D, fun image h => ⟨image, h, .inl rfl⟩⟩

namespace ReadingsService

variable (C : PalmImageConfig)

theorem every_updateImage (imageId : Id) {f : PalmImage → PalmImage}
    (hf : ∀ image, (f image).status = .PENDING_REVIEW ∨ (f image).status = .INVALID) :
    (updateImage imageId f).Every (Confirms imageId) := by
  unfold updateImage
  apply Proc.Every.bind
  · apply Proc.every_transaction
    intro D
    apply Db.palmImage.wp_update
    intro image _
    exact ⟨onlyImage_write imageId D _, fun _ _ =>
      ⟨f image, Table.lookup_write_self .., .inr (hf image)⟩⟩
  · exact fun _ => trivial

theorem every_confirmFound (key : String) (imageId : Id) :
    (confirmFound C key imageId).Every (Confirms imageId) := by
  apply every_confirmFound_of
  · exact fun _ hf => every_updateImage imageId hf
  · apply Proc.every_transaction
    intro D
    unfold addValidation
    apply Tx.wp_bind
    apply Db.imageAnalysisJob.wp_upsert
    · exact fun _ => confirms_nil imageId D
    · exact fun _ _ => confirms_nil imageId D

end ReadingsService

/-- The writes change no image, or give this one a final status. -/
def Validates (imageId : Id) (D : Db) (L : List RowWrite) : Prop :=
  OnlyImage imageId D L ∧ ∀ image, D.palmImages.lookup imageId = some image →
    ∃ image', (view L D).palmImages.lookup imageId = some image' ∧
      (image'.status = image.status ∨ image'.status.Final)

namespace PalmImageValidation

theorem every_validateFound (palmImageId : Id) (image : PalmImage) :
    (validateFound palmImageId image).Every (Validates palmImageId) := by
  apply every_validateFound_of
  intro D image' status validationError _ hfinal
  exact ⟨onlyImage_write palmImageId D _, fun _ _ =>
    ⟨_, Table.lookup_write_self .., .inr hfinal⟩⟩

/-- The failure handler leaves a `VALID` image, and makes any other one `INVALID`. -/
theorem every_onFailed (palmImageId : Id) (attemptsMade maxAttempts : Nat) :
    (onFailed palmImageId attemptsMade maxAttempts).Every fun D L =>
      OnlyImage palmImageId D L ∧ ∀ image, D.palmImages.lookup palmImageId = some image →
        ∃ image', (view L D).palmImages.lookup palmImageId = some image' ∧
          (image'.status = image.status ∨ image'.status = .INVALID ∧ image.status ≠ .VALID) := by
  apply every_onFailed_of
  · exact fun D => ⟨onlyImage_nil palmImageId D, fun image h => ⟨image, h, .inl rfl⟩⟩
  · intro D image himage hopen
    refine ⟨onlyImage_write palmImageId D _, fun image' himage' =>
      ⟨_, Table.lookup_write_self .., .inr ⟨rfl, ?_⟩⟩⟩
    obtain rfl : image = image' := Option.some.inj (himage.symm.trans himage')
    exact hopen

end PalmImageValidation

/-! ## No status comes back -/

/-- Images are rewritten by the rules of `Rewrites`, so a status other than
`UPLOADED` stays other than `UPLOADED`. -/
def imageDiscipline : Discipline Db RowWrite RowRef ImageCall where
  Mono D D' := Table.Persists (fun image image' : PalmImage =>
    image.status ≠ .UPLOADED → image'.status ≠ .UPLOADED) D.palmImages D'.palmImages
  mono_refl D := .refl (fun _ h => h) D.palmImages
  mono_trans := Table.Persists.trans fun h h' hup => h' (h hup)
  Inv _ := True
  inv_mono _ _ := trivial
  Effect _ D L := Table.Persists (fun image image' : PalmImage =>
    image.status.Rewrites image'.status) D.palmImages (view L D).palmImages
  mono_effect h id image himage := by
    obtain ⟨image', himage', hrewrites⟩ := h id image himage
    refine ⟨image', himage', fun hup => ?_⟩
    rcases hrewrites with hsame | hpending | hinvalid | ⟨hvalid, -⟩ <;> simp_all

variable {c : ImageCall} {D : Db} {L : List RowWrite} {imageId : Id}

theorem Confirms.effect (h : Confirms imageId D L) : imageDiscipline.Effect c D L := by
  intro id image himage
  by_cases hid : id = imageId
  · subst hid
    obtain ⟨image', himage', hstatus⟩ := h.2 image himage
    refine ⟨image', himage', ?_⟩
    rcases hstatus with hsame | hpending | hinvalid
    · exact .inl hsame
    · exact .inr (.inl hpending)
    · exact .inr (.inr (.inl hinvalid))
  · exact ⟨image, (h.1 id hid).trans himage, .inl rfl⟩

/-- A validation rewrites an image that has been confirmed. -/
theorem Validates.effect (h : Validates imageId D L)
    (hup : ∀ image, D.palmImages.lookup imageId = some image → image.status ≠ .UPLOADED) :
    imageDiscipline.Effect c D L := by
  intro id image himage
  by_cases hid : id = imageId
  · subst hid
    obtain ⟨image', himage', hstatus⟩ := h.2 image himage
    refine ⟨image', himage', ?_⟩
    rcases hstatus with hsame | hvalid | hinvalid
    · exact .inl hsame
    · exact .inr (.inr (.inr ⟨hvalid, hup image himage⟩))
    · exact .inr (.inr (.inl hinvalid))
  · exact ⟨image, (h.1 id hid).trans himage, .inl rfl⟩

theorem follows_validateImage (palmImageId : Id) :
    (PalmImageValidation.validateImage palmImageId).Follows imageDiscipline c
      (fun _ _ => True) D := by
  unfold PalmImageValidation.validateImage
  apply Proc.Follows.bind
  apply Proc.follows_select
  · exact fun _ _ _ => trivial
  intro D₀ D' _ _ hm
  cases hfind : Db.palmImage.find D₀ palmImageId with
  | none => exact fun _ _ => trivial
  | some image =>
      by_cases hpending : image.status = .PENDING_REVIEW
      · simp only [hpending, ne_eq, not_true_eq_false, if_false]
        refine Proc.follows_of_every
          (PalmImageValidation.every_validateFound palmImageId image) fun D'' L hm' hK _ =>
          hK.effect fun image'' himage'' => ?_
        obtain ⟨image', himage', hup⟩ := imageDiscipline.mono_trans hm hm' palmImageId image hfind
        obtain rfl : image' = image'' := Option.some.inj (himage'.symm.trans himage'')
        exact hup (by simp [hpending])
      · simp only [hpending, ne_eq, not_false_eq_true, if_true]
        exact fun _ _ => trivial

section Calls

variable (C : PalmImageConfig)

theorem every_confirmImage (userId readingId : Id) (key : String) :
    (ReadingsService.confirmImage C userId readingId key).Every (imageDiscipline.Effect c) := by
  apply ReadingsService.every_confirmImage_of_found
  · exact fun D => (confirms_nil "" D).effect
  · exact fun imageId =>
      (ReadingsService.every_confirmFound C key imageId).mono fun D L h => h.effect

theorem follows_prog (c : ImageCall) (D : Db) :
    (c.prog C).Follows imageDiscipline c (fun _ _ => True) D := by
  cases c with
  | confirmImage userId readingId key =>
      exact Proc.follows_of_every
        ((every_confirmImage C userId readingId key).bind fun _ => trivial) fun _ _ _ h _ => h
  | validateImage palmImageId => exact follows_validateImage palmImageId
  | onFailed palmImageId attemptsMade maxAttempts =>
      refine Proc.follows_of_every
        (PalmImageValidation.every_onFailed palmImageId attemptsMade maxAttempts)
        fun D' L _ h _ => Confirms.effect ⟨h.1, fun image himage => ?_⟩
      obtain ⟨image', himage', hstatus⟩ := h.2 image himage
      exact ⟨image', himage', hstatus.imp id fun h => .inr h.1⟩

/-! ## A final status stays -/

/-- A confirmation that finds its image with a final status is refused. -/
theorem checksAt_confirmImage (userId readingId : Id) (key : String) (imageId : Id)
    (v : PalmImageStatus) :
    (ReadingsService.confirmImage C userId readingId key).ChecksAt (Settled imageId v) 1 := by
  unfold ReadingsService.confirmImage ReadingsService.findOwnedDraft
  rw [bind_assoc]
  apply Proc.checksAt_select
  rintro (_ | r)
  · exact Proc.checksAt_throw _ 0
  by_cases hdraft : r.status = .DRAFT
  · simp only [hdraft, ne_eq, not_true_eq_false, if_false, Proc.checksAt_zero]
    apply Proc.checks_select
    rintro D ⟨hfinal, image, himage, rfl⟩
    cases hfind : (D.palmImages.findMany fun _ image =>
        image.readingId = readingId && image.storageKey = key).head? with
    | none => trivial
    | some e =>
        obtain ⟨id, found⟩ := e
        have hlookup : D.palmImages.lookup id = some found :=
          ((Table.mem_findMany _ _ _ _).mp (List.mem_of_head? hfind)).1
        simp only
        split
        · trivial
        · rename_i hup
          refine (ReadingsService.every_confirmFound C key id).mono fun D' L h hs =>
            h.1.settled (fun hid => ?_) hs
          subst hid
          obtain rfl : image = found := Option.some.inj (himage.symm.trans hlookup)
          rcases hfinal with h | h <;> simp [h] at hup
  · simp only [hdraft, ne_eq, not_false_eq_true, if_true]
    exact Proc.checksAt_throw _ 0

/-- A validation that finds its image with a final status ends there. -/
theorem checks_validateImage (palmImageId imageId : Id) (v : PalmImageStatus) :
    (PalmImageValidation.validateImage palmImageId).Checks (Settled imageId v) := by
  unfold PalmImageValidation.validateImage
  apply Proc.checks_select
  rintro D ⟨hfinal, image, himage, rfl⟩
  cases hfind : Db.palmImage.find D palmImageId with
  | none => trivial
  | some found =>
      simp only
      split
      · trivial
      · rename_i hpending
        refine (PalmImageValidation.every_validateFound palmImageId found).mono fun D' L h hs =>
          h.1.settled (fun hid => ?_) hs
        subst hid
        obtain rfl : image = found := Option.some.inj (himage.symm.trans hfind)
        rcases hfinal with h | h <;> simp [h] at hpending

theorem keeps_onFailed (palmImageId : Id) (attemptsMade maxAttempts : Nat) (imageId : Id)
    (v : PalmImageStatus) :
    (PalmImageValidation.onFailed palmImageId attemptsMade maxAttempts).Keeps
      (Settled imageId v) := by
  refine (PalmImageValidation.every_onFailed palmImageId attemptsMade maxAttempts).mono
    fun D L h hs => ?_
  by_cases hid : imageId = palmImageId
  · subst hid
    obtain ⟨hfinal, image, himage, rfl⟩ := hs
    obtain ⟨image', himage', hstatus⟩ := h.2 image himage
    refine ⟨hfinal, image', himage', ?_⟩
    rcases hstatus with hsame | ⟨hinvalid, hvalid⟩
    · exact hsame
    · rw [hinvalid, hfinal.resolve_left hvalid]
  · exact h.1.settled hid hs

/-- A call that reads an image after its status has become final leaves it so. -/
theorem checksAt_prog (c : ImageCall) (imageId : Id) (v : PalmImageStatus) :
    (c.prog C).ChecksAt (Settled imageId v) c.checkAt := by
  cases c with
  | confirmImage userId readingId key =>
      exact (checksAt_confirmImage C userId readingId key imageId v).bind fun _ => trivial
  | validateImage palmImageId =>
      exact (Proc.checksAt_zero _).mpr (checks_validateImage palmImageId imageId v)
  | onFailed palmImageId attemptsMade maxAttempts =>
      exact (keeps_onFailed palmImageId attemptsMade maxAttempts imageId v).checksAt 0

/-- A step that gives an image a final status leaves no request behind that has read the
image before and may still overwrite its status. -/
def SettlesAlone (s s' : ImagePool) : Prop :=
  ∀ imageId, s.SealsAlone ImageCall.checkAt (Settled imageId) s'

/-- In every run whose steps settle images alone, each event moves the status of each
image along its life, or leaves it. -/
theorem image_status_advances (D : Db) (s s' : ImagePool) (e : Event ImageCall Answer)
    (run : Pool.Reach (ImageCall.prog C) (fun _ => True) SettlesAlone (.idle D) s)
    (hs : s.step (ImageCall.prog C) e = some s') (hok : SettlesAlone s s') (imageId : Id)
    (image : PalmImage) (h : s.db.palmImages.lookup imageId = some image) :
    ∃ image', s'.db.palmImages.lookup imageId = some image' ∧
      image.status.Advances image'.status := by
  have he : e.Starts fun _ => True := by cases e <;> trivial
  have hmoved := Pool.step_moved he hs
  have hfollow := (Pool.Reach.following (fun _ h => h) (fun c _ D _ => follows_prog C c D) trivial
    (Pool.following_idle D) run).1
  have hrewrites : ∃ image', s'.db.palmImages.lookup imageId = some image' ∧
      image.status.Rewrites image'.status := by
    obtain ⟨-, hstep⟩ := hfollow.moved (fun _ h => h) (fun c _ D _ => follows_prog C c D) trivial
      hmoved
    rcases hstep with ⟨hdb, -⟩ | ⟨c, L, ⟨-, heffect⟩, hdb, -⟩
    · exact ⟨image, hdb ▸ h, .inl rfl⟩
    · rw [hdb]
      exact heffect imageId image h
  obtain ⟨image', himage', hrewrites⟩ := hrewrites
  refine ⟨image', himage', hrewrites.advances fun hfinal => ?_⟩
  have hsettled : Settled imageId image.status s'.db :=
    Pool.Reach.sealed Settled.unique (fun v c _ => checksAt_prog C c imageId v)
      (fun _ _ hok => hok imageId) run (.step .refl he hs hok) ⟨hfinal, image, h, rfl⟩
  obtain ⟨-, image'', himage'', hstatus⟩ := hsettled
  rwa [Option.some.inj (himage'.symm.trans himage'')]

end Calls

/-- Images of at most a thousand bytes, all of 300 by 300 pixels, kept for a day. -/
def samplePalmConfig : PalmImageConfig := ⟨1000, 24, fun _ => some (300, 300)⟩

/-- A draft palm reading with one uploaded image. -/
def uploadedDb : Db :=
  { sampleDb with
    palmImages := (∅ : Table Id PalmImage).write "i1"
      (some ⟨"r1", "k1", .UPLOADED, none, 0, none, none, none, none, none, none, none⟩) }

/-- Answers for concrete runs: the object is a JPEG of ten bytes, which the AI finds legible. -/
def imageAnswer : (q : Query) → Answer q
  | .headObject _ => some 10
  | .downloadObject _ => [0xff, 0xd8, 0xff]
  | .execute _ =>
      ⟨"e1", .COMPLETED, some (.obj [(.ofAscii "isLegiblePalm".toList, .bool true),
        (.ofAscii "reason".toList, .str [])]), none⟩
  | q => sampleAnswer .COMPLETED q

/-- `n` steps of task `t`, all made. -/
def imageSteps (t n : Nat) : List (Event ImageCall Answer) :=
  List.replicate n (.go t .done imageAnswer)

/-- No image gets another final status between the two databases. -/
def noSettling (D D' : Db) : Bool :=
  D'.palmImages.toRows.all fun e => (e.2.status ≠ .VALID && e.2.status ≠ .INVALID) ||
    (D.palmImages.lookup e.1).any fun image => image.status = e.2.status

theorem settlesAlone_of_noSettling {s s' : ImagePool} (h : noSettling s.db s'.db = true) :
    SettlesAlone s s' := by
  rintro imageId hnot v ⟨hfinal, image, himage, rfl⟩
  have hrow := List.all_eq_true.mp h _ ((Table.mem_toRows _ _ _).mpr himage)
  have hsame : HasStatus imageId image.status s.db := by
    rcases hfinal with hv | hv <;> simpa [hv, Option.any_eq_true, HasStatus] using hrow
  exact absurd ⟨hfinal, hsame⟩ (hnot image.status)

/-- An image is confirmed, and the validation that then runs alone makes it valid. -/
theorem image_status_advances_of_validation : ∃ (s s' : ImagePool) (image' : PalmImage),
    HasStatus "i1" .PENDING_REVIEW s.db ∧ s'.db.palmImages.lookup "i1" = some image' ∧
      image'.status = .VALID ∧ PalmImageStatus.Advances .PENDING_REVIEW image'.status := by
  obtain ⟨s, k, image, hs, hgone, hk, himage, hstatus, hrest, hvalid⟩ :
      ∃ (s : ImagePool) (k : Task Db RowWrite Err ImageCall Answer Unit) (image : PalmImage),
        Pool.run (ImageCall.prog samplePalmConfig) noSettling (.idle uploadedDb)
          (.spawn 0 (.confirmImage "ana" "r1" "k1") :: imageSteps 0 8 ++
            [.kill 0, .spawn 1 (.validateImage "i1")] ++ imageSteps 1 4) = some s ∧
        s.tasks 0 = none ∧ s.tasks 1 = some k ∧ s.db.palmImages.lookup "i1" = some image ∧
        image.status = .PENDING_REVIEW ∧ (k.rest.step s.db .done imageAnswer).2 = .ret () ∧
        HasStatus "i1" .VALID (s.advance 1 k .done imageAnswer).db := by
    refine ⟨_, _, _, rfl, rfl, rfl, rfl, rfl, rfl, ?_⟩
    decide
  have run : Pool.Reach (ImageCall.prog samplePalmConfig) (fun _ => True) SettlesAlone
      (.idle uploadedDb) s :=
    Pool.Reach.refl.run (fun _ _ => settlesAlone_of_noSettling) _
      (by simp [imageSteps, Event.Starts]) hs
  have hstep : s.step (ImageCall.prog samplePalmConfig) (.go 1 .done imageAnswer) =
      some (s.advance 1 k .done imageAnswer) := by
    simp [Pool.step, hk]
  have alone : ∀ u, u ≠ 1 → s.tasks u = none := by
    intro u hu
    by_cases h0 : u = 0
    · rw [h0, hgone]
    · exact Pool.tasks_run (by simp [imageSteps, Event.task, Ne.symm h0, Ne.symm hu]) hs
  obtain ⟨image', himage', hadvances⟩ := image_status_advances samplePalmConfig uploadedDb s _ _
    run hstep (fun _ _ _ _ => .of_alone alone (by rw [hrest]; trivial)) "i1" image himage
  obtain ⟨image'', himage'', hvalid⟩ := hvalid
  obtain rfl : image' = image'' := Option.some.inj (himage'.symm.trans himage'')
  exact ⟨s, _, image', ⟨image, himage, hstatus⟩, himage', hvalid, hstatus ▸ hadvances⟩

/-- Two confirmations read the uploaded image, one of them accepts it and a validation
finds it legible; the other confirmation then takes it back to review. -/
theorem validated_image_under_review : ∃ (s s' : ImagePool) (e : Event ImageCall Answer)
    (image image' : PalmImage),
    Pool.Reach (ImageCall.prog samplePalmConfig) (fun _ => True) (fun _ _ => True)
      (.idle uploadedDb) s ∧
    s.step (ImageCall.prog samplePalmConfig) e = some s' ∧
    s.db.palmImages.lookup "i1" = some image ∧ s'.db.palmImages.lookup "i1" = some image' ∧
    image.status = .VALID ∧ ¬ image.status.Advances image'.status := by
  refine ⟨_, _, .go 1 .done imageAnswer, _, _, Pool.Reach.of_run
      ([.spawn 0 (.confirmImage "ana" "r1" "k1"), .spawn 1 (.confirmImage "ana" "r1" "k1"),
        .spawn 2 (.validateImage "i1")] ++
        imageSteps 1 6 ++ imageSteps 0 8 ++ imageSteps 2 5) rfl, rfl, rfl, rfl, rfl, ?_⟩
  rintro ⟨⟩

end TaroTria
