import TaroTria.Readings.ImageLifecycle
import TaroTria.Readings.ImageWrites
import TaroTria.Transactions.SharedWorld

/-!
# The retention of uploaded images

The cleanup deletes the objects of the images whose retention has ended, and only the
accepting exit of a confirmation gives an image a retention. So every confirmed upload is
deleted in its time if no image is rejected while its object is in the bucket, and a
rejected object stays for ever otherwise.
-/

namespace TaroTria

open Transactions

namespace ImageRetention

/-- The requests on palm images. -/
inductive ImageRequest
  | presignImage (userId readingId : Id) (contentType : PalmImageMimeType)
  | confirmImage (userId readingId : Id) (key : String)
  | validateImage (palmImageId : Id)
  | onFailed (palmImageId : Id) (attemptsMade maxAttempts : Nat)
  | deleteExpiredImages

/-- The request of a call. It returns the image that it confirms. -/
def ImageRequest.prog (C : PalmImageConfig) : ImageRequest → Request (Option Id)
  | presignImage userId readingId contentType => do
      let _ ← ReadingsService.presignImage userId readingId contentType
      return none
  | confirmImage userId readingId key => do
      let summary ← ReadingsService.confirmImage C userId readingId key
      return some summary.id
  | validateImage palmImageId => do
      PalmImageValidation.validateImage palmImageId
      return none
  | onFailed palmImageId attemptsMade maxAttempts => do
      PalmImageValidation.onFailed palmImageId attemptsMade maxAttempts
      return none
  | deleteExpiredImages => do
      ImageCleanup.deleteExpiredImages
      return none

/-- The bucket, the clock, and the images whose confirmation has returned, with the time. -/
structure Surroundings where
  objects : Table String Buffer
  clock : Time
  confirmed : List (Id × Time)

/-- What a call may be answered, and what it leaves. Every call may fail, and a deletion
that fails may be made. -/
def Replies (q : Query) (w : Surroundings) (r : Except Err (Answer q)) (w' : Surroundings) :
    Prop :=
  match q, r with
  | .now, .ok t => t = w.clock ∧ w' = w
  | .headObject key, .ok size => size = (w.objects.lookup key).map List.length ∧ w' = w
  | .downloadObject key, .ok bytes => w.objects.lookup key = some bytes ∧ w' = w
  | .deleteObject key, .ok _ => w' = { w with objects := w.objects.write key none }
  | .deleteObject key, .error _ =>
      w' = w ∨ w' = { w with objects := w.objects.write key none }
  | _, _ => w' = w

/-- Users upload objects, and time passes. -/
inductive Moves (w : Surroundings) : Surroundings → Prop
  | upload (key : String) (bytes : Buffer) :
      Moves w { w with objects := w.objects.write key (some bytes) }
  | pass (t : Time) (h : w.clock ≤ t) : Moves w { w with clock := t }

/-- The service of palm images. -/
def service (C : PalmImageConfig) :
    Setting Db RowWrite Err Surroundings ImageRequest Answer (Option Id) where
  prog := ImageRequest.prog C
  reply := Replies
  moves := Moves
  returns _ id w := match id with
    | some id => { w with confirmed := (id, w.clock) :: w.confirmed }
    | none => w

/-- `PALM_IMAGE_RETENTION_HOURS` in milliseconds. -/
def retention (C : PalmImageConfig) : Nat := C.palmImageRetentionHours * 60 * 60 * 1000

/-- Each confirmed image whose object is in the bucket is one for the cleanup, from the end
of its retention on. -/
def Covered (C : PalmImageConfig) (w : Surroundings) (D : Db) : Prop :=
  ∀ id t, (id, t) ∈ w.confirmed → ∀ image, D.palmImages.lookup id = some image →
    (w.objects.lookup image.storageKey).isSome → t + retention C ≤ w.clock →
      ImageCleanup.expired w.clock image = true

/-- A step of the service is careful: it takes no image out of `UPLOADED` without a
retention while its object is in the bucket, it leaves the retention of the images that
are out of it, and it puts no object under the key of such an image. -/
structure Careful (w : Surroundings) (D : Db) (w' : Surroundings) (D' : Db) : Prop where
  rejects : ∀ id image image', D.palmImages.lookup id = some image →
    D'.palmImages.lookup id = some image' → image.status = .UPLOADED →
      image'.status ≠ .UPLOADED → image'.expiresAt = none →
        w.objects.lookup image.storageKey = none
  retains : ∀ id image image', D.palmImages.lookup id = some image →
    D'.palmImages.lookup id = some image' → image.status ≠ .UPLOADED →
      image'.expiresAt = image.expiresAt
  uploads : ∀ id image, D.palmImages.lookup id = some image → image.status ≠ .UPLOADED →
    w.objects.lookup image.storageKey = none → w'.objects.lookup image.storageKey = none

/-- The image has been confirmed or rejected. -/
def Decided (id : Id) (D : Db) : Prop :=
  ∃ image, D.palmImages.lookup id = some image ∧ image.status ≠ .UPLOADED

/-- What careful steps keep: the bounds of the retentions, and which objects are gone. -/
structure Inv (C : PalmImageConfig) (w : Surroundings) (D : Db) : Prop where
  expiry : ∀ id image e, D.palmImages.lookup id = some image → image.expiresAt = some e →
    e ≤ w.clock + retention C ∧ image.status ≠ .UPLOADED
  bare : ∀ id image, D.palmImages.lookup id = some image → image.status ≠ .UPLOADED →
    image.expiresAt = none → w.objects.lookup image.storageKey = none
  deleted : ∀ id image, D.palmImages.lookup id = some image → image.deletedAt.isSome →
    image.status ≠ .UPLOADED ∧ w.objects.lookup image.storageKey = none
  confirmed : ∀ id t, (id, t) ∈ w.confirmed → ∃ image, D.palmImages.lookup id = some image ∧
    image.status ≠ .UPLOADED ∧ ∀ e, image.expiresAt = some e → e ≤ t + retention C

/-- What a request has seen of the clock, the images and the bucket and still holds. -/
structure Later (w : Surroundings) (D : Db) (w' : Surroundings) (D' : Db) : Prop where
  clock : w.clock ≤ w'.clock
  rows : ∀ id image, D.palmImages.lookup id = some image →
    ∃ image', D'.palmImages.lookup id = some image' ∧ image'.storageKey = image.storageKey ∧
      (image.status ≠ .UPLOADED → image'.status ≠ .UPLOADED)
  gone : ∀ id image, D.palmImages.lookup id = some image → image.status ≠ .UPLOADED →
    w.objects.lookup image.storageKey = none → w'.objects.lookup image.storageKey = none

theorem Inv.covered {C : PalmImageConfig} {w : Surroundings} {D : Db} (h : Inv C w D) :
    Covered C w D := by
  intro id t hmem image hlookup hobject hpassed
  obtain ⟨image', hlookup', hdecided, hbound⟩ := h.confirmed id t hmem
  cases hlookup'.symm.trans hlookup
  have hthere : w.objects.lookup image.storageKey ≠ none := Option.isSome_iff_ne_none.mp hobject
  have hkept : image.deletedAt = none := by
    by_contra hdeleted
    exact hthere (h.deleted id image hlookup (Option.isSome_iff_ne_none.mpr hdeleted)).2
  cases hexpiry : image.expiresAt with
  | none => exact absurd (h.bare id image hlookup hdecided hexpiry) hthere
  | some e =>
      have hended : e ≤ w.clock := (hbound e hexpiry).trans hpassed
      simp [ImageCleanup.expired, hexpiry, hkept, hended]

theorem later_refl (w : Surroundings) (D : Db) : Later w D w D where
  clock := le_rfl
  rows _ image h := ⟨image, h, rfl, id⟩
  gone _ _ _ _ := id

theorem Later.trans {w₁ w₂ w₃ : Surroundings} {D₁ D₂ D₃ : Db} (h : Later w₁ D₁ w₂ D₂)
    (h' : Later w₂ D₂ w₃ D₃) : Later w₁ D₁ w₃ D₃ where
  clock := h.clock.trans h'.clock
  rows id image hlookup := by
    obtain ⟨image', hlookup', hkey, hdecided⟩ := h.rows id image hlookup
    obtain ⟨image'', hlookup'', hkey', hdecided'⟩ := h'.rows id image' hlookup'
    exact ⟨image'', hlookup'', hkey'.trans hkey, hdecided' ∘ hdecided⟩
  gone id image hlookup hdecided hgone := by
    obtain ⟨image', hlookup', hkey, hdecided'⟩ := h.rows id image hlookup
    have hgone' := h.gone id image hlookup hdecided hgone
    exact hkey ▸ h'.gone id image' hlookup' (hdecided' hdecided) (hkey ▸ hgone')

/-- The invariant and the preorder of careful steps. -/
def rely (C : PalmImageConfig) : Rely Surroundings Db where
  Inv := Inv C
  Later := Later
  refl := later_refl
  trans := Later.trans

/-! ## What each step keeps -/

section Keeping

variable {C : PalmImageConfig} {w : Surroundings} {D : Db}

/-- The world changes, and the rows do not. -/
theorem Inv.keeps_world {w' : Surroundings} (h : Inv C w D) (hclock : w.clock ≤ w'.clock)
    (hconfirmed : w'.confirmed = w.confirmed) (hcareful : Careful w D w' D) :
    (rely C).Keeps w D w' D := by
  refine ⟨⟨fun id image e hlookup hexpiry => ?_, fun id image hlookup hdecided hexpiry => ?_,
    fun id image hlookup hdeleted => ?_, fun id t hmem => ?_⟩,
    ⟨hclock, fun id image hlookup => ⟨image, hlookup, rfl, fun hup => hup⟩, hcareful.uploads⟩⟩
  · obtain ⟨hbound, hdecided⟩ := h.expiry id image e hlookup hexpiry
    exact ⟨hbound.trans (Nat.add_le_add_right hclock _), hdecided⟩
  · exact hcareful.uploads id image hlookup hdecided (h.bare id image hlookup hdecided hexpiry)
  · obtain ⟨hdecided, hgone⟩ := h.deleted id image hlookup hdeleted
    exact ⟨hdecided, hcareful.uploads id image hlookup hdecided hgone⟩
  · exact h.confirmed id t (hconfirmed ▸ hmem)

/-- Rows of other tables are written. -/
theorem Inv.keeps_other {D' : Db} (h : Inv C w D) (hsame : D'.palmImages = D.palmImages) :
    (rely C).Keeps w D w D' := by
  refine ⟨⟨?_, ?_, ?_, ?_⟩, ⟨le_rfl, ?_, ?_⟩⟩
  · simpa only [hsame] using h.expiry
  · simpa only [hsame] using h.bare
  · simpa only [hsame] using h.deleted
  · simpa only [hsame] using h.confirmed
  · exact fun id image hlookup => ⟨image, hsame ▸ hlookup, rfl, fun hup => hup⟩
  · exact fun _ _ _ _ => id

theorem lookup_image {id id' : Id} {row image : PalmImage}
    (h : (view [.palmImage id (some row)] D).palmImages.lookup id' = some image) :
    (id' = id ∧ image = row) ∨ (id' ≠ id ∧ D.palmImages.lookup id' = some image) := by
  change (D.palmImages.write id (some row)).lookup id' = some image at h
  rw [Table.lookup_write] at h
  split at h
  · rename_i hid
    exact .inl ⟨hid, (Option.some.inj h).symm⟩
  · rename_i hid
    exact .inr ⟨hid, h⟩

theorem lookup_image_ne {id id' : Id} {row : Option PalmImage} (hid : id' ≠ id) :
    (view [.palmImage id row] D).palmImages.lookup id' = D.palmImages.lookup id' :=
  Table.lookup_write_of_ne _ _ hid

theorem lookup_image_self {id : Id} {row : PalmImage} :
    (view [.palmImage id (some row)] D).palmImages.lookup id = some row :=
  Table.lookup_write_self ..

/-- A new upload slot. -/
theorem Inv.keeps_create {id : Id} {row : PalmImage} (h : Inv C w D)
    (hnone : D.palmImages.lookup id = none) (hup : row.status = .UPLOADED)
    (hexpiry : row.expiresAt = none) (hdeleted : row.deletedAt = none) :
    (rely C).Keeps w D w (view [.palmImage id (some row)] D) := by
  have hne : ∀ id' image, D.palmImages.lookup id' = some image → id' ≠ id := by
    rintro id' image hlookup rfl
    cases hnone.symm.trans hlookup
  refine ⟨⟨fun id' image e hlookup he => ?_, fun id' image hlookup hdecided hbare => ?_,
    fun id' image hlookup hdel => ?_, fun id' t hmem => ?_⟩,
    ⟨le_rfl, fun id' image hlookup => ⟨image, ?_, rfl, fun hdecided => hdecided⟩,
      fun _ _ _ _ hgone => hgone⟩⟩
  · rcases lookup_image hlookup with ⟨-, rfl⟩ | ⟨-, hold⟩
    · cases hexpiry.symm.trans he
    · exact h.expiry id' image e hold he
  · rcases lookup_image hlookup with ⟨-, rfl⟩ | ⟨-, hold⟩
    · exact absurd hup hdecided
    · exact h.bare id' image hold hdecided hbare
  · rcases lookup_image hlookup with ⟨-, rfl⟩ | ⟨-, hold⟩
    · rw [hdeleted] at hdel
      cases hdel
    · exact h.deleted id' image hold hdel
  · obtain ⟨image, hold, hrest⟩ := h.confirmed id' t hmem
    exact ⟨image, (lookup_image_ne (hne id' image hold)).trans hold, hrest⟩
  · exact (lookup_image_ne (hne id' image hlookup)).trans hlookup

/-- A decision on an image, or a mark of its deletion. -/
theorem Inv.keeps_update {id : Id} {image row : PalmImage} (h : Inv C w D)
    (hlookup : D.palmImages.lookup id = some image) (hkey : row.storageKey = image.storageKey)
    (hdecided : row.status ≠ .UPLOADED)
    (hexpiry : ∀ e, row.expiresAt = some e → e ≤ w.clock + retention C)
    (hdeleted : row.deletedAt.isSome → w.objects.lookup image.storageKey = none)
    (hcareful : Careful w D w (view [.palmImage id (some row)] D)) :
    (rely C).Keeps w D w (view [.palmImage id (some row)] D) := by
  refine ⟨⟨fun id' image' e hlookup' he => ?_, fun id' image' hlookup' hdecided' hbare => ?_,
    fun id' image' hlookup' hdel => ?_, fun id' t hmem => ?_⟩,
    ⟨le_rfl, fun id' image' hlookup' => ?_, fun _ _ _ _ hgone => hgone⟩⟩
  · rcases lookup_image hlookup' with ⟨-, rfl⟩ | ⟨-, hold⟩
    · exact ⟨hexpiry e he, hdecided⟩
    · exact h.expiry id' image' e hold he
  · rcases lookup_image hlookup' with ⟨-, rfl⟩ | ⟨-, hold⟩
    · -- It had no retention before, or it is rejected now.
      rw [hkey]
      by_cases hup : image.status = .UPLOADED
      · exact hcareful.rejects id image _ hlookup lookup_image_self hup hdecided hbare
      · have hsame := hcareful.retains id image _ hlookup lookup_image_self hup
        exact h.bare id image hlookup hup (hsame.symm.trans hbare)
    · exact h.bare id' image' hold hdecided' hbare
  · rcases lookup_image hlookup' with ⟨-, rfl⟩ | ⟨-, hold⟩
    · exact ⟨hdecided, hkey ▸ hdeleted hdel⟩
    · exact h.deleted id' image' hold hdel
  · obtain ⟨image', hold, hdecided', hbound⟩ := h.confirmed id' t hmem
    by_cases hid : id' = id
    · subst hid
      cases hold.symm.trans hlookup
      have hsame := hcareful.retains id' image row hlookup lookup_image_self hdecided'
      exact ⟨row, lookup_image_self, hdecided, fun e he => hbound e (hsame.symm.trans he)⟩
    · exact ⟨image', (lookup_image_ne hid).trans hold, hdecided', hbound⟩
  · by_cases hid : id' = id
    · subst hid
      cases hlookup'.symm.trans hlookup
      exact ⟨row, lookup_image_self, hkey, fun _ => hdecided⟩
    · exact ⟨image', (lookup_image_ne hid).trans hlookup', rfl, fun hdecided' => hdecided'⟩

theorem Decided.later {id : Id} {w' : Surroundings} {D' : Db} (h : Decided id D)
    (hl : Later w D w' D') : Decided id D' := by
  obtain ⟨image, hlookup, hdecided⟩ := h
  obtain ⟨image', hlookup', -, hdecided'⟩ := hl.rows id image hlookup
  exact ⟨image', hlookup', hdecided' hdecided⟩

/-- A confirmation returns, after its image is decided. -/
theorem Inv.keeps_returns {id : Option Id} (h : Inv C w D)
    (hdecided : ∀ imageId, id = some imageId → Decided imageId D) (c : ImageRequest) :
    (rely C).Keeps w D ((service C).returns c id w) D := by
  cases id with
  | none => exact (rely C).keeps_refl h
  | some imageId =>
      refine ⟨⟨h.expiry, h.bare, h.deleted, fun id t hmem => ?_⟩,
        ⟨le_rfl, (later_refl w D).rows, (later_refl w D).gone⟩⟩
      rcases List.mem_cons.mp hmem with heq | hmem
      · cases heq
        obtain ⟨image, hlookup, hup⟩ := hdecided imageId rfl
        exact ⟨image, hlookup, hup, fun e he => (h.expiry _ image e hlookup he).1⟩
      · exact h.confirmed id t hmem

theorem Replies.world {q : Query} {r : Except Err (Answer q)} {w' : Surroundings}
    (h : Replies q w r w') : w'.clock = w.clock ∧ w'.confirmed = w.confirmed := by
  unfold Replies at h
  split at h
  · exact ⟨congrArg _ h.2, congrArg _ h.2⟩
  · exact ⟨congrArg _ h.2, congrArg _ h.2⟩
  · exact ⟨congrArg _ h.2, congrArg _ h.2⟩
  · subst h
    exact ⟨rfl, rfl⟩
  · rcases h with rfl | rfl <;> exact ⟨rfl, rfl⟩
  · subst h
    exact ⟨rfl, rfl⟩

theorem Inv.keeps_reply {q : Query} {r : Except Err (Answer q)} {w' : Surroundings}
    (h : Inv C w D) (hreply : Replies q w r w') (hcareful : Careful w D w' D) :
    (rely C).Keeps w D w' D :=
  h.keeps_world hreply.world.1.ge hreply.world.2 hcareful

theorem Inv.keeps_move {w' : Surroundings} (h : Inv C w D) (hmove : Moves w w')
    (hcareful : Careful w D w' D) : (rely C).Keeps w D w' D := by
  cases hmove with
  | upload key bytes => exact h.keeps_world le_rfl rfl hcareful
  | pass t hle => exact h.keeps_world hle rfl hcareful

end Keeping

/-! ## The requests -/

section Requests

variable {C : PalmImageConfig} {w : Surroundings} {D : Db}

/-- The request keeps what careful steps keep, and ends in `P`. -/
abbrev Minded (C : PalmImageConfig) {α : Type} (P : Except Err α → Surroundings → Db → Prop)
    (p : Request α) (w : Surroundings) (D : Db) : Prop :=
  p.Minds (service C) Careful (rely C) P w D

/-- The end of a request: the image that it returns is decided. -/
def Ends (r : Except Err (Option Id)) (_ : Surroundings) (D : Db) : Prop :=
  ∀ id, r = .ok (some id) → Decided id D

/-- What the transactions of the requests write, when they need not have seen anything. -/
inductive Plain (D : Db) : List RowWrite → Prop
  | other (L) (h : (view L D).palmImages = D.palmImages) : Plain D L
  | create (id row) (hnone : D.palmImages.lookup id = none) (hup : row.status = .UPLOADED)
      (hexpiry : row.expiresAt = none) (hdeleted : row.deletedAt = none) :
      Plain D [.palmImage id (some row)]
  | decide (id image status validationError) (hlookup : D.palmImages.lookup id = some image)
      (hstatus : status ≠ .UPLOADED) :
      Plain D [.palmImage id (some { image with status, validationError })]

theorem Inv.keeps_plain {L : List RowWrite} (h : Inv C w D) (hplain : Plain D L)
    (hcareful : Careful w D w (view L D)) : (rely C).Keeps w D w (view L D) := by
  cases hplain with
  | other L hsame => exact h.keeps_other hsame
  | create id row hnone hup hexpiry hdeleted =>
      exact h.keeps_create hnone hup hexpiry hdeleted
  | decide id image status validationError hlookup hstatus =>
      exact h.keeps_update hlookup rfl hstatus (fun e he => (h.expiry id image e hlookup he).1)
        (fun hdel => (h.deleted id image hlookup hdel).2) hcareful

/-- The end of a confirmation. -/
def Summarizes (r : Except Err PalmImageSummary) (_ : Surroundings) (D : Db) : Prop :=
  ∀ s, r = .ok s → Decided s.id D

theorem summarizes_error (e : Err) (w : Surroundings) (D : Db) : Summarizes (.error e) w D :=
  fun _ h => by cases h

theorem ends_none (w : Surroundings) (D : Db) : Ends (.ok none) w D := fun _ h => by cases h

theorem ends_error (e : Err) (w : Surroundings) (D : Db) : Ends (.error e) w D :=
  fun _ h => by cases h

/-- A request that writes plainly and returns no image. -/
theorem minded_plain {α : Type} {p : Request α} (hp : p.Every Plain) :
    Minded C Ends (p >>= fun _ => pure none) w D := by
  refine Proc.Minds.bind (hp.minds (fun _ _ _ hI hK hcareful => hI.keeps_plain hK hcareful)
    (fun _ _ _ _ _ hI hr hcareful => hI.keeps_reply hr hcareful) fun r w' D' _ => ?_)
  cases r with
  | ok a => exact fun w'' D'' _ => ends_none w'' D''
  | error e => exact ends_error e w' D'

theorem plain_nil (D : Db) : Plain D [] := .other [] rfl

theorem every_presignImage (userId readingId : Id) (contentType : PalmImageMimeType) :
    (ReadingsService.presignImage userId readingId contentType).Every Plain :=
  ReadingsService.every_presignImage_of plain_nil
    (fun _ id row hnone hup hexpiry hdeleted => .create id row hnone hup hexpiry hdeleted)
    userId readingId contentType

theorem every_validateImage (palmImageId : Id) :
    (PalmImageValidation.validateImage palmImageId).Every Plain := by
  apply (Proc.every_select plain_nil _).bind
  rintro (_ | image)
  · trivial
  simp only
  split
  · trivial
  apply PalmImageValidation.every_validateFound_of
  intro D image' status validationError hlookup hfinal
  apply Plain.decide palmImageId image' status validationError hlookup
  rintro rfl
  simp at hfinal

theorem every_onFailed (palmImageId : Id) (attemptsMade maxAttempts : Nat) :
    (PalmImageValidation.onFailed palmImageId attemptsMade maxAttempts).Every Plain :=
  PalmImageValidation.every_onFailed_of plain_nil
    (fun _ image hlookup _ => .decide palmImageId image .INVALID _ hlookup (by simp))
    attemptsMade maxAttempts

/-- A call that is not looked at, in a longer request. -/
theorem minded_call {q : Query} {P : Except Err (Answer q) → Surroundings → Db → Prop}
    (h : ∀ r w' D', Later w D w' D' → P r w' D') :
    Minded C P (Proc.call q : Request (Answer q)) w D := by
  refine Proc.minds_call fun w' D' hl hI r w'' hreply hcareful => ?_
  have hkeeps := hI.keeps_reply hreply hcareful
  exact ⟨hkeeps, fun w₁ D₁ hl' => h r w₁ D₁ (hl.trans (hkeeps.later.trans hl'))⟩

/-- The time that a request reads has come. -/
theorem minded_now {P : Except Err Time → Surroundings → Db → Prop}
    (herr : ∀ e w' D', P (.error e) w' D')
    (hok : ∀ t w' D', Later w D w' D' → t ≤ w'.clock → P (.ok t) w' D') :
    Minded C P (Proc.call Query.now : Request Time) w D := by
  refine Proc.minds_call fun w' D' hl hI r w'' hreply hcareful => ?_
  have hkeeps := hI.keeps_reply hreply hcareful
  refine ⟨hkeeps, fun w₁ D₁ hl' => ?_⟩
  cases r with
  | error e => exact herr e w₁ D₁
  | ok t =>
      have ht : t ≤ w'.clock := hreply.1.le
      exact hok t w₁ D₁ (hl.trans (hkeeps.later.trans hl'))
        (ht.trans (hkeeps.later.clock.trans hl'.clock))

/-- A decision on an image, with a retention from a time that has come. -/
theorem minded_updateImage {imageId : Id} {f : PalmImage → PalmImage} {t : Time}
    (ht : t ≤ w.clock) (hkey : ∀ image, (f image).storageKey = image.storageKey)
    (hdeleted : ∀ image, (f image).deletedAt = image.deletedAt)
    (hdecided : ∀ image, (f image).status ≠ .UPLOADED)
    (hexpiry : ∀ image, (f image).expiresAt = image.expiresAt ∨
      (f image).expiresAt = some (t + retention C)) :
    Minded C Summarizes (ReadingsService.updateImage imageId f) w D := by
  unfold ReadingsService.updateImage
  refine Proc.Minds.bind (Proc.minds_transaction (fun e w' D' _ => summarizes_error e w' D')
    fun w' D' hl hI => Db.palmImage.wp_update fun image hlookup hcareful => ?_)
  have hkeeps := hI.keeps_update hlookup (hkey image) (hdecided image)
    (fun e he => ?_) (fun hdel => ?_) hcareful
  · refine ⟨hkeeps, fun w₁ D₁ hl' w₂ D₂ hl'' s hs => ?_⟩
    cases hs
    have hdone : Decided imageId (view [.palmImage imageId (some (f image))] D') :=
      ⟨f image, lookup_image_self, hdecided image⟩
    exact hdone.later (hl'.trans hl'')
  · rcases hexpiry image with hsame | hnew
    · exact (hI.expiry imageId image e hlookup (hsame.symm.trans he)).1
    · cases hnew.symm.trans he
      exact Nat.add_le_add_right (ht.trans hl.clock) _
  · exact (hI.deleted imageId image hlookup (hdeleted image ▸ hdel)).2

theorem minded_invalidate (imageId : Id) (reason : String) :
    Minded C Summarizes (ReadingsService.invalidate imageId reason) w D :=
  minded_updateImage (Nat.zero_le _) (fun _ => rfl) (fun _ => rfl) (fun _ => by simp)
    fun _ => .inl rfl

/-- A transaction that writes rows of other tables. -/
theorem minded_other {α : Type} {body : TxM α} {P : Except Err α → Surroundings → Db → Prop}
    (hbody : ∀ D : Db, body.wp still D (fun _ L => (view L D).palmImages = D.palmImages) [])
    (h : ∀ r w' D', Later w D w' D' → P r w' D') :
    Minded C P (Proc.transaction body : Request α) w D := by
  refine Proc.minds_transaction (fun e w' D' hl => h (.error e) w' D' hl) fun w' D' hl hI => ?_
  refine Tx.wp_mono (fun a L hsame _ => ?_) (hbody D')
  have hkeeps := hI.keeps_other hsame
  exact ⟨hkeeps, fun w'' D'' hl' => h (.ok a) w'' D'' (hl.trans (hkeeps.later.trans hl'))⟩

theorem minded_acceptImage (imageId : Id) (mimeType : PalmImageMimeType)
    (sizeBytes widthPx heightPx : Nat) : Minded C Summarizes
      (ReadingsService.acceptImage C imageId mimeType sizeBytes widthPx heightPx) w D := by
  unfold ReadingsService.acceptImage
  refine Proc.Minds.bind (minded_now (fun e w' D' => summarizes_error e w' D')
    fun now w' D' _ hnow => ?_)
  refine Proc.Minds.bind (minded_call fun r w' D' hl => ?_)
  cases r with
  | error e => exact summarizes_error e w' D'
  | ok consentAt =>
      have hupdate : Minded C Summarizes (ReadingsService.updateImage imageId fun image =>
          { image with
            status := .PENDING_REVIEW, mimeType := some mimeType.toString
            sizeBytes := some sizeBytes, widthPx := some widthPx, heightPx := some heightPx
            consentAt := some consentAt, validationError := none
            expiresAt := some (now + C.palmImageRetentionHours * 60 * 60 * 1000) }) w' D' :=
        minded_updateImage (hnow.trans hl.clock) (fun _ => rfl) (fun _ => rfl) (fun _ => by simp)
          fun _ => .inr rfl
      refine Proc.Minds.bind (hupdate.mono fun r w'' D'' hr => ?_)
      cases r with
      | error e => exact hr
      | ok summary =>
          have hdecided := hr summary rfl
          refine Proc.Minds.bind (minded_other (fun D => ?_) fun r w₁ D₁ hl' => ?_)
          · apply Tx.wp_bind
            apply Db.imageAnalysisJob.wp_upsert
            · exact fun _ => rfl
            · exact fun _ _ => rfl
          · cases r with
            | error e => exact summarizes_error e w₁ D₁
            | ok a =>
                intro w₂ D₂ hl'' s hs
                cases hs
                exact hdecided.later (hl'.trans hl'')

theorem minded_headObject {key : String}
    {P : Except Err (Option Nat) → Surroundings → Db → Prop}
    (h : ∀ size w' D', P (.ok size) w' D') :
    Minded C P (ReadingsService.headObject key) w D := by
  refine Proc.Minds.handle (minded_call fun r w' D' _ => ?_)
  cases r with
  | ok size => exact h size w' D'
  | error e => exact fun w'' D'' _ => h none w'' D''

theorem minded_confirmFound (key : String) (imageId : Id) :
    Minded C Summarizes (ReadingsService.confirmFound C key imageId) w D := by
  unfold ReadingsService.confirmFound
  refine Proc.Minds.bind (minded_headObject fun head w₁ D₁ => ?_)
  simp only
  cases head.filter (0 < ·) with
  | none => exact minded_invalidate imageId _
  | some sizeBytes =>
      simp only
      split
      · exact minded_invalidate imageId _
      refine Proc.Minds.bind (minded_call fun r w₂ D₂ _ => ?_)
      cases r with
      | error e => exact summarizes_error e w₂ D₂
      | ok bytes =>
          simp only
          cases sniffImageMimeType bytes with
          | none => exact minded_invalidate imageId _
          | some realMimeType =>
              simp only
              split
              · exact minded_acceptImage imageId _ _ _ _
              · exact minded_invalidate imageId _

theorem minded_confirmImage (userId readingId : Id) (key : String) :
    Minded C Summarizes (ReadingsService.confirmImage C userId readingId key) w D := by
  unfold ReadingsService.confirmImage ReadingsService.findOwnedDraft
  rw [bind_assoc]
  refine Proc.Minds.bind (Proc.minds_select (fun e w' D' _ => summarizes_error e w' D')
    fun w₀ D₀ w₁ D₁ _ _ _ => ?_)
  simp only
  cases (Db.reading.find D₀ readingId).filter fun r => r.userId = userId with
  | none => exact fun w' D' _ => summarizes_error _ w' D'
  | some r =>
      by_cases hdraft : r.status = .DRAFT
      case neg =>
        simp only [hdraft, ne_eq, not_false_eq_true, if_true]
        exact fun w' D' _ => summarizes_error _ w' D'
      simp only [hdraft, ne_eq, not_true_eq_false, if_false]
      refine Proc.Minds.bind fun w' D' _ => ?_
      refine Proc.Minds.bind (Proc.minds_select (fun e w' D' _ => summarizes_error e w' D')
        fun w₂ D₂ w₃ D₃ _ _ _ => ?_)
      simp only
      cases (D₂.palmImages.findMany fun _ image =>
          image.readingId = readingId && image.storageKey = key).head? with
      | none => exact fun w' D' _ => summarizes_error _ w' D'
      | some row =>
          obtain ⟨imageId, image⟩ := row
          simp only
          split
          · exact fun w' D' _ => summarizes_error _ w' D'
          · exact minded_confirmFound key imageId

/-! ### The cleanup -/

/-- An image that has been decided, under this key. -/
def Keyed (id : Id) (key : String) (D : Db) : Prop :=
  ∃ image, D.palmImages.lookup id = some image ∧ image.storageKey = key ∧ image.status ≠ .UPLOADED

theorem Keyed.later {id : Id} {key : String} {w' : Surroundings} {D' : Db} (h : Keyed id key D)
    (hl : Later w D w' D') : Keyed id key D' := by
  obtain ⟨image, hlookup, hkey, hdecided⟩ := h
  obtain ⟨image', hlookup', hkey', hdecided'⟩ := hl.rows id image hlookup
  exact ⟨image', hlookup', hkey'.trans hkey, hdecided' hdecided⟩

theorem Keyed.gone {id : Id} {key : String} {w' : Surroundings} {D' : Db} (h : Keyed id key D)
    (hl : Later w D w' D') (hgone : w.objects.lookup key = none) :
    w'.objects.lookup key = none := by
  obtain ⟨image, hlookup, rfl, hdecided⟩ := h
  exact hl.gone id image hlookup hdecided hgone

/-- An image is marked after its object is gone. -/
theorem minded_deleteImage {id : Id} {image : PalmImage} (h : Keyed id image.storageKey D)
    {P : Except Err Unit → Surroundings → Db → Prop}
    (hP : ∀ w' D', Later w D w' D' → P (.ok ()) w' D') :
    Minded C P (ImageCleanup.deleteImage id image) w D := by
  refine Proc.Minds.handle (Proc.Minds.bind (Proc.minds_call
    fun w₁ D₁ hl₁ hI₁ r w₂ hreply hcareful => ?_))
  have hkeeps := hI₁.keeps_reply hreply hcareful
  refine ⟨hkeeps, fun w₃ D₃ hl₃ => ?_⟩
  have hl := hl₁.trans (hkeeps.later.trans hl₃)
  cases r with
  | error e => exact fun w' D' hl' => hP w' D' (hl.trans hl')
  | ok a =>
      have hdeleted : w₂.objects.lookup image.storageKey = none := by
        cases hreply
        exact Table.lookup_write_self ..
      have hkeyed := h.later hl
      have hgone : w₃.objects.lookup image.storageKey = none :=
        ((h.later hl₁).later hkeeps.later).gone hl₃ hdeleted
      refine Proc.Minds.bind (minded_call fun r w₄ D₄ hl₄ => ?_)
      cases r with
      | error e => exact fun w' D' hl' => hP w' D' (hl.trans (hl₄.trans hl'))
      | ok deletedAt =>
          refine Proc.Minds.bind (Proc.minds_transaction (fun e w' D' hl' w'' D'' hl'' =>
            hP w'' D'' (hl.trans (hl₄.trans (hl'.trans hl'')))) fun w₅ D₅ hl₅ hI₅ =>
              Db.palmImage.wp_update fun image' hlookup hcareful => ?_)
          obtain ⟨image'', hlookup'', hkey, hdecided⟩ := hkeyed.later (hl₄.trans hl₅)
          cases hlookup''.symm.trans hlookup
          have hmarks : (rely C).Keeps w₅ D₅ w₅ (view [.palmImage id
              (some { image' with deletedAt := some deletedAt })] D₅) :=
            hI₅.keeps_update hlookup rfl hdecided
              (fun e he => (hI₅.expiry id image' e hlookup he).1)
              (fun _ => hkey ▸ hkeyed.gone (hl₄.trans hl₅) hgone) hcareful
          refine ⟨hmarks, fun w₆ D₆ hl₆ w₇ D₇ hl₇ => ?_⟩
          exact hP w₇ D₇ (hl.trans (hl₄.trans (hl₅.trans (hmarks.later.trans (hl₆.trans hl₇)))))

theorem minded_deleteImages {rows : List (Id × PalmImage)}
    (h : ∀ id image, (id, image) ∈ rows → Keyed id image.storageKey D) :
    Minded C (fun r _ _ => r = .ok ()) (ImageCleanup.deleteImages rows) w D := by
  induction rows generalizing w D with
  | nil => exact fun _ _ _ => rfl
  | cons e rows ih =>
      obtain ⟨id, image⟩ := e
      refine Proc.Minds.bind (minded_deleteImage (h id image List.mem_cons_self)
        fun w' D' hl => ih fun id' image' hmem => ?_)
      exact (h id' image' (List.mem_cons_of_mem _ hmem)).later hl

theorem minded_deleteExpiredImages :
    Minded C (fun _ _ _ => True) ImageCleanup.deleteExpiredImages w D := by
  refine Proc.Minds.bind (minded_call fun r w₁ D₁ _ => ?_)
  cases r with
  | error e => trivial
  | ok now =>
      refine Proc.Minds.bind (Proc.minds_select (fun _ _ _ _ => trivial)
        fun w₂ D₂ w₃ D₃ _ hI hl => ?_)
      refine (minded_deleteImages fun id image hmem => ?_).mono fun _ _ _ _ => trivial
      obtain ⟨hlookup, hexpired⟩ :=
        (Table.mem_findMany _ _ _ _).mp (List.mem_of_mem_take hmem)
      -- An expired image has a retention, so it has been decided.
      have hkeyed : Keyed id image.storageKey D₂ := by
        simp only [ImageCleanup.expired, Bool.and_eq_true] at hexpired
        obtain ⟨e, he, -⟩ := (Option.any_eq_true _ _).mp hexpired.1
        exact ⟨image, hlookup, rfl, (hI.expiry id image e hlookup he).2⟩
      exact hkeyed.later hl

theorem minded_prog (c : ImageRequest) : Minded C Ends (c.prog C) w D := by
  cases c with
  | presignImage userId readingId contentType =>
      exact minded_plain (every_presignImage userId readingId contentType)
  | confirmImage userId readingId key =>
      refine Proc.Minds.bind ((minded_confirmImage userId readingId key).mono fun r w' D' h => ?_)
      cases r with
      | error e => exact ends_error e w' D'
      | ok summary =>
          intro w'' D'' hl id hid
          cases hid
          exact (h summary rfl).later hl
  | validateImage palmImageId => exact minded_plain (every_validateImage palmImageId)
  | onFailed palmImageId attemptsMade maxAttempts =>
      exact minded_plain (every_onFailed palmImageId attemptsMade maxAttempts)
  | deleteExpiredImages =>
      refine Proc.Minds.bind (minded_deleteExpiredImages.mono fun r w' D' _ => ?_)
      cases r with
      | error e => exact ends_error e w' D'
      | ok a => exact fun w'' D'' _ => ends_none w'' D''

end Requests

/-- In every run of careful steps that starts without images, each confirmed upload is one
for the cleanup from the end of its retention on. -/
theorem retention_covers (C : PalmImageConfig) (D : Db) (hD : D.palmImages = ∅)
    (w : Surroundings) (hw : w.confirmed = [])
    (s : Scene Db RowWrite Err Surroundings ImageRequest Answer (Option Id))
    (run : (service C).Reach Careful ⟨w, D, fun _ => none⟩ s) : Covered C s.world s.db := by
  have hinv : Inv C w D := by
    refine ⟨?_, ?_, ?_, ?_⟩ <;> simp [hD, hw]
  have hstart : (service C).Minding Careful (rely C) (fun _ => Ends) ⟨w, D, fun _ => none⟩ :=
    ⟨hinv, fun t c p h => by cases h⟩
  have hend := hstart.run (fun c _ _ _ => minded_prog c)
    (fun _ _ _ hI hmove hcareful => hI.keeps_move hmove hcareful)
    (fun c a w D hI hends => hI.keeps_returns (fun id hid => hends id (hid ▸ rfl)) c) run
  exact hend.inv.covered

/-! ## An upload that is accepted, and one that is rejected -/

/-- A world for concrete runs, in which every call succeeds and the AI finds every palm
legible. -/
def bucketWorld : World Surroundings Err Answer
  | .now, w => (.ok w.clock, w)
  | .headObject key, w => (.ok ((w.objects.lookup key).map List.length), w)
  | .downloadObject key, w =>
      match w.objects.lookup key with
      | some bytes => (.ok bytes, w)
      | none => (.error .fault, w)
  | .deleteObject key, w => (.ok (), { w with objects := w.objects.write key none })
  | q, w => (.ok (imageAnswer q), w)

theorem replies_bucketWorld (q : Query) (w : Surroundings) :
    Replies q w (bucketWorld q w).1 (bucketWorld q w).2 := by
  cases q with
  | downloadObject key =>
      simp only [bucketWorld]
      cases hobject : w.objects.lookup key with
      | none => rfl
      | some bytes => exact ⟨hobject, rfl⟩
  | now => exact ⟨rfl, rfl⟩
  | headObject key => exact ⟨rfl, rfl⟩
  | _ => rfl

/-- A palm reading without images. -/
def slotDb : Db := { sampleDb with palmImages := ∅ }

/-- The row of its first upload slot. -/
def slot : PalmImage :=
  { readingId := "r1", storageKey := "palm-reading/ana/r1/u1.jpg", status := .UPLOADED
    mimeType := none, createdAt := 0, sizeBytes := none, widthPx := none, heightPx := none
    validationError := none, consentAt := none, expiresAt := none, deletedAt := none }

/-- The first hour, and the object that a user has uploaded. -/
def uploaded (bytes : Buffer) : Surroundings :=
  ⟨(∅ : Table String Buffer).write slot.storageKey (some bytes), 0, []⟩

theorem play_presign : ((service samplePalmConfig).prog (.presignImage "ana" "r1" .jpeg)).play
    bucketWorld ⟨∅, 0, []⟩ slotDb =
      (⟨∅, 0, []⟩, view [.palmImage "u1" (some slot)] slotDb, .ok none) := rfl

/-- The scene after the retention of an upload. -/
def afterRetention (bytes : Buffer) (D : Db) :
    Scene Db RowWrite Err Surroundings ImageRequest Answer (Option Id) :=
  ⟨{ uploaded bytes with clock := retention samplePalmConfig, confirmed := [("u1", 0)] }, D,
    fun _ => none⟩

section Runs

variable {ok : Surroundings → Db → Surroundings → Db → Prop}

/-- A slot, an upload and its confirmation, and the time of its retention. -/
theorem reach_afterRetention {bytes : Buffer} {D : Db}
    (hslot : ((service samplePalmConfig).prog (.presignImage "ana" "r1" .jpeg)).Lets bucketWorld
      ok ⟨∅, 0, []⟩ slotDb)
    (hupload : ok ⟨∅, 0, []⟩ (view [.palmImage "u1" (some slot)] slotDb) (uploaded bytes)
      (view [.palmImage "u1" (some slot)] slotDb))
    (hconfirm : ((service samplePalmConfig).prog (.confirmImage "ana" "r1" slot.storageKey)).Lets
      bucketWorld ok (uploaded bytes) (view [.palmImage "u1" (some slot)] slotDb))
    (hplay : ((service samplePalmConfig).prog (.confirmImage "ana" "r1" slot.storageKey)).play
      bucketWorld (uploaded bytes) (view [.palmImage "u1" (some slot)] slotDb) =
        (uploaded bytes, D, .ok (some "u1")))
    (hpass : ok { uploaded bytes with confirmed := [("u1", 0)] } D
      { uploaded bytes with clock := retention samplePalmConfig, confirmed := [("u1", 0)] } D) :
    (service samplePalmConfig).Reach ok ⟨⟨∅, 0, []⟩, slotDb, fun _ => none⟩
      (afterRetention bytes D) := by
  have presigned := Setting.serve (H := service samplePalmConfig) (t := 0)
    (s := ⟨⟨∅, 0, []⟩, slotDb, fun _ => none⟩) replies_bucketWorld rfl hslot play_presign
  have confirmed := Setting.serve (H := service samplePalmConfig) (t := 0)
    (s := ⟨uploaded bytes, view [.palmImage "u1" (some slot)] slotDb, fun _ => none⟩)
    replies_bucketWorld rfl hconfirm hplay
  have hup := presigned.tail (.move (uploaded bytes) (.upload slot.storageKey bytes) hupload)
  exact hup.trans (confirmed.tail (.move _ (.pass (retention samplePalmConfig) (Nat.zero_le _))
    hpass))

end Runs

/-- The row of a rejected slot. -/
def rejectedSlot : PalmImage :=
  { slot with
    status := .INVALID
    validationError := some "El archivo no es una imagen JPEG, PNG o WebP válida." }

/-- The database after its confirmation. -/
def rejectedDb : Db :=
  view [.palmImage "u1" (some rejectedSlot)] (view [.palmImage "u1" (some slot)] slotDb)

theorem play_confirm_rejected : ((service samplePalmConfig).prog
    (.confirmImage "ana" "r1" slot.storageKey)).play bucketWorld (uploaded [0])
      (view [.palmImage "u1" (some slot)] slotDb) =
    (uploaded [0], rejectedDb, .ok (some "u1")) := rfl

theorem rejectedDb_not_covered : ¬ Covered samplePalmConfig (afterRetention [0] rejectedDb).world
    (afterRetention [0] rejectedDb).db := by
  intro h
  have hexpired := h "u1" 0 List.mem_cons_self rejectedSlot rfl rfl (Nat.zero_add _).le
  cases hexpired

/-- An upload that is no image is rejected and never comes to the cleanup. -/
theorem rejected_upload_escapes : ∃ s,
    (service samplePalmConfig).Reach (fun _ _ _ _ => True) ⟨⟨∅, 0, []⟩, slotDb, fun _ => none⟩ s ∧
      ¬ Covered samplePalmConfig s.world s.db := by
  have hlets : ∀ p w D, Proc.Lets bucketWorld (fun _ _ _ _ => True) (p : Request (Option Id)) w D :=
    Proc.lets_of_forall fun _ _ _ _ => trivial
  exact ⟨_, reach_afterRetention (hlets _ _ _) trivial (hlets _ _ _) play_confirm_rejected trivial,
    rejectedDb_not_covered⟩

/-- Steps that change neither images nor objects. -/
theorem careful_of_eq {w w' : Surroundings} {D D' : Db} (hobjects : w'.objects = w.objects)
    (hsame : D'.palmImages = D.palmImages) : Careful w D w' D' where
  rejects id image image' h h' hup hdecided := by
    cases h.symm.trans (hsame ▸ h')
    exact absurd hup hdecided
  retains id image image' h h' _ := by
    cases h.symm.trans (hsame ▸ h')
    rfl
  uploads _ _ _ _ hgone := hobjects ▸ hgone

/-- Steps while every image is `UPLOADED`, whose decisions set a retention. -/
theorem careful_of_uploaded {w w' : Surroundings} {D D' : Db}
    (hup : ∀ id image, D.palmImages.lookup id = some image → image.status = .UPLOADED)
    (hexpiry : ∀ id image, D'.palmImages.lookup id = some image → image.status ≠ .UPLOADED →
      image.expiresAt ≠ none) : Careful w D w' D' where
  rejects id _ image' _ h' _ hdecided hnone := absurd hnone (hexpiry id image' h' hdecided)
  retains id image _ h _ hdecided := absurd (hup id image h) hdecided
  uploads id image h hdecided _ := absurd (hup id image h) hdecided

/-- The row of an accepted slot. -/
def acceptedSlot : PalmImage :=
  { slot with
    status := .PENDING_REVIEW, mimeType := some "image/jpeg", sizeBytes := some 3
    widthPx := some 300, heightPx := some 300, consentAt := some 0
    expiresAt := some (retention samplePalmConfig) }

/-- The database after its confirmation. -/
def acceptedDb : Db :=
  view [.palmImage "u1" (some acceptedSlot), .imageAnalysisJob "VALIDATE_PALM_IMAGE-u1" (some "u1")]
    (view [.palmImage "u1" (some slot)] slotDb)

theorem lookup_slot {id : Id} {row image : PalmImage} (h : (view [.palmImage "u1" (some row)]
    (view [.palmImage "u1" (some slot)] slotDb)).palmImages.lookup id = some image) :
    image = row := by
  rcases lookup_image h with ⟨-, rfl⟩ | ⟨hid, hold⟩
  · rfl
  · rcases lookup_image hold with ⟨heq, -⟩ | ⟨-, hnone⟩
    · exact absurd heq hid
    · cases hnone

theorem play_confirm_accepted : ((service samplePalmConfig).prog
    (.confirmImage "ana" "r1" slot.storageKey)).play bucketWorld (uploaded [0xff, 0xd8, 0xff])
      (view [.palmImage "u1" (some slot)] slotDb) =
    (uploaded [0xff, 0xd8, 0xff], acceptedDb, .ok (some "u1")) := rfl

theorem retention_covers_accepted : Covered samplePalmConfig
    (afterRetention [0xff, 0xd8, 0xff] acceptedDb).world
    (afterRetention [0xff, 0xd8, 0xff] acceptedDb).db := by
  have hslot : ∀ id image, (view [.palmImage "u1" (some slot)] slotDb).palmImages.lookup id =
      some image → image.status = .UPLOADED := by
    intro id image h
    rcases lookup_image h with ⟨-, rfl⟩ | ⟨-, hold⟩
    · rfl
    · cases hold
  have hstays : ∀ {w D}, Careful w D w D := careful_of_eq rfl rfl
  have hcreates : ∀ {w}, Careful w slotDb w (view [.palmImage "u1" (some slot)] slotDb) :=
    careful_of_uploaded (fun _ _ h => by cases h)
      fun id image h hdecided => absurd (hslot id image h) hdecided
  have hupload : Careful ⟨∅, 0, []⟩ (view [.palmImage "u1" (some slot)] slotDb)
      (uploaded [0xff, 0xd8, 0xff]) (view [.palmImage "u1" (some slot)] slotDb) :=
    careful_of_uploaded hslot fun id image h hdecided => absurd (hslot id image h) hdecided
  have haccepts : ∀ {w}, Careful w (view [.palmImage "u1" (some slot)] slotDb) w
      (view [.palmImage "u1" (some acceptedSlot)] (view [.palmImage "u1" (some slot)] slotDb)) :=
    careful_of_uploaded hslot fun id image h _ => by simp [lookup_slot h, acceptedSlot]
  refine retention_covers samplePalmConfig slotDb rfl ⟨∅, 0, []⟩ rfl _
    (reach_afterRetention ?_ hupload ?_ play_confirm_accepted (careful_of_eq rfl rfl))
  · exact And.intro hstays (And.intro hstays (And.intro hstays (And.intro hstays
      (And.intro hstays (And.intro hstays (And.intro hcreates trivial))))))
  · exact And.intro hstays (And.intro hstays (And.intro hstays (And.intro hstays
      (And.intro hstays (And.intro hstays (And.intro haccepts
        (And.intro (careful_of_eq rfl rfl) trivial)))))))

end ImageRetention

end TaroTria
