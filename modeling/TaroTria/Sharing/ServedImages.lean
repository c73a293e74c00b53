import TaroTria.DailyCard.CalendarDates
import TaroTria.Sharing.ShareImage
import TaroTria.Transactions.SharedWorld

/-!
# The images that share links serve

A job renders the image of a link, uploads it under a key of the reading and then marks
the link; a link that is asked for its image downloads the object under its key. Jobs
are repeated, overlap with each other and with revocations, and every call may fail.
Whatever image is served shows the reading of its link.

## Implementation notes

The other services are given by the transactions that they commit, and the storage
changes by itself outside the keys of share images.
-/

namespace TaroTria

open Transactions

namespace ShareImageProcessor

/-- The key of an image has one reading. -/
theorem buildShareImageKey_inj {readingId readingId' uuid uuid' : Id}
    (hslash : '/' ∉ readingId.toList) (hslash' : '/' ∉ readingId'.toList)
    (h : buildShareImageKey readingId uuid = buildShareImageKey readingId' uuid') :
    readingId = readingId' := by
  have hchars := congrArg String.toList h
  have hmark : "/".toList = ['/'] := rfl
  simp only [buildShareImageKey, String.toList_append, List.append_assoc, hmark,
    List.singleton_append, List.append_cancel_left_eq] at hchars
  exact String.toList_injective (DailyCardService.append_mark_inj hslash hslash' hchars).1

/-- A job that fails for the last time fails its image. -/
def onFailed (shareLinkId : Id) (attemptsMade maxAttempts : Nat) : Request Unit := do
  if attemptsMade < maxAttempts then
    return ()
  SharingService.markImageFailed shareLinkId

end ShareImageProcessor

namespace ServedImages

open ShareImageProcessor ReadingProcessing

/-- The requests on share links and their images, and those of the other services. -/
inductive ShareRequest (Other : Type)
  | createShareLink (userId readingId : Id)
  | revokeShareLink (userId readingId : Id)
  | generateImage (shareLinkId : Id)
  | onFailed (shareLinkId : Id) (attemptsMade maxAttempts : Nat)
  | getPublicSummary (token : Id)
  | getShareImageBytes (token : Id)
  | other (o : Other)

variable {Other : Type}

/-- The request of a call. It returns the image that it serves. -/
def ShareRequest.prog (C : ShareImageConfig) (others : Other → TxM Unit) :
    ShareRequest Other → Request (Option ShareImageBytes)
  | createShareLink userId readingId => do
      let _ ← SharingService.createShareLink C.toSharingConfig userId readingId
      return none
  | revokeShareLink userId readingId => do
      SharingService.revokeShareLink userId readingId
      return none
  | generateImage shareLinkId => do
      ShareImageProcessor.generateImage C shareLinkId
      return none
  | onFailed shareLinkId attemptsMade maxAttempts => do
      ShareImageProcessor.onFailed shareLinkId attemptsMade maxAttempts
      return none
  | getPublicSummary token => do
      let _ ← SharingService.getPublicSummary C.toSharingConfig token
      return none
  | getShareImageBytes token => SharingService.getShareImageBytes token
  | other o => do
      Proc.transaction (others o)
      return none

/-- The objects of the bucket. -/
abbrev Objects := Table String Buffer

/-- What a call may be answered, and what it leaves, where `png` draws an SVG. Every call
may fail, and an upload that fails may be made. -/
def Replies (png : String → Buffer) (q : Query) (w : Objects) (r : Except Err (Answer q))
    (w' : Objects) : Prop :=
  match q, r with
  | .toPng svg, .ok buffer => buffer = png svg ∧ w' = w
  | .uploadObject key body _, .ok _ => w' = w.write key (some body)
  | .uploadObject key body _, .error _ => w' = w ∨ w' = w.write key (some body)
  | .downloadObject key, .ok buffer => w.lookup key = some buffer ∧ w' = w
  | _, _ => w' = w

/-- Objects under other keys come and go. -/
def Moves (w w' : Objects) : Prop :=
  ∀ readingId uuid, w'.lookup (buildShareImageKey readingId uuid) =
    w.lookup (buildShareImageKey readingId uuid)

/-- The service of share links. -/
def service (C : ShareImageConfig) (png : String → Buffer) (others : Other → TxM Unit) :
    Setting Db RowWrite Err Objects (ShareRequest Other) Answer (Option ShareImageBytes) where
  prog := ShareRequest.prog C others
  reply := Replies png
  moves := Moves
  returns _ _ w := w

/-- What is shared of a reading. -/
def sanitized (row : TarotReadingRow) : SanitizedReadingData :=
  if ReadingsService.isPalmService row.serviceCode then
    { readingType := .PALM, title := SharingService.GENERIC_SHARE_TITLES .PALM, cards := none }
  else
    { readingType := .TAROT, title := SharingService.GENERIC_SHARE_TITLES .TAROT
      cards := some ((row.draws.mergeSort fun a b =>
        positionOrder row.positions a.1 ≤ positionOrder row.positions b.1).map
          (SharingService.cardSummary row.positions)) }

def sharedData (D : Db) (readingId : Id) : Option SanitizedReadingData :=
  (findTarotReading readingId D).map sanitized

theorem getSanitizedReadingData_eq (readingId : Id) :
    SharingService.getSanitizedReadingData readingId =
      Proc.transaction (Tx.selectOrThrow (findTarotReading readingId)) >>= fun row =>
        pure (sanitized row) := by
  unfold SharingService.getSanitizedReadingData
  congr 1
  funext row
  unfold sanitized
  split <;> rfl

def Completed (readingId : Id) (D : Db) : Prop :=
  ∃ reading, D.readings.lookup readingId = some reading ∧ reading.status = .COMPLETED

/-- The image shows the shared data, as the renderer draws it. -/
def Depicts (C : ShareImageConfig) (png : String → Buffer) (data : SanitizedReadingData)
    (buffer : Buffer) : Prop :=
  ∃ appHost, C.urlHost C.appUrl = some appHost ∧
    buffer = png (ShareImageRenderer.buildShareImageSvg
      { data with disclaimer := DailyCardService.DAILY_CARD_DISCLAIMER, appHost })

/-- The ids of completed readings have no slash. -/
def Named (D : Db) : Prop := ∀ readingId, Completed readingId D → '/' ∉ readingId.toList

/-- A change by other services leaves the links and what is shared of completed readings. -/
structure Spares (D D' : Db) : Prop where
  links : D'.shareLinks = D.shareLinks
  shown : ∀ readingId, Completed readingId D →
    Completed readingId D' ∧ sharedData D' readingId = sharedData D readingId
  named : Named D'

section Invariant

variable (C : ShareImageConfig) (png : String → Buffer)

/-- Links are of completed readings, a ready link has its object, and the objects of a
reading show it. -/
structure Inv (w : Objects) (D : Db) : Prop where
  named : Named D
  links : ∀ id link, D.shareLinks.lookup id = some link → Completed link.readingId D
  ready : ∀ id link, D.shareLinks.lookup id = some link → link.imageStatus = .READY →
    ∃ uuid, link.imageKey = some (buildShareImageKey link.readingId uuid) ∧
      (w.lookup (buildShareImageKey link.readingId uuid)).isSome
  objects : ∀ readingId uuid buffer, '/' ∉ readingId.toList →
    w.lookup (buildShareImageKey readingId uuid) = some buffer → Completed readingId D ∧
      ∃ data, sharedData D readingId = some data ∧ Depicts C png data buffer

/-- What a request has seen of readings, links and objects and still holds. -/
structure Later (w : Objects) (D : Db) (w' : Objects) (D' : Db) : Prop where
  shown : ∀ readingId, Completed readingId D →
    Completed readingId D' ∧ sharedData D' readingId = sharedData D readingId
  links : ∀ id link, D.shareLinks.lookup id = some link →
    ∃ link', D'.shareLinks.lookup id = some link' ∧ link'.readingId = link.readingId
  objects : ∀ readingId uuid, (w.lookup (buildShareImageKey readingId uuid)).isSome →
    (w'.lookup (buildShareImageKey readingId uuid)).isSome

theorem later_refl (w : Objects) (D : Db) : Later w D w D where
  shown _ h := ⟨h, rfl⟩
  links _ link h := ⟨link, h, rfl⟩
  objects _ _ h := h

theorem Later.trans {w₁ w₂ w₃ : Objects} {D₁ D₂ D₃ : Db} (h : Later w₁ D₁ w₂ D₂)
    (h' : Later w₂ D₂ w₃ D₃) : Later w₁ D₁ w₃ D₃ where
  shown readingId hdone := by
    obtain ⟨hdone', hsame⟩ := h.shown readingId hdone
    obtain ⟨hdone'', hsame'⟩ := h'.shown readingId hdone'
    exact ⟨hdone'', hsame'.trans hsame⟩
  links id link hlookup := by
    obtain ⟨link', hlookup', hreading⟩ := h.links id link hlookup
    obtain ⟨link'', hlookup'', hreading'⟩ := h'.links id link' hlookup'
    exact ⟨link'', hlookup'', hreading'.trans hreading⟩
  objects readingId uuid hthere := h'.objects readingId uuid (h.objects readingId uuid hthere)

def rely : Rely Objects Db where
  Inv := Inv C png
  Later := Later
  refl := later_refl
  trans := Later.trans

end Invariant

/-! ## What each step keeps -/

section Keeping

variable {C : ShareImageConfig} {png : String → Buffer} {w : Objects} {D : Db}

theorem Inv.keeps_spares {D' : Db} (h : Inv C png w D) (hspares : Spares D D') :
    (rely C png).Keeps w D w D' where
  inv :=
    { named := hspares.named
      links := fun id link hlookup =>
        (hspares.shown _ (h.links id link (hspares.links ▸ hlookup))).1
      ready := fun id link hlookup => h.ready id link (hspares.links ▸ hlookup)
      objects := fun readingId uuid buffer hslash hlookup => by
        obtain ⟨hdone, data, hdata, hdepicts⟩ := h.objects readingId uuid buffer hslash hlookup
        obtain ⟨hdone', hsame⟩ := hspares.shown readingId hdone
        exact ⟨hdone', data, hsame.trans hdata, hdepicts⟩ }
  later :=
    { shown := hspares.shown
      links := fun id link hlookup => ⟨link, hspares.links ▸ hlookup, rfl⟩
      objects := fun _ _ hthere => hthere }

/-- A link is made or changed. -/
theorem Inv.keeps_link {id : Id} {link : ShareLink} (h : Inv C png w D)
    (hdone : Completed link.readingId D)
    (hsame : ∀ old, D.shareLinks.lookup id = some old → link.readingId = old.readingId)
    (hready : link.imageStatus = .READY →
      ∃ uuid, link.imageKey = some (buildShareImageKey link.readingId uuid) ∧
        (w.lookup (buildShareImageKey link.readingId uuid)).isSome) :
    (rely C png).Keeps w D w (view [.shareLink id (some link)] D) := by
  have hcases : ∀ {id' link'},
      (view [.shareLink id (some link)] D).shareLinks.lookup id' = some link' →
      (id' = id ∧ link' = link) ∨ D.shareLinks.lookup id' = some link' := by
    intro id' link' hlookup
    change (D.shareLinks.write id (some link)).lookup id' = some link' at hlookup
    rw [Table.lookup_write] at hlookup
    split at hlookup
    · rename_i hid
      exact .inl ⟨hid, (Option.some.inj hlookup).symm⟩
    · exact .inr hlookup
  refine ⟨⟨h.named, fun id' link' hlookup => ?_, fun id' link' hlookup hready' => ?_, h.objects⟩,
    ⟨fun _ hdone' => ⟨hdone', rfl⟩, fun id' link' hlookup => ?_, fun _ _ hthere => hthere⟩⟩
  · rcases hcases hlookup with ⟨rfl, rfl⟩ | hold
    · exact hdone
    · exact h.links id' link' hold
  · rcases hcases hlookup with ⟨rfl, rfl⟩ | hold
    · exact hready hready'
    · exact h.ready id' link' hold hready'
  · change ∃ link'', (D.shareLinks.write id (some link)).lookup id' = some link'' ∧ _
    rw [Table.lookup_write]
    split
    · rename_i hid
      subst hid
      exact ⟨link, rfl, hsame link' hlookup⟩
    · exact ⟨link', hlookup, rfl⟩

/-- An image of a reading is stored. -/
theorem Inv.keeps_upload {readingId : Id} {data : SanitizedReadingData} {buffer : Buffer}
    (h : Inv C png w D) (uuid : Id) (hdone : Completed readingId D)
    (hdata : sharedData D readingId = some data) (hdepicts : Depicts C png data buffer) :
    (rely C png).Keeps w D (w.write (buildShareImageKey readingId uuid) (some buffer)) D := by
  have hslash := h.named readingId hdone
  have hstays : ∀ readingId' uuid',
      (w.lookup (buildShareImageKey readingId' uuid')).isSome →
      ((w.write (buildShareImageKey readingId uuid) (some buffer)).lookup
        (buildShareImageKey readingId' uuid')).isSome := by
    intro readingId' uuid' hthere
    rw [Table.lookup_write]
    split
    · rfl
    · exact hthere
  refine ⟨⟨h.named, h.links, fun id link hlookup hready => ?_,
    fun readingId' uuid' buffer' hslash' hlookup => ?_⟩,
    ⟨fun _ hdone' => ⟨hdone', rfl⟩, fun _ link hlookup => ⟨link, hlookup, rfl⟩, hstays⟩⟩
  · obtain ⟨uuid', hkey, hthere⟩ := h.ready id link hlookup hready
    exact ⟨uuid', hkey, hstays _ _ hthere⟩
  · rw [Table.lookup_write] at hlookup
    split at hlookup
    · rename_i hkey
      cases Option.some.inj hlookup
      obtain rfl := buildShareImageKey_inj hslash' hslash hkey
      exact ⟨hdone, data, hdata, hdepicts⟩
    · exact h.objects readingId' uuid' buffer' hslash' hlookup

theorem Inv.keeps_move {w' : Objects} (h : Inv C png w D) (hmove : Moves w w') :
    (rely C png).Keeps w D w' D where
  inv :=
    { named := h.named
      links := h.links
      ready := fun id link hlookup hready => by
        obtain ⟨uuid, hkey, hthere⟩ := h.ready id link hlookup hready
        exact ⟨uuid, hkey, hmove _ _ ▸ hthere⟩
      objects := fun readingId uuid buffer hslash hlookup =>
        h.objects readingId uuid buffer hslash (hmove _ _ ▸ hlookup) }
  later :=
    { shown := fun _ hdone => ⟨hdone, rfl⟩
      links := fun _ link hlookup => ⟨link, hlookup, rfl⟩
      objects := fun _ _ hthere => hmove _ _ ▸ hthere }

end Keeping

/-! ## The requests -/

/-- No table that the links or the shared data come from is written. -/
structure Unrelated (D D' : Db) : Prop where
  shareLinks : D'.shareLinks = D.shareLinks
  readings : D'.readings = D.readings
  services : D'.services = D.services
  readingInputs : D'.readingInputs = D.readingInputs
  tarotSpreads : D'.tarotSpreads = D.tarotSpreads
  tarotDraws : D'.tarotDraws = D.tarotDraws
  tarotCards : D'.tarotCards = D.tarotCards

theorem Unrelated.spares {D D' : Db} (h : Unrelated D D')
    (hnamed : Named D) : Spares D D' where
  links := h.shareLinks
  shown readingId hdone := by
    refine ⟨by simpa only [Completed, h.readings] using hdone, ?_⟩
    simp only [sharedData, findTarotReading, Db.reading_rows, Delegate.find, h.readings,
      h.services, h.readingInputs, h.tarotSpreads, h.tarotDraws, h.tarotCards]
  named readingId hdone := hnamed readingId (by simpa only [Completed, h.readings] using hdone)

section Requests

variable {C : ShareImageConfig} {png : String → Buffer} {others : Other → TxM Unit}
  {w : Objects} {D : Db} {α : Type}

variable (C png others) in
/-- The request keeps the invariant, and ends in `P`. -/
abbrev Minded (P : Except Err α → Objects → Db → Prop) (p : Request α) (w : Objects) (D : Db) :
    Prop :=
  p.Minds (service C png others) (fun _ _ _ _ => True) (rely C png) P w D

/-- A call that stores nothing. -/
theorem minded_call {q : Query} {P : Except Err (Answer q) → Objects → Db → Prop}
    (hq : ∀ w r w', Replies png q w r w' → w' = w)
    (h : ∀ r w' D', Later w D w' D' → Inv C png w' D' → Replies png q w' r w' →
      ∀ w'' D'', Later w' D' w'' D'' → P r w'' D'') :
    Minded C png others P (Proc.call q : Request (Answer q)) w D := by
  refine Proc.minds_call fun w' D' hl hI r w'' hreply _ => ?_
  obtain rfl := hq w' r w'' hreply
  exact ⟨(rely C png).keeps_refl hI, h r w'' D' hl hI hreply⟩

theorem replies_randomUUID {w w' : Objects} {r : Except Err Id}
    (h : Replies png .randomUUID w r w') : w' = w := h

/-- A transaction of which only what it spares matters. -/
theorem minded_spares {body : TxM α} {P : Except Err α → Objects → Db → Prop}
    (hbody : ∀ w' D', Inv C png w' D' →
      body.wp still D' (fun _ L => Spares D' (view L D')) [])
    (h : ∀ r w' D', Later w D w' D' → P r w' D') :
    Minded C png others P (Proc.transaction body : Request α) w D := by
  refine Proc.minds_transaction (fun e w' D' hl => h (.error e) w' D' hl) fun w' D' hl hI => ?_
  refine Tx.wp_mono (fun a L hL _ => ?_) (hbody w' D' hI)
  have hkeeps := hI.keeps_spares hL
  exact ⟨hkeeps, fun w'' D'' hl' => h (.ok a) w'' D'' (hl.trans (hkeeps.later.trans hl'))⟩

theorem minded_logEvent {type : String} {shareLinkId userId : Option Id}
    {P : Except Err Unit → Objects → Db → Prop} (h : ∀ r w' D', Later w D w' D' → P r w' D') :
    Minded C png others P (SharingService.logEvent type shareLinkId userId) w D := by
  unfold SharingService.logEvent
  refine Proc.Minds.bind (minded_call (fun _ _ _ => replies_randomUUID)
    fun r w' D' hl _ _ w'' D'' hl' => ?_)
  cases r with
  | error e => exact h _ w'' D'' (hl.trans hl')
  | ok id =>
      refine Proc.Minds.bind (minded_spares (fun w₀ D₀ hI => ?_) fun r' w₁ D₁ hl₁ => ?_)
      · apply Db.analyticsEvent.wp_create
        intro _
        exact Unrelated.spares ⟨rfl, rfl, rfl, rfl, rfl, rfl, rfl⟩ hI.named
      · cases r' with
        | error e => exact h _ w₁ D₁ (hl.trans (hl'.trans hl₁))
        | ok _ => exact fun w₂ D₂ hl₂ => h _ w₂ D₂ (hl.trans (hl'.trans (hl₁.trans hl₂)))

/-- The shared data that a request reads of a completed reading are those of the reading. -/
theorem minded_sanitized {readingId : Id}
    {P : Except Err SanitizedReadingData → Objects → Db → Prop}
    (herr : ∀ e w' D', Later w D w' D' → P (.error e) w' D')
    (hok : ∀ data w' D', Later w D w' D' →
      (Completed readingId D → sharedData D' readingId = some data) → P (.ok data) w' D') :
    Minded C png others P (SharingService.getSanitizedReadingData readingId) w D := by
  rw [getSanitizedReadingData_eq]
  refine Proc.Minds.bind (Proc.minds_transaction (fun e w' D' hl => herr e w' D' hl)
    fun w₀ D₀ hl hI => Tx.wp_selectOrThrow ?_)
  rintro D₁ row ⟨-, rfl, -⟩ hrow _
  refine ⟨(rely C png).keeps_refl hI, fun w' D' hl' w'' D'' hl'' => ?_⟩
  have hlater : Later w₀ D₁ w'' D'' := hl'.trans hl''
  refine hok _ w'' D'' (hl.trans hlater) fun hdone => ?_
  rw [(hlater.shown readingId (hl.shown readingId hdone).1).2]
  exact congrArg (Option.map sanitized) hrow

/-- The key of a link that a request has seen ready is one of its reading. -/
def Keyed (link : ShareLink) : Prop :=
  link.imageStatus = .READY → ∃ uuid, link.imageKey = some (buildShareImageKey link.readingId uuid)

/-- A link that a request has found. -/
def Found (token : Id) (link : ShareLink) (D : Db) : Prop :=
  Keyed link ∧ Completed link.readingId D ∧
    ∃ now, D.shareLinks.lookup token = some now ∧ now.readingId = link.readingId

theorem Inv.found {token : Id} {link : ShareLink} (h : Inv C png w D)
    (hlookup : D.shareLinks.lookup token = some link) : Found token link D := by
  refine ⟨fun hready => ?_, h.links token link hlookup, link, hlookup, rfl⟩
  obtain ⟨uuid, hkey, -⟩ := h.ready token link hlookup hready
  exact ⟨uuid, hkey⟩

theorem Found.later {token : Id} {link : ShareLink} {w' : Objects} {D' : Db}
    (h : Found token link D) (hl : Later w D w' D') : Found token link D' := by
  obtain ⟨hkeyed, hdone, now, hlookup, hreading⟩ := h
  obtain ⟨now', hlookup', hreading'⟩ := hl.links token now hlookup
  exact ⟨hkeyed, (hl.shown _ hdone).1, now', hlookup', hreading'.trans hreading⟩

theorem minded_findActiveShareLink {token : Id} {P : Except Err ShareLink → Objects → Db → Prop}
    (herr : ∀ e w' D', Later w D w' D' → P (.error e) w' D')
    (hok : ∀ link w' D', Later w D w' D' → Found token link D' → P (.ok link) w' D') :
    Minded C png others P (SharingService.findActiveShareLink token) w D := by
  unfold SharingService.findActiveShareLink
  refine Proc.Minds.bind (Proc.minds_select (fun e w' D' hl => herr e w' D' hl)
    fun w₀ D₀ w₁ D₁ hl₀ hI₀ hl₁ => ?_)
  simp only
  split
  · rename_i link hfind
    have hfound : Found token link D₀ :=
      hI₀.found (Option.filter_eq_some_iff.mp hfind).1
    refine Proc.Minds.bind (Proc.minds_select
      (fun e w' D' hl => herr e w' D' (hl₀.trans (hl₁.trans hl)))
      fun w₂ D₂ w₃ D₃ hl₂ _ hl₃ => ?_)
    have hl₃' : Later w D w₃ D₃ := hl₀.trans (hl₁.trans (hl₂.trans hl₃))
    simp only
    split
    · split
      · exact fun w' D' hl => herr _ w' D' (hl₃'.trans hl)
      · exact fun w' D' hl => hok link w' D' (hl₃'.trans hl)
          (hfound.later (hl₁.trans (hl₂.trans (hl₃.trans hl))))
    · exact fun w' D' hl => herr _ w' D' (hl₃'.trans hl)
  · exact fun w' D' hl => herr _ w' D' (hl₀.trans (hl₁.trans hl))

/-- A change of a link that keeps its reading and leaves its image. -/
theorem minded_updateLink {id : Id} {f : ShareLink → ShareLink}
    {P : Except Err ShareLink → Objects → Db → Prop}
    (hreading : ∀ link, (f link).readingId = link.readingId)
    (himage : ∀ link, (f link).imageStatus = .READY →
      link.imageStatus = .READY ∧ (f link).imageKey = link.imageKey)
    (h : ∀ r w' D', P r w' D') :
    Minded C png others P (Proc.transaction (Db.shareLink.update id f)) w D := by
  refine Proc.minds_transaction (fun e w' D' _ => h _ w' D') fun w' D' _ hI => ?_
  refine Db.shareLink.wp_update fun link hlookup _ => ⟨?_, fun w'' D'' _ => h _ w'' D''⟩
  refine hI.keeps_link (hreading link ▸ hI.links id link hlookup) (fun old hold => ?_)
    fun hready => ?_
  · cases hlookup.symm.trans hold
    exact hreading link
  · obtain ⟨hwas, hkey⟩ := himage link hready
    rw [hkey, hreading]
    exact hI.ready id link hlookup hwas

theorem minded_addShareImageJob {shareLinkId : Id} {P : Except Err Unit → Objects → Db → Prop}
    (h : ∀ r w' D', P r w' D') :
    Minded C png others P (Proc.transaction (SharingService.addShareImageJob shareLinkId)) w D := by
  refine minded_spares (fun w' D' hI => ?_) fun r w' D' _ => h r w' D'
  unfold SharingService.addShareImageJob
  apply Tx.wp_bind
  apply Db.shareImageJob.wp_upsert
  · intro _
    exact Unrelated.spares ⟨rfl, rfl, rfl, rfl, rfl, rfl, rfl⟩ hI.named
  · intro _ _
    exact Unrelated.spares ⟨rfl, rfl, rfl, rfl, rfl, rfl, rfl⟩ hI.named

theorem minded_createShareLink (userId readingId : Id) :
    Minded C png others (fun _ _ _ => True)
      (SharingService.createShareLink C.toSharingConfig userId readingId) w D := by
  unfold SharingService.createShareLink
  refine Proc.Minds.bind (Proc.minds_select (fun _ _ _ _ => trivial)
    fun w₀ D₀ w₁ D₁ _ _ hl₁ => ?_)
  simp only
  split
  · rename_i reading hfind
    split
    · exact fun _ _ _ => trivial
    · rename_i hstatus
      have hdone : Completed readingId D₁ := (hl₁.shown readingId
        ⟨reading, (Option.filter_eq_some_iff.mp hfind).1, not_not.mp hstatus⟩).1
      refine Proc.Minds.bind (Proc.minds_select (fun _ _ _ _ => trivial)
        fun w₂ D₂ w₃ D₃ hl₂ _ hl₃ => ?_)
      simp only
      split
      · exact fun _ _ _ => trivial
      · refine Proc.Minds.bind (minded_call (fun _ _ _ => replies_randomUUID)
          fun r w₄ D₄ hl₄ _ _ w₅ D₅ hl₅ => ?_)
        cases r with
        | error e => trivial
        | ok id =>
            have hdone₅ := ((hl₂.trans (hl₃.trans (hl₄.trans hl₅))).shown readingId hdone).1
            refine Proc.Minds.bind (Proc.minds_transaction (fun _ _ _ _ => trivial)
              fun w₆ D₆ hl₆ hI₆ => ?_)
            apply Db.shareLink.wp_create
            intro hfresh _
            have hkeeps : (rely C png).Keeps w₆ D₆ w₆
                (view [.shareLink id (some (SharingService.newLink readingId))] D₆) :=
              hI₆.keeps_link (hl₆.shown readingId hdone₅).1
                (fun old hold => by cases hfresh.symm.trans hold) (fun hready => by cases hready)
            refine ⟨hkeeps, fun w₇ D₇ _ => ?_⟩
            refine Proc.Minds.bind (minded_addShareImageJob fun r w' D' => ?_)
            cases r with
            | error e => trivial
            | ok _ =>
                refine Proc.Minds.bind (minded_logEvent fun r w'' D'' _ => ?_)
                cases r with
                | error e => trivial
                | ok _ => exact fun _ _ _ => trivial
  · exact fun _ _ _ => trivial

theorem minded_revokeShareLink (userId readingId : Id) :
    Minded C png others (fun _ _ _ => True) (SharingService.revokeShareLink userId readingId)
      w D := by
  unfold SharingService.revokeShareLink
  refine Proc.Minds.bind (Proc.minds_select (fun _ _ _ _ => trivial) fun _ _ w₁ D₁ _ _ _ => ?_)
  simp only
  split
  · refine Proc.Minds.bind (Proc.minds_select (fun _ _ _ _ => trivial)
      fun _ _ w₂ D₂ _ _ _ => ?_)
    simp only
    split
    · refine Proc.Minds.bind (minded_call (fun _ _ _ h => h) fun r _ _ _ _ _ w₃ D₃ _ => ?_)
      cases r with
      | error e => trivial
      | ok now =>
          refine Proc.Minds.bind (minded_updateLink (fun _ => rfl)
            (fun _ hready => ⟨hready, rfl⟩) fun r w₄ D₄ => ?_)
          cases r with
          | error e => trivial
          | ok _ => exact minded_logEvent fun _ _ _ _ => trivial
    · exact fun _ _ _ => trivial
  · exact fun _ _ _ => trivial

theorem minded_onFailed (shareLinkId : Id) (attemptsMade maxAttempts : Nat) :
    Minded C png others (fun _ _ _ => True)
      (ShareImageProcessor.onFailed shareLinkId attemptsMade maxAttempts) w D := by
  unfold ShareImageProcessor.onFailed SharingService.markImageFailed
  split
  · exact fun _ _ _ => trivial
  · refine Proc.Minds.bind (Proc.minds_transaction (fun _ _ _ _ => trivial) fun w' D' _ hI => ?_)
    apply Db.shareLink.wp_updateMany
    · rintro D₀ ⟨-, rfl, -⟩ _ _
      exact ⟨(rely C png).keeps_refl hI, fun _ _ _ _ _ _ => trivial⟩
    · intro link hlookup _ _
      have hkeeps : (rely C png).Keeps w' D' w'
          (view [.shareLink shareLinkId (some { link with imageStatus := .FAILED })] D') :=
        hI.keeps_link (hI.links shareLinkId link hlookup)
          (fun old hold => by cases hlookup.symm.trans hold; rfl) (fun hready => by cases hready)
      exact ⟨hkeeps, fun _ _ _ _ _ _ => trivial⟩

theorem minded_getPublicSummary (token : Id) :
    Minded C png others (fun _ _ _ => True)
      (SharingService.getPublicSummary C.toSharingConfig token) w D := by
  unfold SharingService.getPublicSummary
  refine Proc.Minds.bind (minded_findActiveShareLink (fun _ _ _ _ => trivial)
    fun link w' D' _ _ => ?_)
  refine Proc.Minds.bind (minded_sanitized (fun _ _ _ _ => trivial) fun data w₁ D₁ _ _ => ?_)
  refine Proc.Minds.bind (minded_logEvent fun r w₂ D₂ _ => ?_)
  cases r with
  | error e => trivial
  | ok _ => exact fun _ _ _ => trivial

/-- The image that is served shows the reading of its link. -/
theorem minded_getShareImageBytes {token : Id} {P : Except Err (Option ShareImageBytes) →
      Objects → Db → Prop} (hP : ∀ r w' D', (∀ bytes, r ≠ .ok (some bytes)) → P r w' D')
    (hok : ∀ bytes link data w' D', D'.shareLinks.lookup token = some link →
      sharedData D' link.readingId = some data → Depicts C png data bytes.buffer →
        P (.ok (some bytes)) w' D') :
    Minded C png others P (SharingService.getShareImageBytes token) w D := by
  have none_end : ∀ {w' : Objects} {D' : Db}, P (.ok none) w' D' := hP _ _ _ (by simp)
  unfold SharingService.getShareImageBytes
  refine Proc.Minds.bind (Proc.Minds.handle (Proc.Minds.bind (minded_findActiveShareLink
    (fun e w' D' _ => ?_) fun link w' D' _ hfound => ?_)))
  · exact fun _ _ _ _ _ _ => none_end
  · intro w₁ D₁ hl₁
    simp only
    split
    · exact fun _ _ _ => none_end
    · rename_i hready
      rw [not_or, not_not] at hready
      have hfound₁ := hfound.later hl₁
      refine Proc.Minds.bind (minded_call ?_ fun r w₂ D₂ hl₂ hI₂ hreply w₃ D₃ hl₃ => ?_)
      · intro w r w' h
        cases r with
        | ok buffer => exact h.2
        | error e => exact h
      · cases r with
        | error e => exact hP _ _ _ (by simp)
        | ok buffer =>
            intro w₄ D₄ hl₄
            obtain ⟨hkeyed, hdone, now, hlookup, hreading⟩ := hfound₁.later hl₂
            obtain ⟨uuid, hkey⟩ := hkeyed hready.1
            have hobject := hreply.1
            rw [hkey, Option.getD_some] at hobject
            obtain ⟨-, data, hdata, hdepicts⟩ :=
              hI₂.objects _ _ _ (hI₂.named _ hdone) hobject
            have hl : Later w₂ D₂ w₄ D₄ := hl₃.trans hl₄
            obtain ⟨now', hlookup', hreading'⟩ := hl.links token now hlookup
            refine hok _ now' data w₄ D₄ hlookup' ?_ hdepicts
            rw [hreading', hreading, (hl.shown _ hdone).2]
            exact hdata

theorem minded_markImageReady {shareLinkId uuid : Id} {link : ShareLink}
    (hfound : Found shareLinkId link D)
    (hthere : (w.lookup (buildShareImageKey link.readingId uuid)).isSome) :
    Minded C png others (fun _ _ _ => True)
      (SharingService.markImageReady shareLinkId (buildShareImageKey link.readingId uuid)) w D := by
  unfold SharingService.markImageReady
  refine Proc.Minds.bind (Proc.minds_transaction (fun _ _ _ _ => trivial) fun w' D' hl hI => ?_)
  refine Db.shareLink.wp_update fun now hlookup _ => ⟨?_, fun _ _ _ _ _ _ => trivial⟩
  obtain ⟨-, -, now', hlookup', hreading⟩ := hfound.later hl
  cases hlookup.symm.trans hlookup'
  refine hI.keeps_link (hI.links shareLinkId now hlookup) (fun old hold => ?_) fun _ => ?_
  · cases hlookup.symm.trans hold
    rfl
  · have hthere' := hl.objects _ _ hthere
    rw [← hreading] at hthere'
    exact ⟨uuid, by rw [hreading], hthere'⟩

/-- An image of the reading of a link is stored, and then the link is marked. -/
theorem minded_publish {shareLinkId uuid : Id} {link : ShareLink} {data : SanitizedReadingData}
    {buffer : Buffer} (hfound : Found shareLinkId link D)
    (hdata : sharedData D link.readingId = some data) (hdepicts : Depicts C png data buffer) :
    Minded C png others (fun _ _ _ => True) (do
      Proc.call (Query.uploadObject (buildShareImageKey link.readingId uuid) buffer "image/png")
      SharingService.markImageReady shareLinkId (buildShareImageKey link.readingId uuid))
      w D := by
  refine Proc.Minds.bind (Proc.minds_call
    (q := Query.uploadObject (buildShareImageKey link.readingId uuid) buffer "image/png")
    fun w' D' hl hI r w'' hreply _ => ?_)
  obtain ⟨hdone, hsame⟩ := hl.shown _ hfound.2.1
  have hstored := hI.keeps_upload uuid hdone (hsame.trans hdata) hdepicts
  cases r with
  | error e =>
      rcases hreply with rfl | rfl
      · exact ⟨(rely C png).keeps_refl hI, fun _ _ _ => trivial⟩
      · exact ⟨hstored, fun _ _ _ => trivial⟩
  | ok _ =>
      obtain rfl := hreply
      refine ⟨hstored, fun w₁ D₁ hl₁ => ?_⟩
      have hthere := hl₁.objects link.readingId uuid (by rw [Table.lookup_write_self]; rfl)
      exact minded_markImageReady (hfound.later (hl.trans (hstored.later.trans hl₁))) hthere

/-- A job stores an image of the reading of its link before it marks the link. -/
theorem minded_generateImage (shareLinkId : Id) :
    Minded C png others (fun _ _ _ => True)
      (ShareImageProcessor.generateImage C shareLinkId) w D := by
  unfold ShareImageProcessor.generateImage
  refine Proc.Minds.bind (Proc.minds_select (fun _ _ _ _ => trivial)
    fun w₀ D₀ w₁ D₁ _ hI₀ hl₁ => ?_)
  simp only
  split
  · rename_i link hfind
    have hfound : Found shareLinkId link D₁ := (hI₀.found hfind).later hl₁
    split
    · exact fun _ _ _ => trivial
    refine Proc.Minds.bind (minded_sanitized (fun _ _ _ _ => trivial)
      fun data w₂ D₂ hl₂ hdata => ?_)
    have hdata₂ := hdata hfound.2.1
    have hfound₂ := hfound.later hl₂
    simp only
    split
    · rename_i appHost hhost
      refine Proc.Minds.bind (minded_call ?_ fun r w₃ D₃ hl₃ _ hpng w₄ D₄ hl₄ => ?_)
      · intro w r w' h
        cases r with
        | ok buffer => exact h.2
        | error e => exact h
      cases r with
      | error e => trivial
      | ok buffer =>
          have hdepicts : Depicts C png data buffer := ⟨appHost, hhost, hpng.1⟩
          have hfound₄ := hfound₂.later (hl₃.trans hl₄)
          have hdata₄ := ((hl₃.trans hl₄).shown _ hfound₂.2.1).2.trans hdata₂
          refine Proc.Minds.bind (minded_call (fun _ _ _ => replies_randomUUID)
            fun r w₅ D₅ hl₅ _ _ w₆ D₆ hl₆ => ?_)
          cases r with
          | error e => trivial
          | ok uuid =>
              have hfound₆ := hfound₄.later (hl₅.trans hl₆)
              have hdata₆ := ((hl₅.trans hl₆).shown _ hfound₄.2.1).2.trans hdata₄
              exact minded_publish hfound₆ hdata₆ hdepicts
    · exact fun _ _ _ => trivial
  · exact fun _ _ _ => trivial

/-- The end of a request: an image that it serves shows the reading of its link. -/
def Ends (C : ShareImageConfig) (png : String → Buffer) (c : ShareRequest Other)
    (r : Except Err (Option ShareImageBytes)) (_ : Objects) (D : Db) : Prop :=
  ∀ token bytes, c = .getShareImageBytes token → r = .ok (some bytes) →
    ∃ link data, D.shareLinks.lookup token = some link ∧
      sharedData D link.readingId = some data ∧ Depicts C png data bytes.buffer

theorem ends_other {c : ShareRequest Other} (hc : ∀ token, c ≠ .getShareImageBytes token)
    (r : Except Err (Option ShareImageBytes)) : Ends C png c r w D :=
  fun token _ h => absurd h (hc token)

/-- A request that serves no image. -/
theorem minded_discard {c : ShareRequest Other} (hc : ∀ token, c ≠ .getShareImageBytes token)
    {p : Request α} (h : Minded C png others (fun _ _ _ => True) p w D) :
    Minded C png others (Ends C png c) (p >>= fun _ => pure none) w D := by
  refine Proc.Minds.bind (h.mono fun r w' D' _ => ?_)
  cases r with
  | ok _ => exact fun w'' D'' _ => ends_other hc _
  | error e => exact ends_other hc _

theorem minded_prog
    (hothers : ∀ o D L, Named D → (others o).run D [] = .ok ((), L) → Spares D (view L D))
    (c : ShareRequest Other) (w : Objects) (D : Db) :
    Minded C png others (Ends C png c) (c.prog C others) w D := by
  cases c with
  | createShareLink userId readingId =>
      exact minded_discard (by simp) (minded_createShareLink userId readingId)
  | revokeShareLink userId readingId =>
      exact minded_discard (by simp) (minded_revokeShareLink userId readingId)
  | generateImage shareLinkId => exact minded_discard (by simp) (minded_generateImage shareLinkId)
  | onFailed shareLinkId attemptsMade maxAttempts =>
      exact minded_discard (by simp) (minded_onFailed shareLinkId attemptsMade maxAttempts)
  | getPublicSummary token => exact minded_discard (by simp) (minded_getPublicSummary token)
  | getShareImageBytes token =>
      refine minded_getShareImageBytes (fun r w' D' hr token' bytes _ heq => ?_)
        fun bytes link data w' D' hlookup hdata hdepicts token' bytes' hc hr => ?_
      · exact absurd heq (hr bytes)
      · cases hc
        cases hr
        exact ⟨link, data, hlookup, hdata, hdepicts⟩
  | other o =>
      refine minded_discard (by simp) fun w' D' _ hI => ⟨fun _ _ _ _ => trivial, ?_⟩
      intro _ L hrun _
      exact ⟨Inv.keeps_spares hI (hothers o D' L hI.named hrun), fun _ _ _ => trivial⟩

end Requests

section Runs

variable {C : ShareImageConfig} {png : String → Buffer} {others : Other → TxM Unit}

/-- In every run that starts without links and without share images: a link that is ready
has an object in the bucket, which shows its reading, and so does every image that a
request serves for a token. -/
theorem served_images_show_their_readings
    (hothers : ∀ o D L, Named D → (others o).run D [] = .ok ((), L) → Spares D (view L D))
    {w : Objects} {D : Db} (hlinks : D.shareLinks = ∅)
    (hobjects : ∀ readingId uuid, w.lookup (buildShareImageKey readingId uuid) = none)
    (hnamed : Named D)
    {s : Scene Db RowWrite Err Objects (ShareRequest Other) Answer (Option ShareImageBytes)}
    (run : (service C png others).Reach (fun _ _ _ _ => True) ⟨w, D, fun _ => none⟩ s) :
    (∀ token link, s.db.shareLinks.lookup token = some link → link.imageStatus = .READY →
      ∃ key buffer data, link.imageKey = some key ∧ s.world.lookup key = some buffer ∧
        sharedData s.db link.readingId = some data ∧ Depicts C png data buffer) ∧
    ∀ t token bytes, s.tasks t = some (.getShareImageBytes token, .ret (some bytes)) →
      ∃ link data, s.db.shareLinks.lookup token = some link ∧
        sharedData s.db link.readingId = some data ∧ Depicts C png data bytes.buffer := by
  have hstart : Setting.Minding (service C png others) (fun _ _ _ _ => True) (rely C png)
      (Ends C png) ⟨w, D, fun _ => none⟩ := by
    refine ⟨⟨hnamed, fun id link hlookup => ?_, fun id link hlookup => ?_,
      fun readingId uuid buffer _ hlookup => ?_⟩, fun t c p hp => by cases hp⟩
    · simp [hlinks] at hlookup
    · simp [hlinks] at hlookup
    · cases (hobjects readingId uuid).symm.trans hlookup
  have hminding := hstart.run (fun c w' D' _ => minded_prog hothers c w' D')
    (fun w' D' w'' hI hmove _ => Inv.keeps_move hI hmove)
    (fun c a w' D' hI _ => (rely C png).keeps_refl hI) run
  have hinv : Inv C png s.world s.db := hminding.inv
  refine ⟨fun token link hlookup hready => ?_, fun t token bytes ht => ?_⟩
  · obtain ⟨uuid, hkey, hthere⟩ := hinv.ready token link hlookup hready
    obtain ⟨buffer, hbuffer⟩ := Option.isSome_iff_exists.mp hthere
    obtain ⟨-, data, hdata, hdepicts⟩ :=
      hinv.objects _ _ _ (hinv.named _ (hinv.links token link hlookup)) hbuffer
    exact ⟨_, buffer, data, hkey, hbuffer, hdata, hdepicts⟩
  · exact hminding.tasks t _ _ ht s.world s.db (later_refl _ _) token bytes rfl rfl

end Runs

/-! ## An image that is rendered and served -/

section Sample

variable (png : String → Buffer)

/-- A world for concrete runs, in which every call succeeds. -/
def imageWorld : World Objects Err Answer
  | .randomUUID, w => (.ok "t1", w)
  | .now, w => (.ok 0, w)
  | .toPng svg, w => (.ok (png svg), w)
  | .uploadObject key body _, w => (.ok (), w.write key (some body))
  | .downloadObject key, w =>
      match w.lookup key with
      | some buffer => (.ok buffer, w)
      | none => (.error .fault, w)
  | _, w => (.error .fault, w)

theorem replies_imageWorld (q : Query) (w : Objects) :
    Replies png q w (imageWorld png q w).1 (imageWorld png q w).2 := by
  cases q with
  | downloadObject key =>
      simp only [imageWorld]
      cases hobject : w.lookup key with
      | none => rfl
      | some buffer => exact ⟨hobject, rfl⟩
  | toPng svg => exact ⟨rfl, rfl⟩
  | _ => rfl

def sampleShareConfig : ShareImageConfig :=
  ⟨⟨"https://tarotria.com", "https://api.tarotria.com"⟩, some⟩

/-- A completed palm reading. -/
def completedDb : Db :=
  { Db.empty with
    services := (∅ : Table Id Service).write "palm" (some ⟨"PALM_SINGLE", "Mano", none, 2, true⟩)
    readings := (∅ : Table Id Reading).write "r1"
      (some ⟨"ana", "palm", none, none, .COMPLETED, some 0⟩) }

/-- Other services open wallets. -/
def walletOpenings (userId : Id) : TxM Unit := WalletService.createWalletWithBonus userId 3

/-- The bucket and the rows after a request that is served by itself. -/
def served (c : ShareRequest Id) (w : Objects) (D : Db) : Objects × Db :=
  let r := ((service sampleShareConfig png walletOpenings).prog c).play (imageWorld png) w D
  (r.1, r.2.1)

theorem reach_served {c : ShareRequest Id} {w : Objects} {D : Db}
    (h : (((service sampleShareConfig png walletOpenings).prog c).play
      (imageWorld png) w D).2.2 = .ok none) :
    (service sampleShareConfig png walletOpenings).Reach (fun _ _ _ _ => True)
      ⟨w, D, fun _ => none⟩ ⟨(served png c w D).1, (served png c w D).2, fun _ => none⟩ :=
  Setting.serve (H := service sampleShareConfig png walletOpenings) (t := 0)
    (s := ⟨w, D, fun _ => none⟩) (replies_imageWorld png) rfl
    (Proc.lets_of_forall (fun _ _ _ _ => trivial) _ _ _) (Prod.ext rfl (Prod.ext rfl h))

/-- The reading is shared. -/
def linked : Objects × Db := served png (.createShareLink "ana" "r1") ∅ completedDb

/-- Its image is rendered. -/
def rendered : Objects × Db := served png (.generateImage "t1") (linked png).1 (linked png).2

theorem reach_rendered : (service sampleShareConfig png walletOpenings).Reach
    (fun _ _ _ _ => True) ⟨∅, completedDb, fun _ => none⟩
      ⟨(rendered png).1, (rendered png).2, fun _ => none⟩ :=
  (reach_served png rfl).trans (reach_served png rfl)

theorem spares_walletOpenings (userId : Id) {D : Db} {L : List RowWrite} (hnamed : Named D)
    (hrun : (walletOpenings userId).run D [] = .ok ((), L)) : Spares D (view L D) := by
  have hwp : (walletOpenings userId).wp still D (fun _ L => Unrelated D (view L D)) [] := by
    apply WalletService.wp_createWalletWithBonus
    intro _ _
    exact ⟨rfl, rfl, rfl, rfl, rfl, rfl, rfl⟩
  exact (Tx.run_of_wp (P := fun _ L => Unrelated D (view L D)) hwp hrun).spares hnamed

theorem named_completedDb : Named completedDb := by
  rintro readingId ⟨reading, hlookup, -⟩
  obtain ⟨rfl, -⟩ := Table.eq_of_lookup_single hlookup
  decide

/-- A visitor has asked for the image of the link and is answered. -/
def shown (bytes : ShareImageBytes) :
    Scene Db RowWrite Err Objects (ShareRequest Id) Answer (Option ShareImageBytes) :=
  ⟨(rendered png).1, (rendered png).2,
    Function.update (fun _ => none) 0 (some (.getShareImageBytes "t1", .ret (some bytes)))⟩

/-- An active link with an image answers with the object of its key. -/
theorem play_getShareImageBytes_ready {w : Objects} {D : Db} {token : Id} {link : ShareLink}
    {reading : Reading} {key : String} {buffer : Buffer}
    (hlink : D.shareLinks.lookup token = some link) (hactive : link.revokedAt = none)
    (hreading : D.readings.lookup link.readingId = some reading)
    (hdone : reading.status = .COMPLETED) (hready : link.imageStatus = .READY)
    (hkey : link.imageKey = some key) (hne : key ≠ "") (hbuffer : w.lookup key = some buffer) :
    (SharingService.getShareImageBytes token).play (imageWorld png) w D =
      (w, D, .ok (some ⟨buffer, "image/png"⟩)) := by
  have hfind : (SharingService.findActiveShareLink token).play (imageWorld png) w D =
      (w, D, .ok link) := by
    have hunrevoked : (Db.shareLink.find D token).filter (fun link => link.revokedAt.isNone) =
        some link := Option.filter_eq_some_iff.mpr ⟨hlink, by simp [hactive]⟩
    have hfound : Db.reading.find D link.readingId = some reading := hreading
    unfold SharingService.findActiveShareLink
    rw [SharingService.findUnrevoked, Proc.play_select_bind, hunrevoked]
    simp only [Delegate.findUnique]
    rw [Proc.play_select_bind, hfound]
    simp [hdone]
  have hfound : ((do return some (← SharingService.findActiveShareLink token) :
      Request (Option ShareLink)).handle fun _ => pure none).play (imageWorld png) w D =
        (w, D, .ok (some link)) := by
    rw [Proc.play_handle, Proc.play_bind_ok hfind]
    rfl
  refine (Proc.play_bind_ok hfound).trans ?_
  have hobject : w.lookup (link.imageKey.getD "") = some buffer := by
    rw [hkey, Option.getD_some, hbuffer]
  have hdownload : imageWorld png (.downloadObject (link.imageKey.getD "")) w =
      (.ok buffer, w) := by
    simp only [imageWorld]
    rw [hobject]
  simp only [hready, hkey, hne, Option.getD_some, ne_eq, not_true_eq_false, or_self, if_false]
  exact Proc.play_call hdownload

theorem reach_shown : ∃ (bytes : ShareImageBytes) (link : ShareLink),
    (service sampleShareConfig png walletOpenings).Reach (fun _ _ _ _ => True)
      ⟨∅, completedDb, fun _ => none⟩ (shown png bytes) ∧
    (rendered png).2.shareLinks.lookup "t1" = some link ∧ link.imageStatus = .READY := by
  obtain ⟨link, hlink, hactive, hready, hkey, reading, hreading, hdone⟩ : ∃ link,
      (rendered png).2.shareLinks.lookup "t1" = some link ∧ link.revokedAt = none ∧
      link.imageStatus = .READY ∧ link.imageKey = some (buildShareImageKey "r1" "t1") ∧
      ∃ reading, (rendered png).2.readings.lookup link.readingId = some reading ∧
        reading.status = .COMPLETED := ⟨_, rfl, rfl, rfl, rfl, _, rfl, rfl⟩
  obtain ⟨buffer, hbuffer⟩ : ∃ buffer, (rendered png).1.lookup (buildShareImageKey "r1" "t1") =
      some buffer := ⟨_, rfl⟩
  have hplay := play_getShareImageBytes_ready png hlink hactive hreading hdone hready
    hkey (by decide) hbuffer
  have hanswer : (service sampleShareConfig png walletOpenings).Reach (fun _ _ _ _ => True)
      ⟨_, _, Function.update (fun _ => none) 0 _⟩ (shown png ⟨buffer, "image/png"⟩) :=
    Setting.reach_play (replies_imageWorld png)
      (Proc.lets_of_forall (fun _ _ _ _ => trivial) _ _ _) hplay
  exact ⟨_, link, (reach_rendered png).trans (.head (.start 0 _ rfl) hanswer), hlink, hready⟩

theorem shown_task (bytes : ShareImageBytes) : (shown png bytes).tasks 0 =
    some (.getShareImageBytes "t1", .ret (some bytes)) := by
  simp only [shown, Function.update_self]

/-- A reading is shared, its image is rendered, and a visitor is answered with it. -/
theorem served_images_show_their_readings_sample : ∃ (png : String → Buffer) (s : Scene Db RowWrite
      Err Objects (ShareRequest Id) Answer (Option ShareImageBytes)) (link : ShareLink)
      (bytes : ShareImageBytes),
    s.db.shareLinks.lookup "t1" = some link ∧ link.imageStatus = .READY ∧
      s.tasks 0 = some (.getShareImageBytes "t1", .ret (some bytes)) ∧
      (∃ key buffer data, link.imageKey = some key ∧ s.world.lookup key = some buffer ∧
        sharedData s.db link.readingId = some data ∧
        Depicts sampleShareConfig png data buffer) ∧
      ∃ link data, s.db.shareLinks.lookup "t1" = some link ∧
        sharedData s.db link.readingId = some data ∧
        Depicts sampleShareConfig png data bytes.buffer := by
  let png : String → Buffer := fun svg => svg.toList.map fun c => c.toNat.toUInt8
  obtain ⟨bytes, link, run, hlookup, hready⟩ := reach_shown png
  obtain ⟨hlinks, hanswers⟩ := served_images_show_their_readings
    (fun o D L hnamed hrun => spares_walletOpenings o hnamed hrun) rfl (fun _ _ => rfl)
    named_completedDb run
  exact ⟨png, shown png bytes, link, bytes, hlookup, hready, shown_task ..,
    hlinks "t1" link hlookup hready, hanswers 0 "t1" bytes (shown_task ..)⟩

end Sample

end ServedImages

end TaroTria
