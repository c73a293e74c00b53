import TaroTria.Backend.Calls
import TaroTria.Sharing.ShareImage
import TaroTria.Transactions.Relational

/-!
# What a share link discloses

The public summary of a share link, its image and the SVG behind it read only the
links, the public part of the readings, and the services, spreads, draws and
cards. Two databases that agree on these give one answer to each of the three,
whatever their users, answers, images, executions and wallets are. A token
without an active link of a completed reading gives the same error as none.
-/

namespace TaroTria

open Transactions

/-- What the public may know of the row of a reading. -/
def Reading.publicPart (reading : Reading) : ReadingStatus × Id × Option Id :=
  (reading.status, reading.serviceId, reading.spreadId)

/-- Two databases with the same public rows. Of the events only the taken ids count. -/
structure AgreeInPublic (D D' : Db) : Prop where
  shareLinks : D.shareLinks = D'.shareLinks
  readings : ∀ id, (D.readings.lookup id).map Reading.publicPart =
    (D'.readings.lookup id).map Reading.publicPart
  services : D.services = D'.services
  tarotSpreads : D.tarotSpreads = D'.tarotSpreads
  tarotDraws : D.tarotDraws = D'.tarotDraws
  tarotCards : D.tarotCards = D'.tarotCards
  events : ∀ id, (D.analyticsEvents.lookup id).isSome = (D'.analyticsEvents.lookup id).isSome

namespace AgreeInPublic

theorem event {D D' : Db} (h : AgreeInPublic D D') (id : Id) (event : AnalyticsEvent) :
    AgreeInPublic (view [.analyticsEvent id (some event)] D)
      (view [.analyticsEvent id (some event)] D') where
  __ := h
  events k := by
    change ((D.analyticsEvents.write id _).lookup k).isSome =
      ((D'.analyticsEvents.write id _).lookup k).isSome
    rw [Table.lookup_write, Table.lookup_write]
    split
    · rfl
    · exact h.events k

theorem shareLink {D D' : Db} (h : AgreeInPublic D D') (id : Id) (link : ShareLink) :
    AgreeInPublic (view [.shareLink id (some link)] D) (view [.shareLink id (some link)] D') where
  __ := h
  shareLinks := congrArg (fun t : Table Id ShareLink => t.write id (some link)) h.shareLinks

end AgreeInPublic

/-- The rows of two readings show the same. -/
def SameShared (row row' : ReadingProcessing.TarotReadingRow) : Prop :=
  row.serviceCode = row'.serviceCode ∧ row.positions = row'.positions ∧ row.draws = row'.draws

theorem AgreeInPublic.findTarotReading {D D' : Db} (h : AgreeInPublic D D') (readingId : Id) :
    Option.Rel SameShared (ReadingProcessing.findTarotReading readingId D)
      (ReadingProcessing.findTarotReading readingId D') := by
  have hreading := h.readings readingId
  unfold ReadingProcessing.findTarotReading
  simp only [Db.reading, Delegate.find, ← h.services, ← h.tarotSpreads, ← h.tarotDraws,
    ← h.tarotCards]
  rcases hD : D.readings.lookup readingId with _ | reading <;>
    rcases hD' : D'.readings.lookup readingId with _ | reading' <;>
    rw [hD, hD'] at hreading
  · exact .none
  · cases hreading
  · cases hreading
  · rcases reading with ⟨_, serviceId, spreadId, _, _, _⟩
    rcases reading' with ⟨_, serviceId', spreadId', _, _, _⟩
    simp only [Option.map_some, Option.some.injEq, Reading.publicPart, Prod.mk.injEq] at hreading
    obtain ⟨-, rfl, rfl⟩ := hreading
    simp only [Option.bind_eq_bind, Option.bind_some]
    rcases D.services.lookup serviceId with _ | service
    · exact .none
    · exact .some ⟨rfl, rfl, rfl⟩

namespace SharingService

variable {W : Type} (world : World W Err Answer)

theorem alike_logEvent (type : String) (shareLinkId userId : Option Id) :
    Proc.Alike world AgreeInPublic (· = ·) (logEvent type shareLinkId userId)
      (logEvent type shareLinkId userId) := by
  refine (Proc.alike_call _).bind ?_
  rintro id _ rfl
  refine (Proc.alike_transaction (Db.analyticsEvent.alike_create (fun D D' h => h.events id)
    fun D D' h => h.event id _)).bind ?_
  rintro _ _ -
  exact Proc.alike_ret rfl

theorem alike_findActiveShareLink (token : Id) :
    Proc.Alike world AgreeInPublic (· = ·) (findActiveShareLink token)
      (findActiveShareLink token) := by
  refine (Proc.alike_transaction (Tx.alike_select (S := (· = ·)) fun D D' h => ?_)).bind ?_
  · simp only [Db.shareLink, Delegate.find, h.shareLinks]
  rintro (_ | link) _ rfl
  · exact Proc.alike_throw _
  refine (Proc.alike_transaction (Tx.alike_select
    (S := fun r r' => r.map Reading.publicPart = r'.map Reading.publicPart)
    fun D D' h => h.readings link.readingId)).bind ?_
  rintro (_ | reading) (_ | reading') hreading
  · exact Proc.alike_throw _
  · cases hreading
  · cases hreading
  · have hstatus : reading.status = reading'.status :=
      congrArg Prod.fst (Option.some.inj hreading)
    simp only [hstatus]
    split
    · exact Proc.alike_throw _
    · exact Proc.alike_ret rfl

theorem alike_getSanitizedReadingData (readingId : Id) :
    Proc.Alike world AgreeInPublic (· = ·) (getSanitizedReadingData readingId)
      (getSanitizedReadingData readingId) := by
  refine (Proc.alike_transaction (Tx.alike_selectOrThrow fun D D' h =>
    h.findTarotReading readingId)).bind ?_
  rintro row row' ⟨hcode, hpositions, hdraws⟩
  simp only [hcode, hpositions, hdraws]
  split
  · exact Proc.alike_ret rfl
  · exact Proc.alike_ret rfl

theorem alike_getPublicSummary (C : SharingConfig) (token : Id) :
    Proc.Alike world AgreeInPublic (· = ·) (getPublicSummary C token)
      (getPublicSummary C token) := by
  refine (alike_findActiveShareLink world token).bind ?_
  rintro link _ rfl
  refine (alike_getSanitizedReadingData world link.readingId).bind ?_
  rintro data _ rfl
  refine (alike_logEvent world _ _ _).bind ?_
  rintro _ _ -
  exact Proc.alike_ret rfl

theorem alike_getShareImageBytes (token : Id) :
    Proc.Alike world AgreeInPublic (· = ·) (getShareImageBytes token)
      (getShareImageBytes token) := by
  refine Proc.Alike.bind (Proc.Alike.handle (S := (· = ·))
    ((alike_findActiveShareLink world token).bind fun link link' h => Proc.alike_ret (h ▸ rfl))
    fun e => Proc.alike_ret rfl) ?_
  rintro (_ | link) _ rfl
  · exact Proc.alike_ret rfl
  dsimp only
  split
  · exact Proc.alike_ret rfl
  · refine (Proc.alike_call _).bind ?_
    rintro buffer _ rfl
    exact Proc.alike_ret rfl

theorem alike_markImageReady (shareLinkId : Id) (imageKey : String) :
    Proc.Alike world AgreeInPublic (· = ·) (markImageReady shareLinkId imageKey)
      (markImageReady shareLinkId imageKey) := by
  refine (Proc.alike_transaction (Db.shareLink.alike_update
    (fun D D' h => by simp only [Db.shareLink, Delegate.find, h.shareLinks])
    fun D D' link h => h.shareLink shareLinkId link)).bind ?_
  rintro _ _ -
  exact Proc.alike_ret rfl

end SharingService

namespace ShareImageProcessor

theorem alike_generateImage {W : Type} (world : World W Err Answer) (C : ShareImageConfig)
    (shareLinkId : Id) :
    Proc.Alike world AgreeInPublic (· = ·) (generateImage C shareLinkId)
      (generateImage C shareLinkId) := by
  refine (Proc.alike_transaction (Tx.alike_select (S := (· = ·)) fun D D' h => ?_)).bind ?_
  · simp only [Db.shareLink, Delegate.find, h.shareLinks]
  rintro (_ | link) _ rfl
  · exact Proc.alike_ret rfl
  dsimp only
  split
  · exact Proc.alike_ret rfl
  refine (SharingService.alike_getSanitizedReadingData world link.readingId).bind ?_
  rintro data _ rfl
  split
  · refine (Proc.alike_call _).bind ?_
    rintro buffer _ rfl
    refine (Proc.alike_call _).bind ?_
    rintro uuid _ rfl
    refine (Proc.alike_call _).bind ?_
    rintro _ _ -
    exact SharingService.alike_markImageReady world shareLinkId _
  · exact Proc.alike_throw _

/-- A world that also keeps the SVGs that it was asked to render. -/
def keepingSvgs {W : Type} (world : World W Err Answer) : World (List String × W) Err Answer
  | .toPng svg, (svgs, w) =>
      let (r, w') := world (.toPng svg) w
      (r, svgs ++ [svg], w')
  | q, (svgs, w) =>
      let (r, w') := world q w
      (r, svgs, w')

/-- The SVGs that the job of a link builds. -/
def builtSvgs {W : Type} (world : World W Err Answer) (w : W) (C : ShareImageConfig)
    (shareLinkId : Id) (D : Db) : List String :=
  ((generateImage C shareLinkId).play (keepingSvgs world) ([], w) D).1.1

end ShareImageProcessor

/-- The token names no link, a revoked one, or one whose reading is not complete. -/
def NotShared (D : Db) (token : Id) : Prop :=
  ∀ link, D.shareLinks.lookup token = some link → link.revokedAt = none →
    ∀ reading, D.readings.lookup link.readingId = some reading → reading.status ≠ .COMPLETED

namespace SharingService

variable {W : Type} {world : World W Err Answer} {w : W} {D : Db} {token : Id}

theorem play_findActiveShareLink (h : NotShared D token) :
    (findActiveShareLink token).play world w D = (w, D, .error linkNotFound) := by
  unfold findActiveShareLink
  rw [findUnrevoked, Proc.play_select_bind]
  rcases hlink : (Db.shareLink.find D token).filter fun link => link.revokedAt.isNone with _ | link
  · simp only [hlink]
    rfl
  obtain ⟨hlookup, hrevoked⟩ := Option.filter_eq_some_iff.mp hlink
  simp only [hlink, Delegate.findUnique]
  rw [Proc.play_select_bind]
  rcases hreading : Db.reading.find D link.readingId with _ | reading
  · rfl
  · dsimp only
    rw [if_pos (h link hlookup (by simpa using hrevoked) reading hreading)]
    rfl

theorem play_getPublicSummary (C : SharingConfig) (h : NotShared D token) :
    (getPublicSummary C token).play world w D = (w, D, .error linkNotFound) :=
  Proc.play_bind_error (play_findActiveShareLink h)

theorem play_getShareImageBytes (h : NotShared D token) :
    (getShareImageBytes token).play world w D = (w, D, .ok none) := by
  have hfound : ((do return some (← findActiveShareLink token) : Request (Option ShareLink)).handle
      fun _ => pure none).play world w D = (w, D, .ok none) := by
    rw [Proc.play_handle, Proc.play_bind_error (play_findActiveShareLink h)]
    rfl
  exact Proc.play_bind_ok hfound

end SharingService

/-- The answers to a token, in a world and from a database: of the summary, of the
image, and the SVGs of the job. -/
def publicAnswers {W : Type} (world : World W Err Answer) (w : W) (C : ShareImageConfig)
    (token : Id) (D : Db) :
    Except Err SharedSummary × Except Err (Option ShareImageBytes) × List String :=
  (((SharingService.getPublicSummary C.toSharingConfig token).play world w D).2.2,
    ((SharingService.getShareImageBytes token).play world w D).2.2,
    ShareImageProcessor.builtSvgs world w C token D)

/-- Databases that agree in public give the same answers to every token, and a token
that shares nothing gives one error and changes nothing. -/
theorem sharing_discloses_nothing {W : Type} (world : World W Err Answer) (w : W)
    (C : ShareImageConfig) (token : Id) :
    (∀ D D', AgreeInPublic D D' →
      publicAnswers world w C token D = publicAnswers world w C token D') ∧
    ∀ D, NotShared D token →
      (SharingService.getPublicSummary C.toSharingConfig token).play world w D =
        (w, D, .error SharingService.linkNotFound) ∧
      (SharingService.getShareImageBytes token).play world w D = (w, D, .ok none) := by
  refine ⟨fun D D' h => ?_, fun D h => ⟨SharingService.play_getPublicSummary _ h,
    SharingService.play_getShareImageBytes h⟩⟩
  have hsummary := (SharingService.alike_getPublicSummary world C.toSharingConfig token).play_eq h
    (w := w)
  have hbytes := (SharingService.alike_getShareImageBytes world token).play_eq h (w := w)
  have hsvgs := (ShareImageProcessor.alike_generateImage (ShareImageProcessor.keepingSvgs world) C
    token).play_eq h (w := ([], w))
  simp only [publicAnswers, ShareImageProcessor.builtSvgs, hsummary.2, hbytes.2, hsvgs.1]

/-- A shared palm reading of a user, who asked a question. -/
def sharedDb (userId : Id) (question : String) : Db :=
  { Db.empty with
    services := (∅ : Table Id Service).write "palm"
      (some ⟨"PALM_SINGLE", "Mano", none, 2, true⟩)
    readings := (∅ : Table Id Reading).write "r1"
      (some ⟨userId, "palm", none, none, .COMPLETED, some 0⟩)
    readingInputs := (∅ : Table Id ReadingInput).write "r1"
      (some ⟨1, [("question", .str question)]⟩)
    shareLinks := (∅ : Table Id ShareLink).write "t1" (some ⟨"r1", none, .PENDING, none⟩) }

theorem agreeInPublic_sharedDb (userId question userId' question' : String) :
    AgreeInPublic (sharedDb userId question) (sharedDb userId' question') where
  shareLinks := rfl
  readings id := by
    simp only [sharedDb, Table.lookup_write]
    split
    · rfl
    · rfl
  services := rfl
  tarotSpreads := rfl
  tarotDraws := rfl
  tarotCards := rfl
  events _ := rfl

theorem sharing_discloses_nothing_of_question :
    publicAnswers (fun q w => (.ok (sampleAnswer .COMPLETED q), w)) ()
      ⟨⟨"https://tarotria.com", "https://api.tarotria.com"⟩, some⟩ "t1" (sharedDb "ana" "amor") =
    publicAnswers (fun q w => (.ok (sampleAnswer .COMPLETED q), w)) ()
      ⟨⟨"https://tarotria.com", "https://api.tarotria.com"⟩, some⟩ "t1" (sharedDb "eva" "dinero") :=
  (sharing_discloses_nothing _ () _ "t1").1 _ _ (agreeInPublic_sharedDb _ _ _ _)

end TaroTria
