import TaroTria.Backend.Calls
import TaroTria.Sharing.SharingService
import TaroTria.Transactions.Follow

/-!
# Revocation of share links

Requests for share links, in any interleaving of their Prisma calls. The
creation of a link looks for an active one and inserts with a later call, and no
key of the schema forbids a second active link; a revocation revokes the one link
that it finds. So a revocation cuts the access to a reading when every link was
inserted while its reading had no active one.
-/

namespace TaroTria

open Transactions

inductive SharingCall
  | createShareLink (userId readingId : Id)
  | revokeShareLink (userId readingId : Id)
  | markImageReady (shareLinkId : Id) (imageKey : String)
  | markImageFailed (shareLinkId : Id)
  deriving DecidableEq, Repr

namespace SharingCall

def prog (C : SharingConfig) : SharingCall → Request Unit
  | createShareLink userId readingId => do
      let _ ← SharingService.createShareLink C userId readingId
  | revokeShareLink userId readingId => SharingService.revokeShareLink userId readingId
  | markImageReady shareLinkId imageKey => SharingService.markImageReady shareLinkId imageKey
  | markImageFailed shareLinkId => SharingService.markImageFailed shareLinkId

/-- The reading that a call makes a link for. -/
def creates : SharingCall → Option Id
  | createShareLink _ readingId => some readingId
  | _ => none

end SharingCall

/-- The requests for share links and the committed rows. -/
abbrev SharingPool := Pool Db RowWrite Err SharingCall Answer Unit

/-- The reading has at most one active link. -/
def OneActive (readingId : Id) (D : Db) : Prop :=
  ∀ id link id' link', D.shareLinks.lookup id = some link → link.readingId = readingId →
    link.revokedAt = none → D.shareLinks.lookup id' = some link' → link'.readingId = readingId →
    link'.revokedAt = none → id = id'

/-- Every link of the reading is revoked. -/
def AllRevoked (readingId : Id) (D : Db) : Prop :=
  ∀ id link, D.shareLinks.lookup id = some link → link.readingId = readingId →
    link.revokedAt.isSome = true

/-- The links of the reading were its links before, and none is active again. -/
def LinksSettle (readingId : Id) (D D' : Db) : Prop :=
  ∀ id link', D'.shareLinks.lookup id = some link' → link'.readingId = readingId →
    ∃ link, D.shareLinks.lookup id = some link ∧ link.readingId = readingId ∧
      (link.revokedAt.isSome = true → link'.revokedAt.isSome = true)

/-- A step inserts a link of the reading only when the reading has no active one. -/
def InsertsAlone (readingId : Id) (s s' : SharingPool) : Prop :=
  ∀ id link, s.db.shareLinks.lookup id = none → s'.db.shareLinks.lookup id = some link →
    link.readingId = readingId → AllRevoked readingId s.db

/-- A commit of the run has written a link of the reading under this token. -/
def Issued (readingId : Id) (history : List (SharingCall × List RowWrite)) (token : Id) : Prop :=
  ∃ c L link, (c, L) ∈ history ∧ RowWrite.shareLink token (some link) ∈ L ∧
    link.readingId = readingId

/-- The writes touch no link. -/
def LinksAside (L : List RowWrite) : Prop :=
  (∀ D : Db, (view L D).shareLinks = D.shareLinks) ∧ ∀ id row, RowWrite.shareLink id row ∉ L

/-- The writes of a transaction: one link inserted for the reading `creates`, or one
link changed that stays revoked if it is, or no link. -/
inductive LinkWrites (creates : Option Id) (D : Db) : List RowWrite → Prop
  | aside {L} (h : LinksAside L) : LinkWrites creates D L
  | insert {id readingId} (hc : creates = some readingId) (hfresh : D.shareLinks.lookup id = none) :
      LinkWrites creates D [.shareLink id (some (SharingService.newLink readingId))]
  | change {id link link'} (hlink : D.shareLinks.lookup id = some link)
      (hreading : link'.readingId = link.readingId)
      (hrevoked : link.revokedAt.isSome = true → link'.revokedAt.isSome = true) :
      LinkWrites creates D [.shareLink id (some link')]

theorem linksAside_nil : LinksAside [] := ⟨fun _ => rfl, by simp⟩

theorem linkWrites_nil (creates : Option Id) (D : Db) : LinkWrites creates D [] :=
  .aside linksAside_nil

namespace SharingService

variable {creates : Option Id}

theorem every_logEvent (type : String) (shareLinkId userId : Option Id) :
    (logEvent type shareLinkId userId).Every fun _ L => LinksAside L := by
  apply (Proc.every_call _).bind
  intro id
  refine Proc.Every.bind (Proc.every_transaction fun D => ?_) fun _ => trivial
  apply Db.analyticsEvent.wp_create
  intro _
  exact ⟨fun _ => rfl, by simp⟩

theorem every_addShareImageJob (shareLinkId : Id) :
    (Proc.transaction (addShareImageJob shareLinkId) : Request Unit).Every
      fun _ L => LinksAside L := by
  apply Proc.every_transaction
  intro D
  apply Tx.wp_bind
  apply Db.shareImageJob.wp_upsert
  · exact fun _ => ⟨fun _ => rfl, by simp⟩
  · exact fun _ _ => ⟨fun _ => rfl, by simp⟩

theorem every_createShareLink (C : SharingConfig) (userId readingId : Id) :
    (createShareLink C userId readingId).Every (LinkWrites (some readingId)) := by
  apply (Proc.every_select (linkWrites_nil _) _).bind
  rintro (_ | reading)
  · trivial
  simp only
  split
  · trivial
  apply (Proc.every_select (linkWrites_nil _) _).bind
  rintro (_ | ⟨id, link⟩)
  · apply (Proc.every_call _).bind
    intro id
    refine Proc.Every.bind (Proc.every_transaction fun D => ?_) fun link => ?_
    · apply Db.shareLink.wp_create
      exact fun hfresh => .insert rfl hfresh
    · apply ((every_addShareImageJob id).mono fun _ _ h => .aside h).bind
      intro _
      exact ((every_logEvent _ _ _).mono fun _ _ h => .aside h).bind fun _ => trivial
  · trivial

theorem every_revokeShareLink (userId readingId : Id) :
    (revokeShareLink userId readingId).Every (LinkWrites creates) := by
  apply (Proc.every_select (linkWrites_nil _) _).bind
  rintro (_ | reading)
  · trivial
  apply (Proc.every_select (linkWrites_nil _) _).bind
  rintro (_ | ⟨id, link⟩)
  · trivial
  apply (Proc.every_call _).bind
  intro now
  refine Proc.Every.bind (Proc.every_transaction fun D => ?_) fun _ =>
    (every_logEvent _ _ _).mono fun _ _ h => .aside h
  apply Db.shareLink.wp_update
  exact fun link hlink => .change hlink rfl fun _ => rfl

theorem every_markImageReady (shareLinkId : Id) (imageKey : String) :
    (markImageReady shareLinkId imageKey).Every (LinkWrites creates) := by
  refine Proc.Every.bind (Proc.every_transaction fun D => ?_) fun _ => trivial
  apply Db.shareLink.wp_update
  exact fun link hlink => .change hlink rfl id

theorem every_markImageFailed (shareLinkId : Id) :
    (markImageFailed shareLinkId).Every (LinkWrites creates) := by
  refine Proc.Every.bind (Proc.every_transaction fun D => ?_) fun _ => trivial
  apply Db.shareLink.wp_updateMany
  · exact fun _ _ _ => linkWrites_nil _ D
  · exact fun link hlink _ => .change hlink rfl id

end SharingService

theorem SharingCall.every_linkWrites (C : SharingConfig) (c : SharingCall) :
    (c.prog C).Every (LinkWrites c.creates) := by
  cases c with
  | createShareLink userId readingId =>
      exact (SharingService.every_createShareLink C userId readingId).bind fun _ => trivial
  | revokeShareLink userId readingId => exact SharingService.every_revokeShareLink userId readingId
  | markImageReady shareLinkId imageKey =>
      exact SharingService.every_markImageReady shareLinkId imageKey
  | markImageFailed shareLinkId => exact SharingService.every_markImageFailed shareLinkId

/-! ## The links of a run -/

theorem LinksSettle.refl (readingId : Id) (D : Db) : LinksSettle readingId D D :=
  fun _ link hlink hreading => ⟨link, hlink, hreading, id⟩

theorem LinksSettle.trans {readingId : Id} {D₁ D₂ D₃ : Db} (h : LinksSettle readingId D₁ D₂)
    (h' : LinksSettle readingId D₂ D₃) : LinksSettle readingId D₁ D₃ := by
  intro id link₃ hlink₃ hreading₃
  obtain ⟨link₂, hlink₂, hreading₂, hstays₂⟩ := h' id link₃ hlink₃ hreading₃
  obtain ⟨link₁, hlink₁, hreading₁, hstays₁⟩ := h id link₂ hlink₂ hreading₂
  exact ⟨link₁, hlink₁, hreading₁, hstays₂ ∘ hstays₁⟩

theorem LinksSettle.oneActive {readingId : Id} {D D' : Db} (h : LinksSettle readingId D D')
    (hD : OneActive readingId D) : OneActive readingId D' := by
  -- A link that is active afterwards was active before.
  have active : ∀ {id link'}, D'.shareLinks.lookup id = some link' →
      link'.readingId = readingId → link'.revokedAt = none →
      ∃ link, D.shareLinks.lookup id = some link ∧ link.readingId = readingId ∧
        link.revokedAt = none := by
    intro id link' hlink' hreading' hopen
    obtain ⟨link, hlink, hreading, hstays⟩ := h id link' hlink' hreading'
    refine ⟨link, hlink, hreading, Option.not_isSome_iff_eq_none.mp fun hrevoked => ?_⟩
    simp [hopen] at hstays
    simp [hstays] at hrevoked
  intro id₁ link₁ id₂ link₂ h₁ hr₁ ho₁ h₂ hr₂ ho₂
  obtain ⟨old₁, hold₁, hreading₁, hopen₁⟩ := active h₁ hr₁ ho₁
  obtain ⟨old₂, hold₂, hreading₂, hopen₂⟩ := active h₂ hr₂ ho₂
  exact hD id₁ old₁ id₂ old₂ hold₁ hreading₁ hopen₁ hold₂ hreading₂ hopen₂

theorem LinksSettle.allRevoked {readingId : Id} {D D' : Db} (h : LinksSettle readingId D D')
    (hD : AllRevoked readingId D) : AllRevoked readingId D' := by
  intro id link' hlink' hreading'
  obtain ⟨link, hlink, hreading, hstays⟩ := h id link' hlink' hreading'
  exact hstays (hD id link hlink hreading)

section Writes

variable {creates : Option Id} {D : Db} {L : List RowWrite}

theorem LinksAside.settle (h : LinksAside L) (readingId : Id) :
    LinksSettle readingId D (view L D) := by
  unfold LinksSettle
  rw [h.1]
  exact LinksSettle.refl readingId D

/-- A link changed as its readers expect. -/
theorem LinksSettle.change {readingId id : Id} {link link' : ShareLink}
    (hlink : D.shareLinks.lookup id = some link) (hreading : link'.readingId = link.readingId)
    (hrevoked : link.revokedAt.isSome = true → link'.revokedAt.isSome = true) :
    LinksSettle readingId D (view [.shareLink id (some link')] D) := by
  intro id' row hrow hof
  simp only [view_cons, view_nil, apply_eq, RowWrite.apply, Table.lookup_write] at hrow
  split at hrow
  · rename_i hid
    subst hid
    cases hrow
    exact ⟨link, hlink, hreading ▸ hof, hrevoked⟩
  · exact ⟨row, hrow, hof, fun h => h⟩

theorem LinkWrites.settle (h : LinkWrites creates D L) {readingId : Id}
    (hne : creates ≠ some readingId) : LinksSettle readingId D (view L D) := by
  cases h with
  | aside h => exact h.settle readingId
  | change hlink hreading hrevoked => exact .change hlink hreading hrevoked
  | @insert id readingId' hc hfresh =>
      intro id' row hrow hof
      simp only [view_cons, view_nil, apply_eq, RowWrite.apply, Table.lookup_write] at hrow
      split at hrow
      · cases hrow
        exact absurd (hc.trans (congrArg some hof)) hne
      · exact ⟨row, hrow, hof, fun h => h⟩

/-- An insertion for a reading without an active link leaves one active link. -/
theorem LinkWrites.oneActive (h : LinkWrites creates D L) {readingId : Id}
    (halone : ∀ id link, D.shareLinks.lookup id = none →
      (view L D).shareLinks.lookup id = some link → link.readingId = readingId →
      AllRevoked readingId D)
    (hD : OneActive readingId D) : OneActive readingId (view L D) := by
  by_cases hne : creates ≠ some readingId
  · exact (h.settle hne).oneActive hD
  cases h with
  | aside h => exact (h.settle readingId).oneActive hD
  | change hlink hreading hrevoked =>
      exact (LinksSettle.change hlink hreading hrevoked).oneActive hD
  | @insert id readingId' hc hfresh =>
      obtain rfl : readingId' = readingId := Option.some.inj (hc.symm.trans (not_not.mp hne))
      have hrevoked : AllRevoked readingId' D :=
        halone id (SharingService.newLink readingId') hfresh (by simp) rfl
      -- A link next to the new one was there before, and so it is revoked.
      have new : ∀ {k link}, (view [.shareLink id (some (SharingService.newLink readingId'))]
          D).shareLinks.lookup k = some link → link.readingId = readingId' →
          link.revokedAt = none → k = id := by
        intro k link hlink hof hopen
        by_contra hk
        have hold : D.shareLinks.lookup k = some link := by
          simpa [Table.lookup_write, hk] using hlink
        have := hrevoked k link hold hof
        simp [hopen] at this
      intro id₁ link₁ id₂ link₂ h₁ hof₁ hopen₁ h₂ hof₂ hopen₂
      exact (new h₁ hof₁ hopen₁).trans (new h₂ hof₂ hopen₂).symm

/-- A link stays and keeps its reading. -/
theorem LinkWrites.kept (h : LinkWrites creates D L) {id : Id} {link : ShareLink}
    (hlink : D.shareLinks.lookup id = some link) : ∃ link',
    (view L D).shareLinks.lookup id = some link' ∧ link'.readingId = link.readingId := by
  cases h with
  | aside h => exact ⟨link, by rw [h.1, hlink], rfl⟩
  | @insert id' readingId hc hfresh =>
      have hne : id ≠ id' := by
        rintro rfl
        simp [hfresh] at hlink
      exact ⟨link, by simpa [Table.lookup_write, hne] using hlink, rfl⟩
  | @change id' old new hold hreading hrevoked =>
      by_cases hid : id = id'
      · subst hid
        obtain rfl : old = link := Option.some.inj (hold.symm.trans hlink)
        exact ⟨new, by simp, hreading⟩
      · exact ⟨link, by simpa [Table.lookup_write, hid] using hlink, rfl⟩

/-- The link that a transaction writes is stored after it. -/
theorem LinkWrites.stored (h : LinkWrites creates D L) {id : Id} {link : ShareLink}
    (hmem : RowWrite.shareLink id (some link) ∈ L) :
    (view L D).shareLinks.lookup id = some link := by
  cases h with
  | aside h => exact absurd hmem (h.2 id _)
  | insert hc hfresh =>
      simp only [List.mem_singleton, RowWrite.shareLink.injEq, Option.some.injEq] at hmem
      obtain ⟨rfl, rfl⟩ := hmem
      simp
  | change hlink hreading hrevoked =>
      simp only [List.mem_singleton, RowWrite.shareLink.injEq, Option.some.injEq] at hmem
      obtain ⟨rfl, rfl⟩ := hmem
      simp

end Writes

section Runs

variable {C : SharingConfig} {D : Db} {s : SharingPool} {calls : SharingCall → Prop}
  {ok : SharingPool → SharingPool → Prop}

/-- A token that was issued is stored for its reading. -/
theorem issued_stored (run : Pool.Reach (SharingCall.prog C) calls ok (.idle D) s)
    {readingId token : Id} (h : Issued readingId s.history token) :
    ∃ link, s.db.shareLinks.lookup token = some link ∧ link.readingId = readingId := by
  refine Pool.Reach.invariant
    (I := fun D history => ∀ readingId token, Issued readingId history token →
      ∃ link, D.shareLinks.lookup token = some link ∧ link.readingId = readingId)
    (fun c => linkWrites_nil c.creates) (fun c _ => SharingCall.every_linkWrites C c)
    ?_ ?_ run readingId token h
  · rintro readingId token ⟨c, L, link, hmem, -⟩
    cases hmem
  · rintro s s' c L - - - hK hdb hI readingId token ⟨c', L', link, hmem, hlink, hreading⟩
    have hold : (c', L') ∈ s.history → ∃ link,
        s'.db.shareLinks.lookup token = some link ∧ link.readingId = readingId := by
      intro hmem
      obtain ⟨old, hstored, hof⟩ := hI readingId token ⟨c', L', link, hmem, hlink, hreading⟩
      obtain ⟨new, hnew, hsame⟩ := hK.kept hstored
      exact ⟨new, hdb ▸ hnew, hsame.trans hof⟩
    unfold Pool.record at hmem
    split at hmem
    · exact hold hmem
    · rcases List.mem_cons.mp hmem with heq | hmem
      · obtain ⟨-, rfl⟩ := Prod.mk.inj heq
        exact ⟨link, hdb ▸ hK.stored hlink, hreading⟩
      · exact hold hmem

/-- In a run whose steps insert links of a reading alone, it has at most one active link. -/
theorem oneActive_of_run (hD : D.shareLinks = ∅) {readingId : Id}
    (run : Pool.Reach (SharingCall.prog C) calls (InsertsAlone readingId) (.idle D) s) :
    OneActive readingId s.db := by
  induction run with
  | refl =>
      intro id link _ _ hlink
      simp [Pool.idle, hD] at hlink
  | @step s₁ s₂ e tail he hs halone ih =>
      cases Pool.step_moved he hs with
      | spawn t c hc hdb hhist htasks => exact hdb ▸ ih
      | go t k fate answer ht eq =>
          subst eq
          have hevery := tail.every (fun c => linkWrites_nil c.creates)
            (fun c _ => SharingCall.every_linkWrites C c) ht
          exact (hevery.step (linkWrites_nil _) s₁.db fate answer).1.oneActive halone ih
      | kill hdb hhist htasks => exact hdb ▸ ih

end Runs

/-! ## The revocation -/

/-- The discipline of the calls that make no link for a reading, when the reading has
at most one active link. -/
def linkDiscipline (readingId : Id) : Discipline Db RowWrite RowRef SharingCall where
  Mono := LinksSettle readingId
  mono_refl := LinksSettle.refl readingId
  mono_trans := LinksSettle.trans
  Inv := OneActive readingId
  inv_mono h := h.oneActive
  Effect _ D L := LinksSettle readingId D (view L D)
  mono_effect h := h

/-- A revocation of the reading that has returned leaves no active link of it. -/
def revocationEnds (readingId : Id) : SharingCall → Except Err Unit → Db → Prop
  | .revokeShareLink _ readingId', r, D =>
      readingId' = readingId → r = .ok () → AllRevoked readingId D
  | _, _, _ => True

/-- A call that makes no link for the reading follows the discipline. -/
theorem SharingCall.follows_of_linkWrites {readingId : Id} {c : SharingCall}
    (hc : c.creates ≠ some readingId) {p : Request Unit} (hp : p.Every (LinkWrites c.creates))
    (D : Db) : p.Follows (linkDiscipline readingId) c (fun _ _ => True) D :=
  Proc.follows_of_every hp fun _ _ _ h _ => h.settle hc

theorem SharingService.follows_revokeShareLink (c : SharingCall) (userId readingId : Id) (D : Db) :
    (revokeShareLink userId readingId).Follows (linkDiscipline readingId) c
      (fun r D => r = .ok () → AllRevoked readingId D) D := by
  apply Proc.Follows.bind
  apply Proc.follows_select
  · intro e D' _ h
    cases h
  intro D₀ D₁ _ _ _
  cases Option.filter (fun r => decide (r.userId = userId)) (Db.reading.find D₀ readingId) with
  | none =>
      intro D' _ h
      cases h
  | some reading =>
      apply Proc.Follows.bind
      apply Proc.follows_select
      · intro e D' _ h
        cases h
      intro D₂ D₃ _ hone hD₃
      cases hhead : (D₂.shareLinks.findMany fun _ link =>
          link.readingId = readingId && link.revokedAt.isNone).head? with
      | none =>
          -- No link was found active.
          have hempty := List.head?_eq_none_iff.mp hhead
          have hnone : AllRevoked readingId D₂ := by
            intro id link hlink hof
            by_contra hopen
            have hmem : (id, link) ∈ D₂.shareLinks.findMany fun _ link =>
                link.readingId = readingId && link.revokedAt.isNone :=
              (Table.mem_findMany _ _ _ _).mpr ⟨hlink, by simpa [hof] using hopen⟩
            simp [hempty] at hmem
          exact fun D' hD' _ => (LinksSettle.trans hD₃ hD').allRevoked hnone
      | some row =>
          obtain ⟨id, link⟩ := row
          obtain ⟨hlink, hwhere⟩ := (Table.mem_findMany _ _ _ _).mp (List.mem_of_mem_head? hhead)
          simp only [Bool.and_eq_true, decide_eq_true_eq, Option.isNone_iff_eq_none] at hwhere
          apply Proc.Follows.bind
          apply Proc.follows_call
          rintro (e | now) D₄ hD₄
          · intro h
            cases h
          apply Proc.Follows.bind
          apply Proc.follows_transaction
          · intro e D' _ h
            cases h
          intro D₅ hD₅ _
          apply Db.shareLink.wp_update
          intro current hcurrent
          have hsettle : LinksSettle readingId D₅ (view [.shareLink id
              (some { current with revokedAt := some now })] D₅) :=
            .change hcurrent rfl fun _ => rfl
          -- The link found is revoked now, and the others were revoked when it was found.
          have hall : AllRevoked readingId (view [.shareLink id
              (some { current with revokedAt := some now })] D₅) := by
            intro id' link' hlink' hof'
            simp only [view_cons, view_nil, apply_eq, RowWrite.apply, Table.lookup_write] at hlink'
            split at hlink'
            · cases hlink'
              rfl
            · rename_i hid
              obtain ⟨old, hold, hofOld, hstays⟩ :=
                (LinksSettle.trans hD₃ (LinksSettle.trans hD₄ hD₅)) id' link' hlink' hof'
              apply hstays
              by_contra hopen
              exact hid (hone id' old id link hold hofOld (by simpa using hopen) hlink
                hwhere.1 hwhere.2)
          refine ⟨fun _ => hsettle, fun D₆ hD₆ => ?_⟩
          refine (every_logEvent _ _ _).follows (fun D' L _ h _ => h.settle readingId) ?_
          exact fun _ D' hD' _ => (LinksSettle.trans hD₆ hD').allRevoked hall

section Access

variable (C : SharingConfig) {readingId : Id}

/-- The call makes no link for the reading. -/
abbrev SharingCall.Leaves (readingId : Id) (c : SharingCall) : Prop := c.creates ≠ some readingId

theorem SharingCall.follows {c : SharingCall} (hc : c.Leaves readingId) (D : Db) :
    (c.prog C).Follows (linkDiscipline readingId) c (fun _ _ => True) D :=
  SharingCall.follows_of_linkWrites hc (SharingCall.every_linkWrites C c) D

theorem SharingCall.follows_revocationEnds {c : SharingCall} (hc : c.Leaves readingId) (D : Db) :
    (c.prog C).Follows (linkDiscipline readingId) c (revocationEnds readingId c) D := by
  cases c with
  | revokeShareLink userId readingId' =>
      by_cases hsame : readingId' = readingId
      · subst hsame
        exact (SharingService.follows_revokeShareLink _ userId readingId' D).mono
          fun r D' h _ => h
      · exact (SharingCall.follows C hc D).mono fun r D' _ h => absurd h hsame
  | createShareLink userId readingId' => exact SharingCall.follows C hc D
  | markImageReady shareLinkId imageKey => exact SharingCall.follows C hc D
  | markImageFailed shareLinkId => exact SharingCall.follows C hc D

/-- Every creation of a link for the reading has returned or raised its error. -/
def CreationsFinished (readingId : Id) (s : SharingPool) : Prop :=
  ∀ t k, s.tasks t = some k → k.call.creates = some readingId → k.rest.Finished

/-- Where the creations have finished, the requests of a run follow the discipline. -/
theorem CreationsFinished.following {D : Db} {s : SharingPool} {calls : SharingCall → Prop}
    {ok : SharingPool → SharingPool → Prop}
    (run : Pool.Reach (SharingCall.prog C) calls ok (.idle D) s)
    (h : CreationsFinished readingId s) :
    s.Following (linkDiscipline readingId) (fun _ => True) fun _ _ _ => True where
  called _ _ _ := trivial
  follows t k ht := by
    by_cases hc : k.call.creates = some readingId
    · have hfinished := h t k ht hc
      cases hrest : k.rest with
      | ret a => exact fun _ _ => trivial
      | throw e => exact fun _ _ => trivial
      | tx body next => simp [hrest, Proc.Finished] at hfinished
      | ask q next => simp [hrest, Proc.Finished] at hfinished
    · exact SharingCall.follows_of_linkWrites hc (run.every (fun c => linkWrites_nil c.creates)
        (fun c _ => SharingCall.every_linkWrites C c) ht) s.db

/-- From a pool on whose creations have finished, a revocation that starts and
returns leaves every link of the reading revoked. -/
theorem CreationsFinished.revoked {D : Db} {s s' : SharingPool}
    {ok ok' : SharingPool → SharingPool → Prop} (h : CreationsFinished readingId s)
    (run : Pool.Reach (SharingCall.prog C) (fun _ => True) ok (.idle D) s)
    (hone : OneActive readingId s.db)
    (run' : Pool.Reach (SharingCall.prog C) (SharingCall.Leaves readingId) ok' s s')
    {t n : Nat} {userId : Id} (hfree : s.tasks t = none)
    (hreturned : s'.tasks t = some ⟨.revokeShareLink userId readingId, n, .ret ()⟩) :
    AllRevoked readingId s'.db := by
  have hends := Pool.Reach.follows_at (T := revocationEnds readingId) (fun _ _ => trivial)
    (fun c hc D _ => SharingCall.follows C hc D)
    (fun c hc D _ => SharingCall.follows_revocationEnds C hc D) hone
    (h.following C run) (by simp [hfree]) run' _ hreturned
  exact hends s'.db (LinksSettle.refl readingId s'.db) rfl rfl

/-- A link that is revoked is not accepted. -/
theorem SharingService.rejected {token : Id} {D : Db}
    (h : ∀ link, D.shareLinks.lookup token = some link → link.revokedAt.isSome = true)
    (env : Proc.Surroundings Answer) (n : Nat) (hfate : env.fate n = some .done) :
    (getPublicSummary C token).exec env n D = (D, .error linkNotFound) ∧
      (getShareImageBytes token).exec env n D = (D, .ok none) := by
  have hnone : (D.shareLinks.lookup token).filter (fun link => link.revokedAt.isNone) = none := by
    cases hlink : D.shareLinks.lookup token with
    | none => rfl
    | some link => simpa [Option.filter] using Option.isSome_iff_ne_none.mp (h link hlink)
  constructor
  · simp [getPublicSummary, findActiveShareLink, findUnrevoked, Proc.transaction, Tx.select,
      Proc.exec, hfate, Tx.outcome, Tx.run, hnone]
  · simp [getShareImageBytes, findActiveShareLink, findUnrevoked, Proc.transaction, Tx.select,
      Proc.exec, hfate, Tx.outcome, Tx.run, hnone]

end Access

/-- In every run whose steps insert links of a reading alone: after a revocation that
started when every creation of a link for the reading had finished, and has returned,
no token issued for the reading is accepted until a new creation. -/
theorem revocation_cuts_access (C : SharingConfig) (D : Db) (hD : D.shareLinks = ∅)
    (userId readingId : Id) (t n : Nat) (s s' s'' : SharingPool)
    (run : Pool.Reach (SharingCall.prog C) (fun _ => True) (InsertsAlone readingId) (.idle D) s)
    (finished : CreationsFinished readingId s) (hfree : s.tasks t = none)
    (run' : Pool.Reach (SharingCall.prog C) (SharingCall.Leaves readingId) (fun _ _ => True) s s')
    (returned : s'.tasks t = some ⟨.revokeShareLink userId readingId, n, .ret ()⟩)
    (run'' : Pool.Reach (SharingCall.prog C) (SharingCall.Leaves readingId) (fun _ _ => True) s' s'')
    (token : Id) (issued : Issued readingId s''.history token) (env : Proc.Surroundings Answer)
    (m : Nat) (hfate : env.fate m = some .done) :
    (SharingService.getPublicSummary C token).exec env m s''.db =
        (s''.db, .error (.notFound "Enlace no encontrado.")) ∧
      (SharingService.getShareImageBytes token).exec env m s''.db = (s''.db, .ok none) := by
  have hone := oneActive_of_run hD run
  have hrevoked := finished.revoked C run hone run' hfree returned
  have hall : AllRevoked readingId s''.db := by
    obtain ⟨hfollow, hist, -, hpath⟩ := Pool.Reach.following (fun _ _ => trivial)
      (fun c hc D _ => SharingCall.follows C hc D) hone (finished.following C run) run'
    have hone' := (linkDiscipline readingId).inv_mono ((linkDiscipline readingId).path_mono hpath) hone
    obtain ⟨-, hist', -, hpath'⟩ := Pool.Reach.following (fun _ _ => trivial)
      (fun c hc D _ => SharingCall.follows C hc D) hone' hfollow run''
    exact LinksSettle.allRevoked ((linkDiscipline readingId).path_mono hpath') hrevoked
  obtain ⟨link, hlink, hof⟩ := issued_stored ((run.weaken (fun _ h => h) fun _ _ _ => trivial).trans
    ((run'.trans run'').weaken (fun _ _ => trivial) fun _ _ h => h)) issued
  refine SharingService.rejected C (fun link' hlink' => ?_) env m hfate
  exact hall token link' hlink' (Option.some.inj (hlink.symm.trans hlink') ▸ hof)

/-- A completed reading without links. -/
def sampleShared : Db :=
  { Db.empty with
    services := (∅ : Table Id Service).write "palm" (some ⟨"PALM_BASIC", "Una palma", none, 2, true⟩)
    readings := (∅ : Table Id Reading).write "r1"
      (some ⟨"ana", "palm", none, some "v1", .COMPLETED, some 0⟩) }

def sampleSharing : SharingConfig := ⟨"https://app", "https://api"⟩

/-- Answers for concrete runs: a new row gets this id. -/
def shareAnswer (id : Id) : (q : Query) → Answer q
  | .randomUUID => id
  | q => sampleAnswer .COMPLETED q

/-- Steps of a task, all made. -/
def shareSteps (t n : Nat) (id : Id) : List (Event SharingCall Answer) :=
  List.replicate n (.go t .done (shareAnswer id))

/-- A link that is new has a reading without an active link. -/
def insertsAlone (D D' : Db) : Bool :=
  D'.shareLinks.toRows.all fun e => (D.shareLinks.lookup e.1).isSome ||
    D.shareLinks.toRows.all fun old => old.2.readingId ≠ e.2.readingId || old.2.revokedAt.isSome

theorem insertsAlone_of_check (readingId : Id) {s s' : SharingPool}
    (h : insertsAlone s.db s'.db = true) : InsertsAlone readingId s s' := by
  rintro id link hnone hlink rfl id' link' hlink' hof
  have hrow := List.all_eq_true.mp h _ ((Table.mem_toRows _ _ _).mpr hlink)
  simp only [hnone, Option.isSome_none, Bool.false_or] at hrow
  have hold := List.all_eq_true.mp hrow _ ((Table.mem_toRows _ _ _).mpr hlink')
  simpa [hof] using hold

/-- A link is made and revoked. -/
theorem revocation_cuts_access_of_single : ∃ s : SharingPool,
    Issued "r1" s.history "l1" ∧ ∀ (env : Proc.Surroundings Answer) (m : Nat),
      env.fate m = some .done →
        (SharingService.getPublicSummary sampleSharing "l1").exec env m s.db =
            (s.db, .error (.notFound "Enlace no encontrado.")) ∧
          (SharingService.getShareImageBytes "l1").exec env m s.db = (s.db, .ok none) := by
  obtain ⟨s, k, s', hs, hk, hrest, hs', hreturned, hissued⟩ :
      ∃ (s : SharingPool) (k : Task Db RowWrite Err SharingCall Answer Unit) (s' : SharingPool),
        Pool.run (SharingCall.prog sampleSharing) insertsAlone (.idle sampleShared)
          (.spawn 0 (.createShareLink "ana" "r1") :: shareSteps 0 7 "l1") = some s ∧
        s.tasks 0 = some k ∧ k.rest = .ret () ∧
        Pool.run (SharingCall.prog sampleSharing) Pool.unchecked s
          (.spawn 1 (.revokeShareLink "ana" "r1") :: shareSteps 1 6 "e2") = some s' ∧
        s'.tasks 1 = some ⟨.revokeShareLink "ana" "r1", 4, .ret ()⟩ ∧
        Issued "r1" s'.history "l1" :=
    ⟨_, _, _, rfl, rfl, rfl, rfl, rfl, .createShareLink "ana" "r1", _, _,
      by exact List.mem_cons_of_mem _ (List.mem_cons_of_mem _ (List.mem_cons_of_mem _
        (List.mem_cons_of_mem _ List.mem_cons_self))), List.mem_cons_self, rfl⟩
  have others : ∀ u, u ≠ 0 → s.tasks u = none := fun u hu =>
    Pool.tasks_run (by simp [shareSteps, Event.task, hu.symm]) hs
  have finished : CreationsFinished "r1" s := by
    intro u k' hk' _
    by_cases hu : u = 0
    · subst hu
      obtain rfl : k = k' := Option.some.inj (hk.symm.trans hk')
      rw [hrest]
      trivial
    · rw [others u hu] at hk'
      cases hk'
  have run : Pool.Reach (SharingCall.prog sampleSharing) (fun _ => True) (InsertsAlone "r1")
      (.idle sampleShared) s :=
    Pool.Reach.refl.run (fun _ _ => insertsAlone_of_check "r1") _ (by simp [shareSteps, Event.Starts]) hs
  have run' : Pool.Reach (SharingCall.prog sampleSharing) (SharingCall.Leaves "r1")
      (fun _ _ => True) s s' :=
    Pool.Reach.refl.run (fun _ _ _ => trivial) _
      (by simp [shareSteps, Event.Starts, SharingCall.creates]) hs'
  exact ⟨s', hissued, fun env m hfate => revocation_cuts_access sampleSharing sampleShared rfl
    "ana" "r1" 1 4 s s' s' run finished (others 1 (by decide)) run' hreturned .refl "l1" hissued
    env m hfate⟩

/-- Two creations both find no link and insert one each. A revocation that starts
after both revokes one of the two, and the other is still accepted. -/
theorem revocation_misses_link : ∃ s s' : SharingPool,
    Pool.Reach (SharingCall.prog sampleSharing) (fun _ => True) (fun _ _ => True)
      (.idle sampleShared) s ∧
    CreationsFinished "r1" s ∧ s.tasks 2 = none ∧
    Pool.Reach (SharingCall.prog sampleSharing) (SharingCall.Leaves "r1") (fun _ _ => True) s s' ∧
    s'.tasks 2 = some ⟨.revokeShareLink "ana" "r1", 4, .ret ()⟩ ∧
    Issued "r1" s'.history "l2" ∧
    ∃ summary, ((SharingService.getPublicSummary sampleSharing "l2").exec
      ⟨fun _ => some .done, fun _ => shareAnswer "e4"⟩ 0 s'.db).2 = .ok summary := by
  obtain ⟨s, k₀, k₁, s', hs, hk₀, hrest₀, hk₁, hrest₁, hs', hreturned, hissued, hsummary⟩ :
      ∃ (s : SharingPool) (k₀ k₁ : Task Db RowWrite Err SharingCall Answer Unit)
        (s' : SharingPool),
        Pool.run (SharingCall.prog sampleSharing) Pool.unchecked (.idle sampleShared)
          ([.spawn 0 (.createShareLink "ana" "r1"), .spawn 1 (.createShareLink "ana" "r1")] ++
            shareSteps 0 3 "l1" ++ shareSteps 1 7 "l2" ++ shareSteps 0 4 "l1") = some s ∧
        s.tasks 0 = some k₀ ∧ k₀.rest = .ret () ∧ s.tasks 1 = some k₁ ∧ k₁.rest = .ret () ∧
        Pool.run (SharingCall.prog sampleSharing) Pool.unchecked s
          (.spawn 2 (.revokeShareLink "ana" "r1") :: shareSteps 2 6 "e3") = some s' ∧
        s'.tasks 2 = some ⟨.revokeShareLink "ana" "r1", 4, .ret ()⟩ ∧
        Issued "r1" s'.history "l2" ∧
        ∃ summary, ((SharingService.getPublicSummary sampleSharing "l2").exec
          ⟨fun _ => some .done, fun _ => shareAnswer "e4"⟩ 0 s'.db).2 = .ok summary :=
    ⟨_, _, _, _, rfl, rfl, rfl, rfl, rfl, rfl, rfl,
      ⟨.createShareLink "ana" "r1", _, _, by exact List.mem_cons_of_mem _ (List.mem_cons_of_mem _
        (List.mem_cons_of_mem _ (List.mem_cons_of_mem _ (List.mem_cons_of_mem _
          (List.mem_cons_of_mem _ (List.mem_cons_of_mem _ List.mem_cons_self)))))),
        List.mem_cons_self, rfl⟩, _, rfl⟩
  have others : ∀ u, u ≠ 0 → u ≠ 1 → s.tasks u = none := fun u h0 h1 =>
    Pool.tasks_run (by simp [shareSteps, Event.task, h0.symm, h1.symm]) hs
  refine ⟨s, s', .of_run _ hs, fun u k hk _ => ?_, others 2 (by decide) (by decide),
    Pool.Reach.refl.run (fun _ _ _ => trivial) _
      (by simp [shareSteps, Event.Starts, SharingCall.creates]) hs', hreturned, hissued, hsummary⟩
  by_cases h0 : u = 0
  · subst h0
    obtain rfl : k₀ = k := Option.some.inj (hk₀.symm.trans hk)
    rw [hrest₀]
    trivial
  · by_cases h1 : u = 1
    · subst h1
      obtain rfl : k₁ = k := Option.some.inj (hk₁.symm.trans hk)
      rw [hrest₁]
      trivial
    · rw [others u h0 h1] at hk
      cases hk

end TaroTria
