import TaroTria.Ai.PromptVersions
import TaroTria.Transactions.Window

/-!
# One published version of a prompt

Creations and publications with their statements interleaved at READ COMMITTED.
A publication archives the versions that were published when its update began.
So a prompt keeps at most one published version when no publication commits over
another one that it has not seen, and may have two otherwise.
-/

namespace TaroTria

open Transactions

/-- A prompt has at most one published version. -/
def OnePublished (code : String) (D : Db) : Prop :=
  ∀ v w, Published code v D → Published code w D → v = w

/-- The versions of a prompt that a log publishes. -/
def released (code : String) (L : List RowWrite) : List Nat :=
  L.filterMap fun
    | .promptVersion (code', version) (some row) =>
        if code' = code ∧ row.status = .PUBLISHED then some version else none
    | _ => none

/-- The version of a prompt that was published last in a window. -/
def lastReleased (code : String) (h : Window PromptCall RowWrite) : Option Nat :=
  (h.flatMap fun e => released code e.2).head?

/-- A publication commits over no other one: the version published last since its
update began, if there is any, is among the rows that it has written. -/
def PublishesOver (code : String) (_ : PromptCall) (L : List RowWrite)
    (h : Window PromptCall RowWrite) : Prop :=
  released code L ≠ [] → ∀ v, lastReleased code h = some v →
    RowRef.promptVersion (code, v) ∈ L.map RowWrite.ref

/-- What a commit does to the published versions of a prompt. -/
structure VersionCommit (code : String) (_ : PromptCall) (D : Db) (L : List RowWrite) : Prop where
  one : OnePublished code D → OnePublished code (view L D)
  quiet : released code L = [] → ∀ v, Published code v (view L D) ↔ Published code v D
  loud : ∀ v, (released code L).head? = some v → Published code v (view L D)

section Windows

variable {code : String} {D D' : Db} {h : Window PromptCall RowWrite}

theorem lastReleased_cons {c : PromptCall} {L : List RowWrite} :
    lastReleased code ((c, L) :: h) = (released code L).head?.or (lastReleased code h) := by
  simp [lastReleased, List.head?_append]

theorem lastReleased_append {h' : Window PromptCall RowWrite} :
    lastReleased code (h' ++ h) = (lastReleased code h').or (lastReleased code h) := by
  simp [lastReleased, List.head?_append]

/-- Where a window publishes nothing, the published versions stay. -/
theorem published_of_quiet (path : Path (VersionCommit code) D h D')
    (hquiet : lastReleased code h = none) (v : Nat) :
    Published code v D' ↔ Published code v D := by
  induction path with
  | nil => exact Iff.rfl
  | cons tail he ih =>
      rw [lastReleased_cons, Option.or_eq_none_iff] at hquiet
      rw [he.quiet (List.head?_eq_none_iff.mp hquiet.1), ih hquiet.2]

/-- The version published last in a window is published after it. -/
theorem published_of_loud (path : Path (VersionCommit code) D h D') {v : Nat}
    (hlast : lastReleased code h = some v) : Published code v D' := by
  induction path with
  | nil => cases hlast
  | @cons h D' c L tail he ih =>
      rw [lastReleased_cons] at hlast
      cases hL : (released code L).head? with
      | none =>
          rw [hL, Option.none_or] at hlast
          exact (he.quiet (List.head?_eq_none_iff.mp hL) v).mpr (ih hlast)
      | some w =>
          rw [hL, Option.some_or] at hlast
          exact he.loud v (hL.trans hlast)

/-- A log leaves a version that it does not write. -/
theorem published_view_of_notMem {L : List RowWrite} {v : Nat}
    (hout : RowRef.promptVersion (code, v) ∉ L.map RowWrite.ref) :
    Published code v (view L D) ↔ Published code v D := by
  have hsame : D.promptVersions.lookup (code, v) = (view L D).promptVersions.lookup (code, v) :=
    agree_view_of_notMem (r := RowRef.promptVersion (code, v)) L D fun x hx href =>
      hout (List.mem_map.mpr ⟨x, hx, href⟩)
  simp only [Published, hsame]

/-- Commits that leave the rows of a log publish no more of them than of the others. -/
theorem published_view_later {L : List RowWrite} (hagree : AgreeOn L D D') {v : Nat}
    (hstep : Published code v D' → Published code v D)
    (h : Published code v (view L D')) : Published code v (view L D) := by
  by_cases hmem : RowRef.promptVersion (code, v) ∈ L.map RowWrite.ref
  · obtain ⟨x, hx, href⟩ := List.mem_map.mp hmem
    have hsame := agree_view L (hagree x hx)
    rw [show RowStore.ref Db x = RowRef.promptVersion (code, v) from href] at hsame
    obtain ⟨row, hrow, hstatus⟩ := h
    exact ⟨row, hsame.trans hrow, hstatus⟩
  · exact (published_view_of_notMem hmem).mpr (hstep ((published_view_of_notMem hmem).mp h))

end Windows

section Logs

variable {code : String} {version : Nat} {L : List RowWrite} {D : Db}

/-- A log of versions of a prompt of which it publishes at most one. -/
def PublishLog (code : String) (version : Nat) (L : List RowWrite) : Prop :=
  ∀ x ∈ L, ∃ v row, x = .promptVersion (code, v) (some row) ∧
    (row.status = .PUBLISHED → v = version)

/-- What is published after such a log. -/
theorem PublishLog.published (hL : PublishLog code version L) {v : Nat}
    (h : Published code v (view L D)) :
    v = version ∨ Published code v D ∧ RowRef.promptVersion (code, v) ∉ L.map RowWrite.ref := by
  induction L generalizing D with
  | nil => exact .inr ⟨h, List.not_mem_nil⟩
  | cons x L ih =>
      rcases ih (fun y hy => hL y (List.mem_cons_of_mem x hy)) h with
        hv | ⟨⟨row, hrow, hstatus⟩, hout⟩
      · exact .inl hv
      · obtain ⟨w, row', rfl, hone⟩ := hL x List.mem_cons_self
        simp only [RowStore.apply, RowWrite.apply] at hrow
        by_cases hvw : v = w
        · subst hvw
          rw [Table.lookup_write_self] at hrow
          exact .inl (hone (Option.some.inj hrow ▸ hstatus))
        · rw [Table.lookup_write_of_ne _ _ (by simpa using hvw)] at hrow
          exact .inr ⟨⟨row, hrow, hstatus⟩, by simpa [RowWrite.ref, hvw] using hout⟩

/-- A log of one prompt leaves the versions of another one. -/
theorem published_view_other {other : String} (hne : code ≠ other)
    (hL : PublishLog other version L) (v : Nat) :
    Published code v (view L D) ↔ Published code v D := by
  refine published_view_of_notMem fun hmem => ?_
  obtain ⟨x, hx, href⟩ := List.mem_map.mp hmem
  obtain ⟨w, row, rfl, -⟩ := hL x hx
  simp only [RowWrite.ref, RowRef.promptVersion.injEq, Prod.mk.injEq] at href
  exact hne href.1.symm

theorem released_other {other : String} (hne : code ≠ other) (hL : PublishLog other version L) :
    released code L = [] := by
  simp only [released, List.filterMap_eq_nil_iff]
  intro x hx
  obtain ⟨w, row, rfl, -⟩ := hL x hx
  simp [Ne.symm hne]

/-- The log of a publication: versions that are no longer published, and then its own. -/
theorem released_publish (hL : ∀ x ∈ L, ∃ v row, x = RowWrite.promptVersion (code, v) (some row) ∧
    row.status ≠ .PUBLISHED) (now : Time) (row : PromptVersion) :
    released code (L ++ [.promptVersion (code, version) (some (PromptsService.release now row))]) =
      [version] := by
  have hnone : L.filterMap (fun
      | .promptVersion (code', version) (some row) =>
          if code' = code ∧ row.status = .PUBLISHED then some version else none
      | _ => none) = [] := by
    simp only [List.filterMap_eq_nil_iff]
    intro x hx
    obtain ⟨v, row, rfl, hstatus⟩ := hL x hx
    simp [hstatus]
  simp [released, List.filterMap_append, hnone, PromptsService.release]

end Logs

section Publication

variable {code other : String} {D₁ : Db} {ks : List (String × Nat)} {L : List RowWrite}
  {h : Window PromptCall RowWrite} {D : Db}

/-- A publication of prompt `other` with the keys `ks` still to archive, seen from `code`. -/
structure Archiving (code other : String) (D₁ : Db) (ks : List (String × Nat))
    (L : List RowWrite) (h : Window PromptCall RowWrite) (D : Db) : Prop where
  path : Path (VersionCommit code) D₁ h D
  keys : ∀ k ∈ ks, k.1 = other
  log : ∀ x ∈ L, ∃ v row, x = RowWrite.promptVersion (other, v) (some row) ∧
    row.status ≠ .PUBLISHED
  covered : lastReleased code h = none → code = other → ∀ v, Published code v (view L D) →
    (code, v) ∈ ks

theorem Archiving.later (ha : Archiving code other D₁ ks L h D) {h' : Window PromptCall RowWrite}
    {D' : Db} (hm : Meanwhile (VersionCommit code) L h' D D') :
    Archiving code other D₁ ks L (h' ++ h) D' where
  path := ha.path.trans hm.path
  keys := ha.keys
  log := ha.log
  covered := by
    intro hnone hcode v hv
    rw [lastReleased_append, Option.or_eq_none_iff] at hnone
    exact ha.covered hnone.2 hcode v
      (published_view_later hm.agreeOn (published_of_quiet hm.path hnone.1 v).mp hv)

theorem Archiving.written {k : String × Nat} {row : PromptVersion}
    (ha : Archiving code other D₁ (k :: ks) L h D)  :
    Archiving code other D₁ ks
      (L ++ [.promptVersion k (some (PromptsService.archive row))]) h D where
  path := ha.path
  keys k' hk' := ha.keys k' (List.mem_cons_of_mem k hk')
  log x hx := by
    rcases List.mem_append.mp hx with hx | hx
    · exact ha.log x hx
    · obtain rfl := List.mem_singleton.mp hx
      exact ⟨k.2, _, by rw [← ha.keys k List.mem_cons_self], by simp [PromptsService.archive]⟩
  covered := by
    rintro hnone hcode v ⟨row', hrow', hstatus⟩
    rw [view_append] at hrow'
    simp only [view_cons, view_nil, RowStore.apply, RowWrite.apply] at hrow'
    by_cases hk : (code, v) = k
    · subst hk
      rw [Table.lookup_write_self] at hrow'
      simp [← Option.some.inj hrow', PromptsService.archive] at hstatus
    · rw [Table.lookup_write_of_ne _ _ hk] at hrow'
      exact (List.mem_cons.mp (ha.covered hnone hcode v ⟨row', hrow', hstatus⟩)).resolve_left hk

theorem Archiving.skipped {k : String × Nat} (ha : Archiving code other D₁ (k :: ks) L h D)
    (hnot : ∀ row, (view L D).promptVersions.lookup k = some row →
      PromptsService.isPublished other k row = false) : Archiving code other D₁ ks L h D where
  path := ha.path
  keys k' hk' := ha.keys k' (List.mem_cons_of_mem k hk')
  log := ha.log
  covered := by
    rintro hnone rfl v ⟨row, hrow, hstatus⟩
    refine (List.mem_cons.mp (ha.covered hnone rfl v ⟨row, hrow, hstatus⟩)).resolve_left ?_
    rintro rfl
    simpa [PromptsService.isPublished, hstatus] using hnot row hrow

theorem Archiving.publishLog (ha : Archiving code other D₁ ks L h D) (version : Nat) (now : Time)
    (row : PromptVersion) : PublishLog other version
      (L ++ [.promptVersion (other, version) (some (PromptsService.release now row))]) := by
  intro x hx
  rcases List.mem_append.mp hx with hx | hx
  · obtain ⟨v, row', rfl, hstatus⟩ := ha.log x hx
    exact ⟨v, row', rfl, fun h => absurd h hstatus⟩
  · obtain rfl := List.mem_singleton.mp hx
    exact ⟨version, _, rfl, fun _ => rfl⟩

/-- The commit of a publication of the prompt itself: whatever else was published is
archived by it, or is ahead of its window. -/
theorem Archiving.commit {version : Nat} {now : Time} {row : PromptVersion} {c : PromptCall}
    (ha : Archiving code code D₁ [] L h D)
    (hok : PublishesOver code c
      (L ++ [.promptVersion (code, version) (some (PromptsService.release now row))]) h) :
    VersionCommit code c D
      (L ++ [.promptVersion (code, version) (some (PromptsService.release now row))]) := by
  have hreleased := @released_publish _ version _ ha.log now row
  refine ⟨fun hone => ?_, fun hnil => by simp [hreleased] at hnil, fun v hv => ?_⟩
  · have honly : ∀ v, Published code v (view (L ++ [.promptVersion (code, version)
        (some (PromptsService.release now row))]) D) → v = version := by
      intro v hv
      rcases (ha.publishLog version now row).published hv with hv | ⟨hD, hout⟩
      · exact hv
      · cases hlast : lastReleased code h with
        | none =>
            have hview : Published code v (view L D) := by
              refine (published_view_of_notMem fun hmem => hout ?_).mpr hD
              rw [List.map_append]
              exact List.mem_append_left _ hmem
            exact absurd (ha.covered hlast rfl v hview) List.not_mem_nil
        | some w =>
            obtain rfl := hone v w hD (published_of_loud ha.path hlast)
            exact absurd (hok (by simp [hreleased]) v hlast) hout
    intro v w hv hw
    rw [honly v hv, honly w hw]
  · obtain rfl : version = v := by simpa [hreleased] using hv
    rw [view_append]
    exact ⟨_, Table.lookup_write_self _ _ _, rfl⟩

theorem opens_publishTx (code other : String) (version : Nat) (now : Time) (c : PromptCall) :
    (PromptsService.publishTx other version now).Opens (VersionCommit code)
      (Permitted (VersionCommit code) (PublishesOver code) c) := by
  intro D₁ b ws hs
  cases hs
  have hstart : Archiving code other D₁
      ((D₁.promptVersions.findMany (PromptsService.isPublished other)).map Prod.fst) [] [] D₁ := by
    refine ⟨.nil, fun k hk => ?_, fun x hx => absurd hx List.not_mem_nil, ?_⟩
    · obtain ⟨⟨k, row⟩, hmem, rfl⟩ := List.mem_map.mp hk
      obtain ⟨-, hwhere⟩ := (Table.mem_findMany _ _ _ _).mp hmem
      simp only [PromptsService.isPublished, Bool.and_eq_true, decide_eq_true_eq] at hwhere
      exact hwhere.1
    · rintro - rfl v ⟨row, hrow, hstatus⟩
      refine List.mem_map_of_mem (f := Prod.fst) (a := ((code, v), row)) ?_
      exact (Table.mem_findMany _ _ _ _).mpr
        ⟨hrow, by simp [PromptsService.isPublished, hstatus]⟩
  apply Tx.Along.bind
  refine Db.promptVersion.along_updateEach (Archiving code other D₁) (fun _ _ _ _ _ _ ha hm =>
    ha.later hm) (fun _ _ _ _ _ _ ha _ _ => ha.written) (fun _ _ _ _ _ ha hnot =>
    ha.skipped hnot) ?_ hstart
  intro L h D ha _
  refine Db.promptVersion.along_update fun h' D' row hm hrow h'' D'' hm' _ hok => ?_
  have ha' := (ha.later hm).later hm'.left
  by_cases hcode : code = other
  · subst hcode
    exact ha'.commit hok
  · have hlog := ha'.publishLog version now row
    refine ⟨fun hone => ?_, fun _ => published_view_other hcode hlog, fun v hv => ?_⟩
    · intro v w hv hw
      exact hone v w ((published_view_other hcode hlog v).mp hv)
        ((published_view_other hcode hlog w).mp hw)
    · cases (congrArg List.head? (released_other hcode hlog)).symm.trans hv

end Publication

section Requests

variable {code : String} {c : PromptCall}

/-- A log of an insert of a draft, or of a prompt, publishes nothing. -/
theorem versionCommit_of_same {D : Db} {L : List RowWrite} (hnone : released code L = [])
    (hsame : ∀ v, Published code v (view L D) ↔ Published code v D) : VersionCommit code c D L where
  one hone v w hv hw := hone v w ((hsame v).mp hv) ((hsame w).mp hw)
  quiet _ := hsame
  loud v hv := by simp [hnone] at hv

theorem opens_read {β : Type} (f : Db → β) : (Proc.transaction (Tx.select f) : Request β).Opens
    (VersionCommit code) (Permitted (VersionCommit code) (PublishesOver code) c) :=
  Proc.opens_transaction (Tx.opens_select (fun _ _ hL => absurd rfl hL) f)

theorem opens_createPrompt (key : String) (row : Prompt) :
    (Proc.transaction (Db.prompt.create key row) : Request Prompt).Opens (VersionCommit code)
      (Permitted (VersionCommit code) (PublishesOver code) c) :=
  Proc.opens_transaction (Db.prompt.opens_create fun _ _ _ _ _ _ _ =>
    versionCommit_of_same rfl fun _ => Iff.rfl)

theorem opens_createDraft (key : String × Nat) (id : Id) (dto : PromptVersionContent)
    (authorId : Id) : (Proc.transaction (Db.promptVersion.create key
      (PromptsService.draft id dto authorId)) : Request PromptVersion).Opens (VersionCommit code)
      (Permitted (VersionCommit code) (PublishesOver code) c) := by
  refine Proc.opens_transaction (Db.promptVersion.opens_create fun D h D' hnew hm _ _ => ?_)
  refine versionCommit_of_same (by simp [released, PromptsService.draft]) fun v => ?_
  have hnew' : D'.promptVersions.lookup key = none :=
    (hm.agreeOn _ List.mem_cons_self).symm.trans hnew
  by_cases hkey : (code, v) = key
  · subst hkey
    simp [Published, RowStore.apply, PromptsService.draft, hnew']
  · exact published_view_of_notMem (by simpa [RowWrite.ref] using hkey)

theorem findOne_opens (key : String) : (PromptsService.findOne key).Opens (VersionCommit code)
    (Permitted (VersionCommit code) (PublishesOver code) c) := by
  apply (opens_read _).bind
  rintro (_ | prompt) <;> trivial

theorem create_opens (key name : String) (dto : PromptVersionContent) (authorId : Id) :
    (PromptsService.create key name dto authorId).Opens (VersionCommit code)
      (Permitted (VersionCommit code) (PublishesOver code) c) := by
  unfold PromptsService.create
  apply (opens_read _).bind
  intro existing
  simp only
  split
  · trivial
  apply (opens_createPrompt key { name }).bind
  intro _
  apply (Proc.opens_call _).bind
  intro id
  apply (opens_createDraft _ id dto authorId).bind
  exact fun _ => findOne_opens key

theorem createVersion_opens (key : String) (dto : PromptVersionContent) (authorId : Id) :
    (PromptsService.createVersion key dto authorId).Opens (VersionCommit code)
      (Permitted (VersionCommit code) (PublishesOver code) c) := by
  unfold PromptsService.createVersion
  apply (opens_read _).bind
  rintro (_ | prompt)
  · trivial
  apply (opens_read _).bind
  intro lastVersion
  apply (Proc.opens_call _).bind
  intro id
  apply (opens_createDraft _ id dto authorId).bind
  exact fun _ => findOne_opens key

theorem publish_opens (key : String) : (PromptsService.publish key).Opens (VersionCommit code)
    (Permitted (VersionCommit code) (PublishesOver code) c) := by
  unfold PromptsService.publish
  apply (opens_read _).bind
  rintro (_ | ⟨draft, row⟩)
  · trivial
  apply (Proc.opens_call _).bind
  intro now
  apply (Proc.opens_transaction (opens_publishTx code key draft.2 now c)).bind
  exact fun _ => findOne_opens key

theorem promptCall_opens (c : PromptCall) : c.prog.Opens (VersionCommit code)
    (Permitted (VersionCommit code) (PublishesOver code) c) := by
  cases c with
  | create key name dto authorId => exact (create_opens key name dto authorId).bind fun _ => trivial
  | createVersion key dto authorId =>
      exact (createVersion_opens key dto authorId).bind fun _ => trivial
  | publish key => exact (publish_opens key).bind fun _ => trivial

end Requests

def promptService : Transactions.Service Db RowWrite Err PromptCall Answer Unit where
  prog := PromptCall.prog
  answers _ _ := True

abbrev PromptServer := Server Db RowWrite RowRef Err PromptCall Answer Unit

theorem promptMove_admissible (m : Move PromptCall Answer) :
    m.Admissible promptService fun _ => True := by
  cases m <;> trivial

/-- A prompt keeps at most one published version in every run of which no publication
commits over another one. -/
theorem one_published_version {D : Db} {code : String} (hone : OnePublished code D)
    {s : PromptServer} {w : Nat → Option (Window PromptCall RowWrite)}
    (run : Server.Watched promptService (fun _ => True) (PublishesOver code) D s w) :
    OnePublished code s.db := by
  obtain ⟨-, -, path⟩ := run.path fun c _ => @promptCall_opens code c
  exact path.invariant (OnePublished code) hone fun c E L hE he => he.one hE

/-- The condition on a commit as a check. -/
def publishesOver (code : String) (L : List RowWrite) (h : Window PromptCall RowWrite) : Bool :=
  (released code L).isEmpty || (lastReleased code h).all fun v =>
    (L.map RowWrite.ref).contains (.promptVersion (code, v))

theorem publishesOver_spec {code : String} {c : PromptCall} {L : List RowWrite}
    {h : Window PromptCall RowWrite} (hcheck : publishesOver code L h = true) :
    PublishesOver code c L h := by
  intro hreleased v hlast
  simp only [publishesOver, hlast, Bool.or_eq_true, List.isEmpty_iff, Option.all_some,
    List.contains_iff_mem] at hcheck
  exact hcheck.resolve_left hreleased

/-- The schedule of the creation of a prompt, up to its first version. -/
def createSchedule : List (Move PromptCall Answer) :=
  [.spawn 0 (.create "T" "t" sampleContent "ana"), .start 0, .exec 0, .commit 0,
    .start 0, .exec 0, .commit 0, .answer 0 .randomUUID "v1", .start 0, .exec 0, .commit 0]

/-- The schedule of the choice of a draft. -/
def chooseSchedule (t : Nat) : List (Move PromptCall Answer) :=
  [.spawn t (.publish "T"), .start t, .exec t, .commit t, .answer t .now (0 : Time)]

/-- The schedule of a second version. -/
def secondSchedule : List (Move PromptCall Answer) :=
  [.spawn 2 (.createVersion "T" sampleContent "ana"), .start 2, .exec 2, .commit 2,
    .start 2, .exec 2, .commit 2, .answer 2 .randomUUID "v2", .start 2, .exec 2, .commit 2]

theorem one_published_version_of_two : ∃ s : PromptServer,
    Published "T" 2 s.db ∧ OnePublished "T" s.db := by
  have published : ∃ (s : PromptServer) (w : Nat → Option (Window PromptCall RowWrite)),
      (Server.idle Db.empty).runWatched promptService (fun _ => publishesOver "T") (fun _ => none)
        (createSchedule ++ chooseSchedule 1 ++ [.start 1, .exec 1, .exec 1, .commit 1] ++
          secondSchedule ++ chooseSchedule 3 ++ [.start 3, .exec 3, .exec 3, .exec 3, .commit 3]) =
        some (s, w) ∧ Published "T" 2 s.db :=
    ⟨_, _, rfl, _, rfl, rfl⟩
  obtain ⟨s, w, hrun, hpublished⟩ := published
  have run : Server.Watched promptService (fun _ => True) (PublishesOver "T") Db.empty s w :=
    Server.Watched.idle.run (fun _ _ _ => publishesOver_spec) _
      (fun m _ => promptMove_admissible m) hrun
  exact ⟨s, hpublished, one_published_version (fun _ _ ⟨_, h, _⟩ => nomatch h) run⟩

/-- Two publications that do not see each other leave two published versions. -/
theorem two_versions_published : ∃ s : PromptServer,
    Server.Reach promptService (fun _ => True) (.idle Db.empty) s ∧
      Published "T" 1 s.db ∧ Published "T" 2 s.db ∧ ¬ OnePublished "T" s.db := by
  have published : ∃ s : PromptServer,
      Server.Reach promptService (fun _ => True) (.idle Db.empty) s ∧
        Published "T" 1 s.db ∧ Published "T" 2 s.db :=
    ⟨_, Server.Reach.refl.run
      (createSchedule ++ chooseSchedule 1 ++ secondSchedule ++ chooseSchedule 3 ++
        [.start 1, .exec 1, .exec 1, .start 3, .exec 3, .exec 3, .commit 1, .commit 3])
      (fun m _ => promptMove_admissible m) rfl, ⟨_, rfl, rfl⟩, _, rfl, rfl⟩
  obtain ⟨s, run, h₁, h₂⟩ := published
  exact ⟨s, run, h₁, h₂, fun hone => absurd (hone 1 2 h₁ h₂) (by decide)⟩

end TaroTria
