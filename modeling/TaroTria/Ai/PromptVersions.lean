import TaroTria.Ai.PromptsService
import TaroTria.Backend.Calls
import TaroTria.Transactions.Latch
import Mathlib.Logic.Relation

/-!
# The versions of a prompt

Creations and publications of prompt versions, in any interleaving of their
transactions. A publication chooses its draft first and publishes it later
without looking again. So versions only move forward when each publication
commits a version that has not been archived since and that no published version
is ahead of, and may move backward otherwise.
-/

namespace TaroTria

open Transactions

inductive PromptCall
  | create (code name : String) (dto : PromptVersionContent) (authorId : Id)
  | createVersion (code : String) (dto : PromptVersionContent) (authorId : Id)
  | publish (code : String)

/-- The request of a call; the prompt that it returns is dropped. -/
def PromptCall.prog : PromptCall → Request Unit
  | create code name dto authorId => do
      let _ ← PromptsService.create code name dto authorId
  | createVersion code dto authorId => do
      let _ ← PromptsService.createVersion code dto authorId
  | publish code => do
      let _ ← PromptsService.publish code

abbrev PromptPool := Pool Db RowWrite Err PromptCall Answer Unit

/-- One move of the life of a version. -/
inductive PromptVersionStatus.Advances : PromptVersionStatus → PromptVersionStatus → Prop
  | published : Advances .DRAFT .PUBLISHED
  | archived : Advances .PUBLISHED .ARCHIVED

/-- What may become of a version: its content stays, and its status moves along its life. -/
def PromptVersion.Leads (row row' : PromptVersion) : Prop :=
  row'.id = row.id ∧ row'.content = row.content ∧
    Relation.ReflTransGen PromptVersionStatus.Advances row.status row'.status

theorem PromptVersion.Leads.refl (row : PromptVersion) : row.Leads row := ⟨rfl, rfl, .refl⟩

theorem PromptVersion.Leads.trans {row row' row'' : PromptVersion} (h : row.Leads row')
    (h' : row'.Leads row'') : row.Leads row'' :=
  ⟨h'.1.trans h.1, h'.2.1.trans h.2.1, h.2.2.trans h'.2.2⟩

/-- The number of the version that `getPublishedVersionId` resolves. -/
def publishedNumber (code : String) (D : Db) : Option Nat :=
  (PromptsService.lastPublished code D).map fun e => e.1.2

/-- Every version is kept and moves forward, and so do the resolved numbers. -/
structure PromptsForward (D D' : Db) : Prop where
  versions : Table.Persists PromptVersion.Leads D.promptVersions D'.promptVersions
  resolved : ∀ code n, publishedNumber code D = some n →
    ∃ m, publishedNumber code D' = some m ∧ n ≤ m

theorem PromptsForward.refl (D : Db) : PromptsForward D D where
  versions := .refl PromptVersion.Leads.refl _
  resolved _ n h := ⟨n, h, Nat.le_refl n⟩

theorem PromptsForward.trans {D D' D'' : Db} (h : PromptsForward D D')
    (h' : PromptsForward D' D'') : PromptsForward D D'' where
  versions := Table.Persists.trans (R := PromptVersion.Leads) (fun h h' => h.trans h')
    h.versions h'.versions
  resolved code n hn := by
    obtain ⟨m, hm, hnm⟩ := h.resolved code n hn
    obtain ⟨l, hl, hml⟩ := h'.resolved code m hm
    exact ⟨l, hl, hnm.trans hml⟩

/-- A published version, by its number. -/
def Published (code : String) (version : Nat) (D : Db) : Prop :=
  ∃ row, D.promptVersions.lookup (code, version) = some row ∧ row.status = .PUBLISHED

theorem publishedNumber_spec {code : String} {D : Db} {n : Nat} (h : publishedNumber code D = some n) :
    Published code n D ∧ ∀ w, Published code w D → w ≤ n := by
  obtain ⟨⟨⟨code', n'⟩, row⟩, hlast, rfl⟩ := Option.map_eq_some_iff.mp h
  obtain ⟨hlookup, hp, hmax⟩ := Table.last_spec hlast
  simp only [PromptsService.isPublished, Bool.and_eq_true, decide_eq_true_eq] at hp
  obtain ⟨rfl, hstatus⟩ := hp
  refine ⟨⟨row, hlookup, hstatus⟩, ?_⟩
  rintro w ⟨row', hlookup', hstatus'⟩
  exact hmax _ row' hlookup' (by simp [PromptsService.isPublished, hstatus'])

/-- A prompt with a published version resolves to one that is not before it. -/
theorem exists_publishedNumber {code : String} {D : Db} {n : Nat} (h : Published code n D) :
    ∃ m, publishedNumber code D = some m ∧ n ≤ m := by
  obtain ⟨row, hlookup, hstatus⟩ := h
  cases hlast : PromptsService.lastPublished code D with
  | none =>
      have := Table.last_eq_none.mp hlast _ _ hlookup
      simp [PromptsService.isPublished, hstatus] at this
  | some e =>
      have hnumber : publishedNumber code D = some e.1.2 := by simp [publishedNumber, hlast]
      exact ⟨e.1.2, hnumber, (publishedNumber_spec hnumber).2 n ⟨row, hlookup, hstatus⟩⟩

/-! ## The writes of each call -/

/-- The rows of a publication: the published versions are archived, and one version
is published. -/
def publishWrites (code : String) (version : Nat) (now : Time) (row : PromptVersion) (D : Db) :
    List RowWrite :=
  (D.promptVersions.findMany (PromptsService.isPublished code)).map
      (fun e => .promptVersion e.1 (some (PromptsService.archive e.2))) ++
    [.promptVersion (code, version) (some (PromptsService.release now row))]

/-- What a call writes: no version, a new draft, or a publication. -/
inductive PromptWrites (D : Db) : List RowWrite → Prop
  | other (L : List RowWrite) (h : (view L D).promptVersions = D.promptVersions) :
      PromptWrites D L
  | draft (key : String × Nat) (id : Id) (dto : PromptVersionContent) (authorId : Id)
      (hnew : D.promptVersions.lookup key = none) :
      PromptWrites D [.promptVersion key (some (PromptsService.draft id dto authorId))]
  | publish (code : String) (version : Nat) (now : Time) (old row : PromptVersion)
      (hold : D.promptVersions.lookup (code, version) = some old)
      (hrow : row = old ∨ row = PromptsService.archive old) :
      PromptWrites D (publishWrites code version now row D)

theorem promptWrites_nil (D : Db) : PromptWrites D [] := .other [] rfl

namespace PromptsService

theorem every_findOne (code : String) : (findOne code).Every PromptWrites := by
  apply (Proc.every_select promptWrites_nil _).bind
  rintro (_ | prompt) <;> trivial

theorem every_createDraft (key : String × Nat) (id : Id) (dto : PromptVersionContent)
    (authorId : Id) :
    (Proc.transaction (Db.promptVersion.create key (draft id dto authorId)) :
      Request PromptVersion).Every PromptWrites := by
  apply Proc.every_transaction
  intro D
  apply Db.promptVersion.wp_create
  exact fun hnew => .draft key id dto authorId hnew

theorem every_create (code name : String) (dto : PromptVersionContent) (authorId : Id) :
    (create code name dto authorId).Every PromptWrites := by
  unfold create
  apply (Proc.every_select promptWrites_nil _).bind
  intro existing
  simp only
  split
  · trivial
  apply Proc.Every.bind
  · apply Proc.every_transaction
    intro D
    apply Db.prompt.wp_create
    exact fun _ => .other _ rfl
  intro _
  apply (Proc.every_call _).bind
  intro id
  apply (every_createDraft _ id dto authorId).bind
  exact fun _ => every_findOne code

theorem every_createVersion (code : String) (dto : PromptVersionContent) (authorId : Id) :
    (createVersion code dto authorId).Every PromptWrites := by
  unfold createVersion
  apply (Proc.every_select promptWrites_nil _).bind
  rintro (_ | prompt)
  · trivial
  apply (Proc.every_select promptWrites_nil _).bind
  intro lastVersion
  apply (Proc.every_call _).bind
  intro id
  apply (every_createDraft _ id dto authorId).bind
  exact fun _ => every_findOne code

/-- The versions after the archiving writes of a publication. -/
theorem lookup_archived (code : String) (key : String × Nat) (D : Db) :
    (view ((D.promptVersions.findMany (isPublished code)).map fun e =>
      RowWrite.promptVersion e.1 (some (archive e.2))) D).promptVersions.lookup key =
      (D.promptVersions.lookup key).map fun row =>
        if isPublished code key row then archive row else row := by
  by_cases hmem : ∃ row, (key, row) ∈ D.promptVersions.findMany (isPublished code)
  · obtain ⟨row, hrow⟩ := hmem
    obtain ⟨hlookup, hp⟩ := (Table.mem_findMany _ _ _ _).mp hrow
    have := Db.promptVersion.lookup_view_map archive hrow (fun row' hrow' => Option.some.inj
      (((Table.mem_findMany _ _ _ _).mp hrow').1.symm.trans hlookup)) D
    simpa [hlookup, hp] using this
  · have := Db.promptVersion.lookup_view_map_of_notMem archive
      (fun row hrow => hmem ⟨row, hrow⟩) D
    have hsame : (D.promptVersions.lookup key).map (fun row =>
        if isPublished code key row then archive row else row) = D.promptVersions.lookup key := by
      cases hlookup : D.promptVersions.lookup key with
      | none => rfl
      | some row =>
          have hp : isPublished code key row ≠ true := fun hp =>
            hmem ⟨row, (Table.mem_findMany _ _ _ _).mpr ⟨hlookup, hp⟩⟩
          simp [hp]
    rw [hsame]
    exact this

theorem every_publishTx (code : String) (version : Nat) (now : Time) :
    (Proc.transaction (publishTx code version now) : Request PromptVersion).Every
      PromptWrites := by
  apply Proc.every_transaction
  intro D
  unfold publishTx
  apply Tx.wp_bind
  apply Delegate.wp_updateAll_still
  apply Db.promptVersion.wp_update
  intro row hrow
  simp only [List.nil_append, Db.promptVersion_rows, Db.promptVersion_write, view_nil, Delegate.find,
    lookup_archived, Option.map_eq_some_iff] at hrow
  obtain ⟨old, hold, rfl⟩ := hrow
  refine .publish code version now old _ hold ?_
  split
  · exact .inr rfl
  · exact .inl rfl

theorem every_publish (code : String) : (publish code).Every PromptWrites := by
  unfold publish
  apply (Proc.every_select promptWrites_nil _).bind
  rintro (_ | ⟨key, row⟩)
  · trivial
  apply (Proc.every_call _).bind
  intro now
  apply (every_publishTx code key.2 now).bind
  exact fun _ => every_findOne code

end PromptsService

theorem every_promptWrites (c : PromptCall) : c.prog.Every PromptWrites := by
  cases c with
  | create code name dto authorId =>
      exact (PromptsService.every_create code name dto authorId).bind fun _ => trivial
  | createVersion code dto authorId =>
      exact (PromptsService.every_createVersion code dto authorId).bind fun _ => trivial
  | publish code => exact (PromptsService.every_publish code).bind fun _ => trivial

/-! ## One step -/

section Writes

variable {D : Db} {L : List RowWrite}

/-- The versions after a publication. -/
theorem lookup_publishWrites {code : String} {version : Nat} {now : Time} {row : PromptVersion}
    (key : String × Nat) :
    (view (publishWrites code version now row D) D).promptVersions.lookup key =
      if key = (code, version) then some (PromptsService.release now row)
      else (D.promptVersions.lookup key).map fun old =>
        if PromptsService.isPublished code key old then PromptsService.archive old else old := by
  unfold publishWrites
  rw [view_append, view_cons, view_nil, apply_eq, RowWrite.apply, Table.lookup_write,
    PromptsService.lookup_archived]

/-- The version is not archived, and no published version of its prompt has a higher
number. -/
def MayPublish (code : String) (version : Nat) (D : Db) : Prop :=
  (∀ row, D.promptVersions.lookup (code, version) = some row → row.status ≠ .ARCHIVED) ∧
    ∀ w, Published code w D → w ≤ version

theorem leads_archive {row : PromptVersion} (h : row.status = .PUBLISHED) :
    row.Leads (PromptsService.archive row) :=
  ⟨rfl, rfl, .single (h ▸ .archived)⟩

theorem leads_release {now : Time} {old row : PromptVersion} (hold : old.status ≠ .ARCHIVED)
    (hrow : row = old ∨ row = PromptsService.archive old) :
    old.Leads (PromptsService.release now row) := by
  have hstatus : Relation.ReflTransGen PromptVersionStatus.Advances old.status .PUBLISHED := by
    cases hs : old.status with
    | DRAFT => exact .single .published
    | PUBLISHED => exact .refl
    | ARCHIVED => exact absurd hs hold
  rcases hrow with rfl | rfl
  · exact ⟨rfl, rfl, hstatus⟩
  · exact ⟨rfl, rfl, hstatus⟩

/-- A publication that may be made moves forward. -/
theorem forward_publish {code : String} {version : Nat} {now : Time} {old row : PromptVersion}
    (hold : D.promptVersions.lookup (code, version) = some old)
    (hrow : row = old ∨ row = PromptsService.archive old) (hmay : MayPublish code version D) :
    PromptsForward D (view (publishWrites code version now row D) D) where
  versions key row' hrow' := by
    rw [lookup_publishWrites]
    split
    · rename_i hkey
      subst hkey
      obtain rfl : old = row' := Option.some.inj (hold.symm.trans hrow')
      exact ⟨_, rfl, leads_release (hmay.1 old hold) hrow⟩
    · rw [hrow', Option.map_some]
      refine ⟨_, rfl, ?_⟩
      split
      · rename_i hp
        simp only [PromptsService.isPublished, Bool.and_eq_true, decide_eq_true_eq] at hp
        exact leads_archive hp.2
      · exact .refl row'
  resolved code' n hn := by
    obtain ⟨hpublished, -⟩ := publishedNumber_spec hn
    by_cases hcode : code' = code
    · subst hcode
      have hnow : Published code' version (view (publishWrites code' version now row D) D) :=
        ⟨_, by rw [lookup_publishWrites, if_pos rfl], rfl⟩
      obtain ⟨m, hm, hle⟩ := exists_publishedNumber hnow
      exact ⟨m, hm, (hmay.2 n hpublished).trans hle⟩
    · refine exists_publishedNumber ?_
      obtain ⟨row', hrow', hstatus⟩ := hpublished
      refine ⟨row', ?_, hstatus⟩
      rw [lookup_publishWrites, if_neg (by simp [hcode]), hrow']
      simp [PromptsService.isPublished, hcode]

/-- A new draft moves nothing. -/
theorem forward_draft {key : String × Nat} {row : PromptVersion}
    (hnew : D.promptVersions.lookup key = none) :
    PromptsForward D (view [RowWrite.promptVersion key (some row)] D) where
  versions := .insert PromptVersion.Leads.refl row hnew
  resolved code n hn := by
    obtain ⟨⟨row', hrow', hstatus⟩, -⟩ := publishedNumber_spec hn
    refine exists_publishedNumber ⟨row', ?_, hstatus⟩
    have hne : (code, n) ≠ key := by
      rintro rfl
      simp [hnew] at hrow'
    exact (Table.lookup_write_of_ne _ _ hne).trans hrow'

/-- Every version that the writes publish may be published. -/
def PublishesForward (D : Db) (L : List RowWrite) : Prop :=
  ∀ code version row, RowWrite.promptVersion (code, version) (some row) ∈ L →
    row.status = .PUBLISHED → MayPublish code version D

theorem PromptWrites.forward (h : PromptWrites D L) (hok : PublishesForward D L) :
    PromptsForward D (view L D) := by
  cases h with
  | other _ h =>
      refine ⟨?_, fun code n hn => ⟨n, ?_, Nat.le_refl n⟩⟩
      · rw [h]
        exact .refl PromptVersion.Leads.refl _
      · unfold publishedNumber PromptsService.lastPublished at hn ⊢
        rwa [h]
  | draft key id dto authorId hnew => exact forward_draft hnew
  | publish code version now old row hold hrow =>
      exact forward_publish hold hrow
        (hok code version (PromptsService.release now row) (by simp [publishWrites]) rfl)

end Writes

/-- A step whose commit publishes only versions that may be published. -/
def StepsForward (s s' : PromptPool) : Prop :=
  ∀ c L, s'.history = (c, L) :: s.history → PublishesForward s.db L

/-- In every run whose commits publish only versions that are not archived and that no
published version is ahead of, each version moves only from draft to published to
archived, with its content kept, and the number that each prompt resolves never
decreases. -/
theorem prompt_versions_forward (D : Db) (s s' : PromptPool)
    (run : Pool.Reach PromptCall.prog (fun _ => True) StepsForward (.idle D) s)
    (run' : Pool.Reach PromptCall.prog (fun _ => True) StepsForward s s') :
    PromptsForward s.db s'.db := by
  induction run' with
  | refl => exact .refl s.db
  | step tail he hs hok ih =>
      refine ih.trans ?_
      rcases (run.trans tail).commits (K := fun _ => PromptWrites) (fun _ => promptWrites_nil)
          (fun c _ => every_promptWrites c) he hs with hdb | ⟨c, L, -, hK, hdb, hhist⟩
      · rw [hdb]
        exact .refl _
      · rw [hdb]
        exact hK.forward (hok c L hhist)

/-- The decision of `MayPublish`. -/
def mayPublish (code : String) (version : Nat) (D : Db) : Bool :=
  ((D.promptVersions.lookup (code, version)).all fun row => row.status ≠ .ARCHIVED) &&
    D.promptVersions.toRows.all fun e => !PromptsService.isPublished code e.1 e.2 || e.1.2 ≤ version

theorem mayPublish_spec {code : String} {version : Nat} {D : Db}
    (h : mayPublish code version D = true) : MayPublish code version D := by
  simp only [mayPublish, Bool.and_eq_true, List.all_eq_true] at h
  refine ⟨fun row hrow => ?_, ?_⟩
  · simpa [hrow] using h.1
  · rintro w ⟨row, hrow, hstatus⟩
    have := h.2 _ ((Table.mem_toRows _ _ _).mpr hrow)
    simpa [PromptsService.isPublished, hstatus] using this

/-- The versions that the last recorded commit publishes may be published before the step. -/
def stepsForward (s s' : PromptPool) : Bool :=
  match s'.history with
  | (_, L) :: _ => L.all fun
      | .promptVersion key (some row) => row.status ≠ .PUBLISHED || mayPublish key.1 key.2 s.db
      | _ => true
  | [] => true

theorem stepsForward_spec {s s' : PromptPool} (h : stepsForward s s' = true) :
    StepsForward s s' := by
  intro c L hhist code version row hmem hstatus
  rw [stepsForward, hhist, List.all_eq_true] at h
  have := h _ hmem
  simp only [hstatus, ne_eq, not_true_eq_false, decide_false, Bool.false_or] at this
  exact mayPublish_spec this

def sampleContent : PromptVersionContent := ⟨"", "", "gpt", none, none, []⟩

/-- `n` steps of task `t`, all made. -/
def promptSteps (t n : Nat) : List (Event PromptCall Answer) :=
  List.replicate n (.go t .done (sampleAnswer .COMPLETED))

/-- A prompt with two versions, published one after the other. -/
def twoVersions : List (Event PromptCall Answer) :=
  .spawn 0 (.create "T" "t" sampleContent "ana") :: promptSteps 0 5 ++
    .spawn 1 (.publish "T") :: promptSteps 1 1 ++
    .spawn 2 (.publish "T") :: promptSteps 2 4 ++
    .spawn 3 (.createVersion "T" sampleContent "ana") :: promptSteps 3 5

/-- The second version of a prompt is published after the first one. -/
theorem prompt_versions_forward_of_two : ∃ s s' : PromptPool,
    publishedNumber "T" s.db = some 1 ∧ publishedNumber "T" s'.db = some 2 ∧
      PromptsForward s.db s'.db := by
  obtain ⟨s, s', hs, hs', hone, htwo⟩ : ∃ s s' : PromptPool,
      Pool.runBy PromptCall.prog stepsForward (.idle Db.empty) twoVersions = some s ∧
      Pool.runBy PromptCall.prog stepsForward s
        (.spawn 4 (.publish "T") :: promptSteps 4 4) = some s' ∧
      publishedNumber "T" s.db = some 1 ∧ publishedNumber "T" s'.db = some 2 :=
    ⟨_, _, rfl, rfl, rfl, rfl⟩
  have run : Pool.Reach PromptCall.prog (fun _ => True) StepsForward (.idle Db.empty) s :=
    Pool.Reach.refl.runBy (fun _ _ => stepsForward_spec) _
      (by simp [twoVersions, promptSteps, Event.Starts]) hs
  have run' : Pool.Reach PromptCall.prog (fun _ => True) StepsForward s s' :=
    Pool.Reach.refl.runBy (fun _ _ => stepsForward_spec) _
      (by simp [promptSteps, Event.Starts]) hs'
  exact ⟨s, s', hone, htwo, prompt_versions_forward Db.empty s s' run run'⟩

/-- A publication has chosen the first version, the second one is published after it,
and the first publication then publishes the archived version again. -/
theorem archived_version_published_again : ∃ (s s' : PromptPool) (row row' : PromptVersion),
    Pool.Reach PromptCall.prog (fun _ => True) (fun _ _ => True) (.idle Db.empty) s ∧
    Pool.Reach PromptCall.prog (fun _ => True) (fun _ _ => True) s s' ∧
    s.db.promptVersions.lookup ("T", 1) = some row ∧ row.status = .ARCHIVED ∧
    s'.db.promptVersions.lookup ("T", 1) = some row' ∧ row'.status = .PUBLISHED ∧
    publishedNumber "T" s.db = some 2 ∧ publishedNumber "T" s'.db = some 1 ∧
    ¬ PromptsForward s.db s'.db := by
  refine ⟨_, _, _, _, Pool.Reach.of_run
      (twoVersions ++ .spawn 4 (.publish "T") :: promptSteps 4 4) rfl,
    Pool.Reach.of_run (promptSteps 1 2) rfl, rfl, rfl, rfl, rfl, rfl, rfl, fun h => ?_⟩
  obtain ⟨m, hm, hle⟩ := h.resolved "T" 2 rfl
  obtain rfl : (1 : Nat) = m := Option.some.inj hm
  exact absurd hle (by decide)

end TaroTria
