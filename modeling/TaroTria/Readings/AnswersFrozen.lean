import TaroTria.Backend.Calls
import TaroTria.Readings.ReadingInputs
import TaroTria.Readings.SubmittedKept
import TaroTria.Transactions.Seal

/-!
# The answers of a submitted reading

Updates of the answers and submissions of readings, in any interleaving of their
transactions. An update checks with its first step that the reading is a draft,
loads the form and writes the answers without looking again. So the answers of a
submitted reading stay as they were when no update that started earlier is still
running at the submission, and may change under it otherwise.
-/

namespace TaroTria

open Transactions

inductive InputCall
  | updateInputs (userId readingId : Id) (answers : ReadingsService.ReadingAnswers)
  | submit (userId readingId : Id)

/-- The request of a call; the reading that it returns is dropped. -/
def InputCall.prog : InputCall → Request Unit
  | updateInputs userId readingId answers => do
      let _ ← ReadingsService.updateInputs userId readingId answers
  | submit userId readingId => do
      let _ ← ReadingsService.submit userId readingId

abbrev InputPool := Pool Db RowWrite Err InputCall Answer Unit

/-- The reading has been submitted, and these are its answers. -/
def Frozen (readingId : Id) (input : Option ReadingInput) (D : Db) : Prop :=
  Sent readingId D ∧ D.readingInputs.lookup readingId = input

theorem Frozen.unique {readingId : Id} (D : Db) (v w : Option ReadingInput)
    (hv : Frozen readingId v D) (hw : Frozen readingId w D) : v = w :=
  hv.2.symm.trans hw.2

theorem frozen_nil {readingId : Id} {input : Option ReadingInput} (D : Db)
    (h : Frozen readingId input D) : Frozen readingId input (view ([] : List RowWrite) D) := h

/-- A submission leaves the submitted readings submitted, with their answers. -/
theorem keeps_submit (userId id readingId : Id) (input : Option ReadingInput) :
    (ReadingsService.submit userId id).Keeps (Frozen readingId input) := by
  refine ReadingsService.every_submit frozen_nil
    (fun _ _ => ReadingsService.every_addJob_of fun _ _ h => h)
    fun D service unlocked w draws r now _ _ _ _ => ?_
  rintro ⟨⟨r', hr', hsent⟩, hinput⟩
  unfold Frozen Sent
  rw [ReadingsService.view_submissionWrites]
  refine ⟨?_, hinput⟩
  by_cases hid : readingId = id
  · subst hid
    exact ⟨_, Table.lookup_write_self .., by simp⟩
  · exact ⟨r', (Table.lookup_write_of_ne _ _ hid).trans hr', hsent⟩

/-- An update of other answers leaves these as they are. -/
theorem keeps_updateInputs_other (userId : Id) {id readingId : Id} (hid : readingId ≠ id)
    (answers : ReadingsService.ReadingAnswers) (input : Option ReadingInput) :
    (ReadingsService.updateInputs userId id answers).Keeps (Frozen readingId input) := by
  have hwrite : ∀ (D : Db) (row : ReadingInput), Frozen readingId input D →
      Frozen readingId input (view [RowWrite.readingInput id (some row)] D) := by
    rintro D row ⟨hsent, hinput⟩
    exact ⟨hsent, (Table.lookup_write_of_ne _ _ hid).trans hinput⟩
  unfold ReadingsService.updateInputs ReadingsService.findOwnedDraft
  rw [bind_assoc]
  apply (Proc.every_select frozen_nil _).bind
  rintro (_ | r)
  · trivial
  by_cases hdraft : r.status = .DRAFT
  · simp only [hdraft, ne_eq, not_true_eq_false, if_false]
    apply (Proc.every_selectOrThrow frozen_nil _).bind
    rintro ⟨service, _ | ⟨version, form⟩⟩
    · trivial
    apply (Proc.every_ofExcept _).bind
    intro _
    apply Proc.Every.bind
    · apply Proc.every_transaction
      intro D
      apply Db.readingInput.wp_upsert
      · exact fun _ => hwrite D _
      · exact fun _ _ => hwrite D _
    · exact fun _ => ReadingsService.every_findOneForUser_of_nil frozen_nil userId id
  · simp only [hdraft, ne_eq, not_false_eq_true, if_true]
    trivial

/-- An update that finds the reading submitted is refused. -/
theorem checks_updateInputs (userId readingId : Id) (answers : ReadingsService.ReadingAnswers)
    (input : Option ReadingInput) :
    (ReadingsService.updateInputs userId readingId answers).Checks (Frozen readingId input) := by
  unfold ReadingsService.updateInputs ReadingsService.findOwnedDraft
  rw [bind_assoc]
  apply Proc.checks_select
  rintro D ⟨⟨r, hr, hsent⟩, -⟩
  cases hfind : (Db.reading.find D readingId).filter fun r => r.userId = userId with
  | none => trivial
  | some r' =>
      simp [Option.filter_eq_some_iff] at hfind
      obtain rfl : r = r' := Option.some.inj (hr.symm.trans hfind.1)
      simp only [hsent, ne_eq, not_false_eq_true, if_true]
      trivial

/-- A call that starts after the submission of a reading leaves its answers. -/
theorem checks_frozen (c : InputCall) (readingId : Id) (input : Option ReadingInput) :
    c.prog.Checks (Frozen readingId input) := by
  cases c with
  | updateInputs userId id answers =>
      by_cases hid : readingId = id
      · subst hid
        exact (checks_updateInputs userId readingId answers input).bind fun _ => trivial
      · exact Proc.Keeps.checks
          ((keeps_updateInputs_other userId hid answers input).bind fun _ => trivial)
  | submit userId id =>
      exact Proc.Keeps.checks ((keeps_submit userId id readingId input).bind fun _ => trivial)

/-- A step that submits a reading leaves no update behind that has checked the draft
before and may still write its answers. -/
def FreezesAlone (s s' : InputPool) : Prop :=
  ∀ readingId, s.SealsAlone (fun _ => 0) (Frozen readingId) s'

/-- In every run whose steps submit readings alone, the answers of a reading that has
been submitted never change. -/
theorem answers_frozen (D : Db) (s s' : InputPool)
    (run : Pool.Reach InputCall.prog (fun _ => True) FreezesAlone (.idle D) s)
    (run' : Pool.Reach InputCall.prog (fun _ => True) FreezesAlone s s')
    (readingId : Id) (h : Sent readingId s.db) :
    s'.db.readingInputs.lookup readingId = s.db.readingInputs.lookup readingId := by
  have hfrozen : Frozen readingId (s.db.readingInputs.lookup readingId) s.db := ⟨h, rfl⟩
  exact (Pool.Reach.sealed Frozen.unique
    (fun input c _ => (Proc.checksAt_zero _).mpr (checks_frozen c readingId input))
    (fun _ _ hok => hok readingId) run run' hfrozen).2

/-- A palm reading with answers, ready to be submitted, and its form. -/
def answeredDb : Db :=
  { sampleDb with
    serviceForms := (∅ : Table (Id × Nat) ServiceForm).write ("palm", 1) (some ⟨.dynamic [], true⟩)
    readingInputs := (∅ : Table Id ReadingInput).write "r1"
      (some ⟨1, [("question", .str "amor")]⟩) }

/-- `n` steps of task `t`, all made. -/
def inputSteps (t n : Nat) : List (Event InputCall Answer) :=
  List.replicate n (.go t .done (sampleAnswer .COMPLETED))

theorem freezesAlone_of_noSubmission {s s' : InputPool}
    (h : noSubmission s.db s'.db = true) : FreezesAlone s s' := by
  rintro readingId hnot input ⟨hsent, -⟩
  exact absurd ⟨sent_of_noSubmission h hsent, rfl⟩ (hnot _)

/-- A reading is submitted, and then an update of its answers is refused. -/
theorem answers_frozen_of_submit : ∃ s : InputPool, Sent "r1" s.db ∧
    (s.tasks 1).isSome = true ∧
    s.db.readingInputs.lookup "r1" = some ⟨1, [("question", .str "amor")]⟩ := by
  obtain ⟨s₁, k, s', hs₁, hk, hcall, hsent, hinput, hs', htask⟩ :
      ∃ (s₁ : InputPool) (k : Task Db RowWrite Err InputCall Answer Unit) (s' : InputPool),
        Pool.run InputCall.prog noSubmission (.idle answeredDb)
          (.spawn 0 (.submit "ana" "r1") :: inputSteps 0 4) = some s₁ ∧
        s₁.tasks 0 = some k ∧ k.call = .submit "ana" "r1" ∧
        Sent "r1" (s₁.advance 0 k .done (sampleAnswer .COMPLETED)).db ∧
        (s₁.advance 0 k .done (sampleAnswer .COMPLETED)).db.readingInputs.lookup "r1" =
          some ⟨1, [("question", .str "amor")]⟩ ∧
        Pool.run InputCall.prog noSubmission (s₁.advance 0 k .done (sampleAnswer .COMPLETED))
          (.spawn 1 (.updateInputs "ana" "r1" [("question", .str "dinero")]) ::
            inputSteps 1 1) = some s' ∧
        (s'.tasks 1).isSome = true ∧ Sent "r1" s'.db := by
    refine ⟨_, _, _, rfl, rfl, rfl, ?_, rfl, rfl, rfl, ?_⟩
    · decide
    · decide
  obtain ⟨htask, hsent'⟩ := htask
  have run₁ : Pool.Reach InputCall.prog (fun _ => True) FreezesAlone (.idle answeredDb) s₁ :=
    Pool.Reach.refl.run (fun _ _ => freezesAlone_of_noSubmission) _
      (by simp [inputSteps, Event.Starts]) hs₁
  have alone : ∀ u, u ≠ 0 → s₁.tasks u = none := fun u hu =>
    Pool.tasks_run (by simp [inputSteps, Event.task, hu.symm]) hs₁
  -- The rest of the submission writes no answers.
  have hrest : ∀ readingId input,
      (k.rest.step s₁.db .done (sampleAnswer .COMPLETED)).2.Keeps (Frozen readingId input) := by
    intro readingId input
    have hevery := run₁.every (K := fun c D L => c = .submit "ana" "r1" →
        Frozen readingId input D → Frozen readingId input (view L D))
      (fun _ D _ => frozen_nil D) (fun c _ => ?_) hk
    · exact Proc.Keeps.step (hevery.mono fun D L h => h hcall) s₁.db .done _ |>.2
    · cases c with
      | updateInputs userId id answers => exact Proc.every_of_forall (fun _ _ h => by cases h) _
      | submit userId id =>
          exact ((keeps_submit userId id readingId input).mono fun _ _ h _ => h).bind
            fun _ => trivial
  have run := run₁.go hk .done (sampleAnswer .COMPLETED) fun readingId _ input _ =>
    .of_alone alone (hrest readingId input)
  have run' : Pool.Reach InputCall.prog (fun _ => True) FreezesAlone
      (s₁.advance 0 k .done (sampleAnswer .COMPLETED)) s' :=
    Pool.Reach.refl.run (fun _ _ => freezesAlone_of_noSubmission) _
      (by simp [inputSteps, Event.Starts]) hs'
  exact ⟨s', hsent', htask, (answers_frozen answeredDb _ s' run run' "r1" hsent).trans hinput⟩

/-- An update passes the check of the draft, the reading is submitted, and the update
then replaces the answers. -/
theorem answers_replaced_after_submission : ∃ s s' : InputPool,
    Pool.Reach InputCall.prog (fun _ => True) (fun _ _ => True) (.idle answeredDb) s ∧
    Pool.Reach InputCall.prog (fun _ => True) (fun _ _ => True) s s' ∧ Sent "r1" s.db ∧
    s'.db.readingInputs.lookup "r1" ≠ s.db.readingInputs.lookup "r1" := by
  refine ⟨_, _, Pool.Reach.of_run
      ([.spawn 0 (.updateInputs "ana" "r1" [("question", .str "dinero")]),
        .spawn 1 (.submit "ana" "r1")] ++ inputSteps 0 2 ++ inputSteps 1 5) rfl,
    Pool.Reach.of_run (inputSteps 0 1) rfl, ?_, ?_⟩
  · decide
  · decide

end TaroTria
