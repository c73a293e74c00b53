import TaroTria.Readings.ReadingWrites

/-!
# A submitted reading and its reservation

Submissions, removals and closings of reservations, in any interleaving of
their transactions. A removal checks with its first step that the reading is a
draft, deletes the stored objects and then the row, without looking again; the
deletion takes the reservation with it. So a submitted reading is kept when no
removal that started earlier is still running at the submission, and its debit
may be left without a reservation otherwise.
-/

namespace TaroTria

open Transactions

/-- The reading exists and has been submitted. -/
def Sent (readingId : Id) (D : Db) : Prop :=
  ∃ r, D.readings.lookup readingId = some r ∧ r.status ≠ .DRAFT

instance (readingId : Id) (D : Db) : Decidable (Sent readingId D) :=
  decidable_of_iff ((D.readings.lookup readingId).any fun r => r.status ≠ .DRAFT)
    (by simp [Sent, Option.any_eq_true])

/-- Every reservation belongs to a submitted reading, and every ledger row that
debits credits for a reading belongs to a reservation. -/
structure DebitsReserved (D : Db) : Prop where
  sent : ∀ id res, D.creditReservations.lookup id = some res → Sent id D
  reserved : ∀ key row, D.walletTransactions.lookup key = some row → row.type = .RESERVATION →
    row.amount ≠ 0 → ∃ id, row.readingId = some id ∧
      ∃ res, D.creditReservations.lookup id = some res

theorem DebitsReserved.of_empty {D : Db} (hreservations : D.creditReservations = ∅)
    (hledger : D.walletTransactions = ∅) : DebitsReserved D where
  sent id res h := by simp [hreservations] at h
  reserved key row h := by simp [hledger] at h

/-- The writes keep the debits reserved and the submitted readings submitted. -/
def KeepsDebits (D : Db) (L : List RowWrite) : Prop :=
  (DebitsReserved D → DebitsReserved (view L D)) ∧ ∀ id, Sent id D → Sent id (view L D)

theorem keepsDebits_nil (D : Db) : KeepsDebits D [] := ⟨id, fun _ h => h⟩

section Writes

open WalletService ReadingsService

variable {D : Db} {readingId : Id}

/-- A new row under a fresh key leaves the other rows of the ledger reserved. -/
theorem DebitsReserved.record {D' : Db} (h : DebitsReserved D) {key : IdempotencyKey}
    {row : WalletTransaction} (hsent : ∀ id, Sent id D → Sent id D')
    (hres : Table.Persists (fun _ _ => True) D.creditReservations D'.creditReservations)
    (hnew : ∀ id res, D'.creditReservations.lookup id = some res →
      (∃ res', D.creditReservations.lookup id = some res') ∨ Sent id D')
    (hledger : D'.walletTransactions = D.walletTransactions.write key (some row))
    (hrow : row.type = .RESERVATION → ∃ id, row.readingId = some id ∧
      ∃ res, D'.creditReservations.lookup id = some res) : DebitsReserved D' where
  sent id res hlookup := by
    rcases hnew id res hlookup with ⟨res', hold⟩ | hsent'
    · exact hsent id (h.sent id res' hold)
    · exact hsent'
  reserved key' row' hlookup htype hamount := by
    rw [hledger, Table.lookup_write] at hlookup
    split at hlookup
    · cases hlookup
      exact hrow htype
    · obtain ⟨id, hid, res, hres'⟩ := h.reserved key' row' hlookup htype hamount
      obtain ⟨res'', hres'', -⟩ := hres id res hres'
      exact ⟨id, hid, res'', hres''⟩

/-- The rows of a closed reservation: it changes its status, and the ledger
gains a row that is no debit. -/
theorem keepsDebits_close {L : List RowWrite} {res res' : CreditReservation}
    {key : IdempotencyKey} {row : WalletTransaction}
    (hres : D.creditReservations.lookup readingId = some res) (htype : row.type ≠ .RESERVATION)
    (hreadings : (view L D).readings = D.readings)
    (hreservations : (view L D).creditReservations =
      D.creditReservations.write readingId (some res'))
    (hledger : (view L D).walletTransactions = D.walletTransactions.write key (some row)) :
    KeepsDebits D L := by
  have hsent : ∀ id, Sent id D → Sent id (view L D) := by
    intro id h
    unfold Sent
    rw [hreadings]
    exact h
  refine ⟨fun h => h.record hsent ?_ ?_ hledger fun ht => absurd ht htype, hsent⟩
  · rw [hreservations]
    exact .replace (fun _ => trivial) hres trivial
  · intro id res'' hlookup
    rw [hreservations, Table.lookup_write] at hlookup
    split at hlookup
    · rename_i hid
      exact .inl ⟨res, hid ▸ hres⟩
    · exact .inl ⟨res'', hlookup⟩

theorem keepsDebits_submission {userId : Id} {service : Service} {unlocked : Bool} {w : Wallet}
    {draws : List (DrawEngine.TarotDraw TarotDeckCard)} {r : Reading} {now : Time}
    (hres : D.creditReservations.lookup readingId = none) :
    KeepsDebits D (submissionWrites userId readingId service unlocked w draws r now) := by
  unfold KeepsDebits
  rw [view_submissionWrites]
  have hsent : ∀ id, id = readingId ∨ Sent id D → Sent id (view
      (submissionWrites userId readingId service unlocked w draws r now) D) := by
    rw [view_submissionWrites]
    intro id h
    by_cases hid : id = readingId
    · subst hid
      exact ⟨_, Table.lookup_write_self .., by simp⟩
    · obtain ⟨r', hr', hstatus⟩ := h.resolve_left hid
      exact ⟨r', by rw [← hr']; exact Table.lookup_write_of_ne _ _ hid, hstatus⟩
  rw [view_submissionWrites] at hsent
  refine ⟨fun h => h.record (fun id hid => hsent id (.inr hid)) ?_ ?_ rfl fun _ => ?_,
    fun id hid => hsent id (.inr hid)⟩
  · exact .insert (fun _ => trivial) _ hres
  · intro id res hlookup
    by_cases hid : id = readingId
    · exact .inr (hsent id (.inl hid))
    · exact .inl ⟨res, by simpa [Table.lookup_write, hid] using hlookup⟩
  · exact ⟨readingId, rfl, _, Table.lookup_write_self ..⟩

/-- What the deletion of a reading leaves: its row and its reservation are gone,
and its ledger rows name no reading any more. -/
structure Deleted (readingId : Id) (D D' : Db) : Prop where
  readings : D'.readings = D.readings.write readingId none
  reservations : D'.creditReservations = D.creditReservations.write readingId none
  ledger : ∀ key row', D'.walletTransactions.lookup key = some row' →
    ∃ row, D.walletTransactions.lookup key = some row ∧ row'.type = row.type ∧
      row'.amount = row.amount ∧ (row.readingId = some readingId ∨ row'.readingId = row.readingId)

theorem deleted_view (readingId : Id) (D : Db) :
    Deleted readingId D (view (deletionWrites readingId D) D) := by
  have h₀ : Deleted readingId D (view [.reading readingId none, .readingInput readingId none,
      .creditReservation readingId none] D) :=
    ⟨rfl, rfl, fun key row' h => ⟨row', h, rfl, rfl, .inr rfl⟩⟩
  unfold deletionWrites
  simp only [view_append]
  refine view_invariant _ (view_invariant _ (view_invariant _ h₀ ?_) ?_) ?_
  · intro w hw D' h
    obtain ⟨e, -, rfl⟩ := List.mem_map.mp hw
    exact ⟨h.readings, h.reservations, h.ledger⟩
  · intro w hw D' h
    obtain ⟨e, -, rfl⟩ := List.mem_map.mp hw
    exact ⟨h.readings, h.reservations, h.ledger⟩
  · intro w hw D' h
    obtain ⟨⟨key, row⟩, hrow, rfl⟩ := List.mem_map.mp hw
    obtain ⟨hlookup, hmine⟩ := (Table.mem_findMany _ _ _ _).mp hrow
    refine ⟨h.readings, h.reservations, fun key' row' hlookup' => ?_⟩
    simp only [apply_eq, RowWrite.apply, Table.lookup_write] at hlookup'
    split at hlookup'
    · rename_i hkey
      cases hlookup'
      exact ⟨row, hkey ▸ hlookup, rfl, rfl, .inl (by simpa using hmine)⟩
    · exact h.ledger key' row' hlookup'

theorem Deleted.sent_other {D' : Db} (h : Deleted readingId D D') {id : Id} (hid : id ≠ readingId)
    (hsent : Sent id D) : Sent id D' := by
  unfold Sent
  rw [h.readings, Table.lookup_write_of_ne _ _ hid]
  exact hsent

/-- Deleting a draft, which has no reservation, keeps the debits reserved. -/
theorem Deleted.debitsReserved {D' : Db} (h : Deleted readingId D D') (hdraft : ¬ Sent readingId D)
    (hD : DebitsReserved D) : DebitsReserved D' where
  sent id res hlookup := by
    rw [h.reservations, Table.lookup_write] at hlookup
    split at hlookup
    · cases hlookup
    · rename_i hid
      exact h.sent_other hid (hD.sent id res hlookup)
  reserved key row' hlookup htype hamount := by
    obtain ⟨row, hrow, htype', hamount', hreading⟩ := h.ledger key row' hlookup
    obtain ⟨id, hid, res, hres⟩ :=
      hD.reserved key row hrow (htype' ▸ htype) (hamount' ▸ hamount)
    have hne : id ≠ readingId := by
      rintro rfl
      exact hdraft (hD.sent id res hres)
    refine ⟨id, ?_, res, by rw [h.reservations, Table.lookup_write_of_ne _ _ hne, hres]⟩
    rcases hreading with hmine | hsame
    · exact absurd (Option.some.inj (hid.symm.trans hmine)) hne
    · rw [hsame, hid]

/-- The writes delete this reading, or they keep the debits like all others. -/
def DeletesOrKeeps (readingId : Id) (D : Db) (L : List RowWrite) : Prop :=
  Deleted readingId D (view L D) ∨ KeepsDebits D L

theorem DeletesOrKeeps.sent_other {L : List RowWrite} (h : DeletesOrKeeps readingId D L)
    {id : Id} (hid : id ≠ readingId) (hsent : Sent id D) : Sent id (view L D) := by
  rcases h with h | h
  · exact h.sent_other hid hsent
  · exact h.2 id hsent

/-- Writes that leave a submitted reading submitted keep the debits reserved. -/
theorem DeletesOrKeeps.debitsReserved {L : List RowWrite} (h : DeletesOrKeeps readingId D L)
    (hkept : Sent readingId D → Sent readingId (view L D)) (hD : DebitsReserved D) :
    DebitsReserved (view L D) := by
  rcases h with h | h
  · refine h.debitsReserved (fun hsent => ?_) hD
    obtain ⟨r, hr, -⟩ := hkept hsent
    simp [h.readings] at hr
  · exact h.1 hD

end Writes

namespace Call

variable {Body : Type}

/-- Submissions, removals and closings of reservations. -/
def reserves : Call Body → Bool
  | submit _ _ => true
  | remove _ _ => true
  | confirmConsumption _ => true
  | releaseReservation _ => true
  | _ => false

end Call

section Calls

variable {Body : Type}

theorem every_close {c : Call Body} (S : Deployment Body)
    (hc : c.reserves = true) (hremoves : c.removes = none) : (c.prog S).Every KeepsDebits := by
  cases c with
  | submit userId readingId =>
      have hjob : ∀ jobId name, (Proc.transaction
          (ReadingsService.addJob jobId ⟨name, readingId⟩) : Request Unit).Every KeepsDebits :=
        fun _ _ => ReadingsService.every_addJob_of fun D job =>
          ⟨fun h => ⟨h.sent, h.reserved⟩, fun _ h => h⟩
      exact (ReadingsService.every_submit keepsDebits_nil hjob
        fun D service unlocked w draws r now _ hres _ _ => keepsDebits_submission hres).bind
          fun _ => trivial
  | remove userId readingId => cases hremoves
  | confirmConsumption readingId =>
      exact WalletService.every_confirmConsumption keepsDebits_nil fun D res balanceAfter hres _ =>
        keepsDebits_close hres (by simp) rfl rfl rfl
  | releaseReservation readingId =>
      exact WalletService.every_releaseReservation keepsDebits_nil fun D res w hres _ =>
        keepsDebits_close hres (by simp) rfl rfl rfl
  | _ => cases hc

theorem every_remove (userId readingId : Id) :
    (ReadingsService.remove userId readingId).Every (DeletesOrKeeps readingId) := by
  have hnil : ∀ D, DeletesOrKeeps readingId D [] := fun D => .inr (keepsDebits_nil D)
  unfold ReadingsService.remove ReadingsService.findOwnedDraft
  rw [bind_assoc]
  apply (Proc.every_select hnil _).bind
  rintro (_ | r)
  · trivial
  by_cases hdraft : r.status = .DRAFT
  · simp only [hdraft, ne_eq, not_true_eq_false, if_false]
    apply (Proc.every_select hnil _).bind
    intro images
    apply (ReadingsService.every_deleteObjects _).bind
    intro _
    exact ReadingsService.every_deletion fun D r _ => .inl (deleted_view readingId D)
  · simp only [hdraft, ne_eq, not_false_eq_true, if_true]
    trivial

/-- A removal that finds the reading submitted is refused. -/
theorem checks_remove (userId readingId : Id) :
    (ReadingsService.remove userId readingId).Checks (Sent readingId) := by
  unfold ReadingsService.remove ReadingsService.findOwnedDraft
  rw [bind_assoc]
  apply Proc.checks_select
  rintro D ⟨r, hr, hsent⟩
  cases hfind : (Db.reading.find D readingId).filter fun r => r.userId = userId with
  | none => trivial
  | some r' =>
      simp [Option.filter_eq_some_iff] at hfind
      obtain rfl : r = r' := Option.some.inj (hr.symm.trans hfind.1)
      simp only [hsent, ne_eq, not_false_eq_true, if_true]
      trivial

/-- A call that starts after the submission of a reading leaves it submitted. -/
theorem checks_sent (S : Deployment Body) {c : Call Body} (hc : c.reserves = true) (id : Id) :
    (c.prog S).Checks (Sent id) := by
  cases hremoves : c.removes with
  | none => exact Proc.Keeps.checks ((every_close S hc hremoves).mono fun _ _ h => h.2 id)
  | some readingId =>
      cases c with
      | remove userId _ =>
          cases hremoves
          by_cases hid : id = readingId
          · subst hid
            exact checks_remove userId _
          · exact Proc.Keeps.checks
              ((every_remove userId _).mono fun _ _ h => h.sent_other hid)
      | _ => cases hremoves

/-- What a call writes: a removal may delete its reading. -/
def CallWrites (c : Call Body) (D : Db) (L : List RowWrite) : Prop :=
  match c.removes with
  | some readingId => DeletesOrKeeps readingId D L
  | none => KeepsDebits D L

theorem callWrites_nil (c : Call Body) (D : Db) : CallWrites c D [] := by
  unfold CallWrites
  split
  · exact .inr (keepsDebits_nil D)
  · exact keepsDebits_nil D

theorem every_callWrites (S : Deployment Body) (c : Call Body) (hc : c.reserves = true) :
    (c.prog S).Every (CallWrites c) := by
  cases hremoves : c.removes with
  | none => exact (every_close S hc hremoves).mono fun _ _ h => by simpa [CallWrites, hremoves]
  | some readingId =>
      cases c with
      | remove userId _ => exact every_remove userId _
      | _ => cases hremoves

/-- A step that submits a reading leaves no removal behind that has checked the
reading before and may still delete it. -/
def SubmitsAlone (s s' : BackendPool Body) : Prop :=
  ∀ readingId, s.SetsAlone (Sent readingId) s'

/-- In every run whose steps submit readings alone: every ledger row that debits
credits for a reading still has its reservation and its reading, and a reading
that has been submitted is never deleted. -/
theorem debits_reserved (S : Deployment Body) (D : Db) (hD : DebitsReserved D)
    (s : BackendPool Body)
    (run : Pool.Reach (Call.prog S) (fun c => c.reserves) SubmitsAlone (.idle D) s) :
    (∀ key row, s.db.walletTransactions.lookup key = some row → row.type = .RESERVATION →
      row.amount ≠ 0 → ∃ id res r, row.readingId = some id ∧
        s.db.creditReservations.lookup id = some res ∧ s.db.readings.lookup id = some r) ∧
    ∀ s', Pool.Reach (Call.prog S) (fun c => c.reserves) SubmitsAlone s s' →
      ∀ id, Sent id s.db → Sent id s'.db := by
  have latched : ∀ {s s' : BackendPool Body},
      Pool.Reach (Call.prog S) (fun c => c.reserves) SubmitsAlone (.idle D) s →
      Pool.Reach (Call.prog S) (fun c => c.reserves) SubmitsAlone s s' →
      ∀ id, Sent id s.db → Sent id s'.db := by
    intro s s' run run' id
    exact Pool.Reach.latched (fun c hc => checks_sent S hc id) (fun _ _ hok => hok id) run run'
  have hI : DebitsReserved s.db := by
    refine Pool.Reach.invariant (I := fun D _ => DebitsReserved D) callWrites_nil
      (every_callWrites S) hD ?_ run
    intro s s' c L run run' hc hK hdb hI
    unfold CallWrites at hK
    rw [hdb]
    split at hK
    · rename_i readingId _
      exact hK.debitsReserved (hdb ▸ latched run run' readingId) hI
    · exact hK.1 hI
  refine ⟨fun key row hrow htype hamount => ?_, fun s' run' id => latched run run' id⟩
  obtain ⟨id, hid, res, hres⟩ := hI.reserved key row hrow htype hamount
  obtain ⟨r, hr, -⟩ := hI.sent id res hres
  exact ⟨id, res, r, hid, hres, hr⟩

end Calls

/-- No reading becomes submitted between the two databases. -/
def noSubmission (D D' : Db) : Bool :=
  D'.readings.toRows.all fun e => e.2.status = .DRAFT ||
    (D.readings.lookup e.1).any fun r => r.status ≠ .DRAFT

theorem sent_of_noSubmission {D D' : Db} {readingId : Id} (h : noSubmission D D' = true)
    (hsent : Sent readingId D') : Sent readingId D := by
  obtain ⟨r, hr, hstatus⟩ := hsent
  have hrow := List.all_eq_true.mp h _ ((Table.mem_toRows _ _ _).mpr hr)
  simp only [hstatus, decide_false, Bool.false_or, Option.any_eq_true, decide_eq_true_eq] at hrow
  exact hrow

theorem submitsAlone_of_noSubmission {Body : Type} {s s' : BackendPool Body}
    (h : noSubmission s.db s'.db = true) : SubmitsAlone s s' :=
  fun _ hnot hsent => absurd (sent_of_noSubmission h hsent) hnot

/-- A reading is submitted, and then a removal is refused and a release gives
the credits back. -/
theorem debits_reserved_of_submit : ∃ (s : BackendPool ParsedWebhook) (row : WalletTransaction),
    s.db.walletTransactions.lookup (.reservation "r1") = some row ∧ row.amount = -2 ∧
      ∃ id res r, row.readingId = some id ∧ s.db.creditReservations.lookup id = some res ∧
        s.db.readings.lookup id = some r := by
  obtain ⟨s₁, k, s', hs₁, hk, hcall, hs', row, hrow, hamount, htype⟩ :
      ∃ (s₁ : BackendPool ParsedWebhook) (k : Task Db RowWrite Err _ Answer Unit)
        (s' : BackendPool ParsedWebhook),
        Pool.run (Call.prog sampleDeployment) noSubmission (.idle sampleDb)
          (.spawn 0 (.submit "ana" "r1") :: steps 0 4 .COMPLETED) = some s₁ ∧
        s₁.tasks 0 = some k ∧ k.call = .submit "ana" "r1" ∧
        Pool.run (Call.prog sampleDeployment) noSubmission
          (s₁.advance 0 k .done (sampleAnswer .COMPLETED))
          ([.spawn 1 (.remove "ana" "r1"), .spawn 2 (.releaseReservation "r1")] ++
            steps 1 1 .FAILED ++ steps 2 1 .FAILED) = some s' ∧
        ∃ row, s'.db.walletTransactions.lookup (.reservation "r1") = some row ∧
          row.amount = -2 ∧ row.type = .RESERVATION :=
    ⟨_, _, _, rfl, rfl, rfl, rfl, _, rfl, rfl, rfl⟩
  have run₁ : Pool.Reach (Call.prog sampleDeployment) (fun c => c.reserves) SubmitsAlone
      (.idle sampleDb) s₁ :=
    Pool.Reach.refl.run (fun _ _ => submitsAlone_of_noSubmission) _
      (by simp [steps, Event.Starts, Call.reserves]) hs₁
  have alone : ∀ u, u ≠ 0 → s₁.tasks u = none := fun u hu =>
    Pool.tasks_run (by simp [steps, Event.task, hu.symm]) hs₁
  -- The rest of the submission deletes nothing.
  have hrest := ((run₁.every callWrites_nil (every_callWrites sampleDeployment) hk).step
    (callWrites_nil k.call) s₁.db .done (sampleAnswer .COMPLETED)).2
  rw [hcall] at hrest
  have run := (run₁.go hk .done (sampleAnswer .COMPLETED) fun id _ _ =>
    .of_alone alone (hrest.mono fun _ _ h => h.2 id)).run
      (fun _ _ => submitsAlone_of_noSubmission) _
      (by simp [steps, Event.Starts, Call.reserves]) hs'
  exact ⟨s', row, hrow, hamount, (debits_reserved sampleDeployment sampleDb (.of_empty rfl rfl) s'
    run).1 _ row hrow htype (by simp [hamount])⟩

/-- A removal checks the draft, the reading is submitted for two credits, and
the removal deletes it with its reservation. -/
theorem debit_without_reservation : ∃ (s s' : BackendPool ParsedWebhook) (row : WalletTransaction),
    Pool.Reach (Call.prog sampleDeployment) (fun c => c.reserves) (fun _ _ => True)
      (.idle sampleDb) s ∧
    Pool.Reach (Call.prog sampleDeployment) (fun c => c.reserves) (fun _ _ => True) s s' ∧
    Sent "r1" s.db ∧ ¬ Sent "r1" s'.db ∧
    s'.db.walletTransactions.lookup (.reservation "r1") = some row ∧ row.type = .RESERVATION ∧
    row.amount = -2 ∧ row.readingId = none ∧ s'.db.creditReservations.lookup "r1" = none ∧
    s'.db.readings.lookup "r1" = none := by
  have any : ∀ s s' : BackendPool ParsedWebhook, Pool.unchecked s.db s'.db = true → True :=
    fun _ _ _ => trivial
  refine ⟨_, _, _, Pool.Reach.refl.run any
      ([.spawn 0 (.remove "ana" "r1"), .spawn 1 (.submit "ana" "r1")] ++
        steps 0 1 .COMPLETED ++ steps 1 5 .COMPLETED)
      (by simp [steps, Event.Starts, Call.reserves]) rfl,
    Pool.Reach.refl.run any (steps 0 3 .COMPLETED) (by simp [steps, Event.Starts]) rfl,
    ?_, ?_, rfl, rfl, rfl, rfl, rfl, rfl⟩
  · decide
  · decide

end TaroTria
