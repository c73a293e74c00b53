import TaroTria.Backend.Refinement

/-!
# Adjustments and their audit

An administrator's adjustment moves a balance and records it in the audit log, in one
transaction. What the audit log tells of adjustments is what the backend has
committed, whichever other requests run beside them.
-/

namespace TaroTria

open Transactions

/-- An adjustment, as an administrator asks for it. -/
structure Adjustment where
  userId : Id
  amount : Int
  reason : String
  actorUserId : Id
  deriving DecidableEq, Repr

/-- What a row of the audit log tells of an adjustment. -/
def AuditLog.adjustment (row : AuditLog) : Adjustment :=
  ⟨row.targetId, row.amount, row.reason, row.actorUserId⟩

/-- The adjustment that a call asks for. -/
def Call.adjustment? {Body : Type} : Call Body → Option Adjustment
  | .adjustBalance userId amount reason actorUserId => some ⟨userId, amount, reason, actorUserId⟩
  | _ => none

/-- The adjustments among some commits. -/
def adjustmentsMade {Body : Type} (hist : List (Call Body × List RowWrite)) : List Adjustment :=
  hist.filterMap fun e => e.1.adjustment?

/-- The ledger's rows of adjustments. -/
def adjustmentRows (D : Db) : List (IdempotencyKey × WalletTransaction) :=
  D.walletTransactions.findMany fun _ row => row.type = .ADJUSTMENT

/-- The rows of the audit log about adjustments. -/
def adjustmentAudits (D : Db) : List (Id × AuditLog) :=
  D.auditLogs.findMany fun _ row => row.action = "wallet.adjustment"

section Safety

variable {Body : Type} {S : Deployment Body}

/-- A commit of an adjustment inserts its row of the audit log. -/
def InsertsAudit (c : Call Body) (D : Db) (L : List RowWrite) : Prop :=
  ∀ a, c.adjustment? = some a → a.amount ≠ 0 ∧ ∃ uuid auditId w,
    D.walletTransactions.lookup (.adjustment uuid) = none ∧ D.auditLogs.lookup auditId = none ∧
    L = WalletService.adjustmentWrites a.userId a.amount a.reason a.actorUserId uuid auditId w

theorem wp_adjustBalanceTx_audit {Call : Type} {G : Discipline Db RowWrite RowRef Call} {D : Db}
    {userId : Id} {amount : Int} {reason : String} {actorUserId uuid auditId : Id} :
    (WalletService.adjustBalanceTx userId amount reason actorUserId uuid auditId).wp G D
      (fun _ _ => D.auditLogs.lookup auditId = none) [] := by
  -- both branches end with the same two insertions
  have record : ∀ (updated : Wallet) (L : List RowWrite),
      (view L D).auditLogs = D.auditLogs →
      (do let _ ← Db.walletTransaction.create (.adjustment uuid)
            { walletId := userId, type := .ADJUSTMENT, amount := amount,
              balanceAfter := updated.balance, readingId := none, orderId := none }
          let _ ← Db.auditLog.create auditId
            { actorUserId := actorUserId, action := "wallet.adjustment", targetType := "User",
              targetId := userId, reason := reason, amount := amount,
              balanceAfter := updated.balance }
          return updated : TxM Wallet).wp G D
        (fun _ _ => D.auditLogs.lookup auditId = none) L := by
    intro updated L hL
    apply Tx.wp_bind
    apply Db.walletTransaction.wp_create
    intro _
    apply Tx.wp_bind
    apply Db.auditLog.wp_create
    intro hfresh
    simpa [view_append, hL] using hfresh
  unfold WalletService.adjustBalanceTx
  apply Tx.wp_bind
  apply Db.wallet.wp_findUnique
  intro D₀ _
  split
  · split
    · apply Tx.wp_bind
      apply Db.wallet.wp_updateMany
      · intro _ _ _
        trivial
      · intro w hw hfunds
        apply Tx.wp_bind
        apply Db.wallet.wp_findUniqueOrThrow_own List.mem_cons_self
        intro w' _
        exact record w' _ rfl
    · apply Tx.wp_bind
      apply Db.wallet.wp_updateWithin
      intro w _ _
      exact record _ _ rfl
  · trivial

theorem safe_adjustBalance_audit {D : Db} {userId : Id} {amount : Int} {reason : String}
    {actorUserId : Id} :
    (WalletService.adjustBalance userId amount reason actorUserId).Safe
      ((discipline S).restrict InsertsAudit) S.answers
      (.adjustBalance userId amount reason actorUserId) (fun _ _ => True) D := by
  unfold WalletService.adjustBalance
  by_cases hzero : amount = 0
  · simp only [hzero, if_true]
    exact fun _ _ => trivial
  · simp only [hzero, if_false]
    apply Proc.Safe.bind
    refine Proc.Safe.call (fun _ _ _ => trivial) fun uuid _ D₁ _ => ?_
    apply Proc.Safe.bind
    refine Proc.Safe.call (fun _ _ _ => trivial) fun auditId _ D₂ _ => ?_
    refine Proc.Safe.transaction (fun _ _ _ => trivial) fun D₃ _ => ?_
    have hchange : (WalletService.adjustBalanceTx userId amount reason actorUserId uuid auditId).wp
        ((discipline S).restrict InsertsAudit) D₃ (fun _ L => ∃ w : Wallet,
          D₃.wallets.lookup userId = some w ∧ (amount < 0 → -amount ≤ w.balance) ∧
          D₃.walletTransactions.lookup (.adjustment uuid) = none ∧
          (0 ≤ amount → Wallet.fits ⟨w.balance + amount⟩ = true) ∧ L =
            WalletService.adjustmentWrites userId amount reason actorUserId uuid auditId w) [] := by
      apply WalletService.wp_adjustBalanceTx
      exact fun w hw hfunds hk hfits => ⟨w, hw, hfunds, hk, hfits, rfl⟩
    refine Tx.wp_mono (fun a L hL => ?_) (Tx.wp_and hchange wp_adjustBalanceTx_audit)
    obtain ⟨⟨w, hw, hfunds, hk, hfits, rfl⟩, hfresh⟩ := hL
    refine ⟨fun _ => ⟨.adjust hw hfunds hk hfits, fun a ha => ?_⟩, fun _ _ => trivial⟩
    cases ha
    exact ⟨hzero, uuid, auditId, w, hk, hfresh, rfl⟩

/-- Every call but the removal of a reading audits the adjustments that it commits. -/
theorem prog_safe_audit (c : Call Body) (hc : c.removes = none) (D : Db) :
    (c.prog S).Safe ((discipline S).restrict InsertsAudit) S.answers c (fun _ _ => True) D := by
  by_cases ha : c.adjustment? = none
  · refine (prog_safe S c hc D).restrict fun D' L _ a ha' => ?_
    rw [ha] at ha'
    cases ha'
  · cases c with
    | adjustBalance userId amount reason actorUserId =>
        apply Proc.Safe.bind
        refine safe_adjustBalance_audit.mono fun r D' _ => ?_
        cases r with
        | ok _ => exact fun _ _ => trivial
        | error e => trivial
    | _ => exact absurd rfl ha

end Safety

/-! ## The audit log and the commits -/

section Books

variable {Body : Type} {S : Deployment Body}

/-- A change of the database that is no adjustment leaves the ledger's adjustments and
the audit log alone. -/
theorem Effect.adjustments_eq {c : Call Body} {D : Db} {L : List RowWrite}
    (he : Effect S c D L) (hc : c.adjustment? = none) :
    adjustmentRows (view L D) = adjustmentRows D ∧ (view L D).auditLogs = D.auditLogs := by
  -- a fresh row of another type
  have other : ∀ {key : IdempotencyKey} (row : WalletTransaction),
      D.walletTransactions.lookup key = none → row.type ≠ .ADJUSTMENT →
      (D.walletTransactions.write key (some row)).findMany (fun _ row => row.type = .ADJUSTMENT) =
        adjustmentRows D := by
    intro key row hk htype
    rw [Table.findMany_write_fresh _ _ hk, if_neg (by simpa using htype)]
    rfl
  cases he with
  | adjust hw hfunds hk => cases hc
  | createWallet hw hk =>
      unfold WalletService.bonusWrites
      split
      · rename_i hb
        exact ⟨other _ (hk hb) (by simp), rfl⟩
      · exact ⟨rfl, rfl⟩
  | submit s =>
      rw [s.view_writes]
      exact ⟨other _ s.unrecorded (by simp), rfl⟩
  | confirm hc hres hactive hw hk => exact ⟨other _ hk (by simp), rfl⟩
  | release hc hres hactive hw hk => exact ⟨other _ hk (by simp), rfl⟩
  | approve s hc happroved hw hk =>
      rw [s.view_approval]
      exact ⟨other _ hk (by simp), rfl⟩
  | close s hc hstatus hrejected => split <;> exact ⟨rfl, rfl⟩
  | completeSession s hc =>
      rw [s.view_writes]
      exact ⟨rfl, rfl⟩
  | _ => exact ⟨rfl, rfl⟩

/-- The audit log tells of the adjustments that were made, newest first, and the
ledger of the same. -/
structure Audited (hist : List (Call Body × List RowWrite)) (D : Db) : Prop where
  made : (adjustmentAudits D).map (fun e => e.2.adjustment) = adjustmentsMade hist
  ledger : (adjustmentRows D).map (fun e => (e.2.walletId, e.2.amount, e.2.balanceAfter)) =
    (adjustmentAudits D).map fun e => (e.2.targetId, e.2.amount, e.2.balanceAfter)
  moves : ∀ a ∈ adjustmentsMade hist, a.amount ≠ 0

theorem Audited.step {hist : List (Call Body × List RowWrite)} {c : Call Body} {D : Db}
    {L : List RowWrite} (h : Audited hist D)
    (he : ((discipline S).restrict InsertsAudit).Effect c D L) :
    Audited ((c, L) :: hist) (view L D) := by
  obtain ⟨he, haudit⟩ := he
  by_cases hc : c.adjustment? = none
  · obtain ⟨hrows, hlogs⟩ := he.adjustments_eq hc
    have hmade : adjustmentsMade ((c, L) :: hist) = adjustmentsMade hist := by
      simp [adjustmentsMade, hc]
    refine ⟨?_, ?_, ?_⟩
    · rw [adjustmentAudits, hlogs, hmade]
      exact h.made
    · rw [adjustmentAudits, hlogs, hrows]
      exact h.ledger
    · rw [hmade]
      exact h.moves
  · obtain ⟨a, ha⟩ := Option.ne_none_iff_exists'.mp hc
    obtain ⟨hzero, uuid, auditId, w, hk, hfresh, rfl⟩ := haudit a ha
    have hmade : adjustmentsMade ((c, WalletService.adjustmentWrites a.userId a.amount a.reason
        a.actorUserId uuid auditId w) :: hist) = a :: adjustmentsMade hist := by
      simp [adjustmentsMade, ha]
    have hrows := Table.findMany_write_fresh (p := fun _ row => row.type = .ADJUSTMENT)
      ⟨a.userId, .ADJUSTMENT, a.amount, w.balance + a.amount, none, none⟩ hk
    have hlogs := Table.findMany_write_fresh (p := fun _ row => row.action = "wallet.adjustment")
      ⟨a.actorUserId, "wallet.adjustment", "User", a.userId, a.reason, a.amount,
        w.balance + a.amount⟩ hfresh
    simp only [decide_true, if_true] at hrows hlogs
    refine ⟨?_, ?_, ?_⟩
    · rw [hmade, ← h.made]
      exact congrArg (List.map _) hlogs
    · refine (congrArg (List.map _) hrows).trans (Eq.trans ?_ (congrArg (List.map _) hlogs).symm)
      exact congrArg (List.cons _) h.ledger
    · rw [hmade]
      exact List.forall_mem_cons.mpr ⟨hzero, h.moves⟩

theorem audited_of_path {calls : Call Body → Prop} {D D' : Db}
    {hist : List (Call Body × List RowWrite)} (h₀ : Audited ([] : List (Call Body × _)) D)
    (path : Path (((discipline S).restrict InsertsAudit).Permits calls) D hist D') :
    Audited hist D' := by
  induction path with
  | nil => exact h₀
  | cons tail he ih => exact ih.step he.2

end Books

variable {Body : Type}

/-- In every run that starts without adjustments: the audit log has, for every
adjustment that was committed and for nothing else, one row with its user, amount,
reason and administrator, and the ledger has one row for each with the same amount
and the same balance after it; none of them is zero. -/
theorem adjustments_audited (S : Deployment Body) (D : Db) (hD : PaymentsBelong D)
    (hrows : adjustmentRows D = []) (haudits : adjustmentAudits D = []) (s : BackendServer Body)
    (run : Server.Reach (backend S) (fun c => c.removes = none) (.idle D) s) :
    ((adjustmentAudits s.db).map fun e => e.2.adjustment).Perm (adjustmentsMade s.history) ∧
      ((adjustmentRows s.db).map fun e => (e.2.walletId, e.2.amount, e.2.balanceAfter)).Perm
        ((adjustmentAudits s.db).map fun e => (e.2.targetId, e.2.amount, e.2.balanceAfter)) ∧
      ∀ a ∈ adjustmentsMade s.history, a.amount ≠ 0 := by
  have hI : ((discipline S).restrict InsertsAudit).Inv (Server.idle D : BackendServer Body).db := hD
  obtain ⟨-, hist, hh, hpath⟩ := Server.reach_path (fun c hc D' _ => prog_safe_audit c hc D') hI
    (Server.sound_idle D) run
  have hhist : s.history = hist := by simpa [Server.idle] using hh
  have hstart : Audited ([] : List (Call Body × List RowWrite)) D :=
    ⟨by simp [haudits, adjustmentsMade], by simp [hrows, haudits], by simp [adjustmentsMade]⟩
  have haudited := audited_of_path hstart hpath
  rw [hhist]
  exact ⟨haudited.made ▸ .refl _, haudited.ledger ▸ .refl _, haudited.moves⟩

theorem adjustments_audited_of_one : ∃ s : BackendServer ParsedWebhook,
    adjustmentsMade s.history = [⟨"ana", -2, "devolución", "admin"⟩] ∧
      ((adjustmentAudits s.db).map fun e => e.2.adjustment).Perm (adjustmentsMade s.history) ∧
      ((adjustmentRows s.db).map fun e => (e.2.walletId, e.2.amount, e.2.balanceAfter)).Perm
        ((adjustmentAudits s.db).map fun e => (e.2.targetId, e.2.amount, e.2.balanceAfter)) := by
  have adjusted : ∃ s, Server.Reach (backend sampleDeployment) (fun c => c.removes = none)
      (.idle Db.empty) s ∧ adjustmentsMade s.history = [⟨"ana", -2, "devolución", "admin"⟩] := by
    refine ⟨_, Server.Reach.refl.run
      [.spawn 0 (.createWalletWithBonus "ana"), .start 0, .exec 0, .exec 0, .commit 0,
        .spawn 1 (.adjustBalance "ana" (-2) "devolución" "admin"), .answer 1 .randomUUID "u1",
        .answer 1 .randomUUID "a1", .start 1, .exec 1, .exec 1, .exec 1, .exec 1, .exec 1,
        .commit 1] ?_ rfl, rfl⟩
    simp [Move.Admissible, Call.removes, backend, Deployment.answers]
  obtain ⟨s, run, hmade⟩ := adjusted
  have haudited := adjustments_audited sampleDeployment Db.empty (.of_empty rfl) rfl rfl s run
  exact ⟨s, hmade, haudited.1, haudited.2.1⟩

end TaroTria
