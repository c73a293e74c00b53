import TaroTria.Backend.Refinement
import TaroTria.Transactions.Escrow
import TaroTria.Transactions.Ledger

/-!
# Credits in escrow

The wallets, the reservations and the ledger rows that no reservation explains
form an escrow book, and every commit of the backend is a step of it or leaves it
alone. So the credits that a user was granted are free, reserved or consumed in
every committed state.
-/

namespace TaroTria

open Transactions

/-- The type of a row that only follows a reservation. -/
def WalletTransactionType.ofReservation : WalletTransactionType → Bool
  | .RESERVATION | .CONSUMPTION | .RELEASE => true
  | .PURCHASE | .REFUND | .BONUS | .PROMOTION | .REFERRAL | .ADJUSTMENT => false

/-- The credits that a row brings to its wallet from outside. -/
def WalletTransaction.granted (t : WalletTransaction) : Int :=
  if t.type.ofReservation then 0 else t.amount

def CreditReservationStatus.stage : CreditReservationStatus → Escrow.Stage
  | .ACTIVE => .held
  | .CONSUMED => .spent
  | .RELEASED => .returned

def CreditReservation.hold (r : CreditReservation) : Escrow.Hold Id :=
  ⟨r.walletId, r.amount, r.status.stage⟩

/-- The balance of a user, nothing without a wallet. -/
def available (wallets : Table Id Wallet) (userId : Id) : Int :=
  (wallets.lookup userId).elim 0 Wallet.balance

/-- The credits that a user was granted. -/
def grantedSum (ledger : Table IdempotencyKey WalletTransaction) : Id → Int :=
  Ledger.total WalletTransaction.walletId WalletTransaction.granted ledger

/-- The credits of a user's reservations with a status. -/
def reservedSum (reservations : Table Id CreditReservation) (status : CreditReservationStatus)
    (userId : Id) : Int :=
  reservations.sumBy fun r => if r.walletId = userId ∧ r.status = status then r.amount else 0

/-- The reservations as holds. -/
def holds (reservations : Table Id CreditReservation) (readingId : Id) :
    Option (Escrow.Hold Id) :=
  (reservations.lookup readingId).map CreditReservation.hold

/-- The escrow book of a database. -/
def Db.escrow (D : Db) : Escrow.Book Id Id :=
  ⟨grantedSum D.walletTransactions, available D.wallets, holds D.creditReservations⟩

section Tables

variable {wallets : Table Id Wallet} {ledger : Table IdempotencyKey WalletTransaction}
  {reservations : Table Id CreditReservation} {userId : Id} {w : Wallet}

theorem available_of_lookup (hw : wallets.lookup userId = some w) :
    available wallets userId = w.balance := by
  simp [available, hw]

theorem available_write (wallets : Table Id Wallet) (userId : Id) (w : Wallet) :
    available (wallets.write userId (some w)) =
      Function.update (available wallets) userId w.balance := by
  ext u
  by_cases hu : u = userId
  · subst hu
    simp [available]
  · simp [available, Table.lookup_write, hu]

theorem holds_write (reservations : Table Id CreditReservation) (readingId : Id)
    (r : CreditReservation) : holds (reservations.write readingId (some r)) =
      Function.update (holds reservations) readingId (some r.hold) := by
  ext1 id
  by_cases hid : id = readingId
  · subst hid
    simp [holds]
  · simp [holds, Table.lookup_write, hid]

/-- A row from outside grants its amount to its wallet. -/
theorem grantedSum_write {k : IdempotencyKey} (r : WalletTransaction)
    (hk : ledger.lookup k = none) : grantedSum (ledger.write k (some r)) =
      Function.update (grantedSum ledger) r.walletId
        (grantedSum ledger r.walletId + r.granted) := by
  ext u
  unfold grantedSum
  rw [Ledger.total_write_fresh _ _ r u hk]
  by_cases hu : u = r.walletId
  · subst hu
    rw [if_pos rfl, Function.update_self]
    omega
  · rw [if_neg (Ne.symm hu), Function.update_of_ne hu, zero_add]

/-- A row that follows a reservation grants nothing. -/
theorem grantedSum_note {k : IdempotencyKey} (r : WalletTransaction)
    (hk : ledger.lookup k = none) (hr : r.type.ofReservation = true) :
    grantedSum (ledger.write k (some r)) = grantedSum ledger := by
  rw [grantedSum_write r hk, WalletTransaction.granted, if_pos hr, add_zero,
    Function.update_eq_self]

end Tables

section Step

open WalletService ReadingsService Escrow

variable {Body : Type} {S : Deployment Body} {c : Call Body} {D : Db} {L : List RowWrite}

/-- A new row from outside and the wallet that it moves. -/
theorem escrow_give {k : IdempotencyKey} (r : WalletTransaction) (w' : Wallet)
    (hk : D.walletTransactions.lookup k = none) (hr : r.type.ofReservation = false)
    (hmove : w'.balance = available D.wallets r.walletId + r.amount)
    (hfunds : r.amount < 0 → -r.amount ≤ available D.wallets r.walletId) :
    Step D.escrow
      { D with
        wallets := D.wallets.write r.walletId (some w')
        walletTransactions := D.walletTransactions.write k (some r) }.escrow := by
  have hgranted : r.granted = r.amount := by simp [WalletTransaction.granted, hr]
  have hstep := Step.give (b := D.escrow) r.walletId r.amount hfunds
  simpa only [Db.escrow, Book.give, available_write, hmove, grantedSum_write r hk, hgranted]
    using hstep

/-- Every change is one step of the escrow book, or leaves the book alone. -/
theorem Effect.escrow_step (he : Effect S c D L) :
    Relation.ReflGen Step D.escrow (view L D).escrow := by
  cases he with
  | @createWallet _ userId hw hk =>
      have hnone : available D.wallets userId = 0 := by simp [available, hw]
      by_cases hb : 0 < S.walletInitialBonusCredits
      · have hstep := escrow_give (D := D)
          ⟨userId, .BONUS, S.walletInitialBonusCredits, S.walletInitialBonusCredits, none, none⟩
          ⟨S.walletInitialBonusCredits⟩ (hk hb) rfl (by simp [hnone]) (by simp only; omega)
        simpa [bonusWrites, hb] using Relation.ReflGen.single hstep
      · -- A wallet without credits is as good as none.
        have hsame : available (D.wallets.write userId (some ⟨S.walletInitialBonusCredits⟩)) =
            available D.wallets := by
          rw [available_write, Function.update_eq_self_iff, hnone]
          simp only
          omega
        simp [bonusWrites, hb, Db.escrow, hsame, Relation.ReflGen.refl]
  | @adjust _ userId amount _ _ _ _ w hw hfunds hk =>
      have hfree := available_of_lookup hw
      exact .single (escrow_give (D := D)
        ⟨userId, .ADJUSTMENT, amount, w.balance + amount, none, none⟩ ⟨w.balance + amount⟩ hk rfl
        (by simp only [hfree]) (by simpa only [hfree] using hfunds))
  | @submit _ userId readingId s =>
      have hfree := available_of_lookup s.wallet_mem
      have hstep := Step.hold (b := D.escrow) readingId userId s.amount
        (by simp [Db.escrow, holds, s.unreserved])
        (by simpa only [Db.escrow, hfree, Submission.amount] using s.funds)
      rw [s.view_writes]
      refine .single ?_
      have hnote := grantedSum_note ⟨userId, .RESERVATION, -s.amount, s.wallet.balance - s.amount,
        some readingId, none⟩ s.unrecorded rfl
      simpa only [Db.escrow, Book.hold, available_write, holds_write, hnote, hfree,
        CreditReservation.hold, CreditReservationStatus.stage] using hstep
  | @confirm _ _ readingId res w balanceAfter hc hres hactive hw hk =>
      have hstep := Step.spend (b := D.escrow) readingId res.hold
        (by simp [Db.escrow, holds, hres])
        (by simp [CreditReservation.hold, CreditReservationStatus.stage, hactive])
      refine .single ?_
      have hnote := grantedSum_note
        ⟨res.walletId, .CONSUMPTION, 0, balanceAfter, some readingId, none⟩ hk rfl
      simpa [consumptionWrites, Db.escrow, Book.spend, holds_write, hnote,
        CreditReservation.hold, CreditReservationStatus.stage] using hstep
  | @release _ _ readingId res w hc hres hactive hw hk =>
      have hfree := available_of_lookup hw
      have hstep := Step.giveBack (b := D.escrow) readingId res.hold
        (by simp [Db.escrow, holds, hres])
        (by simp [CreditReservation.hold, CreditReservationStatus.stage, hactive])
      refine .single ?_
      have hnote := grantedSum_note
        ⟨res.walletId, .RELEASE, res.amount, w.balance + res.amount, some readingId, none⟩ hk rfl
      simpa [releaseWrites, Db.escrow, Book.giveBack, holds_write, available_write, hnote, hfree,
        CreditReservation.hold, CreditReservationStatus.stage] using hstep
  | @approve _ _ s w hc happroved hw hk =>
      have hfree := available_of_lookup hw
      rw [s.view_approval]
      exact .single (escrow_give (D := D)
        ⟨s.order.userId, .PURCHASE, s.order.credits, w.balance + s.order.credits, none,
          some s.payment.orderId⟩
        ⟨w.balance + s.order.credits⟩ hk rfl (by simp only [hfree]) (by simp only; omega))
  | close s hc hstatus hrejected => split <;> exact .refl
  | completeSession s hc =>
      rw [s.view_writes]
      exact .refl
  | createReading hr ho hdraft => exact .refl
  | setReading hc hr hsame hstatus => exact .refl
  | enqueue hc => exact .refl
  | createOrder ho hpkg => exact .refl
  | createDiscountedOrder ho hoffer hclock hactive hpkg => exact .refl
  | createPayment hk ho => exact .refl
  | recordDelivery hk => exact .refl
  | openSession hk ho htype hcreated => exact .refl
  | logEvent hc => exact .refl
  | expireSession hc hsession hopen => exact .refl
  | unlockDailyCard hcount henough => exact .refl

/-- Every path of changes is a run of the escrow book. -/
theorem escrow_of_path {calls : Call Body → Prop} {D' : Db}
    {hist : List (Call Body × List RowWrite)}
    (path : Path ((discipline S).Permits calls) D hist D') :
    Relation.ReflTransGen Step D.escrow D'.escrow :=
  path.invariant (fun D' => Relation.ReflTransGen Step D.escrow D'.escrow) .refl
    fun _ _ _ hrun he => hrun.trans he.2.escrow_step.to_reflTransGen

end Step

variable {Body : Type}

/-- Every run of the backend without removals is a run of the escrow book. Each of
its commits, in whatever interleaving, gives credits, holds free ones, spends what
is held or gives it back, or leaves the book alone. -/
theorem backend_refines_escrow (S : Deployment Body) (D : Db) (hD : PaymentsBelong D)
    (s : BackendServer Body)
    (run : Server.Reach (backend S) (fun c => c.removes = none) (.idle D) s) :
    Path (fun _ D' L => Relation.ReflGen Escrow.Step D'.escrow (view L D').escrow) D s.history
      s.db :=
  (reach_commits (fun _ hc => hc) hD run).imp fun _ _ _ he => he.2.escrow_step

theorem backend_refines_escrow_of_purchase : ∃ s : BackendServer ParsedWebhook,
    Path (fun _ D' L => Relation.ReflGen Escrow.Step D'.escrow (view L D').escrow) openingDb
      s.history s.db ∧
      s.db.escrow.free "ana" = 11 ∧ s.db.escrow.holds "r1" = some ⟨"ana", 2, .spent⟩ := by
  obtain ⟨s, run, hwallet, hreservation⟩ := reach_opening
  refine ⟨s, backend_refines_escrow sampleDeployment openingDb (.of_empty rfl) s run,
    available_of_lookup hwallet, ?_⟩
  simp [Db.escrow, holds, hreservation, CreditReservation.hold, CreditReservationStatus.stage]

/-- What the reservations with a status hold, read off the escrow book. -/
theorem total_escrow (D : Db) (status : CreditReservationStatus) (userId : Id) :
    Escrow.total D.escrow status.stage userId D.creditReservations.keys.toFinset =
      reservedSum D.creditReservations status userId := by
  have hstage : ∀ r : CreditReservation, r.status.stage = status.stage ↔ r.status = status := by
    intro r
    cases r.status <;> cases status <;> simp [CreditReservationStatus.stage]
  refine (Escrow.total_table D.creditReservations CreditReservation.hold _ _ _ userId).trans ?_
  unfold reservedSum
  congr 1
  funext r
  simp only [Escrow.share_some, CreditReservation.hold, hstage]

/-- No credit is made or lost: in every committed state of every run that starts
without wallets, reservations and ledger rows, what a user was granted by bonuses,
purchases and adjustments is the balance, the active reservations and the
consumed ones, none of which is negative. -/
theorem credits_conserved (S : Deployment Body) (D : Db) (hD : PaymentsBelong D)
    (hwallets : D.wallets = ∅) (hledger : D.walletTransactions = ∅)
    (hreservations : D.creditReservations = ∅) (s : BackendServer Body)
    (run : Server.Reach (backend S) (fun c => c.removes = none) (.idle D) s) (userId : Id) :
    grantedSum s.db.walletTransactions userId = available s.db.wallets userId +
        reservedSum s.db.creditReservations .ACTIVE userId +
        reservedSum s.db.creditReservations .CONSUMED userId ∧
      0 ≤ available s.db.wallets userId ∧
      0 ≤ reservedSum s.db.creditReservations .ACTIVE userId ∧
      0 ≤ reservedSum s.db.creditReservations .CONSUMED userId ∧
      reservedSum s.db.creditReservations .CONSUMED userId ≤
        grantedSum s.db.walletTransactions userId := by
  have hempty : D.escrow = Escrow.Book.empty := by
    unfold Db.escrow
    rw [hwallets, hledger, hreservations]
    rfl
  have hsteps : Relation.ReflTransGen Escrow.Step Escrow.Book.empty s.db.escrow :=
    hempty ▸ escrow_of_path (reach_commits (fun _ hc => hc) hD run)
  obtain ⟨hbalanced, hfree⟩ := Escrow.conserved hsteps
  have hcovered : ∀ k ∉ s.db.creditReservations.keys.toFinset, s.db.escrow.holds k = none := by
    intro k hk
    have hmissing : s.db.creditReservations.lookup k = none :=
      AList.lookup_eq_none.mpr fun hmem => hk (List.mem_toFinset.mpr (AList.mem_keys.mp hmem))
    simp [Db.escrow, holds, hmissing]
  have hsum := hbalanced _ userId hcovered
  have hactive := Escrow.total_nonneg s.db.escrow .held userId
    s.db.creditReservations.keys.toFinset
  have hconsumed := Escrow.total_nonneg s.db.escrow .spent userId
    s.db.creditReservations.keys.toFinset
  have hbalance := hfree userId
  rw [← total_escrow, ← total_escrow]
  refine ⟨hsum, hbalance, hactive, hconsumed, ?_⟩
  simp only [CreditReservationStatus.stage, Db.escrow] at *
  omega

theorem credits_conserved_of_purchase : ∃ s : BackendServer ParsedWebhook,
    available s.db.wallets "ana" = 11 ∧ grantedSum s.db.walletTransactions "ana" =
      available s.db.wallets "ana" + reservedSum s.db.creditReservations .ACTIVE "ana" +
        reservedSum s.db.creditReservations .CONSUMED "ana" ∧
      s.db.creditReservations.lookup "r1" = some ⟨"ana", 2, .CONSUMED⟩ := by
  obtain ⟨s, run, hwallet, hreservation⟩ := reach_opening
  exact ⟨s, available_of_lookup hwallet, (credits_conserved sampleDeployment openingDb
    (.of_empty rfl) rfl rfl rfl s run "ana").1, hreservation⟩

end TaroTria
