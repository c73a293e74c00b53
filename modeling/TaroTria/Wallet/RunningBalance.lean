import TaroTria.Transactions.Snapshots
import TaroTria.Wallet.LedgerBalance

/-!
# The running balance of the ledger

Each ledger row records the balance of its wallet after its movement. Five of the six
operations read that balance back from the row they have just locked. A confirmation
only reads it, so its row is right when the wallet has the same balance at its commit,
and may be wrong otherwise.
-/

namespace TaroTria

open Transactions

/-- The ledger rows that a log writes, oldest first. -/
def ledgerEntries (L : List RowWrite) : List (IdempotencyKey × WalletTransaction) :=
  L.filterMap fun
    | .walletTransaction key (some row) => some (key, row)
    | _ => none

/-- The ledger rows of a wallet in the order of their commits, newest first. -/
def ledgerRows {Body : Type} (userId : Id) (h : List (Call Body × List RowWrite)) :
    List (IdempotencyKey × WalletTransaction) :=
  h.flatMap fun e => (ledgerEntries e.2).reverse.filter fun row => row.2.walletId = userId

/-- The balance of a wallet, 0 before it is created. -/
def balanceOf (D : Db) (userId : Id) : Int := ((D.wallets.lookup userId).map (·.balance)).getD 0

/-- Every row of a wallet tells the balance that the row before it told, moved by its amount. -/
def RunningBalance (rows : List (IdempotencyKey × WalletTransaction)) : Prop :=
  Ledger.Running (fun row => row.2.amount) (fun row => row.2.balanceAfter) rows

def IdempotencyKey.isConsumption : IdempotencyKey → Bool
  | .consumption _ => true
  | _ => false

/-- A transaction that confirms a consumption commits while its wallet has the balance
that the confirmation has read, in its last statement but one. -/
def CommitsAtReadBalance (L : List RowWrite) (reads : List Db) (D : Db) : Prop :=
  ∀ e ∈ ledgerEntries L, e.1.isConsumption = true →
    ∀ D₀ ∈ reads[1]?, balanceOf D₀ e.2.walletId = balanceOf D e.2.walletId

instance (L : List RowWrite) (reads : List Db) (D : Db) :
    Decidable (CommitsAtReadBalance L reads D) :=
  inferInstanceAs (Decidable (∀ e ∈ ledgerEntries L, e.1.isConsumption = true →
    ∀ D₀ ∈ reads[1]?, balanceOf D₀ e.2.walletId = balanceOf D e.2.walletId))

/-- The row of a consumption tells the balance that was read. -/
def TellsReadBalance (L : List RowWrite) (reads : List Db) : Prop :=
  ∀ e ∈ ledgerEntries L, e.1.isConsumption = true →
    ∃ D₀ ∈ reads[1]?, e.2.balanceAfter = balanceOf D₀ e.2.walletId

/-- What a commit does to the balances and the ledger. -/
inductive Booked {Body : Type} (c : Call Body) (D : Db) (L : List RowWrite) : Prop
  | nothing (hentries : ledgerEntries L = [])
      (hledger : (view L D).walletTransactions = D.walletTransactions)
      (hbalance : ∀ userId, balanceOf (view L D) userId = balanceOf D userId)
  | entry {key row} (hentries : ledgerEntries L = [(key, row)])
      (hfresh : D.walletTransactions.lookup key = none)
      (hledger : (view L D).walletTransactions = D.walletTransactions.write key (some row))
      (hbalance : ∀ userId, balanceOf (view L D) userId =
        balanceOf D userId + if row.walletId = userId then row.amount else 0)
      (hafter : row.balanceAfter = balanceOf (view L D) row.walletId ∨
        c.processes.isSome = true ∧ key.isConsumption = true ∧ row.amount = 0)

section Step

open WalletService ReadingsService

variable {Body : Type} {S : Deployment Body} {c : Call Body} {D : Db} {L : List RowWrite}

theorem balanceOf_of_lookup {userId : Id} {w : Wallet} (hw : D.wallets.lookup userId = some w) :
    balanceOf D userId = w.balance := by
  simp [balanceOf, hw]

/-- No wallet and no ledger row is written. -/
theorem Booked.still (hentries : ledgerEntries L = [])
    (hledger : (view L D).walletTransactions = D.walletTransactions)
    (hwallets : (view L D).wallets = D.wallets) : Booked c D L :=
  .nothing hentries hledger fun _ => by simp only [balanceOf, hwallets]

/-- A row with the balance that its movement leaves. -/
theorem Booked.move (key : IdempotencyKey) (row : WalletTransaction) (w : Wallet)
    (hentries : ledgerEntries L = [(key, row)]) (hfresh : D.walletTransactions.lookup key = none)
    (hledger : (view L D).walletTransactions = D.walletTransactions.write key (some row))
    (hwallets : (view L D).wallets = D.wallets.write row.walletId (some w))
    (hafter : row.balanceAfter = w.balance)
    (hmove : w.balance = balanceOf D row.walletId + row.amount) : Booked c D L := by
  have hbalance : ∀ userId, balanceOf (view L D) userId =
      balanceOf D userId + if row.walletId = userId then row.amount else 0 := by
    intro userId
    by_cases huser : userId = row.walletId
    · subst huser
      rw [if_pos rfl, ← hmove, balanceOf, hwallets]
      simp
    · rw [if_neg (Ne.symm huser), add_zero, balanceOf, hwallets, Table.lookup_write_of_ne _ _ huser]
      rfl
  refine .entry hentries hfresh hledger hbalance (.inl ?_)
  rw [hbalance, if_pos rfl, hafter, hmove]

theorem ledgerEntries_append (L L' : List RowWrite) : ledgerEntries (L ++ L') = ledgerEntries L ++ ledgerEntries L' :=
  List.filterMap_append

theorem ledgerEntries_drawWrites (readingId : Id) (draws : List (DrawEngine.TarotDraw TarotDeckCard)) :
    ledgerEntries (drawWrites readingId draws) = [] := by
  simp [ledgerEntries, drawWrites, List.filterMap_map]

theorem Submission.ledgerEntries_writes {userId readingId : Id} (s : Submission D userId readingId) :
    ledgerEntries s.writes = [(.reservation readingId,
      ⟨userId, .RESERVATION, -s.amount, s.wallet.balance - s.amount, some readingId, none⟩)] := by
  simp only [Submission.writes, submissionWrites, ledgerEntries_append, ledgerEntries_drawWrites]
  unfold Submission.amount
  cases s.unlocked <;> rfl

/-- Each change of the backend is booked. -/
theorem Effect.booked (he : Effect S c D L) : Booked c D L := by
  cases he with
  | @createWallet _ userId hw hk =>
      by_cases hb : 0 < S.walletInitialBonusCredits
      · refine .move (.bonus userId) ⟨userId, .BONUS, S.walletInitialBonusCredits,
          S.walletInitialBonusCredits, none, none⟩ ⟨S.walletInitialBonusCredits⟩ ?_ (hk hb) ?_ ?_
          rfl ?_ <;> simp [bonusWrites, hb, ledgerEntries, balanceOf, hw]
      · have hzero : S.walletInitialBonusCredits = 0 := by omega
        refine .nothing ?_ ?_ fun u => ?_
        · simp [bonusWrites, hb, ledgerEntries]
        · simp [bonusWrites, hb]
        · -- A wallet without bonus opens at the balance that it had before it was there.
          by_cases hu : u = userId
          · subst hu
            simp [bonusWrites, balanceOf, hzero, hw]
          · simp [bonusWrites, balanceOf, hzero, Table.lookup_write_of_ne _ _ hu]
  | @adjust _ userId amount _ _ uuid _ w hw hfunds hk =>
      exact .move (.adjustment uuid) ⟨userId, .ADJUSTMENT, amount, w.balance + amount, none, none⟩
        ⟨w.balance + amount⟩ rfl hk rfl rfl rfl (by rw [balanceOf_of_lookup hw])
  | @submit _ userId readingId s =>
      refine .move (.reservation readingId) ⟨userId, .RESERVATION, -s.amount,
        s.wallet.balance - s.amount, some readingId, none⟩ ⟨s.wallet.balance - s.amount⟩
        s.ledgerEntries_writes s.unrecorded ?_ ?_ rfl ?_
      · rw [s.view_writes]
      · rw [s.view_writes]
      · simp only [balanceOf_of_lookup s.wallet_mem, sub_eq_add_neg]
  | @confirm _ _ readingId res w balanceAfter hc hres hactive hw hk =>
      refine .entry rfl hk rfl (fun userId => ?_) (.inr ⟨by rw [hc]; rfl, rfl, rfl⟩)
      simp only [ite_self, add_zero]
      rfl
  | @release _ _ readingId res w hc hres hactive hw hk =>
      exact .move (.release readingId) ⟨res.walletId, .RELEASE, res.amount, w.balance + res.amount,
        some readingId, none⟩ ⟨w.balance + res.amount⟩ rfl hk rfl rfl rfl
        (by rw [balanceOf_of_lookup hw])
  | @approve _ _ s w hc happroved hw hk =>
      exact .move (.purchase s.payment.orderId) ⟨s.order.userId, .PURCHASE, s.order.credits,
        w.balance + s.order.credits, none, some s.payment.orderId⟩ ⟨w.balance + s.order.credits⟩
        rfl hk rfl rfl rfl (by rw [balanceOf_of_lookup hw])
  | close s hc hstatus hrejected => split <;> exact .still rfl rfl rfl
  | completeSession s hc =>
      refine .still ?_ (by rw [s.view_writes]) (by rw [s.view_writes])
      simp only [Completion.writes, RewardsService.completionWrites]
      split <;> rfl
  | _ => exact .still rfl rfl rfl

end Step

/-! ## What a confirmation tells -/

section Requests

open ReadingsService ReadingProcessing

variable {L : List RowWrite}

theorem tells_of_ledgerEntries_eq_nil (h : ledgerEntries L = []) (reads : List Db) :
    TellsReadBalance L reads := by
  intro e he
  rw [h] at he
  cases he

theorem recalls_select {α : Type} (f : Db → α) :
    (Proc.transaction (Tx.select f) : Request α).Recalls TellsReadBalance :=
  Proc.recalls_transaction (Tx.recalls_select fun _ => tells_of_ledgerEntries_eq_nil rfl _)

theorem WalletService.recalls_confirmConsumption (readingId : Id) :
    (Proc.transaction (confirmConsumption readingId) : Request Unit).Recalls TellsReadBalance := by
  apply Proc.recalls_transaction
  unfold confirmConsumption
  apply Tx.Recalls.bind
  refine Db.creditReservation.recalls_updateMany (fun D => ?_) fun D res _ _ => ?_
  · exact tells_of_ledgerEntries_eq_nil rfl _
  apply Tx.Recalls.bind
  refine Db.creditReservation.recalls_findUniqueOrThrow fun D₁ reservation _ => ?_
  apply Tx.Recalls.bind
  refine Db.wallet.recalls_findUniqueOrThrow fun D₂ wallet hwallet => ?_
  apply Tx.Recalls.bind
  refine Db.walletTransaction.recalls_create fun D₃ => ?_
  intro e he _
  obtain rfl : e = _ := by simpa [ledgerEntries] using he
  exact ⟨D₂, rfl, (balanceOf_of_lookup (by simpa using hwallet)).symm⟩

theorem WalletService.recalls_releaseReservation (readingId : Id) :
    (Proc.transaction (releaseReservation readingId) : Request Unit).Recalls TellsReadBalance := by
  apply Proc.recalls_transaction
  unfold releaseReservation
  apply Tx.Recalls.bind
  refine Db.creditReservation.recalls_updateMany (fun D => ?_) fun D res _ _ => ?_
  · exact tells_of_ledgerEntries_eq_nil rfl _
  apply Tx.Recalls.bind
  refine Db.creditReservation.recalls_findUniqueOrThrow fun D₁ reservation _ => ?_
  apply Tx.Recalls.bind
  refine Db.wallet.recalls_updateWithin fun D₂ wallet _ => ?_
  apply Tx.Recalls.bind
  refine Db.walletTransaction.recalls_create fun D₃ => ?_
  intro e he hkey
  obtain rfl : e = _ := by simpa [ledgerEntries] using he
  cases hkey

theorem recalls_setStatus (readingId : Id) (status : ReadingStatus) :
    (Proc.transaction (setStatus readingId status) : Request Unit).Recalls TellsReadBalance := by
  apply Proc.recalls_transaction
  apply Tx.Recalls.bind
  exact Db.reading.recalls_update fun D r _ => tells_of_ledgerEntries_eq_nil rfl _

theorem recalls_addJob (jobId : String) (job : ReadingJob) :
    (Proc.transaction (addJob jobId job) : Request Unit).Recalls TellsReadBalance := by
  apply Proc.recalls_transaction
  apply Tx.Recalls.bind
  exact Db.readingJob.recalls_upsert fun D job' => tells_of_ledgerEntries_eq_nil rfl _

theorem recalls_findOneForUser (userId readingId : Id) :
    (findOneForUser userId readingId).Recalls TellsReadBalance := by
  refine (recalls_select _).bind fun reading => ?_
  cases reading <;> trivial

theorem recalls_performRetry (readingId : Id) (reading : Reading) (service : Service) :
    (performRetry readingId reading service).Recalls TellsReadBalance := by
  unfold performRetry
  by_cases hfailed : reading.status = .FAILED
  · simp only [hfailed, ne_eq, not_true_eq_false, if_false]
    refine (recalls_setStatus readingId .PENDING).bind fun _ => ?_
    refine (Proc.recalls_call _).bind fun uuid => ?_
    split <;> exact recalls_addJob _ _
  · simp only [hfailed, ne_eq, not_false_eq_true, if_true]
    trivial

/-- The reading of a retry and its service are only read. -/
theorem recalls_withService {read : TxM (Option Reading)}
    (h : ∀ {P}, (∀ reading reads, P reading [] reads) → read.Recalls P [] []) :
    (Proc.transaction (withService read) : Request _).Recalls TellsReadBalance := by
  apply Proc.recalls_transaction
  apply Tx.Recalls.bind
  refine h fun reading reads => ?_
  cases reading with
  | none => exact tells_of_ledgerEntries_eq_nil rfl reads
  | some reading =>
      apply Tx.Recalls.bind
      exact Tx.recalls_selectOrThrow fun D service _ => tells_of_ledgerEntries_eq_nil rfl _

theorem recalls_retry (userId readingId : Id) :
    (retry userId readingId).Recalls TellsReadBalance := by
  refine Proc.Recalls.bind (recalls_withService fun hP => Tx.recalls_select fun _ => hP _ _) ?_
  rintro (_ | ⟨reading, service⟩)
  · trivial
  · exact (recalls_performRetry readingId reading service).bind fun _ =>
      recalls_findOneForUser userId readingId

theorem recalls_retryAsAdmin (readingId : Id) :
    (retryAsAdmin readingId).Recalls TellsReadBalance := by
  refine Proc.Recalls.bind (recalls_withService fun hP => Tx.recalls_select fun _ => hP _ _) ?_
  rintro (_ | ⟨reading, service⟩)
  · trivial
  · exact (recalls_performRetry readingId reading service).bind fun _ =>
      recalls_findOneForUser reading.userId readingId

theorem recalls_interpret (readingId : Id) (input : AIOrchestratorExecuteInput) :
    (interpret readingId input).Recalls TellsReadBalance := by
  refine (Proc.recalls_call _).bind fun result => ?_
  unfold closeReading
  have hwrite : ∀ status, (writeResult readingId input.promptVersionId status).Recalls
      TellsReadBalance := fun status => Proc.recalls_transaction
    (Tx.Recalls.bind (Db.reading.recalls_update fun D r _ => tells_of_ledgerEntries_eq_nil rfl _))
  split
  · exact (WalletService.recalls_confirmConsumption readingId).bind fun _ => hwrite _
  · exact (WalletService.recalls_releaseReservation readingId).bind fun _ => hwrite _

theorem recalls_downloadImages (images : List PalmImage) :
    (downloadImages images).Recalls TellsReadBalance := by
  induction images with
  | nil => trivial
  | cons image images ih =>
      exact (Proc.recalls_call _).bind fun bytes => ih.bind fun rest => trivial

theorem recalls_process (job : ReadingJob) : (process job).Recalls TellsReadBalance := by
  unfold process
  split
  · refine (recalls_select _).bind ?_
    rintro (_ | row)
    · trivial
    simp only
    split
    · trivial
    refine (recalls_setStatus job.readingId .PROCESSING).bind fun _ => ?_
    refine (Proc.recalls_call _).bind fun version => ?_
    exact (Proc.recalls_ofExcept version).bind fun promptVersionId => recalls_interpret _ _
  · refine (recalls_select _).bind ?_
    rintro (_ | ⟨reading, images⟩)
    · trivial
    simp only
    split
    · trivial
    refine (recalls_setStatus job.readingId .PROCESSING).bind fun _ => ?_
    refine (Proc.recalls_call _).bind fun version => ?_
    refine (Proc.recalls_ofExcept version).bind fun promptVersionId => ?_
    exact (recalls_downloadImages images).bind fun _ => recalls_interpret _ _

theorem recalls_onFailed (readingId : Id) (attemptsMade : Nat) :
    (onFailed readingId attemptsMade).Recalls TellsReadBalance := by
  unfold onFailed
  split
  · trivial
  refine (WalletService.recalls_releaseReservation readingId).bind fun _ => ?_
  apply Proc.recalls_transaction
  apply Tx.Recalls.bind
  exact Db.reading.recalls_updateMany (fun D => tells_of_ledgerEntries_eq_nil rfl _)
    fun D r _ _ => tells_of_ledgerEntries_eq_nil rfl _

/-- Only the calls that close readings confirm consumptions. -/
theorem Call.recalls {Body : Type} (S : Deployment Body) (c : Call Body) :
    (c.prog S).Recalls fun L reads => c.processes.isSome = true → TellsReadBalance L reads := by
  cases c with
  | retry userId readingId =>
      exact ((recalls_retry userId readingId).mono fun _ _ h _ => h).bind fun _ => trivial
  | retryAsAdmin readingId =>
      exact ((recalls_retryAsAdmin readingId).mono fun _ _ h _ => h).bind fun _ => trivial
  | confirmConsumption readingId =>
      exact (WalletService.recalls_confirmConsumption readingId).mono fun _ _ h _ => h
  | releaseReservation readingId =>
      exact (WalletService.recalls_releaseReservation readingId).mono fun _ _ h _ => h
  | process job => exact (recalls_process job).mono fun _ _ h _ => h
  | onFailed readingId attemptsMade =>
      exact (recalls_onFailed readingId attemptsMade).mono fun _ _ h _ => h
  | _ => exact Proc.recalls_of_forall (fun _ _ h => by cases h) _

end Requests

section Runs

variable {Body : Type} {S : Deployment Body} {D : Db}

/-- The rows of a wallet are those of its ledger, they run to its balance, and each
continues the row before it. -/
structure Continued (userId : Id) (h : List (Call Body × List RowWrite)) (D : Db) : Prop where
  running : RunningBalance (ledgerRows userId h)
  last : Ledger.lastAfter (fun row => row.2.balanceAfter) (ledgerRows userId h) = balanceOf D userId
  listed : ∀ key row, (key, row) ∈ ledgerRows userId h ↔
    D.walletTransactions.lookup key = some row ∧ row.walletId = userId

theorem Continued.step {userId : Id} {h : List (Call Body × List RowWrite)} {c : Call Body}
    {L : List RowWrite} (hold : Continued userId h D) (hbooked : Booked c D L) {reads : List Db}
    (htells : c.processes.isSome = true → TellsReadBalance L reads)
    (hok : CommitsAtReadBalance L reads D) : Continued userId ((c, L) :: h) (view L D) := by
  cases hbooked with
  | nothing hentries hledger hbalance =>
      have hrows : ledgerRows userId ((c, L) :: h) = ledgerRows userId h := by
        simp [ledgerRows, hentries]
      exact ⟨hrows ▸ hold.running, by rw [hrows, hbalance, hold.last],
        fun key row => by rw [hrows, hledger, hold.listed]⟩
  | @entry key row hentries hfresh hledger hbalance hafter =>
      have hrows : ledgerRows userId ((c, L) :: h) =
          (if row.walletId = userId then [(key, row)] else []) ++ ledgerRows userId h := by
        by_cases hrow : row.walletId = userId <;> simp [ledgerRows, hentries, hrow]
      have hlisted : ∀ key' row', (key', row') ∈ ledgerRows userId ((c, L) :: h) ↔
          (view L D).walletTransactions.lookup key' = some row' ∧ row'.walletId = userId := by
        intro key' row'
        rw [hrows, List.mem_append, hold.listed, hledger]
        by_cases hkey : key' = key
        · subst hkey
          by_cases hrow : row.walletId = userId
          · simp only [hfresh, if_pos hrow, Table.lookup_write_self, List.mem_singleton,
              Prod.mk.injEq, true_and, reduceCtorEq, false_and, or_false, Option.some.injEq]
            exact ⟨fun heq => ⟨heq.symm, heq ▸ hrow⟩, fun heq => heq.1.symm⟩
          · simp only [hfresh, if_neg hrow, Table.lookup_write_self, List.not_mem_nil, false_or,
              reduceCtorEq, false_and, Option.some.injEq, false_iff, not_and]
            rintro rfl
            exact hrow
        · rw [Table.lookup_write_of_ne _ _ hkey]
          by_cases hrow : row.walletId = userId <;> simp [hrow, hkey]
      by_cases hrow : row.walletId = userId
      · -- A row of this wallet tells the balance that it leaves.
        have hnew : row.balanceAfter = balanceOf D userId + row.amount := by
          rcases hafter with hafter | ⟨hcloses, hkey, hzero⟩
          · rw [hafter, hbalance, if_pos rfl, hrow]
          · have hmem : (key, row) ∈ ledgerEntries L := by simp [hentries]
            obtain ⟨D₀, hD₀, hread⟩ := htells hcloses _ hmem hkey
            rw [hread, hok _ hmem hkey D₀ hD₀, hzero, add_zero, hrow]
        rw [if_pos hrow, List.singleton_append] at hrows
        refine ⟨hrows ▸ ⟨?_, hold.running⟩, ?_, hlisted⟩
        · rw [hold.last]
          exact hnew
        · rw [hrows, hbalance, if_pos hrow]
          exact hnew
      · rw [if_neg hrow, List.nil_append] at hrows
        refine ⟨hrows ▸ hold.running, ?_, hlisted⟩
        rw [hrows, hold.last, hbalance, if_neg hrow, add_zero]

/-- In every run in which each confirmation commits at the balance that it has read: the
rows that commits have entered for a wallet, newest first, are its rows of the ledger, and
the balance of each is that of the row before it, 0 before the first one, moved by its
own amount. -/
theorem running_balance_exact (S : Deployment Body) (D : Db) (hD : PaymentsBelong D)
    (hwallets : D.wallets = ∅) (hledger : D.walletTransactions = ∅) (s : BackendServer Body)
    (seen : Nat → List Db) (run : Server.Recorded (backend S) (fun c => c.removes = none)
      CommitsAtReadBalance D s seen) (userId : Id) :
    RunningBalance (ledgerRows userId s.history) ∧
      ∀ key row, (key, row) ∈ ledgerRows userId s.history ↔
        s.db.walletTransactions.lookup key = some row ∧ row.walletId = userId := by
  have hpath := run.path (fun s run => reach_commits (fun _ hc => hc) hD run)
    fun c _ => Call.recalls S c
  have hcontinued : Continued userId s.history s.db := by
    generalize s.history = h, s.db = D' at hpath
    induction hpath with
    | nil =>
        refine ⟨trivial, ?_, fun key row => ?_⟩
        · simp [ledgerRows, Ledger.lastAfter, balanceOf, hwallets]
        · simp [ledgerRows, hledger]
    | cons tail he ih =>
        obtain ⟨⟨-, heffect⟩, reads, htells, hok⟩ := he
        exact ih.step heffect.booked htells hok
  exact ⟨hcontinued.running, hcontinued.listed⟩

end Runs

/-- A reading ready to be submitted, before its owner has a wallet. -/
def unopenedDb : Db := { sampleDb with wallets := ∅ }

/-- The schedule up to the read of the wallet by a confirmation. -/
def confirmSchedule : List (Move (Call ParsedWebhook) Answer) :=
  [.spawn 0 (.createWalletWithBonus "ana"), .start 0, .exec 0, .exec 0, .commit 0] ++
  submitSchedule 1 "ana" "r1" ++
  [.spawn 2 (.confirmConsumption "r1"), .start 2, .exec 2, .exec 2, .exec 2]

theorem running_balance_exact_of_confirmation : ∃ s : BackendServer ParsedWebhook,
    (ledgerRows "ana" s.history).map (fun row => (row.2.amount, row.2.balanceAfter)) =
      [(10, 11), (0, 1), (-2, 1), (3, 3)] ∧ RunningBalance (ledgerRows "ana" s.history) := by
  have confirmed : ∃ (s : BackendServer ParsedWebhook) (seen : Nat → List Db),
      (Server.idle unopenedDb).runRecorded (backend sampleDeployment) CommitsAtReadBalance
        (fun _ => []) (confirmSchedule ++ [.exec 2, .commit 2] ++ adjustSchedule 3) =
          some (s, seen) ∧
      (ledgerRows "ana" s.history).map (fun row => (row.2.amount, row.2.balanceAfter)) =
        [(10, 11), (0, 1), (-2, 1), (3, 3)] :=
    ⟨_, _, rfl, rfl⟩
  obtain ⟨s, seen, hrun, hrows⟩ := confirmed
  have run : Server.Recorded (backend sampleDeployment) (fun c => c.removes = none)
      CommitsAtReadBalance unopenedDb s seen :=
    Server.Recorded.idle.run _ (by
      simp [confirmSchedule, adjustSchedule, submitSchedule, Move.Admissible, Call.removes,
        backend, Deployment.answers]) hrun
  exact ⟨s, hrows, (running_balance_exact sampleDeployment unopenedDb (.of_empty rfl) rfl rfl s seen
    run "ana").1⟩

/-- An adjustment commits between the read of a confirmation and its commit: the row of the
confirmation tells the balance before the adjustment, after the row of the adjustment. -/
theorem confirmation_tells_stale_balance : ∃ s : BackendServer ParsedWebhook,
    Server.Reach (backend sampleDeployment) (fun c => c.removes = none) (.idle unopenedDb) s ∧
      (ledgerRows "ana" s.history).map (fun row => (row.2.amount, row.2.balanceAfter)) =
        [(0, 1), (10, 11), (-2, 1), (3, 3)] ∧ ¬ RunningBalance (ledgerRows "ana" s.history) := by
  refine ⟨_, Server.Reach.refl.run (confirmSchedule ++ adjustSchedule 3 ++ [.exec 2, .commit 2]) (by
    simp [confirmSchedule, adjustSchedule, submitSchedule, Move.Admissible, Call.removes,
      backend, Deployment.answers]) rfl, rfl, ?_⟩
  rintro ⟨hrow, -⟩
  exact absurd hrow (by decide)

end TaroTria
