import TaroTria.Backend.Refinement
import TaroTria.Transactions.Ledger

/-!
# Balances and the ledger

Every wallet is non-negative and equals the sum of its ledger rows in every
committed state.
-/

namespace TaroTria

open Transactions

/-- The sum of `amount` over the ledger rows of a wallet. -/
def ledgerSum (D : Db) (userId : Id) : Int :=
  Ledger.total WalletTransaction.walletId WalletTransaction.amount D.walletTransactions userId

/-- The wallets and the ledger of a database are reconciled. -/
def Db.Reconciled (D : Db) : Prop :=
  Ledger.Reconciled Wallet.balance WalletTransaction.walletId WalletTransaction.amount D.wallets
    D.walletTransactions

section Step

open WalletService ReadingsService

variable {Body : Type} {S : Deployment Body} {c : Call Body} {D : Db} {L : List RowWrite}

/-- Each change pairs a movement of a balance with one row of the same amount. -/
theorem Effect.reconciled (he : Effect S c D L) (h : D.Reconciled) : (view L D).Reconciled := by
  cases he with
  | @createWallet _ userId hw hk =>
      unfold bonusWrites
      split
      · rename_i hb
        exact h.openWith
          ⟨userId, .BONUS, S.walletInitialBonusCredits, S.walletInitialBonusCredits, none, none⟩
          ⟨S.walletInitialBonusCredits⟩ hw (hk hb) rfl (Int.natCast_nonneg _)
      · rename_i hb
        exact h.openAccount hw (by simpa using hb)
  | @adjust _ userId amount _ _ _ _ w hw hfunds hk =>
      have hnonneg := h.nonneg userId w hw
      exact h.move ⟨userId, .ADJUSTMENT, amount, w.balance + amount, none, none⟩
        ⟨w.balance + amount⟩ hk hw rfl (by simp only; omega)
  | @submit _ userId readingId s =>
      have hfunds := s.funds
      rw [s.view_writes]
      exact h.move
        ⟨userId, .RESERVATION, -s.amount, s.wallet.balance - s.amount, some readingId, none⟩
        ⟨s.wallet.balance - s.amount⟩ s.unrecorded s.wallet_mem rfl
        (by simp only [Submission.amount]; omega)
  | @confirm _ _ readingId res w balanceAfter hc hres hactive hw hk =>
      exact h.note ⟨res.walletId, .CONSUMPTION, 0, balanceAfter, some readingId, none⟩ hk hw rfl
  | @release _ _ readingId res w hc hres hactive hw hk =>
      have hnonneg := h.nonneg res.walletId w hw
      exact h.move ⟨res.walletId, .RELEASE, res.amount, w.balance + res.amount, some readingId, none⟩
        ⟨w.balance + res.amount⟩ hk hw rfl (by simp only; omega)
  | @approve _ _ s w hc happroved hw hk =>
      have hnonneg := h.nonneg _ w hw
      exact h.move ⟨s.order.userId, .PURCHASE, s.order.credits, w.balance + s.order.credits, none,
          some s.payment.orderId⟩
        ⟨w.balance + s.order.credits⟩ hk hw rfl (by simp only; omega)
  | close s hc hstatus hrejected => split <;> exact h
  | createReading hr ho hdraft => exact h
  | setReading hc hr hsame hstatus => exact h
  | enqueue hc => exact h
  | createOrder ho hpkg => exact h
  | createDiscountedOrder ho hoffer hclock hactive hpkg => exact h
  | createPayment hk ho => exact h
  | recordDelivery hk => exact h
  | openSession hk ho htype hcreated => exact h
  | logEvent hc => exact h
  | expireSession hc hsession hopen => exact h
  | completeSession s hc =>
      rw [s.view_writes]
      exact h
  | unlockDailyCard hcount henough => exact h

end Step

variable {Body : Type}

/-- Every wallet, in every committed state of every run that starts without
wallets and ledger rows: the balance is not negative and is the sum of the
wallet's ledger rows. -/
theorem balance_eq_ledgerSum (S : Deployment Body) (D : Db) (hD : PaymentsBelong D)
    (hwallets : D.wallets = ∅) (hledger : D.walletTransactions = ∅) (s : BackendServer Body)
    (run : Server.Reach (backend S) (fun c => c.removes = none) (.idle D) s) (userId : Id)
    (w : Wallet) (hw : s.db.wallets.lookup userId = some w) :
    0 ≤ w.balance ∧ w.balance = ledgerSum s.db userId := by
  have h₀ : D.Reconciled := by
    unfold Db.Reconciled
    rw [hwallets, hledger]
    exact Ledger.reconciled_empty
  have h : s.db.Reconciled := (reach_commits (fun _ hc => hc) hD run).invariant Db.Reconciled h₀
    fun c D' L hD' he => he.2.reconciled hD'
  exact ⟨h.nonneg userId w hw, h.exact userId w hw⟩

theorem balance_eq_ledgerSum_of_purchase : ∃ s : BackendServer ParsedWebhook,
    s.db.wallets.lookup "ana" = some ⟨11⟩ ∧ (0 : Int) ≤ 11 ∧ 11 = ledgerSum s.db "ana" := by
  obtain ⟨s, run, hwallet, -⟩ := reach_opening
  exact ⟨s, hwallet, balance_eq_ledgerSum sampleDeployment openingDb (.of_empty rfl) rfl rfl s run
    "ana" _ hwallet⟩

end TaroTria
