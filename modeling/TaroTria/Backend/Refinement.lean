import TaroTria.Backend.ReadingCalls
import TaroTria.Backend.RewardCalls

/-!
# The backend follows its changes

The requests of wallets, orders and payments, and the theorem that every run of
the backend moves along a path of the changes of `Effect`.
-/

namespace TaroTria

open Transactions

namespace OrdersService
variable {Body : Type} {S : Deployment Body} {c : Call Body} {D : Db}

theorem safe_create {userId : Id} {packageCode : String} :
    (create userId packageCode).Safe (discipline S) S.answers (.createOrder userId packageCode)
      (fun _ _ => True) D := by
  unfold create findActiveByCode
  apply Proc.Safe.bind
  apply Proc.Safe.bind
  apply safe_read
  · intros; trivial
  intro D₀ D₁ hD₀ _
  simp only
  split
  · rename_i pkg hfound
    simp only [Option.filter_eq_some_iff] at hfound
    intro D₂ hD₂
    simp only
    apply Proc.Safe.bind
    apply safe_call
    · intros; trivial
    intro orderId _ D₃ hD₃
    apply Proc.Safe.bind
    apply safe_call
    · intros; trivial
    intro readAt hclock D₄ hD₄
    apply Proc.Safe.bind
    apply safe_call
    · intros; trivial
    intro consumedAt _ D₅ hD₅
    apply safe_commit
    · intros; trivial
    intro D₆ hD₆
    have hpkg : D₆.creditPackages.lookup packageCode = some pkg := by
      rw [(hD₀.trans (hD₂.trans (hD₃.trans (hD₄.trans (hD₅.trans hD₆))))).creditPackages, hfound.1]
    apply wp_createTx
    · intro ho _
      exact .createOrder ho hpkg
    · intro offerId D₀ seen offer hD₀ hseen hactive hoffer hunused ho _
      obtain ⟨offer', hoffer', huser, hcode, hpercent, hexpires⟩ :=
        hD₀.mono.offers offerId seen hseen
      obtain rfl : offer' = offer := Option.some.inj (hoffer'.symm.trans hoffer)
      have hactive' : isActiveOffer userId packageCode readAt offer' = true := by
        simp only [isActiveOffer, Bool.and_eq_true, decide_eq_true_eq] at hactive ⊢
        rw [huser, hcode, hexpires]
        exact ⟨⟨hactive.1.1, hunused⟩, hactive.2⟩
      rw [← hpercent]
      exact .createDiscountedOrder ho hoffer hclock hactive' hpkg
  · exact fun _ _ => trivial

end OrdersService

namespace PaymentsService
variable {Body : Type} {S : Deployment Body} {c : Call Body} {D : Db}

theorem safe_createCheckoutIntent {userId orderId : Id} :
    (createCheckoutIntent S.provider S.appUrl userId orderId).Safe (discipline S) S.answers
      (.createCheckoutIntent userId orderId) (fun _ _ => True) D := by
  unfold createCheckoutIntent
  apply Proc.Safe.bind
  apply safe_read
  · intros; trivial
  intro D₀ D₁ hD₀ _
  simp only
  split
  · rename_i order horder
    simp [Option.filter_eq_some_iff] at horder
    split
    · exact fun _ _ => trivial
    apply Proc.Safe.bind
    apply safe_call
    · intros; trivial
    intro uuid _ D₂ hD₂
    apply Proc.Safe.bind
    apply safe_call
    · intros; trivial
    intro now _ D₃ hD₃
    apply Proc.Safe.bind
    apply safe_commit
    · rintro (e | _) D₄ _
      · trivial
      · exact fun _ _ => trivial
    intro D₄ hD₄
    apply Db.payment.wp_create
    intro hk _
    obtain ⟨order', horder', -, -, hprice, hcurrency, -⟩ :=
      (hD₀.trans (hD₂.trans (hD₃.trans hD₄))).orders orderId order horder.1
    rw [← hprice, ← hcurrency]
    exact .createPayment hk horder'
  · exact fun _ _ => trivial

theorem safe_applyTransaction {key : String × String} {payment : Payment}
    {transaction : TransactionResult} {D₀ : Db} (hc : c.settles = true) (hD₀ : Mono D₀ D)
    (hpayment : D₀.payments.lookup key = some payment)
    (hkey : key = (S.provider.name, transaction.reference))
    (hreported : S.provider.Reported transaction) :
    (applyTransaction key payment transaction).Safe (discipline S) S.answers c
      (fun _ _ => True) D := by
  -- What the settling transaction finds in the database it commits to.
  have found : ∀ {D' : Db} {p : Payment} {o : Order}, Mono D D' →
      payment.amountCents = transaction.amountInCents →
      payment.currency = transaction.currency → D'.payments.lookup key = some p →
      p.status = .PENDING → D'.orders.lookup payment.orderId = some o →
      ∃ s : Settlement S.provider D', s.key = key ∧ s.payment = p ∧ s.transaction = transaction ∧
        s.order = o ∧ p.orderId = payment.orderId := by
    intro D' p o hD' hamount hcurrency hp hpending ho
    obtain ⟨p', hp', hid, ha, hcur⟩ := (hD₀.trans hD').payments key payment hpayment
    obtain rfl : p' = p := Option.some.inj (hp'.symm.trans hp)
    exact ⟨{ key, payment := p', transaction, order := o, payment_mem := hp, pending := hpending
             reported := hreported, reference := hkey, amount := ha.trans hamount
             currency := hcur.trans hcurrency, order_mem := hid ▸ ho },
           rfl, rfl, rfl, rfl, hid⟩
  unfold applyTransaction
  split
  · exact fun _ _ => trivial
  · rename_i hsame
    simp only [ne_eq, not_or, Decidable.not_not] at hsame
    split
    · exact fun _ _ => trivial
    · rename_i hstatus
      apply safe_commit
      · intros; trivial
      intro D' hD'
      apply wp_approvePaymentTx
      · exact fun h => absurd rfl h
      · intro p D₁ seen o w hD₁ hseen hp hpending ho hw hk hfits _
        obtain ⟨s, rfl, rfl, rfl, rfl, hid⟩ := found hD' hsame.1 hsame.2 hp hpending ho
        obtain ⟨o', ho', huser, hcredits, -⟩ := hD₁.mono.orders payment.orderId seen hseen
        obtain rfl : o' = s.order := Option.some.inj (ho'.symm.trans ho)
        rw [← huser] at hw ⊢
        rw [← hid] at hk ⊢
        rw [← hcredits] at hfits ⊢
        have happroved : s.transaction.status = .APPROVED := by
          cases ht : s.transaction.status <;> simp [TERMINAL_STATUS_MAP, ht] at hstatus ⊢
        exact .approve s hc happroved hw hk hfits
    · rename_i status hne hstatus
      apply safe_commit
      · intros; trivial
      intro D' hD'
      apply wp_markPaymentTerminalTx
      · exact fun h => absurd rfl h
      · intro p D₁ hp hpending hD₁ hclosed _
        -- The payment row is locked, so its order was there when its status was read.
        have hp₁ : D₁.payments.lookup key = some p :=
          (hD₁.agreeOn _ List.mem_cons_self).trans hp
        obtain ⟨o₁, ho₁⟩ := hD₁.inv key p hp₁
        have hid : p.orderId = payment.orderId := by
          obtain ⟨p', hp', hid, -⟩ := (hD₀.trans hD').payments key payment hpayment
          obtain rfl : p' = p := Option.some.inj (hp'.symm.trans hp)
          exact hid
        rw [hid] at ho₁
        obtain ⟨o, ho, -, -, -, -, hstays⟩ := hD₁.mono.orders payment.orderId o₁ ho₁
        have hnot : o.status ≠ .PENDING := hstays (hclosed o₁ ho₁)
        obtain ⟨s, rfl, rfl, rfl, rfl, -⟩ := found hD' hsame.1 hsame.2 hp hpending ho
        have := Effect.close s hc hstatus (by simpa using hne)
        simpa [hnot, Settlement.paymentWrite] using this
      · intro p o hp hpending ho hopen _
        obtain ⟨s, rfl, rfl, rfl, rfl, hid⟩ := found hD' hsame.1 hsame.2 hp hpending ho
        have := Effect.close s hc hstatus (by simpa using hne)
        simpa [hopen, hid, Settlement.paymentWrite] using this

theorem safe_recordDelivery {rawBody : Body} {eventId : String} {eventType : TransactionStatus}
    {P : Except Err Bool → Db → Prop} (hP : ∀ r D', Mono D D' → P r D') :
    (recordDelivery S.provider eventId eventType).Safe (discipline S) S.answers
      (.handleWebhook rawBody) P D := by
  unfold recordDelivery
  apply Proc.Safe.handle
  apply Proc.Safe.bind
  apply safe_commit
  · intro r D' hD'
    cases r with
    | ok _ => exact fun D'' hD'' => hP _ D'' (hD'.trans hD'')
    | error e =>
        simp only
        split
        · exact fun D'' hD'' => hP _ D'' (hD'.trans hD'')
        · exact fun D'' hD'' => hP _ D'' (hD'.trans hD'')
  · intro D' _
    apply Db.webhookEvent.wp_create
    intro hk _
    exact .recordDelivery hk

theorem safe_handleWebhook {rawBody : Body} :
    (handleWebhook S.provider rawBody).Safe (discipline S) S.answers (.handleWebhook rawBody)
      (fun _ _ => True) D := by
  unfold handleWebhook
  split
  · rename_i eventId transaction hparsed
    apply Proc.Safe.bind
    apply safe_recordDelivery
    rintro (e | isNew) D₁ _
    · trivial
    cases isNew with
    | false => exact fun _ _ => trivial
    | true =>
        apply Proc.Safe.bind
        apply safe_read
        · intros; trivial
        intro D₀ D₂ hD₀ _
        cases hpayment : Db.payment.find D₀ (S.provider.name, transaction.reference) with
        | none => exact fun _ _ => trivial
        | some payment =>
            exact safe_applyTransaction rfl hD₀ hpayment rfl (.inl ⟨rawBody, eventId, hparsed⟩)
  · exact fun _ _ => trivial

theorem safe_confirmFromReturn {userId orderId : Id} {providerTransactionId : String} :
    (confirmFromReturn S.provider userId orderId providerTransactionId).Safe (discipline S)
      S.answers (.confirmFromReturn userId orderId providerTransactionId) (fun _ _ => True) D := by
  unfold confirmFromReturn
  apply Proc.Safe.bind
  apply safe_read
  · intros; trivial
  intro _ D₁ _ _
  simp only
  split
  · apply Proc.Safe.bind
    apply safe_read
    · intros; trivial
    intro D₀ D₂ hD₀ _
    simp only
    split
    · rename_i key payment hnewest
      have hpayment := (Table.mem_findMany _ _ _ _).mp (newest_mem hnewest)
      apply Proc.Safe.bind
      apply safe_call
      · intros; trivial
      intro answer hanswer D₃ hD₃
      cases answer with
      | none => exact fun _ _ => trivial
      | some transaction =>
          simp only
          split
          · exact fun _ _ => trivial
          · rename_i hreference
            simp only [ne_eq, Decidable.not_not] at hreference
            have hname : key.1 = S.provider.name := by
              have := hpayment.2
              simp only [Bool.and_eq_true, decide_eq_true_eq] at this
              exact this.1.2
            exact safe_applyTransaction rfl (hD₀.trans hD₃) hpayment.1
              (Prod.ext hname hreference.symm) (.inr ⟨providerTransactionId, hanswer⟩)
    · exact fun _ _ => trivial
  · exact fun _ _ => trivial

end PaymentsService

/-- A call drops the value of its service. -/
theorem safe_discard {Body α : Type} {S : Deployment Body} {c : Call Body} {D : Db}
    {p : Request α} (h : p.Safe (discipline S) S.answers c (fun _ _ => True) D) :
    (do let _ ← p : Request Unit).Safe (discipline S) S.answers c (fun _ _ => True) D := by
  apply Proc.Safe.bind
  refine h.mono fun r D' _ => ?_
  cases r with
  | ok _ => exact fun _ _ => trivial
  | error e => trivial

theorem WalletService.safe_adjustBalance {Body : Type} {S : Deployment Body} {D : Db} {userId : Id}
    {amount : Int} {reason : String} {actorUserId : Id} :
    (adjustBalance userId amount reason actorUserId).Safe (discipline S) S.answers
      (.adjustBalance userId amount reason actorUserId) (fun _ _ => True) D := by
  unfold adjustBalance
  by_cases hzero : amount = 0
  · simp only [hzero, if_true]
    exact fun _ _ => trivial
  · simp only [hzero, if_false]
    apply Proc.Safe.bind
    apply safe_call
    · intros; trivial
    intro uuid _ D₁ _
    apply Proc.Safe.bind
    apply safe_call
    · intros; trivial
    intro auditId _ D₂ _
    apply safe_commit
    · intros; trivial
    intro D₃ _
    apply wp_adjustBalanceTx
    intro w hw hfunds hk hfits _
    exact .adjust hw hfunds hk hfits

theorem WalletService.safe_createWalletWithBonus {Body : Type} {S : Deployment Body} {D : Db}
    {userId : Id} :
    (Proc.transaction (createWalletWithBonus userId S.walletInitialBonusCredits)).Safe
      (discipline S) S.answers (.createWalletWithBonus userId) (fun _ _ => True) D := by
  apply safe_commit
  · intros; trivial
  intro D₁ _
  apply wp_createWalletWithBonus
  intro hw hk _
  exact .createWallet hw hk

/-- Every call but the removal of a reading commits only its own changes. -/
theorem prog_safe {Body : Type} (S : Deployment Body) (c : Call Body) (hc : c.removes = none)
    (D : Db) : (c.prog S).Safe (discipline S) S.answers c (fun _ _ => True) D := by
  cases c with
  | createWalletWithBonus userId => exact WalletService.safe_createWalletWithBonus
  | adjustBalance userId amount reason actorUserId =>
      exact safe_discard WalletService.safe_adjustBalance
  | createReading userId serviceCode => exact safe_discard ReadingsService.safe_create
  | submit userId readingId => exact safe_discard ReadingsService.safe_submit
  | remove userId readingId => cases hc
  | retry userId readingId => exact safe_discard ReadingsService.safe_retry
  | retryAsAdmin readingId => exact safe_discard ReadingsService.safe_retryAsAdmin
  | confirmConsumption readingId =>
      exact ReadingProcessing.safe_confirmConsumption rfl fun _ _ => trivial
  | releaseReservation readingId =>
      exact ReadingProcessing.safe_releaseReservation rfl fun _ _ => trivial
  | process job => exact ReadingProcessing.safe_process
  | onFailed readingId attemptsMade => exact ReadingProcessing.safe_onFailed
  | createOrder userId packageCode => exact safe_discard OrdersService.safe_create
  | createCheckoutIntent userId orderId =>
      exact safe_discard PaymentsService.safe_createCheckoutIntent
  | handleWebhook rawBody => exact PaymentsService.safe_handleWebhook
  | confirmFromReturn userId orderId providerTransactionId =>
      exact PaymentsService.safe_confirmFromReturn
  | createSession userId rewardType => exact safe_discard RewardsService.safe_createSession
  | processProviderCallback providerName rawParams =>
      exact safe_discard (RewardsService.safe_processProviderCallback rfl)
  | simulateStubCompletion userId sessionId =>
      exact safe_discard RewardsService.safe_simulateStubCompletion
  | getTodaysCard userId => exact safe_discard DailyCardService.safe_getTodaysCard

/-- What a run does from a state that an earlier run has reached. -/
theorem reach_commits_from {Body : Type} {S : Deployment Body} {calls : Call Body → Prop}
    (hcalls : ∀ c, calls c → c.removes = none) {D : Db} (hD : PaymentsBelong D)
    {s s' : BackendServer Body} (run : Server.Reach (backend S) calls (.idle D) s)
    (run' : Server.Reach (backend S) calls s s') :
    ∃ hist, s'.history = hist ++ s.history ∧
      Path ((discipline S).Permits calls) s.db hist s'.db := by
  have hI : (discipline S).Inv (Server.idle D : BackendServer Body).db := hD
  have hS := fun c hc D' (_ : PaymentsBelong D') => prog_safe S c (hcalls c hc) D'
  obtain ⟨hsound, _, -, hpath⟩ := Server.reach_path hS hI (Server.sound_idle D) run
  exact (Server.reach_path hS ((discipline S).inv_mono ((discipline S).path_mono hpath) hI)
    hsound run').2

/-- The committed rows of every run without removals move along a path of the
listed changes, each made by one of the calls that were started. -/
theorem reach_commits {Body : Type} {S : Deployment Body} {calls : Call Body → Prop}
    (hcalls : ∀ c, calls c → c.removes = none) {D : Db} (hD : PaymentsBelong D)
    {s : BackendServer Body} (run : Server.Reach (backend S) calls (.idle D) s) :
    Path ((discipline S).Permits calls) D s.history s.db := by
  obtain ⟨hist, hh, hpath⟩ := reach_commits_from hcalls hD .refl run
  have hhist : s.history = hist := by simpa [Server.idle] using hh
  exact hhist ▸ hpath

end TaroTria
