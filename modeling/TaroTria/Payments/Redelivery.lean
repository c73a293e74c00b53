import TaroTria.Payments.DeliveryOrder

/-!
# Redelivery after a failure

The provider delivers a body again until a delivery returns. A delivery commits up
to three times: the row of its event, the lookup of its payment, and the closing. A
failure between the first and the last is not made good, since the row of the event
shuts out the deliveries that follow.
-/

namespace TaroTria

open Transactions

namespace PaymentsService

variable {Body : Type} {P : PaymentProvider Body} {body : Body} {eventId : String}
  {t : TransactionResult} {D E : Db} {env : Proc.Surroundings Answer}
  {envs : List (Proc.Surroundings Answer)}

/-- The delivery completes its closing: the record of the event and the lookup are made
and answered, and the closing is made. -/
def Completes (env : Proc.Surroundings Answer) : Prop :=
  env.fate 0 = some .done ∧ env.fate 1 = some .done ∧ Commits (env.fate 2)

instance (env : Proc.Surroundings Answer) : Decidable (Completes env) :=
  inferInstanceAs (Decidable (_ ∧ _))

/-- The first delivery that records the event completes its closing. -/
def Undamaged : List (Proc.Surroundings Answer) → Prop
  | [] => True
  | env :: envs => if Commits (env.fate 0) then Completes env else Undamaged envs

/-- A body is delivered until a delivery returns. -/
inductive Redelivered (P : PaymentProvider Body) (body : Body) :
    Db → List (Proc.Surroundings Answer) → Db → Prop
  | returned {D : Db} {env : Proc.Surroundings Answer} :
      ((handleWebhook P body).exec env 0 D).2 = .ok () →
      Redelivered P body D [env] ((handleWebhook P body).exec env 0 D).1
  | failed {D E : Db} {env : Proc.Surroundings Answer} {envs : List (Proc.Surroundings Answer)}
      {e : Err} : ((handleWebhook P body).exec env 0 D).2 = .error e →
      Redelivered P body ((handleWebhook P body).exec env 0 D).1 envs E →
      Redelivered P body D (env :: envs) E

/-- The payments, the orders, the wallets and the ledger are the same. -/
structure SameBooks (D₁ D₂ : Db) : Prop where
  payments : D₁.payments = D₂.payments
  orders : D₁.orders = D₂.orders
  wallets : D₁.wallets = D₂.wallets
  ledger : D₁.walletTransactions = D₂.walletTransactions

/-- A delivery whose event has a row changes nothing, whatever becomes of it. -/
theorem exec_handleWebhook_stored (hparse : P.verifyAndParseWebhook body = some ⟨eventId, t⟩)
    (hstored : Stored P D eventId) : ((handleWebhook P body).exec env 0 D).1 = D := by
  obtain ⟨row, hevent⟩ := Option.ne_none_iff_exists'.mp hstored
  have hrun := Db.webhookEvent.run_create_exists (E := Err) (L := []) (v := ⟨t.status⟩) hevent
  unfold handleWebhook recordDelivery
  rw [hparse]
  cases hf : env.fate 0 with
  | none => simp [Proc.transaction, Proc.exec, hf, SqlError.fault]
  | some fate =>
      cases fate <;>
        simp [Proc.transaction, Proc.exec, hf, SqlError.fault, Tx.outcome, hrun,
          SqlError.uniqueViolation]

section Fresh

variable (hparse : P.verifyAndParseWebhook body = some ⟨eventId, t⟩) (hfresh : ¬ Stored P D eventId)
include hparse hfresh

/-- A delivery that records a new event leaves its closing with it, or nothing else. -/
theorem exec_handleWebhook_commits (hcommits : Commits (env.fate 0)) :
    ((handleWebhook P body).exec env 0 D).1 =
      recorded P.name eventId t (if Completes env then settle P.name t D else D) := by
  have hevent : D.webhookEvents.lookup (P.name, eventId) = none := not_not.mp hfresh
  by_cases hlookup : env.fate 0 = some .done ∧ env.fate 1 = some .done
  · obtain ⟨h₀, h₁⟩ := hlookup
    rw [exec_handleWebhook_fresh hparse hevent h₀ h₁]
    cases hp : D.payments.lookup (P.name, t.reference) with
    | none => simp [settle, hp]
    | some p =>
        have hp' : (recorded P.name eventId t D).payments.lookup (P.name, t.reference) = some p :=
          hp
        simp only [exec_applyTransaction_db hp', settlingWrites_recorded,
          view_settlingWrites_recorded]
        by_cases h₂ : Commits (env.fate 2)
        · rw [if_pos (show Completes env from ⟨h₀, h₁, h₂⟩)]
          simp [settle, hp, show _ ∨ _ from h₂]
        · rw [if_neg fun h : Completes env => h₂ h.2.2]
          exact if_neg h₂
  · have hdamaged : ¬ Completes env := fun h => hlookup ⟨h.1, h.2.1⟩
    rw [if_neg hdamaged]
    have hcut : env.fate 0 = some .lost ∨
        env.fate 0 = some .done ∧ env.fate (0 + 1) ≠ some .done := by
      rcases hcommits with h₀ | h₀
      · exact .inr ⟨h₀, fun h₁ => hlookup ⟨h₀, h₁⟩⟩
      · exact .inl h₀
    obtain ⟨e, he⟩ := exec_handleWebhook_recorded hparse hevent hcut
    rw [he]

omit hfresh in
theorem exec_handleWebhook_uncommitted (hcommits : ¬ Commits (env.fate 0)) :
    ∃ e, (handleWebhook P body).exec env 0 D = (D, .error e) := by
  refine exec_handleWebhook_unmade hparse ?_
  cases hf : env.fate 0 with
  | none => exact .inl rfl
  | some fate => cases fate <;> simp [Commits, hf] at hcommits ⊢

end Fresh

theorem Redelivered.of_stored (hparse : P.verifyAndParseWebhook body = some ⟨eventId, t⟩)
    (hstored : Stored P D eventId) (h : Redelivered P body D envs E) : E = D := by
  induction h with
  | returned _ => exact exec_handleWebhook_stored hparse hstored
  | failed _ _ ih =>
      rw [exec_handleWebhook_stored hparse hstored] at ih
      exact ih hstored

/-- What the redeliveries of a new event leave. -/
theorem Redelivered.of_fresh (hparse : P.verifyAndParseWebhook body = some ⟨eventId, t⟩)
    (hfresh : ¬ Stored P D eventId) (h : Redelivered P body D envs E) :
    (Undamaged envs → E = recorded P.name eventId t (settle P.name t D)) ∧
      (¬ Undamaged envs → E = recorded P.name eventId t D) := by
  induction h with
  | @returned D env hok =>
      by_cases hcommits : Commits (env.fate 0)
      · rw [exec_handleWebhook_commits hparse hfresh hcommits, Undamaged, if_pos hcommits]
        exact ⟨fun h => by rw [if_pos h], fun h => by rw [if_neg h]⟩
      · obtain ⟨e, he⟩ := exec_handleWebhook_uncommitted (D := D) hparse hcommits
        simp [he] at hok
  | @failed D E env envs e herror hrest ih =>
      by_cases hcommits : Commits (env.fate 0)
      -- The deliveries that follow find the event recorded.
      · rw [exec_handleWebhook_commits hparse hfresh hcommits] at hrest
        rw [hrest.of_stored hparse (stored_recorded.mpr (.inr rfl)), Undamaged, if_pos hcommits]
        exact ⟨fun h => by rw [if_pos h], fun h => by rw [if_neg h]⟩
      · obtain ⟨e, he⟩ := exec_handleWebhook_uncommitted (D := D) hparse hcommits
        rw [he] at ih
        rw [Undamaged, if_neg hcommits]
        exact ih hfresh

end PaymentsService

section Failures

open PaymentsService

variable {Body : Type} (P : PaymentProvider Body) {body : Body} {eventId : String}
  {t : TransactionResult} {D E : Db} {env : Proc.Surroundings Answer}
  {envs : List (Proc.Surroundings Answer)}

/-- Redeliveries make a failure good if and only if the event had a row before, nothing
is due, or the first delivery that records the event completes its closing. -/
theorem redelivery_makes_good_iff
    (hparse : P.verifyAndParseWebhook body = some ⟨eventId, t⟩) (henv : env.Healthy)
    (h : Redelivered P body D envs E) :
    SameBooks E ((handleWebhook P body).exec env 0 D).1 ↔
      PaymentsService.Stored P D eventId ∨
      (∀ p status, D.payments.lookup (P.name, t.reference) = some p → ¬ Due D p t status) ∨
      Undamaged envs := by
  by_cases hstored : PaymentsService.Stored P D eventId
  · rw [h.of_stored hparse hstored, exec_handleWebhook_stored hparse hstored]
    exact ⟨fun _ => .inl hstored, fun _ => ⟨rfl, rfl, rfl, rfl⟩⟩
  · rw [(exec_handleWebhook_healthy hparse (not_not.mp hstored) henv).1]
    obtain ⟨hgood, hdamaged⟩ := h.of_fresh hparse hstored
    by_cases hundamaged : Undamaged envs
    · rw [hgood hundamaged]
      exact ⟨fun _ => .inr (.inr hundamaged), fun _ => ⟨rfl, rfl, rfl, rfl⟩⟩
    · rw [hdamaged hundamaged]
      rcases settle_closes P.name t D with ⟨hsettle, hidle⟩ | ⟨p, status, hclose⟩
      · rw [hsettle]
        exact ⟨fun _ => .inr (.inl hidle), fun _ => ⟨rfl, rfl, rfl, rfl⟩⟩
      · constructor
        · intro hsame
          have hpayments : D.payments = (settle P.name t D).payments := hsame.payments
          have hp := hclose.payment_mem
          rw [hpayments, hclose.payments, Table.lookup_write_self, Option.some.injEq] at hp
          have hpending := hclose.due.pending
          rw [← hp] at hpending
          exact absurd hpending (terminal_ne_pending hclose.due.terminal)
        · rintro (h | h | h)
          · exact absurd h hstored
          · exact absurd hclose.due (h p status hclose.payment_mem)
          · exact absurd h hundamaged

end Failures

section Samples

open PaymentsService

/-- A delivery that dies before its first step is made good. -/
theorem redelivery_makes_good_of_early :
    SameBooks (after (undisturbed "" 3 none) delivery (after (dying 0) delivery oneCheckout))
      (after (undisturbed "" 3 none) delivery oneCheckout) :=
  (@redelivery_makes_good_iff _ sampleDeployment.provider _ _ (approvalOf "u1").transaction _ _ _
    [dying 0, undisturbed "" 3 none] rfl (undisturbed_healthy _ _ _)
    (.failed (e := .fault) rfl (.returned rfl))).mpr
    (.inr (.inr (by simp [Undamaged, Commits, Completes, dying, undisturbed])))

/-- A delivery that dies after its first step leaves the payment open for good. -/
theorem redelivery_loses_payment : ∃ E,
    Redelivered sampleDeployment.provider (approvalOf "u1") oneCheckout
      [dying 1, undisturbed "" 3 none] E ∧
    (E.webhookEvents.lookup ("wompi", "u1-APPROVED-1")).isSome = true ∧
    (E.payments.lookup ("wompi", "order-o1-u1")).map (·.status) = some .PENDING ∧
    (E.wallets.lookup "ana").map (·.balance) = some 0 ∧
    ((after (undisturbed "" 3 none) delivery oneCheckout).payments.lookup
      ("wompi", "order-o1-u1")).map (·.status) = some .APPROVED ∧
    ((after (undisturbed "" 3 none) delivery oneCheckout).wallets.lookup "ana").map (·.balance) =
      some 10 :=
  ⟨_, .failed (e := .fault) rfl (.returned rfl), rfl, rfl, rfl, rfl, rfl⟩

end Samples

end TaroTria
