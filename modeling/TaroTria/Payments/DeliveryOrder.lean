import Mathlib.Data.List.Induction
import TaroTria.Payments.Closings

/-!
# The order of deliveries

Deliveries and confirmations, one after another. The row of an event shuts out
every later delivery of the event, whether or not the first one has had its
effect; a confirmation looks at no event.
-/

namespace TaroTria

open Transactions

namespace PaymentsService

variable {Body : Type} {P : PaymentProvider Body} {D E : Db} {t : TransactionResult}

/-- A delivery, or a confirmation that the provider answers with this transaction. -/
inductive PaymentStep (Body : Type)
  | deliver (rawBody : Body)
  | confirm (userId orderId : Id) (transaction : TransactionResult)

/-- A step that nothing disturbs. -/
inductive Makes (P : PaymentProvider Body) (D : Db) : PaymentStep Body → Db → Prop
  | deliver {rawBody : Body} (env : Proc.Surroundings Answer) (henv : env.Healthy) :
      Makes P D (.deliver rawBody) ((handleWebhook P rawBody).exec env 0 D).1
  | confirm {userId orderId : Id} {t : TransactionResult} (env : Proc.Surroundings Answer)
      (henv : env.Healthy)
      (hanswer : ∀ n, env.answer n (.fetchTransaction t.providerTransactionId) = some t) :
      Makes P D (.confirm userId orderId t)
        ((confirmFromReturn P userId orderId t.providerTransactionId).exec env 0 D).1

/-- The steps are made one after another. -/
inductive Processed (P : PaymentProvider Body) (D : Db) : List (PaymentStep Body) → Db → Prop
  | nil : Processed P D [] D
  | snoc {steps : List (PaymentStep Body)} {step : PaymentStep Body} {E E' : Db} :
      Processed P D steps E → Makes P E step E' → Processed P D (steps ++ [step]) E'

/-- The transaction of a delivery of the list. -/
def Listed (P : PaymentProvider Body) (bodies : List Body) (t : TransactionResult) : Prop :=
  ∃ body ∈ bodies, ∃ eventId, P.verifyAndParseWebhook body = some ⟨eventId, t⟩

/-- An order of the deliveries of a list, any of them repeated, mixed with
confirmations of their transactions. -/
structure Mixed (P : PaymentProvider Body) (bodies : List Body)
    (steps : List (PaymentStep Body)) : Prop where
  delivered : ∀ body, .deliver body ∈ steps ↔ body ∈ bodies
  confirmed : ∀ userId orderId t, .confirm userId orderId t ∈ steps → Listed P bodies t

/-- Authentic deliveries for stored payments, with one terminal status for each payment. -/
structure Deliveries (P : PaymentProvider Body) (D : Db) (bodies : List Body) : Prop where
  matched : ∀ body ∈ bodies, ∃ eventId t p, P.verifyAndParseWebhook body = some ⟨eventId, t⟩ ∧
    D.payments.lookup (P.name, t.reference) = some p ∧ Matches p t
  statuses : ∀ body ∈ bodies, ∀ body' ∈ bodies, ∀ eventId eventId' t t' status status',
    P.verifyAndParseWebhook body = some ⟨eventId, t⟩ →
    P.verifyAndParseWebhook body' = some ⟨eventId', t'⟩ → t.reference = t'.reference →
    TERMINAL_STATUS_MAP t.status = some status → TERMINAL_STATUS_MAP t'.status = some status' →
    status = status'

/-- The delivery closes the payment with this reference at `D`. -/
def DueFor (P : PaymentProvider Body) (D : Db) (reference : String) (body : Body) : Prop :=
  ∃ eventId t p status, P.verifyAndParseWebhook body = some ⟨eventId, t⟩ ∧
    t.reference = reference ∧ D.payments.lookup (P.name, reference) = some p ∧ Due D p t status

/-- Some event of the list has no row yet, and every delivery of it closes the payment
with this reference. -/
def Announced (P : PaymentProvider Body) (D : Db) (bodies : List Body) (reference : String) :
    Prop :=
  ∃ body ∈ bodies, ∃ eventId t, P.verifyAndParseWebhook body = some ⟨eventId, t⟩ ∧
    D.webhookEvents.lookup (P.name, eventId) = none ∧
    ∀ body' ∈ bodies, ∀ t', P.verifyAndParseWebhook body' = some ⟨eventId, t'⟩ →
      DueFor P D reference body'

/-! ## What a run applies -/

/-- The event has a row. -/
def Stored (P : PaymentProvider Body) (D : Db) (eventId : String) : Prop :=
  D.webhookEvents.lookup (P.name, eventId) ≠ none

theorem stored_recorded {eventId eventId' : String} :
    Stored P (recorded P.name eventId t D) eventId' ↔ Stored P D eventId' ∨ eventId' = eventId := by
  unfold Stored recorded
  rw [Table.lookup_write]
  by_cases heq : eventId' = eventId
  · simp [heq]
  · simp [heq]

theorem stored_settle {eventId : String} :
    Stored P (settle P.name t D) eventId ↔ Stored P D eventId := by
  unfold Stored
  rw [settle_webhookEvents]

/-- A delivery changes nothing if its event has a row; otherwise it is applied. -/
theorem Makes.deliver_cases {body : Body} {eventId : String}
    (hparse : P.verifyAndParseWebhook body = some ⟨eventId, t⟩) (h : Makes P D (.deliver body) E) :
    Stored P D eventId ∧ E = D ∨
      ¬ Stored P D eventId ∧ E = recorded P.name eventId t (settle P.name t D) := by
  cases h with
  | deliver env henv =>
      cases hevent : D.webhookEvents.lookup (P.name, eventId) with
      | some row =>
          refine .inl ⟨by simp [Stored, hevent], ?_⟩
          rw [exec_handleWebhook_duplicate hparse hevent (henv 0)]
      | none =>
          exact .inr ⟨by simp [Stored, hevent], (exec_handleWebhook_healthy hparse hevent henv).1⟩

/-- A delivery that is not authentic changes nothing. -/
theorem Makes.unparsed {body : Body} (hparse : P.verifyAndParseWebhook body = none)
    (h : Makes P D (.deliver body) E) : E = D := by
  cases h with
  | deliver env henv =>
      unfold handleWebhook
      rw [hparse]
      rfl

/-- A confirmation is applied or changes nothing. -/
theorem Makes.confirm_cases {userId orderId : Id} (h : Makes P D (.confirm userId orderId t) E) :
    E = D ∨ E = settle P.name t D := by
  cases h with
  | confirm env henv hanswer =>
      by_cases howned : ∃ o, D.orders.lookup orderId = some o ∧ o.userId = userId
      · obtain ⟨o, ho, huser⟩ := howned
        rw [exec_confirmFromReturn henv ho huser (hanswer _)]
        split
        · exact .inr rfl
        · exact .inl rfl
      · exact .inl (exec_confirmFromReturn_foreign (henv 0) howned)

theorem Progress.recorded {name eventId : String} {A T : TransactionResult → Prop}
    (h : Progress name D A T E) (t : TransactionResult) :
    Progress name D A T (recorded name eventId t E) where
  untouched key p hp hnone :=
    have hu := h.untouched key p hp hnone
    ⟨hu.payment, hu.order, hu.ledger⟩
  closed p t status hp hT hdue :=
    have hc := h.closed p t status hp hT hdue
    ⟨hc.payment, hc.order, hc.recorded, hc.unrecorded⟩
  payments := h.payments
  orders := h.orders
  ledger := h.ledger
  wallets := h.wallets
  credited := h.credited

/-- The event is among the deliveries of a run. -/
def Delivered (P : PaymentProvider Body) (steps : List (PaymentStep Body)) (eventId : String) :
    Prop :=
  ∃ body t, .deliver body ∈ steps ∧ P.verifyAndParseWebhook body = some ⟨eventId, t⟩

/-- The transaction of a step. -/
def Brings (P : PaymentProvider Body) : PaymentStep Body → TransactionResult → Prop
  | .deliver body, t => ∃ eventId, P.verifyAndParseWebhook body = some ⟨eventId, t⟩
  | .confirm _ _ t', t => t' = t

/-- A step applies its transaction, with or without the record of an event, or changes nothing. -/
theorem Makes.cases {step : PaymentStep Body} (h : Makes P D step E) :
    E = D ∨ ∃ t, Brings P step t ∧
      (E = settle P.name t D ∨ ∃ eventId, E = recorded P.name eventId t (settle P.name t D)) := by
  cases step with
  | deliver body =>
      cases hparse : P.verifyAndParseWebhook body with
      | none => exact .inl (h.unparsed hparse)
      | some parsed =>
          obtain ⟨eventId, t⟩ := parsed
          rcases h.deliver_cases hparse with ⟨-, hsame⟩ | ⟨-, happlied⟩
          · exact .inl hsame
          · exact .inr ⟨t, ⟨eventId, hparse⟩, .inr ⟨eventId, happlied⟩⟩
  | confirm userId orderId t =>
      rcases h.confirm_cases with hsame | happlied
      · exact .inl hsame
      · exact .inr ⟨t, rfl, .inl happlied⟩

section Runs

variable {bodies : List Body} {steps : List (PaymentStep Body)} {T : TransactionResult → Prop}

theorem delivered_deliver {body : Body} {eventId eventId' : String}
    (hparse : P.verifyAndParseWebhook body = some ⟨eventId, t⟩) :
    Delivered P (steps ++ [.deliver body]) eventId' ↔
      Delivered P steps eventId' ∨ eventId' = eventId := by
  constructor
  · rintro ⟨body', t', hmem, hparse'⟩
    rcases List.mem_append.mp hmem with hmem | hmem
    · exact .inl ⟨body', t', hmem, hparse'⟩
    · obtain rfl : body' = body := by simpa using hmem
      rw [hparse] at hparse'
      cases hparse'
      exact .inr rfl
  · rintro (⟨body', t', hmem, hparse'⟩ | rfl)
    · exact ⟨body', t', by simp [hmem], hparse'⟩
    · exact ⟨body, t, by simp, hparse⟩

@[simp] theorem delivered_confirm {userId orderId : Id} {eventId : String} :
    Delivered P (steps ++ [.confirm userId orderId t]) eventId ↔ Delivered P steps eventId := by
  simp [Delivered]

/-- What records and the transactions of a run's steps keep, the run keeps. -/
theorem Processed.keeps {J : Db → Prop}
    (hrecorded : ∀ E eventId t, J E → J (recorded P.name eventId t E))
    (hsettle : ∀ E, ∀ step ∈ steps, ∀ t, Brings P step t → J E → J (settle P.name t E))
    (h : Processed P D steps E) (hD : J D) : J E := by
  induction h with
  | nil => exact hD
  | snoc _ hstep ih =>
      have hE := ih fun E step hmem => hsettle E step (List.mem_append_left _ hmem)
      rcases hstep.cases with rfl | ⟨t, hbrings, happlied⟩
      · exact hE
      have hsettled := hsettle _ _ (by simp) t hbrings hE
      rcases happlied with rfl | ⟨eventId, rfl⟩
      · exact hsettled
      · exact hrecorded _ eventId t hsettled

/-- The events that have a row after a run. -/
theorem Processed.stored (h : Processed P D steps E) (eventId : String) :
    Stored P E eventId ↔ Stored P D eventId ∨ Delivered P steps eventId := by
  induction h with
  | nil => simp [Delivered]
  | @snoc steps step E E' _ hstep ih =>
      cases step with
      | deliver body =>
          cases hparse : P.verifyAndParseWebhook body with
          | none =>
              rw [hstep.unparsed hparse, ih]
              refine or_congr_right ⟨fun ⟨b, t, hmem, hb⟩ => ⟨b, t, by simp [hmem], hb⟩, ?_⟩
              rintro ⟨b, t, hmem, hb⟩
              rcases List.mem_append.mp hmem with hmem | hmem
              · exact ⟨b, t, hmem, hb⟩
              · obtain rfl : b = body := by simpa using hmem
                simp [hparse] at hb
          | some parsed =>
              obtain ⟨eventId', t⟩ := parsed
              rw [delivered_deliver hparse, ← or_assoc, ← ih]
              rcases hstep.deliver_cases hparse with ⟨hstored, rfl⟩ | ⟨-, rfl⟩
              · refine (or_iff_left_of_imp ?_).symm
                rintro rfl
                exact hstored
              · rw [stored_recorded, stored_settle]
      | confirm userId orderId t =>
          rw [delivered_confirm, ← ih]
          rcases hstep.confirm_cases with rfl | rfl
          · exact Iff.rfl
          · exact stored_settle

/-- The run has applied the transactions `T`, all of them listed, and one of each event
that it stores. -/
structure Applied (P : PaymentProvider Body) (bodies : List Body) (D : Db)
    (steps : List (PaymentStep Body)) (T : TransactionResult → Prop) (E : Db) : Prop where
  progress : Progress P.name D (Listed P bodies) T E
  source : ∀ t, T t → Listed P bodies t
  first : ∀ eventId, Delivered P steps eventId → ¬ Stored P D eventId →
    ∃ body ∈ bodies, ∃ t, P.verifyAndParseWebhook body = some ⟨eventId, t⟩ ∧ T t

/-- One more transaction of the list. -/
theorem Applied.settle (hone : OnePayment D) (hlist : Deliveries P D bodies)
    (haff : Affordable P.name D (Listed P bodies)) (h : Applied P bodies D steps T E)
    (ht : Listed P bodies t) :
    Progress P.name D (Listed P bodies) (fun t' => T t' ∨ t' = t) (settle P.name t E) ∧
      ∀ t', T t' ∨ t' = t → Listed P bodies t' := by
  refine ⟨h.progress.settle hone haff ht fun t' status status' hT hreference hstatus' hstatus => ?_,
    fun t' hT => ?_⟩
  · obtain ⟨body, hbody, eventId, hparse⟩ := ht
    obtain ⟨body', hbody', eventId', hparse'⟩ := h.source t' hT
    exact hlist.statuses body' hbody' body hbody eventId' eventId t' t status' status hparse'
      hparse hreference hstatus' hstatus
  · rcases hT with hT | rfl
    · exact h.source t' hT
    · exact ht

/-- What a run applies comes from its list, and each event that it stores has had a
delivery applied. -/
theorem Processed.applied (hone : OnePayment D) (hlist : Deliveries P D bodies)
    (haff : Affordable P.name D (Listed P bodies)) (h : Processed P D steps E)
    (hdeliver : ∀ body, .deliver body ∈ steps → body ∈ bodies)
    (hconfirm : ∀ userId orderId t, .confirm userId orderId t ∈ steps → Listed P bodies t) :
    ∃ T, Applied P bodies D steps T E := by
  induction h with
  | nil => exact ⟨_, .refl P.name D _, fun _ h => h.elim, by simp [Delivered]⟩
  | @snoc steps step E E' hrun hstep ih =>
      obtain ⟨T, hT⟩ := ih (fun body h => hdeliver body (by simp [h]))
        fun userId orderId t h => hconfirm userId orderId t (by simp [h])
      cases step with
      | deliver body =>
          have hbody := hdeliver body (by simp)
          obtain ⟨eventId, t, p, hparse, -, -⟩ := hlist.matched body hbody
          rcases hstep.deliver_cases hparse with ⟨hstored, rfl⟩ | ⟨hfresh, rfl⟩
          -- The event has a row, of the first state or of an earlier delivery.
          · refine ⟨T, hT.progress, hT.source, fun eventId' hdelivered hnot => ?_⟩
            rcases (delivered_deliver hparse).mp hdelivered with hearlier | rfl
            · exact hT.first eventId' hearlier hnot
            · exact hT.first eventId' (((hrun.stored _).mp hstored).resolve_left hnot) hnot
          · obtain ⟨hprogress, hsource⟩ := hT.settle hone hlist haff ⟨body, hbody, eventId, hparse⟩
            refine ⟨_, hprogress.recorded t, hsource, fun eventId' hdelivered hnot => ?_⟩
            rcases (delivered_deliver hparse).mp hdelivered with hearlier | rfl
            · obtain ⟨body', hbody', t', hparse', hT'⟩ := hT.first eventId' hearlier hnot
              exact ⟨body', hbody', t', hparse', .inl hT'⟩
            · exact ⟨body, hbody, t, hparse, .inr rfl⟩
      | confirm userId orderId t =>
          rcases hstep.confirm_cases with rfl | rfl
          · exact ⟨T, hT.progress, hT.source, by simpa using hT.first⟩
          · obtain ⟨hprogress, hsource⟩ := hT.settle hone hlist haff
              (hconfirm userId orderId t (by simp))
            refine ⟨_, hprogress, hsource, fun eventId' hdelivered hnot => ?_⟩
            obtain ⟨body', hbody', t', hparse', hT'⟩ :=
              hT.first eventId' (delivered_confirm.mp hdelivered) hnot
            exact ⟨body', hbody', t', hparse', .inl hT'⟩

/-- Deliveries of events that have a row change nothing. -/
theorem Processed.of_stored (hstored : ∀ body ∈ bodies, ∃ eventId t,
    P.verifyAndParseWebhook body = some ⟨eventId, t⟩ ∧ Stored P D eventId) :
    Processed P D (bodies.map .deliver) D := by
  induction bodies using List.reverseRecOn with
  | nil => exact .nil
  | append_singleton bodies body ih =>
      obtain ⟨eventId, t, hparse, hevent⟩ := hstored body (by simp)
      rw [List.map_append, List.map_singleton]
      have hmakes := @Makes.deliver _ P D body (undisturbed "" 0 none)
        (undisturbed_healthy _ _ _)
      rcases hmakes.deliver_cases hparse with ⟨-, hsame⟩ | ⟨hnot, -⟩
      · rw [hsame] at hmakes
        exact .snoc (ih fun body' h => hstored body' (by simp [h])) hmakes
      · exact absurd hevent hnot

theorem Processed.append {steps' : List (PaymentStep Body)} {E' : Db}
    (h : Processed P D steps E) (h' : Processed P E steps' E') :
    Processed P D (steps ++ steps') E' := by
  induction h' with
  | nil => simpa using h
  | snoc _ hstep ih =>
      rw [← List.append_assoc]
      exact .snoc ih hstep

theorem exists_processed (P : PaymentProvider Body) (D : Db) (bodies : List Body) :
    ∃ E, Processed P D (bodies.map .deliver) E := by
  induction bodies using List.reverseRecOn with
  | nil => exact ⟨D, .nil⟩
  | append_singleton bodies body ih =>
      obtain ⟨E, hE⟩ := ih
      rw [List.map_append, List.map_singleton]
      exact ⟨_, .snoc hE (.deliver (undisturbed "" 0 none) (undisturbed_healthy _ _ _))⟩

/-- All deliveries of a list, after some confirmations. -/
theorem mixed_confirmed (hconfirm : ∀ step ∈ steps, ∃ userId orderId t,
    step = .confirm userId orderId t ∧ Listed P bodies t) :
    Mixed P bodies (steps ++ bodies.map .deliver) where
  delivered body := by
    constructor
    · intro hmem
      rcases List.mem_append.mp hmem with hmem | hmem
      · obtain ⟨userId, orderId, t, heq, -⟩ := hconfirm _ hmem
        cases heq
      · simpa using hmem
    · intro hmem
      exact List.mem_append_right _ (List.mem_map_of_mem hmem)
  confirmed userId orderId t hmem := by
    rcases List.mem_append.mp hmem with hmem | hmem
    · obtain ⟨userId', orderId', t', heq, hlisted⟩ := hconfirm _ hmem
      cases heq
      exact hlisted
    · simp at hmem

end Runs

/-! ## Payments that stay open -/

section Open

variable {bodies : List Body} {steps : List (PaymentStep Body)} {key : String × String}
  {p : Payment} {o : Order} {status : PaymentStatus}

/-- The rows of the payment are as they were, and the wallets have no less. -/
structure Spared (key : String × String) (p : Payment) (D E : Db) : Prop where
  untouched : Untouched key p D E
  grown : Grown D E
  onePayment : OnePayment E

theorem Spared.settle (h : Spared key p D E)
    (hnot : ∀ status, key = (P.name, t.reference) → ¬ Due D p t status) :
    Spared key p D (settle P.name t E) := by
  rcases settle_closes P.name t E with ⟨hsettle, -⟩ | ⟨p', status, hclose⟩
  · rw [hsettle]
    exact h
  · have hkey : key ≠ (P.name, t.reference) := by
      rintro rfl
      obtain rfl : p = p' := Option.some.inj (h.untouched.payment.symm.trans hclose.payment_mem)
      exact hnot status rfl (h.untouched.due_before h.grown hclose.due)
    have horder : p.orderId ≠ p'.orderId := fun horder =>
      hkey (h.onePayment _ _ _ _ h.untouched.payment hclose.payment_mem horder)
    exact ⟨hclose.untouched_other hkey horder h.untouched, h.grown.trans hclose.grown,
      hclose.onePayment h.onePayment⟩

/-- A payment that no step of a run is due for stays as it is. -/
theorem Processed.spared (hone : OnePayment D) (hp : D.payments.lookup key = some p)
    (h : Processed P D steps E) (hnot : ∀ step ∈ steps, ∀ t, Brings P step t → ∀ status,
      key = (P.name, t.reference) → ¬ Due D p t status) : Spared key p D E :=
  h.keeps (J := Spared key p D) (fun _ _ _ hE => ⟨⟨hE.1.1, hE.1.2, hE.1.3⟩, hE.2, hE.3⟩)
    (fun _ step hmem t hbrings hE => hE.settle (hnot step hmem t hbrings))
    ⟨⟨hp, rfl, rfl⟩, .refl D, hone⟩

/-- A payment that is no longer `PENDING` is never closed again. -/
theorem Processed.closed (hp : D.payments.lookup key = some p) (hclosed : p.status ≠ .PENDING)
    (h : Processed P D steps E) : E.payments.lookup key = some p := by
  refine h.keeps (J := fun E => E.payments.lookup key = some p) (fun _ _ _ hE => hE)
    (fun E _ _ t _ hE => ?_) hp
  rcases settle_closes P.name t E with ⟨hsettle, -⟩ | ⟨p', status, hclose⟩
  · rw [hsettle]
    exact hE
  · refine (hclose.payments_other ?_).trans hE
    rintro rfl
    obtain rfl : p = p' := Option.some.inj (hE.symm.trans hclose.payment_mem)
    exact hclosed hclose.due.pending

/-- The only payment of an order is the newest one while it is open. -/
theorem newestPending_of_onePayment {name reference : String} (hone : OnePayment E)
    (hp : E.payments.lookup (name, reference) = some p) (hpending : p.status = .PENDING) :
    (newestPending name p.orderId E).map Prod.fst = some (name, reference) := by
  cases hnewest : newestPending name p.orderId E with
  | none =>
      have hmem : ((name, reference), p) ∈ E.payments.findMany fun key p' =>
          p'.orderId = p.orderId && key.1 = name && p'.status = .PENDING :=
        (Table.mem_findMany _ _ _ _).mpr ⟨hp, by simp [hpending]⟩
      rw [newest_eq_none.mp hnewest] at hmem
      cases hmem
  | some row =>
      obtain ⟨hrow, hwhere⟩ := (Table.mem_findMany _ _ _ _).mp (newest_mem hnewest)
      simp only [Bool.and_eq_true, decide_eq_true_eq] at hwhere
      exact congrArg some (hone _ _ _ _ hrow hp hwhere.1.1)

/-- The owner's confirmation of the only payment of an order is applied. -/
theorem makes_confirm (hone : OnePayment E) (ho : E.orders.lookup p.orderId = some o)
    (hp : E.payments.lookup (P.name, t.reference) = some p) (hpending : p.status = .PENDING) :
    Makes P E (.confirm o.userId p.orderId t) (settle P.name t E) := by
  have hmakes := @Makes.confirm _ P E o.userId p.orderId t (undisturbed "" 0 (some t))
    (undisturbed_healthy _ _ _) fun _ => rfl
  rwa [exec_confirmFromReturn (undisturbed_healthy _ _ _) ho rfl rfl,
    if_pos (newestPending_of_onePayment hone hp hpending)] at hmakes

/-- A payment that is due and stays open in one run is closed in another. -/
theorem differs_of_open (hone : OnePayment D) (hbelong : PaymentsBelong D)
    (hp : D.payments.lookup (P.name, t.reference) = some p) (hdue : Due D p t status)
    (ht : Listed P bodies t) (hmixed : Mixed P bodies steps) (hrun : Processed P D steps E)
    (hopen : E.payments.lookup (P.name, t.reference) = some p) :
    ¬ ∀ steps₁ steps₂ E₁ E₂, Mixed P bodies steps₁ → Mixed P bodies steps₂ →
      Processed P D steps₁ E₁ → Processed P D steps₂ E₂ → SameOutcome E₁ E₂ := by
  intro hsame
  obtain ⟨o, ho⟩ := hbelong _ p hp
  have hconfirm : Processed P D ([] ++ [.confirm o.userId p.orderId t]) (settle P.name t D) :=
    .snoc .nil (makes_confirm hone ho hp hdue.pending)
  -- The owner confirms first, and the deliveries change the payment no more.
  obtain ⟨E', hdeliveries⟩ := exists_processed P (settle P.name t D) bodies
  have hclosed : E'.payments.lookup (P.name, t.reference) = some (settled p t status) :=
    hdeliveries.closed (by rw [(hdue.closes hp).payments, Table.lookup_write_self])
      (terminal_ne_pending hdue.terminal)
  have hmixed' : Mixed P bodies (([] ++ [.confirm o.userId p.orderId t]) ++
      bodies.map .deliver) :=
    mixed_confirmed fun step hmem => ⟨_, _, _, by simpa using hmem, ht⟩
  have hstatus := (hsame _ _ _ _ hmixed hmixed' hrun (hconfirm.append hdeliveries)).payments
    (P.name, t.reference)
  rw [hopen, hclosed, Option.map_some, Option.map_some, Option.some.injEq, hdue.pending] at hstatus
  exact terminal_ne_pending hdue.terminal hstatus.symm

/-- Without an event of its own, a payment stays open when the deliveries of other
payments come first. -/
theorem exists_unannounced_run (hone : OnePayment D) (hlist : Deliveries P D bodies)
    {reference : String} (hp : D.payments.lookup (P.name, reference) = some p)
    (hnot : ¬ Announced P D bodies reference) :
    ∃ steps E, Mixed P bodies steps ∧ Processed P D steps E ∧
      E.payments.lookup (P.name, reference) = some p := by
  classical
  let idle := bodies.filter fun body => ¬ DueFor P D reference body
  let late := bodies.filter fun body => DueFor P D reference body
  have hidle : ∀ body, body ∈ idle ↔ body ∈ bodies ∧ ¬ DueFor P D reference body := by simp [idle]
  have hlate : ∀ body, body ∈ late ↔ body ∈ bodies ∧ DueFor P D reference body := by simp [late]
  obtain ⟨E, hE⟩ := exists_processed P D idle
  -- The event of a late delivery has a row, or has come with an idle one.
  have hstored : ∀ body ∈ late, ∃ eventId t,
      P.verifyAndParseWebhook body = some ⟨eventId, t⟩ ∧ Stored P E eventId := by
    intro body hbody
    obtain ⟨eventId, t, p, hparse, -, -⟩ := hlist.matched body ((hlate body).mp hbody).1
    refine ⟨eventId, t, hparse, (hE.stored eventId).mpr ?_⟩
    by_contra hneither
    obtain ⟨hfresh, hundelivered⟩ := not_or.mp hneither
    refine hnot ⟨body, ((hlate body).mp hbody).1, eventId, t, hparse, not_not.mp hfresh,
      fun body' hbody' t' hparse' => ?_⟩
    by_contra hdue
    exact hundelivered ⟨body', t', by simpa using (hidle body').mpr ⟨hbody', hdue⟩, hparse'⟩
  have hspared : Spared (P.name, reference) p D E := by
    refine hE.spared hone hp fun step hmem t hbrings status hkey hdue => ?_
    obtain ⟨body, hbody, rfl⟩ := List.mem_map.mp hmem
    obtain ⟨eventId, hparse⟩ := hbrings
    obtain rfl : reference = t.reference := (Prod.mk.inj hkey).2
    exact ((hidle body).mp hbody).2 ⟨eventId, t, p, status, hparse, rfl, hp, hdue⟩
  refine ⟨(idle ++ late).map .deliver, E, ⟨fun body => ?_, by simp⟩, ?_, hspared.untouched.payment⟩
  · have hall : body ∈ idle ++ late ↔ body ∈ bodies := by
      rw [List.mem_append, hidle, hlate, ← and_or_left, and_iff_left (Classical.em _).symm]
    simpa using hall
  · rw [List.map_append]
    exact hE.append (.of_stored hstored)

/-- The approvals of these payments are confirmed one after another, until one of them
finds no room. -/
theorem exists_confirmed_run (hone : OnePayment D) (hbelong : PaymentsBelong D)
    {keys : Finset (String × String)} (hkeys : keys ⊆ approvals P.name D (Listed P bodies)) :
    ∃ steps E, (∀ step ∈ steps, ∃ userId orderId t, step = .confirm userId orderId t ∧
        Listed P bodies t) ∧ Processed P D steps E ∧ OnePayment E ∧
      ((Credited D E keys ∧ ∀ key ∉ keys, ∀ p, D.payments.lookup key = some p →
        Untouched key p D E) ∨
      ∃ key ∈ keys, ∃ p, D.payments.lookup key = some p ∧ Untouched key p D E ∧
        creditable E p.orderId = none) := by
  induction keys using Finset.induction_on with
  | empty => exact ⟨[], D, by simp, .nil, hone, .inl ⟨.refl D, fun _ _ _ hp => ⟨hp, rfl, rfl⟩⟩⟩
  | @insert key keys hkey ih =>
      obtain ⟨hmem, hkeys⟩ := Finset.insert_subset_iff.mp hkeys
      obtain ⟨steps, E, hsteps, hrun, hone', hroom | hfull⟩ := ih hkeys
      · obtain ⟨hcredited, huntouched⟩ := hroom
        obtain ⟨p, t, hp, ht, rfl, hdue⟩ := mem_approvals.mp hmem
        have hself := huntouched _ hkey p hp
        cases hc : creditable E p.orderId with
        | none =>
            exact ⟨steps, E, hsteps, hrun, hone', .inr ⟨_, Finset.mem_insert_self _ _, p, hp,
              hself, hc⟩⟩
        | some row =>
            obtain ⟨o, ho⟩ := hbelong _ p hp
            have hdue' : Due E p t .APPROVED :=
              ⟨hdue.pending, hdue.matched, hdue.terminal, fun _ => by simp [hc]⟩
            have hclose := hdue'.closes hself.payment
            refine ⟨steps ++ [.confirm o.userId p.orderId t], settle P.name t E, fun step hstep => ?_,
              hrun.snoc (makes_confirm hone' (hself.order.trans ho) hself.payment hdue.pending),
              hclose.onePayment hone',
              .inl ⟨hclose.credited_insert hp hself hkey hcredited, fun key' hkey' p' hp' => ?_⟩⟩
            · rcases List.mem_append.mp hstep with hstep | hstep
              · exact hsteps step hstep
              · exact ⟨_, _, _, by simpa using hstep, ht⟩
            · obtain ⟨hne, hkey'⟩ := not_or.mp (mt Finset.mem_insert.mpr hkey')
              exact hclose.untouched_other hne (fun horder => hne (hone _ _ _ _ hp' hp horder))
                (huntouched key' hkey' p' hp')
      · obtain ⟨key', hkey', hfull⟩ := hfull
        exact ⟨steps, E, hsteps, hrun, hone', .inr ⟨key', Finset.mem_insert_of_mem hkey', hfull⟩⟩

/-- When the wallets have no room for all approvals, some run leaves one of them out. -/
theorem exists_crowded_run (hone : OnePayment D) (hbelong : PaymentsBelong D)
    (hlist : Deliveries P D bodies) (hcrowded : ¬ Affordable P.name D (Listed P bodies)) :
    ∃ p t steps E, D.payments.lookup (P.name, t.reference) = some p ∧ Listed P bodies t ∧
      Due D p t .APPROVED ∧ Mixed P bodies steps ∧ Processed P D steps E ∧
      E.payments.lookup (P.name, t.reference) = some p := by
  -- It is enough that an approval finds no room after some confirmations.
  suffices hfull : ∃ key ∈ approvals P.name D (Listed P bodies), ∃ p steps E,
      D.payments.lookup key = some p ∧ (∀ step ∈ steps, ∃ userId orderId t,
        step = .confirm userId orderId t ∧ Listed P bodies t) ∧ Processed P D steps E ∧
      OnePayment E ∧ Untouched key p D E ∧ creditable E p.orderId = none by
    obtain ⟨key, hkey, p, steps, E, hp, hsteps, hrun, hone', huntouched, hfull⟩ := hfull
    obtain ⟨p', t, hp', ht, rfl, hdue⟩ := mem_approvals.mp hkey
    obtain rfl : p = p' := Option.some.inj (hp.symm.trans hp')
    obtain ⟨E', hdeliveries⟩ := exists_processed P E bodies
    refine ⟨p, t, _, E', hp, ht, hdue, mixed_confirmed hsteps, hrun.append hdeliveries,
      (hdeliveries.spared hone' huntouched.payment ?_).untouched.payment⟩
    intro step hmem t' hbrings status hkey' hdue'
    obtain ⟨body', hbody', rfl⟩ := List.mem_map.mp hmem
    obtain ⟨eventId', hparse'⟩ := hbrings
    obtain ⟨body, hbody, eventId, hparse⟩ := ht
    obtain rfl := hlist.statuses body hbody body' hbody' _ _ t t' _ status hparse hparse'
      (Prod.mk.inj hkey').2 hdue.terminal hdue'.terminal
    simpa [hfull] using hdue'.credited rfl
  simp only [Affordable, not_forall] at hcrowded
  obtain ⟨key, hkey, p, o, w, hp, ho, hw, hover⟩ := hcrowded
  obtain ⟨steps, E, hsteps, hrun, hone', hroom | hfull⟩ := exists_confirmed_run hone hbelong
    (Finset.erase_subset key (approvals P.name D (Listed P bodies)))
  · obtain ⟨hcredited, huntouched⟩ := hroom
    have hself := huntouched key (Finset.notMem_erase key _) p hp
    refine ⟨key, hkey, p, steps, E, hp, hsteps, hrun, hone', hself, ?_⟩
    rw [Option.eq_none_iff_forall_ne_some]
    rintro ⟨o', w'⟩ hc
    obtain ⟨ho', hw', -, hfits⟩ := creditable_eq_some.mp hc
    obtain rfl : o = o' := Option.some.inj (ho.symm.trans (hself.order.symm.trans ho'))
    -- The credits of the others have used the room up.
    have hbalance := hcredited o.userId
    rw [hw, hw', Option.map_some, Option.map_some, Option.some.injEq] at hbalance
    have hsum := creditsOf_insert (D := D) (Finset.notMem_erase key
      (approvals P.name D (Listed P bodies))) o.userId
    rw [Finset.insert_erase hkey, creditsFor_eq hp ho, if_pos rfl] at hsum
    refine hover ?_
    rw [hsum, add_comm (o.credits : Int), ← add_assoc, ← hbalance]
    exact hfits
  · obtain ⟨key', hkey', p', hp', hself, hfull⟩ := hfull
    exact ⟨key', Finset.mem_of_mem_erase hkey', p', steps, E, hp', hsteps, hrun, hone', hself, hfull⟩

end Open

end PaymentsService

section Orders

open PaymentsService

variable {Body : Type} (P : PaymentProvider Body) {D : Db} {bodies : List Body}

/-- The order and the repetition of deliveries, and the confirmations among them, do not
matter if and only if each payment that the list closes has an event of its own without
a row, and the wallets have room for all its approvals. -/
theorem delivery_order_immaterial_iff (hone : OnePayment D) (hbelong : PaymentsBelong D)
    (hlist : Deliveries P D bodies) :
    (∀ steps₁ steps₂ E₁ E₂, Mixed P bodies steps₁ → Mixed P bodies steps₂ →
      Processed P D steps₁ E₁ → Processed P D steps₂ E₂ → SameOutcome E₁ E₂) ↔
      (∀ body ∈ bodies, ∀ reference, DueFor P D reference body →
        Announced P D bodies reference) ∧ Affordable P.name D (Listed P bodies) := by
  constructor
  · intro hsame
    constructor
    · intro body hbody reference hdue
      obtain ⟨eventId, t, p, status, hparse, rfl, hp, hdue⟩ := hdue
      by_contra hnot
      obtain ⟨steps, E, hmixed, hrun, hopen⟩ := exists_unannounced_run hone hlist hp hnot
      exact differs_of_open hone hbelong hp hdue ⟨body, hbody, eventId, hparse⟩ hmixed hrun hopen
        hsame
    · by_contra hcrowded
      obtain ⟨p, t, steps, E, hp, ht, hdue, hmixed, hrun, hopen⟩ :=
        exists_crowded_run hone hbelong hlist hcrowded
      exact differs_of_open hone hbelong hp hdue ht hmixed hrun hopen hsame
  · rintro ⟨hannounced, haff⟩ steps₁ steps₂ E₁ E₂ hmixed₁ hmixed₂ h₁ h₂
    have covered : ∀ {T T' E E' steps steps'}, Mixed P bodies steps' →
        Applied P bodies D steps T E → Applied P bodies D steps' T' E' →
        Covered D P.name T T' := by
      intro T T' E E' steps steps' hmixed hT hT' p t status hp ht hdue
      obtain ⟨body, hbody, eventId, hparse⟩ := hT.source t ht
      obtain ⟨body₁, hbody₁, eventId₁, t₁, hparse₁, hfresh, hall⟩ :=
        hannounced body hbody t.reference ⟨eventId, t, p, status, hparse, rfl, hp, hdue⟩
      obtain ⟨body₂, hbody₂, t₂, hparse₂, ht₂⟩ := hT'.first eventId₁
        ⟨body₁, t₁, (hmixed.delivered body₁).mpr hbody₁, hparse₁⟩ (not_not.mpr hfresh)
      obtain ⟨eventId', t', p', status', hparse', hreference, hp', hdue'⟩ :=
        hall body₂ hbody₂ t₂ hparse₂
      rw [hparse₂] at hparse'
      cases hparse'
      obtain rfl : p = p' := Option.some.inj (hp.symm.trans hp')
      have hstatus : status' = status :=
        hlist.statuses body₂ hbody₂ body hbody _ _ t₂ t status' status hparse₂ hparse hreference
          hdue'.terminal hdue.terminal
      exact ⟨t₂, ht₂, hreference, hstatus ▸ hdue'⟩
    obtain ⟨T₁, hT₁⟩ := h₁.applied hone hlist haff (fun body => (hmixed₁.delivered body).mp)
      hmixed₁.confirmed
    obtain ⟨T₂, hT₂⟩ := h₂.applied hone hlist haff (fun body => (hmixed₂.delivered body).mp)
      hmixed₂.confirmed
    exact hT₁.progress.sameOutcome hT₂.progress (covered hmixed₂ hT₁ hT₂) (covered hmixed₁ hT₂ hT₁)

end Orders

/-! ## An order with one checkout -/

/-- The user orders a package and opens a checkout. -/
def oneCheckout : Db :=
  after (undisturbed "u1" 1 none)
    (PaymentsService.createCheckoutIntent sampleDeployment.provider "" "ana" "o1") <|
      after (undisturbed "o1" 0 none) (OrdersService.create "ana" "ten") sampleShop

/-- Surroundings of a request whose process dies before its step `n`. -/
def dying (n : Nat) : Proc.Surroundings Answer :=
  { undisturbed "" 2 none with fate := fun k => if k < n then some .done else none }

/-- The delivery of the approval. -/
abbrev delivery : Request Unit :=
  PaymentsService.handleWebhook sampleDeployment.provider (approvalOf "u1")

/-- The delivery has recorded its event when the process dies. -/
def halfDelivered : Db := after (dying 1) delivery oneCheckout

section Samples

open PaymentsService

variable {D : Db}

theorem lookup_checkout (h : D.payments = oneCheckout.payments) {key : String × String}
    {p : Payment} (hp : D.payments.lookup key = some p) :
    key = ("wompi", "order-o1-u1") ∧ p = ⟨"o1", none, .PENDING, 5000, "COP", 1⟩ := by
  rw [h] at hp
  exact Table.eq_of_lookup_single hp

theorem onePayment_checkout (h : D.payments = oneCheckout.payments) : OnePayment D :=
  fun _ _ _ _ hp hp' _ => (lookup_checkout h hp).1.trans (lookup_checkout h hp').1.symm

theorem deliveries_checkout (h : D.payments = oneCheckout.payments) :
    Deliveries sampleDeployment.provider D [approvalOf "u1"] where
  matched body hbody := by
    obtain rfl : body = approvalOf "u1" := by simpa using hbody
    exact ⟨_, _, ⟨"o1", none, .PENDING, 5000, "COP", 1⟩, rfl, by rw [h]; rfl, rfl, rfl⟩
  statuses body hbody body' hbody' eventId eventId' t t' status status' h h' _ hs hs' := by
    obtain rfl : body = approvalOf "u1" := by simpa using hbody
    obtain rfl : body' = approvalOf "u1" := by simpa using hbody'
    rw [h] at h'
    cases h'
    exact Option.some.inj (hs.symm.trans hs')

theorem belong_oneCheckout : PaymentsBelong oneCheckout := fun _ p hp => by
  rw [(lookup_checkout rfl hp).2]
  exact ⟨⟨"ana", "ten", 10, 5000, none, "COP", .PENDING⟩, rfl⟩

/-- The wallet has room for the ten credits of the only order. -/
theorem affordable_oneCheckout (A : TransactionResult → Prop) :
    Affordable "wompi" oneCheckout A := by
  intro key hkey p o w hp ho hw
  obtain ⟨-, rfl⟩ := lookup_checkout rfl hp
  obtain rfl := Option.some.inj ((rfl : oneCheckout.orders.lookup "o1" =
    some ⟨"ana", "ten", 10, 5000, none, "COP", .PENDING⟩).symm.trans ho)
  obtain rfl := Option.some.inj ((rfl : oneCheckout.wallets.lookup "ana" = some ⟨0⟩).symm.trans hw)
  have honly : approvals "wompi" oneCheckout A ⊆ {("wompi", "order-o1-u1")} := by
    intro key' hkey'
    obtain ⟨p', t, hp', -⟩ := mem_approvals.mp hkey'
    exact Finset.mem_singleton.mpr (lookup_checkout rfl hp').1
  have hcredits : creditsOf oneCheckout "ana" (approvals "wompi" oneCheckout A) ≤
      creditsOf oneCheckout "ana" {("wompi", "order-o1-u1")} :=
    Finset.sum_le_sum_of_subset_of_nonneg honly fun _ _ _ => Int.natCast_nonneg _
  have hten : creditsFor oneCheckout "ana" ("wompi", "order-o1-u1") = 10 := rfl
  rw [creditsOf, creditsOf, Finset.sum_singleton, hten] at hcredits
  have hroom : 0 + creditsOf oneCheckout "ana" (approvals "wompi" oneCheckout A) ≤ (10 : Int) := by
    simpa [creditsOf] using hcredits
  exact Wallet.fits_of_le hroom rfl

/-- The provider answers with the approval of the checkout. -/
abbrev confirming : Proc.Surroundings Answer :=
  undisturbed "" 3 (some (approvalOf "u1").transaction)

/-- The return of the user. -/
abbrev confirmation : Request Unit := confirmFromReturn sampleDeployment.provider "ana" "o1" "u1"

theorem makes_delivery (D : Db) :
    Makes sampleDeployment.provider D (.deliver (approvalOf "u1")) (after confirming delivery D) :=
  .deliver confirming (undisturbed_healthy _ _ _)

theorem makes_confirmation (D : Db) :
    Makes sampleDeployment.provider D (.confirm "ana" "o1" (approvalOf "u1").transaction)
      (after confirming confirmation D) :=
  .confirm confirming (undisturbed_healthy _ _ _) fun _ => rfl

/-- Any steps of the two kinds with a delivery among them. -/
theorem mixed_checkout {steps : List (PaymentStep ParsedWebhook)}
    (hmem : .deliver (approvalOf "u1") ∈ steps)
    (hsteps : ∀ step ∈ steps, step = .deliver (approvalOf "u1") ∨
      step = .confirm "ana" "o1" (approvalOf "u1").transaction) :
    Mixed sampleDeployment.provider [approvalOf "u1"] steps where
  delivered body := by
    rw [List.mem_singleton]
    constructor
    · intro h
      simpa using hsteps _ h
    · rintro rfl
      exact hmem
  confirmed userId orderId t h := by
    obtain ⟨-, -, rfl⟩ : userId = "ana" ∧ orderId = "o1" ∧ t = (approvalOf "u1").transaction := by
      simpa using hsteps _ h
    exact ⟨_, List.mem_singleton_self _, _, rfl⟩

/-- The approval of the checkout is delivered twice, or confirmed and then delivered. -/
theorem delivery_order_immaterial_of_fresh :
    SameOutcome (after confirming delivery (after confirming delivery oneCheckout))
      (after confirming delivery (after confirming confirmation oneCheckout)) := by
  refine (delivery_order_immaterial_iff sampleDeployment.provider (onePayment_checkout rfl)
    belong_oneCheckout (deliveries_checkout rfl)).mpr ?_ _ _ _ _
      (mixed_checkout (by simp) (by simp)) (mixed_checkout (by simp) (by simp))
      ((Processed.nil.snoc (makes_delivery _)).snoc (makes_delivery _))
      ((Processed.nil.snoc (makes_confirmation _)).snoc (makes_delivery _))
  refine ⟨fun body hbody reference hdue => ?_, affordable_oneCheckout _⟩
  obtain rfl : body = approvalOf "u1" := by simpa using hbody
  refine ⟨approvalOf "u1", hbody, _, _, rfl, rfl, fun body' hbody' t' hparse => ?_⟩
  obtain rfl : body' = approvalOf "u1" := by simpa using hbody'
  exact hdue

/-- After the half delivery, redeliveries leave the payment open and a confirmation
closes it. -/
theorem redelivery_order_matters : ∃ steps₁ steps₂ E₁ E₂,
    OnePayment halfDelivered ∧
    Deliveries sampleDeployment.provider halfDelivered [approvalOf "u1"] ∧
    Mixed sampleDeployment.provider [approvalOf "u1"] steps₁ ∧
    Mixed sampleDeployment.provider [approvalOf "u1"] steps₂ ∧
    Processed sampleDeployment.provider halfDelivered steps₁ E₁ ∧
    Processed sampleDeployment.provider halfDelivered steps₂ E₂ ∧
    (E₁.payments.lookup ("wompi", "order-o1-u1")).map (·.status) = some .PENDING ∧
    (E₂.payments.lookup ("wompi", "order-o1-u1")).map (·.status) = some .APPROVED :=
  ⟨_, _, _, _, onePayment_checkout rfl, deliveries_checkout rfl,
    mixed_checkout (by simp) (by simp), mixed_checkout (by simp) (by simp),
    Processed.nil.snoc (makes_delivery _),
    (Processed.nil.snoc (makes_delivery _)).snoc (makes_confirmation _), rfl, rfl⟩

end Samples

end TaroTria
