import TaroTria.Payments.DeliveryOrder
import TaroTria.Payments.PrintedNumbers
import TaroTria.Payments.WebhookSignature
import TaroTria.Transactions.Latch

/-!
# What an event id identifies

The id of an event joins three fields with a sign that two of them may contain. The
status is its last word in upper case, so the fields can be told apart. A delivery is
dropped only for an event with the same id, so no different event is dropped.
-/

namespace TaroTria

open Transactions

namespace WompiProvider

/-- The body is well formed and its signature is valid. -/
structure Accepted (sha256Hex : String → String) (eventsSecret : String) (rawBody : Json)
    (webhook : WompiWebhook) (parsed : ParsedWebhook) : Prop where
  schema : wompiWebhookSchema rawBody = some webhook
  verified : verifyAndParseWebhook sha256Hex eventsSecret rawBody = some parsed

/-- Two bodies tell of one event. -/
structure SameEvent (w₁ w₂ : WompiWebhook) : Prop where
  id : w₁.transaction.id = w₂.transaction.id
  status : w₁.transaction.status = w₂.transaction.status
  timestamp : w₁.timestamp = w₂.timestamp

variable {sha256Hex : String → String} {eventsSecret : String} {rawBody : Json}
  {webhook w₁ w₂ : WompiWebhook} {parsed : ParsedWebhook}

theorem Accepted.eventId (h : Accepted sha256Hex eventsSecret rawBody webhook parsed) :
    parsed.eventId.toList = webhook.transaction.id.toList ++
      '-' :: ((statusText webhook.transaction.status).toList ++
        '-' :: webhook.timestamp.toString.toList) := by
  have hparsed := h.verified
  simp only [verifyAndParseWebhook, h.schema, Option.bind_eq_bind, Option.bind_some] at hparsed
  split at hparsed
  · cases hparsed
  · cases hparsed
    simp

/-- A status word has only letters in upper case. -/
theorem isUpper_of_mem_statusText (s : TransactionStatus) :
    ∀ c ∈ (statusText s).toList, c.isUpper = true := by
  have hall : (statusText s).toList.all Char.isUpper = true := by cases s <;> decide
  exact List.all_eq_true.mp hall

/-- The fields of an event id are determined by it. -/
theorem eventId_fields_inj {id₁ id₂ : List Char} {s₁ s₂ : TransactionStatus} {t₁ t₂ : JsNumber}
    (h : id₁ ++ '-' :: ((statusText s₁).toList ++ '-' :: t₁.toString.toList) =
      id₂ ++ '-' :: ((statusText s₂).toList ++ '-' :: t₂.toString.toList)) :
    id₁ = id₂ ∧ s₁ = s₂ ∧ t₁ = t₂ := by
  -- The timestamp and the sign before it are what follows the last letter in upper case.
  have htail : ∀ (t : JsNumber), ∀ c ∈ '-' :: t.toString.toList, c.isUpper = false := by
    intro t c hc
    rcases List.mem_cons.mp hc with rfl | hc
    · decide
    · exact JsNumber.not_isUpper_of_mem_toString hc
  have hlast : ∀ (front : List Char) (s : TransactionStatus),
      ∃ c ∈ (front ++ '-' :: (statusText s).toList).getLast?, ¬ c.isUpper = false := by
    intro front s
    have hne : (statusText s).toList ≠ [] := by cases s <;> decide
    rw [List.getLast?_append_of_ne_nil _ (List.cons_ne_nil _ _),
      List.getLast?_cons_of_ne_nil hne]
    obtain ⟨c, hc⟩ := Option.ne_none_iff_exists'.mp (mt List.getLast?_eq_none_iff.mp hne)
    exact ⟨c, hc, by simp [isUpper_of_mem_statusText s c (List.mem_of_getLast? hc)]⟩
  have hsplit : (id₁ ++ '-' :: (statusText s₁).toList) ++ '-' :: t₁.toString.toList =
      (id₂ ++ '-' :: (statusText s₂).toList) ++ '-' :: t₂.toString.toList := by
    simpa using h
  obtain ⟨hfront, ht⟩ := append_inj_of_last hsplit (htail t₁) (htail t₂) (hlast id₁ s₁)
    (hlast id₂ s₂)
  -- The status is what follows the last sign before it.
  have hsign : ∀ (front : List Char), ∃ c ∈ (front ++ ['-']).getLast?, ¬ c.isUpper = true := by
    intro front
    exact ⟨'-', by simp, by decide⟩
  have hsplit' : (id₁ ++ ['-']) ++ (statusText s₁).toList =
      (id₂ ++ ['-']) ++ (statusText s₂).toList := by
    simpa using hfront
  obtain ⟨hid, hs⟩ := append_inj_of_last hsplit' (isUpper_of_mem_statusText s₁)
    (isUpper_of_mem_statusText s₂) (hsign id₁) (hsign id₂)
  exact ⟨List.append_cancel_right hid, statusText_injective (String.toList_inj.mp hs),
    JsNumber.toString_injective (String.toList_inj.mp (List.cons.inj ht).2)⟩

theorem Accepted.eventId_eq_iff {rawBody₁ rawBody₂ : Json} {r₁ r₂ : ParsedWebhook}
    (h₁ : Accepted sha256Hex eventsSecret rawBody₁ w₁ r₁)
    (h₂ : Accepted sha256Hex eventsSecret rawBody₂ w₂ r₂) :
    r₁.eventId = r₂.eventId ↔ SameEvent w₁ w₂ := by
  rw [← String.toList_inj, h₁.eventId, h₂.eventId]
  constructor
  · intro h
    obtain ⟨hid, hs, ht⟩ := eventId_fields_inj h
    exact ⟨String.toList_inj.mp hid, hs, ht⟩
  · rintro ⟨hid, hs, ht⟩
    rw [hid, hs, ht]

end WompiProvider

namespace PaymentsService

variable {Body : Type} (P : PaymentProvider Body) (bodies : Body → Prop) (D : Db)

/-- An event that has a row now had one in `D`, or one of the bodies has its id. -/
def Recorded (E : Db) : Prop :=
  ∀ eventId, Stored P E eventId → Stored P D eventId ∨
    ∃ rawBody parsed, bodies rawBody ∧ P.verifyAndParseWebhook rawBody = some parsed ∧
      parsed.eventId = eventId

variable {P bodies D}

theorem Recorded.of_eq {E E' : Db} (h : Recorded P bodies D E)
    (heq : E'.webhookEvents = E.webhookEvents) : Recorded P bodies D E' := by
  intro eventId hstored
  unfold Stored at hstored
  rw [heq] at hstored
  exact h eventId hstored

theorem Recorded.create {E : Db} {rawBody : Body} {eventId : String} {t : TransactionResult}
    {row : WebhookEvent} (h : Recorded P bodies D E) (hbody : bodies rawBody)
    (hparse : P.verifyAndParseWebhook rawBody = some ⟨eventId, t⟩) :
    Recorded P bodies D (view [.webhookEvent (P.name, eventId) (some row)] E) := by
  intro eventId' hstored
  by_cases heq : eventId' = eventId
  · subst heq
    exact .inr ⟨rawBody, _, hbody, hparse, rfl⟩
  · refine h eventId' fun hnone => hstored ?_
    have hne : (P.name, eventId') ≠ (P.name, eventId) := by simp [heq]
    have hlookup := Table.lookup_write_of_ne E.webhookEvents (some row) hne
    simpa [view] using hlookup.trans hnone

theorem keeps_applyTransaction (key : String × String) (payment : Payment)
    (t : TransactionResult) : (applyTransaction key payment t).Keeps (Recorded P bodies D) := by
  unfold applyTransaction
  split
  · trivial
  split
  · trivial
  · refine Proc.every_transaction fun E => wp_approvePaymentTx (fun h => h) ?_
    intro _ _ _ _ _ _ _ _ _ _ _ _ _ h
    exact h.of_eq (by simp [WalletService.purchaseWrites])
  · refine Proc.every_transaction fun E => wp_markPaymentTerminalTx (fun h => h) ?_ ?_
    · intro _ _ _ _ _ _ h
      exact h.of_eq (by simp)
    · intro _ _ _ _ _ _ h
      exact h.of_eq (by simp)

theorem keeps_handleWebhook {rawBody : Body} (hbody : bodies rawBody) :
    (handleWebhook P rawBody).Keeps (Recorded P bodies D) := by
  unfold handleWebhook
  split
  · rename_i eventId t hparse
    refine Proc.Every.bind ?_ fun fresh => ?_
    · unfold recordDelivery
      refine Proc.Every.handle (Proc.Every.bind (Proc.every_transaction fun E => ?_)
        fun _ => trivial) fun e => ?_
      · exact Db.webhookEvent.wp_create fun _ h => h.create hbody hparse
      · cases e <;> trivial
    · split
      · refine Proc.Every.bind (Proc.every_select (fun _ h => h) _) fun found => ?_
        cases found with
        | none => trivial
        | some payment => exact keeps_applyTransaction _ payment t
      · trivial
  · trivial

/-- In every run of deliveries, whatever fails in it, an event with a row had one before or
is the event of a body that was delivered. -/
theorem recorded_of_run {E : Pool Db RowWrite Err Body Answer Unit}
    (run : Pool.Reach (handleWebhook P) bodies (fun _ _ => True) (.idle D) E) :
    Recorded P bodies D E.db :=
  run.invariant (K := fun _ E L => Recorded P bodies D E → Recorded P bodies D (view L E))
    (I := fun E _ => Recorded P bodies D E) (fun _ _ h => h)
    (fun _ hbody => keeps_handleWebhook hbody) (fun _ h => .inl h)
    fun _ _ _ _ _ _ _ hkeep heq h => heq ▸ hkeep h

end PaymentsService

namespace WompiProvider

open PaymentsService

/-- Event ids identify events, and an event that has a row after any run of deliveries had
one before, or a body of the run tells of the same event. -/
theorem eventIds_identify_events (sha256Hex : String → String) (config : Config)
    (vouches : String → TransactionResult → Prop) (rawBody₁ rawBody₂ : Json) (w₁ w₂ : WompiWebhook)
    (r₁ r₂ : ParsedWebhook) (h₁ : Accepted sha256Hex config.eventsSecret rawBody₁ w₁ r₁)
    (h₂ : Accepted sha256Hex config.eventsSecret rawBody₂ w₂ r₂) (bodies : Json → Prop) (D : Db)
    (s : Pool Db RowWrite Err Json Answer Unit)
    (run : Pool.Reach (handleWebhook (provider sha256Hex config vouches)) bodies
      (fun _ _ => True) (.idle D) s) :
    (r₁.eventId = r₂.eventId ↔ SameEvent w₁ w₂) ∧
      (PaymentsService.Stored (provider sha256Hex config vouches) s.db r₂.eventId →
        PaymentsService.Stored (provider sha256Hex config vouches) D r₂.eventId ∨
          ∃ rawBody w r, bodies rawBody ∧ Accepted sha256Hex config.eventsSecret rawBody w r ∧
            SameEvent w w₂) := by
  refine ⟨h₁.eventId_eq_iff h₂, fun hstored => ?_⟩
  rcases recorded_of_run run _ hstored with hbefore | ⟨rawBody, r, hbody, hverified, heq⟩
  · exact .inl hbefore
  · have hschema : (wompiWebhookSchema rawBody).isSome = true := by
      cases hw : wompiWebhookSchema rawBody with
      | some w => rfl
      | none =>
          have hverified' : verifyAndParseWebhook sha256Hex config.eventsSecret rawBody = some r :=
            hverified
          simp [verifyAndParseWebhook, hw] at hverified'
    obtain ⟨w, hw⟩ := Option.isSome_iff_exists.mp hschema
    have haccepted : Accepted sha256Hex config.eventsSecret rawBody w r := ⟨hw, hverified⟩
    exact .inr ⟨rawBody, w, r, hbody, haccepted, (haccepted.eventId_eq_iff h₂).mp heq⟩

/-- A provider with the sample digest, whose API vouches for nothing. -/
def sampleProvider : PaymentProvider Json :=
  provider sampleSha256Hex ⟨"", "", "events-secret"⟩ fun _ _ => False

/-- A delivery that is recorded. -/
def sampleDelivery : List (Event Json Answer) :=
  [.spawn 0 (sampleBody "order-1-abc" "COP"), .go 0 .done (sampleAnswer .COMPLETED)]

/-- The two sample deliveries tell of one event: once the first one is recorded, the second
one has a row, and a body of the run tells of its event. -/
theorem eventIds_identify_events_sample : ∃ s : Pool Db RowWrite Err Json Answer Unit,
    PaymentsService.Stored sampleProvider s.db "tx-1-APPROVED-1700000000" ∧
    SameEvent (sampleParsed "order-1-abc" "COP") (sampleParsed "order-2-xyz" "USD") ∧
    ∃ rawBody w r, rawBody = sampleBody "order-1-abc" "COP" ∧
      Accepted sampleSha256Hex "events-secret" rawBody w r ∧
      SameEvent w (sampleParsed "order-2-xyz" "USD") := by
  have hrun : ((Pool.idle Db.empty).run (handleWebhook sampleProvider) Pool.unchecked
      sampleDelivery).map (fun s => (s.db.webhookEvents.lookup
        (sampleProvider.name, "tx-1-APPROVED-1700000000")).isSome) = some true := by decide +kernel
  obtain ⟨s, hs, hstored⟩ := Option.map_eq_some_iff.mp hrun
  have run : Pool.Reach (handleWebhook sampleProvider) (· = sampleBody "order-1-abc" "COP")
      (fun _ _ => True) (.idle Db.empty) s :=
    Pool.Reach.refl.run (fun _ _ _ => trivial) _ (by simp [sampleDelivery, Event.Starts]) hs
  have hnew : PaymentsService.Stored sampleProvider s.db "tx-1-APPROVED-1700000000" :=
    Option.isSome_iff_ne_none.mp hstored
  obtain ⟨hsame, hevent⟩ := eventIds_identify_events sampleSha256Hex
    ⟨"", "", "events-secret"⟩ (fun _ _ => False) _ _ _ _ _ _
    ⟨sampleBody_parsed.1, sampleBody_accepted.1⟩ ⟨sampleBody_parsed.2, sampleBody_accepted.2⟩
    _ _ _ run
  exact ⟨s, hnew, hsame.mp rfl, (hevent hnew).resolve_left fun h => h rfl⟩

end WompiProvider

end TaroTria
