import TaroTria.Payments.WebhookSignature
import TaroTria.Transactions.SharedWorld

/-!
# Signed checkouts

A checkout carries a signature of its reference, amount and currency, joined without
separators. Wompi executes whatever it is shown under the signature of a checkout. What it
executes on a reference that the service has stored is the amount of the order.

## Implementation notes

`sha256Hex` is any injective function. An id of `randomUUID` has 36 characters, and the
currencies of Wompi and of the packages begin with a letter.
-/

namespace TaroTria

open Transactions

namespace SignedCheckouts

open WompiProvider

/-! ## What a signature binds -/

/-- The code of a currency begins with a letter. -/
def IsCurrency (s : String) : Prop := ∃ c ∈ s.toList.head?, ¬ IsAmountChar c

/-- The start of a text is determined when it has only characters of a kind and the rest
begins with another. -/
theorem append_inj_of_head {α : Type} {p : α → Prop} {xs₁ xs₂ ys₁ ys₂ : List α}
    (heq : xs₁ ++ ys₁ = xs₂ ++ ys₂) (hx₁ : ∀ x ∈ xs₁, p x) (hx₂ : ∀ x ∈ xs₂, p x)
    (hy₁ : ∃ y ∈ ys₁.head?, ¬ p y) (hy₂ : ∃ y ∈ ys₂.head?, ¬ p y) : xs₁ = xs₂ ∧ ys₁ = ys₂ := by
  have key : ∀ {xs ys zs : List α}, (∃ y ∈ (zs ++ ys).head?, ¬ p y) → (∀ x ∈ xs ++ zs, p x) →
      zs = [] := by
    intro xs ys zs hy hx
    cases zs with
    | nil => rfl
    | cons z zs =>
        obtain ⟨y, hy, hpy⟩ := hy
        cases hy
        exact absurd (hx z (by simp)) hpy
  rcases List.append_eq_append_iff.mp heq with ⟨zs, rfl, rfl⟩ | ⟨zs, rfl, rfl⟩
  · obtain rfl := key hy₁ hx₂
    simp
  · obtain rfl := key hy₂ hx₁
    simp

/-- References of one length are told apart by what is signed, and so are the amounts and the
currencies. -/
theorem signed_inj {reference₁ reference₂ currency₁ currency₂ secret : String}
    {amount₁ amount₂ : Int}
    (hlen : reference₁.length = reference₂.length) (hc₁ : IsCurrency currency₁)
    (hc₂ : IsCurrency currency₂)
    (h : reference₁ ++ amount₁.repr ++ currency₁ ++ secret =
      reference₂ ++ amount₂.repr ++ currency₂ ++ secret) :
    reference₁ = reference₂ ∧ amount₁ = amount₂ ∧ currency₁ = currency₂ := by
  have hchars := congrArg String.toList h
  simp only [String.toList_append] at hchars
  have htext := List.append_cancel_right hchars
  rw [List.append_assoc, List.append_assoc] at htext
  have hlen' : reference₁.toList.length = reference₂.toList.length := by
    rw [String.length_toList, String.length_toList, hlen]
  obtain ⟨hreference, hrest⟩ := List.append_inj htext hlen'
  obtain ⟨hamount, hcurrency⟩ := append_inj_of_head hrest
    (fun _ hx => isAmountChar_of_mem_repr hx) (fun _ hx => isAmountChar_of_mem_repr hx) hc₁ hc₂
  exact ⟨String.toList_inj.mp hreference, repr_injective (String.toList_inj.mp hamount),
    String.toList_inj.mp hcurrency⟩

/-! ## The service and the provider -/

/-- The configuration of the payments. -/
structure PaymentsConfig where
  sha256Hex : String → String
  wompi : WompiProvider.Config
  appUrl : String

variable {Other : Type}

inductive CheckoutRequest (Other : Type)
  | createOrder (userId : Id) (packageCode : String)
  | createCheckoutIntent (userId orderId : Id)
  | handleWebhook (rawBody : WompiProvider.Json)
  | confirmFromReturn (userId orderId : Id) (providerTransactionId : String)
  | other (o : Other)

/-- Wompi, as the payments service sees it. -/
abbrev PaymentsConfig.provider (C : PaymentsConfig) : PaymentProvider WompiProvider.Json :=
  WompiProvider.provider C.sha256Hex C.wompi fun id t => t.providerTransactionId = id

/-- The request of a call. It returns the checkout that it answers. -/
def CheckoutRequest.prog (C : PaymentsConfig) (others : Other → TxM Unit) :
    CheckoutRequest Other → Request (Option CheckoutIntent)
  | createOrder userId packageCode => do
      let _ ← OrdersService.create userId packageCode
      return none
  | createCheckoutIntent userId orderId => do
      return some (← PaymentsService.createCheckoutIntent C.provider C.appUrl userId orderId)
  | handleWebhook rawBody => do
      PaymentsService.handleWebhook C.provider rawBody
      return none
  | confirmFromReturn userId orderId providerTransactionId => do
      PaymentsService.confirmFromReturn C.provider userId orderId providerTransactionId
      return none
  | other o => do
      Proc.transaction (others o)
      return none

/-- The checkouts that were answered, and the transactions that Wompi has executed. -/
structure Wompi where
  issued : List CheckoutIntent
  executed : List TransactionResult
  deriving DecidableEq

/-- What a call may be answered, and what it leaves. Every call may fail. -/
def Replies (q : Query) (w : Wompi) (r : Except Err (Answer q)) (w' : Wompi) : Prop :=
  match q, r with
  | .randomUUID, .ok uuid => uuid.length = 36 ∧ w' = w
  | .fetchTransaction id, .ok (some t) => t ∈ w.executed ∧ t.providerTransactionId = id ∧ w' = w
  | _, _ => w' = w

/-- What is signed of a transaction. -/
def signedText (C : PaymentsConfig) (t : TransactionResult) : String :=
  t.reference ++ t.amountInCents.repr ++ t.currency ++ C.wompi.integritySecret

/-- Wompi executes a transaction that is shown under the signature of a checkout. -/
def Executes (C : PaymentsConfig) (w w' : Wompi) : Prop :=
  ∃ t, IsCurrency t.currency ∧
    (∃ intent ∈ w.issued, C.sha256Hex (signedText C t) = intent.integritySignature) ∧
      w' = { w with executed := t :: w.executed }

/-- The service of payments with Wompi, beside transactions of other services. -/
def service (C : PaymentsConfig) (others : Other → TxM Unit) :
    Setting Db RowWrite Err Wompi (CheckoutRequest Other) Answer (Option CheckoutIntent) where
  prog := CheckoutRequest.prog C others
  reply := Replies
  moves := Executes C
  returns
    | .createCheckoutIntent _ _, some intent, w => { w with issued := intent :: w.issued }
    | _, _, w => w

/-! ## The invariant -/

def orderTerms (o : Order) : Id × Int × String := (o.userId, o.priceCents, o.currency)

def paymentTerms (p : Payment) : Id × Int × String := (p.orderId, p.amountCents, p.currency)

/-- A payment is one of an order, with its amount, and its reference names the order. -/
structure Billed (D : Db) (reference : String) (p : Payment) : Prop where
  order : ∃ o, D.orders.lookup p.orderId = some o ∧ o.priceCents = p.amountCents ∧
    o.currency = p.currency
  reference : ∃ uuid, uuid.length = 36 ∧ reference = "order-" ++ p.orderId ++ "-" ++ uuid

/-- The rows of orders and payments are well formed. -/
structure Billing (D : Db) : Prop where
  packages : ∀ code pkg, D.creditPackages.lookup code = some pkg → IsCurrency pkg.currency
  orders : ∀ id o, D.orders.lookup id = some o → id.length = 36 ∧ IsCurrency o.currency
  payments : ∀ name reference p, D.payments.lookup (name, reference) = some p →
    Billed D reference p

/-- The checkout that a payment stands for. -/
def Stored (C : PaymentsConfig) (D : Db) (intent : CheckoutIntent) : Prop :=
  ∃ p, D.payments.lookup ("wompi", intent.reference) = some p ∧
    intent = C.provider.buildCheckoutIntent intent.reference p.amountCents p.currency
      (C.appUrl ++ "/wallet/checkout/" ++ p.orderId)

/-- A transaction was shown under the signature of a checkout. -/
def Signed (C : PaymentsConfig) (w : Wompi) (t : TransactionResult) : Prop :=
  IsCurrency t.currency ∧
    ∃ intent ∈ w.issued, C.sha256Hex (signedText C t) = intent.integritySignature

structure Inv (C : PaymentsConfig) (w : Wompi) (D : Db) : Prop where
  billing : Billing D
  issued : ∀ intent ∈ w.issued, Stored C D intent
  executed : ∀ t ∈ w.executed, Signed C w t

/-- Orders and payments keep their terms. -/
structure Later (D D' : Db) : Prop where
  orders : D.orders.Persists (fun o o' => orderTerms o' = orderTerms o) D'.orders
  payments : D.payments.Persists (fun p p' => paymentTerms p' = paymentTerms p) D'.payments

theorem Later.refl (D : Db) : Later D D where
  orders _ o h := ⟨o, h, rfl⟩
  payments _ p h := ⟨p, h, rfl⟩

theorem Later.trans {D₁ D₂ D₃ : Db} (h : Later D₁ D₂) (h' : Later D₂ D₃) : Later D₁ D₃ where
  orders := .trans (fun hr hr' => hr'.trans hr) h.orders h'.orders
  payments := .trans (fun hr hr' => hr'.trans hr) h.payments h'.payments

def rely (C : PaymentsConfig) : Rely Wompi Db where
  Inv := Inv C
  Later _ D _ D' := Later D D'
  refl _ := Later.refl
  trans := Later.trans

section Steps

variable {C : PaymentsConfig} {D D' : Db} {w : Wompi}

theorem Stored.later {intent : CheckoutIntent} (h : Stored C D intent) (hl : Later D D') :
    Stored C D' intent := by
  obtain ⟨p, hp, hintent⟩ := h
  obtain ⟨p', hp', hterms⟩ := hl.payments _ p hp
  simp only [paymentTerms, Prod.mk.injEq] at hterms
  refine ⟨p', hp', ?_⟩
  rw [hterms.1, hterms.2.1, hterms.2.2]
  exact hintent

/-- A commit keeps the rely if it keeps the rows well formed and their terms. -/
theorem Inv.keeps (h : Inv C w D) (hb : Billing D') (hl : Later D D') :
    (rely C).Keeps w D w D' :=
  ⟨⟨hb, fun intent hi => (h.issued intent hi).later hl, h.executed⟩, hl⟩

theorem Billed.later {reference : String} {p p' : Payment} (h : Billed D reference p)
    (hterms : paymentTerms p' = paymentTerms p) (hl : Later D D') : Billed D' reference p' := by
  obtain ⟨o, ho, hprice, hcurrency⟩ := h.order
  obtain ⟨o', ho', hsame⟩ := hl.orders _ o ho
  simp only [paymentTerms, orderTerms, Prod.mk.injEq] at hterms hsame
  refine ⟨⟨o', ?_, ?_, ?_⟩, ?_⟩
  · rw [hterms.1]
    exact ho'
  · rw [hsame.2.1, hterms.2.1, hprice]
  · rw [hsame.2.2, hterms.2.2, hcurrency]
  · rw [hterms.1]
    exact h.reference

/-- Two states whose orders and payments have the same terms. -/
structure SameTerms (D D' : Db) : Prop where
  packages : D'.creditPackages = D.creditPackages
  orders : ∀ id, (D'.orders.lookup id).map orderTerms = (D.orders.lookup id).map orderTerms
  payments : ∀ key,
    (D'.payments.lookup key).map paymentTerms = (D.payments.lookup key).map paymentTerms

theorem SameTerms.of_eq (hpackages : D'.creditPackages = D.creditPackages)
    (horders : D'.orders = D.orders) (hpayments : D'.payments = D.payments) : SameTerms D D' :=
  ⟨hpackages, fun _ => by rw [horders], fun _ => by rw [hpayments]⟩

/-- A row that is written anew with the same terms. -/
theorem map_lookup_write {κ α β : Type} [DecidableEq κ] {t : Table κ α} {f : α → β} {k : κ}
    {v v' : α} (hv : t.lookup k = some v) (hf : f v' = f v) (j : κ) :
    ((t.write k (some v')).lookup j).map f = (t.lookup j).map f := by
  rw [Table.lookup_write]
  split
  · rename_i hj
    rw [hj, hv]
    exact congrArg some hf
  · rfl

theorem persists_of_map {κ α β : Type} [DecidableEq κ] {t t' : Table κ α} {f : α → β}
    (h : ∀ k, (t'.lookup k).map f = (t.lookup k).map f) :
    t.Persists (fun v v' => f v' = f v) t' := by
  intro k v hv
  have hk := h k
  rw [hv] at hk
  exact Option.map_eq_some_iff.mp hk

theorem SameTerms.later (h : SameTerms D D') : Later D D' :=
  ⟨persists_of_map h.orders, persists_of_map h.payments⟩

theorem Billing.same (hb : Billing D) (h : SameTerms D D') : Billing D' where
  packages code pkg hpkg := hb.packages code pkg (h.packages ▸ hpkg)
  orders id o ho := by
    obtain ⟨o₀, ho₀, hterms⟩ := persists_of_map (fun k => (h.orders k).symm) id o ho
    simp only [orderTerms, Prod.mk.injEq] at hterms
    rw [← hterms.2.2]
    exact hb.orders id o₀ ho₀
  payments name reference p hp := by
    obtain ⟨p₀, hp₀, hterms⟩ := persists_of_map (fun k => (h.payments k).symm) _ p hp
    exact (hb.payments name reference p₀ hp₀).later hterms.symm h.later

theorem Inv.keeps_same (h : Inv C w D) (hs : SameTerms D D') : (rely C).Keeps w D w D' :=
  h.keeps (h.billing.same hs) hs.later

/-- A new order of a package. -/
theorem Inv.keeps_order (h : Inv C w D) {id : Id} {o : Order} (hid : id.length = 36)
    (hfresh : D.orders.lookup id = none) (hcurrency : IsCurrency o.currency)
    (hpackages : D'.creditPackages = D.creditPackages)
    (horders : D'.orders = D.orders.write id (some o)) (hpayments : D'.payments = D.payments) :
    (rely C).Keeps w D w D' := by
  have hl : Later D D' := by
    refine ⟨?_, ?_⟩
    · rw [horders]
      exact Table.Persists.insert (R := fun o o' => orderTerms o' = orderTerms o) (fun _ => rfl) _
        hfresh
    · rw [hpayments]
      exact (Later.refl D).payments
  refine h.keeps ⟨fun code pkg hpkg => ?_, fun id' o' ho' => ?_, fun name reference p hp => ?_⟩ hl
  · exact h.billing.packages code pkg (hpackages ▸ hpkg)
  · rw [horders, Table.lookup_write] at ho'
    split at ho'
    · rename_i heq
      cases ho'
      exact ⟨heq ▸ hid, hcurrency⟩
    · exact h.billing.orders id' o' ho'
  · rw [hpayments] at hp
    exact (h.billing.payments name reference p hp).later rfl hl

/-- A new payment of an order. -/
theorem Inv.keeps_payment (h : Inv C w D) {name reference : String} {p : Payment}
    (hfresh : D.payments.lookup (name, reference) = none) (hbilled : Billed D reference p)
    (hpackages : D'.creditPackages = D.creditPackages) (horders : D'.orders = D.orders)
    (hpayments : D'.payments = D.payments.write (name, reference) (some p)) :
    (rely C).Keeps w D w D' := by
  have hl : Later D D' := by
    refine ⟨?_, ?_⟩
    · rw [horders]
      exact (Later.refl D).orders
    · rw [hpayments]
      exact Table.Persists.insert (R := fun p p' => paymentTerms p' = paymentTerms p)
        (fun _ => rfl) _ hfresh
  refine h.keeps ⟨fun code pkg hpkg => ?_, fun id o ho => ?_, fun name' reference' p' hp' => ?_⟩ hl
  · exact h.billing.packages code pkg (hpackages ▸ hpkg)
  · exact h.billing.orders id o (horders ▸ ho)
  · rw [hpayments, Table.lookup_write] at hp'
    split at hp'
    · rename_i heq
      cases hp'
      cases heq
      exact hbilled.later rfl hl
    · exact (h.billing.payments name' reference' p' hp').later rfl hl

/-- Wompi executes what it is shown. -/
theorem Inv.keeps_executes {w' : Wompi} (h : Inv C w D) (he : Executes C w w') :
    (rely C).Keeps w D w' D := by
  obtain ⟨t, hcurrency, hsigned, rfl⟩ := he
  refine ⟨⟨h.billing, h.issued, fun t' ht' => ?_⟩, .refl D⟩
  rcases List.mem_cons.mp ht' with rfl | hold
  · exact ⟨hcurrency, hsigned⟩
  · exact h.executed t' hold

/-- A checkout is answered. -/
theorem Inv.keeps_issued (h : Inv C w D) {intent : CheckoutIntent} (hstored : Stored C D intent) :
    (rely C).Keeps w D { w with issued := intent :: w.issued } D := by
  refine ⟨⟨h.billing, fun intent' hi => ?_, fun t ht => ?_⟩, .refl D⟩
  · rcases List.mem_cons.mp hi with rfl | hold
    · exact hstored
    · exact h.issued intent' hold
  · obtain ⟨hcurrency, intent', hi, hsigned⟩ := h.executed t ht
    exact ⟨hcurrency, intent', List.mem_cons_of_mem _ hi, hsigned⟩

end Steps

/-! ## The requests -/

section Requests

open PaymentsService

variable {C : PaymentsConfig} {others : Other → TxM Unit} {w : Wompi} {D : Db} {α : Type}

variable (C others) in
/-- The request keeps the rely, and ends in `P`. -/
abbrev Minded (P : Except Err α → Wompi → Db → Prop) (p : Request α) (w : Wompi) (D : Db) : Prop :=
  p.Minds (service C others) (fun _ _ _ _ => True) (rely C) P w D

theorem replies_same {q : Query} {r : Except Err (Answer q)} {w' : Wompi}
    (h : Replies q w r w') : w' = w := by
  unfold Replies at h
  split at h
  · exact h.2
  · exact h.2.2
  · exact h

theorem minded_call {q : Query} {P : Except Err (Answer q) → Wompi → Db → Prop}
    (h : ∀ r w₀ w' D', Later D D' → Replies q w₀ r w₀ → P r w' D') :
    Minded C others P (Proc.call q : Request (Answer q)) w D := by
  refine Proc.minds_call fun w' D' hl hI r w'' hreply _ => ?_
  obtain rfl := replies_same hreply
  exact ⟨(rely C).keeps_refl hI, fun w₁ D₁ hl' => h r _ w₁ D₁ (hl.trans hl') hreply⟩

theorem minded_select {f : Db → α} {P : Except Err α → Wompi → Db → Prop}
    (herr : ∀ e w' D', P (.error e) w' D')
    (hok : ∀ D₀ w' D', Billing D₀ → Later D₀ D' → P (.ok (f D₀)) w' D') :
    Minded C others P (Proc.transaction (Tx.select f) : Request α) w D :=
  Proc.minds_select (fun e w' D' _ => herr e w' D')
    fun _ D₀ w' D' _ hI hl => hok D₀ w' D' hI.billing hl

/-- A transaction that keeps the terms. -/
theorem minded_same {body : TxM α} {P : Except Err α → Wompi → Db → Prop}
    (hP : ∀ r w' D', P r w' D')
    (h : ∀ D', body.wp still D' (fun _ L => SameTerms D' (view L D')) []) :
    Minded C others P (Proc.transaction body : Request α) w D := by
  refine Proc.minds_transaction (fun e w' D' _ => hP _ w' D') fun w' D' _ hI => ?_
  refine Tx.wp_mono (fun a L hs => ?_) (h D')
  exact fun _ => ⟨hI.keeps_same hs, fun w'' D'' _ => hP _ w'' D''⟩

theorem minded_create (userId : Id) (packageCode : String) :
    Minded C others (fun _ _ _ => True) (OrdersService.create userId packageCode) w D := by
  unfold OrdersService.create OrdersService.findActiveByCode
  rw [bind_assoc]
  refine Proc.Minds.bind (minded_select (fun _ _ _ => trivial) fun D₀ _ D₁ hbilling _ => ?_)
  simp only
  split
  · rename_i pkg hpkg
    have hcurrency : IsCurrency pkg.currency :=
      hbilling.packages _ _ (Option.filter_eq_some_iff.mp hpkg).1
    simp only [pure_bind]
    refine Proc.Minds.bind (minded_call fun r _ _ D₂ _ hreply => ?_)
    cases r with
    | error e => trivial
    | ok orderId =>
        have hlength : orderId.length = 36 := hreply.1
        refine Proc.Minds.bind (minded_call fun r _ _ D₃ _ _ => ?_)
        cases r with
        | error e => trivial
        | ok readAt =>
            refine Proc.Minds.bind (minded_call fun r _ _ D₄ _ _ => ?_)
            cases r with
            | error e => trivial
            | ok consumedAt =>
                refine Proc.minds_transaction (fun _ _ _ _ => trivial) fun w' D' _ hI => ?_
                apply OrdersService.wp_createTx
                · intro hfresh _
                  exact ⟨Inv.keeps_order hI (o := OrdersService.newOrder userId pkg none) hlength
                    hfresh hcurrency rfl rfl rfl, fun _ _ _ => trivial⟩
                · intro offerId D₅ seen offer _ _ _ _ _ hfresh _
                  exact ⟨Inv.keeps_order hI
                    (o := OrdersService.newOrder userId pkg (some seen.discountPercent)) hlength
                    hfresh hcurrency rfl rfl rfl, fun _ _ _ => trivial⟩
  · exact fun _ _ _ => trivial

/-- A checkout is answered once its payment is stored. -/
theorem minded_createCheckoutIntent (userId orderId : Id) :
    Minded C others (fun r _ D' => ∀ intent, r = .ok intent → Stored C D' intent)
      (PaymentsService.createCheckoutIntent C.provider C.appUrl userId orderId) w D := by
  have hfailed : ∀ (e : Err) (D' : Db) intent,
      (.error e : Except Err CheckoutIntent) = .ok intent → Stored C D' intent :=
    fun e D' intent h => by cases h
  unfold PaymentsService.createCheckoutIntent findOwned
  refine Proc.Minds.bind (minded_select (fun e _ D' => hfailed e D')
    fun D₀ _ D₁ hbilling hl₁ => ?_)
  simp only
  split
  · rename_i order hfound
    have horder : D₀.orders.lookup orderId = some order :=
      (Option.filter_eq_some_iff.mp hfound).1
    split
    · exact fun _ D' _ => hfailed _ D'
    refine Proc.Minds.bind (minded_call fun r _ _ D₂ hl₂ hreply => ?_)
    cases r with
    | error e => exact hfailed e D₂
    | ok uuid =>
        have hlength : uuid.length = 36 := hreply.1
        refine Proc.Minds.bind (minded_call fun r _ _ D₃ hl₃ _ => ?_)
        cases r with
        | error e => exact hfailed e D₃
        | ok now =>
            refine Proc.Minds.bind (Proc.minds_transaction (fun e _ D' _ => hfailed e D')
              fun w' D₄ hl₄ hI => ?_)
            apply Db.payment.wp_create
            intro hfresh _
            obtain ⟨o, ho, hterms⟩ :=
              (hl₁.trans (hl₂.trans (hl₃.trans hl₄))).orders _ order horder
            simp only [orderTerms, Prod.mk.injEq] at hterms
            let p : Payment :=
              { orderId, providerTransactionId := none, status := .PENDING
                amountCents := order.priceCents, currency := order.currency, createdAt := now }
            have hbilled : Billed D₄ ("order-" ++ orderId ++ "-" ++ uuid) p :=
              ⟨⟨o, ho, hterms.2.1, hterms.2.2⟩, uuid, hlength, rfl⟩
            refine ⟨Inv.keeps_payment hI hfresh hbilled rfl rfl rfl,
              fun w₅ D₅ hl₅ w₆ D₆ hl₆ intent hintent => ?_⟩
            cases hintent
            exact Stored.later (Stored.later ⟨p, Table.lookup_write_self .., rfl⟩ hl₅) hl₆
  · exact fun _ D' _ => hfailed _ D'

theorem sameTerms_settled {key : String × String} {p : Payment} {t : TransactionResult}
    {status : PaymentStatus} {D' : Db} (hp : D.payments.lookup key = some p)
    (hpackages : D'.creditPackages = D.creditPackages)
    (horders : ∀ id, (D'.orders.lookup id).map orderTerms = (D.orders.lookup id).map orderTerms)
    (hpayments : D'.payments = D.payments.write key (some (settled p t status))) :
    SameTerms D D' := by
  have hterms : paymentTerms (settled p t status) = paymentTerms p := rfl
  refine ⟨hpackages, horders, fun k => ?_⟩
  rw [hpayments]
  exact map_lookup_write hp hterms k

theorem minded_applyTransaction (key : String × String) (payment : Payment)
    (t : TransactionResult) :
    Minded C others (fun _ _ _ => True) (applyTransaction key payment t) w D := by
  unfold applyTransaction
  split
  · exact fun _ _ _ => trivial
  split
  · exact fun _ _ _ => trivial
  · refine minded_same (fun _ _ _ => trivial) fun D' => ?_
    apply wp_approvePaymentTx
    · exact .of_eq rfl rfl rfl
    · intro p D₀ seen o wallet _ _ hp _ ho _ _ _
      exact sameTerms_settled hp rfl (map_lookup_write ho rfl) rfl
  · refine minded_same (fun _ _ _ => trivial) fun D' => ?_
    apply wp_markPaymentTerminalTx
    · exact .of_eq rfl rfl rfl
    · intro p D₀ hp _ _ _
      exact sameTerms_settled hp rfl (fun _ => rfl) rfl
    · intro p o hp _ ho _
      exact sameTerms_settled hp rfl (map_lookup_write ho rfl) rfl

theorem minded_recordDelivery (eventId : String) (eventType : TransactionStatus) :
    Minded C others (fun _ _ _ => True) (recordDelivery C.provider eventId eventType) w D := by
  unfold recordDelivery
  refine Proc.Minds.handle (Proc.Minds.bind (minded_same (fun r _ _ => ?_) fun D' => ?_))
  · cases r with
    | ok _ => exact fun _ _ _ => trivial
    | error e => cases e <;> exact fun _ _ _ => trivial
  · apply Db.webhookEvent.wp_create
    intro _
    exact .of_eq rfl rfl rfl

theorem minded_handleWebhook (rawBody : WompiProvider.Json) :
    Minded C others (fun _ _ _ => True) (PaymentsService.handleWebhook C.provider rawBody)
      w D := by
  unfold PaymentsService.handleWebhook
  split
  · rename_i eventId t _
    refine Proc.Minds.bind ((minded_recordDelivery eventId t.status).mono fun r w' D' _ => ?_)
    cases r with
    | error e => trivial
    | ok isNew =>
        simp only
        split
        · refine Proc.Minds.bind (minded_select (fun _ _ _ => trivial) fun _ _ _ _ _ => ?_)
          simp only
          split
          · exact minded_applyTransaction _ _ t
          · exact fun _ _ _ => trivial
        · exact fun _ _ _ => trivial
  · exact fun _ _ _ => trivial

theorem minded_confirmFromReturn (userId orderId : Id) (providerTransactionId : String) :
    Minded C others (fun _ _ _ => True)
      (PaymentsService.confirmFromReturn C.provider userId orderId providerTransactionId) w D := by
  unfold PaymentsService.confirmFromReturn findOwned
  refine Proc.Minds.bind (minded_select (fun _ _ _ => trivial) fun _ _ _ _ _ => ?_)
  simp only
  split
  · refine Proc.Minds.bind (minded_select (fun _ _ _ => trivial) fun _ _ _ _ _ => ?_)
    simp only
    split
    · refine Proc.Minds.bind (minded_call fun r _ _ _ _ _ => ?_)
      cases r with
      | error e => trivial
      | ok found =>
          cases found with
          | none => exact fun _ _ _ => trivial
          | some t =>
              simp only
              split
              · exact fun _ _ _ => trivial
              · exact minded_applyTransaction _ _ t
    · exact fun _ _ _ => trivial
  · exact fun _ _ _ => trivial

/-- The end of a request: a checkout that it answers stands for a stored payment. -/
def Ends (C : PaymentsConfig) (c : CheckoutRequest Other) (r : Except Err (Option CheckoutIntent))
    (_ : Wompi) (D : Db) : Prop :=
  ∀ userId orderId intent, c = .createCheckoutIntent userId orderId → r = .ok (some intent) →
    Stored C D intent

theorem ends_other {c : CheckoutRequest Other} (hc : ∀ userId orderId,
    c ≠ .createCheckoutIntent userId orderId) (r : Except Err (Option CheckoutIntent)) :
    Ends C c r w D :=
  fun userId orderId _ h => absurd h (hc userId orderId)

/-- A request that answers no checkout. -/
theorem minded_discard {c : CheckoutRequest Other} {p : Request α}
    (hc : ∀ userId orderId, c ≠ .createCheckoutIntent userId orderId)
    (h : Minded C others (fun _ _ _ => True) p w D) :
    Minded C others (Ends C c) (p >>= fun _ => pure none) w D := by
  refine Proc.Minds.bind (h.mono fun r w' D' _ => ?_)
  cases r with
  | ok _ => exact fun _ _ _ => ends_other hc _
  | error e => exact ends_other hc _

theorem minded_prog (hothers : ∀ o D L, (others o).run D [] = .ok ((), L) → SameTerms D (view L D))
    (c : CheckoutRequest Other) (w : Wompi) (D : Db) :
    Minded C others (Ends C c) (c.prog C others) w D := by
  cases c with
  | createOrder userId packageCode =>
      exact minded_discard (by simp) (minded_create userId packageCode)
  | handleWebhook rawBody => exact minded_discard (by simp) (minded_handleWebhook rawBody)
  | confirmFromReturn userId orderId id =>
      exact minded_discard (by simp) (minded_confirmFromReturn userId orderId id)
  | createCheckoutIntent userId orderId =>
      refine Proc.Minds.bind ((minded_createCheckoutIntent userId orderId).mono
        fun r w' D' h => ?_)
      cases r with
      | error e => exact fun _ _ _ _ hr => by cases hr
      | ok intent =>
          intro w'' D'' hl _ _ intent' _ hr
          cases hr
          exact (h intent rfl).later hl
  | other o =>
      refine minded_discard (by simp) fun w' D' _ hI => ⟨fun _ _ _ _ => trivial, ?_⟩
      intro _ L hrun _
      exact ⟨Inv.keeps_same hI (hothers o D' L hrun), fun _ _ _ => trivial⟩

end Requests

section Runs

variable {C : PaymentsConfig} {others : Other → TxM Unit}

/-- The references of payments have one length. -/
theorem Billing.reference_length {D : Db} (h : Billing D) {name reference : String} {p : Payment}
    (hp : D.payments.lookup (name, reference) = some p) : reference.length = 79 := by
  obtain ⟨⟨o, ho, -, -⟩, uuid, hlength, rfl⟩ := h.payments name reference p hp
  have hid := (h.orders _ o ho).1
  have horder : "order-".length = 6 := rfl
  have hdash : "-".length = 1 := rfl
  rw [String.length_append, String.length_append, String.length_append, hid, hlength, horder,
    hdash]

theorem Billing.currency {D : Db} (h : Billing D) {name reference : String} {p : Payment}
    (hp : D.payments.lookup (name, reference) = some p) : IsCurrency p.currency := by
  obtain ⟨o, ho, -, hcurrency⟩ := (h.payments name reference p hp).order
  exact hcurrency ▸ (h.orders _ o ho).2

/-- A transaction that Wompi has executed on the reference of a payment has its terms. -/
theorem Inv.executed_terms (hinj : Function.Injective C.sha256Hex) {w : Wompi} {D : Db}
    (h : Inv C w D) {t : TransactionResult} (ht : t ∈ w.executed) {p : Payment}
    (hp : D.payments.lookup ("wompi", t.reference) = some p) :
    t.amountInCents = p.amountCents ∧ t.currency = p.currency := by
  obtain ⟨hcurrency, intent, hissued, hsigned⟩ := h.executed t ht
  obtain ⟨p₁, hp₁, hintent⟩ := h.issued intent hissued
  rw [hintent] at hsigned
  have hlength : t.reference.length = intent.reference.length := by
    rw [h.billing.reference_length hp, h.billing.reference_length hp₁]
  obtain ⟨hreference, hamount, hcurrency⟩ :=
    signed_inj hlength hcurrency (h.billing.currency hp₁) (hinj hsigned)
  rw [← hreference, hp] at hp₁
  cases hp₁
  exact ⟨hamount, hcurrency⟩

/-- In every run that starts without orders and payments: a checkout that is answered has a
payment of an order, whose price and currency it asks for; and what Wompi executes under the
signature of any checkout, on the reference of any stored payment, has the price and the
currency of the order, so that it is never put aside as a mismatch. -/
theorem signed_transactions_pay_orders (hinj : Function.Injective C.sha256Hex)
    (hothers : ∀ o D L, (others o).run D [] = .ok ((), L) → SameTerms D (view L D)) {D : Db}
    (hpackages : ∀ code pkg, D.creditPackages.lookup code = some pkg → IsCurrency pkg.currency)
    (horders : D.orders = ∅) (hpayments : D.payments = ∅)
    {s : Scene Db RowWrite Err Wompi (CheckoutRequest Other) Answer (Option CheckoutIntent)}
    (run : (service C others).Reach (fun _ _ _ _ => True) ⟨⟨[], []⟩, D, fun _ => none⟩ s) :
    (∀ intent ∈ s.world.issued, ∃ p o,
      s.db.payments.lookup ("wompi", intent.reference) = some p ∧
        s.db.orders.lookup p.orderId = some o ∧ intent.amountInCents = o.priceCents ∧
        intent.currency = o.currency) ∧
    ∀ t ∈ s.world.executed, ∀ p, s.db.payments.lookup ("wompi", t.reference) = some p →
      p.amountCents = t.amountInCents ∧ p.currency = t.currency ∧
        ∃ o, s.db.orders.lookup p.orderId = some o ∧ o.priceCents = t.amountInCents ∧
          o.currency = t.currency := by
  have hstart : Setting.Minding (service C others) (fun _ _ _ _ => True) (rely C)
      (Ends C) ⟨⟨[], []⟩, D, fun _ => none⟩ := by
    refine ⟨⟨⟨hpackages, ?_, ?_⟩, ?_, ?_⟩, fun t c p hp => by cases hp⟩
    · intro id o ho
      simp [horders] at ho
    · intro name reference p hp
      simp [hpayments] at hp
    · intro intent hi
      cases hi
    · intro t ht
      cases ht
  have hminding := hstart.run (fun c w' D' _ => minded_prog hothers c w' D')
    (fun w' D' w'' hI hmove _ => Inv.keeps_executes hI hmove)
    (fun c a w' D' hI hend => ?_) run
  · have hinv : Inv C s.world s.db := hminding.inv
    refine ⟨fun intent hi => ?_, fun t ht p hp => ?_⟩
    · obtain ⟨p, hp, hintent⟩ := hinv.issued intent hi
      obtain ⟨o, ho, hprice, hcurrency⟩ := (hinv.billing.payments _ _ p hp).order
      refine ⟨p, o, hp, ho, ?_, ?_⟩
      · rw [hprice, hintent]
        rfl
      · rw [hcurrency, hintent]
        rfl
    · obtain ⟨hamount, hsame⟩ := hinv.executed_terms hinj ht hp
      obtain ⟨o, ho, hprice, hcurrency⟩ := (hinv.billing.payments _ _ p hp).order
      exact ⟨hamount.symm, hsame.symm, o, ho, hprice.trans hamount.symm,
        hcurrency.trans hsame.symm⟩
  · cases c with
    | createCheckoutIntent userId orderId =>
        cases a with
        | none => exact (rely C).keeps_refl hI
        | some intent => exact Inv.keeps_issued hI (hend userId orderId intent rfl rfl)
    | _ => exact (rely C).keeps_refl hI

end Runs

/-! ## A checkout that is paid -/

section Sample

/-- An injective function that gives one text a digest. -/
def digesting (text digest s : String) : String := if s = text then digest else unary s

theorem digesting_injective {text digest : String}
    (h : ∃ c ∈ digest.toList, c ≠ '0' ∧ c ≠ '1') : Function.Injective (digesting text digest) := by
  have hne : ∀ s, unary s ≠ digest := by
    rintro s rfl
    obtain ⟨c, hc, h0, h1⟩ := h
    exact (mem_unary hc).elim h0 h1
  intro s₁ s₂ heq
  unfold digesting at heq
  split at heq
  · rename_i h₁
    split at heq
    · rename_i h₂
      rw [h₁, h₂]
    · exact absurd heq.symm (hne s₂)
  · split at heq
    · exact absurd heq (hne s₁)
    · exact unary_injective heq

def sampleUuid : String := "1b4e28ba-2fa1-4d3b-a3f5-ef19b5a7633b"

def sampleReference : String := "order-" ++ sampleUuid ++ "-" ++ sampleUuid

/-- The SHA-256 digest of what the sample checkout signs. -/
def checkoutDigest : String := "7b6d77490ebe6ddeec53ddcfbb69cb2d77bec2cdcb6d1bde8be3823de8af218a"

def samplePayments : PaymentsConfig where
  sha256Hex := digesting (sampleReference ++ "1990000COPintegrity-secret") checkoutDigest
  wompi := ⟨"pub_test", "integrity-secret", "events-secret"⟩
  appUrl := "https://tarotria.com"

/-- A package of ten credits. -/
def packageDb : Db :=
  { Db.empty with
    creditPackages := (∅ : Table String CreditPackage).write "TEN"
      (some ⟨"p1", 10, 1990000, "COP", true⟩) }

/-- A world for concrete runs. -/
def paymentsWorld : World Wompi Err Answer
  | .randomUUID, w => (.ok sampleUuid, w)
  | .now, w => (.ok 0, w)
  | _, w => (.error .fault, w)

theorem replies_paymentsWorld (q : Query) (w : Wompi) :
    Replies q w (paymentsWorld q w).1 (paymentsWorld q w).2 := by
  cases q with
  | randomUUID => exact ⟨rfl, rfl⟩
  | _ => rfl

/-- What a request leaves, and what it answers. -/
def answered (c : CheckoutRequest Empty) (D : Db) :
    Wompi × Db × Except Err (Option CheckoutIntent) :=
  ((service samplePayments Empty.elim).prog c).play paymentsWorld ⟨[], []⟩ D

def orderedDb : Db := (answered (.createOrder "ana" "TEN") packageDb).2.1

def billedDb : Db := (answered (.createCheckoutIntent "ana" sampleUuid) orderedDb).2.1

def sampleIntent : CheckoutIntent where
  reference := sampleReference
  publicKey := "pub_test"
  amountInCents := 1990000
  currency := "COP"
  integritySignature := checkoutDigest
  redirectUrl := "https://tarotria.com/wallet/checkout/" ++ sampleUuid

theorem answered_order : (answered (.createOrder "ana" "TEN") packageDb).1 = ⟨[], []⟩ ∧
    (answered (.createOrder "ana" "TEN") packageDb).2.2 = .ok none := by
  decide +kernel

theorem answered_checkout :
    (answered (.createCheckoutIntent "ana" sampleUuid) orderedDb).1 = ⟨[], []⟩ ∧
      (answered (.createCheckoutIntent "ana" sampleUuid) orderedDb).2.2 =
        .ok (some sampleIntent) := by
  decide +kernel

/-- No request is being served. -/
def idle (w : Wompi) (D : Db) :
    Scene Db RowWrite Err Wompi (CheckoutRequest Empty) Answer (Option CheckoutIntent) :=
  ⟨w, D, fun _ => none⟩

theorem reach_answered {c : CheckoutRequest Empty} {D : Db} {a : Option CheckoutIntent}
    (h : (answered c D).1 = ⟨[], []⟩ ∧ (answered c D).2.2 = .ok a) :
    (service samplePayments Empty.elim).Reach (fun _ _ _ _ => True) (idle ⟨[], []⟩ D)
      (idle ((service samplePayments Empty.elim).returns c a ⟨[], []⟩) (answered c D).2.1) :=
  Setting.serve (H := service samplePayments Empty.elim) (t := 0) (s := idle ⟨[], []⟩ D)
    replies_paymentsWorld rfl (Proc.lets_of_forall (fun _ _ _ _ => trivial) _ _ _)
    (Prod.ext h.1 (Prod.ext rfl h.2))

/-- What the customer pays under the signature of the checkout. -/
def samplePaid : TransactionResult :=
  ⟨sampleReference, "tx-1", .APPROVED, 1990000, "COP"⟩

theorem isCurrency_cop : IsCurrency "COP" := ⟨'C', rfl, by simp [IsAmountChar]⟩

theorem reach_paid : (service samplePayments Empty.elim).Reach (fun _ _ _ _ => True)
    (idle ⟨[], []⟩ packageDb) (idle ⟨[sampleIntent], [samplePaid]⟩ billedDb) := by
  have hordered : (service samplePayments Empty.elim).Reach (fun _ _ _ _ => True)
      (idle ⟨[], []⟩ packageDb) (idle ⟨[], []⟩ orderedDb) := reach_answered answered_order
  have hbilled : (service samplePayments Empty.elim).Reach (fun _ _ _ _ => True)
      (idle ⟨[], []⟩ orderedDb) (idle ⟨[sampleIntent], []⟩ billedDb) :=
    reach_answered answered_checkout
  have hsigned : samplePayments.sha256Hex (signedText samplePayments samplePaid) =
      sampleIntent.integritySignature := by decide +kernel
  have hexecutes : Executes samplePayments ⟨[sampleIntent], []⟩ ⟨[sampleIntent], [samplePaid]⟩ :=
    ⟨samplePaid, isCurrency_cop, ⟨sampleIntent, List.mem_singleton_self _, hsigned⟩, rfl⟩
  exact (hordered.trans hbilled).tail (.move _ hexecutes trivial)

theorem isCurrency_packageDb (code : String) (pkg : CreditPackage)
    (h : packageDb.creditPackages.lookup code = some pkg) : IsCurrency pkg.currency := by
  obtain ⟨-, rfl⟩ := Table.eq_of_lookup_single h
  exact isCurrency_cop

theorem signed_transactions_pay_orders_sample : ∃ p o,
    billedDb.payments.lookup ("wompi", samplePaid.reference) = some p ∧
      p.amountCents = samplePaid.amountInCents ∧
      billedDb.orders.lookup p.orderId = some o ∧ o.priceCents = samplePaid.amountInCents := by
  have hpaid := (signed_transactions_pay_orders (digesting_injective ⟨'b', by decide, by decide⟩)
    (fun o => o.elim) isCurrency_packageDb rfl rfl reach_paid).2 samplePaid
    (List.mem_singleton_self _)
  obtain ⟨p, hp⟩ : ∃ p, billedDb.payments.lookup ("wompi", samplePaid.reference) = some p :=
    Option.isSome_iff_exists.mp (by decide +kernel)
  obtain ⟨hamount, -, o, ho, hprice, -⟩ := hpaid p hp
  exact ⟨p, o, hp, hamount, ho, hprice⟩

end Sample

end SignedCheckouts

end TaroTria
