import TaroTria.Backend.Refinement
import TaroTria.Transactions.Transcript

/-!
# One discount for each flash offer

The discounted orders of a user for a package are as many as the flash offers
for it that the user has consumed, each of them by a request that had searched it
before it expired, and every order has the price of its package or the one that
its offer rounds it to.
-/

namespace TaroTria

open Transactions OrdersService

/-- The orders of a user for a package that a discount was applied to. -/
def discountedOrders (D : Db) (userId packageId : Id) : Nat :=
  D.orders.count fun _ order => order.userId = userId && order.creditPackageId = packageId &&
    order.discountAppliedPercent.isSome

/-- The flash offers of a user for a package that were consumed. -/
def consumedOffers (D : Db) (userId : Id) (packageCode : String) : Nat :=
  D.flashOfferUnlocks.count fun _ offer => offer.userId = userId &&
    offer.packageCode = packageCode && offer.consumedAt.isSome

/-! ## Prices -/

/-- The discounted price in integers. -/
theorem OrdersService.discountedPrice_some (pkg : CreditPackage) (percent : Int) :
    discountedPrice pkg (some percent) = (pkg.priceCents * (100 - percent) + 50) / 100 := by
  have hsum : (pkg.priceCents * (100 - percent) : ℚ) / 100 + 1 / 2 =
      ((pkg.priceCents * (100 - percent) + 50 : ℤ) : ℚ) / (100 : ℕ) := by
    push_cast
    ring
  rw [discountedPrice, mathRound, hsum, Rat.floor_intCast_div_natCast]
  rfl

/-- A discount between 0 and 100 percent leaves the price between 0 and the price
of the package. -/
theorem OrdersService.discountedPrice_bounds (pkg : CreditPackage) {percent : Int}
    (h₀ : 0 ≤ percent) (h₁ : percent ≤ 100) :
    min 0 pkg.priceCents ≤ discountedPrice pkg (some percent) ∧
      discountedPrice pkg (some percent) ≤ max 0 pkg.priceCents := by
  rw [discountedPrice_some]
  rcases le_total 0 pkg.priceCents with hp | hp
  · have hlow : 0 ≤ pkg.priceCents * (100 - percent) := mul_nonneg hp (by omega)
    have hhigh : 0 ≤ pkg.priceCents * percent := mul_nonneg hp h₀
    rw [min_eq_left hp, max_eq_right hp]
    rw [mul_sub] at hlow ⊢
    omega
  · have hlow : pkg.priceCents * (100 - percent) ≤ 0 := mul_nonpos_of_nonpos_of_nonneg hp (by omega)
    have hhigh : pkg.priceCents * percent ≤ 0 := mul_nonpos_of_nonpos_of_nonneg hp h₀
    rw [min_eq_right hp, max_eq_left hp]
    rw [mul_sub] at hlow ⊢
    omega

/-! ## What a commit does to orders and offers -/

section Changes

open WalletService PaymentsService

/-- A commit that leaves the terms of orders and the consumed offers alone. -/
structure DiscountsAside (D D' : Db) : Prop where
  orders : ∀ p : Order → Bool, (∀ order st, p { order with status := st } = p order) →
    D'.orders.count (fun _ => p) = D.orders.count fun _ => p
  terms : ∀ orderId order, D'.orders.lookup orderId = some order →
    ∃ old st, D.orders.lookup orderId = some old ∧ order = { old with status := st }
  offers : ∀ p : FlashOfferUnlock → Bool, (∀ offer, offer.consumedAt = none → p offer = false) →
    D'.flashOfferUnlocks.count (fun _ => p) = D.flashOfferUnlocks.count fun _ => p
  consumed : ∀ offerId offer, offer.consumedAt ≠ none →
    (D'.flashOfferUnlocks.lookup offerId = some offer ↔
      D.flashOfferUnlocks.lookup offerId = some offer)

variable {Body : Type} {S : Deployment Body} {c : Call Body} {L : List RowWrite} {D D' : Db}

theorem DiscountsAside.of_eq (ho : D'.orders = D.orders)
    (hf : D'.flashOfferUnlocks = D.flashOfferUnlocks) : DiscountsAside D D' where
  orders _ _ := by rw [ho]
  terms orderId order h := ⟨order, order.status, ho ▸ h, rfl⟩
  offers _ _ := by rw [hf]
  consumed _ _ _ := by rw [hf]

/-- A commit that changes the status of one order. -/
theorem DiscountsAside.of_status {orderId : Id} {order : Order} {st : OrderStatus}
    (hold : D.orders.lookup orderId = some order)
    (ho : D'.orders = D.orders.write orderId (some { order with status := st }))
    (hf : D'.flashOfferUnlocks = D.flashOfferUnlocks) : DiscountsAside D D' where
  orders p hp := by rw [ho, Table.count_write_same _ (fun _ => p) hold (hp order st)]
  terms other order' h := by
    rw [ho, Table.lookup_write] at h
    split at h
    · rename_i heq
      exact ⟨order, st, heq ▸ hold, (Option.some.inj h).symm⟩
    · exact ⟨order', order'.status, h, rfl⟩
  offers _ _ := by rw [hf]
  consumed _ _ _ := by rw [hf]

/-- A commit that makes an offer. -/
theorem DiscountsAside.of_offer {offerId : Id} {offer : FlashOfferUnlock}
    (hnew : D.flashOfferUnlocks.lookup offerId = none) (hunused : offer.consumedAt = none)
    (ho : D'.orders = D.orders)
    (hf : D'.flashOfferUnlocks = D.flashOfferUnlocks.write offerId (some offer)) :
    DiscountsAside D D' where
  orders _ _ := by rw [ho]
  terms orderId order h := ⟨order, order.status, ho ▸ h, rfl⟩
  offers p hp := by
    rw [hf, Table.count_write_fresh _ _ hnew, hp offer hunused]
    rfl
  consumed other offer' hused := by
    rw [hf, Table.lookup_write]
    split
    · rename_i heq
      subst heq
      rw [hnew]
      constructor
      · rintro ⟨⟩
        exact absurd hunused hused
      · rintro ⟨⟩
    · rfl

/-- What a commit does to orders and offers: it leaves them aside, makes an order at the
price of its package, or makes one that consumes an offer. -/
inductive DiscountChange : Call Body → Db → List RowWrite → Prop
  | aside {c : Call Body} {D : Db} {L : List RowWrite} (hs : DiscountsAside D (view L D)) : DiscountChange c D L
  | order {D : Db} {userId packageCode pkg orderId} (ho : D.orders.lookup orderId = none)
      (hpkg : D.creditPackages.lookup packageCode = some pkg) :
      DiscountChange (.createOrder userId packageCode) D
        [.order orderId (some (newOrder userId pkg none))]
  | discountedOrder {D : Db} {userId packageCode pkg orderId readAt consumedAt offerId}
      {offer : FlashOfferUnlock} (ho : D.orders.lookup orderId = none)
      (hoffer : D.flashOfferUnlocks.lookup offerId = some offer)
      (hactive : isActiveOffer userId packageCode readAt offer = true)
      (hpkg : D.creditPackages.lookup packageCode = some pkg) :
      DiscountChange (.createOrder userId packageCode) D
        [.flashOfferUnlock offerId (some { offer with consumedAt := some consumedAt }),
         .order orderId (some (newOrder userId pkg (some offer.discountPercent)))]

theorem Effect.discounts (he : Effect S c D L) : DiscountChange c D L := by
  cases he with
  | createOrder ho hpkg => exact .order ho hpkg
  | createDiscountedOrder ho hoffer hclock hactive hpkg =>
      exact .discountedOrder ho hoffer hactive hpkg
  | approve s hc happroved hw hk =>
      apply DiscountChange.aside
      rw [s.view_approval]
      exact .of_status s.order_mem rfl rfl
  | close s hc hstatus hrejected =>
      apply DiscountChange.aside
      split
      · exact .of_status s.order_mem rfl rfl
      · exact .of_eq rfl rfl
  | completeSession s hc =>
      apply DiscountChange.aside
      rw [s.view_writes]
      cases hgrants : s.grantsOffer with
      | true => exact .of_offer (s.offer hgrants) rfl rfl rfl
      | false => exact .of_eq rfl rfl
  | createWallet hw hk =>
      apply DiscountChange.aside
      unfold bonusWrites
      split <;> exact .of_eq rfl rfl
  | submit s =>
      apply DiscountChange.aside
      rw [s.view_writes]
      exact .of_eq rfl rfl
  | adjust hw hfunds hk => exact .aside (.of_eq rfl rfl)
  | confirm hc hres hactive hw hk => exact .aside (.of_eq rfl rfl)
  | release hc hres hactive hw hk => exact .aside (.of_eq rfl rfl)
  | createReading hr ho hdraft => exact .aside (.of_eq rfl rfl)
  | setReading hc hr hsame hstatus => exact .aside (.of_eq rfl rfl)
  | enqueue hc => exact .aside (.of_eq rfl rfl)
  | createPayment hk ho => exact .aside (.of_eq rfl rfl)
  | recordDelivery hk => exact .aside (.of_eq rfl rfl)
  | openSession hk ho htype hcreated => exact .aside (.of_eq rfl rfl)
  | logEvent hc => exact .aside (.of_eq rfl rfl)
  | expireSession hc hsession hopen => exact .aside (.of_eq rfl rfl)
  | unlockDailyCard hcount henough => exact .aside (.of_eq rfl rfl)

/-- A consumed offer was consumed by an order of its user for its package. -/
theorem consumed_by_order {calls : Call Body → Prop} {hist : List (Call Body × List RowWrite)}
    (path : Path ((discipline S).Permits calls) D hist D')
    (hunused : ∀ offerId offer, D.flashOfferUnlocks.lookup offerId = some offer →
      offer.consumedAt = none) {offerId : Id} {offer : FlashOfferUnlock}
    (hoffer : D'.flashOfferUnlocks.lookup offerId = some offer) (hused : offer.consumedAt ≠ none) :
    ∃ L, (.createOrder offer.userId offer.packageCode, L) ∈ hist ∧
      .flashOfferUnlock offerId (some offer) ∈ L := by
  induction path with
  | nil => exact absurd (hunused offerId offer hoffer) hused
  | @cons hist D₁ c L tail he ih =>
      have earlier : D₁.flashOfferUnlocks.lookup offerId = some offer →
          ∃ L', (.createOrder offer.userId offer.packageCode, L') ∈ (c, L) :: hist ∧
            .flashOfferUnlock offerId (some offer) ∈ L' := by
        intro hold
        obtain ⟨L', hmem, hwrite⟩ := ih hold
        exact ⟨L', List.mem_cons_of_mem _ hmem, hwrite⟩
      cases Effect.discounts he.2 with
      | aside hs => exact earlier ((hs.consumed offerId offer hused).mp hoffer)
      | order ho hpkg => exact earlier hoffer
      | @discountedOrder _ userId code pkg orderId readAt consumedAt other old ho hold hactive hpkg =>
          simp only [isActiveOffer, Bool.and_eq_true, decide_eq_true_eq] at hactive
          obtain ⟨⟨⟨huser, hcode⟩, -⟩, -⟩ := hactive
          have hoffer' : (D₁.flashOfferUnlocks.write other
              (some { old with consumedAt := some consumedAt })).lookup offerId = some offer := hoffer
          rw [Table.lookup_write] at hoffer'
          split at hoffer'
          · rename_i heq
            cases hoffer'
            subst heq huser hcode
            exact ⟨_, List.mem_cons_self, List.mem_cons_self⟩
          · exact earlier hoffer'

end Changes

/-! ## The time of the search -/

section Search

variable {Body : Type} {S : Deployment Body}

/-- The first time that the clock has shown to a request. -/
def firstTime (heard : List (Sigma Answer)) : Option Time :=
  heard.findSome? fun
    | ⟨.now, t⟩ => some t
    | _ => none

/-- Every consumed offer among the writes was unexpired at the first time that the
request had been shown. -/
def ConsumesUnexpired (S : Deployment Body) (heard : List (Sigma Answer)) (L : List RowWrite) :
    Prop :=
  ∀ offerId offer, .flashOfferUnlock offerId (some offer) ∈ L → offer.consumedAt ≠ none →
    ∃ readAt, firstTime heard = some readAt ∧ S.clock readAt ∧ readAt < offer.expiresAt

theorem OrdersService.heeds_create {userId : Id} {packageCode : String} :
    (create userId packageCode).Heeds (discipline S) S.answers (ConsumesUnexpired S)
      (fun _ _ => True) [] := by
  unfold create findActiveByCode
  apply Proc.Heeds.bind
  apply Proc.Heeds.bind
  apply Proc.heeds_transaction
  · intros; trivial
  intro D _
  apply Tx.wp_select
  intro D₀ _
  refine ⟨fun h => absurd rfl h, ?_⟩
  simp only
  split
  · rename_i pkg hfound
    apply Proc.Heeds.bind
    apply Proc.heeds_call
    · intros; trivial
    intro orderId _
    apply Proc.Heeds.bind
    apply Proc.heeds_call
    · intros; trivial
    intro readAt hclock
    apply Proc.Heeds.bind
    apply Proc.heeds_call
    · intros; trivial
    intro consumedAt _
    apply Proc.heeds_transaction
    · intros; trivial
    intro D₁ _
    apply wp_createTx
    · intro _
      exact ⟨fun _ offerId offer hoffer => by simp at hoffer, trivial⟩
    · intro offerId D₂ seen offer hD₂ hseen hactive hoffer _ _
      refine ⟨fun _ other offer' hoffer' _ => ⟨readAt, rfl, hclock, ?_⟩, trivial⟩
      -- An offer keeps the expiry that the search saw.
      obtain ⟨offer₁, hoffer₁, -, -, -, hexpires⟩ := hD₂.mono.offers offerId seen hseen
      obtain rfl : offer₁ = offer := Option.some.inj (hoffer₁.symm.trans hoffer)
      obtain ⟨rfl, rfl⟩ : other = offerId ∧
          offer' = { offer₁ with consumedAt := some consumedAt } := by simpa using hoffer'
      simp only [isActiveOffer, Bool.and_eq_true, decide_eq_true_eq] at hactive
      exact hexpires ▸ hactive.2
  · trivial

/-- What the answers given to a call allow it to commit. -/
def Call.Consumes (S : Deployment Body) : Call Body → List (Sigma Answer) → List RowWrite → Prop
  | createOrder _ _ => ConsumesUnexpired S
  | _ => fun _ _ => True

theorem Call.heeds (c : Call Body) :
    (c.prog S).Heeds (discipline S) S.answers (c.Consumes S) (fun _ _ => True) [] := by
  cases c with
  | createOrder userId packageCode =>
      apply Proc.Heeds.bind
      exact OrdersService.heeds_create.mono fun r _ _ => match r with
        | .ok _ => trivial
        | .error _ => trivial
  | _ => exact Proc.heeds_of_forall (fun _ _ => trivial) (fun _ _ => trivial) _

end Search

/-! ## The law -/

section Law

open WalletService PaymentsService

variable {Body : Type} {S : Deployment Body} {c : Call Body} {L : List RowWrite} {D D' : Db}

/-- The terms of an order: the package it is for and, when a discount was applied,
the consumed offer that it came from. -/
structure OrderTerms (D : Db) (order : Order) (packageCode : String) (pkg : CreditPackage) :
    Prop where
  package : D.creditPackages.lookup packageCode = some pkg
  packageId : order.creditPackageId = pkg.id
  price : order.priceCents = discountedPrice pkg order.discountAppliedPercent
  offer : ∀ percent, order.discountAppliedPercent = some percent → ∃ offerId offer,
    D.flashOfferUnlocks.lookup offerId = some offer ∧ offer.userId = order.userId ∧
      offer.packageCode = packageCode ∧ offer.discountPercent = percent ∧ offer.consumedAt ≠ none

/-- Discounted orders and consumed offers are as many, and orders are at their terms. -/
structure DiscountLaw (D : Db) : Prop where
  counted : ∀ userId packageCode pkg, D.creditPackages.lookup packageCode = some pkg →
    discountedOrders D userId pkg.id = consumedOffers D userId packageCode
  terms : ∀ orderId order, D.orders.lookup orderId = some order → ∃ packageCode pkg,
    OrderTerms D order packageCode pkg

theorem DiscountLaw.of_empty (horders : D.orders = ∅)
    (hunused : ∀ offerId offer, D.flashOfferUnlocks.lookup offerId = some offer →
      offer.consumedAt = none) : DiscountLaw D where
  counted userId packageCode pkg hpkg := by
    rw [discountedOrders, horders, Table.count_empty]
    refine (Table.count_eq_zero fun offerId offer hoffer => ?_).symm
    simp [hunused offerId offer hoffer]
  terms := by simp [horders]

/-- Terms are kept while packages and consumed offers are. -/
theorem OrderTerms.later {order : Order} {packageCode : String} {pkg : CreditPackage}
    (h : OrderTerms D order packageCode pkg) (hpackages : D'.creditPackages = D.creditPackages)
    (hoffers : ∀ offerId offer, offer.consumedAt ≠ none →
      D.flashOfferUnlocks.lookup offerId = some offer →
      D'.flashOfferUnlocks.lookup offerId = some offer) :
    OrderTerms D' order packageCode pkg where
  package := hpackages ▸ h.package
  packageId := h.packageId
  price := h.price
  offer percent hpercent := by
    obtain ⟨offerId, offer, hoffer, huser, hcode, hd, hused⟩ := h.offer percent hpercent
    exact ⟨offerId, offer, hoffers offerId offer hused hoffer, huser, hcode, hd, hused⟩

theorem DiscountLaw.aside (h : DiscountLaw D) (hpackages : D'.creditPackages = D.creditPackages)
    (hs : DiscountsAside D D') : DiscountLaw D' where
  counted userId packageCode pkg hpkg := by
    have hcount := h.counted userId packageCode pkg (hpackages ▸ hpkg)
    have horders : discountedOrders D' userId pkg.id = discountedOrders D userId pkg.id :=
      hs.orders (fun order => order.userId = userId && order.creditPackageId = pkg.id &&
        order.discountAppliedPercent.isSome) fun _ _ => rfl
    have hoffers : consumedOffers D' userId packageCode = consumedOffers D userId packageCode := by
      refine hs.offers (fun offer => offer.userId = userId && offer.packageCode = packageCode &&
        offer.consumedAt.isSome) fun offer hunused => ?_
      simp [hunused]
    rw [horders, hoffers, hcount]
  terms orderId order horder := by
    obtain ⟨old, st, hold, rfl⟩ := hs.terms orderId order horder
    obtain ⟨packageCode, pkg, hterms⟩ := h.terms orderId old hold
    have hlater := hterms.later hpackages fun offerId offer hused =>
      (hs.consumed offerId offer hused).mpr
    exact ⟨packageCode, pkg, hlater.package, hlater.packageId, hlater.price, hlater.offer⟩

/-- A new order at the price of its package. -/
theorem DiscountLaw.order (h : DiscountLaw D) {userId orderId : Id} {packageCode : String}
    {pkg : CreditPackage} (ho : D.orders.lookup orderId = none)
    (hpkg : D.creditPackages.lookup packageCode = some pkg)
    (hpackages : D'.creditPackages = D.creditPackages)
    (horders : D'.orders = D.orders.write orderId (some (newOrder userId pkg none)))
    (hoffers : D'.flashOfferUnlocks = D.flashOfferUnlocks) : DiscountLaw D' where
  counted user code pkg' hpkg' := by
    have hcount := h.counted user code pkg' (hpackages ▸ hpkg')
    have hsame : discountedOrders D' user pkg'.id = discountedOrders D user pkg'.id := by
      unfold discountedOrders
      rw [horders, Table.count_write_fresh _ _ ho, if_neg (by simp [newOrder]), add_zero]
    rw [hsame, hcount, consumedOffers, consumedOffers, hoffers]
  terms other order horder := by
    rw [horders, Table.lookup_write] at horder
    split at horder
    · cases horder
      exact ⟨packageCode, pkg, hpackages ▸ hpkg, rfl, rfl, by simp [newOrder]⟩
    · obtain ⟨code, pkg', hterms⟩ := h.terms other order horder
      exact ⟨code, pkg', hterms.later hpackages fun _ _ _ hold => hoffers ▸ hold⟩

/-- A new order and the offer that it consumes. -/
theorem DiscountLaw.discountedOrder (h : DiscountLaw D)
    (hids : ∀ code code' pkg pkg', D.creditPackages.lookup code = some pkg →
      D.creditPackages.lookup code' = some pkg' → pkg.id = pkg'.id → code = code')
    {userId orderId offerId : Id} {packageCode : String} {pkg : CreditPackage}
    {offer : FlashOfferUnlock} {readAt consumedAt : Time} (ho : D.orders.lookup orderId = none)
    (hoffer : D.flashOfferUnlocks.lookup offerId = some offer)
    (hactive : isActiveOffer userId packageCode readAt offer = true)
    (hpkg : D.creditPackages.lookup packageCode = some pkg)
    (hpackages : D'.creditPackages = D.creditPackages)
    (horders : D'.orders =
      D.orders.write orderId (some (newOrder userId pkg (some offer.discountPercent))))
    (hoffers : D'.flashOfferUnlocks = D.flashOfferUnlocks.write offerId
      (some { offer with consumedAt := some consumedAt })) : DiscountLaw D' := by
  simp only [isActiveOffer, Bool.and_eq_true, decide_eq_true_eq] at hactive
  obtain ⟨⟨⟨huser, hcode⟩, hunused⟩, -⟩ := hactive
  have hkept : ∀ other offer', offer'.consumedAt ≠ none →
      D.flashOfferUnlocks.lookup other = some offer' →
      D'.flashOfferUnlocks.lookup other = some offer' := by
    intro other offer' hused hoffer'
    rw [hoffers, Table.lookup_write_of_ne, hoffer']
    rintro rfl
    obtain rfl := Option.some.inj (hoffer'.symm.trans hoffer)
    exact hused hunused
  refine ⟨fun user code pkg' hpkg' => ?_, fun other order horder => ?_⟩
  · rw [hpackages] at hpkg'
    have hsame : pkg.id = pkg'.id ↔ packageCode = code := by
      refine ⟨hids _ _ _ _ hpkg hpkg', ?_⟩
      rintro rfl
      rw [Option.some.inj (hpkg.symm.trans hpkg')]
    have hmore : discountedOrders D' user pkg'.id = discountedOrders D user pkg'.id +
        if userId = user ∧ packageCode = code then 1 else 0 := by
      unfold discountedOrders
      rw [horders, Table.count_write_fresh _ _ ho]
      refine congrArg (_ + ·) (if_congr ?_ rfl rfl)
      simp only [Bool.and_eq_true, decide_eq_true_eq, ← hsame]
      exact and_iff_left rfl
    have hused : consumedOffers D' user code = consumedOffers D user code +
        if userId = user ∧ packageCode = code then 1 else 0 := by
      have hcount := Table.count_write_of_lookup { offer with consumedAt := some consumedAt }
        (fun _ o => o.userId = user && o.packageCode = code && o.consumedAt.isSome) hoffer
      rw [if_neg (by simp [hunused]), add_zero] at hcount
      unfold consumedOffers
      rw [hoffers, hcount]
      refine congrArg (_ + ·) (if_congr ?_ rfl rfl)
      simp only [Bool.and_eq_true, decide_eq_true_eq, huser, hcode]
      exact and_iff_left rfl
    rw [hmore, hused, h.counted user code pkg' hpkg']
  · rw [horders, Table.lookup_write] at horder
    split at horder
    · cases horder
      refine ⟨packageCode, pkg, hpackages ▸ hpkg, rfl, rfl, fun percent hpercent => ?_⟩
      have hconsumed : D'.flashOfferUnlocks.lookup offerId =
          some { offer with consumedAt := some consumedAt } := by
        rw [hoffers, Table.lookup_write_self]
      exact ⟨offerId, _, hconsumed, huser, hcode, Option.some.inj hpercent, by simp⟩
    · obtain ⟨code, pkg', hterms⟩ := h.terms other order horder
      exact ⟨code, pkg', hterms.later hpackages hkept⟩

theorem Effect.discountLaw (he : Effect S c D L)
    (hids : ∀ code code' pkg pkg', D.creditPackages.lookup code = some pkg →
      D.creditPackages.lookup code' = some pkg' → pkg.id = pkg'.id → code = code')
    (h : DiscountLaw D) : DiscountLaw (view L D) := by
  have hpackages := he.mono.creditPackages
  cases he.discounts with
  | aside hs => exact h.aside hpackages hs
  | order ho hpkg => exact h.order ho hpkg hpackages rfl rfl
  | discountedOrder ho hoffer hactive hpkg =>
      exact h.discountedOrder hids ho hoffer hactive hpkg hpackages rfl rfl

end Law

/-- One discount for each flash offer, in every committed state of every run that
starts without orders and without consumed offers: the discounted orders of a user
for a package are as many as its consumed offers for it; a consumed offer was
consumed by an order of its user for its package and was unexpired at the first time
that this request was shown, just before it searched the offers; and every order has
the price of its package, or the rounded one of the offer that it consumed. -/
theorem one_discount_per_offer {Body : Type} (S : Deployment Body) (D : Db)
    (hD : PaymentsBelong D)
    (hids : ∀ code code' pkg pkg', D.creditPackages.lookup code = some pkg →
      D.creditPackages.lookup code' = some pkg' → pkg.id = pkg'.id → code = code')
    (horders : D.orders = ∅)
    (hunused : ∀ offerId offer, D.flashOfferUnlocks.lookup offerId = some offer →
      offer.consumedAt = none) (s : BackendServer Body) (heard : Nat → List (Sigma Answer))
    (made : List (Commit RowWrite (Call Body) Answer))
    (run : Server.Transcript (backend S) (fun c => c.removes = none) D s heard made) :
    (∀ userId packageCode pkg, D.creditPackages.lookup packageCode = some pkg →
      discountedOrders s.db userId pkg.id = consumedOffers s.db userId packageCode) ∧
    (∀ offerId offer, s.db.flashOfferUnlocks.lookup offerId = some offer →
      offer.consumedAt ≠ none → ∃ e ∈ made, ∃ readAt,
        e.call = .createOrder offer.userId offer.packageCode ∧
        .flashOfferUnlock offerId (some offer) ∈ e.writes ∧ firstTime e.heard = some readAt ∧
        S.clock readAt ∧ readAt < offer.expiresAt) ∧
    ∀ orderId order, s.db.orders.lookup orderId = some order → ∃ packageCode pkg,
      D.creditPackages.lookup packageCode = some pkg ∧ order.creditPackageId = pkg.id ∧
      (order.discountAppliedPercent = none → order.priceCents = pkg.priceCents) ∧
      ∀ percent, order.discountAppliedPercent = some percent →
        (∃ offerId offer, s.db.flashOfferUnlocks.lookup offerId = some offer ∧
          offer.userId = order.userId ∧ offer.packageCode = packageCode ∧
          offer.discountPercent = percent ∧ offer.consumedAt ≠ none) ∧
        order.priceCents = (pkg.priceCents * (100 - percent) + 50) / 100 ∧
        (0 ≤ percent → percent ≤ 100 → min 0 pkg.priceCents ≤ order.priceCents ∧
          order.priceCents ≤ max 0 pkg.priceCents) := by
  have path := reach_commits (fun _ hc => hc) hD run.reach
  have hpackages : s.db.creditPackages = D.creditPackages :=
    ((discipline S).path_mono path).creditPackages
  have law : DiscountLaw s.db := by
    have := path.invariant (fun D' => D'.creditPackages = D.creditPackages ∧ DiscountLaw D')
      ⟨rfl, .of_empty horders hunused⟩
      fun c D' L ⟨hsame, hlaw⟩ he => ⟨he.2.mono.creditPackages.trans hsame,
        he.2.discountLaw (by rw [hsame]; exact hids) hlaw⟩
    exact this.2
  refine ⟨fun userId code pkg hpkg => law.counted userId code pkg (hpackages ▸ hpkg),
    fun offerId offer hoffer hused => ?_, fun orderId order horder => ?_⟩
  · obtain ⟨L, hmem, hwrite⟩ := consumed_by_order path hunused hoffer hused
    rw [← run.history, List.mem_map] at hmem
    obtain ⟨e, he, heq⟩ := hmem
    obtain ⟨hcall, rfl⟩ := Prod.mk.inj heq
    have hsafe := fun c hc D' (_ : (discipline S).Inv D') => prog_safe S c hc D'
    have hconsumes := (run.heeds (K := Call.Consumes S) hsafe (fun c _ => c.heeds) hD).2 e he
    rw [hcall] at hconsumes
    obtain ⟨readAt, hread, hclock, hexpires⟩ := hconsumes offerId offer hwrite hused
    exact ⟨e, he, readAt, hcall, hwrite, hread, hclock, hexpires⟩
  obtain ⟨code, pkg, hterms⟩ := law.terms orderId order horder
  refine ⟨code, pkg, hpackages ▸ hterms.package, hterms.packageId, fun hnone => ?_,
    fun percent hpercent => ⟨hterms.offer percent hpercent, ?_, fun h₀ h₁ => ?_⟩⟩
  · rw [hterms.price, hnone]
    rfl
  · rw [hterms.price, hpercent, discountedPrice_some]
  · rw [hterms.price, hpercent]
    exact discountedPrice_bounds pkg h₀ h₁

/-- An offer of 20 percent on a price of 5000, which expires at 100 and is found by a
search at 0. -/
theorem one_discount_per_offer_of_purchase : ∃ (D : Db) (s : BackendServer ParsedWebhook)
    (heard : Nat → List (Sigma Answer))
    (made : List (Commit RowWrite (Call ParsedWebhook) Answer)) (offer : FlashOfferUnlock)
    (o : Order),
    Server.Transcript (backend sampleDeployment) (fun c => c.removes = none) D s heard made ∧
      s.db.flashOfferUnlocks.lookup "f1" = some offer ∧ offer.consumedAt = some 5 ∧
      (∃ e ∈ made, ∃ readAt, e.call = .createOrder "ana" "ten" ∧
        .flashOfferUnlock "f1" (some offer) ∈ e.writes ∧ firstTime e.heard = some readAt ∧
        readAt < offer.expiresAt) ∧
      s.db.orders.lookup "o1" = some o ∧ o.discountAppliedPercent = some 20 ∧
      o.priceCents = 4000 ∧
      discountedOrders s.db "ana" "ten" = consumedOffers s.db "ana" "ten" := by
  let D : Db :=
    { sampleShop with
      flashOfferUnlocks := (∅ : Table Id FlashOfferUnlock).write "f1"
        (some ⟨"ana", "ten", 20, 100, none, 0⟩) }
  have ordered : ∃ s, Server.Reach (backend sampleDeployment) (fun c => c.removes = none)
      (.idle D) s ∧ (∃ o, s.db.orders.lookup "o1" = some o ∧ o.discountAppliedPercent = some 20) ∧
      s.db.flashOfferUnlocks.lookup "f1" = some ⟨"ana", "ten", 20, 100, some 5, 0⟩ :=
    ⟨_, Server.Reach.refl.run
      [.spawn 0 (.createOrder "ana" "ten"), .start 0, .exec 0, .commit 0,
        .answer 0 .randomUUID "o1", .answer 0 .now (0 : Time), .answer 0 .now (5 : Time), .start 0,
        .exec 0, .exec 0, .exec 0, .commit 0]
      (by simp [Move.Admissible, Call.removes, backend, Deployment.answers]) rfl, ⟨_, rfl, rfl⟩, rfl⟩
  obtain ⟨s, reach, ⟨o, ho, hpercent⟩, hoffer⟩ := ordered
  obtain ⟨heard, made, run⟩ := reach.transcript
  have hone : ∀ code pkg, D.creditPackages.lookup code = some pkg →
      code = "ten" ∧ pkg = ⟨"ten", 10, 5000, "COP", true⟩ :=
    fun _ _ hpkg => Table.eq_of_lookup_single hpkg
  have hunused : ∀ offerId offer, D.flashOfferUnlocks.lookup offerId = some offer →
      offer.consumedAt = none := fun _ _ hoffer => by
    rw [(Table.eq_of_lookup_single hoffer).2]
  obtain ⟨hcounted, hconsumed, hterms⟩ := one_discount_per_offer sampleDeployment D (.of_empty rfl)
    (fun code code' pkg pkg' h h' _ => (hone code pkg h).1.trans (hone code' pkg' h').1.symm) rfl
    hunused s heard made run
  obtain ⟨e, he, readAt, hcall, hwrite, hread, -, hexpires⟩ := hconsumed "f1" _ hoffer (by simp)
  obtain ⟨code, pkg, hpkg, -, -, hprice⟩ := hterms "o1" o ho
  obtain ⟨-, rfl⟩ := hone code pkg hpkg
  exact ⟨D, s, heard, made, _, o, run, hoffer, rfl,
    ⟨e, he, readAt, hcall, hwrite, hread, hexpires⟩, ho, hpercent, (hprice 20 hpercent).2.1,
    hcounted "ana" "ten" _ rfl⟩

end TaroTria
