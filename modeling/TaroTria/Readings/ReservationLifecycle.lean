import TaroTria.Backend.Refinement

/-!
# The life of a reservation

A reservation is made once, is confirmed or released at most once, and its
ledger rows say which of the two happened.
-/

namespace TaroTria

open Transactions WalletService ReadingsService

variable {Body : Type} {S : Deployment Body}

/-- The ledger rows of a reading with the reservation `res`: the reservation,
and its consumption or release once it is settled. -/
structure Recorded (D : Db) (readingId : Id) (res : CreditReservation) : Prop where
  reservation : ∃ balanceAfter, D.walletTransactions.lookup (.reservation readingId) =
    some ⟨res.walletId, .RESERVATION, -res.amount, balanceAfter, some readingId, none⟩
  consumption : res.status = .CONSUMED →
    ∃ balanceAfter, D.walletTransactions.lookup (.consumption readingId) =
      some ⟨res.walletId, .CONSUMPTION, 0, balanceAfter, some readingId, none⟩
  release : res.status = .RELEASED →
    ∃ balanceAfter, D.walletTransactions.lookup (.release readingId) =
      some ⟨res.walletId, .RELEASE, res.amount, balanceAfter, some readingId, none⟩
  complete : ∀ key row, D.walletTransactions.lookup key = some row →
    row.readingId = some readingId → key = .reservation readingId ∨
      (key = .consumption readingId ∧ res.status = .CONSUMED) ∨
      (key = .release readingId ∧ res.status = .RELEASED)

/-- Every reservation is recorded, and a reading without one has no ledger row. -/
structure ReservationsRecorded (D : Db) : Prop where
  reserved : ∀ readingId res, D.creditReservations.lookup readingId = some res →
    Recorded D readingId res
  unreserved : ∀ readingId, D.creditReservations.lookup readingId = none →
    ∀ key row, D.walletTransactions.lookup key = some row → row.readingId ≠ some readingId

theorem ReservationsRecorded.of_empty {D : Db} (hres : D.creditReservations = ∅)
    (hrows : D.walletTransactions = ∅) : ReservationsRecorded D where
  reserved readingId res h := by simp [hres] at h
  unreserved readingId _ key row h := by simp [hrows] at h

section Gain

variable {D D' : Db} {key : IdempotencyKey} {row : WalletTransaction} {readingId : Id}

/-- A ledger row that was not there before the new row. -/
theorem lookup_of_gain (hrows : D'.walletTransactions = D.walletTransactions.write key (some row))
    (hrow : row.readingId ≠ some readingId) {k : IdempotencyKey} {v : WalletTransaction}
    (hk : D'.walletTransactions.lookup k = some v) (hv : v.readingId = some readingId) :
    D.walletTransactions.lookup k = some v := by
  rw [hrows, Table.lookup_write] at hk
  split at hk
  · cases hk
    exact absurd hv hrow
  · exact hk

/-- A ledger that gains a row of another reading, or of none. -/
theorem Recorded.gain {res : CreditReservation} (h : Recorded D readingId res)
    (hkey : D.walletTransactions.lookup key = none)
    (hrows : D'.walletTransactions = D.walletTransactions.write key (some row))
    (hrow : row.readingId ≠ some readingId) : Recorded D' readingId res := by
  have old : ∀ k v, D.walletTransactions.lookup k = some v →
      D'.walletTransactions.lookup k = some v := by
    rintro k v hk
    rw [hrows, Table.lookup_write_of_ne, hk]
    rintro rfl
    simp [hkey] at hk
  obtain ⟨h₁, h₂, h₃, h₄⟩ := h
  exact ⟨h₁.imp fun _ => old _ _, fun hc => (h₂ hc).imp fun _ => old _ _,
    fun hc => (h₃ hc).imp fun _ => old _ _,
    fun k v hk hv => h₄ k v (lookup_of_gain hrows hrow hk hv) hv⟩

/-- A new ledger row of no reading. -/
theorem ReservationsRecorded.insert (h : ReservationsRecorded D)
    (hkey : D.walletTransactions.lookup key = none) (hrow : row.readingId = none)
    (hres : D'.creditReservations = D.creditReservations)
    (hrows : D'.walletTransactions = D.walletTransactions.write key (some row)) :
    ReservationsRecorded D' := by
  have hother : ∀ other, row.readingId ≠ some other := fun other => by simp [hrow]
  refine ⟨fun other res hr => ?_, fun other hr k v hk hv => ?_⟩
  · exact (h.reserved other res (hres ▸ hr)).gain hkey hrows (hother other)
  · exact h.unreserved other (hres ▸ hr) k v (lookup_of_gain hrows (hother other) hk hv) hv

theorem ReservationsRecorded.same (h : ReservationsRecorded D)
    (hres : D'.creditReservations = D.creditReservations)
    (hrows : D'.walletTransactions = D.walletTransactions) : ReservationsRecorded D' := by
  refine ⟨fun other res hr => ?_, fun other hr k v hk => ?_⟩
  · obtain ⟨h₁, h₂, h₃, h₄⟩ := h.reserved other res (hres ▸ hr)
    exact ⟨hrows ▸ h₁, hrows ▸ h₂, hrows ▸ h₃, hrows ▸ h₄⟩
  · exact h.unreserved other (hres ▸ hr) k v (hrows ▸ hk)

/-- A reservation written together with one new ledger row of its reading. -/
theorem ReservationsRecorded.write (h : ReservationsRecorded D) {res : CreditReservation}
    (hkey : D.walletTransactions.lookup key = none) (hrow : row.readingId = some readingId)
    (hres : D'.creditReservations = D.creditReservations.write readingId (some res))
    (hrows : D'.walletTransactions = D.walletTransactions.write key (some row))
    (hrec : Recorded D' readingId res) : ReservationsRecorded D' := by
  have hother : ∀ other, other ≠ readingId → row.readingId ≠ some other := by
    rintro other hne h'
    exact hne (Option.some.inj (h'.symm.trans hrow))
  refine ⟨fun other res' hr => ?_, fun other hr k v hk hv => ?_⟩
  · rw [hres, Table.lookup_write] at hr
    split at hr
    · rename_i heq
      cases hr
      exact heq ▸ hrec
    · rename_i hne
      exact (h.reserved other res' hr).gain hkey hrows (hother other hne)
  · rw [hres, Table.lookup_write] at hr
    split at hr
    · cases hr
    · rename_i hne
      exact h.unreserved other hr k v (lookup_of_gain hrows (hother other hne) hk hv) hv

/-- The new row and the rows before it, by their keys. -/
theorem key_of_gain (hrows : D'.walletTransactions = D.walletTransactions.write key (some row))
    {p : IdempotencyKey → Prop} (hp : p key)
    (h : ∀ k v, D.walletTransactions.lookup k = some v → v.readingId = some readingId → p k)
    (k : IdempotencyKey) (v : WalletTransaction) (hk : D'.walletTransactions.lookup k = some v)
    (hv : v.readingId = some readingId) : p k := by
  rw [hrows, Table.lookup_write] at hk
  split at hk
  · rename_i heq
    exact heq ▸ hp
  · exact h k v hk hv

end Gain

variable {c : Call Body} {D : Db} {L : List RowWrite}

theorem Effect.reservationsRecorded (he : Effect S c D L) (h : ReservationsRecorded D) :
    ReservationsRecorded (view L D) := by
  cases he with
  | createWallet hw hk =>
      unfold bonusWrites
      split
      · rename_i hb
        exact h.insert (hk hb) rfl rfl rfl
      · exact h.same rfl rfl
  | adjust hw hfunds hk => exact h.insert hk rfl rfl rfl
  | @submit _ userId readingId s =>
      rw [s.view_writes]
      refine h.write s.unrecorded rfl rfl rfl ?_
      exact
        { reservation := ⟨_, Table.lookup_write_self _ _ _⟩
          consumption := by simp
          release := by simp
          complete := key_of_gain rfl (.inl rfl) fun k v hk hv =>
            absurd hv (h.unreserved readingId s.unreserved k v hk) }
  | @confirm _ _ readingId res w balanceAfter hc hres hactive hw hk =>
      obtain ⟨⟨b, hb⟩, -, -, hkeys⟩ := h.reserved readingId res hres
      refine h.write hk rfl rfl rfl ?_
      exact
        { reservation := ⟨b, by
            simpa [consumptionWrites, Table.lookup_write] using hb⟩
          consumption := fun _ => ⟨balanceAfter, by simp [consumptionWrites]⟩
          release := by simp
          complete := key_of_gain rfl (.inr (.inl ⟨rfl, rfl⟩)) fun k v hk hv =>
            (hkeys k v hk hv).imp_right (by simp [hactive]) }
  | @release _ _ readingId res w hc hres hactive hw hk =>
      obtain ⟨⟨b, hb⟩, -, -, hkeys⟩ := h.reserved readingId res hres
      refine h.write hk rfl rfl rfl ?_
      exact
        { reservation := ⟨b, by simpa [releaseWrites, Table.lookup_write] using hb⟩
          consumption := by simp
          release := fun _ => ⟨w.balance + res.amount, by simp [releaseWrites]⟩
          complete := key_of_gain rfl (.inr (.inr ⟨rfl, rfl⟩)) fun k v hk hv =>
            (hkeys k v hk hv).imp_right (by simp [hactive]) }
  | approve s hc happroved hw hk => exact h.insert hk rfl rfl rfl
  | close s hc hstatus hrejected => split <;> exact h.same rfl rfl
  | createReading hr ho hdraft => exact h.same rfl rfl
  | setReading hc hr hsame hstatus => exact h.same rfl rfl
  | enqueue hc => exact h.same rfl rfl
  | createOrder ho hpkg => exact h.same rfl rfl
  | createDiscountedOrder ho hoffer hclock hactive hpkg => exact h.same rfl rfl
  | createPayment hk ho => exact h.same rfl rfl
  | recordDelivery hk => exact h.same rfl rfl
  | openSession hk ho htype hcreated => exact h.same rfl rfl
  | logEvent hc => exact h.same rfl rfl
  | expireSession hc hsession hopen => exact h.same rfl rfl
  | completeSession s hc =>
      rw [s.view_writes]
      exact h.same rfl rfl
  | unlockDailyCard hcount henough => exact h.same rfl rfl

/-! ## The moves of a reservation -/

/-- A reservation keeps its wallet and amount, and a settled one its status. -/
def CreditReservation.Continues (res res' : CreditReservation) : Prop :=
  res'.walletId = res.walletId ∧ res'.amount = res.amount ∧
    (res'.status = res.status ∨ res.status = .ACTIVE)

theorem CreditReservation.Continues.refl (res : CreditReservation) : res.Continues res :=
  ⟨rfl, rfl, .inl rfl⟩

theorem CreditReservation.Continues.trans {res₁ res₂ res₃ : CreditReservation}
    (h : res₁.Continues res₂) (h' : res₂.Continues res₃) : res₁.Continues res₃ := by
  obtain ⟨hw, ha, hs⟩ := h
  obtain ⟨hw', ha', hs'⟩ := h'
  refine ⟨hw'.trans hw, ha'.trans ha, ?_⟩
  rcases hs with hs | hs
  · exact hs ▸ hs'
  · exact .inr hs

/-- A settled reservation is kept as it is. -/
theorem CreditReservation.Continues.eq_of_settled {res res' : CreditReservation}
    (h : res.Continues res') (hs : res.status ≠ .ACTIVE) : res' = res := by
  obtain ⟨hw, ha, hst | hst⟩ := h
  · cases res
    cases res'
    simp_all
  · exact absurd hst hs

theorem Effect.reservations_persist (he : Effect S c D L) :
    Table.Persists CreditReservation.Continues D.creditReservations
      (view L D).creditReservations := by
  cases he with
  | createWallet hw hk =>
      unfold bonusWrites
      split <;> exact .refl CreditReservation.Continues.refl _
  | submit s =>
      rw [s.view_writes]
      exact .insert CreditReservation.Continues.refl _ s.unreserved
  | confirm hc hres hactive hw hk =>
      exact .replace CreditReservation.Continues.refl hres ⟨rfl, rfl, .inr hactive⟩
  | release hc hres hactive hw hk =>
      exact .replace CreditReservation.Continues.refl hres ⟨rfl, rfl, .inr hactive⟩
  | close s hc hstatus hrejected => split <;> exact .refl CreditReservation.Continues.refl _
  | adjust hw hfunds hk => exact .refl CreditReservation.Continues.refl _
  | approve s hc happroved hw hk => exact .refl CreditReservation.Continues.refl _
  | createReading hr ho hdraft => exact .refl CreditReservation.Continues.refl _
  | setReading hc hr hsame hstatus => exact .refl CreditReservation.Continues.refl _
  | enqueue hc => exact .refl CreditReservation.Continues.refl _
  | createOrder ho hpkg => exact .refl CreditReservation.Continues.refl _
  | createDiscountedOrder ho hoffer hclock hactive hpkg => exact .refl CreditReservation.Continues.refl _
  | createPayment hk ho => exact .refl CreditReservation.Continues.refl _
  | recordDelivery hk => exact .refl CreditReservation.Continues.refl _
  | openSession hk ho htype hcreated => exact .refl CreditReservation.Continues.refl _
  | logEvent hc => exact .refl CreditReservation.Continues.refl _
  | expireSession hc hsession hopen => exact .refl CreditReservation.Continues.refl _
  | completeSession s hc =>
      rw [s.view_writes]
      exact .refl CreditReservation.Continues.refl _
  | unlockDailyCard hcount henough => exact .refl CreditReservation.Continues.refl _

theorem reservations_persist_path {calls : Call Body → Prop} {D₀ : Db}
    {hist : List (Call Body × List RowWrite)}
    (path : Path ((discipline S).Permits calls) D₀ hist D) :
    Table.Persists CreditReservation.Continues D₀.creditReservations D.creditReservations := by
  induction path with
  | nil => exact .refl CreditReservation.Continues.refl _
  | cons tail he ih => exact ih.trans (fun h h' => h.trans h') he.2.reservations_persist

/-- A settled reservation lets none of the calls on its reading touch a wallet. -/
theorem Effect.no_wallet_of_settled (he : Effect S c D L) {readingId : Id}
    {res : CreditReservation} (hc : c.processes = some readingId)
    (hres : D.creditReservations.lookup readingId = some res) (hs : res.status ≠ .ACTIVE)
    (userId : Id) (w : Option Wallet) : RowWrite.wallet userId w ∉ L := by
  cases he with
  | setReading hc' hr hsame hstatus => simp
  | enqueue hc' => simp
  | confirm hc' hres' hactive hw hk =>
      obtain rfl := Option.some.inj (hc'.symm.trans hc)
      obtain rfl := Option.some.inj (hres'.symm.trans hres)
      exact absurd hactive hs
  | release hc' hres' hactive hw hk =>
      obtain rfl := Option.some.inj (hc'.symm.trans hc)
      obtain rfl := Option.some.inj (hres'.symm.trans hres)
      exact absurd hactive hs
  | approve s hc' happroved hw hk => cases c <;> simp_all [Call.processes, Call.settles]
  | close s hc' hstatus hrejected => cases c <;> simp_all [Call.processes, Call.settles]
  | createWallet hw hk => cases hc
  | adjust hw hfunds hk => cases hc
  | createReading hr ho hdraft => cases hc
  | submit s => cases hc
  | createOrder ho hpkg => cases hc
  | createDiscountedOrder ho hoffer hclock hactive hpkg => cases hc
  | createPayment hk ho => cases hc
  | recordDelivery hk => cases hc
  | openSession hk ho htype hcreated => cases hc
  | unlockDailyCard hcount henough => cases hc
  | logEvent hc' => cases c <;> simp_all [Call.processes, Call.logs, Call.completes]
  | expireSession hc' hsession hopen => cases c <;> simp_all [Call.processes, Call.completes]
  | completeSession s hc' => cases c <;> simp_all [Call.processes, Call.completes]

/-- The life cycle of a reservation, in every run without removals: in every
committed state its ledger rows are those of its status; from then on it keeps
its amount and moves from `ACTIVE` at most once; and once it is settled, no call
that processes its reading writes a wallet. -/
theorem reservation_lifecycle (S : Deployment Body) (D : Db) (hD : PaymentsBelong D)
    (hreservations : D.creditReservations = ∅) (hledger : D.walletTransactions = ∅)
    (s : BackendServer Body)
    (run : Server.Reach (backend S) (fun c => c.removes = none) (.idle D) s) (readingId : Id)
    (res : CreditReservation) (hres : s.db.creditReservations.lookup readingId = some res) :
    Recorded s.db readingId res ∧ ∀ s' : BackendServer Body,
      Server.Reach (backend S) (fun c => c.removes = none) s s' → ∃ hist res',
        s'.history = hist ++ s.history ∧
        s'.db.creditReservations.lookup readingId = some res' ∧ res.Continues res' ∧
        (res.status ≠ .ACTIVE → res' = res ∧ ∀ c L, (c, L) ∈ hist →
          c.processes = some readingId → ∀ userId w, RowWrite.wallet userId w ∉ L) := by
  have hrecorded : ReservationsRecorded s.db :=
    (reach_commits (fun _ hc => hc) hD run).invariant ReservationsRecorded
      (.of_empty hreservations hledger) fun c D' L hD' he => he.2.reservationsRecorded hD'
  refine ⟨hrecorded.reserved readingId res hres, fun s' run' => ?_⟩
  obtain ⟨hist, hhist, path⟩ := reach_commits_from (fun _ hc => hc) hD run run'
  obtain ⟨res', hres', hcont⟩ := reservations_persist_path path readingId res hres
  refine ⟨hist, res', hhist, hres', hcont, fun hs => ⟨hcont.eq_of_settled hs, ?_⟩⟩
  intro c L hmem hc userId w
  obtain ⟨hist', D', path', -, he⟩ := path.exists_of_mem hmem
  obtain ⟨res'', hres'', hcont'⟩ := reservations_persist_path path' readingId res hres
  obtain rfl := hcont'.eq_of_settled hs
  exact he.no_wallet_of_settled hc hres'' hs userId w

/-- The credits of a submission are consumed, and then a release and an adjustment
leave the reservation as it is. -/
theorem reservation_lifecycle_of_consumption : ∃ s s' : BackendServer ParsedWebhook,
    s.db.creditReservations.lookup "r1" = some ⟨"ana", 2, .CONSUMED⟩ ∧
      Recorded s.db "r1" ⟨"ana", 2, .CONSUMED⟩ ∧ s'.db.wallets.lookup "ana" = some ⟨13⟩ ∧
      s'.db.creditReservations.lookup "r1" = some ⟨"ana", 2, .CONSUMED⟩ := by
  have consumed : ∃ s s', Server.Reach (backend sampleDeployment) (fun c => c.removes = none)
      (.idle sampleDb) s ∧ s.db.creditReservations.lookup "r1" = some ⟨"ana", 2, .CONSUMED⟩ ∧
      Server.Reach (backend sampleDeployment) (fun c => c.removes = none) s s' ∧
      s'.db.wallets.lookup "ana" = some ⟨13⟩ :=
    ⟨_, _, Server.Reach.refl.run (submitSchedule 0 "ana" "r1" ++ consumptionSchedule 1 "r1")
        (by simp [submitSchedule, consumptionSchedule, Move.Admissible, Call.removes, backend,
          Deployment.answers]) rfl, rfl,
      Server.Reach.refl.run ([.spawn 2 (.releaseReservation "r1"), .start 2, .exec 2, .commit 2] ++
          adjustSchedule 3)
        (by simp [adjustSchedule, Move.Admissible, Call.removes, backend, Deployment.answers]) rfl,
      rfl⟩
  obtain ⟨s, s', run, hs, run', hwallet⟩ := consumed
  obtain ⟨hrecorded, hlater⟩ := reservation_lifecycle sampleDeployment sampleDb (.of_empty rfl) rfl
    rfl s run "r1" _ hs
  obtain ⟨hist, res', -, hs', -, hsettled⟩ := hlater s' run'
  obtain ⟨rfl, -⟩ := hsettled (by simp)
  exact ⟨s, s', hs, hrecorded, hwallet, hs'⟩

end TaroTria
