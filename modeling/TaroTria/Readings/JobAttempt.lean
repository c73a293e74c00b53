import TaroTria.Readings.ReadingProcessing
import TaroTria.Transactions.Alone

/-!
# An attempt at a job

Where an attempt may end, and what it leaves of the reading and its reservation: the
status of the reading, the prompt and the images come first, then the AI, the closing
of the reservation and the result, each in a step of its own.
-/

namespace TaroTria

open Transactions

namespace ReadingProcessing

/-- The surroundings of an attempt. An attempt asks the AI at most once, and gets
this verdict. -/
structure Attempt where
  env : Proc.Surroundings Answer
  verdict : AIExecutionStatus
  answers : ∀ n input, (env.answer n (.execute input)).status = verdict
  judged : verdict ≠ .PENDING

/-- The prompt that a job asks for. -/
def promptCode (job : ReadingJob) (service : Service) : String :=
  match job.name with
  | .PROCESS_TAROT => service.code ++ "_INTERPRETATION"
  | .PROCESS_PALM => PALM_READING_INTERPRETATION_TASK

/-- The images that an attempt downloads. -/
def jobImages (job : ReadingJob) (D : Db) : List PalmImage :=
  match job.name with
  | .PROCESS_TAROT => []
  | .PROCESS_PALM => validImages job.readingId D

/-- The step of an attempt that asks the AI, after the reading, its status, the prompt and
the images. -/
def aiStep (job : ReadingJob) (D : Db) : Nat := 3 + (jobImages job D).length

section Attempts

variable (code : String) (k : Nat) (a : Attempt)

/-- The attempt gets as far as the AI. -/
def Attempt.Prepared : Prop :=
  (∀ n < k, a.env.fate n = some .done) ∧ (a.env.answer 2 (.publishedVersionId code)).isOk = true

/-- The closing of the reservation commits. A release does only if the refunded balance
fits. -/
def Attempt.Closes (room : Bool) : Prop :=
  a.Prepared code k ∧ a.env.fate k = some .done ∧ Commits (a.env.fate (k + 1)) ∧
    (a.verdict = .COMPLETED ∨ room = true)

/-- The result is written. -/
def Attempt.Writes : Prop :=
  a.Prepared code k ∧ a.env.fate k = some .done ∧ a.env.fate (k + 1) = some .done ∧
    Commits (a.env.fate (k + 2))

instance : Decidable (a.Prepared code k) := inferInstanceAs (Decidable (_ ∧ _))

instance (room : Bool) : Decidable (a.Closes code k room) :=
  inferInstanceAs (Decidable (_ ∧ _))

instance : Decidable (a.Writes code k) := inferInstanceAs (Decidable (_ ∧ _))

end Attempts

/-! ## The reservation -/

/-- The status of a reservation after the first closing, if there has been one. -/
def reservationStatus : Option AIExecutionStatus → CreditReservationStatus
  | none => .ACTIVE
  | some .COMPLETED => .CONSUMED
  | some _ => .RELEASED

/-- The wallet has room for the credits of the reservation. -/
def refundFits (c : CreditReservation) (w : Wallet) : Bool := Wallet.fits ⟨w.balance + c.amount⟩

/-- What the first closing has given back. -/
def refund (c : CreditReservation) (closing : Option AIExecutionStatus) : Int :=
  if reservationStatus closing = .RELEASED then c.amount else 0

/-- The rows of a reservation after the first closing. -/
structure Held (readingId : Id) (c : CreditReservation) (w : Wallet)
    (closing : Option AIExecutionStatus) (E : Db) : Prop where
  reservation : E.creditReservations.lookup readingId =
    some { c with status := reservationStatus closing }
  wallet : E.wallets.lookup c.walletId = some ⟨w.balance + refund c closing⟩
  unconsumed : closing = none → E.walletTransactions.lookup (.consumption readingId) = none
  unreleased : closing = none → E.walletTransactions.lookup (.release readingId) = none

/-- The transaction that closes a reservation. -/
def closingTx (readingId : Id) (verdict : AIExecutionStatus) : TxM Unit :=
  if verdict = .COMPLETED then WalletService.confirmConsumption readingId
  else WalletService.releaseReservation readingId

theorem closeReading_eq (readingId promptVersionId : Id) (verdict : AIExecutionStatus) :
    closeReading readingId promptVersionId verdict =
      (Proc.transaction (closingTx readingId verdict) >>= fun _ =>
        writeResult readingId promptVersionId (toReadingStatus verdict)) := by
  unfold closeReading closingTx
  split <;> rfl

section Closing

variable {readingId : Id} {c : CreditReservation} {w : Wallet} {E : Db}

/-- A closed reservation stays as it is. -/
theorem run_closingTx_closed {v : AIExecutionStatus} (h : Held readingId c w (some v) E)
    (verdict : AIExecutionStatus) : (closingTx readingId verdict).run E [] = .ok ((), []) := by
  have hnone : ∀ c', E.creditReservations.lookup readingId = some c' → c'.status ≠ .ACTIVE := by
    intro c' hc'
    obtain rfl := Option.some.inj (h.reservation.symm.trans hc')
    cases v <;> simp [reservationStatus]
  unfold closingTx WalletService.confirmConsumption WalletService.releaseReservation
  split <;>
    (rw [Tx.run_bind_ok (Db.creditReservation.run_updateMany_none _ (by simpa using hnone))]
     rfl)

theorem run_confirmConsumption (hc : E.creditReservations.lookup readingId = some c)
    (hactive : c.status = .ACTIVE) (hw : E.wallets.lookup c.walletId = some w)
    (hk : E.walletTransactions.lookup (.consumption readingId) = none) :
    (WalletService.confirmConsumption readingId).run E [] =
      .ok ((), WalletService.consumptionWrites readingId c w.balance) := by
  unfold WalletService.confirmConsumption
  rw [Tx.run_bind_ok (Db.creditReservation.run_updateMany _ (by simpa using hc)
    (by simpa using hactive))]
  simp only [Nat.one_ne_zero, if_false]
  rw [Tx.run_bind_ok (Db.creditReservation.run_findUniqueOrThrow
      (v := { c with status := .CONSUMED }) (by simp)),
    Tx.run_bind_ok (Db.wallet.run_findUniqueOrThrow (by simpa using hw)),
    Tx.run_bind_ok (Db.walletTransaction.run_create (by simpa using hk))]
  simp [WalletService.consumptionWrites]

theorem run_releaseReservation (hc : E.creditReservations.lookup readingId = some c)
    (hactive : c.status = .ACTIVE) (hw : E.wallets.lookup c.walletId = some w)
    (hk : E.walletTransactions.lookup (.release readingId) = none)
    (hfits : Wallet.fits ⟨w.balance + c.amount⟩ = true) :
    (WalletService.releaseReservation readingId).run E [] =
      .ok ((), WalletService.releaseWrites readingId c w) := by
  unfold WalletService.releaseReservation
  rw [Tx.run_bind_ok (Db.creditReservation.run_updateMany _ (by simpa using hc)
    (by simpa using hactive))]
  simp only [Nat.one_ne_zero, if_false]
  rw [Tx.run_bind_ok (Db.creditReservation.run_findUniqueOrThrow
      (v := { c with status := .RELEASED }) (by simp)),
    Tx.run_bind_ok (Db.wallet.run_updateWithin _ (by simpa using hw) hfits),
    Tx.run_bind_ok (Db.walletTransaction.run_create (by simpa using hk))]
  simp [WalletService.releaseWrites]

/-- A refund that does not fit fails the release. -/
theorem run_releaseReservation_unfit (hc : E.creditReservations.lookup readingId = some c)
    (hactive : c.status = .ACTIVE) (hw : E.wallets.lookup c.walletId = some w)
    (hfits : Wallet.fits ⟨w.balance + c.amount⟩ = false) :
    (WalletService.releaseReservation readingId).run E [] = .error .fault := by
  unfold WalletService.releaseReservation
  rw [Tx.run_bind_ok (Db.creditReservation.run_updateMany _ (by simpa using hc)
    (by simpa using hactive))]
  simp only [Nat.one_ne_zero, if_false]
  rw [Tx.run_bind_ok (Db.creditReservation.run_findUniqueOrThrow
      (v := { c with status := .RELEASED }) (by simp))]
  exact Tx.run_bind_error (Db.wallet.run_updateWithin_unfit _ (by simpa using hw) hfits)

/-- The first closing touches the reservation, the wallet and the ledger. -/
theorem run_closingTx_active (h : Held readingId c w none E) {verdict : AIExecutionStatus}
    (hjudged : verdict ≠ .PENDING) (hfits : verdict = .COMPLETED ∨ refundFits c w = true) :
    ∃ L, (closingTx readingId verdict).run E [] = .ok ((), L) ∧
      Held readingId c w (some verdict) (view L E) ∧
      view L E = { E with
        creditReservations := (view L E).creditReservations, wallets := (view L E).wallets,
        walletTransactions := (view L E).walletTransactions } := by
  have hbalance : w.balance + refund c none = w.balance := by simp [refund, reservationStatus]
  have hw := h.wallet
  rw [hbalance] at hw
  cases verdict with
  | PENDING => exact absurd rfl hjudged
  | COMPLETED =>
      refine ⟨_, run_confirmConsumption h.reservation rfl hw (h.unconsumed rfl), ?_, rfl⟩
      exact ⟨by simp [WalletService.consumptionWrites, reservationStatus],
        by simpa [WalletService.consumptionWrites, refund, reservationStatus] using hw,
        by simp, by simp⟩
  | FAILED =>
      have hroom := hfits.resolve_left (by simp)
      refine ⟨_, run_releaseReservation h.reservation rfl hw (h.unreleased rfl) hroom, ?_, rfl⟩
      exact ⟨by simp [WalletService.releaseWrites, reservationStatus],
        by simp [WalletService.releaseWrites, refund, reservationStatus], by simp, by simp⟩

/-- A first release without room fails. -/
theorem run_closingTx_unfit (h : Held readingId c w none E) {verdict : AIExecutionStatus}
    (hfits : ¬ (verdict = .COMPLETED ∨ refundFits c w = true)) :
    (closingTx readingId verdict).run E [] = .error .fault := by
  obtain ⟨hverdict, hroom⟩ := not_or.mp hfits
  have hbalance : w.balance + refund c none = w.balance := by simp [refund, reservationStatus]
  have hw := h.wallet
  rw [hbalance] at hw
  rw [closingTx, if_neg hverdict]
  exact run_releaseReservation_unfit h.reservation rfl hw (Bool.eq_false_of_not_eq_true hroom)

/-- A closing, the first one or a later one. -/
theorem run_closingTx {closing : Option AIExecutionStatus} (h : Held readingId c w closing E)
    {v : AIExecutionStatus} (hjudged : v ≠ .PENDING)
    (hfits : closing = none → v = .COMPLETED ∨ refundFits c w = true) :
    ∃ L, (closingTx readingId v).run E [] = .ok ((), L) ∧
      Held readingId c w (closing <|> some v) (view L E) ∧
      view L E = { E with
        creditReservations := (view L E).creditReservations, wallets := (view L E).wallets,
        walletTransactions := (view L E).walletTransactions } := by
  cases closing with
  | none => exact run_closingTx_active h hjudged (hfits rfl)
  | some v' => exact ⟨[], run_closingTx_closed h v, h, rfl⟩

end Closing

/-! ## One attempt -/

section Prefix

variable {job : ReadingJob} {r : Reading} {service : Service} {E : Db}

/-- The rows when an attempt asks the AI. -/
def processing (readingId : Id) (r : Reading) (E : Db) : Db :=
  view [.reading readingId (some { r with status := .PROCESSING })] E

theorem run_setStatus (hr : E.readings.lookup job.readingId = some r) :
    (ReadingsService.setStatus job.readingId .PROCESSING).run E [] =
      .ok ((), [.reading job.readingId (some { r with status := .PROCESSING })]) := by
  unfold ReadingsService.setStatus
  rw [Tx.run_bind_ok (Db.reading.run_update _ (by simpa using hr))]
  rfl

/-- The attempt fails, and has at most started the processing. -/
def Fails (env : Proc.Surroundings Answer) (n : Nat) (request : Request Unit) (readingId : Id)
    (r : Reading) (E : Db) : Prop :=
  ∃ E' e, request.exec env n E = (E', .error e) ∧ (E' = E ∨ E' = processing readingId r E)

/-- The part common to both processors, up to the prompt version. -/
def start (readingId : Id) (code : String) (rest : Id → Request Unit) : Request Unit := do
  Proc.transaction (ReadingsService.setStatus readingId .PROCESSING)
  let promptVersionId ← Proc.ofExcept (← Proc.call (.publishedVersionId code))
  rest promptVersionId

theorem exec_start {env : Proc.Surroundings Answer} (hr : E.readings.lookup job.readingId = some r)
    (code : String) (rest : Id → Request Unit) :
    (env.fate 1 = some .done ∧ env.fate 2 = some .done ∧
      ∃ id, env.answer 2 (.publishedVersionId code) = .ok id ∧
        (start job.readingId code rest).exec env 1 E =
          (rest id).exec env 3 (processing job.readingId r E)) ∨
    ¬ (env.fate 1 = some .done ∧ env.fate 2 = some .done ∧
      (env.answer 2 (.publishedVersionId code)).isOk = true) ∧
        Fails env 1 (start job.readingId code rest) job.readingId r E := by
  unfold start
  by_cases h₁ : env.fate 1 = some .done
  · rw [Fails, Proc.exec_transaction_ok h₁ (run_setStatus hr)]
    by_cases h₂ : env.fate 2 = some .done
    · rw [Proc.exec_call h₂]
      cases hid : env.answer 2 (.publishedVersionId code) with
      | ok id => exact .inl ⟨h₁, h₂, id, rfl, rfl⟩
      | error e => exact .inr ⟨by simp [Except.isOk, Except.toBool], _, e, rfl, .inr rfl⟩
    · obtain ⟨e, he⟩ := Proc.exec_call_unanswered (D := processing job.readingId r E)
        (q := .publishedVersionId code) (f := fun x => Proc.ofExcept x >>= rest) h₂
      exact .inr ⟨fun h => h₂ h.2.1, _, e, he, .inr rfl⟩
  · refine .inr ⟨fun h => h₁ h.1, ?_⟩
    rcases Proc.exec_transaction_unanswered (D := E)
        (b := ReadingsService.setStatus job.readingId .PROCESSING) h₁ with
      ⟨_, L, -, hrun, hexec⟩ | ⟨e, hexec⟩
    · rw [run_setStatus hr] at hrun
      cases hrun
      exact ⟨_, _, hexec, .inr rfl⟩
    · exact ⟨_, e, hexec, .inl rfl⟩

/-- Each download is one step. -/
theorem exec_downloadImages {α : Type} (env : Proc.Surroundings Answer) (images : List PalmImage)
    (f : List AIProviderImage → Request α) (n : Nat) (D : Db) :
    ((∀ i < images.length, env.fate (n + i) = some .done) ∧ ∃ downloaded,
      (downloadImages images >>= f).exec env n D =
        (f downloaded).exec env (n + images.length) D) ∨
    ¬ (∀ i < images.length, env.fate (n + i) = some .done) ∧
      ∃ e, (downloadImages images >>= f).exec env n D = (D, .error e) := by
  induction images generalizing f n with
  | nil => exact .inl ⟨by simp, [], rfl⟩
  | cons image images ih =>
      simp only [downloadImages, bind_assoc]
      by_cases h : env.fate n = some .done
      · rw [Proc.exec_call h]
        have hfates : (∀ i < images.length + 1, env.fate (n + i) = some .done) ↔
            ∀ i < images.length, env.fate (n + 1 + i) = some .done := by
          constructor
          · intro hall i hi
            rw [Nat.add_assoc, Nat.add_comm 1]
            exact hall (i + 1) (by omega)
          · intro hall i hi
            cases i with
            | zero => exact h
            | succ i =>
                rw [Nat.add_comm i, ← Nat.add_assoc]
                exact hall i (by omega)
        let image' : AIProviderImage :=
          ⟨(env.answer n (.downloadObject image.storageKey)).toBase64,
            image.mimeType.getD "image/jpeg"⟩
        rw [List.length_cons, hfates]
        rcases ih (fun rest => f (image' :: rest)) (n + 1) with
          ⟨hrest, downloaded, hexec⟩ | ⟨hrest, e, hexec⟩
        · refine .inl ⟨hrest, image' :: downloaded, hexec.trans ?_⟩
          rw [Nat.add_assoc, Nat.add_comm 1]
        · exact .inr ⟨hrest, e, hexec⟩
      · exact .inr ⟨fun hall => h (by simpa using hall 0), Proc.exec_call_unanswered h⟩

theorem exists_findTarotReading {readingId : Id} (hr : E.readings.lookup readingId = some r)
    (hservice : E.services.lookup r.serviceId = some service) :
    ∃ row, findTarotReading readingId E = some row ∧ row.reading = r ∧
      row.serviceCode = service.code := by
  have hr' : Db.reading.find E readingId = some r := hr
  unfold findTarotReading
  rw [hr']
  simp [hservice]

/-- An attempt that finds the reading open. -/
theorem exec_process_open (hr : E.readings.lookup job.readingId = some r)
    (hservice : E.services.lookup r.serviceId = some service) (hopen : r.status ≠ .COMPLETED) :
    ∃ input : Id → List AIProviderImage → AIOrchestratorExecuteInput,
      ∀ env : Proc.Surroundings Answer, env.fate 0 = some .done →
        (process job).exec env 0 E = (start job.readingId (promptCode job service) fun id =>
          downloadImages (jobImages job E) >>= fun images =>
            interpret job.readingId (input id images)).exec env 1 E := by
  have hr' : Db.reading.find E job.readingId = some r := hr
  unfold process jobImages promptCode
  cases hname : job.name with
  | PROCESS_TAROT =>
      obtain ⟨row, hrow, rfl, hcode⟩ := exists_findTarotReading hr hservice
      refine ⟨fun id _ =>
        { promptVersionId := id, readingId := job.readingId
          promptVariables := [("question", row.question.getD ""), ("cards", cardsText row)]
          riskCheckText := row.question.getD "", images := [] }, fun env h₀ => ?_⟩
      unfold processTarotReading
      rw [Proc.exec_select h₀, hrow, ← hcode]
      simp only [hopen, if_false]
      rfl
  | PROCESS_PALM =>
      refine ⟨fun id images =>
        { promptVersionId := id, readingId := job.readingId, promptVariables := []
          riskCheckText := "", images }, fun env h₀ => ?_⟩
      unfold processPalmReading
      rw [Proc.exec_select h₀, hr']
      simp only [Option.map_some, hopen, if_false]
      rfl

/-- An attempt gets as far as the AI, or fails before it. -/
theorem exec_process (hr : E.readings.lookup job.readingId = some r)
    (hservice : E.services.lookup r.serviceId = some service) (hopen : r.status ≠ .COMPLETED)
    (a : Attempt) :
    (a.Prepared (promptCode job service) (aiStep job E) ∧ ∃ input,
      (process job).exec a.env 0 E =
        (interpret job.readingId input).exec a.env (aiStep job E)
          (processing job.readingId r E)) ∨
    ¬ a.Prepared (promptCode job service) (aiStep job E) ∧
      Fails a.env 0 (process job) job.readingId r E := by
  obtain ⟨input, hinput⟩ := exec_process_open hr hservice hopen
  by_cases h₀ : a.env.fate 0 = some .done
  · have hsteps : a.Prepared (promptCode job service) (aiStep job E) ↔
        (a.env.fate 1 = some .done ∧ a.env.fate 2 = some .done ∧
          (a.env.answer 2 (.publishedVersionId (promptCode job service))).isOk = true) ∧
        ∀ i < (jobImages job E).length, a.env.fate (3 + i) = some .done := by
      unfold Attempt.Prepared aiStep
      constructor
      · rintro ⟨hall, hversion⟩
        exact ⟨⟨hall 1 (by omega), hall 2 (by omega), hversion⟩, fun i hi => hall _ (by omega)⟩
      · rintro ⟨⟨h₁, h₂, hversion⟩, himages⟩
        refine ⟨fun n hn => ?_, hversion⟩
        match n with
        | 0 => exact h₀
        | 1 => exact h₁
        | 2 => exact h₂
        | n + 3 =>
            rw [Nat.add_comm]
            exact himages n (by omega)
    rw [Fails, hinput a.env h₀, hsteps]
    rcases exec_start hr (promptCode job service) (fun id =>
      downloadImages (jobImages job E) >>= fun images => interpret job.readingId (input id images))
      with ⟨h₁, h₂, id, hid, hexec⟩ | ⟨hnot, E', e, hexec, hE'⟩
    · rcases exec_downloadImages a.env (jobImages job E)
        (fun images => interpret job.readingId (input id images)) 3
        (processing job.readingId r E) with ⟨himages, downloaded, hrest⟩ | ⟨himages, e, hrest⟩
      · exact .inl ⟨⟨⟨h₁, h₂, by rw [hid]; rfl⟩, himages⟩, _, hexec.trans hrest⟩
      · exact .inr ⟨fun h => himages h.2, _, e, hexec.trans hrest, .inr rfl⟩
    · exact .inr ⟨fun h => hnot h.1, E', e, hexec, hE'⟩
  · refine .inr ⟨fun h => h₀ (h.1 0 (by unfold aiStep; omega)), E, ?_⟩
    have hfirst : ∃ e, (process job).exec a.env 0 E = (E, .error e) := by
      unfold process
      cases job.name with
      | PROCESS_TAROT => exact Proc.exec_select_unanswered h₀
      | PROCESS_PALM => exact Proc.exec_select_unanswered h₀
    obtain ⟨e, he⟩ := hfirst
    exact ⟨e, he, .inl rfl⟩

end Prefix

section Interpretation

variable {readingId : Id} {r : Reading} {E : Db}

/-- The rows of a reading with its result. -/
def finished (readingId : Id) (r : Reading) (promptVersionId : Id) (verdict : AIExecutionStatus)
    (E : Db) : Db :=
  view [.reading readingId (some
    { r with status := toReadingStatus verdict, promptVersionId := promptVersionId })] E

theorem exec_writeResult (env : Proc.Surroundings Answer) (n : Nat) (promptVersionId : Id)
    (verdict : AIExecutionStatus) (hr : E.readings.lookup readingId = some r) :
    (¬ Commits (env.fate n) ∧ ∃ e,
      (writeResult readingId promptVersionId (toReadingStatus verdict)).exec env n E =
        (E, .error e)) ∨
    Commits (env.fate n) ∧
      ((writeResult readingId promptVersionId (toReadingStatus verdict)).exec env n E).1 =
        finished readingId r promptVersionId verdict E := by
  have hrun := Db.reading.run_update (E := Err) (L := []) (fun r : Reading =>
    { r with status := toReadingStatus verdict, promptVersionId := promptVersionId }) hr
  unfold writeResult
  cases hf : env.fate n with
  | none => exact .inl ⟨by simp [Commits], .fault, by simp [Proc.transaction, Proc.exec, hf]; rfl⟩
  | some fate =>
      cases fate with
      | failed =>
          refine .inl ⟨by simp [Commits], .fault, ?_⟩
          simp [Proc.transaction, Proc.exec, hf, Tx.outcome]
          rfl
      | _ =>
          refine .inr ⟨by simp [Commits], ?_⟩
          simp [Proc.transaction, Proc.exec, hf, Tx.outcome, Tx.run_bind_ok hrun, finished]

/-- From the AI on, an attempt changes nothing, closes the reservation and fails, or
also writes the result. -/
theorem exec_interpret (a : Attempt) (input : AIOrchestratorExecuteInput) (k : Nat)
    {L : List RowWrite} (hrun : (closingTx readingId a.verdict).run E [] = .ok ((), L))
    (hr : (view L E).readings.lookup readingId = some r) :
    (¬ (a.env.fate k = some .done ∧ Commits (a.env.fate (k + 1))) ∧
      ∃ e, (interpret readingId input).exec a.env k E = (E, .error e)) ∨
    (a.env.fate k = some .done ∧ Commits (a.env.fate (k + 1)) ∧
      ¬ (a.env.fate (k + 1) = some .done ∧ Commits (a.env.fate (k + 2))) ∧
      ∃ e, (interpret readingId input).exec a.env k E = (view L E, .error e)) ∨
    a.env.fate k = some .done ∧ a.env.fate (k + 1) = some .done ∧
      Commits (a.env.fate (k + 2)) ∧ ((interpret readingId input).exec a.env k E).1 =
        finished readingId r input.promptVersionId a.verdict (view L E) := by
  unfold interpret
  by_cases h₀ : a.env.fate k = some .done
  · rw [Proc.exec_call h₀, a.answers, closeReading_eq]
    by_cases h₁ : a.env.fate (k + 1) = some .done
    · rw [Proc.exec_transaction_ok h₁ hrun]
      rcases exec_writeResult a.env (k + 1 + 1) input.promptVersionId a.verdict hr with
        ⟨h₂, hexec⟩ | ⟨h₂, hexec⟩
      · exact .inr (.inl ⟨h₀, .inl h₁, fun h => h₂ h.2, hexec⟩)
      · exact .inr (.inr ⟨h₀, h₁, h₂, hexec⟩)
    · by_cases hlost : a.env.fate (k + 1) = some .lost
      · exact .inr (.inl ⟨h₀, .inr hlost, fun h => h₁ h.1, Proc.exec_transaction_lost hlost hrun⟩)
      · have hunmade : ¬ Commits (a.env.fate (k + 1)) := not_or.mpr ⟨h₁, hlost⟩
        exact .inl ⟨fun h => hunmade h.2, Proc.exec_transaction_unmade hunmade⟩
  · exact .inl ⟨fun h => h₀ h.1, Proc.exec_call_unanswered h₀⟩

/-- An attempt whose closing fails changes nothing from the AI on. -/
theorem exec_interpret_refused (a : Attempt) (input : AIOrchestratorExecuteInput) (k : Nat)
    {e : Err} (hrun : (closingTx readingId a.verdict).run E [] = .error e) :
    ∃ e', (interpret readingId input).exec a.env k E = (E, .error e') := by
  unfold interpret
  by_cases h₀ : a.env.fate k = some .done
  · rw [Proc.exec_call h₀, a.answers, closeReading_eq]
    exact Proc.exec_transaction_refused hrun
  · exact Proc.exec_call_unanswered h₀

end Interpretation

/-! ## Between two attempts -/

section Attempts

variable {job : ReadingJob} {r : Reading} {service : Service} {c : CreditReservation} {w : Wallet}
  {D E : Db} {closing : Option AIExecutionStatus} {completed : Prop}

/-- The rows of a reading between two attempts. -/
structure Stands (job : ReadingJob) (r : Reading) (c : CreditReservation) (w : Wallet) (D : Db)
    (closing : Option AIExecutionStatus) (completed : Prop) (E : Db) : Prop where
  held : Held job.readingId c w closing E
  reading : ∃ r', E.readings.lookup job.readingId = some r' ∧ r'.serviceId = r.serviceId ∧
    (r'.status = .COMPLETED ↔ completed)
  services : E.services = D.services
  palmImages : E.palmImages = D.palmImages
  closed : completed → closing ≠ none

theorem Stands.congr {completed' : Prop} (h : Stands job r c w D closing completed E)
    (hcompleted : completed' ↔ completed) : Stands job r c w D closing completed' E := by
  rwa [propext hcompleted]

/-- The start of the processing leaves the reading open. -/
theorem Stands.start (h : Stands job r c w D closing False E) {r' : Reading}
    (hservice : r'.serviceId = r.serviceId) :
    Stands job r c w D closing False (processing job.readingId r' E) where
  held := ⟨h.held.reservation, h.held.wallet, h.held.unconsumed, h.held.unreleased⟩
  reading := ⟨{ r' with status := .PROCESSING }, by simp [processing], hservice,
    by simp⟩
  services := h.services
  palmImages := h.palmImages
  closed := nofun

/-- The closing of the reservation leaves the reading as it is. -/
theorem Stands.close {verdict : AIExecutionStatus} {L : List RowWrite}
    (h : Stands job r c w D closing False E)
    (hheld : Held job.readingId c w (closing <|> some verdict) (view L E))
    (hframe : view L E = { E with
      creditReservations := (view L E).creditReservations, wallets := (view L E).wallets,
      walletTransactions := (view L E).walletTransactions }) :
    Stands job r c w D (closing <|> some verdict) False (view L E) where
  held := hheld
  reading := by
    rw [hframe]
    exact h.reading
  services := by
    rw [hframe]
    exact h.services
  palmImages := by
    rw [hframe]
    exact h.palmImages
  closed := nofun

/-- The result of a reading whose reservation is closed. -/
theorem Stands.finish (h : Stands job r c w D closing False E) {r' : Reading}
    (hservice : r'.serviceId = r.serviceId) (hclosing : closing ≠ none) (promptVersionId : Id)
    (verdict : AIExecutionStatus) :
    Stands job r c w D closing (verdict = .COMPLETED)
      (finished job.readingId r' promptVersionId verdict E) where
  held := ⟨h.held.reservation, h.held.wallet, h.held.unconsumed, h.held.unreleased⟩
  reading :=
    ⟨{ r' with status := toReadingStatus verdict, promptVersionId := promptVersionId },
      by simp [finished], hservice, by cases verdict <;> simp [toReadingStatus]⟩
  services := h.services
  palmImages := h.palmImages
  closed _ := hclosing

/-- An attempt at a reading that is open. -/
theorem Stands.attempt (h : Stands job r c w D closing False E)
    (hservice : D.services.lookup r.serviceId = some service) (a : Attempt) {code : String}
    {k : Nat} (hcode : code = promptCode job service) (hk : k = aiStep job D) :
    Stands job r c w D
      (if a.Closes code k (refundFits c w) then closing <|> some a.verdict else closing)
      (a.Writes code k ∧ a.verdict = .COMPLETED) ((process job).exec a.env 0 E).1 ∧
    (((process job).exec a.env 0 E).2 = .ok () → a.Writes code k ∧
      (closing = none → a.verdict = .COMPLETED ∨ refundFits c w = true) ∧
      ∃ r', ((process job).exec a.env 0 E).1.readings.lookup job.readingId = some r' ∧
        r'.status = toReadingStatus a.verdict) := by
  obtain ⟨r', hr', hserviceId, hstatus⟩ := h.reading
  have hstep : aiStep job E = k := by
    rw [hk, aiStep, aiStep, jobImages, jobImages, validImages, validImages, h.palmImages]
  have hmid := h.start hserviceId
  have hprefix := exec_process hr' (by rw [h.services, hserviceId]; exact hservice)
    (by simpa using hstatus) a
  rw [hstep, ← hcode] at hprefix
  rcases hprefix with ⟨hprepared, input, hexec⟩ | ⟨hprepared, E', e, hexec, hE'⟩
  · by_cases hfits : closing = none → a.verdict = .COMPLETED ∨ refundFits c w = true
    swap
    · -- The release finds no room in the wallet.
      obtain ⟨rfl, hunfit⟩ := Classical.not_imp.mp hfits
      obtain ⟨e, he⟩ := exec_interpret_refused a input k (run_closingTx_unfit hmid.held hunfit)
      have hverdict : a.verdict ≠ .COMPLETED := fun hv => hunfit (.inl hv)
      rw [hexec, he, if_neg fun hc : a.Closes code k (refundFits c w) => hunfit hc.2.2.2]
      exact ⟨hmid.congr (by simp [hverdict]), nofun⟩
    obtain ⟨L, hrun, hheld, hframe⟩ := run_closingTx hmid.held a.judged hfits
    have closing_eq : a.Prepared code k ∧ a.env.fate k = some .done ∧
        Commits (a.env.fate (k + 1)) →
        (if a.Closes code k (refundFits c w) then closing <|> some a.verdict else closing) =
          (closing <|> some a.verdict) := by
      rintro ⟨h₀, h₁, h₂⟩
      cases closing with
      | none => rw [if_pos ⟨h₀, h₁, h₂, hfits rfl⟩]
      | some v => split <;> rfl
    have hr'' : (view L (processing job.readingId r' E)).readings.lookup
        job.readingId = some { r' with status := .PROCESSING } := by
      rw [hframe]
      simp [processing]
    have hclosed := hmid.close hheld hframe
    rw [hexec]
    rcases exec_interpret a input k hrun hr'' with
      ⟨hnot, e, he⟩ | ⟨h₀, h₁, hnot, e, he⟩ | ⟨h₀, h₁, h₂, he⟩
    · have hwrites : ¬ a.Writes code k := fun hw => hnot ⟨hw.2.1, .inl hw.2.2.1⟩
      rw [he, if_neg fun hc : a.Closes code k (refundFits c w) => hnot ⟨hc.2.1, hc.2.2.1⟩]
      exact ⟨hmid.congr (by simp [hwrites]), nofun⟩
    · have hwrites : ¬ a.Writes code k := fun hw => hnot ⟨hw.2.2.1, hw.2.2.2⟩
      rw [he, closing_eq ⟨hprepared, h₀, h₁⟩]
      exact ⟨hclosed.congr (by simp [hwrites]), nofun⟩
    · have hwrites : a.Writes code k := ⟨hprepared, h₀, h₁, h₂⟩
      rw [he, closing_eq ⟨hprepared, h₀, .inl h₁⟩]
      have hfinished := @Stands.finish _ _ _ _ _ _ _ hclosed { r' with status := .PROCESSING } hserviceId
        (by simp) input.promptVersionId a.verdict
      exact ⟨hfinished.congr (by simp [hwrites]),
        fun _ => ⟨hwrites, hfits, _, by simp [finished]; rfl, rfl⟩⟩
  · have hcloses : ¬ a.Closes code k (refundFits c w) := fun hc => hprepared hc.1
    have hwrites : ¬ a.Writes code k := fun hw => hprepared hw.1
    rw [hexec, if_neg hcloses]
    refine ⟨?_, nofun⟩
    rcases hE' with rfl | rfl
    · exact h.congr (by simp [hwrites])
    · exact hmid.congr (by simp [hwrites])

end Attempts

end ReadingProcessing

end TaroTria
