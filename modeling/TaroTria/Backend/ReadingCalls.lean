import TaroTria.Backend.Effects

/-!
# The calls on readings

The requests of the readings service and of the queue consumer commit only the
changes of `Effect`, whatever else runs at the same time.
-/

namespace TaroTria

open Transactions

section Rules

variable {Body : Type} {S : Deployment Body} {c : Call Body} {D : Db} {α : Type}

/-- A transaction that only reads sees rows that persist from then on. -/
theorem safe_read {β : Type} {f : Db → β} {P : Except Err β → Db → Prop}
    (herr : ∀ e D', Mono D D' → P (.error e) D')
    (hok : ∀ D₀ D', Mono D₀ D' → Mono D D' → P (.ok (f D₀)) D') :
    (Proc.transaction (Tx.select f) : Request β).Safe (discipline S) S.answers c P D := by
  apply Proc.Safe.transaction herr
  intro D' hD'
  apply Tx.wp_select
  intro D₀ hD₀
  refine ⟨by simp, fun D'' hD'' => ?_⟩
  exact hok D₀ D'' (hD₀.mono.trans hD'') (hD'.trans hD'')

theorem safe_readOrThrow {β : Type} {f : Db → Option β} {P : Except Err β → Db → Prop}
    (herr : ∀ e D', Mono D D' → P (.error e) D')
    (hok : ∀ D₀ b D', Mono D₀ D' → Mono D D' → f D₀ = some b → P (.ok b) D') :
    (Proc.transaction (Tx.selectOrThrow f) : Request β).Safe (discipline S) S.answers c P D := by
  apply Proc.Safe.transaction herr
  intro D' hD'
  apply Tx.wp_selectOrThrow
  intro D₀ b hD₀ hb
  refine ⟨by simp, fun D'' hD'' => ?_⟩
  exact hok D₀ b D'' (hD₀.mono.trans hD'') (hD'.trans hD'') hb

/-- A transaction after which nothing about the rows needs to be known. -/
theorem safe_commit {body : TxM α} {P : Except Err α → Db → Prop}
    (hP : ∀ r D', Mono D D' → P r D')
    (h : ∀ D', Mono D D' →
      body.wp (discipline S) D' (fun _ L => L ≠ [] → Effect S c D' L) []) :
    (Proc.transaction body : Request α).Safe (discipline S) S.answers c P D := by
  apply Proc.Safe.transaction (fun e D' h' => hP _ D' h')
  intro D' hD'
  refine Tx.wp_mono (fun a L hL => ⟨hL, fun D'' hD'' => hP _ D'' ?_⟩) (h D' hD')
  by_cases hnil : L = []
  · subst hnil
    exact hD'.trans hD''
  · exact hD'.trans ((hL hnil).mono.trans hD'')

theorem safe_call {q : Query} {P : Except Err (Answer q) → Db → Prop}
    (herr : ∀ e D', Mono D D' → P (.error e) D')
    (hok : ∀ a, S.answers q a → ∀ D', Mono D D' → P (.ok a) D') :
    (Proc.call q : Request (Answer q)).Safe (discipline S) S.answers c P D :=
  Proc.Safe.call herr hok

theorem safe_ofExcept {x : Except Err α} {P : Except Err α → Db → Prop}
    (h : ∀ D', Mono D D' → P x D') :
    (Proc.ofExcept x : Request α).Safe (discipline S) S.answers c P D := by
  cases x with
  | ok a => exact h
  | error e => exact h

end Rules

namespace ReadingsService
variable {Body : Type} {S : Deployment Body} {c : Call Body} {D : Db}

theorem safe_findOneForUser {userId readingId : Id} {P : Except Err Reading → Db → Prop}
    (hP : ∀ r D', Mono D D' → P r D') :
    (findOneForUser userId readingId).Safe (discipline S) S.answers c P D := by
  apply Proc.Safe.bind
  apply safe_read
  · intro e D' hD'
    exact hP _ D' hD'
  · intro D₀ D' hD₀ hD'
    cases (Db.reading.find D₀ readingId).filter fun r => r.userId = userId with
    | none => exact fun D'' hD'' => hP _ D'' (hD'.trans hD'')
    | some r => exact fun D'' hD'' => hP _ D'' (hD'.trans hD'')

theorem safe_findOwnedDraft {userId readingId : Id} {P : Except Err Reading → Db → Prop}
    (herr : ∀ e D', Mono D D' → P (.error e) D')
    (hok : ∀ r D₀ D', Mono D₀ D' → Mono D D' → D₀.readings.lookup readingId = some r →
      r.userId = userId → P (.ok r) D') :
    (findOwnedDraft userId readingId).Safe (discipline S) S.answers c P D := by
  apply Proc.Safe.bind
  apply safe_read
  · exact herr
  · intro D₀ D' hD₀ hD'
    simp only
    split
    · rename_i r hr
      simp [Option.filter_eq_some_iff] at hr
      split
      · exact fun D'' hD'' => herr _ D'' (hD'.trans hD'')
      · exact fun D'' hD'' => hok r D₀ D'' (hD₀.trans hD'') (hD'.trans hD'') hr.1 hr.2
    · exact fun D'' hD'' => herr _ D'' (hD'.trans hD'')

theorem safe_findService {serviceId : Id} {P : Except Err Service → Db → Prop}
    (herr : ∀ e D', Mono D D' → P (.error e) D')
    (hok : ∀ service D', Mono D D' → D'.services.lookup serviceId = some service →
      P (.ok service) D') :
    (Proc.transaction (findService serviceId)).Safe (discipline S) S.answers c P D := by
  apply safe_readOrThrow herr
  intro D₀ service D' hD₀ hD' hservice
  exact hok service D' hD' (by rw [hD₀.services, hservice])

theorem safe_findSpread {spreadId : Id} {P : Except Err TarotSpread → Db → Prop}
    (herr : ∀ e D', Mono D D' → P (.error e) D')
    (hok : ∀ spread D', Mono D D' → D'.tarotSpreads.lookup spreadId = some spread →
      P (.ok spread) D') :
    (Proc.transaction (findSpread spreadId)).Safe (discipline S) S.answers c P D := by
  apply safe_readOrThrow herr
  intro D₀ spread D' hD₀ hD' hspread
  exact hok spread D' hD' (by rw [hD₀.tarotSpreads, hspread])

/-- The end of a submission: its transaction, the job and the answer. -/
theorem safe_submitOnce {userId readingId : Id} {body : TxM Unit} {job : ReadingJob}
    {jobId : String}
    (h : ∀ D', Mono D D' → body.wp (discipline S) D'
      (fun _ L => L ≠ [] → Effect S (.submit userId readingId) D' L) []) :
    (submitOnce userId readingId body job jobId).Safe (discipline S) S.answers
      (.submit userId readingId) (fun _ _ => True) D := by
  have answer : ∀ D', (findOneForUser userId readingId).Safe (discipline S) S.answers
      (.submit userId readingId) (fun _ _ => True) D' :=
    fun D' => safe_findOneForUser fun _ _ _ => trivial
  have enqueue : ∀ outcome : Bool, ∀ D', (do
      if outcome then
        Proc.transaction (addJob jobId job)
      findOneForUser userId readingId : Request Reading).Safe (discipline S) S.answers
        (.submit userId readingId) (fun _ _ => True) D' := by
    intro outcome D'
    cases outcome with
    | false => exact answer D'
    | true =>
        apply Proc.Safe.bind
        apply safe_commit
        · intro r D'' _
          cases r with
          | ok _ => exact answer D''
          | error e => trivial
        · intro D'' _
          apply wp_addJob
          intro job' _
          exact .enqueue rfl
  unfold submitOnce
  apply Proc.Safe.bind
  apply Proc.Safe.handle
  apply Proc.Safe.bind
  apply safe_commit
  · intro r D' _
    cases r with
    | ok _ => exact fun D'' _ => enqueue true D''
    | error e =>
        simp only
        split
        · exact fun D'' _ => enqueue false D''
        · exact fun D'' _ => trivial
  · exact h

theorem safe_submitPalmReading {userId readingId : Id} {service : Service} {r : Reading}
    {D₀ : Db} (hD₀ : Mono D₀ D) (hr : D₀.readings.lookup readingId = some r)
    (howner : r.userId = userId) (hservice : D.services.lookup r.serviceId = some service)
    (hpalm : isPalmService service.code = true) :
    (submitPalmReading userId readingId service).Safe (discipline S) S.answers
      (.submit userId readingId) (fun _ _ => True) D := by
  unfold submitPalmReading
  apply Proc.Safe.bind
  apply safe_read
  · intros; trivial
  · intro _ D₁ _ hD₁
    simp only
    split
    · exact fun _ _ => trivial
    · apply Proc.Safe.bind
      apply safe_call
      · intros; trivial
      · intro now _ D₂ hD₂
        apply safe_submitOnce
        intro D₃ hD₃
        have hm : Mono D D₃ := hD₁.trans (hD₂.trans hD₃)
        apply wp_submitPalmTx
        intro w r' hw hfunds hres hkey hr' _
        obtain ⟨r'', hr'', huser, hserv, hspread⟩ := (hD₀.trans hm).readings readingId r hr
        obtain rfl : r'' = r' := Option.some.inj (hr''.symm.trans hr')
        exact Effect.submit
          { reading := r'', service, wallet := w, unlocked := false, draws := [], now
            reading_mem := hr', owner := huser.trans howner
            service_mem := by rw [hserv, hm.services, hservice]
            wallet_mem := hw, funds := hfunds, unlock := by simp
            unreserved := hres, unrecorded := hkey
            palm := fun _ => rfl, tarot := fun h => by simp [hpalm] at h }

theorem safe_submitTarotReading {userId readingId : Id} {service : Service} {r : Reading}
    {D₀ : Db} (hD₀ : Mono D₀ D) (hr : D₀.readings.lookup readingId = some r)
    (howner : r.userId = userId) (hservice : D.services.lookup r.serviceId = some service)
    (hpalm : isPalmService service.code = false) :
    (submitTarotReading userId readingId r service).Safe (discipline S) S.answers
      (.submit userId readingId) (fun _ _ => True) D := by
  unfold submitTarotReading
  apply Proc.Safe.bind
  apply safe_read
  · intros; trivial
  intro _ D₁ _ hD₁
  simp only
  split
  · split
    · rename_i spreadId hspreadId
      apply Proc.Safe.bind
      apply safe_findSpread
      · intros; trivial
      intro spread D₂ hD₂ hspread
      apply Proc.Safe.bind
      apply safe_call
      · intros; trivial
      intro deck? _ D₃ hD₃
      apply Proc.Safe.bind
      apply safe_ofExcept
      intro D₄ hD₄
      cases deck? with
      | error e => trivial
      | ok deck =>
          apply Proc.Safe.bind
          apply safe_call
          · intros; trivial
          intro choices hchoices D₅ hD₅
          apply Proc.Safe.bind
          apply safe_ofExcept
          intro D₆ hD₆
          cases hdraw : DrawEngine.draw deck (orderedPositions spread) choices with
          | error e => trivial
          | ok draws =>
              apply Proc.Safe.bind
              apply safe_call
              · intros; trivial
              intro now _ D₇ hD₇
              apply safe_submitOnce
              intro D₈ hD₈
              have hm₂ : Mono D₂ D₈ := hD₃.trans (hD₄.trans (hD₅.trans (hD₆.trans (hD₇.trans hD₈))))
              have hm : Mono D D₈ := hD₁.trans (hD₂.trans hm₂)
              apply wp_submitTarotTx
              intro unlocked w r' hunlock hw hfunds hres hkey hr' _
              obtain ⟨r'', hr'', huser, hserv, hspr⟩ := (hD₀.trans hm).readings readingId r hr
              obtain rfl : r'' = r' := Option.some.inj (hr''.symm.trans hr')
              exact Effect.submit
                { reading := r'', service, wallet := w, unlocked, draws, now
                  reading_mem := hr', owner := huser.trans howner
                  service_mem := by rw [hserv, hm.services, hservice]
                  wallet_mem := hw, funds := hfunds, unlock := hunlock
                  unreserved := hres, unrecorded := hkey
                  palm := fun h => by simp [hpalm] at h
                  tarot := fun _ => ⟨spreadId, spread, deck, choices, hspr.trans hspreadId,
                    by rw [hm₂.tarotSpreads, hspread], hchoices, hdraw⟩ }
    · exact fun _ _ => trivial
  · exact fun _ _ => trivial

theorem safe_submit {userId readingId : Id} :
    (submit userId readingId).Safe (discipline S) S.answers
      (.submit userId readingId) (fun _ _ => True) D := by
  unfold submit
  apply Proc.Safe.bind
  apply safe_findOwnedDraft
  · intros; trivial
  intro r D₀ D₁ hD₀ _ hr howner
  apply Proc.Safe.bind
  apply safe_findService
  · intros; trivial
  intro service D₂ hD₂ hservice
  cases hpalm : isPalmService service.code with
  | true =>
      simp only [hpalm, if_true]
      exact safe_submitPalmReading (hD₀.trans hD₂) hr howner hservice hpalm
  | false =>
      simp only [hpalm, Bool.false_eq_true, if_false]
      exact safe_submitTarotReading (hD₀.trans hD₂) hr howner hservice hpalm

theorem safe_create {userId : Id} {serviceCode : String} :
    (create userId serviceCode).Safe (discipline S) S.answers
      (.createReading userId serviceCode) (fun _ _ => True) D := by
  unfold create
  apply Proc.Safe.bind
  apply safe_read
  · intros; trivial
  intro _ D₁ _ _
  simp only
  split
  · apply Proc.Safe.bind
    apply safe_read
    · intros; trivial
    intro _ D₂ _ _
    apply Proc.Safe.bind
    apply safe_call
    · intros; trivial
    intro readingId _ D₃ _
    apply safe_commit
    · intros; trivial
    intro D₄ _
    apply Db.reading.wp_create
    intro hfresh _
    exact .createReading hfresh rfl rfl
  · exact fun _ _ => trivial

/-- Writing a status other than `DRAFT`. -/
theorem safe_writeStatus {readingId : Id} (f : Reading → Reading) {P : Except Err Unit → Db → Prop}
    (hc : c.processes = some readingId) (hsame : ∀ r : Reading, r.Continues (f r))
    (hstatus : ∀ r, (f r).status ≠ .DRAFT) (hP : ∀ r D', P r D') :
    (Proc.transaction (do let _ ← Db.reading.update readingId f : TxM Unit)).Safe (discipline S)
      S.answers c P D := by
  apply safe_commit fun r D' _ => hP r D'
  intro D' _
  apply Tx.wp_bind
  apply Db.reading.wp_update
  intro r hr _
  exact .setReading hc hr (hsame r) (hstatus r)

theorem safe_setStatus {readingId : Id} {status : ReadingStatus} {P : Except Err Unit → Db → Prop}
    (hc : c.processes = some readingId) (hstatus : status ≠ .DRAFT) (hP : ∀ r D', P r D') :
    (Proc.transaction (setStatus readingId status)).Safe (discipline S) S.answers c P D :=
  safe_writeStatus (fun r => { r with status := status }) hc (fun _ => ⟨rfl, rfl, rfl⟩)
    (fun _ => hstatus) hP

theorem safe_performRetry {readingId : Id} {r : Reading} {service : Service}
    {P : Except Err Unit → Db → Prop}
    (hc : c.processes = some readingId) (hq : c.enqueues = some readingId)
    (hP : ∀ r D', P r D') :
    (performRetry readingId r service).Safe (discipline S) S.answers c P D := by
  have enqueue : ∀ jobId job D', (Proc.transaction (addJob jobId job) : Request Unit).Safe
      (discipline S) S.answers c P D' := by
    intro jobId job D'
    apply safe_commit fun r D'' _ => hP r D''
    intro D'' _
    apply wp_addJob
    intro job' _
    exact .enqueue hq
  unfold performRetry
  by_cases hfailed : r.status = .FAILED
  · simp only [hfailed, ne_eq, not_true_eq_false, if_false]
    apply Proc.Safe.bind
    apply safe_setStatus hc (by simp)
    rintro (e | _) D₁
    · exact hP _ D₁
    · apply Proc.Safe.bind
      apply safe_call
      · intro e D₂ _
        exact hP _ D₂
      · intro uuid _ D₂ _
        simp only
        split <;> exact enqueue _ _ _
  · simp only [hfailed, ne_eq, not_false_eq_true, if_true]
    exact fun D' _ => hP _ D'

/-- The two lookups of a reading with its service write nothing. -/
theorem safe_withService {reading : Db → Option Reading}
    {P : Except Err (Option (Reading × Service)) → Db → Prop} (hP : ∀ r D', P r D') :
    (Proc.transaction (withService (Tx.select reading))).Safe (discipline S) S.answers c P D := by
  apply safe_commit fun r D' _ => hP r D'
  intro D' _
  apply Tx.wp_bind
  apply Tx.wp_select
  intro D₀ _
  cases reading (view [] D₀) with
  | none => exact fun h => absurd rfl h
  | some r =>
      apply Tx.wp_bind
      apply Tx.wp_selectOrThrow
      exact fun _ _ _ _ h => absurd rfl h

theorem safe_retry {userId readingId : Id} :
    (retry userId readingId).Safe (discipline S) S.answers (.retry userId readingId)
      (fun _ _ => True) D := by
  unfold retry
  apply Proc.Safe.bind
  apply safe_withService
  rintro (e | _ | ⟨r, service⟩) D₁
  · trivial
  · exact fun _ _ => trivial
  · apply Proc.Safe.bind
    apply safe_performRetry rfl rfl
    rintro (e | _) D₂
    · trivial
    · exact safe_findOneForUser fun _ _ _ => trivial

theorem safe_retryAsAdmin {readingId : Id} :
    (retryAsAdmin readingId).Safe (discipline S) S.answers (.retryAsAdmin readingId)
      (fun _ _ => True) D := by
  unfold retryAsAdmin
  apply Proc.Safe.bind
  apply safe_withService
  rintro (e | _ | ⟨r, service⟩) D₁
  · trivial
  · exact fun _ _ => trivial
  · apply Proc.Safe.bind
    apply safe_performRetry rfl rfl
    rintro (e | _) D₂
    · trivial
    · exact safe_findOneForUser fun _ _ _ => trivial

end ReadingsService

namespace ReadingProcessing
variable {Body : Type} {S : Deployment Body} {c : Call Body} {D : Db} {readingId : Id}

theorem safe_confirmConsumption {P : Except Err Unit → Db → Prop}
    (hc : c.processes = some readingId) (hP : ∀ r D', P r D') :
    (Proc.transaction (WalletService.confirmConsumption readingId)).Safe (discipline S) S.answers
      c P D := by
  apply safe_commit fun r D' _ => hP r D'
  intro D' _
  apply WalletService.wp_confirmConsumption
  · exact fun h => absurd rfl h
  · intro res D₀ seen hD₀ hseen hres hactive hk _
    obtain ⟨w, hw, -⟩ := hD₀.mono.wallets _ seen hseen
    exact .confirm hc hres hactive hw hk

theorem safe_releaseReservation {P : Except Err Unit → Db → Prop}
    (hc : c.processes = some readingId) (hP : ∀ r D', P r D') :
    (Proc.transaction (WalletService.releaseReservation readingId)).Safe (discipline S) S.answers
      c P D := by
  apply safe_commit fun r D' _ => hP r D'
  intro D' _
  apply WalletService.wp_releaseReservation
  · exact fun h => absurd rfl h
  · intro res w hres hactive hw hk hfits _
    exact .release hc hres hactive hw hk hfits

theorem safe_interpret {input : AIOrchestratorExecuteInput} (hc : c.processes = some readingId) :
    (interpret readingId input).Safe (discipline S) S.answers c (fun _ _ => True) D := by
  unfold interpret closeReading writeResult
  apply Proc.Safe.bind
  apply safe_call
  · intros; trivial
  intro result _ D₁ _
  have write : ∀ D', (Proc.transaction (do
      let _ ← Db.reading.update readingId fun r =>
        { r with status := toReadingStatus result.status, promptVersionId := input.promptVersionId }
      : TxM Unit)).Safe (discipline S) S.answers c (fun _ _ => True) D' :=
    fun D' => ReadingsService.safe_writeStatus _ hc (fun _ => ⟨rfl, rfl, rfl⟩)
      (by cases result.status <;> simp [toReadingStatus]) fun _ _ => trivial
  simp only
  split
  · apply Proc.Safe.bind
    apply safe_confirmConsumption hc
    rintro (e | _) D₂
    · trivial
    · exact write D₂
  · apply Proc.Safe.bind
    apply safe_releaseReservation hc
    rintro (e | _) D₂
    · trivial
    · exact write D₂

theorem safe_processTarotReading (hc : c.processes = some readingId) :
    (processTarotReading readingId).Safe (discipline S) S.answers c (fun _ _ => True) D := by
  unfold processTarotReading
  apply Proc.Safe.bind
  apply safe_read
  · intros; trivial
  intro D₀ D₁ _ _
  cases findTarotReading readingId D₀ with
  | none => exact fun _ _ => trivial
  | some row =>
      simp only
      split
      · exact fun _ _ => trivial
      apply Proc.Safe.bind
      apply ReadingsService.safe_setStatus hc (by simp)
      rintro (e | _) D₂
      · trivial
      apply Proc.Safe.bind
      apply safe_call
      · intros; trivial
      intro version _ D₃ _
      apply Proc.Safe.bind
      apply safe_ofExcept
      intro D₄ _
      cases version with
      | error e => trivial
      | ok promptVersionId => exact safe_interpret hc

theorem safe_downloadImages {images : List PalmImage}
    {P : Except Err (List AIProviderImage) → Db → Prop} (hP : ∀ r D', P r D') :
    (downloadImages images).Safe (discipline S) S.answers c P D := by
  induction images generalizing D P with
  | nil => exact fun D' _ => hP _ D'
  | cons image images ih =>
      unfold downloadImages
      apply Proc.Safe.bind
      apply safe_call
      · intro e D' _
        exact hP _ D'
      intro bytes _ D₁ _
      apply Proc.Safe.bind
      apply ih
      rintro (e | rest) D₂
      · exact hP _ D₂
      · exact fun D' _ => hP _ D'

theorem safe_processPalmReading (hc : c.processes = some readingId) :
    (processPalmReading readingId).Safe (discipline S) S.answers c (fun _ _ => True) D := by
  unfold processPalmReading
  apply Proc.Safe.bind
  apply safe_read
  · intros; trivial
  intro D₀ D₁ _ _
  cases Db.reading.find D₀ readingId with
  | none => exact fun _ _ => trivial
  | some r =>
      simp only [Option.map_some]
      split
      · exact fun _ _ => trivial
      apply Proc.Safe.bind
      apply ReadingsService.safe_setStatus hc (by simp)
      rintro (e | _) D₂
      · trivial
      apply Proc.Safe.bind
      apply safe_call
      · intros; trivial
      intro version _ D₃ _
      apply Proc.Safe.bind
      apply safe_ofExcept
      intro D₄ _
      cases version with
      | error e => trivial
      | ok promptVersionId =>
          apply Proc.Safe.bind
          apply safe_downloadImages
          rintro (e | images) D₅
          · trivial
          · exact safe_interpret hc

theorem safe_process {job : ReadingJob} :
    (process job).Safe (discipline S) S.answers (.process job) (fun _ _ => True) D := by
  unfold process
  split
  · exact safe_processTarotReading rfl
  · exact safe_processPalmReading rfl

theorem safe_onFailed {attemptsMade : Nat} :
    (onFailed readingId attemptsMade).Safe (discipline S) S.answers
      (.onFailed readingId attemptsMade) (fun _ _ => True) D := by
  unfold onFailed
  by_cases hlast : attemptsMade < MAX_ATTEMPTS
  · simp only [hlast, if_true]
    exact fun _ _ => trivial
  · simp only [hlast, if_false]
    apply Proc.Safe.bind
    apply safe_releaseReservation rfl
    rintro (e | _) D₁
    · trivial
    apply safe_commit
    · intros; trivial
    intro D₂ _
    apply Tx.wp_bind
    apply Db.reading.wp_updateMany
    · exact fun _ _ _ h => absurd rfl h
    · intro r hr _ _
      exact .setReading rfl hr ⟨rfl, rfl, rfl⟩ (by simp)

end ReadingProcessing

end TaroTria
