import Mathlib.Logic.Relation
import TaroTria.Auth.AccountChanges
import TaroTria.Auth.Registration
import TaroTria.Readings.ReadingWrites
import TaroTria.Wallet.LedgerBalance

/-!
# Accounts in use

What the requests after a registration keep of an account: its role, and a wallet that the
ledger explains. So every active account has both between requests, if every registration
that made an account was completed.
-/

namespace TaroTria

open Transactions

/-- An active user has its role and its wallet, which the ledger explains. The table of
wallets is keyed by user, so there is no second one. -/
structure Equipped (D : Db) (id : Id) (user : User) : Prop where
  role : "USER" ∈ user.roles
  wallet : ∃ w, D.wallets.lookup id = some w ∧ w.balance = ledgerSum D id

def ActiveEquipped (D : Db) : Prop :=
  ∀ id user, D.users.lookup id = some user → user.status = .ACTIVE → Equipped D id user

namespace UsersService

def updateProfile (userId : Id) (name : Option String) : Request User :=
  Proc.transaction <| Db.user.update userId fun user => { user with name := name.getD user.name }

/-- The batch of `softDeleteAndRevokeSessions`. -/
def softDeleteTx (userId : Id) (revokedAt : Time) : TxM Unit := do
  let _ ← Db.user.update userId fun user => { user with status := .DELETED }
  AuthService.revokeSessions userId revokedAt

def softDeleteAndRevokeSessions (userId : Id) : Request Unit := do
  let revokedAt ← Proc.call .now
  Proc.transaction (softDeleteTx userId revokedAt)

end UsersService

/-- The tables of accounts and money are the same, but for users, who keep their roles and
become active no more. -/
structure AccountsRetained (D D' : Db) : Prop where
  users : ∀ id user', D'.users.lookup id = some user' → user'.status = .ACTIVE →
    ∃ user, D.users.lookup id = some user ∧ user.status = .ACTIVE ∧ user'.roles = user.roles
  wallets : D'.wallets = D.wallets
  walletTransactions : D'.walletTransactions = D.walletTransactions
  payments : D'.payments = D.payments
  orders : D'.orders = D.orders

/-- The rows on which the accounts rest. -/
structure AccountsKept (D : Db) : Prop where
  belong : PaymentsBelong D
  reconciled : D.Reconciled
  users : ∀ id user, D.users.lookup id = some user → user.status = .ACTIVE →
    "USER" ∈ user.roles ∧ ∃ w, D.wallets.lookup id = some w

theorem AccountsKept.activeEquipped {D : Db} (h : AccountsKept D) : ActiveEquipped D := by
  intro id user hlookup hactive
  obtain ⟨hrole, w, hw⟩ := h.users id user hlookup hactive
  exact ⟨hrole, w, hw, h.reconciled.exact id w hw⟩

theorem AccountsKept.retains {D D' : Db} (h : AccountsKept D) (hr : AccountsRetained D D') :
    AccountsKept D' where
  belong := by
    unfold PaymentsBelong
    rw [hr.payments, hr.orders]
    exact h.belong
  reconciled := by
    unfold Db.Reconciled
    rw [hr.wallets, hr.walletTransactions]
    exact h.reconciled
  users := by
    intro id user' hlookup hactive
    obtain ⟨user, hbefore, hactive', hroles⟩ := hr.users id user' hlookup hactive
    rw [hroles, hr.wallets]
    exact h.users id user hbefore hactive'

section Writes

variable {D : Db} {L : List RowWrite}

/-- Writes to other tables. -/
theorem AccountsRetained.of_eq {D' : Db} (hu : D'.users = D.users) (hw : D'.wallets = D.wallets)
    (ht : D'.walletTransactions = D.walletTransactions) (hp : D'.payments = D.payments)
    (ho : D'.orders = D.orders) : AccountsRetained D D' :=
  ⟨fun _ user hlookup hactive => ⟨user, hu ▸ hlookup, hactive, rfl⟩, hw, ht, hp, ho⟩

theorem AccountsRetained.refl (D : Db) : AccountsRetained D D := .of_eq rfl rfl rfl rfl rfl

theorem AccountsRetained.trans {D₁ D₂ D₃ : Db} (h : AccountsRetained D₁ D₂)
    (h' : AccountsRetained D₂ D₃) : AccountsRetained D₁ D₃ where
  users := by
    intro id user'' hlookup hactive
    obtain ⟨user', hlookup', hactive', hroles⟩ := h'.users id user'' hlookup hactive
    obtain ⟨user, hlookup'', hactive'', hroles'⟩ := h.users id user' hlookup' hactive'
    exact ⟨user, hlookup'', hactive'', hroles.trans hroles'⟩
  wallets := h'.wallets.trans h.wallets
  walletTransactions := h'.walletTransactions.trans h.walletTransactions
  payments := h'.payments.trans h.payments
  orders := h'.orders.trans h.orders

/-- A user that changes in other fields, or is deleted. -/
theorem AccountsRetained.user {id : Id} {user user' : User}
    (hlookup : D.users.lookup id = some user) (hroles : user'.roles = user.roles)
    (hstatus : user'.status = .ACTIVE → user.status = .ACTIVE) :
    AccountsRetained D (view [.user id (some user')] D) where
  users := by
    intro id' row hrow hactive
    by_cases hid : id' = id
    · subst hid
      have hsame : row = user' := by simpa using hrow.symm
      subst hsame
      exact ⟨user, hlookup, hstatus hactive, hroles⟩
    · have hother := Table.lookup_write_of_ne D.users (some user') hid
      have hbefore : D.users.lookup id' = some row := by
        rw [← hother]
        simpa using hrow
      exact ⟨row, hbefore, hactive, rfl⟩
  wallets := rfl
  walletTransactions := rfl
  payments := rfl
  orders := rfl

theorem retained_revocation (userId : Id) (revokedAt : Time) (D' : Db) :
    AccountsRetained D (view (AuthService.revocationWrites userId revokedAt D') D) := by
  refine view_invariant (I := AccountsRetained D) _ (.refl D) fun w hw E hE => ?_
  obtain ⟨e, -, rfl⟩ := List.mem_map.mp hw
  exact hE.trans (.of_eq rfl rfl rfl rfl rfl)

theorem AccountChanges.retained (h : AccountChanges D L) : AccountsRetained D (view L D) := by
  induction h with
  | nothing => exact .refl _
  | openSession hfresh => exact .of_eq rfl rfl rfl rfl rfl
  | session hlookup howner => exact .of_eq rfl rfl rfl rfl rfl
  | revocation => exact retained_revocation _ _ _
  | sendLink hfresh => exact .of_eq rfl rfl rfl rfl rfl
  | link hlookup howner => exact .of_eq rfl rfl rfl rfl rfl
  | user hlookup hemail hroles hstatus =>
      refine .user hlookup hroles fun hactive => ?_
      rcases hstatus with hsame | hdeleted
      · exact hsame.symm.trans hactive
      · cases hdeleted.symm.trans hactive
  | logEvent => exact .of_eq rfl rfl rfl rfl rfl
  | append _ _ ih ih' =>
      rw [view_append]
      exact ih.trans ih'

end Writes

/-! ## The account requests -/

/-- The transactions of a request keep the accounts. -/
abbrev Retaining {α : Type} (p : Request α) : Prop :=
  p.Every fun D L => AccountsRetained D (view L D)

theorem Retaining.of_changes {α : Type} {p : Request α} (h : p.Every AccountChanges) :
    Retaining p :=
  h.mono fun _ _ => AccountChanges.retained

theorem AuthService.changes_announce {C : AccountConfig} (id : Id) (user : User)
    (tokens : AuthTokens) (referralToken : Option String) :
    (announce C id user tokens referralToken).Every AccountChanges := by
  have hemail := Proc.Every.handle (changes_sendVerificationEmail (C := C) id user)
    (f := fun _ => pure ()) fun _ => trivial
  have hsignup := Proc.Every.handle (SharingService.changes_logSignupConversion id referralToken)
    (f := fun _ => pure ()) fun _ => trivial
  exact hemail.bind fun _ => hsignup.bind fun _ => trivial

namespace UsersService

theorem changes_updateProfile (userId : Id) (name : Option String) :
    (updateProfile userId name).Every AccountChanges := by
  refine Proc.every_transaction fun D => ?_
  apply Db.user.wp_update
  intro user hlookup
  exact .user hlookup rfl rfl (.inl rfl)

theorem changes_softDelete (userId : Id) :
    (softDeleteAndRevokeSessions userId).Every AccountChanges := by
  apply (Proc.every_call _).bind
  intro revokedAt
  refine Proc.every_transaction fun D => ?_
  apply Tx.wp_bind
  apply Db.user.wp_update
  intro user hlookup
  apply AuthService.wp_revokeSessions
  have hdeleted : AccountChanges D [.user userId (some { user with status := .DELETED })] :=
    .user hlookup rfl rfl (.inr rfl)
  exact hdeleted.append .revocation

end UsersService

/-- The requests on accounts that exist. -/
inductive AccountCall
  | session (c : AuthCall)
  | verifyEmail (rawToken : String)
  | forgotPassword (email : String)
  | updateProfile (userId : Id) (name : Option String)
  | softDeleteAndRevokeSessions (userId : Id)

/-- The request of a call; what it returns to its caller is dropped. -/
def AccountCall.prog (C : AccountConfig) : AccountCall → Request Unit
  | session c => c.prog C.toAuthConfig
  | verifyEmail rawToken => do
      let _ ← AuthService.verifyEmail C rawToken
  | forgotPassword email => AuthService.forgotPassword C email
  | updateProfile userId name => do
      let _ ← UsersService.updateProfile userId name
  | softDeleteAndRevokeSessions userId => UsersService.softDeleteAndRevokeSessions userId

theorem AccountCall.changes (C : AccountConfig) (c : AccountCall) :
    (c.prog C).Every AccountChanges := by
  cases c with
  | session c =>
      cases c with
      | login email password =>
          exact (AuthService.changes_login email password).bind fun _ => trivial
      | refresh token => exact (AuthService.changes_refresh token).bind fun _ => trivial
      | logout token => exact AuthService.changes_logout token
      | resetPassword token password => exact AuthService.changes_resetPassword token password
      | changePassword userId current password =>
          exact AuthService.changes_changePassword userId current password
  | verifyEmail token => exact (AuthService.changes_verifyEmail token).bind fun _ => trivial
  | forgotPassword email => exact AuthService.changes_forgotPassword email
  | updateProfile userId name =>
      exact (UsersService.changes_updateProfile userId name).bind fun _ => trivial
  | softDeleteAndRevokeSessions userId => exact UsersService.changes_softDelete userId

/-! ## The calls of the backend -/

section Backend

variable {Body : Type} {S : Deployment Body}

theorem Effect.users {c : Call Body} {D : Db} {L : List RowWrite} (h : Effect S c D L) :
    (view L D).users = D.users := by
  cases h with
  | createWallet hw hk =>
      unfold WalletService.bonusWrites
      split <;> rfl
  | submit s =>
      rw [s.view_writes]
  | completeSession s hc => rw [s.view_writes]
  | close s hc hstatus hrejected => split <;> rfl
  | _ => rfl

/-- A call of the backend keeps the accounts. -/
theorem AccountsKept.call {c : Call Body} {D : Db} (h : AccountsKept D) (hc : c.removes = none)
    (env : Proc.Surroundings Answer) (henv : ∀ n q, S.answers q (env.answer n q)) :
    AccountsKept ((c.prog S).exec env 0 D).1 := by
  obtain ⟨hist, path⟩ := (prog_safe S c hc D).exec_path h.belong env henv 0
  have hmono : Mono D ((c.prog S).exec env 0 D).1 := (discipline S).path_mono path
  have husers := path.invariant (fun E => E.users = D.users) rfl
    fun _ E L hE he => he.2.users.trans hE
  have hreconciled := path.invariant Db.Reconciled h.reconciled
    fun _ E L hE he => he.2.reconciled hE
  refine ⟨hmono.belong h.belong, hreconciled, fun id user hlookup hactive => ?_⟩
  rw [husers] at hlookup
  obtain ⟨hrole, w, hw⟩ := h.users id user hlookup hactive
  obtain ⟨w', hw', -⟩ := hmono.wallets id w hw
  exact ⟨hrole, w', hw'⟩

/-- A removal takes the rows of a reading, and its ledger entries lose their reading. -/
theorem AccountsKept.deletion {D : Db} (h : AccountsKept D) (readingId : Id) :
    AccountsKept (view (ReadingsService.deletionWrites readingId D) D) := by
  let kept (E : Db) : Prop := E.users = D.users ∧ E.wallets = D.wallets ∧
    E.payments = D.payments ∧ E.orders = D.orders ∧
    ∀ key, (E.walletTransactions.lookup key).map (fun row => (row.walletId, row.amount)) =
      (D.walletTransactions.lookup key).map fun row => (row.walletId, row.amount)
  have hkept : kept (view (ReadingsService.deletionWrites readingId D) D) := by
    refine view_invariant _ ⟨rfl, rfl, rfl, rfl, fun _ => rfl⟩ fun w hw E hE => ?_
    obtain ⟨hu, hwallets, hp, ho, hledger⟩ := hE
    simp only [ReadingsService.deletionWrites, List.mem_append, List.mem_map] at hw
    obtain ((hw | ⟨_, -, rfl⟩) | ⟨_, -, rfl⟩) | ⟨e, he, rfl⟩ := hw
    · simp only [List.mem_cons, List.not_mem_nil, or_false] at hw
      obtain rfl | rfl | rfl := hw <;> exact ⟨hu, hwallets, hp, ho, hledger⟩
    · exact ⟨hu, hwallets, hp, ho, hledger⟩
    · exact ⟨hu, hwallets, hp, ho, hledger⟩
    · refine ⟨hu, hwallets, hp, ho, fun key => ?_⟩
      have hrow := ((Table.mem_findMany _ _ _ _).mp he).1
      change ((E.walletTransactions.write e.1 _).lookup key).map _ = _
      rw [Table.lookup_write]
      split
      · rename_i hkey
        rw [hkey, hrow]
        rfl
      · exact hledger key
  obtain ⟨hu, hw, hp, ho, hledger⟩ := hkept
  refine ⟨?_, ?_, ?_⟩
  · unfold PaymentsBelong
    rw [hp, ho]
    exact h.belong
  · unfold Db.Reconciled
    rw [hw]
    exact h.reconciled.congr hledger
  · rw [hu, hw]
    exact h.users

theorem AccountsKept.remove {D : Db} (h : AccountsKept D) (userId readingId : Id)
    (env : Proc.Surroundings Answer) (n : Nat) :
    AccountsKept ((ReadingsService.remove userId readingId).exec env n D).1 := by
  have every : (ReadingsService.remove userId readingId).Every fun D L =>
      AccountsKept D → AccountsKept (view L D) := by
    unfold ReadingsService.remove ReadingsService.findOwnedDraft
    rw [bind_assoc]
    apply (Proc.every_select (fun _ => id) _).bind
    rintro (_ | r)
    · trivial
    simp only
    split
    · trivial
    apply (Proc.every_select (fun _ => id) _).bind
    intro images
    apply (ReadingsService.every_deleteObjects _).bind
    intro _
    exact ReadingsService.every_deletion fun D _ _ hD => hD.deletion readingId
  exact every.exec (fun _ => id) (fun _ _ hK hI => hK hI) env n h

end Backend

/-- A request whose transactions keep the accounts. -/
theorem AccountsKept.request {α : Type} {p : Request α} {D : Db} (h : AccountsKept D)
    (hp : Retaining p) (env : Proc.Surroundings Answer) (n : Nat) :
    AccountsKept (p.exec env n D).1 :=
  hp.exec AccountsRetained.refl (fun _ _ hK hI => hI.retains hK) env n h

section Registration

open AuthService

variable {C : AccountConfig} {email : String} {env : Proc.Surroundings Answer} {D : Db}

variable (C env D) in
theorem view_account (id : Id) (user : User) :
    (view (.user id (some user) :: accountWrites C id user env) D).users =
        (D.users.write id (some user)).write id (some (UsersService.addRole "USER" user)) ∧
      (view (.user id (some user) :: accountWrites C id user env) D).wallets =
        D.wallets.write id (some ⟨C.bonusCredits⟩) ∧
      (view (.user id (some user) :: accountWrites C id user env) D).payments = D.payments ∧
      (view (.user id (some user) :: accountWrites C id user env) D).orders = D.orders := by
  unfold accountWrites WalletService.bonusWrites
  split <;> exact ⟨rfl, rfl, rfl, rfl⟩

/-- The wallet of a new account holds its bonus, which the ledger records. -/
theorem reconciled_account {id : Id} (user : User) (h : D.Reconciled)
    (hw : D.wallets.lookup id = none)
    (hbonus : 0 < C.bonusCredits → D.walletTransactions.lookup (.bonus id) = none) :
    (view (.user id (some user) :: accountWrites C id user env) D).Reconciled := by
  unfold accountWrites WalletService.bonusWrites
  split
  · rename_i hb
    exact h.openWith ⟨id, .BONUS, C.bonusCredits, C.bonusCredits, none, none⟩ ⟨C.bonusCredits⟩ hw
      (hbonus hb) rfl (Int.natCast_nonneg _)
  · rename_i hb
    exact h.openAccount hw (by simpa using hb)

variable (env) in
/-- The rows of a whole registration are those of an account. -/
theorem AccountsKept.account (h : AccountsKept D) {id : Id} (user : User)
    (hroles : user.roles = []) (hw : D.wallets.lookup id = none)
    (hbonus : 0 < C.bonusCredits → D.walletTransactions.lookup (.bonus id) = none) :
    AccountsKept (view (.user id (some user) :: accountWrites C id user env) D) := by
  obtain ⟨husers, hwallets, hpayments, horders⟩ := view_account C env D id user
  refine ⟨?_, reconciled_account user h.reconciled hw hbonus, fun id' row hrow hactive => ?_⟩
  · unfold PaymentsBelong
    rw [hpayments, horders]
    exact h.belong
  · rw [husers] at hrow
    rw [hwallets]
    by_cases hid : id' = id
    · subst hid
      simp only [Table.lookup_write_self, Option.some.injEq] at hrow
      subst hrow
      exact ⟨by simp [UsersService.addRole, hroles], ⟨C.bonusCredits⟩, by simp⟩
    · simp only [Table.lookup_write_of_ne _ _ hid] at hrow ⊢
      exact h.users id' row hrow hactive

/-- A registration that fails before its user is there, or is made completely. -/
theorem AccountsKept.register (h : AccountsKept D) (name password : String)
    (referralToken : Option String) (hwhole : Creates C email env D → Succeeds C env D) :
    AccountsKept ((register C name email password referralToken).exec env 0 D).1 := by
  by_cases hcreates : Creates C email env D
  · rcases hcreates.exec_register name password referralToken with
      ⟨hnot, -⟩ | ⟨hs, tokens, hexec⟩
    · exact absurd (hwhole hcreates) hnot
    · rw [hexec]
      have haccount := h.account env (newUser C name email password env) rfl hs.wallet
        hs.bonus
      exact haccount.request (.of_changes (changes_announce _ _ _ _)) env 14
  · obtain ⟨e, hexec⟩ := exec_register_uncreated name password referralToken hcreates
    rw [hexec]
    exact h

end Registration

/-! ## Every state between requests -/

section Requests

open AuthService

variable {Body : Type} (C : AccountConfig) (S : Deployment Body)

/-- A request is served, whatever becomes of its steps. A registration whose user is
committed comes to its end. -/
inductive AccountStep : Db → Db → Prop
  | register (name email password : String) (referralToken : Option String)
      (env : Proc.Surroundings Answer) (D : Db)
      (hwhole : Creates C email env D → Succeeds C env D) :
      AccountStep D ((AuthService.register C name email password referralToken).exec env 0 D).1
  | account (c : AccountCall) (env : Proc.Surroundings Answer) (D : Db) :
      AccountStep D ((c.prog C).exec env 0 D).1
  | call (c : Call Body) (env : Proc.Surroundings Answer)
      (henv : ∀ n q, S.answers q (env.answer n q)) (D : Db) :
      AccountStep D ((c.prog S).exec env 0 D).1
  | other {α : Type} (p : Request α) (hp : Retaining p) (env : Proc.Surroundings Answer) (D : Db) :
      AccountStep D (p.exec env 0 D).1

variable {C S}

theorem AccountsKept.step {D D' : Db} (h : AccountsKept D) (hstep : AccountStep C S D D') :
    AccountsKept D' := by
  cases hstep with
  | register name email password referralToken env D hwhole =>
      exact h.register name password referralToken hwhole
  | account c env D => exact h.request (.of_changes (c.changes C)) env 0
  | call c env henv D =>
      cases hc : c.removes with
      | none => exact h.call hc env henv
      | some readingId =>
          cases c with
          | remove userId readingId => exact h.remove userId readingId env 0
          | _ => cases hc
  | other p hp env D => exact h.request hp env 0

theorem AccountsKept.run {D D' : Db} (h : AccountsKept D)
    (run : Relation.ReflTransGen (AccountStep C S) D D') : AccountsKept D' := by
  induction run with
  | refl => exact h
  | tail _ hstep ih => exact ih.step hstep

variable (C S)

/-- A registration that throws leaves no user of its own exactly if its user is not
committed or every later step up to its session succeeds. When this is so of every
registration, each active user has its role and one reconciled wallet between requests. -/
theorem registration_whole_iff :
    (∀ name email password referralToken (env : Proc.Surroundings Answer) (D : Db),
      (∀ n, env.fate n ≠ none) → (LeavesNothing C name email password referralToken env D ↔
        (Creates C email env D → Succeeds C env D))) ∧
    ∀ D₀ D', AccountsKept D₀ → Relation.ReflTransGen (AccountStep C S) D₀ D' →
      ActiveEquipped D' := by
  refine ⟨fun name email password referralToken env D halive => ⟨fun h hcreates => ?_, fun h => ?_⟩,
    fun D₀ D' h run => (h.run run).activeEquipped⟩
  · exact succeeds_of_leavesNothing h hcreates
  · exact leavesNothing_of_succeeds halive h

/-- Surroundings for concrete runs, in which one call fails. -/
def registrationWorld (failing : Nat) : Proc.Surroundings Answer where
  fate n := some (if n = failing then .failed else .done)
  answer _ q := sampleAnswer .COMPLETED q

/-- A registration at an empty database, where one call fails. -/
def registeredWith (failing : Nat) : Db × Except Err AuthResult :=
  (register sampleAccounts "Ana" "ana@example.com" "secret" none).exec
    (registrationWorld failing) 0 Db.empty

theorem registration_whole_iff_ana :
    LeavesNothing sampleAccounts "Ana" "ana@example.com" "secret" none (registrationWorld 20)
      Db.empty ∧ ActiveEquipped (registeredWith 20).1 := by
  have hwhole : Creates sampleAccounts "ana@example.com" (registrationWorld 20) Db.empty →
      Succeeds sampleAccounts (registrationWorld 20) Db.empty := by
    intro _
    refine ⟨⟨fun n _ hn => ?_, ⟨_, rfl⟩, rfl, fun _ => rfl, rfl⟩, rfl⟩
    have hne : n ≠ 20 := by omega
    simp [registrationWorld, hne]
  have hempty : AccountsKept Db.empty :=
    ⟨.of_empty rfl, Ledger.reconciled_empty, fun _ _ hlookup => by cases hlookup⟩
  have hall := registration_whole_iff sampleAccounts sampleDeployment
  exact ⟨(hall.1 _ _ _ _ _ _ fun n hn => by cases hn).mpr hwhole,
    hall.2 _ _ hempty (.single (.register _ _ _ _ _ _ hwhole))⟩

/-- The assignment of the role fails: the user stays, active and without a role, and its
address is refused. -/
theorem unassigned_role_leaves_user :
    ¬ LeavesNothing sampleAccounts "Ana" "ana@example.com" "secret" none (registrationWorld 6)
        Db.empty ∧
      ¬ ActiveEquipped (registeredWith 6).1 ∧
      ((register sampleAccounts "Ana" "ana@example.com" "secret" none).exec
        (registrationWorld 20) 0 (registeredWith 6).1).2 = .error emailTaken := by
  have hcommitted : registeredWith 6 =
      (view [.user "u1" (some ⟨"ana@example.com", "Ana", "", .ACTIVE, none, 0, []⟩)] Db.empty,
        .error .fault) := rfl
  refine ⟨fun h => ?_, fun h => ?_, ?_⟩
  · have hbefore := h .fault rfl "u1" ⟨"ana@example.com", "Ana", "", .ACTIVE, none, 0, []⟩ rfl rfl
    cases hbefore
  · obtain ⟨hrole, -⟩ := h "u1" ⟨"ana@example.com", "Ana", "", .ACTIVE, none, 0, []⟩ rfl rfl
    cases hrole
  · rw [hcommitted]
    rfl

end Requests

end TaroTria
