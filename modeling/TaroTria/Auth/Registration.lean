import TaroTria.Auth.AccountService
import TaroTria.Transactions.Alone
import TaroTria.Wallet.WalletService

/-!
# All or nothing in a registration

A registration commits its user first and gives it a role, a wallet and a session in
transactions of their own. So it leaves nothing behind when it fails before the user
is there, and a whole account when every later step succeeds; when one of those steps
fails, the user stays and its address cannot be registered again.
-/

namespace TaroTria

open Transactions

namespace AuthService

variable (C : AccountConfig) (name email password : String) (referralToken : Option String)
variable (env : Proc.Surroundings Answer) (D : Db)

/-- The id that is drawn for the new user. -/
def newId : Id := env.answer 2 .randomUUID

/-- The row of a new user. -/
def createdUser (passwordHash : String) (createdAt : Time) : User where
  email := C.normalizeEmail email
  name := name
  passwordHash := passwordHash
  status := .ACTIVE
  emailVerifiedAt := none
  createdAt := createdAt
  roles := []

def newUser : User :=
  createdUser C name email (env.answer 1 (.hashPassword password)) (env.answer 3 .now)

/-- The user is committed: the calls before its transaction answer, the address and the id
are free, and the transaction is made, whether or not its answer arrives. -/
structure Creates : Prop where
  calls : ∀ n < 4, env.fate n = some .done
  untaken : ∀ id user, D.users.lookup id = some user → user.email ≠ C.normalizeEmail email
  fresh : D.users.lookup (newId env) = none
  commits : Commits (env.fate 4)

/-- The calls after the transaction of the user and up to that of its session all answer,
the role is found, and the wallet, its bonus and the session are new. -/
structure Provisions (id : Id) : Prop where
  calls : ∀ n, 4 < n → n < 14 → env.fate n = some .done
  role : ∃ roleId, env.answer 5 (.roleId "USER") = .ok roleId
  wallet : D.wallets.lookup id = none
  bonus : 0 < C.bonusCredits → D.walletTransactions.lookup (.bonus id) = none
  session : D.refreshTokens.lookup
    (C.hashToken (env.answer 11 (.signRefreshToken id (env.answer 10 .randomUUID)))) = none

/-- Every step from the transaction of the user to that of its session succeeds. -/
structure Succeeds : Prop extends Provisions C env D (newId env) where
  answered : env.fate 4 = some .done

/-- A registration that throws leaves no user with its address that was not there before. -/
def LeavesNothing : Prop :=
  ∀ e, ((register C name email password referralToken).exec env 0 D).2 = .error e →
    ∀ id user, ((register C name email password referralToken).exec env 0 D).1.users.lookup id =
      some user → user.email = C.normalizeEmail email → (D.users.lookup id).isSome = true

/-- The last steps of a registration, whose failures are swallowed. -/
def announce (id : Id) (user : User) (tokens : AuthTokens) (referralToken : Option String) :
    Request AuthResult := do
  (sendVerificationEmail C id user).handle fun _ => pure ()
  (SharingService.logSignupConversion id referralToken).handle fun _ => pure ()
  return { user := toSafeUser id user, tokens }

/-- The part of a registration from the moment that the user is read back. -/
def openSession (id : Id) (referralToken : Option String) : Request AuthResult := do
  let some (_, user) ← Proc.transaction (UsersService.findById id)
    | throw (Err.error "Cannot read properties of null (reading 'userRoles')")
  let tokens ← issueTokens C.toAuthConfig id user
  announce C id user tokens referralToken

/-- The part of a registration after the user is committed. -/
def provision (id : Id) (referralToken : Option String) : Request AuthResult := do
  UsersService.assignRole id "USER"
  Proc.transaction (WalletService.createWalletWithBonus id C.bonusCredits)
  openSession C id referralToken

theorem register_eq : register C name email password referralToken = (do
    let existing ← Proc.transaction (UsersService.findByEmail C.toAuthConfig email)
    if existing.isSome then
      throw emailTaken
    let passwordHash ← Proc.call (.hashPassword password)
    let id ← Proc.call .randomUUID
    let createdAt ← Proc.call .now
    let _ ← Proc.transaction
      (UsersService.create C.toAuthConfig id email name passwordHash createdAt)
    provision C id referralToken) := rfl

section Creation

variable {C name email password referralToken env D}

theorem findByEmail_eq_none : (D.users.findMany fun _ user =>
    user.email = C.normalizeEmail email).head? = none ↔
      ∀ id user, D.users.lookup id = some user → user.email ≠ C.normalizeEmail email := by
  simp only [List.head?_eq_none_iff, Table.findMany_eq_nil, decide_eq_false_iff_not, ne_eq]

section CreateTx

variable {id : Id} {passwordHash : String} {createdAt : Time}
  (huntaken : ∀ id user, D.users.lookup id = some user → user.email ≠ C.normalizeEmail email)
include huntaken

variable (name passwordHash createdAt) in
theorem run_createUser (hid : D.users.lookup id = none) :
    (UsersService.create C.toAuthConfig id email name passwordHash createdAt).run D [] =
      .ok (createdUser C name email passwordHash createdAt,
        [.user id (some (createdUser C name email passwordHash createdAt))]) := by
  unfold UsersService.create UsersService.findByEmail
  rw [Tx.run_select_bind, view_nil, findByEmail_eq_none.mpr huntaken]
  exact Db.user.run_create hid

theorem run_createUser_exists {user : User} (hid : D.users.lookup id = some user) :
    (UsersService.create C.toAuthConfig id email name passwordHash createdAt).run D [] =
      .error .uniqueConstraintViolation := by
  unfold UsersService.create UsersService.findByEmail
  rw [Tx.run_select_bind, view_nil, findByEmail_eq_none.mpr huntaken]
  exact Db.user.run_create_exists (E := Err) hid

end CreateTx

variable (name password referralToken) in
/-- A registration that commits no user throws and leaves the database as it was. -/
theorem exec_register_uncreated (h : ¬ Creates C email env D) :
    ∃ e, (register C name email password referralToken).exec env 0 D = (D, .error e) := by
  rw [register_eq]
  unfold UsersService.findByEmail
  by_cases h₀ : env.fate 0 = some .done
  case neg => exact Proc.exec_select_unanswered h₀
  rw [Proc.exec_select h₀]
  cases htaken : (D.users.findMany fun _ user => user.email = C.normalizeEmail email).head? with
  | some row => exact ⟨emailTaken, rfl⟩
  | none =>
      have huntaken := findByEmail_eq_none.mp htaken
      simp only [Option.isSome_none, Bool.false_eq_true, if_false]
      by_cases h₁ : env.fate 1 = some .done
      case neg => exact Proc.exec_call_unanswered h₁
      rw [Proc.exec_call h₁]
      by_cases h₂ : env.fate 2 = some .done
      case neg => exact Proc.exec_call_unanswered h₂
      rw [Proc.exec_call h₂]
      by_cases h₃ : env.fate 3 = some .done
      case neg => exact Proc.exec_call_unanswered h₃
      rw [Proc.exec_call h₃]
      have hcalls : ∀ n < 4, env.fate n = some .done := by
        rintro (_ | _ | _ | _ | n) hn
        · exact h₀
        · exact h₁
        · exact h₂
        · exact h₃
        · omega
      -- The transaction is not made, or it fails.
      cases hfresh : D.users.lookup (newId env) with
      | none =>
          exact Proc.exec_transaction_unmade fun hcommits =>
            h ⟨hcalls, huntaken, hfresh, hcommits⟩
      | some user =>
          exact Proc.exec_transaction_refused (run_createUser_exists huntaken hfresh)

theorem Creates.exec_prefix (h : Creates C email env D) :
    (register C name email password referralToken).exec env 0 D =
      (Proc.transaction (UsersService.create C.toAuthConfig (newId env) email name
        (env.answer 1 (.hashPassword password)) (env.answer 3 .now)) >>= fun _ =>
        provision C (newId env) referralToken).exec env 4 D := by
  rw [register_eq]
  unfold UsersService.findByEmail
  rw [Proc.exec_select (h.calls 0 (by omega)), findByEmail_eq_none.mpr h.untaken]
  simp only [Option.isSome_none, Bool.false_eq_true, if_false]
  rw [Proc.exec_call (h.calls 1 (by omega)), Proc.exec_call (h.calls 2 (by omega)),
    Proc.exec_call (h.calls 3 (by omega))]
  rfl

end Creation

section Wallet

variable {D : Db} {id : Id} {bonusAmount : Nat}

theorem run_createWallet (hw : D.wallets.lookup id = none)
    (hk : 0 < bonusAmount → D.walletTransactions.lookup (.bonus id) = none) :
    (WalletService.createWalletWithBonus id bonusAmount).run D [] =
      .ok ((), WalletService.bonusWrites id bonusAmount) := by
  unfold WalletService.createWalletWithBonus
  rw [Tx.run_bind_ok (Db.wallet.run_create (L := []) hw)]
  by_cases hb : 0 < bonusAmount
  · rw [if_pos hb, Tx.run_bind_ok (Db.walletTransaction.run_create (D := D)
      (L := [] ++ [Db.wallet.write id (some ⟨bonusAmount⟩)]) (by simpa using hk hb))]
    simp [WalletService.bonusWrites, hb]
  · rw [if_neg hb]
    simp [WalletService.bonusWrites, hb]

theorem run_createWallet_refused (h : ¬ (D.wallets.lookup id = none ∧
    (0 < bonusAmount → D.walletTransactions.lookup (.bonus id) = none))) :
    ∃ e, (WalletService.createWalletWithBonus id bonusAmount).run D [] = .error e := by
  unfold WalletService.createWalletWithBonus
  cases hw : D.wallets.lookup id with
  | some w => exact ⟨_, Tx.run_bind_error (Db.wallet.run_create_exists (L := []) hw)⟩
  | none =>
      obtain ⟨hb, hk⟩ := Classical.not_imp.mp fun hk => h ⟨hw, hk⟩
      obtain ⟨row, hrow⟩ := Option.ne_none_iff_exists'.mp hk
      rw [Tx.run_bind_ok (Db.wallet.run_create (L := []) hw), if_pos hb]
      exact ⟨_, Tx.run_bind_error (Db.walletTransaction.run_create_exists (D := D)
        (L := [] ++ [Db.wallet.write id (some ⟨bonusAmount⟩)]) (by simpa using hrow))⟩

end Wallet

/-- The request has failed and the user is there. -/
def Abandoned {α : Type} (id : Id) (address : String) (out : Db × Except Err α) : Prop :=
  (∃ e, out.2 = .error e) ∧ ∃ user, out.1.users.lookup id = some user ∧ user.email = address

section Steps

variable {α β : Type} {env : Proc.Surroundings Answer} {n : Nat} {D : Db} {id : Id} {user : User}

theorem Abandoned.of_eq {out : Db × Except Err α} {e : Err} (hout : out = (D, .error e))
    (huser : D.users.lookup id = some user) : Abandoned id user.email out :=
  hout ▸ ⟨⟨e, rfl⟩, user, huser, rfl⟩

theorem abandoned_call {q : Query} {f : Answer q → Request α} (hfate : env.fate n ≠ some .done)
    (huser : D.users.lookup id = some user) :
    Abandoned id user.email ((Proc.call q >>= f).exec env n D) := by
  obtain ⟨e, he⟩ := Proc.exec_call_unanswered (D := D) (f := f) hfate
  exact .of_eq he huser

theorem abandoned_select {g : Db → β} {f : β → Request α} (hfate : env.fate n ≠ some .done)
    (huser : D.users.lookup id = some user) :
    Abandoned id user.email ((Proc.transaction (Tx.select g) >>= f).exec env n D) := by
  obtain ⟨e, he⟩ := Proc.exec_select_unanswered (D := D) (g := g) (f := f) hfate
  exact .of_eq he huser

/-- A transaction that is not answered leaves the user with its address. -/
theorem abandoned_unanswered {body : TxM β} {f : β → Request α} {b : β} {L : List RowWrite}
    (hfate : env.fate n ≠ some .done) (hrun : body.run D [] = .ok (b, L))
    (huser : D.users.lookup id = some user)
    (huser' : ((view L D).users.lookup id).map (·.email) = some user.email) :
    Abandoned id user.email ((Proc.transaction body >>= f).exec env n D) := by
  rcases Proc.exec_transaction_unanswered (b := body) (f := f) (D := D) hfate with
    ⟨b', L', -, hrun', he⟩ | ⟨e, he⟩
  · cases hrun.symm.trans hrun'
    obtain ⟨user', hlookup, hemail⟩ := Option.map_eq_some_iff.mp huser'
    exact hemail ▸ .of_eq he hlookup
  · exact .of_eq he huser

theorem abandoned_refused {body : TxM β} {f : β → Request α} {e : Err}
    (hrun : body.run D [] = .error e) (huser : D.users.lookup id = some user) :
    Abandoned id user.email ((Proc.transaction body >>= f).exec env n D) := by
  obtain ⟨e', he⟩ := Proc.exec_transaction_refused (f := f) (n := n) hrun
  exact .of_eq he huser

end Steps

section Provision

variable {C : AccountConfig} {name email password : String} {referralToken : Option String}
  {env : Proc.Surroundings Answer} {D : Db}

/-- The rows that a registration writes after its user: the role, the wallet with its
bonus, and the session. -/
def accountWrites (C : AccountConfig) (id : Id) (user : User) (env : Proc.Surroundings Answer) :
    List RowWrite :=
  .user id (some (UsersService.addRole "USER" user)) ::
    (WalletService.bonusWrites id C.bonusCredits ++
      [.refreshToken (C.hashToken (env.answer 11 (.signRefreshToken id (env.answer 10 .randomUUID))))
        (some (newToken id (env.answer 12 .now)))])

variable (C referralToken env) in
/-- The read of the user and its session fail and leave the user, or they succeed. -/
theorem exec_openSession {id : Id} {user : User} (huser : D.users.lookup id = some user) :
    (¬ ((∀ n, 7 < n → n < 14 → env.fate n = some .done) ∧ D.refreshTokens.lookup
        (C.hashToken (env.answer 11 (.signRefreshToken id (env.answer 10 .randomUUID)))) = none) ∧
      Abandoned id user.email ((openSession C id referralToken).exec env 8 D)) ∨
    (((∀ n, 7 < n → n < 14 → env.fate n = some .done) ∧ D.refreshTokens.lookup
        (C.hashToken (env.answer 11 (.signRefreshToken id (env.answer 10 .randomUUID)))) = none) ∧
      ∃ tokens, (openSession C id referralToken).exec env 8 D =
        (announce C id user tokens referralToken).exec env 14
          (view [.refreshToken (C.hashToken (env.answer 11
            (.signRefreshToken id (env.answer 10 .randomUUID))))
              (some (newToken id (env.answer 12 .now)))] D)) := by
  unfold openSession UsersService.findById issueTokens signTokenPair
  by_cases h₈ : env.fate 8 = some .done
  case neg => exact .inl ⟨fun hp => h₈ (hp.1 8 (by omega) (by omega)), abandoned_select h₈ huser⟩
  rw [Proc.exec_select h₈, huser]
  simp only [Option.map_some, Proc.bind_assoc, Proc.pure_eq, Proc.ret_bind]
  by_cases h₉ : env.fate 9 = some .done
  case neg => exact .inl ⟨fun hp => h₉ (hp.1 9 (by omega) (by omega)), abandoned_call h₉ huser⟩
  rw [Proc.exec_call h₉]
  by_cases h₁₀ : env.fate 10 = some .done
  case neg => exact .inl ⟨fun hp => h₁₀ (hp.1 10 (by omega) (by omega)), abandoned_call h₁₀ huser⟩
  rw [Proc.exec_call h₁₀]
  by_cases h₁₁ : env.fate 11 = some .done
  case neg => exact .inl ⟨fun hp => h₁₁ (hp.1 11 (by omega) (by omega)), abandoned_call h₁₁ huser⟩
  rw [Proc.exec_call h₁₁]
  by_cases h₁₂ : env.fate 12 = some .done
  case neg => exact .inl ⟨fun hp => h₁₂ (hp.1 12 (by omega) (by omega)), abandoned_call h₁₂ huser⟩
  rw [Proc.exec_call h₁₂]
  cases hsession : D.refreshTokens.lookup (C.hashToken (env.answer 11
      (.signRefreshToken id (env.answer 10 .randomUUID)))) with
  | some token =>
      have hcreate := Db.refreshToken.run_create_exists (E := Err) (D := D) (L := [])
        (v := newToken id (env.answer 12 .now)) hsession
      refine .inl ⟨fun hp => ?_, abandoned_refused hcreate huser⟩
      cases hp.2
  | none =>
      have hcreate := Db.refreshToken.run_create (E := Err) (D := D) (L := [])
        (v := newToken id (env.answer 12 .now)) hsession
      by_cases h₁₃ : env.fate 13 = some .done
      · refine .inr ⟨⟨fun n hn hn' => ?_, rfl⟩, _, Proc.exec_transaction_ok h₁₃ hcreate⟩
        obtain rfl | rfl | rfl | rfl | rfl | rfl : n = 8 ∨ n = 9 ∨ n = 10 ∨ n = 11 ∨ n = 12 ∨
          n = 13 := by omega
        all_goals assumption
      · exact .inl ⟨fun hp => h₁₃ (hp.1 13 (by omega) (by omega)),
          abandoned_unanswered h₁₃ hcreate huser (by simp [huser])⟩

variable (C referralToken env) in
/-- What follows the user fails in one of the steps and leaves the user, or these steps all
succeed and it comes to the last two. -/
theorem exec_provision {id : Id} {user : User} (huser : D.users.lookup id = some user) :
    (¬ Provisions C env D id ∧
      Abandoned id user.email ((provision C id referralToken).exec env 5 D)) ∨
    (Provisions C env D id ∧ ∃ tokens, (provision C id referralToken).exec env 5 D =
      (announce C id (UsersService.addRole "USER" user) tokens referralToken).exec env 14
        (view (accountWrites C id user env) D)) := by
  unfold provision UsersService.assignRole
  simp only [Proc.bind_assoc, Proc.pure_eq, Proc.ret_bind]
  by_cases h₅ : env.fate 5 = some .done
  case neg =>
    exact .inl ⟨fun hp => h₅ (hp.calls 5 (by omega) (by omega)), abandoned_call h₅ huser⟩
  rw [Proc.exec_call h₅]
  cases hrole : env.answer 5 (.roleId "USER") with
  | error e =>
      refine .inl ⟨fun hp => ?_, .of_eq rfl huser⟩
      obtain ⟨roleId, hok⟩ := hp.role
      cases hrole.symm.trans hok
  | ok roleId =>
  simp only [Proc.ofExcept_ok, Proc.ret_bind]
  have hupdate := Db.user.run_update (E := Err) (D := D) (L := []) (UsersService.addRole "USER") huser
  have huser' : (view [.user id (some (UsersService.addRole "USER" user))] D).users.lookup id =
      some (UsersService.addRole "USER" user) := by simp
  by_cases h₆ : env.fate 6 = some .done
  case neg =>
    exact .inl ⟨fun hp => h₆ (hp.calls 6 (by omega) (by omega)),
      abandoned_unanswered h₆ hupdate huser (congrArg (Option.map User.email) huser')⟩
  rw [Proc.exec_transaction_ok h₆ hupdate]
  change (_ ∧ Abandoned id (UsersService.addRole "USER" user).email _) ∨ _
  generalize hD' : view ([] ++ [Db.user.write id (some (UsersService.addRole "USER" user))]) D = D'
  have huser' : D'.users.lookup id = some (UsersService.addRole "USER" user) := by simp [← hD']
  -- The wallet is new, or its transaction fails.
  by_cases hw : D'.wallets.lookup id = none ∧
      (0 < C.bonusCredits → D'.walletTransactions.lookup (.bonus id) = none)
  case neg =>
    obtain ⟨e, he⟩ := run_createWallet_refused hw
    exact .inl ⟨fun hp => hw (hD' ▸ ⟨hp.wallet, hp.bonus⟩), abandoned_refused he huser'⟩
  have hwallet := run_createWallet hw.1 hw.2
  have hkept : (view (WalletService.bonusWrites id C.bonusCredits) D').users.lookup id =
      some (UsersService.addRole "USER" user) := by
    unfold WalletService.bonusWrites
    split <;> simpa using huser'
  by_cases h₇ : env.fate 7 = some .done
  case neg =>
    exact .inl ⟨fun hp => h₇ (hp.calls 7 (by omega) (by omega)),
      abandoned_unanswered h₇ hwallet huser' (by rw [hkept]; rfl)⟩
  rw [Proc.exec_transaction_ok h₇ hwallet]
  have hsessions : (view (WalletService.bonusWrites id C.bonusCredits) D').refreshTokens =
      D.refreshTokens := by
    unfold WalletService.bonusWrites
    split <;> simp [← hD']
  rcases exec_openSession C referralToken env hkept with ⟨hnot, habandoned⟩ | ⟨hopens, tokens, he⟩
  · rw [hsessions] at hnot
    exact .inl ⟨fun hp => hnot ⟨fun n hn => hp.calls n (by omega), hp.session⟩, habandoned⟩
  · rw [hsessions] at hopens
    refine .inr ⟨⟨fun n hn hn' => ?_, ⟨roleId, hrole⟩, ?_, ?_, hopens.2⟩, tokens, ?_⟩
    · obtain rfl | rfl | rfl | hlt : n = 5 ∨ n = 6 ∨ n = 7 ∨ 7 < n := by omega
      all_goals first | assumption | exact hopens.1 n hlt hn'
    · simpa [← hD'] using hw.1
    · simpa [← hD'] using hw.2
    · subst hD'
      rw [he, accountWrites]
      exact congrArg _ (view_append (WalletService.bonusWrites id C.bonusCredits) _ _).symm

variable (name password referralToken) in
/-- After its user is committed, a registration fails in one of the later steps and leaves
the user, or they all succeed and it comes to the last two. -/
theorem Creates.exec_register (h : Creates C email env D) :
    (¬ Succeeds C env D ∧ Abandoned (newId env) (C.normalizeEmail email)
      ((register C name email password referralToken).exec env 0 D)) ∨
    (Succeeds C env D ∧ ∃ tokens, (register C name email password referralToken).exec env 0 D =
      (announce C (newId env) (UsersService.addRole "USER" (newUser C name email password env))
        tokens referralToken).exec env 14
          (view (.user (newId env) (some (newUser C name email password env)) ::
            accountWrites C (newId env) (newUser C name email password env) env) D)) := by
  have hcreate := run_createUser name (env.answer 1 (.hashPassword password)) (env.answer 3 .now)
    h.untaken h.fresh
  have huser : (view [.user (newId env) (some (newUser C name email password env))] D).users.lookup
      (newId env) = some (newUser C name email password env) := by simp
  rw [h.exec_prefix]
  by_cases h₄ : env.fate 4 = some .done
  case neg =>
    obtain ⟨e, he⟩ := Proc.exec_transaction_lost (h.commits.resolve_left h₄) hcreate
    exact .inl ⟨fun hs => h₄ hs.answered, .of_eq he huser⟩
  rw [Proc.exec_transaction_ok h₄ hcreate]
  rcases exec_provision C referralToken env huser with
    ⟨hnot, habandoned⟩ | ⟨hp, tokens, he⟩
  · exact .inl ⟨fun hs => hnot ⟨hs.calls, hs.role, hs.wallet, hs.bonus, hs.session⟩, habandoned⟩
  · exact .inr ⟨⟨⟨hp.calls, hp.role, hp.wallet, hp.bonus, hp.session⟩, h₄⟩, tokens, he⟩

end Provision

/-! ## Nothing is left exactly if all succeeds -/

section Whole

variable {C : AccountConfig} {name email password : String} {referralToken : Option String}
  {env : Proc.Surroundings Answer} {D : Db} (halive : ∀ n, env.fate n ≠ none)
include halive

/-- The last two steps cannot fail a registration. -/
theorem exec_announce {id : Id} {user : User} {tokens : AuthTokens} {n : Nat} :
    ((announce C id user tokens referralToken).exec env n D).2 =
      .ok { user := toSafeUser id user, tokens } := by
  obtain ⟨m, D₁, hemail⟩ := Proc.exec_swallow (E := Err) halive (sendVerificationEmail C id user)
    (fun _ => do
      (SharingService.logSignupConversion id referralToken).handle fun _ => pure ()
      return { user := toSafeUser id user, tokens : AuthResult }) n D
  obtain ⟨m', D₂, hsignup⟩ := Proc.exec_swallow (E := Err) halive
    (SharingService.logSignupConversion id referralToken)
    (fun _ => return { user := toSafeUser id user, tokens : AuthResult }) m D₁
  unfold announce
  rw [hemail, hsignup]
  rfl

omit halive in
/-- A registration that throws after its user is committed leaves the user. -/
theorem succeeds_of_leavesNothing
    (h : LeavesNothing C name email password referralToken env D) (hcreates : Creates C email env D) :
    Succeeds C env D := by
  rcases hcreates.exec_register name password referralToken with
    ⟨-, ⟨e, herror⟩, user, hlookup, hemail⟩ | ⟨hs, -⟩
  · have hbefore := h e herror (newId env) user hlookup hemail
    rw [hcreates.fresh] at hbefore
    cases hbefore
  · exact hs

/-- A registration that is made completely does not throw, and one that makes no user
changes nothing. -/
theorem leavesNothing_of_succeeds (h : Creates C email env D → Succeeds C env D) :
    LeavesNothing C name email password referralToken env D := by
  intro e herror id user hlookup _
  by_cases hcreates : Creates C email env D
  · rcases hcreates.exec_register name password referralToken with
      ⟨hnot, -⟩ | ⟨-, tokens, hexec⟩
    · exact absurd (h hcreates) hnot
    · rw [hexec, exec_announce halive] at herror
      cases herror
  · obtain ⟨e', hexec⟩ := exec_register_uncreated name password referralToken hcreates
    rw [hexec] at hlookup
    rw [hlookup]
    rfl

end Whole

end AuthService

end TaroTria
