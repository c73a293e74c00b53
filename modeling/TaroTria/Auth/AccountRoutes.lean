import TaroTria.Auth.AccountsInUse

/-!
# The routes of the accounts

The requests of the auth and the users controllers behind their guards, and what all of them
keep: accounts are never lost, a deletion is final and no token changes its owner.

## Implementation notes

The verification of an access token is outside code and depends on the token and the time, so
it is a parameter. The routes of the other controllers are a parameter as well.
-/

namespace TaroTria

open Transactions

structure AuthenticatedUser where
  id : Id
  roles : List String
  deriving DecidableEq, Repr

/-- `verifyAccessToken` is what `jwtService.verifyAsync` finds as the subject of an access
token that is presented at a time. -/
structure GuardConfig extends AccountConfig where
  verifyAccessToken : Time → String → Option Id

/-- A missing and an empty token are the same to `!token`. -/
def JwtAuthGuard.canActivate (C : GuardConfig) (token : Option String) :
    Request AuthenticatedUser := do
  let some raw := token.filter fun raw => raw ≠ ""
    | throw (Err.unauthorized "No autenticado.")
  let now ← Proc.call .now
  let some sub := C.verifyAccessToken now raw
    | throw (Err.unauthorized "Sesión inválida o expirada.")
  let some (id, user) ← Proc.transaction (UsersService.findById sub)
    | throw (Err.unauthorized "Sesión inválida.")
  if user.status ≠ .ACTIVE then
    throw (Err.unauthorized "Sesión inválida.")
  return { id, roles := user.roles }

def RolesGuard.canActivate (requiredRoles : List String) (user : AuthenticatedUser) :
    Except Err Unit :=
  if requiredRoles.isEmpty || requiredRoles.any fun role => role ∈ user.roles then
    .ok ()
  else
    .error (.forbidden "No tienes permisos para esta acción.")

/-- The routes behind the guard: those of the account, and the others with their roles. -/
inductive GuardedRoute (Route : Type)
  | me
  | changePassword (currentPassword newPassword : String)
  | updateMe (name : Option String)
  | deleteMe
  | other (requiredRoles : List String) (route : Route)

inductive AccountRequest (Route : Type)
  | register (name email password : String) (referralToken : Option String)
  | login (email password : String)
  | refresh (refreshToken : Option String)
  | logout (refreshToken : Option String)
  | verifyEmail (rawToken : String)
  | forgotPassword (email : String)
  | resetPassword (rawToken newPassword : String)
  | guarded (accessToken : Option String) (route : GuardedRoute Route)

inductive AccountAnswer
  | signedIn (result : AuthResult)
  | profile (user : SafeUser)
  | success
  deriving DecidableEq, Repr

/-- The answer of a guarded route, which shows a user or nothing. -/
def AccountAnswer.shown : Option SafeUser → AccountAnswer
  | some user => .profile user
  | none => .success

section Routes

variable {Route : Type} (C : GuardConfig) (others : Route → AuthenticatedUser → Request Unit)

def AuthController.refresh (refreshToken : Option String) : Request AuthResult := do
  let some raw := refreshToken.filter fun raw => raw ≠ ""
    | throw (Err.unauthorized "No autenticado.")
  AuthService.refresh C.toAuthConfig raw

def AuthController.me (currentUser : AuthenticatedUser) : Request SafeUser := do
  let some (id, user) ← Proc.transaction (UsersService.findById currentUser.id)
    | throw (Err.notFound "Usuario no encontrado.")
  return toSafeUser id user

def GuardedRoute.prog (currentUser : AuthenticatedUser) :
    GuardedRoute Route → Request (Option SafeUser)
  | me => do return some (← AuthController.me currentUser)
  | changePassword currentPassword newPassword => do
      AuthService.changePassword currentUser.id currentPassword newPassword
      return none
  | updateMe name => do
      return some (toSafeUser currentUser.id
        (← UsersService.updateProfile currentUser.id name))
  | deleteMe => do
      UsersService.softDeleteAndRevokeSessions currentUser.id
      return none
  | other requiredRoles route => do
      Proc.ofExcept (RolesGuard.canActivate requiredRoles currentUser)
      others route currentUser
      return none

def AccountRequest.prog : AccountRequest Route → Request AccountAnswer
  | register name email password referralToken => do
      return .signedIn (← AuthService.register C.toAccountConfig name email password referralToken)
  | login email password => do
      return .signedIn (← AuthService.login C.toAuthConfig email password)
  | refresh refreshToken => do return .signedIn (← AuthController.refresh C refreshToken)
  | logout refreshToken => do
      AuthService.logout C.toAuthConfig refreshToken
      return .success
  | verifyEmail rawToken => do
      return .profile (← AuthService.verifyEmail C.toAccountConfig rawToken)
  | forgotPassword email => do
      AuthService.forgotPassword C.toAccountConfig email
      return .success
  | resetPassword rawToken newPassword => do
      AuthService.resetPassword C.toAuthConfig rawToken newPassword
      return .success
  | guarded accessToken route => do
      let currentUser ← JwtAuthGuard.canActivate C accessToken
      return .shown (← route.prog others currentUser)

end Routes

/-! ## What stays of the accounts -/

def EmailsUnique (D : Db) : Prop :=
  ∀ id user id' user', D.users.lookup id = some user → D.users.lookup id' = some user' →
    user.email = user'.email → id = id'

def AccountDeleted (D : Db) (id : Id) (email : String) : Prop :=
  ∃ user, D.users.lookup id = some user ∧ user.email = email ∧ user.status = .DELETED

/-- What happens to a user: the address stays, and a deletion is final. -/
structure Lasting (user user' : User) : Prop where
  email : user'.email = user.email
  deleted : user.status = .DELETED → user'.status = .DELETED

theorem Lasting.refl (user : User) : Lasting user user := ⟨rfl, id⟩

theorem Lasting.trans {user user' user'' : User} (h : Lasting user user')
    (h' : Lasting user' user'') : Lasting user user'' :=
  ⟨h'.email.trans h.email, fun hdeleted => h'.deleted (h.deleted hdeleted)⟩

def RefreshToken.SameOwner (token token' : RefreshToken) : Prop := token'.userId = token.userId

theorem RefreshToken.sameOwner (token : RefreshToken) : token.SameOwner token := rfl

theorem RefreshToken.SameOwner.trans {token token' token'' : RefreshToken}
    (h : token.SameOwner token') (h' : token'.SameOwner token'') : token.SameOwner token'' :=
  Eq.trans h' h

def VerificationToken.SameOwner (token token' : VerificationToken) : Prop :=
  token'.userId = token.userId

theorem VerificationToken.sameOwner (token : VerificationToken) : token.SameOwner token := rfl

theorem VerificationToken.SameOwner.trans {token token' token'' : VerificationToken}
    (h : token.SameOwner token') (h' : token'.SameOwner token'') : token.SameOwner token'' :=
  Eq.trans h' h

open Table (Persists)

/-- No account is lost, and no token changes its owner. -/
structure AccountsStay (D D' : Db) : Prop where
  users : Persists Lasting D.users D'.users
  unique : EmailsUnique D → EmailsUnique D'
  sessions : Persists RefreshToken.SameOwner D.refreshTokens D'.refreshTokens
  links : Persists VerificationToken.SameOwner D.verificationTokens D'.verificationTokens

namespace AccountsStay

variable {D D' : Db}

/-- Writes that leave the users alone. -/
theorem of_users (husers : D'.users = D.users)
    (hsessions : Persists RefreshToken.SameOwner D.refreshTokens D'.refreshTokens)
    (hlinks : Persists VerificationToken.SameOwner D.verificationTokens D'.verificationTokens) :
    AccountsStay D D' where
  users := husers ▸ .refl Lasting.refl _
  unique h := by
    unfold EmailsUnique
    rw [husers]
    exact h
  sessions := hsessions
  links := hlinks

theorem of_eq (husers : D'.users = D.users) (hsessions : D'.refreshTokens = D.refreshTokens)
    (hlinks : D'.verificationTokens = D.verificationTokens) : AccountsStay D D' :=
  of_users husers (hsessions ▸ .refl RefreshToken.sameOwner _)
    (hlinks ▸ .refl VerificationToken.sameOwner _)

theorem refl (D : Db) : AccountsStay D D := of_eq rfl rfl rfl

theorem trans {D'' : Db} (h : AccountsStay D D') (h' : AccountsStay D' D'') :
    AccountsStay D D'' where
  users := Persists.trans (R := Lasting) (fun hr hr' => hr.trans hr') h.users h'.users
  unique hunique := h'.unique (h.unique hunique)
  sessions := Persists.trans (R := RefreshToken.SameOwner) (fun hr hr' => hr.trans hr')
    h.sessions h'.sessions
  links := Persists.trans (R := VerificationToken.SameOwner) (fun hr hr' => hr.trans hr')
    h.links h'.links

theorem append {L L' : List RowWrite} (h : AccountsStay D (view L D))
    (h' : AccountsStay (view L D) (view L' (view L D))) : AccountsStay D (view (L ++ L') D) := by
  rw [view_append]
  exact h.trans h'

theorem user {id : Id} {user user' : User} (hlookup : D.users.lookup id = some user)
    (hlasting : Lasting user user') : AccountsStay D (view [.user id (some user')] D) where
  users := .replace Lasting.refl hlookup hlasting
  unique hunique := by
    have back : ∀ i row, (D.users.write id (some user')).lookup i = some row →
        ∃ row₀, D.users.lookup i = some row₀ ∧ row₀.email = row.email := by
      intro i row hrow
      rw [Table.lookup_write] at hrow
      split at hrow
      · rename_i hid
        cases hrow
        exact ⟨user, hid ▸ hlookup, hlasting.email.symm⟩
      · exact ⟨row, hrow, rfl⟩
    intro i row i' row' hi hi' hsame
    obtain ⟨row₀, h₀, he⟩ := back i row hi
    obtain ⟨row₀', h₀', he'⟩ := back i' row' hi'
    exact hunique i row₀ i' row₀' h₀ h₀' (he.trans (hsame.trans he'.symm))
  sessions := .refl RefreshToken.sameOwner _
  links := .refl VerificationToken.sameOwner _

/-- A new account under a free address. -/
theorem create {id : Id} {user : User} (hfresh : D.users.lookup id = none)
    (hfree : ∀ i row, D.users.lookup i = some row → row.email ≠ user.email) :
    AccountsStay D (view [.user id (some user)] D) where
  users := .insert Lasting.refl user hfresh
  unique hunique := by
    have cases_lookup : ∀ i row, (D.users.write id (some user)).lookup i = some row →
        i = id ∧ row = user ∨ D.users.lookup i = some row := by
      intro i row hrow
      rw [Table.lookup_write] at hrow
      split at hrow
      · exact .inl ⟨‹_›, (Option.some.inj hrow).symm⟩
      · exact .inr hrow
    intro i row i' row' hi hi' hsame
    rcases cases_lookup i row hi with ⟨rfl, rfl⟩ | hold <;>
      rcases cases_lookup i' row' hi' with ⟨rfl, rfl⟩ | hold'
    · rfl
    · exact absurd hsame.symm (hfree i' row' hold')
    · exact absurd hsame (hfree i row hold)
    · exact hunique i row i' row' hold hold' hsame
  sessions := .refl RefreshToken.sameOwner _
  links := .refl VerificationToken.sameOwner _

theorem openSession {tokenHash : String} {token : RefreshToken}
    (hfresh : D.refreshTokens.lookup tokenHash = none) :
    AccountsStay D (view [.refreshToken tokenHash (some token)] D) :=
  of_users rfl (.insert RefreshToken.sameOwner token hfresh) (.refl VerificationToken.sameOwner _)

theorem session {tokenHash : String} {token token' : RefreshToken}
    (hlookup : D.refreshTokens.lookup tokenHash = some token)
    (howner : token.SameOwner token') :
    AccountsStay D (view [.refreshToken tokenHash (some token')] D) :=
  of_users rfl (.replace RefreshToken.sameOwner hlookup howner)
    (.refl VerificationToken.sameOwner _)

theorem sendLink {tokenHash : String} {token : VerificationToken}
    (hfresh : D.verificationTokens.lookup tokenHash = none) :
    AccountsStay D (view [.verificationToken tokenHash (some token)] D) :=
  of_users rfl (.refl RefreshToken.sameOwner _) (.insert VerificationToken.sameOwner token hfresh)

theorem link {tokenHash : String} {token token' : VerificationToken}
    (hlookup : D.verificationTokens.lookup tokenHash = some token)
    (howner : token.SameOwner token') :
    AccountsStay D (view [.verificationToken tokenHash (some token')] D) :=
  of_users rfl (.refl RefreshToken.sameOwner _)
    (.replace VerificationToken.sameOwner hlookup howner)

theorem revocation (userId : Id) (revokedAt : Time) (D : Db) :
    AccountsStay D (view (AuthService.revocationWrites userId revokedAt D) D) := by
  refine view_invariant (I := AccountsStay D) _ (.refl D) fun w hw E hE => ?_
  obtain ⟨e, he, rfl⟩ := List.mem_map.mp hw
  obtain ⟨token, hlookup, howner⟩ :=
    hE.sessions e.1 e.2 ((Table.mem_findMany _ _ _ _).mp he).1
  exact hE.trans (.session hlookup howner.symm)

end AccountsStay

namespace AccountDeleted

variable {D D' : Db} {id : Id} {email : String}

theorem later (h : AccountDeleted D id email) (hstay : AccountsStay D D') :
    AccountDeleted D' id email := by
  obtain ⟨user, hlookup, hemail, hstatus⟩ := h
  obtain ⟨user', hlookup', hlasting⟩ := hstay.users id user hlookup
  exact ⟨user', hlookup', hlasting.email.trans hemail, hlasting.deleted hstatus⟩

theorem ne_of_active (h : AccountDeleted D id email) {i : Id} {user : User}
    (hlookup : D.users.lookup i = some user) (hactive : user.status = .ACTIVE) : i ≠ id := by
  rintro rfl
  obtain ⟨user', hlookup', -, hstatus⟩ := h
  cases hlookup.symm.trans hlookup'
  cases hactive.symm.trans hstatus

theorem ne_of_fresh (h : AccountDeleted D id email) {i : Id} (hfresh : D.users.lookup i = none) :
    i ≠ id := by
  rintro rfl
  obtain ⟨user, hlookup, -⟩ := h
  cases hfresh.symm.trans hlookup

end AccountDeleted

/-! ## What the requests change -/

/-- The transactions of a request keep the accounts and the owners of their tokens. -/
abbrev Staying {α : Type} (p : Request α) : Prop :=
  p.Every fun D L => AccountsStay D (view L D)

theorem staying_select {β : Type} (f : Db → β) :
    Staying (Proc.transaction (Tx.select f) : Request β) :=
  Proc.every_select (fun D => .refl D) f

theorem AccountChanges.stay {D : Db} {L : List RowWrite} (h : AccountChanges D L) :
    AccountsStay D (view L D) := by
  induction h with
  | nothing => exact .refl _
  | openSession hfresh => exact .openSession hfresh
  | session hlookup howner => exact .session hlookup howner
  | revocation => exact .revocation _ _ _
  | sendLink hfresh => exact .sendLink hfresh
  | link hlookup howner => exact .link hlookup howner
  | user hlookup hemail hroles hstatus =>
      refine .user hlookup ⟨hemail, fun hdeleted => ?_⟩
      rcases hstatus with hsame | hnow
      · exact hsame.trans hdeleted
      · exact hnow
  | logEvent => exact .of_eq rfl rfl rfl
  | append _ _ ih ih' => exact ih.append ih'

theorem Staying.of_changes {α : Type} {p : Request α} (h : p.Every AccountChanges) : Staying p :=
  h.mono fun _ _ => AccountChanges.stay

theorem UsersService.staying_assignRole (userId : Id) (roleCode : String) :
    Staying (assignRole userId roleCode) := by
  apply (Proc.every_call _).bind
  intro role
  apply (Proc.every_ofExcept _).bind
  intro _
  refine Proc.Every.bind (Proc.every_transaction fun D => ?_) fun _ => trivial
  apply Db.user.wp_update
  intro user hlookup
  exact .user hlookup ⟨rfl, id⟩

theorem staying_createWalletWithBonus (userId : Id) (bonusAmount : Nat) :
    Staying (Proc.transaction (WalletService.createWalletWithBonus userId bonusAmount)) := by
  refine Proc.every_transaction fun D => ?_
  apply WalletService.wp_createWalletWithBonus
  intro _ _
  unfold WalletService.bonusWrites
  split <;> exact .of_eq rfl rfl rfl

end TaroTria
