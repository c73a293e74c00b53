import TaroTria.Prisma.Client
import TaroTria.Transactions.Latch

/-!
# The sessions of the auth service

Login, refresh, logout and the two changes of a password, as in `auth.service.ts`.

## Implementation notes

`new Date()`, `Date.now()` and the ids are asked for just before the transaction
that uses them. The password hash, the JWT library and the digest of a token
are outside code: the first two answer calls, the digest is a parameter.
-/

namespace TaroTria

open Transactions

structure AuthTokens where
  accessToken : String
  refreshToken : String
  deriving DecidableEq, Repr

structure SafeUser where
  id : Id
  email : String
  name : String
  status : UserStatus
  emailVerifiedAt : Option Time
  roles : List String
  createdAt : Time
  deriving DecidableEq, Repr

def toSafeUser (id : Id) (user : User) : SafeUser where
  id := id
  email := user.email
  name := user.name
  status := user.status
  emailVerifiedAt := user.emailVerifiedAt
  roles := user.roles
  createdAt := user.createdAt

structure AuthResult where
  user : SafeUser
  tokens : AuthTokens
  deriving DecidableEq, Repr

/-- The two string functions that the service applies: `normalizeEmail` trims
and lowers an address, `hashToken` is a digest. -/
structure AuthConfig where
  normalizeEmail : String → String
  hashToken : String → String

namespace UsersService

def findByEmail (C : AuthConfig) (email : String) : TxM (Option (Id × User)) :=
  Tx.select fun D => (D.users.findMany fun _ user => user.email = C.normalizeEmail email).head?

def findById (id : Id) : TxM (Option (Id × User)) :=
  Tx.select fun D => (D.users.lookup id).map fun user => (id, user)

end UsersService

namespace AuthService

variable (C : AuthConfig)

def REFRESH_TOKEN_TTL_MS : Nat := 30 * 24 * 60 * 60 * 1000

def INVALID_SESSION_MESSAGE : String := "Sesión inválida. Por favor inicia sesión de nuevo."

def signTokenPair (userId : Id) (user : User) : Request AuthTokens := do
  let accessToken ← Proc.call (.signAccessToken userId user.roles)
  let jti ← Proc.call .randomUUID
  let refreshToken ← Proc.call (.signRefreshToken userId jti)
  return { accessToken, refreshToken }

/-- A fresh row, for a token issued at `now`. -/
def newToken (userId : Id) (now : Time) : RefreshToken :=
  { userId, expiresAt := now + REFRESH_TOKEN_TTL_MS, revokedAt := none, replacedBy := none }

def issueTokens (userId : Id) (user : User) : Request AuthTokens := do
  let tokens ← signTokenPair userId user
  let now ← Proc.call .now
  let _ ← Proc.transaction <|
    Db.refreshToken.create (C.hashToken tokens.refreshToken) (newToken userId now)
  return tokens

/-- The transaction of `rotateTokens`: the new row is created, and the old one
is revoked and names it, whatever state the old one is in. -/
def rotateTx (userId : Id) (newHash oldHash : String) (createdAt revokedAt : Time) : TxM Unit := do
  let _ ← Db.refreshToken.create newHash (newToken userId createdAt)
  let _ ← Db.refreshToken.update oldHash fun token =>
    { token with revokedAt := some revokedAt, replacedBy := some newHash }

def rotateTokens (userId : Id) (user : User) (oldHash : String) : Request AuthTokens := do
  let tokens ← signTokenPair userId user
  let createdAt ← Proc.call .now
  let revokedAt ← Proc.call .now
  Proc.transaction (rotateTx userId (C.hashToken tokens.refreshToken) oldHash createdAt revokedAt)
  return tokens

/-- The rows of the open sessions of a user, revoked. -/
def revocationWrites (userId : Id) (revokedAt : Time) (D : Db) : List RowWrite :=
  (D.refreshTokens.findMany fun _ token => token.userId = userId && token.revokedAt.isNone).map
    fun e => .refreshToken e.1 (some { e.2 with revokedAt := some revokedAt })

/-- `refreshToken.updateMany({ where: { userId, revokedAt: null } })`. -/
def revokeSessions (userId : Id) (revokedAt : Time) : TxM Unit :=
  .stmt (fun D => .ok ((), revocationWrites userId revokedAt D)) .ret

def login (email password : String) : Request AuthResult := do
  let some (userId, user) ← Proc.transaction (UsersService.findByEmail C email)
    | do
        let _ ← Proc.call (.hashPassword password)
        throw (Err.unauthorized "Credenciales inválidas.")
  let passwordValid ← Proc.call (.verifyPassword user.passwordHash password)
  if !passwordValid || user.status ≠ .ACTIVE then
    throw (Err.unauthorized "Credenciales inválidas.")
  let tokens ← issueTokens C userId user
  return { user := toSafeUser userId user, tokens }

/-- The presented row is read once; its rotation comes later, in its own transaction. -/
def refresh (rawRefreshToken : String) : Request AuthResult := do
  let some sub ← (Proc.call (Query.verifyRefreshToken rawRefreshToken)).handle fun _ => pure none
    | throw (Err.unauthorized "Sesión inválida o expirada.")
  let tokenHash := C.hashToken rawRefreshToken
  let some existing ← Proc.transaction (Db.refreshToken.findUnique tokenHash)
    | throw (Err.unauthorized INVALID_SESSION_MESSAGE)
  if existing.revokedAt.isSome then
    let revokedAt ← Proc.call .now
    Proc.transaction (revokeSessions existing.userId revokedAt)
    throw (Err.unauthorized INVALID_SESSION_MESSAGE)
  let some (userId, user) ← Proc.transaction (UsersService.findById existing.userId)
    | throw (Err.unauthorized INVALID_SESSION_MESSAGE)
  if user.status ≠ .ACTIVE ∨ userId ≠ sub then
    throw (Err.unauthorized INVALID_SESSION_MESSAGE)
  let tokens ← rotateTokens C userId user tokenHash
  return { user := toSafeUser userId user, tokens }

/-- A missing and an empty token are the same to `!rawRefreshToken`. -/
def logout : Option String → Request Unit
  | none => return ()
  | some rawRefreshToken => do
      if rawRefreshToken = "" then
        return ()
      let revokedAt ← Proc.call .now
      let _ ← Proc.transaction <| Db.refreshToken.updateMany (C.hashToken rawRefreshToken)
        (fun token => token.revokedAt.isNone)
        (fun token => { token with revokedAt := some revokedAt })

def invalidResetLink : Err :=
  .unauthorized "El enlace de recuperación es inválido o expiró."

/-- The batch of `resetPassword`. -/
def resetPasswordTx (tokenHash : String) (userId : Id) (passwordHash : String)
    (usedAt revokedAt : Time) : TxM Unit := do
  let _ ← Db.verificationToken.update tokenHash fun token => { token with usedAt := some usedAt }
  let _ ← Db.user.update userId fun user => { user with passwordHash }
  revokeSessions userId revokedAt

def resetPassword (rawToken newPassword : String) : Request Unit := do
  let tokenHash := C.hashToken rawToken
  let some record ← Proc.transaction (Db.verificationToken.findUnique tokenHash)
    | throw invalidResetLink
  let now ← Proc.call .now
  if record.purpose ≠ .PASSWORD_RESET ∨ record.usedAt.isSome ∨ record.expiresAt < now then
    throw invalidResetLink
  let some (_, user) ← Proc.transaction (UsersService.findById record.userId)
    | throw invalidResetLink
  if user.status ≠ .ACTIVE then
    throw invalidResetLink
  let passwordHash ← Proc.call (.hashPassword newPassword)
  let usedAt ← Proc.call .now
  let revokedAt ← Proc.call .now
  Proc.transaction (resetPasswordTx tokenHash record.userId passwordHash usedAt revokedAt)

/-- The batch of `changePassword`. -/
def changePasswordTx (userId : Id) (passwordHash : String) (revokedAt : Time) : TxM Unit := do
  let _ ← Db.user.update userId fun user => { user with passwordHash }
  revokeSessions userId revokedAt

def changePassword (userId : Id) (currentPassword newPassword : String) : Request Unit := do
  let some (_, user) ← Proc.transaction (UsersService.findById userId)
    | throw (Err.unauthorized INVALID_SESSION_MESSAGE)
  let passwordValid ← Proc.call (.verifyPassword user.passwordHash currentPassword)
  if !passwordValid then
    throw (Err.unauthorized "La contraseña actual no es correcta.")
  let passwordHash ← Proc.call (.hashPassword newPassword)
  let revokedAt ← Proc.call .now
  Proc.transaction (changePasswordTx userId passwordHash revokedAt)

end AuthService

/-- The session requests. -/
inductive AuthCall
  | login (email password : String)
  | refresh (rawRefreshToken : String)
  | logout (rawRefreshToken : Option String)
  | resetPassword (rawToken newPassword : String)
  | changePassword (userId : Id) (currentPassword newPassword : String)

/-- The request of a call; what it returns to its caller is dropped. -/
def AuthCall.prog (C : AuthConfig) : AuthCall → Request Unit
  | login email password => do
      let _ ← AuthService.login C email password
  | refresh rawRefreshToken => do
      let _ ← AuthService.refresh C rawRefreshToken
  | logout rawRefreshToken => AuthService.logout C rawRefreshToken
  | resetPassword rawToken newPassword => AuthService.resetPassword C rawToken newPassword
  | changePassword userId currentPassword newPassword =>
      AuthService.changePassword userId currentPassword newPassword

/-- Running sessions requests, each transaction a single step. -/
abbrev AuthPool := Pool Db RowWrite Err AuthCall Answer Unit

/-- A configuration for concrete runs. -/
def sampleAuth : AuthConfig := ⟨id, id⟩

/-- A user with one open session, whose token is `t0`. -/
def sampleSession : Db :=
  { Db.empty with
    users := (∅ : Table Id User).write "ana"
      (some ⟨"ana@example.com", "Ana", "", .ACTIVE, none, 0, ["USER"]⟩)
    refreshTokens := (∅ : Table String RefreshToken).write "t0" (some ⟨"ana", 0, none, none⟩) }

/-- Answers for concrete runs: every refresh token is one of `ana`, every password
is valid, and a new token is `jti`. -/
def sessionAnswer (jti : String) : (q : Query) → Answer q
  | .now => (0 : Time)
  | .randomUUID => jti
  | .randomInts _ _ => []
  | .activeDeckCards _ => .ok []
  | .publishedVersionId _ => .ok ""
  | .headObject _ => none
  | .downloadObject _ => []
  | .deleteObject _ => ()
  | .cacheGet _ => none
  | .cacheSet _ _ _ => ()
  | .cacheDel _ => ()
  | .execute _ => ⟨"", .COMPLETED, none, none⟩
  | .complete _ => ⟨[], ""⟩
  | .fetchTransaction _ => none
  | .hashPassword _ => ""
  | .verifyPassword _ _ => true
  | .signAccessToken _ _ => ""
  | .signRefreshToken _ jti => jti
  | .verifyRefreshToken _ => some "ana"
  | .generateOpaqueToken => ""
  | .sendEmail _ => ()
  | .roleId _ => .ok "user"
  | .toPng _ => []
  | .uploadObject _ _ _ => ()

/-- `n` steps of task `t`, all made, that issue the token `jti`. -/
def sessionSteps (t n : Nat) (jti : String) : List (Event AuthCall Answer) :=
  List.replicate n (.go t .done (sessionAnswer jti))

end TaroTria
