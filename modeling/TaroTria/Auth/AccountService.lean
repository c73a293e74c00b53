import TaroTria.Auth.AuthService
import TaroTria.Sharing.SharingService

/-!
# Accounts and their emails

Registration, the verification of an address and the request of a new password,
as in `auth.service.ts`.

## Implementation notes

`User.email` is unique, which the creation checks. The roles of a user are
codes; the lookup of the role of a code is a call, which may find none. Reading
a field of a user that is gone throws as JavaScript does on `null`.
-/

namespace TaroTria

open Transactions

/-- The configuration of the accounts; `bonusCredits` is the configured
`WALLET_INITIAL_BONUS_CREDITS`. -/
structure AccountConfig extends AuthConfig where
  appUrl : String
  bonusCredits : Nat

namespace UsersService

variable (C : AuthConfig)

def create (id : Id) (email name passwordHash : String) (createdAt : Time) : TxM User := do
  let taken ← findByEmail C email
  if taken.isSome then
    Tx.throw .uniqueConstraintViolation
  Db.user.create id
    { email := C.normalizeEmail email, name, passwordHash, status := .ACTIVE
      emailVerifiedAt := none, createdAt, roles := [] }

/-- The upsert of a role that the user may have already. -/
def addRole (roleCode : String) (user : User) : User :=
  { user with roles := if roleCode ∈ user.roles then user.roles else user.roles ++ [roleCode] }

def assignRole (userId : Id) (roleCode : String) : Request Unit := do
  let _ ← Proc.ofExcept (← Proc.call (.roleId roleCode))
  let _ ← Proc.transaction (Db.user.update userId (addRole roleCode))

end UsersService

namespace SharingService

def SHARE_SIGNUP : String := "SHARE_SIGNUP"

/-- A missing and an empty token are the same to `!referralToken`. -/
def logSignupConversion (userId : Id) : Option String → Request Unit
  | none => return ()
  | some referralToken => do
      if referralToken = "" then
        return ()
      let some _ ← Proc.transaction (Db.shareLink.findUnique referralToken)
        | return ()
      logEvent SHARE_SIGNUP (some referralToken) (some userId)

end SharingService

namespace AuthService

variable (C : AccountConfig)

def EMAIL_VERIFICATION_TOKEN_TTL_MS : Nat := 24 * 60 * 60 * 1000

def PASSWORD_RESET_TOKEN_TTL_MS : Nat := 60 * 60 * 1000

def verificationEmail (user : User) (rawToken : String) : SendEmailInput where
  toAddress := user.email
  subject := "Verifica tu correo"
  templateId := "email-verification"
  context := [("name", user.name),
    ("verificationUrl", C.appUrl ++ "/verify-email?token=" ++ rawToken)]

def sendVerificationEmail (userId : Id) (user : User) : Request Unit := do
  if user.emailVerifiedAt.isSome then
    return ()
  let rawToken ← Proc.call .generateOpaqueToken
  let now ← Proc.call .now
  let _ ← Proc.transaction <| Db.verificationToken.create (C.hashToken rawToken)
    { userId, purpose := .EMAIL_VERIFICATION, usedAt := none
      expiresAt := now + EMAIL_VERIFICATION_TOKEN_TTL_MS }
  Proc.call (Query.sendEmail (verificationEmail C user rawToken))

def emailTaken : Err := .conflict "El correo ya está registrado."

/-- A failure of the last two steps is only logged. -/
def register (name email password : String) (referralToken : Option String) :
    Request AuthResult := do
  let existing ← Proc.transaction (UsersService.findByEmail C.toAuthConfig email)
  if existing.isSome then
    throw emailTaken
  let passwordHash ← Proc.call (.hashPassword password)
  let id ← Proc.call .randomUUID
  let createdAt ← Proc.call .now
  let _ ← Proc.transaction (UsersService.create C.toAuthConfig id email name passwordHash createdAt)
  UsersService.assignRole id "USER"
  Proc.transaction (WalletService.createWalletWithBonus id C.bonusCredits)
  let some (_, user) ← Proc.transaction (UsersService.findById id)
    | throw (Err.error "Cannot read properties of null (reading 'userRoles')")
  let tokens ← issueTokens C.toAuthConfig id user
  (sendVerificationEmail C id user).handle fun _ => pure ()
  (SharingService.logSignupConversion id referralToken).handle fun _ => pure ()
  return { user := toSafeUser id user, tokens }

def invalidVerificationLink : Err :=
  .unauthorized "El enlace de verificación es inválido o expiró."

/-- The batch of `verifyEmail`. -/
def verifyEmailTx (tokenHash : String) (userId : Id) (usedAt emailVerifiedAt : Time) :
    TxM Unit := do
  let _ ← Db.verificationToken.update tokenHash fun token => { token with usedAt := some usedAt }
  let _ ← Db.user.update userId fun user =>
    { user with emailVerifiedAt := some emailVerifiedAt }

def verifyEmail (rawToken : String) : Request SafeUser := do
  let tokenHash := C.hashToken rawToken
  let some record ← Proc.transaction (Db.verificationToken.findUnique tokenHash)
    | throw invalidVerificationLink
  let now ← Proc.call .now
  if record.purpose ≠ .EMAIL_VERIFICATION ∨ record.usedAt.isSome ∨ record.expiresAt < now then
    throw invalidVerificationLink
  let usedAt ← Proc.call .now
  let emailVerifiedAt ← Proc.call .now
  Proc.transaction (verifyEmailTx tokenHash record.userId usedAt emailVerifiedAt)
  let some (_, user) ← Proc.transaction (UsersService.findById record.userId)
    | throw (Err.error "Cannot read properties of null (reading 'id')")
  return toSafeUser record.userId user

def resetEmail (user : User) (rawToken : String) : SendEmailInput where
  toAddress := user.email
  subject := "Recupera tu contraseña"
  templateId := "password-reset"
  context := [("name", user.name), ("resetUrl", C.appUrl ++ "/reset-password?token=" ++ rawToken)]

/-- A new row for a password reset, made at `now`. -/
def resetToken (userId : Id) (now : Time) : VerificationToken where
  userId := userId
  purpose := .PASSWORD_RESET
  expiresAt := now + PASSWORD_RESET_TOKEN_TTL_MS
  usedAt := none

def forgotPassword (email : String) : Request Unit := do
  let some (userId, user) ← Proc.transaction (UsersService.findByEmail C.toAuthConfig email)
    | return ()
  if user.status ≠ .ACTIVE then
    return ()
  let rawToken ← Proc.call .generateOpaqueToken
  let now ← Proc.call .now
  let _ ← Proc.transaction <|
    Db.verificationToken.create (C.hashToken rawToken) (resetToken userId now)
  Proc.call (Query.sendEmail (resetEmail C user rawToken))

end AuthService

/-- A configuration for concrete runs. -/
def sampleAccounts : AccountConfig :=
  { sampleAuth with appUrl := "https://tarotria.com", bonusCredits := 10 }

end TaroTria
