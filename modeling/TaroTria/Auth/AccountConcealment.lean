import TaroTria.Auth.AccountService
import TaroTria.Notifications.NotificationsProviders
import TaroTria.Transactions.Alone
import TaroTria.Transactions.World

/-!
# What a request for a new password reveals

A request for the password of an address answers in the same way whether the
address belongs to nobody or to a user who is not active. For an active user it
also stores a token and sends an email, and a failure of either reaches the
caller. So the answers agree if and only if neither fails.
-/

namespace TaroTria

open Transactions

/-- An account that the address `email` could have beside the users of `D`, none
of whom has that address. -/
structure Account (C : AuthConfig) (email : String) (D : Db) where
  id : Id
  user : User
  owner : user.email = C.normalizeEmail email
  fresh : D.users.lookup id = none
  sole : ∀ k u, D.users.lookup k = some u → u.email ≠ C.normalizeEmail email

namespace Account

variable {C : AuthConfig} {email : String} {D : Db} (A : Account C email D)

/-- The account in a status. -/
def row (status : UserStatus) : User := { A.user with status }

/-- The database in which the address belongs to nobody, or to the account in a status. -/
def store : Option UserStatus → Db
  | none => D
  | some status => { D with users := D.users.write A.id (some (A.row status)) }

variable {L : List RowWrite} {α : Type}

@[simp] theorem store_verificationTokens (s : Option UserStatus) :
    (A.store s).verificationTokens = D.verificationTokens := by
  cases s <;> rfl

theorem users_lookup_store (status : UserStatus) (k : Id) :
    (A.store (some status)).users.lookup k =
      if k = A.id then some (A.row status) else D.users.lookup k :=
  Table.lookup_write D.users A.id k _

theorem findByEmail_store_none :
    ((A.store none).users.findMany fun _ u => u.email = C.normalizeEmail email).head? = none := by
  rw [List.head?_eq_none_iff, Table.findMany_eq_nil]
  exact fun k u h => decide_eq_false (A.sole k u h)

theorem findByEmail_store_some (status : UserStatus) :
    ((A.store (some status)).users.findMany fun _ u => u.email = C.normalizeEmail email).head? =
      some (A.id, A.row status) := by
  refine Table.head?_findMany ?_ (decide_eq_true A.owner) fun k u h hp => ?_
  · rw [users_lookup_store, if_pos rfl]
  · rw [users_lookup_store] at h
    split at h
    · assumption
    · exact absurd (of_decide_eq_true hp) (A.sole k u h)

end Account

/-- The outside world of a request for a new password: the token it makes, the
time and the provider of emails. -/
def accountWorld {W : Type} (rawToken : String) (now : Time) (sendEmail : NotificationsProvider W) :
    World W Err Answer
  | .generateOpaqueToken, w => (.ok rawToken, w)
  | .now, w => (.ok now, w)
  | .sendEmail input, w => sendEmail input w
  | _, w => (.error .fault, w)

namespace AuthService

variable {W : Type} (C : AccountConfig) (email rawToken : String) (now : Time)
variable (sendEmail : NotificationsProvider W) (w : W) {D : Db}

/-- What the caller observes. -/
def forgotPasswordOutcome (D : Db) : Except Err Unit :=
  ((forgotPassword C email).play (accountWorld rawToken now sendEmail) w D).2.2

/-- The outcome of the two steps that only an active account takes. -/
def resetOutcome (D : Db) (user : User) : Except Err Unit :=
  match D.verificationTokens.lookup (C.hashToken rawToken) with
  | some _ => .error .uniqueConstraintViolation
  | none => (sendEmail (resetEmail C user rawToken) w).1

variable {C email rawToken now sendEmail w} (A : Account C.toAuthConfig email D)

theorem forgotPasswordOutcome_none :
    forgotPasswordOutcome C email rawToken now sendEmail w (A.store none) = .ok () := by
  simp only [forgotPasswordOutcome, forgotPassword, UsersService.findByEmail]
  rw [Proc.play_select_bind, A.findByEmail_store_none]
  rfl

theorem forgotPasswordOutcome_inactive {status : UserStatus} (h : status ≠ .ACTIVE) :
    forgotPasswordOutcome C email rawToken now sendEmail w (A.store (some status)) = .ok () := by
  simp only [forgotPasswordOutcome, forgotPassword, UsersService.findByEmail]
  rw [Proc.play_select_bind, A.findByEmail_store_some]
  simp [Account.row, h]

theorem forgotPasswordOutcome_active :
    forgotPasswordOutcome C email rawToken now sendEmail w (A.store (some .ACTIVE)) =
      resetOutcome C rawToken sendEmail w D (A.row .ACTIVE) := by
  simp only [forgotPasswordOutcome, forgotPassword, UsersService.findByEmail]
  rw [Proc.play_select_bind, A.findByEmail_store_some]
  simp only [Account.row, ne_eq, not_true_eq_false, if_false]
  rw [Proc.play_call (a := rawToken) rfl, Proc.play_call (a := now) rfl]
  unfold resetOutcome
  rcases htoken : D.verificationTokens.lookup (C.hashToken rawToken) with _ | token
  · rw [Proc.play_transaction_ok (Db.verificationToken.run_create (by
      simpa [Db.verificationToken, Delegate.find] using htoken))]
    rw [Proc.play_call_self]
    rfl
  · rw [Proc.play_transaction_error (Db.verificationToken.run_create_exists (by
      simpa [Db.verificationToken, Delegate.find] using htoken))]
    rfl

theorem resetOutcome_eq_ok {user : User} : resetOutcome C rawToken sendEmail w D user = .ok () ↔
    D.verificationTokens.lookup (C.hashToken rawToken) = none ∧
      (sendEmail (resetEmail C user rawToken) w).1 = .ok () := by
  unfold resetOutcome
  cases D.verificationTokens.lookup (C.hashToken rawToken) <;> simp

/-- The caller observes the same, whoever the address belongs to. -/
def Conceals (A : Account C.toAuthConfig email D) (rawToken : String) (now : Time)
    (sendEmail : NotificationsProvider W) (w : W) : Prop :=
  ∀ s s' : Option UserStatus, forgotPasswordOutcome C email rawToken now sendEmail w (A.store s) =
    forgotPasswordOutcome C email rawToken now sendEmail w (A.store s')

theorem conceals_of_resetOutcome
    (h : resetOutcome C rawToken sendEmail w D (A.row .ACTIVE) = .ok ()) :
    Conceals A rawToken now sendEmail w := by
  have hok : ∀ s : Option UserStatus,
      forgotPasswordOutcome C email rawToken now sendEmail w (A.store s) = .ok () := by
    rintro (_ | status)
    · exact forgotPasswordOutcome_none A
    · by_cases hs : status = .ACTIVE
      · rw [hs, forgotPasswordOutcome_active A, h]
      · exact forgotPasswordOutcome_inactive A hs
  exact fun s s' => (hok s).trans (hok s').symm

/-- The request conceals an account exactly when the email of an active one is
accepted, its token being new. -/
theorem conceals_iff : Conceals A rawToken now sendEmail w ↔
    D.verificationTokens.lookup (C.hashToken rawToken) = none ∧
      (sendEmail (resetEmail C (A.row .ACTIVE) rawToken) w).1 = .ok () := by
  rw [← resetOutcome_eq_ok]
  constructor
  · intro h
    rw [← forgotPasswordOutcome_active A, ← h none (some .ACTIVE)]
    exact forgotPasswordOutcome_none A
  · exact conceals_of_resetOutcome A

/-- The stub provider fails on no email, so it gives no account away. -/
theorem conceals_console (hnew : D.verificationTokens.lookup (C.hashToken rawToken) = none) :
    Conceals A rawToken now ConsoleNotificationsProvider.sendEmail w :=
  conceals_of_resetOutcome A (resetOutcome_eq_ok.mpr ⟨hnew, rfl⟩)

end AuthService

/-- An account of an empty shop. -/
def sampleAccount : Account sampleAccounts.toAuthConfig "ana@example.com" Db.empty where
  id := "ana"
  user := ⟨"ana@example.com", "Ana", "", .ACTIVE, none, 0, ["USER"]⟩
  owner := rfl
  fresh := rfl
  sole := fun k u h => by simp [Db.empty] at h

/-- The API of Resend rejects the email, and the error tells that there was one. -/
theorem not_conceals_resend : ¬ AuthService.Conceals sampleAccount "t1" 0
    (ResendNotificationsProvider.sendEmail "TAROTRIA" fun _ w => (some "rate limit", w)) () := by
  intro h
  have hsame := h none (some .ACTIVE)
  rw [AuthService.forgotPasswordOutcome_none, AuthService.forgotPasswordOutcome_active] at hsame
  cases hsame

end TaroTria
