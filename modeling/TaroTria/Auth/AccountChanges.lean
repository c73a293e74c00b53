import TaroTria.Auth.AccountService
import TaroTria.Auth.SessionWrites

/-!
# What the account requests change

The requests on accounts that exist open and revoke sessions, send and use links, change
fields of a user and log events. Each of their transactions changes such rows one after the
other, so what a row's change keeps is kept by all of them.
-/

namespace TaroTria

open Transactions

/-- The changes of a transaction, row by row. A user keeps its address and its roles and may be
deleted only, and a token keeps its owner. -/
inductive AccountChanges : Db → List RowWrite → Prop
  | nothing {D : Db} : AccountChanges D []
  | openSession {D : Db} {tokenHash : String} {token : RefreshToken}
      (hfresh : D.refreshTokens.lookup tokenHash = none) :
      AccountChanges D [.refreshToken tokenHash (some token)]
  | session {D : Db} {tokenHash : String} {token token' : RefreshToken}
      (hlookup : D.refreshTokens.lookup tokenHash = some token)
      (howner : token'.userId = token.userId) :
      AccountChanges D [.refreshToken tokenHash (some token')]
  | revocation {D : Db} {userId : Id} {revokedAt : Time} :
      AccountChanges D (AuthService.revocationWrites userId revokedAt D)
  | sendLink {D : Db} {tokenHash : String} {token : VerificationToken}
      (hfresh : D.verificationTokens.lookup tokenHash = none) :
      AccountChanges D [.verificationToken tokenHash (some token)]
  | link {D : Db} {tokenHash : String} {token token' : VerificationToken}
      (hlookup : D.verificationTokens.lookup tokenHash = some token)
      (howner : token'.userId = token.userId) :
      AccountChanges D [.verificationToken tokenHash (some token')]
  | user {D : Db} {id : Id} {user user' : User} (hlookup : D.users.lookup id = some user)
      (hemail : user'.email = user.email) (hroles : user'.roles = user.roles)
      (hstatus : user'.status = user.status ∨ user'.status = .DELETED) :
      AccountChanges D [.user id (some user')]
  | logEvent {D : Db} {id : Id} {event : AnalyticsEvent} :
      AccountChanges D [.analyticsEvent id (some event)]
  | append {D : Db} {L L' : List RowWrite} (h : AccountChanges D L)
      (h' : AccountChanges (view L D) L') : AccountChanges D (L ++ L')

namespace AuthService

variable {C : AuthConfig}

theorem changes_issueTokens (userId : Id) (user : User) :
    (issueTokens C userId user).Every AccountChanges :=
  every_issueTokens_of (fun _ _ _ _ hfresh => .openSession hfresh) userId user

theorem changes_rotateTokens (userId : Id) (user : User) (oldHash : String) :
    (rotateTokens C userId user oldHash).Every AccountChanges := by
  refine (every_rotateTokens userId user oldHash).mono fun D L h => ?_
  cases h with
  | @mk new token createdAt revokedAt hfresh hold =>
      have hopened : AccountChanges D [.refreshToken new (some (newToken userId createdAt))] :=
        .openSession hfresh
      exact hopened.append (.session hold rfl)

theorem changes_revokeSessions (userId : Id) (revokedAt : Time) :
    (Proc.transaction (revokeSessions userId revokedAt) : Request Unit).Every AccountChanges :=
  Proc.every_transaction fun _ => wp_revokeSessions .revocation

theorem changes_login (email password : String) :
    (login C email password).Every AccountChanges :=
  every_login_of (fun _ => .nothing) changes_issueTokens email password

theorem changes_refresh (rawRefreshToken : String) :
    (refresh C rawRefreshToken).Every AccountChanges :=
  every_refresh_of (fun _ => .nothing) changes_revokeSessions fun userId user =>
    changes_rotateTokens userId user _

theorem changes_logout (rawRefreshToken : Option String) :
    (logout C rawRefreshToken).Every AccountChanges :=
  every_logout_of (fun _ => .nothing) (fun _ _ _ _ hlookup _ => .session hlookup rfl)
    rawRefreshToken

theorem changes_resetPasswordTx (tokenHash : String) (userId : Id) (passwordHash : String)
    (usedAt revokedAt : Time) : (Proc.transaction (resetPasswordTx tokenHash userId passwordHash
      usedAt revokedAt) : Request Unit).Every AccountChanges := by
  refine Proc.every_transaction fun D => wp_resetPasswordTx fun token user htoken huser => ?_
  have hmarked : AccountChanges D
      [.verificationToken tokenHash (some { token with usedAt := some usedAt })] :=
    .link htoken rfl
  have hstored : AccountChanges D
      [.verificationToken tokenHash (some { token with usedAt := some usedAt }),
        .user userId (some { user with passwordHash })] :=
    hmarked.append (.user huser rfl rfl (.inl rfl))
  exact hstored.append .revocation

theorem changes_resetPassword (rawToken newPassword : String) :
    (resetPassword C rawToken newPassword).Every AccountChanges :=
  every_resetPassword_of (fun _ => .nothing) (changes_resetPasswordTx _) newPassword

theorem changes_changePassword (userId : Id) (currentPassword newPassword : String) :
    (changePassword userId currentPassword newPassword).Every AccountChanges := by
  refine every_changePassword_of (fun _ => .nothing) (fun passwordHash revokedAt => ?_)
    currentPassword newPassword
  refine Proc.every_transaction fun D => wp_changePasswordTx fun user huser => ?_
  have hstored : AccountChanges D [.user userId (some { user with passwordHash })] :=
    .user huser rfl rfl (.inl rfl)
  exact hstored.append .revocation

end AuthService

namespace AuthService

variable {C : AccountConfig}

/-- The batch of `verifyEmail` marks the link and stores when the address was verified. -/
theorem wp_verifyEmailTx {D : Db} {tokenHash : String} {userId : Id}
    {usedAt emailVerifiedAt : Time} {P : Unit → List RowWrite → Prop}
    (h : ∀ token user, D.verificationTokens.lookup tokenHash = some token →
      D.users.lookup userId = some user →
      P () [.verificationToken tokenHash (some { token with usedAt := some usedAt }),
        .user userId (some { user with emailVerifiedAt := some emailVerifiedAt })]) :
    (verifyEmailTx tokenHash userId usedAt emailVerifiedAt).wp
      (still : Discipline Db RowWrite RowRef Unit) D P [] := by
  apply Tx.wp_bind
  apply Db.verificationToken.wp_update
  intro token htoken
  apply Tx.wp_bind
  apply Db.user.wp_update
  intro user huser
  exact h token user htoken huser

theorem every_verifyEmail_of {K : Db → List RowWrite → Prop} {rawToken : String}
    (hnil : ∀ D, K D [])
    (hverify : ∀ userId usedAt emailVerifiedAt, (Proc.transaction
      (verifyEmailTx (C.hashToken rawToken) userId usedAt emailVerifiedAt) : Request Unit).Every K) :
    (verifyEmail C rawToken).Every K := by
  apply (Proc.every_select hnil _).bind
  rintro (_ | record)
  · trivial
  apply (Proc.every_call _).bind
  intro now
  simp only
  split
  · trivial
  apply (Proc.every_call _).bind
  intro usedAt
  apply (Proc.every_call _).bind
  intro emailVerifiedAt
  apply (hverify record.userId usedAt emailVerifiedAt).bind
  intro _
  apply (Proc.every_select hnil _).bind
  rintro (_ | ⟨_, user⟩) <;> trivial

theorem changes_verifyEmail (rawToken : String) :
    (verifyEmail C rawToken).Every AccountChanges := by
  refine every_verifyEmail_of (fun _ => .nothing) fun userId usedAt emailVerifiedAt => ?_
  refine Proc.every_transaction fun D => wp_verifyEmailTx fun token user htoken huser => ?_
  have hmarked : AccountChanges D
      [.verificationToken (C.hashToken rawToken) (some { token with usedAt := some usedAt })] :=
    .link htoken rfl
  exact hmarked.append (.user huser rfl rfl (.inl rfl))

theorem changes_createLink (tokenHash : String) (token : VerificationToken) :
    (Proc.transaction (Db.verificationToken.create tokenHash token) :
      Request VerificationToken).Every AccountChanges := by
  refine Proc.every_transaction fun D => ?_
  apply Db.verificationToken.wp_create
  intro hfresh
  exact .sendLink hfresh

theorem changes_sendVerificationEmail (userId : Id) (user : User) :
    (sendVerificationEmail C userId user).Every AccountChanges := by
  unfold sendVerificationEmail
  split
  · trivial
  apply (Proc.every_call _).bind
  intro rawToken
  apply (Proc.every_call _).bind
  intro now
  exact (changes_createLink _ _).bind fun _ => Proc.every_call _

theorem changes_forgotPassword (email : String) :
    (forgotPassword C email).Every AccountChanges := by
  apply (Proc.every_select (fun _ => .nothing) _).bind
  rintro (_ | ⟨userId, user⟩)
  · trivial
  simp only
  split
  · trivial
  apply (Proc.every_call _).bind
  intro rawToken
  apply (Proc.every_call _).bind
  intro now
  exact (changes_createLink _ _).bind fun _ => Proc.every_call _

end AuthService

theorem SharingService.changes_logSignupConversion (userId : Id) (referralToken : Option String) :
    (logSignupConversion userId referralToken).Every AccountChanges := by
  cases referralToken with
  | none => trivial
  | some token =>
      simp only [logSignupConversion]
      split
      · trivial
      apply (Proc.every_select (fun _ => .nothing) _).bind
      rintro (_ | link)
      · trivial
      apply (Proc.every_call _).bind
      intro eventId
      refine Proc.Every.bind (Proc.every_transaction fun D => ?_) fun _ => trivial
      apply Db.analyticsEvent.wp_create
      intro _
      exact .logEvent

end TaroTria
