import TaroTria.Auth.AuthService

/-!
# What the session requests write

Each transaction of a session request makes one of five changes to the tokens.
-/

namespace TaroTria

open Transactions

/-- The row of a token that a refresh has exchanged for the token `new`. -/
def RefreshToken.replaced (token : RefreshToken) (new : String) (revokedAt : Time) : RefreshToken :=
  { token with revokedAt := some revokedAt, replacedBy := some new }

/-- The writes of a rotation of the token `old`, as its row is when it is updated. -/
inductive Rotation (userId : Id) (old : String) (D : Db) : List RowWrite → Prop
  | mk {new token createdAt revokedAt} (hfresh : D.refreshTokens.lookup new = none)
      (hold : (view [.refreshToken new (some (AuthService.newToken userId createdAt))]
        D).refreshTokens.lookup old = some token) :
      Rotation userId old D [.refreshToken new (some (AuthService.newToken userId createdAt)),
        .refreshToken old (some (token.replaced new revokedAt))]

/-- The writes touch no token. -/
def TokensAside (L : List RowWrite) : Prop :=
  (∀ D : Db, (view L D).refreshTokens = D.refreshTokens) ∧
    ∀ tokenHash row, RowWrite.refreshToken tokenHash row ∉ L

/-- The writes of a request that presents a token for exchange, or none. -/
inductive SessionWrites (presented : Option String) (D : Db) : List RowWrite → Prop
  | nothing : SessionWrites presented D []
  | issue {new userId now} (hfresh : D.refreshTokens.lookup new = none) :
      SessionWrites presented D [.refreshToken new (some (AuthService.newToken userId now))]
  | rotate {userId old L} (hpresented : presented = some old) (h : Rotation userId old D L) :
      SessionWrites presented D L
  | revokeAll {userId revokedAt L} (haside : TokensAside L) :
      SessionWrites presented D (L ++ AuthService.revocationWrites userId revokedAt D)
  | revoke {tokenHash token revokedAt} (htoken : D.refreshTokens.lookup tokenHash = some token)
      (hopen : token.revokedAt = none) :
      SessionWrites presented D
        [.refreshToken tokenHash (some { token with revokedAt := some revokedAt })]

theorem SessionWrites.weaken {presented : Option String} {D : Db} {L : List RowWrite}
    (h : SessionWrites none D L) : SessionWrites presented D L := by
  cases h with
  | nothing => exact .nothing
  | issue hfresh => exact .issue hfresh
  | rotate hpresented h => cases hpresented
  | revokeAll haside => exact .revokeAll haside
  | revoke htoken hopen => exact .revoke htoken hopen

namespace AuthService

variable {C : AuthConfig} {presented : Option String}

/-- The rule for the end of a transaction that revokes all sessions of a user. -/
theorem wp_revokeSessions {D : Db} {userId : Id} {revokedAt : Time}
    {L : List RowWrite} {P : Unit → List RowWrite → Prop}
    (h : P () (L ++ revocationWrites userId revokedAt (view L D))) :
    (revokeSessions userId revokedAt).wp (still : Discipline Db RowWrite RowRef Unit) D P L := by
  rintro D₀ _ ws ⟨-, rfl, -⟩ hs
  cases hs
  exact h

/-- The batch of `resetPassword` marks the link, stores the password and revokes the sessions. -/
theorem wp_resetPasswordTx {D : Db} {tokenHash : String} {userId : Id} {passwordHash : String}
    {usedAt revokedAt : Time} {P : Unit → List RowWrite → Prop}
    (h : ∀ token user, D.verificationTokens.lookup tokenHash = some token →
      D.users.lookup userId = some user →
      P () ([.verificationToken tokenHash (some { token with usedAt := some usedAt }),
        .user userId (some { user with passwordHash })] ++ revocationWrites userId revokedAt D)) :
    (resetPasswordTx tokenHash userId passwordHash usedAt revokedAt).wp
      (still : Discipline Db RowWrite RowRef Unit) D P [] := by
  apply Tx.wp_bind
  apply Db.verificationToken.wp_update
  intro token htoken
  apply Tx.wp_bind
  apply Db.user.wp_update
  intro user huser
  apply wp_revokeSessions
  exact h token user htoken huser

theorem wp_changePasswordTx {D : Db} {userId : Id} {passwordHash : String} {revokedAt : Time}
    {P : Unit → List RowWrite → Prop}
    (h : ∀ user, D.users.lookup userId = some user →
      P () ([.user userId (some { user with passwordHash })] ++
        revocationWrites userId revokedAt D)) :
    (changePasswordTx userId passwordHash revokedAt).wp
      (still : Discipline Db RowWrite RowRef Unit) D P [] := by
  apply Tx.wp_bind
  apply Db.user.wp_update
  intro user huser
  apply wp_revokeSessions
  exact h user huser

/-! ## The requests, by what their transactions write -/

section Requests

variable {K : Db → List RowWrite → Prop}

theorem every_signTokenPair (userId : Id) (user : User) : (signTokenPair userId user).Every K := by
  apply (Proc.every_call _).bind
  intro accessToken
  apply (Proc.every_call _).bind
  intro jti
  exact (Proc.every_call _).bind fun _ => trivial

theorem every_issueTokens_of (hissue : ∀ D tokenHash userId now,
      D.refreshTokens.lookup tokenHash = none →
      K D [.refreshToken tokenHash (some (newToken userId now))])
    (userId : Id) (user : User) : (issueTokens C userId user).Every K := by
  apply (every_signTokenPair userId user).bind
  intro tokens
  apply (Proc.every_call _).bind
  intro now
  refine Proc.Every.bind (Proc.every_transaction fun D => ?_) fun _ => trivial
  apply Db.refreshToken.wp_create
  exact hissue D _ userId now

theorem every_rotateTokens (userId : Id) (user : User) (old : String) :
    (rotateTokens C userId user old).Every (Rotation userId old) := by
  apply (every_signTokenPair userId user).bind
  intro tokens
  apply (Proc.every_call _).bind
  intro createdAt
  apply (Proc.every_call _).bind
  intro revokedAt
  refine Proc.Every.bind (Proc.every_transaction fun D => ?_) fun _ => trivial
  apply Tx.wp_bind
  apply Db.refreshToken.wp_create
  intro hfresh
  apply Tx.wp_bind
  apply Db.refreshToken.wp_update
  intro token htoken
  exact .mk hfresh htoken

theorem every_login_of (hnil : ∀ D, K D [])
    (hissue : ∀ userId user, (issueTokens C userId user).Every K) (email password : String) :
    (login C email password).Every K := by
  apply (Proc.every_select hnil _).bind
  rintro (_ | ⟨userId, user⟩)
  · exact (Proc.every_call _).bind fun _ => trivial
  apply (Proc.every_call _).bind
  intro passwordValid
  simp only
  split
  · trivial
  · exact (hissue userId user).bind fun _ => trivial

theorem every_refresh_of {rawRefreshToken : String} (hnil : ∀ D, K D [])
    (hrevoke : ∀ userId revokedAt,
      (Proc.transaction (revokeSessions userId revokedAt) : Request Unit).Every K)
    (hrotate : ∀ userId user,
      (rotateTokens C userId user (C.hashToken rawRefreshToken)).Every K) :
    (refresh C rawRefreshToken).Every K := by
  refine Proc.Every.bind (Proc.Every.handle (Proc.every_call _) fun _ => trivial) ?_
  rintro (_ | sub)
  · trivial
  apply (Proc.every_select hnil _).bind
  rintro (_ | existing)
  · trivial
  simp only
  split
  · apply (Proc.every_call _).bind
    intro revokedAt
    exact (hrevoke _ _).bind fun _ => trivial
  apply (Proc.every_select hnil _).bind
  rintro (_ | ⟨userId, user⟩)
  · trivial
  simp only
  split
  · trivial
  · exact (hrotate userId user).bind fun _ => trivial

theorem every_logout_of (hnil : ∀ D, K D [])
    (hrevoke : ∀ D tokenHash token revokedAt, D.refreshTokens.lookup tokenHash = some token →
      token.revokedAt = none →
      K D [.refreshToken tokenHash (some { token with revokedAt := some revokedAt })])
    (rawRefreshToken : Option String) : (logout C rawRefreshToken).Every K := by
  cases rawRefreshToken with
  | none => trivial
  | some raw =>
      simp only [logout]
      split
      · trivial
      apply (Proc.every_call _).bind
      intro revokedAt
      refine Proc.Every.bind (Proc.every_transaction fun D => ?_) fun _ => trivial
      apply Db.refreshToken.wp_updateMany
      · exact fun _ _ _ => hnil D
      · intro token htoken hopen
        exact hrevoke D _ token revokedAt htoken (by simpa using hopen)

theorem every_resetPassword_of {rawToken : String} (hnil : ∀ D, K D [])
    (hreset : ∀ userId passwordHash usedAt revokedAt, (Proc.transaction (resetPasswordTx
      (C.hashToken rawToken) userId passwordHash usedAt revokedAt) : Request Unit).Every K)
    (newPassword : String) : (resetPassword C rawToken newPassword).Every K := by
  apply (Proc.every_select hnil _).bind
  rintro (_ | record)
  · trivial
  apply (Proc.every_call _).bind
  intro now
  simp only
  split
  · trivial
  apply (Proc.every_select hnil _).bind
  rintro (_ | ⟨userId, user⟩)
  · trivial
  simp only
  split
  · trivial
  apply (Proc.every_call _).bind
  intro passwordHash
  apply (Proc.every_call _).bind
  intro usedAt
  apply (Proc.every_call _).bind
  intro revokedAt
  exact hreset record.userId passwordHash usedAt revokedAt

theorem every_changePassword_of {userId : Id} (hnil : ∀ D, K D [])
    (hchange : ∀ passwordHash revokedAt, (Proc.transaction
      (changePasswordTx userId passwordHash revokedAt) : Request Unit).Every K)
    (currentPassword newPassword : String) :
    (changePassword userId currentPassword newPassword).Every K := by
  apply (Proc.every_select hnil _).bind
  rintro (_ | ⟨userId', user⟩)
  · trivial
  apply (Proc.every_call _).bind
  intro passwordValid
  simp only
  split
  · trivial
  apply (Proc.every_call _).bind
  intro passwordHash
  apply (Proc.every_call _).bind
  intro revokedAt
  exact hchange passwordHash revokedAt

end Requests

/-! ## The changes of tokens -/

theorem every_revokeSessions (userId : Id) (revokedAt : Time) :
    (Proc.transaction (revokeSessions userId revokedAt) : Request Unit).Every
      (SessionWrites presented) := by
  refine Proc.every_transaction fun D => wp_revokeSessions ?_
  exact .revokeAll ⟨fun _ => rfl, by simp⟩

theorem every_login (email password : String) :
    (login C email password).Every (SessionWrites presented) :=
  every_login_of (fun _ => .nothing)
    (every_issueTokens_of fun _ _ _ _ hfresh => .issue hfresh) email password

theorem every_refresh (rawRefreshToken : String) : (refresh C rawRefreshToken).Every
    (SessionWrites (some (C.hashToken rawRefreshToken))) :=
  every_refresh_of (fun _ => .nothing) every_revokeSessions fun userId user =>
    (every_rotateTokens userId user _).mono fun _ _ h => .rotate rfl h

theorem every_logout (rawRefreshToken : Option String) :
    (logout C rawRefreshToken).Every (SessionWrites presented) :=
  every_logout_of (fun _ => .nothing) (fun _ _ _ _ htoken hopen => .revoke htoken hopen)
    rawRefreshToken

theorem every_resetPassword (rawToken newPassword : String) :
    (resetPassword C rawToken newPassword).Every (SessionWrites presented) := by
  refine every_resetPassword_of (fun _ => .nothing) (fun userId passwordHash usedAt revokedAt => ?_)
    newPassword
  refine Proc.every_transaction fun D => wp_resetPasswordTx fun token user _ _ => ?_
  exact .revokeAll ⟨fun _ => rfl, by simp⟩

theorem every_changePassword (userId : Id) (currentPassword newPassword : String) :
    (changePassword userId currentPassword newPassword).Every (SessionWrites presented) := by
  refine every_changePassword_of (fun _ => .nothing) (fun passwordHash revokedAt => ?_)
    currentPassword newPassword
  refine Proc.every_transaction fun D => wp_changePasswordTx fun user _ => ?_
  exact .revokeAll ⟨fun _ => rfl, by simp⟩

end AuthService

namespace AuthCall

variable (C : AuthConfig)

/-- The token that a call presents for exchange. -/
def presents : AuthCall → Option String
  | refresh rawRefreshToken => some (C.hashToken rawRefreshToken)
  | _ => none

theorem every_sessionWrites (c : AuthCall) : (c.prog C).Every (SessionWrites (c.presents C)) := by
  cases c with
  | login email password =>
      exact (AuthService.every_login email password).bind fun _ => trivial
  | refresh rawRefreshToken =>
      exact (AuthService.every_refresh rawRefreshToken).bind fun _ => trivial
  | logout rawRefreshToken => exact AuthService.every_logout rawRefreshToken
  | resetPassword rawToken newPassword =>
      exact AuthService.every_resetPassword rawToken newPassword
  | changePassword userId currentPassword newPassword =>
      exact AuthService.every_changePassword userId currentPassword newPassword

end AuthCall

end TaroTria
