import TaroTria.Auth.AccountRoutes
import TaroTria.Transactions.Follow

/-!
# Deleted accounts

A deletion sets the status of the account and revokes its open sessions in one batch. Requests
that were being served when it committed go on: a login that had read the account before still
opens a session afterwards, a rotation still exchanges one. What keeps the account closed is
that every route that needs it reads its status again.
-/

namespace TaroTria

open Transactions

/-! ## What a request may tell of a deleted account -/

def accountDiscipline (Call : Type) : Discipline Db RowWrite RowRef Call where
  Mono := AccountsStay
  mono_refl := .refl
  mono_trans := .trans
  Inv := EmailsUnique
  inv_mono h := h.unique
  Effect _ D L := AccountsStay D (view L D)
  mono_effect h := h

/-- A result is in relation `Q` to every account that was deleted at `D₀`. -/
def ForDeleted {α : Type} (D₀ : Db) (Q : α → Id → String → Db → Prop) (r : Except Err α)
    (D : Db) : Prop :=
  ∀ a id email, r = .ok a → AccountDeleted D₀ id email → Q a id email D

theorem forDeleted_error {α : Type} {D₀ D : Db} {Q : α → Id → String → Db → Prop} {e : Err} :
    ForDeleted D₀ Q (.error e) D := fun _ _ _ h => by cases h

section Follows

variable {α β Call : Type} {c : Call} {D : Db}

theorem Staying.follows {P : Except Err α → Db → Prop} {p : Request α} (h : Staying p)
    (hP : ∀ r D', AccountsStay D D' → P r D') :
    p.Follows (accountDiscipline Call) c P D :=
  Proc.Every.follows h (fun _ _ _ hstay _ => hstay) hP

theorem follows_changes {P : Except Err α → Db → Prop} {p : Request α}
    (h : p.Every AccountChanges) (hP : ∀ r D', AccountsStay D D' → P r D') :
    p.Follows (accountDiscipline Call) c P D :=
  (Staying.of_changes h).follows hP

namespace AuthService

variable (C : AuthConfig)

theorem shutsOut_login (email password : String) :
    (login C email password).Follows (accountDiscipline Call) c
      (ForDeleted D fun result id address _ =>
        C.normalizeEmail email ≠ address ∧ result.user.id ≠ id) D := by
  refine Proc.Follows.bind (Proc.follows_select (fun _ _ _ => forDeleted_error)
    fun D₁ D₂ h₁ hunique h₂ => ?_)
  cases hfound : (D₁.users.findMany fun _ user => user.email = C.normalizeEmail email).head? with
  | none =>
      refine Proc.Follows.bind (Proc.follows_call fun r D₃ h₃ => ?_)
      cases r with
      | error e => exact forDeleted_error
      | ok passwordHash => exact fun _ _ => forDeleted_error
  | some row =>
      obtain ⟨userId, user⟩ := row
      obtain ⟨hlookup, hemail⟩ := (Table.mem_findMany _ _ _ _).mp (List.mem_of_mem_head? hfound)
      refine Proc.Follows.bind (Proc.follows_call fun r D₃ h₃ => ?_)
      cases r with
      | error e => exact forDeleted_error
      | ok passwordValid =>
          simp only
          split
          · exact fun _ _ => forDeleted_error
          rename_i hactive
          simp only [Bool.or_eq_true, decide_eq_true_eq, not_or, not_not] at hactive
          refine Proc.Follows.bind (follows_changes (changes_issueTokens userId user) fun r D₄ h₄ => ?_)
          cases r with
          | error e => exact forDeleted_error
          | ok tokens =>
              intro D₅ h₅ result id address hresult hdeleted
              cases hresult
              have hdeleted₁ := hdeleted.later h₁
              have hne := hdeleted₁.ne_of_active hlookup hactive.2
              refine ⟨fun hsame => ?_, hne⟩
              obtain ⟨user', hlookup', hemail', -⟩ := hdeleted₁
              exact hne (hunique _ _ _ _ hlookup hlookup'
                ((of_decide_eq_true hemail).trans (hsame.trans hemail'.symm)))

theorem shutsOut_refresh (raw : String) :
    (refresh C raw).Follows (accountDiscipline Call) c
      (ForDeleted D fun result id _ D' => result.user.id ≠ id ∧
        ∃ session, D'.refreshTokens.lookup (C.hashToken raw) = some session ∧
          session.userId ≠ id) D := by
  have hverify : Staying ((Proc.call (Query.verifyRefreshToken raw)).handle fun _ => pure none) :=
    Proc.Every.handle (Proc.every_call _) fun _ => trivial
  refine Proc.Follows.bind (hverify.follows fun r D₁ h₁ => ?_)
  rcases r with e | _ | sub
  · exact forDeleted_error
  · exact fun _ _ => forDeleted_error
  refine Proc.Follows.bind (Proc.follows_select (fun _ _ _ => forDeleted_error)
    fun D₂ D₃ h₂ _ h₃ => ?_)
  simp only
  cases hsession : Db.refreshToken.find D₂ (C.hashToken raw) with
  | none => exact fun _ _ => forDeleted_error
  | some existing =>
      simp only
      split
      · refine Proc.Follows.bind (Proc.follows_call fun r D₄ h₄ => ?_)
        cases r with
        | error e => exact forDeleted_error
        | ok revokedAt =>
            refine Proc.Follows.bind (follows_changes (changes_revokeSessions _ _) fun r D₅ h₅ => ?_)
            cases r with
            | error e => exact forDeleted_error
            | ok _ => exact fun _ _ => forDeleted_error
      refine Proc.Follows.bind (Proc.follows_select (fun _ _ _ => forDeleted_error)
        fun D₄ D₅ h₄ _ h₅ => ?_)
      simp only
      cases hlookup : D₄.users.lookup existing.userId with
      | none => exact fun _ _ => forDeleted_error
      | some user =>
          simp only [Option.map_some]
          split
          · exact fun _ _ => forDeleted_error
          rename_i hvalid
          simp only [not_or, not_not] at hvalid
          refine Proc.Follows.bind (follows_changes (changes_rotateTokens _ _ _) fun r D₆ h₆ => ?_)
          cases r with
          | error e => exact forDeleted_error
          | ok tokens =>
              intro D₇ h₇ result id address hresult hdeleted
              cases hresult
              have hlater : AccountsStay D D₄ := h₁.trans (h₂.trans (h₃.trans h₄))
              have hne := (hdeleted.later hlater).ne_of_active hlookup hvalid.1
              -- The row that was read is still there, with its owner.
              have hlast : AccountsStay D₂ D₇ := h₃.trans (h₄.trans (h₅.trans (h₆.trans h₇)))
              obtain ⟨session, hrow, howner⟩ := hlast.sessions _ _ hsession
              exact ⟨hne, session, hrow, fun hsame => hne (howner.symm.trans hsame)⟩

theorem shutsOut_resetPassword (rawToken newPassword : String) :
    (resetPassword C rawToken newPassword).Follows (accountDiscipline Call) c
      (ForDeleted D fun _ id _ D' => ∃ link,
        D'.verificationTokens.lookup (C.hashToken rawToken) = some link ∧ link.userId ≠ id) D := by
  refine Proc.Follows.bind (Proc.follows_select (fun _ _ _ => forDeleted_error)
    fun D₁ D₂ h₁ _ h₂ => ?_)
  simp only
  cases hlink : Db.verificationToken.find D₁ (C.hashToken rawToken) with
  | none => exact fun _ _ => forDeleted_error
  | some record =>
      refine Proc.Follows.bind (Proc.follows_call fun r D₃ h₃ => ?_)
      cases r with
      | error e => exact forDeleted_error
      | ok now =>
          simp only
          split
          · exact fun _ _ => forDeleted_error
          refine Proc.Follows.bind (Proc.follows_select (fun _ _ _ => forDeleted_error)
            fun D₄ D₅ h₄ _ h₅ => ?_)
          simp only
          cases hlookup : D₄.users.lookup record.userId with
          | none => exact fun _ _ => forDeleted_error
          | some user =>
              simp only [Option.map_some]
              split
              · exact fun _ _ => forDeleted_error
              rename_i hactive
              have hne : ∀ {id address}, AccountDeleted D id address → record.userId ≠ id :=
                fun hdeleted => (hdeleted.later (h₁.trans (h₂.trans (h₃.trans h₄)))).ne_of_active
                  hlookup (not_not.mp hactive)
              have hcalls : Proc.Every AccountChanges (do
                  let passwordHash ← Proc.call (.hashPassword newPassword)
                  let usedAt ← Proc.call .now
                  let revokedAt ← Proc.call .now
                  Proc.transaction (resetPasswordTx (C.hashToken rawToken) record.userId
                    passwordHash usedAt revokedAt) : Request Unit) := by
                apply (Proc.every_call _).bind
                intro passwordHash
                apply (Proc.every_call _).bind
                intro usedAt
                apply (Proc.every_call _).bind
                intro revokedAt
                exact changes_resetPasswordTx _ _ _ _ _
              refine follows_changes hcalls fun r D₆ h₆ => ?_
              intro _ id address _ hdeleted
              have hlast : AccountsStay D₁ D₆ := h₂.trans (h₃.trans (h₄.trans (h₅.trans h₆)))
              obtain ⟨link, hrow, howner⟩ := hlast.links _ _ hlink
              exact ⟨link, hrow, fun hsame => hne hdeleted (howner.symm.trans hsame)⟩

/-- The session of a new account, and the mails that may follow. -/
theorem shutsOut_openSession {C : AccountConfig} (id : Id) (referralToken : Option String)
    (D₀ : Db) (hnew : ∀ i address, AccountDeleted D₀ i address → id ≠ i) :
    (openSession C id referralToken).Follows (accountDiscipline Call) c
      (ForDeleted D₀ fun result i _ _ => result.user.id ≠ i) D := by
  refine Proc.Follows.bind (Proc.follows_select (fun _ _ _ => forDeleted_error)
    fun D₁ D₂ _ _ _ => ?_)
  cases D₁.users.lookup id with
  | none => exact fun _ _ => forDeleted_error
  | some user =>
      refine Proc.Follows.bind (follows_changes (changes_issueTokens id user) fun r D₃ _ => ?_)
      cases r with
      | error e => exact forDeleted_error
      | ok tokens =>
          have hemail := Proc.Every.handle (changes_sendVerificationEmail (C := C) id user)
            (f := fun _ => pure ()) fun _ => trivial
          have hsignup := Proc.Every.handle
            (SharingService.changes_logSignupConversion id referralToken)
            (f := fun _ => pure ()) fun _ => trivial
          refine Proc.Follows.bind (follows_changes hemail fun r D₄ _ => ?_)
          cases r with
          | error e => exact forDeleted_error
          | ok _ =>
              refine Proc.Follows.bind (follows_changes hsignup fun r D₅ _ => ?_)
              cases r with
              | error e => exact forDeleted_error
              | ok _ =>
                  intro D₆ _ result i address hresult hdeleted
                  cases hresult
                  exact hnew i address hdeleted

theorem shutsOut_createUser {C : AccountConfig} (id : Id) (email name passwordHash : String)
    (createdAt : Time) (D₀ : Db) (h₀ : AccountsStay D₀ D) :
    (Proc.transaction (UsersService.create C.toAuthConfig id email name passwordHash createdAt) :
      Request User).Follows (accountDiscipline Call) c
        (ForDeleted D₀ fun _ i _ _ => id ≠ i) D := by
  refine Proc.follows_transaction (fun _ _ _ => forDeleted_error) fun D₁ h₁ _ => ?_
  unfold UsersService.create UsersService.findByEmail
  apply Tx.wp_bind
  apply Tx.wp_select
  rintro D₂ ⟨-, rfl, -⟩
  cases hfound : (D₂.users.findMany fun _ user => user.email = C.normalizeEmail email).head? with
  | some row => simp [hfound]
  | none =>
      simp only [view_nil, hfound, Option.isSome_none, Bool.false_eq_true, if_false]
      apply Db.user.wp_create
      intro hfresh
      have hfree : ∀ i row, D₂.users.lookup i = some row → row.email ≠ C.normalizeEmail email :=
        findByEmail_eq_none.mp hfound
      exact ⟨fun _ => .create hfresh hfree, fun D₃ _ _ i address _ hdeleted =>
        (hdeleted.later (h₀.trans h₁)).ne_of_fresh hfresh⟩

theorem shutsOut_register {C : AccountConfig} (name email password : String)
    (referralToken : Option String) :
    (register C name email password referralToken).Follows (accountDiscipline Call) c
      (ForDeleted D fun result id address _ =>
        C.normalizeEmail email ≠ address ∧ result.user.id ≠ id) D := by
  rw [register_eq]
  refine Proc.Follows.bind (Proc.follows_select (fun _ _ _ => forDeleted_error)
    fun D₁ D₂ h₁ _ h₂ => ?_)
  cases hfound : (D₁.users.findMany fun _ user => user.email = C.normalizeEmail email).head? with
  | some row => exact fun _ _ => forDeleted_error
  | none =>
      have hfree : ∀ {id address}, AccountDeleted D id address →
          C.normalizeEmail email ≠ address := by
        intro id address hdeleted hsame
        obtain ⟨user, hlookup, haddress, -⟩ := hdeleted.later h₁
        exact findByEmail_eq_none.mp hfound id user hlookup (haddress.trans hsame.symm)
      simp only [Option.isSome_none, Bool.false_eq_true, if_false]
      refine Proc.Follows.bind (Proc.follows_call fun r D₃ h₃ => ?_)
      cases r with
      | error e => exact forDeleted_error
      | ok passwordHash =>
          refine Proc.Follows.bind (Proc.follows_call fun r D₄ h₄ => ?_)
          cases r with
          | error e => exact forDeleted_error
          | ok id =>
              refine Proc.Follows.bind (Proc.follows_call fun r D₅ h₅ => ?_)
              cases r with
              | error e => exact forDeleted_error
              | ok createdAt =>
                  have h₀ := h₁.trans (h₂.trans (h₃.trans (h₄.trans h₅)))
                  refine Proc.Follows.bind ((shutsOut_createUser id email name passwordHash
                    createdAt D h₀).mono fun r D₆ hnew => ?_)
                  cases r with
                  | error e => exact forDeleted_error
                  | ok user =>
                      refine Proc.Follows.bind ((UsersService.staying_assignRole id "USER").follows
                        fun r D₇ _ => ?_)
                      cases r with
                      | error e => exact forDeleted_error
                      | ok _ =>
                          refine Proc.Follows.bind ((staying_createWalletWithBonus id _).follows
                            fun r D₈ _ => ?_)
                          cases r with
                          | error e => exact forDeleted_error
                          | ok _ =>
                              refine (shutsOut_openSession id referralToken D fun i address =>
                                hnew user i address rfl).mono fun r D₉ hsession => ?_
                              exact fun result i address hresult hdeleted =>
                                ⟨hfree hdeleted, hsession result i address hresult hdeleted⟩

end AuthService

theorem JwtAuthGuard.shutsOut_canActivate (C : GuardConfig) (token : Option String) :
    (canActivate C token).Follows (accountDiscipline Call) c
      (ForDeleted D fun user id _ _ => user.id ≠ id ∧
        ∃ raw now, token = some raw ∧ C.verifyAccessToken now raw = some user.id) D := by
  unfold canActivate
  cases htoken : token.filter fun raw => raw ≠ "" with
  | none => exact fun _ _ => forDeleted_error
  | some raw =>
      refine Proc.Follows.bind (Proc.follows_call fun r D₁ h₁ => ?_)
      cases r with
      | error e => exact forDeleted_error
      | ok now =>
          simp only
          cases hsub : C.verifyAccessToken now raw with
          | none => exact fun _ _ => forDeleted_error
          | some sub =>
              refine Proc.Follows.bind (Proc.follows_select (fun _ _ _ => forDeleted_error)
                fun D₂ D₃ h₂ _ h₃ => ?_)
              simp only
              cases hlookup : D₂.users.lookup sub with
              | none => exact fun _ _ => forDeleted_error
              | some user =>
                  simp only [Option.map_some]
                  split
                  · exact fun _ _ => forDeleted_error
                  rename_i hactive
                  intro D₄ _ currentUser id address hresult hdeleted
                  cases hresult
                  exact ⟨(hdeleted.later (h₁.trans h₂)).ne_of_active hlookup (not_not.mp hactive),
                    raw, now, (Option.filter_eq_some_iff.mp htoken).1, hsub⟩

theorem AuthController.shutsOut_refresh (C : GuardConfig) (refreshToken : Option String) :
    (refresh C refreshToken).Follows (accountDiscipline Call) c
      (ForDeleted D fun result id _ D' => result.user.id ≠ id ∧ ∃ raw session,
        refreshToken = some raw ∧ D'.refreshTokens.lookup (C.hashToken raw) = some session ∧
          session.userId ≠ id) D := by
  unfold refresh
  cases htoken : refreshToken.filter fun raw => raw ≠ "" with
  | none => exact fun _ _ => forDeleted_error
  | some raw =>
      refine (AuthService.shutsOut_refresh C.toAuthConfig raw).mono
        fun r D' h result id address hresult hdeleted => ?_
      obtain ⟨hne, session, hrow, howner⟩ := h result id address hresult hdeleted
      exact ⟨hne, raw, session, (Option.filter_eq_some_iff.mp htoken).1, hrow, howner⟩

end Follows

section Requests

variable {Route : Type} {C : GuardConfig} {others : Route → AuthenticatedUser → Request Unit}

/-- A route that leaves the accounts and their tokens alone. -/
abbrev LeavesAccounts {α : Type} (p : Request α) : Prop :=
  p.Every fun D L => (view L D).users = D.users ∧ (view L D).refreshTokens = D.refreshTokens ∧
    (view L D).verificationTokens = D.verificationTokens

theorem LeavesAccounts.staying {α : Type} {p : Request α} (h : LeavesAccounts p) : Staying p :=
  h.mono fun _ _ hsame => .of_eq hsame.1 hsame.2.1 hsame.2.2

theorem GuardedRoute.staying_prog (hothers : ∀ route user, LeavesAccounts (others route user))
    (route : GuardedRoute Route) (currentUser : AuthenticatedUser) :
    Staying (route.prog others currentUser) := by
  cases route with
  | me =>
      refine Proc.Every.bind ?_ fun _ => trivial
      apply (staying_select _).bind
      rintro (_ | ⟨id, user⟩) <;> trivial
  | changePassword currentPassword newPassword =>
      exact (Staying.of_changes (AuthService.changes_changePassword _ _ _)).bind fun _ => trivial
  | updateMe name =>
      exact (Staying.of_changes (UsersService.changes_updateProfile _ _)).bind fun _ => trivial
  | deleteMe =>
      exact (Staying.of_changes (UsersService.changes_softDelete _)).bind fun _ => trivial
  | other requiredRoles route =>
      apply (Proc.every_ofExcept _).bind
      intro _
      exact (hothers route currentUser).staying.bind fun _ => trivial

/-- The request needs the account `id`, whose address is `email`: it names the address, or
it presents a token that is the account's. -/
def AccountRequest.Concerns (C : GuardConfig) (id : Id) (email : String) (D : Db) :
    AccountRequest Route → Prop
  | register _ address _ _ => C.normalizeEmail address = email
  | login address _ => C.normalizeEmail address = email
  | refresh refreshToken => ∃ raw session, refreshToken = some raw ∧
      D.refreshTokens.lookup (C.hashToken raw) = some session ∧ session.userId = id
  | resetPassword rawToken _ => ∃ link,
      D.verificationTokens.lookup (C.hashToken rawToken) = some link ∧ link.userId = id
  | guarded accessToken _ => ∃ raw, accessToken = some raw ∧
      ∀ now sub, C.verifyAccessToken now raw = some sub → sub = id
  | logout _ => False
  | verifyEmail _ => False
  | forgotPassword _ => False

/-- The answers of a request are about no account that was deleted at `D₀`. -/
def AccountRequest.ShutsOut (C : GuardConfig) (c : AccountRequest Route) (D₀ : Db) :
    Except Err AccountAnswer → Db → Prop :=
  ForDeleted D₀ fun answer id email D => ¬ c.Concerns C id email D ∧
    ∀ result, answer = .signedIn result → result.user.id ≠ id

/-- The answer of a request that goes through. -/
theorem follows_answer {α Call : Type} {c : Call} {p : Request α} {f : α → AccountAnswer}
    {D₀ D : Db} {Q : α → Id → String → Db → Prop} {Q' : AccountAnswer → Id → String → Db → Prop}
    (hp : p.Follows (accountDiscipline Call) c (ForDeleted D₀ Q) D)
    (hf : ∀ a id email D' D'', AccountsStay D' D'' → Q a id email D' → Q' (f a) id email D'') :
    (p >>= fun a => pure (f a)).Follows (accountDiscipline Call) c (ForDeleted D₀ Q') D := by
  refine Proc.Follows.bind (hp.mono fun r D' h => ?_)
  cases r with
  | error e => exact forDeleted_error
  | ok a =>
      intro D'' hstay answer id email hanswer hdeleted
      cases hanswer
      exact hf a id email D' D'' hstay (h a id email rfl hdeleted)

theorem AccountRequest.follows_prog (hothers : ∀ route user, LeavesAccounts (others route user))
    (c : AccountRequest Route) (D : Db) :
    (c.prog C others).Follows (accountDiscipline (AccountRequest Route)) c (c.ShutsOut C D) D := by
  cases c with
  | register name email password referralToken =>
      refine follows_answer (AuthService.shutsOut_register name email password referralToken)
        fun result id address _ _ _ h => ⟨h.1, fun _ hsame => ?_⟩
      cases hsame
      exact h.2
  | login email password =>
      refine follows_answer (AuthService.shutsOut_login C.toAuthConfig email password)
        fun result id address _ _ _ h => ⟨h.1, fun _ hsame => ?_⟩
      cases hsame
      exact h.2
  | refresh refreshToken =>
      refine follows_answer (AuthController.shutsOut_refresh C refreshToken)
        fun result id address D' D'' hstay h => ⟨?_, fun _ hsame => ?_⟩
      · obtain ⟨-, raw, session, hraw, hrow, howner⟩ := h
        rintro ⟨raw', session', hraw', hrow', howner'⟩
        cases hraw.symm.trans hraw'
        obtain ⟨later, hlater, hkept⟩ := hstay.sessions _ _ hrow
        cases hlater.symm.trans hrow'
        exact howner (hkept.symm.trans howner')
      · cases hsame
        exact h.1
  | resetPassword rawToken newPassword =>
      refine follows_answer (AuthService.shutsOut_resetPassword C.toAuthConfig rawToken newPassword)
        fun _ id address D' D'' hstay h => ⟨?_, fun _ hsame => by cases hsame⟩
      obtain ⟨link, hrow, howner⟩ := h
      rintro ⟨link', hrow', howner'⟩
      obtain ⟨later, hlater, hkept⟩ := hstay.links _ _ hrow
      cases hlater.symm.trans hrow'
      exact howner (hkept.symm.trans howner')
  | logout refreshToken =>
      exact follows_answer (Q := fun _ _ _ _ => True)
        (follows_changes (AuthService.changes_logout refreshToken) fun _ _ _ _ _ _ _ _ => trivial)
        fun _ _ _ _ _ _ _ => ⟨False.elim, fun _ hsame => by cases hsame⟩
  | verifyEmail rawToken =>
      exact follows_answer (Q := fun _ _ _ _ => True)
        (follows_changes (AuthService.changes_verifyEmail rawToken) fun _ _ _ _ _ _ _ _ => trivial)
        fun _ _ _ _ _ _ _ => ⟨False.elim, fun _ hsame => by cases hsame⟩
  | forgotPassword email =>
      exact follows_answer (Q := fun _ _ _ _ => True)
        (follows_changes (AuthService.changes_forgotPassword email) fun _ _ _ _ _ _ _ _ => trivial)
        fun _ _ _ _ _ _ _ => ⟨False.elim, fun _ hsame => by cases hsame⟩
  | guarded accessToken route =>
      refine Proc.Follows.bind ((JwtAuthGuard.shutsOut_canActivate C accessToken).mono
        fun r D' h => ?_)
      cases r with
      | error e => exact forDeleted_error
      | ok currentUser =>
          refine follows_answer (Q := fun _ id email _ => currentUser.id ≠ id ∧ ∃ raw now,
              accessToken = some raw ∧ C.verifyAccessToken now raw = some currentUser.id)
            ((route.staying_prog hothers currentUser).follows fun _ _ _ _ id email _ hdeleted =>
              h currentUser id email rfl hdeleted) fun shown id email _ _ _ hguard =>
                ⟨?_, fun _ hsame => by cases shown <;> cases hsame⟩
          obtain ⟨hne, raw, now, hraw, hsub⟩ := hguard
          rintro ⟨raw', hraw', hall⟩
          cases hraw.symm.trans hraw'
          exact hne (hall now _ hsub)

abbrev AccountPool (Route : Type) :=
  Pool Db RowWrite Err (AccountRequest Route) Answer AccountAnswer

/-- No request that starts after the deletion of an account and needs it is answered, whatever
other requests do at the same time and whichever of them had begun before; and the account
stays deleted. -/
theorem deletion_final (C : GuardConfig) (others : Route → AuthenticatedUser → Request Unit)
    (hothers : ∀ route user, LeavesAccounts (others route user)) (D : Db) (hD : EmailsUnique D)
    (s s' : AccountPool Route)
    (run : Pool.Reach (AccountRequest.prog C others) (fun _ => True) (fun _ _ => True) (.idle D) s)
    (run' : Pool.Reach (AccountRequest.prog C others) (fun _ => True) (fun _ _ => True) s s')
    (id : Id) (email : String) (hdeleted : AccountDeleted s.db id email) :
    AccountDeleted s'.db id email ∧
      ∀ t k answer, s.tasks t = none → s'.tasks t = some k → k.rest = .ret answer →
        ¬ k.call.Concerns C id email s'.db ∧
          ∀ result, answer = .signedIn result → result.user.id ≠ id := by
  let G := accountDiscipline (AccountRequest Route)
  have hprog : ∀ (c : AccountRequest Route), True → ∀ D', G.Inv D' →
      (c.prog C others).Follows G c (fun _ _ => True) D' := fun c _ D' _ =>
    (c.follows_prog hothers D').mono fun _ _ _ => trivial
  have hstart : G.Inv (Pool.idle D : AccountPool Route).db := hD
  obtain ⟨hfollowing, hist, -, hpath⟩ :=
    run.following (fun _ _ => trivial) hprog hstart (Pool.following_idle D)
  have hunique : G.Inv s.db := (G.path_mono hpath).unique hD
  -- From the deletion on, what is committed stays as well.
  have hinv : (G.since s.db).Inv s.db := ⟨hunique, .refl s.db⟩
  have hsince : s.Following (G.since s.db) (fun _ => True) fun _ _ _ => True :=
    ⟨hfollowing.called, fun t k ht => (hfollowing.follows t k ht).since⟩
  have hprog' : ∀ (c : AccountRequest Route), True → ∀ D', (G.since s.db).Inv D' →
      (c.prog C others).Follows (G.since s.db) c (fun _ _ => True) D' :=
    fun c hc D' hD' => (hprog c hc D' hD'.1).since
  have hends : ∀ (c : AccountRequest Route), True → ∀ D', (G.since s.db).Inv D' →
      (c.prog C others).Follows (G.since s.db) c (c.ShutsOut C s.db) D' := fun c _ D' hD' =>
    ((c.follows_prog hothers D').mono fun r D'' h answer i address hanswer hthen =>
      h answer i address hanswer (hthen.later hD'.2)).since
  obtain ⟨-, hist', -, hpath'⟩ := run'.following (fun _ _ => trivial) hprog' hinv hsince
  refine ⟨hdeleted.later ((G.since s.db).path_mono hpath'), fun t k answer hfree ht hrest => ?_⟩
  have hfollows := run'.follows_at (fun _ _ => trivial) hprog' hends hinv hsince
    (by simp [hfree]) k ht
  rw [hrest] at hfollows
  exact hfollows s'.db (.refl s'.db) answer id email rfl hdeleted

end Requests

/-- A configuration for concrete runs, with one valid access token. -/
def sampleGuard : GuardConfig :=
  { sampleAccounts with
    verifyAccessToken := fun _ raw => if raw = "access" then some "ana" else none }

/-- The opening of a wallet, as the other route of concrete runs. -/
def openWallet (_ : Unit) (currentUser : AuthenticatedUser) : Request Unit :=
  Proc.transaction (WalletService.createWalletWithBonus currentUser.id 3)

theorem leavesAccounts_openWallet (route : Unit) (currentUser : AuthenticatedUser) :
    LeavesAccounts (openWallet route currentUser) := by
  refine Proc.every_transaction fun D => ?_
  apply WalletService.wp_createWalletWithBonus
  intro _ _
  unfold WalletService.bonusWrites
  split <;> exact ⟨rfl, rfl, rfl⟩

theorem emailsUnique_sampleSession : EmailsUnique sampleSession := by
  have only : ∀ id user, sampleSession.users.lookup id = some user → id = "ana" := by
    intro id user hlookup
    by_contra hne
    simp [sampleSession, Table.lookup_write_of_ne _ _ hne] at hlookup
  intro id user id' user' hlookup hlookup' _
  rw [only id user hlookup, only id' user' hlookup']

/-- A login reads the account before its deletion and opens a session after it. The session is
open, and its token is refused. -/
theorem deletion_final_of_login : ∃ (s' : AccountPool Unit) (session : RefreshToken)
    (k : Task Db RowWrite Err (AccountRequest Unit) Answer AccountAnswer),
    s'.db.refreshTokens.lookup "t1" = some session ∧ session.userId = "ana" ∧
      session.revokedAt = none ∧ s'.tasks 2 = some k ∧ k.call = .refresh (some "t1") ∧
      ∀ answer, k.rest ≠ .ret answer := by
  obtain ⟨s, s', session, k, hs, hdeleted, hfree, hs', hrow, howner, hopen, hk, hcall⟩ :
      ∃ (s s' : AccountPool Unit) (session : RefreshToken)
        (k : Task Db RowWrite Err (AccountRequest Unit) Answer AccountAnswer),
        Pool.run (AccountRequest.prog sampleGuard openWallet) Pool.unchecked (.idle sampleSession)
          ([.spawn 0 (.login "ana@example.com" "secret")] ++
            List.replicate 2 (.go 0 .done (sessionAnswer "t1")) ++
            [.spawn 1 (.guarded (some "access") .deleteMe)] ++
            List.replicate 4 (.go 1 .done (sessionAnswer "t1"))) = some s ∧
        AccountDeleted s.db "ana" "ana@example.com" ∧ s.tasks 2 = none ∧
        Pool.run (AccountRequest.prog sampleGuard openWallet) Pool.unchecked s
          (List.replicate 5 (.go 0 .done (sessionAnswer "t1")) ++
            [.spawn 2 (.refresh (some "t1"))] ++
            List.replicate 3 (.go 2 .done (sessionAnswer "t1"))) = some s' ∧
        s'.db.refreshTokens.lookup "t1" = some session ∧ session.userId = "ana" ∧
        session.revokedAt = none ∧ s'.tasks 2 = some k ∧ k.call = .refresh (some "t1") :=
    ⟨_, _, _, _, rfl, ⟨_, rfl, rfl, rfl⟩, rfl, rfl, rfl, rfl, rfl, rfl, rfl⟩
  refine ⟨s', session, k, hrow, howner, hopen, hk, hcall, fun answer hanswer => ?_⟩
  have hrefused := (deletion_final sampleGuard openWallet leavesAccounts_openWallet sampleSession
    emailsUnique_sampleSession s s' (.of_run _ hs) (.of_run _ hs') "ana" "ana@example.com"
    hdeleted).2 2 k answer hfree hk hanswer
  rw [hcall] at hrefused
  exact hrefused.1 ⟨"t1", session, rfl, hrow, howner⟩

end TaroTria
