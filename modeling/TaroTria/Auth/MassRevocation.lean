import TaroTria.Auth.SingleUse
import TaroTria.Transactions.Follow

/-!
# Revocation of all sessions of a user

A change of the password and the presentation of a revoked token revoke every
open session of the user. A refresh that has read its token before the
revocation still exchanges it afterwards, for a token that is open. So the
revocation is complete when no such refresh is left behind.
-/

namespace TaroTria

open Transactions

namespace AuthService

/-- The transactions that revoke all sessions of a user. -/
inductive Revocation (userId : Id) : TxM Unit → Prop
  | reuse (revokedAt : Time) : Revocation userId (revokeSessions userId revokedAt)
  | reset (tokenHash passwordHash : String) (usedAt revokedAt : Time) :
      Revocation userId (resetPasswordTx tokenHash userId passwordHash usedAt revokedAt)
  | change (passwordHash : String) (revokedAt : Time) :
      Revocation userId (changePasswordTx userId passwordHash revokedAt)

end AuthService

/-- A request commits the revocation of all sessions of a user. -/
inductive RevokesAll (userId : Id) (s : AuthPool) : AuthPool → Prop
  | commit {t : Nat} {c : AuthCall} {n : Nat} {body : TxM Unit}
      {next : Except Err Unit → Request Unit} {L : List RowWrite} {fate : Fate}
      (answer : (q : Query) → Answer q) (ht : s.tasks t = some ⟨c, n, .tx body next⟩)
      (hbody : AuthService.Revocation userId body) (hrun : body.run s.db [] = .ok ((), L))
      (hfate : fate ≠ .failed) :
      RevokesAll userId s (s.advance t ⟨c, n, .tx body next⟩ fate answer)

/-- The token is stored as this row. -/
abbrev Stored (tokenHash : String) (token : RefreshToken) (D : Db) : Prop :=
  D.refreshTokens.lookup tokenHash = some token

theorem Stored.unique {tokenHash : String} {token token' : RefreshToken} {D : Db}
    (h : Stored tokenHash token D) (h' : Stored tokenHash token' D) : token = token' :=
  Option.some.inj (h.symm.trans h')

/-- No request that has run a transaction is still going to write a token of the user. -/
def SessionsQuiet (userId : Id) (s : AuthPool) : Prop :=
  ∀ tokenHash token, Stored tokenHash token s.db → token.userId = userId →
    s.Unthreatened (Stored tokenHash token)

/-- A token keeps its user and stays revoked. -/
def RefreshToken.Continues (token token' : RefreshToken) : Prop :=
  token'.userId = token.userId ∧ (token.revokedAt.isSome = true → token'.revokedAt.isSome = true)

theorem RefreshToken.Continues.refl (token : RefreshToken) : token.Continues token := ⟨rfl, id⟩

theorem RefreshToken.Continues.trans {token token' token'' : RefreshToken}
    (h : token.Continues token') (h' : token'.Continues token'') : token.Continues token'' :=
  ⟨h'.1.trans h.1, h'.2 ∘ h.2⟩

/-- A token that names a successor is revoked, and its successor is stored. -/
def Linked (D : Db) : Prop :=
  ∀ old token new, Stored old token D → token.replacedBy = some new →
    token.revokedAt.isSome = true ∧ ∃ token', Stored new token' D

/-- What no session request takes back. -/
structure TokensMono (D D' : Db) : Prop where
  tokens : Table.Persists RefreshToken.Continues D.refreshTokens D'.refreshTokens
  linked : Linked D → Linked D'

/-- An exchange replaces a stored token by a new one of the same user. -/
def ExchangesOwn (D : Db) (L : List RowWrite) : Prop :=
  ∀ old new, Exchanges L old new → D.refreshTokens.lookup new = none ∧
    ∃ token token', Stored old token D ∧ Stored new token' (view L D) ∧
      token'.userId = token.userId ∧
      ∃ revokedAt, Stored old (token.replaced new revokedAt) (view L D)

section Writes

variable {presented : Option String} {D : Db} {L : List RowWrite}

theorem Linked.write {tokenHash : String} {row : RefreshToken} (h : Linked D)
    (hrow : ∀ new, row.replacedBy = some new → row.revokedAt.isSome = true ∧
      (new = tokenHash ∨ ∃ token', Stored new token' D)) :
    Linked ((RowWrite.refreshToken tokenHash (some row)).apply D) := by
  -- A token that is stored before the write is stored after it.
  have stored : ∀ new token', Stored new token' D →
      ∃ token'', Stored new token'' ((RowWrite.refreshToken tokenHash (some row)).apply D) := by
    intro new token' hnew
    by_cases heq : new = tokenHash
    · subst heq
      exact ⟨row, Table.lookup_write_self _ _ _⟩
    · exact ⟨token', by simpa [Stored, Table.lookup_write, heq] using hnew⟩
  intro old token new hold hnew
  by_cases heq : old = tokenHash
  · subst heq
    obtain rfl : row = token := by simpa [Stored] using hold
    obtain ⟨hrevoked, rfl | ⟨token', htoken'⟩⟩ := hrow new hnew
    · exact ⟨hrevoked, row, Table.lookup_write_self _ _ _⟩
    · exact ⟨hrevoked, stored new token' htoken'⟩
  · obtain ⟨hrevoked, token', htoken'⟩ :=
      h old token new (by simpa [Stored, Table.lookup_write, heq] using hold) hnew
    exact ⟨hrevoked, stored new token' htoken'⟩

/-- The revocation of one stored token. -/
theorem TokensMono.revoke {tokenHash : String} {token : RefreshToken}
    (htoken : Stored tokenHash token D) (revokedAt : Time) :
    TokensMono D ((RowWrite.refreshToken tokenHash
      (some { token with revokedAt := some revokedAt })).apply D) where
  tokens := .replace RefreshToken.Continues.refl htoken ⟨rfl, fun _ => rfl⟩
  linked h := h.write fun new hnew => ⟨rfl, .inr (h tokenHash token new htoken hnew).2⟩

theorem TokensMono.refl (D : Db) : TokensMono D D :=
  ⟨.refl RefreshToken.Continues.refl _, id⟩

theorem TokensMono.trans {D₁ D₂ D₃ : Db} (h : TokensMono D₁ D₂) (h' : TokensMono D₂ D₃) :
    TokensMono D₁ D₃ where
  tokens := .trans (fun hr hr' => hr.trans hr') h.tokens h'.tokens
  linked := h'.linked ∘ h.linked

theorem TokensMono.of_eq {D D' : Db} (h : D'.refreshTokens = D.refreshTokens) :
    TokensMono D D' where
  tokens := h ▸ .refl RefreshToken.Continues.refl _
  linked hD := by simpa only [Linked, Stored, h] using hD

/-- A rotation, as its two writes. -/
theorem Rotation.tokensMono {userId : Id} {old : String} (h : Rotation userId old D L) :
    TokensMono D (view L D) := by
  obtain @⟨new, token, createdAt, revokedAt, hfresh, hold⟩ := h
  have hissue : TokensMono D ((RowWrite.refreshToken new
      (some (AuthService.newToken userId createdAt))).apply D) :=
    ⟨.insert RefreshToken.Continues.refl _ hfresh, fun hD => hD.write (by simp [AuthService.newToken])⟩
  refine hissue.trans ⟨.replace RefreshToken.Continues.refl hold ⟨rfl, fun _ => rfl⟩, fun hD => ?_⟩
  refine hD.write fun new' hnew' => ⟨rfl, .inr ?_⟩
  obtain rfl : new = new' := Option.some.inj hnew'
  exact ⟨_, Table.lookup_write_self _ _ _⟩

theorem AuthService.revocation_tokensMono (userId : Id) (revokedAt : Time) (D : Db) :
    TokensMono D (view (revocationWrites userId revokedAt D) D) := by
  refine view_invariant (I := fun D' => TokensMono D D' ) _ (.refl D) fun w hw D' h' => ?_
  obtain ⟨⟨tokenHash, token⟩, hmem, rfl⟩ := List.mem_map.mp hw
  obtain ⟨hlookup, -⟩ := (Table.mem_findMany _ _ _ _).mp hmem
  refine ⟨fun k v hv => ?_, fun hD => (h'.linked hD).write fun new hnew => ⟨rfl, .inr ?_⟩⟩
  · by_cases hk : k = tokenHash
    · subst hk
      obtain rfl : token = v := Option.some.inj (hlookup.symm.trans hv)
      exact ⟨_, Table.lookup_write_self _ _ _, rfl, fun _ => rfl⟩
    · obtain ⟨v', hv', hr⟩ := h'.tokens k v hv
      exact ⟨v', (Table.lookup_write_of_ne _ _ hk).trans hv', hr⟩
  · obtain ⟨-, token', htoken'⟩ := hD tokenHash token new hlookup hnew
    obtain ⟨token'', htoken'', -⟩ := h'.tokens new token' htoken'
    exact ⟨token'', htoken''⟩

theorem SessionWrites.tokensMono (h : SessionWrites presented D L) :
    TokensMono D (view L D) := by
  cases h with
  | nothing => exact .refl D
  | issue hfresh =>
      exact ⟨.insert RefreshToken.Continues.refl _ hfresh,
        fun hD => hD.write (by simp [AuthService.newToken])⟩
  | rotate hpresented h => exact h.tokensMono
  | @revokeAll userId revokedAt L haside =>
      have haside' : (view L D).refreshTokens = D.refreshTokens := haside.1 D
      have := AuthService.revocation_tokensMono userId revokedAt (view L D)
      simp only [AuthService.revocationWrites, haside'] at this
      rw [view_append]
      exact (TokensMono.of_eq haside').trans this
  | revoke htoken hopen => exact .revoke htoken _

/-- Only a refresh exchanges tokens. -/
theorem SessionWrites.not_exchanges (h : SessionWrites none D L) (old new : String) :
    ¬ Exchanges L old new := by
  rintro ⟨created, token, hL, hopen, -⟩
  cases h with
  | nothing => cases hL
  | issue hfresh => simp at hL
  | rotate hpresented h => cases hpresented
  | revokeAll haside =>
      have hmem := List.mem_append.mp (hL ▸ List.mem_cons_self)
      rcases hmem with hmem | hmem
      · exact haside.2 _ _ hmem
      · obtain ⟨e, -, he⟩ := List.mem_map.mp hmem
        cases he
        cases hopen
  | revoke htoken hopen' => simp at hL

/-- A rotation at a database that stores its token, for the user of that token. -/
theorem Rotation.exchangesOwn {userId : Id} {old : String} {token : RefreshToken}
    (h : Rotation userId old D L) (htoken : Stored old token D) (huser : token.userId = userId) :
    ExchangesOwn D L := by
  obtain @⟨new, token', createdAt, revokedAt, hfresh, hold⟩ := h
  have hne : old ≠ new := by
    rintro rfl
    exact absurd (hfresh.symm.trans htoken) (by simp)
  obtain rfl : token = token' := by
    have : D.refreshTokens.lookup old = some token' := by
      simpa [Table.lookup_write, hne] using hold
    exact Stored.unique htoken this
  rintro old' new' ⟨created, row, hL, -, -⟩
  simp only [List.cons.injEq, RowWrite.refreshToken.injEq, Option.some.injEq, and_true] at hL
  obtain ⟨⟨rfl, rfl⟩, rfl, rfl⟩ := hL
  refine ⟨hfresh, token, AuthService.newToken userId createdAt, htoken, ?_, huser.symm,
    revokedAt, ?_⟩
  · simp [Stored, Table.lookup_write, hne.symm, AuthService.newToken]
  · simp [Stored]

/-- A revoked token that is not presented stays as it is. -/
theorem SessionWrites.keeps_stored (h : SessionWrites presented D L) {tokenHash : String}
    {token : RefreshToken} (hne : presented ≠ some tokenHash) (htoken : Stored tokenHash token D)
    (hrevoked : token.revokedAt.isSome = true) : Stored tokenHash token (view L D) := by
  -- A write of another row, or of a row that is not there or open, is no write of this one.
  have aside : ∀ {D' : Db} {k : String} (row : Option RefreshToken), Stored tokenHash token D' →
      (∀ token', D.refreshTokens.lookup k = some token' → token'.revokedAt = none) →
      Stored tokenHash token ((RowWrite.refreshToken k row).apply D') := by
    intro D' k row hD' hk
    have hne : tokenHash ≠ k := by
      rintro rfl
      simp [hk token htoken] at hrevoked
    exact (Table.lookup_write_of_ne _ _ hne).trans hD'
  cases h with
  | nothing => exact htoken
  | issue hfresh => exact aside _ htoken (by simp [hfresh])
  | rotate hpresented h =>
      obtain ⟨hfresh, -⟩ := h
      have hother : tokenHash ≠ _ := fun heq => hne (hpresented.trans (by rw [heq]))
      exact (Table.lookup_write_of_ne _ _ hother).trans (aside _ htoken (by simp [hfresh]))
  | @revokeAll userId revokedAt L haside =>
      have hstart : Stored tokenHash token (view L D) := by simpa only [Stored, haside.1] using htoken
      rw [view_append]
      refine view_invariant _ hstart fun w hw D' hD' => ?_
      obtain ⟨⟨k, row⟩, hmem, rfl⟩ := List.mem_map.mp hw
      obtain ⟨hlookup, hopen⟩ := (Table.mem_findMany _ _ _ _).mp hmem
      simp only [Bool.and_eq_true, Option.isNone_iff_eq_none] at hopen
      exact aside _ hD' fun token' htoken' => Option.some.inj (hlookup.symm.trans htoken') ▸ hopen.2
  | revoke htoken' hopen =>
      exact aside _ htoken fun token'' h'' => Option.some.inj (htoken'.symm.trans h'') ▸ hopen

/-- After the revocation every token of the user is revoked. -/
theorem AuthService.revoked_of_revocation {userId : Id} {revokedAt : Time} (haside : TokensAside L)
    {tokenHash : String} {token : RefreshToken}
    (h : Stored tokenHash token (view (L ++ revocationWrites userId revokedAt D) D))
    (huser : token.userId = userId) : token.revokedAt.isSome = true := by
  rw [view_append] at h
  by_cases hopen : ∃ row, (tokenHash, row) ∈
      D.refreshTokens.findMany fun _ token => token.userId = userId && token.revokedAt.isNone
  · obtain ⟨row, hrow⟩ := hopen
    have hlookup := Db.refreshToken.lookup_view_map
      (fun token => { token with revokedAt := some revokedAt }) hrow (fun row' hrow' => ?_) (view L D)
    · have := Stored.unique h hlookup
      rw [this]
      rfl
    · exact Option.some.inj (((Table.mem_findMany _ _ _ _).mp hrow').1.symm.trans
        ((Table.mem_findMany _ _ _ _).mp hrow).1)
  · have hlookup := Db.refreshToken.lookup_view_map_of_notMem
      (fun token => { token with revokedAt := some revokedAt })
      (fun row hrow => hopen ⟨row, hrow⟩) (view L D)
    have hold : D.refreshTokens.lookup tokenHash = some token := by
      rw [← haside.1 D]
      exact hlookup.symm.trans h
    by_contra hnot
    exact hopen ⟨token, (Table.mem_findMany _ _ _ _).mpr ⟨hold, by simp_all⟩⟩

/-- A revoking transaction revokes the open tokens of its user, after other writes. -/
theorem AuthService.Revocation.writes {userId : Id} {body : TxM Unit} (h : Revocation userId body)
    (hrun : body.run D [] = .ok ((), L)) : ∃ L' revokedAt, TokensAside L' ∧
      L = L' ++ revocationWrites userId revokedAt D := by
  have judged : body.wp still D (fun _ L => ∃ L' revokedAt, TokensAside L' ∧
      L = L' ++ revocationWrites userId revokedAt D) [] := by
    cases h with
    | reuse revokedAt =>
        apply wp_revokeSessions
        exact ⟨[], revokedAt, ⟨fun _ => rfl, by simp⟩, rfl⟩
    | reset tokenHash passwordHash usedAt revokedAt =>
        apply wp_resetPasswordTx
        intro token user _ _
        exact ⟨_, revokedAt, ⟨fun _ => rfl, by simp⟩, rfl⟩
    | change passwordHash revokedAt =>
        apply wp_changePasswordTx
        intro user _
        exact ⟨_, revokedAt, ⟨fun _ => rfl, by simp⟩, rfl⟩
  exact Tx.run_of_wp (P := fun _ L => ∃ L' revokedAt, TokensAside L' ∧
    L = L' ++ revocationWrites userId revokedAt D) judged hrun

end Writes

/-- The discipline of the session requests. -/
def sessionDiscipline (C : AuthConfig) : Discipline Db RowWrite RowRef AuthCall where
  Mono := TokensMono
  mono_refl := TokensMono.refl
  mono_trans := TokensMono.trans
  Inv _ := True
  inv_mono _ _ := trivial
  Effect c D L := SessionWrites (c.presents C) D L ∧ ExchangesOwn D L
  mono_effect h := h.1.tokensMono

section Calls

variable (C : AuthConfig)

/-- The user of a token does not change between its read and its rotation. -/
theorem AuthService.follows_refresh (rawRefreshToken : String) (D : Db) :
    (refresh C rawRefreshToken).Follows (sessionDiscipline C) (.refresh rawRefreshToken)
      (fun _ _ => True) D := by
  apply Proc.Follows.bind
  rintro D₀ _ (e | _ | sub) D₁ _
  · exact fun _ _ => trivial
  · exact fun _ _ => trivial
  apply Proc.Follows.bind
  apply Proc.follows_select
  · intros; trivial
  intro D₂ D₃ _ _ hD₃
  cases hfind : Db.refreshToken.find D₂ (C.hashToken rawRefreshToken) with
  | none => exact fun _ _ => trivial
  | some existing =>
      simp only
      split
      · apply Proc.Follows.bind
        apply Proc.follows_call
        rintro (e | revokedAt) D₄ _
        · trivial
        · refine Proc.follows_of_every (K := SessionWrites none)
            ((every_revokeSessions _ _).bind fun _ => ?_) fun D' L _ h _ => ?_
          · trivial
          · exact ⟨h.weaken, fun old new hex => absurd hex (h.not_exchanges old new)⟩
      · apply Proc.Follows.bind
        apply Proc.follows_select
        · intros; trivial
        intro D₄ D₅ hD₄ _ hD₅
        cases huser : D₄.users.lookup existing.userId with
        | none => exact fun _ _ => trivial
        | some user =>
            simp only [Option.map_some]
            split
            · exact fun _ _ => trivial
            · refine Proc.follows_of_every (K := Rotation existing.userId _)
                ((every_rotateTokens existing.userId user _).bind fun _ => ?_)
                fun D₆ L hD₆ hrotation _ => ?_
              · trivial
              · have hmono := (TokensMono.trans hD₃ hD₄).trans (TokensMono.trans hD₅ hD₆)
                obtain ⟨token, htoken, hsame, -⟩ := hmono.tokens _ existing hfind
                exact ⟨.rotate rfl hrotation, hrotation.exchangesOwn htoken hsame⟩

theorem AuthCall.follows (c : AuthCall) (D : Db) :
    (c.prog C).Follows (sessionDiscipline C) c (fun _ _ => True) D := by
  cases c with
  | refresh rawRefreshToken =>
      apply Proc.Follows.bind
      refine (AuthService.follows_refresh C rawRefreshToken D).mono fun r D' _ => ?_
      cases r with
      | ok result => exact fun _ _ => trivial
      | error e => trivial
  | _ =>
      refine Proc.follows_of_every (AuthCall.every_sessionWrites C _) ?_
      exact fun D' L _ h _ => ⟨h, fun old new hex => absurd hex (h.not_exchanges old new)⟩

/-- A refresh that finds its token revoked leaves the row of the token as it is. -/
theorem AuthService.checks_stored (rawRefreshToken : String) {token : RefreshToken}
    (hrevoked : token.revokedAt.isSome = true) :
    (refresh C rawRefreshToken).Checks (Stored (C.hashToken rawRefreshToken) token) := by
  rintro (e | _ | sub)
  · trivial
  · trivial
  apply Proc.checks_select
  intro D htoken
  have hfind : Db.refreshToken.find D (C.hashToken rawRefreshToken) = some token := htoken
  simp only [hfind, hrevoked, if_true]
  apply (Proc.every_call _).bind
  intro revokedAt
  exact (Proc.Every.mono (K := SessionWrites none) (fun _ _ h htoken =>
    h.keeps_stored (by simp) htoken hrevoked) (every_revokeSessions _ _)).bind fun _ => trivial

theorem AuthCall.checks_stored (c : AuthCall) (tokenHash : String) {token : RefreshToken}
    (hrevoked : token.revokedAt.isSome = true) : (c.prog C).Checks (Stored tokenHash token) := by
  by_cases hpresents : c.presents C = some tokenHash
  · cases c with
    | refresh rawRefreshToken =>
        cases hpresents
        exact (AuthService.checks_stored C rawRefreshToken hrevoked).bind fun _ => trivial
    | _ => cases hpresents
  · exact Proc.Keeps.checks ((AuthCall.every_sessionWrites C c).mono fun _ _ h htoken =>
      h.keeps_stored hpresents htoken hrevoked)

/-- A step that revokes all sessions of a user leaves every token of the user revoked. -/
theorem RevokesAll.revoked {userId : Id} {s s' : AuthPool} (h : RevokesAll userId s s')
    {tokenHash : String} {token : RefreshToken} (htoken : Stored tokenHash token s'.db)
    (huser : token.userId = userId) : token.revokedAt.isSome = true := by
  obtain @⟨t, c, n, body, next, L, fate, answer, ht, hbody, hrun, hfate⟩ := h
  obtain ⟨L', revokedAt, haside, rfl⟩ := hbody.writes hrun
  have hafter : Stored tokenHash token
      (view (L' ++ AuthService.revocationWrites userId revokedAt s.db) s.db) := by
    cases fate with
    | failed => exact absurd rfl hfate
    | done => simpa only [Pool.advance, Proc.step, Tx.outcome, hrun] using htoken
    | lost => simpa only [Pool.advance, Proc.step, Tx.outcome, hrun] using htoken
  exact AuthService.revoked_of_revocation haside hafter huser

theorem RevokesAll.reach {userId : Id} {s₀ s s' : AuthPool} (h : RevokesAll userId s s')
    (run : Pool.Reach (AuthCall.prog C) (fun _ => True) (fun _ _ => True) s₀ s) :
    Pool.Reach (AuthCall.prog C) (fun _ => True) (fun _ _ => True) s₀ s' := by
  obtain ⟨answer, ht, -, -, -⟩ := h
  exact run.go ht _ answer trivial

/-- A pool whose requests follow the discipline of the session requests. -/
abbrev SessionsFollowing (s : AuthPool) : Prop :=
  s.Following (sessionDiscipline C) (fun _ => True) fun _ _ _ => True

theorem sessions_following {s s' : AuthPool} (h : SessionsFollowing C s)
    (run : Pool.Reach (AuthCall.prog C) (fun _ => True) (fun _ _ => True) s s') :
    SessionsFollowing C s' ∧ ∃ hist, s'.history = hist ++ s.history ∧
      Path ((sessionDiscipline C).Permits fun _ => True) s.db hist s'.db :=
  Pool.Reach.following (G := sessionDiscipline C) (fun _ h => h)
    (fun c _ D _ => AuthCall.follows C c D) trivial h run

theorem sessions_mono {s s' : AuthPool} (h : SessionsFollowing C s)
    (run : Pool.Reach (AuthCall.prog C) (fun _ => True) (fun _ _ => True) s s') :
    TokensMono s.db s'.db := by
  obtain ⟨-, hist, -, hpath⟩ := sessions_following C h run
  exact (sessionDiscipline C).path_mono hpath

/-- From a pool on where nothing threatens a revoked token, its row stays, and it
is exchanged no more. -/
theorem revoked_stays {D : Db} {s s' : AuthPool} (hD : Linked D)
    (run : Pool.Reach (AuthCall.prog C) (fun _ => True) (fun _ _ => True) (.idle D) s)
    {tokenHash : String} {token : RefreshToken} (htoken : Stored tokenHash token s.db)
    (hrevoked : token.revokedAt.isSome = true) (quiet : s.Unthreatened (Stored tokenHash token))
    (run' : Pool.Reach (AuthCall.prog C) (fun _ => True) (fun _ _ => True) s s') :
    Stored tokenHash token s'.db ∧ s'.Unthreatened (Stored tokenHash token) ∧
      ∀ new, Exchanged s'.history tokenHash new → Exchanged s.history tokenHash new := by
  have hfollow := (sessions_following C (Pool.following_idle D) run).1
  have hlinked : Linked s.db := (sessions_mono C (Pool.following_idle D) run).linked hD
  induction run' with
  | refl => exact ⟨htoken, quiet, fun _ h => h⟩
  | @step s₁ s₂ e tail he hs hok ih =>
      obtain ⟨hstored, hquiet, hold⟩ := ih
      have hchecking := (run.trans tail).checking
        (fun c _ => AuthCall.checks_stored C c tokenHash hrevoked) (by intro t k hk; cases hk)
      obtain ⟨hstored', hquiet'⟩ :=
        Pool.Unthreatened.moved hchecking (Pool.step_moved he hs) hstored hquiet
      refine ⟨hstored', hquiet', fun new hex => ?_⟩
      obtain ⟨-, ⟨-, hsame⟩ | ⟨c, L, heffect, hdb, hhistory⟩⟩ :=
        (sessions_following C hfollow tail).1.moved (fun _ h => h)
          (fun c _ D _ => AuthCall.follows C c D) trivial (Pool.step_moved he hs)
      · exact hold new (hsame ▸ hex)
      obtain ⟨c', L', hmem, hex⟩ := hex
      rw [hhistory] at hmem
      rcases List.mem_cons.mp hmem with heq | hmem
      · -- The new commit would store a row that names a token which was not there.
        obtain ⟨-, rfl⟩ := Prod.mk.inj heq
        obtain ⟨hfresh, row, -, -, -, -, revokedAt, hrow⟩ := heffect.2.2 tokenHash new hex
        have hnew : token.replacedBy = some new := by
          rw [Stored.unique hstored' (hdb ▸ hrow)]
          rfl
        obtain ⟨-, token', htoken'⟩ := hlinked tokenHash token new htoken hnew
        obtain ⟨token'', htoken'', -⟩ :=
          (sessions_mono C hfollow tail).tokens new token' htoken'
        exact absurd (hfresh.symm.trans htoken'') (by simp)
      · exact hold new ⟨c', L', hmem, hex⟩

/-- A token that comes from a token of the user by exchanges made before is a
token of the user. -/
theorem descends_own {D : Db} {s : AuthPool} {userId : Id}
    (run : Pool.Reach (AuthCall.prog C) (fun _ => True) (fun _ _ => True) (.idle D) s)
    {old new : String} {token : RefreshToken} (htoken : Stored old token s.db)
    (huser : token.userId = userId) (hex : Exchanged s.history old new) :
    ∃ token', Stored new token' s.db ∧ token'.userId = userId := by
  obtain ⟨-, hist, hhist, hpath⟩ := sessions_following C (Pool.following_idle D) run
  obtain ⟨c, L, hmem, hex⟩ := hex
  obtain ⟨newer, older, D', -, -, heffect, hafter⟩ :=
    hpath.split (c := c) (L := L) (by simpa [hhist, Pool.idle] using hmem)
  obtain ⟨-, row, row', hrow, hrow', hsame, -⟩ := heffect.2.2 old new hex
  have hmono := (sessionDiscipline C).path_mono hafter
  obtain ⟨token₁, htoken₁, hcont, -⟩ :=
    (TokensMono.trans ((sessionDiscipline C).mono_effect heffect.2) hmono).tokens old row hrow
  obtain ⟨token', htoken', hcont', -⟩ := hmono.tokens new row' hrow'
  refine ⟨token', htoken', ?_⟩
  rw [hcont', hsame, ← huser, Stored.unique htoken htoken₁, hcont]

end Calls

/-- After a step that revokes all sessions of a user and leaves no refresh
behind that has read one of the tokens, every token that was there, and every
token that comes from one by exchanges, is and stays revoked. -/
theorem mass_revocation (C : AuthConfig) (D : Db) (hD : Linked D) (userId : Id)
    (s s' s'' : AuthPool)
    (run : Pool.Reach (AuthCall.prog C) (fun _ => True) (fun _ _ => True) (.idle D) s)
    (revoke : RevokesAll userId s s') (quiet : SessionsQuiet userId s')
    (run' : Pool.Reach (AuthCall.prog C) (fun _ => True) (fun _ _ => True) s' s'')
    (root : String) (token : RefreshToken) (hroot : Stored root token s.db)
    (huser : token.userId = userId) (tokenHash : String)
    (h : Descends s''.history root tokenHash) : ¬ Unrevoked tokenHash s''.db := by
  have run₁ := revoke.reach C run
  have stays := fun k t (hk : Stored k t s'.db) (ht : t.userId = userId) =>
    revoked_stays C hD run₁ hk (revoke.revoked hk ht) (quiet k t hk ht) run'
  -- Every token on the way was stored for the user when the sessions were revoked.
  have own : ∃ t, Stored tokenHash t s'.db ∧ t.userId = userId := by
    induction h with
    | refl =>
        have hfollow := (sessions_following C (Pool.following_idle D) run).1
        obtain ⟨t, ht, hsame, -⟩ :=
          (sessions_mono C hfollow (revoke.reach C .refl)).tokens root token hroot
        exact ⟨t, ht, hsame.trans huser⟩
    | tail _ hex ih =>
        obtain ⟨t, ht, htuser⟩ := ih
        exact descends_own C run₁ ht htuser ((stays _ t ht htuser).2.2 _ hex)
  obtain ⟨t, ht, htuser⟩ := own
  rintro ⟨t', ht', hopen⟩
  have hrevoked := revoke.revoked ht htuser
  rw [Stored.unique (stays _ t ht htuser).1 ht', hopen] at hrevoked
  cases hrevoked

theorem linked_sampleSession : Linked sampleSession := by
  intro old token new hold hnew
  simp only [Stored, sampleSession, Table.lookup_write] at hold
  split at hold
  · cases hold
    cases hnew
  · simp at hold

/-- A session is refreshed once, and then the password is changed. -/
theorem mass_revocation_of_change : ∃ s : AuthPool, Descends s.history "t0" "t1" ∧
    ¬ Unrevoked "t1" s.db := by
  obtain ⟨s, next, L, s'', token, hs, hdone, hk, hrest, hrun, htoken, huser, hs'', hhistory⟩ :
      ∃ (s : AuthPool) (next : Except Err Unit → Request Unit) (L : List RowWrite) (s'' : AuthPool)
        (token : RefreshToken),
        Pool.run (AuthCall.prog sampleAuth) Pool.unchecked (.idle sampleSession)
          (.spawn 1 (.refresh "t0") :: sessionSteps 1 9 "t1" ++ [.kill 1] ++
            .spawn 0 (.changePassword "ana" "" "") :: sessionSteps 0 4 "t2") = some s ∧
        s.tasks 1 = none ∧
        s.tasks 0 = some ⟨.changePassword "ana" "" "", 1,
          .tx (AuthService.changePasswordTx "ana" "" 0) next⟩ ∧
        next (.ok ()) = .ret () ∧
        (AuthService.changePasswordTx "ana" "" 0).run s.db [] = .ok ((), L) ∧
        Stored "t0" token s.db ∧ token.userId = "ana" ∧
        Pool.run (AuthCall.prog sampleAuth) Pool.unchecked
          (s.advance 0 ⟨.changePassword "ana" "" "", 1,
            .tx (AuthService.changePasswordTx "ana" "" 0) next⟩ .done (sessionAnswer "t2"))
          (.spawn 2 (.refresh "t1") :: sessionSteps 2 4 "t3") = some s'' ∧
        Exchanged s''.history "t0" "t1" :=
    ⟨_, _, _, _, _, rfl, rfl, rfl, rfl, rfl, rfl, rfl, rfl, _, _,
      by exact List.mem_cons_of_mem _ List.mem_cons_self, _, _, rfl, rfl, rfl⟩
  have revoke : RevokesAll "ana" s _ :=
    .commit (sessionAnswer "t2") hk (.change "" 0) hrun (by decide : Fate.done ≠ .failed)
  have alone : ∀ u, u ≠ 0 → s.tasks u = none := by
    intro u hu
    by_cases h1 : u = 1
    · rw [h1, hdone]
    · exact Pool.tasks_run (by simp [sessionSteps, Event.task, Ne.symm hu, Ne.symm h1]) hs
  have quiet : SessionsQuiet "ana" (s.advance 0 ⟨.changePassword "ana" "" "", 1,
      .tx (AuthService.changePasswordTx "ana" "" 0) next⟩ .done (sessionAnswer "t2")) := by
    intro _ _ _ _
    apply Pool.Unthreatened.of_alone alone
    simp only [Proc.step, Tx.outcome, hrun, hrest]
    trivial
  have descends : Descends s''.history "t0" "t1" := .single hhistory
  exact ⟨s'', descends, mass_revocation sampleAuth sampleSession linked_sampleSession "ana" s _ s''
    (.of_run _ hs) revoke quiet (.of_run _ hs'') "t0" token htoken huser "t1" descends⟩

/-- A refresh reads its token, then the password is changed, and then the refresh
exchanges the token. -/
theorem revocation_escaped : ∃ s s' s'' : AuthPool,
    Pool.Reach (AuthCall.prog sampleAuth) (fun _ => True) (fun _ _ => True)
      (.idle sampleSession) s ∧
    RevokesAll "ana" s s' ∧
    Pool.Reach (AuthCall.prog sampleAuth) (fun _ => True) (fun _ _ => True) s' s'' ∧
    (∀ t k, s''.tasks t = some k → k.rest = .ret ()) ∧
    (∃ token, Stored "t0" token s.db ∧ token.userId = "ana") ∧
    Descends s''.history "t0" "t1" ∧ Unrevoked "t1" s''.db := by
  obtain ⟨s, next, L, s'', k₀, k₁, hs, hk, hrun, hs'', hk₀, hrest₀, hk₁, hrest₁, htoken, hex, hopen⟩ :
      ∃ (s : AuthPool) (next : Except Err Unit → Request Unit) (L : List RowWrite) (s'' : AuthPool)
        (k₀ k₁ : Task Db RowWrite Err AuthCall Answer Unit),
        Pool.run (AuthCall.prog sampleAuth) Pool.unchecked (.idle sampleSession)
          ([.spawn 0 (.refresh "t0"), .spawn 1 (.changePassword "ana" "" "")] ++
            sessionSteps 0 2 "t1" ++ sessionSteps 1 4 "t1") = some s ∧
        s.tasks 1 = some ⟨.changePassword "ana" "" "", 1,
          .tx (AuthService.changePasswordTx "ana" "" 0) next⟩ ∧
        (AuthService.changePasswordTx "ana" "" 0).run s.db [] = .ok ((), L) ∧
        Pool.run (AuthCall.prog sampleAuth) Pool.unchecked
          (s.advance 1 ⟨.changePassword "ana" "" "", 1,
            .tx (AuthService.changePasswordTx "ana" "" 0) next⟩ .done (sessionAnswer "t1"))
          (sessionSteps 0 7 "t1") = some s'' ∧
        s''.tasks 0 = some k₀ ∧ k₀.rest = .ret () ∧ s''.tasks 1 = some k₁ ∧ k₁.rest = .ret () ∧
        (∃ token, Stored "t0" token s.db ∧ token.userId = "ana") ∧
        Exchanged s''.history "t0" "t1" ∧ Unrevoked "t1" s''.db :=
    ⟨_, _, _, _, _, _, rfl, rfl, rfl, rfl, rfl, rfl, rfl, rfl, ⟨_, rfl, rfl⟩,
      ⟨_, _, by exact List.mem_cons_self, _, _, rfl, rfl, rfl⟩, ⟨_, rfl, rfl⟩⟩
  refine ⟨s, _, s'', .of_run _ hs,
    .commit (sessionAnswer "t1") hk (.change "" 0) hrun (by decide : Fate.done ≠ .failed),
    .of_run _ hs'', ?_, htoken, .single hex, hopen⟩
  intro t k ht
  by_cases h0 : t = 0
  · rw [h0, hk₀] at ht
    exact Option.some.inj ht ▸ hrest₀
  by_cases h1 : t = 1
  · rw [h1, hk₁] at ht
    exact Option.some.inj ht ▸ hrest₁
  have hnone : s.tasks t = none :=
    Pool.tasks_run (by simp [sessionSteps, Event.task, Ne.symm h0, Ne.symm h1]) hs
  rw [Pool.tasks_run (by simp [sessionSteps, Event.task, Ne.symm h0]) hs''] at ht
  simp [Pool.advance, h1, hnone] at ht

end TaroTria
