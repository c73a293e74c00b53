import Mathlib.Logic.Relation
import TaroTria.Auth.SessionWrites

/-!
# Rotation of refresh tokens

Session requests, in any interleaving of their transactions.
A refresh reads the presented row with its first transaction and rotates it
with a later one, by its id and whatever state it is in. So a token is
exchanged once when no refresh that has read it earlier is still running at its
exchange, and may be exchanged twice otherwise.
-/

namespace TaroTria

open Transactions

/-- The token is revoked and names the token it was exchanged for. -/
def Replaced (old new : String) (D : Db) : Prop :=
  ∃ token, D.refreshTokens.lookup old = some token ∧ token.replacedBy = some new ∧
    token.revokedAt.isSome = true

/-- The writes exchange the token `old` for the token `new`, which is open. -/
def Exchanges (L : List RowWrite) (old new : String) : Prop :=
  ∃ created token, L = [.refreshToken new (some created), .refreshToken old (some token)] ∧
    created.revokedAt = none ∧ token.replacedBy = some new

/-- The writes take back no exchange but one of the presented token, and the
exchanges among them revoke. -/
structure TokenWrites (presented : Option String) (D : Db) (L : List RowWrite) : Prop where
  keeps : ∀ old new, presented ≠ some old → Replaced old new D → Replaced old new (view L D)
  revokes : ∀ old new, Exchanges L old new → Replaced old new (view L D)

theorem tokenWrites_nil (presented : Option String) (D : Db) : TokenWrites presented D [] where
  keeps _ _ _ h := h
  revokes _ _ h := by
    obtain ⟨created, token, hL, -⟩ := h
    cases hL

theorem TokenWrites.weaken {presented : Option String} {D : Db} {L : List RowWrite}
    (h : TokenWrites none D L) : TokenWrites presented D L :=
  ⟨fun old new _ => h.keeps old new (by simp), h.revokes⟩

theorem Replaced.write_of_ne {D : Db} {old new tokenHash : String} {row : Option RefreshToken}
    (h : Replaced old new D) (hne : old ≠ tokenHash) :
    Replaced old new ((RowWrite.refreshToken tokenHash row).apply D) := by
  obtain ⟨token, htoken, hrest⟩ := h
  exact ⟨token, by simpa [Table.lookup_write, hne] using htoken, hrest⟩

/-- A row that is not there, or not revoked, was not exchanged. -/
theorem Replaced.ne {D : Db} {old new tokenHash : String} (h : Replaced old new D)
    (hopen : ∀ token, D.refreshTokens.lookup tokenHash = some token → token.revokedAt = none) :
    old ≠ tokenHash := by
  rintro rfl
  obtain ⟨token, htoken, -, hrevoked⟩ := h
  simp [hopen token htoken] at hrevoked

/-- The write of one row that was not there or not revoked. -/
theorem tokenWrites_single {D : Db} {tokenHash : String} (row : RefreshToken)
    (hopen : ∀ token, D.refreshTokens.lookup tokenHash = some token → token.revokedAt = none) :
    TokenWrites none D [.refreshToken tokenHash (some row)] where
  keeps old new _ h := h.write_of_ne (h.ne hopen)
  revokes old new h := by
    obtain ⟨created, token, hL, -⟩ := h
    simp at hL

namespace AuthService

variable {C : AuthConfig}

theorem tokenWrites_revocation {L : List RowWrite} (haside : TokensAside L) (userId : Id)
    (revokedAt : Time) (D : Db) :
    TokenWrites none D (L ++ revocationWrites userId revokedAt D) where
  keeps old new _ h := by
    have hsame : Replaced old new (view L D) := by simpa only [Replaced, haside.1] using h
    rw [view_append]
    refine view_invariant _ hsame fun w hw D' h' => ?_
    obtain ⟨⟨tokenHash, token⟩, hmem, rfl⟩ := List.mem_map.mp hw
    obtain ⟨hlookup, hopen⟩ := (Table.mem_findMany _ _ _ _).mp hmem
    simp only [Bool.and_eq_true, Option.isNone_iff_eq_none] at hopen
    refine h'.write_of_ne (h.ne fun token' htoken' => ?_)
    obtain rfl : token = token' := Option.some.inj (hlookup.symm.trans htoken')
    exact hopen.2
  revokes old new h := by
    -- The first write of an exchange is an open token.
    obtain ⟨created, token, hL, hopen, -⟩ := h
    have hmem : RowWrite.refreshToken new (some created) ∈
        L ++ revocationWrites userId revokedAt D := by
      rw [hL]
      exact List.mem_cons_self
    rcases List.mem_append.mp hmem with hmem | hmem
    · exact absurd hmem (haside.2 _ _)
    · obtain ⟨e, -, he⟩ := List.mem_map.mp hmem
      cases he
      cases hopen

theorem tokenWrites_rotation {userId : Id} {old : String} {D : Db} {L : List RowWrite}
    (h : Rotation userId old D L) : TokenWrites (some old) D L := by
  obtain ⟨hfresh, hold⟩ := h
  refine ⟨fun old' new' hne hreplaced => ?_, fun old' new' hex => ?_⟩
  · have hother : old' ≠ old := fun heq => hne (by rw [heq])
    exact (hreplaced.write_of_ne (hreplaced.ne (by simp [hfresh]))).write_of_ne hother
  · obtain ⟨created, token, hL, -, hnew⟩ := hex
    simp only [List.cons.injEq, RowWrite.refreshToken.injEq, Option.some.injEq, and_true] at hL
    obtain ⟨⟨rfl, -⟩, rfl, rfl⟩ := hL
    exact ⟨_, by simp, hnew, rfl⟩

end AuthService

theorem SessionWrites.tokenWrites {presented : Option String} {D : Db} {L : List RowWrite}
    (h : SessionWrites presented D L) : TokenWrites presented D L := by
  cases h with
  | nothing => exact tokenWrites_nil presented D
  | issue hfresh => exact (tokenWrites_single _ fun token htoken => by simp_all).weaken
  | rotate hpresented h => exact hpresented ▸ AuthService.tokenWrites_rotation h
  | revokeAll haside => exact (AuthService.tokenWrites_revocation haside _ _ D).weaken
  | revoke htoken hopen =>
      refine (tokenWrites_single _ fun token' htoken' => ?_).weaken
      exact Option.some.inj (htoken'.symm.trans htoken) ▸ hopen

namespace AuthService

/-- A refresh that finds its token exchanged revokes sessions and is refused. -/
theorem checks_refresh (rawRefreshToken new : String) :
    (refresh C rawRefreshToken).Checks (Replaced (C.hashToken rawRefreshToken) new) := by
  rintro (e | _ | sub)
  · trivial
  · trivial
  apply Proc.checks_select
  rintro D ⟨token, htoken, -, hrevoked⟩
  have hfind : Db.refreshToken.find D (C.hashToken rawRefreshToken) = some token := htoken
  simp only [hfind, hrevoked, if_true]
  apply (Proc.every_call _).bind
  intro revokedAt
  exact (Proc.Every.mono (K := SessionWrites none) (fun _ _ h =>
    h.tokenWrites.keeps _ _ (by simp)) (every_revokeSessions _ _)).bind fun _ => trivial

end AuthService

namespace AuthCall

variable (C : AuthConfig)

theorem every_tokenWrites (c : AuthCall) : (c.prog C).Every (TokenWrites (c.presents C)) :=
  (every_sessionWrites C c).mono fun _ _ h => h.tokenWrites

theorem checks_replaced (c : AuthCall) (old new : String) :
    (c.prog C).Checks (Replaced old new) := by
  by_cases hpresents : c.presents C = some old
  · cases c with
    | refresh rawRefreshToken =>
        cases hpresents
        exact (AuthService.checks_refresh rawRefreshToken new).bind fun _ => trivial
    | _ => cases hpresents
  · exact Proc.Keeps.checks
      ((every_tokenWrites C c).mono fun _ _ h => h.keeps old new hpresents)

end AuthCall

/-- A step that exchanges a token leaves no refresh behind that has read the
token before and may still exchange it. -/
def ExchangesAlone (s s' : AuthPool) : Prop :=
  ∀ old new, s.SetsAlone (Replaced old new) s'

/-- A commit of the run has exchanged the token `old` for `new`. -/
def Exchanged (history : List (AuthCall × List RowWrite)) (old new : String) : Prop :=
  ∃ c L, (c, L) ∈ history ∧ Exchanges L old new

/-- The tokens that come from a token by exchanges. -/
def Descends (history : List (AuthCall × List RowWrite)) : String → String → Prop :=
  Relation.ReflTransGen (Exchanged history)

/-- The token is there and not revoked. -/
def Unrevoked (tokenHash : String) (D : Db) : Prop :=
  ∃ token, D.refreshTokens.lookup tokenHash = some token ∧ token.revokedAt = none

theorem Replaced.not_unrevoked {old new : String} {D : Db} (h : Replaced old new D) :
    ¬ Unrevoked old D := by
  rintro ⟨token, htoken, hopen⟩
  obtain ⟨token', htoken', -, hrevoked⟩ := h
  obtain rfl : token = token' := Option.some.inj (htoken.symm.trans htoken')
  simp [hopen] at hrevoked

/-- In every run whose steps exchange tokens alone: a token is exchanged for at
most one successor, and of the tokens that come from one token, which form a
chain, at most one is unrevoked. -/
theorem rotation_single_use (C : AuthConfig) (D : Db) (s : AuthPool)
    (run : Pool.Reach (AuthCall.prog C) (fun _ => True) ExchangesAlone (.idle D) s) :
    (∀ old new new', Exchanged s.history old new → Exchanged s.history old new' → new = new') ∧
    ∀ root token token', Descends s.history root token → Descends s.history root token' →
      (Descends s.history token token' ∨ Descends s.history token' token) ∧
      (Unrevoked token s.db → Unrevoked token' s.db → token = token') := by
  -- An exchange of the history is still in the rows.
  have replaced : ∀ old new, Exchanged s.history old new → Replaced old new s.db := by
    refine Pool.Reach.invariant
      (I := fun D history => ∀ old new, Exchanged history old new → Replaced old new D)
      (fun c => tokenWrites_nil (c.presents C)) (fun c _ => AuthCall.every_tokenWrites C c)
      ?_ ?_ run
    · rintro old new ⟨c, L, hmem, -⟩
      cases hmem
    · rintro s s' c L run run' - hK hdb hI old new ⟨c', L', hmem, hex⟩
      have hold : (c', L') ∈ s.history → Replaced old new s'.db := fun hmem =>
        Pool.Reach.latched (fun c _ => AuthCall.checks_replaced C c old new)
          (fun _ _ hok => hok old new) run run' (hI old new ⟨c', L', hmem, hex⟩)
      unfold Pool.record at hmem
      split at hmem
      · exact hold hmem
      · rcases List.mem_cons.mp hmem with heq | hmem
        · obtain ⟨-, rfl⟩ := Prod.mk.inj heq
          exact hdb ▸ hK.revokes old new hex
        · exact hold hmem
  have single : ∀ old new new', Exchanged s.history old new → Exchanged s.history old new' →
      new = new' := by
    intro old new new' h h'
    obtain ⟨token, htoken, hnew, -⟩ := replaced old new h
    obtain ⟨token', htoken', hnew', -⟩ := replaced old new' h'
    obtain rfl : token = token' := Option.some.inj (htoken.symm.trans htoken')
    exact Option.some.inj (hnew.symm.trans hnew')
  -- A token with a proper descendant has been exchanged.
  have last : ∀ token token', Descends s.history token token' → Unrevoked token s.db →
      token = token' := by
    intro token token' h hopen
    rcases Relation.ReflTransGen.cases_head h with heq | ⟨next, hnext, -⟩
    · exact heq
    · exact absurd hopen (replaced token next hnext).not_unrevoked
  refine ⟨single, fun root token token' h h' => ?_⟩
  have unique : Relator.RightUnique (Exchanged s.history) := fun old new new' => single old new new'
  have chain := Relation.ReflTransGen.total_of_right_unique unique h h'
  refine ⟨chain, fun hopen hopen' => ?_⟩
  rcases chain with hdown | hup
  · exact last token token' hdown hopen
  · exact (last token' token hup hopen').symm

/-- No token becomes exchanged between the two databases. -/
def noExchange (D D' : Db) : Bool :=
  D'.refreshTokens.toRows.all fun e => e.2.replacedBy = none ||
    (D.refreshTokens.lookup e.1).any fun token =>
      token.replacedBy = e.2.replacedBy && token.revokedAt.isSome

theorem exchangesAlone_of_noExchange {s s' : AuthPool} (h : noExchange s.db s'.db = true) :
    ExchangesAlone s s' := by
  rintro old new hnot ⟨token, htoken, hnew, -⟩
  have hrow := List.all_eq_true.mp h _ ((Table.mem_toRows _ _ _).mpr htoken)
  simp only [hnew, reduceCtorEq, decide_false, Bool.false_or, Option.any_eq_true,
    Bool.and_eq_true, decide_eq_true_eq] at hrow
  obtain ⟨token', htoken', hnew', hrevoked⟩ := hrow
  exact absurd ⟨token', htoken', hnew', hrevoked⟩ hnot

/-- A refresh exchanges its token, and the token presented again is refused. -/
theorem rotation_single_use_of_refresh : ∃ s : AuthPool, Exchanged s.history "t0" "t1" ∧
    ∀ new, Exchanged s.history "t0" new → "t1" = new := by
  obtain ⟨s₁, k, s', hs₁, hk, hrest, hs', hhistory⟩ :
      ∃ (s₁ : AuthPool) (k : Task Db RowWrite Err AuthCall Answer Unit) (s' : AuthPool),
        Pool.run (AuthCall.prog sampleAuth) noExchange (.idle sampleSession)
          (.spawn 0 (.refresh "t0") :: sessionSteps 0 8 "t1") = some s₁ ∧
        s₁.tasks 0 = some k ∧
        (k.rest.step s₁.db .done (sessionAnswer "t1")).2 = .ret () ∧
        Pool.run (AuthCall.prog sampleAuth) noExchange
          (s₁.advance 0 k .done (sessionAnswer "t1"))
          (.spawn 1 (.refresh "t0") :: sessionSteps 1 4 "t2") = some s' ∧
        Exchanged s'.history "t0" "t1" :=
    ⟨_, _, _, rfl, rfl, rfl, rfl, _, _, by exact List.mem_cons_of_mem _ List.mem_cons_self,
      _, _, rfl, rfl, rfl⟩
  have run₁ : Pool.Reach (AuthCall.prog sampleAuth) (fun _ => True) ExchangesAlone
      (.idle sampleSession) s₁ :=
    Pool.Reach.refl.run (fun _ _ => exchangesAlone_of_noExchange) _
      (by simp [sessionSteps, Event.Starts]) hs₁
  have alone : ∀ u, u ≠ 0 → s₁.tasks u = none := fun u hu =>
    Pool.tasks_run (by simp [sessionSteps, Event.task, hu.symm]) hs₁
  have run := run₁.go hk .done (sessionAnswer "t1") fun _ _ _ _ =>
    .of_alone alone (by rw [hrest]; trivial)
  have run' := run.run (fun _ _ => exchangesAlone_of_noExchange) _
    (by simp [sessionSteps, Event.Starts]) hs'
  exact ⟨s', hhistory, fun new h =>
    (rotation_single_use sampleAuth sampleSession s' run').1 "t0" "t1" new hhistory h⟩

/-- Two refreshes read the token while it is open, and both exchange it. -/
theorem rotated_twice : ∃ s : AuthPool,
    Pool.Reach (AuthCall.prog sampleAuth) (fun _ => True) (fun _ _ => True)
      (.idle sampleSession) s ∧
    Exchanged s.history "t0" "t1" ∧ Exchanged s.history "t0" "t2" ∧
    Unrevoked "t1" s.db ∧ Unrevoked "t2" s.db := by
  refine ⟨_, .of_run ([.spawn 0 (.refresh "t0"), .spawn 1 (.refresh "t0")] ++
    sessionSteps 0 2 "t1" ++ sessionSteps 1 9 "t2" ++ sessionSteps 0 7 "t1") rfl, ?_, ?_, ?_, ?_⟩
  · exact ⟨_, _, List.mem_cons_self, _, _, rfl, rfl, rfl⟩
  · exact ⟨_, _, List.mem_cons_of_mem _ List.mem_cons_self, _, _, rfl, rfl, rfl⟩
  · exact ⟨_, rfl, rfl⟩
  · exact ⟨_, rfl, rfl⟩

end TaroTria
