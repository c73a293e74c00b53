import TaroTria.Auth.AccountChanges
import TaroTria.Backend.Calls
import TaroTria.Transactions.Once

/-!
# Verification tokens

Requests that present verification tokens, in any interleaving of their Prisma
calls. A request checks with its first call that its token is unused, and marks
it as used with a later transaction, by its id and whatever state it is in. So a
token is used once when no request that has read it earlier is still running at
its use, and may be used twice otherwise.
-/

namespace TaroTria

open Transactions

/-- The requests that present a verification token. -/
inductive TokenCall
  | verifyEmail (rawToken : String)
  | resetPassword (rawToken newPassword : String)
  deriving DecidableEq, Repr

namespace TokenCall

variable (C : AccountConfig)

/-- The request of a call; the user that it returns is dropped. -/
def prog : TokenCall → Request Unit
  | verifyEmail rawToken => do
      let _ ← AuthService.verifyEmail C rawToken
  | resetPassword rawToken newPassword =>
      AuthService.resetPassword C.toAuthConfig rawToken newPassword

def tokenHash : TokenCall → String
  | verifyEmail rawToken => C.hashToken rawToken
  | resetPassword rawToken _ => C.hashToken rawToken

/-- The purpose that the token of a call must have. -/
def purpose : TokenCall → VerificationTokenPurpose
  | verifyEmail _ => .EMAIL_VERIFICATION
  | resetPassword _ _ => .PASSWORD_RESET

/-- The row that a call has found allows it at the time `now`. -/
def Admits (c : TokenCall) (record : Option VerificationToken) (now : Time) : Prop :=
  ∃ token, record = some token ∧ token.purpose = c.purpose ∧ token.usedAt = none ∧
    now ≤ token.expiresAt

end TokenCall

abbrev TokenPool := Pool Db RowWrite Err TokenCall Answer Unit

/-- The token has been used. -/
def Used (tokenHash : String) (D : Db) : Prop :=
  ∃ token, D.verificationTokens.lookup tokenHash = some token ∧ token.usedAt.isSome = true

/-- The writes change the row of the token. -/
def uses (tokenHash : String) (L : List RowWrite) : Bool :=
  (L.map RowWrite.ref).contains (.verificationToken tokenHash)

/-- The writes of a request that presents a token: none, or its use. -/
inductive UseWrites (tokenHash : String) (D : Db) : List RowWrite → Prop
  | nothing : UseWrites tokenHash D []
  | use {token usedAt rest} (htoken : D.verificationTokens.lookup tokenHash = some token)
      (haside : ∀ w ∈ rest, ∀ k, w.ref ≠ .verificationToken k) :
      UseWrites tokenHash D
        (.verificationToken tokenHash (some { token with usedAt := some usedAt }) :: rest)

theorem lookup_of_not_uses {tokenHash : String} {L : List RowWrite} (h : uses tokenHash L = false)
    (D : Db) : (view L D).verificationTokens.lookup tokenHash =
      D.verificationTokens.lookup tokenHash := by
  have hmem : ∀ w ∈ L, w.ref ≠ .verificationToken tokenHash := by
    simpa [uses] using h
  exact Eq.symm (agree_view_of_notMem (r := .verificationToken tokenHash) L D hmem)

namespace UseWrites

variable {tokenHash tokenHash' : String} {D : Db} {L : List RowWrite}

/-- A use marks the token, and the request uses no other one. -/
theorem used (h : UseWrites tokenHash D L) (huse : uses tokenHash' L = true) :
    tokenHash' = tokenHash ∧ Used tokenHash' (view L D) := by
  cases h with
  | nothing => simp [uses] at huse
  | @use token usedAt rest htoken haside =>
      have hrest : ∀ k, uses k rest = false := fun k => by
        simpa [uses] using fun w hw => haside w hw k
      have hsame : tokenHash' = tokenHash := by
        by_contra hne
        simp only [uses, List.map_cons, List.contains_cons, RowWrite.ref, Bool.or_eq_true] at huse
        rcases huse with heq | hmem
        · exact hne (by simpa using heq)
        · exact absurd hmem (by simpa [uses] using hrest tokenHash')
      subst hsame
      refine ⟨rfl, { token with usedAt := some usedAt }, ?_, rfl⟩
      rw [view_cons, lookup_of_not_uses (hrest tokenHash')]
      exact Table.lookup_write_self ..

/-- The token of another request is left alone. -/
theorem uses_eq_false (h : UseWrites tokenHash D L) (hne : tokenHash' ≠ tokenHash) :
    uses tokenHash' L = false := by
  by_contra huse
  exact hne (h.used (by simpa using huse)).1

theorem uses_eq (h : UseWrites tokenHash D L) (hL : L ≠ []) :
    uses tokenHash' L = decide (tokenHash = tokenHash') := by
  by_cases hsame : tokenHash' = tokenHash
  · subst hsame
    cases h with
    | nothing => exact absurd rfl hL
    | use htoken haside => simp [uses, RowWrite.ref]
  · rw [h.uses_eq_false hsame, decide_eq_false fun heq => hsame heq.symm]

end UseWrites

namespace AuthService

variable {C : AccountConfig}

theorem every_verifyEmail (rawToken : String) :
    (verifyEmail C rawToken).Every (UseWrites (C.hashToken rawToken)) := by
  refine every_verifyEmail_of (fun _ => .nothing) fun userId usedAt emailVerifiedAt => ?_
  refine Proc.every_transaction fun D => wp_verifyEmailTx fun token user htoken _ => ?_
  exact .use htoken (by simp [RowWrite.ref])

theorem every_resetPassword_uses (rawToken newPassword : String) :
    (resetPassword C.toAuthConfig rawToken newPassword).Every
      (UseWrites (C.hashToken rawToken)) := by
  refine every_resetPassword_of (fun _ => .nothing) (fun userId passwordHash usedAt revokedAt => ?_)
    newPassword
  refine Proc.every_transaction fun D => wp_resetPasswordTx fun token user htoken _ => ?_
  refine .use htoken fun w hw k => ?_
  rcases List.mem_cons.mp hw with rfl | hw
  · exact nofun
  · obtain ⟨e, -, rfl⟩ := List.mem_map.mp hw
    exact nofun

theorem looks_verifyEmail (rawToken : String) : (verifyEmail C rawToken).Looks
    (Used (C.hashToken rawToken)) (uses (C.hashToken rawToken)) := by
  apply Proc.looks_select rfl
  rintro D ⟨token, htoken, hused⟩
  have hfind : Db.verificationToken.find D (C.hashToken rawToken) = some token := htoken
  simp only [hfind]
  apply (Proc.every_call _).bind
  intro now
  simp [hused]
  trivial

theorem looks_resetPassword (rawToken newPassword : String) :
    (resetPassword C.toAuthConfig rawToken newPassword).Looks
      (Used (C.hashToken rawToken)) (uses (C.hashToken rawToken)) := by
  apply Proc.looks_select rfl
  rintro D ⟨token, htoken, hused⟩
  have hfind : Db.verificationToken.find D (C.hashToken rawToken) = some token := htoken
  simp only [hfind]
  apply (Proc.every_call _).bind
  intro now
  simp [hused]
  trivial

/-- A body that begins with the use of a token uses it. -/
theorem all_use {α : Type} {tokenHash : String} {f : VerificationToken → VerificationToken}
    {g : VerificationToken → TxM α} {P : α → Prop} :
    (Db.verificationToken.update tokenHash f >>= g : TxM α).All
      (fun a L => uses tokenHash L = true ∨ P a) [] := by
  apply Tx.all_bind
  apply Db.verificationToken.all_update
  intro token
  refine Tx.all_of_append _ fun a L => .inl ?_
  simp [uses, RowWrite.ref]

theorem unearned_verifyEmail (rawToken : String) :
    (verifyEmail C rawToken).Unearned (uses (C.hashToken rawToken)) fun r => r.isOk = false := by
  apply Proc.unearned_bind (fun _ => rfl)
  rintro (_ | record)
  · rfl
  apply Proc.unearned_bind (fun _ => rfl)
  intro now
  simp only
  split
  · rfl
  apply Proc.unearned_bind (fun _ => rfl)
  intro usedAt
  apply Proc.unearned_bind (fun _ => rfl)
  intro emailVerifiedAt
  exact Proc.Unearned.bind (Proc.unearned_transaction (fun _ => rfl) all_use)

theorem unearned_resetPassword (rawToken newPassword : String) :
    (resetPassword C.toAuthConfig rawToken newPassword).Unearned (uses (C.hashToken rawToken))
      fun r => r.isOk = false := by
  apply Proc.unearned_bind (fun _ => rfl)
  rintro (_ | record)
  · rfl
  apply Proc.unearned_bind (fun _ => rfl)
  intro now
  simp only
  split
  · rfl
  apply Proc.unearned_bind (fun _ => rfl)
  rintro (_ | ⟨userId, user⟩)
  · rfl
  simp only
  split
  · rfl
  apply Proc.unearned_bind (fun _ => rfl)
  intro passwordHash
  apply Proc.unearned_bind (fun _ => rfl)
  intro usedAt
  apply Proc.unearned_bind (fun _ => rfl)
  intro revokedAt
  exact Proc.unearned_transaction (fun _ => rfl) all_use

end AuthService

namespace TokenCall

variable (C : AccountConfig)

theorem every_useWrites (c : TokenCall) : (c.prog C).Every (UseWrites (c.tokenHash C)) := by
  cases c with
  | verifyEmail rawToken => exact (AuthService.every_verifyEmail rawToken).bind fun _ => trivial
  | resetPassword rawToken newPassword =>
      exact AuthService.every_resetPassword_uses rawToken newPassword

theorem looks (c : TokenCall) (tokenHash : String) :
    (c.prog C).Looks (Used tokenHash) (uses tokenHash) := by
  by_cases hsame : tokenHash = c.tokenHash C
  · subst hsame
    cases c with
    | verifyEmail rawToken =>
        exact (AuthService.looks_verifyEmail rawToken).bind rfl fun _ => trivial
    | resetPassword rawToken newPassword =>
        exact AuthService.looks_resetPassword rawToken newPassword
  · refine Proc.Spares.looks rfl ((every_useWrites C c).mono fun D L h hused => ?_)
    have hnot := h.uses_eq_false hsame
    obtain ⟨token, htoken, hused⟩ := hused
    exact ⟨⟨token, (lookup_of_not_uses hnot D).trans htoken, hused⟩, hnot⟩

theorem unearned (c : TokenCall) :
    (c.prog C).Unearned (uses (c.tokenHash C)) fun r => r.isOk = false := by
  cases c with
  | verifyEmail rawToken =>
      refine Proc.Unearned.bind ((AuthService.unearned_verifyEmail rawToken).mono ?_)
      rintro (e | user) h
      · rfl
      · cases h
  | resetPassword rawToken newPassword =>
      exact AuthService.unearned_resetPassword rawToken newPassword

theorem not_admits {c : TokenCall} {row : Option VerificationToken} {record : VerificationToken}
    {now : Time} (h : ¬ c.Admits row now) (hrow : row = some record) :
    record.purpose ≠ c.purpose ∨ record.usedAt.isSome = true ∨ record.expiresAt < now := by
  by_contra hnot
  simp only [not_or, ne_eq, not_not, Bool.not_eq_true, Option.isSome_eq_false_iff,
    Option.isNone_iff_eq_none, Nat.not_lt] at hnot
  exact h ⟨record, hrow, hnot⟩

/-- A request reads the row with its first step and the clock with its second. If these
do not admit it, it has written nothing and ends in an error. -/
theorem throws_of_not_admits (c : TokenCall) (D D' : Db) (fate fate' : Fate)
    (answer answer' : (q : Query) → Answer q)
    (h : ¬ c.Admits (D.verificationTokens.lookup (c.tokenHash C)) (answer' .now)) :
    ((c.prog C).step D fate answer).1 = [] ∧
      (((c.prog C).step D fate answer).2.step D' fate' answer').1 = [] ∧
      ∃ e, (((c.prog C).step D fate answer).2.step D' fate' answer').2 = .throw e := by
  cases fate with
  | failed => cases c <;> exact ⟨rfl, rfl, _, rfl⟩
  | lost => cases c <;> exact ⟨rfl, rfl, _, rfl⟩
  | done =>
      cases c with
      | verifyEmail rawToken =>
          simp only [prog, AuthService.verifyEmail, Delegate.findUnique, bind_assoc]
          rw [Proc.step_select_bind]
          rcases hrecord : Db.verificationToken.find D (C.hashToken rawToken) with _ | record
          · exact ⟨rfl, rfl, _, rfl⟩
          have hbad := not_admits h hrecord
          dsimp only [purpose] at hbad ⊢
          rw [bind_assoc, Proc.step_call_bind, if_pos hbad]
          split <;> exact ⟨rfl, rfl, _, rfl⟩
      | resetPassword rawToken newPassword =>
          simp only [prog, AuthService.resetPassword, Delegate.findUnique]
          rw [Proc.step_select_bind]
          rcases hrecord : Db.verificationToken.find D (C.hashToken rawToken) with _ | record
          · exact ⟨rfl, rfl, _, rfl⟩
          have hbad := not_admits h hrecord
          dsimp only [purpose] at hbad ⊢
          rw [Proc.step_call_bind, if_pos hbad]
          split <;> exact ⟨rfl, rfl, _, rfl⟩

end TokenCall

/-- A step that uses a token leaves no request behind that has read it before and may
still use it. -/
def UsesAlone (s s' : TokenPool) : Prop :=
  ∀ tokenHash, s.ActsAlone (Used tokenHash) (uses tokenHash) s'

/-- The number of commits of a run by requests that present a token. -/
def commitsWith (C : AccountConfig) (tokenHash : String)
    (history : List (TokenCall × List RowWrite)) : Nat :=
  history.countP fun e => e.1.tokenHash C = tokenHash

theorem commitsWith_eq (C : AccountConfig) {D : Db} {s : TokenPool}
    {ok : TokenPool → TokenPool → Prop}
    (run : Pool.Reach (TokenCall.prog C) (fun _ => True) ok (.idle D) s) (tokenHash : String) :
    commitsWith C tokenHash s.history = Pool.actsOf (uses tokenHash) s.history := by
  have hall : ∀ e ∈ s.history, uses tokenHash e.2 = decide (e.1.tokenHash C = tokenHash) := by
    refine Pool.Reach.invariant (K := fun c => UseWrites (c.tokenHash C))
      (I := fun _ history => ∀ e ∈ history,
        uses tokenHash e.2 = decide (e.1.tokenHash C = tokenHash))
      (fun _ _ => .nothing) (fun c _ => TokenCall.every_useWrites C c) (by simp) ?_ run
    intro s s' c L _ _ _ h _ ih e he
    by_cases hL : L = []
    · rw [hL] at he
      exact ih e he
    · simp only [Pool.record, List.isEmpty_iff, hL, if_false, List.mem_cons] at he
      rcases he with rfl | he
      · exact h.uses_eq hL
      · exact ih e he
  exact List.countP_congr fun e he => by simp [hall e he]

/-- In every run whose steps use tokens alone: requests that present one token make at
most one commit, at most one of them returns, and the row of a used token never
changes. In any run, a request whose token is not there, has another purpose, is used
or has expired when it looks throws without a write. -/
theorem verification_tokens_single_use (C : AccountConfig) (D : Db) (s s' : TokenPool)
    (run : Pool.Reach (TokenCall.prog C) (fun _ => True) UsesAlone (.idle D) s)
    (run' : Pool.Reach (TokenCall.prog C) (fun _ => True) UsesAlone s s') (tokenHash : String) :
    commitsWith C tokenHash s.history ≤ 1 ∧
    (∀ t u k k', s.tasks t = some k → s.tasks u = some k' → k.call.tokenHash C = tokenHash →
      k'.call.tokenHash C = tokenHash → k.rest = .ret () → k'.rest = .ret () → t = u) ∧
    (∀ token, s.db.verificationTokens.lookup tokenHash = some token → token.usedAt.isSome = true →
      s'.db.verificationTokens.lookup tokenHash = some token) ∧
    ∀ (c : TokenCall) (D₁ D₂ : Db) (fate fate' : Fate) (answer answer' : (q : Query) → Answer q),
      ¬ c.Admits (D₁.verificationTokens.lookup (c.tokenHash C)) (answer' .now) →
        ((c.prog C).step D₁ fate answer).1 = [] ∧
        (((c.prog C).step D₁ fate answer).2.step D₂ fate' answer').1 = [] ∧
        ∃ e, (((c.prog C).step D₁ fate answer).2.step D₂ fate' answer').2 = .throw e := by
  have hone : Pool.actsOf (uses tokenHash) s.history ≤ 1 :=
    (run.actsOf_le_one rfl (fun c _ => TokenCall.looks C c tokenHash) (fun _ _ h => h tokenHash)
      fun c _ => (TokenCall.every_useWrites C c).mono fun _ _ h huse => (h.used huse).2).1
  refine ⟨commitsWith_eq C run tokenHash ▸ hone, fun t u k k' hk hk' hc hc' hret hret' => ?_,
    fun token htoken hused => ?_, fun c D₁ D₂ fate fate' answer answer' =>
      TokenCall.throws_of_not_admits C c D₁ D₂ fate fate' answer answer'⟩
  · have hearned : ∀ {v k}, s.tasks v = some k → k.call.tokenHash C = tokenHash →
        k.rest = .ret () → s.Earned (uses tokenHash) (fun r => r.isOk = false)
          (fun c => c.tokenHash C = tokenHash) v := by
      rintro v k hk hc hret
      refine ⟨k, hk, hc, ?_⟩
      rw [hret]
      exact Bool.noConfusion
    exact (run.earnsOnce rfl fun c hc => hc ▸ TokenCall.unearned C c).one hone t u
      (hearned hk hc hret) (hearned hk' hc' hret')
  · rw [← htoken]
    exact (run.frozen (F := fun D => D.verificationTokens.lookup tokenHash) rfl
      (fun c _ => TokenCall.looks C c tokenHash) (fun _ _ h => h tokenHash)
      (fun D L h => lookup_of_not_uses h D) run' ⟨token, htoken, hused⟩).2

/-- A user who has asked for a new password. -/
def resetDb : Db :=
  { sampleSession with
    verificationTokens := (∅ : Table String VerificationToken).write "t1"
      (some ⟨"ana", .PASSWORD_RESET, 10, none⟩) }

/-- Answers for concrete runs, where a password is its own hash. -/
def tokenAnswer : (q : Query) → Answer q
  | .hashPassword password => password
  | q => sampleAnswer .COMPLETED q

/-- `n` steps of task `t`, all made. -/
def tokenSteps (t n : Nat) : List (Event TokenCall Answer) :=
  List.replicate n (.go t .done tokenAnswer)

/-- The check of a step that uses no token. -/
def sameTokens (D D' : Db) : Bool := D'.verificationTokens.toRows = D.verificationTokens.toRows

theorem usesAlone_of_sameTokens {s s' : TokenPool} (h : sameTokens s.db s'.db = true) :
    UsesAlone s s' := by
  rintro tokenHash hnot ⟨token, htoken, hused⟩
  have heq : s'.db.verificationTokens.toRows = s.db.verificationTokens.toRows :=
    of_decide_eq_true h
  rw [← Table.mem_toRows, heq, Table.mem_toRows] at htoken
  exact absurd ⟨token, htoken, hused⟩ hnot

/-- A password is reset, and a second request with the token is refused. -/
theorem verification_tokens_single_use_of_reset : ∃ s s' : TokenPool,
    commitsWith sampleAccounts "t1" s.history = 1 ∧
    s.db.verificationTokens.lookup "t1" = some ⟨"ana", .PASSWORD_RESET, 10, some 0⟩ ∧
    (s'.tasks 1).isSome = true ∧
    s'.db.verificationTokens.lookup "t1" = some ⟨"ana", .PASSWORD_RESET, 10, some 0⟩ := by
  obtain ⟨s₁, k, s', hs₁, hk, hrest, hcommits, htoken, hs', htask⟩ :
      ∃ (s₁ : TokenPool) (k : Task Db RowWrite Err TokenCall Answer Unit) (s' : TokenPool),
        Pool.run (TokenCall.prog sampleAccounts) sameTokens (.idle resetDb)
          (.spawn 0 (.resetPassword "t1" "p0") :: tokenSteps 0 6) = some s₁ ∧
        s₁.tasks 0 = some k ∧ (k.rest.step s₁.db .done tokenAnswer).2 = .ret () ∧
        1 ≤ commitsWith sampleAccounts "t1" (s₁.advance 0 k .done tokenAnswer).history ∧
        (s₁.advance 0 k .done tokenAnswer).db.verificationTokens.lookup "t1" =
          some ⟨"ana", .PASSWORD_RESET, 10, some 0⟩ ∧
        Pool.run (TokenCall.prog sampleAccounts) sameTokens (s₁.advance 0 k .done tokenAnswer)
          (.spawn 1 (.resetPassword "t1" "p1") :: tokenSteps 1 2) = some s' ∧
        (s'.tasks 1).isSome = true := by
    refine ⟨_, _, _, rfl, rfl, rfl, ?_, rfl, rfl, ?_⟩
    · decide
    · decide
  have run₁ : Pool.Reach (TokenCall.prog sampleAccounts) (fun _ => True) UsesAlone (.idle resetDb)
      s₁ :=
    Pool.Reach.refl.run (fun _ _ => usesAlone_of_sameTokens) _
      (by simp [tokenSteps, Event.Starts]) hs₁
  have alone : ∀ u, u ≠ 0 → s₁.tasks u = none := fun u hu =>
    Pool.tasks_run (by simp [tokenSteps, Event.task, hu.symm]) hs₁
  have run := run₁.go hk .done tokenAnswer fun tokenHash _ _ =>
    .of_alone alone (by rw [hrest]; trivial)
  have run' : Pool.Reach (TokenCall.prog sampleAccounts) (fun _ => True) UsesAlone
      (s₁.advance 0 k .done tokenAnswer) s' :=
    Pool.Reach.refl.run (fun _ _ => usesAlone_of_sameTokens) _
      (by simp [tokenSteps, Event.Starts]) hs'
  obtain ⟨hone, -, hkept, -⟩ :=
    verification_tokens_single_use sampleAccounts resetDb _ s' run run' "t1"
  exact ⟨_, s', le_antisymm hone hcommits, htoken, htask, hkept _ htoken rfl⟩

/-- Two requests read the unused token, and both reset the password. -/
theorem token_used_twice : ∃ (s : TokenPool)
    (k k' : Task Db RowWrite Err TokenCall Answer Unit),
    Pool.Reach (TokenCall.prog sampleAccounts) (fun _ => True) (fun _ _ => True) (.idle resetDb) s ∧
    s.tasks 0 = some k ∧ k.call = .resetPassword "t1" "p0" ∧ k.rest = .ret () ∧
    s.tasks 1 = some k' ∧ k'.call = .resetPassword "t1" "p1" ∧ k'.rest = .ret () ∧
    commitsWith sampleAccounts "t1" s.history = 2 ∧
    (s.db.users.lookup "ana").map (·.passwordHash) = some "p0" := by
  refine ⟨_, _, _, Pool.Reach.of_run
    ([.spawn 0 (.resetPassword "t1" "p0"), .spawn 1 (.resetPassword "t1" "p1")] ++
      tokenSteps 0 6 ++ tokenSteps 1 7 ++ tokenSteps 0 1) rfl, rfl, rfl, rfl, rfl, rfl, rfl, ?_, ?_⟩
  · decide
  · decide

end TaroTria
