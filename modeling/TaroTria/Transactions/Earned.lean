import TaroTria.Transactions.Delegate

/-!
# Results that a commit must earn

Some results may only be returned by a request that has committed certain
writes. If such a commit happens at most once in a run, then at most one of the
running requests can return such a result, whatever the interleaving.

## Implementation notes

`Tx.All` asks nothing of the databases that the statements see, so it needs no
lock and no discipline. A commit that is lost counts as one that was made.
-/

namespace TaroTria.Transactions

variable {Db Write Ref E Q Call K V α β : Type} {Ans : Q → Type}

/-- Whatever its statements answer, a body with the writes `L` ends with a value
and writes satisfying `P`. -/
def Tx.All (P : α → List Write → Prop) : Tx Db Write E α → List Write → Prop
  | .ret a, L => P a L
  | .throw _, _ => True
  | .stmt s next, L => ∀ D b ws, s D = .ok (b, ws) → (next b).All P (L ++ ws)

namespace Tx

theorem all_mono {P P' : α → List Write → Prop} (hP : ∀ a L, P a L → P' a L)
    {p : Tx Db Write E α} {L : List Write} (h : p.All P L) : p.All P' L := by
  induction p generalizing L with
  | ret a => exact hP a L h
  | throw e => trivial
  | stmt s next ih => exact fun D b ws hs => ih b (h D b ws hs)

theorem all_bind {P : β → List Write → Prop} {p : Tx Db Write E α} {f : α → Tx Db Write E β}
    {L : List Write} (h : p.All (fun a L' => (f a).All P L') L) : (p >>= f).All P L := by
  induction p generalizing L with
  | ret a => exact h
  | throw e => trivial
  | stmt s next ih =>
      intro D b ws hs
      exact ih b (h D b ws hs)

/-- What holds with any more writes holds of every body. -/
theorem all_of_append {P : α → List Write → Prop} (p : Tx Db Write E α) {L : List Write}
    (h : ∀ a L', P a (L ++ L')) : p.All P L := by
  induction p generalizing L with
  | ret a =>
      have := h a []
      rwa [List.append_nil] at this
  | throw e => trivial
  | stmt s next ih =>
      intro D b ws hs
      refine ih b fun a L' => ?_
      rw [List.append_assoc]
      exact h a (ws ++ L')

end Tx

theorem Delegate.all_create [RowStore Db Write Ref] [DecidableEq K] [SqlError E]
    (M : Delegate Db K V) {k : K} {v : V} {P : V → List Write → Prop} {L : List Write}
    (h : P v (L ++ [M.write k (some v)])) : (M.create k v : Tx Db Write E V).All P L := by
  intro D b ws hs
  cases hf : M.find D k with
  | some v' => simp only [hf, reduceCtorEq] at hs
  | none =>
      simp only [hf, Except.ok.injEq, Prod.mk.injEq] at hs
      obtain ⟨rfl, rfl⟩ := hs
      exact h

theorem Delegate.all_update [RowStore Db Write Ref] [DecidableEq K] [SqlError E]
    (M : Delegate Db K V) {k : K} {f : V → V} {P : V → List Write → Prop} {L : List Write}
    (h : ∀ v, P (f v) (L ++ [M.write k (some (f v))])) :
    (M.update k f : Tx Db Write E V).All P L := by
  intro D b ws hs
  cases hf : M.find D k with
  | none => simp only [hf, reduceCtorEq] at hs
  | some v =>
      simp only [hf, Except.ok.injEq, Prod.mk.injEq] at hs
      obtain ⟨rfl, rfl⟩ := hs
      exact h v

/-- As long as the request has not committed writes satisfying `K`, it can only
end in `P`. -/
def Proc.Unearned (K : List Write → Bool) (P : Except E α → Prop) : Proc Db Write E Ans α → Prop
  | .ret a => P (.ok a)
  | .throw e => P (.error e)
  | .tx body next => (∀ e, (next (.error e)).Unearned K P) ∧
      body.All (fun a L => K L = true ∨ (next (.ok a)).Unearned K P) []
  | .ask _ next => ∀ r, (next r).Unearned K P

namespace Proc

variable {K : List Write → Bool}

theorem Unearned.mono {P P' : Except E α → Prop} (hP : ∀ r, P r → P' r)
    {p : Proc Db Write E Ans α} (h : p.Unearned K P) : p.Unearned K P' := by
  induction p with
  | ret a => exact hP _ h
  | throw e => exact hP _ h
  | tx body next ih =>
      exact ⟨fun e => ih _ (h.1 e), Tx.all_mono (fun a L hL => hL.imp_right (ih _)) h.2⟩
  | ask q next ih => exact fun r => ih r (h r)

theorem Unearned.bind {P : Except E β → Prop} {p : Proc Db Write E Ans α}
    {f : α → Proc Db Write E Ans β}
    (h : p.Unearned K fun r => match r with
      | .ok a => (f a).Unearned K P
      | .error e => P (.error e)) : (p >>= f).Unearned K P := by
  induction p with
  | ret a => exact h
  | throw e => exact h
  | tx body next ih =>
      exact ⟨fun e => ih _ (h.1 e), Tx.all_mono (fun a L hL => hL.imp_right (ih _)) h.2⟩
  | ask q next ih => exact fun r => ih r (h r)

theorem Unearned.handle {P : Except E α → Prop} {p : Proc Db Write E Ans α}
    {f : E → Proc Db Write E Ans α}
    (h : p.Unearned K fun r => match r with
      | .ok a => P (.ok a)
      | .error e => (f e).Unearned K P) : (p.handle f).Unearned K P := by
  induction p with
  | ret a => exact h
  | throw e => exact h
  | tx body next ih =>
      exact ⟨fun e => ih _ (h.1 e), Tx.all_mono (fun a L hL => hL.imp_right (ih _)) h.2⟩
  | ask q next ih => exact fun r => ih r (h r)

/-- A request of which every result is allowed. -/
theorem unearned_of_forall {P : Except E α → Prop} (p : Proc Db Write E Ans α) (h : ∀ r, P r) :
    p.Unearned K P := by
  induction p with
  | ret a => exact h _
  | throw e => exact h _
  | tx body next ih =>
      exact ⟨fun e => ih _, Tx.all_of_append body fun a L => .inr (ih (.ok a))⟩
  | ask q next ih => exact fun r => ih r

/-- A first part that may answer anything. -/
theorem unearned_bind {P : Except E β → Prop} {p : Proc Db Write E Ans α}
    {f : α → Proc Db Write E Ans β} (herr : ∀ e, P (.error e)) (hok : ∀ a, (f a).Unearned K P) :
    (p >>= f).Unearned K P :=
  .bind (unearned_of_forall p fun r => match r with
    | .ok a => hok a
    | .error e => herr e)

theorem unearned_transaction {P : Except E α → Prop} {body : Tx Db Write E α}
    (herr : ∀ e, P (.error e)) (hok : body.All (fun a L => K L = true ∨ P (.ok a)) []) :
    (transaction body : Proc Db Write E Ans α).Unearned K P :=
  ⟨herr, hok⟩

end Proc

/-- A running request that has still to earn what it may not return. -/
def Thread.Unearned (K : List Write → Bool) (P : Except E α → Prop) : Thread Db Write E Ans α → Prop
  | .between proc => proc.Unearned K P
  | .inside L body next => (∀ e, (next (.error e)).Unearned K P) ∧
      body.All (fun a L' => K L' = true ∨ (next (.ok a)).Unearned K P) L

namespace Server

variable {S : Service Db Write E Call Ans α} {calls mine : Call → Prop} {K : List Write → Bool}
  {P : Except E α → Prop}

/-- Thread `t` serves one of the calls `mine` and may return what is to be earned. -/
def Earned (K : List Write → Bool) (P : Except E α → Prop) (mine : Call → Prop)
    (s : Server Db Write Ref E Call Ans α) (t : Nat) : Prop :=
  ∃ c th, s.threads t = some (c, th) ∧ mine c ∧ ¬ th.Unearned K P

/-- The commits of a history whose writes satisfy `K`. -/
def commitsOf (K : List Write → Bool) (hist : List (Call × List Write)) : Nat :=
  hist.countP fun e => K e.2

/-- No thread has earned its result before the first commit that earns it, and
one thread has before the second. -/
structure EarnsOnce (K : List Write → Bool) (P : Except E α → Prop) (mine : Call → Prop)
    (s : Server Db Write Ref E Call Ans α) : Prop where
  none : commitsOf K s.history = 0 → ∀ t, ¬ s.Earned K P mine t
  one : commitsOf K s.history ≤ 1 → ∀ t u, s.Earned K P mine t → s.Earned K P mine u → t = u

theorem earnsOnce_idle (D : Db) :
    (idle D : Server Db Write Ref E Call Ans α).EarnsOnce K P mine where
  none := by simp [Earned, idle]
  one := by simp [Earned, idle]

/-- Who has earned after the change of one thread. -/
theorem earned_update {s s' : Server Db Write Ref E Call Ans α} {t : Nat}
    {x : Option (Call × Thread Db Write E Ans α)}
    (hthreads : s'.threads = Function.update s.threads t x)
    (hx : ∀ c th, x = some (c, th) → mine c → ¬ th.Unearned K P → s.Earned K P mine t) {u : Nat}
    (hu : s'.Earned K P mine u) : s.Earned K P mine u := by
  obtain ⟨c, th, hth, hmine, hearned⟩ := hu
  rw [hthreads, Function.update_apply] at hth
  split at hth
  · rename_i heq
    exact heq ▸ hx c th hth hmine hearned
  · exact ⟨c, th, hth, hmine, hearned⟩

/-- A change of one thread that earns nothing. -/
theorem EarnsOnce.update {s s' : Server Db Write Ref E Call Ans α} (h : s.EarnsOnce K P mine)
    {t : Nat} {x : Option (Call × Thread Db Write E Ans α)}
    (hthreads : s'.threads = Function.update s.threads t x)
    (hhist : commitsOf K s'.history = commitsOf K s.history)
    (hx : ∀ c th, x = some (c, th) → mine c → ¬ th.Unearned K P → s.Earned K P mine t) :
    s'.EarnsOnce K P mine where
  none hzero u hu := h.none (hhist ▸ hzero) u (earned_update hthreads hx hu)
  one hone u v hu hv := h.one (hhist ▸ hone) u v (earned_update hthreads hx hu)
    (earned_update hthreads hx hv)

/-- Thread `t` goes on from `th` without a commit, unearned as long as `th` was. -/
theorem EarnsOnce.go {s s' : Server Db Write Ref E Call Ans α} (h : s.EarnsOnce K P mine) {t : Nat}
    {c : Call} {th th' : Thread Db Write E Ans α} (ht : s.threads t = some (c, th))
    (hthreads : s'.threads = Function.update s.threads t (some (c, th')))
    (hhist : s'.history = s.history) (hgo : th.Unearned K P → th'.Unearned K P) :
    s'.EarnsOnce K P mine := by
  refine h.update hthreads (by rw [hhist]) fun c' th'' hx hmine hearned => ?_
  cases hx
  exact ⟨c, th, ht, hmine, fun hun => hearned (hgo hun)⟩

variable [RowStore Db Write Ref]

/-- Thread `t` commits the writes `L`. -/
theorem EarnsOnce.publish (hnil : K [] = false) {s : Server Db Write Ref E Call Ans α}
    (h : s.EarnsOnce K P mine) {t : Nat} {c : Call} {L : List Write} {a : β}
    {next : Except E β → Proc Db Write E Ans α} {proc : Proc Db Write E Ans α}
    (ht : s.threads t = some (c, .inside L (.ret a) next))
    (hproc : (Thread.inside L (.ret a) next : Thread Db Write E Ans α).Unearned K P →
      K L = true ∨ proc.Unearned K P) : (s.publish t c L proc).EarnsOnce K P mine := by
  have hthreads : (s.publish t c L proc).threads =
      Function.update s.threads t (some (c, .between proc)) := rfl
  by_cases hK : K L = true
  · have hcount : commitsOf K (s.publish t c L proc).history = commitsOf K s.history + 1 := by
      cases L with
      | nil => simp [hnil] at hK
      | cons w L => simp [commitsOf, Server.publish, hK]
    refine ⟨fun hzero => by omega, fun hone u v hu hv => ?_⟩
    -- Before this commit nobody had earned, so only this thread may have now.
    have hold := h.none (by omega)
    have only : ∀ {w}, (s.publish t c L proc).Earned K P mine w → w = t := by
      intro w hw
      by_contra hne
      obtain ⟨c', th, hth, hw⟩ := hw
      rw [hthreads, Function.update_of_ne hne] at hth
      exact hold w ⟨c', th, hth, hw⟩
    rw [only hu, only hv]
  · refine h.update hthreads ?_ fun c' th hx hmine hearned => ?_
    · cases L with
      | nil => rfl
      | cons w L => simp [commitsOf, Server.publish, hK]
    · cases hx
      exact ⟨c, _, ht, hmine, fun hun => hearned ((hproc hun).resolve_left hK)⟩

variable [DecidableEq Ref] [DecidableEq Q] [SqlError E]

theorem EarnsOnce.step (hnil : K [] = false) (hS : ∀ c, mine c → (S.prog c).Unearned K P)
    {s s' : Server Db Write Ref E Call Ans α} {m : Move Call Ans} (h : s.EarnsOnce K P mine)
    (hs : s.step S m = some s') : s'.EarnsOnce K P mine := by
  cases m with
  | spawn t c =>
      simp only [Server.step] at hs
      split at hs
      · cases hs
        refine h.update rfl rfl fun c' th hx hmine hearned => ?_
        cases hx
        exact absurd (hS c hmine) hearned
      · cases hs
  | start t =>
      simp only [Server.step] at hs
      split at hs
      · rename_i c β body next ht
        cases hs
        exact h.go ht rfl rfl id
      · cases hs
  | exec t =>
      simp only [Server.step] at hs
      split at hs
      · rename_i c β L γ f k next ht
        split at hs
        · rename_i b ws hf
          split at hs
          · cases hs
            exact h.go ht rfl rfl fun hun => ⟨hun.1, hun.2 _ b ws hf⟩
          · cases hs
        · rename_i e hf
          cases hs
          exact h.go ht rfl rfl fun hun => hun.1 e
      · rename_i c β L e next ht
        cases hs
        exact h.go ht rfl rfl fun hun => hun.1 e
      · cases hs
  | commit t =>
      simp only [Server.step] at hs
      split at hs
      · rename_i c β L a next ht
        cases hs
        exact h.publish hnil ht fun hun => hun.2
      · cases hs
  | lose t =>
      simp only [Server.step] at hs
      split at hs
      · rename_i c β L a next ht
        cases hs
        exact h.publish hnil ht fun hun => .inr (hun.1 _)
      · cases hs
  | fail t =>
      simp only [Server.step] at hs
      split at hs
      · rename_i c β body next ht
        cases hs
        exact h.go ht rfl rfl fun hun => hun.1 _
      · rename_i c β L body next ht
        cases hs
        exact h.go ht rfl rfl fun hun => hun.1 _
      · cases hs
  | kill t =>
      cases hs
      exact h.update rfl rfl fun c th hx => by cases hx
  | answer t q a =>
      simp only [Server.step] at hs
      split at hs
      · rename_i c q' next ht
        split at hs
        · rename_i hq
          subst hq
          cases hs
          exact h.go ht rfl rfl fun hun => hun _
        · cases hs
      · cases hs
  | unanswered t =>
      simp only [Server.step] at hs
      split at hs
      · rename_i c q' next ht
        cases hs
        exact h.go ht rfl rfl fun hun => hun _
      · cases hs

theorem Reach.earnsOnce (hnil : K [] = false) (hS : ∀ c, mine c → (S.prog c).Unearned K P)
    {s₀ s : Server Db Write Ref E Call Ans α} (h₀ : s₀.EarnsOnce K P mine)
    (run : Reach S calls s₀ s) : s.EarnsOnce K P mine := by
  induction run with
  | refl => exact h₀
  | step tail ok hs ih => exact ih.step hnil hS hs

end Server

end TaroTria.Transactions
