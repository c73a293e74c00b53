import TaroTria.Transactions.Latch

/-!
# Seals

A seal is a family of conditions on the rows, at most one of which holds: a
value that some rows take and are meant to keep from then on. A request may run
transactions that cannot break the seal before the one that checks it, so the
number of the checking transaction is given for each call.

## Implementation notes

A latch is a seal of one condition whose requests check it with their first
transaction.
-/

namespace TaroTria.Transactions

variable {Db Write Ref E Q Call α : Type} {Ans : Q → Type} [RowStore Db Write Ref] [SqlError E]

/-- A request that checks `I` after `n` transactions, which keep it. -/
def Proc.ChecksAt (I : Db → Prop) : Nat → Proc Db Write E Ans α → Prop
  | 0, p => p.Checks I
  | _ + 1, .ret _ => True
  | _ + 1, .throw _ => True
  | n + 1, .tx body next => ∀ D fate, (I D → I (view (body.outcome D fate).1 D)) ∧
      (next (body.outcome D fate).2).ChecksAt I n
  | n + 1, .ask _ next => ∀ r, (next r).ChecksAt I (n + 1)

namespace Proc

variable {I : Db → Prop}

@[simp] theorem checksAt_zero (p : Proc Db Write E Ans α) : p.ChecksAt I 0 ↔ p.Checks I := by
  cases p <;> exact Iff.rfl

@[simp] theorem checksAt_throw (e : E) (n : Nat) :
    (throw e : Proc Db Write E Ans α).ChecksAt I n := by
  cases n <;> trivial

@[simp] theorem checksAt_ret (a : α) (n : Nat) :
    (ret a : Proc Db Write E Ans α).ChecksAt I n := by
  cases n <;> trivial

theorem Keeps.checksAt {p : Proc Db Write E Ans α} (h : p.Keeps I) (n : Nat) : p.ChecksAt I n := by
  induction p generalizing n with
  | ret a => exact checksAt_ret a n
  | throw e => exact checksAt_throw e n
  | tx body next ih =>
      cases n with
      | zero => exact h.checks
      | succ n =>
          intro D fate
          obtain ⟨hkeep, hrest⟩ := Every.outcome h (fun _ hI => hI) D fate
          exact ⟨hkeep, ih _ hrest n⟩
  | ask q next ih =>
      cases n with
      | zero => exact h.checks
      | succ n => exact fun r => ih r (h r) (n + 1)

theorem ChecksAt.bind {β : Type} {p : Proc Db Write E Ans β} {f : β → Proc Db Write E Ans α}
    {n : Nat} (h : p.ChecksAt I n) (hf : ∀ a, (f a).Keeps I) : (p >>= f).ChecksAt I n := by
  induction p generalizing n with
  | ret a => exact (hf a).checksAt n
  | throw e => exact checksAt_throw e n
  | tx body next ih =>
      cases n with
      | zero => exact (checksAt_zero _).mpr (Checks.bind h hf)
      | succ n => exact fun D fate => ⟨(h D fate).1, ih _ (h D fate).2⟩
  | ask q next ih =>
      cases n with
      | zero => exact (checksAt_zero _).mpr (Checks.bind h hf)
      | succ n => exact fun r => ih r (h r)

/-- The rule for a read that comes before the check. -/
theorem checksAt_select {β : Type} {f : Db → β} {g : β → Proc Db Write E Ans α} {n : Nat}
    (h : ∀ b, (g b).ChecksAt I n) : (transaction (Tx.select f) >>= g).ChecksAt I (n + 1) := by
  intro D fate
  cases fate with
  | failed => exact ⟨id, checksAt_throw _ n⟩
  | done => exact ⟨id, h _⟩
  | lost => exact ⟨id, checksAt_throw _ n⟩

/-- A step of a request that has its check ahead, where `I` holds. -/
theorem ChecksAt.step {p : Proc Db Write E Ans α} {n : Nat} (h : p.ChecksAt I n) {D : Db}
    (hI : I D) (fate : Fate) (answer : (q : Q) → Ans q) :
    I (view (p.step D fate answer).1 D) := by
  cases p with
  | ret a => exact hI
  | throw e => exact hI
  | tx body next =>
      cases n with
      | zero => exact (h D fate hI).1
      | succ n => exact (h D fate).1 hI
  | ask q next => exact hI

end Proc

namespace Pool

variable {prog : Call → Proc Db Write E Ans α} {calls : Call → Prop} {checkAt : Call → Nat}
  {s s' s₀ : Pool Db Write E Call Ans α} {I : Db → Prop}

/-- A request that has not run its checking transaction has it ahead. -/
def CheckingAt (checkAt : Call → Nat) (I : Db → Prop) (s : Pool Db Write E Call Ans α) : Prop :=
  ∀ t k, s.tasks t = some k → k.transactions ≤ checkAt k.call →
    k.rest.ChecksAt I (checkAt k.call - k.transactions)

theorem CheckingAt.moved (hcalls : ∀ c, calls c → (prog c).ChecksAt I (checkAt c))
    (h : s.CheckingAt checkAt I) (hm : Moved prog calls s s') : s'.CheckingAt checkAt I := by
  intro u k' hk' hle
  cases hm with
  | spawn t c hc hdb hhist htasks =>
      rcases htasks u k' hk' with hold | rfl
      · exact h u k' hold hle
      · exact hcalls c hc
  | go t k fate answer ht eq =>
      subst eq
      rcases tasks_advance hk' with ⟨-, rfl⟩ | ⟨-, hold⟩
      · obtain ⟨c, n, rest⟩ := k
        cases rest with
        | tx body next =>
            have hlt : n < checkAt c := hle
            have hcheck : (Proc.tx body next).ChecksAt I (checkAt c - n) := h t _ ht hlt.le
            obtain ⟨m, hm⟩ : ∃ m, checkAt c - n = m + 1 := ⟨checkAt c - n - 1, by omega⟩
            rw [hm] at hcheck
            have hm' : checkAt c - (n + 1) = m := by omega
            have hrest := (hcheck s.db fate).2
            rw [← hm'] at hrest
            exact hrest
        | ret a => exact Proc.checksAt_ret a _
        | throw e => exact Proc.checksAt_throw e _
        | ask q next =>
            have hcheck : (Proc.ask q next).ChecksAt I (checkAt c - n) := h t _ ht hle
            change (next (fate.reply (answer q))).ChecksAt I (checkAt c - n)
            cases hm : checkAt c - n with
            | zero =>
                rw [hm] at hcheck
                exact (Proc.checksAt_zero _).mpr (hcheck _)
            | succ m =>
                rw [hm] at hcheck
                exact hcheck _
      · exact h u k' hold hle
  | kill hdb hhist htasks => exact h u k' (htasks u k' hk') hle

/-- No request that has run its checking transaction can still break `I`. -/
def UnthreatenedAt (checkAt : Call → Nat) (I : Db → Prop) (s : Pool Db Write E Call Ans α) : Prop :=
  ∀ t k, s.tasks t = some k → checkAt k.call < k.transactions → k.rest.Keeps I

/-- Where the condition holds and nothing threatens it, no event changes that. -/
theorem UnthreatenedAt.moved (hs : s.CheckingAt checkAt I) (hm : Moved prog calls s s')
    (hI : I s.db) (hu : s.UnthreatenedAt checkAt I) :
    I s'.db ∧ s'.UnthreatenedAt checkAt I := by
  cases hm with
  | spawn t c hc hdb hhist htasks =>
      refine ⟨hdb ▸ hI, fun u k hk hpos => ?_⟩
      rcases htasks u k hk with hold | rfl
      · exact hu u k hold hpos
      · exact absurd hpos (Nat.not_lt_zero _)
  | go t k fate answer ht eq =>
      subst eq
      -- Up to the check the step keeps `I`, and a later step belongs to a request that does.
      have hstep : I (view (k.rest.step s.db fate answer).1 s.db) ∧
          (checkAt k.call < (after k (k.rest.step s.db fate answer).2).transactions →
            (k.rest.step s.db fate answer).2.Keeps I) := by
        rcases Nat.lt_or_ge (checkAt k.call) k.transactions with hpast | hle
        · obtain ⟨hkeep, hrest⟩ := (hu t k ht hpast).step s.db fate answer
          exact ⟨hkeep hI, fun _ => hrest⟩
        · have hcheck := hs t k ht hle
          refine ⟨hcheck.step hI fate answer, fun hpos => ?_⟩
          obtain ⟨c, n, rest⟩ := k
          cases rest with
          | tx body next =>
              have heq : checkAt c - n = 0 := by
                simp only [after] at hpos
                omega
              simp only [heq] at hcheck
              exact (hcheck s.db fate hI).2
          | ret a => trivial
          | throw e => trivial
          | ask q next =>
              simp only [after] at hpos
              exact absurd hpos (by simpa using hle)
      refine ⟨hstep.1, fun u k' hk' hpos => ?_⟩
      rcases tasks_advance hk' with ⟨-, rfl⟩ | ⟨-, hold⟩
      · simpa using hstep.2 (by simpa using hpos)
      · exact hu u k' hold hpos
  | kill hdb hhist htasks =>
      exact ⟨hdb ▸ hI, fun u k hk hpos => hu u k (htasks u k hk) hpos⟩

/-- The step of a request without companions, after which it keeps `I`. -/
theorem UnthreatenedAt.of_alone {t : Nat} {k : Task Db Write E Call Ans α} {fate : Fate}
    {answer : (q : Q) → Ans q} (halone : ∀ u, u ≠ t → s.tasks u = none)
    (h : (k.rest.step s.db fate answer).2.Keeps I) :
    (s.advance t k fate answer).UnthreatenedAt checkAt I := by
  intro u k' hk' _
  rcases tasks_advance hk' with ⟨-, rfl⟩ | ⟨hut, hold⟩
  · simpa using h
  · rw [halone u hut] at hold
    cases hold

section Family

variable {V : Type} {J : V → Db → Prop}
  {ok : Pool Db Write E Call Ans α → Pool Db Write E Call Ans α → Prop}

/-- A step that sets the seal leaves no request behind that has checked it before and
can still break it. -/
def SealsAlone (checkAt : Call → Nat) (J : V → Db → Prop) (s s' : Pool Db Write E Call Ans α) :
    Prop :=
  (∀ v, ¬ J v s.db) → ∀ v, J v s'.db → s'.UnthreatenedAt checkAt (J v)

theorem Reach.checkingAt (hcalls : ∀ c, calls c → (prog c).ChecksAt I (checkAt c))
    (h : Reach prog calls ok s₀ s) (h₀ : s₀.CheckingAt checkAt I) : s.CheckingAt checkAt I := by
  induction h with
  | refl => exact h₀
  | step tail he hs hok ih => exact ih.moved hcalls (step_moved he hs)

/-- In a run whose steps set the seal alone, nothing threatens a seal that is set. -/
theorem Reach.unthreatenedAt (hunique : ∀ D v w, J v D → J w D → v = w)
    (hcalls : ∀ v c, calls c → (prog c).ChecksAt (J v) (checkAt c))
    (hok : ∀ s s', ok s s' → s.SealsAlone checkAt J s') {D : Db}
    (run : Reach prog calls ok (idle D) s) {v : V} (hv : J v s.db) :
    s.UnthreatenedAt checkAt (J v) := by
  induction run generalizing v with
  | refl =>
      intro t k hk
      cases hk
  | @step s₁ s₂ e tail he hs hok' ih =>
      by_cases hset : ∃ w, J w s₁.db
      · obtain ⟨w, hw⟩ := hset
        have hchecking := tail.checkingAt (hcalls w) (by intro t k hk; cases hk)
        obtain ⟨hw₂, hrest⟩ := UnthreatenedAt.moved hchecking (step_moved he hs) hw (ih hw)
        rwa [hunique _ v w hv hw₂]
      · exact hok _ _ hok' (fun w hw => hset ⟨w, hw⟩) v hv

/-- In a run whose steps set the seal alone, it stays as it was set. -/
theorem Reach.sealed (hunique : ∀ D v w, J v D → J w D → v = w)
    (hcalls : ∀ v c, calls c → (prog c).ChecksAt (J v) (checkAt c))
    (hok : ∀ s s', ok s s' → s.SealsAlone checkAt J s') {D : Db}
    (run : Reach prog calls ok (idle D) s) (run' : Reach prog calls ok s s') {v : V}
    (hv : J v s.db) : J v s'.db := by
  induction run' with
  | refl => exact hv
  | @step s₁ s₂ e tail he hs hok' ih =>
      have run₁ := run.trans tail
      have hchecking := run₁.checkingAt (hcalls v) (by intro t k hk; cases hk)
      exact (UnthreatenedAt.moved hchecking (step_moved he hs) ih
        (run₁.unthreatenedAt hunique hcalls hok ih)).1

end Family

end Pool

end TaroTria.Transactions
