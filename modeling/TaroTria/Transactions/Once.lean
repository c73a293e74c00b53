import TaroTria.Transactions.Earned
import TaroTria.Transactions.Latch

/-!
# Acts made once

An act is a commit of certain writes, after which a condition `I` holds. Each
request looks for `I` with its first transaction, and acts with a later one that
does not look again. So an act is made once when no request that has looked
before it is still running with its own ahead, and may be made again otherwise.

## Implementation notes

A repeated act need not change the rows, so that a latch does not exclude it.
-/

namespace TaroTria.Transactions

variable {Db Write Ref E Q Call α β : Type} {Ans : Q → Type} [RowStore Db Write Ref]

/-- Where the act has been made, the request makes it no more. -/
abbrev Proc.Spares (I : Db → Prop) (acts : List Write → Bool) (p : Proc Db Write E Ans α) : Prop :=
  p.Every fun D L => I D → I (view L D) ∧ acts L = false

/-- What holds of all results of a body holds of its run. -/
theorem Tx.run_of_all {P : α → List Write → Prop} {p : Tx Db Write E α} {D : Db} {L L' : List Write}
    {a : α} (h : p.All P L) (hr : p.run D L = .ok (a, L')) : P a L' := by
  induction p generalizing L with
  | ret b =>
      cases hr
      exact h
  | throw e => cases hr
  | stmt s next ih =>
      simp only [run] at hr
      split at hr
      · rename_i b ws hs
        exact ih b (h _ b ws hs) hr
      · cases hr

section Requests

variable [SqlError E] {I : Db → Prop} {acts : List Write → Bool}

/-- A request that finds with its first transaction that the act has been made, and then
makes it no more. -/
def Proc.Looks (I : Db → Prop) (acts : List Write → Bool) : Proc Db Write E Ans α → Prop
  | .ret _ => True
  | .throw _ => True
  | .tx body next => ∀ D fate, I D →
      (I (view (body.outcome D fate).1 D) ∧ acts (body.outcome D fate).1 = false) ∧
        (next (body.outcome D fate).2).Spares I acts
  | .ask _ next => ∀ r, (next r).Looks I acts

namespace Proc

theorem Spares.looks (hnil : acts [] = false) {p : Proc Db Write E Ans α}
    (h : p.Spares I acts) : p.Looks I acts := by
  induction p with
  | ret a => trivial
  | throw e => trivial
  | tx body next ih =>
      intro D fate hI
      obtain ⟨hspare, hrest⟩ := Every.outcome h (fun _ hI => ⟨hI, hnil⟩) D fate
      exact ⟨hspare hI, hrest⟩
  | ask q next ih => exact fun r => ih r (h r)

/-- The rule for a request that begins with a read. -/
theorem looks_select (hnil : acts [] = false) {f : Db → β} {g : β → Proc Db Write E Ans α}
    (h : ∀ D, I D → (g (f D)).Spares I acts) :
    (transaction (Tx.select f) >>= g).Looks I acts := by
  intro D fate hI
  cases fate with
  | failed => exact ⟨⟨hI, hnil⟩, trivial⟩
  | done => exact ⟨⟨hI, hnil⟩, h D hI⟩
  | lost => exact ⟨⟨hI, hnil⟩, trivial⟩

theorem Looks.bind (hnil : acts [] = false) {p : Proc Db Write E Ans β}
    {f : β → Proc Db Write E Ans α} (h : p.Looks I acts) (hf : ∀ a, (f a).Spares I acts) :
    (p >>= f).Looks I acts := by
  induction p with
  | ret a => exact (hf a).looks hnil
  | throw e => trivial
  | tx body next ih =>
      intro D fate hI
      obtain ⟨hkeep, hrest⟩ := h D fate hI
      exact ⟨hkeep, hrest.bind hf⟩
  | ask q next ih => exact fun r => ih r (h r)

/-- The step of a read that is made. -/
theorem step_select_bind {f : Db → β} {g : β → Proc Db Write E Ans α} {D : Db}
    {answer : (q : Q) → Ans q} :
    (transaction (Tx.select f) >>= g).step D .done answer = ([], g (f D)) := rfl

/-- The step of a call, which goes on with the answer or throws. -/
theorem step_call_bind {q : Q} {g : Ans q → Proc Db Write E Ans α} {D : Db} {fate : Fate}
    {answer : (q : Q) → Ans q} : (call q >>= g).step D fate answer =
      ([], if fate = .done then g (answer q) else throw SqlError.fault) := by
  cases fate <;> rfl

/-- A step of a request acts, or leaves it with what it had still to earn. -/
theorem Unearned.step {P : Except E α → Prop} {p : Proc Db Write E Ans α} (h : p.Unearned acts P)
    (D : Db) (fate : Fate) (answer : (q : Q) → Ans q) :
    acts (p.step D fate answer).1 = true ∨ (p.step D fate answer).2.Unearned acts P := by
  cases p with
  | ret a => exact .inr h
  | throw e => exact .inr h
  | ask q next => exact .inr (h _)
  | tx body next =>
      simp only [Proc.step]
      cases fate with
      | failed => exact .inr (h.1 _)
      | lost => cases hr : body.run D [] <;> simp only [Tx.outcome, hr] <;> exact .inr (h.1 _)
      | done =>
          cases hr : body.run D [] with
          | error e =>
              simp only [Tx.outcome, hr]
              exact .inr (h.1 _)
          | ok r =>
              simp only [Tx.outcome, hr]
              exact Tx.run_of_all h.2 hr

end Proc

end Requests

namespace Pool

variable [SqlError E] {prog : Call → Proc Db Write E Ans α} {calls : Call → Prop}
  {s s' s₀ : Pool Db Write E Call Ans α} {I : Db → Prop} {acts : List Write → Bool}
  {ok : Pool Db Write E Call Ans α → Pool Db Write E Call Ans α → Prop}

/-- A request that has run no transaction yet looks with its next one. -/
def Looking (I : Db → Prop) (acts : List Write → Bool) (s : Pool Db Write E Call Ans α) : Prop :=
  ∀ t k, s.tasks t = some k → k.transactions = 0 → k.rest.Looks I acts

theorem Looking.moved (hcalls : ∀ c, calls c → (prog c).Looks I acts) (h : s.Looking I acts)
    (hm : Moved prog calls s s') : s'.Looking I acts := by
  intro u k' hk' h0
  cases hm with
  | spawn t c hc hdb hhist htasks =>
      rcases htasks u k' hk' with hold | rfl
      · exact h u k' hold h0
      · exact hcalls c hc
  | go t k fate answer ht eq =>
      subst eq
      rcases tasks_advance hk' with ⟨-, rfl⟩ | ⟨-, hold⟩
      · obtain ⟨c, n, rest⟩ := k
        cases rest with
        | tx body next => simp [after] at h0
        | ret a => trivial
        | throw e => trivial
        | ask q next => exact h t _ ht h0 _
      · exact h u k' hold h0
  | kill hdb hhist htasks => exact h u k' (htasks u k' hk') h0

theorem Reach.looking (hcalls : ∀ c, calls c → (prog c).Looks I acts) {D : Db}
    (h : Reach prog calls ok (idle D) s) : s.Looking I acts := by
  induction h with
  | refl =>
      intro t k hk
      cases hk
  | step tail he hs hok ih => exact ih.moved hcalls (step_moved he hs)

/-- No request that has run a transaction can still act. -/
def Spared (I : Db → Prop) (acts : List Write → Bool) (s : Pool Db Write E Call Ans α) : Prop :=
  ∀ t k, s.tasks t = some k → 0 < k.transactions → k.rest.Spares I acts

/-- A step that makes the act leaves no request behind that has looked before it and
may still act. -/
def ActsAlone (I : Db → Prop) (acts : List Write → Bool) (s s' : Pool Db Write E Call Ans α) :
    Prop :=
  ¬ I s.db → I s'.db → s'.Spared I acts

/-- The rows and the record after an event that does not act. -/
inductive Idles (acts : List Write → Bool) (s s' : Pool Db Write E Call Ans α) : Prop
  | keep (db : s'.db = s.db) (history : s'.history = s.history)
  | commit (c : Call) (L : List Write) (hacts : acts L = false) (db : s'.db = view L s.db)
      (history : s'.history = record s.history c L)

/-- Where the act has been made and no request threatens it, an event keeps that so and
does not act. -/
theorem Spared.moved (hnil : acts [] = false) (hs : s.Looking I acts) (hm : Moved prog calls s s')
    (hI : I s.db) (hu : s.Spared I acts) : (I s'.db ∧ s'.Spared I acts) ∧ s.Idles acts s' := by
  cases hm with
  | spawn t c hc hdb hhist htasks =>
      refine ⟨⟨hdb ▸ hI, fun u k hk hpos => ?_⟩, .keep hdb hhist⟩
      rcases htasks u k hk with hold | rfl
      · exact hu u k hold hpos
      · exact absurd hpos (Nat.lt_irrefl 0)
  | go t k fate answer ht eq =>
      subst eq
      -- A first transaction looks, and a later one belongs to a request that acts no more.
      have hstep : (I (view (k.rest.step s.db fate answer).1 s.db) ∧
          acts (k.rest.step s.db fate answer).1 = false) ∧
          (0 < (after k (k.rest.step s.db fate answer).2).transactions →
            (k.rest.step s.db fate answer).2.Spares I acts) := by
        rcases Nat.eq_zero_or_pos k.transactions with h0 | hpos
        · have hlook := hs t k ht h0
          obtain ⟨c, n, rest⟩ := k
          cases rest with
          | tx body next =>
              obtain ⟨hkeep, hrest⟩ := hlook s.db fate hI
              exact ⟨hkeep, fun _ => hrest⟩
          | ret a => exact ⟨⟨hI, hnil⟩, fun _ => trivial⟩
          | throw e => exact ⟨⟨hI, hnil⟩, fun _ => trivial⟩
          | ask q next => exact ⟨⟨hI, hnil⟩, fun hpos => absurd hpos (by simp [after, h0])⟩
        · obtain ⟨hspare, hrest⟩ :=
            (hu t k ht hpos).step (fun _ hI => ⟨hI, hnil⟩) s.db fate answer
          exact ⟨hspare hI, fun _ => hrest⟩
      refine ⟨⟨hstep.1.1, fun u k' hk' hpos => ?_⟩, .commit k.call _ hstep.1.2 rfl rfl⟩
      rcases tasks_advance hk' with ⟨-, rfl⟩ | ⟨-, hold⟩
      · simpa using hstep.2 hpos
      · exact hu u k' hold hpos
  | kill hdb hhist htasks =>
      exact ⟨⟨hdb ▸ hI, fun u k hk hpos => hu u k (htasks u k hk) hpos⟩, .keep hdb hhist⟩

/-- The step of a request without companions, after which it does not act. -/
theorem Spared.of_alone {t : Nat} {k : Task Db Write E Call Ans α} {fate : Fate}
    {answer : (q : Q) → Ans q} (halone : ∀ u, u ≠ t → s.tasks u = none)
    (h : (k.rest.step s.db fate answer).2.Spares I acts) :
    (s.advance t k fate answer).Spared I acts := by
  intro u k' hk' _
  rcases tasks_advance hk' with ⟨-, rfl⟩ | ⟨hut, hold⟩
  · simpa using h
  · rw [halone u hut] at hold
    cases hold

/-- In a run whose steps act alone, no request threatens an act that has been made. -/
theorem Reach.spared (hnil : acts [] = false) (hcalls : ∀ c, calls c → (prog c).Looks I acts)
    (hok : ∀ s s', ok s s' → s.ActsAlone I acts s') {D : Db} (run : Reach prog calls ok (idle D) s)
    (hI : I s.db) : s.Spared I acts := by
  induction run with
  | refl =>
      intro t k hk
      cases hk
  | @step s₁ s₂ e tail he hs hok' ih =>
      by_cases hI₁ : I s₁.db
      · exact (Spared.moved hnil (tail.looking hcalls) (step_moved he hs) hI₁ (ih hI₁)).1.2
      · exact hok _ _ hok' hI₁ hI

/-- What the commits that do not act leave alone stays as it was at the act. -/
theorem Reach.frozen {F : Db → β} (hnil : acts [] = false)
    (hcalls : ∀ c, calls c → (prog c).Looks I acts) (hok : ∀ s s', ok s s' → s.ActsAlone I acts s')
    (hF : ∀ D L, acts L = false → F (view L D) = F D) {D : Db}
    (run : Reach prog calls ok (idle D) s) (run' : Reach prog calls ok s s') (hI : I s.db) :
    I s'.db ∧ F s'.db = F s.db := by
  induction run' with
  | refl => exact ⟨hI, rfl⟩
  | @step s₁ s₂ e tail he hs hok' ih =>
      have run₁ := run.trans tail
      obtain ⟨⟨hI₂, -⟩, hidle⟩ := Spared.moved hnil (run₁.looking hcalls) (step_moved he hs) ih.1
        (run₁.spared hnil hcalls hok ih.1)
      refine ⟨hI₂, ?_⟩
      cases hidle with
      | keep hdb hhist => rw [hdb, ih.2]
      | commit c L hacts hdb hhist => rw [hdb, hF _ _ hacts, ih.2]

/-- The number of acts in a record. -/
def actsOf (acts : List Write → Bool) (history : List (Call × List Write)) : Nat :=
  history.countP fun e => acts e.2

omit [RowStore Db Write Ref] [SqlError E] in
theorem actsOf_record (hnil : acts [] = false) (history : List (Call × List Write)) (c : Call)
    (L : List Write) :
    actsOf acts (record history c L) = actsOf acts history + if acts L then 1 else 0 := by
  cases L with
  | nil => simp [record, hnil]
  | cons w L => simp [record, actsOf, List.countP_cons]

/-- In a run whose steps act alone the act is made at most once. -/
theorem Reach.actsOf_le_one (hnil : acts [] = false)
    (hcalls : ∀ c, calls c → (prog c).Looks I acts) (hok : ∀ s s', ok s s' → s.ActsAlone I acts s')
    (hset : ∀ c, calls c → (prog c).Every fun D L => acts L = true → I (view L D)) {D : Db}
    (run : Reach prog calls ok (idle D) s) :
    actsOf acts s.history ≤ 1 ∧ (0 < actsOf acts s.history → I s.db) := by
  induction run with
  | refl => simp [actsOf, idle]
  | @step s₁ s₂ e tail he hs hok' ih =>
      by_cases hI : I s₁.db
      · obtain ⟨⟨hI₂, -⟩, hidle⟩ := Spared.moved hnil (tail.looking hcalls) (step_moved he hs) hI
          (tail.spared hnil hcalls hok hI)
        refine ⟨?_, fun _ => hI₂⟩
        cases hidle with
        | keep hdb hhist => rw [hhist]; exact ih.1
        | commit c L hacts hdb hhist => simpa [hhist, actsOf_record hnil, hacts] using ih.1
      · have hzero : actsOf acts s₁.history = 0 := Nat.eq_zero_of_not_pos fun h => hI (ih.2 h)
        cases step_moved he hs with
        | spawn t c hc hdb hhist htasks => simp [hhist, hzero]
        | go t k fate answer ht eq =>
            subst eq
            have hact := (tail.every (fun _ _ h => absurd h (by simp [hnil])) hset ht).step
              (fun _ h => absurd h (by simp [hnil])) s₁.db fate answer |>.1
            simp only [advance, actsOf_record hnil, hzero]
            split
            · exact ⟨le_rfl, fun _ => hact ‹_›⟩
            · simp
        | kill hdb hhist htasks => simp [hhist, hzero]

/-- Task `t` serves one of the calls `mine` and may return what is to be earned. -/
def Earned (acts : List Write → Bool) (P : Except E α → Prop) (mine : Call → Prop)
    (s : Pool Db Write E Call Ans α) (t : Nat) : Prop :=
  ∃ k, s.tasks t = some k ∧ mine k.call ∧ ¬ k.rest.Unearned acts P

/-- No task has earned its result before the first act, and one has before the second. -/
structure EarnsOnce (acts : List Write → Bool) (P : Except E α → Prop) (mine : Call → Prop)
    (s : Pool Db Write E Call Ans α) : Prop where
  none : actsOf acts s.history = 0 → ∀ t, ¬ s.Earned acts P mine t
  one : actsOf acts s.history ≤ 1 → ∀ t u, s.Earned acts P mine t → s.Earned acts P mine u → t = u

omit [SqlError E] in
/-- An event after which only those have earned who had before. -/
theorem EarnsOnce.of_le {P : Except E α → Prop} {mine : Call → Prop} (h : s.EarnsOnce acts P mine)
    (hhist : actsOf acts s.history ≤ actsOf acts s'.history)
    (hearned : ∀ t, s'.Earned acts P mine t → s.Earned acts P mine t) :
    s'.EarnsOnce acts P mine where
  none hzero t ht := h.none (by omega) t (hearned t ht)
  one hone t u ht hu := h.one (by omega) t u (hearned t ht) (hearned u hu)

theorem EarnsOnce.moved {P : Except E α → Prop} {mine : Call → Prop} (hnil : acts [] = false)
    (hmine : ∀ c, mine c → (prog c).Unearned acts P) (h : s.EarnsOnce acts P mine)
    (hm : Moved prog calls s s') : s'.EarnsOnce acts P mine := by
  cases hm with
  | spawn t c hc hdb hhist htasks =>
      refine h.of_le (by rw [hhist]) fun u ⟨k, hk, hmk, hearned⟩ => ?_
      rcases htasks u k hk with hold | rfl
      · exact ⟨k, hold, hmk, hearned⟩
      · exact absurd (hmine c hmk) hearned
  | go t k fate answer ht eq =>
      subst eq
      have hcount : actsOf acts (s.advance t k fate answer).history =
          actsOf acts s.history + if acts (k.rest.step s.db fate answer).1 then 1 else 0 :=
        actsOf_record hnil _ _ _
      by_cases hact : acts (k.rest.step s.db fate answer).1 = true
      · -- Before this act nobody had earned, so only this task may have now.
        rw [if_pos hact] at hcount
        refine ⟨fun hzero => by omega, fun hone u v hu hv => ?_⟩
        have only : ∀ {w}, (s.advance t k fate answer).Earned acts P mine w → w = t := by
          rintro w ⟨k', hk', hmk, hearned⟩
          rcases tasks_advance hk' with ⟨hwt, -⟩ | ⟨-, hold⟩
          · exact hwt
          · exact absurd ⟨k', hold, hmk, hearned⟩ (h.none (by omega) w)
        rw [only hu, only hv]
      · rw [if_neg hact] at hcount
        refine h.of_le (by omega) fun u ⟨k', hk', hmk, hearned⟩ => ?_
        rcases tasks_advance hk' with ⟨hut, rfl⟩ | ⟨-, hold⟩
        · refine ⟨k, hut ▸ ht, by simpa using hmk, fun hun => hearned ?_⟩
          simpa using (hun.step s.db fate answer).resolve_left hact
        · exact ⟨k', hold, hmk, hearned⟩
  | kill hdb hhist htasks =>
      exact h.of_le (by rw [hhist]) fun u ⟨k, hk, hmk, hearned⟩ =>
        ⟨k, htasks u k hk, hmk, hearned⟩

theorem Reach.earnsOnce {P : Except E α → Prop} {mine : Call → Prop} (hnil : acts [] = false)
    (hmine : ∀ c, mine c → (prog c).Unearned acts P) {D : Db}
    (run : Reach prog calls ok (idle D) s) : s.EarnsOnce acts P mine := by
  induction run with
  | refl =>
      have hnone : ∀ t, ¬ (idle D : Pool Db Write E Call Ans α).Earned acts P mine t := by
        rintro t ⟨k, hk, -⟩
        cases hk
      exact ⟨fun _ => hnone, fun _ t u ht _ => absurd ht (hnone t)⟩
  | step tail he hs hok ih => exact ih.moved hnil hmine (step_moved he hs)

end Pool

end TaroTria.Transactions
