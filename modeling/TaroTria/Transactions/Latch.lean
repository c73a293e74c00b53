import TaroTria.Transactions.Atomic

/-!
# Check and act

Requests whose transactions are single steps, in any interleaving. A latch is
a condition on the rows that is meant to stay once it is set. A request that
checks the latch with its first transaction and acts with a later one respects
it when it checks after the latch was set, and may break it when it checked
before.

## Implementation notes

The number of transactions that a request has run and the history of the
commits are records for the reader's statements; no request can see them.
-/

namespace TaroTria.Transactions

variable {Db Write Ref E Q Call α : Type} {Ans : Q → Type} [RowStore Db Write Ref]

/-- A running request, the call it serves and the number of its transactions so far. -/
structure Task (Db Write E Call : Type) {Q : Type} (Ans : Q → Type) (α : Type) : Type 1 where
  call : Call
  transactions : Nat
  rest : Proc Db Write E Ans α

/-- The committed rows, the running requests, and the record of the commits
that wrote something, newest first. -/
structure Pool (Db Write E Call : Type) {Q : Type} (Ans : Q → Type) (α : Type) : Type 1 where
  db : Db
  tasks : Nat → Option (Task Db Write E Call Ans α)
  history : List (Call × List Write)

/-- A request starts, takes a step, or dies with its process. -/
inductive Event (Call : Type) {Q : Type} (Ans : Q → Type)
  | spawn (t : Nat) (c : Call)
  | go (t : Nat) (fate : Fate) (answer : (q : Q) → Ans q)
  | kill (t : Nat)

/-- An event that starts only calls in `calls`. -/
def Event.Starts (calls : Call → Prop) : Event Call Ans → Prop
  | .spawn _ c => calls c
  | _ => True

namespace Pool

variable [SqlError E]

/-- A pool with committed rows `D` and no request. -/
def idle (D : Db) : Pool Db Write E Call Ans α := ⟨D, fun _ => none, []⟩

/-- The record after the writes `L` of call `c`. -/
def record (history : List (Call × List Write)) (c : Call) (L : List Write) :
    List (Call × List Write) :=
  if L.isEmpty then history else (c, L) :: history

/-- The task after a step that leaves `rest` to run. -/
def after (k : Task Db Write E Call Ans α) (rest : Proc Db Write E Ans α) :
    Task Db Write E Call Ans α :=
  match k.rest with
  | .tx _ _ => { k with transactions := k.transactions + 1, rest }
  | _ => { k with rest }

omit [SqlError E] in
@[simp] theorem after_call (k : Task Db Write E Call Ans α) (rest : Proc Db Write E Ans α) :
    (after k rest).call = k.call := by
  unfold after
  split <;> rfl

omit [SqlError E] in
@[simp] theorem after_rest (k : Task Db Write E Call Ans α) (rest : Proc Db Write E Ans α) :
    (after k rest).rest = rest := by
  unfold after
  split <;> rfl

/-- The pool after a step of task `t`, which is `k`. -/
def advance (s : Pool Db Write E Call Ans α) (t : Nat) (k : Task Db Write E Call Ans α)
    (fate : Fate) (answer : (q : Q) → Ans q) : Pool Db Write E Call Ans α :=
  let (L, rest) := k.rest.step s.db fate answer
  { db := view L s.db
    tasks := Function.update s.tasks t (some (after k rest))
    history := record s.history k.call L }

def step (prog : Call → Proc Db Write E Ans α) (s : Pool Db Write E Call Ans α) :
    Event Call Ans → Option (Pool Db Write E Call Ans α)
  | .spawn t c =>
      match s.tasks t with
      | none => some { s with tasks := Function.update s.tasks t (some ⟨c, 0, prog c⟩) }
      | some _ => none
  | .go t fate answer => (s.tasks t).map fun k => s.advance t k fate answer
  | .kill t => some { s with tasks := Function.update s.tasks t none }

/-- The pools reached from `s₀` by runs that start only calls in `calls`, all of
whose steps satisfy `ok`. -/
inductive Reach (prog : Call → Proc Db Write E Ans α) (calls : Call → Prop)
    (ok : Pool Db Write E Call Ans α → Pool Db Write E Call Ans α → Prop)
    (s₀ : Pool Db Write E Call Ans α) : Pool Db Write E Call Ans α → Prop
  | refl : Reach prog calls ok s₀ s₀
  | step {s s' e} (tail : Reach prog calls ok s₀ s) (he : e.Starts calls)
      (h : s.step prog e = some s') (hok : ok s s') : Reach prog calls ok s₀ s'

variable {prog : Call → Proc Db Write E Ans α} {calls : Call → Prop}
  {s s' s₀ : Pool Db Write E Call Ans α}

/-- What an event does to the rows and to a task that is there after it: the task
was there before with the rows kept or changed by another task, it has just
started, or it has taken a step. -/
inductive Moved (prog : Call → Proc Db Write E Ans α) (calls : Call → Prop)
    (s s' : Pool Db Write E Call Ans α) : Prop
  | spawn (t : Nat) (c : Call) (hc : calls c) (db : s'.db = s.db)
      (history : s'.history = s.history)
      (tasks : ∀ u k, s'.tasks u = some k → s.tasks u = some k ∨ k = ⟨c, 0, prog c⟩)
  | go (t : Nat) (k : Task Db Write E Call Ans α) (fate : Fate) (answer : (q : Q) → Ans q)
      (ht : s.tasks t = some k) (eq : s' = s.advance t k fate answer)
  | kill (db : s'.db = s.db) (history : s'.history = s.history)
      (tasks : ∀ u k, s'.tasks u = some k → s.tasks u = some k)

theorem step_moved {e : Event Call Ans} (he : e.Starts calls) (h : s.step prog e = some s') :
    Moved prog calls s s' := by
  cases e with
  | spawn t c =>
      simp only [step] at h
      split at h
      · cases h
        refine .spawn t c he rfl rfl fun u k hk => ?_
        simp only [Function.update_apply] at hk
        split at hk
        · exact .inr (Option.some.inj hk).symm
        · exact .inl hk
      · cases h
  | go t fate answer =>
      obtain ⟨k, hk, rfl⟩ := Option.map_eq_some_iff.mp h
      exact .go t k fate answer hk rfl
  | kill t =>
      cases h
      refine .kill rfl rfl fun u k hk => ?_
      simp only [Function.update_apply] at hk
      split at hk
      · cases hk
      · exact hk

/-- The tasks after a step: the one that took it, and the others. -/
theorem tasks_advance {t u : Nat} {k k' : Task Db Write E Call Ans α} {fate : Fate}
    {answer : (q : Q) → Ans q} (h : (s.advance t k fate answer).tasks u = some k') :
    (u = t ∧ k' = after k (k.rest.step s.db fate answer).2) ∨
      (u ≠ t ∧ s.tasks u = some k') := by
  simp only [advance, Function.update_apply] at h
  split at h
  · rename_i hut
    exact .inl ⟨hut, (Option.some.inj h).symm⟩
  · rename_i hut
    exact .inr ⟨hut, h⟩

/-- Every task serves one of `calls`. -/
def Started (calls : Call → Prop) (s : Pool Db Write E Call Ans α) : Prop :=
  ∀ t k, s.tasks t = some k → calls k.call

omit [SqlError E] in
theorem started_idle (D : Db) : (idle D : Pool Db Write E Call Ans α).Started calls := by
  intro t k hk
  cases hk

theorem Started.moved (h : s.Started calls) (hm : Moved prog calls s s') :
    s'.Started calls := by
  intro u k' hk'
  cases hm with
  | spawn t c hc hdb hhist htasks =>
      rcases htasks u k' hk' with hold | rfl
      · exact h u k' hold
      · exact hc
  | go t k fate answer ht eq =>
      subst eq
      rcases tasks_advance hk' with ⟨-, rfl⟩ | ⟨-, hold⟩
      · simpa using h t k ht
      · exact h u k' hold
  | kill hdb hhist htasks => exact h u k' (htasks u k' hk')

theorem Reach.trans {ok : Pool Db Write E Call Ans α → Pool Db Write E Call Ans α → Prop}
    (h : Reach prog calls ok s₀ s) (h' : Reach prog calls ok s s') :
    Reach prog calls ok s₀ s' := by
  induction h' with
  | refl => exact h
  | step tail he hs hok ih => exact ih.step he hs hok

/-- A run of some calls whose steps satisfy a condition is one of more calls under a
weaker condition. -/
theorem Reach.weaken {calls' : Call → Prop}
    {ok ok' : Pool Db Write E Call Ans α → Pool Db Write E Call Ans α → Prop}
    (hcalls : ∀ c, calls c → calls' c) (hok : ∀ s s', ok s s' → ok' s s')
    (h : Reach prog calls ok s₀ s) : Reach prog calls' ok' s₀ s := by
  induction h with
  | refl => exact .refl
  | @step s₁ s₂ e tail he hs hs' ih =>
      refine ih.step ?_ hs (hok _ _ hs')
      cases e with
      | spawn t c => exact hcalls c he
      | go t fate answer => trivial
      | kill t => trivial

/-- A run goes on with a step of one of its tasks. -/
theorem Reach.go {ok : Pool Db Write E Call Ans α → Pool Db Write E Call Ans α → Prop}
    (h : Reach prog calls ok s₀ s) {t : Nat} {k : Task Db Write E Call Ans α}
    (ht : s.tasks t = some k) (fate : Fate) (answer : (q : Q) → Ans q)
    (hok : ok s (s.advance t k fate answer)) :
    Reach prog calls ok s₀ (s.advance t k fate answer) :=
  h.step (e := .go t fate answer) trivial (by simp [Pool.step, ht]) hok

theorem Reach.started {ok : Pool Db Write E Call Ans α → Pool Db Write E Call Ans α → Prop}
    (h : Reach prog calls ok s₀ s) (h₀ : s₀.Started calls) : s.Started calls := by
  induction h with
  | refl => exact h₀
  | step tail he hs hok ih => exact ih.moved (step_moved he hs)

end Pool

/-- The task that an event is about. -/
def Event.task : Event Call Ans → Nat
  | .spawn t _ => t
  | .go t _ _ => t
  | .kill t => t

namespace Pool

variable [SqlError E] {prog : Call → Proc Db Write E Ans α} {calls : Call → Prop}
  {s s' s₀ : Pool Db Write E Call Ans α}

/-- Run a schedule, if each of its events is possible and passes `check`. -/
def run (prog : Call → Proc Db Write E Ans α) (check : Db → Db → Bool)
    (s : Pool Db Write E Call Ans α) : List (Event Call Ans) → Option (Pool Db Write E Call Ans α)
  | [] => some s
  | e :: es =>
      (s.step prog e).bind fun s' => if check s.db s'.db then s'.run prog check es else none

theorem Reach.run {ok : Pool Db Write E Call Ans α → Pool Db Write E Call Ans α → Prop}
    {check : Db → Db → Bool} (hok : ∀ s s', check s.db s'.db = true → ok s s')
    (h : Reach prog calls ok s₀ s) (es : List (Event Call Ans)) (hes : ∀ e ∈ es, e.Starts calls)
    (hr : s.run prog check es = some s') : Reach prog calls ok s₀ s' := by
  induction es generalizing s with
  | nil =>
      cases hr
      exact h
  | cons e es ih =>
      obtain ⟨s₁, hs₁, hr⟩ := Option.bind_eq_some_iff.mp hr
      split at hr
      · rename_i hcheck
        exact ih (h.step (hes e List.mem_cons_self) hs₁ (hok _ _ hcheck))
          (fun e' he' => hes e' (List.mem_cons_of_mem e he')) hr
      · cases hr

/-- No check on the steps of a schedule. -/
def unchecked (_ _ : Db) : Bool := true

/-- A schedule whose steps are not checked. -/
theorem Reach.of_run (es : List (Event Call Ans)) (hr : s.run prog unchecked es = some s') :
    Reach prog (fun _ => True) (fun _ _ => True) s s' :=
  Reach.refl.run (fun _ _ _ => trivial) es (fun e _ => by cases e <;> trivial) hr

/-- Run a schedule, if each of its events is possible and passes a check of the pools. -/
def runBy (prog : Call → Proc Db Write E Ans α)
    (check : Pool Db Write E Call Ans α → Pool Db Write E Call Ans α → Bool)
    (s : Pool Db Write E Call Ans α) : List (Event Call Ans) → Option (Pool Db Write E Call Ans α)
  | [] => some s
  | e :: es => (s.step prog e).bind fun s' => if check s s' then s'.runBy prog check es else none

theorem Reach.runBy {ok : Pool Db Write E Call Ans α → Pool Db Write E Call Ans α → Prop}
    {check : Pool Db Write E Call Ans α → Pool Db Write E Call Ans α → Bool}
    (hok : ∀ s s', check s s' = true → ok s s') (h : Reach prog calls ok s₀ s)
    (es : List (Event Call Ans)) (hes : ∀ e ∈ es, e.Starts calls)
    (hr : s.runBy prog check es = some s') : Reach prog calls ok s₀ s' := by
  induction es generalizing s with
  | nil =>
      cases hr
      exact h
  | cons e es ih =>
      obtain ⟨s₁, hs₁, hr⟩ := Option.bind_eq_some_iff.mp hr
      split at hr
      · rename_i hcheck
        exact ih (h.step (hes e List.mem_cons_self) hs₁ (hok _ _ hcheck))
          (fun e' he' => hes e' (List.mem_cons_of_mem e he')) hr
      · cases hr

/-- A schedule leaves the tasks that it does not name as they were. -/
theorem tasks_run {check : Db → Db → Bool} {es : List (Event Call Ans)} {t : Nat}
    (ht : ∀ e ∈ es, e.task ≠ t) (hr : s.run prog check es = some s') :
    s'.tasks t = s.tasks t := by
  induction es generalizing s with
  | nil =>
      cases hr
      rfl
  | cons e es ih =>
      obtain ⟨s₁, hs₁, hr⟩ := Option.bind_eq_some_iff.mp hr
      have hne := (ht e List.mem_cons_self).symm
      have hsame : s₁.tasks t = s.tasks t := by
        cases e with
        | spawn u c =>
            simp only [step] at hs₁
            split at hs₁
            · cases hs₁
              exact Function.update_of_ne hne _ _
            · cases hs₁
        | go u fate answer =>
            obtain ⟨k, -, rfl⟩ := Option.map_eq_some_iff.mp hs₁
            exact Function.update_of_ne hne _ _
        | kill u =>
            cases hs₁
            exact Function.update_of_ne hne _ _
      split at hr
      · exact (ih (fun e' he' => ht e' (List.mem_cons_of_mem e he')) hr).trans hsame
      · cases hr

end Pool

/-- The request keeps `I` with every transaction that finds it. -/
abbrev Proc.Keeps (I : Db → Prop) (p : Proc Db Write E Ans α) : Prop :=
  p.Every fun D L => I D → I (view L D)

theorem Proc.Keeps.step [SqlError E] {I : Db → Prop} {p : Proc Db Write E Ans α}
    (h : p.Keeps I) (D : Db) (fate : Fate) (answer : (q : Q) → Ans q) :
    (I D → I (view (p.step D fate answer).1 D)) ∧ (p.step D fate answer).2.Keeps I :=
  Every.step h (fun _ hI => hI) D fate answer

/-- A request that finds `I` with its first transaction keeps it, then and later. -/
def Proc.Checks [SqlError E] (I : Db → Prop) : Proc Db Write E Ans α → Prop
  | .ret _ => True
  | .throw _ => True
  | .tx body next => ∀ D fate, I D →
      I (view (body.outcome D fate).1 D) ∧ (next (body.outcome D fate).2).Keeps I
  | .ask _ next => ∀ r, (next r).Checks I

theorem Proc.Keeps.checks [SqlError E] {I : Db → Prop} {p : Proc Db Write E Ans α}
    (h : p.Keeps I) : p.Checks I := by
  induction p with
  | ret a => trivial
  | throw e => trivial
  | tx body next ih =>
      intro D fate hI
      obtain ⟨hkeep, hrest⟩ := Every.outcome h (fun _ hI => hI) D fate
      exact ⟨hkeep hI, hrest⟩
  | ask q next ih => exact fun r => ih r (h r)

theorem Proc.Checks.bind [SqlError E] {β : Type} {I : Db → Prop} {p : Proc Db Write E Ans β}
    {f : β → Proc Db Write E Ans α} (h : p.Checks I) (hf : ∀ a, (f a).Keeps I) :
    (p >>= f).Checks I := by
  induction p with
  | ret a => exact (hf a).checks
  | throw e => trivial
  | tx body next ih =>
      intro D fate hI
      obtain ⟨hkeep, hrest⟩ := h D fate hI
      exact ⟨hkeep, hrest.bind hf⟩
  | ask q next ih => exact fun r => ih r (h r)

/-- The rule for a request that begins with a transaction. -/
theorem Proc.checks_transaction [SqlError E] {β : Type} {I : Db → Prop} {body : Tx Db Write E β}
    {f : β → Proc Db Write E Ans α}
    (h : ∀ D, I D → body.wp still D (fun a L => I (view L D) ∧ (f a).Keeps I) []) :
    (transaction body >>= f).Checks I := by
  intro D fate hI
  have hrun : ∀ {a L}, body.run D [] = .ok (a, L) → I (view L D) ∧ (f a).Keeps I :=
    fun hr => Tx.run_of_wp (P := fun a L => I (view L D) ∧ (f a).Keeps I) (h D hI) hr
  cases fate with
  | failed => exact ⟨hI, trivial⟩
  | done =>
      cases hr : body.run D [] with
      | error e => simpa [Tx.outcome, hr] using ⟨hI, trivial⟩
      | ok r =>
          simp only [Tx.outcome, hr]
          exact hrun hr
  | lost =>
      cases hr : body.run D [] with
      | error e => simpa [Tx.outcome, hr] using ⟨hI, trivial⟩
      | ok r => simpa [Tx.outcome, hr] using ⟨(hrun hr).1, trivial⟩

/-- The rule for a request that begins with a read. -/
theorem Proc.checks_select [SqlError E] {β : Type} {I : Db → Prop} {f : Db → β}
    {g : β → Proc Db Write E Ans α} (h : ∀ D, I D → (g (f D)).Keeps I) :
    (transaction (Tx.select f) >>= g).Checks I := by
  apply checks_transaction
  intro D hI
  apply Tx.wp_select
  rintro D₀ ⟨-, rfl, -⟩
  exact ⟨hI, h D₀ hI⟩

namespace Pool

variable [SqlError E] {prog : Call → Proc Db Write E Ans α} {calls : Call → Prop}
  {s s' s₀ : Pool Db Write E Call Ans α} {I : Db → Prop}

/-- A request that has run no transaction yet has its check ahead of it. -/
def Checking (I : Db → Prop) (s : Pool Db Write E Call Ans α) : Prop :=
  ∀ t k, s.tasks t = some k → k.transactions = 0 → k.rest.Checks I

theorem Checking.moved (hcalls : ∀ c, calls c → (prog c).Checks I) (h : s.Checking I)
    (hm : Moved prog calls s s') : s'.Checking I := by
  intro u k' hk' h0
  cases hm with
  | spawn t c hc hdb hhist htasks =>
      rcases htasks u k' hk' with hold | rfl
      · exact h u k' hold h0
      · exact hcalls c hc
  | go t k fate answer ht eq =>
      subst eq
      rcases tasks_advance hk' with ⟨-, rfl⟩ | ⟨-, hold⟩
      · obtain ⟨c, n, rest⟩ := k
        cases rest with
        | tx body next => simp [after] at h0
        | ret a => trivial
        | throw e => trivial
        | ask q next => exact h t _ ht h0 _
      · exact h u k' hold h0
  | kill hdb hhist htasks => exact h u k' (htasks u k' hk') h0

theorem Reach.checking {ok : Pool Db Write E Call Ans α → Pool Db Write E Call Ans α → Prop}
    (hcalls : ∀ c, calls c → (prog c).Checks I) (h : Reach prog calls ok s₀ s)
    (h₀ : s₀.Checking I) : s.Checking I := by
  induction h with
  | refl => exact h₀
  | step tail he hs hok ih => exact ih.moved hcalls (step_moved he hs)

/-- No request that has run a transaction can still break `I`. -/
def Unthreatened (I : Db → Prop) (s : Pool Db Write E Call Ans α) : Prop :=
  ∀ t k, s.tasks t = some k → 0 < k.transactions → k.rest.Keeps I

/-- A step that sets `I` leaves no request behind that can still break it. -/
def SetsAlone (I : Db → Prop) (s s' : Pool Db Write E Call Ans α) : Prop :=
  ¬ I s.db → I s'.db → s'.Unthreatened I

/-- Where the latch is set and nothing threatens it, no event changes that. -/
theorem Unthreatened.moved (hs : s.Checking I) (hm : Moved prog calls s s') (hI : I s.db)
    (hu : s.Unthreatened I) : I s'.db ∧ s'.Unthreatened I := by
  cases hm with
  | spawn t c hc hdb hhist htasks =>
      refine ⟨hdb ▸ hI, fun u k hk hpos => ?_⟩
      rcases htasks u k hk with hold | rfl
      · exact hu u k hold hpos
      · exact absurd hpos (Nat.lt_irrefl 0)
  | go t k fate answer ht eq =>
      subst eq
      -- A first transaction meets the check; a later step belongs to a request that keeps `I`.
      have hstep : I (view (k.rest.step s.db fate answer).1 s.db) ∧
          (0 < (after k (k.rest.step s.db fate answer).2).transactions →
            (k.rest.step s.db fate answer).2.Keeps I) := by
        rcases Nat.eq_zero_or_pos k.transactions with h0 | hpos
        · have hcheck := hs t k ht h0
          obtain ⟨c, n, rest⟩ := k
          cases rest with
          | tx body next =>
              obtain ⟨hkeep, hrest⟩ := hcheck s.db fate hI
              exact ⟨hkeep, fun _ => hrest⟩
          | ret a => exact ⟨hI, fun _ => trivial⟩
          | throw e => exact ⟨hI, fun _ => trivial⟩
          | ask q next => exact ⟨hI, fun hpos => absurd hpos (by simp [after, h0])⟩
        · obtain ⟨hkeep, hrest⟩ := (hu t k ht hpos).step s.db fate answer
          exact ⟨hkeep hI, fun _ => hrest⟩
      refine ⟨hstep.1, fun u k' hk' hpos => ?_⟩
      rcases tasks_advance hk' with ⟨-, rfl⟩ | ⟨-, hold⟩
      · simpa using hstep.2 hpos
      · exact hu u k' hold hpos
  | kill hdb hhist htasks =>
      exact ⟨hdb ▸ hI, fun u k hk hpos => hu u k (htasks u k hk) hpos⟩

/-- The step of a request without companions, after which it keeps `I`. -/
theorem Unthreatened.of_alone {t : Nat} {k : Task Db Write E Call Ans α} {fate : Fate}
    {answer : (q : Q) → Ans q} (halone : ∀ u, u ≠ t → s.tasks u = none)
    (h : (k.rest.step s.db fate answer).2.Keeps I) :
    (s.advance t k fate answer).Unthreatened I := by
  intro u k' hk' _
  rcases tasks_advance hk' with ⟨-, rfl⟩ | ⟨hut, hold⟩
  · simpa using h
  · rw [halone u hut] at hold
    cases hold

variable {ok : Pool Db Write E Call Ans α → Pool Db Write E Call Ans α → Prop}

/-- In a run whose steps set the latch alone, nothing threatens a latch that is set. -/
theorem Reach.unthreatened (hcalls : ∀ c, calls c → (prog c).Checks I)
    (hok : ∀ s s', ok s s' → s.SetsAlone I s') {D : Db} (run : Reach prog calls ok (idle D) s)
    (hI : I s.db) : s.Unthreatened I := by
  induction run with
  | refl =>
      intro t k hk
      cases hk
  | @step s₁ s₂ e tail he hs hok' ih =>
      by_cases hI₁ : I s₁.db
      · have hchecking := tail.checking hcalls (by intro t k hk; cases hk)
        exact (Unthreatened.moved hchecking (step_moved he hs) hI₁ (ih hI₁)).2
      · exact hok _ _ hok' hI₁ hI

/-- In a run whose steps set the latch alone, the latch stays once it is set. -/
theorem Reach.latched (hcalls : ∀ c, calls c → (prog c).Checks I)
    (hok : ∀ s s', ok s s' → s.SetsAlone I s') {D : Db} (run : Reach prog calls ok (idle D) s)
    (run' : Reach prog calls ok s s') (hI : I s.db) : I s'.db := by
  induction run' with
  | refl => exact hI
  | @step s₁ s₂ e tail he hs hok' ih =>
      have run₁ := run.trans tail
      have hchecking := run₁.checking hcalls (by intro t k hk; cases hk)
      exact (Unthreatened.moved hchecking (step_moved he hs) ih
        (run₁.unthreatened hcalls hok ih)).1

/-- What holds of each transaction of a call holds of the rest of its task. -/
theorem Reach.every {K : Call → Db → List Write → Prop} (hnil : ∀ c D, K c D [])
    (hprog : ∀ c, calls c → (prog c).Every (K c)) {D : Db}
    (run : Reach prog calls ok (idle D) s) {t : Nat} {k : Task Db Write E Call Ans α}
    (ht : s.tasks t = some k) : k.rest.Every (K k.call) := by
  induction run generalizing t k with
  | refl => cases ht
  | @step s₁ s₂ e tail he hs hok ih =>
      cases step_moved he hs with
      | spawn u c hc hdb hhist htasks =>
          rcases htasks t k ht with hold | rfl
          · exact ih hold
          · exact hprog c hc
      | go u k' fate answer hu eq =>
          subst eq
          rcases tasks_advance ht with ⟨-, rfl⟩ | ⟨-, hold⟩
          · simpa using ((ih hu).step (hnil k'.call) s₁.db fate answer).2
          · exact ih hold
      | kill hdb hhist htasks => exact ih (htasks t k ht)

/-- What an event does to the rows: nothing, or the recorded writes of one transaction
that a call can make. -/
theorem Reach.commits {K : Call → Db → List Write → Prop} (hnil : ∀ c D, K c D [])
    (hprog : ∀ c, calls c → (prog c).Every (K c)) {D : Db} (run : Reach prog calls ok (idle D) s)
    {e : Event Call Ans} (he : e.Starts calls) (hs : s.step prog e = some s') :
    s'.db = s.db ∨ ∃ c L, calls c ∧ K c s.db L ∧ s'.db = view L s.db ∧
      s'.history = (c, L) :: s.history := by
  cases step_moved he hs with
  | spawn u c hc hdb hhist htasks => exact .inl hdb
  | go t k fate answer ht eq =>
      subst eq
      have hK := ((run.every hnil hprog ht).step (hnil k.call) s.db fate answer).1
      by_cases hL : (k.rest.step s.db fate answer).1 = []
      · exact .inl (by simp [advance, hL])
      · exact .inr ⟨k.call, _, run.started (started_idle D) t k ht, hK, rfl,
          by simp [advance, record, hL]⟩
  | kill hdb hhist htasks => exact .inl hdb

/-- The invariant rule: the rows and the record keep `I` when every transaction
that the calls can make does. -/
theorem Reach.invariant {K : Call → Db → List Write → Prop} (hnil : ∀ c D, K c D [])
    (hprog : ∀ c, calls c → (prog c).Every (K c)) {D : Db}
    {I : Db → List (Call × List Write) → Prop} (h₀ : I D [])
    (keep : ∀ s s' : Pool Db Write E Call Ans α, ∀ c L, Reach prog calls ok (idle D) s →
      Reach prog calls ok s s' → calls c → K c s.db L → s'.db = view L s.db →
      I s.db s.history → I s'.db (record s.history c L))
    (run : Reach prog calls ok (idle D) s) : I s.db s.history := by
  induction run with
  | refl => exact h₀
  | @step s₁ s₂ e tail he hs hok ih =>
      have hm := step_moved he hs
      cases hm with
      | spawn u c hc hdb hhist htasks => rwa [hdb, hhist]
      | go t k fate answer ht eq =>
          subst eq
          exact keep s₁ _ k.call _ tail (.step .refl he hs hok)
            (tail.started (started_idle D) t k ht)
            ((tail.every hnil hprog ht).step (hnil k.call) s₁.db fate answer).1 rfl ih
      | kill hdb hhist htasks => rwa [hdb, hhist]

end Pool

end TaroTria.Transactions
