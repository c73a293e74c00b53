import TaroTria.Transactions.Delegate

/-!
# The rows that a transaction has read

A run can be recorded together with the committed rows at which the statements of
each open transaction ran. What a transaction writes is judged along these rows,
and a condition on runs may compare them with the rows at the commit.

## Implementation notes

No request can see the record. Nothing is said of how the rows at one statement
lead to those at the next, so the judgement needs no lock and no discipline.
-/

namespace TaroTria.Transactions

variable {Db Write Ref E Q Call K V α β : Type} {Ans : Q → Type} [RowStore Db Write Ref]

/-- A body with the writes `L`, whose statements have run at the committed rows `reads`,
newest first, ends with a value, writes and rows in `P`. -/
def Tx.Recalls (P : α → List Write → List Db → Prop) :
    Tx Db Write E α → List Write → List Db → Prop
  | .ret a, L, reads => P a L reads
  | .throw _, _, _ => True
  | .stmt s next, L, reads => ∀ D b ws, s (view L D) = .ok (b, ws) →
      (next b).Recalls P (L ++ ws) (D :: reads)

/-- Every transaction of a request is judged so. -/
def Proc.Recalls (P : List Write → List Db → Prop) : Proc Db Write E Ans α → Prop
  | .ret _ => True
  | .throw _ => True
  | .tx body next => body.Recalls (fun _ => P) [] [] ∧ ∀ r, (next r).Recalls P
  | .ask _ next => ∀ r, (next r).Recalls P

namespace Tx

variable {L : List Write} {reads : List Db}

theorem Recalls.bind {P : β → List Write → List Db → Prop} {p : Tx Db Write E α}
    {f : α → Tx Db Write E β} (h : p.Recalls (fun a L reads => (f a).Recalls P L reads) L reads) :
    (p >>= f).Recalls P L reads := by
  induction p generalizing L reads with
  | ret a => exact h
  | throw e => trivial
  | stmt s next ih => exact fun D b ws hs => ih b (h D b ws hs)

theorem Recalls.mono {P P' : α → List Write → List Db → Prop}
    (hP : ∀ a L reads, P a L reads → P' a L reads) {p : Tx Db Write E α}
    (h : p.Recalls P L reads) : p.Recalls P' L reads := by
  induction p generalizing L reads with
  | ret a => exact hP a L reads h
  | throw e => trivial
  | stmt s next ih => exact fun D b ws hs => ih b (h D b ws hs)

theorem recalls_of_forall {P : α → List Write → List Db → Prop} (hP : ∀ a L reads, P a L reads)
    (p : Tx Db Write E α) : p.Recalls P L reads := by
  induction p generalizing L reads with
  | ret a => exact hP a L reads
  | throw e => trivial
  | stmt s next ih => exact fun D b ws _ => ih b

theorem recalls_select {P : β → List Write → List Db → Prop} {f : Db → β}
    (h : ∀ D, P (f (view L D)) L (D :: reads)) :
    (select f : Tx Db Write E β).Recalls P L reads := by
  intro D b ws hs
  cases hs
  simpa [Recalls] using h D

theorem recalls_selectOrThrow [SqlError E] {P : β → List Write → List Db → Prop}
    {f : Db → Option β} (h : ∀ D b, f (view L D) = some b → P b L (D :: reads)) :
    (selectOrThrow f : Tx Db Write E β).Recalls P L reads := by
  intro D b ws hs
  cases hf : f (view L D) with
  | none => simp only [hf, reduceCtorEq] at hs
  | some v =>
      simp only [hf, Except.ok.injEq, Prod.mk.injEq] at hs
      obtain ⟨rfl, rfl⟩ := hs
      simpa [Recalls] using h D v hf

end Tx

namespace Delegate

variable [DecidableEq K] (M : Delegate Db K V) {k : K} {L : List Write} {reads : List Db}

theorem recalls_updateMany {p : V → Bool} {f : V → V} {P : Nat → List Write → List Db → Prop}
    (hskip : ∀ D, P 0 L (D :: reads))
    (hwrite : ∀ D v, M.find (view L D) k = some v → p v = true →
      P 1 (L ++ [M.write k (some (f v))]) (D :: reads)) :
    (M.updateMany k p f : Tx Db Write E Nat).Recalls P L reads := by
  intro D b ws hs
  cases hf : M.find (view L D) k with
  | none =>
      simp only [hf, Except.ok.injEq, Prod.mk.injEq] at hs
      obtain ⟨rfl, rfl⟩ := hs
      simpa [Tx.Recalls] using hskip D
  | some v =>
      simp only [hf] at hs
      split at hs
      · rename_i hp
        cases hs
        exact hwrite D v hf hp
      · cases hs
        simpa [Tx.Recalls] using hskip D

theorem recalls_upsert {v : V} {f : V → V} {P : V → List Write → List Db → Prop}
    (h : ∀ D v', P v' (L ++ [M.write k (some v')]) (D :: reads)) :
    (M.upsert k v f : Tx Db Write E V).Recalls P L reads := by
  intro D b ws hs
  cases hf : M.find (view L D) k with
  | none =>
      simp only [hf, Except.ok.injEq, Prod.mk.injEq] at hs
      obtain ⟨rfl, rfl⟩ := hs
      exact h D v
  | some v' =>
      simp only [hf, Except.ok.injEq, Prod.mk.injEq] at hs
      obtain ⟨rfl, rfl⟩ := hs
      exact h D (f v')

variable [SqlError E]

theorem recalls_findUniqueOrThrow {P : V → List Write → List Db → Prop}
    (h : ∀ D v, M.find (view L D) k = some v → P v L (D :: reads)) :
    (M.findUniqueOrThrow k : Tx Db Write E V).Recalls P L reads :=
  Tx.recalls_selectOrThrow h

theorem recalls_update {f : V → V} {P : V → List Write → List Db → Prop}
    (h : ∀ D v, M.find (view L D) k = some v →
      P (f v) (L ++ [M.write k (some (f v))]) (D :: reads)) :
    (M.update k f : Tx Db Write E V).Recalls P L reads := by
  intro D b ws hs
  cases hf : M.find (view L D) k with
  | none => simp only [hf, reduceCtorEq] at hs
  | some v =>
      simp only [hf, Except.ok.injEq, Prod.mk.injEq] at hs
      obtain ⟨rfl, rfl⟩ := hs
      exact h D v hf

theorem recalls_updateWithin {fits : V → Bool} {f : V → V} {P : V → List Write → List Db → Prop}
    (h : ∀ D v, M.find (view L D) k = some v →
      P (f v) (L ++ [M.write k (some (f v))]) (D :: reads)) :
    (M.updateWithin fits k f : Tx Db Write E V).Recalls P L reads := by
  intro D b ws hs
  cases hf : M.find (view L D) k with
  | none => simp only [hf, reduceCtorEq] at hs
  | some v =>
      simp only [hf] at hs
      split at hs
      · simp only [Except.ok.injEq, Prod.mk.injEq] at hs
        obtain ⟨rfl, rfl⟩ := hs
        exact h D v hf
      · cases hs

theorem recalls_create {v : V} {P : V → List Write → List Db → Prop}
    (h : ∀ D, P v (L ++ [M.write k (some v)]) (D :: reads)) :
    (M.create k v : Tx Db Write E V).Recalls P L reads := by
  intro D b ws hs
  cases hf : M.find (view L D) k with
  | some v' => simp only [hf, reduceCtorEq] at hs
  | none =>
      simp only [hf, Except.ok.injEq, Prod.mk.injEq] at hs
      obtain ⟨rfl, rfl⟩ := hs
      exact h D

end Delegate

namespace Proc

variable {P : List Write → List Db → Prop}

theorem Recalls.bind {p : Proc Db Write E Ans α} {f : α → Proc Db Write E Ans β}
    (hp : p.Recalls P) (hf : ∀ a, (f a).Recalls P) : (p >>= f).Recalls P := by
  induction p with
  | ret a => exact hf a
  | throw e => trivial
  | tx body next ih => exact ⟨hp.1, fun r => ih r (hp.2 r)⟩
  | ask q next ih => exact fun r => ih r (hp r)

theorem recalls_ofExcept (x : Except E α) : (ofExcept x : Proc Db Write E Ans α).Recalls P := by
  cases x <;> trivial

theorem recalls_transaction {body : Tx Db Write E α} (hbody : body.Recalls (fun _ => P) [] []) :
    (transaction body : Proc Db Write E Ans α).Recalls P :=
  ⟨hbody, fun r => recalls_ofExcept r⟩

theorem recalls_call (q : Q) : (call q : Proc Db Write E Ans (Ans q)).Recalls P :=
  fun r => recalls_ofExcept r

theorem Recalls.mono {P' : List Write → List Db → Prop} (hP : ∀ L reads, P L reads → P' L reads)
    {p : Proc Db Write E Ans α} (h : p.Recalls P) : p.Recalls P' := by
  induction p with
  | ret a => trivial
  | throw e => trivial
  | tx body next ih => exact ⟨h.1.mono fun _ => hP, fun r => ih r (h.2 r)⟩
  | ask q next ih => exact fun r => ih r (h r)

theorem recalls_of_forall (hP : ∀ L reads, P L reads) (p : Proc Db Write E Ans α) :
    p.Recalls P := by
  induction p with
  | ret a => trivial
  | throw e => trivial
  | tx body next ih => exact ⟨Tx.recalls_of_forall (fun _ => hP) body, ih⟩
  | ask q next ih => exact ih

end Proc

/-- The judgement on a thread whose open transaction has run its statements at `reads`. -/
def Thread.Recalls (P : List Write → List Db → Prop) :
    Thread Db Write E Ans α → List Db → Prop
  | .between proc, _ => proc.Recalls P
  | .inside L body next, reads => body.Recalls (fun _ => P) L reads ∧ ∀ r, (next r).Recalls P

namespace Server

/-- The record after a move at `s`. -/
def reads (s : Server Db Write Ref E Call Ans α) (seen : Nat → List Db) :
    Move Call Ans → Nat → List Db
  | .start t => Function.update seen t []
  | .exec t => Function.update seen t (s.db :: seen t)
  | _ => seen

/-- A commit meets `ok` with its record and the committed rows. -/
def Meets (ok : List Write → List Db → Db → Prop) (s : Server Db Write Ref E Call Ans α)
    (seen : Nat → List Db) : Move Call Ans → Prop
  | .commit t | .lose t =>
      match s.threads t with
      | some (_, .inside L _ _) => ok L (seen t) s.db
      | _ => True
  | _ => True

/-- `Meets` as a check. -/
def meets (ok : List Write → List Db → Db → Prop) [∀ L reads D, Decidable (ok L reads D)]
    (s : Server Db Write Ref E Call Ans α) (seen : Nat → List Db) : Move Call Ans → Bool
  | .commit t | .lose t =>
      match s.threads t with
      | some (_, .inside L _ _) => ok L (seen t) s.db
      | _ => true
  | _ => true

omit [RowStore Db Write Ref] in
theorem meets_spec {ok : List Write → List Db → Db → Prop} [∀ L reads D, Decidable (ok L reads D)]
    {s : Server Db Write Ref E Call Ans α} {seen : Nat → List Db} {m : Move Call Ans}
    (h : s.meets ok seen m = true) : s.Meets ok seen m := by
  cases m with
  | commit t | lose t =>
      simp only [meets, Meets] at h ⊢
      split at h
      · exact of_decide_eq_true h
      · trivial
  | _ => trivial

/-- Every thread is judged along its record. -/
def Recalls (P : Call → List Write → List Db → Prop) (s : Server Db Write Ref E Call Ans α)
    (seen : Nat → List Db) : Prop :=
  ∀ t c th, s.threads t = some (c, th) → th.Recalls (P c) (seen t)

variable [DecidableEq Ref] [DecidableEq Q] [SqlError E]

/-- The runs from committed rows `D` whose commits meet `ok`, with their records. -/
inductive Recorded (S : Service Db Write E Call Ans α) (calls : Call → Prop)
    (ok : List Write → List Db → Db → Prop) (D : Db) :
    Server Db Write Ref E Call Ans α → (Nat → List Db) → Prop
  | idle : Recorded S calls ok D (.idle D) fun _ => []
  | step {s s' seen m} (tail : Recorded S calls ok D s seen) (hm : m.Admissible S calls)
      (hok : s.Meets ok seen m) (hs : s.step S m = some s') :
      Recorded S calls ok D s' (s.reads seen m)

variable {S : Service Db Write E Call Ans α} {calls : Call → Prop}
  {ok : List Write → List Db → Db → Prop} {D : Db} {s s' : Server Db Write Ref E Call Ans α}
  {P : Call → List Write → List Db → Prop} {seen : Nat → List Db} {m : Move Call Ans}

theorem Recorded.reach (run : Recorded S calls ok D s seen) : Reach S calls (.idle D) s := by
  induction run with
  | idle => exact .refl
  | step _ hm _ hs ih => exact ih.step hm hs

/-- A move changes the committed rows and the history by a commit or not at all. -/
theorem step_commits (hs : s.step S m = some s') : (s'.db = s.db ∧ s'.history = s.history) ∨
    ∃ t c γ L, ∃ a : γ, ∃ next, (m = .commit t ∨ m = .lose t) ∧
      s.threads t = some (c, .inside L (.ret a) next) ∧ L ≠ [] ∧
      s'.db = view L s.db ∧ s'.history = (c, L) :: s.history := by
  cases m with
  | commit t | lose t =>
      simp only [step] at hs
      split at hs
      · rename_i c γ L a next ht
        cases hs
        cases L with
        | nil => exact .inl ⟨rfl, rfl⟩
        | cons x L =>
            exact .inr ⟨t, c, γ, x :: L, a, next, by simp, ht, List.cons_ne_nil x L, rfl, rfl⟩
      · cases hs
  | kill t =>
      cases hs
      exact .inl ⟨rfl, rfl⟩
  | spawn t c | start t | exec t | fail t | answer t q a | unanswered t =>
      simp only [step] at hs
      (repeat' split at hs) <;> cases hs <;> exact .inl ⟨rfl, rfl⟩

omit [DecidableEq Ref] [DecidableEq Q] [SqlError E] in
/-- One thread is replaced together with its record. -/
theorem Recalls.update (h : s.Recalls P seen) {t : Nat} {c : Call} {th : Thread Db Write E Ans α}
    {v : List Db} (hs : s'.threads = Function.update s.threads t (some (c, th)))
    (hth : th.Recalls (P c) v) :
    s'.Recalls P (Function.update seen t v) := by
  intro u d th' hu
  simp only [hs, Function.update_apply] at hu ⊢
  split at hu
  · rename_i hut
    cases hu
    simpa [hut] using hth
  · rename_i hut
    simpa [hut] using h u d th' hu

omit [DecidableEq Ref] [DecidableEq Q] [SqlError E] in
theorem Recalls.between (h : s.Recalls P seen) {t : Nat} {c : Call} {proc : Proc Db Write E Ans α}
    (hs : s'.threads = Function.update s.threads t (some (c, .between proc)))
    (hproc : proc.Recalls (P c)) : s'.Recalls P seen := by
  have hset : s'.Recalls P (Function.update seen t (seen t)) := h.update hs hproc
  rwa [Function.update_eq_self] at hset

theorem recalls_step (hS : ∀ c, calls c → (S.prog c).Recalls (P c)) (h : s.Recalls P seen)
    (hm : m.Admissible S calls) (hs : s.step S m = some s') : s'.Recalls P (s.reads seen m) := by
  cases m with
  | spawn t c =>
      simp only [step] at hs
      split at hs
      · cases hs
        exact h.between rfl (hS c hm)
      · cases hs
  | start t =>
      simp only [step] at hs
      split at hs
      · rename_i c β body next ht
        cases hs
        exact h.update rfl (h t c _ ht)
      · cases hs
  | exec t =>
      simp only [step] at hs
      split at hs
      · rename_i c β L γ f k next ht
        obtain ⟨hbody, hnext⟩ := h t c _ ht
        split at hs
        · rename_i b ws hf
          split at hs
          · cases hs
            exact h.update rfl ⟨hbody s.db b ws hf, hnext⟩
          · cases hs
        · cases hs
          exact h.update rfl (hnext _)
      · rename_i c β L e next ht
        cases hs
        exact h.update rfl ((h t c _ ht).2 _)
      · cases hs
  | commit t | lose t =>
      simp only [step] at hs
      split at hs
      · rename_i c β L a next ht
        cases hs
        exact h.between rfl ((h t c _ ht).2 _)
      · cases hs
  | fail t =>
      simp only [step] at hs
      split at hs
      · rename_i c β body next ht
        cases hs
        have hp : (Proc.tx body next).Recalls (P c) := h t c _ ht
        exact h.between rfl (hp.2 _)
      · rename_i c β L body next ht
        cases hs
        exact h.between rfl ((h t c _ ht).2 _)
      · cases hs
  | kill t =>
      cases hs
      intro u d th hu
      simp only [Function.update_apply] at hu
      split at hu
      · cases hu
      · exact h u d th hu
  | answer t q a =>
      simp only [step] at hs
      split at hs
      · rename_i c q' next ht
        have hp : (Proc.ask q' next).Recalls (P c) := h t c _ ht
        split at hs
        · cases hs
          exact h.between rfl (hp _)
        · cases hs
      · cases hs
  | unanswered t =>
      simp only [step] at hs
      split at hs
      · rename_i c q' next ht
        have hp : (Proc.ask q' next).Recalls (P c) := h t c _ ht
        cases hs
        exact h.between rfl (hp _)
      · cases hs

theorem Recorded.recalls (hS : ∀ c, calls c → (S.prog c).Recalls (P c))
    (run : Recorded S calls ok D s seen) : s.Recalls P seen := by
  induction run with
  | idle => exact fun t c th ht => by cases ht
  | step _ hm _ hs ih => exact recalls_step hS ih hm hs

/-- Every commit of a recorded run is one of the changes that the runs make, is judged
along the rows that its transaction has read, and meets the condition. -/
theorem Recorded.path {R : Call → Db → List Write → Prop}
    (hR : ∀ s, Reach S calls (.idle D) s → Path R D s.history s.db)
    (hS : ∀ c, calls c → (S.prog c).Recalls (P c)) (run : Recorded S calls ok D s seen) :
    Path (fun c D' L => R c D' L ∧ ∃ reads, P c L reads ∧ ok L reads D') D s.history s.db := by
  induction run with
  | idle => exact .nil
  | @step s s' seen m tail hm hok hs ih =>
      rcases step_commits hs with
        ⟨hdb, hhist⟩ | ⟨t, c, γ, L, a, next, hmove, ht, -, hdb, hhist⟩
      · rwa [hdb, hhist]
      · have hpath := hR s' (tail.reach.step hm hs)
        rw [hdb, hhist] at hpath ⊢
        generalize hD' : view L s.db = D' at hpath
        cases hpath with
        | @cons _ D₁ _ _ hbefore he =>
            obtain rfl : D₁ = s.db :=
              hbefore.replay_eq.symm.trans (hR s tail.reach).replay_eq
            refine ih.cons ⟨he, seen t, (tail.recalls hS t c _ ht).1, ?_⟩
            rcases hmove with rfl | rfl <;> simpa [Meets, ht] using hok

/-- Run a schedule with its record, if each move is possible and each commit meets `ok`. -/
def runRecorded (S : Service Db Write E Call Ans α) (ok : List Write → List Db → Db → Prop)
    [∀ L reads D, Decidable (ok L reads D)] (s : Server Db Write Ref E Call Ans α)
    (seen : Nat → List Db) :
    List (Move Call Ans) → Option (Server Db Write Ref E Call Ans α × (Nat → List Db))
  | [] => some (s, seen)
  | m :: ms =>
      if s.meets ok seen m then
        (s.step S m).bind fun s' => s'.runRecorded S ok (s.reads seen m) ms
      else none

theorem Recorded.run [∀ L reads D, Decidable (ok L reads D)] (run : Recorded S calls ok D s seen)
    (ms : List (Move Call Ans)) (hm : ∀ m ∈ ms, m.Admissible S calls) {v : Nat → List Db}
    (hr : s.runRecorded S ok seen ms = some (s', v)) : Recorded S calls ok D s' v := by
  induction ms generalizing s seen with
  | nil =>
      obtain ⟨rfl, rfl⟩ := Prod.mk.inj (Option.some.inj hr)
      exact run
  | cons m ms ih =>
      simp only [runRecorded] at hr
      split at hr
      · rename_i hmeets
        obtain ⟨s₁, hs₁, hr⟩ := Option.bind_eq_some_iff.mp hr
        exact ih (run.step (hm m List.mem_cons_self) (meets_spec hmeets) hs₁)
          (fun m' hm' => hm m' (List.mem_cons_of_mem m hm')) hr
      · cases hr

end Server

end TaroTria.Transactions
