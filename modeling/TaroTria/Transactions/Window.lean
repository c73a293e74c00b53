import TaroTria.Transactions.Delegate

/-!
# What commits while a transaction is open

The window of an open transaction holds the commits that others have made since
its first statement ran. A transaction that chooses its rows with that statement
is judged along its window: between two statements the committed rows move by
the commits of others, which leave the rows that it has written.

## Implementation notes

The windows are a record beside the run. No request can see them; a condition on
runs may speak of them at each commit.
-/

namespace TaroTria.Transactions

variable {Db Write Ref E Q Call α β : Type} {Ans : Q → Type} [RowStore Db Write Ref]

/-- The commits of others while a transaction is open, newest first. -/
abbrev Window (Call Write : Type) := List (Call × List Write)

/-- The commits `h` of others lead from `D` to `D'` and leave the rows that `L` writes. -/
structure Meanwhile (R : Call → Db → List Write → Prop) (L : List Write) (h : Window Call Write)
    (D D' : Db) : Prop where
  path : Path R D h D'
  agreeOn : AgreeOn L D D'

theorem Meanwhile.refl (R : Call → Db → List Write → Prop) (L : List Write) (D : Db) :
    Meanwhile R L [] D D := ⟨.nil, .refl L D⟩

theorem Meanwhile.left {R : Call → Db → List Write → Prop} {L L' : List Write}
    {h : Window Call Write} {D D' : Db} (hm : Meanwhile R (L ++ L') h D D') :
    Meanwhile R L h D D' :=
  ⟨hm.path, hm.agreeOn.mono⟩

theorem Meanwhile.trans {R : Call → Db → List Write → Prop} {L : List Write}
    {h h' : Window Call Write} {D D' D'' : Db} (hm : Meanwhile R L h D D')
    (hm' : Meanwhile R L h' D' D'') : Meanwhile R L (h' ++ h) D D'' :=
  ⟨hm.path.trans hm'.path, hm.agreeOn.trans hm'.agreeOn⟩

/-- A body that has made the writes `L`, with the window `h` and the committed rows `D`,
ends with writes, a window and rows in `P`. -/
def Tx.Along (R : Call → Db → List Write → Prop) (P : List Write → Window Call Write → Db → Prop) :
    Tx Db Write E α → List Write → Window Call Write → Db → Prop
  | .ret _, L, h, D => ∀ h' D', Meanwhile R L h' D D' → P L (h' ++ h) D'
  | .throw _, _, _, _ => True
  | .stmt s next, L, h, D => ∀ h' D', Meanwhile R L h' D D' → ∀ b ws,
      s (view L D') = .ok (b, ws) → (next b).Along R P (L ++ ws) (h' ++ h) D'

/-- The judgement on a body before its first statement. -/
def Tx.Opens (R : Call → Db → List Write → Prop) (P : List Write → Window Call Write → Db → Prop) :
    Tx Db Write E α → Prop
  | .ret _ => True
  | .throw _ => True
  | .stmt s next => ∀ D b ws, s D = .ok (b, ws) → (next b).Along R P ws [] D

/-- Every transaction of a request is judged so. -/
def Proc.Opens (R : Call → Db → List Write → Prop)
    (P : List Write → Window Call Write → Db → Prop) : Proc Db Write E Ans α → Prop
  | .ret _ => True
  | .throw _ => True
  | .tx body next => body.Opens R P ∧ ∀ r, (next r).Opens R P
  | .ask _ next => ∀ r, (next r).Opens R P

section Rules

variable {R : Call → Db → List Write → Prop} {P : List Write → Window Call Write → Db → Prop}
  {L : List Write} {h : Window Call Write} {D : Db}

/-- A judgement survives the commits of others. -/
theorem Tx.Along.later {p : Tx Db Write E α} (hp : p.Along R P L h D)
    {h' : Window Call Write} {D' : Db} (hm : Meanwhile R L h' D D') :
    p.Along R P L (h' ++ h) D' := by
  cases p with
  | ret a =>
      intro h'' D'' hm'
      rw [← List.append_assoc]
      exact hp (h'' ++ h') D'' (hm.trans hm')
  | throw e => trivial
  | stmt s next =>
      intro h'' D'' hm' b ws hs
      rw [← List.append_assoc]
      exact hp (h'' ++ h') D'' (hm.trans hm') b ws hs

/-- A first part whose every end, at any later rows, continues in the second part. -/
theorem Tx.Along.bind {p : Tx Db Write E α} {f : α → Tx Db Write E β}
    (hp : p.Along R (fun L h D => ∀ a, (f a).Along R P L h D) L h D) :
    (p >>= f).Along R P L h D := by
  induction p generalizing L h D with
  | ret a => simpa using hp [] D (.refl R L D) a
  | throw e => trivial
  | stmt s next ih => exact fun h' D' hm b ws hs => ih b (hp h' D' hm b ws hs)

theorem Proc.Opens.bind {p : Proc Db Write E Ans α} {f : α → Proc Db Write E Ans β}
    (hp : p.Opens R P) (hf : ∀ a, (f a).Opens R P) : (p >>= f).Opens R P := by
  induction p with
  | ret a => exact hf a
  | throw e => trivial
  | tx body next ih => exact ⟨hp.1, fun r => ih r (hp.2 r)⟩
  | ask q next ih => exact fun r => ih r (hp r)

theorem Proc.opens_ofExcept (x : Except E α) :
    (Proc.ofExcept x : Proc Db Write E Ans α).Opens R P := by
  cases x <;> trivial

theorem Proc.opens_transaction {body : Tx Db Write E α} (hbody : body.Opens R P) :
    (Proc.transaction body : Proc Db Write E Ans α).Opens R P :=
  ⟨hbody, fun r => Proc.opens_ofExcept r⟩

theorem Proc.opens_call (q : Q) : (Proc.call q : Proc Db Write E Ans (Ans q)).Opens R P :=
  fun r => Proc.opens_ofExcept r

end Rules

namespace Delegate

variable {K V : Type} [DecidableEq K] (M : Delegate Db K V)
  {R : Call → Db → List Write → Prop} {P : List Write → Window Call Write → Db → Prop}
  {L : List Write} {h : Window Call Write} {D : Db}

/-- An update of one row writes what it finds at that moment, or nothing. -/
theorem along_updateMany {k : K} {p : V → Bool} {f : V → V}
    (hwrite : ∀ h' D' v, Meanwhile R L h' D D' → M.find (view L D') k = some v → p v = true →
      ∀ h'' D'', Meanwhile R (L ++ [M.write k (some (f v))]) h'' D' D'' →
        P (L ++ [M.write k (some (f v))]) (h'' ++ (h' ++ h)) D'')
    (hskip : ∀ h' D', Meanwhile R L h' D D' →
      (∀ v, M.find (view L D') k = some v → p v = false) →
      ∀ h'' D'', Meanwhile R L h'' D' D'' → P L (h'' ++ (h' ++ h)) D'') :
    (M.updateMany k p f : Tx Db Write E Nat).Along R P L h D := by
  intro h' D' hm b ws hs
  cases hf : M.find (view L D') k with
  | none =>
      simp only [hf, Except.ok.injEq, Prod.mk.injEq] at hs
      obtain ⟨rfl, rfl⟩ := hs
      simp only [List.append_nil]
      exact hskip h' D' hm fun v hv => by cases hf.symm.trans hv
  | some v =>
      simp only [hf] at hs
      split at hs
      · rename_i hp
        simp only [Except.ok.injEq, Prod.mk.injEq] at hs
        obtain ⟨rfl, rfl⟩ := hs
        exact hwrite h' D' v hm hf hp
      · rename_i hp
        simp only [Except.ok.injEq, Prod.mk.injEq] at hs
        obtain ⟨rfl, rfl⟩ := hs
        simp only [List.append_nil]
        refine hskip h' D' hm fun v' hv => ?_
        cases hf.symm.trans hv
        exact Bool.eq_false_of_not_eq_true hp

/-- The rule for the updates of a list of keys, by an invariant of the keys ahead. -/
theorem along_updateEach {p : K → V → Bool} {f : V → V}
    (J : List K → List Write → Window Call Write → Db → Prop)
    (later : ∀ ks L h D h' D', J ks L h D → Meanwhile R L h' D D' → J ks L (h' ++ h) D')
    (written : ∀ k ks L h D v, J (k :: ks) L h D → M.find (view L D) k = some v →
      p k v = true → J ks (L ++ [M.write k (some (f v))]) h D)
    (skipped : ∀ k ks L h D, J (k :: ks) L h D →
      (∀ v, M.find (view L D) k = some v → p k v = false) → J ks L h D)
    (done : ∀ L h D, J [] L h D → P L h D) {ks : List K} (hJ : J ks L h D) :
    (M.updateEach p f ks : Tx Db Write E Unit).Along R P L h D := by
  induction ks generalizing L h D with
  | nil => exact fun h' D' hm => done _ _ _ (later _ _ _ _ _ _ hJ hm)
  | cons k ks ih =>
      apply Tx.Along.bind
      refine M.along_updateMany (P := fun L h D => ∀ _ : Nat,
        (M.updateEach p f ks : Tx Db Write E Unit).Along R P L h D) ?_ ?_
      · intro h' D' v hm hv hp h'' D'' hm' _
        exact ih (later _ _ _ _ _ _ (written _ _ _ _ _ _ (later _ _ _ _ _ _ hJ hm) hv hp) hm')
      · intro h' D' hm hnot h'' D'' hm' _
        exact ih (later _ _ _ _ _ _ (skipped _ _ _ _ _ (later _ _ _ _ _ _ hJ hm) hnot) hm')

variable [SqlError E]

theorem along_update {k : K} {f : V → V}
    (hwrite : ∀ h' D' v, Meanwhile R L h' D D' → M.find (view L D') k = some v →
      ∀ h'' D'', Meanwhile R (L ++ [M.write k (some (f v))]) h'' D' D'' →
        P (L ++ [M.write k (some (f v))]) (h'' ++ (h' ++ h)) D'') :
    (M.update k f : Tx Db Write E V).Along R P L h D := by
  intro h' D' hm b ws hs
  cases hf : M.find (view L D') k with
  | none => simp only [hf, reduceCtorEq] at hs
  | some v =>
      simp only [hf, Except.ok.injEq, Prod.mk.injEq] at hs
      obtain ⟨rfl, rfl⟩ := hs
      exact hwrite h' D' v hm hf

/-- An insert as a transaction of its own. -/
theorem opens_create {k : K} {v : V}
    (h : ∀ D h' D', M.find D k = none → Meanwhile R [M.write k (some v)] h' D D' →
      P [M.write k (some v)] h' D') : (M.create k v : Tx Db Write E V).Opens R P := by
  intro D b ws hs
  cases hf : M.find D k with
  | some v' => simp only [hf, reduceCtorEq] at hs
  | none =>
      simp only [hf, Except.ok.injEq, Prod.mk.injEq] at hs
      obtain ⟨rfl, rfl⟩ := hs
      intro h' D' hm
      simpa using h D h' D' hf hm

end Delegate

/-- A read as a transaction of its own. -/
theorem Tx.opens_select {R : Call → Db → List Write → Prop}
    {P : List Write → Window Call Write → Db → Prop} (hP : ∀ h D, P [] h D) (f : Db → β) :
    (select f : Tx Db Write E β).Opens R P := by
  intro D b ws hs
  cases hs
  exact fun h' D' _ => hP _ _

/-- The discipline that permits every change. -/
def anything : Discipline Db Write Ref Call where
  Mono _ _ := True
  mono_refl _ := trivial
  mono_trans _ _ := trivial
  Inv _ := True
  inv_mono _ _ := trivial
  Effect _ _ _ := True
  mono_effect _ := trivial

theorem Proc.safe_anything {answers : (q : Q) → Ans q → Prop} {c : Call}
    (p : Proc Db Write E Ans α) (D : Db) : p.Safe anything answers c (fun _ _ => True) D := by
  induction p generalizing D with
  | ret a => exact fun _ _ => trivial
  | throw e => exact fun _ _ => trivial
  | tx body next ih =>
      exact fun D' _ => ⟨fun e => ih _ D',
        Tx.wp_of_forall fun a L => ⟨fun _ => trivial, ih _ _⟩⟩
  | ask q next ih => exact fun D' _ => ⟨fun e => ih _ D', fun a _ => ih _ D'⟩

/-- What the log of a commit must satisfy, where the commit is allowed. -/
def Permitted (R : Call → Db → List Write → Prop)
    (ok : Call → List Write → Window Call Write → Prop) (c : Call) (L : List Write)
    (h : Window Call Write) (D : Db) : Prop :=
  L ≠ [] → ok c L h → R c D L

/-- The judgement on a thread with its window, if its transaction has run a statement. -/
def Thread.Along (R : Call → Db → List Write → Prop)
    (P : List Write → Window Call Write → Db → Prop) :
    Thread Db Write E Ans α → Option (Window Call Write) → Db → Prop
  | .between proc, _, _ => proc.Opens R P
  | .inside L body next, none, _ => L = [] ∧ body.Opens R P ∧ ∀ r, (next r).Opens R P
  | .inside L body next, some h, D => body.Along R P L h D ∧ ∀ r, (next r).Opens R P

theorem Thread.Along.later {R : Call → Db → List Write → Prop}
    {P : List Write → Window Call Write → Db → Prop} {th : Thread Db Write E Ans α}
    {v : Option (Window Call Write)} {h : Window Call Write} {D D' : Db} (hth : th.Along R P v D)
    (hm : Meanwhile R th.log h D D') : th.Along R P (v.map (h ++ ·)) D' := by
  cases th with
  | between proc => exact hth
  | inside L body next =>
      cases v with
      | none => exact hth
      | some h' => exact ⟨hth.1.later hm, hth.2⟩

theorem Thread.Along.opens {R : Call → Db → List Write → Prop}
    {P : List Write → Window Call Write → Db → Prop} {L : List Write} {body : Tx Db Write E β}
    {next : Except E β → Proc Db Write E Ans α} {v : Option (Window Call Write)} {D : Db}
    (h : (Thread.inside L body next).Along R P v D) (r : Except E β) : (next r).Opens R P := by
  cases v with
  | none => exact h.2.2 r
  | some _ => exact h.2 r

namespace Server

/-- The windows after a move at `s`. -/
def windows (s : Server Db Write Ref E Call Ans α) (w : Nat → Option (Window Call Write)) :
    Move Call Ans → Nat → Option (Window Call Write)
  | .start t => Function.update w t none
  | .exec t => Function.update w t (some ((w t).getD []))
  | .commit t | .lose t =>
      match s.threads t with
      | some (c, .inside L _ _) =>
          if L.isEmpty then w else fun u => if u = t then w u else (w u).map ((c, L) :: ·)
      | _ => w
  | _ => w

/-- A commit of writes meets `ok` with its window. -/
def Allows (ok : Call → List Write → Window Call Write → Prop)
    (s : Server Db Write Ref E Call Ans α) (w : Nat → Option (Window Call Write)) :
    Move Call Ans → Prop
  | .commit t | .lose t =>
      match s.threads t with
      | some (c, .inside L _ _) => L ≠ [] → ok c L ((w t).getD [])
      | _ => True
  | _ => True

/-- `Allows` as a check. -/
def allows (check : Call → List Write → Window Call Write → Bool)
    (s : Server Db Write Ref E Call Ans α) (w : Nat → Option (Window Call Write)) :
    Move Call Ans → Bool
  | .commit t | .lose t =>
      match s.threads t with
      | some (c, .inside L _ _) => L.isEmpty || check c L ((w t).getD [])
      | _ => true
  | _ => true

omit [RowStore Db Write Ref] in
theorem allows_spec {check : Call → List Write → Window Call Write → Bool}
    {ok : Call → List Write → Window Call Write → Prop}
    (hcheck : ∀ c L h, check c L h = true → ok c L h) {s : Server Db Write Ref E Call Ans α}
    {w : Nat → Option (Window Call Write)} {m : Move Call Ans} (h : s.allows check w m = true) :
    s.Allows ok w m := by
  cases m with
  | commit t | lose t =>
      simp only [allows, Allows] at h ⊢
      split at h
      · intro hL
        rw [Bool.or_eq_true, List.isEmpty_iff] at h
        exact hcheck _ _ _ (h.resolve_left hL)
      · trivial
  | _ => trivial

variable [DecidableEq Ref] [DecidableEq Q] [SqlError E]

/-- The runs from committed rows `D` whose commits meet `ok`, with their windows. -/
inductive Watched (S : Service Db Write E Call Ans α) (calls : Call → Prop)
    (ok : Call → List Write → Window Call Write → Prop) (D : Db) :
    Server Db Write Ref E Call Ans α → (Nat → Option (Window Call Write)) → Prop
  | idle : Watched S calls ok D (.idle D) fun _ => none
  | step {s s' w m} (tail : Watched S calls ok D s w) (hm : m.Admissible S calls)
      (hok : s.Allows ok w m) (hs : s.step S m = some s') : Watched S calls ok D s' (s.windows w m)

/-- Every thread is judged along its window. -/
def Along (R : Call → Db → List Write → Prop) (ok : Call → List Write → Window Call Write → Prop)
    (s : Server Db Write Ref E Call Ans α) (w : Nat → Option (Window Call Write)) : Prop :=
  ∀ t c th, s.threads t = some (c, th) → th.Along R (Permitted R ok c) (w t) s.db

variable {S : Service Db Write E Call Ans α} {calls : Call → Prop}
  {R : Call → Db → List Write → Prop} {ok : Call → List Write → Window Call Write → Prop}
  {s s' : Server Db Write Ref E Call Ans α} {w : Nat → Option (Window Call Write)}

omit [DecidableEq Ref] [DecidableEq Q] [SqlError E] in
/-- One thread is replaced, with the committed rows and the other windows unchanged. -/
theorem Along.setThread (h : s.Along R ok w) {t : Nat} {c : Call} {k : Thread Db Write E Ans α}
    {v : Option (Window Call Write)} {locks : Ref → Option Nat}
    (hk : k.Along R (Permitted R ok c) v s.db) :
    Along R ok { s.setThread t c k with locks := locks } (Function.update w t v) := by
  intro u d th' hu
  simp only [Server.setThread, Function.update_apply] at hu ⊢
  split at hu
  · rename_i hut
    obtain ⟨rfl, rfl⟩ := Prod.mk.inj (Option.some.inj hu)
    simpa [hut] using hk
  · rename_i hut
    simpa [hut] using h u d th' hu

omit [DecidableEq Ref] [DecidableEq Q] [SqlError E] in
theorem Along.setBetween (h : s.Along R ok w) {t : Nat} {c : Call} {proc : Proc Db Write E Ans α}
    {locks : Ref → Option Nat} (hproc : proc.Opens R (Permitted R ok c)) :
    Along R ok { s.setThread t c (.between proc) with locks := locks } w := by
  have hset : Along R ok { s.setThread t c (.between proc) with locks := locks }
      (Function.update w t (w t)) := h.setThread hproc
  rwa [Function.update_eq_self] at hset

omit [DecidableEq Ref] [DecidableEq Q] [SqlError E] in
/-- A commit moves the other threads along their windows. -/
theorem Along.publish (h : s.Along R ok w) (hsound : s.Sound anything S calls) {t : Nat} {c : Call}
    {L : List Write} {a : β} {next : Except E β → Proc Db Write E Ans α}
    {proc : Proc Db Write E Ans α} (ht : s.threads t = some (c, .inside L (.ret a) next))
    (hR : L ≠ [] → R c s.db L) (hproc : proc.Opens R (Permitted R ok c)) :
    (s.publish t c L proc).Along R ok
      (if L.isEmpty then w else fun u => if u = t then w u else (w u).map ((c, L) :: ·)) := by
  intro u d th hu
  simp only [Server.publish, Server.rollback, Server.setThread, Function.update_apply] at hu ⊢
  split at hu
  · obtain ⟨rfl, rfl⟩ := Prod.mk.inj (Option.some.inj hu)
    exact hproc
  · rename_i hut
    cases L with
    | nil => exact h u d th hu
    | cons x L =>
        have hlater := (h u d th hu).later (h := [(c, x :: L)])
          ⟨Path.nil.cons (hR (List.cons_ne_nil x L)), hsound.agreeOn ht hu hut⟩
        simpa [hut] using hlater

/-- What one move does along the windows. -/
theorem along_step
    (hS : ∀ c, calls c → (S.prog c).Opens R (Permitted R ok c)) {m : Move Call Ans}
    (hsound : s.Sound anything S calls) (h : s.Along R ok w) (hm : m.Admissible S calls)
    (hok : s.Allows ok w m) (hs : s.step S m = some s') :
    s'.Along R ok (s.windows w m) ∧
      ∃ hist, s'.history = hist ++ s.history ∧ Path R s.db hist s'.db := by
  have still : ∀ {s'' : Server Db Write Ref E Call Ans α}, s''.db = s.db →
      s''.history = s.history → ∃ hist, s''.history = hist ++ s.history ∧
        Path R s.db hist s''.db :=
    fun hd hh => ⟨[], by simp [hh], by rw [hd]; exact Path.nil⟩
  -- A commit by thread `t`, whose answer arrives or is lost.
  have commit : ∀ {t c L γ} {a : γ} {next : Except E γ → Proc Db Write E Ans α} {r : Except E γ},
      s.threads t = some (c, .inside L (.ret a) next) → (L ≠ [] → ok c L ((w t).getD [])) →
      (s.publish t c L (next r)).Along R ok
        (if L.isEmpty then w else fun u => if u = t then w u else (w u).map ((c, L) :: ·)) ∧
        ∃ hist, (s.publish t c L (next r)).history = hist ++ s.history ∧
          Path R s.db hist (s.publish t c L (next r)).db := by
    intro t c L γ a next r ht hcommit
    have hth := h t c _ ht
    have hR : L ≠ [] → R c s.db L := by
      intro hL
      cases hw : w t with
      | none =>
          rw [hw] at hth
          exact absurd hth.1 hL
      | some v =>
          rw [hw] at hth hcommit
          exact hth.1 [] s.db (.refl R L s.db) hL (hcommit hL)
    refine ⟨h.publish hsound ht hR (hth.opens r), ?_⟩
    cases L with
    | nil => exact ⟨[], rfl, Path.nil⟩
    | cons x L =>
        exact ⟨[(c, x :: L)], rfl, Path.nil.cons (hR (List.cons_ne_nil x L))⟩
  cases m with
  | spawn t c =>
      simp only [step] at hs
      split at hs
      · cases hs
        exact ⟨h.setBetween (hS c hm), still rfl rfl⟩
      · cases hs
  | start t =>
      simp only [step] at hs
      split at hs
      · rename_i c β body next ht
        cases hs
        have hp : (Proc.tx body next).Opens R (Permitted R ok c) := h t c _ ht
        exact ⟨h.setThread (k := .inside [] body next) (v := none) ⟨rfl, hp⟩, still rfl rfl⟩
      · cases hs
  | exec t =>
      simp only [step] at hs
      split at hs
      · rename_i c β L γ f k next ht
        have hth := h t c _ ht
        split at hs
        · rename_i b ws hf
          split at hs
          · cases hs
            refine ⟨h.setThread (k := .inside (L ++ ws) (k b) next) ⟨?_, hth.opens⟩,
              still rfl rfl⟩
            cases hw : w t with
            | none =>
                rw [hw] at hth
                obtain ⟨rfl, hbody, -⟩ := hth
                exact hbody s.db b ws hf
            | some v =>
                rw [hw] at hth
                exact hth.1 [] s.db (.refl R _ s.db) b ws hf
          · cases hs
        · cases hs
          exact ⟨h.setThread (k := .between _) (hth.opens _), still rfl rfl⟩
      · rename_i c β L e next ht
        cases hs
        exact ⟨h.setThread (k := .between _) ((h t c _ ht).opens _), still rfl rfl⟩
      · cases hs
  | commit t =>
      simp only [step] at hs
      split at hs
      · rename_i c β L a next ht
        cases hs
        simp only [Allows, windows, ht] at hok ⊢
        exact commit ht hok
      · cases hs
  | lose t =>
      simp only [step] at hs
      split at hs
      · rename_i c β L a next ht
        cases hs
        simp only [Allows, windows, ht] at hok ⊢
        exact commit ht hok
      · cases hs
  | fail t =>
      simp only [step] at hs
      split at hs
      · rename_i c β body next ht
        cases hs
        have hp : (Proc.tx body next).Opens R (Permitted R ok c) := h t c _ ht
        exact ⟨h.setBetween (hp.2 _), still rfl rfl⟩
      · rename_i c β L body next ht
        cases hs
        exact ⟨h.setBetween ((h t c _ ht).opens _), still rfl rfl⟩
      · cases hs
  | kill t =>
      cases hs
      refine ⟨fun u d th hu => ?_, still rfl rfl⟩
      simp only [Function.update_apply] at hu
      split at hu
      · cases hu
      · exact h u d th hu
  | answer t q a =>
      simp only [step] at hs
      split at hs
      · rename_i c q' next ht
        have hp : (Proc.ask q' next).Opens R (Permitted R ok c) := h t c _ ht
        split at hs
        · rename_i hq
          subst hq
          cases hs
          exact ⟨h.setBetween (hp (.ok a)), still rfl rfl⟩
        · cases hs
      · cases hs
  | unanswered t =>
      simp only [step] at hs
      split at hs
      · rename_i c q' next ht
        have hp : (Proc.ask q' next).Opens R (Permitted R ok c) := h t c _ ht
        cases hs
        exact ⟨h.setBetween (hp _), still rfl rfl⟩
      · cases hs

/-- The committed rows of a watched run move along a path of permitted commits. -/
theorem Watched.path (hS : ∀ c, calls c → (S.prog c).Opens R (Permitted R ok c)) {D : Db}
    (run : Watched S calls ok D s w) : s.Sound anything S calls ∧ s.Along R ok w ∧
      Path R D s.history s.db := by
  induction run with
  | idle => exact ⟨sound_idle D, fun t c th ht => by simp [Server.idle] at ht, Path.nil⟩
  | step tail hm hok hs ih =>
      obtain ⟨hsound, halong, hpath⟩ := ih
      obtain ⟨hsound', -⟩ := sound_step (fun c _ D _ => Proc.safe_anything _ D) trivial hsound hm hs
      obtain ⟨halong', hist, hhist, hpath'⟩ := along_step hS hsound halong hm hok hs
      exact ⟨hsound', halong', hhist ▸ hpath.trans hpath'⟩

/-- Run a schedule with its windows, if each move is possible and each commit passes `check`. -/
def runWatched (S : Service Db Write E Call Ans α)
    (check : Call → List Write → Window Call Write → Bool) (s : Server Db Write Ref E Call Ans α)
    (w : Nat → Option (Window Call Write)) :
    List (Move Call Ans) →
      Option (Server Db Write Ref E Call Ans α × (Nat → Option (Window Call Write)))
  | [] => some (s, w)
  | m :: ms =>
      if s.allows check w m then
        (s.step S m).bind fun s' => s'.runWatched S check (s.windows w m) ms
      else none

theorem Watched.run {check : Call → List Write → Window Call Write → Bool}
    (hcheck : ∀ c L h, check c L h = true → ok c L h) {D : Db} (run : Watched S calls ok D s w)
    (ms : List (Move Call Ans)) (hm : ∀ m ∈ ms, m.Admissible S calls)
    {w' : Nat → Option (Window Call Write)} (hr : s.runWatched S check w ms = some (s', w')) :
    Watched S calls ok D s' w' := by
  induction ms generalizing s w with
  | nil =>
      obtain ⟨rfl, rfl⟩ := Prod.mk.inj (Option.some.inj hr)
      exact run
  | cons m ms ih =>
      simp only [runWatched] at hr
      split at hr
      · rename_i hallows
        obtain ⟨s₁, hs₁, hr⟩ := Option.bind_eq_some_iff.mp hr
        exact ih (run.step (hm m List.mem_cons_self) (allows_spec hcheck hallows) hs₁)
          (fun m' hm' => hm m' (List.mem_cons_of_mem m hm')) hr
      · cases hr

end Server

end TaroTria.Transactions
