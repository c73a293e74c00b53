import TaroTria.Transactions.Snapshots

/-!
# What a request has been told

A request knows the answers that the outside world has given it, and its commits
may depend on them. A transcript is a run with the answers that each running
request has been given since its start, and with every commit that wrote
something, newest first, together with the answers that its request had then.

## Implementation notes

As the record of reads of `Snapshots`, the answers are kept beside the server,
which does not change. The judgement is made under a discipline, since a commit
may combine an answer with a row that was read before other commits.
-/

namespace TaroTria.Transactions

variable {Db Write Ref E Q Call α β : Type} {Ans : Q → Type} [RowStore Db Write Ref]

/-- A commit: its call, the answers that its request had been given, oldest first, and
its writes. -/
structure Commit (Write Call : Type) {Q : Type} (Ans : Q → Type) where
  call : Call
  heard : List (Sigma Ans)
  writes : List Write

/-- Every commit of the request meets `K` with the answers given to the request by
then, and the request ends in `P`. -/
def Proc.Heeds (G : Discipline Db Write Ref Call) (answers : (q : Q) → Ans q → Prop)
    (K : List (Sigma Ans) → List Write → Prop) (P : Except E α → List (Sigma Ans) → Prop) :
    Proc Db Write E Ans α → List (Sigma Ans) → Prop
  | .ret a, heard => P (.ok a) heard
  | .throw e, heard => P (.error e) heard
  | .tx body next, heard => (∀ e, (next (.error e)).Heeds G answers K P heard) ∧
      ∀ D, G.Inv D → body.wp G D (fun a L => (L ≠ [] → K heard L) ∧
        (next (.ok a)).Heeds G answers K P heard) []
  | .ask q next, heard => (∀ e, (next (.error e)).Heeds G answers K P heard) ∧
      ∀ a, answers q a → (next (.ok a)).Heeds G answers K P (heard ++ [⟨q, a⟩])

namespace Proc

variable {G : Discipline Db Write Ref Call} {answers : (q : Q) → Ans q → Prop}
  {K : List (Sigma Ans) → List Write → Prop} {heard : List (Sigma Ans)}

theorem Heeds.bind {P : Except E β → List (Sigma Ans) → Prop} {p : Proc Db Write E Ans α}
    {f : α → Proc Db Write E Ans β}
    (h : p.Heeds G answers K (fun r heard' => match r with
      | .ok a => (f a).Heeds G answers K P heard'
      | .error e => P (.error e) heard') heard) : (p >>= f).Heeds G answers K P heard := by
  induction p generalizing heard with
  | ret a => exact h
  | throw e => exact h
  | tx body next ih =>
      refine ⟨fun e => ih _ (h.1 e), fun D hI => ?_⟩
      exact Tx.wp_mono (fun a L hL => ⟨hL.1, ih _ hL.2⟩) (h.2 D hI)
  | ask q next ih => exact ⟨fun e => ih _ (h.1 e), fun a ha => ih _ (h.2 a ha)⟩

theorem Heeds.mono {P P' : Except E α → List (Sigma Ans) → Prop}
    (hP : ∀ r heard', P r heard' → P' r heard') {p : Proc Db Write E Ans α}
    (h : p.Heeds G answers K P heard) : p.Heeds G answers K P' heard := by
  induction p generalizing heard with
  | ret a => exact hP _ _ h
  | throw e => exact hP _ _ h
  | tx body next ih =>
      refine ⟨fun e => ih _ (h.1 e), fun D hI => ?_⟩
      exact Tx.wp_mono (fun a L hL => ⟨hL.1, ih _ hL.2⟩) (h.2 D hI)
  | ask q next ih => exact ⟨fun e => ih _ (h.1 e), fun a ha => ih _ (h.2 a ha)⟩

/-- A request whose commits are free. -/
theorem heeds_of_forall {P : Except E α → List (Sigma Ans) → Prop} (hK : ∀ heard L, K heard L)
    (hP : ∀ r heard, P r heard) (p : Proc Db Write E Ans α) : p.Heeds G answers K P heard := by
  induction p generalizing heard with
  | ret a => exact hP _ _
  | throw e => exact hP _ _
  | tx body next ih =>
      exact ⟨fun e => ih _, fun D _ => Tx.wp_of_forall fun a L => ⟨fun _ => hK _ L, ih _⟩⟩
  | ask q next ih => exact ⟨fun e => ih _, fun a _ => ih _⟩

/-- The rule for a transaction whose error is raised. -/
theorem heeds_transaction {P : Except E α → List (Sigma Ans) → Prop} {body : Tx Db Write E α}
    (herr : ∀ e, P (.error e) heard)
    (hok : ∀ D, G.Inv D → body.wp G D (fun a L => (L ≠ [] → K heard L) ∧ P (.ok a) heard) []) :
    (transaction body : Proc Db Write E Ans α).Heeds G answers K P heard :=
  ⟨herr, hok⟩

theorem heeds_call {q : Q} {P : Except E (Ans q) → List (Sigma Ans) → Prop}
    (herr : ∀ e, P (.error e) heard) (hok : ∀ a, answers q a → P (.ok a) (heard ++ [⟨q, a⟩])) :
    (call q : Proc Db Write E Ans (Ans q)).Heeds G answers K P heard :=
  ⟨herr, hok⟩

end Proc

/-- The judgement on a thread that has been given the answers `heard`. -/
def Thread.Heeds (G : Discipline Db Write Ref Call) (answers : (q : Q) → Ans q → Prop)
    (K : List (Sigma Ans) → List Write → Prop) :
    Thread Db Write E Ans α → List (Sigma Ans) → Db → Prop
  | .between proc, heard, _ => proc.Heeds G answers K (fun _ _ => True) heard
  | .inside L body next, heard, D =>
      (∀ e, (next (.error e)).Heeds G answers K (fun _ _ => True) heard) ∧
      ∀ D', G.Earlier L D D' → body.wp G D' (fun a L' => (L' ≠ [] → K heard L') ∧
        (next (.ok a)).Heeds G answers K (fun _ _ => True) heard) L

theorem Thread.Heeds.later {G : Discipline Db Write Ref Call} {answers : (q : Q) → Ans q → Prop}
    {K : List (Sigma Ans) → List Write → Prop} {heard : List (Sigma Ans)}
    {th : Thread Db Write E Ans α} {D D' : Db} (h : th.Heeds G answers K heard D)
    (hm : G.Earlier th.log D D') : th.Heeds G answers K heard D' := by
  cases th with
  | between proc => exact h
  | inside L body next => exact ⟨h.1, fun D'' h' => h.2 D'' (hm.trans h')⟩

namespace Server

/-- The answers given to each thread after a move. -/
def hears (heard : Nat → List (Sigma Ans)) : Move Call Ans → Nat → List (Sigma Ans)
  | .spawn t _ => Function.update heard t []
  | .answer t q a => Function.update heard t (heard t ++ [⟨q, a⟩])
  | _ => heard

/-- The commit that a move at `s` makes, if it writes something. -/
def commits (s : Server Db Write Ref E Call Ans α) (heard : Nat → List (Sigma Ans)) :
    Move Call Ans → List (Commit Write Call Ans)
  | .commit t | .lose t =>
      match s.threads t with
      | some (c, .inside L _ _) => if L.isEmpty then [] else [⟨c, heard t, L⟩]
      | _ => []
  | _ => []

variable [DecidableEq Ref] [DecidableEq Q] [SqlError E]

/-- The runs from committed rows `D` with what each thread has been told and the
commits that were made. -/
inductive Transcript (S : Service Db Write E Call Ans α) (calls : Call → Prop) (D : Db) :
    Server Db Write Ref E Call Ans α → (Nat → List (Sigma Ans)) →
      List (Commit Write Call Ans) → Prop
  | idle : Transcript S calls D (.idle D) (fun _ => []) []
  | step {s s' heard made m} (tail : Transcript S calls D s heard made)
      (hm : m.Admissible S calls) (hs : s.step S m = some s') :
      Transcript S calls D s' (hears heard m) (s.commits heard m ++ made)

variable {S : Service Db Write E Call Ans α} {calls : Call → Prop} {D : Db}
  {s s' : Server Db Write Ref E Call Ans α} {heard : Nat → List (Sigma Ans)}
  {made : List (Commit Write Call Ans)} {m : Move Call Ans}

theorem Transcript.reach (run : Transcript S calls D s heard made) :
    Reach S calls (.idle D) s := by
  induction run with
  | idle => exact .refl
  | step _ hm hs ih => exact ih.step hm hs

/-- Every run has a transcript. -/
theorem Reach.transcript (run : Reach S calls (.idle D) s) :
    ∃ heard made, Transcript S calls D s heard made := by
  induction run with
  | refl => exact ⟨_, _, .idle⟩
  | step _ hm hs ih =>
      obtain ⟨heard, made, ih⟩ := ih
      exact ⟨_, _, ih.step hm hs⟩

/-- The commits of a transcript are the history of its server. -/
theorem Transcript.history (run : Transcript S calls D s heard made) :
    made.map (fun e => (e.call, e.writes)) = s.history := by
  induction run with
  | idle => rfl
  | @step s s' heard made m _ _ hs ih =>
      rw [List.map_append, ih]
      cases m with
      | commit t | lose t =>
          simp only [Server.step] at hs
          split at hs
          · rename_i c γ L a next ht
            cases hs
            cases L <;> simp [commits, ht, Server.publish]
          · cases hs
      | kill t =>
          cases hs
          rfl
      | spawn t c | start t | exec t | fail t | answer t q a | unanswered t =>
          simp only [Server.step] at hs
          (repeat' split at hs) <;> cases hs <;> rfl

omit [DecidableEq Ref] [DecidableEq Q] [SqlError E] in
/-- Every thread is judged with what it has been told. -/
def Heeds (G : Discipline Db Write Ref Call) (answers : (q : Q) → Ans q → Prop)
    (K : Call → List (Sigma Ans) → List Write → Prop) (s : Server Db Write Ref E Call Ans α)
    (heard : Nat → List (Sigma Ans)) : Prop :=
  ∀ t c th, s.threads t = some (c, th) → th.Heeds G answers (K c) (heard t) s.db

variable {G : Discipline Db Write Ref Call} {K : Call → List (Sigma Ans) → List Write → Prop}

omit [DecidableEq Ref] [DecidableEq Q] [SqlError E] in
/-- One thread is replaced together with what it has been told, while the others go on
from the rows that they have locked. -/
theorem Heeds.update (h : s.Heeds G S.answers K heard) {t : Nat} {c : Call}
    {k : Thread Db Write E Ans α} {v : List (Sigma Ans)}
    (hs : s'.threads = Function.update s.threads t (some (c, k)))
    (hothers : ∀ u d th', u ≠ t → s.threads u = some (d, th') → G.Earlier th'.log s.db s'.db)
    (hk : k.Heeds G S.answers (K c) v s'.db) :
    s'.Heeds G S.answers K (Function.update heard t v) := by
  intro u d th' hu
  simp only [hs, Function.update_apply] at hu ⊢
  split at hu
  · rename_i hut
    cases hu
    simpa [hut] using hk
  · rename_i hut
    simpa [hut] using (h u d th' hu).later (hothers u d th' hut hu)

omit [DecidableEq Ref] [DecidableEq Q] [SqlError E] in
/-- One thread goes on with a part of its request, as the rows stay. -/
theorem Heeds.go (h : s.Heeds G S.answers K heard) (hI : G.Inv s.db) {t : Nat} {c : Call}
    {k : Thread Db Write E Ans α} (hs : s'.threads = Function.update s.threads t (some (c, k)))
    (hdb : s'.db = s.db) (hk : k.Heeds G S.answers (K c) (heard t) s.db) :
    s'.Heeds G S.answers K heard := by
  have hset : s'.Heeds G S.answers K (Function.update heard t (heard t)) :=
    h.update hs (fun _ _ th' _ _ => hdb.symm ▸ G.earlier_refl th'.log hI) (hdb.symm ▸ hk)
  rwa [Function.update_eq_self] at hset

omit [DecidableEq Ref] [DecidableEq Q] [SqlError E] in
/-- The commit of one thread, which goes on with `proc`. -/
theorem Heeds.publish (h : s.Heeds G S.answers K heard) (hI : G.Inv s.db)
    (hsound : s.Sound G S calls) {t : Nat} {c : Call} {L : List Write} {a : β}
    {next : Except E β → Proc Db Write E Ans α} {proc : Proc Db Write E Ans α}
    (ht : s.threads t = some (c, .inside L (.ret a) next)) (hm : G.Mono s.db (view L s.db))
    (hproc : proc.Heeds G S.answers (K c) (fun _ _ => True) (heard t)) :
    (s.publish t c L proc).Heeds G S.answers K heard := by
  have hset : (s.publish t c L proc).Heeds G S.answers K (Function.update heard t (heard t)) :=
    h.update (k := .between proc) rfl
      (fun u d th' hut hu => ⟨hI, hm, hsound.agreeOn ht hu hut⟩) hproc
  rwa [Function.update_eq_self] at hset

/-- What one move does: threads go on as they are judged. -/
theorem heeds_step
    (hS : ∀ c, calls c → (S.prog c).Heeds G S.answers (K c) (fun _ _ => True) [])
    (hI : G.Inv s.db) (hsound : s.Sound G S calls) (h : s.Heeds G S.answers K heard)
    (hm : m.Admissible S calls) (hs : s.step S m = some s') :
    s'.Heeds G S.answers K (hears heard m) := by
  have mono : ∀ {t c L γ} {a : γ} {next : Except E γ → Proc Db Write E Ans α},
      s.threads t = some (c, .inside L (.ret a) next) → G.Mono s.db (view L s.db) := by
    intro t c L γ a next ht
    obtain ⟨_, _, hsafe⟩ := hsound.safe t c _ ht
    exact Discipline.mono_writes (hsafe s.db (G.earlier_refl L hI)).2.1
  cases m with
  | spawn t c =>
      simp only [step] at hs
      split at hs
      · cases hs
        exact h.update rfl (fun _ _ th' _ _ => G.earlier_refl th'.log hI) (hS c hm)
      · cases hs
  | start t =>
      simp only [step] at hs
      split at hs
      · rename_i c β body next ht
        cases hs
        have hp : (Proc.tx body next).Heeds G S.answers (K c) (fun _ _ => True) (heard t) :=
          h t c _ ht
        exact h.go hI (k := .inside [] body next) rfl rfl
          ⟨hp.1, fun D' hD' => hp.2 D' (G.inv_mono hD'.mono hI)⟩
      · cases hs
  | exec t =>
      simp only [step] at hs
      split at hs
      · rename_i c β L γ f k next ht
        obtain ⟨herr, hbody⟩ := h t c _ ht
        split at hs
        · rename_i b ws hf
          split at hs
          · cases hs
            exact h.go hI (k := .inside (L ++ ws) (k b) next) rfl rfl ⟨herr, fun D' hD' =>
              hbody D' hD'.left s.db b ws hD' hf⟩
          · cases hs
        · cases hs
          exact h.go hI rfl rfl (herr _)
      · rename_i c β L e next ht
        cases hs
        exact h.go hI rfl rfl ((h t c _ ht).1 _)
      · cases hs
  | commit t =>
      simp only [step] at hs
      split at hs
      · rename_i c β L a next ht
        cases hs
        exact h.publish hI hsound ht (mono ht) ((h t c _ ht).2 s.db (G.earlier_refl L hI)).2
      · cases hs
  | lose t =>
      simp only [step] at hs
      split at hs
      · rename_i c β L a next ht
        cases hs
        exact h.publish hI hsound ht (mono ht) ((h t c _ ht).1 _)
      · cases hs
  | fail t =>
      simp only [step] at hs
      split at hs
      · rename_i c β body next ht
        cases hs
        have hp : (Proc.tx body next).Heeds G S.answers (K c) (fun _ _ => True) (heard t) :=
          h t c _ ht
        exact h.go hI rfl rfl (hp.1 _)
      · rename_i c β L body next ht
        cases hs
        exact h.go hI rfl rfl ((h t c _ ht).1 _)
      · cases hs
  | kill t =>
      cases hs
      intro u d th hu
      simp only [Function.update_apply] at hu
      split at hu
      · cases hu
      · exact h u d th hu
  | answer t q a =>
      simp only [step] at hs
      split at hs
      · rename_i c q' next ht
        have hp : (Proc.ask q' next).Heeds G S.answers (K c) (fun _ _ => True) (heard t) :=
          h t c _ ht
        split at hs
        · rename_i hq
          subst hq
          cases hs
          exact h.update rfl (fun _ _ th' _ _ => G.earlier_refl th'.log hI) (hp.2 a hm)
        · cases hs
      · cases hs
  | unanswered t =>
      simp only [step] at hs
      split at hs
      · rename_i c q' next ht
        have hp : (Proc.ask q' next).Heeds G S.answers (K c) (fun _ _ => True) (heard t) :=
          h t c _ ht
        cases hs
        exact h.go hI rfl rfl (hp.1 _)
      · cases hs

/-- The commit of a move meets `K`. -/
theorem Heeds.commits (hI : G.Inv s.db) (h : s.Heeds G S.answers K heard)
    (hs : s.step S m = some s') {e : Commit Write Call Ans} (he : e ∈ s.commits heard m) :
    K e.call e.heard e.writes := by
  cases m with
  | commit t | lose t =>
      simp only [Server.step] at hs
      split at hs
      · rename_i c γ L a next ht
        simp only [Server.commits, ht] at he
        split at he
        · cases he
        · rename_i hL
          obtain rfl := List.mem_singleton.mp he
          exact ((h t c _ ht).2 s.db (G.earlier_refl L hI)).1 (by simpa using hL)
      · cases hs
  | _ => cases he

/-- Every commit of a run meets what its request heeds, with the answers that the request
had been given by then. -/
theorem Transcript.heeds
    (hsafe : ∀ c, calls c → ∀ D', G.Inv D' →
      (S.prog c).Safe G S.answers c (fun _ _ => True) D')
    (hS : ∀ c, calls c → (S.prog c).Heeds G S.answers (K c) (fun _ _ => True) []) (hI : G.Inv D)
    (run : Transcript S calls D s heard made) :
    s.Heeds G S.answers K heard ∧ ∀ e ∈ made, K e.call e.heard e.writes := by
  induction run with
  | idle => exact ⟨fun t c th ht => by simp [Server.idle] at ht, by simp⟩
  | @step s s' heard made m tail hm hs ih =>
      obtain ⟨hheeds, hmade⟩ := ih
      have hI' : G.Inv (Server.idle D : Server Db Write Ref E Call Ans α).db := hI
      obtain ⟨hsound, _, -, hpath⟩ := reach_path hsafe hI' (sound_idle D) tail.reach
      have hIs := G.inv_mono (G.path_mono hpath) hI'
      refine ⟨heeds_step hS hIs hsound hheeds hm hs, fun e he => ?_⟩
      rcases List.mem_append.mp he with he | he
      · exact hheeds.commits hIs hs he
      · exact hmade e he

end Server

end TaroTria.Transactions
