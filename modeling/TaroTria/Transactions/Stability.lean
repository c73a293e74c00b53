import TaroTria.Transactions.ReadCommitted

/-!
# Reasoning about interleaved transactions

A discipline names the changes each call may commit and a preorder that all of
them follow. A transaction is judged at the moment of its commit: every row it
wrote is locked, so a statement that wrote a row saw there what the committing
database still holds, while a plain read saw some earlier database. The rules
of this file turn that judgement into an invariant of the server: the committed
database moves along a path of permitted changes, whatever the interleaving.

## Implementation notes

`Tx.wp` quantifies each statement over its own earlier database instead of a
chain of them. The chain is recovered in `Server.sound_step`, where the lock
table shows that the written rows did not change in between.
-/

namespace TaroTria.Transactions

variable {Db Write Ref E Q Call α β : Type} {Ans : Q → Type} [RowStore Db Write Ref]

/-- The changes each call may commit, a preorder containing all of them and an
invariant that it keeps. -/
structure Discipline (Db Write Ref Call : Type) [RowStore Db Write Ref] where
  Mono : Db → Db → Prop
  mono_refl : ∀ D, Mono D D
  mono_trans : ∀ {D₁ D₂ D₃}, Mono D₁ D₂ → Mono D₂ D₃ → Mono D₁ D₃
  Inv : Db → Prop
  inv_mono : ∀ {D D'}, Mono D D' → Inv D → Inv D'
  Effect : Call → Db → List Write → Prop
  mono_effect : ∀ {c D L}, Effect c D L → Mono D (view L D)

/-- Databases joined by permitted commits, newest first. -/
inductive Path (Effect : Call → Db → List Write → Prop) (D₀ : Db) :
    List (Call × List Write) → Db → Prop
  | nil : Path Effect D₀ [] D₀
  | cons {h D c L} (tail : Path Effect D₀ h D) (he : Effect c D L) :
      Path Effect D₀ ((c, L) :: h) (view L D)

/-- A property kept by every permitted commit holds along a path. -/
theorem Path.invariant {Effect : Call → Db → List Write → Prop} {D₀ D : Db}
    {h : List (Call × List Write)} (path : Path Effect D₀ h D) (I : Db → Prop)
    (h₀ : I D₀) (keep : ∀ c D L, I D → Effect c D L → I (view L D)) : I D := by
  induction path with
  | nil => exact h₀
  | cons tail he ih => exact keep _ _ _ ih he

/-- A path of commits that all mean something else as well. -/
theorem Path.imp {Effect Effect' : Call → Db → List Write → Prop} {D₀ D : Db}
    {h : List (Call × List Write)} (path : Path Effect D₀ h D)
    (himp : ∀ c D L, Effect c D L → Effect' c D L) : Path Effect' D₀ h D := by
  induction path with
  | nil => exact .nil
  | cons tail he ih => exact ih.cons (himp _ _ _ he)

/-- A path up to one of its commits. -/
theorem Path.of_append {Effect : Call → Db → List Write → Prop} {D₀ D : Db}
    {newer older : List (Call × List Write)} {c : Call} {L : List Write}
    (path : Path Effect D₀ (newer ++ (c, L) :: older) D) :
    ∃ D', Path Effect D₀ older D' ∧ Effect c D' L := by
  induction newer generalizing D with
  | nil => cases path with | cons tail he => exact ⟨_, tail, he⟩
  | cons e newer ih => cases path with | cons tail he => exact ih tail

/-- A path through one of its commits: what came before it and what came after. -/
theorem Path.split {Effect : Call → Db → List Write → Prop} {D₀ D : Db}
    {h : List (Call × List Write)} (path : Path Effect D₀ h D) {c : Call} {L : List Write}
    (hmem : (c, L) ∈ h) : ∃ newer older D', h = newer ++ (c, L) :: older ∧
      Path Effect D₀ older D' ∧ Effect c D' L ∧ Path Effect (view L D') newer D := by
  induction path with
  | nil => cases hmem
  | @cons h D' c' L' tail he ih =>
      rcases List.mem_cons.mp hmem with heq | hmem
      · obtain ⟨rfl, rfl⟩ := Prod.mk.inj heq
        exact ⟨[], h, D', rfl, tail, he, .nil⟩
      · obtain ⟨newer, older, D'', rfl, hold, he', hnew⟩ := ih hmem
        exact ⟨(c', L') :: newer, older, D'', rfl, hold, he', hnew.cons he⟩

/-- Each commit of a path was made at a database on the way. -/
theorem Path.exists_of_mem {Effect : Call → Db → List Write → Prop} {D₀ D : Db}
    {h : List (Call × List Write)} (path : Path Effect D₀ h D) {c : Call} {L : List Write}
    (hmem : (c, L) ∈ h) : ∃ h' D', Path Effect D₀ h' D' ∧ Effect c D' L := by
  obtain ⟨-, older, D', -, hold, he, -⟩ := path.split hmem
  exact ⟨older, D', hold, he⟩

/-- The database after the commits of a history, newest first. -/
def replay (h : List (Call × List Write)) (D₀ : Db) : Db :=
  h.foldr (fun e D => view e.2 D) D₀

theorem Path.replay_eq {Effect : Call → Db → List Write → Prop} {D₀ D : Db}
    {h : List (Call × List Write)} (path : Path Effect D₀ h D) : replay h D₀ = D := by
  induction path with
  | nil => rfl
  | cons tail he ih => simp only [replay, List.foldr_cons] at ih ⊢; rw [ih]

theorem Path.trans {Effect : Call → Db → List Write → Prop} {D₀ D₁ D₂ : Db}
    {h₁ h₂ : List (Call × List Write)} (p₁ : Path Effect D₀ h₁ D₁)
    (p₂ : Path Effect D₁ h₂ D₂) : Path Effect D₀ (h₂ ++ h₁) D₂ := by
  induction p₂ with
  | nil => exact p₁
  | cons tail he ih => exact ih.cons he

namespace Discipline

variable (G : Discipline Db Write Ref Call)

/-- `D₀` may have been read by a transaction with the writes `L` that commits at `D`. -/
structure Earlier (L : List Write) (D₀ D : Db) : Prop where
  inv : G.Inv D₀
  mono : G.Mono D₀ D
  agreeOn : AgreeOn L D₀ D

theorem earlier_refl (L : List Write) {D : Db} (h : G.Inv D) : G.Earlier L D D :=
  ⟨h, G.mono_refl D, AgreeOn.refl L D⟩

/-- The changes that calls in `calls` may commit. -/
def Permits (calls : Call → Prop) (c : Call) (D : Db) (L : List Write) : Prop :=
  calls c ∧ G.Effect c D L

theorem path_mono {calls : Call → Prop} {D₀ D : Db} {h : List (Call × List Write)}
    (path : Path (G.Permits calls) D₀ h D) : G.Mono D₀ D := by
  induction path with
  | nil => exact G.mono_refl D₀
  | cons tail he ih => exact G.mono_trans ih (G.mono_effect he.2)

end Discipline

variable {G : Discipline Db Write Ref Call}

/-- A permitted commit, or one without a write, keeps the preorder. -/
theorem Discipline.mono_writes {c : Call} {D : Db} {L : List Write}
    (h : L ≠ [] → G.Effect c D L) : G.Mono D (view L D) := by
  cases L with
  | nil => exact G.mono_refl D
  | cons w L => exact G.mono_effect (h (List.cons_ne_nil w L))

theorem Discipline.Earlier.trans {L : List Write} {D₁ D₂ D₃ : Db}
    (h₁ : G.Earlier L D₁ D₂) (h₂ : G.Earlier L D₂ D₃) : G.Earlier L D₁ D₃ :=
  ⟨h₁.inv, G.mono_trans h₁.mono h₂.mono, h₁.agreeOn.trans h₂.agreeOn⟩

theorem Discipline.Earlier.left {L L' : List Write} {D₁ D₂ : Db}
    (h : G.Earlier (L ++ L') D₁ D₂) : G.Earlier L D₁ D₂ :=
  ⟨h.inv, h.mono, h.agreeOn.mono⟩

/-- A row locked by a transaction has, to its own eyes, one content from the
lock to the commit. -/
theorem Discipline.Earlier.agree {L : List Write} {D₀ D : Db} (h : G.Earlier L D₀ D)
    {w : Write} (hw : w ∈ L) (L' : List Write) :
    RowStore.Agree (RowStore.ref Db w) (view L' D₀) (view L' D) :=
  agree_view L' (h.agreeOn w hw)

/-- The discipline of what a transaction begun at `D₀` may see. -/
def Discipline.since (G : Discipline Db Write Ref Call) (D₀ : Db) :
    Discipline Db Write Ref Call where
  Mono := G.Mono
  mono_refl := G.mono_refl
  mono_trans := G.mono_trans
  Inv D := G.Inv D ∧ G.Mono D₀ D
  inv_mono hm h := ⟨G.inv_mono hm h.1, G.mono_trans h.2 hm⟩
  Effect := G.Effect
  mono_effect := G.mono_effect

theorem Discipline.Earlier.of_since {L : List Write} {D₀ D₁ D : Db}
    (h : (G.since D₀).Earlier L D₁ D) : G.Earlier L D₁ D :=
  ⟨h.inv.1, h.mono, h.agreeOn⟩

theorem Discipline.Earlier.since_later {L : List Write} {D₀ D₀' D₁ D : Db} (hm : G.Mono D₀ D₀')
    (h : (G.since D₀').Earlier L D₁ D) : (G.since D₀).Earlier L D₁ D :=
  ⟨⟨h.inv.1, G.mono_trans hm h.inv.2⟩, h.mono, h.agreeOn⟩

/-- The discipline whose commits meet a condition as well. -/
def Discipline.restrict (G : Discipline Db Write Ref Call)
    (ok : Call → Db → List Write → Prop) : Discipline Db Write Ref Call where
  Mono := G.Mono
  mono_refl := G.mono_refl
  mono_trans := G.mono_trans
  Inv := G.Inv
  inv_mono := G.inv_mono
  Effect c D L := G.Effect c D L ∧ ok c D L
  mono_effect h := G.mono_effect h.1

/-- A transaction body with the writes `L` that commits at `D` ends with a
value and writes satisfying `P`. -/
def Tx.wp (G : Discipline Db Write Ref Call) (D : Db) (P : α → List Write → Prop) :
    Tx Db Write E α → List Write → Prop
  | .ret a, L => P a L
  | .throw _, _ => True
  | .stmt s next, L => ∀ D₀ b ws, G.Earlier (L ++ ws) D₀ D →
      s (view L D₀) = .ok (b, ws) → (next b).wp G D P (L ++ ws)

namespace Tx

@[simp] theorem wp_ret {D : Db} {P : α → List Write → Prop} {a : α} {L : List Write} :
    (ret a : Tx Db Write E α).wp G D P L ↔ P a L := Iff.rfl

@[simp] theorem wp_throw {D : Db} {P : α → List Write → Prop} {e : E} {L : List Write} :
    (throw e : Tx Db Write E α).wp G D P L := trivial

/-- A plain read sees some earlier committed rows, with the own writes on top. -/
theorem wp_select {D : Db} {f : Db → β} {P : β → List Write → Prop} {L : List Write}
    (h : ∀ D₀, G.Earlier L D₀ D → P (f (view L D₀)) L) :
    (select f : Tx Db Write E β).wp G D P L := by
  intro D₀ b ws he hs
  cases hs
  simp only [List.append_nil] at he
  simpa only [List.append_nil, wp_ret] using h D₀ he

theorem wp_selectOrThrow [SqlError E] {D : Db} {f : Db → Option β} {P : β → List Write → Prop}
    {L : List Write} (h : ∀ D₀ b, G.Earlier L D₀ D → f (view L D₀) = some b → P b L) :
    (selectOrThrow f : Tx Db Write E β).wp G D P L := by
  intro D₀ b ws he hs
  cases hf : f (view L D₀) with
  | none => simp [hf] at hs
  | some b' =>
      simp only [hf, Except.ok.injEq, Prod.mk.injEq] at hs
      obtain ⟨rfl, rfl⟩ := hs
      simp only [List.append_nil] at he
      simpa only [List.append_nil, wp_ret] using h D₀ b' he hf

theorem wp_mono {D : Db} {P P' : α → List Write → Prop} (hP : ∀ a L, P a L → P' a L)
    {p : Tx Db Write E α} {L : List Write} (h : p.wp G D P L) : p.wp G D P' L := by
  induction p generalizing L with
  | ret a => exact hP a L h
  | throw e => trivial
  | stmt s next ih =>
      intro D₀ b ws he hs
      exact ih b (h D₀ b ws he hs)

/-- What holds of every value and all writes holds of every body. -/
theorem wp_of_forall {D : Db} {P : α → List Write → Prop} (hP : ∀ a L, P a L)
    {p : Tx Db Write E α} {L : List Write} : p.wp G D P L := by
  induction p generalizing L with
  | ret a => exact hP a L
  | throw e => trivial
  | stmt s next ih => exact fun D₀ b ws _ _ => ih b

theorem wp_and {D : Db} {P P' : α → List Write → Prop} {p : Tx Db Write E α} {L : List Write}
    (h : p.wp G D P L) (h' : p.wp G D P' L) : p.wp G D (fun a L => P a L ∧ P' a L) L := by
  induction p generalizing L with
  | ret a => exact ⟨h, h'⟩
  | throw e => trivial
  | stmt s next ih =>
      intro D₀ b ws he hs
      exact ih b (h D₀ b ws he hs) (h' D₀ b ws he hs)

/-- What a body may see does not depend on what may be committed. -/
theorem wp_restrict {ok : Call → Db → List Write → Prop} {D D₀ : Db}
    {P : α → List Write → Prop} {p : Tx Db Write E α} {L : List Write}
    (h : p.wp (G.since D₀) D P L) : p.wp ((G.restrict ok).since D₀) D P L := by
  induction p generalizing L with
  | ret a => exact h
  | throw e => trivial
  | stmt s next ih =>
      intro D₁ b ws he hs
      exact ih b (h D₁ b ws ⟨he.inv, he.mono, he.agreeOn⟩ hs)

/-- A judgement holds of a body that may see less. -/
theorem wp_since {D D₀ : Db} {P : α → List Write → Prop} {p : Tx Db Write E α} {L : List Write}
    (h : p.wp G D P L) : p.wp (G.since D₀) D P L := by
  induction p generalizing L with
  | ret a => exact h
  | throw e => trivial
  | stmt s next ih =>
      intro D₁ b ws he hs
      exact ih b (h D₁ b ws he.of_since hs)

theorem wp_since_later {D D₀ D₀' : Db} (hm : G.Mono D₀ D₀') {P : α → List Write → Prop}
    {p : Tx Db Write E α} {L : List Write} (h : p.wp (G.since D₀) D P L) :
    p.wp (G.since D₀') D P L := by
  induction p generalizing L with
  | ret a => exact h
  | throw e => trivial
  | stmt s next ih =>
      intro D₁ b ws he hs
      exact ih b (h D₁ b ws (he.since_later hm) hs)

theorem wp_bind {D : Db} {P : β → List Write → Prop} {p : Tx Db Write E α}
    {f : α → Tx Db Write E β} {L : List Write}
    (h : p.wp G D (fun a L' => (f a).wp G D P L') L) : (p >>= f).wp G D P L := by
  induction p generalizing L with
  | ret a => exact h
  | throw e => trivial
  | stmt s next ih =>
      intro D₀ b ws he hs
      exact ih b (h D₀ b ws he hs)

theorem wp_rethrow {D : Db} {P : α → List Write → Prop} {p : Tx Db Write E α}
    {f : E → E} {L : List Write} (h : p.wp G D P L) : (p.rethrow f).wp G D P L := by
  induction p generalizing L with
  | ret a => exact h
  | throw e => trivial
  | stmt s next ih =>
      intro D₀ b ws he hs
      cases hr : s (view L D₀) with
      | error e => simp [hr, Except.mapError] at hs
      | ok r =>
          obtain ⟨b', ws'⟩ := r
          simp only [hr, Except.mapError, Except.ok.injEq, Prod.mk.injEq] at hs
          obtain ⟨rfl, rfl⟩ := hs
          exact ih b' (h D₀ b' ws' he hr)

end Tx

/-- From database `D` on, whatever else commits, the request commits only
permitted changes of call `c` and ends in `P`. -/
def Proc.Safe (G : Discipline Db Write Ref Call) (answers : (q : Q) → Ans q → Prop)
    (c : Call) (P : Except E α → Db → Prop) : Proc Db Write E Ans α → Db → Prop
  | .ret a, D => ∀ D', G.Mono D D' → P (.ok a) D'
  | .throw e, D => ∀ D', G.Mono D D' → P (.error e) D'
  | .tx body next, D => ∀ D', G.Mono D D' →
      (∀ e, (next (.error e)).Safe G answers c P D') ∧
      body.wp (G.since D) D' (fun a L => (L ≠ [] → G.Effect c D' L) ∧
        (next (.ok a)).Safe G answers c P (view L D')) []
  | .ask q next, D => ∀ D', G.Mono D D' →
      (∀ e, (next (.error e)).Safe G answers c P D') ∧
      ∀ a, answers q a → (next (.ok a)).Safe G answers c P D'

namespace Proc

variable {answers : (q : Q) → Ans q → Prop} {c : Call}

/-- A judgement survives the commits of others. -/
theorem Safe.later {P : Except E α → Db → Prop} {p : Proc Db Write E Ans α} {D D' : Db}
    (h : p.Safe G answers c P D) (hm : G.Mono D D') : p.Safe G answers c P D' := by
  cases p with
  | ret a => exact fun D'' h' => h D'' (G.mono_trans hm h')
  | throw e => exact fun D'' h' => h D'' (G.mono_trans hm h')
  | tx body next =>
      intro D'' h'
      obtain ⟨herr, hbody⟩ := h D'' (G.mono_trans hm h')
      exact ⟨herr, Tx.wp_since_later hm hbody⟩
  | ask q next => exact fun D'' h' => h D'' (G.mono_trans hm h')

theorem Safe.mono {P P' : Except E α → Db → Prop} (hP : ∀ r D, P r D → P' r D)
    {p : Proc Db Write E Ans α} {D : Db} (h : p.Safe G answers c P D) :
    p.Safe G answers c P' D := by
  induction p generalizing D with
  | ret a => exact fun D' hm => hP _ _ (h D' hm)
  | throw e => exact fun D' hm => hP _ _ (h D' hm)
  | tx body next ih =>
      intro D' hm
      refine ⟨fun e => ih _ ((h D' hm).1 e), ?_⟩
      exact Tx.wp_mono (fun a L hL => ⟨hL.1, ih _ hL.2⟩) (h D' hm).2
  | ask q next ih =>
      intro D' hm
      exact ⟨fun e => ih _ ((h D' hm).1 e), fun a ha => ih _ ((h D' hm).2 a ha)⟩

/-- A request whose commits all meet a condition keeps the discipline of it. -/
theorem Safe.restrict {ok : Call → Db → List Write → Prop}
    (hok : ∀ D L, G.Effect c D L → ok c D L) {P : Except E α → Db → Prop}
    {p : Proc Db Write E Ans α} {D : Db} (h : p.Safe G answers c P D) :
    p.Safe (G.restrict ok) answers c P D := by
  induction p generalizing D with
  | ret a => exact h
  | throw e => exact h
  | tx body next ih =>
      intro D' hm
      refine ⟨fun e => ih _ ((h D' hm).1 e), Tx.wp_restrict ?_⟩
      exact Tx.wp_mono (fun a L hL => ⟨fun hne => ⟨hL.1 hne, hok D' L (hL.1 hne)⟩, ih _ hL.2⟩)
        (h D' hm).2
  | ask q next ih =>
      intro D' hm
      exact ⟨fun e => ih _ ((h D' hm).1 e), fun a ha => ih _ ((h D' hm).2 a ha)⟩

theorem Safe.bind {P : Except E β → Db → Prop} {p : Proc Db Write E Ans α}
    {f : α → Proc Db Write E Ans β} {D : Db}
    (h : p.Safe G answers c (fun r D' => match r with
      | .ok a => (f a).Safe G answers c P D'
      | .error e => P (.error e) D') D) : (p >>= f).Safe G answers c P D := by
  induction p generalizing D with
  | ret a => exact h D (G.mono_refl D)
  | throw e => exact h
  | tx body next ih =>
      intro D' hm
      refine ⟨fun e => ih _ ((h D' hm).1 e), ?_⟩
      exact Tx.wp_mono (fun a L hL => ⟨hL.1, ih _ hL.2⟩) (h D' hm).2
  | ask q next ih =>
      intro D' hm
      exact ⟨fun e => ih _ ((h D' hm).1 e), fun a ha => ih _ ((h D' hm).2 a ha)⟩

theorem Safe.handle {P : Except E α → Db → Prop} {p : Proc Db Write E Ans α}
    {f : E → Proc Db Write E Ans α} {D : Db}
    (h : p.Safe G answers c (fun r D' => match r with
      | .ok a => P (.ok a) D'
      | .error e => (f e).Safe G answers c P D') D) :
    (p.handle f).Safe G answers c P D := by
  induction p generalizing D with
  | ret a => exact h
  | throw e => exact h D (G.mono_refl D)
  | tx body next ih =>
      intro D' hm
      refine ⟨fun e => ih _ ((h D' hm).1 e), ?_⟩
      exact Tx.wp_mono (fun a L hL => ⟨hL.1, ih _ hL.2⟩) (h D' hm).2
  | ask q next ih =>
      intro D' hm
      exact ⟨fun e => ih _ ((h D' hm).1 e), fun a ha => ih _ ((h D' hm).2 a ha)⟩

/-- The rule for a transaction whose error is raised, and which sees the rows of the
database that its request has reached, or later ones. -/
theorem Safe.transaction_since {P : Except E α → Db → Prop} {body : Tx Db Write E α} {D : Db}
    (herr : ∀ e D', G.Mono D D' → P (.error e) D')
    (hok : ∀ D', G.Mono D D' → body.wp (G.since D) D' (fun a L => (L ≠ [] → G.Effect c D' L) ∧
      ∀ D'', G.Mono (view L D') D'' → P (.ok a) D'') []) :
    (Proc.transaction body : Proc Db Write E Ans α).Safe G answers c P D := by
  intro D' hm
  exact ⟨fun e D'' h' => herr e D'' (G.mono_trans hm h'), hok D' hm⟩

/-- The rule for a transaction whose error is raised. -/
theorem Safe.transaction {P : Except E α → Db → Prop} {body : Tx Db Write E α} {D : Db}
    (herr : ∀ e D', G.Mono D D' → P (.error e) D')
    (hok : ∀ D', G.Mono D D' → body.wp G D' (fun a L => (L ≠ [] → G.Effect c D' L) ∧
      ∀ D'', G.Mono (view L D') D'' → P (.ok a) D'') []) :
    (Proc.transaction body : Proc Db Write E Ans α).Safe G answers c P D :=
  .transaction_since herr fun D' hm => Tx.wp_since (hok D' hm)

theorem Safe.call {q : Q} {P : Except E (Ans q) → Db → Prop} {D : Db}
    (herr : ∀ e D', G.Mono D D' → P (.error e) D')
    (hok : ∀ a, answers q a → ∀ D', G.Mono D D' → P (.ok a) D') :
    (Proc.call q : Proc Db Write E Ans (Ans q)).Safe G answers c P D := by
  intro D' hm
  exact ⟨fun e D'' h' => herr e D'' (G.mono_trans hm h'),
    fun a ha D'' h' => hok a ha D'' (G.mono_trans hm h')⟩

end Proc

/-- The judgement on a thread at the committed database; a transaction was begun at
some database on the way there. -/
def Thread.Safe (G : Discipline Db Write Ref Call) (answers : (q : Q) → Ans q → Prop)
    (c : Call) : Thread Db Write E Ans α → Db → Prop
  | .between proc, D => proc.Safe G answers c (fun _ _ => True) D
  | .inside L body next, D => ∃ D₀, G.Mono D₀ D ∧ ∀ D', G.Earlier L D D' →
      (∀ e, (next (.error e)).Safe G answers c (fun _ _ => True) D') ∧
      body.wp (G.since D₀) D' (fun a L' => (L' ≠ [] → G.Effect c D' L') ∧
        (next (.ok a)).Safe G answers c (fun _ _ => True) (view L' D')) L

/-- The rows a thread has written. -/
def Thread.log : Thread Db Write E Ans α → List Write
  | .between _ => []
  | .inside L _ _ => L

theorem Thread.Safe.later {answers : (q : Q) → Ans q → Prop} {c : Call}
    {th : Thread Db Write E Ans α} {D D' : Db} (h : th.Safe G answers c D)
    (hm : G.Earlier th.log D D') : th.Safe G answers c D' := by
  cases th with
  | between proc => exact Proc.Safe.later h hm.mono
  | inside L body next =>
      obtain ⟨D₀, hD₀, h⟩ := h
      exact ⟨D₀, G.mono_trans hD₀ hm.mono, fun D'' h' => h D'' (hm.trans h')⟩

namespace Server

variable {S : Service Db Write E Call Ans α} {calls : Call → Prop}

/-- Every thread serves one of `calls`, is judged safe and owns the locks of
the rows it has written. -/
structure Sound (G : Discipline Db Write Ref Call) (S : Service Db Write E Call Ans α)
    (calls : Call → Prop) (s : Server Db Write Ref E Call Ans α) : Prop where
  called : ∀ t c th, s.threads t = some (c, th) → calls c
  safe : ∀ t c th, s.threads t = some (c, th) → th.Safe G S.answers c s.db
  owns : ∀ t c th, s.threads t = some (c, th) →
    ∀ w ∈ th.log, s.locks (RowStore.ref Db w) = some t

theorem sound_idle (D : Db) : (idle D : Server Db Write Ref E Call Ans α).Sound G S calls where
  called := by simp [idle]
  safe := by simp [idle]
  owns := by simp [idle]

/-- Replacing one thread, with the committed rows unchanged. -/
theorem Sound.setThread {s : Server Db Write Ref E Call Ans α} (h : s.Sound G S calls) {t : Nat}
    {c : Call} (th : Thread Db Write E Ans α) {locks : Ref → Option Nat} (hc : calls c)
    (hs : th.Safe G S.answers c s.db)
    (hmine : ∀ w ∈ th.log, locks (RowStore.ref Db w) = some t)
    (hothers : ∀ r u, u ≠ t → s.locks r = some u → locks r = some u) :
    Sound G S calls { s.setThread t c th with locks := locks } where
  called := by
    intro u d th' hu
    simp only [Server.setThread, Function.update_apply] at hu
    split at hu
    · obtain ⟨rfl, rfl⟩ := Prod.mk.inj (Option.some.inj hu)
      exact hc
    · exact h.called u d th' hu
  safe := by
    intro u d th' hu
    simp only [Server.setThread, Function.update_apply] at hu
    split at hu
    · obtain ⟨rfl, rfl⟩ := Prod.mk.inj (Option.some.inj hu)
      exact hs
    · exact h.safe u d th' hu
  owns := by
    intro u d th' hu w hw
    simp only [Server.setThread, Function.update_apply] at hu
    split at hu
    · rename_i hut
      obtain ⟨rfl, rfl⟩ := Prod.mk.inj (Option.some.inj hu)
      exact hut ▸ hmine w hw
    · rename_i hut
      exact hothers _ u hut (h.owns u d th' hu w hw)

omit [RowStore Db Write Ref] in
theorem unlock_of_ne (s : Server Db Write Ref E Call Ans α) {t u : Nat} {r : Ref}
    (hu : u ≠ t) (h : s.locks r = some u) : s.unlock t r = some u := by
  simp [unlock, h, hu]

theorem Sound.rollback {s : Server Db Write Ref E Call Ans α} (h : s.Sound G S calls) {t : Nat}
    {c : Call} {proc : Proc Db Write E Ans α} (hc : calls c)
    (hs : proc.Safe G S.answers c (fun _ _ => True) s.db) :
    (s.rollback t c proc).Sound G S calls :=
  h.setThread (.between proc) hc hs (by simp [Thread.log])
    fun _ _ hu hl => s.unlock_of_ne hu hl

theorem Sound.kill {s : Server Db Write Ref E Call Ans α} (h : s.Sound G S calls) (t : Nat) :
    Sound G S calls
      { s with threads := Function.update s.threads t none, locks := s.unlock t } where
  called := by
    intro u d th hu
    simp only [Function.update_apply] at hu
    split at hu
    · cases hu
    · exact h.called u d th hu
  safe := by
    intro u d th hu
    simp only [Function.update_apply] at hu
    split at hu
    · cases hu
    · exact h.safe u d th hu
  owns := by
    intro u d th hu w hw
    simp only [Function.update_apply] at hu
    split at hu
    · cases hu
    · rename_i hut
      exact s.unlock_of_ne hut (h.owns u d th hu w hw)

/-- The commit of one thread does not touch a row written by another one. -/
theorem Sound.agreeOn {s : Server Db Write Ref E Call Ans α} (h : s.Sound G S calls) {t u : Nat}
    {c d : Call} {th th' : Thread Db Write E Ans α} (ht : s.threads t = some (c, th))
    (hu : s.threads u = some (d, th')) (hut : u ≠ t) :
    AgreeOn th'.log s.db (view th.log s.db) := by
  intro w hw
  apply agree_view_of_notMem
  intro v hv heq
  have hmine := h.owns t c th ht v hv
  have htheirs := h.owns u d th' hu w hw
  rw [heq, htheirs] at hmine
  exact hut (Option.some.inj hmine)

theorem Sound.publish {s : Server Db Write Ref E Call Ans α} (h : s.Sound G S calls) {t : Nat}
    {c : Call} {L : List Write} {a : β} {next : Except E β → Proc Db Write E Ans α}
    {proc : Proc Db Write E Ans α} (hI : G.Inv s.db)
    (ht : s.threads t = some (c, .inside L (.ret a) next))
    (hm : G.Mono s.db (view L s.db))
    (hs : proc.Safe G S.answers c (fun _ _ => True) (view L s.db)) :
    (s.publish t c L proc).Sound G S calls where
  called := by
    intro u d th hu
    simp only [Server.publish, Server.rollback, Server.setThread, Function.update_apply] at hu
    split at hu
    · obtain ⟨rfl, rfl⟩ := Prod.mk.inj (Option.some.inj hu)
      exact h.called t c _ ht
    · exact h.called u d th hu
  safe := by
    intro u d th hu
    simp only [Server.publish, Server.rollback, Server.setThread, Function.update_apply] at hu ⊢
    split at hu
    · obtain ⟨rfl, rfl⟩ := Prod.mk.inj (Option.some.inj hu)
      exact hs
    · rename_i hut
      exact (h.safe u d th hu).later ⟨hI, hm, h.agreeOn ht hu hut⟩
  owns := by
    intro u d th hu w hw
    simp only [Server.publish, Server.rollback, Server.setThread, Function.update_apply] at hu ⊢
    split at hu
    · obtain ⟨rfl, rfl⟩ := Prod.mk.inj (Option.some.inj hu)
      simp [Thread.log] at hw
    · rename_i hut
      exact s.unlock_of_ne hut (h.owns u d th hu w hw)

variable [DecidableEq Ref]

theorem lock_of_mem (s : Server Db Write Ref E Call Ans α) {t : Nat} {ws : List Write}
    {w : Write} (hw : w ∈ ws) : s.lock t ws (RowStore.ref Db w) = some t := by
  have h : ws.any (fun v => RowStore.ref Db v = RowStore.ref Db w) = true :=
    List.any_eq_true.mpr ⟨w, hw, by simp⟩
  simp [lock, h]

theorem lock_of_owned (s : Server Db Write Ref E Call Ans α) {t : Nat} {ws : List Write}
    {r : Ref} (h : s.locks r = some t) : s.lock t ws r = some t := by
  simp [lock, h]

/-- Locking free rows takes no row from another thread. -/
theorem lock_of_ne (s : Server Db Write Ref E Call Ans α) {t u : Nat} {ws : List Write}
    {r : Ref} (hfree : s.free t ws = true) (hut : u ≠ t) (h : s.locks r = some u) :
    s.lock t ws r = some u := by
  have hws : ws.any (fun w => RowStore.ref Db w = r) = false := by
    rw [List.any_eq_false]
    intro w hw hr
    have hf := List.all_eq_true.mp hfree w hw
    simp only [decide_eq_true_eq] at hr
    rw [hr, h] at hf
    simp [hut] at hf
  simp [lock, hws, h]

variable [DecidableEq Q] [SqlError E]

/-- What one move does: it keeps every thread safe, and moves the committed rows
along a path of permitted commits, of length at most one. -/
theorem sound_step
    (hS : ∀ c, calls c → ∀ D, G.Inv D → (S.prog c).Safe G S.answers c (fun _ _ => True) D)
    {s s' : Server Db Write Ref E Call Ans α} {m : Move Call Ans} (hI : G.Inv s.db)
    (h : s.Sound G S calls) (ok : m.Admissible S calls) (hs : s.step S m = some s') :
    s'.Sound G S calls ∧ ∃ hist, s'.history = hist ++ s.history ∧
      Path (G.Permits calls) s.db hist s'.db := by
  have still : ∀ {s'' : Server Db Write Ref E Call Ans α}, s''.db = s.db →
      s''.history = s.history → ∃ hist, s''.history = hist ++ s.history ∧
        Path (G.Permits calls) s.db hist s''.db :=
    fun hd hh => ⟨[], by simp [hh], by rw [hd]; exact Path.nil⟩
  -- A commit by thread `t`, whose answer arrives or is lost.
  have commit : ∀ {t c L γ} {a : γ} {next : Except E γ → Proc Db Write E Ans α} {proc},
      s.threads t = some (c, .inside L (.ret a) next) →
      proc.Safe G S.answers c (fun _ _ => True) (view L s.db) →
      (L ≠ [] → G.Effect c s.db L) → (s.publish t c L proc).Sound G S calls ∧
        ∃ hist, (s.publish t c L proc).history = hist ++ s.history ∧
          Path (G.Permits calls) s.db hist (s.publish t c L proc).db := by
    intro t c L γ a next proc ht hp he
    cases L with
    | nil => exact ⟨h.publish hI ht (G.mono_refl _) hp, [], rfl, Path.nil⟩
    | cons w L =>
        have he' := he (List.cons_ne_nil w L)
        exact ⟨h.publish hI ht (G.mono_effect he') hp, [(c, w :: L)], rfl,
          Path.nil.cons ⟨h.called t c _ ht, he'⟩⟩
  cases m with
  | spawn t c =>
      simp only [step] at hs
      split at hs
      · cases hs
        exact ⟨h.setThread _ ok (hS c ok _ hI) (by simp [Thread.log]) fun _ _ _ hl => hl,
          still rfl rfl⟩
      · cases hs
  | start t =>
      simp only [step] at hs
      split at hs
      · rename_i c β body next ht
        cases hs
        have hp : (Proc.tx body next).Safe G S.answers c (fun _ _ => True) s.db :=
          h.safe t c _ ht
        refine ⟨h.setThread (.inside [] body next) (h.called t c _ ht) ?_
          (by simp [Thread.log]) (fun _ _ _ hl => hl), still rfl rfl⟩
        exact ⟨s.db, G.mono_refl _, fun D' hD' => hp D' hD'.mono⟩
      · cases hs
  | exec t =>
      simp only [step] at hs
      split at hs
      · rename_i c β L γ f k next ht
        obtain ⟨D₀, hD₀, hp⟩ := h.safe t c _ ht
        split at hs
        · rename_i b ws hf
          split at hs
          · rename_i hfree
            cases hs
            refine ⟨h.setThread (.inside (L ++ ws) (k b) next) (h.called t c _ ht) ?_ ?_
              (fun _ _ hu hl => s.lock_of_ne hfree hu hl), still rfl rfl⟩
            · refine ⟨D₀, hD₀, fun D' hD' => ?_⟩
              obtain ⟨herr, hbody⟩ := hp D' hD'.left
              exact ⟨herr, hbody s.db b ws ⟨⟨hI, hD₀⟩, hD'.mono, hD'.agreeOn⟩ hf⟩
            · intro w hw
              rcases List.mem_append.mp hw with hw | hw
              · exact s.lock_of_owned (h.owns t c _ ht w hw)
              · exact s.lock_of_mem hw
          · cases hs
        · rename_i e hf
          cases hs
          exact ⟨h.rollback (h.called t c _ ht) ((hp s.db (G.earlier_refl L hI)).1 e),
            still rfl rfl⟩
      · rename_i c β L e next ht
        cases hs
        obtain ⟨_, _, hp⟩ := h.safe t c _ ht
        exact ⟨h.rollback (h.called t c _ ht) ((hp s.db (G.earlier_refl L hI)).1 e),
          still rfl rfl⟩
      · cases hs
  | commit t =>
      simp only [step] at hs
      split at hs
      · rename_i c β L a next ht
        cases hs
        obtain ⟨_, _, hsafe⟩ := h.safe t c _ ht
        obtain ⟨-, he, hp⟩ := hsafe s.db (G.earlier_refl L hI)
        exact commit ht hp he
      · cases hs
  | lose t =>
      simp only [step] at hs
      split at hs
      · rename_i c β L a next ht
        cases hs
        obtain ⟨_, _, hsafe⟩ := h.safe t c _ ht
        obtain ⟨herr, he, -⟩ := hsafe s.db (G.earlier_refl L hI)
        exact commit ht ((herr SqlError.fault).later (Discipline.mono_writes he)) he
      · cases hs
  | fail t =>
      simp only [step] at hs
      split at hs
      · rename_i c β body next ht
        cases hs
        exact ⟨h.rollback (h.called t c _ ht)
          ((h.safe t c _ ht s.db (G.mono_refl s.db)).1 _), still rfl rfl⟩
      · rename_i c β L body next ht
        cases hs
        obtain ⟨_, _, hp⟩ := h.safe t c _ ht
        exact ⟨h.rollback (h.called t c _ ht) ((hp s.db (G.earlier_refl L hI)).1 _),
          still rfl rfl⟩
      · cases hs
  | kill t =>
      cases hs
      exact ⟨h.kill t, still rfl rfl⟩
  | answer t q a =>
      simp only [step] at hs
      split at hs
      · rename_i c q' next ht
        split at hs
        · rename_i hq
          subst hq
          cases hs
          exact ⟨h.setThread (.between (next (.ok a))) (h.called t c _ ht)
            ((h.safe t c _ ht s.db (G.mono_refl s.db)).2 a ok) (by simp [Thread.log])
            (fun _ _ _ hl => hl), still rfl rfl⟩
        · cases hs
      · cases hs
  | unanswered t =>
      simp only [step] at hs
      split at hs
      · rename_i c q' next ht
        cases hs
        exact ⟨h.setThread (.between (next (.error SqlError.fault))) (h.called t c _ ht)
          ((h.safe t c _ ht s.db (G.mono_refl s.db)).1 _) (by simp [Thread.log])
          (fun _ _ _ hl => hl), still rfl rfl⟩
      · cases hs

/-- The committed rows of every run move along a path of permitted commits, and
the history of the server is that path. -/
theorem reach_path
    (hS : ∀ c, calls c → ∀ D, G.Inv D → (S.prog c).Safe G S.answers c (fun _ _ => True) D)
    {s₀ s : Server Db Write Ref E Call Ans α} (hI : G.Inv s₀.db) (h₀ : s₀.Sound G S calls)
    (run : Reach S calls s₀ s) :
    s.Sound G S calls ∧ ∃ hist, s.history = hist ++ s₀.history ∧
      Path (G.Permits calls) s₀.db hist s.db := by
  induction run with
  | refl => exact ⟨h₀, [], rfl, Path.nil⟩
  | step tail ok hs ih =>
      obtain ⟨hsound, hist, hh, hpath⟩ := ih
      have hI' := G.inv_mono (G.path_mono hpath) hI
      obtain ⟨hsound', hist', hh', hpath'⟩ := sound_step hS hI' hsound ok hs
      exact ⟨hsound', hist' ++ hist, by rw [hh', hh, List.append_assoc], hpath.trans hpath'⟩

end Server

end TaroTria.Transactions
