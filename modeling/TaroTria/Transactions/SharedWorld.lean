import Mathlib.Logic.Relation
import TaroTria.Transactions.World

/-!
# Requests in a shared world

Requests that run at the same time, one step of one of them after another, over one
database and one world outside it. The world answers their calls, which may change it,
and it moves by itself. What a request has seen holds at its later steps as far as a
preorder on the shared states says, which every step of every request respects.
-/

namespace TaroTria.Transactions

variable {Db Write Ref E Q W Call α β : Type} {Ans : Q → Type} [RowStore Db Write Ref]

/-- A service in a world: its requests, what the world may reply to a call and become, what
it may become by itself, and what a request that returns leaves in it. -/
structure Setting (Db Write E W Call : Type) {Q : Type} (Ans : Q → Type) (α : Type) where
  prog : Call → Proc Db Write E Ans α
  reply : (q : Q) → W → Except E (Ans q) → W → Prop
  moves : W → W → Prop
  returns : Call → α → W → W

/-- A running service: the world, the rows, and the requests that are being served. -/
structure Scene (Db Write E W Call : Type) {Q : Type} (Ans : Q → Type) (α : Type) where
  world : W
  db : Db
  tasks : Nat → Option (Call × Proc Db Write E Ans α)

section Steps

variable [SqlError E] (H : Setting Db Write E W Call Ans α) (ok : W → Db → W → Db → Prop)

/-- One step of a running service, where `ok` bounds what a step may do to the shared state. -/
inductive Setting.Step (s : Scene Db Write E W Call Ans α) :
    Scene Db Write E W Call Ans α → Prop
  | start (t : Nat) (c : Call) (hfree : s.tasks t = none) :
      Step s { s with tasks := Function.update s.tasks t (some (c, H.prog c)) }
  | commit {β : Type} {body : Tx Db Write E β} {next : Except E β → Proc Db Write E Ans α}
      (t : Nat) (c : Call) (htask : s.tasks t = some (c, .tx body next)) (fate : Fate)
      (hok : ok s.world s.db s.world (view (body.outcome s.db fate).1 s.db)) :
      Step s { s with
        db := view (body.outcome s.db fate).1 s.db
        tasks := Function.update s.tasks t (some (c, next (body.outcome s.db fate).2)) }
  | answer {q : Q} {next : Except E (Ans q) → Proc Db Write E Ans α} (t : Nat) (c : Call)
      (htask : s.tasks t = some (c, .ask q next)) (r : Except E (Ans q)) (w : W)
      (hreply : H.reply q s.world r w) (hok : ok s.world s.db w s.db) :
      Step s { s with world := w, tasks := Function.update s.tasks t (some (c, next r)) }
  | finish (t : Nat) (c : Call) (a : α) (htask : s.tasks t = some (c, .ret a)) :
      Step s { s with
        world := H.returns c a s.world
        tasks := Function.update s.tasks t none }
  | stop (t : Nat) : Step s { s with tasks := Function.update s.tasks t none }
  | move (w : W) (hmove : H.moves s.world w) (hok : ok s.world s.db w s.db) :
      Step s { s with world := w }

abbrev Setting.Reach : Scene Db Write E W Call Ans α → Scene Db Write E W Call Ans α →
    Prop := Relation.ReflTransGen (H.Step ok)

end Steps

/-- What the steps of a service keep of its shared states, and a preorder that they respect. -/
structure Rely (W Db : Type) where
  Inv : W → Db → Prop
  Later : W → Db → W → Db → Prop
  refl : ∀ w D, Later w D w D
  trans : ∀ {w₁ D₁ w₂ D₂ w₃ D₃}, Later w₁ D₁ w₂ D₂ → Later w₂ D₂ w₃ D₃ → Later w₁ D₁ w₃ D₃

/-- A step keeps the invariant and leads to a later state. -/
structure Rely.Keeps (R : Rely W Db) (w : W) (D : Db) (w' : W) (D' : Db) : Prop where
  inv : R.Inv w' D'
  later : R.Later w D w' D'

theorem Rely.keeps_refl {R : Rely W Db} {w : W} {D : Db} (h : R.Inv w D) : R.Keeps w D w D :=
  ⟨h, R.refl w D⟩

/-- The rely of what goes on after a shared state. -/
def Rely.since (R : Rely W Db) (w₀ : W) (D₀ : Db) : Rely W Db where
  Inv w D := R.Inv w D ∧ R.Later w₀ D₀ w D
  Later := R.Later
  refl := R.refl
  trans := R.trans

theorem Rely.Keeps.since {R : Rely W Db} {w₀ w w' : W} {D₀ D D' : Db}
    (h : R.Keeps w D w' D') (hl : R.Later w₀ D₀ w D) : (R.since w₀ D₀).Keeps w D w' D' :=
  ⟨⟨h.inv, R.trans hl h.later⟩, h.later⟩

/-- From a shared state on, whatever others do, every step of the request keeps the rely and
the request ends in `P`. -/
def Proc.Minds (H : Setting Db Write E W Call Ans β) (ok : W → Db → W → Db → Prop)
    (R : Rely W Db) (P : Except E α → W → Db → Prop) :
    Proc Db Write E Ans α → W → Db → Prop
  | .ret a, w, D => ∀ w' D', R.Later w D w' D' → P (.ok a) w' D'
  | .throw e, w, D => ∀ w' D', R.Later w D w' D' → P (.error e) w' D'
  | .tx body next, w, D => ∀ w' D', R.Later w D w' D' → R.Inv w' D' →
      (∀ e, (next (.error e)).Minds H ok R P w' D') ∧
      ∀ a L, body.run D' [] = .ok (a, L) → ok w' D' w' (view L D') →
        R.Keeps w' D' w' (view L D') ∧ (next (.ok a)).Minds H ok R P w' (view L D')
  | .ask q next, w, D => ∀ w' D', R.Later w D w' D' → R.Inv w' D' →
      ∀ r w'', H.reply q w' r w'' → ok w' D' w'' D' →
        R.Keeps w' D' w'' D' ∧ (next r).Minds H ok R P w'' D'

namespace Proc

variable {H : Setting Db Write E W Call Ans β} {ok : W → Db → W → Db → Prop} {R : Rely W Db}
  {w : W} {D : Db}

theorem Minds.later {P : Except E α → W → Db → Prop} {p : Proc Db Write E Ans α} {w' : W}
    {D' : Db} (h : p.Minds H ok R P w D) (hl : R.Later w D w' D') : p.Minds H ok R P w' D' := by
  cases p with
  | ret a => exact fun w'' D'' h' => h w'' D'' (R.trans hl h')
  | throw e => exact fun w'' D'' h' => h w'' D'' (R.trans hl h')
  | tx body next => exact fun w'' D'' h' => h w'' D'' (R.trans hl h')
  | ask q next => exact fun w'' D'' h' => h w'' D'' (R.trans hl h')

theorem Minds.mono {P P' : Except E α → W → Db → Prop} (hP : ∀ r w D, P r w D → P' r w D)
    {p : Proc Db Write E Ans α} (h : p.Minds H ok R P w D) : p.Minds H ok R P' w D := by
  induction p generalizing w D with
  | ret a => exact fun w' D' hl => hP _ _ _ (h w' D' hl)
  | throw e => exact fun w' D' hl => hP _ _ _ (h w' D' hl)
  | tx body next ih =>
      intro w' D' hl hI
      obtain ⟨herr, hok⟩ := h w' D' hl hI
      exact ⟨fun e => ih _ (herr e), fun a L hr hp => ⟨(hok a L hr hp).1, ih _ (hok a L hr hp).2⟩⟩
  | ask q next ih =>
      intro w' D' hl hI r w'' hreply hp
      obtain ⟨hkeeps, hrest⟩ := h w' D' hl hI r w'' hreply hp
      exact ⟨hkeeps, ih r hrest⟩

theorem Minds.since {P : Except E α → W → Db → Prop} {p : Proc Db Write E Ans α} {w₀ : W} {D₀ : Db}
    (h : p.Minds H ok R P w D) : p.Minds H ok (R.since w₀ D₀) P w D := by
  induction p generalizing w D with
  | ret a => exact h
  | throw e => exact h
  | tx body next ih =>
      intro w' D' hl hI
      obtain ⟨herr, hok⟩ := h w' D' hl hI.1
      refine ⟨fun e => ih _ (herr e), fun a L hr hp => ?_⟩
      obtain ⟨hkeeps, hrest⟩ := hok a L hr hp
      exact ⟨hkeeps.since hI.2, ih _ hrest⟩
  | ask q next ih =>
      intro w' D' hl hI r w'' hreply hp
      obtain ⟨hkeeps, hrest⟩ := h w' D' hl hI.1 r w'' hreply hp
      exact ⟨hkeeps.since hI.2, ih r hrest⟩

/-- A request ends in a state that is later than the one it starts in. -/
theorem Minds.onward {P : Except E α → W → Db → Prop} {p : Proc Db Write E Ans α} {w₀ : W}
    {D₀ : Db} (h : p.Minds H ok R P w D) (hl₀ : R.Later w₀ D₀ w D) :
    p.Minds H ok R (fun r w' D' => P r w' D' ∧ R.Later w₀ D₀ w' D') w D := by
  induction p generalizing w D with
  | ret a => exact fun w' D' hl => ⟨h w' D' hl, R.trans hl₀ hl⟩
  | throw e => exact fun w' D' hl => ⟨h w' D' hl, R.trans hl₀ hl⟩
  | tx body next ih =>
      intro w' D' hl hI
      obtain ⟨herr, hok⟩ := h w' D' hl hI
      refine ⟨fun e => ih _ (herr e) (R.trans hl₀ hl), fun a L hr hp => ?_⟩
      obtain ⟨hkeeps, hrest⟩ := hok a L hr hp
      exact ⟨hkeeps, ih _ hrest (R.trans hl₀ (R.trans hl hkeeps.later))⟩
  | ask q next ih =>
      intro w' D' hl hI r w'' hreply hp
      obtain ⟨hkeeps, hrest⟩ := h w' D' hl hI r w'' hreply hp
      exact ⟨hkeeps, ih r hrest (R.trans hl₀ (R.trans hl hkeeps.later))⟩

theorem Minds.bind {γ : Type} {P : Except E γ → W → Db → Prop} {p : Proc Db Write E Ans α}
    {f : α → Proc Db Write E Ans γ}
    (h : p.Minds H ok R (fun r w' D' => match r with
      | .ok a => (f a).Minds H ok R P w' D'
      | .error e => P (.error e) w' D') w D) : (p >>= f).Minds H ok R P w D := by
  induction p generalizing w D with
  | ret a => exact h w D (R.refl w D)
  | throw e => exact h
  | tx body next ih =>
      intro w' D' hl hI
      obtain ⟨herr, hok⟩ := h w' D' hl hI
      exact ⟨fun e => ih _ (herr e), fun a L hr hp => ⟨(hok a L hr hp).1, ih _ (hok a L hr hp).2⟩⟩
  | ask q next ih =>
      intro w' D' hl hI r w'' hreply hp
      obtain ⟨hkeeps, hrest⟩ := h w' D' hl hI r w'' hreply hp
      exact ⟨hkeeps, ih r hrest⟩

theorem Minds.handle {P : Except E α → W → Db → Prop} {p : Proc Db Write E Ans α}
    {f : E → Proc Db Write E Ans α}
    (h : p.Minds H ok R (fun r w' D' => match r with
      | .ok a => P (.ok a) w' D'
      | .error e => (f e).Minds H ok R P w' D') w D) : (p.handle f).Minds H ok R P w D := by
  induction p generalizing w D with
  | ret a => exact h
  | throw e => exact h w D (R.refl w D)
  | tx body next ih =>
      intro w' D' hl hI
      obtain ⟨herr, hok⟩ := h w' D' hl hI
      exact ⟨fun e => ih _ (herr e), fun a L hr hp => ⟨(hok a L hr hp).1, ih _ (hok a L hr hp).2⟩⟩
  | ask q next ih =>
      intro w' D' hl hI r w'' hreply hp
      obtain ⟨hkeeps, hrest⟩ := h w' D' hl hI r w'' hreply hp
      exact ⟨hkeeps, ih r hrest⟩

/-- The rule for a call whose error is raised. -/
theorem minds_call {q : Q} {P : Except E (Ans q) → W → Db → Prop}
    (h : ∀ w' D', R.Later w D w' D' → R.Inv w' D' → ∀ r w'', H.reply q w' r w'' →
      ok w' D' w'' D' → R.Keeps w' D' w'' D' ∧
        ∀ w₁ D₁, R.Later w'' D' w₁ D₁ → P r w₁ D₁) :
    (call q : Proc Db Write E Ans (Ans q)).Minds H ok R P w D := by
  intro w' D' hl hI r w'' hreply hp
  obtain ⟨hkeeps, hP⟩ := h w' D' hl hI r w'' hreply hp
  refine ⟨hkeeps, ?_⟩
  cases r with
  | ok a => exact hP
  | error e => exact hP

/-- The rule for a transaction whose error is raised. -/
theorem minds_transaction {P : Except E α → W → Db → Prop} {body : Tx Db Write E α}
    (herr : ∀ e w' D', R.Later w D w' D' → P (.error e) w' D')
    (hok : ∀ w' D', R.Later w D w' D' → R.Inv w' D' → body.wp still D' (fun a L =>
      ok w' D' w' (view L D') → R.Keeps w' D' w' (view L D') ∧
        ∀ w'' D'', R.Later w' (view L D') w'' D'' → P (.ok a) w'' D'') []) :
    (transaction body : Proc Db Write E Ans α).Minds H ok R P w D := by
  intro w' D' hl hI
  refine ⟨fun e w'' D'' h' => herr e w'' D'' (R.trans hl h'), fun a L hr hp => ?_⟩
  exact Tx.run_of_wp (P := fun a L => ok w' D' w' (view L D') →
    R.Keeps w' D' w' (view L D') ∧ ∀ w'' D'', R.Later w' (view L D') w'' D'' →
      P (.ok a) w'' D'') (hok w' D' hl hI) hr hp

/-- The rule for a read. -/
theorem minds_select {P : Except E β → W → Db → Prop} {f : Db → β} {γ : Type}
    {H : Setting Db Write E W Call Ans γ}
    (herr : ∀ e w' D', R.Later w D w' D' → P (.error e) w' D')
    (hok : ∀ w₀ D₀ w' D', R.Later w D w₀ D₀ → R.Inv w₀ D₀ → R.Later w₀ D₀ w' D' →
      P (.ok (f D₀)) w' D') :
    (transaction (Tx.select f) : Proc Db Write E Ans β).Minds H ok R P w D := by
  refine minds_transaction herr fun w₀ D₀ hl hI => Tx.wp_select ?_
  rintro D₁ ⟨-, rfl, -⟩ _
  exact ⟨R.keeps_refl hI, fun w' D' h' => hok w₀ _ w' D' hl hI h'⟩

/-- A request all of whose steps keep the rely, whatever it has seen. -/
theorem Every.minds {K : Db → List Write → Prop} {P : Except E α → W → Db → Prop}
    {p : Proc Db Write E Ans α} (h : p.Every K)
    (hK : ∀ w' D' L, R.Inv w' D' → K D' L → ok w' D' w' (view L D') →
      R.Keeps w' D' w' (view L D'))
    (hreply : ∀ q w' D' r w'', R.Inv w' D' → H.reply q w' r w'' → ok w' D' w'' D' →
      R.Keeps w' D' w'' D')
    (hP : ∀ r w' D', R.Later w D w' D' → P r w' D') : p.Minds H ok R P w D := by
  induction p generalizing w D with
  | ret a => exact fun w' D' hl => hP _ w' D' hl
  | throw e => exact fun w' D' hl => hP _ w' D' hl
  | tx body next ih =>
      intro w' D' hl hI
      refine ⟨fun e => ih _ (h.2 _) fun r w'' D'' h' => hP r w'' D'' (R.trans hl h'),
        fun a L hr hp => ?_⟩
      have hkeeps := hK w' D' L hI (h.1 D' a L hr) hp
      exact ⟨hkeeps, ih _ (h.2 _) fun r w'' D'' h' =>
        hP r w'' D'' (R.trans hl (R.trans hkeeps.later h'))⟩
  | ask q next ih =>
      intro w' D' hl hI r w'' hr hp
      have hkeeps := hreply q w' D' r w'' hI hr hp
      exact ⟨hkeeps, ih r (h r) fun r w₁ D₁ h' =>
        hP r w₁ D₁ (R.trans hl (R.trans hkeeps.later h'))⟩

end Proc

namespace Setting

variable [SqlError E] {H : Setting Db Write E W Call Ans α} {ok : W → Db → W → Db → Prop}
  {R : Rely W Db} {P : Call → Except E α → W → Db → Prop}

/-- The shared state satisfies the invariant and every request minds the rely. -/
structure Minding (H : Setting Db Write E W Call Ans α) (ok : W → Db → W → Db → Prop)
    (R : Rely W Db) (P : Call → Except E α → W → Db → Prop)
    (s : Scene Db Write E W Call Ans α) : Prop where
  inv : R.Inv s.world s.db
  tasks : ∀ t c p, s.tasks t = some (c, p) → p.Minds H ok R (P c) s.world s.db

omit [SqlError E] in
theorem Minding.advance {s : Scene Db Write E W Call Ans α} (h : Minding H ok R P s) {w : W}
    {D : Db} (hkeeps : R.Keeps s.world s.db w D) {t : Nat}
    {task : Option (Call × Proc Db Write E Ans α)}
    (htask : ∀ c p, task = some (c, p) → p.Minds H ok R (P c) w D) :
    Minding H ok R P ⟨w, D, Function.update s.tasks t task⟩ where
  inv := hkeeps.inv
  tasks u c p hu := by
    change Function.update s.tasks t task u = some (c, p) at hu
    by_cases hut : u = t
    · subst hut
      rw [Function.update_self] at hu
      exact htask c p hu
    · rw [Function.update_of_ne hut] at hu
      exact (h.tasks u c p hu).later hkeeps.later

/-- What a transaction that is committed in a shared state leaves to be judged. -/
theorem minds_commit {β : Type} {body : Tx Db Write E β} {next : Except E β → Proc Db Write E Ans α}
    {Q : Except E α → W → Db → Prop} {w : W} {D : Db} (hI : R.Inv w D)
    (h : (Proc.tx body next).Minds H ok R Q w D) (fate : Fate)
    (hok : ok w D w (view (body.outcome D fate).1 D)) :
    R.Keeps w D w (view (body.outcome D fate).1 D) ∧
      (next (body.outcome D fate).2).Minds H ok R Q w (view (body.outcome D fate).1 D) := by
  obtain ⟨herr, hdone⟩ := h w D (R.refl w D) hI
  cases hr : body.run D [] with
  | error e => cases fate <;> simpa [Tx.outcome, hr] using ⟨R.keeps_refl hI, herr _⟩
  | ok out =>
      cases fate with
      | failed => exact ⟨R.keeps_refl hI, herr _⟩
      | done =>
          simp only [Tx.outcome, hr] at hok ⊢
          exact hdone out.1 out.2 hr hok
      | lost =>
          simp only [Tx.outcome, hr] at hok ⊢
          obtain ⟨hkeeps, -⟩ := hdone out.1 out.2 hr hok
          exact ⟨hkeeps, (herr _).later hkeeps.later⟩

/-- One step keeps the invariant, if the world by itself and the ends of requests do. -/
theorem Minding.step (hprog : ∀ c w D, R.Inv w D → (H.prog c).Minds H ok R (P c) w D)
    (hmove : ∀ w D w', R.Inv w D → H.moves w w' → ok w D w' D → R.Keeps w D w' D)
    (hreturns : ∀ c a w D, R.Inv w D → P c (.ok a) w D → R.Keeps w D (H.returns c a w) D)
    {s s' : Scene Db Write E W Call Ans α} (h : Minding H ok R P s) (hs : H.Step ok s s') :
    Minding H ok R P s' := by
  cases hs with
  | start t c hfree =>
      refine h.advance (R.keeps_refl h.inv) fun c' p hp => ?_
      cases hp
      exact hprog c s.world s.db h.inv
  | @commit β body next t c htask fate hok =>
      have hcommit := minds_commit h.inv (h.tasks t c _ htask) fate hok
      refine h.advance hcommit.1 fun c' p hp => ?_
      cases hp
      exact hcommit.2
  | @answer q next t c htask r w hreply hok =>
      obtain ⟨hkeeps, hrest⟩ :=
        h.tasks t c _ htask s.world s.db (R.refl _ _) h.inv r w hreply hok
      refine h.advance hkeeps fun c' p hp => ?_
      cases hp
      exact hrest
  | finish t c a htask =>
      have hend := h.tasks t c _ htask s.world s.db (R.refl _ _)
      exact h.advance (hreturns c a s.world s.db h.inv hend) fun _ _ hp => by cases hp
  | stop t => exact h.advance (R.keeps_refl h.inv) fun _ _ hp => by cases hp
  | move w hw hok =>
      have hkeeps := hmove s.world s.db w h.inv hw hok
      exact ⟨hkeeps.inv, fun t c p hp => (h.tasks t c p hp).later hkeeps.later⟩

/-- What is judged of the requests of one task is kept by every step of the service. -/
theorem Minding.step_at {T : Call → Except E α → W → Db → Prop}
    (hprog : ∀ c w D, R.Inv w D → (H.prog c).Minds H ok R (T c) w D)
    (hmove : ∀ w D w', R.Inv w D → H.moves w w' → ok w D w' D → R.Keeps w D w' D)
    (hreturns : ∀ c a w D, R.Inv w D → P c (.ok a) w D → R.Keeps w D (H.returns c a w) D)
    {s s' : Scene Db Write E W Call Ans α} (h : Minding H ok R P s) {t : Nat}
    (ht : ∀ c p, s.tasks t = some (c, p) → p.Minds H ok R (T c) s.world s.db)
    (hs : H.Step ok s s') :
    ∀ c p, s'.tasks t = some (c, p) → p.Minds H ok R (T c) s'.world s'.db := by
  -- A step of another task leads to a later state.
  have other : ∀ {w : W} {D : Db} {u : Nat} {task : Option (Call × Proc Db Write E Ans α)},
      R.Keeps s.world s.db w D →
      (∀ c p, task = some (c, p) → u = t → p.Minds H ok R (T c) w D) →
      ∀ c p, Function.update s.tasks u task t = some (c, p) → p.Minds H ok R (T c) w D := by
    intro w D u task hkeeps htask c p hp
    by_cases hu : u = t
    · subst hu
      rw [Function.update_self] at hp
      exact htask c p hp rfl
    · rw [Function.update_of_ne (Ne.symm hu)] at hp
      exact (ht c p hp).later hkeeps.later
  cases hs with
  | start u c hfree =>
      refine other (R.keeps_refl h.inv) fun c' p hp _ => ?_
      cases hp
      exact hprog c s.world s.db h.inv
  | @commit β body next u c htask fate hok =>
      have hkeeps := (minds_commit h.inv (h.tasks u c _ htask) fate hok).1
      refine other hkeeps fun c' p hp hu => ?_
      cases hp
      exact (minds_commit h.inv (ht c _ (hu ▸ htask)) fate hok).2
  | @answer q next u c htask r w hreply hok =>
      have hkeeps := (h.tasks u c _ htask s.world s.db (R.refl _ _) h.inv r w hreply hok).1
      refine other hkeeps fun c' p hp hu => ?_
      cases hp
      exact (ht c _ (hu ▸ htask) s.world s.db (R.refl _ _) h.inv r w hreply hok).2
  | finish u c a htask =>
      have hend := h.tasks u c _ htask s.world s.db (R.refl _ _)
      exact other (hreturns c a s.world s.db h.inv hend) fun _ _ hp => by cases hp
  | stop u => exact other (R.keeps_refl h.inv) fun _ _ hp => by cases hp
  | move w hw hok =>
      have hkeeps := hmove s.world s.db w h.inv hw hok
      exact fun c p hp => (ht c p hp).later hkeeps.later

theorem Minding.run (hprog : ∀ c w D, R.Inv w D → (H.prog c).Minds H ok R (P c) w D)
    (hmove : ∀ w D w', R.Inv w D → H.moves w w' → ok w D w' D → R.Keeps w D w' D)
    (hreturns : ∀ c a w D, R.Inv w D → P c (.ok a) w D → R.Keeps w D (H.returns c a w) D)
    {s s' : Scene Db Write E W Call Ans α} (h : Minding H ok R P s)
    (run : H.Reach ok s s') : Minding H ok R P s' := by
  induction run with
  | refl => exact h
  | tail _ hs ih => exact ih.step hprog hmove hreturns hs

/-- What is judged of the requests of one task holds of it after every run. -/
theorem Minding.run_at {T : Call → Except E α → W → Db → Prop}
    (hprog : ∀ c w D, R.Inv w D → (H.prog c).Minds H ok R (P c) w D)
    (hprog' : ∀ c w D, R.Inv w D → (H.prog c).Minds H ok R (T c) w D)
    (hmove : ∀ w D w', R.Inv w D → H.moves w w' → ok w D w' D → R.Keeps w D w' D)
    (hreturns : ∀ c a w D, R.Inv w D → P c (.ok a) w D → R.Keeps w D (H.returns c a w) D)
    {s s' : Scene Db Write E W Call Ans α} (h : Minding H ok R P s) {t : Nat}
    (ht : ∀ c p, s.tasks t = some (c, p) → p.Minds H ok R (T c) s.world s.db)
    (run : H.Reach ok s s') :
    ∀ c p, s'.tasks t = some (c, p) → p.Minds H ok R (T c) s'.world s'.db := by
  induction run with
  | refl => exact ht
  | tail before hs ih =>
      exact (h.run hprog hmove hreturns before).step_at hprog' hmove hreturns ih hs

/-- A request that starts later than a state of a run ends in what is judged of it from then
on. -/
theorem Minding.ends {T : Call → Except E α → W → Db → Prop}
    (hprog : ∀ c w D, R.Inv w D → (H.prog c).Minds H ok R (P c) w D)
    (hmove : ∀ w D w', R.Inv w D → H.moves w w' → ok w D w' D → R.Keeps w D w' D)
    (hreturns : ∀ c a w D, R.Inv w D → P c (.ok a) w D → R.Keeps w D (H.returns c a w) D)
    {s s' : Scene Db Write E W Call Ans α} (h : Minding H ok R P s)
    (hprog' : ∀ c w D, R.Inv w D → R.Later s.world s.db w D →
      (H.prog c).Minds H ok R (T c) w D)
    (run : H.Reach ok s s') {t : Nat} {c : Call} {a : α} (hfree : s.tasks t = none)
    (ht : s'.tasks t = some (c, .ret a)) : T c (.ok a) s'.world s'.db := by
  have hsince : Minding H ok (R.since s.world s.db) P s :=
    ⟨⟨h.inv, R.refl _ _⟩, fun u c p hp => (h.tasks u c p hp).since⟩
  have hends := hsince.run_at (R := R.since s.world s.db) (T := T) (fun c w D hI => (hprog c w D hI.1).since)
    (fun c w D hI => (hprog' c w D hI.1 hI.2).since)
    (fun w D w' hI hm hok => (hmove w D w' hI.1 hm hok).since hI.2)
    (fun c a w D hI hP => (hreturns c a w D hI.1 hP).since hI.2)
    (fun c p hp => by cases hfree.symm.trans hp) run _ _ ht
  exact hends _ _ (R.refl _ _)

end Setting

/-! ### A request that is served by itself -/

section Serving

variable [SqlError E]

/-- Each step of the request, made by itself in a world, is one that `ok` lets happen. -/
def Proc.Lets (world : World W E Ans) (ok : W → Db → W → Db → Prop) :
    Proc Db Write E Ans α → W → Db → Prop
  | .ret _, _, _ => True
  | .throw _, _, _ => True
  | .tx body next, w, D =>
      ok w D w (view (body.outcome D .done).1 D) ∧
        (next (body.outcome D .done).2).Lets world ok w (view (body.outcome D .done).1 D)
  | .ask q next, w, D =>
      ok w D (world q w).2 D ∧ (next (world q w).1).Lets world ok (world q w).2 D

variable {world : World W E Ans} {ok : W → Db → W → Db → Prop}
  {H : Setting Db Write E W Call Ans α}

theorem Proc.lets_of_forall (h : ∀ w D w' D', ok w D w' D') (p : Proc Db Write E Ans α) (w : W)
    (D : Db) : p.Lets world ok w D := by
  induction p generalizing w D with
  | ret a => trivial
  | throw e => trivial
  | tx body next ih => exact ⟨h _ _ _ _, ih _ _ _⟩
  | ask q next ih => exact ⟨h _ _ _ _, ih _ _ _⟩

/-- The steps of a request that runs by itself are steps of its service. -/
theorem Setting.reach_play (hreply : ∀ q w, H.reply q w (world q w).1 (world q w).2)
    {tasks : Nat → Option (Call × Proc Db Write E Ans α)} {t : Nat} {c : Call}
    {p : Proc Db Write E Ans α} {w w' : W} {D D' : Db} {a : α} (hlets : p.Lets world ok w D)
    (hplay : p.play world w D = (w', D', .ok a)) :
    H.Reach ok ⟨w, D, Function.update tasks t (some (c, p))⟩
      ⟨w', D', Function.update tasks t (some (c, .ret a))⟩ := by
  induction p generalizing w D with
  | ret b =>
      cases hplay
      exact .refl
  | throw e => cases hplay
  | tx body next ih =>
      obtain ⟨hok, hrest⟩ := hlets
      have hstep := Step.commit (H := H) (s := ⟨w, D, Function.update tasks t
        (some (c, .tx body next))⟩) t c (Function.update_self ..) .done hok
      simp only [Function.update_idem] at hstep
      refine .head hstep (ih _ hrest ?_)
      simp only [Proc.play] at hplay
      cases hrun : body.run D [] with
      | ok out => simpa only [hrun, Tx.outcome] using hplay
      | error e => simpa only [hrun, Tx.outcome, view_nil] using hplay
  | ask q next ih =>
      obtain ⟨hok, hrest⟩ := hlets
      have hstep := Step.answer (H := H) (s := ⟨w, D, Function.update tasks t
        (some (c, .ask q next))⟩) t c (Function.update_self ..) _ _ (hreply q w) hok
      simp only [Function.update_idem] at hstep
      exact .head hstep (ih _ hrest hplay)

/-- A service may serve a request by itself. -/
theorem Setting.serve (hreply : ∀ q w, H.reply q w (world q w).1 (world q w).2)
    {s : Scene Db Write E W Call Ans α} {t : Nat} {c : Call} {w' : W} {D' : Db} {a : α}
    (hfree : s.tasks t = none) (hlets : (H.prog c).Lets world ok s.world s.db)
    (hplay : (H.prog c).play world s.world s.db = (w', D', .ok a)) :
    H.Reach ok s ⟨H.returns c a w', D', s.tasks⟩ := by
  have hfinish : H.Step ok ⟨w', D', Function.update s.tasks t (some (c, .ret a))⟩ _ :=
    .finish t c a (Function.update_self ..)
  have htasks : Function.update s.tasks t none = s.tasks := by
    rw [← hfree, Function.update_eq_self]
  simp only [Function.update_idem, htasks] at hfinish
  exact .head (.start t c hfree) ((reach_play hreply hlets hplay).tail hfinish)

end Serving

end TaroTria.Transactions
