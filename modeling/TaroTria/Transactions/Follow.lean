import TaroTria.Transactions.Latch

/-!
# Disciplines of single steps

The judgement of a discipline for requests whose transactions are single
steps: a transaction reads the rows it commits to, so its rule is the one of a
body that runs alone. What a request has read in an earlier step still holds as
far as the preorder of the discipline says.
-/

namespace TaroTria.Transactions

variable {Db Write Ref E Q Call α β : Type} {Ans : Q → Type} [RowStore Db Write Ref]

/-- From database `D` on, whatever else commits, every transaction of the request
makes a permitted change of call `c`, and the request ends in `P`. -/
def Proc.Follows (G : Discipline Db Write Ref Call) (c : Call) (P : Except E α → Db → Prop) :
    Proc Db Write E Ans α → Db → Prop
  | .ret a, D => ∀ D', G.Mono D D' → P (.ok a) D'
  | .throw e, D => ∀ D', G.Mono D D' → P (.error e) D'
  | .tx body next, D => ∀ D', G.Mono D D' → G.Inv D' →
      (∀ e, (next (.error e)).Follows G c P D') ∧
      ∀ a L, body.run D' [] = .ok (a, L) →
        (L ≠ [] → G.Effect c D' L) ∧ (next (.ok a)).Follows G c P (view L D')
  | .ask _ next, D => ∀ D', G.Mono D D' → ∀ r, (next r).Follows G c P D'

namespace Proc

variable {G : Discipline Db Write Ref Call} {c : Call}

theorem Follows.later {P : Except E α → Db → Prop} {p : Proc Db Write E Ans α} {D D' : Db}
    (h : p.Follows G c P D) (hm : G.Mono D D') : p.Follows G c P D' := by
  cases p with
  | ret a => exact fun D'' h' => h D'' (G.mono_trans hm h')
  | throw e => exact fun D'' h' => h D'' (G.mono_trans hm h')
  | tx body next => exact fun D'' h' => h D'' (G.mono_trans hm h')
  | ask q next => exact fun D'' h' => h D'' (G.mono_trans hm h')

theorem Follows.mono {P P' : Except E α → Db → Prop} (hP : ∀ r D, P r D → P' r D)
    {p : Proc Db Write E Ans α} {D : Db} (h : p.Follows G c P D) : p.Follows G c P' D := by
  induction p generalizing D with
  | ret a => exact fun D' hm => hP _ _ (h D' hm)
  | throw e => exact fun D' hm => hP _ _ (h D' hm)
  | tx body next ih =>
      intro D' hm hI
      obtain ⟨herr, hok⟩ := h D' hm hI
      exact ⟨fun e => ih _ (herr e), fun a L hr => ⟨(hok a L hr).1, ih _ (hok a L hr).2⟩⟩
  | ask q next ih => exact fun D' hm r => ih r (h D' hm r)

theorem Follows.bind {P : Except E β → Db → Prop} {p : Proc Db Write E Ans α}
    {f : α → Proc Db Write E Ans β} {D : Db}
    (h : p.Follows G c (fun r D' => match r with
      | .ok a => (f a).Follows G c P D'
      | .error e => P (.error e) D') D) : (p >>= f).Follows G c P D := by
  induction p generalizing D with
  | ret a => exact h D (G.mono_refl D)
  | throw e => exact h
  | tx body next ih =>
      intro D' hm hI
      obtain ⟨herr, hok⟩ := h D' hm hI
      exact ⟨fun e => ih _ (herr e), fun a L hr => ⟨(hok a L hr).1, ih _ (hok a L hr).2⟩⟩
  | ask q next ih => exact fun D' hm r => ih r (h D' hm r)

/-- A request goes on following a discipline that promises more of what was committed before. -/
theorem Follows.since {P : Except E α → Db → Prop} {p : Proc Db Write E Ans α} {D D₀ : Db}
    (h : p.Follows G c P D) : p.Follows (G.since D₀) c P D := by
  induction p generalizing D with
  | ret a => exact h
  | throw e => exact h
  | tx body next ih =>
      intro D' hm hI
      obtain ⟨herr, hok⟩ := h D' hm hI.1
      exact ⟨fun e => ih _ (herr e), fun a L hr => ⟨(hok a L hr).1, ih _ (hok a L hr).2⟩⟩
  | ask q next ih => exact fun D' hm r => ih r (h D' hm r)

/-- A request that makes changes `K` follows the discipline from a database on
where it permits them, and ends in what holds from there on. -/
theorem Every.follows {K : Db → List Write → Prop} {P : Except E α → Db → Prop}
    {p : Proc Db Write E Ans α} {D : Db} (h : p.Every K)
    (hK : ∀ D' L, G.Mono D D' → K D' L → L ≠ [] → G.Effect c D' L)
    (hP : ∀ r D', G.Mono D D' → P r D') : p.Follows G c P D := by
  induction p generalizing D with
  | ret a => exact fun D' hm => hP _ D' hm
  | throw e => exact fun D' hm => hP _ D' hm
  | tx body next ih =>
      intro D' hm _
      have later : ∀ {D₁}, G.Mono D D₁ → ∀ r, (next r).Follows G c P D₁ := fun h₁ r =>
        ih r (h.2 r) (fun D'' L h' => hK D'' L (G.mono_trans h₁ h'))
          (fun r D'' h' => hP r D'' (G.mono_trans h₁ h'))
      refine ⟨fun e => later hm _, fun a L hr => ?_⟩
      have heffect := hK D' L hm (h.1 D' a L hr)
      exact ⟨heffect, later (G.mono_trans hm (Discipline.mono_writes heffect)) _⟩
  | ask q next ih =>
      exact fun D' hm r => ih r (h r) (fun D'' L h' => hK D'' L (G.mono_trans hm h'))
        (fun r D'' h' => hP r D'' (G.mono_trans hm h'))

theorem follows_of_every {K : Db → List Write → Prop} {p : Proc Db Write E Ans α} {D : Db}
    (h : p.Every K) (hK : ∀ D' L, G.Mono D D' → K D' L → L ≠ [] → G.Effect c D' L) :
    p.Follows G c (fun _ _ => True) D :=
  h.follows hK fun _ _ _ => trivial

/-- The rule for a transaction whose error is raised. -/
theorem follows_transaction {P : Except E α → Db → Prop} {body : Tx Db Write E α} {D : Db}
    (herr : ∀ e D', G.Mono D D' → P (.error e) D')
    (hok : ∀ D', G.Mono D D' → G.Inv D' → body.wp still D' (fun a L =>
      (L ≠ [] → G.Effect c D' L) ∧ ∀ D'', G.Mono (view L D') D'' → P (.ok a) D'') []) :
    (transaction body : Proc Db Write E Ans α).Follows G c P D := by
  intro D' hm hI
  refine ⟨fun e D'' h' => herr e D'' (G.mono_trans hm h'), fun a L hr => ?_⟩
  exact Tx.run_of_wp (P := fun a L => (L ≠ [] → G.Effect c D' L) ∧
    ∀ D'', G.Mono (view L D') D'' → P (.ok a) D'') (hok D' hm hI) hr

/-- The rule for a read. -/
theorem follows_select {P : Except E β → Db → Prop} {f : Db → β} {D : Db}
    (herr : ∀ e D', G.Mono D D' → P (.error e) D')
    (hok : ∀ D₀ D', G.Mono D D₀ → G.Inv D₀ → G.Mono D₀ D' → P (.ok (f D₀)) D') :
    (transaction (Tx.select f) : Proc Db Write E Ans β).Follows G c P D := by
  refine follows_transaction herr fun D₀ hm hI => Tx.wp_select ?_
  rintro D₁ ⟨-, rfl, -⟩
  exact ⟨fun h => absurd rfl h, fun D' h' => hok _ D' hm hI h'⟩

/-- The rule for a read that finds a row. -/
theorem follows_selectOrThrow [SqlError E] {P : Except E β → Db → Prop} {f : Db → Option β} {D : Db}
    (herr : ∀ e D', G.Mono D D' → P (.error e) D')
    (hok : ∀ D₀ D' b, G.Mono D D₀ → G.Inv D₀ → G.Mono D₀ D' → f D₀ = some b → P (.ok b) D') :
    (transaction (Tx.selectOrThrow f) : Proc Db Write E Ans β).Follows G c P D := by
  refine follows_transaction herr fun D₀ hm hI => Tx.wp_selectOrThrow ?_
  rintro D₁ b ⟨-, rfl, -⟩ hb
  exact ⟨fun h => absurd rfl h, fun D' h' => hok _ D' b hm hI h' hb⟩

theorem follows_call {q : Q} {P : Except E (Ans q) → Db → Prop} {D : Db}
    (h : ∀ r D', G.Mono D D' → P r D') :
    (call q : Proc Db Write E Ans (Ans q)).Follows G c P D := by
  rintro D' hm (e | a)
  · exact fun D'' h' => h (.error e) D'' (G.mono_trans hm h')
  · exact fun D'' h' => h (.ok a) D'' (G.mono_trans hm h')

end Proc

namespace Pool

variable [SqlError E] {prog : Call → Proc Db Write E Ans α} {starts calls : Call → Prop}
  {ok : Pool Db Write E Call Ans α → Pool Db Write E Call Ans α → Prop}
  {G : Discipline Db Write Ref Call} {P : Call → Except E α → Db → Prop}
  {s s' s₀ : Pool Db Write E Call Ans α}

/-- Every task serves one of `calls` and is judged to follow the discipline. -/
structure Following (G : Discipline Db Write Ref Call) (calls : Call → Prop)
    (P : Call → Except E α → Db → Prop) (s : Pool Db Write E Call Ans α) : Prop where
  called : ∀ t k, s.tasks t = some k → calls k.call
  follows : ∀ t k, s.tasks t = some k → k.rest.Follows G k.call (P k.call) s.db

omit [SqlError E] in
theorem following_idle (D : Db) : (idle D : Pool Db Write E Call Ans α).Following G calls P where
  called := by simp [idle]
  follows := by simp [idle]

/-- A step of a request makes no write or a permitted change, and goes on. -/
theorem follows_step {p : Proc Db Write E Ans α} {c : Call} {P : Except E α → Db → Prop} {D : Db}
    (hI : G.Inv D) (h : p.Follows G c P D) (fate : Fate) (answer : (q : Q) → Ans q) :
    ((p.step D fate answer).1 ≠ [] → G.Effect c D (p.step D fate answer).1) ∧
      (p.step D fate answer).2.Follows G c P (view (p.step D fate answer).1 D) := by
  cases p with
  | ret a => exact ⟨fun h => absurd rfl h, h⟩
  | throw e => exact ⟨fun h => absurd rfl h, h⟩
  | ask q next => exact ⟨fun h => absurd rfl h, h D (G.mono_refl D) _⟩
  | tx body next =>
      obtain ⟨herr, hok⟩ := h D (G.mono_refl D) hI
      cases fate with
      | failed => exact ⟨fun h => absurd rfl h, herr _⟩
      | done =>
          cases hr : body.run D [] with
          | error e => simpa [Proc.step, Tx.outcome, hr] using herr e
          | ok r => simpa only [Proc.step, Tx.outcome, hr] using hok r.1 r.2 hr
      | lost =>
          cases hr : body.run D [] with
          | error e => simpa [Proc.step, Tx.outcome, hr] using herr e
          | ok r =>
              obtain ⟨heffect, -⟩ := hok r.1 r.2 hr
              simp only [Proc.step, Tx.outcome, hr]
              exact ⟨heffect, (herr _).later (G.mono_writes heffect)⟩

/-- What an event does to a pool that follows a discipline, when the calls that it may
start do: it writes nothing, or commits one permitted change. -/
theorem Following.moved (hcalls : ∀ c, starts c → calls c)
    (hprog : ∀ c, starts c → ∀ D, G.Inv D → (prog c).Follows G c (P c) D)
    (hI : G.Inv s.db) (h : s.Following G calls P) (hm : Moved prog starts s s') :
    s'.Following G calls P ∧ ((s'.db = s.db ∧ s'.history = s.history) ∨
      ∃ c L, G.Permits calls c s.db L ∧ s'.db = view L s.db ∧
        s'.history = (c, L) :: s.history) := by
  cases hm with
  | spawn t c hc hdb hhist htasks =>
      refine ⟨⟨fun u k hk => ?_, fun u k hk => ?_⟩, .inl ⟨hdb, hhist⟩⟩
      · rcases htasks u k hk with hold | rfl
        · exact h.called u k hold
        · exact hcalls c hc
      · rw [hdb]
        rcases htasks u k hk with hold | rfl
        · exact h.follows u k hold
        · exact hprog c hc s.db hI
  | go t k fate answer ht eq =>
      subst eq
      obtain ⟨heffect, hrest⟩ := follows_step hI (h.follows t k ht) fate answer
      have hmono : G.Mono s.db (s.advance t k fate answer).db := G.mono_writes heffect
      refine ⟨⟨fun u k' hk' => ?_, fun u k' hk' => ?_⟩, ?_⟩
      · rcases tasks_advance hk' with ⟨-, rfl⟩ | ⟨-, hold⟩
        · simpa using h.called t k ht
        · exact h.called u k' hold
      · rcases tasks_advance hk' with ⟨-, rfl⟩ | ⟨-, hold⟩
        · rw [after_call, after_rest]
          exact hrest
        · exact (h.follows u k' hold).later hmono
      · by_cases hL : (k.rest.step s.db fate answer).1 = []
        · exact .inl ⟨by simp [advance, hL], by simp [advance, record, hL]⟩
        · exact .inr ⟨k.call, _, ⟨h.called t k ht, heffect hL⟩, rfl,
            by simp [advance, record, hL]⟩
  | kill hdb hhist htasks =>
      refine ⟨⟨fun u k hk => h.called u k (htasks u k hk), fun u k hk => ?_⟩, .inl ⟨hdb, hhist⟩⟩
      rw [hdb]
      exact h.follows u k (htasks u k hk)

/-- The rows of every run move along a path of permitted changes, which its
history records. -/
theorem Reach.following (hcalls : ∀ c, starts c → calls c)
    (hprog : ∀ c, starts c → ∀ D, G.Inv D → (prog c).Follows G c (P c) D)
    (hI : G.Inv s₀.db) (h₀ : s₀.Following G calls P) (run : Reach prog starts ok s₀ s) :
    s.Following G calls P ∧ ∃ hist, s.history = hist ++ s₀.history ∧
      Path (G.Permits calls) s₀.db hist s.db := by
  induction run with
  | refl => exact ⟨h₀, [], rfl, .nil⟩
  | @step s₁ s₂ e tail he hs hok ih =>
      obtain ⟨hfollow, hist, hhist, hpath⟩ := ih
      have hI₁ := G.inv_mono (G.path_mono hpath) hI
      obtain ⟨hfollow', hstep⟩ := hfollow.moved hcalls hprog hI₁ (step_moved he hs)
      refine ⟨hfollow', ?_⟩
      rcases hstep with ⟨hdb, hsame⟩ | ⟨c, L, hpermits, hdb, hmore⟩
      · exact ⟨hist, hsame.trans hhist, hdb ▸ hpath⟩
      · exact ⟨(c, L) :: hist, by rw [hmore, hhist, List.cons_append],
          hdb ▸ hpath.cons hpermits⟩

/-- In a pool that follows a discipline, what is judged of the requests of one task
holds of it after every run. -/
theorem Reach.follows_at {T : Call → Except E α → Db → Prop} {t : Nat}
    (hcalls : ∀ c, starts c → calls c)
    (hprog : ∀ c, starts c → ∀ D, G.Inv D → (prog c).Follows G c (P c) D)
    (hprog' : ∀ c, starts c → ∀ D, G.Inv D → (prog c).Follows G c (T c) D)
    (hI : G.Inv s₀.db) (h₀ : s₀.Following G calls P)
    (ht : ∀ k, s₀.tasks t = some k → k.rest.Follows G k.call (T k.call) s₀.db)
    (run : Reach prog starts ok s₀ s) :
    ∀ k, s.tasks t = some k → k.rest.Follows G k.call (T k.call) s.db := by
  induction run with
  | refl => exact ht
  | @step s₁ s₂ e tail he hs hok ih =>
      obtain ⟨hfollow, hist, -, hpath⟩ := tail.following hcalls hprog hI h₀
      have hI₁ := G.inv_mono (G.path_mono hpath) hI
      intro k' hk'
      cases step_moved he hs with
      | spawn u c hc hdb hhist htasks =>
          rw [hdb]
          rcases htasks t k' hk' with hold | rfl
          · exact ih k' hold
          · exact hprog' c hc s₁.db hI₁
      | go u k fate answer hu eq =>
          subst eq
          rcases tasks_advance hk' with ⟨rfl, rfl⟩ | ⟨-, hold⟩
          · rw [after_call, after_rest]
            exact (follows_step hI₁ (ih k hu) fate answer).2
          · obtain ⟨heffect, -⟩ := follows_step hI₁ (hfollow.follows u k hu) fate answer
            exact (ih k' hold).later (G.mono_writes heffect)
      | kill hdb hhist htasks =>
          rw [hdb]
          exact ih k' (htasks t k' hk')

end Pool

end TaroTria.Transactions
