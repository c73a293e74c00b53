import TaroTria.Transactions.Atomic

/-!
# Requests that run alone

The value of a request that nothing interrupts but its own failures, statement
by statement and step by step.
-/

namespace TaroTria.Transactions

variable {Db Write Ref E Q K V α β : Type} {Ans : Q → Type} [RowStore Db Write Ref]

namespace Tx

variable {D : Db} {L : List Write}

@[simp] theorem run_select (f : Db → β) :
    (select f : Tx Db Write E β).run D L = .ok (f (view L D), L) := by
  simp [select, run]

@[simp] theorem run_select_bind (f : Db → β) (g : β → Tx Db Write E α) :
    (select f >>= g).run D L = (g (f (view L D))).run D L := by
  simp [run_bind, Except.bind]

theorem run_bind_ok {p : Tx Db Write E β} {g : β → Tx Db Write E α} {b : β} {L' : List Write}
    (h : p.run D L = .ok (b, L')) : (p >>= g).run D L = (g b).run D L' := by
  simp [run_bind, h, Except.bind]

theorem run_bind_error {p : Tx Db Write E β} {g : β → Tx Db Write E α} {e : E}
    (h : p.run D L = .error e) : (p >>= g).run D L = .error e := by
  simp [run_bind, h, Except.bind]

theorem run_selectOrThrow [SqlError E] {f : Db → Option β} {b : β} (h : f (view L D) = some b) :
    (selectOrThrow f : Tx Db Write E β).run D L = .ok (b, L) := by
  simp [selectOrThrow, run, h]

theorem run_selectOrThrow_none [SqlError E] {f : Db → Option β} (h : f (view L D) = none) :
    (selectOrThrow f : Tx Db Write E β).run D L = .error SqlError.recordNotFound := by
  simp [selectOrThrow, run, h]

end Tx

namespace Delegate

variable [DecidableEq K] (M : Delegate Db K V) {D : Db} {L : List Write} {k : K}

theorem run_findUniqueOrThrow [SqlError E] {v : V} (h : M.find (view L D) k = some v) :
    (M.findUniqueOrThrow k : Tx Db Write E V).run D L = .ok (v, L) :=
  Tx.run_selectOrThrow h

theorem run_findUniqueOrThrow_none [SqlError E] (h : M.find (view L D) k = none) :
    (M.findUniqueOrThrow k : Tx Db Write E V).run D L = .error SqlError.recordNotFound :=
  Tx.run_selectOrThrow_none h

theorem run_create [SqlError E] {v : V} (h : M.find (view L D) k = none) :
    (M.create k v : Tx Db Write E V).run D L = .ok (v, L ++ [M.write k (some v)]) := by
  simp only [create, Tx.run, h]

theorem run_create_exists [SqlError E] {v v' : V} (h : M.find (view L D) k = some v') :
    (M.create k v : Tx Db Write E V).run D L = .error SqlError.uniqueViolation := by
  simp only [create, Tx.run, h]

theorem run_update [SqlError E] {v : V} (f : V → V) (h : M.find (view L D) k = some v) :
    (M.update k f : Tx Db Write E V).run D L = .ok (f v, L ++ [M.write k (some (f v))]) := by
  simp only [update, Tx.run, h]

theorem run_update_none [SqlError E] {f : V → V} (h : M.find (view L D) k = none) :
    (M.update k f : Tx Db Write E V).run D L = .error SqlError.recordNotFound := by
  simp only [update, Tx.run, h]

theorem run_updateWithin [SqlError E] {fits : V → Bool} {v : V} (f : V → V)
    (h : M.find (view L D) k = some v) (hfits : fits (f v) = true) :
    (M.updateWithin fits k f : Tx Db Write E V).run D L =
      .ok (f v, L ++ [M.write k (some (f v))]) := by
  simp only [updateWithin, Tx.run, h, hfits, if_true]

theorem run_updateWithin_unfit [SqlError E] {fits : V → Bool} {v : V} (f : V → V)
    (h : M.find (view L D) k = some v) (hfits : fits (f v) = false) :
    (M.updateWithin fits k f : Tx Db Write E V).run D L = .error SqlError.fault := by
  simp only [updateWithin, Tx.run, h, hfits, Bool.false_eq_true, if_false]

theorem run_updateMany {p : V → Bool} {v : V} (f : V → V) (h : M.find (view L D) k = some v)
    (hp : p v = true) : (M.updateMany k p f : Tx Db Write E Nat).run D L =
      .ok (1, L ++ [M.write k (some (f v))]) := by
  simp only [updateMany, Tx.run, h, hp, if_true]

/-- An update that no row satisfies writes nothing. -/
theorem run_updateMany_none {p : V → Bool} (f : V → V)
    (h : ∀ v, M.find (view L D) k = some v → p v = false) :
    (M.updateMany k p f : Tx Db Write E Nat).run D L = .ok (0, L) := by
  cases hv : M.find (view L D) k with
  | none => simp only [updateMany, Tx.run, hv, List.append_nil]
  | some v =>
      simp only [updateMany, Tx.run, hv, h v hv, Bool.false_eq_true, if_false, List.append_nil]

end Delegate

/-- The step is made, whether or not its answer arrives. -/
def Commits (fate : Option Fate) : Prop := fate = some .done ∨ fate = some .lost

instance (fate : Option Fate) : Decidable (Commits fate) := inferInstanceAs (Decidable (_ ∨ _))

namespace Proc

/-- Every step of a request is made and answered. -/
def Surroundings.Healthy (env : Surroundings Ans) : Prop := ∀ n, env.fate n = some .done

variable [SqlError E] {env : Surroundings Ans} {n : Nat} {D : Db}

@[simp] theorem exec_ret (a : α) : (ret a : Proc Db Write E Ans α).exec env n D = (D, .ok a) := rfl

@[simp] theorem exec_throw (e : E) :
    (throw e : Proc Db Write E Ans α).exec env n D = (D, .error e) := rfl

section Made

variable {body : Tx Db Write E β} {f : β → Proc Db Write E Ans α} (hfate : env.fate n = some .done)
include hfate

theorem exec_transaction_ok {a : β} {L : List Write} (hrun : body.run D [] = .ok (a, L)) :
    (transaction body >>= f).exec env n D = (f a).exec env (n + 1) (view L D) := by
  simp [transaction, exec, hfate, Tx.outcome, hrun]

omit f in
theorem exec_transaction {b : β} {L : List Write} (hrun : body.run D [] = .ok (b, L)) :
    (transaction body : Proc Db Write E Ans β).exec env n D = (view L D, .ok b) := by
  simp [transaction, exec, hfate, Tx.outcome, hrun]

theorem exec_transaction_error {e : E} (hrun : body.run D [] = .error e) :
    (transaction body >>= f).exec env n D = (D, .error e) := by
  simp [transaction, exec, hfate, Tx.outcome, hrun]

theorem exec_select (g : Db → β) :
    (transaction (Tx.select g) >>= f).exec env n D = (f (g D)).exec env (n + 1) D :=
  exec_transaction_ok hfate (L := []) (by simp)

theorem exec_call {q : Q} {g : Ans q → Proc Db Write E Ans α} :
    (call q >>= g).exec env n D = (g (env.answer n q)).exec env (n + 1) D := by
  simp [call, exec, hfate, Fate.reply]

end Made

/-- A request whose step is not made, or not answered, goes no further. -/
theorem exec_transaction_unanswered {b : Tx Db Write E β} {f : β → Proc Db Write E Ans α}
    (hfate : env.fate n ≠ some .done) :
    (∃ a L, env.fate n = some .lost ∧ b.run D [] = .ok (a, L) ∧
      (transaction b >>= f).exec env n D = (view L D, .error SqlError.fault)) ∨
    ∃ e, (transaction b >>= f).exec env n D = (D, .error e) := by
  cases hf : env.fate n with
  | none => exact .inr ⟨SqlError.fault, by simp [transaction, exec, hf]⟩
  | some fate =>
      cases fate with
      | done => exact absurd hf hfate
      | failed => exact .inr ⟨SqlError.fault, by simp [transaction, exec, hf, Tx.outcome]⟩
      | lost =>
          cases hr : b.run D [] with
          | error e => exact .inr ⟨e, by simp [transaction, exec, hf, Tx.outcome, hr]⟩
          | ok r =>
              exact .inl ⟨r.1, r.2, rfl, rfl, by simp [transaction, exec, hf, Tx.outcome, hr]⟩

/-- A step that is not made. -/
theorem exec_transaction_unmade {body : Tx Db Write E β} {f : β → Proc Db Write E Ans α}
    (hfate : ¬ Commits (env.fate n)) :
    ∃ e, (transaction body >>= f).exec env n D = (D, .error e) := by
  rcases exec_transaction_unanswered (b := body) (f := f) (D := D) fun h => hfate (.inl h) with
    ⟨_, _, hlost, -, -⟩ | h
  · exact absurd (.inr hlost) hfate
  · exact h

/-- A transaction that fails, whether or not its step is made. -/
theorem exec_transaction_refused {body : Tx Db Write E β} {f : β → Proc Db Write E Ans α} {e : E}
    (hrun : body.run D [] = .error e) :
    ∃ e', (transaction body >>= f).exec env n D = (D, .error e') := by
  by_cases hfate : env.fate n = some .done
  · exact ⟨e, exec_transaction_error hfate hrun⟩
  · rcases exec_transaction_unanswered (b := body) (f := f) (D := D) hfate with
      ⟨a, L, -, hok, -⟩ | h
    · cases hrun.symm.trans hok
    · exact h

/-- A transaction that succeeds, in a step whose answer is lost. -/
theorem exec_transaction_lost {body : Tx Db Write E β} {f : β → Proc Db Write E Ans α} {b : β}
    {L : List Write} (hfate : env.fate n = some .lost) (hrun : body.run D [] = .ok (b, L)) :
    ∃ e, (transaction body >>= f).exec env n D = (view L D, .error e) :=
  ⟨SqlError.fault, by simp [transaction, exec, hfate, Tx.outcome, hrun]⟩

theorem exec_select_unanswered {g : Db → β} {f : β → Proc Db Write E Ans α}
    (hfate : env.fate n ≠ some .done) :
    ∃ e, (transaction (Tx.select g) >>= f).exec env n D = (D, .error e) := by
  rcases exec_transaction_unanswered (b := Tx.select g) (f := f) (D := D) hfate with
    ⟨b, L, -, hrun, hexec⟩ | h
  · rw [Tx.run_select] at hrun
    cases hrun
    exact ⟨_, by simpa using hexec⟩
  · exact h

/-- A transaction that writes nothing is answered, or it ends the request. -/
theorem exec_read {body : Tx Db Write E β} {f : β → Proc Db Write E Ans α} {b : β}
    (hrun : body.run D [] = .ok (b, [])) :
    (∃ e, (transaction body >>= f).exec env n D = (D, .error e)) ∨
      (env.fate n = some .done ∧
        (transaction body >>= f).exec env n D = (f b).exec env (n + 1) D) := by
  by_cases hfate : env.fate n = some .done
  · exact .inr ⟨hfate, exec_transaction_ok hfate hrun⟩
  · rcases exec_transaction_unanswered (b := body) (f := f) (D := D) hfate with
      ⟨b', L, -, hrun', hexec⟩ | h
    · cases hrun.symm.trans hrun'
      exact .inl ⟨_, hexec⟩
    · exact .inl h

theorem exec_call_unanswered {q : Q} {f : Ans q → Proc Db Write E Ans α}
    (hfate : env.fate n ≠ some .done) : ∃ e, (call q >>= f).exec env n D = (D, .error e) := by
  cases hf : env.fate n with
  | none => exact ⟨SqlError.fault, by simp [call, exec, hf]⟩
  | some fate =>
      cases fate with
      | done => exact absurd hf hfate
      | _ => exact ⟨SqlError.fault, by simp [call, exec, hf, Fate.reply]⟩

/-- What every transaction of a request keeps, the request keeps. -/
theorem Every.exec {K : Db → List Write → Prop} {I : Db → Prop}
    {p : Proc Db Write E Ans α} (h : p.Every K) (hnil : ∀ D, K D [])
    (keep : ∀ D L, K D L → I D → I (view L D)) (env : Surroundings Ans) (n : Nat) {D : Db}
    (hI : I D) : I (p.exec env n D).1 := by
  induction p generalizing n D with
  | ret a => exact hI
  | throw e => exact hI
  | tx body next ih =>
      simp only [Proc.exec]
      cases env.fate n with
      | none => exact hI
      | some fate =>
          obtain ⟨hK, hnext⟩ := Every.outcome h hnil D fate
          exact ih _ hnext _ (keep _ _ hK hI)
  | ask q next ih =>
      simp only [Proc.exec]
      cases env.fate n with
      | none => exact hI
      | some fate => exact ih _ (h _) _ hI

/-- What follows a request whose failure is swallowed runs, if the process survives. -/
theorem exec_swallow {env : Surroundings Ans} (halive : ∀ n, env.fate n ≠ none)
    (p : Proc Db Write E Ans Unit) (f : Unit → Proc Db Write E Ans α) (n : Nat) (D : Db) :
    ∃ m D', ((p.handle fun _ => pure ()) >>= f).exec env n D = (f ()).exec env m D' := by
  induction p generalizing n D with
  | ret a => exact ⟨n, D, rfl⟩
  | throw e => exact ⟨n, D, rfl⟩
  | tx body next ih =>
      obtain ⟨fate, hfate⟩ := Option.ne_none_iff_exists'.mp (halive n)
      obtain ⟨m, D', h⟩ := ih (body.outcome D fate).2 (n + 1) (view (body.outcome D fate).1 D)
      exact ⟨m, D', by simpa only [handle_tx, tx_bind, Proc.exec, hfate] using h⟩
  | ask q next ih =>
      obtain ⟨fate, hfate⟩ := Option.ne_none_iff_exists'.mp (halive n)
      obtain ⟨m, D', h⟩ := ih (fate.reply (env.answer n q)) (n + 1) D
      exact ⟨m, D', by simpa only [handle_ask, ask_bind, Proc.exec, hfate] using h⟩

variable {answers : (q : Q) → Ans q → Prop}

/-- A request that keeps a discipline moves along a path of its effects. -/
theorem Safe.exec_path {Call : Type} {G : Discipline Db Write Ref Call} {c : Call}
    {P : Except E α → Db → Prop} {p : Proc Db Write E Ans α} {D : Db}
    (h : p.Safe G answers c P D) (hI : G.Inv D) (env : Surroundings Ans)
    (henv : ∀ n q, answers q (env.answer n q)) (n : Nat) :
    ∃ hist, Path (G.Permits (· = c)) D hist (p.exec env n D).1 := by
  -- A commit without writes leaves no trace.
  have commit : ∀ {D L} {q : Proc Db Write E Ans α} {m}, (L ≠ [] → G.Effect c D L) →
      (∃ hist, Path (G.Permits (· = c)) (view L D) hist (q.exec env m (view L D)).1) →
      ∃ hist, Path (G.Permits (· = c)) D hist (q.exec env m (view L D)).1 := by
    rintro D L q m heffect ⟨hist, hpath⟩
    by_cases hL : L = []
    · subst hL
      exact ⟨hist, hpath⟩
    · exact ⟨hist ++ [(c, L)], (Path.nil.cons ⟨rfl, heffect hL⟩).trans hpath⟩
  induction p generalizing n D with
  | ret a => exact ⟨[], .nil⟩
  | throw e => exact ⟨[], .nil⟩
  | tx body next ih =>
      obtain ⟨herr, hwp⟩ := h D (G.mono_refl D)
      have hinv : (G.since D).Inv D := ⟨hI, G.mono_refl D⟩
      simp only [Proc.exec]
      cases env.fate n with
      | none => exact ⟨[], .nil⟩
      | some fate =>
          cases hr : body.run D [] with
          | error e => cases fate <;> simpa [Tx.outcome, hr] using ih _ (herr _) hI (n + 1)
          | ok r =>
              obtain ⟨heffect, hnext⟩ := Tx.run_of_wp_inv hinv hwp hr
              have hm : G.Mono D (view r.2 D) := by
                by_cases hL : r.2 = []
                · rw [hL]
                  exact G.mono_refl D
                · exact G.mono_effect (heffect hL)
              have hI' : G.Inv (view r.2 D) := G.inv_mono hm hI
              cases fate with
              | failed => exact ih _ (herr _) hI _
              | done =>
                  simpa only [Tx.outcome, hr] using commit heffect (ih _ hnext hI' (n + 1))
              | lost =>
                  have herr' := (herr SqlError.fault).later hm
                  simpa only [Tx.outcome, hr] using commit heffect (ih _ herr' hI' (n + 1))
  | ask q next ih =>
      obtain ⟨herr, hok⟩ := h D (G.mono_refl D)
      simp only [Proc.exec]
      cases env.fate n with
      | none => exact ⟨[], .nil⟩
      | some fate =>
          cases fate with
          | done => exact ih _ (hok _ (henv n q)) hI _
          | _ => exact ih _ (herr _) hI _

/-- From database `D` on, with no other request and the given answers, whatever fails and
wherever it stops, the request leaves a result and rows in `P`. -/
def Ends (answers : (q : Q) → Ans q → Prop) (P : Except E α → Db → Prop) :
    Proc Db Write E Ans α → Db → Prop
  | .ret a, D => P (.ok a) D
  | .throw e, D => P (.error e) D
  | .tx body next, D => P (.error SqlError.fault) D ∧ (∀ e, (next (.error e)).Ends answers P D) ∧
      ∀ a L, body.run D [] = .ok (a, L) → (next (.ok a)).Ends answers P (view L D) ∧
        ∀ e, (next (.error e)).Ends answers P (view L D)
  | .ask q next, D => P (.error SqlError.fault) D ∧ (∀ e, (next (.error e)).Ends answers P D) ∧
      ∀ a, answers q a → (next (.ok a)).Ends answers P D

theorem Ends.exec {P : Except E α → Db → Prop} {p : Proc Db Write E Ans α} {D : Db}
    (h : p.Ends answers P D) (env : Surroundings Ans)
    (henv : ∀ n q, answers q (env.answer n q)) (n : Nat) :
    P (p.exec env n D).2 (p.exec env n D).1 := by
  induction p generalizing n D with
  | ret a => exact h
  | throw e => exact h
  | tx body next ih =>
      obtain ⟨hcrash, herr, hok⟩ := h
      simp only [Proc.exec]
      cases env.fate n with
      | none => exact hcrash
      | some fate =>
          cases fate with
          | failed => exact ih _ (herr _) _
          | done =>
              cases hr : body.run D [] with
              | error e => simpa only [Tx.outcome, hr, view_nil] using ih _ (herr e) (n + 1)
              | ok r => simpa only [Tx.outcome, hr] using ih _ (hok r.1 r.2 hr).1 (n + 1)
          | lost =>
              cases hr : body.run D [] with
              | error e => simpa only [Tx.outcome, hr, view_nil] using ih _ (herr e) (n + 1)
              | ok r => simpa only [Tx.outcome, hr] using ih _ ((hok r.1 r.2 hr).2 _) (n + 1)
  | ask q next ih =>
      obtain ⟨hcrash, herr, hok⟩ := h
      simp only [Proc.exec]
      cases env.fate n with
      | none => exact hcrash
      | some fate =>
          cases fate with
          | done => exact ih _ (hok _ (henv n q)) _
          | _ => exact ih _ (herr _) _

theorem Ends.mono {P P' : Except E α → Db → Prop} (hP : ∀ r D, P r D → P' r D)
    {p : Proc Db Write E Ans α} {D : Db} (h : p.Ends answers P D) : p.Ends answers P' D := by
  induction p generalizing D with
  | ret a => exact hP _ _ h
  | throw e => exact hP _ _ h
  | tx body next ih =>
      obtain ⟨hcrash, herr, hok⟩ := h
      exact ⟨hP _ _ hcrash, fun e => ih _ (herr e), fun a L hr =>
        ⟨ih _ (hok a L hr).1, fun e => ih _ ((hok a L hr).2 e)⟩⟩
  | ask q next ih =>
      obtain ⟨hcrash, herr, hok⟩ := h
      exact ⟨hP _ _ hcrash, fun e => ih _ (herr e), fun a ha => ih _ (hok a ha)⟩

theorem Ends.bind {P : Except E β → Db → Prop} {p : Proc Db Write E Ans α}
    {f : α → Proc Db Write E Ans β} {D : Db}
    (h : p.Ends answers (fun r D' => match r with
      | .ok a => (f a).Ends answers P D'
      | .error e => P (.error e) D') D) : (p >>= f).Ends answers P D := by
  induction p generalizing D with
  | ret a => exact h
  | throw e => exact h
  | tx body next ih =>
      obtain ⟨hcrash, herr, hok⟩ := h
      exact ⟨hcrash, fun e => ih _ (herr e), fun a L hr =>
        ⟨ih _ (hok a L hr).1, fun e => ih _ ((hok a L hr).2 e)⟩⟩
  | ask q next ih =>
      obtain ⟨hcrash, herr, hok⟩ := h
      exact ⟨hcrash, fun e => ih _ (herr e), fun a ha => ih _ (hok a ha)⟩

/-- The rule for a transaction whose error is raised. -/
theorem ends_transaction {P : Except E α → Db → Prop} {body : Tx Db Write E α} {D : Db}
    (herr : ∀ e, P (.error e) D)
    (hok : body.wp still D (fun a L => P (.ok a) (view L D) ∧ ∀ e, P (.error e) (view L D)) []) :
    (transaction body : Proc Db Write E Ans α).Ends answers P D :=
  ⟨herr _, herr, fun _ _ hr => Tx.run_of_wp
    (P := fun a L => P (.ok a) (view L D) ∧ ∀ e, P (.error e) (view L D)) hok hr⟩

theorem ends_select {P : Except E β → Db → Prop} {f : Db → β} {D : Db}
    (herr : ∀ e, P (.error e) D) (hok : P (.ok (f D)) D) :
    (transaction (Tx.select f) : Proc Db Write E Ans β).Ends answers P D := by
  refine ends_transaction herr (Tx.wp_select ?_)
  rintro D₀ ⟨-, rfl, -⟩
  exact ⟨hok, herr⟩

theorem ends_call {q : Q} {P : Except E (Ans q) → Db → Prop} {D : Db} (herr : ∀ e, P (.error e) D)
    (hok : ∀ a, answers q a → P (.ok a) D) :
    (call q : Proc Db Write E Ans (Ans q)).Ends answers P D :=
  ⟨herr _, herr, hok⟩

/-- The rule for a loop over a list: what each turn keeps, the loop keeps. -/
theorem ends_forM {I : Db → Prop} {f : β → Proc Db Write E Ans PUnit} {l : List β}
    (hf : ∀ b ∈ l, ∀ D, I D → (f b).Ends answers (fun _ => I) D) {D : Db} (hI : I D) :
    (l.forM f).Ends answers (fun _ => I) D := by
  induction l generalizing D with
  | nil => exact hI
  | cons b l ih =>
      refine Ends.bind ((hf b List.mem_cons_self D hI).mono fun r D' hI' => ?_)
      cases r with
      | error e => exact hI'
      | ok u => exact ih (fun b' hb' => hf b' (List.mem_cons_of_mem b hb')) hI'

/-- The rule for a loop whose turns each establish something that all of them keep. -/
theorem ends_forM_each {I : Db → Prop} {J : β → Db → Prop} {f : β → Proc Db Write E Ans PUnit}
    {l : List β} (hf : ∀ b ∈ l, ∀ D, I D → (f b).Ends answers (fun r D' =>
      I D' ∧ (∀ b', J b' D → J b' D') ∧ (r = .ok () → J b D')) D) {D : Db} (hI : I D) :
    (l.forM f).Ends answers (fun r D' =>
      I D' ∧ (∀ b', J b' D → J b' D') ∧ (r = .ok () → ∀ b ∈ l, J b D')) D := by
  induction l generalizing D with
  | nil => exact ⟨hI, fun _ h => h, fun _ b hb => absurd hb List.not_mem_nil⟩
  | cons b l ih =>
      refine Ends.bind ((hf b List.mem_cons_self D hI).mono fun r D₁ ⟨hI₁, hkept, hturn⟩ => ?_)
      cases r with
      | error e => exact ⟨hI₁, hkept, fun h => nomatch h⟩
      | ok u =>
          refine (ih (fun b' hb' => hf b' (List.mem_cons_of_mem b hb')) hI₁).mono
            fun r D₂ ⟨hI₂, hkept', hrest⟩ => ⟨hI₂, fun b' h => hkept' b' (hkept b' h), fun h => ?_⟩
          rintro b' (_ | ⟨_, hmem⟩)
          · exact hkept' b (hturn rfl)
          · exact hrest h b' hmem

end Proc

end TaroTria.Transactions
