import TaroTria.Transactions.Atomic

/-!
# Requests in a world

A request that runs alone and whose statements do not fail, in a world that
answers its calls. The world has a state that the calls change, so that what a
request asked of it can be read off the state that it leaves.
-/

namespace TaroTria.Transactions

variable {Db Write Ref E Q W α β : Type} {Ans : Q → Type} [RowStore Db Write Ref]

/-- A world: what it answers to a call in a state, and the state after the call. -/
abbrev World (W E : Type) {Q : Type} (Ans : Q → Type) : Type :=
  (q : Q) → W → Except E (Ans q) × W

namespace Proc

variable (world : World W E Ans)

/-- The world and the database that a request leaves, and its result. -/
def play : Proc Db Write E Ans α → W → Db → W × Db × Except E α
  | ret a, w, D => (w, D, .ok a)
  | throw e, w, D => (w, D, .error e)
  | tx body next, w, D =>
      match body.run D [] with
      | .ok (a, L) => (next (.ok a)).play w (view L D)
      | .error e => (next (.error e)).play w D
  | ask q next, w, D => (next (world q w).1).play (world q w).2 D

variable {world} {w : W} {D : Db}

@[simp] theorem play_ret (a : α) :
    (ret a : Proc Db Write E Ans α).play world w D = (w, D, .ok a) := rfl

@[simp] theorem play_throw (e : E) :
    (throw e : Proc Db Write E Ans α).play world w D = (w, D, .error e) := rfl

@[simp] theorem play_ask (q : Q) (next : Except E (Ans q) → Proc Db Write E Ans α) :
    (ask q next).play world w D = (next (world q w).1).play world (world q w).2 D := rfl

/-- The rest of a sequence runs where its first part ended. -/
theorem play_bind (p : Proc Db Write E Ans α) (f : α → Proc Db Write E Ans β) :
    (p >>= f).play world w D =
      match p.play world w D with
      | (w', D', .ok a) => (f a).play world w' D'
      | (w', D', .error e) => (w', D', .error e) := by
  induction p generalizing w D with
  | ret a => rfl
  | throw e => rfl
  | tx body next ih =>
      simp only [tx_bind, play]
      split
      · exact ih _
      · exact ih _
  | ask q next ih =>
      simp only [ask_bind, play]
      exact ih _

theorem play_bind_ok {p : Proc Db Write E Ans α} {f : α → Proc Db Write E Ans β} {w' : W}
    {D' : Db} {a : α} (h : p.play world w D = (w', D', .ok a)) :
    (p >>= f).play world w D = (f a).play world w' D' := by
  rw [play_bind, h]

theorem play_bind_error {p : Proc Db Write E Ans α} {f : α → Proc Db Write E Ans β} {w' : W}
    {D' : Db} {e : E} (h : p.play world w D = (w', D', .error e)) :
    (p >>= f).play world w D = (w', D', .error e) := by
  rw [play_bind, h]

/-- The handler of a request runs where the request failed. -/
theorem play_handle (p : Proc Db Write E Ans α) (f : E → Proc Db Write E Ans α) :
    (p.handle f).play world w D =
      match p.play world w D with
      | (w', D', .ok a) => (w', D', .ok a)
      | (w', D', .error e) => (f e).play world w' D' := by
  induction p generalizing w D with
  | ret a => rfl
  | throw e => rfl
  | tx body next ih =>
      simp only [handle_tx, play]
      split
      · exact ih _
      · exact ih _
  | ask q next ih =>
      simp only [handle_ask, play]
      exact ih _

section Transaction

variable {body : Tx Db Write E β} {f : β → Proc Db Write E Ans α}

omit f in
theorem play_of_run_ok {b : β} {L : List Write} (hrun : body.run D [] = .ok (b, L)) :
    (transaction body : Proc Db Write E Ans β).play world w D = (w, view L D, .ok b) := by
  simp [transaction, play, hrun]

omit f in
theorem play_of_run_error {e : E} (hrun : body.run D [] = .error e) :
    (transaction body : Proc Db Write E Ans β).play world w D = (w, D, .error e) := by
  simp [transaction, play, hrun]

theorem play_transaction_ok {b : β} {L : List Write} (hrun : body.run D [] = .ok (b, L)) :
    (transaction body >>= f).play world w D = (f b).play world w (view L D) :=
  play_bind_ok (play_of_run_ok hrun)

theorem play_transaction_error {e : E} (hrun : body.run D [] = .error e) :
    (transaction body >>= f).play world w D = (w, D, .error e) :=
  play_bind_error (play_of_run_error hrun)

omit f in
@[simp] theorem play_select (g : Db → β) :
    (transaction (Tx.select g) : Proc Db Write E Ans β).play world w D = (w, D, .ok (g D)) := by
  simp [transaction, play, Tx.select, Tx.run]

theorem play_select_bind (g : Db → β) :
    (transaction (Tx.select g) >>= f).play world w D = (f (g D)).play world w D :=
  play_bind_ok (play_select g)

end Transaction

theorem play_call_self (q : Q) : (call q : Proc Db Write E Ans (Ans q)).play world w D =
    ((world q w).2, D, (world q w).1) := by
  rcases h : world q w with ⟨r, w'⟩
  cases r <;> simp [call, h]

theorem play_call {q : Q} {a : Ans q} {w' : W} {f : Ans q → Proc Db Write E Ans α}
    (h : world q w = (.ok a, w')) :
    (call q >>= f).play world w D = (f a).play world w' D := by
  simp [call, h]

variable (world)

/-- `I` holds of the world and the database at each moment of the request. -/
def Always (I : W → Db → Prop) : Proc Db Write E Ans α → W → Db → Prop
  | ret _, w, D => I w D
  | throw _, w, D => I w D
  | tx body next, w, D => I w D ∧
      (∀ a L, body.run D [] = .ok (a, L) → (next (.ok a)).Always I w (view L D)) ∧
      ∀ e, body.run D [] = .error e → (next (.error e)).Always I w D
  | ask q next, w, D => I w D ∧ (next (world q w).1).Always I (world q w).2 D

variable {world} {I : W → Db → Prop}

theorem Always.finish {p : Proc Db Write E Ans α} (h : p.Always world I w D) {w' : W} {D' : Db}
    {r : Except E α} (hplay : p.play world w D = (w', D', r)) : I w' D' := by
  induction p generalizing w D with
  | ret a =>
      cases hplay
      exact h
  | throw e =>
      cases hplay
      exact h
  | tx body next ih =>
      obtain ⟨-, hok, herr⟩ := h
      simp only [play] at hplay
      cases hrun : body.run D [] with
      | ok r =>
          simp only [hrun] at hplay
          exact ih _ (hok _ _ hrun) hplay
      | error e =>
          simp only [hrun] at hplay
          exact ih _ (herr _ hrun) hplay
  | ask q next ih => exact ih _ h.2 hplay

/-- The rule for a call, which may change the world and not the database. -/
theorem always_call {q : Q} (h : I w D) (h' : I (world q w).2 D) :
    (call q : Proc Db Write E Ans (Ans q)).Always world I w D := by
  refine ⟨h, ?_⟩
  cases (world q w).1 <;> exact h'

/-- The rule for a transaction whose error is raised. -/
theorem always_transaction {body : Tx Db Write E α} (h : I w D)
    (hok : ∀ a L, body.run D [] = .ok (a, L) → I w (view L D)) :
    (transaction body : Proc Db Write E Ans α).Always world I w D :=
  ⟨h, fun a L hrun => hok a L hrun, fun _ _ => h⟩

/-- The rule for a sequence: the rest is run where the first part ends. -/
theorem Always.bind {p : Proc Db Write E Ans α} {f : α → Proc Db Write E Ans β}
    (h : p.Always world I w D)
    (hf : ∀ w' D' a, p.play world w D = (w', D', .ok a) → (f a).Always world I w' D') :
    (p >>= f).Always world I w D := by
  induction p generalizing w D with
  | ret a => exact hf w D a rfl
  | throw e => exact h
  | tx body next ih =>
      obtain ⟨hI, hok, herr⟩ := h
      refine ⟨hI, fun a L hrun => ih _ (hok a L hrun) ?_, fun e hrun => ih _ (herr e hrun) ?_⟩
      all_goals
        simp only [play, hrun] at hf
        exact hf
  | ask q next ih => exact ⟨h.1, ih _ h.2 hf⟩

/-- The rule for a request with a handler of its failure. -/
theorem Always.handle {p : Proc Db Write E Ans α} {f : E → Proc Db Write E Ans α}
    (h : p.Always world I w D)
    (hf : ∀ w' D' e, p.play world w D = (w', D', .error e) → (f e).Always world I w' D') :
    (p.handle f).Always world I w D := by
  induction p generalizing w D with
  | ret a => exact h
  | throw e => exact hf w D e rfl
  | tx body next ih =>
      obtain ⟨hI, hok, herr⟩ := h
      refine ⟨hI, fun a L hrun => ih _ (hok a L hrun) ?_, fun e hrun => ih _ (herr e hrun) ?_⟩
      all_goals
        simp only [play, hrun] at hf
        exact hf
  | ask q next ih => exact ⟨h.1, ih _ h.2 hf⟩

end Proc

end TaroTria.Transactions
