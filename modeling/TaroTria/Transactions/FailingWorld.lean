import TaroTria.Transactions.World

/-!
# Requests in a world whose database may fail

A request that runs alone in a world that decides, before each transaction, what
becomes of it: it is committed, it is committed and its answer is lost, or it fails.
-/

namespace TaroTria.Transactions

variable {Db Write Ref E Q W α β : Type} {Ans : Q → Type} [RowStore Db Write Ref] [SqlError E]

namespace Proc

variable (world : World W E Ans) (luck : W → Fate × W)

/-- The world and the database that a request leaves, and its result. -/
def endure : Proc Db Write E Ans α → W → Db → W × Db × Except E α
  | ret a, w, D => (w, D, .ok a)
  | throw e, w, D => (w, D, .error e)
  | tx body next, w, D =>
      (next (body.outcome D (luck w).1).2).endure (luck w).2
        (view (body.outcome D (luck w).1).1 D)
  | ask q next, w, D => (next (world q w).1).endure (world q w).2 D

variable {world luck} {w : W} {D : Db}

@[simp] theorem endure_ret (a : α) :
    (ret a : Proc Db Write E Ans α).endure world luck w D = (w, D, .ok a) := rfl

@[simp] theorem endure_throw (e : E) :
    (throw e : Proc Db Write E Ans α).endure world luck w D = (w, D, .error e) := rfl

/-- The rest of a sequence runs where its first part ended. -/
theorem endure_bind (p : Proc Db Write E Ans α) (f : α → Proc Db Write E Ans β) :
    (p >>= f).endure world luck w D =
      match p.endure world luck w D with
      | (w', D', .ok a) => (f a).endure world luck w' D'
      | (w', D', .error e) => (w', D', .error e) := by
  induction p generalizing w D with
  | ret a => rfl
  | throw e => rfl
  | tx body next ih =>
      simp only [tx_bind, endure]
      exact ih _
  | ask q next ih =>
      simp only [ask_bind, endure]
      exact ih _

theorem endure_bind_ok {p : Proc Db Write E Ans α} {f : α → Proc Db Write E Ans β} {w' : W}
    {D' : Db} {a : α} (h : p.endure world luck w D = (w', D', .ok a)) :
    (p >>= f).endure world luck w D = (f a).endure world luck w' D' := by
  rw [endure_bind, h]

theorem endure_bind_error {p : Proc Db Write E Ans α} {f : α → Proc Db Write E Ans β} {w' : W}
    {D' : Db} {e : E} (h : p.endure world luck w D = (w', D', .error e)) :
    (p >>= f).endure world luck w D = (w', D', .error e) := by
  rw [endure_bind, h]

theorem endure_call (q : Q) : (call q : Proc Db Write E Ans (Ans q)).endure world luck w D =
    ((world q w).2, D, (world q w).1) := by
  rcases h : world q w with ⟨r, w'⟩
  cases r <;> simp [call, endure, h]

variable (world luck w D) in
theorem endure_transaction (body : Tx Db Write E β) :
    (transaction body : Proc Db Write E Ans β).endure world luck w D =
      ((luck w).2, view (body.outcome D (luck w).1).1 D, (body.outcome D (luck w).1).2) := by
  rcases h : (body.outcome D (luck w).1).2 with e | a <;>
    simp [transaction, endure, h]

theorem endure_ofExcept (r : Except E α) :
    (ofExcept r : Proc Db Write E Ans α).endure world luck w D = (w, D, r) := by
  cases r <;> rfl

end Proc

end TaroTria.Transactions
