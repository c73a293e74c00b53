import TaroTria.Transactions.Program

/-!
# Requests that answer the calls of other requests

A call to the outside world of one model is a request of another one: the
callee runs in the place of the call, step by step, and its result or its error
is the answer. Caller and callee together are a request again, which runs and is
judged as any other.
-/

namespace TaroTria.Transactions

variable {Db Write E Q α β : Type} {Ans : Q → Type}

namespace Proc

/-- The request with its error as a part of the result. -/
def attempt : Proc Db Write E Ans α → Proc Db Write E Ans (Except E α)
  | ret a => ret (.ok a)
  | throw e => ret (.error e)
  | tx body next => tx body fun r => (next r).attempt
  | ask q next => ask q fun r => (next r).attempt

/-- The requests that answer some of the calls. -/
abbrev Callees (Db Write E : Type) {Q : Type} (Ans : Q → Type) : Type 1 :=
  (q : Q) → Option (Proc Db Write E Ans (Ans q))

/-- A request with its callees in the place of their calls. -/
def resolve (callee : Callees Db Write E Ans) : Proc Db Write E Ans α → Proc Db Write E Ans α
  | ret a => ret a
  | throw e => throw e
  | tx body next => tx body fun r => (next r).resolve callee
  | ask q next =>
      match callee q with
      | none => ask q fun r => (next r).resolve callee
      | some p => p.attempt >>= fun r => (next r).resolve callee

@[simp] theorem attempt_bind_ofExcept (p : Proc Db Write E Ans α) : p.attempt >>= ofExcept = p := by
  induction p with
  | ret a => rfl
  | throw e => rfl
  | tx body next ih =>
      simp only [attempt, tx_bind]
      congr
      funext r
      exact ih r
  | ask q next ih =>
      simp only [attempt, ask_bind]
      congr
      funext r
      exact ih r

@[simp] theorem attempt_bind_ofExcept_bind (p : Proc Db Write E Ans β)
    (f : β → Proc Db Write E Ans α) : (p.attempt >>= fun r => ofExcept r >>= f) = p >>= f := by
  rw [← bind_assoc, attempt_bind_ofExcept]

/-- An attempt raises nothing that a handler could see. -/
theorem attempt_bind_handle (p : Proc Db Write E Ans β) (f : Except E β → Proc Db Write E Ans α)
    (h : E → Proc Db Write E Ans α) :
    (p.attempt >>= f).handle h = p.attempt >>= fun r => (f r).handle h := by
  induction p with
  | ret a => rfl
  | throw e => rfl
  | tx body next ih =>
      simp only [attempt, tx_bind, handle_tx]
      congr
      funext r
      exact ih r
  | ask q next ih =>
      simp only [attempt, ask_bind, handle_ask]
      congr
      funext r
      exact ih r

variable {callee : Callees Db Write E Ans}

@[simp] theorem resolve_ret (a : α) :
    (ret a : Proc Db Write E Ans α).resolve callee = ret a := rfl

@[simp] theorem resolve_throw (e : E) :
    (throw e : Proc Db Write E Ans α).resolve callee = throw e := rfl

@[simp] theorem resolve_bind (p : Proc Db Write E Ans β) (f : β → Proc Db Write E Ans α) :
    (p >>= f).resolve callee = p.resolve callee >>= fun b => (f b).resolve callee := by
  induction p with
  | ret b => rfl
  | throw e => rfl
  | tx body next ih =>
      simp only [tx_bind, resolve]
      congr
      funext r
      exact ih r
  | ask q next ih =>
      simp only [ask_bind, resolve]
      cases callee q with
      | none =>
          simp only [ask_bind]
          congr
          funext r
          exact ih r
      | some p =>
          simp only [bind_assoc]
          congr
          funext r
          exact ih r

@[simp] theorem resolve_handle (p : Proc Db Write E Ans α) (h : E → Proc Db Write E Ans α) :
    (p.handle h).resolve callee =
      (p.resolve callee).handle fun e => (h e).resolve callee := by
  induction p with
  | ret a => rfl
  | throw e => rfl
  | tx body next ih =>
      simp only [handle_tx, resolve]
      congr
      funext r
      exact ih r
  | ask q next ih =>
      simp only [handle_ask, resolve]
      cases callee q with
      | none =>
          simp only [handle_ask]
          congr
          funext r
          exact ih r
      | some p =>
          simp only [attempt_bind_handle]
          congr
          funext r
          exact ih r

@[simp] theorem resolve_ofExcept (r : Except E α) :
    (ofExcept r : Proc Db Write E Ans α).resolve callee = ofExcept r := by
  cases r <;> rfl

@[simp] theorem resolve_transaction (body : Tx Db Write E α) :
    (transaction body : Proc Db Write E Ans α).resolve callee = transaction body := by
  simp only [transaction, resolve, resolve_ofExcept]

/-- A call that no request answers stays a call. -/
theorem resolve_call_of_none {q : Q} (h : callee q = none) :
    (call q : Proc Db Write E Ans (Ans q)).resolve callee = call q := by
  simp only [call, resolve, h, resolve_ofExcept]

/-- A call that a request answers is that request. -/
theorem resolve_call_of_some {q : Q} {p : Proc Db Write E Ans (Ans q)} (h : callee q = some p) :
    (call q : Proc Db Write E Ans (Ans q)).resolve callee = p := by
  simp only [call, resolve, h, resolve_ofExcept, attempt_bind_ofExcept]

end Proc

end TaroTria.Transactions
