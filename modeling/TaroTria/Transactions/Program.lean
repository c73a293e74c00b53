import Mathlib.Logic.Basic

/-!
# Transactions and the requests that run them

A transaction is a tree of statements. A statement reads the rows visible to
the transaction and answers with a value and the row writes it makes, or
raises an error. A request is a tree of transactions and of calls to the
outside world; a single statement sent outside a transaction is a transaction
of one statement.

## Implementation notes

A statement carries its own meaning as a function of the visible database, so
one program text is run unchanged by every scheduler of this library.
-/

namespace TaroTria.Transactions

/-- The errors that a database raises by itself: a duplicate unique key, a row
that had to exist, and every failure of the database or of the way to it. -/
class SqlError (E : Type) where
  uniqueViolation : E
  recordNotFound : E
  fault : E

/-- A transaction body over databases `Db`, row writes `Write`, errors `E`. -/
inductive Tx (Db Write E α : Type) : Type 1
  | ret (a : α)
  | throw (e : E)
  | stmt {β : Type} (s : Db → Except E (β × List Write)) (next : β → Tx Db Write E α)

namespace Tx

variable {Db Write E α β γ : Type}

def bind : Tx Db Write E α → (α → Tx Db Write E β) → Tx Db Write E β
  | ret a, f => f a
  | throw e, _ => throw e
  | stmt s next, f => stmt s fun b => (next b).bind f

instance : Monad (Tx Db Write E) where
  pure := ret
  bind := bind

/-- Errors of the body pass through `f`. A failed statement has already
aborted its transaction, so a handler can only raise another error. -/
def rethrow (f : E → E) : Tx Db Write E α → Tx Db Write E α
  | ret a => ret a
  | throw e => throw (f e)
  | stmt s next => stmt (fun D => (s D).mapError f) fun b => (next b).rethrow f

@[simp] theorem pure_eq (a : α) : (pure a : Tx Db Write E α) = ret a := rfl

@[simp] theorem ret_bind (a : α) (f : α → Tx Db Write E β) : (ret a >>= f) = f a := rfl

@[simp] theorem throw_bind (e : E) (f : α → Tx Db Write E β) :
    ((throw e : Tx Db Write E α) >>= f) = throw e := rfl

@[simp] theorem stmt_bind (s : Db → Except E (γ × List Write))
    (next : γ → Tx Db Write E α) (f : α → Tx Db Write E β) :
    (stmt s next >>= f) = stmt s fun b => next b >>= f := rfl

theorem bind_ret (p : Tx Db Write E α) : p >>= ret = p := by
  induction p with
  | ret a => rfl
  | throw e => rfl
  | stmt s next ih =>
      simp only [stmt_bind]
      congr
      funext b
      exact ih b

theorem bind_assoc (p : Tx Db Write E α) (f : α → Tx Db Write E β)
    (g : β → Tx Db Write E γ) : (p >>= f) >>= g = p >>= fun a => f a >>= g := by
  induction p with
  | ret a => rfl
  | throw e => rfl
  | stmt s next ih =>
      simp only [stmt_bind]
      congr
      funext b
      exact ih b

instance : LawfulMonad (Tx Db Write E) :=
  LawfulMonad.mk' _ (fun p => bind_ret p) (fun _ _ => rfl) fun p f g => bind_assoc p f g

/-- A statement that only reads. -/
def select (f : Db → β) : Tx Db Write E β :=
  stmt (fun D => .ok (f D, [])) ret

/-- A statement that only reads, and finds a row. -/
def selectOrThrow [SqlError E] (f : Db → Option β) : Tx Db Write E β :=
  stmt (fun D => match f D with
    | some b => .ok (b, [])
    | none => .error SqlError.recordNotFound) ret

end Tx

/-- A request: transactions and calls `q` to the outside world, answered in
`Ans q`. Both may fail, and the request sees the failure as an error. -/
inductive Proc (Db Write E : Type) {Q : Type} (Ans : Q → Type) (α : Type) : Type 1
  | ret (a : α)
  | throw (e : E)
  | tx {β : Type} (p : Tx Db Write E β) (next : Except E β → Proc Db Write E Ans α)
  | ask (q : Q) (next : Except E (Ans q) → Proc Db Write E Ans α)

namespace Proc

variable {Db Write E Q α β γ : Type} {Ans : Q → Type}

def bind : Proc Db Write E Ans α → (α → Proc Db Write E Ans β) → Proc Db Write E Ans β
  | ret a, f => f a
  | throw e, _ => throw e
  | tx p next, f => tx p fun r => (next r).bind f
  | ask q next, f => ask q fun r => (next r).bind f

instance : Monad (Proc Db Write E Ans) where
  pure := ret
  bind := bind

/-- `try … catch`: the handler runs on every error of the body. -/
def handle (f : E → Proc Db Write E Ans α) : Proc Db Write E Ans α → Proc Db Write E Ans α
  | ret a => ret a
  | throw e => f e
  | tx p next => tx p fun r => (next r).handle f
  | ask q next => ask q fun r => (next r).handle f

instance : MonadExceptOf E (Proc Db Write E Ans) where
  throw := throw
  tryCatch p f := p.handle f

/-- The request has returned or raised its error. -/
def Finished : Proc Db Write E Ans α → Prop
  | ret _ => True
  | throw _ => True
  | tx _ _ => False
  | ask _ _ => False

/-- Continue with a value, or raise the error in its place. -/
def ofExcept : Except E α → Proc Db Write E Ans α
  | .ok a => ret a
  | .error e => throw e

/-- Run a transaction and raise its error. -/
def transaction (p : Tx Db Write E α) : Proc Db Write E Ans α :=
  tx p ofExcept

/-- Call the outside world and raise its failure. -/
def call (q : Q) : Proc Db Write E Ans (Ans q) :=
  ask q ofExcept

@[simp] theorem pure_eq (a : α) : (pure a : Proc Db Write E Ans α) = ret a := rfl

@[simp] theorem throw_eq (e : E) :
    (MonadExcept.throw e : Proc Db Write E Ans α) = throw e := rfl

@[simp] theorem ret_bind (a : α) (f : α → Proc Db Write E Ans β) : (ret a >>= f) = f a := rfl

@[simp] theorem throw_bind (e : E) (f : α → Proc Db Write E Ans β) :
    ((throw e : Proc Db Write E Ans α) >>= f) = throw e := rfl

@[simp] theorem tx_bind (p : Tx Db Write E γ) (next : Except E γ → Proc Db Write E Ans α)
    (f : α → Proc Db Write E Ans β) :
    (tx p next >>= f) = tx p fun r => next r >>= f := rfl

@[simp] theorem ask_bind (q : Q) (next : Except E (Ans q) → Proc Db Write E Ans α)
    (f : α → Proc Db Write E Ans β) :
    (ask q next >>= f) = ask q fun r => next r >>= f := rfl

@[simp] theorem handle_ret (a : α) (f : E → Proc Db Write E Ans α) :
    (ret a).handle f = ret a := rfl

@[simp] theorem handle_throw (e : E) (f : E → Proc Db Write E Ans α) :
    (throw e).handle f = f e := rfl

@[simp] theorem handle_tx (p : Tx Db Write E γ) (next : Except E γ → Proc Db Write E Ans α)
    (f : E → Proc Db Write E Ans α) :
    (tx p next).handle f = tx p fun r => (next r).handle f := rfl

@[simp] theorem handle_ask (q : Q) (next : Except E (Ans q) → Proc Db Write E Ans α)
    (f : E → Proc Db Write E Ans α) :
    (ask q next).handle f = ask q fun r => (next r).handle f := rfl

@[simp] theorem ofExcept_ok (a : α) :
    (ofExcept (.ok a) : Proc Db Write E Ans α) = ret a := rfl

@[simp] theorem ofExcept_error (e : E) :
    (ofExcept (.error e) : Proc Db Write E Ans α) = throw e := rfl

theorem bind_ret (p : Proc Db Write E Ans α) : p >>= ret = p := by
  induction p with
  | ret a => rfl
  | throw e => rfl
  | tx p next ih =>
      simp only [tx_bind]
      congr
      funext r
      exact ih r
  | ask q next ih =>
      simp only [ask_bind]
      congr
      funext r
      exact ih r

theorem bind_assoc (p : Proc Db Write E Ans α) (f : α → Proc Db Write E Ans β)
    (g : β → Proc Db Write E Ans γ) : (p >>= f) >>= g = p >>= fun a => f a >>= g := by
  induction p with
  | ret a => rfl
  | throw e => rfl
  | tx p next ih =>
      simp only [tx_bind]
      congr
      funext r
      exact ih r
  | ask q next ih =>
      simp only [ask_bind]
      congr
      funext r
      exact ih r

instance : LawfulMonad (Proc Db Write E Ans) :=
  LawfulMonad.mk' _ (fun p => bind_ret p) (fun _ _ => rfl) fun p f g => bind_assoc p f g

end Proc

end TaroTria.Transactions
