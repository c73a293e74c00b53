import Mathlib.Logic.Function.Basic
import Mathlib.Data.List.Basic
import TaroTria.Transactions.Program

/-!
# Interleaved transactions at READ COMMITTED

Statements of different transactions interleave. A statement reads the rows
last committed together with its own transaction's writes, checks and writes a
row in one step, and needs the row's lock to write it; locks are held until
the transaction ends. Commit publishes the writes, every other ending drops
them. A statement whose row is locked by another transaction has no step: it
waits.

## Implementation notes

The scheduler is a partial function of the next move, so that a schedule can
be evaluated. The history of commits is a record for the reader's statements;
no request can see it.
-/

namespace TaroTria.Transactions

/-- Databases made of rows: a write addresses one row, and `Agree r` says that
row `r` has the same content in two databases. -/
class RowStore (Db : Type) (Write Ref : outParam Type) where
  apply : Write → Db → Db
  ref : Write → Ref
  Agree : Ref → Db → Db → Prop
  agree_refl : ∀ r D, Agree r D D
  agree_trans : ∀ {r D₁ D₂ D₃}, Agree r D₁ D₂ → Agree r D₂ D₃ → Agree r D₁ D₃
  /-- What a write leaves in a row depends on that row only. -/
  agree_apply : ∀ {r D₁ D₂} w, Agree r D₁ D₂ → Agree r (apply w D₁) (apply w D₂)
  /-- A write changes no row but its own. -/
  agree_of_ne : ∀ {r} w D, ref w ≠ r → Agree r D (apply w D)

variable {Db Write Ref : Type} [RowStore Db Write Ref]

/-- The database as seen after the writes of a log, oldest first. -/
def view (L : List Write) (D : Db) : Db :=
  L.foldl (fun D w => RowStore.apply w D) D

@[simp] theorem view_nil (D : Db) : view ([] : List Write) D = D := rfl

@[simp] theorem view_cons (w : Write) (L : List Write) (D : Db) :
    view (w :: L) D = view L (RowStore.apply w D) := rfl

theorem view_append (L L' : List Write) (D : Db) :
    view (L ++ L') D = view L' (view L D) := by
  simp [view]

/-- What every write of a log keeps holds after the log. -/
theorem view_invariant {I : Db → Prop} (L : List Write) {D : Db} (h₀ : I D)
    (h : ∀ w ∈ L, ∀ D, I D → I (RowStore.apply w D)) : I (view L D) := by
  induction L generalizing D with
  | nil => exact h₀
  | cons w L ih =>
      exact ih (h w List.mem_cons_self D h₀) fun v hv => h v (List.mem_cons_of_mem w hv)

/-- Two databases agree on every row that a log writes. -/
def AgreeOn (L : List Write) (D D' : Db) : Prop :=
  ∀ w ∈ L, RowStore.Agree (RowStore.ref Db w) D D'

theorem AgreeOn.refl (L : List Write) (D : Db) : AgreeOn L D D :=
  fun _ _ => RowStore.agree_refl _ _

theorem AgreeOn.trans {L : List Write} {D₁ D₂ D₃ : Db} (h₁ : AgreeOn L D₁ D₂)
    (h₂ : AgreeOn L D₂ D₃) : AgreeOn L D₁ D₃ :=
  fun w hw => RowStore.agree_trans (h₁ w hw) (h₂ w hw)

theorem AgreeOn.mono {L L' : List Write} {D D' : Db} (h : AgreeOn (L ++ L') D D') :
    AgreeOn L D D' :=
  fun w hw => h w (List.mem_append_left _ hw)

theorem agree_view {r : Ref} {D D' : Db} (L : List Write) (h : RowStore.Agree r D D') :
    RowStore.Agree r (view L D) (view L D') := by
  induction L generalizing D D' with
  | nil => exact h
  | cons w L ih => exact ih (RowStore.agree_apply w h)

/-- A log that does not address row `r` leaves it as it was. -/
theorem agree_view_of_notMem {r : Ref} (L : List Write) (D : Db)
    (h : ∀ w ∈ L, RowStore.ref Db w ≠ r) : RowStore.Agree r D (view L D) := by
  induction L generalizing D with
  | nil => exact RowStore.agree_refl r D
  | cons w L ih =>
      have hw := RowStore.agree_of_ne w D (h w List.mem_cons_self)
      exact RowStore.agree_trans hw
        (ih (RowStore.apply w D) fun v hv => h v (List.mem_cons_of_mem w hv))

section Scheduler

variable {E Q Call α : Type} {Ans : Q → Type}

/-- A request is between transactions, or inside one with the writes made so
far, the rest of the body and what follows its end. -/
inductive Thread (Db Write E : Type) {Q : Type} (Ans : Q → Type) (α : Type) : Type 1
  | between (proc : Proc Db Write E Ans α)
  | inside {β : Type} (log : List Write) (body : Tx Db Write E β)
      (next : Except E β → Proc Db Write E Ans α)

/-- The committed rows, the row locks, the running requests with the call each
one serves, and the record of the commits that wrote something, newest first. -/
structure Server (Db Write Ref E Call : Type) {Q : Type} (Ans : Q → Type) (α : Type) :
    Type 1 where
  db : Db
  locks : Ref → Option Nat
  threads : Nat → Option (Call × Thread Db Write E Ans α)
  history : List (Call × List Write)

/-- One step of the server. `lose` is a commit whose answer never arrives;
`fail` and `unanswered` are a failing database and a failing outside call. -/
inductive Move (Call : Type) {Q : Type} (Ans : Q → Type)
  | spawn (t : Nat) (c : Call)
  | start (t : Nat)
  | exec (t : Nat)
  | commit (t : Nat)
  | lose (t : Nat)
  | fail (t : Nat)
  | kill (t : Nat)
  | answer (t : Nat) (q : Q) (a : Ans q)
  | unanswered (t : Nat)

/-- What a server runs: the request of each call, and the answers the outside
world may give. -/
structure Service (Db Write E Call : Type) {Q : Type} (Ans : Q → Type) (α : Type) :
    Type 1 where
  prog : Call → Proc Db Write E Ans α
  answers : (q : Q) → Ans q → Prop

/-- A move that starts only calls in `calls` and carries only possible answers. -/
def Move.Admissible (S : Service Db Write E Call Ans α) (calls : Call → Prop) :
    Move Call Ans → Prop
  | .spawn _ c => calls c
  | .answer _ q a => S.answers q a
  | _ => True

namespace Server

variable [DecidableEq Ref] [DecidableEq Q] [SqlError E]

/-- A server with committed rows `D` and no request. -/
def idle (D : Db) : Server Db Write Ref E Call Ans α :=
  ⟨D, fun _ => none, fun _ => none, []⟩

def setThread (s : Server Db Write Ref E Call Ans α) (t : Nat) (c : Call)
    (th : Thread Db Write E Ans α) : Server Db Write Ref E Call Ans α :=
  { s with threads := Function.update s.threads t (some (c, th)) }

/-- The locks without those of thread `t`. -/
def unlock (s : Server Db Write Ref E Call Ans α) (t : Nat) : Ref → Option Nat :=
  fun r => if s.locks r = some t then none else s.locks r

/-- Thread `t` may lock the rows of these writes. -/
def free (s : Server Db Write Ref E Call Ans α) (t : Nat) (ws : List Write) : Bool :=
  ws.all fun w =>
    s.locks (RowStore.ref Db w) = none || s.locks (RowStore.ref Db w) = some t

/-- The locks after thread `t` has locked the rows of these writes. -/
def lock (s : Server Db Write Ref E Call Ans α) (t : Nat) (ws : List Write) :
    Ref → Option Nat :=
  fun r => if ws.any (fun w => RowStore.ref Db w = r) then some t else s.locks r

/-- Thread `t` drops its writes and goes on with `proc`. -/
def rollback (s : Server Db Write Ref E Call Ans α) (t : Nat) (c : Call)
    (proc : Proc Db Write E Ans α) : Server Db Write Ref E Call Ans α :=
  { s.setThread t c (.between proc) with locks := s.unlock t }

/-- Thread `t` publishes the writes `L` and goes on with `proc`. -/
def publish (s : Server Db Write Ref E Call Ans α) (t : Nat) (c : Call) (L : List Write)
    (proc : Proc Db Write E Ans α) : Server Db Write Ref E Call Ans α :=
  { s.rollback t c proc with
    db := view L s.db
    history := if L.isEmpty then s.history else (c, L) :: s.history }

def step (S : Service Db Write E Call Ans α) (s : Server Db Write Ref E Call Ans α) :
    Move Call Ans → Option (Server Db Write Ref E Call Ans α)
  | .spawn t c =>
      match s.threads t with
      | none => some (s.setThread t c (.between (S.prog c)))
      | some _ => none
  | .start t =>
      match s.threads t with
      | some (c, .between (.tx body next)) => some (s.setThread t c (.inside [] body next))
      | _ => none
  | .exec t =>
      match s.threads t with
      | some (c, .inside L (.stmt f k) next) =>
          match f (view L s.db) with
          | .ok (b, ws) =>
              -- A row locked by another transaction makes the statement wait.
              if s.free t ws then
                some { s.setThread t c (.inside (L ++ ws) (k b) next) with
                  locks := s.lock t ws }
              else none
          | .error e => some (s.rollback t c (next (.error e)))
      | some (c, .inside _ (.throw e) next) => some (s.rollback t c (next (.error e)))
      | _ => none
  | .commit t =>
      match s.threads t with
      | some (c, .inside L (.ret a) next) => some (s.publish t c L (next (.ok a)))
      | _ => none
  | .lose t =>
      match s.threads t with
      | some (c, .inside L (.ret _) next) =>
          some (s.publish t c L (next (.error SqlError.fault)))
      | _ => none
  | .fail t =>
      match s.threads t with
      | some (c, .between (.tx _ next)) =>
          some (s.rollback t c (next (.error SqlError.fault)))
      | some (c, .inside _ _ next) => some (s.rollback t c (next (.error SqlError.fault)))
      | _ => none
  | .kill t => some { s with threads := Function.update s.threads t none, locks := s.unlock t }
  | .answer t q a =>
      match s.threads t with
      | some (c, .between (.ask q' next)) =>
          if h : q = q' then some (s.setThread t c (.between (next (.ok (h ▸ a))))) else none
      | _ => none
  | .unanswered t =>
      match s.threads t with
      | some (c, .between (.ask _ next)) =>
          some (s.setThread t c (.between (next (.error SqlError.fault))))
      | _ => none

/-- The servers reached from `s₀` by runs that start only calls in `calls`. -/
inductive Reach (S : Service Db Write E Call Ans α) (calls : Call → Prop)
    (s₀ : Server Db Write Ref E Call Ans α) : Server Db Write Ref E Call Ans α → Prop
  | refl : Reach S calls s₀ s₀
  | step {s s' m} (tail : Reach S calls s₀ s) (ok : m.Admissible S calls)
      (h : s.step S m = some s') : Reach S calls s₀ s'

/-- Run a schedule, if each of its moves is possible. -/
def run (S : Service Db Write E Call Ans α) (s : Server Db Write Ref E Call Ans α) :
    List (Move Call Ans) → Option (Server Db Write Ref E Call Ans α)
  | [] => some s
  | m :: ms => (s.step S m).bind fun s' => s'.run S ms

theorem Reach.run {S : Service Db Write E Call Ans α} {calls : Call → Prop}
    {s₀ s s' : Server Db Write Ref E Call Ans α} (h : Reach S calls s₀ s)
    (ms : List (Move Call Ans)) (ok : ∀ m ∈ ms, m.Admissible S calls) (hr : s.run S ms = some s') :
    Reach S calls s₀ s' := by
  induction ms generalizing s with
  | nil =>
      cases hr
      exact h
  | cons m ms ih =>
      obtain ⟨s₁, hs₁, hr⟩ := Option.bind_eq_some_iff.mp hr
      exact ih (h.step (ok m List.mem_cons_self) hs₁)
        (fun m' hm' => ok m' (List.mem_cons_of_mem m hm')) hr

end Server
end Scheduler

end TaroTria.Transactions
