import TaroTria.Transactions.Alone
import TaroTria.Transactions.World
import Mathlib.Data.Option.Basic

/-!
# Two runs of a request

What two databases related by `R` let a request see. Two requests are alike
when, run in one world from related databases, they ask the same of the world,
leave related databases and have the same error or related results. A request
that is alike to itself tells nothing beyond what the relation keeps equal.
-/

namespace TaroTria.Transactions

variable {Db Write Ref E Q W α α' β β' : Type} {Ans : Q → Type} [RowStore Db Write Ref]

/-- The same error, or results that `S` relates. -/
inductive SameOutcome (S : α → α' → Prop) : Except E α → Except E α' → Prop
  | ok {a a'} (h : S a a') : SameOutcome S (.ok a) (.ok a')
  | error (e : E) : SameOutcome S (.error e) (.error e)

theorem SameOutcome.eq {x y : Except E α} (h : SameOutcome (· = ·) x y) : x = y := by
  cases h with
  | ok h => rw [h]
  | error e => rfl

namespace Tx

variable (R : Db → Db → Prop)

/-- Two bodies of a transaction that related databases do not tell apart. -/
def Alike (S : α → α' → Prop) (p : Tx Db Write E α) (q : Tx Db Write E α') : Prop :=
  ∀ D D', R D D' → SameOutcome (fun x y => S x.1 y.1 ∧ R (view x.2 D) (view y.2 D'))
    (p.run D []) (q.run D' [])

variable {R} {S : α → α' → Prop}

theorem alike_select {f : Db → α} {g : Db → α'} (h : ∀ D D', R D D' → S (f D) (g D')) :
    Alike R S (select f : Tx Db Write E α) (select g) := fun D D' hR => by
  simp only [run_select]
  exact .ok ⟨h D D' hR, hR⟩

theorem alike_selectOrThrow [SqlError E] {f : Db → Option α} {g : Db → Option α'}
    (h : ∀ D D', R D D' → Option.Rel S (f D) (g D')) :
    Alike R S (selectOrThrow f : Tx Db Write E α) (selectOrThrow g) := fun D D' hR => by
  have hrel := h D D' hR
  rcases hf : f D with _ | a <;> rcases hg : g D' with _ | a' <;> rw [hf, hg] at hrel
  · rw [run_selectOrThrow_none (by simpa using hf), run_selectOrThrow_none (by simpa using hg)]
    exact .error _
  · cases hrel
  · cases hrel
  · rw [run_selectOrThrow (by simpa using hf), run_selectOrThrow (by simpa using hg)]
    cases hrel with
    | some hS => exact .ok ⟨hS, hR⟩

end Tx

namespace Delegate

variable {K V : Type} [DecidableEq K] [SqlError E] (M : Delegate Db K V)
variable {R : Db → Db → Prop} {k : K}

/-- An insertion, if related databases agree on whether the key is taken. -/
theorem alike_create {v : V}
    (hkey : ∀ D D', R D D' → (M.find D k).isSome = (M.find D' k).isSome)
    (hR : ∀ D D', R D D' → R (view [M.write k (some v)] D) (view [M.write k (some v)] D')) :
    Tx.Alike R (· = ·) (M.create k v : Tx Db Write E V) (M.create k v) := fun D D' h => by
  have hsome := hkey D D' h
  rcases hD : M.find D k with _ | u <;> rcases hD' : M.find D' k with _ | u' <;>
    rw [hD, hD'] at hsome
  · rw [M.run_create (by simpa using hD), M.run_create (by simpa using hD')]
    exact .ok ⟨rfl, hR D D' h⟩
  · cases hsome
  · cases hsome
  · rw [M.run_create_exists (by simpa using hD), M.run_create_exists (by simpa using hD')]
    exact .error _

/-- An update of a row that related databases have in common. -/
theorem alike_update {f : V → V} (hkey : ∀ D D', R D D' → M.find D k = M.find D' k)
    (hR : ∀ D D' v, R D D' → R (view [M.write k (some v)] D) (view [M.write k (some v)] D')) :
    Tx.Alike R (· = ·) (M.update k f : Tx Db Write E V) (M.update k f) := fun D D' h => by
  have hrow := hkey D D' h
  rcases hD : M.find D k with _ | v
  · rw [M.run_update_none (L := []) hD, M.run_update_none (L := []) (hrow.symm.trans hD)]
    exact .error _
  · rw [M.run_update f (L := []) hD, M.run_update f (L := []) (hrow.symm.trans hD)]
    exact .ok ⟨rfl, hR D D' _ h⟩

end Delegate

namespace Proc

variable (world : World W E Ans) (R : Db → Db → Prop)

/-- Two requests that related databases do not tell apart. -/
def Alike (S : α → α' → Prop) (p : Proc Db Write E Ans α) (q : Proc Db Write E Ans α') : Prop :=
  ∀ w D D', R D D' → ∃ w₁ D₁ D₁' r r', p.play world w D = (w₁, D₁, r) ∧
    q.play world w D' = (w₁, D₁', r') ∧ R D₁ D₁' ∧ SameOutcome S r r'

variable {world R} {S : α → α' → Prop} {T : β → β' → Prop}
  {p : Proc Db Write E Ans α} {q : Proc Db Write E Ans α'}
  {f : α → Proc Db Write E Ans β} {g : α' → Proc Db Write E Ans β'}

theorem alike_ret {a : α} {a' : α'} (h : S a a') :
    Alike world R S (ret a : Proc Db Write E Ans α) (ret a') :=
  fun w D D' hR => ⟨w, D, D', _, _, rfl, rfl, hR, .ok h⟩

theorem alike_throw (e : E) :
    Alike world R S (throw e : Proc Db Write E Ans α) (throw e) :=
  fun w D D' hR => ⟨w, D, D', _, _, rfl, rfl, hR, .error e⟩

theorem alike_call (q : Q) :
    Alike world R (· = ·) (call q : Proc Db Write E Ans (Ans q)) (call q) := fun w D D' hR => by
  refine ⟨_, D, D', _, _, play_call_self q, play_call_self q, hR, ?_⟩
  cases (world q w).1 with
  | ok a => exact .ok rfl
  | error e => exact .error e

/-- The rule of sequencing: related results go on alike. -/
theorem Alike.bind (h : Alike world R S p q) (hf : ∀ a a', S a a' → Alike world R T (f a) (g a')) :
    Alike world R T (p >>= f) (q >>= g) := fun w D D' hR => by
  obtain ⟨w₁, D₁, D₁', r, r', hp, hq, hR₁, hout⟩ := h w D D' hR
  cases hout with
  | ok hS =>
      rw [play_bind_ok hp, play_bind_ok hq]
      exact hf _ _ hS w₁ D₁ D₁' hR₁
  | error e =>
      rw [play_bind_error hp, play_bind_error hq]
      exact ⟨w₁, D₁, D₁', _, _, rfl, rfl, hR₁, .error e⟩

/-- The rule of a handler that treats every error alike. -/
theorem Alike.handle {q : Proc Db Write E Ans α'} {f : E → Proc Db Write E Ans α}
    {g : E → Proc Db Write E Ans α'} (h : Alike world R S p q)
    (hf : ∀ e, Alike world R S (f e) (g e)) :
    Alike world R S (p.handle f) (q.handle g) := fun w D D' hR => by
  obtain ⟨w₁, D₁, D₁', r, r', hp, hq, hR₁, hout⟩ := h w D D' hR
  rw [play_handle, play_handle, hp, hq]
  cases hout with
  | ok hS => exact ⟨w₁, D₁, D₁', _, _, rfl, rfl, hR₁, .ok hS⟩
  | error e => exact hf e w₁ D₁ D₁' hR₁

theorem alike_transaction {body : Tx Db Write E α} {body' : Tx Db Write E α'}
    (h : Tx.Alike R S body body') :
    Alike world R S (transaction body : Proc Db Write E Ans α) (transaction body') :=
  fun w D D' hR => by
    have hout := h D D' hR
    rcases hx : body.run D [] with e | ⟨a, L⟩ <;> rcases hy : body'.run D' [] with e' | ⟨a', L'⟩ <;>
      rw [hx, hy] at hout
    · cases hout
      exact ⟨w, D, D', _, _, play_of_run_error hx, play_of_run_error hy, hR, .error e⟩
    · cases hout
    · cases hout
    · cases hout with
      | ok hS => exact ⟨w, _, _, _, _, play_of_run_ok hx, play_of_run_ok hy, hS.2, .ok hS.1⟩

/-- Requests that are alike with equal results leave one world and one result. -/
theorem Alike.play_eq {p q : Proc Db Write E Ans α} (h : Alike world R (· = ·) p q) {w : W}
    {D D' : Db} (hR : R D D') :
    (p.play world w D).1 = (q.play world w D').1 ∧
      (p.play world w D).2.2 = (q.play world w D').2.2 := by
  obtain ⟨w₁, D₁, D₁', r, r', hp, hq, -, hout⟩ := h w D D' hR
  rw [hp, hq]
  exact ⟨rfl, hout.eq⟩

end Proc

end TaroTria.Transactions
