import TaroTria.Transactions.Delegate

/-!
# Transactions as single steps

A coarser reading of the same programs: a transaction runs to its end in one
step, so that requests interleave only between transactions. A step may fail,
and it may succeed without its answer arriving.

## Implementation notes

The rules for `Tx.wp` are used here too: a body that runs alone reads the rows
it commits to, which is the discipline `still`.
-/

namespace TaroTria.Transactions

variable {Db Write Ref E Q Call α β : Type} {Ans : Q → Type} [RowStore Db Write Ref]

namespace Tx

/-- The value of a body run at `D` after the writes `L`, and all writes then made. -/
def run (D : Db) : Tx Db Write E α → List Write → Except E (α × List Write)
  | ret a, L => .ok (a, L)
  | throw e, _ => .error e
  | stmt s next, L =>
      match s (view L D) with
      | .ok (b, ws) => (next b).run D (L ++ ws)
      | .error e => .error e

@[simp] theorem run_ret (D : Db) (a : α) (L : List Write) :
    (ret a : Tx Db Write E α).run D L = .ok (a, L) := rfl

@[simp] theorem run_throw (D : Db) (e : E) (L : List Write) :
    (throw e : Tx Db Write E α).run D L = .error e := rfl

theorem run_bind (D : Db) (p : Tx Db Write E α) (f : α → Tx Db Write E β) (L : List Write) :
    (p >>= f).run D L = (p.run D L).bind fun r => (f r.1).run D r.2 := by
  induction p generalizing L with
  | ret a => rfl
  | throw e => rfl
  | stmt s next ih =>
      simp only [stmt_bind, run]
      split
      · exact ih _ _
      · rfl

end Tx

/-- The discipline of a body that runs alone. -/
def still : Discipline Db Write Ref Unit where
  Mono D D' := D = D'
  mono_refl _ := rfl
  mono_trans := Eq.trans
  Inv _ := True
  inv_mono _ _ := trivial
  Effect _ D L := D = view L D
  mono_effect h := h

/-- What the rules say of a body holds of its run. -/
theorem Tx.run_of_wp_inv {G : Discipline Db Write Ref Call} {D : Db} (hI : G.Inv D)
    {P : α → List Write → Prop} {p : Tx Db Write E α} {L L' : List Write} {a : α}
    (h : p.wp G D P L) (hr : p.run D L = .ok (a, L')) : P a L' := by
  induction p generalizing L with
  | ret b =>
      cases hr
      exact h
  | throw e => cases hr
  | stmt s next ih =>
      simp only [run] at hr
      split at hr
      · rename_i b ws hs
        exact ih b (h D b ws (G.earlier_refl _ hI) hs) hr
      · cases hr

theorem Tx.run_of_wp {D : Db} {P : α → List Write → Prop} {p : Tx Db Write E α}
    {L L' : List Write} {a : α} (h : p.wp still D P L) (hr : p.run D L = .ok (a, L')) :
    P a L' :=
  Tx.run_of_wp_inv (G := still) trivial h hr

/-- The rows of a list are updated one after the other. -/
theorem Delegate.wp_updateEach_still {K V : Type} [DecidableEq K] {M : Delegate Db K V} {D : Db}
    {p : K → V → Bool} {f : V → V} {P : Unit → List Write → Prop} {rows : List (K × V)}
    {L : List Write} (hnodup : (rows.map Prod.fst).Nodup)
    (hrows : ∀ k v, (k, v) ∈ rows → M.find (view L D) k = some v ∧ p k v = true)
    (h : P () (L ++ rows.map fun e => M.write e.1 (some (f e.2)))) :
    (M.updateEach p f (rows.map Prod.fst) : Tx Db Write E Unit).wp still D P L := by
  induction rows generalizing L with
  | nil => simpa [updateEach] using h
  | cons e rows ih =>
      obtain ⟨k, v⟩ := e
      obtain ⟨hfind, hp⟩ := hrows k v List.mem_cons_self
      simp only [List.map_cons, List.nodup_cons] at hnodup
      simp only [List.map_cons, updateEach]
      apply Tx.wp_bind
      apply M.wp_updateMany
      · rintro D₀ ⟨-, rfl, -⟩ hnot
        simp [hnot v hfind] at hp
      · intro v' hfind' _
        obtain rfl : v = v' := Option.some.inj (hfind.symm.trans hfind')
        refine ih hnodup.2 (fun k' v' hmem => ?_) (by simpa using h)
        have hne : k' ≠ k := by
          rintro rfl
          exact hnodup.1 (List.mem_map_of_mem (f := Prod.fst) hmem)
        obtain ⟨hfind'', hp'⟩ := hrows k' v' (List.mem_cons_of_mem _ hmem)
        refine ⟨?_, hp'⟩
        rw [find, view_append, view_cons, view_nil, M.rows_apply, Table.lookup_write_of_ne _ _ hne]
        exact hfind''

/-- An update of a whole `where` clause that runs alone. -/
theorem Delegate.wp_updateAll_still {K V : Type} [DecidableEq K] {M : Delegate Db K V} {D : Db}
    {p : K → V → Bool} {f : V → V} {P : Unit → List Write → Prop} {L : List Write}
    (h : P () (L ++ ((M.rows (view L D)).findMany p).map fun e => M.write e.1 (some (f e.2)))) :
    (M.updateAll p f : Tx Db Write E Unit).wp still D P L := by
  unfold updateAll
  apply Tx.wp_bind
  apply M.wp_findMany
  rintro D₀ ⟨-, rfl, -⟩
  exact wp_updateEach_still (Table.nodup_keys_findMany _ _)
    (fun k v hmem => (Table.mem_findMany _ _ _ _).mp hmem) h

/-- What becomes of one step: it is made, it is made but its answer is lost, or
it fails. -/
inductive Fate
  | done | lost | failed
  deriving DecidableEq, Repr

section Steps

variable [SqlError E]

/-- The writes of a transaction at `D`, and what its request sees of it. -/
def Tx.outcome (D : Db) (p : Tx Db Write E α) : Fate → List Write × Except E α
  | .failed => ([], .error SqlError.fault)
  | .done =>
      match p.run D [] with
      | .ok (a, L) => (L, .ok a)
      | .error e => ([], .error e)
  | .lost =>
      match p.run D [] with
      | .ok (_, L) => (L, .error SqlError.fault)
      | .error e => ([], .error e)

/-- What a request sees of a call to the outside world. -/
def Fate.reply (fate : Fate) (a : α) : Except E α :=
  if fate = .done then .ok a else .error SqlError.fault

/-- The writes of an outcome are none, or those of the whole run. -/
theorem Tx.outcome_writes (D : Db) (p : Tx Db Write E α) (fate : Fate) :
    (p.outcome D fate).1 = [] ∨ ∃ a, p.run D [] = .ok (a, (p.outcome D fate).1) := by
  cases hr : p.run D [] with
  | error e => cases fate <;> simp [outcome, hr]
  | ok r =>
      cases fate with
      | failed => exact .inl rfl
      | done => exact .inr ⟨r.1, by simp [outcome, hr]⟩
      | lost => exact .inr ⟨r.1, by simp [outcome, hr]⟩

namespace Proc

/-- One step of a request at `D`: the rows it writes and what is left to run. -/
def step (D : Db) (fate : Fate) (answer : (q : Q) → Ans q) :
    Proc Db Write E Ans α → List Write × Proc Db Write E Ans α
  | ret a => ([], ret a)
  | throw e => ([], throw e)
  | tx body next => ((body.outcome D fate).1, next (body.outcome D fate).2)
  | ask q next => ([], next (fate.reply (answer q)))

/-- The surroundings of a request that runs alone: the fate of each of its
steps, where nothing means that the process dies there, and the answers it gets. -/
structure Surroundings (Ans : Q → Type) where
  fate : Nat → Option Fate
  answer : Nat → (q : Q) → Ans q

/-- A request run alone from its step `n` on: the rows it leaves and its result. -/
def exec (env : Surroundings Ans) :
    Proc Db Write E Ans α → Nat → Db → Db × Except E α
  | ret a, _, D => (D, .ok a)
  | throw e, _, D => (D, .error e)
  | tx body next, n, D =>
      match env.fate n with
      | none => (D, .error SqlError.fault)
      | some fate =>
          (next (body.outcome D fate).2).exec env (n + 1) (view (body.outcome D fate).1 D)
  | ask q next, n, D =>
      match env.fate n with
      | none => (D, .error SqlError.fault)
      | some fate => (next (fate.reply (env.answer n q))).exec env (n + 1) D

end Proc

end Steps

namespace Proc

/-- Every transaction of the request, whenever it runs, makes writes that satisfy `K`. -/
def Every (K : Db → List Write → Prop) : Proc Db Write E Ans α → Prop
  | ret _ => True
  | throw _ => True
  | tx body next =>
      (∀ D a L, body.run D [] = .ok (a, L) → K D L) ∧ ∀ r, (next r).Every K
  | ask _ next => ∀ r, (next r).Every K

variable {K : Db → List Write → Prop}

theorem Every.mono {K' : Db → List Write → Prop} (hK : ∀ D L, K D L → K' D L)
    {p : Proc Db Write E Ans α} (h : p.Every K) : p.Every K' := by
  induction p with
  | ret a => trivial
  | throw e => trivial
  | tx body next ih => exact ⟨fun D a L hr => hK D L (h.1 D a L hr), fun r => ih r (h.2 r)⟩
  | ask q next ih => exact fun r => ih r (h r)

theorem every_of_forall (h : ∀ D L, K D L) (p : Proc Db Write E Ans α) : p.Every K := by
  induction p with
  | ret a => trivial
  | throw e => trivial
  | tx body next ih => exact ⟨fun D _ L _ => h D L, ih⟩
  | ask q next ih => exact ih

theorem Every.bind {p : Proc Db Write E Ans α} {f : α → Proc Db Write E Ans β} (h : p.Every K)
    (hf : ∀ a, (f a).Every K) : (p >>= f).Every K := by
  induction p with
  | ret a => exact hf a
  | throw e => trivial
  | tx body next ih => exact ⟨h.1, fun r => ih r (h.2 r)⟩
  | ask q next ih => exact fun r => ih r (h r)

theorem Every.handle {p : Proc Db Write E Ans α} {f : E → Proc Db Write E Ans α}
    (h : p.Every K) (hf : ∀ e, (f e).Every K) : (p.handle f).Every K := by
  induction p with
  | ret a => trivial
  | throw e => exact hf e
  | tx body next ih => exact ⟨h.1, fun r => ih r (h.2 r)⟩
  | ask q next ih => exact fun r => ih r (h r)

theorem every_ofExcept (x : Except E α) :
    (ofExcept x : Proc Db Write E Ans α).Every K := by
  cases x <;> trivial

theorem every_call (q : Q) : (call q : Proc Db Write E Ans (Ans q)).Every K :=
  fun r => every_ofExcept r

/-- The rule for a transaction whose error is raised. -/
theorem every_transaction {body : Tx Db Write E α}
    (h : ∀ D, body.wp still D (fun _ L => K D L) []) :
    (transaction body : Proc Db Write E Ans α).Every K :=
  ⟨fun D _ _ hr => Tx.run_of_wp (P := fun _ L => K D L) (h D) hr, fun r => every_ofExcept r⟩

theorem every_select (hnil : ∀ D, K D []) (f : Db → β) :
    (transaction (Tx.select f) : Proc Db Write E Ans β).Every K :=
  every_transaction fun D => Tx.wp_select fun _ _ => hnil D

theorem every_selectOrThrow [SqlError E] (hnil : ∀ D, K D []) (f : Db → Option β) :
    (transaction (Tx.selectOrThrow f) : Proc Db Write E Ans β).Every K :=
  every_transaction fun D => Tx.wp_selectOrThrow fun _ _ _ _ => hnil D

theorem every_forM {f : β → Proc Db Write E Ans PUnit} {l : List β}
    (h : ∀ b ∈ l, (f b).Every K) : (l.forM f).Every K := by
  induction l with
  | nil => trivial
  | cons b l ih =>
      apply (h b List.mem_cons_self).bind
      exact fun _ => ih fun b' hb' => h b' (List.mem_cons_of_mem b hb')

theorem Every.outcome [SqlError E] {body : Tx Db Write E β}
    {next : Except E β → Proc Db Write E Ans α} (h : (tx body next).Every K)
    (hnil : ∀ D, K D []) (D : Db) (fate : Fate) :
    K D (body.outcome D fate).1 ∧ (next (body.outcome D fate).2).Every K := by
  refine ⟨?_, h.2 _⟩
  rcases body.outcome_writes D fate with hw | ⟨a, hr⟩
  · rw [hw]
    exact hnil D
  · exact h.1 D a _ hr

theorem Every.step [SqlError E] {p : Proc Db Write E Ans α} (h : p.Every K)
    (hnil : ∀ D, K D []) (D : Db) (fate : Fate) (answer : (q : Q) → Ans q) :
    K D (p.step D fate answer).1 ∧ (p.step D fate answer).2.Every K := by
  cases p with
  | ret a => exact ⟨hnil D, trivial⟩
  | throw e => exact ⟨hnil D, trivial⟩
  | tx body next => exact Every.outcome h hnil D fate
  | ask q next => exact ⟨hnil D, h _⟩

end Proc

end TaroTria.Transactions
