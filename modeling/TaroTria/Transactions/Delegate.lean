import TaroTria.Transactions.Stability
import TaroTria.Transactions.Table

/-!
# Statements on one table

A delegate is the access path to one table of a database: its rows, the writes
that store or remove a row, and the lock of each row. Its statements are the
usual ones by unique key. Each has one rule for `Tx.wp`: whatever a statement
writes, it found in the database that its transaction commits to.
-/

namespace TaroTria.Transactions

variable {Db Write Ref E Call K V α : Type} [RowStore Db Write Ref] [DecidableEq K]

/-- The access path to one table. -/
structure Delegate (Db : Type) {Write Ref : Type} [RowStore Db Write Ref] (K V : Type)
    [DecidableEq K] where
  rows : Db → Table K V
  write : K → Option V → Write
  key : K → Ref
  ref_write : ∀ k v, RowStore.ref Db (write k v) = key k
  rows_apply : ∀ k v D, rows (RowStore.apply (write k v) D) = (rows D).write k v
  agree_iff : ∀ k D D', RowStore.Agree (key k) D D' ↔ (rows D).lookup k = (rows D').lookup k

namespace Delegate

variable (M : Delegate Db K V)

/-- The row under a key. -/
def find (D : Db) (k : K) : Option V := (M.rows D).lookup k

def findUnique (k : K) : Tx Db Write E (Option V) := Tx.select fun D => M.find D k

/-- The rows satisfying a `where` clause, in no promised order. -/
def findMany (p : K → V → Bool) : Tx Db Write E (List (K × V)) :=
  Tx.select fun D => (M.rows D).findMany p

def count (p : K → V → Bool) : Tx Db Write E Nat :=
  Tx.select fun D => ((M.rows D).findMany p).length

section Errors

variable [SqlError E]

def findUniqueOrThrow (k : K) : Tx Db Write E V := Tx.selectOrThrow fun D => M.find D k

/-- Insert a row; its key must be new. -/
def create (k : K) (v : V) : Tx Db Write E V :=
  .stmt (fun D => match M.find D k with
    | none => .ok (v, [M.write k (some v)])
    | some _ => .error SqlError.uniqueViolation) .ret

/-- Update the row under a key, which must exist, and return it. -/
def update (k : K) (f : V → V) : Tx Db Write E V :=
  .stmt (fun D => match M.find D k with
    | some v => .ok (f v, [M.write k (some (f v))])
    | none => .error SqlError.recordNotFound) .ret

/-- `update`, where the new row may leave the range of its columns: then the database
raises an error. -/
def updateWithin (fits : V → Bool) (k : K) (f : V → V) : Tx Db Write E V :=
  .stmt (fun D => match M.find D k with
    | some v => if fits (f v) then .ok (f v, [M.write k (some (f v))]) else .error SqlError.fault
    | none => .error SqlError.recordNotFound) .ret

end Errors

/-- Update the row under a key if it satisfies `p`; the count of updated rows. -/
def updateMany (k : K) (p : V → Bool) (f : V → V) : Tx Db Write E Nat :=
  .stmt (fun D => match M.find D k with
    | some v => if p v then .ok (1, [M.write k (some (f v))]) else .ok (0, [])
    | none => .ok (0, [])) .ret

/-- Update the rows under these keys that satisfy `p`, one after the other. -/
def updateEach (p : K → V → Bool) (f : V → V) : List K → Tx Db Write E Unit
  | [] => .ret ()
  | k :: ks => do
      let _ ← M.updateMany k (p k) f
      updateEach p f ks

/-- `updateMany` by a `where` clause: the rows are chosen when the statement starts, and
each is locked and looked at again before it is written. -/
def updateAll (p : K → V → Bool) (f : V → V) : Tx Db Write E Unit := do
  let rows ← M.findMany p
  M.updateEach p f (rows.map Prod.fst)

/-- Update the row under a key, or insert one. -/
def upsert (k : K) (v : V) (f : V → V) : Tx Db Write E V :=
  .stmt (fun D => match M.find D k with
    | some v' => .ok (f v', [M.write k (some (f v'))])
    | none => .ok (v, [M.write k (some v)])) .ret

variable {G : Discipline Db Write Ref Call} {D : Db} {L : List Write}
variable {k : K} {v : V}

/-- A row that the log has written reads the same now and at the commit. -/
theorem find_view_eq {D₀ : Db} (h : G.Earlier L D₀ D) {r : Option V}
    (hw : M.write k r ∈ L) (L' : List Write) :
    M.find (view L' D₀) k = M.find (view L' D) k := by
  have ha := h.agree hw L'
  rw [M.ref_write] at ha
  exact (M.agree_iff k _ _).mp ha

theorem find_view_last {D₀ : Db} {r : Option V}
    (h : G.Earlier (L ++ [M.write k r]) D₀ D) :
    M.find (view L D₀) k = M.find (view L D) k :=
  M.find_view_eq h (List.mem_append_right L List.mem_cons_self) L

/-- The rows of a list stored anew: other keys keep their rows. -/
theorem lookup_view_map_of_notMem (f : V → V) {rows : List (K × V)} (h : ∀ v, (k, v) ∉ rows)
    (D : Db) : (M.rows (view (rows.map fun e => M.write e.1 (some (f e.2))) D)).lookup k =
      (M.rows D).lookup k := by
  induction rows generalizing D with
  | nil => rfl
  | cons e rows ih =>
      have hne : k ≠ e.1 := by
        rintro rfl
        exact h e.2 List.mem_cons_self
      simp only [List.map_cons, view_cons]
      rw [ih (fun v hv => h v (List.mem_cons_of_mem e hv)), M.rows_apply,
        Table.lookup_write_of_ne _ _ hne]

/-- The rows of a list stored anew: a key that the list has once gets its own row. -/
theorem lookup_view_map (f : V → V) {rows : List (K × V)} (hmem : (k, v) ∈ rows)
    (hunique : ∀ v', (k, v') ∈ rows → v' = v) (D : Db) :
    (M.rows (view (rows.map fun e => M.write e.1 (some (f e.2))) D)).lookup k = some (f v) := by
  induction rows generalizing D with
  | nil => cases hmem
  | cons e rows ih =>
      by_cases hlater : (k, v) ∈ rows
      · exact ih hlater (fun w hw => hunique w (List.mem_cons_of_mem e hw)) _
      · obtain rfl : e = (k, v) := by
          rcases List.mem_cons.mp hmem with heq | hold
          · exact heq.symm
          · exact absurd hold hlater
        simp only [List.map_cons, view_cons]
        rw [M.lookup_view_map_of_notMem f, M.rows_apply, Table.lookup_write_self]
        intro v' hv'
        exact hlater (hunique v' (List.mem_cons_of_mem _ hv') ▸ hv')

/-- What the update of a `where` clause leaves under each key. -/
theorem lookup_view_findMany (p : K → V → Bool) (f : V → V) (k : K) (D : Db) :
    (M.rows (view (((M.rows D).findMany p).map fun e => M.write e.1 (some (f e.2))) D)).lookup k =
      ((M.rows D).lookup k).map fun v => if p k v then f v else v := by
  cases hv : (M.rows D).lookup k with
  | none =>
      rw [M.lookup_view_map_of_notMem f (fun v hmem => ?_) D, hv]
      · rfl
      · cases hv.symm.trans ((Table.mem_findMany _ _ _ _).mp hmem).1
  | some v =>
      by_cases hp : p k v = true
      · have hmem := (Table.mem_findMany (M.rows D) p k v).mpr ⟨hv, hp⟩
        rw [M.lookup_view_map f hmem (fun v' hmem' => ?_) D]
        · simp [hp]
        · exact Option.some.inj (((Table.mem_findMany _ _ _ _).mp hmem').1.symm.trans hv)
      · rw [M.lookup_view_map_of_notMem f (fun v' hmem => ?_) D, hv]
        · simp [hp]
        · obtain ⟨hv', hp'⟩ := (Table.mem_findMany _ _ _ _).mp hmem
          exact hp (Option.some.inj (hv.symm.trans hv') ▸ hp')

theorem wp_findUnique {P : Option V → List Write → Prop}
    (h : ∀ D₀, G.Earlier L D₀ D → P (M.find (view L D₀) k) L) :
    (M.findUnique k : Tx Db Write E (Option V)).wp G D P L :=
  Tx.wp_select h

theorem wp_findMany {p : K → V → Bool} {P : List (K × V) → List Write → Prop}
    (h : ∀ D₀, G.Earlier L D₀ D → P ((M.rows (view L D₀)).findMany p) L) :
    (M.findMany p : Tx Db Write E (List (K × V))).wp G D P L :=
  Tx.wp_select h

variable [SqlError E]

theorem wp_findUniqueOrThrow {P : V → List Write → Prop}
    (h : ∀ D₀ v, G.Earlier L D₀ D → M.find (view L D₀) k = some v → P v L) :
    (M.findUniqueOrThrow k : Tx Db Write E V).wp G D P L :=
  Tx.wp_selectOrThrow h

/-- Reading back a row that the transaction has written. -/
theorem wp_findUniqueOrThrow_own {P : V → List Write → Prop} {r : Option V}
    (hw : M.write k r ∈ L) (h : ∀ v, M.find (view L D) k = some v → P v L) :
    (M.findUniqueOrThrow k : Tx Db Write E V).wp G D P L := by
  apply M.wp_findUniqueOrThrow
  intro D₀ v he hf
  exact h v (by rw [← M.find_view_eq he hw L, hf])

theorem wp_create {P : V → List Write → Prop}
    (h : M.find (view L D) k = none → P v (L ++ [M.write k (some v)])) :
    (M.create k v : Tx Db Write E V).wp G D P L := by
  intro D₀ b ws he hs
  cases hf : M.find (view L D₀) k with
  | some v' => simp [hf] at hs
  | none =>
      simp only [hf, Except.ok.injEq, Prod.mk.injEq] at hs
      obtain ⟨rfl, rfl⟩ := hs
      exact h (by rw [← M.find_view_last he, hf])

theorem wp_update {f : V → V} {P : V → List Write → Prop}
    (h : ∀ v, M.find (view L D) k = some v → P (f v) (L ++ [M.write k (some (f v))])) :
    (M.update k f : Tx Db Write E V).wp G D P L := by
  intro D₀ b ws he hs
  cases hf : M.find (view L D₀) k with
  | none => simp [hf] at hs
  | some v =>
      simp only [hf, Except.ok.injEq, Prod.mk.injEq] at hs
      obtain ⟨rfl, rfl⟩ := hs
      exact h v (by rw [← M.find_view_last he, hf])

theorem wp_updateWithin {fits : V → Bool} {f : V → V} {P : V → List Write → Prop}
    (h : ∀ v, M.find (view L D) k = some v → fits (f v) = true →
      P (f v) (L ++ [M.write k (some (f v))])) :
    (M.updateWithin fits k f : Tx Db Write E V).wp G D P L := by
  intro D₀ b ws he hs
  cases hf : M.find (view L D₀) k with
  | none => simp [hf] at hs
  | some v =>
      simp only [hf] at hs
      split at hs
      · rename_i hfits
        simp only [Except.ok.injEq, Prod.mk.injEq] at hs
        obtain ⟨rfl, rfl⟩ := hs
        exact h v (by rw [← M.find_view_last he, hf]) hfits
      · cases hs

omit [SqlError E] in
theorem wp_updateMany {p : V → Bool} {f : V → V} {P : Nat → List Write → Prop}
    (h₀ : ∀ D₀, G.Earlier L D₀ D →
      (∀ v, M.find (view L D₀) k = some v → p v = false) → P 0 L)
    (h₁ : ∀ v, M.find (view L D) k = some v → p v = true →
      P 1 (L ++ [M.write k (some (f v))])) :
    (M.updateMany k p f : Tx Db Write E Nat).wp G D P L := by
  intro D₀ b ws he hs
  cases hf : M.find (view L D₀) k with
  | none =>
      simp only [hf, Except.ok.injEq, Prod.mk.injEq] at hs
      obtain ⟨rfl, rfl⟩ := hs
      simp only [List.append_nil] at he
      simpa only [List.append_nil, Tx.wp_ret] using h₀ D₀ he (by simp [hf])
  | some v =>
      simp only [hf] at hs
      split at hs
      · rename_i hp
        simp only [Except.ok.injEq, Prod.mk.injEq] at hs
        obtain ⟨rfl, rfl⟩ := hs
        exact h₁ v (by rw [← M.find_view_last he, hf]) hp
      · rename_i hp
        simp only [Except.ok.injEq, Prod.mk.injEq] at hs
        obtain ⟨rfl, rfl⟩ := hs
        simp only [List.append_nil] at he
        simpa only [List.append_nil, Tx.wp_ret] using
          h₀ D₀ he (by simpa [hf] using hp)

omit [SqlError E] in
/-- What every single update of a list of keys keeps. -/
theorem wp_updateEach {p : K → V → Bool} {f : V → V} {I : List Write → Prop} {ks : List K}
    (hI : I L) (keep : ∀ k v L, k ∈ ks → I L → M.find (view L D) k = some v →
      I (L ++ [M.write k (some (f v))])) :
    (M.updateEach p f ks : Tx Db Write E Unit).wp G D (fun _ => I) L := by
  induction ks generalizing L with
  | nil => exact hI
  | cons k ks ih =>
      have tail : ∀ {L}, I L → (M.updateEach p f ks : Tx Db Write E Unit).wp G D (fun _ => I) L :=
        fun hI => ih hI fun k' v L hk' => keep k' v L (List.mem_cons_of_mem k hk')
      apply Tx.wp_bind
      refine M.wp_updateMany (fun _ _ _ => tail hI) fun v hv _ => ?_
      exact tail (keep k v L List.mem_cons_self hI hv)

omit [SqlError E] in
theorem wp_upsert {f : V → V} {P : V → List Write → Prop}
    (h₀ : M.find (view L D) k = none → P v (L ++ [M.write k (some v)]))
    (h₁ : ∀ v', M.find (view L D) k = some v' → P (f v') (L ++ [M.write k (some (f v'))])) :
    (M.upsert k v f : Tx Db Write E V).wp G D P L := by
  intro D₀ b ws he hs
  cases hf : M.find (view L D₀) k with
  | none =>
      simp only [hf, Except.ok.injEq, Prod.mk.injEq] at hs
      obtain ⟨rfl, rfl⟩ := hs
      exact h₀ (by rw [← M.find_view_last he, hf])
  | some v' =>
      simp only [hf, Except.ok.injEq, Prod.mk.injEq] at hs
      obtain ⟨rfl, rfl⟩ := hs
      exact h₁ v' (by rw [← M.find_view_last he, hf])

end Delegate

end TaroTria.Transactions
