import TaroTria.Transactions.SharedWorld

/-!
# Lists beside their database

A cache keeps computed values beside the database that they are computed from.
A read answers with the entry that it finds, and otherwise loads the value, stores
it for some time and answers with it. An update commits its change and then deletes
the entry. Any number of reads and updates run at the same time, their calls may
fail, their processes may die, and entries may be evicted at any time.
-/

namespace TaroTria.Transactions

/-- The calls on a cache. -/
inductive CacheQuery (K V : Type)
  | get (k : K)
  | set (k : K) (v : V) (ttl : Nat)
  | del (k : K)

/-- Their answers. -/
abbrev CacheAnswer {K V : Type} : CacheQuery K V → Type
  | .get _ => Option V
  | .set _ _ _ => Unit
  | .del _ => Unit

namespace CacheAside

variable {Db Write Ref E K V Call : Type}

structure Entry (V : Type) where
  value : V
  expiresAt : Nat

/-- The entries and the clock, which both count in the unit of the lifetimes. -/
structure Cache (K V : Type) where
  entries : K → Option (Entry V)
  now : Nat

namespace Cache

variable [DecidableEq K]

/-- A cache without entries. -/
def empty (now : Nat) : Cache K V := ⟨fun _ => none, now⟩

/-- The value under a key, while its entry is alive. -/
def get (w : Cache K V) (k : K) : Option V :=
  (w.entries k).bind fun e => if w.now < e.expiresAt then some e.value else none

def put (w : Cache K V) (k : K) (v : V) (ttl : Nat) : Cache K V :=
  { w with entries := Function.update w.entries k (some ⟨v, w.now + ttl⟩) }

def drop (w : Cache K V) (k : K) : Cache K V :=
  { w with entries := Function.update w.entries k none }

/-- What a call answers and leaves when it is made. -/
def answer (w : Cache K V) : (q : CacheQuery K V) → CacheAnswer q × Cache K V
  | .get k => (w.get k, w)
  | .set k v ttl => ((), w.put k v ttl)
  | .del k => ((), w.drop k)

/-- Time goes by, and entries may be evicted. -/
def Passes (w w' : Cache K V) : Prop :=
  w.now ≤ w'.now ∧ ∀ k, w'.entries k = w.entries k ∨ w'.entries k = none

omit [DecidableEq K] in
theorem entry_of_get {w : Cache K V} {k : K} {v : V} (h : w.get k = some v) :
    ∃ e, w.entries k = some e ∧ e.value = v ∧ w.now < e.expiresAt := by
  unfold get at h
  obtain ⟨e, he, hv⟩ := Option.bind_eq_some_iff.mp h
  split at hv
  · exact ⟨e, he, Option.some.inj hv, ‹_›⟩
  · cases hv

/-- A stored value is found while it is alive. -/
theorem get_put (w : Cache K V) (k : K) (v : V) {ttl : Nat} (h : 0 < ttl) :
    (w.put k v ttl).get k = some v := by
  simp [get, put, h]

end Cache

/-- A call is made, is made and its answer is lost, or fails. -/
def Replies [DecidableEq K] [SqlError E] (q : CacheQuery K V) (w : Cache K V)
    (r : Except E (CacheAnswer q)) (w' : Cache K V) : Prop :=
  ∃ fate : Fate, r = fate.reply (w.answer q).1 ∧
    w' = if fate = .failed then w else (w.answer q).2

section Programs

variable (load : Db → Except E V) (k : K) (ttl : Nat)

def cacheGet : Proc Db Write E (CacheAnswer (K := K) (V := V)) (Option V) :=
  Proc.call (CacheQuery.get k)

def cacheSet (v : V) : Proc Db Write E (CacheAnswer (K := K) (V := V)) Unit :=
  Proc.call (CacheQuery.set k v ttl)

variable (V) in
def cacheDel : Proc Db Write E (CacheAnswer (K := K) (V := V)) Unit :=
  Proc.call (CacheQuery.del k)

/-- The transaction that loads a value. -/
def loadTx : Tx Db Write E V := .stmt (fun D => (load D).map fun v => (v, [])) .ret

/-- Store a loaded value and answer with it. -/
def storing (v : V) : Proc Db Write E (CacheAnswer (K := K) (V := V)) (Option V) := do
  cacheSet k ttl v
  return some v

/-- Load a value that the cache does not have. -/
def loading : Proc Db Write E (CacheAnswer (K := K) (V := V)) (Option V) := do
  let v ← Proc.transaction (loadTx load)
  storing k ttl v

/-- A read through the cache. -/
def reading : Proc Db Write E (CacheAnswer (K := K) (V := V)) (Option V) := do
  match ← cacheGet k with
  | some cached => return some cached
  | none => loading load k ttl

end Programs

section Updates

variable [RowStore Db Write Ref] (load : K → Db → Except E V)

/-- An update that owes the deletion of an entry makes it next; otherwise it runs
transactions, each of which changes at most the one value whose deletion it then owes. -/
def Updates : Option K → Proc Db Write E (CacheAnswer (K := K) (V := V)) (Option V) → Prop
  | none, .ret a => a = none
  | none, .throw _ => True
  | none, .tx body next => (∀ e, Updates none (next (.error e))) ∧
      ∀ D a L, body.run D [] = .ok (a, L) → ∃ owed,
        (∀ k, owed ≠ some k → load k (view L D) = load k D) ∧ Updates owed (next (.ok a))
  | none, .ask _ _ => False
  | some k, .ask q next => q = .del k ∧ ∀ r, Updates none (next r)
  | some _, .ret _ => False
  | some _, .throw _ => False
  | some _, .tx _ _ => False

variable {load : K → Db → Except E V}

/-- An update reads. -/
theorem Updates.select {β : Type} {f : Db → β}
    {next : β → Proc Db Write E (CacheAnswer (K := K) (V := V)) (Option V)}
    (h : ∀ b, Updates load none (next b)) :
    Updates load none (Proc.transaction (Tx.select f) >>= next) := by
  refine ⟨fun e => trivial, fun D b L hrun => ?_⟩
  simp only [Tx.select, Tx.run, view_nil, List.append_nil, Except.ok.injEq, Prod.mk.injEq] at hrun
  obtain ⟨rfl, rfl⟩ := hrun
  exact ⟨none, fun _ _ => rfl, h _⟩

/-- An update commits a change of one value and owes the deletion of its entry. -/
theorem Updates.commit {β : Type} {body : Tx Db Write E β} {k : K}
    {next : β → Proc Db Write E (CacheAnswer (K := K) (V := V)) (Option V)}
    (hbody : ∀ D a L, body.run D [] = .ok (a, L) → ∀ k', k' ≠ k → load k' (view L D) = load k' D)
    (h : ∀ b, Updates load (some k) (next b)) :
    Updates load none (Proc.transaction body >>= next) := by
  refine ⟨fun e => trivial, fun D b L hrun => ⟨some k, fun k' hk' => ?_, h b⟩⟩
  exact hbody D b L hrun k' fun heq => hk' (heq ▸ rfl)

/-- An update makes the deletion that it owes. -/
theorem Updates.delete {k : K}
    {next : Unit → Proc Db Write E (CacheAnswer (K := K) (V := V)) (Option V)}
    (h : Updates load none (next ())) :
    Updates load (some k) (cacheDel V k >>= next) := by
  refine ⟨rfl, fun r => ?_⟩
  cases r with
  | ok u => exact h
  | error e => trivial

end Updates

/-- Cached values: how each is loaded and for how long it is kept, the calls that
read one, and the calls that update the database. -/
structure Scheme (Db Write : Type) {Ref : Type} (E K V Call : Type) [RowStore Db Write Ref] where
  load : K → Db → Except E V
  ttl : K → Nat
  reads : Call → Option K
  prog : Call → Proc Db Write E (CacheAnswer (K := K) (V := V)) (Option V)
  reading : ∀ c k, reads c = some k → prog c = reading (load k) k (ttl k)
  updating : ∀ c, reads c = none → Updates load none (prog c)

variable [DecidableEq K] [RowStore Db Write Ref] [SqlError E]

/-- The service of a scheme. -/
def Scheme.service (S : Scheme Db Write E K V Call) :
    Setting Db Write E (Cache K V) Call (CacheAnswer (K := K) (V := V)) (Option V) where
  prog := S.prog
  reply := Replies
  moves := Cache.Passes
  returns _ _ w := w

/-- A state of the service. -/
abbrev State (Db Write E K V Call : Type) :=
  Scene Db Write E (Cache K V) Call (CacheAnswer (K := K) (V := V)) (Option V)

/-- One step of the service, whatever it does to the database. -/
abbrev Scheme.Step (S : Scheme Db Write E K V Call) (s s' : State Db Write E K V Call) : Prop :=
  S.service.Step (fun _ _ _ _ => True) s s'

abbrev Scheme.Reach (S : Scheme Db Write E K V Call) :
    State Db Write E K V Call → State Db Write E K V Call → Prop :=
  Relation.ReflTransGen S.Step

/-! ## The steps of a read -/

section Phases

variable (load : Db → Except E V) (k : K) (ttl : Nat) (held seen : V → Prop)

/-- Where a read stands: a value that it is about to store is `held`, one that it
answers with is `seen`. -/
inductive ReadPhase : Proc Db Write E (CacheAnswer (K := K) (V := V)) (Option V) → Prop
  | asks : ReadPhase (CacheAside.reading load k ttl)
  | loads : ReadPhase (loading load k ttl)
  | stores {v : V} (h : held v) : ReadPhase (storing k ttl v)
  | done {v : V} (h : seen v) : ReadPhase (.ret (some v))
  | failed (e : E) : ReadPhase (.throw e)

variable {load k ttl held seen}

omit [DecidableEq K] [SqlError E] in
theorem ReadPhase.of_eq {p p' : Proc Db Write E (CacheAnswer (K := K) (V := V)) (Option V)}
    (heq : p = p') (h : ReadPhase load k ttl held seen p') : ReadPhase load k ttl held seen p :=
  heq ▸ h

omit [DecidableEq K] [SqlError E] in
theorem ReadPhase.mono {held' seen' : V → Prop}
    {p : Proc Db Write E (CacheAnswer (K := K) (V := V)) (Option V)}
    (h : ReadPhase load k ttl held seen p) (hheld : ∀ v, p = storing k ttl v → held v → held' v)
    (hseen : ∀ v, seen v → seen' v) : ReadPhase load k ttl held' seen' p := by
  cases h with
  | asks => exact .asks
  | loads => exact .loads
  | stores hv => exact .stores (hheld _ rfl hv)
  | done hv => exact .done (hseen _ hv)
  | failed e => exact .failed e

omit [DecidableEq K] [SqlError E] in
/-- The only transaction of a read loads the value and writes nothing. -/
theorem ReadPhase.of_tx {β : Type} {body : Tx Db Write E β}
    {next : Except E β → Proc Db Write E (CacheAnswer (K := K) (V := V)) (Option V)}
    (h : ReadPhase load k ttl held seen (.tx body next)) :
    (∀ e, next (.error e) = .throw e) ∧ ∀ D a L, body.run D [] = .ok (a, L) →
      L = [] ∧ ∃ v, load D = .ok v ∧ next (.ok a) = storing k ttl v := by
  generalize hp : Proc.tx body next = p at h
  cases h with
  | asks => cases hp
  | stores hv => cases hp
  | done hv => cases hp
  | failed e => cases hp
  | loads =>
      cases hp
      refine ⟨fun e => rfl, fun D a L hrun => ?_⟩
      cases hload : load D with
      | error e => simp [loadTx, Tx.run, hload, Except.map] at hrun
      | ok v =>
          simp only [loadTx, Tx.run, view_nil, hload, Except.map, List.append_nil, Except.ok.injEq,
            Prod.mk.injEq] at hrun
          obtain ⟨rfl, rfl⟩ := hrun
          exact ⟨rfl, v, rfl, rfl⟩

/-- A call of a read finds its entry, or stores the value that it holds. -/
theorem ReadPhase.of_ask {q : CacheQuery K V}
    {next : Except E (CacheAnswer q) → Proc Db Write E (CacheAnswer (K := K) (V := V)) (Option V)}
    {w w' : Cache K V} {r : Except E (CacheAnswer q)}
    (h : ReadPhase load k ttl held seen (.ask q next)) (hreply : Replies q w r w') :
    (w' = w ∧ ((∃ e, next r = .throw e) ∨ (∃ v, w.get k = some v ∧ next r = .ret (some v)) ∨
        next r = loading load k ttl)) ∨
      ∃ v, held v ∧ w' = w.put k v ttl ∧ ((∃ e, next r = .throw e) ∨ next r = .ret (some v)) := by
  generalize hp : Proc.ask q next = p at h
  obtain ⟨fate, rfl, rfl⟩ := hreply
  cases h with
  | loads => cases hp
  | done hv => cases hp
  | failed e => cases hp
  | asks =>
      cases hp
      refine .inl ⟨by simp [Cache.answer], ?_⟩
      cases fate with
      | lost => exact .inl ⟨_, rfl⟩
      | failed => exact .inl ⟨_, rfl⟩
      | done =>
          cases hget : w.get k with
          | none =>
              refine .inr (.inr ?_)
              simp only [Fate.reply, Cache.answer, hget, if_true]
              rfl
          | some v =>
              refine .inr (.inl ⟨v, rfl, ?_⟩)
              simp only [Fate.reply, Cache.answer, hget, if_true]
              rfl
  | @stores v hv =>
      cases hp
      cases fate with
      | failed => exact .inl ⟨rfl, .inl ⟨_, rfl⟩⟩
      | lost => exact .inr ⟨v, hv, rfl, .inl ⟨_, rfl⟩⟩
      | done => exact .inr ⟨v, hv, rfl, .inr rfl⟩

end Phases

section Updating

variable {load : K → Db → Except E V}

omit [DecidableEq K] [SqlError E] in
theorem Updates.of_tx {owed : Option K} {β : Type} {body : Tx Db Write E β}
    {next : Except E β → Proc Db Write E (CacheAnswer (K := K) (V := V)) (Option V)}
    (h : Updates load owed (.tx body next)) :
    owed = none ∧ (∀ e, Updates load none (next (.error e))) ∧
      ∀ D a L, body.run D [] = .ok (a, L) → ∃ owed,
        (∀ k, owed ≠ some k → load k (view L D) = load k D) ∧
          Updates load owed (next (.ok a)) := by
  cases owed with
  | none => exact ⟨rfl, h⟩
  | some k => exact h.elim

omit [DecidableEq K] [SqlError E] in
/-- The only call of an update is the deletion that it owes. -/
theorem Updates.of_ask {owed : Option K} {q : CacheQuery K V}
    {next : Except E (CacheAnswer q) → Proc Db Write E (CacheAnswer (K := K) (V := V)) (Option V)}
    (h : Updates load owed (.ask q next)) :
    ∃ k, owed = some k ∧ q = .del k ∧ ∀ r, Updates load none (next r) := by
  cases owed with
  | none => exact h.elim
  | some k => exact ⟨k, rfl, h⟩

/-- The deletion removes its entry, or nothing. -/
theorem Replies.of_del {k : K} {w w' : Cache K V} {r : Except E Unit}
    (h : Replies (.del k) w r w') : w' = w ∨ w' = w.drop k := by
  obtain ⟨fate, -, rfl⟩ := h
  cases fate with
  | failed => exact .inl rfl
  | lost => exact .inr rfl
  | done => exact .inr rfl

end Updating

omit [DecidableEq K] in
/-- A request sees an error of its transaction, or the transaction has run to its end. -/
theorem outcome_cases {β : Type} (D : Db) (body : Tx Db Write E β) (fate : Fate) :
    (∃ e, (body.outcome D fate).2 = .error e) ∨ ∃ a, (body.outcome D fate).2 = .ok a ∧
      body.run D [] = .ok (a, (body.outcome D fate).1) := by
  cases hrun : body.run D [] with
  | error e => cases fate <;> simp [Tx.outcome, hrun]
  | ok out => cases fate <;> simp [Tx.outcome, hrun]

/-! ## What every step keeps -/

section Keeping

variable (S : Scheme Db Write E K V Call)

/-- A request stands where the reads or the updates of the scheme do. -/
def Scheme.Task (held seen : K → V → Prop) (c : Call)
    (p : Proc Db Write E (CacheAnswer (K := K) (V := V)) (Option V)) : Prop :=
  match S.reads c with
  | some k => ReadPhase (S.load k) k (S.ttl k) (held k) (seen k) p
  | none => ∃ owed, Updates S.load owed p

/-- What may be said of the entries, of the values that reads hold and of those that
they have seen. -/
structure View (Db Write E K V Call : Type) where
  entry : State Db Write E K V Call → K → Entry V → Prop
  held : State Db Write E K V Call → K → V → Prop
  seen : State Db Write E K V Call → K → V → Prop

/-- It is true of all of them. -/
structure View.Holds (I : View Db Write E K V Call) (s : State Db Write E K V Call) : Prop where
  entries : ∀ k e, s.world.entries k = some e → I.entry s k e
  tasks : ∀ t c p, s.tasks t = some (c, p) → S.Task (I.held s) (I.seen s) c p

/-- A step takes nothing back, and what it stores, finds or loads is as it should be. -/
structure View.Keeps (I : View Db Write E K V Call) (s s' : State Db Write E K V Call) :
    Prop where
  stays : ∀ k e, s.world.entries k = some e → s'.world.entries k = some e →
    I.entry s k e → I.entry s' k e
  holds : ∀ t c k v, s.tasks t = some (c, storing k (S.ttl k) v) → I.held s k v → I.held s' k v
  sees : ∀ k v, I.seen s k v → I.seen s' k v
  finds : ∀ k e, I.entry s k e → I.seen s k e.value
  loads : ∀ k v, S.load k s.db = .ok v → s'.db = s.db → I.held s' k v
  stores : ∀ k v, I.held s k v → s'.world = s.world.put k v (S.ttl k) → s'.db = s.db →
    I.entry s' k ⟨v, s.world.now + S.ttl k⟩ ∧ I.seen s' k v

variable {S} {I : View Db Write E K V Call} {s s' : State Db Write E K V Call}

omit [DecidableEq K] [SqlError E] in
theorem Scheme.Task.reading {held seen : K → V → Prop} {c : Call} {k : K}
    {p : Proc Db Write E (CacheAnswer (K := K) (V := V)) (Option V)} (hc : S.reads c = some k)
    (h : S.Task held seen c p) : ReadPhase (S.load k) k (S.ttl k) (held k) (seen k) p := by
  simpa only [Scheme.Task, hc] using h

omit [SqlError E] in
theorem View.Keeps.task (hk : I.Keeps S s s') {t : Nat} {c : Call}
    {p : Proc Db Write E (CacheAnswer (K := K) (V := V)) (Option V)}
    (ht : s.tasks t = some (c, p)) (h : S.Task (I.held s) (I.seen s) c p) :
    S.Task (I.held s') (I.seen s') c p := by
  unfold Scheme.Task at h ⊢
  split
  · rename_i k hc
    rw [hc] at h
    exact h.mono (fun v hp hv => hk.holds t c k v (hp ▸ ht) hv) (hk.sees k)
  · rename_i hc
    rw [hc] at h
    exact h

omit [SqlError E] in
/-- The other requests of a step stand where they stood. -/
theorem View.Holds.advance (h : I.Holds S s) (hk : I.Keeps S s s') {t : Nat}
    {task : Option (Call × Proc Db Write E (CacheAnswer (K := K) (V := V)) (Option V))}
    (htasks : s'.tasks = Function.update s.tasks t task)
    (hentries : ∀ k e, s'.world.entries k = some e → s.world.entries k = some e ∨ I.entry s' k e)
    (htask : ∀ c p, task = some (c, p) → S.Task (I.held s') (I.seen s') c p) : I.Holds S s' where
  entries k e he := by
    rcases hentries k e he with hold | hnew
    · exact hk.stays k e hold he (h.entries k e hold)
    · exact hnew
  tasks u c p hu := by
    rw [htasks] at hu
    by_cases hut : u = t
    · subst hut
      rw [Function.update_self] at hu
      exact htask c p hu
    · rw [Function.update_of_ne hut] at hu
      exact hk.task hu (h.tasks u c p hu)

/-- One step keeps what is true of the entries and of the requests. -/
theorem View.Holds.step (h : I.Holds S s) (hs : S.Step s s') (hk : I.Keeps S s s') :
    I.Holds S s' := by
  have same : ∀ k e, s.world.entries k = some e → s.world.entries k = some e ∨ I.entry s' k e :=
    fun _ _ he => .inl he
  cases hs with
  | start t c hfree =>
      refine h.advance hk rfl same fun c' p hp => ?_
      cases hp
      unfold Scheme.Task
      split
      · rename_i k hc
        exact .of_eq (S.reading c k hc) .asks
      · rename_i hc
        exact ⟨none, S.updating c hc⟩
  | @commit β body next t c htask fate hok =>
      refine h.advance hk rfl same fun c' p hp => ?_
      cases hp
      have hold := h.tasks t c _ htask
      unfold Scheme.Task at hold ⊢
      split
      · rename_i k hc
        rw [hc] at hold
        obtain ⟨herr, hdone⟩ := hold.of_tx
        rcases outcome_cases s.db body fate with ⟨e, hout⟩ | ⟨a, hout, hrun⟩
        · exact .of_eq ((congrArg next hout).trans (herr e)) (.failed e)
        · obtain ⟨hL, v, hload, hnext⟩ := hdone s.db a _ hrun
          exact .of_eq ((congrArg next hout).trans hnext)
            (.stores (hk.loads k v hload (by simp [hL])))
      · rename_i hc
        rw [hc] at hold
        obtain ⟨owed, hupdates⟩ := hold
        obtain ⟨-, herr, hdone⟩ := hupdates.of_tx
        rcases outcome_cases s.db body fate with ⟨e, hout⟩ | ⟨a, hout, hrun⟩
        · exact ⟨none, hout ▸ herr e⟩
        · obtain ⟨owed', -, hnext⟩ := hdone s.db a _ hrun
          exact ⟨owed', hout ▸ hnext⟩
  | @answer q next t c htask r w hreply hok =>
      have hold := h.tasks t c _ htask
      unfold Scheme.Task at hold
      split at hold
      · rename_i k hc
        rcases hold.of_ask hreply with ⟨rfl, hnext⟩ | ⟨v, hheld, rfl, hnext⟩
        · refine h.advance hk rfl same fun c' p hp => ?_
          cases hp
          simp only [Scheme.Task, hc]
          rcases hnext with ⟨e, hnext⟩ | ⟨v, hget, hnext⟩ | hnext
          · exact .of_eq hnext (.failed e)
          · obtain ⟨e, he, rfl, -⟩ := Cache.entry_of_get hget
            exact .of_eq hnext (.done (hk.sees k _ (hk.finds k e (h.entries k e he))))
          · exact .of_eq hnext .loads
        · obtain ⟨hentry, hseen⟩ := hk.stores k v hheld rfl rfl
          refine h.advance hk rfl (fun k' e he => ?_) fun c' p hp => ?_
          · simp only [Cache.put] at he
            by_cases hkey : k' = k
            · subst hkey
              rw [Function.update_self] at he
              cases he
              exact .inr hentry
            · rw [Function.update_of_ne hkey] at he
              exact .inl he
          · cases hp
            simp only [Scheme.Task, hc]
            rcases hnext with ⟨e, hnext⟩ | hnext
            · exact .of_eq hnext (.failed e)
            · exact .of_eq hnext (.done hseen)
      · rename_i hc
        obtain ⟨owed, hupdates⟩ := hold
        obtain ⟨k, rfl, rfl, hnext⟩ := hupdates.of_ask
        refine h.advance hk rfl (fun k' e he => ?_) fun c' p hp => ?_
        · rcases hreply.of_del with rfl | rfl
          · exact .inl he
          · simp only [Cache.drop] at he
            by_cases hkey : k' = k
            · subst hkey
              rw [Function.update_self] at he
              cases he
            · rw [Function.update_of_ne hkey] at he
              exact .inl he
        · cases hp
          simp only [Scheme.Task, hc]
          exact ⟨none, hnext r⟩
  | finish t c a htask => exact h.advance hk rfl same fun _ _ hp => by cases hp
  | stop t => exact h.advance hk rfl same fun _ _ hp => by cases hp
  | move w hmove hok =>
      refine ⟨fun k e he => ?_, fun t c p ht => hk.task ht (h.tasks t c p ht)⟩
      rcases hmove.2 k with hsame | hgone
      · have hold : s.world.entries k = some e := hsame ▸ he
        exact hk.stays k e hold he (h.entries k e hold)
      · rw [hgone] at he
        cases he

end Keeping

/-! ## Values come from the past -/

section Past

variable {S : Scheme Db Write E K V Call} {s₀ s s' : State Db Write E K V Call}

/-- Nothing is cached and nothing is being served. -/
def Idle (s : State Db Write E K V Call) : Prop :=
  (∀ k, s.world.entries k = none) ∧ ∀ t, s.tasks t = none

variable (S s₀ s) in
/-- The value has been the one to load at some moment between two states. -/
def Loaded (k : K) (v : V) : Prop :=
  ∃ s', S.Reach s₀ s' ∧ S.Reach s' s ∧ S.load k s'.db = .ok v

theorem Loaded.tail {k : K} {v : V} (h : Loaded S s₀ s k v) (step : S.Step s s') :
    Loaded S s₀ s' k v := by
  obtain ⟨s'', hpast, hsince, hload⟩ := h
  exact ⟨s'', hpast, hsince.tail step, hload⟩

theorem Step.now_le (step : S.Step s s') : s.world.now ≤ s'.world.now := by
  cases step with
  | start t c hfree => exact le_rfl
  | commit t c htask fate hok => exact le_rfl
  | finish t c a htask => exact le_rfl
  | stop t => exact le_rfl
  | move w hmove hok => exact hmove.1
  | @answer q next t c htask r w hreply hok =>
      obtain ⟨fate, -, rfl⟩ := hreply
      change s.world.now ≤ (if fate = .failed then s.world else (s.world.answer q).2).now
      split
      · exact le_rfl
      · cases q <;> exact le_rfl

variable (S s₀) in
/-- Every cached, held or seen value has been loaded, and no entry lives longer
than its lifetime. -/
def pastView : View Db Write E K V Call where
  entry s k e := Loaded S s₀ s k e.value ∧ e.expiresAt ≤ s.world.now + S.ttl k
  held s := Loaded S s₀ s
  seen s := Loaded S s₀ s

omit [DecidableEq K] [SqlError E] in
theorem Idle.holds (h : Idle s) (I : View Db Write E K V Call) : I.Holds S s where
  entries k e he := by
    rw [h.1 k] at he
    cases he
  tasks t c p ht := by
    rw [h.2 t] at ht
    cases ht

theorem pastView_holds (h₀ : Idle s₀) (run : S.Reach s₀ s) : (pastView S s₀).Holds S s := by
  induction run with
  | refl => exact h₀.holds _
  | @tail s s' run step ih =>
      have hnow := Step.now_le step
      refine ih.step step ⟨fun k e _ _ h => ⟨h.1.tail step, h.2.trans (by omega)⟩,
        fun _ _ _ _ _ h => h.tail step, fun _ _ h => h.tail step, fun _ _ h => h.1,
        fun k v hload _ => ⟨s, run, .single step, hload⟩, fun k v h hworld _ => ?_⟩
      exact ⟨⟨h.tail step, by simp [hworld, Cache.put]⟩, h.tail step⟩

/-- Whatever a read answers with was the value to load at some moment of the run. -/
theorem answer_loaded (h₀ : Idle s₀) (run : S.Reach s₀ s) {t : Nat} {c : Call} {k : K} {v : V}
    (hc : S.reads c = some k) (ht : s.tasks t = some (c, .ret (some v))) : Loaded S s₀ s k v := by
  have hphase := ((pastView_holds h₀ run).tasks t c _ ht).reading hc
  generalize hp : Proc.ret (some v) = p at hphase
  cases hphase with
  | done hv =>
      cases hp
      exact hv
  | _ => cases hp

end Past

/-! ## Entries are current when updates are not disturbed -/

section Coherence

variable {S : Scheme Db Write E K V Call} {s₀ s s' : State Db Write E K V Call}

/-- An update has committed and has not deleted the entry yet. -/
def Owing (s : State Db Write E K V Call) (k : K) : Prop :=
  ∃ t c next, s.tasks t = some (c, .ask (.del k) next)

variable (S) in
/-- A read has loaded a value and has not stored it yet. -/
def Storing (s : State Db Write E K V Call) (k : K) : Prop :=
  ∃ t c v, s.tasks t = some (c, storing k (S.ttl k) v)

variable (S) in
/-- No read holds a value across a change of it, an update whose transaction
commits learns of it, and a deletion that is owed is made. -/
structure Calm (s s' : State Db Write E K V Call) : Prop where
  unheld : ∀ k, Storing S s k → S.load k s'.db = S.load k s.db
  learned : ∀ t c (β : Type) (body : Tx Db Write E β) next e,
    s.tasks t = some (c, .tx body next) → s'.tasks t = some (c, next (.error e)) → s'.db = s.db
  deleted : ∀ t c k next, s.tasks t = some (c, .ask (.del k) next) →
    s'.tasks t = some (c, .ask (.del k) next) ∨ s'.world.entries k = none

omit [DecidableEq K] [SqlError E] in
theorem Updates.owes {load : K → Db → Except E V} {k : K}
    {p : Proc Db Write E (CacheAnswer (K := K) (V := V)) (Option V)}
    (h : Updates load (some k) p) : ∃ next, p = .ask (.del k) next := by
  cases p with
  | ask q next =>
      obtain ⟨rfl, -⟩ := h
      exact ⟨next, rfl⟩
  | _ => exact h.elim

/-- A step that changes a value leaves its deletion owed. -/
theorem Calm.load_eq_or_owing {I : View Db Write E K V Call} (h : I.Holds S s)
    (step : S.Step s s') (calm : Calm S s s') (k : K) :
    S.load k s'.db = S.load k s.db ∨ Owing s' k := by
  cases step with
  | start t c hfree => exact .inl rfl
  | answer t c htask r w hreply hok => exact .inl rfl
  | finish t c a htask => exact .inl rfl
  | stop t => exact .inl rfl
  | move w hmove hok => exact .inl rfl
  | @commit β body next t c htask fate hok =>
      rcases outcome_cases s.db body fate with ⟨e, hout⟩ | ⟨a, hout, hrun⟩
      · have hdb := calm.learned t c β body next e htask (by simp [hout])
        exact .inl (congrArg (S.load k) hdb)
      have hold := h.tasks t c _ htask
      unfold Scheme.Task at hold
      split at hold
      · obtain ⟨hL, -⟩ := hold.of_tx.2 s.db a _ hrun
        exact .inl (by simp [hL])
      · obtain ⟨owed, hupdates⟩ := hold
        obtain ⟨owed', hsame, hnext⟩ := hupdates.of_tx.2.2 s.db a _ hrun
        by_cases hk : owed' = some k
        · subst hk
          obtain ⟨next', hdel⟩ := hnext.owes
          exact .inr ⟨t, c, next', by simp [hout, hdel]⟩
        · exact .inl (hsame k hk)

variable (S) in
/-- A cached value is the one to load, or its deletion is owed; a held one is current. -/
def currentView : View Db Write E K V Call where
  entry s k e := S.load k s.db = .ok e.value ∨ Owing s k
  held s k v := S.load k s.db = .ok v
  seen _ _ _ := True

theorem currentView_keeps (h : (currentView S).Holds S s) (step : S.Step s s')
    (calm : Calm S s s') : (currentView S).Keeps S s s' where
  stays k e _ he' h' := by
    rcases h' with hload | ⟨t, c, next, howes⟩
    · exact (calm.load_eq_or_owing h step k).imp (fun hsame => hsame.trans hload) id
    · rcases calm.deleted t c k next howes with hstays | hgone
      · exact .inr ⟨t, c, next, hstays⟩
      · rw [he'] at hgone
        cases hgone
  holds t c k v ht hload := (calm.unheld k ⟨t, c, v, ht⟩).trans hload
  sees _ _ _ := trivial
  finds _ _ _ := trivial
  loads k v hload hdb := (congrArg (S.load k) hdb).trans hload
  stores k v hload _ hdb := ⟨.inl ((congrArg (S.load k) hdb).trans hload), trivial⟩

/-- In a calm run every entry is current unless an update is about to delete it. -/
theorem entry_current (h₀ : Idle s₀)
    (run : Relation.ReflTransGen (fun s s' => S.Step s s' ∧ Calm S s s') s₀ s) {k : K} {v : V}
    (hget : s.world.get k = some v) : S.load k s.db = .ok v ∨ Owing s k := by
  have hholds : (currentView S).Holds S s := by
    clear hget
    induction run with
    | refl => exact h₀.holds _
    | tail _ hs ih => exact ih.step hs.1 (currentView_keeps ih hs.1 hs.2)
  obtain ⟨e, he, rfl, -⟩ := Cache.entry_of_get hget
  exact hholds.entries k e he

end Coherence

/-! ## Entries become current with time -/

section Expiry

variable {S : Scheme Db Write E K V Call} {s₀ s₁ s s' : State Db Write E K V Call} {k : K}

variable (S) in
/-- The entry of a key is current or expires by some time; a held value is current. -/
def expiryView (k : K) (deadline : Nat) : View Db Write E K V Call where
  entry s k' e := k' = k → S.load k s.db = .ok e.value ∨ e.expiresAt ≤ deadline
  held s k' v := k' = k → S.load k s.db = .ok v
  seen _ _ _ := True

omit [SqlError E] in
theorem expiryView_keeps {deadline : Nat} (hsame : S.load k s'.db = S.load k s.db) :
    (expiryView S k deadline).Keeps S s s' where
  stays k' e _ _ h hk := (h hk).imp_left hsame.trans
  holds _ _ k' v _ h hk := hsame.trans (h hk)
  sees _ _ _ := trivial
  finds _ _ _ := trivial
  loads k' v hload hdb hk := by
    subst hk
    exact (congrArg (S.load k') hdb).trans hload
  stores k' v h _ _ := ⟨fun hk => .inl (hsame.trans (h hk)), trivial⟩

/-- Once a value has stayed the same for the lifetime of its entry, and no read held
an older one at the start, its entry is current, whatever failed before or since. -/
theorem entry_current_of_expiry (h₀ : Idle s₀) (run : S.Reach s₀ s₁)
    (hunheld : ¬ Storing S s₁ k)
    (run' : Relation.ReflTransGen
      (fun s s' => S.Step s s' ∧ S.load k s'.db = S.load k s.db) s₁ s)
    (hlong : s₁.world.now + S.ttl k ≤ s.world.now) {v : V} (hget : s.world.get k = some v) :
    S.load k s.db = .ok v := by
  have hpast := pastView_holds h₀ run
  have hstart : (expiryView S k (s₁.world.now + S.ttl k)).Holds S s₁ := by
    refine ⟨fun k' e he hk => ?_, fun t c p ht => ?_⟩
    · exact .inr (hk ▸ (hpast.entries k' e he).2)
    · have hold := hpast.tasks t c p ht
      unfold Scheme.Task at hold ⊢
      split
      · rename_i k' hc
        rw [hc] at hold
        refine hold.mono (fun v hp _ hk => ?_) fun _ _ => trivial
        subst hk
        exact absurd ⟨t, c, v, hp ▸ ht⟩ hunheld
      · rename_i hc
        rw [hc] at hold
        exact hold
  have hholds : (expiryView S k (s₁.world.now + S.ttl k)).Holds S s := by
    clear hlong hget
    induction run' with
    | refl => exact hstart
    | tail _ hs ih => exact ih.step hs.1 (expiryView_keeps hs.2)
  obtain ⟨e, he, rfl, halive⟩ := Cache.entry_of_get hget
  rcases hholds.entries k e he rfl with hload | hexpired
  · exact hload
  · omega

end Expiry

end CacheAside

end TaroTria.Transactions
