import TaroTria.Services.FormVersions
import TaroTria.Services.Seed
import TaroTria.Backend.Calls

/-!
# Seeding again

Runs of publications and of executions of the seed, one after the other. The
seed stores its own form as version 1 and makes it active, whatever other
version is active.

## Implementation notes

A run records the last form published for each service, by its version and its
schema. Every operation may fail at any of its steps.
-/

namespace TaroTria

open Transactions ServicesService Seed

/-- The last form published for each service. -/
abbrev LastPublished := Id → Option (Nat × FormSchema)

/-- The version that a publication at `D` makes. -/
def FormCall.version (c : FormCall) (D : Db) : Nat :=
  nextVersion (D.serviceForms.last (fun key _ => key.1 = c.serviceId) Prod.snd)

/-- The record after a call that has led from `D` to `D'`. -/
def FormCall.record (c : FormCall) (D D' : Db) (published : LastPublished) : LastPublished :=
  if (D'.serviceForms.lookup (c.serviceId, c.version D)).isSome then
    Function.update published c.serviceId (some (c.version D, c.schema))
  else published

/-- The runs from `D₀` of which every execution of the seed meets `ok`. -/
inductive SeedRun (ok : Db → LastPublished → Prop) (D₀ : Db) : Db → LastPublished → Prop
  | start : SeedRun ok D₀ D₀ fun _ => none
  | publishForm {D published} (run : SeedRun ok D₀ D published) (c : FormCall)
      (env : Proc.Surroundings Answer) :
      SeedRun ok D₀ (c.request.exec env 0 D).1 (c.record D (c.request.exec env 0 D).1 published)
  | seed {D published} (run : SeedRun ok D₀ D published) (hok : ok D published)
      (env : Proc.Surroundings Answer) : SeedRun ok D₀ (seedServices.exec env 0 D).1 published

/-- The keys of the schema: a code names one service, and a form belongs to a service. -/
structure ServiceKeys (D : Db) : Prop where
  code_unique : ∀ id id' service service', D.services.lookup id = some service →
    D.services.lookup id' = some service' → service.code = service'.code → id = id'
  form_service : ∀ k, (D.serviceForms.lookup k).isSome = true →
    (D.services.lookup k.1).isSome = true

/-- A service has at most one active form. -/
def OneActiveForm (D : Db) : Prop :=
  ∀ serviceId v v' form form', D.serviceForms.lookup (serviceId, v) = some form →
    form.isActive = true → D.serviceForms.lookup (serviceId, v') = some form' →
    form'.isActive = true → v = v'

/-- The form last published is still there and active. -/
def PublishedActive (D : Db) (published : LastPublished) : Prop :=
  ∀ serviceId version schema, published serviceId = some (version, schema) →
    D.serviceForms.lookup (serviceId, version) = some ⟨schema, true⟩

/-- The seed would leave the active forms of the services that it stores a form for:
they have version 1, and the seed's own schema if they were published. -/
def SeedLeaves (D : Db) (published : LastPublished) : Prop :=
  ∀ serviceId service, D.services.lookup serviceId = some service → hasForm service.code = true →
    ∀ v form, D.serviceForms.lookup (serviceId, v) = some form → form.isActive = true →
      v = 1 ∧ ∀ schema, published serviceId = some (v, schema) →
        schema = TAROT_THREE_FORM_SCHEMA

/-- What every operation of a run keeps. -/
structure FormsKept (D : Db) (published : LastPublished) : Prop where
  keys : ServiceKeys D
  single : OneActiveForm D
  active : PublishedActive D published

section Publication

variable {D : Db} {c : FormCall} {published : LastPublished}

/-- What a publication that commits has done. -/
structure PublishedForm (c : FormCall) (D D' : Db) : Prop where
  services : D'.services = D.services
  known : (D.services.lookup c.serviceId).isSome = true
  row : D'.serviceForms.lookup (c.serviceId, c.version D) = some ⟨c.schema, true⟩
  closed : ∀ v form, v ≠ c.version D → D'.serviceForms.lookup (c.serviceId, v) = some form →
    form.isActive = false
  same : ∀ k, k.1 ≠ c.serviceId → D'.serviceForms.lookup k = D.serviceForms.lookup k

/-- The writes that close the active forms of a service. -/
def closeForms (serviceId : Id) (D : Db) : List RowWrite :=
  (D.serviceForms.findMany (isActiveForm serviceId)).map fun row =>
    .serviceForm row.1 (some (deactivate row.2))

theorem lookup_closeForms (serviceId : Id) (D : Db) (k : Id × Nat) :
    (view (closeForms serviceId D) D).serviceForms.lookup k =
      (D.serviceForms.lookup k).map fun form =>
        if isActiveForm serviceId k form then deactivate form else form :=
  Db.serviceForm.lookup_view_findMany (isActiveForm serviceId) deactivate k D

/-- A log of forms leaves the services. -/
theorem services_view (L : List RowWrite) (D : Db)
    (h : ∀ w ∈ L, ∃ k form, w = .serviceForm k form) : (view L D).services = D.services := by
  refine view_invariant (I := fun D' : Db => D'.services = D.services) L rfl fun w hw D' hD' => ?_
  obtain ⟨k, form, rfl⟩ := h w hw
  exact hD'

theorem wp_publishFormTx_alone (hservice : (D.services.lookup c.serviceId).isSome = true) :
    (publishFormTx c.serviceId (c.version D) c.schema).wp still D
      (fun _ L => PublishedForm c D (view L D)) [] := by
  refine wp_publishFormTx (I := fun L => L = closeForms c.serviceId D)
    (Db.serviceForm.wp_updateAll_still rfl) ?_
  rintro L rfl -
  rw [view_append]
  simp only [view_cons, view_nil, RowStore.apply, RowWrite.apply]
  constructor
  · refine services_view (closeForms c.serviceId D) D fun w hw => ?_
    obtain ⟨row, -, rfl⟩ := List.mem_map.mp hw
    exact ⟨_, _, rfl⟩
  · exact hservice
  · simp
  · intro v form hv hform
    rw [Table.lookup_write_of_ne _ _ (by simpa using hv), lookup_closeForms] at hform
    obtain ⟨form', -, rfl⟩ := Option.map_eq_some_iff.mp hform
    by_cases hactive : form'.isActive = true
    · simp [isActiveForm, hactive, deactivate]
    · simp [isActiveForm, hactive]
  · intro k hk
    rw [Table.lookup_write_of_ne _ _ (fun hkey => hk (by rw [hkey])), lookup_closeForms]
    cases D.serviceForms.lookup k with
    | none => rfl
    | some form => simp [isActiveForm, hk]

/-- A publication, wherever it stops, has committed as a whole or not at all. -/
theorem publishForm_exec (c : FormCall) (env : Proc.Surroundings Answer) (n : Nat) (D : Db) :
    (c.request.exec env n D).1 = D ∨ PublishedForm c D (c.request.exec env n D).1 := by
  suffices hends : c.request.Ends (fun _ _ => True)
      (fun _ D' => D' = D ∨ PublishedForm c D D') D from hends.exec env (fun _ _ => trivial) n
  apply Proc.Ends.bind
  refine Proc.ends_select (fun _ => .inl rfl) ?_
  cases hservice : Db.service.find D c.serviceId with
  | none => exact .inl rfl
  | some service =>
  apply Proc.Ends.bind
  refine Proc.ends_select (fun _ => .inl rfl) ?_
  apply Proc.Ends.bind
  refine Proc.ends_transaction (fun _ => .inl rfl) (Tx.wp_mono (fun updated L hL => ?_)
    (wp_publishFormTx_alone (c := c) (D := D) (by simpa using congrArg Option.isSome hservice)))
  refine ⟨?_, fun _ => .inr hL⟩
  apply Proc.Ends.bind
  exact Proc.ends_call (fun _ => .inr hL) fun _ _ => .inr hL

theorem FormCall.lookup_version (c : FormCall) (D : Db) :
    D.serviceForms.lookup (c.serviceId, c.version D) = none := by
  by_contra hform
  obtain ⟨form, hform⟩ := Option.ne_none_iff_exists'.mp hform
  unfold FormCall.version nextVersion at hform
  cases hlast : D.serviceForms.last (fun key _ => key.1 = c.serviceId) Prod.snd with
  | none => simpa using Table.last_eq_none.mp hlast _ form hform
  | some row =>
      obtain ⟨⟨sid, v⟩, form'⟩ := row
      obtain ⟨-, -, hmax⟩ := Table.last_spec hlast
      have hle := hmax _ form hform (by simp)
      simp only [hlast, Option.map_some, Option.getD_some] at hle
      omega

/-- A publication keeps the rules, with the form that it makes as the last published. -/
theorem FormsKept.publish {D' : Db} (h : FormsKept D published) (hp : PublishedForm c D D') :
    FormsKept D' (c.record D D' published) := by
  have hrecord : c.record D D' published =
      Function.update published c.serviceId (some (c.version D, c.schema)) := by
    simp [FormCall.record, hp.row]
  rw [hrecord]
  refine ⟨⟨?_, fun k hk => ?_⟩, ?_, ?_⟩
  · rw [hp.services]
    exact h.keys.code_unique
  · rw [hp.services]
    by_cases hsid : k.1 = c.serviceId
    · rw [hsid]
      exact hp.known
    · exact h.keys.form_service k (by rw [← hp.same k hsid, hk])
  · intro serviceId v v' form form' hform hactive hform' hactive'
    by_cases hsid : serviceId = c.serviceId
    · subst hsid
      have hlast : ∀ w row, D'.serviceForms.lookup (c.serviceId, w) = some row →
          row.isActive = true → w = c.version D := by
        intro w row hrow hact
        by_contra hw
        simp [hp.closed w row hw hrow] at hact
      rw [hlast v form hform hactive, hlast v' form' hform' hactive']
    · rw [hp.same _ hsid] at hform hform'
      exact h.single serviceId v v' form form' hform hactive hform' hactive'
  · intro serviceId version schema hpub
    by_cases hsid : serviceId = c.serviceId
    · subst hsid
      simp only [Function.update_self, Option.some.injEq, Prod.mk.injEq] at hpub
      obtain ⟨rfl, rfl⟩ := hpub
      exact hp.row
    · rw [Function.update_of_ne hsid] at hpub
      rw [hp.same _ hsid]
      exact h.active serviceId version schema hpub

theorem FormsKept.publishForm (h : FormsKept D published) (c : FormCall)
    (env : Proc.Surroundings Answer) (n : Nat) :
    FormsKept (c.request.exec env n D).1
      (c.record D (c.request.exec env n D).1 published) := by
  rcases publishForm_exec c env n D with heq | hp
  · have hrecord : c.record D D published = published := by
      simp [FormCall.record, c.lookup_version D]
    rw [heq, hrecord]
    exact h
  · exact h.publish hp

end Publication

section Seeding

variable {D : Db} {published : LastPublished}

/-- What every step of the seed keeps where the seed leaves the active forms. -/
structure Seeded (published : LastPublished) (D : Db) : Prop where
  kept : FormsKept D published
  leaves : SeedLeaves D published

/-- The row of a service that is stored anew under its code. -/
theorem Seeded.service (h : Seeded published D) {id : Id} {row : Service}
    (hcode : ∀ id' row', D.services.lookup id' = some row' → row'.code = row.code → id' = id)
    (hforms : ∀ row', D.services.lookup id = some row' → row'.code = row.code) :
    Seeded published (view [.service id (some row)] D) := by
  simp only [view_cons, view_nil, RowStore.apply, RowWrite.apply]
  have hlookup : ∀ id' row', (D.services.write id (some row)).lookup id' = some row' →
      id' = id ∧ row' = row ∨ D.services.lookup id' = some row' := by
    intro id' row' hrow'
    by_cases hid : id' = id
    · subst hid
      rw [Table.lookup_write_self] at hrow'
      exact .inl ⟨rfl, (Option.some.inj hrow').symm⟩
    · rw [Table.lookup_write_of_ne _ _ hid] at hrow'
      exact .inr hrow'
  refine ⟨⟨⟨?_, ?_⟩, h.kept.single, h.kept.active⟩, ?_⟩
  · intro id₁ id₂ row₁ row₂ h₁ h₂ heq
    rcases hlookup id₁ row₁ h₁ with ⟨rfl, rfl⟩ | h₁'
    · rcases hlookup id₂ row₂ h₂ with ⟨rfl, rfl⟩ | h₂'
      · rfl
      · exact (hcode id₂ row₂ h₂' heq.symm).symm
    · rcases hlookup id₂ row₂ h₂ with ⟨rfl, rfl⟩ | h₂'
      · exact hcode id₁ row₁ h₁' heq
      · exact h.kept.keys.code_unique id₁ id₂ row₁ row₂ h₁' h₂' heq
  · intro k hk
    change ((D.services.write id (some row)).lookup k.1).isSome = true
    by_cases hid : k.1 = id
    · rw [hid, Table.lookup_write_self]
      rfl
    · simp only [Table.lookup_write_of_ne _ _ hid]
      exact h.kept.keys.form_service k hk
  · intro id' row' hrow' hhas v form hform hactive
    rcases hlookup id' row' hrow' with ⟨rfl, rfl⟩ | hold
    · -- A service with a form was there before, under the same code.
      obtain ⟨old, hold⟩ := Option.isSome_iff_exists.mp
        (h.kept.keys.form_service (id', v) (by simp [hform]))
      exact h.leaves id' old hold (by rw [hforms old hold, hhas]) v form hform hactive
    · exact h.leaves id' row' hold hhas v form hform hactive

/-- The form of the seed, stored where it leaves the active form. -/
theorem Seeded.form (h : Seeded published D) {id : Id} {service : Service}
    (hservice : D.services.lookup id = some service) (hhas : hasForm service.code = true) :
    Seeded published
      (view [.serviceForm (id, 1) (some ⟨TAROT_THREE_FORM_SCHEMA, true⟩)] D) := by
  simp only [view_cons, view_nil, RowStore.apply, RowWrite.apply]
  have hone : ∀ v form, (D.serviceForms.write (id, 1)
      (some ⟨TAROT_THREE_FORM_SCHEMA, true⟩)).lookup (id, v) = some form →
      form.isActive = true → v = 1 := by
    intro v form hform hactive
    by_contra hv
    rw [Table.lookup_write_of_ne _ _ (by simpa using hv)] at hform
    exact hv (h.leaves id service hservice hhas v form hform hactive).1
  refine ⟨⟨⟨h.kept.keys.code_unique, fun k hk => ?_⟩, ?_, ?_⟩, ?_⟩
  · by_cases hkey : k = (id, 1)
    · subst hkey
      exact congrArg Option.isSome hservice
    · exact h.kept.keys.form_service k (by simpa [Table.lookup_write_of_ne _ _ hkey] using hk)
  · intro sid v v' form form' hform hactive hform' hactive'
    by_cases hsid : sid = id
    · subst hsid
      rw [hone v form hform hactive, hone v' form' hform' hactive']
    · rw [Table.lookup_write_of_ne _ _ (by simp [hsid])] at hform hform'
      exact h.kept.single sid v v' form form' hform hactive hform' hactive'
  · intro sid version schema hpub
    have hrow := h.kept.active sid version schema hpub
    by_cases hsid : sid = id
    · subst hsid
      obtain ⟨rfl, hschema⟩ := h.leaves sid service hservice hhas version _ hrow rfl
      simp [hschema schema hpub]
    · rw [Table.lookup_write_of_ne _ _ (by simp [hsid])]
      exact hrow
  · intro sid row hrow hhas' v form hform hactive
    by_cases hsid : sid = id
    · subst hsid
      obtain rfl := hone v form hform hactive
      refine ⟨rfl, fun schema hpub => ?_⟩
      have hrow' := h.kept.active sid 1 schema hpub
      exact (h.leaves sid row hrow hhas' 1 _ hrow' rfl).2 schema hpub
    · rw [Table.lookup_write_of_ne _ _ (by simp [hsid])] at hform
      exact h.leaves sid row hrow hhas' v form hform hactive

theorem wp_upsertService (h : Seeded published D) (id : Id) (seed : ServiceSeed) :
    (upsertService id seed).wp still D (fun serviceId L => Seeded published (view L D) ∧
      ∃ service, (view L D).services.lookup serviceId = some service ∧
        service.code = seed.code) [] := by
  apply Tx.wp_bind
  apply Db.service.wp_findMany
  rintro D₀ ⟨-, rfl, -⟩
  cases hfound : ((Db.service.rows (view [] D₀)).findMany fun _ row =>
      row.code = seed.code).head? with
  | none =>
      have hnew : ∀ id' row, D₀.services.lookup id' = some row → row.code ≠ seed.code := by
        intro id' row hrow hcode
        have hmem := (Table.mem_findMany D₀.services
          (fun _ row => decide (row.code = seed.code)) id' row).mpr ⟨hrow, by simp [hcode]⟩
        exact List.ne_nil_of_mem hmem (List.head?_eq_none_iff.mp hfound)
      apply Tx.wp_bind
      apply Db.service.wp_create
      intro hfresh
      refine ⟨h.service (fun id' row hrow hcode => absurd hcode (hnew id' row hrow))
        fun row hrow => ?_, _, Table.lookup_write_self _ _ _, rfl⟩
      cases hfresh.symm.trans hrow
  | some found =>
      obtain ⟨foundId, row₀⟩ := found
      obtain ⟨hrow₀, hcode₀⟩ := (Table.mem_findMany _ _ _ _).mp (List.mem_of_mem_head? hfound)
      simp only [decide_eq_true_eq] at hcode₀
      apply Tx.wp_bind
      apply Db.service.wp_update
      intro row hrow
      obtain rfl : row₀ = row := Option.some.inj (hrow₀.symm.trans hrow)
      refine ⟨h.service (fun id' row' hrow' hcode => ?_) fun row' hrow' => ?_,
        _, Table.lookup_write_self _ _ _, hcode₀⟩
      · exact h.kept.keys.code_unique id' foundId row' row₀ hrow' hrow₀ hcode
      · have heq : row' = row₀ := Option.some.inj (hrow'.symm.trans hrow₀)
        simp [heq]

theorem seedService_ends (h : Seeded published D) (seed : ServiceSeed) :
    (seedService seed).Ends (fun _ _ => True) (fun _ D' => Seeded published D') D := by
  apply Proc.Ends.bind
  refine Proc.ends_call (fun _ => h) fun id _ => ?_
  apply Proc.Ends.bind
  refine Proc.ends_transaction (fun _ => h) (Tx.wp_mono ?_ (wp_upsertService h id seed))
  rintro serviceId L ⟨hseeded, service, hservice, hcode⟩
  refine ⟨?_, fun _ => hseeded⟩
  dsimp only
  split
  · rename_i hhas
    apply Proc.Ends.bind
    refine Proc.ends_transaction (fun _ => hseeded) (Db.serviceForm.wp_upsert ?_ ?_)
    all_goals
      intros
      have hform := hseeded.form hservice (by rw [hcode, hhas])
      exact ⟨hform, fun _ => hform⟩
  · exact hseeded

theorem FormsKept.seed (h : FormsKept D published) (hleaves : SeedLeaves D published)
    (env : Proc.Surroundings Answer) (n : Nat) :
    FormsKept (seedServices.exec env n D).1 published :=
  ((Proc.ends_forM (I := Seeded published) (fun seed _ _ hD => seedService_ends hD seed)
    ⟨h, hleaves⟩).exec env (fun _ _ => trivial) n).kept

end Seeding

/-- A service keeps at most one active form, and its last published form is that one
until the next publication, in every run that seeds only where the seed leaves the
active forms. Answers are then validated against the last published form. -/
theorem seeding_respects_published_forms {D₀ : Db} (hkeys : ServiceKeys D₀)
    (hone : OneActiveForm D₀) {D : Db} {published : LastPublished}
    (run : SeedRun SeedLeaves D₀ D published) :
    OneActiveForm D ∧ PublishedActive D published ∧
      ∀ serviceId version schema, published serviceId = some (version, schema) →
        ∀ service v form L, (ReadingsService.findServiceForm serviceId).run D [] =
          .ok ((service, some (v, form)), L) → v = version ∧ form.schema = schema := by
  have hkept : FormsKept D published := by
    induction run with
    | start => exact ⟨hkeys, hone, fun _ _ _ h => nomatch h⟩
    | publishForm run c env ih => exact ih.publishForm c env 0
    | seed run hok env ih => exact ih.seed hok env 0
  refine ⟨hkept.single, hkept.active, ?_⟩
  intro serviceId version schema hpub service v form L hfind
  have hrow := hkept.active serviceId version schema hpub
  obtain ⟨hform, hactive⟩ := findServiceForm_active hfind
  obtain rfl := hkept.single serviceId v version form _ hform hactive hrow rfl
  exact ⟨rfl, congrArg ServiceForm.schema (Option.some.inj (hform.symm.trans hrow))⟩

/-- Surroundings in which every step succeeds, with an id for each step. -/
def healthySeed : Proc.Surroundings Answer where
  fate _ := some .done
  answer n
    | .randomUUID => String.ofList (List.replicate n 'x')
    | q => sampleAnswer .COMPLETED q

theorem emptyDb_keys : ServiceKeys Db.empty where
  code_unique _ _ _ _ h := nomatch h
  form_service _ h := nomatch h

theorem seeding_respects_published_forms_of_one : ∃ D published,
    published "xx" = some (2, .dynamic []) ∧ OneActiveForm D ∧ PublishedActive D published ∧
      ∀ serviceId version schema, published serviceId = some (version, schema) →
        ∀ service v form L, (ReadingsService.findServiceForm serviceId).run D [] =
          .ok ((service, some (v, form)), L) → v = version ∧ form.schema = schema := by
  have hleaves : SeedLeaves Db.empty fun _ => none := fun _ _ h => nomatch h
  have hone : OneActiveForm Db.empty := fun _ _ _ _ _ h => nomatch h
  have seeded : ∃ D published, SeedRun SeedLeaves Db.empty D published ∧
      published "xx" = some (2, .dynamic []) :=
    ⟨_, _, (SeedRun.start.seed hleaves healthySeed).publishForm ⟨"xx", .dynamic []⟩ healthySeed,
      rfl⟩
  obtain ⟨D, published, run, hpub⟩ := seeded
  exact ⟨D, published, hpub, seeding_respects_published_forms emptyDb_keys hone run⟩

/-- After a second seed the first version of the form is active again, beside the one
published since. -/
theorem reseed_reactivates_first_form : ∃ (D : Db) (published : LastPublished),
    SeedRun (fun _ _ => True) Db.empty D published ∧ ¬ OneActiveForm D := by
  refine ⟨_, _, ((SeedRun.start.seed trivial healthySeed).publishForm ⟨"xx", .other⟩
    healthySeed).seed trivial healthySeed, fun hone => ?_⟩
  have heq : 1 = 2 := hone "xx" 1 2 ⟨TAROT_THREE_FORM_SCHEMA, true⟩ ⟨.other, true⟩ rfl rfl rfl rfl
  cases heq

end TaroTria
