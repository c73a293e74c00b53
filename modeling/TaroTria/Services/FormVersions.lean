import TaroTria.Readings.ReadingInputs
import TaroTria.Services.ServicesService
import TaroTria.Transactions.Alone

/-!
# The versions of a form under concurrent publication

Any number of calls of `publishForm`, with their statements interleaved at
READ COMMITTED. The number of the next version is read before the transaction
that uses it, and the update that closes the active form does not see an
uncommitted insert. The unique key of the version decides which of two
publications commits.
-/

namespace TaroTria

open Transactions ServicesService

/-- A call of `publishForm`. -/
structure FormCall where
  serviceId : Id
  schema : FormSchema

def FormCall.request (c : FormCall) : Request AdminService := publishForm c.serviceId c.schema

def formService : Transactions.Service Db RowWrite Err FormCall Answer AdminService where
  prog := FormCall.request
  answers _ _ := True

abbrev FormServer := Server Db RowWrite RowRef Err FormCall Answer AdminService

/-- The forms of a service are its versions `1..n`, and exactly the last one is active. -/
structure FormVersions (serviceId : Id) (D : Db) (n : Nat) : Prop where
  versions : ∀ v, (D.serviceForms.lookup (serviceId, v)).isSome = true ↔ 1 ≤ v ∧ v ≤ n
  active : ∀ v form, D.serviceForms.lookup (serviceId, v) = some form →
    (form.isActive = true ↔ v = n)

/-- The form that answers are validated against is some active one. -/
theorem findServiceForm_active {serviceId : Id} {D : Db} {service : Service} {version : Nat}
    {form : ServiceForm} {L : List RowWrite}
    (h : (ReadingsService.findServiceForm serviceId).run D [] =
      .ok ((service, some (version, form)), L)) :
    D.serviceForms.lookup (serviceId, version) = some form ∧ form.isActive = true := by
  simp only [ReadingsService.findServiceForm, Tx.selectOrThrow, Tx.run, view_nil] at h
  cases hservice : D.services.lookup serviceId with
  | none => simp [hservice] at h
  | some service' =>
      simp only [hservice, Option.map_some, Except.ok.injEq, Prod.mk.injEq] at h
      obtain ⟨⟨-, hform⟩, -⟩ := h
      obtain ⟨⟨⟨sid, v⟩, form'⟩, hmem, heq⟩ := List.mem_map.mp (List.mem_of_mem_head? hform)
      obtain ⟨hlookup, hwhere⟩ := (Table.mem_findMany _ _ _ _).mp hmem
      obtain ⟨rfl, rfl⟩ := Prod.mk.inj heq
      simp only [Bool.and_eq_true, decide_eq_true_eq] at hwhere
      obtain ⟨rfl, hactive⟩ := hwhere
      exact ⟨hlookup, hactive⟩

theorem formVersions_zero {serviceId : Id} {D : Db}
    (h : ∀ v, D.serviceForms.lookup (serviceId, v) = none) : FormVersions serviceId D 0 where
  versions v := by simp [h v]; omega
  active v form hform := by simp [h v] at hform

namespace FormVersions

variable {serviceId : Id} {D D' : Db} {n n' : Nat}

/-- The active form of the highest version is any active form. -/
theorem activeForm_eq (h : FormVersions serviceId D n) {v : Nat} {form : ServiceForm}
    (hform : D.serviceForms.lookup (serviceId, v) = some form) (hactive : form.isActive = true) :
    activeForm serviceId D = some (v, form) := by
  unfold activeForm
  cases hlast : D.serviceForms.last (isActiveForm serviceId) Prod.snd with
  | none =>
      have hnone := Table.last_eq_none.mp hlast (serviceId, v) form hform
      simp [isActiveForm, hactive] at hnone
  | some row =>
      obtain ⟨⟨sid, v'⟩, form'⟩ := row
      obtain ⟨hform', hwhere, -⟩ := Table.last_spec hlast
      simp only [isActiveForm, Bool.and_eq_true, decide_eq_true_eq] at hwhere
      obtain ⟨rfl, hactive'⟩ := hwhere
      obtain rfl := (h.active v form hform).mp hactive
      obtain rfl := (h.active v' form' hform').mp hactive'
      rw [hform] at hform'
      simp [Option.some.inj hform']

/-- The number of versions that a publication finds. -/
theorem nextVersion_eq (h : FormVersions serviceId D n) :
    nextVersion (D.serviceForms.last (fun key _ => key.1 = serviceId) Prod.snd) = n + 1 := by
  unfold nextVersion
  cases hlast : D.serviceForms.last (fun key _ => key.1 = serviceId) Prod.snd with
  | none =>
      have hn : ¬ 1 ≤ n := fun hn => by
        obtain ⟨form, hform⟩ := Option.isSome_iff_exists.mp ((h.versions n).mpr ⟨hn, le_rfl⟩)
        simpa using Table.last_eq_none.mp hlast (serviceId, n) form hform
      simp
      omega
  | some row =>
      obtain ⟨⟨sid, v⟩, form⟩ := row
      obtain ⟨hform, hwhere, hmax⟩ := Table.last_spec hlast
      obtain rfl : sid = serviceId := by simpa using hwhere
      obtain ⟨hv, hvn⟩ := (h.versions v).mp (by simp [hform])
      obtain ⟨form', hform'⟩ := Option.isSome_iff_exists.mp
        ((h.versions n).mpr ⟨hv.trans hvn, le_rfl⟩)
      have hnv : n ≤ v := hmax (sid, n) form' hform' (by simp)
      simp
      omega

/-- Versions are not lost where rows are not lost. -/
theorem le_of_persists (h : FormVersions serviceId D n) (h' : FormVersions serviceId D' n')
    (hm : ∀ k, (D.serviceForms.lookup k).isSome = true → (D'.serviceForms.lookup k).isSome = true) :
    n ≤ n' := by
  by_cases hn : 1 ≤ n
  · exact ((h'.versions n).mp (hm _ ((h.versions n).mpr ⟨hn, le_rfl⟩))).2
  · omega

/-- A new last version, made when the one before it is closed. -/
theorem publish {E : Db} (h : FormVersions serviceId D n) (schema : FormSchema)
    (hrows : ∀ v, (E.serviceForms.lookup (serviceId, v)).isSome =
      (D.serviceForms.lookup (serviceId, v)).isSome)
    (hclosed : ∀ v form, E.serviceForms.lookup (serviceId, v) = some form →
      form.isActive = false) :
    FormVersions serviceId
      (view [.serviceForm (serviceId, n + 1) (some ⟨schema, true⟩)] E) (n + 1) where
  versions v := by
    simp only [view_cons, view_nil, RowStore.apply, RowWrite.apply]
    by_cases hv : v = n + 1
    · subst hv
      simp
    · rw [Table.lookup_write_of_ne _ _ (by simpa using hv), hrows, h.versions]
      omega
  active v form hform := by
    simp only [view_cons, view_nil, RowStore.apply, RowWrite.apply] at hform
    by_cases hv : v = n + 1
    · subst hv
      rw [Table.lookup_write_self] at hform
      simp [← Option.some.inj hform]
    · rw [Table.lookup_write_of_ne _ _ (by simpa using hv)] at hform
      simp [hclosed v form hform, hv]

end FormVersions

/-- The rows of forms are not lost, and the versions of one service stay in order. -/
structure FormMono (serviceId : Id) (D D' : Db) : Prop where
  persists : ∀ k, (D.serviceForms.lookup k).isSome = true →
    (D'.serviceForms.lookup k).isSome = true
  versions : (∃ n, FormVersions serviceId D n) → ∃ n, FormVersions serviceId D' n

/-- The discipline of the forms of one service. -/
def formDiscipline (serviceId : Id) : Discipline Db RowWrite RowRef FormCall where
  Mono := FormMono serviceId
  mono_refl _ := ⟨fun _ h => h, fun h => h⟩
  mono_trans h h' := ⟨fun k hk => h'.persists k (h.persists k hk),
    fun hn => h'.versions (h.versions hn)⟩
  Inv D := ∃ n, FormVersions serviceId D n
  inv_mono h hI := h.versions hI
  Effect _ D L := FormMono serviceId D (view L D)
  mono_effect h := h

section Publication

variable {serviceId : Id} {D D' : Db} {n n' : Nat}

/-- What the writes of a publication of another service leave as it was. -/
structure Elsewhere (serviceId : Id) (D D' : Db) : Prop where
  persists : ∀ k, (D.serviceForms.lookup k).isSome = true →
    (D'.serviceForms.lookup k).isSome = true
  same : ∀ k, k.1 ≠ serviceId → D'.serviceForms.lookup k = D.serviceForms.lookup k

theorem Elsewhere.write {E : Db} (h : Elsewhere serviceId D E) (v : Nat) (form : ServiceForm) :
    Elsewhere serviceId D (view [.serviceForm (serviceId, v) (some form)] E) where
  persists k hk := by
    simp only [view_cons, view_nil, RowStore.apply, RowWrite.apply]
    by_cases hkey : k = (serviceId, v)
    · subst hkey
      simp
    · rw [Table.lookup_write_of_ne _ _ hkey]
      exact h.persists k hk
  same k hk := by
    simp only [view_cons, view_nil, RowStore.apply, RowWrite.apply]
    rw [Table.lookup_write_of_ne _ _ (fun hkey => hk (by rw [hkey]))]
    exact h.same k hk

theorem Elsewhere.formMono {E : Db} {other : Id} (h : Elsewhere other D E)
    (hne : serviceId ≠ other) : FormMono serviceId D E where
  persists := h.persists
  versions := by
    rintro ⟨n, hn⟩
    have hsame : ∀ v, E.serviceForms.lookup (serviceId, v) =
        D.serviceForms.lookup (serviceId, v) := fun v => h.same _ hne
    exact ⟨n, ⟨fun v => by rw [hsame, hn.versions], fun v form hform =>
      hn.active v form (by rw [← hsame, hform])⟩⟩

variable {C : Type} {G : Discipline Db RowWrite RowRef C} {version : Nat} {schema : FormSchema}

/-- The transaction after the update that closes the active forms. -/
theorem wp_publishFormTx {I P : List RowWrite → Prop}
    (hclose : (Db.serviceForm.updateAll (isActiveForm serviceId) deactivate : TxM Unit).wp G D
      (fun _ => I) [])
    (h : ∀ L, I L → (view L D).serviceForms.lookup (serviceId, version) = none →
      P (L ++ [.serviceForm (serviceId, version) (some ⟨schema, true⟩)])) :
    (publishFormTx serviceId version schema).wp G D (fun _ => P) [] := by
  apply Tx.wp_bind
  refine Tx.wp_mono (fun _ L hL => ?_) hclose
  apply Tx.wp_bind
  apply Db.serviceForm.wp_create
  intro hfresh
  apply Tx.wp_selectOrThrow
  intro _ _ _ _
  exact h L hL hfresh

theorem wp_close_elsewhere :
    (Db.serviceForm.updateAll (isActiveForm serviceId) deactivate : TxM Unit).wp G D
      (fun _ L => Elsewhere serviceId D (view L D)) [] := by
  apply Tx.wp_bind
  apply Db.serviceForm.wp_findMany
  intro D₀ _
  refine Db.serviceForm.wp_updateEach ⟨fun _ hk => hk, fun _ _ => rfl⟩ ?_
  rintro k form L hk hL -
  obtain ⟨⟨k', form'⟩, hmem, rfl⟩ := List.mem_map.mp hk
  obtain ⟨-, hwhere⟩ := (Table.mem_findMany _ _ _ _).mp hmem
  obtain rfl : k'.1 = serviceId := by
    simp only [isActiveForm, Bool.and_eq_true, decide_eq_true_eq] at hwhere
    exact hwhere.1
  rw [view_append]
  exact hL.write k'.2 _

/-- The forms of a service after the update that closes the active ones. -/
structure Closed (serviceId : Id) (D D' : Db) : Prop where
  elsewhere : Elsewhere serviceId D D'
  rows : ∀ v, (D'.serviceForms.lookup (serviceId, v)).isSome =
    (D.serviceForms.lookup (serviceId, v)).isSome
  closed : ∀ v form, D'.serviceForms.lookup (serviceId, v) = some form → form.isActive = false

theorem closed_of_inactive (h : ∀ v form, D.serviceForms.lookup (serviceId, v) = some form →
    form.isActive = false) : Closed serviceId D D :=
  ⟨⟨fun _ hk => hk, fun _ _ => rfl⟩, fun _ => rfl, h⟩

/-- The active form is closed. -/
theorem FormVersions.closed (h : FormVersions serviceId D n) {form : ServiceForm}
    (hform : D.serviceForms.lookup (serviceId, n) = some form) :
    Closed serviceId D (view [.serviceForm (serviceId, n) (some (deactivate form))] D) where
  elsewhere := Elsewhere.write ⟨fun _ hk => hk, fun _ _ => rfl⟩ n _
  rows v := by
    simp only [view_cons, view_nil, RowStore.apply, RowWrite.apply]
    by_cases hv : v = n
    · subst hv
      simp [hform]
    · rw [Table.lookup_write_of_ne _ _ (by simpa using hv)]
  closed v form' hform' := by
    simp only [view_cons, view_nil, RowStore.apply, RowWrite.apply] at hform'
    by_cases hv : v = n
    · subst hv
      rw [Table.lookup_write_self] at hform'
      simp [← Option.some.inj hform', deactivate]
    · rw [Table.lookup_write_of_ne _ _ (by simpa using hv)] at hform'
      simpa [hv] using h.active v form' hform'

/-- The active form is the one row that the update chooses. -/
theorem FormVersions.mem_active (h : FormVersions serviceId D n) (k : Id × Nat)
    (form : ServiceForm) : (k, form) ∈ D.serviceForms.findMany (isActiveForm serviceId) ↔
      k = (serviceId, n) ∧ D.serviceForms.lookup (serviceId, n) = some form := by
  rw [Table.mem_findMany]
  simp only [isActiveForm, Bool.and_eq_true, decide_eq_true_eq]
  constructor
  · rintro ⟨hform, hsid, hactive⟩
    obtain ⟨sid, v⟩ := k
    obtain rfl : sid = serviceId := hsid
    obtain rfl := (h.active v form hform).mp hactive
    exact ⟨rfl, hform⟩
  · rintro ⟨rfl, hform⟩
    exact ⟨hform, rfl, (h.active n form hform).mpr rfl⟩

/-- Where every database that the update may see has the same versions, it finds the
active form and closes it. -/
theorem wp_close (hD : FormVersions serviceId D n)
    (hseen : ∀ D₀, G.Earlier [] D₀ D → FormVersions serviceId D₀ n) :
    (Db.serviceForm.updateAll (isActiveForm serviceId) deactivate : TxM Unit).wp G D
      (fun _ L => Closed serviceId D (view L D)) [] := by
  apply Tx.wp_bind
  apply Db.serviceForm.wp_findMany
  intro D₀ h₀
  have hD₀ := hseen D₀ h₀
  have hnodup := Table.nodup_keys_findMany D₀.serviceForms (isActiveForm serviceId)
  have hkeys : ∀ k ∈ (D₀.serviceForms.findMany (isActiveForm serviceId)).map Prod.fst,
      k = (serviceId, n) := by
    intro k hk
    obtain ⟨⟨k', form⟩, hmem, rfl⟩ := List.mem_map.mp hk
    exact ((hD₀.mem_active k' form).mp hmem).1
  -- The row of the last version, in any database with the same versions.
  have hrow : ∀ {D₁ D₂ : Db}, FormVersions serviceId D₁ n → FormVersions serviceId D₂ n →
      ∀ form, D₁.serviceForms.lookup (serviceId, n) = some form →
      ∃ form', D₂.serviceForms.lookup (serviceId, n) = some form' ∧ form'.isActive = true := by
    intro D₁ D₂ h₁ h₂ form hform
    obtain ⟨form', hform'⟩ := Option.isSome_iff_exists.mp
      ((h₂.versions n).mpr ((h₁.versions n).mp (by simp [hform])))
    exact ⟨form', hform', (h₂.active n form' hform').mpr rfl⟩
  simp only [view_nil, Db.serviceForm_rows]
  cases hks : (D₀.serviceForms.findMany (isActiveForm serviceId)).map Prod.fst with
  | nil =>
      refine closed_of_inactive fun v form hform => ?_
      by_contra hactive
      obtain rfl := (hD.active v form hform).mp (by simpa using hactive)
      obtain ⟨form₀, hform₀, -⟩ := hrow hD hD₀ form hform
      have hmem := (hD₀.mem_active _ form₀).mpr ⟨rfl, hform₀⟩
      exact List.ne_nil_of_mem (List.mem_map_of_mem (f := Prod.fst) hmem) hks
  | cons k ks =>
      rw [hks] at hkeys hnodup
      obtain rfl := hkeys k List.mem_cons_self
      obtain rfl : ks = [] := by
        rw [List.eq_nil_iff_forall_not_mem]
        intro k' hk'
        obtain rfl := hkeys k' (List.mem_cons_of_mem _ hk')
        exact (List.nodup_cons.mp hnodup).1 hk'
      obtain ⟨⟨k', form₀⟩, hmem, -⟩ := List.mem_map.mp (hks ▸ List.mem_cons_self)
      obtain ⟨-, hform₀⟩ := (hD₀.mem_active k' form₀).mp hmem
      apply Tx.wp_bind
      refine Db.serviceForm.wp_updateMany (fun D₁ h₁ hnot => ?_) fun form hform _ => ?_
      · obtain ⟨form', hform', hactive⟩ := hrow hD₀ (hseen D₁ h₁) form₀ hform₀
        have hfalse := hnot form' hform'
        simp [isActiveForm, hactive] at hfalse
      · exact hD.closed hform

/-- A publication of another service leaves the versions of this one. -/
theorem wp_publishFormTx_other {other : Id} (hne : serviceId ≠ other) :
    (publishFormTx other version schema).wp G D
      (fun _ L => FormMono serviceId D (view L D)) [] := by
  refine wp_publishFormTx wp_close_elsewhere fun L hL _ => ?_
  rw [view_append]
  exact (hL.write version _).formMono hne

/-- A publication that began after version `n` was read commits version `n + 1` where
it is still missing, and else fails. -/
theorem wp_publishFormTx_own {D₀ D₁ : Db} (h₀ : FormVersions serviceId D₀ n)
    (hm : FormMono serviceId D₀ D₁) (hm' : FormMono serviceId D₁ D) :
    (publishFormTx serviceId (n + 1) schema).wp ((formDiscipline serviceId).since D₁) D
      (fun _ L => FormMono serviceId D (view L D)) [] := by
  obtain ⟨m, hD⟩ := hm'.versions (hm.versions ⟨n, h₀⟩)
  have hn : n ≤ m := h₀.le_of_persists hD fun k hk => hm'.persists k (hm.persists k hk)
  by_cases hlater : n + 1 ≤ m
  · -- Another publication has taken the version, so the insert fails.
    refine wp_publishFormTx wp_close_elsewhere fun L hL hfresh => ?_
    have htaken := hL.persists (serviceId, n + 1) ((hD.versions _).mpr ⟨by omega, hlater⟩)
    simp [hfresh] at htaken
  · obtain rfl : m = n := by omega
    have hseen : ∀ E, ((formDiscipline serviceId).since D₁).Earlier [] E D →
        FormVersions serviceId E m := by
      rintro E ⟨⟨⟨v, hE⟩, hafter⟩, hbefore, -⟩
      have hmv := h₀.le_of_persists hE fun k hk => hafter.persists k (hm.persists k hk)
      obtain rfl : v = m := le_antisymm (hE.le_of_persists hD hbefore.persists) hmv
      exact hE
    refine wp_publishFormTx (wp_close hD hseen) fun L hL _ => ?_
    rw [view_append]
    exact ⟨(hL.elsewhere.write _ _).persists,
      fun _ => ⟨m + 1, hD.publish schema hL.rows hL.closed⟩⟩

end Publication

section Requests

variable {serviceId : Id}

theorem publishForm_safe (c : FormCall) {D : Db} :
    c.request.Safe (formDiscipline serviceId) formService.answers c (fun _ _ => True) D := by
  apply Proc.Safe.bind
  refine Proc.Safe.transaction (fun _ _ _ => trivial) fun D₁ _ => ?_
  apply Db.service.wp_findUnique
  intro D₀ _
  refine ⟨fun h => absurd rfl h, fun D₂ _ => ?_⟩
  cases Db.service.find (view [] D₀) c.serviceId with
  | none => exact fun _ _ => trivial
  | some service =>
  apply Proc.Safe.bind
  refine Proc.Safe.transaction (fun _ _ _ => trivial) fun D₃ _ => Tx.wp_select fun E hE => ?_
  refine ⟨fun h => absurd rfl h, fun D₄ hD₄ => ?_⟩
  obtain ⟨⟨n, hn⟩, hmono, -⟩ := hE
  have hm : FormMono serviceId E D₄ := (formDiscipline serviceId).mono_trans hmono hD₄
  apply Proc.Safe.bind
  refine Proc.Safe.transaction_since (fun _ _ _ => trivial) fun D₅ hD₅ => ?_
  have hcommit : (publishFormTx c.serviceId
      (nextVersion ((view [] E).serviceForms.last (fun key _ => key.1 = c.serviceId) Prod.snd))
      c.schema).wp ((formDiscipline serviceId).since D₄) D₅
      (fun _ L => FormMono serviceId D₅ (view L D₅)) [] := by
    by_cases hown : serviceId = c.serviceId
    · subst hown
      rw [view_nil, hn.nextVersion_eq]
      exact wp_publishFormTx_own hn hm hD₅
    · exact wp_publishFormTx_other hown
  refine Tx.wp_mono (fun updated L hL => ⟨fun _ => hL, fun D₆ _ => ?_⟩) hcommit
  apply Proc.Safe.bind
  refine Proc.Safe.call (fun _ _ _ => trivial) fun _ _ D₇ _ => ?_
  exact fun _ _ => trivial

end Requests

/-- In every committed state the forms of a service that started without any are its
versions `1..n`, of which only the last is active. Any active form, and so the one that
answers are validated against, is the one that the catalogue shows. -/
theorem form_versions_contiguous {D : Db} (serviceId : Id)
    (hstart : ∀ v, D.serviceForms.lookup (serviceId, v) = none) {s : FormServer}
    (run : Server.Reach formService (fun _ => True) (Server.idle D) s) :
    (∃ n, FormVersions serviceId s.db n) ∧
      (∀ v form, s.db.serviceForms.lookup (serviceId, v) = some form → form.isActive = true →
        activeForm serviceId s.db = some (v, form)) ∧
      ∀ service v form L, (ReadingsService.findServiceForm serviceId).run s.db [] =
        .ok ((service, some (v, form)), L) → activeForm serviceId s.db = some (v, form) := by
  have hI : (formDiscipline serviceId).Inv D := ⟨0, formVersions_zero hstart⟩
  obtain ⟨-, _, -, path⟩ := Server.reach_path (G := formDiscipline serviceId)
    (fun c _ D' _ => publishForm_safe c) hI (Server.sound_idle D) run
  obtain ⟨n, hn⟩ := (formDiscipline serviceId).inv_mono
    ((formDiscipline serviceId).path_mono path) hI
  refine ⟨⟨n, hn⟩, fun v form hform hactive => hn.activeForm_eq hform hactive, ?_⟩
  intro service v form L hfind
  obtain ⟨hform, hactive⟩ := findServiceForm_active hfind
  exact hn.activeForm_eq hform hactive

/-- A service without forms. -/
def formlessDb : Db :=
  { Db.empty with
    services := (∅ : Table Id Service).write "three"
      (some ⟨"TAROT_THREE", "Tarot de tres cartas", none, 10, true⟩) }

/-- Two publications that both read that there is no form. The first to insert version 1
commits; the other one fails at its insert, and a third one makes version 2. -/
def publicationSchedule : List (Move FormCall Answer) :=
  [.spawn 0 ⟨"three", .other⟩, .spawn 1 ⟨"three", .dynamic []⟩,
    .start 0, .exec 0, .commit 0, .start 0, .exec 0, .commit 0,
    .start 1, .exec 1, .commit 1, .start 1, .exec 1, .commit 1,
    .start 0, .exec 0, .start 1, .exec 1, .exec 1, .exec 1, .commit 1, .exec 0,
    .spawn 2 ⟨"three", .other⟩, .start 2, .exec 2, .commit 2, .start 2, .exec 2, .commit 2,
    .start 2, .exec 2, .exec 2, .exec 2, .exec 2, .commit 2]

theorem form_versions_contiguous_of_two : ∃ s : FormServer,
    s.db.serviceForms.lookup ("three", 2) = some ⟨.other, true⟩ ∧
    (∃ n, FormVersions "three" s.db n) ∧
      (∀ v form, s.db.serviceForms.lookup ("three", v) = some form → form.isActive = true →
        activeForm "three" s.db = some (v, form)) ∧
      ∀ service v form L, (ReadingsService.findServiceForm "three").run s.db [] =
        .ok ((service, some (v, form)), L) → activeForm "three" s.db = some (v, form) := by
  have published : ∃ s : FormServer, Server.Reach formService (fun _ => True)
      (Server.idle formlessDb) s ∧
      s.db.serviceForms.lookup ("three", 2) = some ⟨.other, true⟩ :=
    ⟨_, Server.Reach.refl.run publicationSchedule
      (by simp [publicationSchedule, Move.Admissible, formService]) rfl, rfl⟩
  obtain ⟨s, run, hs⟩ := published
  exact ⟨s, hs, form_versions_contiguous (D := formlessDb) "three" (fun _ => rfl) run⟩

end TaroTria
