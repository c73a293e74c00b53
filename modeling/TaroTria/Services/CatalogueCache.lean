import Mathlib.Data.List.Sort
import TaroTria.Services.FormVersions
import TaroTria.Transactions.CacheAside

/-!
# The cached catalogues

The lists of services and of credit packages, which are kept in Redis for five
minutes. The administration of the services deletes their list after each change; the
packages have no administration. The lists are read and changed by any number of
requests at the same time.

## Implementation notes

An entry holds the list itself, which its JSON text gives back. The columns that no
service writes, and which the tables therefore leave out, are given beside them. The
rows of equal rank stand in the order of the table.
-/

namespace TaroTria

open Transactions CacheAside

def SERVICES_LIST_CACHE_TTL_SECONDS : Nat := 5 * 60

def CREDIT_PACKAGES_LIST_CACHE_KEY : String := "credit-packages:list"

def CREDIT_PACKAGES_LIST_CACHE_TTL_SECONDS : Nat := 5 * 60

/-- The texts of a credit package. -/
structure PackageTexts where
  name : String
  description : Option String
  isRecommended : Bool
  deriving DecidableEq, Repr

/-- The columns that no service writes. -/
structure StaticColumns where
  createdAt : Id → Time
  texts : String → PackageTexts

structure CreditPackageSummary where
  code : String
  name : String
  description : Option String
  credits : Nat
  priceCents : Int
  currency : String
  isRecommended : Bool
  deriving DecidableEq, Repr

def toCreditPackageSummary (T : StaticColumns) (code : String) (pkg : CreditPackage) :
    CreditPackageSummary where
  code := code
  name := (T.texts code).name
  description := (T.texts code).description
  credits := pkg.credits
  priceCents := pkg.priceCents
  currency := pkg.currency
  isRecommended := (T.texts code).isRecommended

/-- A list as it is cached. -/
inductive CachedList
  | services (list : List PublicService)
  | packages (list : List CreditPackageSummary)
  deriving DecidableEq, Repr

/-- A request over the database and the cache of lists. -/
abbrev CacheRequest := Proc Db RowWrite Err (CacheAnswer (K := String) (V := CachedList))

/-- A request whose only calls delete entries, over the cache of lists. -/
def onCache {α : Type} : Request α → CacheRequest α
  | .ret a => .ret a
  | .throw e => .throw e
  | .tx body next => .tx body fun r => onCache (next r)
  | .ask (.cacheDel key) next => .ask (.del key) fun r => onCache (next r)
  | .ask _ _ => .throw .fault

/-- The changes of a service that an administrator asks for. -/
structure ServiceUpdate where
  name : Option String
  description : Option (Option String)
  creditCost : Option Nat
  isActive : Option Bool

def ServiceUpdate.apply (data : ServiceUpdate) (service : Service) : Service :=
  { service with
    name := data.name.getD service.name
    description := data.description.getD service.description
    creditCost := data.creditCost.getD service.creditCost
    isActive := data.isActive.getD service.isActive }

namespace ServicesService

variable (T : StaticColumns)

/-- Some services, the oldest first, each with its active form. -/
def listed (D : Db) (p : Service → Bool) : List ServiceWithActiveForm :=
  ((D.services.findMany fun _ service => p service).mergeSort fun a b =>
    T.createdAt a.1 ≤ T.createdAt b.1).map fun row =>
      { id := row.1, service := row.2, form := activeForm row.1 D }

/-- The list of the active services. -/
def activeServices (D : Db) : CachedList :=
  .services ((listed T D Service.isActive).map toPublicService)

def listActive : CacheRequest (Option CachedList) := do
  match ← cacheGet SERVICES_LIST_CACHE_KEY with
  | some cached => return some cached
  | none =>
      let result ← Proc.transaction (Tx.select (activeServices T))
      cacheSet SERVICES_LIST_CACHE_KEY SERVICES_LIST_CACHE_TTL_SECONDS result
      return some result

def listAll : CacheRequest (List AdminService) := do
  let services ← Proc.transaction (Tx.select fun D => listed T D fun _ => true)
  return services.map toAdminService

/-- `service.update` with `ACTIVE_FORM_INCLUDE`. -/
def updateTx (id : Id) (data : ServiceUpdate) : TxM ServiceWithActiveForm := do
  let _ ← Db.service.update id data.apply
  findWithActiveForm id

def update (id : Id) (data : ServiceUpdate) : CacheRequest AdminService := do
  let some _ ← Proc.transaction (Db.service.findUnique id)
    | throw serviceNotFound
  let updated ← Proc.transaction (updateTx id data)
  cacheDel CachedList SERVICES_LIST_CACHE_KEY
  return toAdminService updated

end ServicesService

namespace CreditPackagesService

variable (T : StaticColumns)

/-- The list of the active packages, the most expensive first. -/
def activePackages (D : Db) : CachedList :=
  .packages (((D.creditPackages.findMany fun _ pkg => pkg.isActive).mergeSort fun a b =>
    b.2.priceCents ≤ a.2.priceCents).map fun row => toCreditPackageSummary T row.1 row.2)

def listActive : CacheRequest (Option CachedList) := do
  match ← cacheGet CREDIT_PACKAGES_LIST_CACHE_KEY with
  | some cached => return some cached
  | none =>
      let result ← Proc.transaction (Tx.select (activePackages T))
      cacheSet CREDIT_PACKAGES_LIST_CACHE_KEY CREDIT_PACKAGES_LIST_CACHE_TTL_SECONDS result
      return some result

end CreditPackagesService

/-- The requests that read or change the catalogues. -/
inductive CatalogueCall
  | listServices
  | listPackages
  | listAllServices
  | updateService (id : Id) (data : ServiceUpdate)
  | publishForm (serviceId : Id) (schema : FormSchema)

namespace CatalogueCall

/-- The list that a request reads through the cache. -/
def reads : CatalogueCall → Option String
  | listServices => some SERVICES_LIST_CACHE_KEY
  | listPackages => some CREDIT_PACKAGES_LIST_CACHE_KEY
  | listAllServices | updateService _ _ | publishForm _ _ => none

/-- A request, with the cached list that it answers. -/
def request (T : StaticColumns) : CatalogueCall → CacheRequest (Option CachedList)
  | listServices => ServicesService.listActive T
  | listPackages => CreditPackagesService.listActive T
  | listAllServices => do
      let _ ← ServicesService.listAll T
      return none
  | updateService id data => do
      let _ ← ServicesService.update id data
      return none
  | publishForm serviceId schema => do
      let _ ← onCache (ServicesService.publishForm serviceId schema)
      return none

end CatalogueCall

/-- The list under a key, computed from the database. -/
def catalogueLoad (T : StaticColumns) (key : String) (D : Db) : Except Err CachedList :=
  if key = SERVICES_LIST_CACHE_KEY then .ok (ServicesService.activeServices T D)
  else if key = CREDIT_PACKAGES_LIST_CACHE_KEY then .ok (CreditPackagesService.activePackages T D)
  else .error .fault

/-- The lifetime of the list under a key, in seconds. -/
def catalogueTtl (key : String) : Nat :=
  if key = SERVICES_LIST_CACHE_KEY then SERVICES_LIST_CACHE_TTL_SECONDS
  else CREDIT_PACKAGES_LIST_CACHE_TTL_SECONDS

section Reading

variable (T : StaticColumns)

theorem listServices_eq : ServicesService.listActive T =
    reading (catalogueLoad T SERVICES_LIST_CACHE_KEY) SERVICES_LIST_CACHE_KEY
      (catalogueTtl SERVICES_LIST_CACHE_KEY) := by
  have hload : catalogueLoad T SERVICES_LIST_CACHE_KEY =
      fun D => .ok (ServicesService.activeServices T D) := rfl
  have httl : catalogueTtl SERVICES_LIST_CACHE_KEY = SERVICES_LIST_CACHE_TTL_SECONDS := rfl
  rw [hload, httl]
  unfold ServicesService.listActive reading
  congr 1
  funext found
  cases found with
  | some cached => rfl
  | none => rfl

theorem listPackages_eq : CreditPackagesService.listActive T =
    reading (catalogueLoad T CREDIT_PACKAGES_LIST_CACHE_KEY) CREDIT_PACKAGES_LIST_CACHE_KEY
      (catalogueTtl CREDIT_PACKAGES_LIST_CACHE_KEY) := by
  have hload : catalogueLoad T CREDIT_PACKAGES_LIST_CACHE_KEY =
      fun D => .ok (CreditPackagesService.activePackages T D) := rfl
  have httl : catalogueTtl CREDIT_PACKAGES_LIST_CACHE_KEY =
      CREDIT_PACKAGES_LIST_CACHE_TTL_SECONDS := rfl
  rw [hload, httl]
  unfold CreditPackagesService.listActive reading
  congr 1
  funext found
  cases found with
  | some cached => rfl
  | none => rfl

end Reading

section Updating

variable {T : StaticColumns}

/-- A change of services and forms changes their list only. -/
theorem catalogueLoad_eq {D D' : Db} (h : D'.creditPackages = D.creditPackages) {key : String}
    (hkey : key ≠ SERVICES_LIST_CACHE_KEY) : catalogueLoad T key D' = catalogueLoad T key D := by
  simp only [catalogueLoad, hkey, if_false, CreditPackagesService.activePackages, h]

open ServicesService

theorem packages_updateTx {id : Id} {data : ServiceUpdate} {D : Db} {a : ServiceWithActiveForm}
    {L : List RowWrite} (h : (updateTx id data).run D [] = .ok (a, L)) :
    (view L D).creditPackages = D.creditPackages := by
  have hwp : (updateTx id data).wp still D
      (fun _ L => (view L D).creditPackages = D.creditPackages) [] := by
    apply Tx.wp_bind
    apply Db.service.wp_update
    intro service _
    apply Tx.wp_selectOrThrow
    intro _ _ _ _
    rfl
  exact Tx.run_of_wp (P := fun _ L => (view L D).creditPackages = D.creditPackages) hwp h

theorem packages_publishFormTx {serviceId : Id} {version : Nat} {schema : FormSchema} {D : Db}
    {a : ServiceWithActiveForm} {L : List RowWrite}
    (h : (publishFormTx serviceId version schema).run D [] = .ok (a, L)) :
    (view L D).creditPackages = D.creditPackages := by
  have hclose : (Db.serviceForm.updateAll (isActiveForm serviceId) deactivate : TxM Unit).wp still D
      (fun _ L => (view L D).creditPackages = D.creditPackages) [] := by
    apply Tx.wp_bind
    apply Db.serviceForm.wp_findMany
    intro D₀ _
    refine Db.serviceForm.wp_updateEach rfl fun k form L _ hL _ => ?_
    rw [view_append]
    exact hL
  have hwp : (publishFormTx serviceId version schema).wp still D
      (fun _ L => (view L D).creditPackages = D.creditPackages) [] :=
    wp_publishFormTx (P := fun L => (view L D).creditPackages = D.creditPackages) hclose
      fun L hL _ => by
        rw [view_append]
        exact hL
  exact Tx.run_of_wp (P := fun _ L => (view L D).creditPackages = D.creditPackages) hwp h

theorem updates_update (id : Id) (data : ServiceUpdate) :
    Updates (catalogueLoad T) none (do let _ ← update id data; return none) := by
  unfold update
  rw [bind_assoc]
  refine .select fun found => ?_
  cases found with
  | none => trivial
  | some service =>
      simp only [bind_assoc]
      refine .commit (k := SERVICES_LIST_CACHE_KEY) (fun D a L hrun key hkey =>
        catalogueLoad_eq (packages_updateTx hrun) hkey) fun updated => ?_
      exact .delete rfl

theorem onCache_bind {α β : Type} (p : Request α) (f : α → Request β) :
    onCache (p >>= f) = onCache p >>= fun a => onCache (f a) := by
  induction p with
  | ret a => rfl
  | throw e => rfl
  | tx body next ih =>
      simp only [Proc.tx_bind, onCache]
      exact congrArg _ (funext ih)
  | ask q next ih =>
      cases q with
      | cacheDel key =>
          simp only [Proc.ask_bind, onCache]
          exact congrArg _ (funext ih)
      | _ => rfl

theorem onCache_transaction {α : Type} (body : TxM α) :
    onCache (Proc.transaction body) = Proc.transaction body := by
  simp only [Proc.transaction, onCache]
  congr 1
  funext r
  cases r <;> rfl

theorem onCache_del (key : String) :
    onCache (Proc.call (Query.cacheDel key) : Request (Answer (.cacheDel key))) =
      cacheDel CachedList key := by
  simp only [Proc.call, onCache, cacheDel]
  congr 1
  funext r
  cases r <;> rfl

theorem updates_publishForm (serviceId : Id) (schema : FormSchema) :
    Updates (catalogueLoad T) none
      (do let _ ← onCache (publishForm serviceId schema); return none) := by
  unfold publishForm
  simp only [onCache_bind, onCache_transaction, bind_assoc]
  refine .select fun found => ?_
  cases found with
  | none => trivial
  | some service =>
      simp only [onCache_bind, onCache_transaction, bind_assoc]
      refine .select fun lastForm => ?_
      refine .commit (k := SERVICES_LIST_CACHE_KEY) (fun D a L hrun key hkey =>
        catalogueLoad_eq (packages_publishFormTx hrun) hkey) fun updated => ?_
      rw [onCache_del]
      exact .delete rfl

theorem updates_listAll :
    Updates (catalogueLoad T) none (do let _ ← listAll T; return none) := by
  unfold listAll
  rw [bind_assoc]
  exact .select fun services => rfl

end Updating

/-- The catalogues as cached values. -/
def catalogue (T : StaticColumns) : Scheme Db RowWrite Err String CachedList CatalogueCall where
  load := catalogueLoad T
  ttl := catalogueTtl
  reads := CatalogueCall.reads
  prog := CatalogueCall.request T
  reading c key h := by
    cases c with
    | listServices =>
        cases h
        exact listServices_eq T
    | listPackages =>
        cases h
        exact listPackages_eq T
    | _ => cases h
  updating c h := by
    cases c with
    | listServices => cases h
    | listPackages => cases h
    | listAllServices => exact updates_listAll
    | updateService id data => exact updates_update id data
    | publishForm serviceId schema => exact updates_publishForm serviceId schema

section Runs

variable {T : StaticColumns}

/-- One request is being served, or none is. -/
def solo (w : Cache String CachedList) (D : Db)
    (task : Option (CatalogueCall × CacheRequest (Option CachedList))) :
    State Db RowWrite Err String CachedList CatalogueCall :=
  ⟨w, D, Function.update (fun _ => none) 0 task⟩

variable (T) in
/-- A step of a calm run. -/
def CalmStep (s s' : State Db RowWrite Err String CachedList CatalogueCall) : Prop :=
  (catalogue T).Step s s' ∧ Calm (catalogue T) s s'

variable (T) in
/-- A step that changes nothing in the database and owes no deletion. -/
def QuietStep (s s' : State Db RowWrite Err String CachedList CatalogueCall) : Prop :=
  (catalogue T).Step s s' ∧ Calm (catalogue T) s s' ∧ s'.db = s.db

theorem solo_idle (n : Nat) (D : Db) : Idle (solo (.empty n) D none) :=
  ⟨fun _ => rfl, fun _ => by simp [solo]⟩

theorem solo_task (w : Cache String CachedList) (D : Db)
    (task : Option (CatalogueCall × CacheRequest (Option CachedList))) :
    (solo w D task).tasks 0 = task := by
  simp only [solo, Function.update_self]

theorem solo_tasks {w : Cache String CachedList} {D : Db}
    {task : Option (CatalogueCall × CacheRequest (Option CachedList))} {t : Nat}
    {k : CatalogueCall × CacheRequest (Option CachedList)}
    (ht : (solo w D task).tasks t = some k) : t = 0 ∧ task = some k := by
  by_cases h0 : t = 0
  · subst h0
    exact ⟨rfl, solo_task w D task ▸ ht⟩
  · simp only [solo, Function.update_of_ne h0] at ht
    cases ht

theorem quietStep_solo {w w' : Cache String CachedList} {D : Db}
    {task task' : Option (CatalogueCall × CacheRequest (Option CachedList))}
    {s' : State Db RowWrite Err String CachedList CatalogueCall}
    (step : (catalogue T).Step (solo w D task) s') (heq : s' = solo w' D task')
    (hdel : ∀ c k next, task = some (c, .ask (.del k) next) → w'.entries k = none) :
    QuietStep T (solo w D task) (solo w' D task') := by
  subst heq
  exact ⟨step, ⟨fun _ _ => rfl, fun _ _ _ _ _ _ _ _ => rfl,
    fun t c k next ht => .inr (hdel c k next (solo_tasks ht).2)⟩, rfl⟩

theorem QuietStep.calm {s s' : State Db RowWrite Err String CachedList CatalogueCall}
    (h : QuietStep T s s') : CalmStep T s s' := ⟨h.1, h.2.1⟩

/-- A transaction commits, and its request goes on with what it does not do on an error,
or nothing is changed. -/
theorem calmStep_commit {β : Type} {body : TxM β}
    {next : Except Err β → CacheRequest (Option CachedList)} {w : Cache String CachedList}
    {D D' : Db} {c : CatalogueCall} {p : CacheRequest (Option CachedList)}
    (hdb : view (body.outcome D .done).1 D = D') (hp : next (body.outcome D .done).2 = p)
    (hcalm : D' = D ∨ ∀ e, p ≠ next (.error e)) :
    CalmStep T (solo w D (some (c, .tx body next))) (solo w D' (some (c, p))) := by
  subst hdb hp
  have hstep : (catalogue T).Step (solo w D (some (c, .tx body next))) _ :=
    .commit 0 c (solo_task ..) .done trivial
  simp only [solo, Function.update_idem] at hstep
  refine ⟨hstep, ?_, ?_, ?_⟩
  · rintro k ⟨t, c', v, ht⟩
    cases (solo_tasks ht).2
  · intro t c' γ body' next' e ht ht'
    cases (solo_tasks ht).2
    exact hcalm.resolve_right fun h =>
      h e (Prod.mk.inj (Option.some.inj (solo_tasks ht').2)).2
  · intro t c' k next' ht
    cases (solo_tasks ht).2

theorem solo_finishes (w : Cache String CachedList) (D : Db) (c : CatalogueCall)
    (a : Option CachedList) : QuietStep T (solo w D (some (c, .ret a))) (solo w D none) :=
  quietStep_solo (.finish 0 c a (solo_task ..)) (by simp only [solo, Function.update_idem]; rfl)
    (by simp)

theorem solo_starts (w : Cache String CachedList) (D : Db) (c : CatalogueCall) :
    QuietStep T (solo w D none) (solo w D (some (c, CatalogueCall.request T c))) :=
  quietStep_solo (.start 0 c (solo_task ..)) (by simp only [solo, Function.update_idem]; rfl)
    (by simp)

/-- A call is made and answered. -/
theorem solo_answers (w : Cache String CachedList) (D : Db) (c : CatalogueCall)
    (q : CacheQuery String CachedList)
    (next : Except Err (CacheAnswer q) → CacheRequest (Option CachedList)) :
    QuietStep T (solo w D (some (c, .ask q next)))
      (solo (w.answer q).2 D (some (c, next (.ok (w.answer q).1)))) := by
  have hreply : Replies q w (.ok (w.answer q).1 : Except Err _) (w.answer q).2 :=
    ⟨.done, rfl, rfl⟩
  refine quietStep_solo (.answer 0 c (solo_task ..) _ _ hreply trivial)
    (by simp only [solo, Function.update_idem]) fun c' k next' heq => ?_
  cases heq
  simp [Cache.answer, Cache.drop]

/-- A request for the list of services that finds no entry. -/
theorem listServices_serves {w : Cache String CachedList}
    (hget : w.get SERVICES_LIST_CACHE_KEY = none) (D : Db) :
    Relation.ReflTransGen (QuietStep T) (solo w D none)
      (solo (w.put SERVICES_LIST_CACHE_KEY (ServicesService.activeServices T D)
          SERVICES_LIST_CACHE_TTL_SECONDS) D
        (some (.listServices, .ret (some (ServicesService.activeServices T D))))) := by
  have hfind : QuietStep T (solo w D (some (.listServices, ServicesService.listActive T)))
      (solo w D (some (.listServices, loading (catalogueLoad T SERVICES_LIST_CACHE_KEY)
        SERVICES_LIST_CACHE_KEY SERVICES_LIST_CACHE_TTL_SECONDS))) := by
    have hanswer := solo_answers (T := T) w D .listServices (.get SERVICES_LIST_CACHE_KEY)
    simp only [Cache.answer, hget] at hanswer
    rw [listServices_eq]
    exact hanswer _
  have hload : QuietStep T (solo w D (some (.listServices,
        loading (catalogueLoad T SERVICES_LIST_CACHE_KEY) SERVICES_LIST_CACHE_KEY
          SERVICES_LIST_CACHE_TTL_SECONDS)))
      (solo w D (some (.listServices, storing SERVICES_LIST_CACHE_KEY
        SERVICES_LIST_CACHE_TTL_SECONDS (ServicesService.activeServices T D)))) :=
    quietStep_solo (.commit 0 .listServices (solo_task ..) .done trivial)
      (by simp only [solo, Function.update_idem]; rfl) (by simp [loading, Proc.transaction])
  exact .tail (.tail (.tail (.single (solo_starts ..)) hfind) hload) (solo_answers ..)

/-- A request for the list of services that finds an entry. -/
theorem listServices_finds {w : Cache String CachedList} {list : CachedList}
    (hget : w.get SERVICES_LIST_CACHE_KEY = some list) (D : Db) :
    Relation.ReflTransGen (QuietStep T) (solo w D none)
      (solo w D (some (.listServices, .ret (some list)))) := by
  have hfind : QuietStep T (solo w D (some (.listServices, ServicesService.listActive T)))
      (solo w D (some (.listServices, .ret (some list)))) := by
    have hanswer := solo_answers (T := T) w D .listServices (.get SERVICES_LIST_CACHE_KEY)
    simp only [Cache.answer, hget] at hanswer
    rw [listServices_eq]
    exact hanswer _
  exact .tail (.single (solo_starts ..)) hfind

/-- The columns of rows that are all of one moment. -/
def plainColumns : StaticColumns := ⟨fun _ => 0, fun _ => ⟨"", none, false⟩⟩

/-- A service costs five credits from now on. -/
def cheaper : ServiceUpdate := ⟨none, none, some 5, none⟩

/-- The service of `formlessDb` after that change. -/
def cheaperDb : Db :=
  { formlessDb with
    services := formlessDb.services.write "three"
      (some (cheaper.apply ⟨"TAROT_THREE", "Tarot de tres cartas", none, 10, true⟩)) }

/-- The change commits and owes the deletion of the list. -/
theorem updateService_commits (w : Cache String CachedList) :
    ∃ next : Except Err Unit → CacheRequest (Option CachedList), next (.ok ()) = .ret none ∧
      Relation.ReflTransGen (CalmStep T) (solo w formlessDb none) (solo w cheaperDb
        (some (.updateService "three" cheaper, .ask (.del SERVICES_LIST_CACHE_KEY) next))) := by
  have hstart := (solo_starts (T := T) w formlessDb (.updateService "three" cheaper)).calm
  refine ⟨_, ?_, .tail (.tail (.single hstart) (calmStep_commit rfl rfl (.inl rfl)))
    (calmStep_commit rfl rfl (.inr fun e h => by cases h))⟩
  rfl

/-- A request has stored the list of services and answers with it. -/
def listServed (w : Cache String CachedList) (D : Db) :
    State Db RowWrite Err String CachedList CatalogueCall :=
  solo (w.put SERVICES_LIST_CACHE_KEY (ServicesService.activeServices plainColumns D)
      SERVICES_LIST_CACHE_TTL_SECONDS) D
    (some (.listServices, .ret (some (ServicesService.activeServices plainColumns D))))

/-- The change is served and deletes the list. -/
theorem updateService_serves (w : Cache String CachedList) :
    Relation.ReflTransGen (CalmStep T) (solo w formlessDb none)
      (solo (w.drop SERVICES_LIST_CACHE_KEY) cheaperDb none) := by
  obtain ⟨next, hnext, run⟩ := updateService_commits (T := T) w
  have hdelete := solo_answers (T := T) w cheaperDb (.updateService "three" cheaper)
    (.del SERVICES_LIST_CACHE_KEY) next
  simp only [Cache.answer, hnext] at hdelete
  exact .tail (.tail run hdelete.calm) (solo_finishes ..).calm

/-- The process of the change dies when the change is committed and the list is not deleted. -/
theorem updateService_dies (w : Cache String CachedList) :
    (catalogue T).Reach (solo w formlessDb none) (solo w cheaperDb none) := by
  obtain ⟨next, -, run⟩ := updateService_commits (T := T) w
  have hstop : (catalogue T).Step (solo w cheaperDb (some (.updateService "three" cheaper,
      .ask (.del SERVICES_LIST_CACHE_KEY) next))) _ := .stop 0
  simp only [solo, Function.update_idem] at hstop
  exact .tail (Relation.ReflTransGen.mono (fun _ _ h => h.1) _ _ run) hstop

/-- A cache that holds the list of services of the database before the change. -/
def oldList : Cache String CachedList :=
  (Cache.empty 0).put SERVICES_LIST_CACHE_KEY
    (ServicesService.activeServices plainColumns formlessDb) SERVICES_LIST_CACHE_TTL_SECONDS

/-- The list of services is requested once. -/
theorem listServices_fills : Relation.ReflTransGen (QuietStep plainColumns)
    (solo (.empty 0) formlessDb none) (solo oldList formlessDb none) :=
  .tail (listServices_serves rfl formlessDb) (solo_finishes ..)

theorem get_oldList : oldList.get SERVICES_LIST_CACHE_KEY =
    some (ServicesService.activeServices plainColumns formlessDb) :=
  Cache.get_put _ _ _ (by decide)

theorem get_drop_oldList :
    (oldList.drop SERVICES_LIST_CACHE_KEY).get SERVICES_LIST_CACHE_KEY = none := by
  simp [Cache.get, Cache.drop]

/-- The cache with the old list at the end of its lifetime. -/
def expiredList : Cache String CachedList := { oldList with now := SERVICES_LIST_CACHE_TTL_SECONDS }

theorem get_expiredList : expiredList.get SERVICES_LIST_CACHE_KEY = none := by
  simp [Cache.get, expiredList, oldList, Cache.put, Cache.empty]

/-- The change shows in the list. -/
theorem activeServices_cheaperDb : ServicesService.activeServices plainColumns cheaperDb ≠
    ServicesService.activeServices plainColumns formlessDb := by
  decide +kernel

variable {s₀ s₁ s : State Db RowWrite Err String CachedList CatalogueCall} {key : String}
  {list : CachedList}

/-- Whatever list a request answers with was the list in the database at some moment of
the run, however calls, transactions and processes failed. -/
theorem catalogue_answers_committed (h₀ : Idle s₀) (run : (catalogue T).Reach s₀ s) {t : Nat}
    {c : CatalogueCall} (hc : c.reads = some key)
    (ht : s.tasks t = some (c, .ret (some list))) :
    ∃ s', (catalogue T).Reach s₀ s' ∧ (catalogue T).Reach s' s ∧
      catalogueLoad T key s'.db = .ok list :=
  answer_loaded h₀ run hc ht

/-- The deletion of a list is lost after a change. The next request answers with the old
list, which is not the one in the database and was it before. -/
theorem catalogue_answers_committed_of_lost_deletion :
    ∃ s : State Db RowWrite Err String CachedList CatalogueCall, s.tasks 0 = some (.listServices,
      .ret (some (ServicesService.activeServices plainColumns formlessDb))) ∧
    catalogueLoad plainColumns SERVICES_LIST_CACHE_KEY s.db ≠
      .ok (ServicesService.activeServices plainColumns formlessDb) ∧
    ∃ s', (catalogue plainColumns).Reach (solo (.empty 0) formlessDb none) s' ∧
      (catalogue plainColumns).Reach s' s ∧
      catalogueLoad plainColumns SERVICES_LIST_CACHE_KEY s'.db =
        .ok (ServicesService.activeServices plainColumns formlessDb) := by
  have fills : (catalogue plainColumns).Reach _ _ :=
    Relation.ReflTransGen.mono (fun _ _ h => h.1) _ _ listServices_fills
  have finds : (catalogue plainColumns).Reach _ _ :=
    Relation.ReflTransGen.mono (fun _ _ h => h.1) _ _ (listServices_finds get_oldList cheaperDb)
  have run := (fills.trans (updateService_dies oldList)).trans finds
  exact ⟨_, solo_task .., fun h => activeServices_cheaperDb (Except.ok.inj h),
    catalogue_answers_committed (solo_idle 0 formlessDb) run (c := .listServices) rfl
      (solo_task ..)⟩

/-- In a run in which no change falls between the loading and the storing of a list, and
no deletion is lost, every list in the cache is the one in the database, unless a change
is about to delete it. -/
theorem catalogue_current_when_calm (h₀ : Idle s₀)
    (run : Relation.ReflTransGen
      (fun s s' => (catalogue T).Step s s' ∧ Calm (catalogue T) s s') s₀ s)
    (hget : s.world.get key = some list) :
    catalogueLoad T key s.db = .ok list ∨ Owing s key :=
  entry_current h₀ run hget

/-- A list is requested, a service is changed, and the list is requested again. -/
theorem catalogue_current_when_calm_of_update :
    ∃ s : State Db RowWrite Err String CachedList CatalogueCall,
    s.world.get SERVICES_LIST_CACHE_KEY =
      some (ServicesService.activeServices plainColumns cheaperDb) ∧
    (catalogueLoad plainColumns SERVICES_LIST_CACHE_KEY s.db =
      .ok (ServicesService.activeServices plainColumns cheaperDb) ∨
        Owing s SERVICES_LIST_CACHE_KEY) := by
  have fills := Relation.ReflTransGen.mono (fun _ _ h => h.calm) _ _ listServices_fills
  have again := Relation.ReflTransGen.mono (fun _ _ h => h.calm) _ _
    (listServices_serves (T := plainColumns) get_drop_oldList cheaperDb)
  have run := (fills.trans (updateService_serves oldList)).trans again
  have stored := Cache.get_put (oldList.drop SERVICES_LIST_CACHE_KEY) SERVICES_LIST_CACHE_KEY
    (ServicesService.activeServices plainColumns cheaperDb)
    (show 0 < SERVICES_LIST_CACHE_TTL_SECONDS by decide)
  exact ⟨listServed _ _, stored,
    catalogue_current_when_calm (solo_idle 0 formlessDb) run stored⟩

/-- Once a list has not changed for its lifetime, and no request held an older one when
it changed, the list in the cache is the one in the database, whatever was lost before. -/
theorem catalogue_current_after_lifetime (h₀ : Idle s₀) (run : (catalogue T).Reach s₀ s₁)
    (hunheld : ¬ Storing (catalogue T) s₁ key)
    (run' : Relation.ReflTransGen (fun s s' => (catalogue T).Step s s' ∧
      catalogueLoad T key s'.db = catalogueLoad T key s.db) s₁ s)
    (hlong : s₁.world.now + catalogueTtl key ≤ s.world.now)
    (hget : s.world.get key = some list) : catalogueLoad T key s.db = .ok list :=
  entry_current_of_expiry h₀ run hunheld run' hlong hget

/-- The deletion of a list is lost after a change. When its lifetime is over, the list is
requested again. -/
theorem catalogue_current_after_lifetime_of_lost_deletion :
    ∃ s : State Db RowWrite Err String CachedList CatalogueCall,
    s.world.get SERVICES_LIST_CACHE_KEY =
      some (ServicesService.activeServices plainColumns cheaperDb) ∧
    catalogueLoad plainColumns SERVICES_LIST_CACHE_KEY s.db =
      .ok (ServicesService.activeServices plainColumns cheaperDb) := by
  have fills : (catalogue plainColumns).Reach _ _ :=
    Relation.ReflTransGen.mono (fun _ _ h => h.1) _ _ listServices_fills
  have lost := fills.trans (updateService_dies oldList)
  have unheld : ¬ Storing (catalogue plainColumns) (solo oldList cheaperDb none)
      SERVICES_LIST_CACHE_KEY := by
    rintro ⟨t, c, v, ht⟩
    cases (solo_tasks ht).2
  -- nothing happens for the lifetime of the list, and then it is requested
  have passes : Cache.Passes oldList expiredList := ⟨by decide, fun _ => .inl rfl⟩
  have wait : (catalogue plainColumns).Step (solo oldList cheaperDb none)
      (solo expiredList cheaperDb none) := Setting.Step.move expiredList passes trivial
  have again := listServices_serves (T := plainColumns) get_expiredList cheaperDb
  have stored := Cache.get_put expiredList SERVICES_LIST_CACHE_KEY
    (ServicesService.activeServices plainColumns cheaperDb)
    (show 0 < SERVICES_LIST_CACHE_TTL_SECONDS by decide)
  have steps := Relation.ReflTransGen.head (r := fun s s' => (catalogue plainColumns).Step s s' ∧
      catalogueLoad plainColumns SERVICES_LIST_CACHE_KEY s'.db =
        catalogueLoad plainColumns SERVICES_LIST_CACHE_KEY s.db) ⟨wait, rfl⟩
    (Relation.ReflTransGen.mono
      (fun _ _ h => ⟨h.1, congrArg (catalogueLoad plainColumns _) h.2.2⟩) _ _ again)
  exact ⟨listServed _ _, stored, catalogue_current_after_lifetime (solo_idle 0 formlessDb) lost
    unheld steps (by decide) stored⟩

end Runs

end TaroTria
