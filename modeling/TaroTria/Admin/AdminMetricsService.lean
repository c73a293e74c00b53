import Mathlib.Algebra.BigOperators.Group.List.Lemmas
import Mathlib.Algebra.Order.BigOperators.Group.List
import Mathlib.Data.List.Sort
import Mathlib.Tactic.Positivity
import TaroTria.Numbers.Double
import TaroTria.Prisma.Client

/-!
# The metrics of the admin dashboard

`admin-metrics.service.ts`: a report over users, readings, orders, executions of
prompts and rewarded ads. Its queries run in parallel and without a transaction,
so each one reads the rows committed at a moment of its own.

## Implementation notes

A rate is the double of the quotient of two counts, as a rational number. The
estimate of what the AI cost and the margin over it come from a column of decimals
and are left out. The rows of a `groupBy` have no promised order; they stand in the
order of their first row.
-/

namespace TaroTria

namespace AdminMetricsService

open Transactions

def TAROT_SERVICE_CODES : List String := ["TAROT_THREE", "TAROT_FIVE", "TAROT_TEN"]

def REWARD_TYPES : List RewardType :=
  [.DAILY_CARD_UNLOCK, .TAROT_READING_UNLOCK, .FLASH_OFFER_UNLOCK]

/-- The queries of the report. -/
inductive MetricsQuery
  | users | readingsByStatus | paidOrders | usersWithPurchase | aiExecutions | aiFailures
  | tarotServices | tarotReadings | tarotDraws | readingsWithDraws | tarotReservations
  | totalTarotReadings | createdSessions | completedSessions | rewardedUsers | purchasedUsers
  deriving DecidableEq, Repr

/-- The rows that each query reads. -/
abbrev Snapshots := MetricsQuery → Db

/-- `n / d`, or zero when there is nothing to divide by. -/
def ratio (n d : Nat) : ℚ := if 0 < d then Double.divide n d else 0

structure TarotDepthBreakdownEntry where
  code : String
  readingsCount : Nat
  percentage : ℚ

structure RewardTypeFunnel where
  sessionsCreated : Nat
  sessionsCompleted : Nat
  completionRate : ℚ

structure RewardFunnelMetrics where
  sessionsCreated : Nat
  sessionsCompleted : Nat
  completionRate : ℚ
  byType : List (RewardType × RewardTypeFunnel)

structure AdminMetrics where
  totalUsers : Nat
  readingsByStatus : List (ReadingStatus × Nat)
  paidOrdersCount : Nat
  revenueCents : Int
  currency : String
  usersWithAtLeastOnePurchase : Nat
  conversionRate : ℚ
  aiExecutionsCount : Nat
  aiFailuresCount : Nat
  tarotDepthBreakdown : List TarotDepthBreakdownEntry
  avgCardsPerReading : ℚ
  avgCreditsPerTarotReading : ℚ
  readingsPerUser : ℚ
  rewardFunnel : RewardFunnelMetrics
  adToPurchaseConversionRate : ℚ

/-- The distinct values of a column, with the number of rows of each. -/
def groupBy {A : Type} [DecidableEq A] (values : List A) : List (A × Nat) :=
  values.dedup.map fun a => (a, values.count a)

/-- `Array.prototype.indexOf` -/
def indexOf (codes : List String) (code : String) : Int :=
  if code ∈ codes then codes.idxOf code else -1

/-- The reading is of a service with one of the tarot codes. -/
def isTarotReading (D : Db) (r : Reading) : Bool :=
  (D.services.lookup r.serviceId).any fun s => s.code ∈ TAROT_SERVICE_CODES

def paidOrders (D : Db) : List (Id × Order) := D.orders.findMany fun _ o => o.status = .PAID

/-- The users with a paid order, each once. -/
def purchasedUserIds (D : Db) : List Id := ((paidOrders D).map fun e => e.2.userId).dedup

/-- The users with a recorded ad, each once. -/
def rewardedUserIds (D : Db) : List Id :=
  ((D.rewardTransactions.findMany fun _ _ => true).map fun e => e.2.userId).dedup

/-- The tarot services with their codes. -/
def tarotServices (D : Db) : List (Id × String) :=
  (D.services.findMany fun _ s => s.code ∈ TAROT_SERVICE_CODES).map fun e => (e.1, e.2.code)

/-- The tarot services, then the readings of these. -/
def getTarotDepthBreakdown (snapshots : Snapshots) : List TarotDepthBreakdownEntry :=
  let codeById := tarotServices (snapshots .tarotServices)
  let grouped := groupBy (((snapshots .tarotReadings).readings.findMany fun _ r =>
    r.serviceId ∈ codeById.map Prod.fst).map fun e => e.2.serviceId)
  let total := (grouped.map Prod.snd).sum
  (grouped.map fun row =>
    { code := (codeById.lookup row.1).getD row.1
      readingsCount := row.2
      percentage := ratio row.2 total }).mergeSort fun a b =>
    indexOf TAROT_SERVICE_CODES a.code ≤ indexOf TAROT_SERVICE_CODES b.code

def getAvgCardsPerReading (snapshots : Snapshots) : ℚ :=
  let totalDraws := (snapshots .tarotDraws).tarotDraws.count fun _ _ => true
  let D := snapshots .readingsWithDraws
  let readingsWithDraws := D.readings.count fun id _ => D.tarotDraws.existsRow fun k _ => k.1 = id
  ratio totalDraws readingsWithDraws

/-- The rows that reserved credits for a tarot reading. -/
def tarotReservationRows (D : Db) : List (IdempotencyKey × WalletTransaction) :=
  D.walletTransactions.findMany fun _ t => t.type = .RESERVATION &&
    (t.readingId.bind D.readings.lookup).any (isTarotReading D)

def getAvgCreditsPerTarotReading (snapshots : Snapshots) : ℚ :=
  let rows := tarotReservationRows (snapshots .tarotReservations)
  let totalCredits := (rows.map fun e => e.2.amount).sum
  ratio totalCredits.natAbs rows.length

def getRewardFunnel (snapshots : Snapshots) : RewardFunnelMetrics :=
  let created := fun rewardType => (snapshots .createdSessions).rewardSessions.count fun _ s =>
    s.rewardType = rewardType
  let completed := fun rewardType => (snapshots .completedSessions).rewardSessions.count fun _ s =>
    s.status = .COMPLETED && s.rewardType = rewardType
  let sessionsCreated := (REWARD_TYPES.map created).sum
  let sessionsCompleted := (REWARD_TYPES.map completed).sum
  { sessionsCreated
    sessionsCompleted
    completionRate := ratio sessionsCompleted sessionsCreated
    byType := REWARD_TYPES.map fun rewardType => (rewardType,
      { sessionsCreated := created rewardType
        sessionsCompleted := completed rewardType
        completionRate := ratio (completed rewardType) (created rewardType) }) }

def getAdToPurchaseConversionRate (snapshots : Snapshots) : ℚ :=
  let rewarded := rewardedUserIds (snapshots .rewardedUsers)
  let purchased := purchasedUserIds (snapshots .purchasedUsers)
  if rewarded.length = 0 then 0
  else Double.divide (rewarded.filter (· ∈ purchased)).length rewarded.length

def getMetrics (snapshots : Snapshots) : AdminMetrics :=
  let totalUsers := (snapshots .users).users.count fun _ _ => true
  let paid := paidOrders (snapshots .paidOrders)
  let usersWithAtLeastOnePurchase := (purchasedUserIds (snapshots .usersWithPurchase)).length
  let D := snapshots .totalTarotReadings
  let totalTarotReadings := D.readings.count fun _ r => isTarotReading D r
  { totalUsers
    readingsByStatus := groupBy
      (((snapshots .readingsByStatus).readings.findMany fun _ _ => true).map fun e => e.2.status)
    paidOrdersCount := paid.length
    revenueCents := (paid.map fun e => e.2.priceCents).sum
    currency := "COP"
    usersWithAtLeastOnePurchase
    conversionRate := ratio usersWithAtLeastOnePurchase totalUsers
    aiExecutionsCount := (snapshots .aiExecutions).aiExecutions.count fun _ _ => true
    aiFailuresCount := (snapshots .aiFailures).aiExecutions.count fun _ e => e.status = .FAILED
    tarotDepthBreakdown := getTarotDepthBreakdown snapshots
    avgCardsPerReading := getAvgCardsPerReading snapshots
    avgCreditsPerTarotReading := getAvgCreditsPerTarotReading snapshots
    readingsPerUser := ratio totalTarotReadings totalUsers
    rewardFunnel := getRewardFunnel snapshots
    adToPurchaseConversionRate := getAdToPurchaseConversionRate snapshots }

theorem ratio_nonneg (n d : Nat) : 0 ≤ ratio n d := by
  unfold ratio
  split
  · exact Double.toDouble_nonneg (by positivity)
  · exact le_rfl

theorem quotient_le_one {n d : Nat} (h : n ≤ d) : (n / d : ℚ) ≤ 1 :=
  div_le_one_of_le₀ (Nat.cast_le.mpr h) (Nat.cast_nonneg d)

theorem ratio_le_one {n d : Nat} (h : n ≤ d) : ratio n d ≤ 1 := by
  unfold ratio
  split
  · exact Double.toDouble_le_one (by positivity) (quotient_le_one h)
  · exact zero_le_one

/-! ## The tarot depth breakdown -/

section TarotDepth

variable {D D' : Db} {snapshots : Snapshots}

theorem mem_tarotServices (D : Db) (id : Id) (code : String) :
    (id, code) ∈ tarotServices D ↔
      code ∈ TAROT_SERVICE_CODES ∧ ∃ s, D.services.lookup id = some s ∧ s.code = code := by
  simp only [tarotServices, List.mem_map, Prod.exists, Table.mem_findMany, decide_eq_true_eq,
    Prod.mk.injEq]
  constructor
  · rintro ⟨id', s, ⟨hs, hcode⟩, rfl, rfl⟩
    exact ⟨hcode, s, hs, rfl⟩
  · rintro ⟨hcode, s, hs, rfl⟩
    exact ⟨id, s, ⟨hs, hcode⟩, rfl, rfl⟩

/-- The readings that the breakdown counts are the tarot readings. -/
theorem serviceId_mem_iff (D : Db) (r : Reading) :
    r.serviceId ∈ (tarotServices D).map Prod.fst ↔ isTarotReading D r = true := by
  simp only [List.mem_map, Prod.exists, exists_and_right, exists_eq_right, mem_tarotServices,
    isTarotReading, Option.any_eq_true, decide_eq_true_eq]
  constructor
  · rintro ⟨_, hcode, s, hs, rfl⟩
    exact ⟨s, hs, hcode⟩
  · rintro ⟨s, hs, hcode⟩
    exact ⟨s.code, hcode, s, hs, rfl⟩

theorem lookup_tarotServices {id : Id} {s : Service} (hs : D.services.lookup id = some s)
    (hcode : s.code ∈ TAROT_SERVICE_CODES) : (tarotServices D).lookup id = some s.code := by
  have hmem : (id, s.code) ∈ tarotServices D := (mem_tarotServices D id s.code).mpr
    ⟨hcode, s, hs, rfl⟩
  cases hlookup : (tarotServices D).lookup id with
  | none =>
      have hne := List.lookup_eq_none_iff.mp hlookup _ hmem
      simp at hne
  | some code =>
      obtain ⟨l₁, l₂, hsplit, -⟩ := List.lookup_eq_some_iff.mp hlookup
      obtain ⟨-, s', hs', rfl⟩ := (mem_tarotServices D id code).mp (by simp [hsplit])
      obtain rfl := Option.some.inj (hs.symm.trans hs')
      rfl

theorem sum_groupBy {A : Type} [DecidableEq A] (values : List A) :
    ((groupBy values).map Prod.snd).sum = values.length := by
  unfold groupBy
  rw [List.map_map]
  exact List.sum_map_count_dedup_eq_length values

/-- The service ids of the tarot readings. -/
def tarotReadingServices (D D' : Db) : List Id :=
  (D'.readings.findMany fun _ r => r.serviceId ∈ (tarotServices D).map Prod.fst).map
    fun e => e.2.serviceId

/-- The entry of one service. -/
def depthEntry (D D' : Db) (row : Id × Nat) : TarotDepthBreakdownEntry :=
  { code := ((tarotServices D).lookup row.1).getD row.1
    readingsCount := row.2
    percentage := ratio row.2 (tarotReadingServices D D').length }

/-- The breakdown is a reordering of the entries of its services. -/
theorem getTarotDepthBreakdown_perm (snapshots : Snapshots) :
    (getTarotDepthBreakdown snapshots).Perm
      ((groupBy (tarotReadingServices (snapshots .tarotServices) (snapshots .tarotReadings))).map
        (depthEntry (snapshots .tarotServices) (snapshots .tarotReadings))) := by
  refine (List.mergeSort_perm _ _).trans (List.Perm.of_eq ?_)
  refine List.map_congr_left fun row _ => ?_
  rw [depthEntry, ← sum_groupBy]
  rfl

variable (hservices : D.services = D'.services)
include hservices

theorem length_tarotReadingServices :
    (tarotReadingServices D D').length = D'.readings.count fun _ r => isTarotReading D' r := by
  rw [tarotReadingServices, List.length_map, ← Table.count]
  refine Table.count_congr fun k r _ => ?_
  have hmem := serviceId_mem_iff D r
  simp only [isTarotReading, hservices] at hmem ⊢
  simp only [hmem, Bool.decide_eq_true]

/-- The service of an entry has its code. -/
theorem exists_service {id : Id} (hid : id ∈ tarotReadingServices D D') :
    ∃ s, D'.services.lookup id = some s ∧ s.code ∈ TAROT_SERVICE_CODES ∧
      (tarotServices D).lookup id = some s.code := by
  obtain ⟨⟨k, r⟩, hr, rfl⟩ := List.mem_map.mp hid
  have hmem := ((Table.mem_findMany _ _ _ _).mp hr).2
  rw [decide_eq_true_eq, serviceId_mem_iff] at hmem
  simp only [isTarotReading, Option.any_eq_true, decide_eq_true_eq] at hmem
  obtain ⟨s, hs, hcode⟩ := hmem
  exact ⟨s, hservices ▸ hs, hcode, lookup_tarotServices hs hcode⟩

/-- When codes are unique, the readings of a service are those of its code. -/
theorem count_tarotReadingServices
    (hcodes : ∀ id s id' s', D'.services.lookup id = some s → D'.services.lookup id' = some s' →
      s.code = s'.code → id = id') {id : Id} {s : Service} (hs : D'.services.lookup id = some s)
    (hcode : s.code ∈ TAROT_SERVICE_CODES) :
    (tarotReadingServices D D').count id =
      D'.readings.count fun _ r => (D'.services.lookup r.serviceId).any fun s' =>
        s'.code = s.code := by
  rw [tarotReadingServices, List.count, List.countP_map]
  refine (Table.countP_findMany D'.readings _ fun _ r => r.serviceId == id).trans ?_
  refine Table.count_congr fun k r _ => ?_
  rw [Bool.eq_iff_iff]
  simp only [Bool.and_eq_true, beq_iff_eq, decide_eq_true_eq, serviceId_mem_iff, isTarotReading,
    hservices, Option.any_eq_true]
  constructor
  · rintro ⟨hid, -⟩
    exact ⟨s, hid ▸ hs, rfl⟩
  · rintro ⟨s', hs', hcode'⟩
    exact ⟨hcodes _ _ _ _ hs' hs hcode', s', hs', hcode' ▸ hcode⟩

/-- What an entry of the breakdown says. -/
theorem mem_breakdown_iff {e : TarotDepthBreakdownEntry}
    (hcodes : ∀ id s id' s', D'.services.lookup id = some s → D'.services.lookup id' = some s' →
      s.code = s'.code → id = id') :
    e ∈ (groupBy (tarotReadingServices D D')).map (depthEntry D D') ↔
      ∃ id ∈ tarotReadingServices D D', ∃ s, D'.services.lookup id = some s ∧
        s.code ∈ TAROT_SERVICE_CODES ∧ e =
          { code := s.code
            readingsCount := D'.readings.count fun _ r =>
              (D'.services.lookup r.serviceId).any fun s' => s'.code = s.code
            percentage := ratio ((tarotReadingServices D D').count id)
              (tarotReadingServices D D').length } := by
  have hentry : ∀ id ∈ tarotReadingServices D D', ∃ s, D'.services.lookup id = some s ∧
      s.code ∈ TAROT_SERVICE_CODES ∧
      depthEntry D D' (id, (tarotReadingServices D D').count id) =
        { code := s.code
          readingsCount := D'.readings.count fun _ r =>
            (D'.services.lookup r.serviceId).any fun s' => s'.code = s.code
          percentage := ratio ((tarotReadingServices D D').count id)
            (tarotReadingServices D D').length } := by
    intro id hid
    obtain ⟨s, hs, hcode, hlookup⟩ := exists_service hservices hid
    refine ⟨s, hs, hcode, ?_⟩
    rw [depthEntry, hlookup, ← count_tarotReadingServices hservices hcodes hs hcode]
    rfl
  simp only [groupBy, List.map_map, List.mem_map, List.mem_dedup, Function.comp_apply]
  constructor
  · rintro ⟨id, hid, rfl⟩
    obtain ⟨s, hs, hcode, heq⟩ := hentry id hid
    exact ⟨id, hid, s, hs, hcode, heq⟩
  · rintro ⟨id, hid, s, hs, -, rfl⟩
    obtain ⟨s', hs', -, heq⟩ := hentry id hid
    obtain rfl := Option.some.inj (hs.symm.trans hs')
    exact ⟨id, hid, heq⟩

end TarotDepth

theorem indexOf_inj {codes : List String} {a b : String} (ha : a ∈ codes) (hb : b ∈ codes)
    (h : indexOf codes a = indexOf codes b) : a = b := by
  simp only [indexOf, ha, hb, if_true, Nat.cast_inj] at h
  exact (List.idxOf_inj ha).mp h

/-- Each share of a whole is rounded once. -/
theorem abs_sum_ratio_sub_le {d : Nat} (hd : 0 < d) {counts : List Nat}
    (hle : ∀ n ∈ counts, n ≤ d) :
    |(counts.map fun n => ratio n d).sum - counts.sum / d| ≤ counts.length / 2 ^ 54 := by
  induction counts with
  | nil => simp
  | cons n counts ih =>
      obtain ⟨hn, hcounts⟩ := List.forall_mem_cons.mp hle
      have hrounded : |ratio n d - n / d| ≤ 1 / 2 ^ 54 := by
        rw [ratio, if_pos hd]
        exact Double.abs_toDouble_sub_le (by positivity) (quotient_le_one hn)
      have hsplit : ratio n d + (counts.map fun n => ratio n d).sum - (n + counts.sum) / d =
          (ratio n d - n / d) + ((counts.map fun n => ratio n d).sum - counts.sum / d) := by
        ring
      rw [List.map_cons, List.sum_cons, List.sum_cons, Nat.cast_add, hsplit, List.length_cons,
        Nat.cast_succ, add_div, add_comm (counts.length / 2 ^ 54 : ℚ)]
      exact (abs_add_le _ _).trans (add_le_add hrounded (ih hcounts))

/-- The shares of a whole add up to one, but for the rounding of each. -/
theorem abs_sum_ratio_sub_one_le {counts : List Nat} (h : 0 < counts.sum) :
    |(counts.map fun n => ratio n counts.sum).sum - 1| ≤ counts.length / 2 ^ 54 := by
  have hsum := abs_sum_ratio_sub_le h fun n hn => List.single_le_sum (fun _ _ => Nat.zero_le _) n hn
  rwa [div_self (Nat.cast_ne_zero.mpr h.ne')] at hsum

/-- The entries stand in the order of the codes. -/
theorem pairwise_breakdown (snapshots : Snapshots)
    (hmem : ∀ e ∈ getTarotDepthBreakdown snapshots, e.code ∈ TAROT_SERVICE_CODES)
    (hnodup : ((getTarotDepthBreakdown snapshots).map TarotDepthBreakdownEntry.code).Nodup) :
    (getTarotDepthBreakdown snapshots).Pairwise fun a b =>
      indexOf TAROT_SERVICE_CODES a.code < indexOf TAROT_SERVICE_CODES b.code := by
  have hsorted : (getTarotDepthBreakdown snapshots).Pairwise fun a b =>
      decide (indexOf TAROT_SERVICE_CODES a.code ≤ indexOf TAROT_SERVICE_CODES b.code) = true := by
    refine List.pairwise_mergeSort (fun a b c hab hbc => ?_) (fun a b => ?_) _
    · simp only [decide_eq_true_eq] at hab hbc ⊢
      exact hab.trans hbc
    · simp only [Bool.or_eq_true, decide_eq_true_eq]
      exact Int.le_total _ _
  have hdistinct := List.pairwise_map.mp hnodup
  refine (hsorted.and hdistinct).imp_of_mem fun {a b} ha hb h => ?_
  refine lt_of_le_of_ne (of_decide_eq_true h.1) fun heq => h.2 ?_
  exact indexOf_inj (hmem a ha) (hmem b hb) heq

/-- The breakdown divides the tarot readings by the code of their service: the
counts add up to them and the percentages to one, but for the rounding of each to a
double, every code with readings has one entry, and the entries stand in the order of
`TAROT_SERVICE_CODES`. -/
theorem tarotDepthBreakdown_partitions (snapshots : Snapshots)
    (hservices : (snapshots .tarotServices).services = (snapshots .tarotReadings).services)
    (hcodes : ∀ id s id' s', (snapshots .tarotReadings).services.lookup id = some s →
      (snapshots .tarotReadings).services.lookup id' = some s' → s.code = s'.code → id = id') :
    let D := snapshots .tarotReadings
    let ofCode := fun code => D.readings.count fun _ r =>
      (D.services.lookup r.serviceId).any fun s => s.code = code
    let entries := getTarotDepthBreakdown snapshots
    (entries.map TarotDepthBreakdownEntry.readingsCount).sum =
        D.readings.count (fun _ r => isTarotReading D r) ∧
      (entries ≠ [] → |(entries.map TarotDepthBreakdownEntry.percentage).sum - 1| ≤
        entries.length / 2 ^ 54) ∧
      (∀ e ∈ entries, e.readingsCount = ofCode e.code) ∧
      (∀ code, (∃ e ∈ entries, e.code = code) ↔ code ∈ TAROT_SERVICE_CODES ∧ 0 < ofCode code) ∧
      entries.Pairwise fun a b =>
        indexOf TAROT_SERVICE_CODES a.code < indexOf TAROT_SERVICE_CODES b.code := by
  intro D ofCode entries
  let D₀ := snapshots .tarotServices
  have hperm : entries.Perm ((groupBy (tarotReadingServices D₀ D)).map (depthEntry D₀ D)) :=
    getTarotDepthBreakdown_perm snapshots
  have hentry := fun e => (hperm.mem_iff (a := e)).trans (mem_breakdown_iff hservices hcodes)
  have hlength := length_tarotReadingServices hservices
  have hcounts : (((groupBy (tarotReadingServices D₀ D)).map (depthEntry D₀ D)).map
      TarotDepthBreakdownEntry.readingsCount) =
        (groupBy (tarotReadingServices D₀ D)).map Prod.snd := by
    rw [List.map_map]
    rfl
  refine ⟨?_, fun hne => ?_, fun e he => ?_, fun code => ⟨?_, ?_⟩, ?_⟩
  · rw [(hperm.map _).sum_eq, hcounts, sum_groupBy, hlength]
  · have hshares : (((groupBy (tarotReadingServices D₀ D)).map (depthEntry D₀ D)).map
        TarotDepthBreakdownEntry.percentage) =
          ((groupBy (tarotReadingServices D₀ D)).map Prod.snd).map fun n =>
            ratio n ((groupBy (tarotReadingServices D₀ D)).map Prod.snd).sum := by
      rw [sum_groupBy, List.map_map, List.map_map]
      rfl
    have hentries : entries.length = ((groupBy (tarotReadingServices D₀ D)).map Prod.snd).length := by
      rw [hperm.length_eq, List.length_map, List.length_map]
    rw [(hperm.map _).sum_eq, hshares, hentries]
    refine abs_sum_ratio_sub_one_le ?_
    rw [sum_groupBy]
    obtain ⟨e, he⟩ := List.exists_mem_of_ne_nil entries hne
    obtain ⟨id, hid, -⟩ := (hentry e).mp he
    exact List.length_pos_of_mem hid
  · obtain ⟨id, -, s, -, -, rfl⟩ := (hentry e).mp he
    rfl
  · rintro ⟨e, he, rfl⟩
    obtain ⟨id, hid, s, hs, hcode, rfl⟩ := (hentry e).mp he
    refine ⟨hcode, ?_⟩
    simp only [ofCode]
    rw [← count_tarotReadingServices hservices hcodes hs hcode]
    exact List.count_pos_iff.mpr hid
  · rintro ⟨hcode, hpos⟩
    obtain ⟨⟨k, r⟩, hr⟩ := List.exists_mem_of_length_pos hpos
    obtain ⟨hlookup, hany⟩ := (Table.mem_findMany _ _ _ _).mp hr
    simp only [Option.any_eq_true, decide_eq_true_eq] at hany
    obtain ⟨s, hs, rfl⟩ := hany
    have hid : r.serviceId ∈ tarotReadingServices D₀ D := by
      refine List.mem_map.mpr ⟨(k, r), (Table.mem_findMany _ _ _ _).mpr ⟨hlookup, ?_⟩, rfl⟩
      have hs₀ : D₀.services.lookup r.serviceId = some s := hservices ▸ hs
      rw [decide_eq_true_eq, serviceId_mem_iff]
      simpa only [isTarotReading, hs₀, Option.any_some, decide_eq_true_eq] using hcode
    exact ⟨_, (hentry _).mpr ⟨_, hid, s, hs, hcode, rfl⟩, rfl⟩
  · refine pairwise_breakdown snapshots (fun e he => ?_) ?_
    · obtain ⟨id, -, s, -, hcode, rfl⟩ := (hentry e).mp he
      exact hcode
    · refine (hperm.map _).nodup_iff.mpr ?_
      rw [groupBy, List.map_map, List.map_map]
      refine List.Nodup.map_on (fun id hid id' hid' heq => ?_) (List.nodup_dedup _)
      obtain ⟨s, hs, -, hlookup⟩ := exists_service hservices (List.mem_dedup.mp hid)
      obtain ⟨s', hs', -, hlookup'⟩ := exists_service hservices (List.mem_dedup.mp hid')
      simp only [Function.comp_apply, depthEntry] at heq
      rw [hlookup, hlookup', Option.getD_some, Option.getD_some] at heq
      exact hcodes _ _ _ _ hs hs' heq

theorem tarotDepthBreakdown_partitions_one_reading : ∃ D : Db,
    (D.readings.count fun _ r => isTarotReading D r) = 1 ∧
      ((getTarotDepthBreakdown fun _ => D).map TarotDepthBreakdownEntry.readingsCount).sum = 1 := by
  have distinct : ∀ id s id' s',
      ((∅ : Table Id Service).write "s1" (some ⟨"TAROT_FIVE", "Cinco", none, 2, true⟩)).lookup id =
        some s →
      ((∅ : Table Id Service).write "s1" (some ⟨"TAROT_FIVE", "Cinco", none, 2, true⟩)).lookup id' =
        some s' → s.code = s'.code → id = id' := by
    intro id s id' s' hs hs' _
    rw [(Table.eq_of_lookup_single hs).1, (Table.eq_of_lookup_single hs').1]
  refine ⟨{ Db.empty with
    services := (∅ : Table Id Service).write "s1" (some ⟨"TAROT_FIVE", "Cinco", none, 2, true⟩)
    readings := (∅ : Table Id Reading).write "r1"
      (some ⟨"ana", "s1", none, none, .COMPLETED, some 0⟩) }, rfl, ?_⟩
  exact (tarotDepthBreakdown_partitions _ rfl distinct).1

end AdminMetricsService

end TaroTria
