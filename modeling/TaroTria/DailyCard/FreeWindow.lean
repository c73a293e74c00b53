import Mathlib.Data.Finset.Card
import TaroTria.DailyCard.CalendarDates
import TaroTria.DailyCard.CardVisits

/-!
# The free window

The days of an account are counted from the time of its registration, while a card is
kept for a date. A registration within a day, and not at its beginning, has free days
that touch one date more.
-/

namespace TaroTria

open Transactions

namespace DailyCardService

/-- A request of a user: its circumstances, the rows that it finds, and which entries of
the cache have expired since the one before it. -/
structure CardRequest where
  circumstances : Circumstances
  expired : String → Bool
  deckCards : String → Option (List TarotDeckCard)
  rows : Db

def CardRequest.now (v : CardRequest) : Time := v.circumstances.now

/-- The entries of the cache that a request finds. -/
def CardRequest.outside (v : CardRequest) (cards : String → Option DailyCardResponse) : Outside :=
  { cards := fun key => if v.expired key then none else cards key
    deckCards := v.deckCards, step := 0 }

/-- A card has been delivered. -/
def delivers : Except Err DailyCardResponse → Bool
  | .ok (.unlocked _) => true
  | _ => false

/-- What has come of a request: its date, whether it delivered a card, and whether it
consumed an unlock. -/
structure Receipt where
  date : String
  delivered : Bool
  consumed : Bool
  deriving DecidableEq, Repr

/-- The receipts of requests that follow each other, with the cache that they share. -/
def receipts (K : DailyCardConfig) (userId : Id) :
    List CardRequest → (String → Option DailyCardResponse) → List Receipt
  | [], _ => []
  | v :: vs, cards =>
      let (w', D', r) := visit v.circumstances K userId (v.outside cards) v.rows
      { date := toISODate v.now, delivered := delivers r
        consumed := unlocks userId D' ≠ unlocks userId v.rows } :: receipts K userId vs w'.cards

/-- The dates of the cards that no unlock was consumed for. -/
def freeDates (rs : List Receipt) : Finset String :=
  ((rs.filter (·.delivered)).map (·.date)).toFinset.filter fun date =>
    ∀ r ∈ rs, r.consumed = true → r.date ≠ date

/-- Requests of a user that was registered at a time, in the order of their times. -/
structure RequestsOf (userId : Id) (createdAt : Time) (vs : List CardRequest) : Prop where
  user : ∀ v ∈ vs, ∃ user, v.rows.users.lookup userId = some user ∧ user.createdAt = createdAt
  after : ∀ v ∈ vs, createdAt ≤ v.now
  ordered : (vs.map CardRequest.now).Pairwise (· ≤ ·)

/-- However a user asks for cards, the dates of free ones are those of the free days. -/
def FreeWindowKept (K : DailyCardConfig) (userId : Id) (createdAt : Time) : Prop :=
  ∀ vs, RequestsOf userId createdAt vs →
    (freeDates (receipts K userId vs fun _ => none)).card ≤ DAILY_CARD_FREE_DAYS

section Visit

variable {K : DailyCardConfig} {c : Circumstances} {userId : Id} {w : Outside} {D : Db}
  {user : User} (huser : D.users.lookup userId = some user)
include huser

/-- A card is issued in the free window or for an unlock, and otherwise none is stored. -/
theorem issue_accounted : ∃ w' D' r,
    (issueTodaysCard K userId c.now).endure (world c) (luck c) w D = (w', D', r) ∧
    (∀ key, key ≠ cardKey userId c.now → w'.cards key = w.cards key) ∧
    ((w'.cards = w.cards ∧ delivers r = false) ∨
      withinFreeWindow c.now user.createdAt = true ∨ unlocks userId D' ≠ unlocks userId D) := by
  by_cases hfind : c.fate w.step = .done
  swap
  · obtain ⟨e, hissue⟩ := issue_unanswered K userId c.now (D := D) hfind
    exact ⟨_, _, _, hissue, fun _ _ => rfl, .inl ⟨rfl, rfl⟩⟩
  cases hfree : withinFreeWindow c.now user.createdAt with
  | true =>
      obtain ⟨w', r, hdeliver, -, hothers⟩ := endure_deliverTodaysCard K userId (c := c)
        (w := w.next) (D := D) (toISODate c.now)
      exact ⟨w', D, r, (issue_free hfind huser hfree).trans hdeliver, hothers, .inr (.inl rfl)⟩
  | false =>
      by_cases hunlocked : Unlocked userId D
      · cases hupdate : c.fate (w.step + 1) with
        | failed =>
            exact ⟨_, _, _, issue_failed hfind huser hfree hupdate, fun _ _ => rfl,
              .inl ⟨rfl, rfl⟩⟩
        | lost =>
            exact ⟨_, _, _, issue_lost hfind huser hfree hupdate hunlocked, fun _ _ => rfl,
              .inr (.inr hunlocked.spent_ne)⟩
        | done =>
            obtain ⟨w', r, hdeliver, -, hothers⟩ := endure_deliverTodaysCard K userId (c := c)
              (w := w.next.next) (D := spent userId D) (toISODate c.now)
            exact ⟨w', _, r, (issue_spent hfind huser hfree hupdate hunlocked).trans hdeliver,
              hothers, .inr (.inr hunlocked.spent_ne)⟩
      · obtain ⟨w', r, hissue, hsame, hr⟩ := issue_locked (K := K) hfind huser hfree hunlocked
        refine ⟨w', D, r, hissue, fun key _ => congrFun hsame key, .inl ⟨hsame, ?_⟩⟩
        rcases hr with ⟨e, rfl⟩ | ⟨requiredAds, rfl⟩ <;> rfl

/-- A card that was not in the cache is one of the free window, or for an unlock. -/
theorem visit_accounted : ∃ w' D' r, visit c K userId w D = (w', D', r) ∧
    (∀ key, key ≠ cardKey userId c.now → w'.cards key = w.cards key) ∧
    ((w'.cards = w.cards ∧ (delivers r = true → w.cards (cardKey userId c.now) ≠ none)) ∨
      withinFreeWindow c.now user.createdAt = true ∨ unlocks userId D' ≠ unlocks userId D) := by
  by_cases hget : c.fate w.step = .done
  swap
  · exact ⟨_, _, _, visit_unanswered hget, fun _ _ => rfl, .inl ⟨rfl, fun h => by cases h⟩⟩
  cases hcard : w.cards (cardKey userId c.now) with
  | some card =>
      exact ⟨_, _, _, visit_cached hget hcard, fun _ _ => rfl, .inl ⟨rfl, fun _ h => by cases h⟩⟩
  | none =>
      rw [visit_missed hget hcard]
      obtain ⟨w', D', r, hissue, hothers, hr⟩ := issue_accounted (K := K) (c := c) (w := w.next)
        huser
      refine ⟨w', D', r, hissue, hothers, hr.imp_left fun h => ⟨h.1, fun hdelivers => ?_⟩⟩
      rw [h.2] at hdelivers
      cases hdelivers

end Visit

/-! ## The dates of the free window -/

section Receipts

variable {K : DailyCardConfig} {userId : Id} {createdAt : Time}

/-- A date on which the free window is open. -/
def FreeDate (createdAt : Time) (date : String) : Prop :=
  ∃ t, createdAt ≤ t ∧ withinFreeWindow t createdAt = true ∧ toISODate t = date

/-- The date of a card that an unlock was consumed for. -/
def Paid (rs : List Receipt) (date : String) : Prop := ∃ r ∈ rs, r.consumed = true ∧ r.date = date

theorem Paid.append_left {rs : List Receipt} {date : String} (h : Paid rs date)
    (rs' : List Receipt) : Paid (rs ++ rs') date := by
  obtain ⟨r, hmem, hr⟩ := h
  exact ⟨r, List.mem_append_left _ hmem, hr⟩

/-- Every card in the cache is of a free date or was paid. -/
def Accounted (userId : Id) (createdAt : Time) (past : List Receipt)
    (cards : String → Option DailyCardResponse) : Prop :=
  ∀ date, cards (dailyCardCacheKey userId date) ≠ none → FreeDate createdAt date ∨ Paid past date

theorem dailyCardCacheKey_inj {date date' : String}
    (h : dailyCardCacheKey userId date = dailyCardCacheKey userId date') : date = date' :=
  (String.append_right_inj _).mp h

/-- One request. -/
theorem Accounted.request {v : CardRequest} {past : List Receipt}
    {cards : String → Option DailyCardResponse} {user : User}
    (h : Accounted userId createdAt past cards) (hafter : createdAt ≤ v.now)
    (huser : v.rows.users.lookup userId = some user) (hcreated : user.createdAt = createdAt)
    {w' : Outside} {D' : Db} {r : Except Err DailyCardResponse}
    (hvisit : visit v.circumstances K userId (v.outside cards) v.rows = (w', D', r)) :
    let receipt : Receipt :=
      { date := toISODate v.now, delivered := delivers r
        consumed := unlocks userId D' ≠ unlocks userId v.rows }
    Accounted userId createdAt (past ++ [receipt]) w'.cards ∧
      (receipt.delivered = true → FreeDate createdAt receipt.date ∨
        Paid (past ++ [receipt]) receipt.date) := by
  intro receipt
  obtain ⟨w'', D'', r', hvisit', hothers, hr⟩ := visit_accounted (K := K) (c := v.circumstances)
    (w := v.outside cards) huser
  cases hvisit'.symm.trans hvisit
  have hold : ∀ date, (v.outside cards).cards (dailyCardCacheKey userId date) ≠ none →
      FreeDate createdAt date ∨ Paid (past ++ [receipt]) date := by
    intro date hcard
    have hlive : cards (dailyCardCacheKey userId date) ≠ none := by
      unfold CardRequest.outside at hcard
      simp only at hcard
      split at hcard
      · exact absurd rfl hcard
      · exact hcard
    exact (h date hlive).imp_right fun hpaid => hpaid.append_left _
  rcases hr with ⟨hsame, hcached⟩ | hnew
  · exact ⟨fun date hcard => hold date (by rwa [hsame] at hcard), fun hdelivers =>
      hold _ (hcached hdelivers)⟩
  · have htoday : FreeDate createdAt (toISODate v.now) ∨
        Paid (past ++ [receipt]) (toISODate v.now) := by
      rcases hnew with hfree | hconsumed
      · exact .inl ⟨v.now, hafter, hcreated ▸ hfree, rfl⟩
      · exact .inr ⟨receipt, List.mem_append_right _ List.mem_cons_self,
          decide_eq_true hconsumed, rfl⟩
    refine ⟨fun date hcard => ?_, fun _ => htoday⟩
    by_cases hdate : date = toISODate v.now
    · rw [hdate]
      exact htoday
    · refine hold date ?_
      rwa [hothers _ fun hkey => hdate (dailyCardCacheKey_inj hkey)] at hcard

theorem receipts_cons {v : CardRequest} {cards : String → Option DailyCardResponse}
    (vs : List CardRequest) {w' : Outside} {D' : Db} {r : Except Err DailyCardResponse}
    (hvisit : visit v.circumstances K userId (v.outside cards) v.rows = (w', D', r)) :
    receipts K userId (v :: vs) cards =
      { date := toISODate v.now, delivered := delivers r
        consumed := unlocks userId D' ≠ unlocks userId v.rows } ::
        receipts K userId vs w'.cards := by
  rw [receipts, hvisit]

/-- Requests, one after another. -/
theorem Accounted.run {vs : List CardRequest} {past : List Receipt}
    {cards : String → Option DailyCardResponse} (h : Accounted userId createdAt past cards)
    (hafter : ∀ v ∈ vs, createdAt ≤ v.now)
    (huser : ∀ v ∈ vs, ∃ user, v.rows.users.lookup userId = some user ∧
      user.createdAt = createdAt) :
    ∀ r ∈ receipts K userId vs cards, r.delivered = true →
      FreeDate createdAt r.date ∨ Paid (past ++ receipts K userId vs cards) r.date := by
  induction vs generalizing past cards with
  | nil =>
      intro r hr
      cases hr
  | cons v vs ih =>
      obtain ⟨user, hlookup, hcreated⟩ := huser v List.mem_cons_self
      rcases hvisit : visit v.circumstances K userId (v.outside cards) v.rows with ⟨w', D', result⟩
      obtain ⟨hnext, hfirst⟩ := h.request (hafter v List.mem_cons_self) hlookup hcreated hvisit
      have hrest := ih hnext (fun v hv => hafter v (List.mem_cons_of_mem _ hv))
        fun v hv => huser v (List.mem_cons_of_mem _ hv)
      rw [receipts_cons vs hvisit]
      intro r hr hdelivered
      rw [List.append_cons]
      rcases List.mem_cons.mp hr with rfl | hr
      · exact (hfirst hdelivered).imp_right fun hpaid => hpaid.append_left _
      · exact hrest r hr hdelivered

/-- A card without an unlock is delivered on a date of the free window only. -/
theorem freeDate_of_mem {vs : List CardRequest} (h : RequestsOf userId createdAt vs) {date : String}
    (hdate : date ∈ freeDates (receipts K userId vs fun _ => none)) :
    FreeDate createdAt date := by
  obtain ⟨hdelivered, hfree⟩ := Finset.mem_filter.mp hdate
  obtain ⟨r, hr, rfl⟩ := List.mem_map.mp (List.mem_toFinset.mp hdelivered)
  obtain ⟨hmem, hr⟩ := List.mem_filter.mp hr
  have hempty : Accounted userId createdAt [] fun _ => none := fun date hcard => absurd rfl hcard
  refine (hempty.run h.after h.user r hmem hr).resolve_right ?_
  rintro ⟨r', hr', hconsumed, hsame⟩
  exact hfree r' hr' hconsumed hsame

/-- At midnight the days of an account are dates. -/
theorem FreeDate.eq_of_midnight (hmidnight : createdAt % MS_PER_DAY = 0) {date : String}
    (h : FreeDate createdAt date) :
    ∃ i < DAILY_CARD_FREE_DAYS, toISODate (createdAt + i * MS_PER_DAY) = date := by
  obtain ⟨t, hafter, hfree, rfl⟩ := h
  have hdays : (t - createdAt) / MS_PER_DAY + 1 ≤ DAILY_CARD_FREE_DAYS := by
    simpa [withinFreeWindow] using hfree
  refine ⟨(t - createdAt) / MS_PER_DAY, hdays, toISODate_eq_iff.mpr ?_⟩
  obtain ⟨q, rfl⟩ := Nat.dvd_of_mod_eq_zero hmidnight
  obtain ⟨d, rfl⟩ := Nat.exists_eq_add_of_le hafter
  have hpos : 0 < MS_PER_DAY := by decide
  rw [Nat.add_sub_cancel_left, Nat.mul_comm (d / MS_PER_DAY), ← Nat.mul_add,
    Nat.mul_div_cancel_left _ hpos, Nat.mul_add_div hpos]

/-- A registration at midnight has five dates of free cards. -/
theorem freeWindowKept_of_midnight (hmidnight : createdAt % MS_PER_DAY = 0) :
    FreeWindowKept K userId createdAt := by
  intro vs h
  have hsub : freeDates (receipts K userId vs fun _ => none) ⊆
      (Finset.range DAILY_CARD_FREE_DAYS).image fun i => toISODate (createdAt + i * MS_PER_DAY) := by
    intro date hdate
    obtain ⟨i, hi, hsame⟩ := (freeDate_of_mem h hdate).eq_of_midnight hmidnight
    exact Finset.mem_image.mpr ⟨i, Finset.mem_range.mpr hi, hsame⟩
  calc
    (freeDates (receipts K userId vs fun _ => none)).card
      ≤ ((Finset.range DAILY_CARD_FREE_DAYS).image
          fun i => toISODate (createdAt + i * MS_PER_DAY)).card := Finset.card_le_card hsub
    _ ≤ (Finset.range DAILY_CARD_FREE_DAYS).card := Finset.card_image_le
    _ = DAILY_CARD_FREE_DAYS := Finset.card_range _

end Receipts

/-! ## One date more -/

section Late

variable {K : DailyCardConfig} {userId : Id} {createdAt : Time}

def oneCard : TarotDeckCard :=
  { id := "card-0", code := "FOOL", name := "El Loco", arcana := .MAJOR, suit := none
    uprightMeaning := "Comienzos", reversedMeaning := "Imprudencia" }

def plainUser (createdAt : Time) : User :=
  { email := "ada@example.com", name := "Ada", passwordHash := "", status := .ACTIVE
    emailVerifiedAt := none, createdAt, roles := ["USER"] }

/-- A request to which every step is answered, from a user without unlocks. -/
def plainRequest (userId : Id) (createdAt now : Time) : CardRequest where
  circumstances :=
    { now, decks := [⟨ReadingsService.DEFAULT_TAROT_DECK_CODE, true, [oneCard]⟩]
      fate := fun _ => .done }
  expired := fun _ => true
  deckCards := fun _ => none
  rows := view [.user userId (some (plainUser createdAt))] Db.empty

theorem lookup_plainRequest {now : Time} :
    (plainRequest userId createdAt now).rows.users.lookup userId = some (plainUser createdAt) := by
  simp [plainRequest]

/-- The times of the requests: the registration, and the five midnights after it. -/
def lateTime (createdAt : Time) (i : Nat) : Time :=
  if i = 0 then createdAt else (createdAt / MS_PER_DAY + i) * MS_PER_DAY

variable (userId) in
theorem visit_plainRequest {now : Time} (hfree : withinFreeWindow now createdAt = true)
    (cards : String → Option DailyCardResponse) :
    let v := plainRequest userId createdAt now
    ∃ w' result, visit v.circumstances K userId (v.outside cards) v.rows =
      (w', v.rows, .ok (.unlocked result)) := by
  intro v
  obtain ⟨w', r, hdeliver, hr, -⟩ := endure_deliverTodaysCard K userId (c := v.circumstances)
    (w := (v.outside cards).next.next) (D := v.rows) (toISODate now)
  have hdelivers : Delivers v.circumstances (v.outside cards).next.next := by
    refine ⟨[oneCard], 5, ⟨rfl, .inr ⟨rfl, rfl,
      ⟨⟨ReadingsService.DEFAULT_TAROT_DECK_CODE, true, [oneCard]⟩, ?_, rfl⟩, rfl, rfl⟩⟩, by simp, rfl⟩
    simp [v, plainRequest]
  obtain ⟨-, result, rfl, -⟩ := hr.resolve_right fun h => h.1 hdelivers
  refine ⟨w', result, ?_⟩
  rw [visit_missed rfl rfl]
  exact (issue_free (w := (v.outside cards).next) rfl lookup_plainRequest hfree).trans hdeliver

/-- A free card for each of the times. -/
theorem receipts_plainRequests (times : List Time)
    (hfree : ∀ t ∈ times, withinFreeWindow t createdAt = true)
    (cards : String → Option DailyCardResponse) :
    receipts K userId (times.map (plainRequest userId createdAt)) cards =
      times.map fun t => ⟨toISODate t, true, false⟩ := by
  induction times generalizing cards with
  | nil => rfl
  | cons t times ih =>
      obtain ⟨w', result, hvisit⟩ := visit_plainRequest (K := K) userId
        (hfree t List.mem_cons_self) cards
      rw [List.map_cons, receipts_cons _ hvisit, List.map_cons,
        ih fun t' ht' => hfree t' (List.mem_cons_of_mem _ ht')]
      simp [plainRequest, CardRequest.now, delivers]

theorem freeDates_plain (times : List Time) :
    freeDates (times.map fun t => ⟨toISODate t, true, false⟩) =
      (times.map toISODate).toFinset := by
  have hrows : ∀ r ∈ times.map fun t => (⟨toISODate t, true, false⟩ : Receipt),
      r.delivered = true ∧ r.consumed = false := by
    intro r hr
    obtain ⟨t, -, rfl⟩ := List.mem_map.mp hr
    exact ⟨rfl, rfl⟩
  unfold freeDates
  rw [List.filter_eq_self.mpr fun r hr => (hrows r hr).1, List.map_map]
  refine Finset.filter_true_of_mem fun date _ r hr hconsumed => ?_
  rw [(hrows r hr).2] at hconsumed
  cases hconsumed

/-! ### The six times -/

theorem lateTime_div (i : Nat) :
    lateTime createdAt i / MS_PER_DAY = createdAt / MS_PER_DAY + i := by
  unfold lateTime
  split
  · rename_i hzero
    rw [hzero, Nat.add_zero]
  · exact Nat.mul_div_cancel _ (by decide)

theorem elapsed_lt {a i : Nat} (ha : a % MS_PER_DAY ≠ 0) (hi : 0 < i) :
    ((a / MS_PER_DAY + i) * MS_PER_DAY - a) / MS_PER_DAY < i := by
  unfold MS_PER_DAY at *
  omega

theorem le_lateTime (i : Nat) : createdAt ≤ lateTime createdAt i := by
  have hle : ∀ a i : Nat, 0 < i → a ≤ (a / MS_PER_DAY + i) * MS_PER_DAY := by
    intro a i hi
    unfold MS_PER_DAY
    omega
  unfold lateTime
  split
  · exact le_rfl
  · exact hle createdAt i (by omega)

theorem lateTime_mono : Monotone (lateTime createdAt) := by
  intro i j hij
  rcases Nat.eq_zero_or_pos i with rfl | hi
  · exact le_lateTime j
  · rw [lateTime, lateTime, if_neg (by omega), if_neg (by omega)]
    exact Nat.mul_le_mul_right _ (by omega)

theorem withinFreeWindow_lateTime (hlate : createdAt % MS_PER_DAY ≠ 0) {i : Nat}
    (hi : i ≤ DAILY_CARD_FREE_DAYS) :
    withinFreeWindow (lateTime createdAt i) createdAt = true := by
  refine decide_eq_true ?_
  unfold lateTime
  split
  · rw [Nat.sub_self]
    decide
  · exact (elapsed_lt hlate (by omega)).trans_le hi

/-- The requests at the six times. -/
def lateRequests (userId : Id) (createdAt : Time) : List CardRequest :=
  ((List.range (DAILY_CARD_FREE_DAYS + 1)).map (lateTime createdAt)).map
    (plainRequest userId createdAt)

theorem requestsOf_lateRequests :
    RequestsOf userId createdAt (lateRequests userId createdAt) := by
  have hrequest : ∀ v ∈ lateRequests userId createdAt,
      ∃ i, v = plainRequest userId createdAt (lateTime createdAt i) := by
    intro v hv
    obtain ⟨t, ht, rfl⟩ := List.mem_map.mp hv
    obtain ⟨i, -, rfl⟩ := List.mem_map.mp ht
    exact ⟨i, rfl⟩
  refine ⟨fun v hv => ?_, fun v hv => ?_, ?_⟩
  · obtain ⟨i, rfl⟩ := hrequest v hv
    exact ⟨_, lookup_plainRequest, rfl⟩
  · obtain ⟨i, rfl⟩ := hrequest v hv
    exact le_lateTime i
  · rw [lateRequests, List.map_map, List.map_map]
    exact List.pairwise_lt_range.map _ fun i j hij => lateTime_mono hij.le

/-- A registration after midnight has six dates of free cards. -/
theorem not_freeWindowKept (hlate : createdAt % MS_PER_DAY ≠ 0) :
    ¬FreeWindowKept K userId createdAt := by
  intro hkept
  have hfree : ∀ t ∈ (List.range (DAILY_CARD_FREE_DAYS + 1)).map (lateTime createdAt),
      withinFreeWindow t createdAt = true := by
    intro t ht
    obtain ⟨i, hi, rfl⟩ := List.mem_map.mp ht
    exact withinFreeWindow_lateTime hlate (Nat.lt_succ_iff.mp (List.mem_range.mp hi))
  have hdates : (((List.range (DAILY_CARD_FREE_DAYS + 1)).map (lateTime createdAt)).map
      toISODate).Nodup := by
    rw [List.map_map]
    refine List.Nodup.map_on ?_ List.nodup_range
    intro i _ j _ hsame
    have hdays := toISODate_eq_iff.mp hsame
    rw [lateTime_div, lateTime_div] at hdays
    exact Nat.add_left_cancel hdays
  have hcount : (freeDates (receipts K userId (lateRequests userId createdAt) fun _ => none)).card =
      DAILY_CARD_FREE_DAYS + 1 :=
    calc
      (freeDates (receipts K userId (lateRequests userId createdAt) fun _ => none)).card
          = (((List.range (DAILY_CARD_FREE_DAYS + 1)).map (lateTime createdAt)).map
              toISODate).toFinset.card := by
        rw [lateRequests, receipts_plainRequests _ hfree, freeDates_plain]
      _ = (((List.range (DAILY_CARD_FREE_DAYS + 1)).map (lateTime createdAt)).map
            toISODate).length := List.toFinset_card_of_nodup hdates
      _ = DAILY_CARD_FREE_DAYS + 1 := by
        rw [List.length_map, List.length_map, List.length_range]
  have hcard := hkept _ requestsOf_lateRequests
  omega

end Late

/-- The dates of free cards are at most the free days exactly if the registration was at
midnight, when the dates begin. -/
theorem freeWindowKept_iff (K : DailyCardConfig) (userId : Id) (createdAt : Time) :
    FreeWindowKept K userId createdAt ↔ createdAt % MS_PER_DAY = 0 := by
  constructor
  · intro hkept
    by_contra hlate
    exact not_freeWindowKept hlate hkept
  · exact freeWindowKept_of_midnight

/-- A user that was registered at noon. -/
theorem noon_has_six_free_dates :
    ¬FreeWindowKept ⟨"secret", fun _ _ _ => 0⟩ "ada" (12 * 60 * 60 * 1000) :=
  not_freeWindowKept (by decide)

end DailyCardService

end TaroTria
