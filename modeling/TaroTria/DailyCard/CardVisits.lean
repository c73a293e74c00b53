import TaroTria.DailyCard.DailyCardService
import TaroTria.Transactions.Alone
import TaroTria.Transactions.FailingWorld

/-!
# Visits to the daily card

A request for the daily card with its two caches, in circumstances that decide the
fate of each of its steps. Each step of `getTodaysCard` is followed here once.
-/

namespace TaroTria

open Transactions

/-- A deck with its cards by their `orderIndex`. -/
structure TarotDeck where
  code : String
  isActive : Bool
  cards : List TarotDeckCard

/-- What a request finds: the time, the decks, and what becomes of its steps. -/
structure Circumstances where
  now : Time
  decks : List TarotDeck
  fate : Nat → Fate

/-- The entries of the cache that are alive, and the number of steps made. -/
structure Outside where
  cards : String → Option DailyCardResponse
  deckCards : String → Option (List TarotDeckCard)
  step : Nat

def Outside.next (w : Outside) : Outside := { w with step := w.step + 1 }

@[simp] theorem Outside.next_cards (w : Outside) : w.next.cards = w.cards := rfl
@[simp] theorem Outside.next_step (w : Outside) : w.next.step = w.step + 1 := rfl
@[simp] theorem Outside.next_deckCards (w : Outside) : w.next.deckCards = w.deckCards := rfl

/-- `CacheService.set`, of which the answer may be lost. -/
def stored {β : Type} (fate : Fate) (entries : String → Option β) (key : String) (value : β) :
    String → Option β :=
  if fate = .failed then entries else Function.update entries key (some value)

namespace TarotService

def tarotDeckCacheKey (code : String) : String := "tarot:deck:" ++ code

def getActiveDeckCards (c : Circumstances) (deckCode : String) (w : Outside) :
    Except Err (List TarotDeckCard) × Outside :=
  let cacheKey := tarotDeckCacheKey deckCode
  match (c.fate w.step).reply (w.deckCards cacheKey) with
  | .error e => (.error e, w.next)
  | .ok (some cached) => (.ok cached, w.next)
  | .ok none =>
      match (c.fate w.next.step).reply
        (c.decks.find? fun deck => deck.code = deckCode && deck.isActive) with
      | .error e => (.error e, w.next.next)
      | .ok none => (.error (Err.notFound "Mazo de tarot no encontrado."), w.next.next)
      | .ok (some deck) =>
          let fate := c.fate w.next.next.step
          (fate.reply deck.cards,
            { w.next.next.next with deckCards := stored fate w.deckCards cacheKey deck.cards })

end TarotService

namespace DailyCardService

variable (c : Circumstances)

/-- The clock, the cache and the decks of a request. -/
def world : World Outside Err Answer
  | .now, w => (.ok c.now, w)
  | .cacheGet key, w => ((c.fate w.step).reply (w.cards key), w.next)
  | .cacheSet key value _, w =>
      ((c.fate w.step).reply (), { w.next with cards := stored (c.fate w.step) w.cards key value })
  | .activeDeckCards code, w =>
      (.ok (TarotService.getActiveDeckCards c code w).1,
        (TarotService.getActiveDeckCards c code w).2)
  | _, w => (.error .fault, w.next)

/-- The fate of a transaction. -/
def luck (w : Outside) : Fate × Outside := (c.fate w.step, w.next)

/-- A request for the daily card in its circumstances. -/
def visit (K : DailyCardConfig) (userId : Id) (w : Outside) (D : Db) :
    Outside × Db × Except Err DailyCardResponse :=
  (getTodaysCard K userId).endure (world c) (luck c) w D

variable {c} {K : DailyCardConfig} {userId : Id} {w : Outside} {D : Db}

/-! ## From the cache -/

/-- The key of the card of a time. -/
def cardKey (userId : Id) (today : Time) : String := dailyCardCacheKey userId (toISODate today)

/-- `getTodaysCard` for a card that is not in the cache. -/
def issueTodaysCard (K : DailyCardConfig) (userId : Id) (today : Time) :
    Request DailyCardResponse := do
  if ← isWithinFreeWindow userId today then
    deliverTodaysCard K userId (toISODate today)
  else
    if ← Proc.transaction (RewardsService.tryConsumeUnlock userId .DAILY_CARD_UNLOCK) then
      deliverTodaysCard K userId (toISODate today)
    else
      let progress ← RewardsService.getProgress userId .DAILY_CARD_UNLOCK
      return .locked progress.requiredCount

theorem visit_eq : visit c K userId w D =
    (do
      let cached : Option DailyCardResponse ←
        Proc.call (Query.cacheGet (cardKey userId c.now))
      if let some card := cached then
        return card
      issueTodaysCard K userId c.now : Request DailyCardResponse).endure (world c) (luck c) w D :=
  rfl

theorem endure_cacheGet (key : String) :
    (Proc.call (Query.cacheGet key) : Request (Option DailyCardResponse)).endure
      (world c) (luck c) w D = (w.next, D, (c.fate w.step).reply (w.cards key)) :=
  Proc.endure_call _

theorem visit_unanswered (h : c.fate w.step ≠ .done) :
    visit c K userId w D = (w.next, D, .error .fault) := by
  rw [visit_eq]
  refine Proc.endure_bind_error ?_
  rw [endure_cacheGet, Fate.reply, if_neg h]
  rfl

theorem visit_cached {card : DailyCardResponse} (h : c.fate w.step = .done)
    (hcard : w.cards (cardKey userId c.now) = some card) :
    visit c K userId w D = (w.next, D, .ok card) := by
  have hget := endure_cacheGet (c := c) (w := w) (D := D) (cardKey userId c.now)
  rw [Fate.reply, if_pos h, hcard] at hget
  rw [visit_eq, Proc.endure_bind_ok hget]
  rfl

theorem visit_missed (h : c.fate w.step = .done) (hcard : w.cards (cardKey userId c.now) = none) :
    visit c K userId w D =
      (issueTodaysCard K userId c.now).endure (world c) (luck c) w.next D := by
  have hget := endure_cacheGet (c := c) (w := w) (D := D) (cardKey userId c.now)
  rw [Fate.reply, if_pos h, hcard] at hget
  rw [visit_eq, Proc.endure_bind_ok hget]

/-! ## The card is built and stored -/

/-- The decks answer with the cards of a deck, and `n` is the number of steps made then. -/
def Served (c : Circumstances) (w : Outside) (cards : List TarotDeckCard) (n : Nat) : Prop :=
  let code := ReadingsService.DEFAULT_TAROT_DECK_CODE
  c.fate w.step = .done ∧
    (w.deckCards (TarotService.tarotDeckCacheKey code) = some cards ∧ w.step + 1 = n ∨
      w.deckCards (TarotService.tarotDeckCacheKey code) = none ∧
        c.fate (w.step + 1) = .done ∧
        (∃ deck, (c.decks.find? fun deck => deck.code = code && deck.isActive) = some deck ∧
          deck.cards = cards) ∧
        c.fate (w.step + 2) = .done ∧ w.step + 3 = n)

/-- The deck has a card, and the cache stores it. -/
def Delivers (c : Circumstances) (w : Outside) : Prop :=
  ∃ cards n, Served c w cards n ∧ cards ≠ [] ∧ c.fate n = .done

theorem getActiveDeckCards_cards (code : String) :
    (TarotService.getActiveDeckCards c code w).2.cards = w.cards := by
  unfold TarotService.getActiveDeckCards
  simp only
  split
  · rfl
  · rfl
  · split <;> rfl

theorem served_iff {cards : List TarotDeckCard} {n : Nat} :
    Served c w cards n ↔
      (TarotService.getActiveDeckCards c ReadingsService.DEFAULT_TAROT_DECK_CODE w).1 = .ok cards ∧
      (TarotService.getActiveDeckCards c ReadingsService.DEFAULT_TAROT_DECK_CODE w).2.step = n := by
  unfold TarotService.getActiveDeckCards Served
  by_cases hget : c.fate w.step = .done
  · cases hcached : w.deckCards
        (TarotService.tarotDeckCacheKey ReadingsService.DEFAULT_TAROT_DECK_CODE) with
    | some cached => simp [Fate.reply, hget, hcached]
    | none =>
        by_cases hfind : c.fate (w.step + 1) = .done
        · cases hdeck : c.decks.find? fun deck =>
              deck.code = ReadingsService.DEFAULT_TAROT_DECK_CODE && deck.isActive with
          | none => simp [Fate.reply, hget, hcached, hfind, hdeck]
          | some deck =>
              by_cases hset : c.fate (w.step + 2) = .done
              · simp [Fate.reply, hget, hcached, hfind, hdeck, hset]
              · simp [Fate.reply, hget, hcached, hfind, hdeck, hset]
        · simp [Fate.reply, hget, hcached, hfind]
  · simp [Fate.reply, hget]

variable (K userId) in
theorem endure_buildTodaysCard (date : String) :
    let out := TarotService.getActiveDeckCards c ReadingsService.DEFAULT_TAROT_DECK_CODE w
    ∃ r, (buildTodaysCard K userId date).endure (world c) (luck c) w D = (out.2, D, r) ∧
      ((∃ result cards, r = .ok (.unlocked result) ∧ out.1 = .ok cards ∧ cards ≠ []) ∨
        ∃ e, r = .error e ∧ ∀ cards, out.1 = .ok cards → cards = []) := by
  intro out
  have hdeck : (Proc.call (Query.activeDeckCards ReadingsService.DEFAULT_TAROT_DECK_CODE) :
      Request (Except Err (List TarotDeckCard))).endure (world c) (luck c) w D =
        (out.2, D, .ok out.1) := Proc.endure_call _
  rw [buildTodaysCard_eq, Proc.endure_bind_ok hdeck]
  cases hcards : out.1 with
  | error e =>
      exact ⟨.error e, Proc.endure_bind_error (Proc.endure_ofExcept _),
        .inr ⟨e, rfl, fun cards h => by cases h⟩⟩
  | ok cards =>
      rw [Proc.endure_bind_ok (Proc.endure_ofExcept (.ok cards))]
      cases hcard : todaysCard K cards userId date with
      | none =>
          refine ⟨.error .fault, rfl, .inr ⟨.fault, rfl, fun cards' h => ?_⟩⟩
          cases h
          exact todaysCard_eq_none_iff.mp hcard
      | some result =>
          refine ⟨_, rfl, .inl ⟨_, cards, rfl, rfl, fun hempty => ?_⟩⟩
          cases hcard.symm.trans (todaysCard_eq_none_iff.mpr hempty)

variable (K userId) in
/-- The card is built and stored, or the request fails. -/
theorem endure_deliverTodaysCard (date : String) :
    ∃ w' r, (deliverTodaysCard K userId date).endure (world c) (luck c) w D = (w', D, r) ∧
      ((Delivers c w ∧ ∃ result, r = .ok (.unlocked result) ∧
          w'.cards (dailyCardCacheKey userId date) = some (.unlocked result)) ∨
        ¬Delivers c w ∧ ∃ e, r = .error e) ∧
      ∀ key, key ≠ dailyCardCacheKey userId date → w'.cards key = w.cards key := by
  obtain ⟨r, hbuild, hr⟩ := endure_buildTodaysCard K userId (c := c) (w := w) (D := D) date
  have hsame := getActiveDeckCards_cards (c := c) (w := w) ReadingsService.DEFAULT_TAROT_DECK_CODE
  set out := TarotService.getActiveDeckCards c ReadingsService.DEFAULT_TAROT_DECK_CODE w with hout
  unfold deliverTodaysCard
  rcases hr with ⟨result, cards, rfl, hcards, hne⟩ | ⟨e, rfl, hempty⟩
  · rw [Proc.endure_bind_ok hbuild]
    have hset : (Proc.call (Query.cacheSet (dailyCardCacheKey userId date) (.unlocked result)
        DAILY_CARD_CACHE_TTL_SECONDS) : Request Unit).endure (world c) (luck c) out.2 D =
          ({ out.2.next with
              cards := stored (c.fate out.2.step) out.2.cards (dailyCardCacheKey userId date)
                (.unlocked result) }, D, (c.fate out.2.step).reply ()) :=
      Proc.endure_call _
    have hothers : ∀ key, key ≠ dailyCardCacheKey userId date →
        stored (c.fate out.2.step) out.2.cards (dailyCardCacheKey userId date) (.unlocked result)
          key = w.cards key := by
      intro key hkey
      unfold stored
      split
      · rw [hsame]
      · rw [Function.update_of_ne hkey, hsame]
    have hdelivers : Delivers c w ↔ c.fate out.2.step = .done := by
      constructor
      · rintro ⟨cards', n, hserved, -, hfate⟩
        rw [(served_iff.mp hserved).2]
        exact hfate
      · exact fun hfate => ⟨cards, _, served_iff.mpr ⟨hcards, rfl⟩, hne, hfate⟩
    by_cases hfate : c.fate out.2.step = .done
    · rw [Fate.reply, if_pos hfate] at hset
      rw [Proc.endure_bind_ok hset]
      refine ⟨_, _, rfl, .inl ⟨hdelivers.mpr hfate, result, rfl, ?_⟩, hothers⟩
      simp [stored, hfate]
    · rw [Fate.reply, if_neg hfate] at hset
      exact ⟨_, _, Proc.endure_bind_error hset, .inr ⟨fun h => hfate (hdelivers.mp h), _, rfl⟩,
        hothers⟩
  · refine ⟨_, _, Proc.endure_bind_error hbuild, .inr ⟨?_, e, rfl⟩, fun key _ => by rw [hsame]⟩
    rintro ⟨cards, n, hserved, hne, -⟩
    exact hne (hempty cards (served_iff.mp hserved).1)

/-! ## Free, or for an unlock -/

/-- The days since a registration are those of the free window. -/
def withinFreeWindow (today createdAt : Time) : Bool :=
  (today - createdAt) / MS_PER_DAY + 1 ≤ DAILY_CARD_FREE_DAYS

/-- The progress of a user towards the next daily card. -/
def unlocks (userId : Id) (D : Db) : Option Nat :=
  D.rewardProgress.lookup (userId, .DAILY_CARD_UNLOCK)

/-- There is an unlock to consume. -/
def Unlocked (userId : Id) (D : Db) : Prop :=
  ∃ currentCount, unlocks userId D = some currentCount ∧
    RewardsService.REWARD_ADS_REQUIRED .DAILY_CARD_UNLOCK ≤ currentCount

/-- The rows after an unlock is consumed. -/
def spent (userId : Id) (D : Db) : Db :=
  view (RewardsService.unlockWrites userId .DAILY_CARD_UNLOCK) D

theorem unlocks_spent : unlocks userId (spent userId D) = some 0 := by
  simp [unlocks, spent, RewardsService.unlockWrites]

theorem Unlocked.spent_ne (h : Unlocked userId D) :
    unlocks userId (spent userId D) ≠ unlocks userId D := by
  obtain ⟨currentCount, hcount, hle⟩ := h
  rw [unlocks_spent, hcount]
  intro heq
  cases Option.some.inj heq
  exact absurd hle (by decide)

variable {today : Time} {user : User}

theorem outcome_findUser (fate : Fate) :
    (Db.user.findUnique userId : TxM (Option User)).outcome D fate =
      ([], fate.reply (D.users.lookup userId)) := by
  cases fate <;> rfl

theorem endure_isWithinFreeWindow (hfate : c.fate w.step = .done)
    (huser : D.users.lookup userId = some user) :
    (isWithinFreeWindow userId today).endure (world c) (luck c) w D =
      (w.next, D, .ok (withinFreeWindow today user.createdAt)) := by
  have hfind := Proc.endure_transaction (world c) (luck c) w D
    (Db.user.findUnique userId : TxM (Option User))
  rw [outcome_findUser, luck, hfate, Fate.reply, if_pos rfl, huser] at hfind
  unfold isWithinFreeWindow
  rw [Proc.endure_bind_ok hfind]
  rfl

variable (K userId today) in
theorem issue_unanswered (hfate : c.fate w.step ≠ .done) :
    ∃ e, (issueTodaysCard K userId today).endure (world c) (luck c) w D =
      (w.next, D, .error e) := by
  have hfind := Proc.endure_transaction (world c) (luck c) w D
    (Db.user.findUnique userId : TxM (Option User))
  rw [outcome_findUser, luck, Fate.reply, if_neg hfate] at hfind
  unfold issueTodaysCard isWithinFreeWindow
  exact ⟨_, Proc.endure_bind_error (Proc.endure_bind_error hfind)⟩

theorem issue_free (hfate : c.fate w.step = .done) (huser : D.users.lookup userId = some user)
    (hfree : withinFreeWindow today user.createdAt = true) :
    (issueTodaysCard K userId today).endure (world c) (luck c) w D =
      (deliverTodaysCard K userId (toISODate today)).endure (world c) (luck c) w.next D := by
  unfold issueTodaysCard
  rw [Proc.endure_bind_ok (endure_isWithinFreeWindow hfate huser), hfree]
  rfl

theorem run_tryConsumeUnlock (h : Unlocked userId D) :
    (RewardsService.tryConsumeUnlock userId .DAILY_CARD_UNLOCK).run D [] =
      .ok (true, RewardsService.unlockWrites userId .DAILY_CARD_UNLOCK) := by
  obtain ⟨currentCount, hcount, hle⟩ := h
  have hupdate := Db.rewardProgressOf.run_updateMany (E := Err) (L := []) (D := D)
    (k := (userId, RewardType.DAILY_CARD_UNLOCK)) (v := currentCount)
    (p := fun currentCount => RewardsService.REWARD_ADS_REQUIRED .DAILY_CARD_UNLOCK ≤ currentCount)
    (fun _ => 0) hcount (decide_eq_true hle)
  exact Tx.run_bind_ok hupdate

theorem run_tryConsumeUnlock_locked (h : ¬Unlocked userId D) :
    (RewardsService.tryConsumeUnlock userId .DAILY_CARD_UNLOCK).run D [] = .ok (false, []) := by
  have hupdate := Db.rewardProgressOf.run_updateMany_none (E := Err) (L := []) (D := D)
    (k := (userId, RewardType.DAILY_CARD_UNLOCK))
    (p := fun currentCount => RewardsService.REWARD_ADS_REQUIRED .DAILY_CARD_UNLOCK ≤ currentCount)
    (fun _ => 0) fun currentCount hcount =>
      decide_eq_false fun hle => h ⟨currentCount, hcount, hle⟩
  exact Tx.run_bind_ok hupdate

variable (userId) in
theorem endure_getProgress (rewardType : RewardType) :
    ∃ r, (RewardsService.getProgress userId rewardType).endure (world c) (luck c) w D =
      (w.next, D, r) := by
  have hfind := Proc.endure_transaction (world c) (luck c) w D
    (Db.rewardProgressOf.findUnique (userId, rewardType) : TxM (Option Nat))
  have houtcome : ∀ fate, (Db.rewardProgressOf.findUnique (userId, rewardType) :
      TxM (Option Nat)).outcome D fate =
        ([], fate.reply (D.rewardProgress.lookup (userId, rewardType))) := by
    intro fate
    cases fate <;> rfl
  rw [luck, houtcome] at hfind
  unfold RewardsService.getProgress
  by_cases hfate : c.fate w.step = .done
  · rw [Fate.reply, if_pos hfate] at hfind
    exact ⟨_, Proc.endure_bind_ok hfind⟩
  · rw [Fate.reply, if_neg hfate] at hfind
    exact ⟨_, Proc.endure_bind_error hfind⟩

section Locked

variable (hfate : c.fate w.step = .done) (huser : D.users.lookup userId = some user)
  (hlocked : withinFreeWindow today user.createdAt = false)
include hfate huser hlocked

theorem issue_failed (hupdate : c.fate (w.step + 1) = .failed) :
    (issueTodaysCard K userId today).endure (world c) (luck c) w D =
      (w.next.next, D, .error .fault) := by
  have htx := Proc.endure_transaction (world c) (luck c) w.next D
    (RewardsService.tryConsumeUnlock userId .DAILY_CARD_UNLOCK)
  rw [luck, Outside.next_step, hupdate] at htx
  unfold issueTodaysCard
  rw [Proc.endure_bind_ok (endure_isWithinFreeWindow hfate huser), hlocked]
  exact Proc.endure_bind_error htx

/-- The unlock is consumed, and the request does not learn of it. -/
theorem issue_lost (hupdate : c.fate (w.step + 1) = .lost) (hunlocked : Unlocked userId D) :
    (issueTodaysCard K userId today).endure (world c) (luck c) w D =
      (w.next.next, spent userId D, .error .fault) := by
  have htx := Proc.endure_transaction (world c) (luck c) w.next D
    (RewardsService.tryConsumeUnlock userId .DAILY_CARD_UNLOCK)
  rw [luck, Outside.next_step, hupdate, Tx.outcome, run_tryConsumeUnlock hunlocked] at htx
  unfold issueTodaysCard
  rw [Proc.endure_bind_ok (endure_isWithinFreeWindow hfate huser), hlocked]
  exact Proc.endure_bind_error htx

theorem issue_spent (hupdate : c.fate (w.step + 1) = .done) (hunlocked : Unlocked userId D) :
    (issueTodaysCard K userId today).endure (world c) (luck c) w D =
      (deliverTodaysCard K userId (toISODate today)).endure (world c) (luck c) w.next.next
        (spent userId D) := by
  have htx := Proc.endure_transaction (world c) (luck c) w.next D
    (RewardsService.tryConsumeUnlock userId .DAILY_CARD_UNLOCK)
  rw [luck, Outside.next_step, hupdate, Tx.outcome, run_tryConsumeUnlock hunlocked] at htx
  unfold issueTodaysCard
  rw [Proc.endure_bind_ok (endure_isWithinFreeWindow hfate huser), hlocked]
  exact Proc.endure_bind_ok htx

/-- Without an unlock there is no card, and nothing is written. -/
theorem issue_locked (hunlocked : ¬Unlocked userId D) :
    ∃ w' r, (issueTodaysCard K userId today).endure (world c) (luck c) w D = (w', D, r) ∧
      w'.cards = w.cards ∧ ((∃ e, r = .error e) ∨ ∃ requiredAds, r = .ok (.locked requiredAds)) := by
  have htx := Proc.endure_transaction (world c) (luck c) w.next D
    (RewardsService.tryConsumeUnlock userId .DAILY_CARD_UNLOCK)
  unfold issueTodaysCard
  rw [Proc.endure_bind_ok (endure_isWithinFreeWindow hfate huser), hlocked]
  rw [luck, Outside.next_step] at htx
  cases hupdate : c.fate (w.step + 1) with
  | failed =>
      rw [hupdate] at htx
      exact ⟨_, _, Proc.endure_bind_error htx, rfl, .inl ⟨_, rfl⟩⟩
  | lost =>
      rw [hupdate, Tx.outcome, run_tryConsumeUnlock_locked hunlocked] at htx
      exact ⟨_, _, Proc.endure_bind_error htx, rfl, .inl ⟨_, rfl⟩⟩
  | done =>
      rw [hupdate, Tx.outcome, run_tryConsumeUnlock_locked hunlocked] at htx
      obtain ⟨r, hprogress⟩ := endure_getProgress userId (c := c) (w := w.next.next) (D := D)
        .DAILY_CARD_UNLOCK
      cases r with
      | error e =>
          exact ⟨_, _, (Proc.endure_bind_ok htx).trans (Proc.endure_bind_error hprogress), rfl,
            .inl ⟨e, rfl⟩⟩
      | ok progress =>
          exact ⟨_, _, (Proc.endure_bind_ok htx).trans (Proc.endure_bind_ok hprogress), rfl,
            .inr ⟨progress.requiredCount, rfl⟩⟩

end Locked

end DailyCardService

end TaroTria
