import TaroTria.DailyCard.CardVisits

/-!
# The unlock of a failed request

The unlock of a daily card is consumed in a transaction of its own. What fails after
it, the decks or the cache, takes the unlock along.
-/

namespace TaroTria

open Transactions

namespace DailyCardService

/-- What a request for the daily card owes to the unlock of its user: one that fails
leaves it, and the card that it is consumed for is the card of the day. -/
structure KeepsUnlock (K : DailyCardConfig) (c : Circumstances) (userId : Id) (w : Outside)
    (D : Db) : Prop where
  failed : ∀ w' D' e, visit c K userId w D = (w', D', .error e) →
    unlocks userId D' = unlocks userId D
  repeats : ∀ w' D' card, visit c K userId w D = (w', D', .ok (.unlocked card)) →
    unlocks userId D' ≠ unlocks userId D →
      w'.cards (cardKey userId c.now) = some (.unlocked card) ∧
      ∀ (later : Circumstances) (w₂ : Outside) (D₂ : Db),
        toISODate later.now = toISODate c.now →
        w₂.cards (cardKey userId c.now) = w'.cards (cardKey userId c.now) →
          visit later K userId w₂ D₂ = (w₂.next, D₂,
            if later.fate w₂.step = .done then .ok (.unlocked card) else .error .fault)

/-- The request commits the update of the progress, and there is an unlock to consume. -/
def Spends (c : Circumstances) (userId : Id) (w : Outside) (D : Db) : Prop :=
  c.fate w.step = .done ∧ w.cards (cardKey userId c.now) = none ∧
    c.fate (w.step + 1) = .done ∧ c.fate (w.step + 2) ≠ .failed ∧ Unlocked userId D

/-- Nothing fails from the update of the progress on. -/
def GoesThrough (c : Circumstances) (w : Outside) : Prop :=
  c.fate (w.step + 2) = .done ∧ Delivers c w.next.next.next

section User

variable {K : DailyCardConfig} {c : Circumstances} {userId : Id} {w : Outside} {D : Db}
  {user : User} (huser : D.users.lookup userId = some user)
  (houtside : withinFreeWindow c.now user.createdAt = false)
include huser houtside

/-- A request that does not spend an unlock writes nothing. -/
theorem visit_of_not_spends (h : ¬Spends c userId w D) :
    ∃ w' r, visit c K userId w D = (w', D, r) := by
  by_cases hget : c.fate w.step = .done
  · cases hcard : w.cards (cardKey userId c.now) with
    | some card => exact ⟨_, _, visit_cached hget hcard⟩
    | none =>
        rw [visit_missed hget hcard]
        by_cases hfind : c.fate (w.step + 1) = .done
        · by_cases hunlocked : Unlocked userId D
          · have hupdate : c.fate (w.step + 2) = .failed := by
              by_contra hcommit
              exact h ⟨hget, hcard, hfind, hcommit, hunlocked⟩
            exact ⟨_, _, issue_failed hfind huser houtside hupdate⟩
          · obtain ⟨w', r, hissue, -⟩ := issue_locked (K := K) (w := w.next) hfind huser houtside
              hunlocked
            exact ⟨w', r, hissue⟩
        · obtain ⟨e, hissue⟩ := issue_unanswered K userId c.now (D := D) (w := w.next) hfind
          exact ⟨_, _, hissue⟩
  · exact ⟨_, _, visit_unanswered hget⟩

/-- A request that spends an unlock goes through and stores its card, or it fails. -/
theorem visit_of_spends (h : Spends c userId w D) :
    ∃ w' r, visit c K userId w D = (w', spent userId D, r) ∧
      ((GoesThrough c w ∧ ∃ result, r = .ok (.unlocked result) ∧
          w'.cards (cardKey userId c.now) = some (.unlocked result)) ∨
        ¬GoesThrough c w ∧ ∃ e, r = .error e) := by
  obtain ⟨hget, hcard, hfind, hcommit, hunlocked⟩ := h
  rw [visit_missed hget hcard]
  by_cases hupdate : c.fate (w.step + 2) = .done
  · rw [issue_spent hfind huser houtside hupdate hunlocked]
    obtain ⟨w', r, hdeliver, hr, -⟩ := endure_deliverTodaysCard K userId (c := c)
      (w := w.next.next.next) (D := spent userId D) (toISODate c.now)
    refine ⟨w', r, hdeliver, hr.imp (fun hok => ?_) fun herr => ?_⟩
    · exact ⟨⟨hupdate, hok.1⟩, hok.2⟩
    · exact ⟨fun hthrough => herr.1 hthrough.2, herr.2⟩
  · have hlost : c.fate (w.step + 2) = .lost := by
      cases hfate : c.fate (w.step + 2) with
      | done => exact absurd hfate hupdate
      | lost => rfl
      | failed => exact absurd hfate hcommit
    rw [issue_lost hfind huser houtside hlost hunlocked]
    exact ⟨_, _, rfl, .inr ⟨fun hthrough => hupdate hthrough.1, _, rfl⟩⟩

/-- An unlock is kept exactly if nothing fails once it is consumed. -/
theorem keepsUnlock_iff :
    KeepsUnlock K c userId w D ↔ (Spends c userId w D → GoesThrough c w) := by
  constructor
  · intro hkeeps hspends
    obtain ⟨w', r, hvisit, hr⟩ := visit_of_spends (K := K) huser houtside hspends
    rcases hr with ⟨hthrough, -⟩ | ⟨-, e, rfl⟩
    · exact hthrough
    · exact absurd (hkeeps.failed w' _ e hvisit) hspends.2.2.2.2.spent_ne
  · intro hcondition
    by_cases hspends : Spends c userId w D
    · obtain ⟨w', r, hvisit, hr⟩ := visit_of_spends (K := K) huser houtside hspends
      obtain ⟨-, result, rfl, hstored⟩ := hr.resolve_right fun h => h.1 (hcondition hspends)
      refine ⟨fun w'' D'' e h => ?_, fun w'' D'' card h _ => ?_⟩
      · cases hvisit.symm.trans h
      · cases hvisit.symm.trans h
        refine ⟨hstored, fun later w₂ D₂ hdate hlive => ?_⟩
        have hkey : cardKey userId later.now = cardKey userId c.now := by
          rw [cardKey, cardKey, hdate]
        split
        · rename_i hget
          exact visit_cached hget (by rw [hkey, hlive, hstored])
        · rename_i hget
          exact visit_unanswered hget
    · obtain ⟨w', r, hvisit⟩ := visit_of_not_spends (K := K) huser houtside hspends
      refine ⟨fun w'' D'' e h => ?_, fun w'' D'' card h hchanged => ?_⟩
      · cases hvisit.symm.trans h
        rfl
      · cases hvisit.symm.trans h
        exact absurd rfl hchanged

end User

/-! ## A deck that is missing -/

def ada : User :=
  { email := "ada@example.com", name := "Ada", passwordHash := "", status := .ACTIVE
    emailVerifiedAt := none, createdAt := 0, roles := ["USER"] }

/-- A user with an unlock. -/
def unlockedStore : Db :=
  view [.user "ada" (some ada), .rewardProgress ("ada", .DAILY_CARD_UNLOCK) (some 1)] Db.empty

/-- The sixth day of the account, on which no deck is found. -/
def missingDeck : Circumstances :=
  { now := 5 * MS_PER_DAY, decks := [], fate := fun _ => .done }

def coldCache : Outside := ⟨fun _ => none, fun _ => none, 0⟩

def zeroDigest : DailyCardConfig := ⟨"secret", fun _ _ _ => 0⟩

theorem unlocked_unlockedStore : Unlocked "ada" unlockedStore := ⟨1, rfl, le_rfl⟩

theorem keepsUnlock_iff_missingDeck :
    unlockedStore.users.lookup "ada" = some ada ∧
      withinFreeWindow missingDeck.now ada.createdAt = false ∧
      (KeepsUnlock zeroDigest missingDeck "ada" coldCache unlockedStore ↔
        (Spends missingDeck "ada" coldCache unlockedStore → GoesThrough missingDeck coldCache)) :=
  ⟨rfl, rfl, keepsUnlock_iff rfl rfl⟩

/-- The deck is looked up after the unlock is consumed. -/
theorem missing_deck_loses_unlock :
    unlockedStore.users.lookup "ada" = some ada ∧
      withinFreeWindow missingDeck.now ada.createdAt = false ∧
      ¬KeepsUnlock zeroDigest missingDeck "ada" coldCache unlockedStore := by
  refine ⟨rfl, rfl, fun hkeeps => ?_⟩
  have hspends : Spends missingDeck "ada" coldCache unlockedStore :=
    ⟨rfl, rfl, rfl, by decide, unlocked_unlockedStore⟩
  have huser : unlockedStore.users.lookup "ada" = some ada := rfl
  obtain ⟨w', r, hvisit, hr⟩ := visit_of_spends (K := zeroDigest) huser rfl hspends
  rcases hr with ⟨⟨-, cards, n, hserved, hne, -⟩, -⟩ | ⟨-, e, rfl⟩
  · rcases hserved.2 with ⟨hcached, -⟩ | ⟨-, -, ⟨deck, hdeck, -⟩, -⟩
    · cases hcached
    · cases hdeck
  · exact hspends.2.2.2.2.spent_ne (hkeeps.failed w' _ e hvisit)

end DailyCardService

end TaroTria
