import TaroTria.Readings.ReadingsService
import TaroTria.Rewards.RewardsService

/-!
# The daily card

## Implementation notes

The digest of `createHmac('sha256', secret)` is a parameter. A day that begins
before the registration counts as the first one, as a negative quotient does. A year
is printed as those up to 9999 are, and without the sign of the later ones.
-/

namespace TaroTria

open Transactions

/-- The secret of the daily card and the digest that it keys. -/
structure DailyCardConfig where
  secret : String
  hmacSha256 : (secret message : String) → Fin 32 → UInt8

namespace DailyCardService

def MS_PER_DAY : Nat := 24 * 60 * 60 * 1000

def DAILY_CARD_CACHE_TTL_SECONDS : Nat := 24 * 60 * 60

def DAILY_CARD_FREE_DAYS : Nat := 5

def DAILY_CARD_DISCLAIMER : String :=
  "Las lecturas tienen fines de entretenimiento, reflexión y orientación personal. " ++
    "No constituyen asesoramiento médico, psicológico, jurídico, financiero ni profesional, " ++
    "ni garantizan acontecimientos futuros."

def dailyCardCacheKey (userId : Id) (date : String) : String :=
  "daily-card:" ++ userId ++ ":" ++ date

/-- A number with at least `width` digits. -/
def padStart (width n : Nat) : String :=
  let digits := toString n
  String.ofList (List.replicate (width - digits.length) '0') ++ digits

/-- `toISOString().slice(0, 10)`: the Gregorian date of a time, counted in eras of
400 years from the first of March of the year 0. -/
def toISODate (t : Time) : String :=
  let day := t / MS_PER_DAY + 719468
  let dayOfEra := day % 146097
  let yearOfEra := (dayOfEra - dayOfEra / 1460 + dayOfEra / 36524 - dayOfEra / 146096) / 365
  let dayOfYear := dayOfEra - (365 * yearOfEra + yearOfEra / 4 - yearOfEra / 100)
  let marchMonth := (5 * dayOfYear + 2) / 153
  let month := if marchMonth < 10 then marchMonth + 3 else marchMonth - 9
  let year := day / 146097 * 400 + yearOfEra + if month ≤ 2 then 1 else 0
  padStart 4 year ++ "-" ++ padStart 2 month ++ "-" ++
    padStart 2 (dayOfYear - (153 * marchMonth + 2) / 5 + 1)

def isWithinFreeWindow (userId : Id) (today : Time) : Request Bool := do
  let some user ← Proc.transaction (Db.user.findUnique userId)
    | throw (Err.notFound "Usuario no encontrado.")
  return (today - user.createdAt) / MS_PER_DAY + 1 ≤ DAILY_CARD_FREE_DAYS

/-- `readUInt32BE(0)`. -/
def readUInt32BE (digest : Fin 32 → UInt8) : Nat :=
  ((digest 0).toNat * 256 + (digest 1).toNat) * 65536 + (digest 2).toNat * 256 + (digest 3).toNat

/-- The card of a digest; a deck without cards has none, and reading it fails. -/
def buildTodaysCard (K : DailyCardConfig) (userId : Id) (date : String) :
    Request DailyCardResponse := do
  let cards ← Proc.ofExcept
    (← Proc.call (.activeDeckCards ReadingsService.DEFAULT_TAROT_DECK_CODE))
  let digest := K.hmacSha256 K.secret (userId ++ ":" ++ date)
  let some card := cards[readUInt32BE digest % cards.length]?
    | throw Err.fault
  let orientation : CardOrientation := if (digest 4).toNat % 2 = 0 then .UPRIGHT else .REVERSED
  return .unlocked
    { date, code := card.code, name := card.name, arcana := card.arcana, suit := card.suit,
      orientation
      interpretation := match orientation with
        | .UPRIGHT => card.uprightMeaning
        | .REVERSED => card.reversedMeaning
      disclaimer := DAILY_CARD_DISCLAIMER }

/-- The card that the digest of a user and a date picks. -/
def todaysCard (K : DailyCardConfig) (deck : List TarotDeckCard) (userId : Id) (date : String) :
    Option DailyCardResult :=
  let digest := K.hmacSha256 K.secret (userId ++ ":" ++ date)
  let orientation : CardOrientation := if (digest 4).toNat % 2 = 0 then .UPRIGHT else .REVERSED
  deck[readUInt32BE digest % deck.length]?.map fun card =>
    { date, code := card.code, name := card.name, arcana := card.arcana, suit := card.suit,
      orientation
      interpretation :=
        if orientation = .UPRIGHT then card.uprightMeaning else card.reversedMeaning
      disclaimer := DAILY_CARD_DISCLAIMER }

theorem todaysCard_date {K : DailyCardConfig} {deck : List TarotDeckCard} {userId : Id}
    {date : String} {result : DailyCardResult} (h : todaysCard K deck userId date = some result) :
    result.date = date := by
  obtain ⟨card, -, rfl⟩ := Option.map_eq_some_iff.mp h
  rfl

/-- Only a deck without cards has no card for the day. -/
theorem todaysCard_eq_none_iff {K : DailyCardConfig} {deck : List TarotDeckCard} {userId : Id}
    {date : String} : todaysCard K deck userId date = none ↔ deck = [] := by
  unfold todaysCard
  rw [Option.map_eq_none_iff, List.getElem?_eq_none_iff]
  constructor
  · intro hlength
    by_contra hne
    exact absurd (Nat.mod_lt _ (List.length_pos_of_ne_nil hne)) (not_lt.mpr hlength)
  · rintro rfl
    exact Nat.zero_le _

theorem buildTodaysCard_eq (K : DailyCardConfig) (userId : Id) (date : String) :
    buildTodaysCard K userId date = (do
      let cards ← Proc.ofExcept
        (← Proc.call (.activeDeckCards ReadingsService.DEFAULT_TAROT_DECK_CODE))
      let some result := todaysCard K cards userId date
        | throw Err.fault
      return .unlocked result) := by
  unfold buildTodaysCard
  congr 1
  funext cards
  congr 1
  funext cards
  unfold todaysCard
  cases hcard : cards[readUInt32BE (K.hmacSha256 K.secret (userId ++ ":" ++ date)) % cards.length]?
  · simp only [hcard, Option.map_none]
  · by_cases hupright : (K.hmacSha256 K.secret (userId ++ ":" ++ date) 4).toNat % 2 = 0
    · simp only [hcard, hupright, Option.map_some, if_true]
    · simp only [hcard, hupright, Option.map_some, if_false, reduceCtorEq]

/-- The card is built and kept in the cache. -/
def deliverTodaysCard (K : DailyCardConfig) (userId : Id) (date : String) :
    Request DailyCardResponse := do
  let result ← buildTodaysCard K userId date
  Proc.call (Query.cacheSet (dailyCardCacheKey userId date) result DAILY_CARD_CACHE_TTL_SECONDS)
  return result

def getTodaysCard (K : DailyCardConfig) (userId : Id) : Request DailyCardResponse := do
  let today ← Proc.call .now
  let date := toISODate today
  let cached : Option DailyCardResponse ←
    Proc.call (Query.cacheGet (dailyCardCacheKey userId date))
  if let some card := cached then
    return card
  if ← isWithinFreeWindow userId today then
    deliverTodaysCard K userId date
  else
    if ← Proc.transaction (RewardsService.tryConsumeUnlock userId .DAILY_CARD_UNLOCK) then
      deliverTodaysCard K userId date
    else
      let progress ← RewardsService.getProgress userId .DAILY_CARD_UNLOCK
      return .locked progress.requiredCount

example : toISODate 1709164800000 = "2024-02-29" := by decide +kernel

end DailyCardService

end TaroTria
