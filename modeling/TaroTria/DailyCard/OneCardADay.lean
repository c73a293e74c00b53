import TaroTria.DailyCard.CalendarDates
import TaroTria.Transactions.SharedWorld

/-!
# One card a day

The card of a user and a day is kept in Redis for a day. Any number of requests look for it,
build it and store it at the same time, while entries expire and calls fail. Each of them is
answered with the card that the digest of its own user and day picks.

## Implementation notes

The deck is the same in all of a run. Entries under other keys come and go.
-/

namespace TaroTria

open Transactions

namespace DailyCardService

/-! ## The keys of the cache -/

theorem colon_notMem_padStart (width n : Nat) : ':' ∉ (padStart width n).toList := by
  obtain ⟨zeros, htext⟩ := toList_padStart width n
  rw [htext, List.mem_append]
  rintro (hmem | hmem)
  · cases (List.mem_replicate.mp hmem).2
  · have hdigit := Nat.isDigit_of_mem_toDigits (by decide) (by decide) hmem
    cases hdigit

theorem colon_notMem_toISODate (t : Time) : ':' ∉ (toISODate t).toList := by
  have hdash : "-".toList = ['-'] := rfl
  rw [toISODate_eq, printDate]
  simp only [String.toList_append, List.mem_append, hdash, List.mem_singleton, not_or]
  exact ⟨⟨⟨⟨colon_notMem_padStart _ _, by decide⟩, colon_notMem_padStart _ _⟩, by decide⟩,
    colon_notMem_padStart _ _⟩

/-- A text whose last part has no mark is split at its last mark. -/
theorem append_mark_inj_last {a a' b b' : List Char} {mark : Char} (hb : mark ∉ b)
    (hb' : mark ∉ b') (h : a ++ mark :: b = a' ++ mark :: b') : a = a' ∧ b = b' := by
  have hreverse := congrArg List.reverse h
  simp only [List.reverse_append, List.reverse_cons, List.append_assoc,
    List.singleton_append] at hreverse
  obtain ⟨hlast, hfirst⟩ := append_mark_inj (by simpa using hb) (by simpa using hb') hreverse
  exact ⟨List.reverse_injective hfirst, List.reverse_injective hlast⟩

/-- The key of a card tells its user and its date. -/
theorem dailyCardCacheKey_pair_inj {userId userId' : Id} {t t' : Time}
    (h : dailyCardCacheKey userId (toISODate t) = dailyCardCacheKey userId' (toISODate t')) :
    userId = userId' ∧ toISODate t = toISODate t' := by
  have hchars := congrArg String.toList h
  have hcolon : ":".toList = [':'] := rfl
  simp only [dailyCardCacheKey, String.toList_append, List.append_assoc, hcolon,
    List.singleton_append, List.append_cancel_left_eq] at hchars
  obtain ⟨huser, hdate⟩ := append_mark_inj_last (colon_notMem_toISODate _)
    (colon_notMem_toISODate _) hchars
  exact ⟨String.toList_injective huser, String.toList_injective hdate⟩

end DailyCardService

namespace DailyCards

open DailyCardService

variable {Other : Type}

inductive CardRequest (Other : Type)
  | getTodaysCard (userId : Id)
  | other (o : Other)

/-- The request of a call. It returns what it answers. -/
def CardRequest.prog (K : DailyCardConfig) (others : Other → TxM Unit) :
    CardRequest Other → Request (Option DailyCardResponse)
  | getTodaysCard userId => do return some (← DailyCardService.getTodaysCard K userId)
  | other o => do
      Proc.transaction (others o)
      return none

/-- The entries of the cache that are alive, and the time. -/
structure CardStore where
  entries : String → Option DailyCardResponse
  now : Time

def CardStore.put (w : CardStore) (key : String) (card : DailyCardResponse) : CardStore :=
  { w with entries := Function.update w.entries key (some card) }

/-- What a call may be answered, and what it leaves. Every call may fail, and a failed
storing may be made. -/
def Replies (deck : List TarotDeckCard) (q : Query) (w : CardStore) (r : Except Err (Answer q))
    (w' : CardStore) : Prop :=
  match q, r with
  | .now, .ok t => t = w.now ∧ w' = w
  | .cacheGet key, .ok cached => cached = w.entries key ∧ w' = w
  | .cacheSet key card _, .ok _ => w' = w.put key card
  | .cacheSet key card _, .error _ => w' = w ∨ w' = w.put key card
  | .activeDeckCards _, .ok cards => (∀ list, cards = .ok list → list = deck) ∧ w' = w
  | _, _ => w' = w

/-- Time passes, cards expire, and entries under other keys come and go. -/
structure Moves (w w' : CardStore) : Prop where
  now : w.now ≤ w'.now
  cards : ∀ userId t, w'.entries (dailyCardCacheKey userId (toISODate t)) = none ∨
    w'.entries (dailyCardCacheKey userId (toISODate t)) =
      w.entries (dailyCardCacheKey userId (toISODate t))

/-- The service of daily cards, beside transactions of other services. -/
def service (K : DailyCardConfig) (deck : List TarotDeckCard) (others : Other → TxM Unit) :
    Setting Db RowWrite Err CardStore (CardRequest Other) Answer (Option DailyCardResponse) where
  prog := CardRequest.prog K others
  reply := Replies deck
  moves := Moves
  returns _ _ w := w

/-- A response shows the card of a user and a date. -/
def Shows (K : DailyCardConfig) (deck : List TarotDeckCard) (userId : Id) (date : String)
    (card : DailyCardResponse) : Prop :=
  ∃ result, card = .unlocked result ∧ todaysCard K deck userId date = some result

/-- Every card in the cache is the one of the user and the date of its key. -/
def Right (K : DailyCardConfig) (deck : List TarotDeckCard) (w : CardStore) : Prop :=
  ∀ userId t card, w.entries (dailyCardCacheKey userId (toISODate t)) = some card →
    Shows K deck userId (toISODate t) card

def rely (K : DailyCardConfig) (deck : List TarotDeckCard) : Rely CardStore Db where
  Inv w _ := Right K deck w
  Later w _ w' _ := w.now ≤ w'.now
  refl w _ := Nat.le_refl w.now
  trans := Nat.le_trans

section Requests

variable {K : DailyCardConfig} {deck : List TarotDeckCard} {others : Other → TxM Unit}
  {w : CardStore} {D : Db} {α : Type}

theorem right_of_cold
    (h : ∀ userId t, w.entries (dailyCardCacheKey userId (toISODate t)) = none) :
    Right K deck w :=
  fun userId t card hentry => by cases (h userId t).symm.trans hentry

theorem Right.put (h : Right K deck w) {userId : Id} {today : Time} {result : DailyCardResult}
    (hcard : todaysCard K deck userId (toISODate today) = some result) :
    Right K deck (w.put (dailyCardCacheKey userId (toISODate today)) (.unlocked result)) := by
  intro userId' t card hentry
  change Function.update w.entries _ _ _ = _ at hentry
  rw [Function.update_apply] at hentry
  split at hentry
  · rename_i hkey
    obtain ⟨rfl, hdate⟩ := dailyCardCacheKey_pair_inj hkey
    rw [hdate]
    exact ⟨result, (Option.some.inj hentry).symm, hcard⟩
  · exact h userId' t card hentry

theorem Right.move {w' : CardStore} (h : Right K deck w) (hmove : Moves w w') :
    Right K deck w' := by
  intro userId t card hentry
  rcases hmove.cards userId t with hnone | hsame
  · cases hentry.symm.trans hnone
  · exact h userId t card (hsame ▸ hentry)

variable (K deck others) in
/-- The request keeps the cache right, and ends in `P`. -/
abbrev Minded (P : Except Err α → CardStore → Db → Prop) (p : Request α) (w : CardStore) (D : Db) :
    Prop :=
  p.Minds (service K deck others) (fun _ _ _ _ => True) (rely K deck) P w D

/-- No transaction matters to the cache. -/
theorem minded_transaction {body : TxM α} {P : Except Err α → CardStore → Db → Prop}
    (h : ∀ r w' D', w.now ≤ w'.now → P r w' D') :
    Minded K deck others P (Proc.transaction body : Request α) w D := by
  intro w' D' hl hI
  refine ⟨fun e w'' D'' hl' => h _ w'' D'' (hl.trans hl'), fun a L _ _ => ?_⟩
  exact ⟨⟨hI, Nat.le_refl _⟩, fun w'' D'' hl' => h _ w'' D'' (hl.trans hl')⟩

/-- A call that stores nothing. -/
theorem minded_call {q : Query} {P : Except Err (Answer q) → CardStore → Db → Prop}
    (hq : ∀ w r w', Replies deck q w r w' → w' = w)
    (h : ∀ r w', w.now ≤ w'.now → Right K deck w' → Replies deck q w' r w' →
      ∀ w'' D'', w'.now ≤ w''.now → P r w'' D'') :
    Minded K deck others P (Proc.call q : Request (Answer q)) w D := by
  refine Proc.minds_call fun w' D' hl hI r w'' hreply _ => ?_
  obtain rfl := hq w' r w'' hreply
  exact ⟨(rely K deck).keeps_refl hI, h r w'' hl hI hreply⟩

/-- The answer of a request that is made from `start` on. -/
def Answered (K : DailyCardConfig) (deck : List TarotDeckCard) (start : Time) (userId : Id)
    (r : Except Err DailyCardResponse) (w : CardStore) (_ : Db) : Prop :=
  ∀ result, r = .ok (.unlocked result) → ∃ today, start ≤ today ∧ today ≤ w.now ∧
    todaysCard K deck userId (toISODate today) = some result

theorem answered_error {start : Time} {userId : Id} {e : Err} :
    Answered K deck start userId (.error e) w D := fun _ h => by cases h

theorem minded_buildTodaysCard (userId : Id) (date : String) :
    Minded K deck others (fun r _ _ => ∀ card, r = .ok card → Shows K deck userId date card)
      (buildTodaysCard K userId date) w D := by
  have hlocked : ∀ (e : Err) card, (.error e : Except Err DailyCardResponse) = .ok card →
      Shows K deck userId date card := fun e card h => by cases h
  rw [buildTodaysCard_eq]
  refine Proc.Minds.bind (minded_call ?_ fun r w' _ _ hreply w'' D'' _ => ?_)
  · intro w r w' h
    cases r with
    | ok cards => exact h.2
    | error e => exact h
  cases r with
  | error e => exact hlocked e
  | ok found =>
      cases found with
      | error e => exact fun _ _ _ => hlocked e
      | ok cards =>
          obtain rfl := hreply.1 cards rfl
          simp only [Proc.ofExcept_ok, Proc.ret_bind]
          cases hcard : todaysCard K cards userId date with
          | none => exact fun _ _ _ => hlocked .fault
          | some result =>
              intro w₁ D₁ _ card h
              cases h
              exact ⟨result, rfl, hcard⟩

theorem minded_cacheSet {userId : Id} {today : Time} {result : DailyCardResult} {ttl : Nat}
    {P : Except Err Unit → CardStore → Db → Prop}
    (hcard : todaysCard K deck userId (toISODate today) = some result)
    (h : ∀ r w' D', w.now ≤ w'.now → P r w' D') :
    Minded K deck others P (Proc.call (Query.cacheSet (dailyCardCacheKey userId (toISODate today))
      (.unlocked result) ttl) : Request Unit) w D := by
  intro w' D' hl hI r w'' hreply _
  have hkeeps : (rely K deck).Keeps w' D' w'' D' := by
    cases r with
    | ok _ => exact hreply ▸ ⟨Right.put hI hcard, Nat.le_refl _⟩
    | error e =>
        rcases hreply with rfl | rfl
        · exact (rely K deck).keeps_refl hI
        · exact ⟨Right.put hI hcard, Nat.le_refl _⟩
  refine ⟨hkeeps, ?_⟩
  cases r with
  | ok _ => exact fun w₁ D₁ hl₁ => h _ w₁ D₁ (hl.trans (hkeeps.later.trans hl₁))
  | error e => exact fun w₁ D₁ hl₁ => h _ w₁ D₁ (hl.trans (hkeeps.later.trans hl₁))

/-- A card is built and kept for the day of the request. -/
theorem minded_deliverTodaysCard {start today : Time} {userId : Id} (hstart : start ≤ today)
    (hnow : today ≤ w.now) : Minded K deck others (Answered K deck start userId)
      (deliverTodaysCard K userId (toISODate today)) w D := by
  unfold deliverTodaysCard
  have hbuilt : Minded K deck others _ (buildTodaysCard K userId (toISODate today)) w D :=
    minded_buildTodaysCard userId (toISODate today)
  refine Proc.Minds.bind ((hbuilt.onward ((rely K deck).refl w D)).mono fun r w' D' h => ?_)
  cases r with
  | error e => exact answered_error
  | ok card =>
      obtain ⟨result, rfl, hcard⟩ := h.1 card rfl
      refine Proc.Minds.bind (minded_cacheSet hcard fun r w'' D'' hl => ?_)
      cases r with
      | error e => exact answered_error
      | ok _ =>
          intro w₁ D₁ hl₁ result' h'
          cases h'
          refine ⟨today, hstart, ?_, hcard⟩
          calc today ≤ w.now := hnow
            _ ≤ w'.now := h.2
            _ ≤ w''.now := hl
            _ ≤ w₁.now := hl₁

theorem minded_isWithinFreeWindow (userId : Id) (today : Time) :
    Minded K deck others (fun _ w' _ => w.now ≤ w'.now)
      (DailyCardService.isWithinFreeWindow userId today) w D := by
  unfold DailyCardService.isWithinFreeWindow
  refine Proc.Minds.bind (minded_transaction fun r w' D' hl => ?_)
  cases r with
  | error e => exact hl
  | ok user =>
      cases user with
      | none => exact fun w'' D'' hl' => hl.trans hl'
      | some user => exact fun w'' D'' hl' => hl.trans hl'

/-- A locked answer shows no card. -/
theorem minded_locked {start : Time} {userId : Id} :
    Minded K deck others (Answered K deck start userId) (do
      let progress ← RewardsService.getProgress userId .DAILY_CARD_UNLOCK
      return .locked progress.requiredCount) w D := by
  unfold RewardsService.getProgress
  refine Proc.Minds.bind (Proc.Minds.bind (minded_transaction fun r _ _ _ => ?_))
  cases r with
  | error e => exact answered_error
  | ok progress => exact fun _ _ _ _ _ _ result h => by cases h

/-- A request is answered with the card of its user and of a day that it has seen. -/
theorem minded_getTodaysCard {start : Time} (hstart : start ≤ w.now) (userId : Id) :
    Minded K deck others (Answered K deck start userId)
      (DailyCardService.getTodaysCard K userId) w D := by
  unfold DailyCardService.getTodaysCard
  refine Proc.Minds.bind (minded_call ?_ fun r w₁ hl₁ _ hreply w₂ D₂ hl₂ => ?_)
  · intro w r w' h
    cases r with
    | ok t => exact h.2
    | error e => exact h
  cases r with
  | error e => exact answered_error
  | ok today =>
      obtain ⟨rfl, -⟩ := hreply
      have hstart₁ : start ≤ w₁.now := hstart.trans hl₁
      refine Proc.Minds.bind (minded_call ?_ fun r w₃ hl₃ hright hreply w₄ D₄ hl₄ => ?_)
      · intro w r w' h
        cases r with
        | ok cached => exact h.2
        | error e => exact h
      have hnow₄ : w₁.now ≤ w₄.now := hl₂.trans (hl₃.trans hl₄)
      cases r with
      | error e => exact answered_error
      | ok cached =>
          cases cached with
          | some card =>
              -- The entry is the one of this user and this day.
              obtain ⟨result, rfl, hcard⟩ := hright userId w₁.now card hreply.1.symm
              intro w₅ D₅ hl₅ result' h'
              cases h'
              exact ⟨w₁.now, hstart₁, hnow₄.trans hl₅, hcard⟩
          | none =>
              have hdeliver : ∀ w₅ D₅, w₄.now ≤ w₅.now →
                  Minded K deck others (Answered K deck start userId)
                    (deliverTodaysCard K userId (toISODate w₁.now)) w₅ D₅ :=
                fun w₅ D₅ hl₅ => minded_deliverTodaysCard hstart₁ (hnow₄.trans hl₅)
              simp only
              refine Proc.Minds.bind ((minded_isWithinFreeWindow userId w₁.now).mono
                fun r w₅ D₅ hl₅ => ?_)
              cases r with
              | error e => exact answered_error
              | ok isFree =>
                  simp only
                  split
                  · exact hdeliver w₅ D₅ hl₅
                  refine Proc.Minds.bind (minded_transaction fun r w₆ D₆ hl₆ => ?_)
                  cases r with
                  | error e => exact answered_error
                  | ok unlockedNow =>
                      simp only
                      split
                      · exact hdeliver w₆ D₆ (hl₅.trans hl₆)
                      · exact minded_locked

/-- The end of a request that is made from `start` on. -/
def Ends (K : DailyCardConfig) (deck : List TarotDeckCard) (start : Time) (c : CardRequest Other)
    (r : Except Err (Option DailyCardResponse)) (w : CardStore) (D : Db) : Prop :=
  ∀ userId card, c = .getTodaysCard userId → r = .ok (some card) →
    Answered K deck start userId (.ok card) w D

theorem minded_prog {start : Time} (hstart : start ≤ w.now) (c : CardRequest Other) :
    Minded K deck others (Ends K deck start c) (c.prog K others) w D := by
  cases c with
  | getTodaysCard userId =>
      refine Proc.Minds.bind ((minded_getTodaysCard hstart userId).mono fun r w' D' h => ?_)
      cases r with
      | error e => exact fun _ _ _ h' => by cases h'
      | ok card =>
          intro w₁ D₁ hl userId' card' hc hr
          cases hc
          cases hr
          intro result hresult
          obtain ⟨today, hstart, hnow, hcard⟩ := h result hresult
          exact ⟨today, hstart, hnow.trans hl, hcard⟩
  | other o =>
      refine Proc.Minds.bind (minded_transaction fun r w' D' _ => ?_)
      cases r with
      | error e => exact fun _ _ hc => by cases hc
      | ok _ => exact fun _ _ _ _ _ hc => by cases hc

end Requests

section Runs

variable {K : DailyCardConfig} {deck : List TarotDeckCard} {others : Other → TxM Unit}

/-- In every run that starts with no card in the cache, a request that is answered with a card
is answered with the one that the digest of its user and of a day picks, and the day is one
between the start of the request and its answer. The answers of a user that bear one date
show one card. -/
theorem one_card_a_day {w : CardStore} {D : Db}
    (hcold : ∀ userId t, w.entries (dailyCardCacheKey userId (toISODate t)) = none)
    {s s' : Scene Db RowWrite Err CardStore (CardRequest Other) Answer (Option DailyCardResponse)}
    (before : (service K deck others).Reach (fun _ _ _ _ => True) ⟨w, D, fun _ => none⟩ s)
    (after : (service K deck others).Reach (fun _ _ _ _ => True) s s') {t : Nat} {userId : Id}
    {result : DailyCardResult} (hfree : s.tasks t = none)
    (hanswer : s'.tasks t = some (.getTodaysCard userId, .ret (some (.unlocked result)))) :
    (∃ today, s.world.now ≤ today ∧ today ≤ s'.world.now ∧ result.date = toISODate today ∧
      todaysCard K deck userId (toISODate today) = some result) ∧
    ∀ t' result', s'.tasks t' = some (.getTodaysCard userId, .ret (some (.unlocked result'))) →
      result'.date = result.date → result' = result := by
  have hprog : ∀ (c : CardRequest Other) w' D', (rely K deck).Inv w' D' →
      Minded K deck others (Ends K deck 0 c) (c.prog K others) w' D' :=
    fun c w' D' _ => minded_prog (Nat.zero_le _) c
  have hmove : ∀ w' (D' : Db) w'', (rely K deck).Inv w' D' → Moves w' w'' → True →
      (rely K deck).Keeps w' D' w'' D' := fun w' D' w'' hI hm _ => ⟨Right.move hI hm, hm.now⟩
  have hreturns : ∀ (c : CardRequest Other) a w' D', (rely K deck).Inv w' D' →
      Ends K deck 0 c (.ok a) w' D' → (rely K deck).Keeps w' D' w' D' :=
    fun c a w' D' hI _ => (rely K deck).keeps_refl hI
  have hstart : Setting.Minding (service K deck others) (fun _ _ _ _ => True) (rely K deck)
      (Ends K deck 0) ⟨w, D, fun _ => none⟩ :=
    ⟨right_of_cold hcold, fun t c p hp => by cases hp⟩
  have hminding := hstart.run hprog hmove hreturns before
  have hshown : ∀ t' result',
      s'.tasks t' = some (.getTodaysCard userId, .ret (some (.unlocked result'))) →
        todaysCard K deck userId result'.date = some result' := by
    intro t' result' ht'
    have hafter := hminding.run hprog hmove hreturns after
    obtain ⟨today, -, -, hcard⟩ := hafter.tasks t' _ _ ht' s'.world s'.db
      ((rely K deck).refl _ _) userId _ rfl rfl result' rfl
    rw [todaysCard_date hcard]
    exact hcard
  obtain ⟨today, hfrom, hto, hcard⟩ := hminding.ends (T := Ends K deck s.world.now) hprog hmove
    hreturns (fun c w' D' _ hl => minded_prog hl c) after hfree hanswer userId _ rfl rfl result rfl
  refine ⟨⟨today, hfrom, hto, todaysCard_date hcard, hcard⟩, fun t' result' ht' hdate => ?_⟩
  have hsame := hshown t' result' ht'
  rw [hdate, hshown t result hanswer] at hsame
  exact (Option.some.inj hsame).symm

end Runs

/-! ## Two visits of one day -/

section Sample

def sampleDeck : List TarotDeckCard :=
  [⟨"c0", "MAJOR_00", "El Loco", .MAJOR, none, "Un comienzo.", "Una imprudencia."⟩]

def sampleCardConfig : DailyCardConfig := ⟨"secret", fun _ _ _ => 0⟩

/-- A user who has just registered. -/
def registeredDb : Db :=
  { Db.empty with
    users := (∅ : Table Id User).write "ana"
      (some ⟨"ana@tarotria.com", "Ana", "hash", .ACTIVE, none, 0, ["USER"]⟩) }

/-- A world for concrete runs, in which every call succeeds. -/
def cardWorld : World CardStore Err Answer
  | .now, w => (.ok w.now, w)
  | .cacheGet key, w => (.ok (w.entries key), w)
  | .cacheSet key card _, w => (.ok (), w.put key card)
  | .activeDeckCards _, w => (.ok (.ok sampleDeck), w)
  | _, w => (.error .fault, w)

theorem replies_cardWorld (q : Query) (w : CardStore) :
    Replies sampleDeck q w (cardWorld q w).1 (cardWorld q w).2 := by
  cases q with
  | now => exact ⟨rfl, rfl⟩
  | cacheGet key => exact ⟨rfl, rfl⟩
  | activeDeckCards deckCode => exact ⟨fun list h => (Except.ok.inj h).symm, rfl⟩
  | _ => rfl

abbrev sampleService : Setting Db RowWrite Err CardStore (CardRequest Empty) Answer
    (Option DailyCardResponse) := service sampleCardConfig sampleDeck Empty.elim

/-- What a visit leaves, and what it is answered. -/
def visit (w : CardStore) (D : Db) : CardStore × Db × Except Err (Option DailyCardResponse) :=
  (sampleService.prog (.getTodaysCard "ana")).play cardWorld w D

/-- The first visit builds the card and stores it. -/
def first : CardStore × Db × Except Err (Option DailyCardResponse) :=
  visit ⟨fun _ => none, 0⟩ registeredDb

/-- The second visit, an hour later. -/
def second : CardStore × Db × Except Err (Option DailyCardResponse) :=
  visit ⟨first.1.entries, 3600000⟩ first.2.1

def sampleResult : DailyCardResult :=
  ⟨"1970-01-01", "MAJOR_00", "El Loco", .MAJOR, none, .UPRIGHT, "Un comienzo.",
    DAILY_CARD_DISCLAIMER⟩

theorem first_answer : first.2.2 = .ok (some (.unlocked sampleResult)) := by decide +kernel

theorem second_answer : second.2.2 = .ok (some (.unlocked sampleResult)) := by decide +kernel

/-- An hour after the first visit. -/
def resting : Scene Db RowWrite Err CardStore (CardRequest Empty) Answer
    (Option DailyCardResponse) :=
  ⟨⟨first.1.entries, 3600000⟩, first.2.1, fun _ => none⟩

theorem reach_resting : sampleService.Reach (fun _ _ _ _ => True)
    ⟨⟨fun _ => none, 0⟩, registeredDb, fun _ => none⟩ resting := by
  have hserved : sampleService.Reach (fun _ _ _ _ => True)
      ⟨⟨fun _ => none, 0⟩, registeredDb, fun _ => none⟩ ⟨first.1, first.2.1, fun _ => none⟩ :=
    Setting.serve (H := sampleService) (t := 0) (c := .getTodaysCard "ana") replies_cardWorld rfl
      (Proc.lets_of_forall (fun _ _ _ _ => trivial) _ _ _)
      (Prod.ext rfl (Prod.ext rfl first_answer))
  have hnow : first.1.now ≤ 3600000 := by decide +kernel
  exact hserved.tail (.move _ ⟨hnow, fun _ _ => .inr rfl⟩ trivial)

/-- The second visit has its answer. -/
def answering : Scene Db RowWrite Err CardStore (CardRequest Empty) Answer
    (Option DailyCardResponse) :=
  ⟨second.1, second.2.1, Function.update (fun _ => none) 1
    (some (.getTodaysCard "ana", .ret (some (.unlocked sampleResult))))⟩

theorem reach_answering : sampleService.Reach (fun _ _ _ _ => True) resting answering :=
  .head (.start 1 (.getTodaysCard "ana") rfl)
    (Setting.reach_play replies_cardWorld (Proc.lets_of_forall (fun _ _ _ _ => trivial) _ _ _)
      (Prod.ext rfl (Prod.ext rfl second_answer)))

theorem one_card_a_day_of_visits : ∃ today, 3600000 ≤ today ∧ today ≤ second.1.now ∧
    sampleResult.date = toISODate today ∧
    todaysCard sampleCardConfig sampleDeck "ana" (toISODate today) = some sampleResult :=
  (one_card_a_day (t := 1) (fun _ _ => rfl) reach_resting reach_answering rfl
    rfl).1

end Sample

end DailyCards

end TaroTria
