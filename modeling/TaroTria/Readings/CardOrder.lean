import TaroTria.Readings.ReadingDetail
import TaroTria.Readings.SubmitOnce
import TaroTria.Transactions.Alone
import TaroTria.Transactions.World

/-!
# One order of cards

The detail of a reading, the prompt of its interpretation and its shared summary
sort the draws by the order of their positions, each with a map of its own and
over rows in no order. A submission writes one draw for each position, and no
later call changes them, so that the three sorts give the draws in the order in
which they were made.
-/

namespace TaroTria

open Transactions ReadingsService

/-- A list sorted by a key is the permutation of it that the key increases along. -/
theorem mergeSort_eq_of_perm {α : Type} (key : α → Int) {l l' : List α} (hperm : l.Perm l')
    (hsorted : l'.Pairwise fun a b => key a < key b) :
    l.mergeSort (fun a b => key a ≤ key b) = l' := by
  have hpairwise : (l.mergeSort fun a b => key a ≤ key b).Pairwise fun a b => key a ≤ key b := by
    have h := @List.pairwise_mergeSort _ (fun a b => decide (key a ≤ key b))
      (fun a b c hab hbc => by
        simp only [decide_eq_true_eq] at hab hbc ⊢
        exact hab.trans hbc)
      (fun a b => by simpa using Int.le_total (key a) (key b)) l
    exact h.imp fun hab => by simpa using hab
  have hnodup : (l'.map key).Nodup := List.pairwise_map.mpr (hsorted.imp fun h => h.ne)
  refine List.Perm.eq_of_pairwise (fun a b ha hb hab hba => ?_) hpairwise
    (hsorted.imp fun h => h.le) ((List.mergeSort_perm l _).trans hperm)
  have ha' : a ∈ l' := hperm.subset ((List.mergeSort_perm l _).subset ha)
  exact List.inj_on_of_nodup_map hnodup ha' hb (le_antisymm hab hba)

/-! ## The draws of a reading in their order -/

section Order

variable {D : Db} {readingId : Id} {draws : List (DrawEngine.TarotDraw TarotDeckCard)}
  {spread : TarotSpread} {positions : List TarotSpreadPosition}

/-- The rows of the reading's draws are those that `createMany` made of `draws`. -/
def Holds (readingId : Id) (draws : List (DrawEngine.TarotDraw TarotDeckCard)) (D : Db) : Prop :=
  ∀ position row, D.tarotDraws.lookup (readingId, position) = some row ↔
    ∃ draw ∈ draws, draw.position = position ∧ row = ⟨draw.card.id, draw.orientation⟩

/-- The draws with the rows of their cards. -/
def withCards (D : Db) (draws : List (DrawEngine.TarotDraw TarotDeckCard)) :
    List (String × CardOrientation × TarotCard) :=
  draws.filterMap fun draw => (D.tarotCards.lookup draw.card.id).map fun card =>
    (draw.position, draw.orientation, card)

/-- The draws of a reading as the queries join them, in the order of their rows. -/
def queryDraws (readingId : Id) (D : Db) : List (String × CardOrientation × TarotCard) :=
  (D.tarotDraws.findMany fun key _ => key.1 = readingId).filterMap fun e =>
    (D.tarotCards.lookup e.2.cardId).map fun card => (e.1.2, e.2.orientation, card)

theorem queryDraws_perm (hholds : Holds readingId draws D)
    (hnodup : (draws.map (·.position)).Nodup) :
    (queryDraws readingId D).Perm (withCards D draws) := by
  have hrows : (D.tarotDraws.findMany fun key _ => key.1 = readingId).Perm
      (draws.map fun draw => ((readingId, draw.position), ⟨draw.card.id, draw.orientation⟩)) := by
    refine (List.perm_ext_iff_of_nodup (Table.nodup_keys_findMany _ _).of_map
      (List.Nodup.of_map (fun e => e.1.2) ?_)).mpr fun e => ?_
    · simpa [List.map_map, Function.comp_def] using hnodup
    · obtain ⟨⟨id, position⟩, row⟩ := e
      rw [Table.mem_findMany, List.mem_map]
      constructor
      · rintro ⟨hrow, hid⟩
        obtain rfl : id = readingId := by simpa using hid
        obtain ⟨draw, hdraw, rfl, rfl⟩ := (hholds position row).mp hrow
        exact ⟨draw, hdraw, rfl⟩
      · rintro ⟨draw, hdraw, heq⟩
        cases heq
        exact ⟨(hholds _ _).mpr ⟨draw, hdraw, rfl, rfl⟩, by simp⟩
  have h := hrows.filterMap fun e => (D.tarotCards.lookup e.2.cardId).map fun card =>
    (e.1.2, e.2.orientation, card)
  rwa [List.filterMap_map] at h

/-- The code of a position gives its `orderIndex`, in whatever order the positions come. -/
theorem positionOrder_code (hpositions : positions.Perm spread.positions) {p : TarotSpreadPosition}
    (hp : p ∈ spread.positions) : ReadingProcessing.positionOrder positions p.code =
      p.orderIndex := by
  unfold ReadingProcessing.positionOrder
  cases hfind : positions.reverse.find? fun q => q.code = p.code with
  | none =>
      have h := List.find?_eq_none.mp hfind p (by simpa using hpositions.symm.subset hp)
      simp at h
  | some q =>
      have hq : q ∈ spread.positions :=
        hpositions.subset (by simpa using List.mem_of_find?_eq_some hfind)
      have hcode : q.code = p.code := by simpa using List.find?_some hfind
      rw [List.inj_on_of_nodup_map spread.nodup hq hp hcode]
      rfl

/-- The codes of the positions increase by their `orderIndex`. -/
theorem orderedPositions_increasing (hpositions : positions.Perm spread.positions)
    (hindex : (spread.positions.map (·.orderIndex)).Nodup) :
    (orderedPositions spread).Pairwise fun a b =>
      ReadingProcessing.positionOrder positions a <
        ReadingProcessing.positionOrder positions b := by
  have hsorted := @List.pairwise_mergeSort _
    (fun p q : TarotSpreadPosition => decide (p.orderIndex ≤ q.orderIndex))
    (fun a b c hab hbc => by
      simp only [decide_eq_true_eq] at hab hbc ⊢
      exact hab.trans hbc)
    (fun a b => by simpa using Int.le_total a.orderIndex b.orderIndex) spread.positions
  have hperm := List.mergeSort_perm spread.positions
    fun p q => decide (p.orderIndex ≤ q.orderIndex)
  have hne : (spread.positions.mergeSort fun p q => p.orderIndex ≤ q.orderIndex).Pairwise
      fun p q => p.orderIndex ≠ q.orderIndex :=
    List.pairwise_map.mp ((hperm.map _).nodup_iff.mpr hindex)
  refine List.pairwise_map.mpr ((hsorted.and hne).imp_of_mem fun {p q} hp hq h => ?_)
  rw [positionOrder_code hpositions (hperm.subset hp),
    positionOrder_code hpositions (hperm.subset hq)]
  exact lt_of_le_of_ne (by simpa using h.1) h.2

/-- Sorted by their positions, the draws come in the order in which they were made. -/
theorem sort_queryDraws (hholds : Holds readingId draws D)
    (hdraws : draws.map (·.position) = orderedPositions spread)
    (hpositions : positions.Perm spread.positions)
    (hindex : (spread.positions.map (·.orderIndex)).Nodup) :
    ((queryDraws readingId D).mergeSort fun a b =>
      ReadingProcessing.positionOrder positions a.1 ≤
        ReadingProcessing.positionOrder positions b.1) = withCards D draws := by
  have hperm := queryDraws_perm hholds (hdraws ▸ nodup_orderedPositions spread)
  refine mergeSort_eq_of_perm (fun draw => ReadingProcessing.positionOrder positions draw.1)
    hperm (List.pairwise_filterMap.mpr ?_)
  have hincreasing := orderedPositions_increasing hpositions hindex
  rw [← hdraws] at hincreasing
  refine (List.pairwise_map.mp hincreasing).imp fun {a b} hab x hx y hy => ?_
  obtain ⟨card, -, rfl⟩ := Option.map_eq_some_iff.mp hx
  obtain ⟨card', -, rfl⟩ := Option.map_eq_some_iff.mp hy
  exact hab

/-- With the row of every card, each position has its card. -/
theorem withCards_positions (hcards : ∀ draw ∈ draws, D.tarotCards.lookup draw.card.id ≠ none) :
    (withCards D draws).map (·.1) = draws.map (·.position) := by
  induction draws with
  | nil => rfl
  | cons draw draws ih =>
      obtain ⟨card, hcard⟩ := Option.ne_none_iff_exists'.mp (hcards draw List.mem_cons_self)
      have htail := ih fun d hd => hcards d (List.mem_cons_of_mem _ hd)
      simp only [withCards, List.filterMap_cons, hcard, Option.map_some, List.map_cons] at htail ⊢
      rw [htail]

end Order

/-! ## What the calls leave of the draws -/

/-- What a commit of the backend does to the draws: nothing, or it is a submission. -/
theorem Effect.draws {Body : Type} {S : Deployment Body} {c : Call Body} {D : Db}
    {L : List RowWrite} (he : Effect S c D L) :
    (∃ userId readingId, ∃ s : Submission D userId readingId,
      c = .submit userId readingId ∧ L = s.writes) ∨
    (view L D).tarotDraws = D.tarotDraws ∧ (view L D).tarotCards = D.tarotCards ∧
      Table.Persists (fun _ _ => True) D.creditReservations (view L D).creditReservations := by
  have quiet : ∀ {D' : Db}, D'.tarotDraws = D.tarotDraws → D'.tarotCards = D.tarotCards →
      D'.creditReservations = D.creditReservations →
      D'.tarotDraws = D.tarotDraws ∧ D'.tarotCards = D.tarotCards ∧
        Table.Persists (fun _ _ => True) D.creditReservations D'.creditReservations :=
    fun hdraws hcards hres => ⟨hdraws, hcards, by
      rw [hres]
      exact .refl (fun _ => trivial) _⟩
  cases he with
  | submit s => exact .inl ⟨_, _, s, rfl, rfl⟩
  | createWallet hw hk =>
      unfold WalletService.bonusWrites
      split <;> exact .inr (quiet rfl rfl rfl)
  | confirm hc hres hactive hw hk =>
      exact .inr ⟨rfl, rfl, .replace (fun _ => trivial) hres trivial⟩
  | release hc hres hactive hw hk =>
      exact .inr ⟨rfl, rfl, .replace (fun _ => trivial) hres trivial⟩
  | close s hc hstatus hrejected => split <;> exact .inr (quiet rfl rfl rfl)
  | approve s hc happroved hw hk =>
      rw [s.view_approval]
      exact .inr (quiet rfl rfl rfl)
  | completeSession s hc =>
      rw [s.view_writes]
      exact .inr (quiet rfl rfl rfl)
  | _ => exact .inr (quiet rfl rfl rfl)

/-- A reading has draws only with its reservation. -/
def DrawsReserved (D : Db) : Prop :=
  ∀ id position row, D.tarotDraws.lookup (id, position) = some row →
    D.creditReservations.lookup id ≠ none

/-- The draws of a submitted reading are these, and the cards are those of `D₀`. -/
structure DrawsKept (readingId : Id) (draws : List (DrawEngine.TarotDraw TarotDeckCard))
    (D₀ D : Db) : Prop where
  holds : Holds readingId draws D
  reserved : D.creditReservations.lookup readingId ≠ none
  cards : D.tarotCards = D₀.tarotCards

section Runs

variable {Body : Type} {S : Deployment Body} {c : Call Body} {D D₀ : Db} {L : List RowWrite}
  {readingId : Id} {draws : List (DrawEngine.TarotDraw TarotDeckCard)}

theorem Effect.drawsReserved (he : Effect S c D L) (h : DrawsReserved D) :
    DrawsReserved (view L D) := by
  intro id position row hrow
  rcases he.draws with ⟨userId, readingId, s, -, rfl⟩ | ⟨hdraws, -, hres⟩
  · rw [s.view_writes] at hrow ⊢
    by_cases hid : id = readingId
    · subst hid
      simp
    · rw [lookup_storeDraws_of_ne hid] at hrow
      simpa [Table.lookup_write_of_ne _ _ hid] using h id position row hrow
  · rw [hdraws] at hrow
    obtain ⟨res, hlookup⟩ := Option.ne_none_iff_exists'.mp (h id position row hrow)
    obtain ⟨res', hlookup', -⟩ := hres id res hlookup
    simp [hlookup']

theorem Effect.drawsKept (he : Effect S c D L) (h : DrawsKept readingId draws D₀ D) :
    DrawsKept readingId draws D₀ (view L D) := by
  rcases he.draws with ⟨userId, other, s, -, rfl⟩ | ⟨hdraws, hcards, hres⟩
  · have hne : readingId ≠ other := by
      rintro rfl
      exact h.reserved s.unreserved
    rw [s.view_writes]
    refine ⟨fun position row => ?_, ?_, h.cards⟩
    · rw [← h.holds position row]
      exact Eq.congr_left (lookup_storeDraws_of_ne hne _ _ _)
    · simpa [Table.lookup_write_of_ne _ _ hne] using h.reserved
  · obtain ⟨res, hlookup⟩ := Option.ne_none_iff_exists'.mp h.reserved
    obtain ⟨res', hlookup', -⟩ := hres readingId res hlookup
    exact ⟨fun position row => by rw [hdraws, h.holds], by simp [hlookup'], hcards.trans h.cards⟩

/-- A commit of a submission that reserved credits is a whole submission. -/
theorem Effect.submission {userId : Id} (he : Effect S (.submit userId readingId) D L)
    (hreserves : (L.any fun w => w.ref = .creditReservation readingId) = true) :
    ∃ s : Submission D userId readingId, L = s.writes := by
  cases he with
  | submit s => exact ⟨s, rfl⟩
  | enqueue hc => simp [RowWrite.ref] at hreserves
  | confirm hc => cases hc
  | release hc => cases hc
  | setReading hc => cases hc
  | approve s hc => cases hc
  | close s hc => cases hc
  | logEvent hc => cases hc
  | expireSession hc => cases hc
  | completeSession s hc => cases hc

end Runs

/-! ## The three lists -/

/-- The tables that the queries of a reading join, with the rows of `D` in any order. -/
structure SameRows (D D' : Db) : Prop where
  readings : ∀ id, D'.readings.lookup id = D.readings.lookup id
  services : ∀ id, D'.services.lookup id = D.services.lookup id
  cards : ∀ id, D'.tarotCards.lookup id = D.tarotCards.lookup id
  draws : ∀ key, D'.tarotDraws.lookup key = D.tarotDraws.lookup key
  spreads : ∀ id spread, D.tarotSpreads.lookup id = some spread → ∃ spread',
    D'.tarotSpreads.lookup id = some spread' ∧ spread'.positions.Perm spread.positions

/-- The detail, the prompt and the shared summary of a reading list these cards. -/
structure ListsCards (userId readingId : Id) (cards : List (String × CardOrientation × TarotCard))
    (D : Db) : Prop where
  detail : ∃ row, findWithDetail userId readingId D = some row ∧
    ∀ share, (toReadingDetail readingId row share).draws =
      cards.map fun draw => ⟨draw.1, draw.2.1, draw.2.2⟩
  prompt : ∃ row, ReadingProcessing.findTarotReading readingId D = some row ∧
    ReadingProcessing.cardsText row =
      "\n".intercalate (cards.map ReadingProcessing.cardLine)
  shared : ∃ data summaries,
    (∀ (W : Type) (world : World W Err Answer) (w : W),
      (SharingService.getSanitizedReadingData readingId).play world w D = (w, D, .ok data)) ∧
    data.cards = some summaries ∧ summaries.map (fun summary => (summary.position,
      summary.orientation, (⟨summary.cardName, summary.arcana, summary.suit⟩ : TarotCard))) = cards

theorem listsCards {userId readingId : Id} {D : Db} {reading : Reading} {service : Service}
    {spread spread' : TarotSpread} {spreadId : Id}
    {draws : List (DrawEngine.TarotDraw TarotDeckCard)}
    (hreading : D.readings.lookup readingId = some reading) (howner : reading.userId = userId)
    (hservice : D.services.lookup reading.serviceId = some service)
    (htarot : isPalmService service.code = false) (hspreadId : reading.spreadId = some spreadId)
    (hspread' : D.tarotSpreads.lookup spreadId = some spread')
    (hpositions : spread'.positions.Perm spread.positions)
    (hindex : (spread.positions.map (·.orderIndex)).Nodup)
    (hdraws : draws.map (·.position) = orderedPositions spread) (hholds : Holds readingId draws D) :
    ListsCards userId readingId (withCards D draws) D := by
  have hsort := sort_queryDraws hholds hdraws hpositions hindex
  have hjoined : ReadingProcessing.findTarotReading readingId D = some
      { reading, question := (D.readingInputs.lookup readingId).bind (·.question)
        serviceCode := service.code, positions := spread'.positions
        draws := queryDraws readingId D } := by
    simp [ReadingProcessing.findTarotReading, Delegate.find, hreading, hservice, hspreadId,
      hspread', queryDraws]
  refine ⟨?_, ⟨_, hjoined, ?_⟩, ?_⟩
  · have hdetail : ∃ row, findWithDetail userId readingId D = some row ∧
        row.positions = spread'.positions ∧ row.draws = queryDraws readingId D := by
      have hfind : (Db.reading.find D readingId).filter (fun r => r.userId = userId) =
          some reading := by
        simp [Delegate.find, hreading, howner]
      simp only [findWithDetail, hfind, hservice, Option.bind_eq_bind, Option.bind_some]
      exact ⟨_, rfl, by simp [hspreadId, hspread'], rfl⟩
    obtain ⟨row, hrow, hrowPositions, hrowDraws⟩ := hdetail
    refine ⟨row, hrow, fun share => ?_⟩
    simp only [toReadingDetail, hrowPositions, hrowDraws, hsort]
  · simp only [ReadingProcessing.cardsText, hsort]
  · let summaries := (withCards D draws).map (SharingService.cardSummary spread'.positions)
    refine ⟨⟨.TAROT, SharingService.GENERIC_SHARE_TITLES .TAROT, some summaries⟩, summaries,
      fun W world w => ?_, rfl, ?_⟩
    · unfold SharingService.getSanitizedReadingData
      rw [Proc.play_transaction_ok (Tx.run_selectOrThrow hjoined)]
      simp only [htarot, hsort]
      rfl
    · simp [summaries, List.map_map, Function.comp_def, SharingService.cardSummary]

/-- Every submission of a tarot reading draws its positions by increasing `orderIndex`, and
in every later state of the run, whatever the order of the rows, the detail, the prompt and the
shared summary list each position once, in that order and with the card drawn for it. -/
theorem one_order_of_cards {Body : Type} (S : Deployment Body) (D : Db) (hD : PaymentsBelong D)
    (hdrawn : D.tarotDraws = ∅) (s₁ : BackendServer Body)
    (run₁ : Server.Reach (backend S) (fun c => c.removes = none) (.idle D) s₁)
    (userId readingId : Id) (L : List RowWrite)
    (hsubmitted : (.submit userId readingId, L) ∈ submissionsOf readingId s₁.history) :
    ∃ newer older, s₁.history = newer ++ (.submit userId readingId, L) :: older ∧
      ∃ sub : Submission (replay older D) userId readingId, L = sub.writes ∧
        (isPalmService sub.service.code = false → ∃ spreadId spread,
          sub.reading.spreadId = some spreadId ∧
          (replay older D).tarotSpreads.lookup spreadId = some spread ∧
          ((spread.positions.map (·.orderIndex)).Nodup →
            (∀ position row, s₁.db.tarotDraws.lookup (readingId, position) = some row →
              s₁.db.tarotCards.lookup row.cardId ≠ none) →
            (withCards s₁.db sub.draws).map (·.1) = orderedPositions spread ∧
            ∀ s, Server.Reach (backend S) (fun c => c.removes = none) s₁ s →
              ∀ D', SameRows s.db D' →
                ListsCards userId readingId (withCards s₁.db sub.draws) D')) := by
  have hcalls : ∀ c : Call Body, c.removes = none → c.removes = none := fun _ h => h
  obtain ⟨hmem, hreserves⟩ := List.mem_filter.mp hsubmitted
  obtain ⟨newer, older, D₀, hhistory, before, ⟨-, he⟩, after⟩ :=
    (reach_commits hcalls hD run₁).split hmem
  obtain rfl := before.replay_eq
  obtain ⟨sub, rfl⟩ := he.submission hreserves
  refine ⟨newer, older, hhistory, sub, rfl, fun htarot => ?_⟩
  obtain ⟨spreadId, spread, hspreadId, hspread, hdraws⟩ := sub.positions htarot
  refine ⟨spreadId, spread, hspreadId, hspread, fun hindex hcards => ?_⟩
  -- The draws are those of the submission from its commit on.
  have hreserved : DrawsReserved (replay older D) :=
    before.invariant DrawsReserved (fun id position row h => by simp [hdrawn] at h)
      fun c D' L hD' he => he.2.drawsReserved hD'
  have hundrawn : ∀ position, (replay older D).tarotDraws.lookup (readingId, position) = none := by
    intro position
    by_contra hne
    obtain ⟨row, hrow⟩ := Option.ne_none_iff_exists'.mp hne
    exact hreserved _ _ _ hrow sub.unreserved
  have hstart : DrawsKept readingId sub.draws (view sub.writes (replay older D))
      (view sub.writes (replay older D)) :=
    ⟨sub.lookup_draws hundrawn, by simp [sub.view_writes], rfl⟩
  have hmiddle := after.invariant (DrawsKept readingId sub.draws _) hstart
    fun c D' L hD' he => he.2.drawsKept hD'
  have hcards' : ∀ draw ∈ sub.draws, s₁.db.tarotCards.lookup draw.card.id ≠ none :=
    fun draw hdraw => hcards _ _ ((hmiddle.holds _ _).mpr ⟨draw, hdraw, rfl, rfl⟩)
  refine ⟨(withCards_positions hcards').trans hdraws, fun s run D' hrows => ?_⟩
  obtain ⟨hist, -, later⟩ := reach_commits_from hcalls hD run₁ run
  have hend := later.invariant (DrawsKept readingId sub.draws _) hmiddle
    fun c D' L hD' he => he.2.drawsKept hD'
  -- The reading, its service and its spread are those of the submission.
  have hmono : Mono (view sub.writes (replay older D)) s.db :=
    ((discipline S).path_mono after).trans ((discipline S).path_mono later)
  have hsubReading : (view sub.writes (replay older D)).readings.lookup readingId =
      some { sub.reading with status := .PENDING, submittedAt := sub.now } := by
    simp [sub.view_writes]
  obtain ⟨reading, hreading, howner, hserviceId, hspreadId'⟩ := hmono.readings _ _ hsubReading
  have hservices : s.db.services = (replay older D).services := by
    rw [hmono.services, sub.view_writes]
  have hspreads : s.db.tarotSpreads = (replay older D).tarotSpreads := by
    rw [hmono.tarotSpreads, sub.view_writes]
  obtain ⟨spread', hspread', hpositions⟩ := hrows.spreads spreadId spread (hspreads ▸ hspread)
  have hjoined : withCards s₁.db sub.draws = withCards D' sub.draws := by
    simp only [withCards, hrows.cards, hend.cards, hmiddle.cards]
  rw [hjoined]
  exact @listsCards _ _ _ _ sub.service _ _ _ _ ((hrows.readings _).trans hreading)
    (howner.trans sub.owner)
    ((hrows.services _).trans (by rw [hservices, hserviceId]; exact sub.service_mem)) htarot
    (hspreadId'.trans hspreadId) hspread' hpositions hindex hdraws
    fun position row => by rw [hrows.draws]; exact hend.holds position row

/-! ## A concrete submission -/

section Example

/-- A spread that lists its two positions in another order than theirs. -/
def twoPositions : TarotSpread where
  code := "TAROT_FIVE"
  isActive := true
  positions := [⟨"future", "Futuro", 2⟩, ⟨"past", "Pasado", 1⟩]
  nodup := by decide

theorem orderedPositions_twoPositions : orderedPositions twoPositions = ["past", "future"] := by
  have hsort : twoPositions.positions.mergeSort (fun p q => p.orderIndex ≤ q.orderIndex) =
      [⟨"past", "Pasado", 1⟩, ⟨"future", "Futuro", 2⟩] :=
    mergeSort_eq_of_perm TarotSpreadPosition.orderIndex (List.Perm.swap _ _ _) (by decide)
  rw [orderedPositions, hsort]
  rfl

def twoPositionsService : Service := ⟨"TAROT_FIVE", "Cinco", none, 2, true⟩

def twoPositionsDb : Db :=
  { Db.empty with
    services := (∅ : Table Id Service).write "tarot" (some twoPositionsService)
    tarotSpreads := (∅ : Table Id TarotSpread).write "s1" (some twoPositions)
    tarotCards := ((∅ : Table Id TarotCard).write "c1" (some ⟨"Sol", .MAJOR, none⟩)).write "c2"
      (some ⟨"Luna", .MAJOR, none⟩)
    readingInputs := (∅ : Table Id ReadingInput).write "r1" (some ⟨1, []⟩)
    wallets := (∅ : Table Id Wallet).write "ana" (some ⟨5⟩)
    readings := (∅ : Table Id Reading).write "r1"
      (some ⟨"ana", "tarot", some "s1", none, .DRAFT, none⟩) }

def twoCards : List TarotDeckCard :=
  [⟨"c1", "SOL", "Sol", .MAJOR, none, "", ""⟩, ⟨"c2", "LUNA", "Luna", .MAJOR, none, "", ""⟩]

/-- The schedule of a submission up to the commit that reads its spread. -/
def spreadSchedule : List (Move (Call ParsedWebhook) Answer) :=
  [.spawn 0 (.submit "ana" "r1"), .start 0, .exec 0, .commit 0, .start 0, .exec 0, .commit 0,
    .start 0, .exec 0, .commit 0, .start 0, .exec 0]

/-- The rest of the schedule, up to the commit of the submission. -/
def drawSchedule : List (Move (Call ParsedWebhook) Answer) :=
  [.answer 0 (.activeDeckCards DEFAULT_TAROT_DECK_CODE) (.ok twoCards),
    .answer 0 (.randomInts 2 2) [(1, 0), (0, 1)], .answer 0 .now (0 : Time), .start 0, .exec 0,
    .exec 0, .exec 0, .exec 0, .exec 0, .exec 0, .exec 0, .exec 0, .commit 0]

/-- What a submission does after it has read its spread. -/
def afterSpread (positions : List String) : Request Unit := do
  let _ ← (do
    let deck ← Proc.ofExcept (← Proc.call (.activeDeckCards DEFAULT_TAROT_DECK_CODE))
    let choices ← Proc.call (.randomInts deck.length positions.length)
    let draws ← Proc.ofExcept (DrawEngine.draw deck positions choices)
    let now ← Proc.call .now
    submitOnce "ana" "r1" (submitTarotTx "ana" "r1" twoPositionsService draws now)
      ⟨.PROCESS_TAROT, "r1"⟩ ("PROCESS_TAROT-" ++ "r1"))

/-- The server just before that commit. -/
def readingSpread : BackendServer ParsedWebhook :=
  (Server.run (backend sampleDeployment) (.idle twoPositionsDb) spreadSchedule).getD
    (.idle twoPositionsDb)

theorem run_spreadSchedule : Server.run (backend sampleDeployment) (.idle twoPositionsDb)
    (spreadSchedule ++ [.commit 0]) = some (readingSpread.publish 0 (.submit "ana" "r1") []
      (afterSpread (orderedPositions twoPositions))) :=
  rfl

/-- The only commit is a submission of `r1` by `ana`, and every card of a draw has its row. -/
def isSubmitted (s : BackendServer ParsedWebhook) : Bool :=
  (match s.history with
    | [(.submit userId readingId, L)] => userId == "ana" && readingId == "r1" &&
        L.any fun w => w.ref = .creditReservation "r1"
    | _ => false) &&
  s.db.tarotDraws.toRows.all fun e => (s.db.tarotCards.lookup e.2.cardId).isSome

/-- The reading lists its cards in the order past, future. -/
theorem one_order_of_cards_of_two : ∃ s : BackendServer ParsedWebhook,
    (∃ L, (.submit "ana" "r1", L) ∈ submissionsOf "r1" s.history) ∧
    ∃ cards, cards.map (·.1) = ["past", "future"] ∧ ListsCards "ana" "r1" cards s.db := by
  have hany : ((Server.run (backend sampleDeployment) (readingSpread.publish 0
      (.submit "ana" "r1") [] (afterSpread ["past", "future"])) drawSchedule).any isSubmitted) =
      true := by decide +kernel
  obtain ⟨s, hs, hsubmitted⟩ := (Option.any_eq_true _ _).mp hany
  have run₀ : Server.Reach (backend sampleDeployment) (fun c => c.removes = none)
      (.idle twoPositionsDb) (readingSpread.publish 0 (.submit "ana" "r1") []
        (afterSpread (orderedPositions twoPositions))) :=
    Server.Reach.refl.run (spreadSchedule ++ [.commit 0])
      (by simp [spreadSchedule, Move.Admissible, Call.removes]) run_spreadSchedule
  rw [orderedPositions_twoPositions] at run₀
  have run := run₀.run drawSchedule
    (by simp [drawSchedule, Move.Admissible, backend, Deployment.answers, DrawEngine.Choices]
        decide) hs
  obtain ⟨L, hhistory, hreserves, hcards⟩ : ∃ L, s.history = [(.submit "ana" "r1", L)] ∧
      (L.any fun w => w.ref = .creditReservation "r1") = true ∧
      (s.db.tarotDraws.toRows.all fun e => (s.db.tarotCards.lookup e.2.cardId).isSome) = true := by
    unfold isSubmitted at hsubmitted
    split at hsubmitted
    · rename_i userId readingId L hhistory
      simp only [Bool.and_eq_true, beq_iff_eq] at hsubmitted
      obtain ⟨⟨⟨rfl, rfl⟩, hreserves⟩, hcards⟩ := hsubmitted
      exact ⟨L, hhistory, hreserves, hcards⟩
    · simp at hsubmitted
  have hmem : (.submit "ana" "r1", L) ∈ submissionsOf "r1" s.history :=
    List.mem_filter.mpr ⟨by simp [hhistory], hreserves⟩
  have hjoined : ∀ position row, s.db.tarotDraws.lookup ("r1", position) = some row →
      s.db.tarotCards.lookup row.cardId ≠ none := fun position row hrow =>
    Option.isSome_iff_ne_none.mp
      (List.all_eq_true.mp hcards _ ((Table.mem_toRows _ _ _).mpr hrow))
  obtain ⟨newer, older, hsplit, sub, -, h⟩ := one_order_of_cards sampleDeployment twoPositionsDb
    (.of_empty rfl) rfl s run "ana" "r1" L hmem
  obtain rfl : older = [] := by
    rw [hhistory] at hsplit
    cases newer <;> simp_all
  have hreading := sub.reading_mem
  have hservice := sub.service_mem
  obtain ⟨spreadId, spread, hspreadId, hspread, hlists⟩ := h (by
    rw [← Option.some.inj hreading] at hservice
    rw [← Option.some.inj hservice]
    rfl)
  rw [← Option.some.inj hreading] at hspreadId
  cases hspreadId
  obtain rfl : twoPositions = spread := Option.some.inj hspread
  obtain ⟨hpositions, hall⟩ := hlists (by decide) hjoined
  exact ⟨s, ⟨L, hmem⟩, _, hpositions.trans orderedPositions_twoPositions, hall s .refl s.db
    ⟨fun _ => rfl, fun _ => rfl, fun _ => rfl, fun _ => rfl, fun _ spread h => ⟨spread, h, .rfl⟩⟩⟩

end Example

end TaroTria
