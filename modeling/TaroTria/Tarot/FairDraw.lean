import TaroTria.Random.Sampler
import TaroTria.Tarot.DrawEngine
import Mathlib.Data.Nat.Factorial.Basic
import Mathlib.Data.Set.Function

/-!
# The draw is fair

The numbers that `draw` takes from `randomInt` and the assignments of distinct
cards and orientations to the positions correspond one to one: the first card
leaves a pool without it, and the rest of the assignment is drawn from that
pool. Every assignment has therefore the same probability.

## Implementation notes

The arrays of the program stand in a list, and a reference is an index of it, so
that the copy of the deck and the deck are different arrays.
-/

namespace TaroTria

open scoped ENNReal

/-- The arrays of cards that a program holds, each under its reference. -/
abbrev Arrays (Card : Type) := List (List Card)

namespace Arrays

variable {Card : Type}

def get (arrays : Arrays Card) (ref : Nat) : List Card :=
  arrays.getD ref []

/-- The arrays after `[...ref]`, whose reference is the next one. -/
def spread (arrays : Arrays Card) (ref : Nat) : Arrays Card :=
  arrays ++ [arrays.get ref]

/-- The arrays after `ref.splice(index, 1)`. -/
def splice (arrays : Arrays Card) (ref index : Nat) : Arrays Card :=
  arrays.set ref ((arrays.get ref).eraseIdx index)

theorem get_spread_length (arrays : Arrays Card) (ref : Nat) :
    (arrays.spread ref).get arrays.length = arrays.get ref := by
  simp [get, spread]

theorem get_spread_of_lt {arrays : Arrays Card} {ref' : Nat} (href' : ref' < arrays.length)
    (ref : Nat) : (arrays.spread ref).get ref' = arrays.get ref' := by
  simp [get, spread, List.getElem?_append_left href']

theorem get_splice_self {arrays : Arrays Card} {ref : Nat} (href : ref < arrays.length)
    (index : Nat) : (arrays.splice ref index).get ref = (arrays.get ref).eraseIdx index := by
  simp [get, splice, href]

theorem get_splice_of_ne {arrays : Arrays Card} {ref ref' : Nat} (hne : ref' ≠ ref)
    (index : Nat) : (arrays.splice ref index).get ref' = arrays.get ref' := by
  simp [get, splice, List.getElem?_set_ne hne.symm]

@[simp] theorem length_splice (arrays : Arrays Card) (ref index : Nat) :
    (arrays.splice ref index).length = arrays.length := by
  simp [splice]

end Arrays

namespace DrawEngine

variable {Card : Type}

/-! ### The draw as the service computes it -/

/-- What a call of `draw` leaves: its draws or its error, and the arrays. -/
abbrev DrawOutcome (Card : Type) := Except Err (List (TarotDraw Card)) × Arrays Card

/-- The loop of `drawCards` over the positions that remain. -/
def drawLoop (pool : Nat) (arrays : Arrays Card) (draws : List (TarotDraw Card)) :
    List String → Sampler (DrawOutcome Card)
  | [] => .ret (.ok draws, arrays)
  | position :: positions =>
      .randomInt (arrays.get pool).length (.ret (.error .fault, arrays)) fun index =>
        let card := (arrays.get pool)[index]
        let arrays := arrays.splice pool index
        .randomInt 2 (.ret (.error .fault, arrays)) fun side =>
          let orientation := if side = 0 then CardOrientation.UPRIGHT else .REVERSED
          drawLoop pool arrays (draws ++ [{ position, card, orientation }]) positions

/-- `draw` with its calls of `randomInt`, on the array `deck` of the program. -/
def drawCards (arrays : Arrays Card) (deck : Nat) (positions : List String) :
    Sampler (DrawOutcome Card) :=
  if positions.length = 0 then
    .ret (.error (.badRequest "La tirada no tiene posiciones configuradas."), arrays)
  else if (arrays.get deck).length < positions.length then
    .ret (.error (.badRequest "El mazo no tiene suficientes cartas para esta tirada."), arrays)
  else drawLoop arrays.length (arrays.spread deck) [] positions

/-- The numbers of a choice sequence in the order of their calls. -/
def numbers (choices : List (Nat × Nat)) : List Nat :=
  choices.flatMap fun choice => [choice.1, choice.2]

@[simp] theorem numbers_cons (index side : Nat) (choices : List (Nat × Nat)) :
    numbers ((index, side) :: choices) = index :: side :: numbers choices :=
  rfl

theorem Choices.cons {deckSize positions index side : Nat} {choices : List (Nat × Nat)}
    (hindex : index < deckSize) (hside : side < 2)
    (h : Choices (deckSize - 1) positions choices) :
    Choices deckSize (positions + 1) ((index, side) :: choices) := by
  refine ⟨by simp [h.1], fun j hj => ?_⟩
  cases j with
  | zero => exact ⟨hindex, hside⟩
  | succ j =>
      have hbound := h.2 j (by simpa using hj)
      simp only [List.getElem_cons_succ]
      omega

/-- One round of the loop: the number of the card, the number of its
orientation, and the loop with the rest of the pool. -/
theorem drawLoop_cons {arrays : Arrays Card} {pool : Nat} {position : String}
    {positions : List String} (hpos : 0 < (arrays.get pool).length)
    (draws : List (TarotDraw Card)) :
    drawLoop pool arrays draws (position :: positions) =
      .node (arrays.get pool).length hpos fun index =>
        .node 2 Nat.zero_lt_two fun side =>
          drawLoop pool (arrays.splice pool index)
            (draws ++ [⟨position, (arrays.get pool)[index],
              if side = 0 then .UPRIGHT else .REVERSED⟩]) positions := by
  simp only [drawLoop, Sampler.randomInt_of_pos hpos, Sampler.randomInt_of_pos Nat.zero_lt_two]

theorem drawFrom_cons {pool : List Card} {position : String} {positions : List String}
    {index side : Nat} {choices : List (Nat × Nat)} (hindex : index < pool.length) :
    drawFrom pool (position :: positions) ((index, side) :: choices) =
      { position, card := pool[index], orientation := if side = 0 then .UPRIGHT else .REVERSED } ::
        drawFrom (pool.eraseIdx index) positions choices := by
  simp [drawFrom, hindex]

/-- The loop on the numbers of a choice sequence appends the draws of that
sequence and changes the pool only. -/
theorem run_drawLoop {arrays : Arrays Card} {pool : Nat} {positions : List String}
    {choices : List (Nat × Nat)} (hpool : pool < arrays.length)
    (h : Choices (arrays.get pool).length positions.length choices)
    (draws : List (TarotDraw Card)) :
    ∃ arrays', (drawLoop pool arrays draws positions).run (numbers choices) =
        some (.ok (draws ++ drawFrom (arrays.get pool) positions choices), arrays') ∧
      ∀ ref, ref ≠ pool → arrays'.get ref = arrays.get ref := by
  induction positions generalizing arrays choices draws with
  | nil =>
      obtain rfl := List.eq_nil_of_length_eq_zero h.1
      exact ⟨arrays, by simp [drawLoop, numbers, drawFrom], fun _ _ => rfl⟩
  | cons position positions ih =>
      obtain _ | ⟨⟨index, side⟩, choices⟩ := choices
      · exact absurd h.1 (by simp)
      · obtain ⟨hindex, hside⟩ := h.2 0 (by simp)
        simp only [List.getElem_cons_zero, Nat.sub_zero] at hindex hside
        have htail : Choices ((arrays.splice pool index).get pool).length positions.length
            choices := by
          rw [Arrays.get_splice_self hpool, List.length_eraseIdx_of_lt hindex]
          exact h.tail
        rw [drawLoop_cons (by omega), numbers_cons, Sampler.run_node_cons hindex,
          Sampler.run_node_cons hside, drawFrom_cons hindex]
        obtain ⟨arrays', hrun, hframe⟩ := ih (by simpa using hpool) htail _
        refine ⟨arrays', hrun.trans ?_, fun ref href => ?_⟩
        · simp [Arrays.get_splice_self hpool]
        · rw [hframe ref href, Arrays.get_splice_of_ne href]

/-- Every run of the loop consumes the numbers of a choice sequence. -/
theorem choices_of_run_drawLoop {arrays : Arrays Card} {pool : Nat} {positions : List String}
    {ns : List Nat} {out : DrawOutcome Card} {draws : List (TarotDraw Card)}
    (hpool : pool < arrays.length) (hlen : positions.length ≤ (arrays.get pool).length)
    (h : (drawLoop pool arrays draws positions).run ns = some out) :
    ∃ choices, Choices (arrays.get pool).length positions.length choices ∧
      ns = numbers choices := by
  induction positions generalizing arrays ns draws with
  | nil =>
      obtain ⟨rfl, -⟩ := Sampler.run_ret_eq_some.mp h
      exact ⟨[], ⟨rfl, fun j hj => absurd hj (by simp)⟩, rfl⟩
  | cons position positions ih =>
      simp only [List.length_cons] at hlen
      rw [drawLoop_cons (by omega)] at h
      obtain ⟨index, ns', rfl, hside⟩ := Sampler.run_node_eq_some.mp h
      obtain ⟨side, rest, rfl, hrest⟩ := Sampler.run_node_eq_some.mp hside
      have hget := Arrays.get_splice_self hpool index.val
      have hlen' : ((arrays.splice pool index).get pool).length =
          (arrays.get pool).length - 1 := by
        rw [hget, List.length_eraseIdx_of_lt index.isLt]
      obtain ⟨choices, hchoices, rfl⟩ := ih (by simpa using hpool) (by omega) hrest
      rw [hlen'] at hchoices
      exact ⟨(index.val, side.val) :: choices, hchoices.cons index.isLt side.isLt, rfl⟩

/-- The probability of a choice sequence depends on the number of cards and of
positions only. -/
theorem weight_drawLoop {arrays : Arrays Card} {pool : Nat} {positions : List String}
    {choices : List (Nat × Nat)} (hpool : pool < arrays.length)
    (h : Choices (arrays.get pool).length positions.length choices)
    (draws : List (TarotDraw Card)) :
    (drawLoop pool arrays draws positions).weight (numbers choices) =
      (((arrays.get pool).length.descFactorial positions.length *
        2 ^ positions.length : Nat) : ℝ≥0∞)⁻¹ := by
  induction positions generalizing arrays choices draws with
  | nil => simp [drawLoop, Sampler.weight]
  | cons position positions ih =>
      obtain _ | ⟨⟨index, side⟩, choices⟩ := choices
      · exact absurd h.1 (by simp)
      · obtain ⟨hindex, hside⟩ := h.2 0 (by simp)
        simp only [List.getElem_cons_zero, Nat.sub_zero] at hindex hside
        have hlen : ((arrays.splice pool index).get pool).length =
            (arrays.get pool).length - 1 := by
          rw [Arrays.get_splice_self hpool, List.length_eraseIdx_of_lt hindex]
        have htail : Choices ((arrays.splice pool index).get pool).length positions.length
            choices := hlen ▸ h.tail
        obtain ⟨n, hn⟩ : ∃ n, (arrays.get pool).length = n + 1 :=
          ⟨(arrays.get pool).length - 1, by omega⟩
        -- The numbers of one card have the chance `1 / (n + 1) * 1 / 2`.
        calc
          (drawLoop pool arrays draws (position :: positions)).weight
                (numbers ((index, side) :: choices))
              = ((n + 1 : Nat) : ℝ≥0∞)⁻¹ * (((2 : Nat) : ℝ≥0∞)⁻¹ *
                  ((n.descFactorial positions.length * 2 ^ positions.length : Nat) : ℝ≥0∞)⁻¹) := by
            rw [drawLoop_cons (by omega), numbers_cons, Sampler.weight_node_cons hindex,
              Sampler.weight_node_cons hside, ih (by simpa using hpool) htail, hlen, hn,
              Nat.add_sub_cancel]
          _ = (((n + 1) * (2 * (n.descFactorial positions.length * 2 ^ positions.length)) : Nat) :
                ℝ≥0∞)⁻¹ := by
            rw [← ENNReal.mul_inv (by simp) (by simp), ← ENNReal.mul_inv (by simp) (by simp),
              ← Nat.cast_mul, ← Nat.cast_mul]
          _ = (((n + 1).descFactorial (positions.length + 1) * 2 ^ (positions.length + 1) : Nat) :
                ℝ≥0∞)⁻¹ := by
            rw [Nat.succ_descFactorial_succ]
            congr 2
            ring
          _ = (((arrays.get pool).length.descFactorial (position :: positions).length *
                2 ^ (position :: positions).length : Nat) : ℝ≥0∞)⁻¹ := by
            rw [hn, List.length_cons]

/-- The draw on the numbers of a choice sequence gives what `draw` gives on that
sequence, and every array there was is as before. -/
theorem run_drawCards {arrays : Arrays Card} {deck : Nat} {positions : List String}
    {choices : List (Nat × Nat)} (hpos : 0 < positions.length)
    (hlen : positions.length ≤ (arrays.get deck).length)
    (h : Choices (arrays.get deck).length positions.length choices) :
    ∃ arrays', (drawCards arrays deck positions).run (numbers choices) =
        some (draw (arrays.get deck) positions choices, arrays') ∧
      ∀ ref, ref < arrays.length → arrays'.get ref = arrays.get ref := by
  have hcopy := Arrays.get_spread_length arrays deck
  have hpool : arrays.length < (arrays.spread deck).length := by simp [Arrays.spread]
  obtain ⟨arrays', hrun, hframe⟩ := run_drawLoop hpool (by rwa [hcopy]) []
  refine ⟨arrays', ?_, fun ref href => ?_⟩
  · rw [drawCards, if_neg (by omega), if_neg (by omega), hrun, hcopy, draw, if_neg (by omega),
      if_neg (by omega), List.nil_append]
  · rw [hframe ref href.ne, Arrays.get_spread_of_lt href]

theorem choices_of_run_drawCards {arrays : Arrays Card} {deck : Nat} {positions : List String}
    {ns : List Nat} {out : DrawOutcome Card} (hpos : 0 < positions.length)
    (hlen : positions.length ≤ (arrays.get deck).length)
    (h : (drawCards arrays deck positions).run ns = some out) :
    ∃ choices, Choices (arrays.get deck).length positions.length choices ∧
      ns = numbers choices := by
  have hcopy := Arrays.get_spread_length arrays deck
  rw [drawCards, if_neg (by omega), if_neg (by omega)] at h
  obtain ⟨choices, hchoices, rfl⟩ := choices_of_run_drawLoop (by simp [Arrays.spread])
    (by rwa [hcopy]) h
  exact ⟨choices, hcopy ▸ hchoices, rfl⟩

/-! ### The assignments -/

/-- The draws give the positions in their order, each with a card of the deck,
and no card twice. -/
def Assigns (deck : List Card) (positions : List String) (draws : List (TarotDraw Card)) : Prop :=
  draws.map TarotDraw.position = positions ∧ (∀ draw ∈ draws, draw.card ∈ deck) ∧
    (draws.map TarotDraw.card).Nodup

theorem mem_eraseIdx_iff {pool : List Card} (hpool : pool.Nodup) {index : Nat}
    (hindex : index < pool.length) (card : Card) :
    card ∈ pool.eraseIdx index ↔ card ∈ pool ∧ card ≠ pool[index] := by
  rw [List.mem_eraseIdx_iff_getElem]
  constructor
  · rintro ⟨i, hi, hne, rfl⟩
    exact ⟨List.getElem_mem hi, fun heq => hne ((List.Nodup.getElem_inj_iff hpool).mp heq)⟩
  · rintro ⟨hmem, hne⟩
    obtain ⟨i, hi, rfl⟩ := List.getElem_of_mem hmem
    exact ⟨i, hi, fun heq => hne (by subst heq; rfl), rfl⟩

/-- An assignment is its first draw and an assignment from the pool without the
card of that draw. -/
theorem assigns_cons_iff {pool : List Card} (hpool : pool.Nodup) {index : Nat}
    (hindex : index < pool.length) {position : String} {positions : List String}
    {drawn : TarotDraw Card} {draws : List (TarotDraw Card)} (hcard : drawn.card = pool[index]) :
    Assigns pool (position :: positions) (drawn :: draws) ↔
      drawn.position = position ∧ Assigns (pool.eraseIdx index) positions draws := by
  simp only [Assigns, List.map_cons, List.cons.injEq, List.forall_mem_cons, List.nodup_cons,
    List.mem_map, mem_eraseIdx_iff hpool hindex, hcard, not_exists, not_and]
  constructor
  · rintro ⟨⟨hposition, hpositions⟩, ⟨-, hmem⟩, hnot, hnodup⟩
    exact ⟨hposition, hpositions, fun d hd => ⟨hmem d hd, hnot d hd⟩, hnodup⟩
  · rintro ⟨hposition, hpositions, hmem, hnodup⟩
    exact ⟨⟨hposition, hpositions⟩, ⟨List.getElem_mem hindex, fun d hd => (hmem d hd).1⟩,
      fun d hd => (hmem d hd).2, hnodup⟩

theorem assigns_drawFrom {pool : List Card} {positions : List String}
    {choices : List (Nat × Nat)} (hpool : pool.Nodup)
    (h : Choices pool.length positions.length choices) :
    Assigns pool positions (drawFrom pool positions choices) := by
  induction positions generalizing pool choices with
  | nil => cases choices <;> simp [drawFrom, Assigns]
  | cons position positions ih =>
      obtain _ | ⟨⟨index, side⟩, choices⟩ := choices
      · exact absurd h.1 (by simp)
      · have hindex : index < pool.length := (h.2 0 (by simp)).1
        have htail := h.tail
        rw [← List.length_eraseIdx_of_lt hindex] at htail
        rw [drawFrom_cons hindex, assigns_cons_iff hpool hindex rfl]
        exact ⟨rfl, ih (hpool.eraseIdx index) htail⟩

/-- Different choice sequences give different draws. -/
theorem drawFrom_injective {pool : List Card} {positions : List String}
    {choices choices' : List (Nat × Nat)} (hpool : pool.Nodup)
    (h : Choices pool.length positions.length choices)
    (h' : Choices pool.length positions.length choices')
    (heq : drawFrom pool positions choices = drawFrom pool positions choices') :
    choices = choices' := by
  induction positions generalizing pool choices choices' with
  | nil =>
      rw [List.eq_nil_of_length_eq_zero h.1, List.eq_nil_of_length_eq_zero h'.1]
  | cons position positions ih =>
      obtain _ | ⟨⟨index, side⟩, choices⟩ := choices
      · exact absurd h.1 (by simp)
      obtain _ | ⟨⟨index', side'⟩, choices'⟩ := choices'
      · exact absurd h'.1 (by simp)
      obtain ⟨hindex, hside⟩ := h.2 0 (by simp)
      obtain ⟨hindex', hside'⟩ := h'.2 0 (by simp)
      simp only [List.getElem_cons_zero, Nat.sub_zero] at hindex hside hindex' hside'
      rw [drawFrom_cons hindex, drawFrom_cons hindex'] at heq
      obtain ⟨hdrawn, hdraws⟩ := List.cons.inj heq
      simp only [TarotDraw.mk.injEq, true_and] at hdrawn
      -- The cards of the pool are distinct, so the card says where it stood.
      obtain rfl : index = index' := (List.Nodup.getElem_inj_iff hpool).mp hdrawn.1
      have horientation := hdrawn.2
      obtain rfl : side = side' := by
        split_ifs at horientation <;> omega
      have htail := h.tail
      have htail' := h'.tail
      rw [← List.length_eraseIdx_of_lt hindex] at htail htail'
      rw [ih (hpool.eraseIdx index) htail htail' hdraws]

/-- Every assignment is drawn by some choice sequence. -/
theorem exists_drawFrom {pool : List Card} {positions : List String}
    {draws : List (TarotDraw Card)} (hpool : pool.Nodup) (h : Assigns pool positions draws) :
    ∃ choices, Choices pool.length positions.length choices ∧
      drawFrom pool positions choices = draws := by
  induction positions generalizing pool draws with
  | nil =>
      obtain rfl := List.map_eq_nil_iff.mp h.1
      exact ⟨[], ⟨rfl, fun j hj => absurd hj (by simp)⟩, rfl⟩
  | cons position positions ih =>
      obtain _ | ⟨drawn, draws⟩ := draws
      · exact absurd h.1 (by simp)
      · obtain ⟨index, hindex, hcard⟩ :=
          List.getElem_of_mem (h.2.1 drawn List.mem_cons_self)
        rw [assigns_cons_iff hpool hindex hcard.symm] at h
        obtain ⟨rfl, hdraws⟩ := h
        obtain ⟨choices, hchoices, rfl⟩ := ih (hpool.eraseIdx index) hdraws
        rw [List.length_eraseIdx_of_lt hindex] at hchoices
        obtain ⟨side, hside, horientation⟩ : ∃ side, side < 2 ∧
            (if side = 0 then CardOrientation.UPRIGHT else .REVERSED) = drawn.orientation := by
          cases drawn.orientation with
          | UPRIGHT => exact ⟨0, by decide, rfl⟩
          | REVERSED => exact ⟨1, by decide, rfl⟩
        refine ⟨(index, side) :: choices, hchoices.cons hindex hside, ?_⟩
        rw [drawFrom_cons hindex, hcard, horientation]

/-- The choice sequences and the assignments correspond one to one. -/
theorem bijOn_drawFrom {pool : List Card} (hpool : pool.Nodup) (positions : List String) :
    Set.BijOn (drawFrom pool positions)
      {choices | Choices pool.length positions.length choices}
      {draws | Assigns pool positions draws} :=
  ⟨fun _ h => assigns_drawFrom hpool h, fun _ h _ h' heq => drawFrom_injective hpool h h' heq,
    fun _ h => exists_drawFrom hpool h⟩

/-! ### Every assignment is as probable as every other -/

/-- The outcome of the draw on a choice sequence, its arrays aside. -/
theorem run_map_drawCards {arrays : Arrays Card} {deck : Nat} {positions : List String}
    {choices : List (Nat × Nat)} (hpos : 0 < positions.length)
    (hlen : positions.length ≤ (arrays.get deck).length)
    (h : Choices (arrays.get deck).length positions.length choices) :
    ((drawCards arrays deck positions).map Prod.fst).run (numbers choices) =
      some (.ok (drawFrom (arrays.get deck) positions choices)) := by
  obtain ⟨arrays', hrun, -⟩ := run_drawCards hpos hlen h
  rw [Sampler.run_map, hrun, draw, if_neg (by omega), if_neg (by omega)]
  rfl

theorem dist_drawCards {arrays : Arrays Card} {deck : Nat} {positions : List String}
    {draws : List (TarotDraw Card)} (hdeck : (arrays.get deck).Nodup)
    (hpos : 0 < positions.length) (hlen : positions.length ≤ (arrays.get deck).length)
    (h : Assigns (arrays.get deck) positions draws) :
    ((drawCards arrays deck positions).map Prod.fst).dist (.ok draws) =
      (((arrays.get deck).length.descFactorial positions.length *
        2 ^ positions.length : Nat) : ℝ≥0∞)⁻¹ := by
  obtain ⟨choices, hchoices, rfl⟩ := exists_drawFrom hdeck h
  have hcopy := Arrays.get_spread_length arrays deck
  rw [Sampler.dist_eq_weight (run_map_drawCards hpos hlen hchoices), Sampler.weight_map, drawCards,
    if_neg (by omega), if_neg (by omega), weight_drawLoop (by simp [Arrays.spread])
      (by rwa [hcopy]), hcopy]
  -- No other numbers lead to these draws.
  intro ns hns
  rw [Sampler.run_map, Option.map_eq_some_iff] at hns
  obtain ⟨out, hout, hfst⟩ := hns
  obtain ⟨choices', hchoices', rfl⟩ := choices_of_run_drawCards hpos hlen hout
  obtain ⟨arrays', hrun, -⟩ := run_drawCards hpos hlen hchoices'
  rw [hrun, Option.some.injEq] at hout
  rw [← hout, draw, if_neg (by omega), if_neg (by omega), Except.ok.injEq] at hfst
  rw [drawFrom_injective hdeck hchoices' hchoices hfst]

/-- The draw maps the choice sequences one to one onto the assignments and gives
each assignment the same probability; without positions, or with more positions
than cards, it draws no number; and it changes no array that it was given. -/
theorem drawCards_fair (arrays : Arrays Card) (deck : Fin arrays.length) (positions : List String)
    (hdeck : (arrays.get deck).Nodup) :
    (0 < positions.length ∧ positions.length ≤ (arrays.get deck).length →
      Set.BijOn
        (fun choices => ((drawCards arrays deck positions).map Prod.fst).run (numbers choices))
        {choices | Choices (arrays.get deck).length positions.length choices}
        (Set.image (fun draws => some (.ok draws))
          {draws | Assigns (arrays.get deck) positions draws}) ∧
      (∀ ns out, (drawCards arrays deck positions).run ns = some out →
        ∃ choices, Choices (arrays.get deck).length positions.length choices ∧
          ns = numbers choices) ∧
      ∀ draws, Assigns (arrays.get deck) positions draws →
        ((drawCards arrays deck positions).map Prod.fst).dist (.ok draws) =
          (((arrays.get deck).length.descFactorial positions.length *
            2 ^ positions.length : Nat) : ℝ≥0∞)⁻¹) ∧
    (positions.length = 0 ∨ (arrays.get deck).length < positions.length →
      ∃ e, drawCards arrays deck positions = .ret (.error e, arrays)) ∧
    ∀ ns out, (drawCards arrays deck positions).run ns = some out →
      ∀ ref, ref < arrays.length → out.2.get ref = arrays.get ref := by
  have hthrows : positions.length = 0 ∨ (arrays.get deck).length < positions.length →
      ∃ e, drawCards arrays deck positions = .ret (.error e, arrays) := by
    intro h
    by_cases hzero : positions.length = 0
    · exact ⟨_, by rw [drawCards, if_pos hzero]⟩
    · exact ⟨_, by rw [drawCards, if_neg hzero, if_pos (by omega)]⟩
  refine ⟨fun ⟨hpos, hlen⟩ => ⟨?_, fun ns out => choices_of_run_drawCards hpos hlen,
    fun draws => dist_drawCards hdeck hpos hlen⟩, hthrows, ?_⟩
  · have hbij := bijOn_drawFrom hdeck positions
    have hsome : Set.InjOn (fun draws => some (Except.ok (ε := Err) draws))
        {draws | Assigns (arrays.get deck) positions draws} :=
      fun a _ b _ hab => by simpa using hab
    exact (hsome.bijOn_image.comp hbij).congr fun choices h =>
      (run_map_drawCards hpos hlen h).symm
  · intro ns out hout ref href
    by_cases hguard : positions.length = 0 ∨ (arrays.get deck).length < positions.length
    · obtain ⟨e, he⟩ := hthrows hguard
      rw [he] at hout
      obtain ⟨-, rfl⟩ := Sampler.run_ret_eq_some.mp hout
      rfl
    · obtain ⟨choices, hchoices, rfl⟩ := choices_of_run_drawCards (by omega) (by omega) hout
      obtain ⟨arrays', hrun, hframe⟩ := run_drawCards (by omega) (by omega) hchoices
      rw [hrun, Option.some.injEq] at hout
      rw [← hout]
      exact hframe ref href

/-- With three cards and two positions every assignment has probability 1/24. -/
theorem drawCards_fair_three :
    ((drawCards [["sol", "luna", "loco"]] 0 ["past", "future"]).map Prod.fst).dist
      (.ok [⟨"past", "luna", .UPRIGHT⟩, ⟨"future", "sol", .REVERSED⟩]) = ((24 : Nat) : ℝ≥0∞)⁻¹ :=
  ((drawCards_fair [["sol", "luna", "loco"]] ⟨0, by decide⟩ ["past", "future"] (by decide)).1
    (by decide)).2.2 _ ⟨rfl, by decide, by decide⟩

end DrawEngine

end TaroTria
