import TaroTria.Prisma.Client

/-!
# The draw engine

`draw` takes its random numbers as an argument: for each position, the index of
the card in the remaining pool and the number that decides its orientation.
-/

namespace TaroTria

namespace DrawEngine

/-- A card drawn for a position. -/
structure TarotDraw (Card : Type) where
  position : String
  card : Card
  orientation : CardOrientation
  deriving DecidableEq, Repr

variable {Card : Type}

/-- The loop of `draw` over the positions that remain. An index outside the pool,
which `randomInt` never returns, ends the drawing. -/
def drawFrom (pool : List Card) : List String → List (Nat × Nat) → List (TarotDraw Card)
  | position :: positions, (index, side) :: choices =>
      match pool[index]? with
      | some card =>
          { position, card, orientation := if side = 0 then .UPRIGHT else .REVERSED } ::
            drawFrom (pool.eraseIdx index) positions choices
      | none => []
  | _, _ => []

def draw (deck : List Card) (positions : List String) (choices : List (Nat × Nat)) :
    Except Err (List (TarotDraw Card)) :=
  if positions.length = 0 then
    .error (.badRequest "La tirada no tiene posiciones configuradas.")
  else if deck.length < positions.length then
    .error (.badRequest "El mazo no tiene suficientes cartas para esta tirada.")
  else .ok (drawFrom deck positions choices)

/-- The numbers that `randomInt` may return for `positions` positions and a
pool of `deckSize` cards. -/
def Choices (deckSize positions : Nat) (choices : List (Nat × Nat)) : Prop :=
  choices.length = positions ∧
    ∀ j (h : j < choices.length), choices[j].1 < deckSize - j ∧ choices[j].2 < 2

/-- The choices after the first one draw from a pool without its card. -/
theorem Choices.tail {deckSize positions : Nat} {choice : Nat × Nat}
    {choices : List (Nat × Nat)} (h : Choices deckSize (positions + 1) (choice :: choices)) :
    Choices (deckSize - 1) positions choices := by
  obtain ⟨hlen, hbound⟩ := h
  refine ⟨by simpa using hlen, fun j hj => ?_⟩
  have hj' := hbound (j + 1) (by simpa using hj)
  simp only [List.getElem_cons_succ] at hj'
  omega

/-- A drawing gives the positions in their order, each once. -/
theorem positions_drawFrom {pool : List Card} {positions : List String}
    {choices : List (Nat × Nat)} (h : Choices pool.length positions.length choices) :
    (drawFrom pool positions choices).map TarotDraw.position = positions := by
  induction positions generalizing pool choices with
  | nil => cases choices <;> simp [drawFrom]
  | cons position positions ih =>
      obtain _ | ⟨⟨index, side⟩, choices⟩ := choices
      · exact absurd h.1 (by simp)
      · have hindex : index < pool.length := (h.2 0 (by simp)).1
        have htail := h.tail
        rw [← List.length_eraseIdx_of_lt hindex] at htail
        simp [drawFrom, List.getElem?_eq_getElem hindex, ih htail]

theorem positions_draw {deck : List Card} {positions : List String}
    {choices : List (Nat × Nat)} {draws : List (TarotDraw Card)}
    (h : Choices deck.length positions.length choices)
    (hd : draw deck positions choices = .ok draws) :
    draws.map TarotDraw.position = positions := by
  simp only [draw] at hd
  split_ifs at hd
  cases hd
  exact positions_drawFrom h

end DrawEngine

end TaroTria
