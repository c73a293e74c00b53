import TaroTria.Sharing.ShareImage

/-!
# The layout of a share image

The boxes of the cards stand one below the other, and the box of the call to action
stands at a fixed height. There is room for three cards above it.
-/

namespace TaroTria

namespace ShareImageRenderer

/-- A box in pixels, by its upper left corner. -/
structure Box where
  x : Nat
  y : Nat
  width : Nat
  height : Nat
  deriving DecidableEq, Repr

namespace Box

def right (b : Box) : Nat := b.x + b.width

def bottom (b : Box) : Nat := b.y + b.height

/-- The pixel is in the box. -/
def Contains (b : Box) (x y : Nat) : Prop := b.x ≤ x ∧ x < b.right ∧ b.y ≤ y ∧ y < b.bottom

/-- No pixel is in both boxes. -/
def Disjoint (b b' : Box) : Prop := ∀ x y, ¬ (b.Contains x y ∧ b'.Contains x y)

theorem disjoint_of_above {b b' : Box} (h : b.bottom ≤ b'.y) : b.Disjoint b' := by
  rintro x y ⟨⟨-, -, -, hy⟩, -, -, hy', -⟩
  omega

/-- The start of the element that draws the box. -/
def tag (b : Box) : String :=
  s!"<rect x=\"{b.x}\" y=\"{b.y}\" width=\"{b.width}\" height=\"{b.height}\""

end Box

/-- The box of a card that is drawn at this height. -/
def cardBox (y : Nat) : Box := { x := 90, y, width := 900, height := 200 }

/-- The boxes of the cards, in the order of the cards. -/
def cardBoxes (data : ShareImageData) : List Box :=
  match data.cards with
  | some cards => cards.mapIdx fun index _ => cardBox (620 + index * 220)
  | none => []

def callToAction : Box := { x := 230, y := 1400, width := 620, height := 100 }

/-- The boxes are apart, in the image and above the call to action, from the first card
down to the last. -/
structure LaidOut (boxes : List Box) : Prop where
  disjoint : boxes.Pairwise Box.Disjoint
  inside : ∀ b ∈ boxes, b.right ≤ SHARE_IMAGE_WIDTH_PX ∧ b.bottom ≤ SHARE_IMAGE_HEIGHT_PX
  above : ∀ b ∈ boxes, b.bottom < callToAction.y
  ordered : boxes.Pairwise fun b b' => b.bottom ≤ b'.y

/-- The parts stand in a text one after another. -/
def Shows : List String → String → Prop
  | [], _ => True
  | part :: parts, text => ∃ before after, text = before ++ part ++ after ∧ Shows parts after

section Drawing

variable {parts parts' : List String} {text text' : String}

theorem shows_part (before part after : String) : Shows [part] (before ++ part ++ after) :=
  ⟨before, after, rfl, trivial⟩

theorem Shows.both (h : Shows parts text) (h' : Shows parts' text') :
    Shows (parts ++ parts') (text ++ text') := by
  induction parts generalizing text with
  | nil =>
      cases parts' with
      | nil => trivial
      | cons part parts' =>
          obtain ⟨before, after, rfl, hafter⟩ := h'
          exact ⟨text ++ before, after, by simp only [String.append_assoc], hafter⟩
  | cons part parts ih =>
      obtain ⟨before, after, rfl, hafter⟩ := h
      exact ⟨before, after ++ text', by simp only [String.append_assoc], ih hafter⟩

theorem Shows.append_left (h : Shows parts text) (before : String) :
    Shows parts (before ++ text) := by
  have hnone : Shows [] before := trivial
  exact hnone.both h

theorem Shows.append_right (h : Shows parts text) (after : String) :
    Shows parts (text ++ after) := by
  have hnone : Shows [] after := trivial
  rw [← List.append_nil parts]
  exact h.both hnone

theorem shows_join {α : Type} {box : Nat → Box} {draw : Nat → α → String}
    (h : ∀ i a, Shows [(box i).tag] (draw i a)) (items : List α) :
    Shows ((items.mapIdx fun i _ => box i).map Box.tag) (String.join (items.mapIdx draw)) := by
  induction items generalizing box draw with
  | nil => trivial
  | cons item items ih =>
      rw [List.mapIdx_cons, List.mapIdx_cons, List.map_cons, String.join_cons]
      exact (h 0 item).both (ih fun i a => h (i + 1) a)

/-- The group of a card shows its box. -/
theorem shows_renderCardBox (card : SharedCardSummary) (y : Nat) :
    Shows [(cardBox y).tag] (renderCardBox card y) := by
  have hopen : "\n      <rect x=\"90\" y=\"" =
      "\n      " ++ ("<rect x=\"" ++ toString 90 ++ "\" y=\"") := by decide
  have hclose : "\" width=\"900\" height=\"200\" rx=\"20\"" =
      "\" width=\"" ++ toString 900 ++ "\" height=\"" ++ toString 200 ++ "\"" ++
        " rx=\"20\"" := by decide
  have hbox : "\n      <rect x=\"90\" y=\"" ++ toString y ++
      "\" width=\"900\" height=\"200\" rx=\"20\"" =
        "\n      " ++ (cardBox y).tag ++ " rx=\"20\"" := by
    rw [hopen, hclose]
    unfold Box.tag cardBox
    simp only [String.append_assoc]
    rfl
  have hshows := shows_part "\n      " (cardBox y).tag " rx=\"20\""
  rw [← hbox] at hshows
  unfold renderCardBox
  iterate 10 refine Shows.append_right ?_ _
  exact hshows.append_left _

/-- The image shows the boxes of the cards in their order, and then the call to action. -/
theorem buildShareImageSvg_shows (data : ShareImageData) :
    Shows ((cardBoxes data ++ [callToAction]).map Box.tag) (buildShareImageSvg data) := by
  have hcards : Shows ((cardBoxes data).map Box.tag) (match data.cards with
      | some cards => String.join (cards.mapIdx fun index card =>
          renderCardBox card (620 + index * 220))
      | none => renderHandIllustration) := by
    unfold cardBoxes
    cases data.cards with
    | none => trivial
    | some cards =>
        exact shows_join (fun index card => shows_renderCardBox card (620 + index * 220)) cards
  have hbutton :
      "\n  <rect x=\"230\" y=\"1400\" width=\"620\" height=\"100\" rx=\"50\" fill=\"url(#ctaFill)\"" =
        "\n  " ++ callToAction.tag ++ " rx=\"50\" fill=\"url(#ctaFill)\"" := by decide
  have hshows := shows_part "\n  " callToAction.tag " rx=\"50\" fill=\"url(#ctaFill)\""
  rw [← hbutton] at hshows
  rw [List.map_append]
  unfold buildShareImageSvg
  iterate 5 refine Shows.append_right ?_ _
  exact Shows.both ((hcards.append_left _).append_right _ |>.append_left _) hshows

end Drawing

theorem length_cardBoxes (data : ShareImageData) :
    (cardBoxes data).length = (data.cards.getD []).length := by
  unfold cardBoxes
  cases data.cards <;> simp

theorem getElem_cardBoxes {data : ShareImageData} {i : Nat} (hi : i < (cardBoxes data).length) :
    (cardBoxes data)[i] = cardBox (620 + i * 220) := by
  revert hi
  unfold cardBoxes
  split
  · simp
  · intro hi
    cases hi

theorem cardBoxes_ordered (data : ShareImageData) :
    (cardBoxes data).Pairwise fun b b' => b.bottom ≤ b'.y := by
  rw [List.pairwise_iff_getElem]
  intro i j hi hj hij
  rw [getElem_cardBoxes, getElem_cardBoxes]
  simp only [Box.bottom, cardBox]
  omega

theorem mem_cardBoxes {data : ShareImageData} {b : Box} :
    b ∈ cardBoxes data ↔ ∃ i < (data.cards.getD []).length, b = cardBox (620 + i * 220) := by
  rw [← length_cardBoxes, List.mem_iff_getElem]
  constructor
  · rintro ⟨i, hi, rfl⟩
    exact ⟨i, hi, getElem_cardBoxes hi⟩
  · rintro ⟨i, hi, rfl⟩
    exact ⟨i, hi, getElem_cardBoxes hi⟩

theorem laidOut_cardBoxes_iff (data : ShareImageData) :
    LaidOut (cardBoxes data) ↔ (data.cards.getD []).length ≤ 3 := by
  constructor
  · intro h
    by_contra hlong
    have hlast := h.above _ (mem_cardBoxes.mpr ⟨3, by omega, rfl⟩)
    revert hlast
    decide
  · intro hshort
    refine ⟨(cardBoxes_ordered data).imp Box.disjoint_of_above, ?_, ?_, cardBoxes_ordered data⟩
    all_goals
      intro b hb
      obtain ⟨i, hi, rfl⟩ := mem_cardBoxes.mp hb
      simp only [Box.right, Box.bottom, cardBox, callToAction, SHARE_IMAGE_WIDTH_PX,
        SHARE_IMAGE_HEIGHT_PX]
      omega

/-- The image shows the boxes of the cards in their order and then the call to action, and
they are laid out if and only if there are at most three cards. -/
theorem share_image_layout (data : ShareImageData) :
    Shows ((cardBoxes data ++ [callToAction]).map Box.tag) (buildShareImageSvg data) ∧
      (LaidOut (cardBoxes data) ↔ (data.cards.getD []).length ≤ 3) :=
  ⟨buildShareImageSvg_shows data, laidOut_cardBoxes_iff data⟩

/-- A reading of the five positions of the spread `TAROT_FIVE`. -/
def fiveCards : ShareImageData where
  readingType := .TAROT
  title := "Tarot de cinco cartas"
  cards := some <| [("SITUATION", "Situación"), ("CHALLENGE", "Desafío"), ("PAST", "Pasado"),
    ("FUTURE", "Futuro"), ("OUTCOME", "Resultado")].map fun position =>
      { position := position.1, positionLabel := position.2, cardName := "El Sol"
        arcana := .MAJOR, suit := none, orientation := .UPRIGHT }
  disclaimer := ""
  appHost := "tarotria.com"

/-- The fourth card covers the call to action. -/
theorem fiveCards_cover_call_to_action : ¬ LaidOut (cardBoxes fiveCards) := by
  intro h
  have hfourth := h.above (cardBox 1280) (by decide)
  revert hfourth
  decide

end ShareImageRenderer

end TaroTria
