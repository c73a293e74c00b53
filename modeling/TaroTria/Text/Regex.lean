import Mathlib.Data.List.Infix

/-!
# Regular expressions without anchors

Expressions over any type of characters, and the test whether some part of a
text matches. A test that succeeds on a part of a text succeeds on the text.
-/

namespace TaroTria

/-- Regular expressions; `plus` repeats one class of characters. -/
inductive Regex (α : Type)
  | empty
  | char (p : α → Bool)
  | plus (p : α → Bool)
  | seq (r r' : Regex α)
  | alt (r r' : Regex α)

namespace Regex

variable {α : Type}

/-- What follows a repetition of a class in a text. -/
def afterPlus (p : α → Bool) : List α → List (List α)
  | [] => []
  | c :: text => if p c then text :: afterPlus p text else []

/-- What follows a match at the start of a text. -/
def rests : Regex α → List α → List (List α)
  | empty, text => [text]
  | char p, c :: text => if p c then [text] else []
  | char _, [] => []
  | plus p, text => afterPlus p text
  | seq r r', text => (r.rests text).flatMap r'.rests
  | alt r r', text => r.rests text ++ r'.rests text

/-- Some part of the text matches. -/
def test (r : Regex α) (text : List α) : Bool := text.tails.any fun t => !(r.rests t).isEmpty

/-- One expression after another. -/
def seqs : List (Regex α) → Regex α := List.foldr seq empty

/-- One of several expressions. -/
def oneOf : List (Regex α) → Regex α
  | [] => char fun _ => false
  | [r] => r
  | r :: rs => alt r (oneOf rs)

theorem mem_afterPlus_append {p : α → Bool} {text rest : List α} (h : rest ∈ afterPlus p text)
    (suffix : List α) : rest ++ suffix ∈ afterPlus p (text ++ suffix) := by
  induction text with
  | nil => cases h
  | cons c text ih =>
      simp only [afterPlus, List.cons_append] at h ⊢
      split at h
      · rename_i hp
        rw [if_pos hp]
        rcases List.mem_cons.mp h with rfl | h
        · exact List.mem_cons_self
        · exact List.mem_cons_of_mem _ (ih h)
      · cases h

/-- A match at the start is one in any longer text. -/
theorem mem_rests_append {r : Regex α} {text rest : List α} (h : rest ∈ r.rests text)
    (suffix : List α) : rest ++ suffix ∈ r.rests (text ++ suffix) := by
  induction r generalizing text rest with
  | empty =>
      obtain rfl := List.mem_singleton.mp h
      exact List.mem_singleton.mpr rfl
  | char p =>
      cases text with
      | nil => cases h
      | cons c text =>
          simp only [rests, List.cons_append] at h ⊢
          split at h
          · rename_i hp
            rw [if_pos hp]
            obtain rfl := List.mem_singleton.mp h
            exact List.mem_singleton.mpr rfl
          · cases h
  | plus p => exact mem_afterPlus_append h suffix
  | seq r r' ih ih' =>
      obtain ⟨middle, hmiddle, hrest⟩ := List.mem_flatMap.mp h
      exact List.mem_flatMap.mpr ⟨_, ih hmiddle, ih' hrest⟩
  | alt r r' ih ih' =>
      rcases List.mem_append.mp h with h | h
      · exact List.mem_append_left _ (ih h)
      · exact List.mem_append_right _ (ih' h)

theorem test_iff {r : Regex α} {text : List α} :
    r.test text = true ↔ ∃ t rest, t <:+ text ∧ rest ∈ r.rests t := by
  simp only [test, List.any_eq_true, List.mem_tails, Bool.not_eq_true', List.isEmpty_eq_false_iff,
    ne_eq]
  constructor
  · rintro ⟨t, ht, hne⟩
    obtain ⟨rest, hrest⟩ := List.exists_mem_of_ne_nil _ hne
    exact ⟨t, rest, ht, hrest⟩
  · rintro ⟨t, rest, ht, hrest⟩
    exact ⟨t, ht, List.ne_nil_of_mem hrest⟩

/-- A text matches as soon as a part of it does. -/
theorem test_of_infix {r : Regex α} {part text : List α} (hpart : part <:+: text)
    (h : r.test part = true) : r.test text = true := by
  obtain ⟨t, rest, ⟨before, rfl⟩, hrest⟩ := test_iff.mp h
  obtain ⟨pre, post, rfl⟩ := hpart
  refine test_iff.mpr ⟨t ++ post, rest ++ post, ⟨pre ++ before, ?_⟩, mem_rests_append hrest post⟩
  simp

end Regex

end TaroTria
