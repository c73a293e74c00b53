import Mathlib.Probability.Distributions.Uniform

/-!
# Computations that draw random numbers

A sampler asks for one number after the other, each below a bound that may
depend on the numbers before it. Its runs consume a list of numbers; its
distribution draws each of them uniformly and independently of the others. An
outcome that exactly one run reaches has the weight of that run as its
probability.
-/

namespace TaroTria

open scoped ENNReal

/-- A computation that draws numbers below bounds of its choice. -/
inductive Sampler (α : Type)
  | ret (a : α)
  | node (max : Nat) (hmax : 0 < max) (next : Fin max → Sampler α)

namespace Sampler

variable {α β : Type}

/-- A number below `max`, and `rangeError` for an empty range. -/
def randomInt (max : Nat) (rangeError : Sampler α) (next : Fin max → Sampler α) : Sampler α :=
  if hmax : 0 < max then node max hmax next else rangeError

theorem randomInt_of_pos {max : Nat} (hmax : 0 < max) (rangeError : Sampler α)
    (next : Fin max → Sampler α) : randomInt max rangeError next = node max hmax next :=
  dif_pos hmax

/-- The same draws with their outcome mapped. -/
def map (f : α → β) : Sampler α → Sampler β
  | ret a => ret (f a)
  | node max hmax next => node max hmax fun i => (next i).map f

/-- The outcome on a list of numbers, when each is in its range and the list is
consumed exactly. -/
def run : Sampler α → List Nat → Option α
  | ret a, [] => some a
  | node max _ next, i :: is => if hi : i < max then (next ⟨i, hi⟩).run is else none
  | _, _ => none

@[simp] theorem run_ret_nil (a : α) : (ret a).run [] = some a :=
  rfl

theorem run_node_cons {max : Nat} {hmax : 0 < max} {next : Fin max → Sampler α} {i : Nat}
    (hi : i < max) (is : List Nat) : (node max hmax next).run (i :: is) = (next ⟨i, hi⟩).run is :=
  dif_pos hi

theorem run_ret_eq_some {a b : α} {is : List Nat} :
    (ret a).run is = some b ↔ is = [] ∧ a = b := by
  cases is <;> simp [run]

theorem run_node_eq_some {max : Nat} {hmax : 0 < max} {next : Fin max → Sampler α}
    {is : List Nat} {a : α} :
    (node max hmax next).run is = some a ↔
      ∃ i, ∃ rest, is = i.val :: rest ∧ (next i).run rest = some a := by
  constructor
  · intro h
    cases is with
    | nil => simp [run] at h
    | cons i rest =>
        by_cases hi : i < max
        · rw [run_node_cons hi] at h
          exact ⟨⟨i, hi⟩, rest, rfl, h⟩
        · simp [run, hi] at h
  · rintro ⟨i, rest, rfl, h⟩
    rwa [run_node_cons i.isLt]

theorem run_map (f : α → β) (s : Sampler α) (is : List Nat) :
    (s.map f).run is = (s.run is).map f := by
  induction s generalizing is with
  | ret a => cases is <;> rfl
  | node max hmax next ih =>
      cases is with
      | nil => rfl
      | cons i rest =>
          by_cases hi : i < max
          · simp only [map, run_node_cons hi, ih]
          · simp [map, run, hi]

/-- The distribution of the outcome when every number is uniform. -/
noncomputable def dist : Sampler α → PMF α
  | ret a => PMF.pure a
  | node max hmax next =>
      have : Nonempty (Fin max) := ⟨⟨0, hmax⟩⟩
      (PMF.uniformOfFintype (Fin max)).bind fun i => (next i).dist

theorem dist_node_apply {max : Nat} (hmax : 0 < max) (next : Fin max → Sampler α) (a : α) :
    (node max hmax next).dist a = ∑ i, (max : ℝ≥0∞)⁻¹ * (next i).dist a := by
  simp only [dist, PMF.bind_apply, PMF.uniformOfFintype_apply, Fintype.card_fin, tsum_fintype]

/-- The probability of the numbers that a run consumes. -/
noncomputable def weight : Sampler α → List Nat → ℝ≥0∞
  | ret _, _ => 1
  | node max _ next, i :: is =>
      (max : ℝ≥0∞)⁻¹ * if hi : i < max then (next ⟨i, hi⟩).weight is else 0
  | node _ _ _, [] => 0

theorem weight_node_cons {max : Nat} {hmax : 0 < max} {next : Fin max → Sampler α} {i : Nat}
    (hi : i < max) (is : List Nat) :
    (node max hmax next).weight (i :: is) = (max : ℝ≥0∞)⁻¹ * (next ⟨i, hi⟩).weight is := by
  simp only [weight, dif_pos hi]

theorem weight_map (f : α → β) (s : Sampler α) (is : List Nat) :
    (s.map f).weight is = s.weight is := by
  induction s generalizing is with
  | ret a => rfl
  | node max hmax next ih =>
      cases is with
      | nil => rfl
      | cons i rest => simp only [map, weight, ih]

/-- An outcome that no run reaches has probability zero. -/
theorem dist_eq_zero {s : Sampler α} {a : α} (h : ∀ is, s.run is ≠ some a) : s.dist a = 0 := by
  induction s with
  | ret b =>
      have hne : a ≠ b := fun hab => h [] (by rw [hab]; rfl)
      simp [dist, hne]
  | node max hmax next ih =>
      rw [dist_node_apply]
      refine Finset.sum_eq_zero fun i _ => ?_
      rw [ih i fun is his => h (i.val :: is) (by rwa [run_node_cons i.isLt]), mul_zero]

/-- An outcome that exactly one run reaches has the probability of its numbers. -/
theorem dist_eq_weight {s : Sampler α} {a : α} {is : List Nat} (h : s.run is = some a)
    (hunique : ∀ is', s.run is' = some a → is' = is) : s.dist a = s.weight is := by
  induction s generalizing is with
  | ret b =>
      obtain ⟨rfl, rfl⟩ := run_ret_eq_some.mp h
      simp [dist, weight]
  | node max hmax next ih =>
      obtain ⟨i, rest, rfl, hrest⟩ := run_node_eq_some.mp h
      -- The first number of every run to the outcome is `i`.
      have hother : ∀ j ∈ Finset.univ, j ≠ i → (max : ℝ≥0∞)⁻¹ * (next j).dist a = 0 := by
        intro j _ hj
        rw [dist_eq_zero, mul_zero]
        intro is' his'
        have hcons := hunique (j.val :: is') (by rwa [run_node_cons j.isLt])
        exact hj (Fin.ext (List.cons.inj hcons).1)
      rw [dist_node_apply, Finset.sum_eq_single i hother (fun hi => absurd (Finset.mem_univ i) hi),
        weight_node_cons i.isLt]
      rw [ih i hrest fun is' his' =>
        (List.cons.inj (hunique (i.val :: is') (by rwa [run_node_cons i.isLt]))).2]

end Sampler

end TaroTria
