import TaroTria.Calendar.CivilDays
import TaroTria.DailyCard.DailyCardService

/-!
# The dates of the daily card

A date, as `toISOString` prints it, has one day, and so does the key of a card.
-/

namespace TaroTria

namespace DailyCardService

open Calendar

theorem toList_padStart (width n : Nat) : ∃ zeros, (padStart width n).toList =
    List.replicate zeros '0' ++ Nat.toDigits 10 n := by
  refine ⟨width - (toString n).length, ?_⟩
  rw [padStart, String.toList_append, String.toList_ofList]
  exact congrArg _ Nat.toList_repr

/-- A number is read back from its digits, with the zeros before them. -/
theorem ofDigitChars_padStart (width n : Nat) :
    Nat.ofDigitChars 10 (padStart width n).toList 0 = n := by
  obtain ⟨zeros, htext⟩ := toList_padStart width n
  rw [htext, Nat.ofDigitChars_append, Nat.ofDigitChars_replicate_zero, mul_zero,
    Nat.ofDigitChars_ten_toDigits]

theorem dash_notMem_padStart (width n : Nat) : '-' ∉ (padStart width n).toList := by
  obtain ⟨zeros, htext⟩ := toList_padStart width n
  rw [htext, List.mem_append]
  rintro (hmem | hmem)
  · cases (List.mem_replicate.mp hmem).2
  · have hdigit := Nat.isDigit_of_mem_toDigits (by decide) (by decide) hmem
    cases hdigit

theorem padStart_injective (width : Nat) : Function.Injective (padStart width) := by
  intro m n h
  rw [← ofDigitChars_padStart width m, h, ofDigitChars_padStart]

/-- A text without the mark ends at its first mark. -/
theorem append_mark_inj {a a' b b' : List Char} {mark : Char} (ha : mark ∉ a) (ha' : mark ∉ a')
    (h : a ++ mark :: b = a' ++ mark :: b') : a = a' ∧ b = b' := by
  induction a generalizing a' with
  | nil =>
      cases a' with
      | nil => exact ⟨rfl, (List.cons.inj h).2⟩
      | cons c a' => exact absurd ((List.cons.inj h).1 ▸ List.mem_cons_self) ha'
  | cons c a ih =>
      cases a' with
      | nil => exact absurd ((List.cons.inj h).1 ▸ List.mem_cons_self) ha
      | cons c' a' =>
          obtain ⟨hhead, htail⟩ := List.cons.inj h
          obtain ⟨hrest, hb⟩ := ih (fun hmem => ha (List.mem_cons_of_mem c hmem))
            (fun hmem => ha' (List.mem_cons_of_mem c' hmem)) htail
          exact ⟨by rw [hhead, hrest], hb⟩

/-- The print of a date. -/
def printDate (year month day : Nat) : String :=
  padStart 4 year ++ "-" ++ padStart 2 month ++ "-" ++ padStart 2 day

theorem printDate_inj {y y' m m' d d' : Nat} (h : printDate y m d = printDate y' m' d') :
    y = y' ∧ m = m' ∧ d = d' := by
  unfold printDate at h
  have hdash : "-".toList = ['-'] := rfl
  have hchars := congrArg String.toList h
  simp only [String.toList_append, List.append_assoc, hdash, List.singleton_append] at hchars
  obtain ⟨hyear, hrest⟩ := append_mark_inj (dash_notMem_padStart _ _)
    (dash_notMem_padStart _ _) hchars
  obtain ⟨hmonth, hday⟩ := append_mark_inj (dash_notMem_padStart _ _)
    (dash_notMem_padStart _ _) hrest
  exact ⟨padStart_injective 4 (String.toList_injective hyear),
    padStart_injective 2 (String.toList_injective hmonth),
    padStart_injective 2 (String.toList_injective hday)⟩

/-- The day of a time, counted from the first of March of the year 0. -/
def dayNumber (t : Time) : Nat := t / MS_PER_DAY + 719468

theorem toISODate_eq (t : Time) : toISODate t =
    printDate (yearOf (dayNumber t)) (monthOf (Calendar.dayOfYear (dayNumber t)))
      (dayOfMonth (Calendar.dayOfYear (dayNumber t))) := rfl

/-- Two times have one date exactly if they lie in one day. -/
theorem toISODate_eq_iff {s t : Time} :
    toISODate s = toISODate t ↔ s / MS_PER_DAY = t / MS_PER_DAY := by
  have hdays : dayNumber s = dayNumber t ↔ s / MS_PER_DAY = t / MS_PER_DAY := by
    rw [dayNumber, dayNumber, Nat.add_right_cancel_iff]
  rw [← hdays, toISODate_eq, toISODate_eq]
  constructor
  · intro h
    obtain ⟨hyear, hmonth, hday⟩ := printDate_inj h
    exact civil_inj hyear hmonth hday
  · intro h
    rw [h]

end DailyCardService

end TaroTria
