import Mathlib.Data.List.TakeWhile
import TaroTria.Payments.WompiProvider

/-!
# What a printed number tells

A number is read back from its print: the sign, the digits without the zeros around
them, and where the decimal point stands.
-/

namespace TaroTria

namespace WompiProvider

namespace JsNumber

/-- The digits of a positive number that ends with no zero. -/
structure Trimmed (ds : List Char) : Prop where
  digits : ∀ c ∈ ds, c.isDigit = true
  head : ∃ c rest, ds = c :: rest ∧ c ≠ '0'
  last : ∃ c, ds.getLast? = some c ∧ c ≠ '0'

section Digits

theorem digitChar_eq_zero {n : Nat} (hn : n < 10) (h : Nat.digitChar n = '0') : n = 0 := by
  have hall : ∀ n < 10, Nat.digitChar n = '0' → n = 0 := by decide
  exact hall n hn h

theorem toDigits_head {n : Nat} (hn : 0 < n) :
    ∃ c rest, Nat.toDigits 10 n = c :: rest ∧ c ≠ '0' := by
  induction n using Nat.strongRecOn with
  | ind n ih =>
      rw [Nat.toDigits_eq_if (by omega)]
      split
      · rename_i hlt
        exact ⟨_, [], rfl, fun hzero => by have := digitChar_eq_zero hlt hzero; omega⟩
      · obtain ⟨c, rest, hrest, hc⟩ := ih (n / 10) (by omega) (by omega)
        exact ⟨c, rest ++ [Nat.digitChar (n % 10)], by rw [hrest]; rfl, hc⟩

theorem toDigits_last {n : Nat} (hn : n % 10 ≠ 0) :
    ∃ c, (Nat.toDigits 10 n).getLast? = some c ∧ c ≠ '0' := by
  rw [Nat.toDigits_eq_if (by omega)]
  split
  · rename_i hlt
    exact ⟨_, rfl, fun hzero => by have := digitChar_eq_zero hlt hzero; omega⟩
  · refine ⟨_, List.getLast?_concat, fun hzero => hn ?_⟩
    exact digitChar_eq_zero (Nat.mod_lt n (by omega)) hzero

end Digits

/-- The digits that `String(x)` prints. -/
theorem trimmed_digits {x : JsNumber} (hx : x.significand ≠ 0) :
    Trimmed x.significand.repr.toList := by
  rw [Nat.toList_repr]
  refine ⟨fun c hc => Nat.isDigit_of_mem_toDigits (by omega) (by omega) hc,
    toDigits_head (Nat.pos_of_ne_zero hx), toDigits_last fun hzero => hx (x.shortest hzero).1⟩

/-- A list without the zeros at its ends. -/
def trimZeros (text : List Char) : List Char :=
  ((text.dropWhile (· = '0')).reverse.dropWhile (· = '0')).reverse

theorem dropWhile_zeros (a : Nat) (text : List Char) :
    (List.replicate a '0' ++ text).dropWhile (· = '0') = text.dropWhile (· = '0') :=
  List.dropWhile_append_of_pos fun c hc => by simp [List.eq_of_mem_replicate hc]

theorem Trimmed.trimZeros_eq {ds : List Char} (h : Trimmed ds) (a b : Nat) :
    trimZeros (List.replicate a '0' ++ ds ++ List.replicate b '0') = ds := by
  obtain ⟨c, rest, hds, hc⟩ := h.head
  obtain ⟨d, hlast, hd⟩ := h.last
  obtain ⟨front, hfront⟩ : ∃ front, ds = front ++ [d] := List.getLast?_eq_some_iff.mp hlast
  have hleft : (ds ++ List.replicate b '0').dropWhile (· = '0') = ds ++ List.replicate b '0' := by
    rw [hds, List.cons_append, List.dropWhile_cons]
    simp [hc]
  have hright : ds.reverse.dropWhile (· = '0') = ds.reverse := by
    rw [hfront, List.reverse_append, List.reverse_singleton, List.singleton_append,
      List.dropWhile_cons]
    simp [hd]
  calc
    trimZeros (List.replicate a '0' ++ ds ++ List.replicate b '0')
        = ((ds ++ List.replicate b '0').reverse.dropWhile (· = '0')).reverse := by
      rw [trimZeros, List.append_assoc, dropWhile_zeros, hleft]
    _ = (ds.reverse.dropWhile (· = '0')).reverse := by
      rw [List.reverse_append, List.reverse_replicate, dropWhile_zeros]
    _ = ds := by
      rw [hright, List.reverse_reverse]

/-- The significant digits of a print. -/
def significantDigits (text : List Char) : List Char :=
  trimZeros ((text.takeWhile (· ≠ 'e')).filter (· ≠ '.'))

/-- How many digits stand before the decimal point; negative for zeros after it. -/
def pointOf (text : List Char) : Int :=
  match text.dropWhile (· ≠ 'e') with
  | _ :: sign :: ds =>
      if sign = '-' then 1 - Nat.ofDigitChars 10 ds 0 else 1 + Nat.ofDigitChars 10 ds 0
  | _ =>
      if text.takeWhile (· ≠ '.') = ['0'] then -((text.drop 2).takeWhile (· = '0')).length
      else (text.takeWhile (· ≠ '.')).length

/-- The four forms of a print, for digits `ds` with the point after `n` of them. -/
inductive Form (ds : List Char) (n : Int) : List Char → Prop
  | integer (b : Nat) (hn : n = ds.length + b) : Form ds n (ds ++ List.replicate b '0')
  | decimal (whole fraction : List Char) (hds : ds = whole ++ fraction) (hwhole : whole ≠ [])
      (hn : n = whole.length) : Form ds n (whole ++ '.' :: fraction)
  | fraction (a : Nat) (hn : n = -a) : Form ds n ('0' :: '.' :: (List.replicate a '0' ++ ds))
  | exponential (mantissa : List Char) (hmantissa : mantissa.filter (· ≠ '.') = ds)
      (he : 'e' ∉ mantissa) (hhead : mantissa.head? = ds.head?) :
      Form ds n (mantissa ++ 'e' :: (if 0 ≤ n - 1 then '+' else '-') ::
        Nat.toDigits 10 (n - 1).natAbs)

theorem isDigit_ne {c d : Char} (hc : c.isDigit = true) (hd : d.isDigit = false) : c ≠ d := by
  rintro rfl
  rw [hc] at hd
  cases hd

section Layout

variable {ds : List Char} {n : Int} {text : List Char} (h : Trimmed ds)
include h

theorem Trimmed.not_mem {c : Char} (hc : c.isDigit = false) : c ∉ ds :=
  fun hmem => isDigit_ne (h.digits c hmem) hc rfl

theorem Trimmed.filter_point : ds.filter (· ≠ '.') = ds :=
  List.filter_eq_self.mpr fun c hc => by
    simpa using isDigit_ne (h.digits c hc) (by decide)

theorem Trimmed.form (n : Int) : Form ds n (layout ds n) := by
  unfold layout
  split
  · rename_i hn
    exact .integer _ (by omega)
  split
  · rename_i hge hn
    have hlt : n.toNat < ds.length := by omega
    have hlen : (ds.take n.toNat).length = n.toNat := List.length_take_of_le hlt.le
    refine .decimal (ds.take n.toNat) (ds.drop n.toNat) (List.take_append_drop _ _).symm ?_ ?_
    · exact List.ne_nil_of_length_pos (by omega)
    · omega
  split
  · rename_i hn
    exact .fraction (-n).toNat (by omega)
  · rw [Nat.toList_repr]
    obtain ⟨c, rest, rfl, -⟩ := h.head
    have hfilter := h.filter_point
    have hnot := h.not_mem (c := 'e') (by decide)
    simp only [List.take_succ_cons, List.take_zero, List.drop_succ_cons, List.drop_zero]
    split
    · exact .exponential _ hfilter hnot rfl
    · refine .exponential (c :: '.' :: rest) ?_ ?_ rfl
      · simpa [List.filter_cons] using hfilter
      · simpa using hnot

/-- The characters of a print other than its digits. -/
def MARKS : List Char := ['.', 'e', '+', '-']

theorem Form.chars (hform : Form ds n text) : ∀ c ∈ text, c.isDigit = true ∨ c ∈ MARKS := by
  intro c hc
  have zero : ∀ {b}, c ∈ List.replicate b '0' → c.isDigit = true := fun hc => by
    rw [List.eq_of_mem_replicate hc]
    decide
  cases hform with
  | integer b hn =>
      rcases List.mem_append.mp hc with hc | hc
      · exact .inl (h.digits c hc)
      · exact .inl (zero hc)
  | decimal whole fraction hds hwhole hn =>
      have hdigits := hds ▸ h.digits
      rcases List.mem_append.mp hc with hc | hc
      · exact .inl (hdigits c (List.mem_append_left _ hc))
      · rcases List.mem_cons.mp hc with rfl | hc
        · exact .inr (by decide)
        · exact .inl (hdigits c (List.mem_append_right _ hc))
  | fraction a hn =>
      rcases List.mem_cons.mp hc with rfl | hc
      · exact .inl (by decide)
      · rcases List.mem_cons.mp hc with rfl | hc
        · exact .inr (by decide)
        · rcases List.mem_append.mp hc with hc | hc
          · exact .inl (zero hc)
          · exact .inl (h.digits c hc)
  | exponential mantissa hmantissa he hhead =>
      rcases List.mem_append.mp hc with hc | hc
      · by_cases hpoint : c = '.'
        · exact .inr (hpoint ▸ by decide)
        · have hmem : c ∈ mantissa.filter (· ≠ '.') := by simp [hc, hpoint]
          exact .inl (h.digits c (hmantissa ▸ hmem))
      · rcases List.mem_cons.mp hc with rfl | hc
        · exact .inr (by decide)
        · rcases List.mem_cons.mp hc with rfl | hc
          · exact .inr (by split <;> decide)
          · exact .inl (Nat.isDigit_of_mem_toDigits (by omega) (by omega) hc)

/-- A print starts with a digit. -/
theorem Form.head (hform : Form ds n text) : ∃ c rest, text = c :: rest ∧ c.isDigit = true := by
  obtain ⟨d, rest, rfl, -⟩ := h.head
  have hd : d.isDigit = true := h.digits d List.mem_cons_self
  cases hform with
  | integer b hn => exact ⟨d, _, rfl, hd⟩
  | decimal whole fraction hds hwhole hn =>
      obtain ⟨c, whole, rfl⟩ := List.exists_cons_of_ne_nil hwhole
      exact ⟨c, _, rfl, (List.cons.inj hds).1 ▸ hd⟩
  | fraction a hn => exact ⟨'0', _, rfl, by decide⟩
  | exponential mantissa hmantissa he hhead =>
      obtain ⟨rest', rfl⟩ := List.head?_eq_some_iff.mp hhead
      exact ⟨d, _, rfl, hd⟩

omit h in
theorem takeWhile_of_not_mem {c : Char} (hc : c ∉ text) : text.takeWhile (· ≠ c) = text := by
  refine List.takeWhile_eq_self_iff.mpr fun d hd => ?_
  exact decide_eq_true fun hdc => hc (hdc ▸ hd)

omit h in
theorem takeWhile_stop {c : Char} {rest : List Char} (hc : c ∉ text) :
    (text ++ c :: rest).takeWhile (· ≠ c) = text := by
  rw [List.takeWhile_append_of_pos fun d hd => by simpa using fun hdc : d = c => hc (hdc ▸ hd)]
  simp

omit h in
theorem dropWhile_stop {c : Char} {rest : List Char} (hc : c ∉ text) :
    (text ++ c :: rest).dropWhile (· ≠ c) = c :: rest := by
  rw [List.dropWhile_append_of_pos fun d hd => by simpa using fun hdc : d = c => hc (hdc ▸ hd)]
  simp

/-- The digits are read back. -/
theorem Form.significantDigits_eq (hform : Form ds n text) : significantDigits text = ds := by
  have zeros : ∀ b, (List.replicate b '0').filter (· ≠ '.') = List.replicate b '0' := fun b =>
    List.filter_eq_self.mpr fun c hc => by simp [List.eq_of_mem_replicate hc]
  have notE : ∀ b, 'e' ∉ List.replicate b '0' := fun b hmem => by
    cases List.eq_of_mem_replicate hmem
  have hnot := h.not_mem (c := 'e') (by decide)
  have hfilter := h.filter_point
  unfold significantDigits
  cases hform with
  | integer b hn =>
      rw [takeWhile_of_not_mem (by simp [hnot, notE]), List.filter_append, hfilter, zeros]
      simpa using h.trimZeros_eq 0 b
  | decimal whole fraction hds hwhole hn =>
      have hmem : 'e' ∉ whole ++ '.' :: fraction := by
        rw [hds] at hnot
        simpa using hnot
      rw [takeWhile_of_not_mem hmem, List.filter_append, List.filter_cons_of_neg (by simp),
        ← List.filter_append, ← hds, hfilter]
      simpa using h.trimZeros_eq 0 0
  | fraction a hn =>
      rw [takeWhile_of_not_mem (by simp [hnot, notE]), List.filter_cons_of_pos (by simp),
        List.filter_cons_of_neg (by simp), List.filter_append, zeros, hfilter]
      simpa [List.replicate_succ] using h.trimZeros_eq (a + 1) 0
  | exponential mantissa hmantissa he hhead =>
      rw [takeWhile_stop he, hmantissa]
      simpa using h.trimZeros_eq 0 0

/-- The place of the point is read back. -/
theorem Form.pointOf_eq (hform : Form ds n text) : pointOf text = n := by
  obtain ⟨d, rest, hds, hd⟩ := h.head
  have hnot := h.not_mem (c := 'e') (by decide)
  have hpoint := h.not_mem (c := '.') (by decide)
  have dropE : ∀ {text : List Char}, 'e' ∉ text → text.dropWhile (· ≠ 'e') = [] :=
    fun hmem => List.dropWhile_eq_nil_iff.mpr fun c hc => by
      simpa using fun hce : c = 'e' => hmem (hce ▸ hc)
  have notMem : ∀ {c : Char} b, c ≠ '0' → c ∉ List.replicate b '0' := fun b hc hmem =>
    hc (List.eq_of_mem_replicate hmem)
  unfold pointOf
  cases hform with
  | integer b hn =>
      have hmem : 'e' ∉ ds ++ List.replicate b '0' := by simp [hnot, notMem]
      have hmem' : '.' ∉ ds ++ List.replicate b '0' := by simp [hpoint, notMem]
      rw [dropE hmem, takeWhile_of_not_mem hmem', if_neg, hn]
      · simp
      · rw [hds]
        exact fun heq => hd (List.cons.inj heq).1
  | decimal whole fraction hds' hwhole hn =>
      rw [hds'] at hnot hpoint
      have hmem : 'e' ∉ whole ++ '.' :: fraction := by simpa using hnot
      rw [dropE hmem, takeWhile_stop fun hmem => hpoint (List.mem_append_left _ hmem), if_neg, hn]
      rintro rfl
      rw [hds] at hds'
      exact hd (List.cons.inj hds').1
  | fraction a hn =>
      have hmem : 'e' ∉ '0' :: '.' :: (List.replicate a '0' ++ ds) := by simp [hnot, notMem]
      rw [dropE hmem, if_pos (by simp), hn]
      have htake : (List.replicate a '0' ++ ds).takeWhile (· = '0') = List.replicate a '0' := by
        rw [List.takeWhile_append_of_pos fun c hc => by simp [List.eq_of_mem_replicate hc], hds]
        simp [hd]
      simp [htake]
  | exponential mantissa hmantissa he hhead =>
      rw [dropWhile_stop he]
      simp only [Nat.ofDigitChars_ten_toDigits]
      by_cases hsign : 0 ≤ n - 1
      · rw [if_pos hsign, if_neg (by decide)]
        omega
      · rw [if_neg hsign, if_pos rfl]
        omega

end Layout

/-- The print of a number without its sign. -/
def unsigned (x : JsNumber) : List Char :=
  layout x.significand.repr.toList (x.significand.repr.toList.length + x.exponent)

theorem toList_toString {x : JsNumber} (hx : x.significand ≠ 0) :
    x.toString.toList = (if x.negative then ['-'] else []) ++ x.unsigned := by
  simp [toString, hx, unsigned]

theorem unsigned_form {x : JsNumber} (hx : x.significand ≠ 0) :
    Form x.significand.repr.toList (x.significand.repr.toList.length + x.exponent) x.unsigned :=
  (trimmed_digits hx).form _

/-- Two numbers whose unsigned prints are equal. -/
theorem unsigned_inj {x y : JsNumber} (hx : x.significand ≠ 0) (hy : y.significand ≠ 0)
    (h : x.unsigned = y.unsigned) : x.significand = y.significand ∧ x.exponent = y.exponent := by
  have hdigits : x.significand.repr.toList = y.significand.repr.toList := by
    rw [← (unsigned_form hx).significantDigits_eq (trimmed_digits hx), h,
      (unsigned_form hy).significantDigits_eq (trimmed_digits hy)]
  have hpoint := (unsigned_form hx).pointOf_eq (trimmed_digits hx)
  rw [h, (unsigned_form hy).pointOf_eq (trimmed_digits hy), hdigits] at hpoint
  refine ⟨?_, by omega⟩
  rw [Nat.toList_repr, Nat.toList_repr] at hdigits
  have hvalue := congrArg (fun ds => Nat.ofDigitChars 10 ds 0) hdigits
  simpa only [Nat.ofDigitChars_ten_toDigits] using hvalue

theorem unsigned_head {x : JsNumber} (hx : x.significand ≠ 0) :
    ∃ c rest, x.unsigned = c :: rest ∧ c.isDigit = true :=
  (unsigned_form hx).head (trimmed_digits hx)

theorem toString_zero {x : JsNumber} (hx : x.significand = 0) : x.toString.toList = ['0'] := by
  rw [toString, if_pos hx]
  rfl

theorem toString_ne_zero {x : JsNumber} (hx : x.significand ≠ 0) :
    x.toString.toList ≠ ['0'] := by
  obtain ⟨c, rest, hhead, -⟩ := unsigned_head hx
  rw [toList_toString hx]
  split
  · rw [List.singleton_append]
    exact fun h => by cases (List.cons.inj h).1
  · intro h
    have hdigits := (unsigned_form hx).significantDigits_eq (trimmed_digits hx)
    obtain ⟨d, rest', hds, -⟩ := (trimmed_digits hx).head
    rw [List.nil_append] at h
    rw [h, hds] at hdigits
    cases hdigits

/-- Numbers with one print are one number. -/
theorem toString_injective : Function.Injective toString := by
  intro x y h
  have hlist := congrArg String.toList h
  by_cases hx : x.significand = 0
  · by_cases hy : y.significand = 0
    · obtain ⟨-, hxneg, hxexp⟩ := (x.shortest (by rw [hx]) : _ ∧ _)
      obtain ⟨-, hyneg, hyexp⟩ := (y.shortest (by rw [hy]) : _ ∧ _)
      cases x
      cases y
      simp_all
    · exact absurd (hlist ▸ toString_zero hx) (toString_ne_zero hy)
  · by_cases hy : y.significand = 0
    · exact absurd (hlist ▸ toString_zero hy) (toString_ne_zero hx)
    · obtain ⟨c, rest, hxhead, hc⟩ := unsigned_head hx
      obtain ⟨d, rest', hyhead, hd⟩ := unsigned_head hy
      rw [toList_toString hx, toList_toString hy] at hlist
      have hsign : x.negative = y.negative ∧ x.unsigned = y.unsigned := by
        cases hxneg : x.negative <;> cases hyneg : y.negative
        · exact ⟨rfl, by simpa [hxneg, hyneg] using hlist⟩
        · rw [hxneg, hyneg, hxhead] at hlist
          exact absurd (List.cons.inj hlist).1 (isDigit_ne hc (by decide))
        · rw [hxneg, hyneg, hyhead] at hlist
          exact absurd (List.cons.inj hlist).1.symm (isDigit_ne hd (by decide))
        · exact ⟨rfl, by simpa [hxneg, hyneg] using hlist⟩
      obtain ⟨hsignificand, hexponent⟩ := unsigned_inj hx hy hsign.2
      cases x
      cases y
      simp_all

/-- A print has no letter in upper case. -/
theorem not_isUpper_of_mem_toString {x : JsNumber} {c : Char} (hc : c ∈ x.toString.toList) :
    c.isUpper = false := by
  have digit : ∀ {c : Char}, c.isDigit = true → c.isUpper = false := by
    intro c hc
    by_contra hupper
    rw [Bool.not_eq_false] at hupper
    have hletter : c.val ≥ 'A'.val ∧ c.val ≤ 'Z'.val := of_decide_eq_true hupper
    have hnumeral : c.val ≤ '9'.val := of_decide_eq_true (Bool.and_eq_true_iff.mp hc).2
    exact absurd (UInt32.le_trans hletter.1 hnumeral) (by decide)
  by_cases hx : x.significand = 0
  · rw [toString_zero hx, List.mem_singleton] at hc
    rw [hc]
    decide
  · rw [toList_toString hx] at hc
    rcases List.mem_append.mp hc with hc | hc
    · split at hc
      · rw [List.mem_singleton.mp hc]
        decide
      · cases hc
    · rcases (unsigned_form hx).chars (trimmed_digits hx) c hc with hdigit | hmark
      · exact digit hdigit
      · have hmarks : MARKS.all (fun c => c.isUpper = false) = true := by decide
        exact of_decide_eq_true (List.all_eq_true.mp hmarks c hmark)

end JsNumber

end WompiProvider

end TaroTria
