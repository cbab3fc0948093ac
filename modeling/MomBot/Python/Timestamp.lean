import Mathlib.Algebra.Order.Field.Rat
import Mathlib.Data.List.Lex
import Mathlib.Data.String.Basic
import Mathlib.Order.Fin.Basic
import Mathlib.Order.Monotone.Basic
import Mathlib.Tactic.Linarith
import MomBot.Python.Datetime

/-!
# ISO-8601 timestamps as text

A `Timestamp` is a valid UTC time in the format `YYYY-MM-DDTHH:MM:SS`, with any
number of digits for the fraction of the second and a final `Z`.  Its `text` is
compared by code points, its `instant` is a number of seconds.

* Six numbers of fixed width come first (`fields`).  Where they differ, they
  decide both orders, and in the same way (`chars_lt_iff`,
  `seconds_lt_of_fields_lt`).
* Where they agree, the fractions decide.  The final `Z` is greater than the
  point and than every digit, so of two fractions one of which continues the
  other, the longer one is the smaller text (`TextLess`), and the instants say
  the opposite, unless only zeros follow.

`text_lt_iff_instant_lt_iff` puts the two together: the orders agree on a pair
unless its fields agree and its fractions are not `Aligned`.
-/

namespace MomBot.Python

/-! ## Numbers of fixed width -/

/-- `n` in decimal, with leading zeros up to a width. -/
def pad : ℕ → ℕ → List Char
  | 0, _ => []
  | width + 1, n => Nat.digitChar (n / 10 ^ width) :: pad width (n % 10 ^ width)

theorem digitChar_lt_iff {m n : ℕ} (hm : m < 10) (hn : n < 10) :
    Nat.digitChar m < Nat.digitChar n ↔ m < n := by
  have hall : ∀ m < 10, ∀ n < 10, (Nat.digitChar m < Nat.digitChar n ↔ m < n) := by decide
  exact hall m hm n hn

theorem digitChar_inj {m n : ℕ} (hm : m < 10) (hn : n < 10) :
    Nat.digitChar m = Nat.digitChar n ↔ m = n := by
  have hall : ∀ m < 10, ∀ n < 10, (Nat.digitChar m = Nat.digitChar n ↔ m = n) := by decide
  exact hall m hm n hn

/-- Texts that start with numbers of the same width are in the order of the
numbers, and then in that of the rests. -/
theorem pad_append_lt_iff {width m n : ℕ} {s t : List Char} (hm : m < 10 ^ width)
    (hn : n < 10 ^ width) :
    pad width m ++ s < pad width n ++ t ↔ m < n ∨ m = n ∧ s < t := by
  induction width generalizing m n with
  | zero =>
      obtain rfl : m = 0 := by simpa using hm
      obtain rfl : n = 0 := by simpa using hn
      simp [pad]
  | succ width ih =>
      have hpow : 0 < 10 ^ width := by positivity
      have hm' : m / 10 ^ width < 10 := Nat.div_lt_of_lt_mul (by rwa [← pow_succ])
      have hn' : n / 10 ^ width < 10 := Nat.div_lt_of_lt_mul (by rwa [← pow_succ])
      have hmr := Nat.mod_lt m hpow
      have hnr := Nat.mod_lt n hpow
      have hmsum := Nat.div_add_mod m (10 ^ width)
      have hnsum := Nat.div_add_mod n (10 ^ width)
      rw [pad, pad, List.cons_append, List.cons_append, List.cons_lt_cons_iff,
        digitChar_lt_iff hm' hn', digitChar_inj hm' hn', ih hmr hnr]
      -- the first digits decide, unless they are the same
      rcases lt_trichotomy (m / 10 ^ width) (n / 10 ^ width) with hlt | heq | hgt
      · have hless : m < n := Nat.lt_of_div_lt_div hlt
        exact iff_of_true (.inl hlt) (.inl hless)
      · rw [heq] at hmsum ⊢
        have hless : m < n ↔ m % 10 ^ width < n % 10 ^ width := by omega
        have hsame : m = n ↔ m % 10 ^ width = n % 10 ^ width := by omega
        rw [hless, hsame]
        simp
      · have hless : n < m := Nat.lt_of_div_lt_div hgt
        refine iff_of_false ?_ ?_
        · rintro (h | ⟨h, -⟩) <;> omega
        · rintro (h | ⟨h, -⟩) <;> omega

/-! ## Fractions -/

/-- The digits after the point, as a part of a second. -/
def fractionValue : List (Fin 10) → ℚ
  | [] => 0
  | d :: ds => (d.val + fractionValue ds) / 10

theorem fractionValue_nonneg (ds : List (Fin 10)) : 0 ≤ fractionValue ds := by
  induction ds with
  | nil => exact le_rfl
  | cons d ds ih =>
      have hd : (0 : ℚ) ≤ d.val := Nat.cast_nonneg _
      exact div_nonneg (add_nonneg hd ih) (by norm_num)

theorem fractionValue_lt_one (ds : List (Fin 10)) : fractionValue ds < 1 := by
  induction ds with
  | nil => exact zero_lt_one
  | cons d ds ih =>
      have hd : (d.val : ℚ) ≤ 9 := by exact_mod_cast Nat.le_of_lt_succ d.isLt
      rw [fractionValue]
      linarith

theorem fractionValue_eq_zero_iff {ds : List (Fin 10)} :
    fractionValue ds = 0 ↔ ∀ d ∈ ds, d = 0 := by
  induction ds with
  | nil => simp [fractionValue]
  | cons d ds ih =>
      have hrest := fractionValue_nonneg ds
      have hd : (0 : ℚ) ≤ d.val := Nat.cast_nonneg _
      rw [fractionValue, List.forall_mem_cons, ← ih]
      constructor
      · intro h
        have hzero : (d.val : ℚ) = 0 := by linarith
        exact ⟨Fin.ext (Nat.cast_eq_zero.mp hzero), by linarith⟩
      · rintro ⟨rfl, h⟩
        rw [h]
        norm_num

/-- The order of two fractions with the same start. -/
theorem fractionValue_cons_lt_iff {d e : Fin 10} {ds es : List (Fin 10)} :
    fractionValue (d :: ds) < fractionValue (e :: es) ↔
      d < e ∨ d = e ∧ fractionValue ds < fractionValue es := by
  have hds := fractionValue_nonneg ds
  have hes := fractionValue_nonneg es
  have hds' := fractionValue_lt_one ds
  have hes' := fractionValue_lt_one es
  rw [fractionValue, fractionValue]
  rcases lt_trichotomy d e with hlt | rfl | hgt
  · have hstep : (d.val : ℚ) + 1 ≤ e.val := by exact_mod_cast hlt
    exact iff_of_true (by linarith) (.inl hlt)
  · simp only [lt_self_iff_false, true_and, false_or]
    constructor <;> intro h <;> linarith
  · have hstep : (e.val : ℚ) + 1 ≤ d.val := by exact_mod_cast hgt
    refine iff_of_false (by linarith) ?_
    rintro (h | ⟨rfl, -⟩)
    · exact lt_asymm h hgt
    · exact lt_irrefl d hgt

/-- The point and the digits, or nothing. -/
def fractionChars : List (Fin 10) → List Char
  | [] => []
  | d :: ds => '.' :: (d :: ds).map fun digit => Nat.digitChar digit.val

/-- The order of the texts of two fractions: the end is greater than any digit. -/
def TextLess : List (Fin 10) → List (Fin 10) → Prop
  | [], _ => False
  | _ :: _, [] => True
  | d :: ds, e :: es => d < e ∨ d = e ∧ TextLess ds es

theorem digits_lt_iff (ds es : List (Fin 10)) :
    (ds.map fun digit => Nat.digitChar digit.val) ++ ['Z'] <
        (es.map fun digit => Nat.digitChar digit.val) ++ ['Z'] ↔ TextLess ds es := by
  -- `Z` is greater than every digit, so the longer text is the smaller one
  have hend : ∀ d : Fin 10, Nat.digitChar d.val < 'Z' ∧ ¬ 'Z' < Nat.digitChar d.val ∧
      'Z' ≠ Nat.digitChar d.val := by decide
  induction ds generalizing es with
  | nil =>
      cases es with
      | nil => simp [TextLess]
      | cons e es =>
          obtain ⟨-, hnot, hne⟩ := hend e
          simp [TextLess, List.cons_lt_cons_iff, hnot, hne]
  | cons d ds ih =>
      cases es with
      | nil => simp [TextLess, List.cons_lt_cons_iff, (hend d).1]
      | cons e es =>
          rw [List.map_cons, List.map_cons, List.cons_append, List.cons_append,
            List.cons_lt_cons_iff, digitChar_lt_iff d.isLt e.isLt, digitChar_inj d.isLt e.isLt]
          exact or_congr_right (and_congr Fin.ext_iff.symm (ih es))

theorem fractionChars_lt_iff (ds es : List (Fin 10)) :
    fractionChars ds ++ ['Z'] < fractionChars es ++ ['Z'] ↔ TextLess ds es := by
  cases ds with
  | nil =>
      cases es with
      | nil => simp [fractionChars, TextLess]
      | cons e es =>
          -- a whole second comes after every fraction of it
          have hnot : ¬ 'Z' < '.' := by decide
          simp [fractionChars, TextLess, List.cons_lt_cons_iff, hnot]
  | cons d ds =>
      cases es with
      | nil =>
          have hpoint : '.' < 'Z' := by decide
          simp [fractionChars, TextLess, List.cons_lt_cons_iff, hpoint]
      | cons e es =>
          rw [← digits_lt_iff, fractionChars, fractionChars, List.cons_append, List.cons_append,
            List.cons_lt_cons_iff]
          simp

/-- Neither fraction continues the other, but for zeros at the end of the second. -/
def Aligned (ds es : List (Fin 10)) : Prop :=
  (es <+: ds → ds = es) ∧ (ds <+: es → ∀ e ∈ es.drop ds.length, e = 0)

instance (ds es : List (Fin 10)) : Decidable (Aligned ds es) := by
  unfold Aligned
  infer_instance

/-- **The orders of fractions.**  As texts and as numbers, two fractions are in
the same order exactly if they are aligned. -/
theorem textLess_iff_lt_iff (ds es : List (Fin 10)) :
    (TextLess ds es ↔ fractionValue ds < fractionValue es) ↔ Aligned ds es := by
  induction ds generalizing es with
  | nil =>
      have hes := fractionValue_nonneg es
      -- an empty fraction is less than one with a digit that is not zero
      have hzero : (∀ e ∈ es, e = 0) ↔ ¬0 < fractionValue es := by
        rw [← fractionValue_eq_zero_iff, not_lt]
        exact ⟨le_of_eq, fun h => le_antisymm h hes⟩
      cases es with
      | nil => simp [TextLess, Aligned]
      | cons e es => simpa [TextLess, Aligned, fractionValue] using hzero.symm
  | cons d ds ih =>
      cases es with
      | nil =>
          have hds := fractionValue_nonneg (d :: ds)
          simp [TextLess, Aligned, fractionValue] at *
          linarith
      | cons e es =>
          rw [fractionValue_cons_lt_iff, TextLess]
          by_cases heq : d = e
          · subst heq
            simpa [Aligned, List.cons_prefix_cons] using ih es
          · refine iff_of_true ?_ ?_
            · simp [heq]
            · simp [Aligned, List.cons_prefix_cons, heq, Ne.symm heq]

/-! ## Days and seconds -/

/-- The days of the years from 0 up to a year. -/
def daysOfYears (year : ℕ) : ℕ :=
  year * 365 + ((year + 3) / 4 - (year + 99) / 100 + (year + 399) / 400)

theorem daysOfYears_succ (year : ℕ) :
    daysOfYears (year + 1) = daysOfYears year + 365 + (isLeap year).toNat := by
  -- a quotient steps up after each multiple
  have h4 : (year + 1 + 3) / 4 = (year + 3) / 4 + if year % 4 = 0 then 1 else 0 := by
    split <;> omega
  have h100 : (year + 1 + 99) / 100 = (year + 99) / 100 + if year % 100 = 0 then 1 else 0 := by
    split <;> omega
  have h400 : (year + 1 + 399) / 400 = (year + 399) / 400 + if year % 400 = 0 then 1 else 0 := by
    split <;> omega
  have hleap : (isLeap year).toNat + (if year % 100 = 0 then 1 else 0) =
      (if year % 4 = 0 then 1 else 0) + if year % 400 = 0 then 1 else 0 := by
    have himp : (year % 400 = 0 → year % 100 = 0) ∧ (year % 100 = 0 → year % 4 = 0) := by omega
    unfold isLeap
    by_cases hyear4 : year % 4 = 0 <;> by_cases hyear100 : year % 100 = 0 <;>
      by_cases hyear400 : year % 400 = 0 <;> simp_all
  have hle : (year + 99) / 100 ≤ (year + 3) / 4 := by omega
  have hle' : (year + 1 + 99) / 100 ≤ (year + 1 + 3) / 4 := by omega
  rw [h4, h100] at hle'
  rw [daysOfYears, daysOfYears, h4, h100, h400]
  omega

theorem daysOfYears_lt {year year' : ℕ} (h : year < year') :
    daysOfYears year + 365 + (isLeap year).toNat ≤ daysOfYears year' := by
  rw [← daysOfYears_succ]
  refine monotone_nat_of_le_succ (fun n => ?_) h
  rw [daysOfYears_succ]
  omega

/-- `date.toordinal` counts from the year 1. -/
theorem daysOfYears_eq {year : ℕ} (h : 1 ≤ year) :
    daysOfYears year = daysBeforeYear year + 366 := by
  rw [daysOfYears, daysBeforeYear]
  omega

/-- A month ends before the next one starts. -/
theorem daysBeforeMonth_lt (leap : Bool) {month month' : ℕ} (hlow : 1 ≤ month) (h : month < month')
    (hhigh : month' ≤ 12) :
    daysBeforeMonth leap month + daysInMonth leap month ≤ daysBeforeMonth leap month' := by
  have hall : ∀ leap : Bool, ∀ month' < 13, ∀ month < month', 1 ≤ month →
      daysBeforeMonth leap month + daysInMonth leap month ≤ daysBeforeMonth leap month' := by
    decide
  exact hall leap month' (by omega) month h hlow

theorem daysBeforeMonth_add_le (leap : Bool) {month : ℕ} (hlow : 1 ≤ month) (hhigh : month ≤ 12) :
    daysBeforeMonth leap month + daysInMonth leap month ≤ 365 + leap.toNat := by
  have hall : ∀ leap : Bool, ∀ month < 13, 1 ≤ month →
      daysBeforeMonth leap month + daysInMonth leap month ≤ 365 + leap.toNat := by
    decide
  exact hall leap month (by omega) hlow

/-! ## Timestamps -/

/-- A valid UTC timestamp; `fraction` is empty when the text has none. -/
structure Timestamp where
  year : ℕ
  month : ℕ
  day : ℕ
  hour : ℕ
  minute : ℕ
  second : ℕ
  fraction : List (Fin 10)
  yearValid : year ≤ 9999
  monthValid : 1 ≤ month ∧ month ≤ 12
  dayValid : 1 ≤ day ∧ day ≤ daysInMonth (isLeap year) month
  timeValid : hour ≤ 23 ∧ minute ≤ 59 ∧ second ≤ 59

namespace Timestamp

/-- The text of a timestamp. -/
def chars (t : Timestamp) : List Char :=
  pad 4 t.year ++ '-' :: (pad 2 t.month ++ '-' :: (pad 2 t.day ++ 'T' :: (pad 2 t.hour ++
    ':' :: (pad 2 t.minute ++ ':' :: (pad 2 t.second ++ (fractionChars t.fraction ++ ['Z']))))))

/-- `YYYY-MM-DDTHH:MM:SS`, the fraction, and `Z`. -/
def text (t : Timestamp) : String := String.ofList t.chars

/-- The six numbers in front of the fraction. -/
def fields (t : Timestamp) : List ℕ :=
  [t.year, t.month, t.day, t.hour, t.minute, t.second]

/-- The day of a timestamp, counted on through the years. -/
def days (t : Timestamp) : ℕ :=
  daysOfYears t.year + daysBeforeMonth (isLeap t.year) t.month + t.day

/-- Whole seconds since the last midnight of the year before 0. -/
def seconds (t : Timestamp) : ℕ :=
  ((t.days * 24 + t.hour) * 60 + t.minute) * 60 + t.second

/-- The instant, in seconds. -/
def instant (t : Timestamp) : ℚ :=
  t.seconds + fractionValue t.fraction

variable {t u : Timestamp}

theorem chars_lt_iff :
    t.chars < u.chars ↔
      t.fields < u.fields ∨ t.fields = u.fields ∧ TextLess t.fraction u.fraction := by
  obtain ⟨htday, htday'⟩ := t.dayValid
  obtain ⟨huday, huday'⟩ := u.dayValid
  -- every field fits into its width, so its digits are in the order of its number
  have hday : ∀ leap month, daysInMonth leap month ≤ 32 := by
    intro leap month
    unfold daysInMonth daysInMonthTable
    split <;> split <;> omega
  have ht := hday (isLeap t.year) t.month
  have hu := hday (isLeap u.year) u.month
  have := t.yearValid
  have := t.monthValid
  have := t.timeValid
  have := u.yearValid
  have := u.monthValid
  have := u.timeValid
  rw [chars, chars, pad_append_lt_iff (by omega) (by omega), List.cons_lt_cons_self,
    pad_append_lt_iff (by omega) (by omega), List.cons_lt_cons_self,
    pad_append_lt_iff (by omega) (by omega), List.cons_lt_cons_self,
    pad_append_lt_iff (by omega) (by omega), List.cons_lt_cons_self,
    pad_append_lt_iff (by omega) (by omega), List.cons_lt_cons_self,
    pad_append_lt_iff (by omega) (by omega), fractionChars_lt_iff]
  simp only [fields, List.cons_lt_cons_iff, List.cons.injEq, and_true, List.not_lt_nil, and_false,
    or_false, and_or_left, or_assoc, and_assoc]

theorem seconds_congr (h : t.fields = u.fields) : t.seconds = u.seconds := by
  simp only [fields, List.cons.injEq, and_true] at h
  obtain ⟨hyear, hmonth, hday, hhour, hminute, hsecond⟩ := h
  rw [seconds, seconds, days, days, hyear, hmonth, hday, hhour, hminute, hsecond]

/-- An earlier date has a smaller number of days. -/
theorem days_lt (h : t.year < u.year ∨ t.year = u.year ∧ (t.month < u.month ∨
    t.month = u.month ∧ t.day < u.day)) : t.days < u.days := by
  obtain ⟨hlow, hhigh⟩ := t.monthValid
  obtain ⟨htday, htday'⟩ := t.dayValid
  obtain ⟨huday, -⟩ := u.dayValid
  rw [days, days]
  rcases h with hyear | ⟨hyear, hmonth | ⟨hmonth, hday⟩⟩
  · have hyears := daysOfYears_lt hyear
    have hmonths := daysBeforeMonth_add_le (isLeap t.year) hlow hhigh
    omega
  · have hmonths := daysBeforeMonth_lt (isLeap t.year) hlow hmonth u.monthValid.2
    rw [← hyear]
    omega
  · rw [← hyear, ← hmonth]
    omega

theorem seconds_lt_of_fields_lt (h : t.fields < u.fields) : t.seconds < u.seconds := by
  have ht := t.timeValid
  have hu := u.timeValid
  simp only [fields, List.cons_lt_cons_iff, List.not_lt_nil, and_false, or_false] at h
  -- the time of day is less than a day
  have hearlier : t.days < u.days → t.seconds < u.seconds := by
    intro hdays
    rw [seconds, seconds]
    omega
  rcases h with hyear | ⟨hyear, hmonth | ⟨hmonth, hday | ⟨hday, htime⟩⟩⟩
  · exact hearlier (days_lt (.inl hyear))
  · exact hearlier (days_lt (.inr ⟨hyear, .inl hmonth⟩))
  · exact hearlier (days_lt (.inr ⟨hyear, .inr ⟨hmonth, hday⟩⟩))
  · have hdays : t.days = u.days := by rw [days, days, hyear, hmonth, hday]
    rw [seconds, seconds, hdays]
    omega

/-- The whole seconds decide, unless they are the same. -/
theorem instant_lt_iff :
    t.instant < u.instant ↔ t.fields < u.fields ∨
      t.fields = u.fields ∧ fractionValue t.fraction < fractionValue u.fraction := by
  -- a fraction is less than a second
  have hless : ∀ {t u : Timestamp}, t.fields < u.fields → t.instant < u.instant := by
    intro t u h
    have hseconds : (t.seconds : ℚ) + 1 ≤ u.seconds := by
      exact_mod_cast seconds_lt_of_fields_lt h
    have ht := fractionValue_lt_one t.fraction
    have hu := fractionValue_nonneg u.fraction
    rw [instant, instant]
    linarith
  rcases lt_trichotomy t.fields u.fields with hlt | heq | hgt
  · exact iff_of_true (hless hlt) (.inl hlt)
  · rw [instant, instant, seconds_congr heq]
    simp [heq]
  · refine iff_of_false (lt_asymm (hless hgt)) ?_
    rintro (h | ⟨h, -⟩)
    · exact lt_asymm h hgt
    · exact hgt.ne' h

/-- **The orders of timestamps.**  The texts of two timestamps are in the order
of their instants exactly if their fields differ or their fractions are
aligned. -/
theorem text_lt_iff_instant_lt_iff :
    (t.text < u.text ↔ t.instant < u.instant) ↔
      (t.fields = u.fields → Aligned t.fraction u.fraction) := by
  have htext : t.text < u.text ↔ t.chars < u.chars := by
    rw [String.lt_iff_toList_lt, text, text, String.toList_ofList, String.toList_ofList]
  rw [htext, chars_lt_iff, instant_lt_iff]
  by_cases heq : t.fields = u.fields
  · simpa [heq] using textLess_iff_lt_iff t.fraction u.fraction
  · simp [heq]

end Timestamp

end MomBot.Python
