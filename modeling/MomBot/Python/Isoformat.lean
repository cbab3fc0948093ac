import Mathlib.Tactic.Ring
import MomBot.Python.Decimal
import MomBot.Python.Months

/-!
# `date.fromisoformat`

The parser of the interpreter reads more than `YYYY-MM-DD`.  The length of the text in
UTF-8 is checked first, it has to be 7, 8 or 10.  Then four digits of the year are read,
and what follows decides between

* `MM` and `DD`,
* `W`, a week, and a day of the week, which may be missing.

A `-` after the year asks for a `-` before the last part too.  The parser stops after the
day, so that two more bytes go unnoticed where the digits end after eight
(`OtherDateText`).
-/

namespace MomBot.Python

/-! ## Digits of fixed width -/

/-- `parse_digits`: the value of the next ASCII digits, and what follows them. -/
def parseDigits : ℕ → ℕ → List Char → Option (ℕ × List Char)
  | 0, value, cs => some (value, cs)
  | _ + 1, _, [] => none
  | width + 1, value, c :: cs =>
      if c.isDigit then parseDigits width (10 * value + (c.toNat - 48)) cs else none

/-- One more digit in front. -/
theorem pad_mul_add {width d m : ℕ} (hm : m < 10 ^ width) :
    pad (width + 1) (d * 10 ^ width + m) = Nat.digitChar d :: pad width m := by
  have hpow : 0 < 10 ^ width := by positivity
  have hdiv : (d * 10 ^ width + m) / 10 ^ width = d := by
    rw [Nat.add_comm, Nat.add_mul_div_right _ _ hpow, Nat.div_eq_of_lt hm, Nat.zero_add]
  have hmod : (d * 10 ^ width + m) % 10 ^ width = m := by
    rw [Nat.add_comm, Nat.add_mul_mod_self_right, Nat.mod_eq_of_lt hm]
  rw [pad, hdiv, hmod]

theorem isDigit_of_mem_pad {width n : ℕ} (hn : n < 10 ^ width) {c : Char} (hc : c ∈ pad width n) :
    c.isDigit = true := by
  induction width generalizing n with
  | zero => cases hc
  | succ width ih =>
      rcases List.mem_cons.mp hc with rfl | hc
      · have hd : n / 10 ^ width < 10 := Nat.div_lt_of_lt_mul (by rwa [← pow_succ])
        simpa [Nat.isDigit_digitChar] using hd
      · exact ih (Nat.mod_lt _ (by omega)) hc

theorem lt_of_digit {width d m : ℕ} (hd : d < 10) (hm : m < 10 ^ width) :
    d * 10 ^ width + m < 10 ^ (width + 1) := by
  calc d * 10 ^ width + m < d * 10 ^ width + 10 ^ width := by omega
    _ = (d + 1) * 10 ^ width := by ring
    _ ≤ 10 * 10 ^ width := Nat.mul_le_mul_right _ hd
    _ = 10 ^ (width + 1) := by ring

theorem parseDigits_eq_some_iff {width value n : ℕ} {cs rest : List Char} :
    parseDigits width value cs = some (n, rest) ↔
      ∃ m < 10 ^ width, n = value * 10 ^ width + m ∧ cs = pad width m ++ rest := by
  induction width generalizing value cs with
  | zero =>
      simp only [parseDigits, Option.some_inj, Prod.mk.injEq, pow_zero, Nat.lt_one_iff, pad,
        List.nil_append, exists_eq_left, mul_one, add_zero]
      exact and_congr_left fun _ => eq_comm
  | succ width ih =>
      constructor
      · intro h
        cases cs with
        | nil => simp [parseDigits] at h
        | cons c cs =>
            rw [parseDigits] at h
            split at h
            next hc =>
              obtain ⟨m, hm, hn, rfl⟩ := ih.mp h
              have hd : c.toNat - 48 < 10 := by
                have := toNat_of_isDigit hc
                omega
              refine ⟨(c.toNat - 48) * 10 ^ width + m, lt_of_digit hd hm, ?_, ?_⟩
              · rw [hn]
                ring
              · rw [pad_mul_add hm, digitChar_toNat_sub hc, List.cons_append]
            next => cases h
      · rintro ⟨m, hm, hn, rfl⟩
        have hpow : 0 < 10 ^ width := by positivity
        have hd : m / 10 ^ width < 10 := Nat.div_lt_of_lt_mul (by rwa [← pow_succ])
        rw [pad, List.cons_append, parseDigits, if_pos (by simpa [Nat.isDigit_digitChar] using hd),
          Nat.toNat_digitChar_sub_48_of_lt_ten hd, ih]
        refine ⟨m % 10 ^ width, Nat.mod_lt _ hpow, ?_, rfl⟩
        have hsum := Nat.div_add_mod m (10 ^ width)
        calc n = value * 10 ^ (width + 1) + (10 ^ width * (m / 10 ^ width) + m % 10 ^ width) := by
                rw [hsum, hn]
          _ = (10 * value + m / 10 ^ width) * 10 ^ width + m % 10 ^ width := by ring

/-- The digits at the front, read from zero. -/
theorem parseDigits_zero_eq_some_iff {width n : ℕ} {cs rest : List Char} :
    parseDigits width 0 cs = some (n, rest) ↔ n < 10 ^ width ∧ cs = pad width n ++ rest := by
  rw [parseDigits_eq_some_iff]
  constructor
  · rintro ⟨m, hm, rfl, rfl⟩
    simpa using hm
  · rintro ⟨hn, rfl⟩
    exact ⟨n, hn, by omega, rfl⟩

/-! ## The length in UTF-8 -/

/-- The length of a text in UTF-8. -/
def utf8Length (cs : List Char) : ℕ := (cs.map Char.utf8Size).sum

theorem utf8Length_append (cs ds : List Char) :
    utf8Length (cs ++ ds) = utf8Length cs + utf8Length ds := by
  rw [utf8Length, List.map_append, List.sum_append]
  rfl

theorem utf8Length_cons (c : Char) (cs : List Char) :
    utf8Length (c :: cs) = c.utf8Size + utf8Length cs :=
  utf8Length_append [c] cs

theorem utf8Length_eq_zero {cs : List Char} (h : utf8Length cs = 0) : cs = [] := by
  cases cs with
  | nil => rfl
  | cons c cs =>
      have := c.utf8Size_pos
      rw [utf8Length_cons] at h
      omega

theorem length_pad (width n : ℕ) : (pad width n).length = width := by
  induction width generalizing n with
  | zero => rfl
  | succ width ih => rw [pad, List.length_cons, ih]

theorem utf8Length_pad {width n : ℕ} (hn : n < 10 ^ width) : utf8Length (pad width n) = width := by
  induction width generalizing n with
  | zero => rfl
  | succ width ih =>
      have hall : ∀ d < 10, (Nat.digitChar d).utf8Size = 1 := by decide
      have hd : n / 10 ^ width < 10 := Nat.div_lt_of_lt_mul (by rwa [← pow_succ])
      rw [pad, utf8Length_cons, hall _ hd, ih (Nat.mod_lt _ (by positivity)), Nat.add_comm]

/-! ## Days of the week calendar -/

/-- The weekday of January 1st, with Monday as 0. -/
def firstWeekday (year : ℕ) : ℕ := (ymdToOrdinal year 1 1 + 6) % 7

/-- Years that have a week 53. -/
def isLongYear (year : ℕ) : Bool :=
  firstWeekday year = 3 ∨ firstWeekday year = 2 ∧ isLeap year

/-- The ISO weeks of a year. -/
def weeksInYear (year : ℕ) : ℕ := if isLongYear year then 53 else 52

/-- `iso_week1_monday`. -/
def isoWeek1Monday (year : ℕ) : ℕ :=
  let monday := ymdToOrdinal year 1 1 - firstWeekday year
  -- a week belongs to the year of its Thursday
  if 3 < firstWeekday year then monday + 7 else monday

/-- `iso_to_ymd` and the constructor after it; `none` is `ValueError`. -/
def isoToDate (year week day : ℕ) : Option Date :=
  if year < 1 ∨ 9999 < year then none
  else if (week = 0 ∨ 53 ≤ week) ∧ ¬ (week = 53 ∧ isLongYear year) then none
  else if day = 0 ∨ 8 ≤ day then none
  else Date.ofOrdinal ((isoWeek1Monday year + ((week - 1) * 7 + day - 1) : ℕ) : ℤ)

/-- A day of the week calendar.  The last day of the Gregorian calendar is the Friday of
week 52 of 9999. -/
def IsIsoDay (year week day : ℕ) : Prop :=
  1 ≤ year ∧ year ≤ 9999 ∧ 1 ≤ week ∧ week ≤ weeksInYear year ∧ 1 ≤ day ∧ day ≤ 7 ∧
    (year = 9999 → week = 52 → day ≤ 5)

theorem isoWeek1Monday_bounds {year : ℕ} (h : 1 ≤ year) :
    1 ≤ isoWeek1Monday year ∧ isoWeek1Monday year ≤ daysBeforeYear year + 4 := by
  have hfirst : ymdToOrdinal year 1 1 = daysBeforeYear year + 1 := by
    have hjanuary : ∀ leap : Bool, daysBeforeMonth leap 1 = 0 := by decide
    rw [ymdToOrdinal, hjanuary]
  simp only [isoWeek1Monday, firstWeekday, hfirst]
  have hlow : year = 1 ∨ 365 ≤ daysBeforeYear year := by
    have hcenturies : (year - 1) / 100 ≤ (year - 1) / 4 := by omega
    rw [daysBeforeYear]
    omega
  rcases hlow with rfl | hlow
  · decide
  · split <;> omega

theorem week_out_of_range_iff {year week : ℕ} :
    (week = 0 ∨ 53 ≤ week) ∧ ¬ (week = 53 ∧ isLongYear year) ↔
      ¬ (1 ≤ week ∧ week ≤ weeksInYear year) := by
  rw [weeksInYear]
  cases isLongYear year
  · simp only [Bool.false_eq_true, and_false, not_false_iff, and_true, if_false]
    omega
  · simp only [and_true, if_true]
    omega

/-- Only the last two days of the week calendar of 9999 have no date. -/
theorem isoOrdinal_le_iff {year week day : ℕ} (hyear : 1 ≤ year ∧ year ≤ 9999)
    (hweek : 1 ≤ week ∧ week ≤ weeksInYear year) (hday : 1 ≤ day ∧ day ≤ 7) :
    isoWeek1Monday year + ((week - 1) * 7 + day - 1) ≤ maxOrdinal ↔
      (year = 9999 → week = 52 → day ≤ 5) := by
  have hmonday := isoWeek1Monday_bounds hyear.1
  rw [maxOrdinal]
  by_cases hlast : year = 9999
  · subst hlast
    have hfirst : isoWeek1Monday 9999 = 3651698 := by decide
    have hweeks : weeksInYear 9999 = 52 := by decide
    omega
  · have hweeks : weeksInYear year ≤ 53 := by
      rw [weeksInYear]
      split <;> omega
    have hyears : daysBeforeYear year ≤ 3651404 := by
      have hcenturies : (year - 1) / 100 ≤ (year - 1) / 4 := by omega
      have hcycles : (year - 1) / 400 ≤ (year - 1) / 100 := by omega
      rw [daysBeforeYear]
      omega
    exact iff_of_true (by omega) fun h => absurd h hlast

theorem isSome_isoToDate_iff {year week day : ℕ} :
    (isoToDate year week day).isSome = true ↔ IsIsoDay year week day := by
  unfold isoToDate IsIsoDay
  by_cases hyear : year < 1 ∨ 9999 < year
  · rw [if_pos hyear]
    exact iff_of_false (by simp) (by omega)
  rw [if_neg hyear]
  by_cases hweek : ¬ (1 ≤ week ∧ week ≤ weeksInYear year)
  · rw [if_pos (week_out_of_range_iff.mpr hweek)]
    exact iff_of_false (by simp) (by omega)
  rw [if_neg (mt week_out_of_range_iff.mp hweek)]
  by_cases hday : day = 0 ∨ 8 ≤ day
  · rw [if_pos hday]
    exact iff_of_false (by simp) (by omega)
  rw [if_neg hday]
  have hordinal := isoOrdinal_le_iff (by omega : 1 ≤ year ∧ year ≤ 9999) (not_not.mp hweek)
    (by omega : 1 ≤ day ∧ day ≤ 7)
  have hmonday := isoWeek1Monday_bounds (by omega : 1 ≤ year)
  simp only [Date.ofOrdinal, Int.toNat_natCast]
  split
  next hrange => exact iff_of_true rfl (by omega)
  next hrange => exact iff_of_false (by simp) (by omega)

/-! ## The parser -/

/-- A `-` where the text has had one after the year. -/
def skipSeparator (usesSeparator : Bool) (cs : List Char) : Option (List Char) :=
  if usesSeparator then
    if cs.head? = some '-' then some cs.tail else none
  else some cs

/-- What follows the `W`.  A text that ends after the week means its Monday. -/
def parseIsoWeek (usesSeparator : Bool) (year : ℕ) (cs : List Char) : Option Date := do
  let (week, cs) ← parseDigits 2 0 cs
  if cs = [] then isoToDate year week 1
  else
    let cs ← skipSeparator usesSeparator cs
    let (day, _) ← parseDigits 1 0 cs
    isoToDate year week day

/-- The month and the day behind a year. -/
def parseMonthDay (usesSeparator : Bool) (year : ℕ) (cs : List Char) : Option Date := do
  let (month, cs) ← parseDigits 2 0 cs
  let cs ← skipSeparator usesSeparator cs
  let (day, _) ← parseDigits 2 0 cs
  Date.ofYmd year month day

/-- `parse_isoformat_date`. -/
def parseIsoformatDate (cs : List Char) : Option Date := do
  let (year, cs) ← parseDigits 4 0 cs
  let usesSeparator := cs.head? = some '-'
  let cs := if usesSeparator then cs.tail else cs
  if cs.head? = some 'W' then parseIsoWeek usesSeparator year cs.tail
  else parseMonthDay usesSeparator year cs

/-- `date.fromisoformat(s)`; `none` is `ValueError`. -/
def fromisoformat (s : String) : Option Date :=
  if utf8Length s.toList ∈ [7, 8, 10] then parseIsoformatDate s.toList else none

/-- `d.isoformat()`. -/
def Date.isoformat (d : Date) : List Char :=
  pad 4 d.year ++ '-' :: pad 2 d.month ++ '-' :: pad 2 d.day

theorem length_isoformat (d : Date) : d.isoformat.length = 10 := by
  simp [Date.isoformat, length_pad]

example : fromisoformat "2027-06-01" = Date.ofYmd 2027 6 1 ∧
    fromisoformat "2027W226" = Date.ofYmd 2027 6 5 ∧
    fromisoformat "20270601é" = Date.ofYmd 2027 6 1 ∧
    fromisoformat "2027-6-1" = none := by
  decide

/-! ## What each part reads -/

/-- The separator of the date, if it has one. -/
def separatorChars (usesSeparator : Bool) : List Char := if usesSeparator then ['-'] else []

theorem skipSeparator_eq_some_iff {usesSeparator : Bool} {cs rest : List Char} :
    skipSeparator usesSeparator cs = some rest ↔ cs = separatorChars usesSeparator ++ rest := by
  unfold skipSeparator separatorChars
  cases usesSeparator with
  | false => simp
  | true =>
      cases cs with
      | nil => simp
      | cons c cs =>
          by_cases hc : c = '-'
          · simp [hc]
          · simp [hc]

theorem parseMonthDay_eq_some_iff {usesSeparator : Bool} {year : ℕ} {cs : List Char} {d : Date} :
    parseMonthDay usesSeparator year cs = some d ↔ d.year = year ∧ ∃ tail,
      cs = pad 2 d.month ++ (separatorChars usesSeparator ++ (pad 2 d.day ++ tail)) := by
  simp only [parseMonthDay, Option.bind_eq_bind, Option.bind_eq_some_iff, Prod.exists,
    parseDigits_zero_eq_some_iff, skipSeparator_eq_some_iff, Date.ofYmd_eq_some_iff]
  constructor
  · rintro ⟨month, cs, ⟨-, rfl⟩, cs, rfl, day, tail, ⟨-, rfl⟩, hyear, rfl, rfl⟩
    exact ⟨hyear, tail, rfl⟩
  · rintro ⟨hyear, tail, rfl⟩
    obtain ⟨-, -, -, hmonth, -, hday⟩ := d.isDay
    have hlength : ∀ leap : Bool, ∀ m < 13, daysInMonth leap m ≤ 31 := by decide
    have := hlength (isLeap d.year) d.month (by omega)
    exact ⟨d.month, _, ⟨by omega, rfl⟩, _, rfl, d.day, tail, ⟨by omega, rfl⟩, hyear, rfl, rfl⟩

theorem parseIsoWeek_eq_some_iff {usesSeparator : Bool} {year : ℕ} {cs : List Char} {d : Date} :
    parseIsoWeek usesSeparator year cs = some d ↔ ∃ week < 100,
      cs = pad 2 week ∧ isoToDate year week 1 = some d ∨
      ∃ day < 10, ∃ tail, cs = pad 2 week ++ (separatorChars usesSeparator ++ (pad 1 day ++ tail)) ∧
        isoToDate year week day = some d := by
  simp only [parseIsoWeek, Option.bind_eq_bind, Option.bind_eq_some_iff, Prod.exists,
    parseDigits_zero_eq_some_iff]
  constructor
  · rintro ⟨week, rest, ⟨hweek, rfl⟩, h⟩
    refine ⟨week, hweek, ?_⟩
    split at h
    next hend =>
      subst hend
      exact .inl ⟨List.append_nil _, h⟩
    next =>
      simp only [Option.bind_eq_some_iff, Prod.exists, parseDigits_zero_eq_some_iff,
        skipSeparator_eq_some_iff] at h
      obtain ⟨_, rfl, day, tail, ⟨hday, rfl⟩, h⟩ := h
      exact .inr ⟨day, hday, tail, rfl, h⟩
  · rintro ⟨week, hweek, ⟨rfl, h⟩ | ⟨day, hday, tail, rfl, h⟩⟩
    · exact ⟨week, [], ⟨hweek, (List.append_nil _).symm⟩, by rwa [if_pos rfl]⟩
    · refine ⟨week, _, ⟨hweek, rfl⟩, ?_⟩
      rw [if_neg (by simp [pad])]
      simp only [Option.bind_eq_some_iff, Prod.exists, parseDigits_zero_eq_some_iff,
        skipSeparator_eq_some_iff]
      exact ⟨_, rfl, day, tail, ⟨hday, rfl⟩, h⟩

theorem head?_pad_append (width n : ℕ) (hn : n < 10 ^ (width + 1)) (rest : List Char) :
    ∃ c, (pad (width + 1) n ++ rest).head? = some c ∧ c.isDigit = true :=
  ⟨Nat.digitChar (n / 10 ^ width), rfl, isDigit_of_mem_pad hn List.mem_cons_self⟩

/-- A month is no sign and no `W`. -/
theorem head?_of_parseMonthDay {usesSeparator : Bool} {year : ℕ} {cs : List Char} {d : Date}
    (h : parseMonthDay usesSeparator year cs = some d) :
    cs.head? ≠ some '-' ∧ cs.head? ≠ some 'W' := by
  obtain ⟨-, tail, rfl⟩ := parseMonthDay_eq_some_iff.mp h
  obtain ⟨-, -, -, hmonth, -, -⟩ := d.isDay
  obtain ⟨c, hc, hdigit⟩ := head?_pad_append 1 d.month (by omega)
    (separatorChars usesSeparator ++ (pad 2 d.day ++ tail))
  rw [hc]
  constructor
  all_goals
    rintro heq
    rw [Option.some.inj heq] at hdigit
    simp at hdigit

/-- What the test for a separator finds, and what it leaves. -/
theorem separator_append (usesSeparator : Bool) {rest : List Char}
    (hrest : rest.head? ≠ some '-') :
    decide ((separatorChars usesSeparator ++ rest).head? = some '-') = usesSeparator ∧
      (if (separatorChars usesSeparator ++ rest).head? = some '-' then
        (separatorChars usesSeparator ++ rest).tail
      else separatorChars usesSeparator ++ rest) = rest := by
  cases usesSeparator with
  | false => exact ⟨decide_eq_false hrest, if_neg hrest⟩
  | true => exact ⟨rfl, rfl⟩

theorem exists_separator (cs : List Char) :
    ∃ usesSeparator rest, cs = separatorChars usesSeparator ++ rest ∧
      decide (cs.head? = some '-') = usesSeparator ∧
      (if cs.head? = some '-' then cs.tail else cs) = rest := by
  by_cases hhead : cs.head? = some '-'
  · obtain ⟨rest, rfl⟩ := List.head?_eq_some_iff.mp hhead
    exact ⟨true, rest, rfl, rfl, rfl⟩
  · exact ⟨false, cs, rfl, decide_eq_false hhead, if_neg hhead⟩

theorem parseIsoformatDate_eq_some_iff {cs : List Char} {d : Date} :
    parseIsoformatDate cs = some d ↔ ∃ year < 10000, ∃ usesSeparator rest,
      cs = pad 4 year ++ (separatorChars usesSeparator ++ rest) ∧
        ((∃ cs', rest = 'W' :: cs' ∧ parseIsoWeek usesSeparator year cs' = some d) ∨
          parseMonthDay usesSeparator year rest = some d) := by
  simp only [parseIsoformatDate, Option.bind_eq_bind, Option.bind_eq_some_iff, Prod.exists,
    parseDigits_zero_eq_some_iff]
  constructor
  · rintro ⟨year, cs, ⟨hyear, rfl⟩, h⟩
    obtain ⟨usesSeparator, rest, rfl, hseparator, hskip⟩ := exists_separator cs
    rw [hseparator, hskip] at h
    refine ⟨year, hyear, usesSeparator, rest, rfl, ?_⟩
    split at h
    next hhead =>
      obtain ⟨cs', rfl⟩ := List.head?_eq_some_iff.mp hhead
      exact .inl ⟨cs', rfl, h⟩
    next => exact .inr h
  · rintro ⟨year, hyear, usesSeparator, rest, rfl, hrest⟩
    refine ⟨year, _, ⟨hyear, rfl⟩, ?_⟩
    have hhead : rest.head? ≠ some '-' := by
      rcases hrest with ⟨cs', rfl, -⟩ | h
      · simp
      · exact (head?_of_parseMonthDay h).1
    obtain ⟨hseparator, hskip⟩ := separator_append usesSeparator hhead
    rw [hseparator, hskip]
    rcases hrest with ⟨cs', rfl, h⟩ | h
    · rwa [if_pos List.head?_cons]
    · rwa [if_neg (head?_of_parseMonthDay h).2]

/-! ## The accepted texts -/

/-- The texts other than `YYYY-MM-DD`. -/
inductive OtherDateText : List Char → Prop
  /-- `YYYYMMDD` -/
  | basic {year month day : ℕ} {tail : List Char} (hday : IsDay year month day)
      (htail : utf8Length tail ∈ [0, 2]) :
      OtherDateText (pad 4 year ++ (pad 2 month ++ (pad 2 day ++ tail)))
  /-- `YYYYWww` and `YYYY-Www` -/
  | monday {year week : ℕ} (usesSeparator : Bool) (hday : IsIsoDay year week 1) :
      OtherDateText (pad 4 year ++ (separatorChars usesSeparator ++ 'W' :: pad 2 week))
  /-- `YYYYWwwD` -/
  | weekday {year week day : ℕ} {tail : List Char} (hday : IsIsoDay year week day)
      (htail : utf8Length tail ∈ [0, 2]) :
      OtherDateText (pad 4 year ++ 'W' :: (pad 2 week ++ (pad 1 day ++ tail)))
  /-- `YYYY-Www-D` -/
  | separatedWeekday {year week day : ℕ} (hday : IsIsoDay year week day) :
      OtherDateText (pad 4 year ++ '-' :: 'W' :: (pad 2 week ++ '-' :: pad 1 day))

theorem utf8Length_separatorChars (usesSeparator : Bool) :
    utf8Length (separatorChars usesSeparator) = usesSeparator.toNat := by
  cases usesSeparator <;> rfl

theorem fromisoformat_eq_some_iff {s : String} {d : Date} :
    fromisoformat s = some d ↔
      utf8Length s.toList ∈ [7, 8, 10] ∧ parseIsoformatDate s.toList = some d := by
  unfold fromisoformat
  split
  next h => exact (and_iff_right h).symm
  next h => exact iff_of_false (by simp) fun h' => h h'.1

theorem Date.month_lt_hundred (d : Date) : d.month < 100 := by
  obtain ⟨-, -, -, hmonth, -, -⟩ := d.isDay
  omega

theorem Date.day_lt_hundred (d : Date) : d.day < 100 := by
  obtain ⟨-, -, -, hmonth, -, hday⟩ := d.isDay
  have hlength : ∀ leap : Bool, ∀ m < 13, daysInMonth leap m ≤ 31 := by decide
  have := hlength (isLeap d.year) d.month (by omega)
  omega

theorem utf8Length_weekday (usesSeparator : Bool) {week day : ℕ} (tail : List Char)
    (hweek : week < 100) (hday : day < 10) :
    utf8Length ('W' :: (pad 2 week ++ (separatorChars usesSeparator ++ (pad 1 day ++ tail)))) =
      4 + usesSeparator.toNat + utf8Length tail := by
  have hW : 'W'.utf8Size = 1 := by decide
  rw [utf8Length_cons, utf8Length_append, utf8Length_append, utf8Length_append,
    utf8Length_pad hweek, utf8Length_pad hday, utf8Length_separatorChars, hW]
  omega

theorem utf8Length_monthDay (usesSeparator : Bool) (d : Date) (tail : List Char) :
    utf8Length (pad 2 d.month ++ (separatorChars usesSeparator ++ (pad 2 d.day ++ tail))) =
      4 + usesSeparator.toNat + utf8Length tail := by
  rw [utf8Length_append, utf8Length_append, utf8Length_append, utf8Length_pad d.month_lt_hundred,
    utf8Length_pad d.day_lt_hundred, utf8Length_separatorChars]
  omega

/-- What the length leaves for the bytes after the day. -/
theorem tail_of_length (usesSeparator : Bool) (tail : List Char)
    (h : 8 + 2 * usesSeparator.toNat + utf8Length tail ∈ [7, 8, 10]) :
    if usesSeparator then tail = [] else utf8Length tail ∈ [0, 2] := by
  simp only [List.mem_cons, List.not_mem_nil, or_false] at h ⊢
  cases usesSeparator with
  | false => exact (show utf8Length tail = 0 ∨ utf8Length tail = 2 by simp at h; omega)
  | true => exact utf8Length_eq_zero (by simp at h; omega)

/-- What the parser accepts is of one of the shapes. -/
theorem text_of_fromisoformat {s : String} {d : Date} (h : fromisoformat s = some d) :
    s.toList = d.isoformat ∨ OtherDateText s.toList := by
  obtain ⟨hlength, h⟩ := fromisoformat_eq_some_iff.mp h
  obtain ⟨year, hyear, usesSeparator, rest, hs, hrest⟩ := parseIsoformatDate_eq_some_iff.mp h
  rw [hs] at hlength ⊢
  rw [utf8Length_append, utf8Length_pad hyear, utf8Length_append, utf8Length_separatorChars]
    at hlength
  rcases hrest with ⟨cs, rfl, hread⟩ | hmonth
  · obtain ⟨week, hweek, ⟨rfl, hd⟩ | ⟨day, hday, tail, rfl, hd⟩⟩ :=
      parseIsoWeek_eq_some_iff.mp hread
    · exact .inr (.monday usesSeparator (isSome_isoToDate_iff.mp (Option.isSome_of_eq_some hd)))
    · have hiso := isSome_isoToDate_iff.mp (Option.isSome_of_eq_some hd)
      rw [utf8Length_weekday _ _ hweek hday] at hlength
      have htail := tail_of_length usesSeparator tail
        (by convert hlength using 1; ring)
      cases usesSeparator with
      | false => exact .inr (.weekday hiso htail)
      | true =>
          obtain rfl : tail = [] := htail
          rw [List.append_nil]
          exact .inr (.separatedWeekday hiso)
  · obtain ⟨rfl, tail, rfl⟩ := parseMonthDay_eq_some_iff.mp hmonth
    rw [utf8Length_monthDay] at hlength
    have htail := tail_of_length usesSeparator tail
      (by convert hlength using 1; ring)
    cases usesSeparator with
    | false => exact .inr (.basic d.isDay htail)
    | true =>
        obtain rfl : tail = [] := htail
        rw [List.append_nil]
        exact .inl rfl

/-- `isoformat` is read back. -/
theorem fromisoformat_of_isoformat {s : String} {d : Date} (h : s.toList = d.isoformat) :
    fromisoformat s = some d := by
  have hyear : d.year < 10000 := Nat.lt_succ_of_le d.year_le
  have hmonth := utf8Length_monthDay true d []
  have hs : s.toList = pad 4 d.year ++ (separatorChars true ++
      (pad 2 d.month ++ (separatorChars true ++ (pad 2 d.day ++ [])))) := by
    rw [h, List.append_nil]
    rfl
  refine fromisoformat_eq_some_iff.mpr ⟨?_, parseIsoformatDate_eq_some_iff.mpr
    ⟨d.year, hyear, true, _, hs, .inr (parseMonthDay_eq_some_iff.mpr ⟨rfl, [], rfl⟩)⟩⟩
  rw [hs, utf8Length_append, utf8Length_append, hmonth, utf8Length_pad hyear]
  decide

theorem IsIsoDay.exists_date {year week day : ℕ} (h : IsIsoDay year week day) :
    ∃ d, year < 10000 ∧ week < 100 ∧ day < 10 ∧ isoToDate year week day = some d := by
  obtain ⟨d, hd⟩ := Option.isSome_iff_exists.mp (isSome_isoToDate_iff.mpr h)
  obtain ⟨-, hyear, -, hweek, -, hday, -⟩ := h
  have hweeks : weeksInYear year ≤ 53 := by
    rw [weeksInYear]
    split <;> omega
  exact ⟨d, by omega, by omega, by omega, hd⟩

/-- The other shapes are accepted too. -/
theorem exists_fromisoformat_of_otherDateText {s : String} (h : OtherDateText s.toList) :
    ∃ d, fromisoformat s = some d := by
  simp only [fromisoformat_eq_some_iff]
  generalize s.toList = cs at h
  cases h with
  | @basic year month day tail hday htail =>
      obtain ⟨d, rfl, rfl, rfl⟩ := hday.exists_date
      have hyear : d.year < 10000 := Nat.lt_succ_of_le d.year_le
      have hlength := utf8Length_monthDay false d tail
      refine ⟨d, ?_, parseIsoformatDate_eq_some_iff.mpr ⟨d.year, hyear, false, _, rfl,
        .inr (parseMonthDay_eq_some_iff.mpr ⟨rfl, tail, rfl⟩)⟩⟩
      rw [utf8Length_append, utf8Length_pad hyear]
      simp only [separatorChars, Bool.false_eq_true, if_false, List.nil_append] at hlength
      simp only [hlength, List.mem_cons, List.not_mem_nil, or_false, Bool.toNat_false] at htail ⊢
      omega
  | @monday year week usesSeparator hday =>
      obtain ⟨d, hyear, hweek, -, hd⟩ := hday.exists_date
      refine ⟨d, ?_, parseIsoformatDate_eq_some_iff.mpr ⟨year, hyear, usesSeparator, _, rfl,
        .inl ⟨_, rfl, parseIsoWeek_eq_some_iff.mpr ⟨week, hweek, .inl ⟨rfl, hd⟩⟩⟩⟩⟩
      rw [utf8Length_append, utf8Length_append, utf8Length_cons, utf8Length_pad hyear,
        utf8Length_pad hweek, utf8Length_separatorChars]
      cases usesSeparator <;> decide
  | @weekday year week day tail hday htail =>
      obtain ⟨d, hyear, hweek, hday, hd⟩ := hday.exists_date
      have hlength := utf8Length_weekday false tail hweek hday
      refine ⟨d, ?_, parseIsoformatDate_eq_some_iff.mpr ⟨year, hyear, false, _, rfl,
        .inl ⟨_, rfl, parseIsoWeek_eq_some_iff.mpr ⟨week, hweek, .inr ⟨day, hday, tail, rfl, hd⟩⟩⟩⟩⟩
      rw [utf8Length_append, utf8Length_pad hyear]
      simp only [separatorChars, Bool.false_eq_true, if_false, List.nil_append] at hlength
      simp only [hlength, List.mem_cons, List.not_mem_nil, or_false, Bool.toNat_false] at htail ⊢
      omega
  | @separatedWeekday year week day hday =>
      obtain ⟨d, hyear, hweek, hday, hd⟩ := hday.exists_date
      have hlength := utf8Length_weekday true [] hweek hday
      rw [List.append_nil] at hlength
      refine ⟨d, ?_, parseIsoformatDate_eq_some_iff.mpr ⟨year, hyear, true, _, rfl,
        .inl ⟨_, rfl, parseIsoWeek_eq_some_iff.mpr ⟨week, hweek, .inr ⟨day, hday, [], ?_, hd⟩⟩⟩⟩⟩
      · rw [utf8Length_append, utf8Length_pad hyear, utf8Length_cons]
        exact hlength ▸ (by decide)
      · rw [List.append_nil]
        rfl

/-- None of the other shapes has its second `-` where `YYYY-MM-DD` has it. -/
theorem OtherDateText.ne_isoformat {cs : List Char} (h : OtherDateText cs) (d : Date) :
    cs ≠ d.isoformat := by
  intro heq
  have hmonth := d.month_lt_hundred
  have hfour : cs[4]? = some '-' := by
    rw [heq]
    rfl
  have hfive : ∃ c, cs[5]? = some c ∧ c.isDigit = true := by
    rw [heq]
    exact head?_pad_append 1 _ hmonth ('-' :: pad 2 d.day)
  cases h with
  | @basic year month day tail hday htail =>
      obtain ⟨-, -, -, hmonth, -, -⟩ := hday
      obtain ⟨c, hc, hdigit⟩ := head?_pad_append 1 month (by omega)
        (pad 2 day ++ tail)
      have : some c = some '-' := hc.symm.trans hfour
      rw [Option.some.inj this] at hdigit
      simp at hdigit
  | monday usesSeparator hday =>
      cases usesSeparator with
      | false => simp [separatorChars, pad] at hfour
      | true => simp [separatorChars, pad] at hfive
  | weekday hday htail => simp [pad] at hfour
  | separatedWeekday hday => simp [pad] at hfive

end MomBot.Python
