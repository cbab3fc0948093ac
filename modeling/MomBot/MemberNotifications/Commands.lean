import MomBot.Python.Isoformat

/-!
# The parsers of the slash commands

`_parse_time` is documented to take `HH:MM` and nothing else, `_parse_date` to take
`YYYY-MM-DD`.  Both take more.

* `\d` is a digit of any script, and `$` matches before a final newline, so `٠٩:٠٠` and
  `09:00⏎` are times too (`OtherTimeText`).
* `date.fromisoformat` has shapes of its own (`OtherDateText`).

The documentation holds for exactly the texts that are of none of these shapes
(`parsers_documented_iff`).
-/

namespace MomBot.MemberNotifications

open MomBot.Python

/-! ## The parsers -/

/-- `\d` in a pattern of type `str`. -/
def isDecimal (c : Char) : Bool := (decimalValue? c).isSome

/-- `$`: at the end, or before a newline at the end. -/
def atEnd (cs : List Char) : Bool := cs = [] ∨ cs = ['\n']

/-- `_TIME_RE.match`. -/
def matchesTimeRe : List Char → Bool
  | a :: b :: ':' :: c :: d :: rest =>
      isDecimal a && isDecimal b && isDecimal c && isDecimal d && atEnd rest
  | _ => false

/-- `datetime.time(hour, minute, 0)`; `none` is `ValueError`. -/
def timeOf (hour minute : ℤ) : Option Time :=
  if h : 0 ≤ hour ∧ hour ≤ 23 ∧ 0 ≤ minute ∧ minute ≤ 59 then
    some
      { microseconds := (hour.toNat * 60 + minute.toNat) * microsecondsPerMinute
        inRange := by
          simp only [microsecondsPerDay, microsecondsPerMinute, microsecondsPerSecond]
          omega }
  else none

/-- `_parse_time`.  Both `ValueError` and `IndexError` end in `None`. -/
def parseTime (value : String) : Option Time :=
  if ¬ matchesTimeRe value.toList then none
  else do
    let parts := value.toList.splitOn ':'
    let hour ← int (String.ofList (← parts[0]?))
    let minute ← int (String.ofList (← parts[1]?))
    if hour > 23 ∨ minute > 59 then none
    else timeOf hour minute

/-- `_parse_date`. -/
def parseDate (value : String) : Option Date := fromisoformat value

example : (parseTime "09:30").map (·.microseconds) = some (570 * microsecondsPerMinute) ∧
    parseTime "٠٩:٣٠\n" = parseTime "09:30" ∧ parseTime "9:30" = none ∧
    parseTime "24:00" = none := by
  decide

/-! ## Digits of any script -/

theorem isIntSpace_of_decimal {c : Char} {v : ℕ} (h : decimalValue? c = some v) :
    isIntSpace c = false := by
  have hall : ∀ d ∈ decimalZeros, ∀ i < 10, d + i ∉ [0x09, 0x0a, 0x0b, 0x0c, 0x0d, 0x20, 0x85,
      0xa0, 0x1680, 0x2028, 0x2029, 0x202f, 0x205f, 0x3000] ∧
      ¬ (0x2000 ≤ d + i ∧ d + i ≤ 0x200a) := by
    decide +kernel
  obtain ⟨d, hfind, -⟩ := Option.map_eq_some_iff.mp h
  have hrange := List.find?_some hfind
  simp only [decide_eq_true_eq] at hrange
  obtain ⟨hlist, hspan⟩ := hall d (List.mem_of_find?_eq_some hfind) (c.toNat - d) (by omega)
  rw [Nat.add_sub_cancel' hrange.1] at hlist hspan
  rw [isIntSpace, decide_eq_false hlist, Bool.false_or, Bool.and_eq_false_iff,
    decide_eq_false_iff_not, decide_eq_false_iff_not]
  exact not_and_or.mp hspan

theorem ne_of_decimal {c d : Char} {v : ℕ} (h : decimalValue? c = some v)
    (hd : decimalValue? d = none) : c ≠ d := by
  rintro rfl
  rw [h] at hd
  cases hd

/-- `int` drops the newline that `$` lets through. -/
theorem int_twoDecimals {a b : Char} {x y : ℕ} {tail : List Char} (ha : decimalValue? a = some x)
    (hb : decimalValue? b = some y) (htail : atEnd tail = true) :
    int (String.ofList (a :: b :: tail)) = some ((10 * x + y : ℕ) : ℤ) := by
  have hsign : a ≠ '-' ∧ a ≠ '+' := ⟨ne_of_decimal ha (by decide), ne_of_decimal ha (by decide)⟩
  have hdigits : digits? [a, b] = some [x, y] := by
    have hunderscore : b ≠ '_' := ne_of_decimal hb (by decide)
    rw [digits?.eq_4 _ _ _ fun h => hunderscore h]
    simp [digits?, ha, hb]
  have hnatural : natural? [a, b] = some (10 * x + y) := by
    simp [natural?, hdigits, intMaxStrDigits]
  have hdrop : (a :: b :: tail).dropWhile isIntSpace = a :: b :: tail :=
    List.dropWhile_cons_of_neg (by simp [isIntSpace_of_decimal ha])
  have hrdrop : (a :: b :: tail).rdropWhile isIntSpace = [a, b] := by
    have hend : [a, b].rdropWhile isIntSpace = [a, b] := by
      rw [List.rdropWhile_eq_self_iff]
      simp [isIntSpace_of_decimal hb]
    simp only [atEnd, Bool.decide_or, Bool.or_eq_true, decide_eq_true_eq] at htail
    rcases htail with rfl | rfl
    · exact hend
    · rw [show [a, b, '\n'] = [a, b] ++ ['\n'] from rfl,
        List.rdropWhile_concat_pos _ _ _ (by decide), hend]
  rw [int, String.toList_ofList, hdrop, hrdrop, signed?.eq_3]
  · rw [hnatural]
    rfl
  · intro cs h
    exact hsign.1 (List.cons.inj h).1
  · intro cs h
    exact hsign.2 (List.cons.inj h).1

/-! ## What `_parse_time` accepts -/

/-- Two digits, a colon and two digits, of any script, and perhaps a newline. -/
inductive ReadsAs : List Char → ℕ → ℕ → Prop
  | mk {a b c d : Char} {w x y z : ℕ} {tail : List Char} (ha : decimalValue? a = some w)
      (hb : decimalValue? b = some x) (hc : decimalValue? c = some y)
      (hd : decimalValue? d = some z) (htail : atEnd tail = true) :
      ReadsAs (a :: b :: ':' :: c :: d :: tail) (10 * w + x) (10 * y + z)

theorem readsAs_of_matchesTimeRe {cs : List Char} (h : matchesTimeRe cs = true) :
    ∃ hour minute, ReadsAs cs hour minute := by
  unfold matchesTimeRe at h
  split at h
  next a b c d rest =>
    simp only [Bool.and_eq_true, isDecimal, Option.isSome_iff_exists] at h
    obtain ⟨⟨⟨⟨⟨w, ha⟩, x, hb⟩, y, hc⟩, z, hd⟩, htail⟩ := h
    exact ⟨_, _, .mk ha hb hc hd htail⟩
  next => cases h

theorem ReadsAs.matchesTimeRe {cs : List Char} {hour minute : ℕ} (h : ReadsAs cs hour minute) :
    matchesTimeRe cs = true := by
  cases h with
  | mk ha hb hc hd htail =>
      simp [MemberNotifications.matchesTimeRe, isDecimal, ha, hb, hc, hd, htail]

theorem ReadsAs.splitOn {cs : List Char} {hour minute : ℕ} (h : ReadsAs cs hour minute) :
    ∃ hours minutes, cs.splitOn ':' = [hours, minutes] ∧
      int (String.ofList hours) = some (hour : ℤ) ∧
      int (String.ofList minutes) = some (minute : ℤ) := by
  cases h with
  | @mk a b c d w x y z tail ha hb hc hd htail =>
      refine ⟨[a, b], c :: d :: tail, ?_, int_twoDecimals ha hb (by decide),
        int_twoDecimals hc hd htail⟩
      have hcolon : decimalValue? ':' = none := by decide
      have hjoin :
          [':'].intercalate [[a, b], c :: d :: tail] = a :: b :: ':' :: c :: d :: tail := by
        simp [List.intercalate]
      rw [← hjoin]
      refine List.splitOn_intercalate ':' ?_ (by simp)
      intro part hpart hmem
      simp only [List.mem_cons, List.not_mem_nil, or_false] at hpart
      rcases hpart with rfl | rfl
      · simp only [List.mem_cons, List.not_mem_nil, or_false] at hmem
        rcases hmem with h | h
        · exact ne_of_decimal ha hcolon h.symm
        · exact ne_of_decimal hb hcolon h.symm
      · simp only [List.mem_cons] at hmem
        rcases hmem with h | h | h
        · exact ne_of_decimal hc hcolon h.symm
        · exact ne_of_decimal hd hcolon h.symm
        · simp only [atEnd, Bool.decide_or, Bool.or_eq_true, decide_eq_true_eq] at htail
          rcases htail with rfl | rfl <;> simp at h

theorem ReadsAs.unique {cs : List Char} {hour minute hour' minute' : ℕ}
    (h : ReadsAs cs hour minute) (h' : ReadsAs cs hour' minute') :
    hour = hour' ∧ minute = minute' := by
  obtain ⟨hours, minutes, hparts, hhours, hminutes⟩ := h.splitOn
  obtain ⟨hours', minutes', hparts', hhours', hminutes'⟩ := h'.splitOn
  rw [hparts'] at hparts
  simp only [List.cons.injEq, and_true] at hparts
  obtain ⟨rfl, rfl⟩ := hparts
  rw [hhours] at hhours'
  rw [hminutes] at hminutes'
  simp only [Option.some.injEq] at hhours' hminutes'
  omega

theorem timeOf_eq_some_iff {hour minute : ℕ} {t : Time} :
    timeOf hour minute = some t ↔ hour ≤ 23 ∧ minute ≤ 59 ∧
      t.microseconds = (hour * 60 + minute) * microsecondsPerMinute := by
  unfold timeOf
  split
  next h =>
    rw [Option.some_inj]
    constructor
    · rintro rfl
      exact ⟨by omega, by omega, rfl⟩
    · rintro ⟨-, -, ht⟩
      cases t
      simp only [Time.mk.injEq]
      exact ht.symm
  next h => exact iff_of_false (by simp) (by omega)

theorem parseTime_eq_some_iff {value : String} {t : Time} :
    parseTime value = some t ↔ ∃ hour ≤ 23, ∃ minute ≤ 59, ReadsAs value.toList hour minute ∧
      t.microseconds = (hour * 60 + minute) * microsecondsPerMinute := by
  unfold parseTime
  by_cases hmatch : matchesTimeRe value.toList = true
  · obtain ⟨hour, minute, hreads⟩ := readsAs_of_matchesTimeRe hmatch
    obtain ⟨hours, minutes, hparts, hhours, hminutes⟩ := hreads.splitOn
    have hparse :
        (if (hour : ℤ) > 23 ∨ (minute : ℤ) > 59 then none else timeOf hour minute) = some t ↔
          hour ≤ 23 ∧ minute ≤ 59 ∧
            t.microseconds = (hour * 60 + minute) * microsecondsPerMinute := by
      split
      next h => exact iff_of_false (by simp) (by omega)
      next h => exact timeOf_eq_some_iff
    rw [if_neg (not_not_intro hmatch)]
    simp only [hparts, List.getElem?_cons_zero, List.getElem?_cons_succ, Option.bind_eq_bind,
      Option.bind_some, hhours, hminutes]
    rw [hparse]
    constructor
    · rintro ⟨hhour, hminute, ht⟩
      exact ⟨hour, hhour, minute, hminute, hreads, ht⟩
    · rintro ⟨hour', hhour, minute', hminute, hreads', ht⟩
      obtain ⟨rfl, rfl⟩ := hreads.unique hreads'
      exact ⟨hhour, hminute, ht⟩
  · rw [if_pos hmatch]
    refine iff_of_false (by simp) ?_
    rintro ⟨hour, -, minute, -, hreads, -⟩
    exact hmatch hreads.matchesTimeRe

/-! ## The documented grammar -/

/-- `HH:MM` -/
def IsTimeText (cs : List Char) : Prop :=
  ∃ hour ≤ 23, ∃ minute ≤ 59, cs = pad 2 hour ++ ':' :: pad 2 minute

/-- `YYYY-MM-DD` -/
def IsDateText (cs : List Char) : Prop :=
  ∃ year month day, IsDay year month day ∧
    cs = pad 4 year ++ '-' :: pad 2 month ++ '-' :: pad 2 day

/-- `t.strftime("%H:%M")`. -/
def hourMinuteText (t : Time) : List Char :=
  pad 2 (t.microseconds / microsecondsPerMinute / 60) ++
    ':' :: pad 2 (t.microseconds / microsecondsPerMinute % 60)

theorem length_hourMinuteText (t : Time) : (hourMinuteText t).length = 5 := by
  simp [hourMinuteText, length_pad]

/-- The docstring and the comments of `_parse_time`, for one string. -/
structure TimeDocumented (value : String) : Prop where
  accepts_iff : (parseTime value).isSome = true ↔ IsTimeText value.toList
  written : ∀ t, parseTime value = some t → t.IsMinute ∧ value.toList = hourMinuteText t

/-- The docstring of `_parse_date`, for one string. -/
structure DateDocumented (value : String) : Prop where
  accepts_iff : (parseDate value).isSome = true ↔ IsDateText value.toList
  written : ∀ d, parseDate value = some d → value.toList = d.isoformat

/-- A time of day with a digit of another script, or a newline at the end. -/
def OtherTimeText (cs : List Char) : Prop :=
  ∃ hour ≤ 23, ∃ minute ≤ 59, ReadsAs cs hour minute ∧ ∃ c ∈ cs, c ≠ ':' ∧ c.isDigit = false

theorem decimalValue?_digitChar {d : ℕ} (hd : d < 10) :
    decimalValue? (Nat.digitChar d) = some d := by
  have hall : ∀ d < 10, decimalValue? (Nat.digitChar d) = some d := by decide
  exact hall d hd

theorem pad_two {x y : ℕ} (hx : x < 10) (hy : y < 10) :
    pad 2 (10 * x + y) = [Nat.digitChar x, Nat.digitChar y] := by
  have hall : ∀ x < 10, ∀ y < 10, pad 2 (10 * x + y) = [Nat.digitChar x, Nat.digitChar y] := by
    decide
  exact hall x hx y hy

theorem readsAs_text {hour minute : ℕ} (hhour : hour ≤ 23) (hminute : minute ≤ 59) :
    ReadsAs (pad 2 hour ++ ':' :: pad 2 minute) hour minute := by
  have hreads := ReadsAs.mk (decimalValue?_digitChar (by omega : hour / 10 < 10))
    (decimalValue?_digitChar (by omega : hour % 10 < 10))
    (decimalValue?_digitChar (by omega : minute / 10 < 10))
    (decimalValue?_digitChar (by omega : minute % 10 < 10)) (by decide : atEnd [] = true)
  have hhours := pad_two (by omega : hour / 10 < 10) (by omega : hour % 10 < 10)
  have hminutes := pad_two (by omega : minute / 10 < 10) (by omega : minute % 10 < 10)
  rw [Nat.div_add_mod] at hhours hminutes hreads
  rw [Nat.div_add_mod] at hreads
  rw [hhours, hminutes]
  exact hreads

theorem digitChar_of_decimal {c : Char} {v : ℕ} (hv : decimalValue? c = some v)
    (hc : c.isDigit = true) : v < 10 ∧ Nat.digitChar v = c := by
  have hbounds := toNat_of_isDigit hc
  rw [decimalValue?_of_isDigit hc, Option.some_inj] at hv
  subst hv
  exact ⟨by omega, digitChar_toNat_sub hc⟩

/-- ASCII digits are the text of what they read as. -/
theorem ReadsAs.eq_text {cs : List Char} {hour minute : ℕ} (h : ReadsAs cs hour minute)
    (hascii : ∀ c ∈ cs, c ≠ ':' → c.isDigit = true) :
    cs = pad 2 hour ++ ':' :: pad 2 minute := by
  cases h with
  | @mk a b c d w x y z tail ha hb hc hd htail =>
      have hcolon : decimalValue? ':' = none := by decide
      obtain rfl : tail = [] := by
        simp only [atEnd, Bool.decide_or, Bool.or_eq_true, decide_eq_true_eq] at htail
        rcases htail with rfl | rfl
        · rfl
        · have := hascii '\n' (by simp) (by decide)
          simp at this
      obtain ⟨hw, rfl⟩ := digitChar_of_decimal ha (hascii a (by simp) (ne_of_decimal ha hcolon))
      obtain ⟨hx, rfl⟩ := digitChar_of_decimal hb (hascii b (by simp) (ne_of_decimal hb hcolon))
      obtain ⟨hy, rfl⟩ := digitChar_of_decimal hc (hascii c (by simp) (ne_of_decimal hc hcolon))
      obtain ⟨hz, rfl⟩ := digitChar_of_decimal hd (hascii d (by simp) (ne_of_decimal hd hcolon))
      rw [pad_two hw hx, pad_two hy hz]
      rfl

theorem isDigit_of_mem_text {hour minute : ℕ} (hhour : hour ≤ 23) (hminute : minute ≤ 59)
    {c : Char} (hc : c ∈ pad 2 hour ++ ':' :: pad 2 minute) (hcolon : c ≠ ':') :
    c.isDigit = true := by
  simp only [List.mem_append, List.mem_cons] at hc
  rcases hc with hc | rfl | hc
  · exact isDigit_of_mem_pad (by omega) hc
  · exact absurd rfl hcolon
  · exact isDigit_of_mem_pad (by omega) hc

theorem hourMinuteText_eq {t : Time} {hour minute : ℕ} (hminute : minute ≤ 59)
    (ht : t.microseconds = (hour * 60 + minute) * microsecondsPerMinute) :
    t.IsMinute ∧ hourMinuteText t = pad 2 hour ++ ':' :: pad 2 minute := by
  have hpos : 0 < microsecondsPerMinute := by decide
  refine ⟨?_, ?_⟩
  · rw [Time.IsMinute, ht, Nat.mul_mod_left]
  · rw [hourMinuteText, ht, Nat.mul_div_cancel _ hpos,
      show (hour * 60 + minute) / 60 = hour by omega,
      show (hour * 60 + minute) % 60 = minute by omega]

theorem exists_parseTime {value : String} {hour minute : ℕ} (hhour : hour ≤ 23)
    (hminute : minute ≤ 59) (h : ReadsAs value.toList hour minute) :
    (parseTime value).isSome = true := by
  have ht : (timeOf hour minute).isSome = true := by
    rw [timeOf, dif_pos (by omega)]
    rfl
  obtain ⟨t, ht⟩ := Option.isSome_iff_exists.mp ht
  obtain ⟨-, -, ht⟩ := timeOf_eq_some_iff.mp ht
  exact Option.isSome_iff_exists.mpr
    ⟨t, parseTime_eq_some_iff.mpr ⟨hour, hhour, minute, hminute, h, ht⟩⟩

/-- The times that are read as documented. -/
theorem timeDocumented_iff (value : String) :
    TimeDocumented value ↔ ¬ OtherTimeText value.toList := by
  constructor
  · rintro hdoc ⟨hour, hhour, minute, hminute, hreads, c, hmem, hcolon, hc⟩
    obtain ⟨hour', hhour', minute', hminute', htext⟩ :=
      hdoc.accepts_iff.mp (exists_parseTime hhour hminute hreads)
    rw [htext] at hmem
    rw [isDigit_of_mem_text hhour' hminute' hmem hcolon] at hc
    cases hc
  · intro hother
    -- no digit of another script is left to read
    have htext : ∀ {hour minute : ℕ}, hour ≤ 23 → minute ≤ 59 → ReadsAs value.toList hour minute →
        value.toList = pad 2 hour ++ ':' :: pad 2 minute := by
      intro hour minute hhour hminute hreads
      refine hreads.eq_text fun c hmem hcolon => ?_
      by_contra hc
      exact hother ⟨hour, hhour, minute, hminute, hreads, c, hmem, hcolon, by simpa using hc⟩
    refine ⟨⟨fun h => ?_, ?_⟩, fun t ht => ?_⟩
    · obtain ⟨t, ht⟩ := Option.isSome_iff_exists.mp h
      obtain ⟨hour, hhour, minute, hminute, hreads, -⟩ := parseTime_eq_some_iff.mp ht
      exact ⟨hour, hhour, minute, hminute, htext hhour hminute hreads⟩
    · rintro ⟨hour, hhour, minute, hminute, h⟩
      exact exists_parseTime hhour hminute (h ▸ readsAs_text hhour hminute)
    · obtain ⟨hour, hhour, minute, hminute, hreads, hmicroseconds⟩ := parseTime_eq_some_iff.mp ht
      obtain ⟨hisMinute, hformat⟩ := hourMinuteText_eq hminute hmicroseconds
      exact ⟨hisMinute, (htext hhour hminute hreads).trans hformat.symm⟩

/-- The dates that are read as documented. -/
theorem dateDocumented_iff (value : String) :
    DateDocumented value ↔ ¬ OtherDateText value.toList := by
  have hisoformat : IsDateText value.toList ↔ ∃ d : Date, value.toList = d.isoformat := by
    constructor
    · rintro ⟨year, month, day, hday, h⟩
      obtain ⟨d, rfl, rfl, rfl⟩ := hday.exists_date
      exact ⟨d, h⟩
    · rintro ⟨d, h⟩
      exact ⟨d.year, d.month, d.day, d.isDay, h⟩
  constructor
  · intro hdoc hother
    obtain ⟨d, hd⟩ := exists_fromisoformat_of_otherDateText hother
    obtain ⟨e, he⟩ := hisoformat.mp (hdoc.accepts_iff.mp (Option.isSome_of_eq_some hd))
    exact hother.ne_isoformat e he
  · intro hother
    have hwritten : ∀ d, parseDate value = some d → value.toList = d.isoformat :=
      fun d hd => (text_of_fromisoformat hd).resolve_right hother
    refine ⟨⟨fun h => ?_, fun h => ?_⟩, hwritten⟩
    · obtain ⟨d, hd⟩ := Option.isSome_iff_exists.mp h
      exact hisoformat.mpr ⟨d, hwritten d hd⟩
    · obtain ⟨d, hd⟩ := hisoformat.mp h
      exact Option.isSome_of_eq_some (fromisoformat_of_isoformat hd)

/-- The parsers keep to their documentation on the texts of none of the other shapes. -/
theorem parsers_documented_iff (value : String) :
    (TimeDocumented value ↔ ¬ OtherTimeText value.toList) ∧
      (DateDocumented value ↔ ¬ OtherDateText value.toList) :=
  ⟨timeDocumented_iff value, dateDocumented_iff value⟩

/-- A compact date and a time with a newline are accepted. -/
theorem parsers_accept_other_shapes :
    ((parseDate "20270601").isSome = true ∧ ¬ DateDocumented "20270601") ∧
      (parseTime "09:30\n").isSome = true ∧ ¬ TimeDocumented "09:30\n" := by
  refine ⟨⟨by decide, fun h => ?_⟩, by decide, fun h => ?_⟩
  · have hday : IsDay 2027 6 1 := by
      unfold IsDay
      decide
    exact (dateDocumented_iff _).mp h (.basic hday (by decide : utf8Length [] ∈ [0, 2]))
  · have hreads : ReadsAs "09:30\n".toList 9 30 :=
      .mk (w := 0) (x := 9) (y := 3) (z := 0) (by decide) (by decide) (by decide) (by decide)
        (by decide : atEnd ['\n'] = true)
    exact (timeDocumented_iff _).mp h
      ⟨9, by omega, 30, by omega, hreads, '\n', by decide, by decide, by decide⟩

end MomBot.MemberNotifications
