import MomBot.Python.Decimal
import MomBot.MemberNotifications.Service

/-!
# Which target ids are accepted

The check `str(int(value)) == value` stands for the grammar of a snowflake: `0`,
or ASCII digits without a leading zero.  It accepts the numerals that `str`
writes, and those are the snowflakes and the negative integers.
-/

namespace MomBot.MemberNotifications

open MomBot.Python

/-- `0`, or a non-empty string of ASCII digits that does not start with `0`. -/
def IsSnowflake (value : String) : Prop :=
  IsNumeral value.toList

/-- Digits that `int` would have to convert. -/
def WithinDigitLimit (value : String) : Prop :=
  (value.toList.filter fun c => (decimalValue? c).isSome).length ≤ intMaxStrDigits

/-- A negative integer as `str` writes it. -/
def IsNegativeNumeral (value : String) : Prop :=
  ∃ cs, value.toList = '-' :: cs ∧ IsNumeral cs ∧ cs ≠ ['0']

/-- What the docstrings of `_validate_discord_id` and `InvalidDiscordIdError`
promise for one string. -/
structure SnowflakeCheck (value : String) : Prop where
  accepts_iff : validateDiscordId value = .ok () ↔ IsSnowflake value
  decimal : validateDiscordId value = .ok () → ∃ n : ℕ, int value = some n ∧ toString n = value
  rejects : ∀ exc, validateDiscordId value = .error exc → exc = .invalidDiscordId value

/-! ## The check as an equation -/

theorem validateDiscordId_eq_ok_iff {value : String} :
    validateDiscordId value = .ok () ↔ ∃ n, int value = some n ∧ toString n = value := by
  unfold validateDiscordId
  split
  next hempty =>
    subst hempty
    refine ⟨fun h => absurd h (by simp), ?_⟩
    rintro ⟨n, hint, -⟩
    simp [int, signed?, natural?, digits?] at hint
  next =>
    split
    next hint => simp [hint]
    next n hint =>
      by_cases htext : toString n = value
      · rw [if_neg (not_not_intro htext)]
        exact ⟨fun _ => ⟨n, hint, htext⟩, fun _ => rfl⟩
      · rw [if_pos htext]
        refine ⟨fun h => absurd h (by simp), ?_⟩
        rintro ⟨m, hm, hmtext⟩
        rw [hint, Option.some_inj] at hm
        exact absurd (hm ▸ hmtext) htext

theorem eq_invalidDiscordId {value : String} {exc : ServiceError}
    (h : validateDiscordId value = .error exc) : exc = .invalidDiscordId value := by
  unfold validateDiscordId at h
  repeat' split at h
  all_goals first | exact (Except.error.inj h).symm | exact (nomatch h)

/-! ## The accepted strings are what `str` writes -/

theorem withinDigitLimit_toString {n : ℤ} (h : WithinDigitLimit (toString n)) :
    (Nat.toDigits 10 n.natAbs).length ≤ intMaxStrDigits := by
  have hfilter : (Nat.toDigits 10 n.natAbs).filter (fun c => (decimalValue? c).isSome)
      = Nat.toDigits 10 n.natAbs := by
    refine List.filter_eq_self.mpr fun c hc => ?_
    rw [decimalValue?_of_isDigit (Nat.isDigit_of_mem_toDigits (by omega) (by omega) hc)]
    rfl
  unfold WithinDigitLimit at h
  rw [toString_toList] at h
  split at h
  · rwa [show n.toNat = n.natAbs by omega, hfilter] at h
  · rwa [List.filter_cons_of_neg (by decide), hfilter] at h

theorem validateDiscordId_iff_toString {value : String} (hlimit : WithinDigitLimit value) :
    validateDiscordId value = .ok () ↔ ∃ n : ℤ, toString n = value := by
  rw [validateDiscordId_eq_ok_iff]
  constructor
  · rintro ⟨n, -, htext⟩
    exact ⟨n, htext⟩
  · rintro ⟨n, rfl⟩
    exact ⟨n, int_toString (withinDigitLimit_toString hlimit), rfl⟩

theorem isSnowflake_iff {value : String} : IsSnowflake value ↔ ∃ n : ℕ, toString n = value := by
  unfold IsSnowflake
  rw [isNumeral_iff]
  refine exists_congr fun n => ?_
  rw [← String.toList_inj, Nat.toString_eq_repr, Nat.toList_repr]

theorem isNegativeNumeral_iff {value : String} :
    IsNegativeNumeral value ↔ ∃ n : ℤ, n < 0 ∧ toString n = value := by
  constructor
  · rintro ⟨cs, hvalue, hnumeral, hzero⟩
    obtain ⟨m, rfl⟩ := isNumeral_iff.mp hnumeral
    have hm : m ≠ 0 := by
      rintro rfl
      exact hzero (Nat.toDigits_zero 10)
    refine ⟨-m, by omega, String.toList_inj.mp ?_⟩
    rw [toString_toList, if_neg (by omega), hvalue, Int.natAbs_neg, Int.natAbs_natCast]
  · rintro ⟨n, hn, rfl⟩
    refine ⟨Nat.toDigits 10 n.natAbs, ?_, isNumeral_iff.mpr ⟨_, rfl⟩, ?_⟩
    · rw [toString_toList, if_neg (by omega)]
    · intro hzero
      have := congrArg (Nat.ofDigitChars 10 · 0) hzero
      simp only [Nat.ofDigitChars_ten_toDigits] at this
      have : n.natAbs = 0 := this
      omega

theorem exists_toString_iff {value : String} :
    (∃ n : ℤ, toString n = value) ↔ IsSnowflake value ∨ IsNegativeNumeral value := by
  rw [isSnowflake_iff, isNegativeNumeral_iff]
  constructor
  · rintro ⟨n, htext⟩
    rcases lt_or_ge n 0 with hn | hn
    · exact .inr ⟨n, hn, htext⟩
    · lift n to ℕ using hn
      exact .inl ⟨n, htext⟩
  · rintro (⟨n, htext⟩ | ⟨n, -, htext⟩)
    · exact ⟨(n : ℤ), htext⟩
    · exact ⟨n, htext⟩

/-- A numeral starts with a digit, a negative one with its sign. -/
theorem not_isSnowflake_of_isNegativeNumeral {value : String} (h : IsNegativeNumeral value) :
    ¬ IsSnowflake value := by
  obtain ⟨cs, hvalue, -, -⟩ := h
  rw [IsSnowflake, hvalue, isNumeral_iff]
  rintro ⟨n, hn⟩
  have hmem : '-' ∈ Nat.toDigits 10 n := by
    rw [hn]
    exact List.mem_cons_self
  have := Nat.isDigit_of_mem_toDigits (by omega) (by omega) hmem
  simp at this

/-! ## The documented grammar -/

/-- The check is the documented one except on the negative integers, which it accepts. -/
theorem validateDiscordId_snowflake_iff {value : String} (hlimit : WithinDigitLimit value) :
    SnowflakeCheck value ↔ ¬ IsNegativeNumeral value := by
  have haccepts := (validateDiscordId_iff_toString hlimit).trans exists_toString_iff
  constructor
  · intro hcheck hnegative
    exact not_isSnowflake_of_isNegativeNumeral hnegative
      (hcheck.accepts_iff.mp (haccepts.mpr (.inr hnegative)))
  · intro hnegative
    have hiff : validateDiscordId value = .ok () ↔ IsSnowflake value := by
      rw [haccepts, or_iff_left hnegative]
    refine ⟨hiff, fun hok => ?_, fun exc h => eq_invalidDiscordId h⟩
    obtain ⟨n, rfl⟩ := isSnowflake_iff.mp (hiff.mp hok)
    exact ⟨n, int_toString (n := n) (withinDigitLimit_toString (n := n) hlimit), rfl⟩

theorem validateDiscordId_snowflake_iff_42 :
    WithinDigitLimit "42" ∧ SnowflakeCheck "42" := by
  refine ⟨by unfold WithinDigitLimit; decide, (validateDiscordId_snowflake_iff ?_).mpr ?_⟩
  · unfold WithinDigitLimit
    decide
  · rintro ⟨cs, hvalue, -⟩
    simp at hvalue

/-- A negative integer is accepted. -/
theorem validateDiscordId_accepts_negative :
    WithinDigitLimit "-5" ∧ validateDiscordId "-5" = .ok () ∧ ¬ SnowflakeCheck "-5" := by
  have hok : validateDiscordId "-5" = .ok () := by decide
  refine ⟨by unfold WithinDigitLimit; decide, hok, fun hcheck => ?_⟩
  have hnegative : IsNegativeNumeral "-5" :=
    ⟨['5'], by decide, isNumeral_iff.mpr ⟨5, by decide⟩, by simp⟩
  exact not_isSnowflake_of_isNegativeNumeral hnegative (hcheck.accepts_iff.mp hok)

end MomBot.MemberNotifications
