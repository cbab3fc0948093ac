import MomBot.Python.Int

/-!
# Decimal numerals

`str` of an integer is a numeral without leading zero, after a sign when it is
negative, and `int` reads it back.
-/

namespace MomBot.Python

/-- Digits without leading zero. -/
def IsNumeral (cs : List Char) : Prop :=
  cs = ['0'] ∨ (cs ≠ [] ∧ (∀ c ∈ cs, c.isDigit = true) ∧ cs.head? ≠ some '0')

/-! ## The numerals are what is written for a natural number -/

theorem toNat_of_isDigit {c : Char} (hc : c.isDigit = true) : 48 ≤ c.toNat ∧ c.toNat ≤ 57 :=
  Char.isDigit_iff_toNat.mp hc

theorem digitChar_toNat_sub {c : Char} (hc : c.isDigit = true) :
    Nat.digitChar (c.toNat - 48) = c := by
  have := toNat_of_isDigit hc
  apply Char.toNat_inj.mp
  rw [Nat.toNat_digitChar_of_lt_ten (by omega)]
  omega

theorem head?_toDigits_ne_zero {n : ℕ} (hn : 0 < n) : (Nat.toDigits 10 n).head? ≠ some '0' := by
  induction n using Nat.strong_induction_on with
  | h n ih =>
      rw [Nat.toDigits_eq_if (by omega)]
      split
      · simpa using hn.ne'
      · rw [List.head?_append_of_ne_nil _ Nat.toDigits_ne_nil]
        exact ih (n / 10) (by omega) (by omega)

/-- More digits after a numeral that is not zero make a numeral. -/
theorem exists_toDigits_append {acc : ℕ} (hacc : 0 < acc) {cs : List Char}
    (hcs : ∀ c ∈ cs, c.isDigit = true) : ∃ n, Nat.toDigits 10 acc ++ cs = Nat.toDigits 10 n := by
  induction cs generalizing acc with
  | nil => exact ⟨acc, List.append_nil _⟩
  | cons c cs ih =>
      have hc := hcs c List.mem_cons_self
      have hlt : c.toNat - 48 < 10 := by
        have := toNat_of_isDigit hc
        omega
      have hlast : Nat.toDigits 10 acc ++ [c] = Nat.toDigits 10 (10 * acc + (c.toNat - 48)) := by
        rw [← Nat.toDigits_append_toDigits (by omega) hacc hlt, Nat.toDigits_of_lt_base hlt,
          digitChar_toNat_sub hc]
      obtain ⟨n, hn⟩ := ih (by omega : 0 < 10 * acc + (c.toNat - 48))
        fun d hd => hcs d (List.mem_cons_of_mem _ hd)
      exact ⟨n, by rw [← hn, ← hlast, List.append_assoc, List.singleton_append]⟩

theorem isNumeral_iff {cs : List Char} : IsNumeral cs ↔ ∃ n, Nat.toDigits 10 n = cs := by
  constructor
  · rintro (rfl | ⟨hne, hdigits, hhead⟩)
    · exact ⟨0, Nat.toDigits_zero 10⟩
    · obtain ⟨c, cs, rfl⟩ := List.exists_cons_of_ne_nil hne
      have hc := hdigits c List.mem_cons_self
      have hbounds := toNat_of_isDigit hc
      have hpos : 0 < c.toNat - 48 := by
        have : c.toNat ≠ 48 := fun heq => hhead (by
          rw [List.head?_cons, Char.toNat_inj.mp (show c.toNat = '0'.toNat from heq)])
        omega
      obtain ⟨n, hn⟩ := exists_toDigits_append hpos
        fun d hd => hdigits d (List.mem_cons_of_mem _ hd)
      rw [Nat.toDigits_of_lt_base (by omega), digitChar_toNat_sub hc] at hn
      exact ⟨n, hn.symm⟩
  · rintro ⟨n, rfl⟩
    rcases Nat.eq_zero_or_pos n with rfl | hn
    · exact .inl (Nat.toDigits_zero 10)
    · exact .inr ⟨Nat.toDigits_ne_nil,
        fun c hc => Nat.isDigit_of_mem_toDigits (by omega) (by omega) hc,
        head?_toDigits_ne_zero hn⟩

/-! ## `int` reads what `str` writes -/

theorem decimalValue?_of_isDigit {c : Char} (hc : c.isDigit = true) :
    decimalValue? c = some (c.toNat - 48) := by
  have := toNat_of_isDigit hc
  have hfind : decimalZeros.find? (fun d => d ≤ c.toNat ∧ c.toNat < d + 10) = some 0x30 :=
    List.find?_cons_of_pos (by simp; omega)
  rw [decimalValue?, hfind, Option.map_some]

theorem digits?_of_isDigit {cs : List Char} (hne : cs ≠ [])
    (hcs : ∀ c ∈ cs, c.isDigit = true) : digits? cs = some (cs.map (·.toNat - 48)) := by
  induction cs with
  | nil => exact absurd rfl hne
  | cons c cs ih =>
      have hc := decimalValue?_of_isDigit (hcs c List.mem_cons_self)
      cases cs with
      | nil => simp [digits?, hc]
      | cons d cs =>
          have hd : d ≠ '_' := by
            intro heq
            have := hcs d (by simp)
            simp [heq] at this
          rw [digits?.eq_4 _ _ _ (fun h => hd h), ih (List.cons_ne_nil _ _)
            fun e he => hcs e (List.mem_cons_of_mem _ he), hc]
          rfl

theorem natural?_toDigits {n : ℕ} (hlength : (Nat.toDigits 10 n).length ≤ intMaxStrDigits) :
    natural? (Nat.toDigits 10 n) = some n := by
  have hfold : ((Nat.toDigits 10 n).map (·.toNat - 48)).foldl (fun n d => 10 * n + d) 0 = n := by
    rw [List.foldl_map]
    exact Nat.ofDigitChars_ten_toDigits
  unfold natural?
  rw [digits?_of_isDigit Nat.toDigits_ne_nil
    fun c hc => Nat.isDigit_of_mem_toDigits (by omega) (by omega) hc]
  simp only [Option.bind_eq_bind, Option.bind_some, List.length_map, if_neg hlength.not_gt, hfold]
  rfl

theorem isIntSpace_of_isDigit {c : Char} (hc : c.isDigit = true) : isIntSpace c = false := by
  have := toNat_of_isDigit hc
  simp [isIntSpace]
  omega

/-- Nothing is dropped from a text whose ends are no white space. -/
theorem int_of_ends {s : String} {c d : Char} {cs : List Char} (hs : s.toList = c :: cs)
    (hhead : isIntSpace c = false) (hlast : s.toList.getLast? = some d)
    (hd : isIntSpace d = false) : int s = signed? s.toList := by
  have hdrop : s.toList.dropWhile isIntSpace = s.toList := by
    rw [hs, List.dropWhile_cons_of_neg (by simp [hhead])]
  have hrdrop : s.toList.rdropWhile isIntSpace = s.toList := by
    rw [List.rdropWhile_eq_self_iff]
    intro hne
    rw [List.getLast?_eq_some_getLast hne, Option.some_inj] at hlast
    simp [hlast, hd]
  rw [int, hdrop, hrdrop]

theorem toString_toList (n : ℤ) :
    (toString n).toList = if 0 ≤ n then Nat.toDigits 10 n.toNat
      else '-' :: Nat.toDigits 10 n.natAbs := by
  cases n with
  | ofNat n => simp [toString, Int.repr]
  | negSucc n => simp [toString, Int.repr]

theorem getLast?_toDigits (n : ℕ) :
    ∃ d, (Nat.toDigits 10 n).getLast? = some d ∧ isIntSpace d = false := by
  obtain ⟨d, hd⟩ : ∃ d, (Nat.toDigits 10 n).getLast? = some d :=
    ⟨_, List.getLast?_eq_some_getLast Nat.toDigits_ne_nil⟩
  exact ⟨d, hd, isIntSpace_of_isDigit
    (Nat.isDigit_of_mem_toDigits (by omega) (by omega) (List.mem_of_getLast? hd))⟩

/-- `int(str(n))` is `n`, within the limit on digits. -/
theorem int_toString {n : ℤ} (hlength : (Nat.toDigits 10 n.natAbs).length ≤ intMaxStrDigits) :
    int (toString n) = some n := by
  obtain ⟨d, hd, hspace⟩ := getLast?_toDigits n.natAbs
  obtain ⟨c, cs, hcs⟩ := List.exists_cons_of_ne_nil (Nat.toDigits_ne_nil (n := n.natAbs) (b := 10))
  have hmem : c ∈ Nat.toDigits 10 n.natAbs := by
    rw [hcs]
    exact List.mem_cons_self
  have hc : c.isDigit = true := Nat.isDigit_of_mem_toDigits (by omega) (by omega) hmem
  have htext := toString_toList n
  split at htext
  next hn =>
    have habs : n.toNat = n.natAbs := by omega
    rw [habs] at htext
    -- a digit is no sign
    have hsigned : signed? (Nat.toDigits 10 n.natAbs)
        = (natural? (Nat.toDigits 10 n.natAbs)).map (↑) := by
      rw [hcs, signed?.eq_3] <;>
        · intro ds heq
          rw [(List.cons.inj heq).1] at hc
          simp at hc
    rw [int_of_ends (htext.trans hcs) (isIntSpace_of_isDigit hc) (htext ▸ hd) hspace, htext,
      hsigned, natural?_toDigits hlength]
    simp only [Option.map_some, Option.some.injEq]
    omega
  next hn =>
    have hlast : (toString n).toList.getLast? = some d := by
      rw [htext, hcs, List.getLast?_cons_cons, ← hcs, hd]
    rw [int_of_ends htext (by decide) hlast hspace, htext, signed?, natural?_toDigits hlength]
    show some (-(n.natAbs : ℤ)) = some n
    rw [Option.some_inj]
    omega

end MomBot.Python
