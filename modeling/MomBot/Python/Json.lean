import Mathlib.Data.String.Basic

/-!
# Lists of integers as JSON text

The role-sync table keeps two lists of role ids as JSON text.  `JsonCodec` is
what the code relies on: the two functions of the `json` module and the
validation of a decoded value as a list of integers.  `intLists` is a codec that
reads and writes such lists as the interpreter does.
-/

namespace MomBot.Python

/-- What `json.loads` can return. -/
inductive JsonValue where
  | null
  | bool (value : Bool)
  | int (value : ℤ)
  | float (literal : String)
  | str (value : String)
  | arr (values : List JsonValue)
  | obj (members : List (String × JsonValue))

/-- What `json.loads` can raise: `JSONDecodeError`, or the exceptions of an integer
with too many digits and of values nested too deeply. -/
inductive LoadsError where
  | jsonDecodeError
  | tooLarge
  deriving DecidableEq, Repr

/-- `json.dumps` on lists of integers, `json.loads` on any text, and the
validation of a decoded value as `list[int]` (`none` is `ValidationError`). -/
structure JsonCodec where
  dumps : List ℤ → String
  loads : String → Except LoadsError JsonValue
  intList : JsonValue → Option (List ℤ)
  loads_dumps : ∀ xs, loads (dumps xs) = .ok (.arr (xs.map .int))
  intList_ints : ∀ xs, intList (.arr (xs.map .int)) = some xs

/-! ## A codec for lists of integers -/

/-- The characters of a number. -/
def intChars : ℤ → List Char
  | .ofNat n => Nat.toDigits 10 n
  | .negSucc n => '-' :: Nat.toDigits 10 (n + 1)

/-- The numeral `cs`, with the white space JSON allows around it. -/
def parseInt? (cs : List Char) : Option ℤ :=
  match cs.filter (· ≠ ' ') with
  | '-' :: ds =>
      if ds ≠ [] ∧ ds.all Char.isDigit then some (-(Nat.ofDigitChars 10 ds 0 : ℤ)) else none
  | ds => if ds ≠ [] ∧ ds.all Char.isDigit then some (Nat.ofDigitChars 10 ds 0 : ℤ) else none

/-- The items of a list, the separator being a comma and a space. -/
def dumpItems : List ℤ → List (List Char)
  | [] => []
  | x :: xs => intChars x :: xs.map fun y => ' ' :: intChars y

/-- `json.dumps` of a list of numbers. -/
def dumpInts (xs : List ℤ) : String :=
  String.ofList ('[' :: [','].intercalate (dumpItems xs) ++ [']'])

/-- `json.loads`, as far as it reads lists of numbers. -/
def loadInts (text : String) : Option JsonValue :=
  match text.toList with
  | ['[', ']'] => some (.arr [])
  | '[' :: rest =>
      if rest.getLast? = some ']' then
        ((rest.dropLast.splitOn ',').mapM parseInt?).map fun xs => .arr (xs.map .int)
      else none
  | ['n', 'u', 'l', 'l'] => some .null
  | _ => none

/-- The numbers of a list. -/
def intsOf : JsonValue → Option (List ℤ)
  | .arr values => values.mapM fun | .int n => some n | _ => none
  | _ => none

theorem isDigit_of_mem_toDigits {n : ℕ} {c : Char} (hc : c ∈ Nat.toDigits 10 n) :
    c.isDigit = true :=
  Nat.isDigit_of_mem_toDigits (by omega) (by omega) hc

theorem parseInt?_intChars (n : ℤ) (spaces : List Char) (hspaces : ∀ c ∈ spaces, c = ' ') :
    parseInt? (spaces ++ intChars n) = some n := by
  have hdigits : ∀ m : ℕ, (Nat.toDigits 10 m).filter (· ≠ ' ') = Nat.toDigits 10 m := by
    intro m
    refine List.filter_eq_self.mpr fun c hc => ?_
    have := isDigit_of_mem_toDigits hc
    simp only [decide_eq_true_eq]
    rintro rfl
    simp at this
  have hnone : spaces.filter (· ≠ ' ') = [] :=
    List.filter_eq_nil_iff.mpr fun c hc => by simp [hspaces c hc]
  have hall : ∀ m : ℕ, (Nat.toDigits 10 m).all Char.isDigit = true := fun m =>
    List.all_eq_true.mpr fun c hc => isDigit_of_mem_toDigits hc
  cases n with
  | ofNat n =>
      have hhead : ∀ ds, Nat.toDigits 10 n ≠ '-' :: ds := by
        intro ds heq
        have := isDigit_of_mem_toDigits (n := n) (c := '-') (by rw [heq]; simp)
        simp at this
      unfold parseInt? intChars
      rw [List.filter_append, hnone, hdigits, List.nil_append]
      split
      · exact absurd ‹_› (hhead _)
      · rw [if_pos ⟨Nat.toDigits_ne_nil, hall n⟩, Nat.ofDigitChars_ten_toDigits]
        rfl
  | negSucc n =>
      unfold parseInt? intChars
      rw [List.filter_append, hnone, List.nil_append, List.filter_cons_of_pos (by decide), hdigits]
      simp only
      rw [if_pos ⟨Nat.toDigits_ne_nil, hall _⟩, Nat.ofDigitChars_ten_toDigits]
      rfl

theorem comma_notMem_dumpItems (xs : List ℤ) : ∀ item ∈ dumpItems xs, ',' ∉ item := by
  have hint : ∀ n : ℤ, ',' ∉ intChars n := by
    intro n hmem
    cases n with
    | ofNat n => simpa using isDigit_of_mem_toDigits (n := n) hmem
    | negSucc n =>
        rcases List.mem_cons.mp hmem with h | h
        · simp at h
        · simpa using isDigit_of_mem_toDigits (n := n + 1) h
  cases xs with
  | nil => simp [dumpItems]
  | cons x xs => simp [dumpItems, hint]

theorem mapM_parseInt?_dumpItems (xs : List ℤ) : (dumpItems xs).mapM parseInt? = some xs := by
  have htail : ∀ ys : List ℤ,
      (ys.map fun y => ' ' :: intChars y).mapM parseInt? = some ys := by
    intro ys
    induction ys with
    | nil => rfl
    | cons y ys ih =>
        have := parseInt?_intChars y [' '] (by simp)
        simp only [List.singleton_append] at this
        simp [this, ih]
  cases xs with
  | nil => rfl
  | cons x xs =>
      have := parseInt?_intChars x [] (by simp)
      simp only [List.nil_append] at this
      simp [dumpItems, this, htail]

theorem loadInts_dumpInts (xs : List ℤ) : loadInts (dumpInts xs) = some (.arr (xs.map .int)) := by
  cases xs with
  | nil => rfl
  | cons x xs =>
      have hne : dumpItems (x :: xs) ≠ [] := by simp [dumpItems]
      have hitems := List.splitOn_intercalate ',' (comma_notMem_dumpItems (x :: xs)) hne
      have hinner : [','].intercalate (dumpItems (x :: xs)) ≠ [] := by
        intro hnil
        rw [hnil] at hitems
        have := mapM_parseInt?_dumpItems (x :: xs)
        rw [← hitems] at this
        simp [parseInt?] at this
      unfold loadInts dumpInts
      generalize hchars : [','].intercalate (dumpItems (x :: xs)) = inner at hitems hinner
      simp only [String.toList_ofList, List.cons_append]
      split
      · next h => simp [hinner] at h
      · next rest _ h =>
          obtain ⟨-, rfl⟩ := List.cons.inj h
          simp [hitems, mapM_parseInt?_dumpItems]
      · next h => simp at h
      · next h _ => exact (h _ rfl).elim

/-- The text of a list holds digits, signs and punctuation only. -/
theorem nul_notMem_dumpInts (xs : List ℤ) : Char.ofNat 0 ∉ (dumpInts xs).toList := by
  have hint : ∀ n : ℤ, Char.ofNat 0 ∉ intChars n := by
    intro n hmem
    cases n with
    | ofNat n => exact absurd (isDigit_of_mem_toDigits (n := n) hmem) (by decide)
    | negSucc n =>
        rcases List.mem_cons.mp hmem with h | h
        · exact absurd h (by decide)
        · exact absurd (isDigit_of_mem_toDigits (n := n + 1) h) (by decide)
  have hitems : ∀ item ∈ dumpItems xs, Char.ofNat 0 ∉ item := by
    cases xs with
    | nil => simp [dumpItems]
    | cons x xs => simp [dumpItems, hint]
  have hinner : ∀ items : List (List Char), (∀ item ∈ items, Char.ofNat 0 ∉ item) →
      Char.ofNat 0 ∉ [','].intercalate items := by
    intro items hclean
    induction items with
    | nil => simp [List.intercalate]
    | cons item rest ih =>
        have hrest := ih fun other hother => hclean other (List.mem_cons_of_mem _ hother)
        cases rest with
        | nil => simpa [List.intercalate] using hclean
        | cons next rest =>
            simp only [List.intercalate, List.intersperse_cons_cons, List.flatten_cons,
              List.mem_append, not_or] at hrest ⊢
            exact ⟨hclean item (by simp), by decide, hrest⟩
  simp [dumpInts, hinner _ hitems]

theorem intsOf_ints (xs : List ℤ) : intsOf (.arr (xs.map .int)) = some xs := by
  induction xs with
  | nil => rfl
  | cons x xs ih =>
      simp only [intsOf, List.map_cons, List.mapM_cons] at ih ⊢
      simp [ih]

/-- The codec of the lists of integers. -/
def intLists : JsonCodec where
  dumps := dumpInts
  loads text := (loadInts text).elim (.error .jsonDecodeError) .ok
  intList := intsOf
  loads_dumps xs := by rw [loadInts_dumpInts, Option.elim_some]
  intList_ints := intsOf_ints

end MomBot.Python
