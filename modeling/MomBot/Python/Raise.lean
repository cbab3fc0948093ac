/-!
# Functions that may raise

A function of the source that may raise is one with an `Except` for its result.  The lemmas read
such a result backwards: what a sequence of steps has returned or raised, one of its steps has.
-/

namespace MomBot.Python

variable {ε α β : Type} {x : Except ε α} {f : α → Except ε β}

/-- What was raised. -/
def exceptionOf : Except ε α → Option ε
  | .ok _ => none
  | .error exc => some exc

theorem bind_eq_ok_iff {b : β} : x >>= f = .ok b ↔ ∃ a, x = .ok a ∧ f a = .ok b := by
  cases x with
  | error exc => simp [Bind.bind, Except.bind]
  | ok a => simp [Bind.bind, Except.bind]

theorem bind_eq_error_iff {exc : ε} :
    x >>= f = .error exc ↔ x = .error exc ∨ ∃ a, x = .ok a ∧ f a = .error exc := by
  cases x with
  | error exc' => simp [Bind.bind, Except.bind]
  | ok a => simp [Bind.bind, Except.bind]

theorem toOption_eq_some_iff {a : α} : x.toOption = some a ↔ x = .ok a := by
  cases x with
  | error exc => simp [Except.toOption]
  | ok a' => simp [Except.toOption]

end MomBot.Python
