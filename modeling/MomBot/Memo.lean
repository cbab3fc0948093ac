import Mathlib.Data.List.Induction
import MomBot.Python.Dict

/-!
# A memory for what was found

A function that may fail is asked about names, while the world that it looks at changes.  What it
has found is kept and never looked up again; what it has not found is not kept.  After any questions
the answer is the first thing that was ever found under the name, and what the world says now if
nothing was (`answer_memory`).

The memory is kept under slots; different names have different ones.
-/

namespace Memo

open MomBot.Python (Dict)

variable {κ κ' σ ν ε : Type} [DecidableEq κ']

/-- A name, and the world as it is when the name is asked for. -/
structure Question (κ σ : Type) where
  name : κ
  world : σ

variable (slot : κ → κ') (fetch : κ → σ → Except ε ν)

/-- An answer from memory, or from the world. -/
def answer (d : Dict κ' ν) (q : Question κ σ) : Except ε ν × Dict κ' ν :=
  match d.get? (slot q.name) with
  | some value => (.ok value, d)
  | none =>
      match fetch q.name q.world with
      | .ok value => (.ok value, d.set (slot q.name) value)
      | .error exc => (.error exc, d)

/-- What is kept after some questions. -/
def memory (questions : List (Question κ σ)) : Dict κ' ν :=
  questions.foldl (fun d q => (answer slot fetch d q).2) Dict.empty

variable {slot fetch} {questions : List (Question κ σ)} {q : Question κ σ} {name : κ} {value : ν}

theorem memory_concat :
    memory slot fetch (questions ++ [q]) =
      (answer slot fetch (memory slot fetch questions) q).2 := by
  rw [memory, List.foldl_append]
  rfl

variable [DecidableEq κ]

/-- What was found first under a name. -/
def firstFound (fetch : κ → σ → Except ε ν) (questions : List (Question κ σ)) (name : κ) :
    Option ν :=
  questions.findSome? fun q => if q.name = name then (fetch name q.world).toOption else none

theorem firstFound_concat :
    firstFound fetch (questions ++ [q]) name =
      (firstFound fetch questions name).or
        (if q.name = name then (fetch name q.world).toOption else none) := by
  rw [firstFound, List.findSome?_append, List.findSome?_singleton]
  rfl

/-- **Step lemma.**  What an answer keeps. -/
theorem get?_answer (d : Dict κ' ν) (hslot : Function.Injective slot) :
    (answer slot fetch d q).2.get? (slot name) =
      (d.get? (slot name)).or
        (if q.name = name then (fetch name q.world).toOption else none) := by
  unfold answer
  by_cases hname : q.name = name
  · subst hname
    rw [if_pos rfl]
    cases hkept : d.get? (slot q.name) with
    | some value => simp [hkept]
    | none =>
        cases fetch q.name q.world with
        | ok value => simp [Dict.get?_set, Except.toOption]
        | error exc => simp [hkept, Except.toOption]
  · have hne : slot name ≠ slot q.name := fun h => hname (hslot h).symm
    rw [if_neg hname, Option.or_none]
    cases d.get? (slot q.name) with
    | some value => rfl
    | none =>
        cases fetch q.name q.world with
        | ok value => simp [Dict.get?_set, hne]
        | error exc => rfl

/-- **Run lemma.**  The memory holds what was found first. -/
theorem get?_memory (hslot : Function.Injective slot) :
    (memory slot fetch questions).get? (slot name) = firstFound fetch questions name := by
  induction questions using List.reverseRecOn with
  | nil => rfl
  | append_singleton questions q ih =>
      rw [memory_concat, get?_answer _ hslot, firstFound_concat, ih]

/-- The answer is the first that was found, or else what the world says. -/
theorem answer_memory (hslot : Function.Injective slot) :
    (answer slot fetch (memory slot fetch questions) q).1 =
      match firstFound fetch questions q.name with
      | some value => .ok value
      | none => fetch q.name q.world := by
  rw [answer, get?_memory hslot]
  cases firstFound fetch questions q.name with
  | some value => rfl
  | none => cases fetch q.name q.world <;> rfl

theorem firstFound_eq_none_iff :
    firstFound fetch questions name = none ↔
      ∀ q ∈ questions, q.name = name → ∀ value, fetch name q.world ≠ .ok value := by
  rw [firstFound, List.findSome?_eq_none_iff]
  refine forall₂_congr fun q _ => ?_
  by_cases hname : q.name = name
  · rw [if_pos hname]
    cases hfetch : fetch name q.world with
    | ok value => simp [Except.toOption, hname]
    | error exc => simp [Except.toOption]
  · simp [hname]

/-- What was found comes from the first question for the name to which there was an answer. -/
theorem firstFound_eq_some_iff :
    firstFound fetch questions name = some value ↔
      ∃ before q after, questions = before ++ q :: after ∧ q.name = name ∧
        fetch name q.world = .ok value ∧
        ∀ earlier ∈ before, earlier.name = name → ∀ v, fetch name earlier.world ≠ .ok v := by
  simp only [← firstFound_eq_none_iff]
  rw [firstFound, List.findSome?_eq_some_iff]
  constructor
  · intro h
    obtain ⟨before, q, after, hsplit, hfound, hbefore⟩ := h
    split at hfound
    case isFalse => cases hfound
    next hname =>
      refine ⟨before, q, after, hsplit, hname, ?_, List.findSome?_eq_none_iff.mpr hbefore⟩
      cases hfetch : fetch name q.world with
      | ok found =>
          rw [hfetch] at hfound
          exact congrArg _ (Option.some.inj hfound)
      | error exc =>
          rw [hfetch] at hfound
          cases hfound
  · intro h
    obtain ⟨before, q, after, hsplit, hname, hfetch, hbefore⟩ := h
    refine ⟨before, q, after, hsplit, ?_, List.findSome?_eq_none_iff.mp hbefore⟩
    rw [if_pos hname, hfetch]
    rfl

/-- An answer that is none of the world's errors is what was found first, this question included. -/
theorem answer_memory_eq_ok_iff (hslot : Function.Injective slot) :
    (answer slot fetch (memory slot fetch questions) q).1 = .ok value ↔
      firstFound fetch (questions ++ [q]) q.name = some value := by
  rw [answer_memory hslot, firstFound_concat, if_pos rfl]
  cases firstFound fetch questions q.name with
  | some found => simp
  | none => cases fetch q.name q.world <;> simp [Except.toOption]

/-- Two courses of the world that show the same of a name give the same answer for it. -/
theorem answer_memory_congr (hslot : Function.Injective slot) {questions' : List (Question κ σ)}
    {w w' : σ} (hsame : fetch name w = fetch name w')
    (h : List.Forall₂ (fun q q' => q.name = q'.name ∧ fetch name q.world = fetch name q'.world)
      questions questions') :
    (answer slot fetch (memory slot fetch questions) ⟨name, w⟩).1 =
      (answer slot fetch (memory slot fetch questions') ⟨name, w'⟩).1 := by
  have hfound : firstFound fetch questions name = firstFound fetch questions' name := by
    induction h with
    | nil => rfl
    | cons hq _ ih =>
        simp only [firstFound, List.findSome?_cons] at ih ⊢
        rw [hq.1, hq.2, ih]
  rw [answer_memory hslot, answer_memory hslot, hfound]
  cases firstFound fetch questions' name with
  | some value => rfl
  | none => exact hsame

end Memo
