import MomBot.Cooperative.Watch

/-!
# Calls that lie ahead

`Coroutine.MayCall` says that a coroutine comes to a call on some path, whatever the
world answers on the way, and that it passes no operation of `barrier` before.
`Progress.MayCall` is the same of a task, where the call that a task awaits lies behind
it.  No event but the start of a task puts a call ahead of it, and only an operation of
the barrier can take the barrier away (`Concurrent.mayCall_of_step`).
-/

set_option linter.unusedSectionVars false

namespace Cooperative

variable {E : Effects} {σ ι X α : Type} [DecidableEq ι]

/-! ## Coroutines -/

namespace Coroutine

/-- The program can come to `wanted` before it asks an operation of `barrier`. -/
def MayCall (barrier : E.Op → Prop) (wanted : E.Call) : Coroutine E α → Prop
  | done _ => False
  | op o next => ¬barrier o ∧ ∃ r, (next r).MayCall barrier wanted
  | await call next => call = wanted ∨ ∃ a, (next a).MayCall barrier wanted

end Coroutine

/-! ## Tasks -/

namespace Progress

/-- The task can still come to `wanted` before it asks an operation of `barrier`. -/
def MayCall (barrier : E.Op → Prop) (wanted : E.Call) : Progress E X α → Prop
  | idle => False
  | ready _ rest => rest.MayCall barrier wanted
  | awaiting _ _ next => ∃ a, (next a).MayCall barrier wanted

/-- The operations that lie ahead are permitted. -/
def Uses (permits : E.Op → Prop) : Progress E X α → Prop
  | idle => True
  | ready _ rest => rest.Uses permits fun _ => True
  | awaiting _ _ next => ∀ a, (next a).Uses permits fun _ => True

end Progress

namespace Concurrent

variable {C : Concurrent E σ X α} {c c' : Config E σ ι X α} {event : Event E σ ι X} {i : ι}
  {barrier : E.Op → Prop} {wanted : E.Call}

/-- **Step lemma.** -/
theorem mayCall_of_step (hstep : C.step c event = some c')
    (h : (c'.task i).MayCall barrier wanted) :
    (c.task i).MayCall barrier wanted ∨ (∃ x, event = .spawn i x) ∨
      ∃ x o next, event = .op i ∧ c.task i = .ready x (.op o next) ∧ barrier o := by
  by_cases hi : event.task? = some i
  case neg =>
    rw [Concurrent.step_task_of_ne hstep hi] at h
    exact .inl h
  cases happens_of_step hstep with
  | @spawn j x htask =>
      obtain rfl := Option.some.inj hi
      exact .inr (.inl ⟨x, rfl⟩)
  | @op j x o next htask =>
      obtain rfl := Option.some.inj hi
      by_cases hbarrier : barrier o
      · exact .inr (.inr ⟨x, o, next, rfl, htask, hbarrier⟩)
      · rw [htask]
        exact .inl ⟨hbarrier, _, by simpa [Config.setTask, Progress.MayCall] using h⟩
  | issue htask =>
      obtain rfl := Option.some.inj hi
      rw [htask]
      exact .inl (.inr (by simpa [Config.setTask, Progress.MayCall] using h))
  | answer htask =>
      obtain rfl := Option.some.inj hi
      rw [htask]
      exact .inl ⟨_, by simpa [Config.setTask, Progress.MayCall] using h⟩
  | finish =>
      obtain rfl := Option.some.inj hi
      simp [Config.setTask, Progress.MayCall] at h
  | outside => cases hi

/-- Only its start tells a task anew what it works on. -/
theorem startedWith?_of_step {x : X} (hstep : C.step c event = some c')
    (h : (c'.task i).startedWith? = some x) :
    (c.task i).startedWith? = some x ∨ event = .spawn i x := by
  by_cases hi : event.task? = some i
  case neg =>
    rw [Concurrent.step_task_of_ne hstep hi] at h
    exact .inl h
  cases happens_of_step hstep with
  | @spawn j y htask =>
      obtain rfl := Option.some.inj hi
      obtain rfl : y = x := by
        simpa [Config.setTask, Progress.startedWith?] using h
      exact .inr rfl
  | op htask | issue htask | answer htask =>
      obtain rfl := Option.some.inj hi
      rw [htask]
      exact .inl (by simpa [Config.setTask, Progress.startedWith?] using h)
  | finish =>
      obtain rfl := Option.some.inj hi
      simp [Config.setTask, Progress.startedWith?] at h
  | outside => cases hi

end Concurrent

end Cooperative
