import MomBot.Cooperative.Interleave

/-!
# One task among others

`Protocol.Sound` gives every task a mode and is about all runs from the start.  Often
the question is about one task that is already under way: what it saw at some point, and
what still holds of that later, while the others go on.

`Watch` is the rule for this.  It follows the mode of the one task `i` from a given
configuration on, for as long as the task has not returned.  Of the other tasks and of
the world it asks only that what they do to the shared state keeps what the mode means.
-/

set_option linter.unusedSectionVars false

namespace Cooperative

variable {E : Effects} {σ ι X α T : Type} [DecidableEq ι]

/-- The event takes the result of task `i`. -/
def Event.finishes (i : ι) : Event E σ ι X → Bool
  | finish j => j = i
  | _ => false

variable {C : Concurrent E σ X α} {c c' : Config E σ ι X α} {event : Event E σ ι X} {i : ι}
  {allowed : Config E σ ι X α → Event E σ ι X → Prop}

theorem Config.setTask_task_of_ne {j : ι} {progress : Progress E X α} (h : j ≠ i) :
    (c.setTask j progress).task i = c.task i :=
  Function.update_of_ne h.symm _ _

theorem Concurrent.step_op (hstep : C.step c (.op i) = some c') :
    ∃ x o next, c.task i = .ready x (.op o next) ∧
      c'.shared = (C.machine.exec o c.shared).2 := by
  cases Concurrent.happens_of_step hstep with
  | @op _ x o next htask => exact ⟨x, o, next, htask, rfl⟩

theorem Concurrent.exists_step_op {x : X} {o : E.Op} {next : E.Res o → Coroutine E α}
    (htask : c.task i = .ready x (.op o next)) :
    ∃ c', C.step c (.op i) = some c' ∧ c'.shared = (C.machine.exec o c.shared).2 := by
  refine ⟨{ c.setTask i (.ready x (next (C.machine.exec o c.shared).1)) with
    shared := (C.machine.exec o c.shared).2 }, ?_, rfl⟩
  simp only [Concurrent.step, htask]

theorem Concurrent.step_answer {reply : (call : E.Call) → E.Ans call} {x : X} {call : E.Call}
    {next : E.Ans call → Coroutine E α} (hstep : C.step c (.answer i reply) = some c')
    (htask : c.task i = .awaiting x call next) :
    c'.task i = .ready x (next (reply call)) ∧
      c'.shared = C.machine.complete call (reply call) c.shared := by
  simp only [Concurrent.step, htask] at hstep
  obtain rfl := Option.some.inj hstep
  exact ⟨Function.update_self i _ c.task, rfl⟩

/-- An event of another task leaves a task where it is. -/
theorem Concurrent.step_task_of_ne (hstep : C.step c event = some c')
    (hother : event.task? ≠ some i) : c'.task i = c.task i := by
  cases Concurrent.happens_of_step hstep with
  | outside => rfl
  | spawn | op | issue | answer | finish =>
      exact Config.setTask_task_of_ne fun h => hother (congrArg some h)

/-- Until its result is taken, a task is the one that it was started as. -/
theorem Concurrent.startedWith?_step {x : X} (hstarted : (c.task i).startedWith? = some x)
    (hunfinished : event.finishes i = false) (hstep : C.step c event = some c') :
    (c'.task i).startedWith? = some x := by
  by_cases hi : event.task? = some i
  case neg =>
    rw [Concurrent.step_task_of_ne hstep hi]
    exact hstarted
  cases Concurrent.happens_of_step hstep with
  | spawn htask =>
      obtain rfl := Option.some.inj hi
      rw [htask] at hstarted
      cases hstarted
  | op htask | issue htask | answer htask =>
      obtain rfl := Option.some.inj hi
      rw [htask] at hstarted
      simpa [Config.setTask, Progress.startedWith?] using hstarted
  | finish =>
      obtain rfl := Option.some.inj hi
      simp [Event.finishes] at hunfinished
  | outside => cases hi

theorem Concurrent.startedWith?_of_leads {x : X} (hstarted : (c.task i).startedWith? = some x)
    (hunfinished : ∀ c event, allowed c event → event.finishes i = false)
    (hleads : C.Leads allowed c c') : (c'.task i).startedWith? = some x := by
  induction hleads with
  | refl => exact hstarted
  | step _ hallowed _ hstep ih =>
      exact Concurrent.startedWith?_step ih (hunfinished _ _ hallowed) hstep

/-- What every operation and every call keeps, the events of the tasks keep. -/
theorem Concurrent.step_keeps (Inv : σ → Prop) (hstep : C.step c event = some c')
    (htask : event.isOutside = false) (hop : ∀ o s, Inv s → Inv (C.machine.exec o s).2)
    (hissue : ∀ call s, Inv s → Inv (C.machine.issue call s))
    (hcomplete : ∀ call answer s, Inv s → Inv (C.machine.complete call answer s))
    (h : Inv c.shared) : Inv c'.shared := by
  cases Concurrent.happens_of_step hstep with
  | spawn => exact h
  | op => exact hop _ _ h
  | issue => exact hissue _ _ h
  | answer => exact hcomplete _ _ _ h
  | finish => exact h
  | outside => cases htask

/-- While tasks switch only where they await, a ready task is the only one to move. -/
theorem Concurrent.SwitchesAtAwaits.task?_eq (h : Concurrent.SwitchesAtAwaits c event)
    (hready : (c.task i).isReady = true) {j : ι} (hj : event.task? = some j) : j = i := by
  by_contra hne
  have hbusy : (c.task i).isReady = false := by
    cases event with
    | spawn | answer => exact h i
    | op | issue | finish =>
        obtain rfl := Option.some.inj hj
        exact h i (Ne.symm hne)
    | outside => cases hj
  rw [hready] at hbusy
  cases hbusy

namespace Protocol

variable {P : Protocol E X T} {post : α → T → Prop} {H : T → σ → Prop}

/-- Every event keeps `H`, which says what the mode of task `i` means for the shared
state. -/
structure Watch (P : Protocol E X T) (post : α → T → Prop) (H : T → σ → Prop)
    (C : Concurrent E σ X α) (i : ι) (allowed : Config E σ ι X α → Event E σ ι X → Prop) :
    Prop where
  op : ∀ {c : Config E σ ι X α} {x : X} {o : E.Op} {next : E.Res o → Coroutine E α} {t : T},
    allowed c (.op i) → c.task i = .ready x (.op o next) → P.opOk x t o → H t c.shared →
    P.gives t o (C.machine.exec o c.shared).1 ∧
      H (P.afterOp t o (C.machine.exec o c.shared).1) (C.machine.exec o c.shared).2
  issue : ∀ {c : Config E σ ι X α} {x : X} {call : E.Call} {next : E.Ans call → Coroutine E α}
    {t : T}, allowed c (.issue i) → c.task i = .ready x (.await call next) → P.callOk x t call →
    H t c.shared → H (P.atCall t call) (C.machine.issue call c.shared)
  answer : ∀ {c : Config E σ ι X α} {x : X} {call : E.Call} {next : E.Ans call → Coroutine E α}
    {before : T} {reply : (call : E.Call) → E.Ans call}, allowed c (.answer i reply) →
    c.task i = .awaiting x call next → P.callOk x before call → H (P.atCall before call) c.shared →
    H (P.afterCall before call (reply call)) (C.machine.complete call (reply call) c.shared)
  unfinished : ∀ c : Config E σ ι X α, ¬ allowed c (.finish i)
  others : ∀ {c c' : Config E σ ι X α} {event : Event E σ ι X} {t : T}, allowed c event →
    C.Admits c event → C.step c event = some c' → event.task? ≠ some i →
    P.Fits post (c.task i) t → H t c.shared → H t c'.shared

/-- Task `i` is under way in a mode that means what it should. -/
def Underway (P : Protocol E X T) (post : α → T → Prop) (H : T → σ → Prop) (i : ι)
    (c : Config E σ ι X α) : Prop :=
  c.task i ≠ .idle ∧ ∃ t, P.Fits post (c.task i) t ∧ H t c.shared

/-- The task itself has moved. -/
theorem Moves.underway {progress : Progress E X α} {shared : σ} {t t' : T}
    (hmoves : P.Moves post C c event i t t')
    (hc : c' = { c.setTask i progress with shared := shared }) (hbusy : progress ≠ .idle)
    (hfits : P.Fits post progress t') (hH : H t' shared) :
    c'.task i ≠ .idle ∧
      ∃ t', P.Fits post (c'.task i) t' ∧ H t' c'.shared ∧ P.Moves post C c event i t t' := by
  subst hc
  have htask : (c.setTask i progress).task i = progress := by
    simp [Config.setTask]
  refine ⟨?_, t', ?_, hH, hmoves⟩
  · simpa only [htask] using hbusy
  · simpa only [htask] using hfits

/-- **Step lemma.**  An allowed event leaves the task under way, and moves its mode as the protocol
says. -/
theorem Watch.step_moves (hwatch : P.Watch post H C i allowed) {t : T} (hbusy : c.task i ≠ .idle)
    (hfits : P.Fits post (c.task i) t) (hH : H t c.shared) (hallowed : allowed c event)
    (hadmits : C.Admits c event) (hstep : C.step c event = some c') :
    c'.task i ≠ .idle ∧
      ∃ t', P.Fits post (c'.task i) t' ∧ H t' c'.shared ∧ P.Moves post C c event i t t' := by
  by_cases hi : event.task? = some i
  -- another task moves, or the world does
  case neg =>
    have htask := Concurrent.step_task_of_ne hstep hi
    -- the task stays where it is, and `others` keeps what its mode means
    refine ⟨?_, t, ?_, hwatch.others hallowed hadmits hstep hi hfits hH, .others hi⟩
    · rw [htask]
      exact hbusy
    · rw [htask]
      exact hfits
  cases Concurrent.happens_of_step hstep with
  | spawn htask =>
      obtain rfl := Option.some.inj hi
      exact absurd htask hbusy
  | op htask =>
      obtain rfl := Option.some.inj hi
      rw [htask] at hfits
      obtain ⟨hgives, hnext⟩ := hwatch.op hallowed htask hfits.1 hH
      exact Moves.underway (.op htask hfits.1) rfl (by simp) (hfits.2 _ hgives) hnext
  | issue htask =>
      obtain rfl := Option.some.inj hi
      rw [htask] at hfits
      exact Moves.underway (.issue htask hfits.1) rfl (by simp) ⟨t, rfl, hfits.1, hfits.2⟩
        (hwatch.issue hallowed htask hfits.1 hH)
  | answer htask =>
      obtain rfl := Option.some.inj hi
      rw [htask] at hfits
      obtain ⟨before, rfl, hok, hnext⟩ := hfits
      exact Moves.underway (.answer htask hok) rfl (by simp) (hnext _)
        (hwatch.answer hallowed htask hok hH)
  | finish =>
      obtain rfl := Option.some.inj hi
      exact absurd hallowed (hwatch.unfinished c)
  | outside => cases hi

theorem Underway.step (h : P.Underway post H i c) (hwatch : P.Watch post H C i allowed)
    (hallowed : allowed c event) (hadmits : C.Admits c event)
    (hstep : C.step c event = some c') : P.Underway post H i c' := by
  obtain ⟨hbusy, t, hfits, hH⟩ := h
  obtain ⟨hbusy', t', hfits', hH', -⟩ :=
    hwatch.step_moves hbusy hfits hH hallowed hadmits hstep
  exact ⟨hbusy', t', hfits', hH'⟩

/-- **Run lemma.**  As long as the events are allowed, the task stays under way. -/
theorem Underway.leads (h : P.Underway post H i c) (hwatch : P.Watch post H C i allowed)
    (hleads : C.Leads allowed c c') : P.Underway post H i c' := by
  induction hleads with
  | refl => exact h
  | step _ hallowed hadmits hstep ih => exact ih.step hwatch hallowed hadmits hstep

/-! ### What happened on the way -/

/-- Every allowed event keeps `J`, which speaks of the mode of task `i` and of the configuration. -/
def Retains (P : Protocol E X T) (post : α → T → Prop) (C : Concurrent E σ X α) (i : ι)
    (allowed : Config E σ ι X α → Event E σ ι X → Prop) (J : T → Config E σ ι X α → Prop) : Prop :=
  ∀ ⦃t t' : T⦄ ⦃c c' : Config E σ ι X α⦄ ⦃event : Event E σ ι X⦄, allowed c event →
    C.Admits c event → C.step c event = some c' → P.Moves post C c event i t t' → J t c → J t' c'

/-- **Run lemma.**  What is retained holds as long as the task is under way. -/
theorem Underway.leads_retaining {J : T → Config E σ ι X α → Prop}
    (h : P.Underway post (fun t shared => H t shared ∧ J t c) i c)
    (hwatch : P.Watch post H C i allowed) (hretains : P.Retains post C i allowed J)
    (hleads : C.Leads allowed c c') :
    P.Underway post (fun t shared => H t shared ∧ J t c') i c' := by
  induction hleads with
  | refl => exact h
  | step _ hallowed hadmits hstep ih =>
      obtain ⟨hbusy, t, hfits, hH, hJ⟩ := ih
      obtain ⟨hbusy', t', hfits', hH', hmoves⟩ :=
        hwatch.step_moves hbusy hfits hH hallowed hadmits hstep
      exact ⟨hbusy', t', hfits', hH', hretains hallowed hadmits hstep hmoves hJ⟩

/-! ### The next operation -/

/-- A task under way that stands before an operation may perform it. -/
theorem Underway.opOk {x : X} {o : E.Op} {next : E.Res o → Coroutine E α}
    (h : P.Underway post H i c) (htask : c.task i = .ready x (.op o next)) :
    ∃ t, P.opOk x t o ∧ H t c.shared := by
  obtain ⟨-, t, hfits, hH⟩ := h
  rw [htask] at hfits
  exact ⟨t, hfits.1, hH⟩

/-- A task under way that stands before a call may make it. -/
theorem Underway.callOk {x : X} {call : E.Call} {next : E.Ans call → Coroutine E α}
    (h : P.Underway post H i c) (htask : c.task i = .ready x (.await call next)) :
    ∃ t, P.callOk x t call ∧ H t c.shared := by
  obtain ⟨-, t, hfits, hH⟩ := h
  rw [htask] at hfits
  exact ⟨t, hfits.1, hH⟩

end Protocol

end Cooperative
