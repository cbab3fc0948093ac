import Mathlib.Data.Fintype.Defs
import Mathlib.Logic.Function.Basic
import MomBot.Cooperative.Coroutine

/-!
# Tasks that interleave without a lock

`Concurrent` names the program that every task runs and what the rest of the
world may do to the shared state.  `Concurrent.step` performs one event of one
task, so it can be evaluated on a schedule, and `Concurrent.Reachable` collects
the configurations of all schedules whose events are `allowed`.

Invariants of such systems come from a `Protocol`: it gives every task a mode,
says in which mode an operation or a call may be made and which mode follows.
`Coroutine.Follows` checks a program against it, one constructor at a time, and
`Protocol.Sound` asks that every event keeps the predicate `G`, which says what
the modes mean for the shared state.  `Reachable.governed` is the invariant that
results.
-/

set_option linter.unusedSectionVars false

namespace Cooperative

/-- Tasks that run the same program, each from its own argument, over one shared state. -/
structure Concurrent (E : Effects) (σ X α : Type) where
  machine : Machine E σ
  program : X → Coroutine E α
  /-- What the rest of the world may do to the shared state at any time. -/
  outside : σ → σ → Prop

/-- Where a task is.  A task that has returned can be started again. -/
inductive Progress (E : Effects) (X α : Type) where
  | idle
  | ready (x : X) (rest : Coroutine E α)
  | awaiting (x : X) (call : E.Call) (next : E.Ans call → Coroutine E α)

/-- The task is under way and awaits nothing. -/
def Progress.isReady {E : Effects} {X α : Type} : Progress E X α → Bool
  | ready _ _ => true
  | _ => false

/-- A moment of a run: the shared state, and where every task is. -/
structure Config (E : Effects) (σ ι X α : Type) where
  shared : σ
  task : ι → Progress E X α

/-- One event.  `answer` carries a rule for every call, since which call the task
awaits is not part of the event. -/
inductive Event (E : Effects) (σ ι X : Type) where
  | spawn (i : ι) (x : X)
  | op (i : ι)
  | issue (i : ι)
  | answer (i : ι) (reply : (call : E.Call) → E.Ans call)
  | finish (i : ι)
  | outside (shared : σ)

variable {E : Effects} {σ ι X α β : Type} [DecidableEq ι]

/-- The event comes from the rest of the world. -/
def Event.isOutside : Event E σ ι X → Bool
  | outside _ => true
  | _ => false

/-- The task that an event moves. -/
def Event.task? : Event E σ ι X → Option ι
  | spawn i _ | op i | issue i | answer i _ | finish i => some i
  | outside _ => none

/-- What a task that is under way was started with. -/
def Progress.startedWith? : Progress E X α → Option X
  | idle => none
  | ready x _ | awaiting x _ _ => some x

theorem Progress.eq_idle_of_isNone {p : Progress E X α} (h : p.startedWith?.isNone = true) :
    p = .idle := by
  cases p with
  | idle => rfl
  | ready | awaiting => cases h

namespace Config

/-- Task `i` moves; the shared state and the other tasks stay. -/
def setTask (c : Config E σ ι X α) (i : ι) (progress : Progress E X α) : Config E σ ι X α :=
  { c with task := Function.update c.task i progress }

/-- Nothing has started. -/
def start (shared : σ) : Config E σ ι X α :=
  ⟨shared, fun _ => .idle⟩

end Config

namespace Concurrent

variable (C : Concurrent E σ X α)

/-- The configuration after an event, `none` where the task is not at that point. -/
def step (c : Config E σ ι X α) : Event E σ ι X → Option (Config E σ ι X α)
  | .spawn i x =>
      match c.task i with
      | .idle => some (c.setTask i (.ready x (C.program x)))
      | _ => none
  | .op i =>
      match c.task i with
      | .ready x (.op o next) =>
          some { c.setTask i (.ready x (next (C.machine.exec o c.shared).1)) with
            shared := (C.machine.exec o c.shared).2 }
      | _ => none
  | .issue i =>
      match c.task i with
      | .ready x (.await call next) =>
          some { c.setTask i (.awaiting x call next) with
            shared := C.machine.issue call c.shared }
      | _ => none
  | .answer i reply =>
      match c.task i with
      | .awaiting x call next =>
          some { c.setTask i (.ready x (next (reply call))) with
            shared := C.machine.complete call (reply call) c.shared }
      | _ => none
  | .finish i =>
      match c.task i with
      | .ready _ (.done _) => some (c.setTask i .idle)
      | _ => none
  | .outside shared => some { c with shared := shared }

/-- The events that a configuration can perform, with what each leads to. -/
inductive Happens (C : Concurrent E σ X α) (c : Config E σ ι X α) :
    Event E σ ι X → Config E σ ι X α → Prop
  | spawn {i : ι} {x : X} : c.task i = .idle →
      Happens C c (.spawn i x) (c.setTask i (.ready x (C.program x)))
  | op {i : ι} {x : X} {o : E.Op} {next : E.Res o → Coroutine E α} :
      c.task i = .ready x (.op o next) →
      Happens C c (.op i) { c.setTask i (.ready x (next (C.machine.exec o c.shared).1)) with
        shared := (C.machine.exec o c.shared).2 }
  | issue {i : ι} {x : X} {call : E.Call} {next : E.Ans call → Coroutine E α} :
      c.task i = .ready x (.await call next) →
      Happens C c (.issue i) { c.setTask i (.awaiting x call next) with
        shared := C.machine.issue call c.shared }
  | answer {i : ι} {reply : (call : E.Call) → E.Ans call} {x : X} {call : E.Call}
      {next : E.Ans call → Coroutine E α} : c.task i = .awaiting x call next →
      Happens C c (.answer i reply) { c.setTask i (.ready x (next (reply call))) with
        shared := C.machine.complete call (reply call) c.shared }
  | finish {i : ι} {x : X} {value : α} : c.task i = .ready x (.done value) →
      Happens C c (.finish i) (c.setTask i .idle)
  | outside {shared : σ} : Happens C c (.outside shared) { c with shared := shared }

/-- **Inversion.**  A step is one of the events that can happen. -/
theorem happens_of_step {C : Concurrent E σ X α} {c c' : Config E σ ι X α}
    {event : Event E σ ι X} (h : C.step c event = some c') : C.Happens c event c' := by
  cases event with
  | spawn i x =>
      simp only [step] at h
      split at h
      next htask =>
        obtain rfl := Option.some.inj h
        exact .spawn htask
      next => cases h
  | op i =>
      simp only [step] at h
      split at h
      next x o next htask =>
        obtain rfl := Option.some.inj h
        exact .op htask
      next => cases h
  | issue i =>
      simp only [step] at h
      split at h
      next x call next htask =>
        obtain rfl := Option.some.inj h
        exact .issue htask
      next => cases h
  | answer i reply =>
      simp only [step] at h
      split at h
      next x call next htask =>
        obtain rfl := Option.some.inj h
        exact .answer htask
      next => cases h
  | finish i =>
      simp only [step] at h
      split at h
      next x value htask =>
        obtain rfl := Option.some.inj h
        exact .finish htask
      next => cases h
  | outside shared =>
      obtain rfl := Option.some.inj h
      exact .outside

/-- The world keeps to its part. -/
def Admits (c : Config E σ ι X α) : Event E σ ι X → Prop
  | .outside shared => C.outside c.shared shared
  | _ => True

/-- The configurations of the runs from `shared` in which every event is allowed. -/
inductive Reachable (allowed : Config E σ ι X α → Event E σ ι X → Prop) (shared : σ) :
    Config E σ ι X α → Prop
  | start : Reachable allowed shared (.start shared)
  | step {c c' : Config E σ ι X α} {event : Event E σ ι X} : Reachable allowed shared c →
      allowed c event → C.Admits c event → C.step c event = some c' → Reachable allowed shared c'

/-- Tasks switch only where they await: while a task is ready, no other task moves. -/
def SwitchesAtAwaits (c : Config E σ ι X α) : Event E σ ι X → Prop
  | .spawn _ _ | .answer _ _ => ∀ j, (c.task j).isReady = false
  | .op i | .issue i | .finish i => ∀ j, j ≠ i → (c.task j).isReady = false
  | .outside _ => True

instance [Fintype ι] (c : Config E σ ι X α) (event : Event E σ ι X) :
    Decidable (SwitchesAtAwaits c event) :=
  match event with
  | .spawn _ _ | .answer _ _ => inferInstanceAs (Decidable (∀ j, (c.task j).isReady = false))
  | .op i | .issue i | .finish i =>
      inferInstanceAs (Decidable (∀ j, j ≠ i → (c.task j).isReady = false))
  | .outside _ => inferInstanceAs (Decidable True)

/-- Perform a schedule as long as its events are permitted. -/
def runIf (permits : Config E σ ι X α → Event E σ ι X → Bool) (c : Config E σ ι X α) :
    List (Event E σ ι X) → Option (Config E σ ι X α)
  | [] => some c
  | event :: events =>
      if permits c event then (C.step c event).bind fun c' => runIf permits c' events else none

/-- Perform a schedule. -/
def run (c : Config E σ ι X α) (events : List (Event E σ ι X)) : Option (Config E σ ι X α) :=
  C.runIf (fun _ _ => true) c events

variable {C} {allowed : Config E σ ι X α → Event E σ ι X → Prop} {shared : σ}

/-- `C.Leads allowed c c'`: allowed events take `c` to `c'`. -/
inductive Leads (C : Concurrent E σ X α) (allowed : Config E σ ι X α → Event E σ ι X → Prop)
    (c : Config E σ ι X α) : Config E σ ι X α → Prop
  | refl : Leads C allowed c c
  | step {c₁ c₂ : Config E σ ι X α} {event : Event E σ ι X} : Leads C allowed c c₁ →
      allowed c₁ event → C.Admits c₁ event → C.step c₁ event = some c₂ → Leads C allowed c c₂

theorem Reachable.leads {allowed' : Config E σ ι X α → Event E σ ι X → Prop}
    {c c' : Config E σ ι X α} (h : C.Reachable allowed shared c) (hleads : C.Leads allowed' c c')
    (hallowed : ∀ c : Config E σ ι X α, ∀ event, allowed' c event → allowed c event) :
    C.Reachable allowed shared c' := by
  induction hleads with
  | refl => exact h
  | step _ hevent hadmits hstep ih => exact ih.step (hallowed _ _ hevent) hadmits hstep

/-- A schedule of the tasks that can be performed leads to where it ends. -/
theorem Leads.runIf {permits : Config E σ ι X α → Event E σ ι X → Bool}
    {c c₁ c' : Config E σ ι X α} {events : List (Event E σ ι X)} (h : C.Leads allowed c c₁)
    (hallowed : ∀ c : Config E σ ι X α, ∀ event, permits c event = true → allowed c event)
    (htasks : (events.any Event.isOutside) = false)
    (hrun : C.runIf permits c₁ events = some c') : C.Leads allowed c c' := by
  induction events generalizing c₁ with
  | nil =>
      obtain rfl := Option.some.inj hrun
      exact h
  | cons event events ih =>
      rw [Concurrent.runIf] at hrun
      split at hrun
      case isFalse => cases hrun
      next hpermits =>
        obtain ⟨c₂, hstep, hrest⟩ := Option.bind_eq_some_iff.mp hrun
        obtain ⟨htask, htasks⟩ := Bool.or_eq_false_iff.mp htasks
        have hadmits : C.Admits c₁ event := by
          cases event <;> trivial
        exact ih (h.step (hallowed c₁ event hpermits) hadmits hstep) htasks hrest

theorem Reachable.runIf {permits : Config E σ ι X α → Event E σ ι X → Bool}
    {c c' : Config E σ ι X α} {events : List (Event E σ ι X)} (h : C.Reachable allowed shared c)
    (hallowed : ∀ c : Config E σ ι X α, ∀ event, permits c event = true → allowed c event)
    (htasks : (events.any Event.isOutside) = false)
    (hrun : C.runIf permits c events = some c') : C.Reachable allowed shared c' :=
  h.leads (Leads.refl.runIf hallowed htasks hrun) fun _ _ hevent => hevent

theorem Reachable.run {c c' : Config E σ ι X α} {events : List (Event E σ ι X)}
    (h : C.Reachable allowed shared c)
    (hallowed : ∀ c : Config E σ ι X α, ∀ event, allowed c event)
    (htasks : (events.any Event.isOutside) = false)
    (hrun : C.run c events = some c') : C.Reachable allowed shared c' :=
  h.runIf (fun c event _ => hallowed c event) htasks hrun

end Concurrent

/-! ## Protocols -/

/-- What a task started with `x` may do in a mode.  `gives` is what it may count on when it
sees the result of an operation.  `start x` is the mode in which a task begins, `rest`
the mode of a task that does nothing. -/
structure Protocol (E : Effects) (X T : Type) where
  rest : T
  start : X → T
  opOk : X → T → E.Op → Prop
  gives : T → (o : E.Op) → E.Res o → Prop
  afterOp : T → (o : E.Op) → E.Res o → T
  callOk : X → T → E.Call → Prop
  atCall : T → E.Call → T
  afterCall : T → (call : E.Call) → E.Ans call → T

variable {T : Type} {P : Protocol E X T}

namespace Coroutine

/-- From mode `t` on, everything the coroutine does is in order, and it ends with a
value and a mode that satisfy `post`. -/
def Follows (P : Protocol E X T) (x : X) (post : α → T → Prop) : Coroutine E α → T → Prop
  | done value, t => post value t
  | op o next, t =>
      P.opOk x t o ∧ ∀ r, P.gives t o r → (next r).Follows P x post (P.afterOp t o r)
  | await call next, t =>
      P.callOk x t call ∧ ∀ a, (next a).Follows P x post (P.afterCall t call a)

variable {x : X} {post : α → T → Prop} {post' : β → T → Prop} {t : T}

theorem Follows.bind {p : Coroutine E α} {f : α → Coroutine E β} (hp : p.Follows P x post t)
    (hf : ∀ value t', post value t' → (f value).Follows P x post' t') :
    (p >>= f).Follows P x post' t := by
  induction p generalizing t with
  | done value => exact hf value t hp
  | op o next ih => exact ⟨hp.1, fun r hr => ih r (hp.2 r hr)⟩
  | await call next ih => exact ⟨hp.1, fun a => ih a (hp.2 a)⟩

theorem Follows.mono {post₂ : α → T → Prop} {p : Coroutine E α} (hp : p.Follows P x post t)
    (h : ∀ value t', post value t' → post₂ value t') : p.Follows P x post₂ t := by
  induction p generalizing t with
  | done value => exact h value t hp
  | op o next ih => exact ⟨hp.1, fun r hr => ih r (hp.2 r hr)⟩
  | await call next ih => exact ⟨hp.1, fun a => ih a (hp.2 a)⟩

end Coroutine

namespace Protocol

/-- The mode of a task fits to where the task is. -/
def Fits (P : Protocol E X T) (post : α → T → Prop) : Progress E X α → T → Prop
  | .idle, t => t = P.rest
  | .ready x p, t => p.Follows P x post t
  | .awaiting x call next, t =>
      ∃ before, t = P.atCall before call ∧ P.callOk x before call ∧
        ∀ a, (next a).Follows P x post (P.afterCall before call a)

theorem Fits.isReady {post : α → T → Prop} {progress : Progress E X α} {t : T}
    (h : P.Fits post progress t) (hrest : t ≠ P.rest)
    (hcall : ∀ x before call, P.callOk x before call → t ≠ P.atCall before call) :
    progress.isReady = true := by
  cases progress with
  | idle => exact absurd h hrest
  | ready x rest => rfl
  | awaiting x call next =>
      obtain ⟨before, hmode, hok, -⟩ := h
      exact absurd hmode (hcall x before call hok)

variable {post : α → T → Prop} {C : Concurrent E σ X α} {mode : ι → T}
  {G : (ι → T) → σ → Prop} {c c' : Config E σ ι X α} {i j : ι}
  {allowed : Config E σ ι X α → Event E σ ι X → Prop} {shared : σ}

/-- Every task is in the mode that `mode` says, and the shared state is what `G` says
it is under these modes. -/
structure Governs (P : Protocol E X T) (post : α → T → Prop) (G : (ι → T) → σ → Prop)
    (mode : ι → T) (c : Config E σ ι X α) : Prop where
  fits : ∀ i, P.Fits post (c.task i) (mode i)
  holds : G mode c.shared

/-- Every event keeps `G`. -/
structure Sound (P : Protocol E X T) (post : α → T → Prop) (G : (ι → T) → σ → Prop)
    (C : Concurrent E σ X α) (allowed : Config E σ ι X α → Event E σ ι X → Prop) : Prop where
  program : ∀ x, (C.program x).Follows P x post (P.start x)
  spawn : ∀ {mode : ι → T} {c : Config E σ ι X α} {i : ι} {x : X}, P.Governs post G mode c →
    allowed c (.spawn i x) → c.task i = .idle → mode i = P.rest →
    G (Function.update mode i (P.start x)) c.shared
  op : ∀ {mode : ι → T} {c : Config E σ ι X α} {i : ι} {x : X} {o : E.Op}
    {next : E.Res o → Coroutine E α}, P.Governs post G mode c → allowed c (.op i) →
    c.task i = .ready x (.op o next) → P.opOk x (mode i) o →
    P.gives (mode i) o (C.machine.exec o c.shared).1 ∧
      G (Function.update mode i (P.afterOp (mode i) o (C.machine.exec o c.shared).1))
        (C.machine.exec o c.shared).2
  issue : ∀ {mode : ι → T} {c : Config E σ ι X α} {i : ι} {x : X} {call : E.Call}
    {next : E.Ans call → Coroutine E α}, P.Governs post G mode c → allowed c (.issue i) →
    c.task i = .ready x (.await call next) → P.callOk x (mode i) call →
    G (Function.update mode i (P.atCall (mode i) call)) (C.machine.issue call c.shared)
  answer : ∀ {mode : ι → T} {c : Config E σ ι X α} {i : ι} {x : X} {call : E.Call}
    {next : E.Ans call → Coroutine E α} {before : T} {reply : (call : E.Call) → E.Ans call},
    P.Governs post G mode c → allowed c (.answer i reply) →
    c.task i = .awaiting x call next → mode i = P.atCall before call → P.callOk x before call →
    G (Function.update mode i (P.afterCall before call (reply call)))
      (C.machine.complete call (reply call) c.shared)
  finish : ∀ {mode : ι → T} {c : Config E σ ι X α} {i : ι} {x : X} {value : α},
    P.Governs post G mode c → allowed c (.finish i) → c.task i = .ready x (.done value) →
    post value (mode i) → G (Function.update mode i P.rest) c.shared
  outside : ∀ {mode : ι → T} {c : Config E σ ι X α} {shared : σ}, P.Governs post G mode c →
    allowed c (.outside shared) → C.outside c.shared shared → G mode shared

/-- Only the task that moved and the shared state are new. -/
theorem Governs.update (h : P.Governs post G mode c) {progress : Progress E X α} {t : T}
    {shared : σ} (hfits : P.Fits post progress t) (hG : G (Function.update mode i t) shared) :
    P.Governs post G (Function.update mode i t) { c.setTask i progress with shared := shared } where
  fits j := by
    by_cases hj : j = i
    · subst hj
      simpa [Config.setTask] using hfits
    · simpa [Config.setTask, hj] using h.fits j
  holds := hG

/-- How an event moves the mode of task `i` from `t` to `t'`. -/
inductive Moves (P : Protocol E X T) (post : α → T → Prop) (C : Concurrent E σ X α)
    (c : Config E σ ι X α) : Event E σ ι X → ι → T → T → Prop
  | others {event : Event E σ ι X} {i : ι} {t : T} : event.task? ≠ some i →
      Moves P post C c event i t t
  | spawn {i : ι} {x : X} : c.task i = .idle → Moves P post C c (.spawn i x) i P.rest (P.start x)
  | op {i : ι} {x : X} {o : E.Op} {next : E.Res o → Coroutine E α} {t : T} :
      c.task i = .ready x (.op o next) → P.opOk x t o →
      Moves P post C c (.op i) i t (P.afterOp t o (C.machine.exec o c.shared).1)
  | issue {i : ι} {x : X} {call : E.Call} {next : E.Ans call → Coroutine E α} {t : T} :
      c.task i = .ready x (.await call next) → P.callOk x t call →
      Moves P post C c (.issue i) i t (P.atCall t call)
  | answer {i : ι} {x : X} {call : E.Call} {next : E.Ans call → Coroutine E α} {before : T}
      {reply : (call : E.Call) → E.Ans call} : c.task i = .awaiting x call next →
      P.callOk x before call →
      Moves P post C c (.answer i reply) i (P.atCall before call)
        (P.afterCall before call (reply call))
  | finish {i : ι} {x : X} {value : α} {t : T} : c.task i = .ready x (.done value) →
      post value t → Moves P post C c (.finish i) i t P.rest

/-- Only the mode of the task that moved is new. -/
theorem Moves.update {event : Event E σ ι X} {t : T} (hevent : event.task? = some i)
    (hmoves : P.Moves post C c event i (mode i) t) (j : ι) :
    P.Moves post C c event j (mode j) (Function.update mode i t j) := by
  by_cases hj : j = i
  · subst hj
    rw [Function.update_self]
    exact hmoves
  · rw [Function.update_of_ne hj]
    exact .others fun h => hj (Option.some.inj (h.symm.trans hevent))

/-- **Step lemma.**  An allowed event takes a governed configuration to a governed one, and
moves the modes as the protocol says. -/
theorem Governs.step_moves {event : Event E σ ι X} (h : P.Governs post G mode c)
    (hsound : P.Sound post G C allowed) (hallowed : allowed c event) (hadmits : C.Admits c event)
    (hstep : C.step c event = some c') :
    ∃ mode', P.Governs post G mode' c' ∧ ∀ i, P.Moves post C c event i (mode i) (mode' i) := by
  -- each event is one clause of `Sound`, about the mode of the task that it moves
  cases Concurrent.happens_of_step hstep with
  | @spawn i x htask =>
      have hfits := h.fits i
      rw [htask] at hfits
      refine ⟨_, h.update (hsound.program x) (hsound.spawn h hallowed htask hfits), ?_⟩
      exact Moves.update rfl (hfits ▸ .spawn htask)
  | @op i x o next htask =>
      have hfits := h.fits i
      rw [htask] at hfits
      obtain ⟨hgives, hG⟩ := hsound.op h hallowed htask hfits.1
      exact ⟨_, h.update (hfits.2 _ hgives) hG, Moves.update rfl (.op htask hfits.1)⟩
  | @issue i x call next htask =>
      have hfits := h.fits i
      rw [htask] at hfits
      exact ⟨_, h.update ⟨_, rfl, hfits.1, hfits.2⟩ (hsound.issue h hallowed htask hfits.1),
        Moves.update rfl (.issue htask hfits.1)⟩
  | @answer i reply x call next htask =>
      have hfits := h.fits i
      rw [htask] at hfits
      -- the mode before the call is the one that the answer goes on from
      obtain ⟨before, hmode, hok, hnext⟩ := hfits
      refine ⟨_, h.update (hnext (reply call)) (hsound.answer h hallowed htask hmode hok), ?_⟩
      exact Moves.update rfl (hmode ▸ .answer htask hok)
  | @finish i x value htask =>
      have hfits := h.fits i
      rw [htask] at hfits
      exact ⟨_, h.update (by rfl) (hsound.finish h hallowed htask hfits),
        Moves.update rfl (.finish htask hfits)⟩
  | outside =>
      exact ⟨mode, ⟨h.fits, hsound.outside h hallowed hadmits⟩,
        fun i => .others (by simp [Event.task?])⟩

theorem Governs.step {event : Event E σ ι X} (h : P.Governs post G mode c)
    (hsound : P.Sound post G C allowed) (hallowed : allowed c event) (hadmits : C.Admits c event)
    (hstep : C.step c event = some c') : ∃ mode', P.Governs post G mode' c' := by
  obtain ⟨mode', hgoverns, -⟩ := h.step_moves hsound hallowed hadmits hstep
  exact ⟨mode', hgoverns⟩

/-- **Run lemma.**  Every reachable configuration is governed. -/
theorem governed (hsound : P.Sound post G C allowed) (hstart : G (fun _ : ι => P.rest) shared)
    (h : C.Reachable allowed shared c) : ∃ mode, P.Governs post G mode c := by
  induction h with
  | start => exact ⟨fun _ => P.rest, fun _ => rfl, hstart⟩
  | step _ hallowed hadmits hstep ih =>
      obtain ⟨mode, hgoverns⟩ := ih
      exact hgoverns.step hsound hallowed hadmits hstep

/-- What a task that stands before an operation is known to be in order. -/
theorem Governs.opOk {x : X} {o : E.Op} {next : E.Res o → Coroutine E α}
    (h : P.Governs post G mode c) (htask : c.task i = .ready x (.op o next)) :
    P.opOk x (mode i) o := by
  have hfits := h.fits i
  rw [htask] at hfits
  exact hfits.1

theorem Governs.atCall {x : X} {call : E.Call} {next : E.Ans call → Coroutine E α}
    (h : P.Governs post G mode c) (htask : c.task i = .awaiting x call next) :
    ∃ before, mode i = P.atCall before call ∧ P.callOk x before call := by
  have hfits := h.fits i
  rw [htask] at hfits
  obtain ⟨before, hmode, hok, -⟩ := hfits
  exact ⟨before, hmode, hok⟩

/-- A task in a mode that is neither of rest nor of a pending call is ready. -/
theorem Governs.isReady (h : P.Governs post G mode c) (hrest : mode i ≠ P.rest)
    (hcall : ∀ x before call, P.callOk x before call → mode i ≠ P.atCall before call) :
    (c.task i).isReady = true :=
  (h.fits i).isReady hrest hcall

/-- What a task that stands before a call is known to be in order. -/
theorem Governs.callOk {x : X} {call : E.Call} {next : E.Ans call → Coroutine E α}
    (h : P.Governs post G mode c) (htask : c.task i = .ready x (.await call next)) :
    P.callOk x (mode i) call := by
  have hfits := h.fits i
  rw [htask] at hfits
  exact hfits.1

end Protocol

end Cooperative
