import MomBot.Cooperative.Lock

/-!
# Tasks that run under the lock of a key

A `Guarded` program answers early from the shared state, or takes the lock of
its key, runs its body and lets the lock go.  `Guarded.Step` interleaves any number of
such tasks, one operation at a time, so a task can be overtaken at every point
and not only where it awaits.

`Coupled` ties the tasks to the lock table.  With `LockInv` it gives
`holder_unique`: of the tasks of one key at most one is inside its body.
-/

set_option linter.unusedSectionVars false

namespace Cooperative

/-- What the tasks do, and what their environment may do. -/
structure Guarded (E : Effects) (σ κ X β : Type) where
  machine : Machine E σ
  key : X → κ
  /-- The answer that needs no lock. -/
  early : X → σ → Option β
  body : X → Coroutine E β
  /-- The answers that a call can get. -/
  answers : (call : E.Call) → E.Ans call → Prop
  /-- What the rest of the program may do to the shared state at any time. -/
  outside : σ → σ → Prop

/-- Where a task is.  `x` is what it was started with; the result `none` is a
task that was cancelled while it waited. -/
inductive Phase (E : Effects) (X β : Type) where
  | idle
  | waiting (x : X)
  | inside (x : X) (rest : Coroutine E β)
  | awaiting (x : X) (call : E.Call) (next : E.Ans call → Coroutine E β)
  | finished (x : X) (result : Option β)

/-- `order` and `calls` are only recorded: which tasks took the lock of a key,
and what was awaited under it. -/
structure System (E : Effects) (σ κ ι X β : Type) where
  shared : σ
  locks : LockTable κ ι
  phase : ι → Phase E X β
  order : κ → List ι
  calls : κ → List (Exchange E)

variable {E : Effects} {σ κ ι X β : Type} [DecidableEq κ] [DecidableEq ι]

/-- What a task that is inside its body has left to do. -/
def Phase.remaining : Phase E X β → Option (X × Coroutine E β)
  | inside x rest => some (x, rest)
  | awaiting x call next => some (x, .await call next)
  | _ => none

/-- The task is inside its body and holds the lock of `k`. -/
def Phase.Holds (key : X → κ) (k : κ) (phase : Phase E X β) : Prop :=
  ∃ x rest, phase.remaining = some (x, rest) ∧ key x = k

namespace System

/-- Task `i` goes over to another phase. -/
def setPhase (s : System E σ κ ι X β) (i : ι) (phase : Phase E X β) : System E σ κ ι X β :=
  { s with phase := Function.update s.phase i phase }

variable (G : Guarded E σ κ X β)

/-- Go on as the lock table says: into the body, into the queue, or out. -/
def enter (s : System E σ κ ι X β) (i : ι) (x : X) : System E σ κ ι X β :=
  match s.locks.claim i with
  | some (_, _, .holding) =>
      { s.setPhase i (.inside x (G.body x)) with
        order := Function.update s.order (G.key x) (s.order (G.key x) ++ [i]) }
  | some (_, _, .waiting _) => s.setPhase i (.waiting x)
  | none => s.setPhase i (.finished x none)

/-- No task has started. -/
def start (shared : σ) : System E σ κ ι X β :=
  ⟨shared, .empty, fun _ => .idle, fun _ => [], fun _ => []⟩

end System

/-- One step of one task, of the registry or of the environment. -/
inductive Guarded.Step (G : Guarded E σ κ X β) :
    System E σ κ ι X β → System E σ κ ι X β → Prop
  | early {s : System E σ κ ι X β} {i : ι} {x : X} {value : β} : s.phase i = .idle →
      G.early x s.shared = some value → Guarded.Step G s (s.setPhase i (.finished x (some value)))
  | arrive {s : System E σ κ ι X β} {i : ι} {x : X} : s.phase i = .idle →
      G.early x s.shared = none →
      Guarded.Step G s ({ s with locks := s.locks.acquire i (G.key x) }.enter G i x)
  | cancel {s : System E σ κ ι X β} {i : ι} {x : X} : s.phase i = .waiting x →
      Guarded.Step G s { s with locks := s.locks.cancel i }
  | resume {s : System E σ κ ι X β} {i : ι} {x : X} : s.phase i = .waiting x →
      Guarded.Step G s ({ s with locks := s.locks.resume i }.enter G i x)
  | op {s : System E σ κ ι X β} {i : ι} {x : X} {o : E.Op} {next : E.Res o → Coroutine E β} :
      s.phase i = .inside x (.op o next) →
      Guarded.Step G s { s.setPhase i (.inside x (next (G.machine.exec o s.shared).1)) with
        shared := (G.machine.exec o s.shared).2 }
  | issue {s : System E σ κ ι X β} {i : ι} {x : X} {call : E.Call}
      {next : E.Ans call → Coroutine E β} : s.phase i = .inside x (.await call next) →
      Guarded.Step G s { s.setPhase i (.awaiting x call next) with
        shared := G.machine.issue call s.shared }
  | answered {s : System E σ κ ι X β} {i : ι} {x : X} {call : E.Call}
      {next : E.Ans call → Coroutine E β} (answer : E.Ans call) : G.answers call answer →
      s.phase i = .awaiting x call next →
      Guarded.Step G s { s.setPhase i (.inside x (next answer)) with
        shared := G.machine.complete call answer s.shared
        calls := Function.update s.calls (G.key x) (s.calls (G.key x) ++ [⟨call, answer⟩]) }
  | leave {s : System E σ κ ι X β} {i : ι} {x : X} {value : β} :
      s.phase i = .inside x (.done value) →
      Guarded.Step G s { s.setPhase i (.finished x (some value)) with
        locks := s.locks.release i }
  | drop {s : System E σ κ ι X β} {k : κ} : s.locks.Unreferenced k →
      Guarded.Step G s { s with locks := s.locks.drop k }
  | outside {s : System E σ κ ι X β} {shared : σ} : G.outside s.shared shared →
      Guarded.Step G s { s with shared := shared }

/-- The states of a run that starts with `shared`. -/
inductive Guarded.Reachable (G : Guarded E σ κ X β) (shared : σ) : System E σ κ ι X β → Prop
  | start : Guarded.Reachable G shared (.start shared)
  | step {s s' : System E σ κ ι X β} : Guarded.Reachable G shared s → Guarded.Step G s s' →
      Guarded.Reachable G shared s'

/-! ## Tasks and locks -/

/-- What a task refers to in the lock table. -/
def Phase.Claims (key : X → κ) (t : LockTable κ ι) (i : ι) : Phase E X β → Prop
  | .idle | .finished _ _ => t.claim i = none
  | .waiting x => ∃ l requested, t.claim i = some (key x, l, .waiting requested)
  | .inside x _ | .awaiting x _ _ => t.Holds i (key x)

/-- Every task refers to the lock that its phase says. -/
structure Coupled (G : Guarded E σ κ X β) (s : System E σ κ ι X β) : Prop where
  inv : LockInv s.locks
  claims : ∀ i, (s.phase i).Claims G.key s.locks i

variable {G : Guarded E σ κ X β} {s s' : System E σ κ ι X β} {i j : ι} {x y : X}

theorem Phase.Claims.congr {t t' : LockTable κ ι} (h : t'.claim i = t.claim i)
    {phase : Phase E X β} (hclaims : phase.Claims G.key t i) : phase.Claims G.key t' i := by
  cases phase <;> simpa [Phase.Claims, LockTable.Holds, h] using hclaims

theorem Phase.Claims.holds {t : LockTable κ ι} {phase : Phase E X β} {k : κ}
    (h : phase.Claims G.key t i) (hholds : phase.Holds G.key k) : t.Holds i k := by
  obtain ⟨x, rest, hrest, rfl⟩ := hholds
  cases phase <;>
    simp only [Phase.remaining, Option.some.injEq, Prod.mk.injEq, reduceCtorEq] at hrest
  all_goals
    obtain ⟨rfl, rfl⟩ := hrest
    exact h

/-- The phases after a step that concerns only task `i`. -/
private theorem claims_update {t : LockTable κ ι} {phase : Phase E X β}
    (hclaims : ∀ j, (s.phase j).Claims G.key s.locks j)
    (hother : ∀ j, j ≠ i → t.claim j = s.locks.claim j) (hi : phase.Claims G.key t i) (j : ι) :
    (Function.update s.phase i phase j).Claims G.key t j := by
  by_cases hji : j = i
  · subst hji
    rwa [Function.update_self]
  · rw [Function.update_of_ne hji]
    exact (hclaims j).congr (hother j hji)

/-- Where a task goes from the lock table. -/
theorem System.enter_phase (s : System E σ κ ι X β) (i : ι) (x : X) :
    (s.enter G i x).phase = Function.update s.phase i (match s.locks.claim i with
      | some (_, _, .holding) => .inside x (G.body x)
      | some (_, _, .waiting _) => .waiting x
      | none => .finished x none) := by
  unfold System.enter
  split <;> rfl

@[simp] theorem System.enter_locks (s : System E σ κ ι X β) : (s.enter G i x).locks = s.locks := by
  unfold System.enter
  split <;> rfl

@[simp] theorem System.enter_shared (s : System E σ κ ι X β) :
    (s.enter G i x).shared = s.shared := by
  unfold System.enter
  split <;> rfl

private theorem claims_enter {t : LockTable κ ι}
    (hclaims : ∀ j, (s.phase j).Claims G.key s.locks j)
    (hother : ∀ j, j ≠ i → t.claim j = s.locks.claim j)
    (hkey : ∀ {k l hold}, t.claim i = some (k, l, hold) → k = G.key x) (j : ι) :
    (({ s with locks := t }.enter G i x).phase j).Claims G.key t j := by
  rw [System.enter_phase]
  refine claims_update hclaims hother ?_ j
  cases hclaim : t.claim i with
  | none => exact hclaim
  | some claim =>
      obtain ⟨k, l, hold⟩ := claim
      obtain rfl := hkey hclaim
      cases hold with
      | holding => exact ⟨l, hclaim⟩
      | waiting requested => exact ⟨l, requested, hclaim⟩

/-- **Step lemma, arrival.**  The task asks for the lock of its own key. -/
theorem Coupled.arrive (h : Coupled G s) (hidle : s.phase i = .idle) (x : X) :
    Coupled G ({ s with locks := s.locks.acquire i (G.key x) }.enter G i x) := by
  have hi := h.claims i
  rw [hidle] at hi
  refine ⟨?_, fun j => ?_⟩
  · rw [System.enter_locks]
    exact h.inv.acquire hi
  · rw [System.enter_locks]
    refine claims_enter h.claims (fun j hji => LockTable.claim_acquire_of_ne hji) ?_ j
    intro k l hold hclaim
    rcases LockTable.claim_acquire s.locks i (G.key x) with ⟨l', hnew⟩ | ⟨l', hnew⟩ <;>
    · rw [hnew] at hclaim
      simp only [Option.some.injEq, Prod.mk.injEq] at hclaim
      exact hclaim.1.symm

/-- **Step lemma, cancellation.**  A task that is cancelled while it waits goes on waiting:
it hears of it when it runs again. -/
theorem Coupled.cancel {x : X} (h : Coupled G s) (hwaiting : s.phase i = .waiting x) :
    Coupled G { s with locks := s.locks.cancel i } := by
  have hi := h.claims i
  rw [hwaiting] at hi
  obtain ⟨l, requested, hclaim⟩ := hi
  refine ⟨h.inv.cancel i, fun j => ?_⟩
  by_cases hji : j = i
  · subst hji
    obtain ⟨requested', hclaim'⟩ := LockTable.claim_cancel hclaim
    show (s.phase j).Claims G.key (s.locks.cancel j) j
    rw [hwaiting]
    exact ⟨l, requested', hclaim'⟩
  · exact (h.claims j).congr (LockTable.claim_cancel_of_ne hji)

/-- **Step lemma, resumption.**  The task gets the lock, waits again, or is gone; its key
stays the same. -/
theorem Coupled.resume {x : X} (h : Coupled G s) (hwaiting : s.phase i = .waiting x) :
    Coupled G ({ s with locks := s.locks.resume i }.enter G i x) := by
  have hi := h.claims i
  rw [hwaiting] at hi
  obtain ⟨l, requested, hclaim⟩ := hi
  refine ⟨?_, fun j => ?_⟩
  · rw [System.enter_locks]
    exact h.inv.resume i
  · rw [System.enter_locks]
    refine claims_enter h.claims (fun j hji => LockTable.claim_resume_of_ne hji) ?_ j
    intro k l' hold hclaim'
    rcases LockTable.claim_resume hclaim with hnew | ⟨l'', hnew⟩ | hnew
    · rw [hnew] at hclaim'
      simp only [Option.some.injEq, Prod.mk.injEq] at hclaim'
      exact hclaim'.1.symm
    · rw [hnew] at hclaim'
      simp only [Option.some.injEq, Prod.mk.injEq] at hclaim'
      exact hclaim'.1.symm
    · simp [hnew] at hclaim'

/-- **Step lemma.** -/
theorem Coupled.step (h : Coupled G s) (hstep : Guarded.Step G s s') : Coupled G s' := by
  have hclaims := h.claims
  cases hstep with
  | @early i x value hidle _ =>
      have hi := hclaims i
      rw [hidle] at hi
      exact ⟨h.inv, claims_update hclaims (fun _ _ => rfl) hi⟩
  | @arrive i x hidle _ => exact h.arrive hidle x
  | @cancel i x hwaiting => exact h.cancel hwaiting
  | @resume i x hwaiting => exact h.resume hwaiting
  | @op i x o next hinside =>
      -- inside its body a task leaves the lock table alone
      have hi := hclaims i
      rw [hinside] at hi
      exact ⟨h.inv, claims_update hclaims (fun _ _ => rfl) hi⟩
  | @issue i x call next hinside =>
      have hi := hclaims i
      rw [hinside] at hi
      exact ⟨h.inv, claims_update hclaims (fun _ _ => rfl) hi⟩
  | @answered i x call next answer _ hawaiting =>
      have hi := hclaims i
      rw [hawaiting] at hi
      exact ⟨h.inv, claims_update hclaims (fun _ _ => rfl) hi⟩
  | @leave i x value hinside =>
      have hi := hclaims i
      rw [hinside] at hi
      exact ⟨h.inv.release i, claims_update hclaims
        (fun j hji => LockTable.claim_release_of_ne hji) (LockTable.claim_release hi)⟩
  | drop hunref => exact ⟨h.inv.drop hunref, fun j => (hclaims j).congr rfl⟩
  | outside _ => exact ⟨h.inv, hclaims⟩

/-- **Run lemma.** -/
theorem coupled_of_reachable {shared : σ} (h : Guarded.Reachable G shared s) : Coupled G s := by
  induction h with
  | start => exact ⟨.empty, fun _ => rfl⟩
  | step _ hstep ih => exact ih.step hstep

/-- **Mutual exclusion.**  At most one task of a key is inside its body. -/
theorem Coupled.holder_unique (h : Coupled G s) {k : κ} (hi : (s.phase i).Holds G.key k)
    (hj : (s.phase j).Holds G.key k) : i = j :=
  h.inv.mutualExclusion ((h.claims i).holds hi) ((h.claims j).holds hj)

/-- A lock is locked only while a task is inside the body. -/
theorem Coupled.unlocked (h : Coupled G s) {k : κ} {l : ℕ} (hreg : s.locks.registry k = some l)
    (hnone : ∀ i, ¬ (s.phase i).Holds G.key k) : (s.locks.lock l).locked = false := by
  refine h.inv.unlocked hreg fun i ⟨l', hi⟩ => ?_
  have hclaims := h.claims i
  have hkey : ∀ {x}, s.locks.Holds i (G.key x) → G.key x = k := by
    rintro x ⟨l'', hx⟩
    rw [hi] at hx
    simp only [Option.some.injEq, Prod.mk.injEq] at hx
    exact hx.1.symm
  cases hphase : s.phase i with
  | idle =>
      rw [hphase] at hclaims
      exact absurd (hi.symm.trans hclaims) (by simp)
  | finished x result =>
      rw [hphase] at hclaims
      exact absurd (hi.symm.trans hclaims) (by simp)
  | waiting x =>
      rw [hphase] at hclaims
      obtain ⟨l'', requested, hw⟩ := hclaims
      exact absurd (hi.symm.trans hw) (by simp)
  | inside x rest =>
      rw [hphase] at hclaims
      exact hnone i ⟨x, rest, by rw [hphase]; rfl, hkey hclaims⟩
  | awaiting x call next =>
      rw [hphase] at hclaims
      exact hnone i ⟨x, .await call next, by rw [hphase]; rfl, hkey hclaims⟩

end Cooperative
