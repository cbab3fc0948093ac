import Mathlib.Data.Nat.Notation
import Mathlib.Logic.Function.Basic
import Mathlib.Logic.Relation
import MomBot.Cooperative.Coroutine

/-!
# Locks from a weak registry

Tasks take the lock of a key.  The lock objects come from a registry that does
not keep them alive: once no task refers to a lock its entry may vanish, and the
next task of that key gets a new lock.

`AsyncLock` is the event loop's lock with its queue of waiters, `LockTable` the
registry with all locks and with what each task refers to.  `LockInv` is the
invariant of its operations: a lock that some task refers to is the registered
one, a woken waiter stands first in the queue of an unlocked lock, and a locked
lock has exactly one holder.  `mutualExclusion` follows.
-/

set_option linter.unusedSectionVars false

namespace Cooperative

variable {ι : Type} [DecidableEq ι]

/-! ## The lock object -/

/-- The future that a waiter awaits. -/
inductive Wake where
  | pending
  | done
  | cancelled
  deriving DecidableEq, Repr

/-- `asyncio.Lock`: whether it is held, and its waiters in the order in which they came. -/
structure AsyncLock (ι : Type) where
  locked : Bool
  waiters : List (ι × Wake)

namespace AsyncLock

/-- A lock that was just created. -/
def new : AsyncLock ι := ⟨false, []⟩

/-- `acquire` takes the lock without waiting. -/
def free (l : AsyncLock ι) : Bool :=
  !l.locked && l.waiters.all fun waiter => waiter.2 = .cancelled

/-- The lock is held from now on. -/
def take (l : AsyncLock ι) : AsyncLock ι := { l with locked := true }

/-- `acquire` has to wait: a new future at the end of the queue. -/
def enqueue (i : ι) (l : AsyncLock ι) : AsyncLock ι :=
  { l with waiters := l.waiters ++ [(i, .pending)] }

/-- `fut.cancel()`, which does nothing to a future that is done. -/
def cancel (i : ι) (l : AsyncLock ι) : AsyncLock ι :=
  { l with waiters := l.waiters.map fun waiter =>
      if waiter = (i, .pending) then (i, .cancelled) else waiter }

/-- `_waiters.remove(fut)`. -/
def remove (i : ι) (l : AsyncLock ι) : AsyncLock ι :=
  { l with waiters := l.waiters.filter fun waiter => waiter.1 ≠ i }

/-- `_wake_up_first`. -/
def wakeUpFirst (l : AsyncLock ι) : AsyncLock ι :=
  match l.waiters with
  | (i, .pending) :: rest => { l with waiters := (i, .done) :: rest }
  | _ => l

/-- `Lock.release`. -/
def release (l : AsyncLock ι) : AsyncLock ι :=
  wakeUpFirst { l with locked := false }

/-- A waiter leaves with `CancelledError`: the next one is woken, unless the
lock is taken. -/
def giveUp (i : ι) (l : AsyncLock ι) : AsyncLock ι :=
  if l.locked then l.remove i else (l.remove i).wakeUpFirst

/-- A waiter that was woken stands first in the queue of an unlocked lock. -/
def DoneFirst (l : AsyncLock ι) : Prop :=
  ∀ i, (i, Wake.done) ∈ l.waiters → l.waiters.head? = some (i, .done) ∧ l.locked = false

theorem doneFirst_new : (new : AsyncLock ι).DoneFirst := by
  intro i h
  exact absurd h List.not_mem_nil

/-- A lock that can be taken at once has woken nobody. -/
theorem notMem_done_of_free {l : AsyncLock ι} (h : l.free = true) (i : ι) :
    (i, Wake.done) ∉ l.waiters := by
  intro hmem
  simp only [free, Bool.and_eq_true, List.all_eq_true, decide_eq_true_eq] at h
  exact absurd (h.2 _ hmem) (by simp)

theorem locked_of_free {l : AsyncLock ι} (h : l.free = true) : l.locked = false := by
  simp only [free, Bool.and_eq_true, Bool.not_eq_true'] at h
  exact h.1

theorem doneFirst_of_notMem {l : AsyncLock ι} (h : ∀ i, (i, Wake.done) ∉ l.waiters) :
    l.DoneFirst :=
  fun i hmem => absurd hmem (h i)

theorem doneFirst_enqueue {l : AsyncLock ι} (h : l.DoneFirst) (i : ι) :
    (l.enqueue i).DoneFirst := by
  intro j hmem
  have hold : (j, Wake.done) ∈ l.waiters := by
    rcases List.mem_append.mp hmem with hmem | hmem
    · exact hmem
    · simp at hmem
  obtain ⟨hhead, hlocked⟩ := h j hold
  exact ⟨by rw [enqueue, List.head?_append, hhead]; rfl, hlocked⟩

theorem doneFirst_cancel {l : AsyncLock ι} (h : l.DoneFirst) (i : ι) : (l.cancel i).DoneFirst := by
  intro j hmem
  obtain ⟨waiter, hwaiter, heq⟩ := List.mem_map.mp hmem
  have hold : waiter = (j, Wake.done) := by
    split at heq
    · simp at heq
    · exact heq
  subst hold
  obtain ⟨hhead, hlocked⟩ := h j hwaiter
  refine ⟨?_, hlocked⟩
  rw [cancel, List.head?_map, hhead, Option.map_some, if_neg (by simp)]

theorem doneFirst_remove {l : AsyncLock ι} (h : l.DoneFirst) (i : ι) : (l.remove i).DoneFirst := by
  intro j hmem
  obtain ⟨hold, hne⟩ := List.mem_filter.mp hmem
  obtain ⟨hhead, hlocked⟩ := h j hold
  refine ⟨?_, hlocked⟩
  obtain ⟨rest, hrest⟩ := List.head?_eq_some_iff.mp hhead
  simp only [remove, hrest, List.filter_cons, if_pos hne, List.head?_cons]

theorem doneFirst_wakeUpFirst {l : AsyncLock ι} (h : l.DoneFirst) (hlocked : l.locked = false) :
    l.wakeUpFirst.DoneFirst := by
  unfold wakeUpFirst
  split
  · next i rest hwaiters =>
      -- the head was pending, so nobody was awake before
      intro j hmem
      rcases List.mem_cons.mp hmem with heq | hrest
      · exact ⟨congrArg some heq.symm, hlocked⟩
      · have hhead := (h j (by rw [hwaiters]; exact List.mem_cons_of_mem _ hrest)).1
        rw [hwaiters] at hhead
        simp at hhead
  · exact h

@[simp] theorem locked_wakeUpFirst (l : AsyncLock ι) : l.wakeUpFirst.locked = l.locked := by
  unfold wakeUpFirst
  split <;> rfl

@[simp] theorem locked_release (l : AsyncLock ι) : l.release.locked = false := by
  rw [release, locked_wakeUpFirst]

@[simp] theorem locked_giveUp (l : AsyncLock ι) (i : ι) : (l.giveUp i).locked = l.locked := by
  unfold giveUp
  split <;> simp [remove]

/-- The holder of the lock finds nobody awake. -/
theorem notMem_done_of_locked {l : AsyncLock ι} (h : l.DoneFirst) (hlocked : l.locked = true)
    (i : ι) : (i, Wake.done) ∉ l.waiters := by
  intro hmem
  simp [(h i hmem).2] at hlocked

theorem doneFirst_release {l : AsyncLock ι} (h : l.DoneFirst) (hlocked : l.locked = true) :
    l.release.DoneFirst := by
  refine doneFirst_wakeUpFirst (doneFirst_of_notMem fun i => ?_) rfl
  exact notMem_done_of_locked h hlocked i

theorem doneFirst_giveUp {l : AsyncLock ι} (h : l.DoneFirst) (i : ι) : (l.giveUp i).DoneFirst := by
  unfold giveUp
  split
  · exact doneFirst_remove h i
  · next hlocked =>
      exact doneFirst_wakeUpFirst (doneFirst_remove h i) (Bool.not_eq_true _ ▸ hlocked)

/-- The woken waiter was the only one awake. -/
theorem doneFirst_take_remove {l : AsyncLock ι} (h : l.DoneFirst) {i : ι}
    (hmem : (i, Wake.done) ∈ l.waiters) : (l.remove i).take.DoneFirst := by
  refine doneFirst_of_notMem fun j hj => ?_
  obtain ⟨hold, hne⟩ := List.mem_filter.mp hj
  have hsame := (h j hold).1.symm.trans (h i hmem).1
  simp only [Option.some.injEq, Prod.mk.injEq, and_true] at hsame
  simp [hsame] at hne

/-- The tasks that wait in the queue. -/
def queue (l : AsyncLock ι) : List ι :=
  l.waiters.map Prod.fst

@[simp] theorem queue_wakeUpFirst (l : AsyncLock ι) : l.wakeUpFirst.queue = l.queue := by
  unfold wakeUpFirst
  split
  · next hwaiters => simp [queue, hwaiters]
  · rfl

@[simp] theorem queue_release (l : AsyncLock ι) : l.release.queue = l.queue := by
  rw [release, queue_wakeUpFirst]
  rfl

@[simp] theorem queue_cancel (l : AsyncLock ι) (i : ι) : (l.cancel i).queue = l.queue := by
  simp only [queue, cancel, List.map_map]
  refine List.map_congr_left fun waiter _ => ?_
  simp only [Function.comp_apply]
  split
  · next heq => rw [heq]
  · rfl

@[simp] theorem queue_enqueue (l : AsyncLock ι) (i : ι) : (l.enqueue i).queue = l.queue ++ [i] := by
  simp [queue, enqueue]

@[simp] theorem queue_take (l : AsyncLock ι) : l.take.queue = l.queue := rfl

theorem mem_queue_remove {l : AsyncLock ι} {i j : ι} :
    j ∈ (l.remove i).queue ↔ j ∈ l.queue ∧ j ≠ i := by
  simp only [queue, remove, List.mem_map, List.mem_filter, decide_eq_true_eq]
  constructor
  · rintro ⟨waiter, ⟨hmem, hne⟩, rfl⟩
    exact ⟨⟨waiter, hmem, rfl⟩, hne⟩
  · rintro ⟨⟨waiter, hmem, rfl⟩, hne⟩
    exact ⟨waiter, ⟨hmem, hne⟩, rfl⟩

theorem mem_queue_giveUp {l : AsyncLock ι} {i j : ι} :
    j ∈ (l.giveUp i).queue ↔ j ∈ l.queue ∧ j ≠ i := by
  unfold giveUp
  split
  · exact mem_queue_remove
  · rw [queue_wakeUpFirst]
    exact mem_queue_remove

end AsyncLock

/-! ## The registry -/

/-- What a task does with the lock it refers to. -/
inductive Hold where
  | waiting (cancelRequested : Bool)
  | holding
  deriving DecidableEq, Repr

/-- All locks, the registry that finds them by key, and the lock that the frame
of each task refers to. -/
structure LockTable (κ ι : Type) where
  registry : κ → Option ℕ
  nextLock : ℕ
  lock : ℕ → AsyncLock ι
  claim : ι → Option (κ × ℕ × Hold)

variable {κ : Type} [DecidableEq κ]

namespace LockTable

/-- Before the first claim: no key has a lock, and no lock was made. -/
def empty : LockTable κ ι := ⟨fun _ => none, 0, fun _ => .new, fun _ => none⟩

/-- Lock `l` changes its state. -/
def setLock (t : LockTable κ ι) (l : ℕ) (lock : AsyncLock ι) : LockTable κ ι :=
  { t with lock := Function.update t.lock l lock }

/-- Task `i` has another claim, or none. -/
def setClaim (t : LockTable κ ι) (i : ι) (claim : Option (κ × ℕ × Hold)) : LockTable κ ι :=
  { t with claim := Function.update t.claim i claim }

/-- Look the lock of a key up, or create it. -/
def getLock (t : LockTable κ ι) (k : κ) : ℕ × LockTable κ ι :=
  match t.registry k with
  | some l => (l, t)
  | none => (t.nextLock,
      { t.setLock t.nextLock .new with
        registry := Function.update t.registry k (some t.nextLock)
        nextLock := t.nextLock + 1 })

/-- `async with` on the lock of `k`, up to the first suspension. -/
def acquire (t : LockTable κ ι) (i : ι) (k : κ) : LockTable κ ι :=
  let (l, t) := t.getLock k
  if (t.lock l).free then
    (t.setLock l (t.lock l).take).setClaim i (some (k, l, .holding))
  else
    (t.setLock l ((t.lock l).enqueue i)).setClaim i (some (k, l, .waiting false))

/-- `task.cancel()` while the task waits for the lock. -/
def cancel (t : LockTable κ ι) (i : ι) : LockTable κ ι :=
  match t.claim i with
  | some (k, l, .waiting _) =>
      if (i, Wake.pending) ∈ (t.lock l).waiters then t.setLock l ((t.lock l).cancel i)
      else t.setClaim i (some (k, l, .waiting true))
  | _ => t

/-- A waiting task whose future is done goes on: it takes the lock, or leaves
with `CancelledError`. -/
def resume (t : LockTable κ ι) (i : ι) : LockTable κ ι :=
  match t.claim i with
  | some (k, l, .waiting cancelRequested) =>
      if (i, Wake.pending) ∈ (t.lock l).waiters then t
      else if (i, Wake.done) ∈ (t.lock l).waiters ∧ cancelRequested = false then
        (t.setLock l ((t.lock l).remove i).take).setClaim i (some (k, l, .holding))
      else
        (t.setLock l ((t.lock l).giveUp i)).setClaim i none
  | _ => t

/-- The end of the `async with` block. -/
def release (t : LockTable κ ι) (i : ι) : LockTable κ ι :=
  match t.claim i with
  | some (_, l, .holding) => (t.setLock l (t.lock l).release).setClaim i none
  | _ => t

/-- The registry loses its entry. -/
def drop (t : LockTable κ ι) (k : κ) : LockTable κ ι :=
  { t with registry := Function.update t.registry k none }

/-- No task refers to a lock registered for `k`. -/
def Unreferenced (t : LockTable κ ι) (k : κ) : Prop :=
  ∀ l, t.registry k = some l → ∀ i k' hold, t.claim i ≠ some (k', l, hold)

/-- The task holds the lock of `k`. -/
def Holds (t : LockTable κ ι) (i : ι) (k : κ) : Prop :=
  ∃ l, t.claim i = some (k, l, .holding)

end LockTable

/-! ## What an operation does to the claims -/

namespace LockTable

variable {t : LockTable κ ι} {i j : ι} {k : κ} {l : ℕ}

theorem claim_acquire_of_ne (hji : j ≠ i) : (t.acquire i k).claim j = t.claim j := by
  have hclaim : (t.getLock k).2.claim = t.claim := by
    unfold getLock
    split <;> rfl
  rw [acquire, ← hclaim]
  generalize t.getLock k = found
  dsimp only
  split <;> simp [setClaim, setLock, Function.update_of_ne hji]

theorem claim_acquire (t : LockTable κ ι) (i : ι) (k : κ) :
    (t.acquire i k).Holds i k ∨ ∃ l, (t.acquire i k).claim i = some (k, l, .waiting false) := by
  rw [acquire]
  generalize t.getLock k = found
  dsimp only
  split
  · exact .inl ⟨_, Function.update_self ..⟩
  · exact .inr ⟨_, Function.update_self ..⟩

theorem claim_cancel_of_ne (hji : j ≠ i) : (t.cancel i).claim j = t.claim j := by
  unfold cancel
  split
  · split
    · rfl
    · simp [setClaim, Function.update_of_ne hji]
  · rfl

theorem claim_cancel {requested : Bool} (h : t.claim i = some (k, l, .waiting requested)) :
    ∃ requested', (t.cancel i).claim i = some (k, l, .waiting requested') := by
  unfold cancel
  rw [h]
  dsimp only
  split
  · exact ⟨requested, h⟩
  · exact ⟨true, Function.update_self ..⟩

theorem claim_resume_of_ne (hji : j ≠ i) : (t.resume i).claim j = t.claim j := by
  unfold resume
  split
  · split
    · rfl
    · split <;> simp [setClaim, setLock, Function.update_of_ne hji]
  · rfl

/-- A resumed task goes on waiting, holds the lock or has left. -/
theorem claim_resume {requested : Bool} (h : t.claim i = some (k, l, .waiting requested)) :
    (t.resume i).claim i = some (k, l, .waiting requested) ∨ (t.resume i).Holds i k ∨
      (t.resume i).claim i = none := by
  unfold resume
  rw [h]
  dsimp only
  split
  · exact .inl h
  · split
    · exact .inr (.inl ⟨l, Function.update_self ..⟩)
    · exact .inr (.inr (Function.update_self ..))

theorem claim_release_of_ne (hji : j ≠ i) : (t.release i).claim j = t.claim j := by
  unfold release
  split
  · simp [setClaim, setLock, Function.update_of_ne hji]
  · rfl

theorem claim_release (h : t.Holds i k) : (t.release i).claim i = none := by
  obtain ⟨l, h⟩ := h
  unfold release
  rw [h]
  exact Function.update_self ..

end LockTable

/-! ## The invariant -/

/-- What holds of the table after any events: a claimed lock is the registered one of its key. -/
structure LockInv (t : LockTable κ ι) : Prop where
  /-- A lock that is referred to is the registered one. -/
  registered : ∀ {i k l hold}, t.claim i = some (k, l, hold) → t.registry k = some l
  injective : ∀ {k k' l}, t.registry k = some l → t.registry k' = some l → k = k'
  fresh : ∀ {k l}, t.registry k = some l → l < t.nextLock
  /-- A queue holds tasks that wait for its lock. -/
  waits : ∀ {i l}, i ∈ (t.lock l).queue → ∃ k requested, t.claim i = some (k, l, .waiting requested)
  doneFirst : ∀ l, (t.lock l).DoneFirst
  /-- A lock is locked exactly while it has a holder, and it has one at most. -/
  locked : ∀ {i k l}, t.claim i = some (k, l, .holding) → (t.lock l).locked = true
  holder : ∀ {l}, (t.lock l).locked = true → ∃ i k, t.claim i = some (k, l, .holding)
  unique : ∀ {i j k k' l}, t.claim i = some (k, l, .holding) → t.claim j = some (k', l, .holding) →
    i = j

namespace LockInv

variable {t : LockTable κ ι} {i j : ι} {k : κ} {l : ℕ}

theorem empty : LockInv (LockTable.empty : LockTable κ ι) where
  registered h := by simp [LockTable.empty] at h
  injective h := by simp [LockTable.empty] at h
  fresh h := by simp [LockTable.empty] at h
  waits h := by simp [LockTable.empty, AsyncLock.new, AsyncLock.queue] at h
  doneFirst _ := AsyncLock.doneFirst_new
  locked h := by simp [LockTable.empty] at h
  holder h := by simp [LockTable.empty, AsyncLock.new] at h
  unique h := by simp [LockTable.empty] at h

/-- A registered key is the new one or has an older lock. -/
private theorem registry_cases (h : LockInv t) {k' : κ}
    (hl : Function.update t.registry k (some t.nextLock) k' = some l) :
    (k' = k ∧ l = t.nextLock) ∨ (k' ≠ k ∧ t.registry k' = some l ∧ l < t.nextLock) := by
  by_cases hkk : k' = k
  · subst hkk
    rw [Function.update_self, Option.some.injEq] at hl
    exact .inl ⟨rfl, hl.symm⟩
  · rw [Function.update_of_ne hkk] at hl
    exact .inr ⟨hkk, hl, h.fresh hl⟩

/-- No task refers to the lock that is created next. -/
private theorem ne_nextLock (h : LockInv t) {hold : Hold} (hclaim : t.claim i = some (k, l, hold)) :
    l ≠ t.nextLock :=
  Nat.ne_of_lt (h.fresh (h.registered hclaim))

theorem getLock (h : LockInv t) (k : κ) :
    LockInv (t.getLock k).2 ∧ (t.getLock k).2.registry k = some (t.getLock k).1 ∧
      (t.getLock k).2.claim = t.claim := by
  unfold LockTable.getLock
  cases hk : t.registry k with
  | some l => exact ⟨h, hk, rfl⟩
  | none =>
      refine ⟨?_, Function.update_self .., rfl⟩
      constructor
      case unique => exact h.unique
      case registered =>
        intro i k' l hold hclaim
        have hne : k' ≠ k := by
          rintro rfl
          rw [h.registered hclaim] at hk
          simp at hk
        simp only [Function.update_of_ne hne]
        exact h.registered hclaim
      case injective =>
        intro k₁ k₂ l h₁ h₂
        rcases h.registry_cases h₁ with ⟨rfl, rfl⟩ | ⟨-, h₁, hlt₁⟩ <;>
          rcases h.registry_cases h₂ with ⟨rfl, hl⟩ | ⟨-, h₂, hlt₂⟩
        · rfl
        · omega
        · omega
        · exact h.injective h₁ h₂
      case fresh =>
        intro k' l hl
        show l < t.nextLock + 1
        rcases h.registry_cases hl with ⟨-, rfl⟩ | ⟨-, -, hlt⟩ <;> omega
      case waits =>
        intro i l hi
        simp only [LockTable.setLock, Function.update_apply] at hi
        split at hi
        · simp [AsyncLock.new, AsyncLock.queue] at hi
        · exact h.waits hi
      case doneFirst =>
        intro l
        simp only [LockTable.setLock, Function.update_apply]
        split
        · exact AsyncLock.doneFirst_new
        · exact h.doneFirst l
      case locked =>
        intro i k' l hclaim
        simp only [LockTable.setLock, Function.update_of_ne (h.ne_nextLock hclaim)]
        exact h.locked hclaim
      case holder =>
        intro l hl
        simp only [LockTable.setLock, Function.update_apply] at hl
        split at hl
        · simp [AsyncLock.new] at hl
        · exact h.holder hl

/-- A claim of the new table is the new claim of `i` or an old one of another task. -/
private theorem claim_cases {hold : Option Hold} {k' : κ} {l' : ℕ} {hold' : Hold}
    (hj : Function.update t.claim i (hold.map fun hold => (k, l, hold)) j = some (k', l', hold')) :
    (j = i ∧ k' = k ∧ l' = l ∧ hold = some hold') ∨
      (j ≠ i ∧ t.claim j = some (k', l', hold')) := by
  by_cases hji : j = i
  · subst hji
    rw [Function.update_self] at hj
    obtain ⟨hold₀, rfl, heq⟩ := Option.map_eq_some_iff.mp hj
    simp only [Prod.mk.injEq] at heq
    obtain ⟨rfl, rfl, rfl⟩ := heq
    exact .inl ⟨rfl, rfl, rfl, rfl⟩
  · rw [Function.update_of_ne hji] at hj
    exact .inr ⟨hji, hj⟩

/-- One task changes what it does with one registered lock. -/
private theorem change (h : LockInv t) (hreg : t.registry k = some l) (hold : Option Hold)
    {lock : AsyncLock ι} (hclaim : ∀ {k' l' hold'}, t.claim i = some (k', l', hold') → l' = l)
    (hqueue : ∀ {j}, j ∈ lock.queue →
      (j ≠ i ∧ j ∈ (t.lock l).queue) ∨ (j = i ∧ ∃ requested, hold = some (.waiting requested)))
    (hdone : lock.DoneFirst)
    (hlocked : lock.locked = true ↔
      hold = some .holding ∨ ∃ j k', j ≠ i ∧ t.claim j = some (k', l, .holding))
    (halone : hold = some .holding → ∀ {j k'}, j ≠ i → t.claim j ≠ some (k', l, .holding)) :
    LockInv ((t.setLock l lock).setClaim i (hold.map fun hold => (k, l, hold))) := by
  have hother : ∀ {j k' l' hold'}, j ≠ i → t.claim j = some (k', l', hold') →
      Function.update t.claim i (hold.map fun hold => (k, l, hold)) j = some (k', l', hold') := by
    intro j k' l' hold' hji hj
    rwa [Function.update_of_ne hji]
  -- a task that refers to another lock is not the one that moved
  have hne : ∀ {j k' l' hold'}, l' ≠ l → t.claim j = some (k', l', hold') → j ≠ i := by
    rintro j k' l' hold' hl hj rfl
    exact hl (hclaim hj)
  constructor
  case injective => exact h.injective
  case fresh => exact h.fresh
  case registered =>
    intro j k' l' hold' hj
    rcases claim_cases hj with ⟨-, rfl, rfl, -⟩ | ⟨-, hj⟩
    · exact hreg
    · exact h.registered hj
  case waits =>
    intro j l' hj
    simp only [LockTable.setClaim, LockTable.setLock, Function.update_apply] at hj
    split at hj
    · next heq =>
        subst heq
        rcases hqueue hj with ⟨hji, hj⟩ | ⟨rfl, requested, rfl⟩
        · obtain ⟨k', requested, hj⟩ := h.waits hj
          exact ⟨k', requested, hother hji hj⟩
        · exact ⟨k, requested, Function.update_self ..⟩
    · next hl =>
        obtain ⟨k', requested, hj⟩ := h.waits hj
        exact ⟨k', requested, hother (hne hl hj) hj⟩
  case doneFirst =>
    intro l'
    simp only [LockTable.setClaim, LockTable.setLock, Function.update_apply]
    split
    · exact hdone
    · exact h.doneFirst l'
  case locked =>
    intro j k' l' hj
    simp only [LockTable.setClaim, LockTable.setLock, Function.update_apply]
    rcases claim_cases hj with ⟨-, -, rfl, hhold⟩ | ⟨hji, hold⟩
    · rw [if_pos rfl]
      exact hlocked.mpr (.inl hhold)
    · split
      · next heq =>
          subst heq
          exact hlocked.mpr (.inr ⟨j, k', hji, hold⟩)
      · exact h.locked hold
  case holder =>
    intro l' hl
    simp only [LockTable.setClaim, LockTable.setLock, Function.update_apply] at hl
    split at hl
    · next heq =>
        subst heq
        rcases hlocked.mp hl with rfl | ⟨j, k', hji, hj⟩
        · exact ⟨i, k, Function.update_self ..⟩
        · exact ⟨j, k', hother hji hj⟩
    · next hl' =>
        obtain ⟨j, k', hj⟩ := h.holder hl
        exact ⟨j, k', hother (hne hl' hj) hj⟩
  case unique =>
    intro j j' k₁ k₂ l' h₁ h₂
    rcases claim_cases h₁ with ⟨rfl, -, rfl, hhold⟩ | ⟨hj, hold₁⟩ <;>
      rcases claim_cases h₂ with ⟨rfl, -, hl, hhold'⟩ | ⟨hj', hold₂⟩
    · rfl
    · exact absurd hold₂ (halone hhold hj')
    · exact absurd (hl ▸ hold₁) (halone hhold' hj)
    · exact h.unique hold₁ hold₂

/-- An unlocked lock has no holder. -/
theorem no_holder (h : LockInv t) (hlocked : (t.lock l).locked = false) (i : ι) (k : κ) :
    t.claim i ≠ some (k, l, .holding) := by
  intro hclaim
  rw [h.locked hclaim] at hlocked
  simp at hlocked

theorem acquire (h : LockInv t) (hidle : t.claim i = none) : LockInv (t.acquire i k) := by
  obtain ⟨hinv, hreg, hclaims⟩ := h.getLock k
  rw [LockTable.acquire]
  generalize t.getLock k = found at hinv hreg hclaims
  obtain ⟨l, t'⟩ := found
  have hnone : t'.claim i = none := by rw [hclaims, hidle]
  have hnotqueued : ∀ {j}, j ∈ (t'.lock l).queue → j ≠ i := by
    rintro j hj rfl
    obtain ⟨k', requested, hclaim⟩ := hinv.waits hj
    simp [hnone] at hclaim
  dsimp only
  split
  · next hfree =>
      have hunlocked := AsyncLock.locked_of_free hfree
      refine hinv.change hreg (some .holding) (by simp [hnone])
        (fun hj => .inl ⟨hnotqueued hj, hj⟩) (AsyncLock.doneFirst_of_notMem fun j => ?_) ?_ ?_
      · exact AsyncLock.notMem_done_of_free hfree j
      · simp [AsyncLock.take]
      · intro _ j k' _
        exact hinv.no_holder hunlocked j k'
  · refine hinv.change hreg (some (.waiting false)) (by simp [hnone]) (fun hj => ?_)
      (AsyncLock.doneFirst_enqueue (hinv.doneFirst l) i) ?_ (by simp)
    · rw [AsyncLock.queue_enqueue, List.mem_append, List.mem_singleton] at hj
      rcases hj with hj | rfl
      · exact .inl ⟨hnotqueued hj, hj⟩
      · exact .inr ⟨rfl, false, rfl⟩
    · show (t'.lock l).locked = true ↔ _
      constructor
      · intro hlocked
        obtain ⟨j, k', hj⟩ := hinv.holder hlocked
        refine .inr ⟨j, k', ?_, hj⟩
        rintro rfl
        simp [hnone] at hj
      · rintro (hhold | ⟨j, k', -, hj⟩)
        · simp at hhold
        · exact hinv.locked hj

/-- The holders of the lock of a waiting task are other tasks. -/
private theorem locked_iff (h : LockInv t) {requested : Bool}
    (hclaim : t.claim i = some (k, l, .waiting requested)) :
    (t.lock l).locked = true ↔ ∃ j k', j ≠ i ∧ t.claim j = some (k', l, .holding) := by
  constructor
  · intro hlocked
    obtain ⟨j, k', hj⟩ := h.holder hlocked
    refine ⟨j, k', ?_, hj⟩
    rintro rfl
    simp [hclaim] at hj
  · rintro ⟨j, k', -, hj⟩
    exact h.locked hj

private theorem lock_unique {hold : Hold} (hclaim : t.claim i = some (k, l, hold)) {k' : κ} {l' : ℕ}
    {hold' : Hold} (hclaim' : t.claim i = some (k', l', hold')) : l' = l := by
  rw [hclaim] at hclaim'
  simp only [Option.some.injEq, Prod.mk.injEq] at hclaim'
  exact hclaim'.2.1.symm

/-- The lock of a waiting task changes, and the task goes on waiting. -/
private theorem wait (h : LockInv t) {requested : Bool} (requested' : Bool) {lock : AsyncLock ι}
    (hclaim : t.claim i = some (k, l, .waiting requested))
    (hqueue : lock.queue = (t.lock l).queue) (hdone : lock.DoneFirst)
    (hlocked : lock.locked = (t.lock l).locked) :
    LockInv ((t.setLock l lock).setClaim i (some (k, l, .waiting requested'))) := by
  refine h.change (h.registered hclaim) (some (.waiting requested')) (lock_unique hclaim)
    (fun {j} hj => ?_) hdone ?_ (by simp)
  · by_cases hji : j = i
    · exact .inr ⟨hji, requested', rfl⟩
    · exact .inl ⟨hji, hqueue ▸ hj⟩
  · rw [hlocked, h.locked_iff hclaim]
    simp

theorem cancel (h : LockInv t) (i : ι) : LockInv (t.cancel i) := by
  unfold LockTable.cancel
  split
  · next k l requested hclaim =>
      split
      · have hinv := h.wait requested hclaim (AsyncLock.queue_cancel (t.lock l) i)
          (AsyncLock.doneFirst_cancel (h.doneFirst l) i) rfl
        rw [← hclaim] at hinv
        simpa [LockTable.setClaim, LockTable.setLock] using hinv
      · have hinv := h.wait true hclaim rfl (h.doneFirst l) rfl
        simpa [LockTable.setLock] using hinv
  · exact h

theorem resume (h : LockInv t) (i : ι) : LockInv (t.resume i) := by
  unfold LockTable.resume
  split
  · next k l requested hclaim =>
      have hreg := h.registered hclaim
      split
      · exact h
      · split
        · next hdone =>
            have hunlocked := (h.doneFirst l i hdone.1).2
            refine h.change hreg (some .holding) (lock_unique hclaim) (fun hj => ?_)
              (AsyncLock.doneFirst_take_remove (h.doneFirst l) hdone.1)
              (by simp [AsyncLock.take]) ?_
            · rw [AsyncLock.queue_take, AsyncLock.mem_queue_remove] at hj
              exact .inl hj.symm
            · intro _ j k' _
              exact h.no_holder hunlocked j k'
        · refine h.change hreg none (lock_unique hclaim) (fun hj => ?_)
            (AsyncLock.doneFirst_giveUp (h.doneFirst l) i) ?_ (by simp)
          · rw [AsyncLock.mem_queue_giveUp] at hj
            exact .inl hj.symm
          · rw [AsyncLock.locked_giveUp, h.locked_iff hclaim]
            simp
  · exact h

theorem release (h : LockInv t) (i : ι) : LockInv (t.release i) := by
  unfold LockTable.release
  split
  · next k l hclaim =>
      have hlocked := h.locked hclaim
      refine h.change (h.registered hclaim) none (lock_unique hclaim) (fun {j} hj => ?_)
        (AsyncLock.doneFirst_release (h.doneFirst l) hlocked) ?_ (by simp)
      · rw [AsyncLock.queue_release] at hj
        refine .inl ⟨?_, hj⟩
        rintro rfl
        obtain ⟨k', requested, hwaits⟩ := h.waits hj
        simp [hclaim] at hwaits
      · rw [AsyncLock.locked_release]
        constructor
        · intro hfalse
          simp at hfalse
        · rintro (hhold | ⟨j, k', hji, hj⟩)
          · simp at hhold
          · exact absurd (h.unique hj hclaim) hji
  · exact h

theorem drop (h : LockInv t) (hunref : t.Unreferenced k) : LockInv (t.drop k) := by
  have hne : ∀ {k' l}, Function.update t.registry k none k' = some l →
      k' ≠ k ∧ t.registry k' = some l := by
    intro k' l hl
    by_cases hkk : k' = k
    · subst hkk
      simp at hl
    · rw [Function.update_of_ne hkk] at hl
      exact ⟨hkk, hl⟩
  refine ⟨?_, ?_, ?_, h.waits, h.doneFirst, h.locked, h.holder, h.unique⟩
  · intro i k' l hold hclaim
    have hreg := h.registered hclaim
    have hkk : k' ≠ k := by
      rintro rfl
      exact hunref l hreg i k' hold hclaim
    simp only [LockTable.drop, Function.update_of_ne hkk]
    exact hreg
  · intro k₁ k₂ l h₁ h₂
    exact h.injective (hne h₁).2 (hne h₂).2
  · intro k' l hl
    exact h.fresh (hne hl).2

/-- **Mutual exclusion.**  A key has at most one holder. -/
theorem mutualExclusion (h : LockInv t) (hi : t.Holds i k) (hj : t.Holds j k) : i = j := by
  obtain ⟨l, hi⟩ := hi
  obtain ⟨l', hj⟩ := hj
  have hl := (h.registered hi).symm.trans (h.registered hj)
  rw [Option.some.injEq] at hl
  subst hl
  exact h.unique hi hj

/-- A registered lock without a holder is unlocked. -/
theorem unlocked (h : LockInv t) (hreg : t.registry k = some l) (hnone : ∀ i, ¬ t.Holds i k) :
    (t.lock l).locked = false := by
  by_contra hlocked
  rw [Bool.not_eq_false] at hlocked
  obtain ⟨i, k', hi⟩ := h.holder hlocked
  obtain rfl := h.injective hreg (h.registered hi)
  exact hnone i ⟨l, hi⟩

end LockInv

end Cooperative
