import Mathlib.Tactic.Linarith
import MomBot.Cooperative.Keeping
import MomBot.PostConditions.CatalogCalls

/-!
# One catalog fetch at a time

What the modes of `catalogProtocol` mean for the client:

* Only the holder of the lock fetches or writes to the cache, so at most one fetch is in
  flight, and what the holder has seen of the cache stays true while it awaits.
* What a call returns was in the cache, younger than the TTL, or has just been fetched.
* A fetch that fails leaves the cache as it was when it started, and releases the lock.

Tasks switch only where they await.  A stretch between two awaits takes no time: it reads
the clock at most once, and that reading is its time.
-/

set_option linter.unusedSectionVars false

namespace MomBot.PostConditions

open Cooperative Python

/-! ## Schedules -/

section Schedules

variable {ι : Type}

/-- The lock is handed out while it is free, tasks switch only where they await, and time
passes between the stretches. -/
def CatalogEvent (config : Config clientEffects ClientState ι ClientMethod
    (Except ClientFailure JsonValue)) (event : Event clientEffects ClientState ι ClientMethod) :
    Prop :=
  lockGranted config event = true ∧ Concurrent.SwitchesAtAwaits config event ∧
    (event.isOutside = true → ∀ i, (config.task i).isReady = false)

instance [Fintype ι] [DecidableEq ι] (config : Config clientEffects ClientState ι ClientMethod
    (Except ClientFailure JsonValue)) : DecidablePred (CatalogEvent config) :=
  fun _ => inferInstanceAs (Decidable (_ ∧ _ ∧ _))

end Schedules

/-! ## What the modes mean -/

/-- A fetch of the level completed with `payload` at `time`. -/
def Fetched (c : SiegeWebClient) (s : ClientState) (level : Option ℤ) (payload : JsonValue)
    (time : ℚ) : Prop :=
  ∃ e ∈ s.exchanges, e.request = c.catalogRequest level ∧
    outcomeOf e.request e.reply = .ok payload ∧ e.receivedAt = time

/-- The entry of a level, if there is one, has reached the TTL. -/
def Stale (s : ClientState) (level : Option ℤ) : Prop :=
  ∀ ts payload, s.catalogCache level = some (ts, payload) → catalogCacheTtl ≤ s.now - ts

/-- A fetch of the level has just been answered by `reply`. -/
def JustReplied (c : SiegeWebClient) (s : ClientState) (level : Option ℤ) (reply : Reply) : Prop :=
  ∃ e ∈ s.exchanges, e.request = c.catalogRequest level ∧ e.reply = reply ∧ e.receivedAt = s.now

/-- What a call has seen is so.  Only the holder of the lock can count on a miss. -/
def Seen.Means (c : SiegeWebClient) (s : ClientState) (level : Option ℤ) (phase : Phase) :
    Seen → Prop
  | nothing => True
  | entry ts payload => s.catalogCache level = some (ts, payload)
  | fresh payload => ∃ time, Fetched c s level payload time ∧ s.now - time < catalogCacheTtl
  | missed => phase = .holding → Stale s level
  | replied reply => (phase = .holding → Stale s level) ∧ JustReplied c s level reply
  | stamped ts reply => ts = s.now ∧ JustReplied c s level reply
  | stored payload => Fetched c s level payload s.now

/-- What the call has seen of its level is so. -/
def CatalogMode.Means (c : SiegeWebClient) (s : ClientState) (t : CatalogMode) : Prop :=
  ∀ level, t.level = some level → t.seen.Means c s level t.phase

/-- One call holds the lock, the entries were fetched when they say, and what the calls have
seen is so. -/
structure CatalogHolds {ι : Type} (c : SiegeWebClient) (mode : ι → CatalogMode)
    (s : ClientState) : Prop where
  exclusive : ∀ i j, (mode i).phase = .holding → (mode j).phase = .holding → i = j
  locked : ∀ i, (mode i).phase = .holding → s.catalogCacheLocked = true
  entries : ∀ level ts payload, s.catalogCache level = some (ts, payload) →
    Fetched c s level payload ts
  means : ∀ i, (mode i).Means c s

/-- A mode that a task can have while it does not run. -/
def CatalogMode.Quiet (t : CatalogMode) : Prop :=
  t.seen = .nothing ∨ t.seen = .missed

section Sound

variable {ι : Type} [DecidableEq ι] {c : SiegeWebClient} {mode : ι → CatalogMode}
  {s s' : ClientState} {i : ι} {t : CatalogMode}
  {config config' : Config clientEffects ClientState ι ClientMethod
    (Except ClientFailure JsonValue)}

theorem Stale.mono {level : Option ℤ} (h : Stale s level)
    (hcache : s'.catalogCache = s.catalogCache) (hnow : s.now ≤ s'.now) : Stale s' level := by
  intro ts payload hentry
  rw [hcache] at hentry
  have hage := h ts payload hentry
  linarith

/-- What a quiet call counts on stays while nobody else writes to the cache it has locked. -/
theorem CatalogMode.Means.quiet (h : t.Means c s) (hquiet : t.Quiet)
    (hcache : t.phase = .holding → s'.catalogCache = s.catalogCache) (hnow : s.now ≤ s'.now) :
    t.Means c s' := by
  intro level hlevel
  have hmeans := h level hlevel
  rcases hquiet with hseen | hseen
  · rw [hseen]
    trivial
  · rw [hseen] at hmeans ⊢
    exact fun hholding => (hmeans hholding).mono (hcache hholding) hnow

theorem quiet_atCall {call : ClientCall} : (t.atCall call).Quiet := by
  unfold CatalogMode.atCall
  split
  next => exact .inl rfl
  next =>
    unfold Seen.atAwait
    split
    next => exact .inr rfl
    next => exact .inr rfl
    next => exact .inl rfl

/-- A task that is not ready is quiet. -/
theorem quiet_of_not_ready {progress : Progress clientEffects ClientMethod
      (Except ClientFailure JsonValue)}
    (hfits : (catalogProtocol c).Fits CatalogEnds progress t)
    (hbusy : progress.isReady = false) : t.Quiet := by
  cases progress with
  | idle =>
      obtain rfl : t = (catalogProtocol c).rest := hfits
      exact .inl rfl
  | ready x rest => cases hbusy
  | awaiting x call next =>
      obtain ⟨before, rfl, -, -⟩ := hfits
      exact quiet_atCall

/-- A task whose new mode is off the lock is not the one that holds it. -/
theorem holding_of_update (hphase : t.phase ≠ .holding) {j : ι}
    (hj : (Function.update mode i t j).phase = .holding) : j ≠ i ∧ (mode j).phase = .holding := by
  have hji : j ≠ i := by
    rintro rfl
    rw [Function.update_self] at hj
    exact hphase hj
  rw [Function.update_of_ne hji] at hj
  exact ⟨hji, hj⟩

/-- A task that takes no lock adds nobody to those that hold it. -/
theorem holding_of_kept (hphase : t.phase = .holding → (mode i).phase = .holding) {j : ι}
    (hj : (Function.update mode i t j).phase = .holding) : (mode j).phase = .holding := by
  by_cases hji : j = i
  · subst hji
    rw [Function.update_self] at hj
    exact hphase hj
  · rwa [Function.update_of_ne hji] at hj

/-- Only the mode of the task that moved is new, and what the others count on stays. -/
theorem CatalogHolds.update (h : CatalogHolds c mode s)
    (hquiet : ∀ j, j ≠ i → (mode j).Quiet)
    (hexclusive : t.phase = .holding → ∀ j, j ≠ i → (mode j).phase ≠ .holding)
    (hlocked : ∀ j, (Function.update mode i t j).phase = .holding → s'.catalogCacheLocked = true)
    (hcache : ∀ j, j ≠ i → (mode j).phase = .holding → s'.catalogCache = s.catalogCache)
    (hnow : s.now ≤ s'.now)
    (hentries : ∀ level ts payload, s'.catalogCache level = some (ts, payload) →
      Fetched c s' level payload ts)
    (hmeans : t.Means c s') : CatalogHolds c (Function.update mode i t) s' where
  exclusive := by
    intro j k hj hk
    by_cases hji : j = i
    · by_cases hki : k = i
      · rw [hji, hki]
      · subst hji
        rw [Function.update_self] at hj
        rw [Function.update_of_ne hki] at hk
        exact absurd hk (hexclusive hj k hki)
    · rw [Function.update_of_ne hji] at hj
      by_cases hki : k = i
      · subst hki
        rw [Function.update_self] at hk
        exact absurd hj (hexclusive hk j hji)
      · rw [Function.update_of_ne hki] at hk
        exact h.exclusive j k hj hk
  locked := hlocked
  entries := hentries
  means := by
    intro j
    by_cases hji : j = i
    · subst hji
      rw [Function.update_self]
      exact hmeans
    · rw [Function.update_of_ne hji]
      exact (h.means j).quiet (hquiet j hji) (hcache j hji) hnow

/-- The shared state is as it was, and the task has taken no lock. -/
theorem CatalogHolds.move (h : CatalogHolds c mode s)
    (hphase : t.phase = .holding → (mode i).phase = .holding) (hmeans : t.Means c s) :
    CatalogHolds c (Function.update mode i t) s := by
  refine ⟨fun j k hj hk => h.exclusive j k (holding_of_kept hphase hj) (holding_of_kept hphase hk),
    fun j hj => h.locked j (holding_of_kept hphase hj), h.entries, fun j => ?_⟩
  by_cases hji : j = i
  · subst hji
    rw [Function.update_self]
    exact hmeans
  · rw [Function.update_of_ne hji]
    exact h.means j

/-- A reading of the clock tells whether an entry is fresh. -/
theorem means_atClock {level : Option ℤ} {phase : Phase} {ts : ℚ} {payload : JsonValue}
    (hentry : s.catalogCache level = some (ts, payload)) (hfetched : Fetched c s level payload ts) :
    ((Seen.entry ts payload).atClock s.now).Means c s level phase := by
  dsimp only [Seen.atClock]
  by_cases hfresh : s.now - ts < catalogCacheTtl
  · rw [if_pos hfresh]
    exact ⟨ts, hfetched, hfresh⟩
  · rw [if_neg hfresh]
    intro _ ts' payload' hentry'
    obtain ⟨rfl, rfl⟩ := Prod.mk.inj (Option.some.inj (hentry.symm.trans hentry'))
    exact not_lt.mp hfresh

theorem means_some {level : Option ℤ} {phase : Phase} {seen : Seen}
    (h : seen.Means c s level phase) : CatalogMode.Means c s ⟨some level, phase, seen⟩ := by
  intro other hother
  obtain rfl := Option.some.inj hother
  exact h

theorem means_none {phase : Phase} {seen : Seen} : CatalogMode.Means c s ⟨none, phase, seen⟩ := by
  intro level hlevel
  cases hlevel

/-- The holder of the lock has no other beside it. -/
theorem CatalogHolds.ne_holding (h : CatalogHolds c mode s) (hi : (mode i).phase = .holding)
    (j : ι) (hji : j ≠ i) : (mode j).phase ≠ .holding :=
  fun hj => hji (h.exclusive j i hj hi)

/-- The entry that is written under the lock is what has just been fetched. -/
theorem CatalogHolds.set {level : Option ℤ} {ts : ℚ} {reply : Reply} {payload : JsonValue}
    (h : CatalogHolds c mode s) (hquiet : ∀ j, j ≠ i → (mode j).Quiet)
    (hmode : mode i = ⟨some level, .holding, .stamped ts reply⟩)
    (houtcome : outcomeOf (c.catalogRequest level) reply = .ok payload) :
    CatalogHolds c (Function.update mode i ⟨some level, .holding, .stored payload⟩)
      (s.exec (.catalogCacheSet level ts payload)).2 := by
  have hholding : (mode i).phase = .holding := by rw [hmode]
  have hmeans := h.means i
  rw [hmode] at hmeans
  obtain ⟨rfl, e, he, hrequest, rfl, hreceived⟩ := hmeans level rfl
  have hfetched : Fetched c s level payload s.now :=
    ⟨e, he, hrequest, hrequest ▸ houtcome, hreceived⟩
  refine h.update hquiet (fun _ => h.ne_holding hholding) (fun _ _ => h.locked i hholding)
    (fun j hji hj => absurd hj (h.ne_holding hholding j hji)) le_rfl ?_ (means_some hfetched)
  intro other ts' payload' hentry
  by_cases hother : other = level
  · subst hother
    have hstored : some (s.now, payload) = some (ts', payload') := by
      simpa [ClientState.exec] using hentry
    obtain ⟨rfl, rfl⟩ := Prod.mk.inj (Option.some.inj hstored)
    exact hfetched
  · have hold : s.catalogCache other = some (ts', payload') := by
      simpa [ClientState.exec, hother] using hentry
    exact h.entries other ts' payload' hold

/-- What a call has seen does not depend on the lock it gives back, but for a miss. -/
theorem means_released {level : Option ℤ} {seen : Seen} (h : seen.Means c s level .holding) :
    seen.Means c s level .released := by
  cases seen with
  | missed => exact fun hreleased => absurd hreleased released_ne_holding
  | replied reply => exact ⟨fun hreleased => absurd hreleased released_ne_holding, h.2⟩
  | nothing | entry | fresh | stamped | stored => exact h

theorem CatalogHolds.release {level : Option ℤ} {seen : Seen} (h : CatalogHolds c mode s)
    (hquiet : ∀ j, j ≠ i → (mode j).Quiet) (hmode : mode i = ⟨some level, .holding, seen⟩) :
    CatalogHolds c (Function.update mode i ⟨some level, .released, seen⟩)
      (s.exec .releaseLock).2 := by
  have hholding : (mode i).phase = .holding := by rw [hmode]
  have hmeans := h.means i
  rw [hmode] at hmeans
  refine h.update hquiet (fun hreleased => absurd hreleased released_ne_holding) ?_
    (fun _ _ _ => rfl) le_rfl h.entries (means_some (means_released (hmeans level rfl)))
  -- whoever held the lock beside this call would have been this call
  intro j hj
  obtain ⟨hji, hholds⟩ := holding_of_update released_ne_holding hj
  exact absurd hholds (h.ne_holding hholding j hji)

/-- An operation keeps what the modes mean. -/
theorem CatalogHolds.exec {o : ClientOp} (h : CatalogHolds c mode s)
    (hquiet : ∀ j, j ≠ i → (mode j).Quiet) (hok : CatalogOpOk c (mode i) o) :
    CatalogHolds c (Function.update mode i ((mode i).afterOp o (s.exec o).1)) (s.exec o).2 := by
  have hmeans := h.means i
  generalize ht : mode i = t at hok hmeans ⊢
  cases hok with
  | @get level phase _ =>
      refine h.move (fun hphase => ht ▸ hphase) (means_some ?_)
      change (Seen.ofEntry (s.catalogCache level)).Means c s level phase
      cases hentry : s.catalogCache level with
      | none =>
          intro _ ts payload hsome
          rw [hentry] at hsome
          cases hsome
      | some entry => exact hentry
  | @check level phase ts payload =>
      have hentry : s.catalogCache level = some (ts, payload) := hmeans level rfl
      exact h.move (fun hphase => ht ▸ hphase)
        (means_some (means_atClock hentry (h.entries level ts payload hentry)))
  | @stamp level reply =>
      exact h.move (fun hphase => ht ▸ hphase) (means_some ⟨rfl, (hmeans level rfl).2⟩)
  | set houtcome => exact h.set hquiet ht houtcome
  | release => exact h.release hquiet ht

/-- What a call waits with is so while it awaits. -/
theorem means_atAwait {level : Option ℤ} {phase : Phase} {seen : Seen}
    (h : seen.Means c s level phase) : seen.atAwait.Means c s level phase := by
  cases seen with
  | missed => exact h
  | replied reply => exact h.1
  | nothing | entry | fresh | stamped | stored => trivial

theorem CatalogMode.Means.atCall {call : ClientCall} (h : t.Means c s) :
    (t.atCall call).Means c s := by
  intro level hlevel
  cases call with
  | acquireLock => trivial
  | request | sleep | respond => exact means_atAwait (h level hlevel)

theorem fetched_cons {e : Exchanged} {level : Option ℤ} {payload : JsonValue} {time : ℚ}
    (h : Fetched c s level payload time) :
    Fetched c { s with exchanges := e :: s.exchanges } level payload time := by
  obtain ⟨old, hold, hfetched⟩ := h
  exact ⟨old, List.mem_cons_of_mem _ hold, hfetched⟩

/-- A reply is one more exchange on the record. -/
theorem CatalogHolds.exchanged {e : Exchanged} (h : CatalogHolds c mode s)
    (hquiet : ∀ j, j ≠ i → (mode j).Quiet)
    (hphase : t.phase = .holding → (mode i).phase = .holding)
    (hmeans : t.Means c { s with exchanges := e :: s.exchanges }) :
    CatalogHolds c (Function.update mode i t) { s with exchanges := e :: s.exchanges } := by
  refine h.update hquiet (fun ht => h.ne_holding (hphase ht))
    (fun j hj => h.locked j (holding_of_kept hphase hj)) (fun _ _ _ => rfl) le_rfl ?_ hmeans
  intro level ts payload hentry
  exact fetched_cons (h.entries level ts payload hentry)

/-- Only the lock changes where a call stands to it. -/
theorem phase_afterCall {call : ClientCall} {answer : call.Ans} (hcall : call ≠ .acquireLock) :
    (t.afterCall call answer).phase = t.phase := by
  cases call with
  | acquireLock => exact absurd rfl hcall
  | request => cases answer <;> rfl
  | sleep => rfl
  | respond => rfl

/-- An answer keeps what the modes mean; the lock is handed out only while it is free. -/
theorem CatalogHolds.complete {before : CatalogMode} {call : ClientCall} {answer : call.Ans}
    (h : CatalogHolds c mode s) (hquiet : ∀ j, j ≠ i → (mode j).Quiet)
    (hmode : mode i = before.atCall call) (hok : CatalogCallOk c before call)
    (hgranted : ∀ j, (before.afterCall call answer).phase = .holding →
      before.phase ≠ .holding → (mode j).phase ≠ .holding) :
    CatalogHolds c (Function.update mode i (before.afterCall call answer))
      (s.complete call answer) := by
  have hmeans := h.means i
  cases hok with
  | @acquire level =>
      cases answer with
      | error exc =>
          exact h.move (fun hphase => absurd hphase before_ne_holding) (means_some trivial)
      | ok _ =>
          refine h.update hquiet (fun _ j _ => hgranted j rfl before_ne_holding) (fun _ _ => rfl)
            (fun _ _ _ => rfl) le_rfl h.entries (means_some trivial)
  | @fetch level =>
      rw [hmode] at hmeans
      have hholding : (mode i).phase = .holding := by
        rw [hmode]
        rfl
      cases answer with
      | error exc => exact h.move (fun _ => hholding) (means_some trivial)
      | ok reply =>
          refine h.exchanged hquiet (fun _ => hholding) (means_some ?_)
          exact ⟨hmeans level rfl, _, List.mem_cons_self, rfl, rfl, rfl⟩
  | @wait level reply seconds =>
      rw [hmode] at hmeans
      refine h.move (fun _ => ?_) hmeans
      rw [hmode]
      rfl
  | @other seen call hcall =>
      cases call with
      | acquireLock => exact absurd rfl hcall
      | sleep | respond => exact h.move (fun hphase => absurd hphase before_ne_holding) means_none
      | request r =>
          cases answer with
          | error exc => exact h.move (fun hphase => absurd hphase before_ne_holding) means_none
          | ok reply =>
              exact h.exchanged hquiet (fun hphase => absurd hphase before_ne_holding) means_none

/-- The lock is free when it is handed out. -/
theorem unlocked_of_granted {x : ClientMethod} {reply : (call : ClientCall) → call.Ans}
    {next : Outcome → ClientM (Except ClientFailure JsonValue)}
    (h : lockGranted config (.answer i reply) = true)
    (htask : config.task i = .awaiting x .acquireLock next)
    (hreply : reply .acquireLock = (.ok () : Outcome)) :
    config.shared.catalogCacheLocked = false := by
  simpa [lockGranted, htask, hreply] using h

theorem catalogProtocol_sound (c : SiegeWebClient) :
    (catalogProtocol c).Sound CatalogEnds (CatalogHolds (ι := ι) c) (clientTasks c)
      CatalogEvent where
  program x := call_catalog x
  spawn hgoverns _ _ hrest :=
    hgoverns.holds.move (fun hphase => absurd hphase before_ne_holding) fun _ _ => trivial
  op {mode config i x o next} hgoverns hevent _ hok := by
    refine ⟨trivial, hgoverns.holds.exec (fun j hji => ?_) hok⟩
    exact quiet_of_not_ready (hgoverns.fits j) (hevent.2.1 j hji)
  issue {mode config i x call next} hgoverns _ _ hok := by
    refine hgoverns.holds.move (fun hphase => ?_) (hgoverns.holds.means i).atCall
    cases hok : call <;> simpa [hok, catalogProtocol, CatalogMode.atCall] using hphase
  answer {mode config i x call next before reply} hgoverns hevent htask hmode hok := by
    refine hgoverns.holds.complete (fun j _ => ?_) hmode hok ?_
    · exact quiet_of_not_ready (hgoverns.fits j) (hevent.2.1 j)
    · intro j hafter hbefore hj
      cases hok with
      | acquire =>
          cases hreply : (reply .acquireLock : Outcome) with
          | error exc =>
              change (CatalogMode.afterCall _ .acquireLock (reply .acquireLock)).phase = _ at hafter
              rw [hreply] at hafter
              exact absurd hafter before_ne_holding
          | ok _ =>
              -- somebody else holding the lock would contradict that it was free
              have hfree := unlocked_of_granted hevent.1 htask hreply
              rw [hgoverns.holds.locked j hj] at hfree
              cases hfree
      | fetch => exact hbefore rfl
      | wait => exact hbefore rfl
      | other hcall =>
          rw [phase_afterCall hcall] at hafter
          exact absurd hafter before_ne_holding
  finish hgoverns _ _ _ :=
    hgoverns.holds.move (fun hphase => absurd hphase before_ne_holding)
      fun _ hlevel => by cases hlevel
  outside {mode config shared} hgoverns hevent hworld := by
    obtain ⟨now, hnow, rfl⟩ := hworld
    have hbusy := hevent.2.2 rfl
    refine ⟨hgoverns.holds.exclusive, hgoverns.holds.locked, hgoverns.holds.entries, fun j => ?_⟩
    exact (hgoverns.holds.means j).quiet (quiet_of_not_ready (hgoverns.fits j) (hbusy j))
      (fun _ => rfl) hnow

/-! ## A fetch that fails -/

/-- While the call of task `i` goes on. -/
def DuringCall (i : ι) (config : Config clientEffects ClientState ι ClientMethod
    (Except ClientFailure JsonValue)) (event : Event clientEffects ClientState ι ClientMethod) :
    Prop :=
  CatalogEvent config event ∧ event.finishes i = false

/-- Since a fetch has started, the cache is as it was until the reply is stored, and the lock
is free once the call has released it. -/
structure SinceFetch (cache : Option ℤ → Option (ℚ × JsonValue)) (t : CatalogMode)
    (s : ClientState) : Prop where
  started : t.phase ≠ .before
  unchanged : (∀ payload, t.seen ≠ .stored payload) → s.catalogCache = cache
  free : t.phase = .released → s.catalogCacheLocked = false

/-- Only the holder of the lock writes to the cache. -/
theorem catalogCache_exec {o : ClientOp} (hok : CatalogOpOk c t o) (hphase : t.phase ≠ .holding) :
    (s.exec o).2.catalogCache = s.catalogCache := by
  cases hok with
  | get => rfl
  | check => rfl
  | stamp => rfl
  | set => exact absurd rfl hphase
  | release => rfl

theorem catalogCache_complete (call : ClientCall) (answer : call.Ans) :
    (s.complete call answer).catalogCache = s.catalogCache := by
  cases call with
  | acquireLock => cases answer <;> rfl
  | request => cases answer <;> rfl
  | sleep => rfl
  | respond => rfl

/-- A call that has released the lock is ready, so nothing else happens. -/
theorem isReady_of_released
    (hgoverns : (catalogProtocol c).Governs CatalogEnds (CatalogHolds c) mode config)
    (hreleased : (mode i).phase = .released) : (config.task i).isReady = true := by
  apply hgoverns.isReady
  · intro hrest
    rw [hrest] at hreleased
    cases hreleased
  · intro x before call hok hcall
    rw [hcall] at hreleased
    cases hok with
    | acquire => cases hreleased
    | fetch => cases hreleased
    | wait => cases hreleased
    | other => cases call <;> cases hreleased

/-- An event of another task leaves the cache to the holder of the lock. -/
theorem catalogCache_of_others {event : Event clientEffects ClientState ι ClientMethod}
    (hgoverns : (catalogProtocol c).Governs CatalogEnds (CatalogHolds c) mode config)
    (hadmits : (clientTasks c).Admits config event)
    (hstep : (clientTasks c).step config event = some config')
    (hother : event.task? ≠ some i) (hholding : (mode i).phase = .holding) :
    config'.shared.catalogCache = config.shared.catalogCache := by
  cases Concurrent.happens_of_step hstep with
  | outside =>
      obtain ⟨now, -, rfl⟩ := hadmits
      rfl
  | @op j x o next htask =>
      -- two tasks cannot hold the lock at once
      have hj : (mode j).phase ≠ .holding :=
        fun hj => hother (congrArg some (hgoverns.holds.exclusive j i hj hholding))
      exact catalogCache_exec (hgoverns.opOk htask) hj
  | answer => exact catalogCache_complete _ _
  | spawn | issue | finish => rfl

section SinceFetch

variable {cache : Option ℤ → Option (ℚ × JsonValue)}

theorem SinceFetch.exec {o : ClientOp} (h : SinceFetch cache t s) (hok : CatalogOpOk c t o) :
    SinceFetch cache (t.afterOp o (s.exec o).1) (s.exec o).2 := by
  cases hok with
  | get => exact ⟨h.started, fun _ => h.unchanged (by simp), h.free⟩
  | check => exact ⟨h.started, fun _ => h.unchanged (by simp), h.free⟩
  | stamp => exact ⟨h.started, fun _ => h.unchanged (by simp), h.free⟩
  | @set level ts reply payload _ =>
      exact ⟨h.started, fun hstored => absurd rfl (hstored payload), h.free⟩
  | release => exact ⟨by simp [CatalogMode.afterOp], h.unchanged, fun _ => rfl⟩

/-- After the fetch has started the call awaits only replies and sleeps. -/
theorem SinceFetch.atCall {call : ClientCall} (h : SinceFetch cache t s)
    (hok : CatalogCallOk c t call) : SinceFetch cache (t.atCall call) s := by
  cases hok with
  | acquire => exact absurd rfl h.started
  | fetch => exact ⟨h.started, fun _ => h.unchanged (by simp), h.free⟩
  | wait => exact ⟨h.started, fun _ => h.unchanged (by simp), h.free⟩
  | other => exact absurd rfl h.started

theorem SinceFetch.complete {call : ClientCall} {answer : call.Ans}
    (h : SinceFetch cache (t.atCall call) s) (hok : CatalogCallOk c t call) :
    SinceFetch cache (t.afterCall call answer) (s.complete call answer) := by
  cases hok with
  | acquire => exact absurd rfl h.started
  | fetch =>
      have hcache : s.catalogCache = cache :=
        h.unchanged (by simp [CatalogMode.atCall, Seen.atAwait])
      cases answer with
      | error exc => exact ⟨h.started, fun _ => hcache, h.free⟩
      | ok reply => exact ⟨h.started, fun _ => hcache, h.free⟩
  | wait => exact ⟨h.started, h.unchanged, h.free⟩
  | @other seen call hcall =>
      have hstarted := h.started
      cases call with
      | acquireLock => exact absurd rfl hcall
      | request | sleep | respond => exact absurd rfl hstarted

/-- While an event of another task happens, this one does not run. -/
theorem not_ready_of_others {event : Event clientEffects ClientState ι ClientMethod}
    (hevent : CatalogEvent config event) (hother : event.task? ≠ some i) :
    (config.task i).isReady = false := by
  cases htask : event.task? with
  | some j =>
      by_contra hready
      have hj : j = i := hevent.2.1.task?_eq (by simpa using hready) htask
      exact hother (hj ▸ htask)
  | none =>
      have houtside : event.isOutside = true := by
        cases event with
        | outside => rfl
        | spawn | op | issue | answer | finish => cases htask
      exact hevent.2.2 houtside i

/-- Every event of the call, and of the others meanwhile, keeps what holds since the fetch. -/
theorem sinceFetch_keeps (cache : Option ℤ → Option (ℚ × JsonValue)) (i : ι) :
    (catalogProtocol c).Keeps CatalogEnds (CatalogHolds c) (clientTasks c) (DuringCall i)
      fun mode config => SinceFetch cache (mode i) config.shared := by
  intro mode mode' config config' event hgoverns _ hevent hadmits hstep hmoves hkeeps
  have hmove := hmoves i
  have hready := isReady_of_released (i := i) hgoverns
  have hothers := catalogCache_of_others (i := i) hgoverns hadmits hstep
  generalize mode i = t at *
  generalize mode' i = t' at *
  cases hmove with
  | others hother =>
      -- others move only while this call awaits, and it awaits only while it holds the lock
      have hholding : t.phase = .holding := by
        cases hphase : t.phase with
        | before => exact absurd hphase hkeeps.started
        | holding => rfl
        | released =>
            have hbusy := not_ready_of_others hevent.1 hother
            rw [hready hphase] at hbusy
            cases hbusy
      refine ⟨hkeeps.started, fun hstored => ?_, fun hreleased => ?_⟩
      · rw [hothers hother hholding]
        exact hkeeps.unchanged hstored
      · rw [hholding] at hreleased
        cases hreleased
  | spawn => exact absurd rfl hkeeps.started
  | op htask hok =>
      simp only [Concurrent.step, htask, Option.some.injEq] at hstep
      subst hstep
      exact hkeeps.exec hok
  | issue htask hok =>
      simp only [Concurrent.step, htask, Option.some.injEq] at hstep
      subst hstep
      exact hkeeps.atCall hok
  | answer htask hok =>
      simp only [Concurrent.step, htask, Option.some.injEq] at hstep
      subst hstep
      exact hkeeps.complete hok
  | finish htask => exact absurd hevent.2 (by simp [Event.finishes])

end SinceFetch

/-! ## The cache as a whole -/

/-- The fetch of a `list_catalog` is under way: it awaits a reply, or the next attempt. -/
def InFlight (progress : Progress clientEffects ClientMethod (Except ClientFailure JsonValue)) :
    Prop :=
  match progress with
  | .awaiting (.listCatalog _) call _ => call ≠ .acquireLock
  | _ => False

/-- What holds of the catalog cache at any time. -/
structure CatalogContract (c : SiegeWebClient)
    (config : Config clientEffects ClientState ι ClientMethod (Except ClientFailure JsonValue)) :
    Prop where
  singleFlight : ∀ i j, InFlight (config.task i) → InFlight (config.task j) → i = j
  entries : ∀ level ts payload, config.shared.catalogCache level = some (ts, payload) →
    Fetched c config.shared level payload ts
  returned : ∀ i level payload,
    config.task i = .ready (.listCatalog level) (.done (.ok payload)) →
    ∃ time, Fetched c config.shared level payload time ∧
      config.shared.now - time < catalogCacheTtl
  noEarlyFetch : ∀ i level r next,
    config.task i = .ready (.listCatalog level) (.await (.request r) next) →
    r = c.catalogRequest level ∧ Stale config.shared level
  failure : ∀ i level r next config' failure,
    config.task i = .ready (.listCatalog level) (.await (.request r) next) →
    (clientTasks c).Leads (DuringCall i) config config' →
    config'.task i = .ready (.listCatalog level) (.done (.error failure)) →
    config'.shared.catalogCache = config.shared.catalogCache ∧
      config'.shared.catalogCacheLocked = false

theorem catalogProtocol_tagged (c : SiegeWebClient) :
    (catalogProtocol c).Tagged CatalogMode.level ClientMethod.level where
  start _ := rfl
  afterOp t o r := by cases o <;> rfl
  atCall t call := by cases call <;> rfl
  afterCall t call answer := by
    cases call with
    | acquireLock => cases answer <;> rfl
    | request => cases answer <;> rfl
    | sleep => rfl
    | respond => rfl

theorem level_of_task {level : Option ℤ} {p : ClientM (Except ClientFailure JsonValue)}
    (htell : Protocol.TagsTell CatalogMode.level ClientMethod.level mode config)
    (htask : config.task i = .ready (.listCatalog level) p) : (mode i).level = some level := by
  apply htell i (.listCatalog level)
  rw [htask]
  rfl

section Contract

variable (hgoverns : (catalogProtocol c).Governs CatalogEnds (CatalogHolds c) mode config)
  (htell : Protocol.TagsTell CatalogMode.level ClientMethod.level mode config)

include hgoverns htell

/-- A call whose fetch is under way holds the lock. -/
theorem holding_of_inFlight (h : InFlight (config.task i)) : (mode i).phase = .holding := by
  cases htask : config.task i with
  | idle | ready =>
      rw [htask] at h
      exact h.elim
  | awaiting x call next =>
      rw [htask] at h
      have hlevel := htell i x (by rw [htask]; rfl)
      obtain ⟨before, hmode, hok⟩ := hgoverns.atCall htask
      cases x with
      | getMyPreferences | setMyPreferences => exact h.elim
      | listCatalog level =>
          rw [hmode] at hlevel ⊢
          cases hok with
          | acquire => exact absurd rfl h
          | fetch => rfl
          | wait => rfl
          | other => cases call <;> cases hlevel

/-- What a call returns was fetched less than the TTL before. -/
theorem fetched_of_returned {level : Option ℤ} {payload : JsonValue}
    (htask : config.task i = .ready (.listCatalog level) (.done (.ok payload))) :
    ∃ time, Fetched c config.shared level payload time ∧
      config.shared.now - time < catalogCacheTtl := by
  have hlevel := level_of_task htell htask
  have hfits := hgoverns.fits i
  rw [htask] at hfits
  obtain ⟨hvalue, -⟩ := hfits.2 (by rw [hlevel]; rfl)
  have hmeans := hgoverns.holds.means i level hlevel
  rcases hvalue payload rfl with hseen | hseen
  · rw [hseen] at hmeans
    exact hmeans
  · rw [hseen] at hmeans
    refine ⟨_, hmeans, ?_⟩
    rw [sub_self]
    decide

/-- A call that stands before its fetch has looked under the lock. -/
theorem mode_of_fetch {level : Option ℤ} {r : Request}
    {next : Except Raised Reply → ClientM (Except ClientFailure JsonValue)}
    (htask : config.task i = .ready (.listCatalog level) (.await (.request r) next)) :
    r = c.catalogRequest level ∧ mode i = ⟨some level, .holding, .missed⟩ := by
  have hlevel := level_of_task htell htask
  have hok : CatalogCallOk c (mode i) (.request r) := hgoverns.callOk htask
  generalize mode i = t at hok hlevel
  cases hok with
  | fetch =>
      obtain rfl := Option.some.inj hlevel
      exact ⟨rfl, rfl⟩
  | other => cases hlevel

/-- A fetch that ends in a failure has stored nothing, and its call has released the lock. -/
theorem unchanged_of_failure {level : Option ℤ} {r : Request}
    {next : Except Raised Reply → ClientM (Except ClientFailure JsonValue)}
    {failure : ClientFailure}
    (htask : config.task i = .ready (.listCatalog level) (.await (.request r) next))
    (hleads : (clientTasks c).Leads (DuringCall i) config config')
    (htask' : config'.task i = .ready (.listCatalog level) (.done (.error failure))) :
    config'.shared.catalogCache = config.shared.catalogCache ∧
      config'.shared.catalogCacheLocked = false := by
  obtain ⟨-, hmode⟩ := mode_of_fetch hgoverns htell htask
  -- the fetch starts under the lock, with nothing stored yet
  have hsince : SinceFetch config.shared.catalogCache (mode i) config.shared := by
    rw [hmode]
    exact ⟨by simp, fun _ => rfl, fun hreleased => by cases hreleased⟩
  have hkeeps := Protocol.Keeps.and
    (catalogProtocol_tagged c).keeps (sinceFetch_keeps config.shared.catalogCache i)
  obtain ⟨mode', hgoverns', htell', hsince'⟩ := hgoverns.leads ⟨htell, hsince⟩
    (catalogProtocol_sound c) hkeeps (fun _ _ hevent => hevent.1) hleads
  have hlevel' := level_of_task htell' htask'
  have hfits' := hgoverns'.fits i
  rw [htask'] at hfits'
  obtain ⟨hreleased, hreturns⟩ := hfits'
  obtain ⟨-, hstored⟩ := hreturns (by rw [hlevel']; rfl)
  refine ⟨hsince'.unchanged (hstored failure rfl), hsince'.free ?_⟩
  cases hphase : (mode' i).phase with
  | before => exact absurd hphase hsince'.started
  | holding => exact absurd hphase hreleased
  | released => rfl

end Contract

/-- At most one fetch is in flight; whatever is returned was fetched for the same level less
than the TTL before; no fetch starts while the entry is younger; and a fetch that fails
leaves the cache as it was and the lock free. -/
theorem catalog_contract {now : ℚ}
    (h : (clientTasks c).Reachable CatalogEvent (.init now) config) : CatalogContract c config := by
  have hstart : CatalogHolds c (fun _ : ι => (catalogProtocol c).rest) (.init now) :=
    ⟨fun i j hi => absurd hi before_ne_holding, fun i hi => absurd hi before_ne_holding,
      fun level ts payload hentry => (by cases hentry), fun i => means_none⟩
  obtain ⟨mode, hgoverns, htell⟩ := Protocol.governed_keeping (catalogProtocol_sound c)
    (catalogProtocol_tagged c).keeps hstart Protocol.tagsTell_start h
  refine ⟨?_, hgoverns.holds.entries, ?_, ?_, ?_⟩
  · intro i j hi hj
    exact hgoverns.holds.exclusive i j (holding_of_inFlight hgoverns htell hi)
      (holding_of_inFlight hgoverns htell hj)
  · intro i level payload htask
    exact fetched_of_returned hgoverns htell htask
  · intro i level r next htask
    obtain ⟨hr, hmode⟩ := mode_of_fetch hgoverns htell htask
    have hmeans := hgoverns.holds.means i level (by rw [hmode])
    rw [hmode] at hmeans
    exact ⟨hr, hmeans rfl⟩
  · intro i level r next config' failure htask hleads htask'
    exact unchanged_of_failure hgoverns htell htask hleads htask'

end Sound

/-! ## A cached catalog -/

/-- Every call is answered, each request by an empty catalog. -/
def emptyCatalogs : (call : ClientCall) → call.Ans
  | .acquireLock | .sleep _ | .respond _ => (.ok () : Outcome)
  | .request _ => (.ok accepted : Except Raised Reply)

/-- One call fetches the catalog, and a second one finds it in the cache. -/
def cachedSchedule : List (Event clientEffects ClientState Bool ClientMethod) :=
  [.spawn false (.listCatalog none), .op false, .issue false, .answer false emptyCatalogs,
    .op false, .issue false, .answer false emptyCatalogs, .op false, .op false, .op false,
    .finish false, .spawn true (.listCatalog none), .op true, .op true]

theorem catalog_contract_cached :
    ∃ config : Config clientEffects ClientState Bool ClientMethod (Except ClientFailure JsonValue),
      (config.shared.catalogCache none).isSome = true ∧ CatalogContract exampleClient config := by
  have hrun : ((clientTasks exampleClient).runIf
      (fun config event => decide (CatalogEvent config event)) (.start (.init 0))
      cachedSchedule).map (fun config => (config.shared.catalogCache none).isSome) = some true := by
    decide +kernel
  obtain ⟨config, hrun, hcached⟩ := Option.map_eq_some_iff.mp hrun
  exact ⟨config, hcached, catalog_contract
    (Concurrent.Reachable.start.runIf (fun _ _ h => of_decide_eq_true h) rfl hrun)⟩

end MomBot.PostConditions
