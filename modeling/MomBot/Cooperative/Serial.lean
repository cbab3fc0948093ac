import MomBot.Cooperative.Guarded

/-!
# Tasks of one key run one after another

Suppose every body works on its own part of the shared state: what it does there
depends on nothing else, and it leaves the parts of other keys alone (`Local`).
Then the lock makes the tasks of a key sequential.  `Serialized` says so for one
key: the bodies that are over, in the order in which they took the lock, are runs
of one task at a time from the initial state, with the same calls and the same
results, and the body that is not over continues from there.

`serialized_of_reachable` is the run lemma, and `Serialized.reaches` turns every
question about a body in an interleaved run into one about a body on its own.
-/

set_option linter.unusedSectionVars false

namespace Cooperative

variable {E : Effects} {σ κ ι X β ν : Type} [DecidableEq κ] [DecidableEq ι]

/-- Every key has a part of the shared state of its own. -/
structure Local (G : Guarded E σ κ X β) (view : κ → σ → ν) (permits : κ → E.Op → Prop)
    (permitsCall : κ → E.Call → Prop) : Prop where
  uses : ∀ x, (G.body x).Uses (permits (G.key x)) (permitsCall (G.key x))
  exec_same : ∀ {k o s t}, permits k o → view k s = view k t →
    (G.machine.exec o s).1 = (G.machine.exec o t).1 ∧
      view k (G.machine.exec o s).2 = view k (G.machine.exec o t).2
  exec_other : ∀ {k k' o s}, permits k o → k' ≠ k → view k' (G.machine.exec o s).2 = view k' s
  issue_same : ∀ {k call s t}, permitsCall k call → view k s = view k t →
    view k (G.machine.issue call s) = view k (G.machine.issue call t)
  issue_other : ∀ {k k' call s}, permitsCall k call → k' ≠ k →
    view k' (G.machine.issue call s) = view k' s
  complete_same : ∀ {k call answer s t}, permitsCall k call → view k s = view k t →
    view k (G.machine.complete call answer s) = view k (G.machine.complete call answer t)
  complete_other : ∀ {k k' call answer s}, permitsCall k call → k' ≠ k →
    view k' (G.machine.complete call answer s) = view k' s
  outside : ∀ {k s t}, G.outside s t → view k t = view k s

/-- One body that is over. -/
structure Entry (E : Effects) (ι X β : Type) where
  task : ι
  param : X
  trace : List (Exchange E)
  value : β

/-- The bodies run one after another. -/
inductive Guarded.Serial (G : Guarded E σ κ X β) (shared : σ) : List (Entry E ι X β) → σ → Prop
  | start : Guarded.Serial G shared [] shared
  | next {entries : List (Entry E ι X β)} {t t' : σ} (entry : Entry E ι X β) :
      Guarded.Serial G shared entries t →
      (G.body entry.param).Runs G.machine t entry.trace entry.value t' →
      Guarded.Serial G shared (entries ++ [entry]) t'

/-- The state that a task sees whose call has started. -/
def Phase.issued (M : Machine E σ) : Phase E X β → σ → σ
  | .awaiting _ call _, t => M.issue call t
  | _, t => t

/-- What the tasks of `k` have done so far, one after another. -/
structure SerializedBy (G : Guarded E σ κ X β) (view : κ → σ → ν) (shared : σ)
    (s : System E σ κ ι X β) (k : κ) (entries : List (Entry E ι X β)) (t : σ) : Prop where
  serial : G.Serial shared entries t
  /-- The entries are bodies of `k` with the results that were returned. -/
  returned : ∀ entry ∈ entries,
    G.key entry.param = k ∧ s.phase entry.task = .finished entry.param (some entry.value)
  /-- Nobody is inside: the entries are all there is. -/
  idle : (∀ i, ¬ (s.phase i).Holds G.key k) → s.order k = entries.map Entry.task ∧
    s.calls k = entries.flatMap Entry.trace ∧ view k s.shared = view k t
  /-- A task is inside: it goes on from the last entry. -/
  busy : ∀ i x rest, (s.phase i).remaining = some (x, rest) → G.key x = k →
    s.order k = entries.map Entry.task ++ [i] ∧
    ∃ trace t', (G.body x).Reaches G.machine t trace rest t' ∧
      s.calls k = entries.flatMap Entry.trace ++ trace ∧
      view k s.shared = view k ((s.phase i).issued G.machine t')

/-- The tasks of `k` are serialized. -/
def Serialized (G : Guarded E σ κ X β) (view : κ → σ → ν) (shared : σ) (s : System E σ κ ι X β)
    (k : κ) : Prop :=
  ∃ entries t, SerializedBy G view shared s k entries t

variable {G : Guarded E σ κ X β} {view : κ → σ → ν} {permits : κ → E.Op → Prop}
  {permitsCall : κ → E.Call → Prop} {shared : σ} {s s' : System E σ κ ι X β} {k : κ} {i : ι}

theorem serialized_start : Serialized G view shared (.start shared : System E σ κ ι X β) k := by
  refine ⟨[], shared, .start, by simp, fun _ => ⟨rfl, rfl, rfl⟩, fun i x rest hrest => ?_⟩
  simp [System.start, Phase.remaining] at hrest

/-- A task moves outside the bodies of `k`, and the part of `k` stays. -/
private theorem Serialized.congr (h : Serialized G view shared s k)
    (horder : s'.order k = s.order k) (hcalls : s'.calls k = s.calls k)
    (hview : view k s'.shared = view k s.shared)
    (hphase : ∀ j, s'.phase j = s.phase j ∨ (¬ (s.phase j).Holds G.key k ∧
      ¬ (s'.phase j).Holds G.key k ∧ ∀ x value, s.phase j ≠ .finished x (some value))) :
    Serialized G view shared s' k := by
  obtain ⟨entries, t, h⟩ := h
  refine ⟨entries, t, h.serial, fun entry hentry => ?_, fun hnone => ?_,
    fun i x rest hrest hkey => ?_⟩
  · obtain ⟨hkey, hfinished⟩ := h.returned entry hentry
    refine ⟨hkey, ?_⟩
    rcases hphase entry.task with heq | ⟨-, -, hne⟩
    · rw [heq, hfinished]
    · exact absurd hfinished (hne _ _)
  · rw [horder, hcalls, hview]
    refine h.idle fun j hj => ?_
    rcases hphase j with heq | ⟨hnot, -, -⟩
    · exact hnone j (heq ▸ hj)
    · exact hnot hj
  · rcases hphase i with heq | ⟨-, hnot, -⟩
    · rw [horder, hcalls, hview, heq]
      exact h.busy i x rest (heq ▸ hrest) hkey
    · exact absurd ⟨x, rest, hrest, hkey⟩ hnot

/-- Only task `i` moves. -/
private theorem phase_update {phase : Phase E X β} (hold : ¬ (s.phase i).Holds G.key k)
    (hnew : ¬ phase.Holds G.key k) (hopen : ∀ x value, s.phase i ≠ .finished x (some value))
    (j : ι) :
    Function.update s.phase i phase j = s.phase j ∨ (¬ (s.phase j).Holds G.key k ∧
      ¬ (Function.update s.phase i phase j).Holds G.key k ∧
      ∀ x value, s.phase j ≠ .finished x (some value)) := by
  by_cases hji : j = i
  · subst hji
    rw [Function.update_self]
    exact .inr ⟨hold, hnew, hopen⟩
  · exact .inl (Function.update_of_ne hji ..)

/-- The task that is inside goes on. -/
private theorem Serialized.advance (hcoupled : Coupled G s) (h : Serialized G view shared s k)
    {x : X} {rest : Coroutine E β} (rest' : Coroutine E β)
    (hrest : (s.phase i).remaining = some (x, rest)) (hkey : G.key x = k)
    (hremaining : (s'.phase i).remaining = some (x, rest'))
    (hphase : ∀ j, j ≠ i → s'.phase j = s.phase j) (horder : s'.order k = s.order k)
    (hmove : ∀ {t trace t'}, (G.body x).Reaches G.machine t trace rest t' →
      view k s.shared = view k ((s.phase i).issued G.machine t') →
      ∃ more t'', (G.body x).Reaches G.machine t (trace ++ more) rest' t'' ∧
        s'.calls k = s.calls k ++ more ∧
        view k s'.shared = view k ((s'.phase i).issued G.machine t'')) :
    Serialized G view shared s' k := by
  obtain ⟨entries, t, h⟩ := h
  have hi : (s.phase i).Holds G.key k := ⟨x, rest, hrest, hkey⟩
  refine ⟨entries, t, h.serial, fun entry hentry => ?_, fun hnone => ?_, fun j y q hj hkey' => ?_⟩
  · obtain ⟨hk, hfinished⟩ := h.returned entry hentry
    refine ⟨hk, ?_⟩
    rw [hphase entry.task ?_, hfinished]
    rintro heq
    rw [← heq, hfinished] at hrest
    simp [Phase.remaining] at hrest
  · exact absurd ⟨x, rest', hremaining, hkey⟩ (hnone i)
  · have hji : j = i := by
      by_contra hne
      rw [hphase j hne] at hj
      exact hne (hcoupled.holder_unique ⟨y, q, hj, hkey'⟩ hi)
    subst hji
    rw [hremaining] at hj
    simp only [Option.some.injEq, Prod.mk.injEq] at hj
    obtain ⟨rfl, rfl⟩ := hj
    obtain ⟨hord, trace, t', hreaches, hcalls, hview⟩ := h.busy j x rest hrest hkey
    obtain ⟨more, t'', hreaches', hcalls', hview'⟩ := hmove hreaches hview
    refine ⟨horder.trans hord, trace ++ more, t'', hreaches', ?_, hview'⟩
    rw [hcalls', hcalls, List.append_assoc]

/-- A task takes the lock of `k`. -/
private theorem Serialized.enter (hcoupled : Coupled G s') (h : Serialized G view shared s k)
    {x : X} (hkey : G.key x = k) (hopen : ∀ y value, s.phase i ≠ .finished y (some value))
    (hold : ¬ (s.phase i).Holds G.key k) (hphase : s'.phase = Function.update s.phase i
      (.inside x (G.body x))) (horder : s'.order k = s.order k ++ [i])
    (hcalls : s'.calls k = s.calls k) (hshared : s'.shared = s.shared) :
    Serialized G view shared s' k := by
  obtain ⟨entries, t, h⟩ := h
  have hi : (s'.phase i).remaining = some (x, G.body x) := by
    rw [hphase, Function.update_self]
    rfl
  -- the lock was free: nobody else is inside now, and nobody was before
  have hnone : ∀ j, ¬ (s.phase j).Holds G.key k := by
    intro j hj
    by_cases hji : j = i
    · exact hold (hji ▸ hj)
    · have hj' : (s'.phase j).Holds G.key k := by rwa [hphase, Function.update_of_ne hji]
      exact hji (hcoupled.holder_unique hj' ⟨x, _, hi, hkey⟩)
  obtain ⟨hord, hcal, hview⟩ := h.idle hnone
  refine ⟨entries, t, h.serial, fun entry hentry => ?_, fun hnot => ?_, fun j y q hj hkey' => ?_⟩
  · obtain ⟨hk, hfinished⟩ := h.returned entry hentry
    refine ⟨hk, ?_⟩
    rw [hphase, Function.update_of_ne, hfinished]
    rintro heq
    exact hopen _ _ (heq ▸ hfinished)
  · exact absurd ⟨x, _, hi, hkey⟩ (hnot i)
  · obtain rfl := hcoupled.holder_unique ⟨y, q, hj, hkey'⟩ ⟨x, _, hi, hkey⟩
    rw [hi] at hj
    simp only [Option.some.injEq, Prod.mk.injEq] at hj
    obtain ⟨rfl, rfl⟩ := hj
    refine ⟨by rw [horder, hord], [], t, .start, by rw [hcalls, hcal, List.append_nil], ?_⟩
    rw [hshared, hphase, Function.update_self]
    exact hview

/-- The body is over. -/
private theorem Serialized.leave (hcoupled : Coupled G s) (h : Serialized G view shared s k) {x : X}
    {value : β} (hkey : G.key x = k) (hinside : s.phase i = .inside x (.done value))
    (hphase : s'.phase = Function.update s.phase i (.finished x (some value)))
    (horder : s'.order k = s.order k) (hcalls : s'.calls k = s.calls k)
    (hshared : s'.shared = s.shared) : Serialized G view shared s' k := by
  obtain ⟨entries, t, h⟩ := h
  have hrest : (s.phase i).remaining = some (x, .done value) := by
    rw [hinside]
    rfl
  obtain ⟨hord, trace, t', hreaches, hcal, hview⟩ := h.busy i x (.done value) hrest hkey
  rw [hinside] at hview
  have hnone : ∀ j, ¬ (s'.phase j).Holds G.key k := by
    rintro j ⟨y, q, hj, hkey'⟩
    by_cases hji : j = i
    · rw [hji, hphase, Function.update_self] at hj
      simp [Phase.remaining] at hj
    · rw [hphase, Function.update_of_ne hji] at hj
      exact hji (hcoupled.holder_unique ⟨y, q, hj, hkey'⟩ ⟨x, _, hrest, hkey⟩)
  refine ⟨entries ++ [⟨i, x, trace, value⟩], t', .next ⟨i, x, trace, value⟩ h.serial hreaches.runs,
    fun entry hentry => ?_, fun _ => ?_, fun j y q hj hkey' => ?_⟩
  · rcases List.mem_append.mp hentry with hentry | hentry
    · obtain ⟨hk, hfinished⟩ := h.returned entry hentry
      refine ⟨hk, ?_⟩
      rw [hphase, Function.update_of_ne, hfinished]
      rintro heq
      rw [heq, hinside] at hfinished
      simp at hfinished
    · obtain rfl := List.mem_singleton.mp hentry
      exact ⟨hkey, by rw [hphase, Function.update_self]⟩
  · refine ⟨?_, ?_, ?_⟩
    · rw [horder, hord, List.map_append]
      rfl
    · rw [hcalls, hcal, List.flatMap_append]
      simp
    · rw [hshared]
      exact hview
  · exact absurd ⟨y, q, hj, hkey'⟩ (hnone j)

/-- A task comes back from the lock table. -/
private theorem Serialized.enter_locks {t : LockTable κ ι} {x : X}
    (hcoupled : Coupled G ({ s with locks := t }.enter G i x)) (h : Serialized G view shared s k)
    (hopen : ∀ y value, s.phase i ≠ .finished y (some value))
    (hold : ∀ k', ¬ (s.phase i).Holds G.key k') :
    Serialized G view shared ({ s with locks := t }.enter G i x) k := by
  cases hclaim : t.claim i with
  | none =>
      have heq : { s with locks := t }.enter G i x =
          { s with locks := t }.setPhase i (.finished x none) := by
        simp [System.enter, hclaim]
      rw [heq]
      exact h.congr rfl rfl rfl
        (phase_update (hold k) (by simp [Phase.Holds, Phase.remaining]) hopen)
  | some claim =>
      obtain ⟨k', l, hold'⟩ := claim
      cases hold' with
      | waiting requested =>
          have heq : { s with locks := t }.enter G i x =
              { s with locks := t }.setPhase i (.waiting x) := by
            simp [System.enter, hclaim]
          rw [heq]
          exact h.congr rfl rfl rfl
            (phase_update (hold k) (by simp [Phase.Holds, Phase.remaining]) hopen)
      | holding =>
          have heq : { s with locks := t }.enter G i x =
              { { s with locks := t }.setPhase i (.inside x (G.body x)) with
                order := Function.update s.order (G.key x) (s.order (G.key x) ++ [i]) } := by
            simp [System.enter, hclaim, System.setPhase]
          rw [heq] at hcoupled ⊢
          by_cases hkey : G.key x = k
          · subst hkey
            exact Serialized.enter hcoupled h rfl hopen (hold _) rfl (Function.update_self ..) rfl
              rfl
          · refine h.congr (Function.update_of_ne (Ne.symm hkey) ..) rfl rfl
              (phase_update (hold k) ?_ hopen)
            rintro ⟨y, rest, hrest, hy⟩
            simp only [Phase.remaining, Option.some.injEq, Prod.mk.injEq] at hrest
            exact hkey (hrest.1 ▸ hy)

/-- A task inside the body of another key. -/
private theorem not_holds_of_key_ne {x : X} {phase : Phase E X β} (rest : Coroutine E β)
    (hrest : phase.remaining = some (x, rest)) (hne : G.key x ≠ k) : ¬ phase.Holds G.key k := by
  rintro ⟨y, rest', hrest', hy⟩
  rw [hrest] at hrest'
  simp only [Option.some.injEq, Prod.mk.injEq] at hrest'
  exact hne (hrest'.1 ▸ hy)

private theorem Serialized.op (hlocal : Local G view permits permitsCall) (hcoupled : Coupled G s)
    {x : X} {o : E.Op} {next : E.Res o → Coroutine E β} (hpermits : permits (G.key x) o)
    (h : Serialized G view shared s k) (hinside : s.phase i = .inside x (.op o next)) :
    Serialized G view shared ({ s with shared := (G.machine.exec o s.shared).2 }.setPhase i
      (.inside x (next (G.machine.exec o s.shared).1))) k := by
  have hrest : (s.phase i).remaining = some (x, .op o next) := by rw [hinside]; rfl
  by_cases hkey : G.key x = k
  · subst hkey
    refine h.advance hcoupled (next (G.machine.exec o s.shared).1) hrest rfl
      (by simp [System.setPhase, Phase.remaining])
      (fun j hji => Function.update_of_ne hji ..) rfl ?_
    -- its own run reads what it read, since it sees the same part
    intro t trace t' hreaches hview
    rw [hinside] at hview
    obtain ⟨hres, hsame⟩ := hlocal.exec_same hpermits hview
    refine ⟨[], (G.machine.exec o t').2, ?_, (List.append_nil _).symm, ?_⟩
    · rw [List.append_nil, hres]
      exact hreaches.op
    · simpa [System.setPhase, Phase.issued] using hsame
  · refine h.congr rfl rfl (hlocal.exec_other hpermits (Ne.symm hkey)) (phase_update
      (not_holds_of_key_ne _ hrest hkey) (not_holds_of_key_ne (next _) rfl hkey) ?_)
    simp [hinside]

private theorem Serialized.issue (hlocal : Local G view permits permitsCall)
    (hcoupled : Coupled G s) {x : X} {call : E.Call} {next : E.Ans call → Coroutine E β}
    (hpermits : permitsCall (G.key x) call) (h : Serialized G view shared s k)
    (hinside : s.phase i = .inside x (.await call next)) :
    Serialized G view shared ({ s with shared := G.machine.issue call s.shared }.setPhase i
      (.awaiting x call next)) k := by
  have hrest : (s.phase i).remaining = some (x, .await call next) := by rw [hinside]; rfl
  by_cases hkey : G.key x = k
  · subst hkey
    refine h.advance hcoupled (.await call next) hrest rfl
      (by simp [System.setPhase, Phase.remaining])
      (fun j hji => Function.update_of_ne hji ..) rfl ?_
    intro t trace t' hreaches hview
    rw [hinside] at hview
    refine ⟨[], t', by rwa [List.append_nil], (List.append_nil _).symm, ?_⟩
    simpa [System.setPhase, Phase.issued] using hlocal.issue_same hpermits hview
  · refine h.congr rfl rfl (hlocal.issue_other hpermits (Ne.symm hkey)) (phase_update
      (not_holds_of_key_ne _ hrest hkey)
      (not_holds_of_key_ne (.await call next) rfl hkey) ?_)
    simp [hinside]

private theorem Serialized.answer (hlocal : Local G view permits permitsCall)
    (hcoupled : Coupled G s) {x : X} {call : E.Call} {next : E.Ans call → Coroutine E β}
    (answer : E.Ans call) (hpermits : permitsCall (G.key x) call)
    (h : Serialized G view shared s k) (hawaiting : s.phase i = .awaiting x call next) :
    Serialized G view shared
      { s.setPhase i (.inside x (next answer)) with
        shared := G.machine.complete call answer s.shared
        calls := Function.update s.calls (G.key x) (s.calls (G.key x) ++ [⟨call, answer⟩]) } k := by
  have hrest : (s.phase i).remaining = some (x, .await call next) := by rw [hawaiting]; rfl
  by_cases hkey : G.key x = k
  · subst hkey
    refine h.advance hcoupled (next answer) hrest rfl
      (by simp [System.setPhase, Phase.remaining])
      (fun j hji => Function.update_of_ne hji ..) rfl ?_
    intro t trace t' hreaches hview
    rw [hawaiting] at hview
    refine ⟨[⟨call, answer⟩], _, hreaches.await answer, Function.update_self .., ?_⟩
    simpa [System.setPhase, Phase.issued] using hlocal.complete_same hpermits hview
  · refine h.congr rfl (Function.update_of_ne (Ne.symm hkey) ..)
      (hlocal.complete_other hpermits (Ne.symm hkey)) (phase_update
        (not_holds_of_key_ne _ hrest hkey) (not_holds_of_key_ne (next answer) rfl hkey) ?_)
    simp [hawaiting]

/-- **Step lemma.** -/
theorem Serialized.step (hlocal : Local G view permits permitsCall) (hcoupled : Coupled G s)
    (huses : ∀ i x rest, (s.phase i).remaining = some (x, rest) →
      rest.Uses (permits (G.key x)) (permitsCall (G.key x)))
    (h : Serialized G view shared s k) (hstep : Guarded.Step G s s') :
    Serialized G view shared s' k := by
  have hcoupled' := hcoupled.step hstep
  cases hstep with
  | @early i x value hidle _ =>
      refine h.congr rfl rfl rfl (phase_update ?_ ?_ ?_) <;>
        simp [hidle, Phase.Holds, Phase.remaining]
  | @arrive i x hidle _ =>
      exact Serialized.enter_locks hcoupled' h (by simp [hidle])
        (by simp [hidle, Phase.Holds, Phase.remaining])
  | @cancel i x hwaiting => exact h.congr rfl rfl rfl fun j => .inl rfl
  | @resume i x hwaiting =>
      exact Serialized.enter_locks hcoupled' h (by simp [hwaiting])
        (by simp [hwaiting, Phase.Holds, Phase.remaining])
  | @op i x o next hinside =>
      have hrest : (s.phase i).remaining = some (x, .op o next) := by rw [hinside]; rfl
      exact h.op hlocal hcoupled (huses i x _ hrest).1 hinside
  | @issue i x call next hinside =>
      have hrest : (s.phase i).remaining = some (x, .await call next) := by rw [hinside]; rfl
      exact h.issue hlocal hcoupled (huses i x _ hrest).1 hinside
  | @answered i x call next answer _ hawaiting =>
      have hrest : (s.phase i).remaining = some (x, .await call next) := by rw [hawaiting]; rfl
      exact h.answer hlocal hcoupled answer (huses i x _ hrest).1 hawaiting
  | @leave i x value hinside =>
      have hrest : (s.phase i).remaining = some (x, .done value) := by rw [hinside]; rfl
      by_cases hkey : G.key x = k
      · exact h.leave hcoupled hkey hinside rfl rfl rfl rfl
      · refine h.congr rfl rfl rfl
          (phase_update (not_holds_of_key_ne _ hrest hkey) ?_ (by simp [hinside]))
        simp [Phase.Holds, Phase.remaining]
  | drop hunref => exact h.congr rfl rfl rfl fun j => .inl rfl
  | outside hout => exact h.congr rfl rfl (hlocal.outside hout) fun j => .inl rfl

/-- A task inside its body has a run of its own, from where the tasks before it
left the part of its key. -/
theorem Serialized.reaches {x : X} {rest : Coroutine E β} (h : Serialized G view shared s (G.key x))
    (hrest : (s.phase i).remaining = some (x, rest)) :
    ∃ entries t trace t', G.Serial shared (entries : List (Entry E ι X β)) t ∧
      (G.body x).Reaches G.machine t trace rest t' ∧
      view (G.key x) s.shared = view (G.key x) ((s.phase i).issued G.machine t') := by
  obtain ⟨entries, t, h⟩ := h
  obtain ⟨-, trace, t', hreaches, -, hview⟩ := h.busy i x rest hrest rfl
  exact ⟨entries, t, trace, t', h.serial, hreaches, hview⟩

/-- **Run lemma.**  Under every interleaving the tasks of every key are serialized. -/
theorem serialized_of_reachable (hlocal : Local G view permits permitsCall)
    (h : G.Reachable shared s) (k : κ) : Serialized G view shared s k := by
  induction h generalizing k with
  | start => exact serialized_start
  | @step s s' hreach hstep ih =>
      refine (ih k).step hlocal (coupled_of_reachable hreach) (fun i x rest hrest => ?_) hstep
      obtain ⟨-, t, trace, t', -, hreaches, -⟩ := (ih (G.key x)).reaches hrest
      exact hreaches.uses (hlocal.uses x)

/-! ## Tasks that returned -/

/-- The task took the lock, and was not cancelled. -/
def Phase.entered : Phase E X β → Option X
  | .inside x _ => some x
  | .awaiting x _ _ => some x
  | .finished x (some _) => some x
  | _ => none

private theorem entered_update {phase : Phase E X β} {order : κ → List ι}
    (hall : ∀ j x, (s.phase j).entered = some x → j ∈ s.order (G.key x))
    (hsub : ∀ k, s.order k ⊆ order k) (hi : ∀ x, phase.entered = some x → i ∈ order (G.key x))
    (j : ι) (x : X) (hj : (Function.update s.phase i phase j).entered = some x) :
    j ∈ order (G.key x) := by
  by_cases hji : j = i
  · subst hji
    rw [Function.update_self] at hj
    exact hi x hj
  · rw [Function.update_of_ne hji] at hj
    exact hsub _ (hall j x hj)

/-- A task that comes back from the lock table has entered only if it is in the order. -/
private theorem entered_enter {t : LockTable κ ι} {x : X}
    (hall : ∀ j y, (s.phase j).entered = some y → j ∈ s.order (G.key y)) (j : ι) (y : X)
    (hj : (({ s with locks := t }.enter G i x).phase j).entered = some y) :
    j ∈ ({ s with locks := t }.enter G i x).order (G.key y) := by
  revert hj
  unfold System.enter
  split
  · refine entered_update hall (fun k => ?_) (fun y hy => ?_) j y
    · show s.order k ⊆ Function.update s.order (G.key x) (s.order (G.key x) ++ [i]) k
      by_cases hk : k = G.key x
      · subst hk
        simp
      · rw [Function.update_of_ne hk]
        exact List.Subset.refl _
    · simp only [Phase.entered, Option.some.injEq] at hy
      subst hy
      simp
  · exact entered_update hall (fun _ => List.Subset.refl _) (by simp [Phase.entered]) j y
  · exact entered_update hall (fun _ => List.Subset.refl _) (by simp [Phase.entered]) j y

/-- A task that entered goes on. -/
private theorem entered_move {phase : Phase E X β} {x : X}
    (hall : ∀ j y, (s.phase j).entered = some y → j ∈ s.order (G.key y))
    (hold : (s.phase i).entered = some x) (hnew : phase.entered = some x) (j : ι) (y : X)
    (hj : (Function.update s.phase i phase j).entered = some y) : j ∈ s.order (G.key y) := by
  refine entered_update hall (fun _ => List.Subset.refl _) (fun z hz => ?_) j y hj
  obtain rfl := Option.some.inj (hnew.symm.trans hz)
  exact hall i _ hold

/-- Without early answers, every task that returned took the lock. -/
theorem mem_order_of_entered (hearly : ∀ x t, G.early x t = none) (h : G.Reachable shared s) :
    ∀ i x, (s.phase i).entered = some x → i ∈ s.order (G.key x) := by
  induction h with
  | start =>
      intro i x hi
      simp [System.start, Phase.entered] at hi
  | @step s s' hreach hstep ih =>
      cases hstep with
      | @early i x value _ hvalue =>
          rw [hearly] at hvalue
          simp at hvalue
      | arrive _ _ => exact entered_enter ih
      | cancel _ => exact ih
      | resume _ => exact entered_enter ih
      | @op i x o next hinside => exact entered_move ih (by rw [hinside]; rfl) rfl
      | @issue i x call next hinside => exact entered_move ih (by rw [hinside]; rfl) rfl
      | @answered i x call next answer _ hawaiting =>
          exact entered_move ih (by rw [hawaiting]; rfl) rfl
      | @leave i x value hinside => exact entered_move ih (by rw [hinside]; rfl) rfl
      | drop _ => exact ih
      | outside _ => exact ih

end Cooperative
