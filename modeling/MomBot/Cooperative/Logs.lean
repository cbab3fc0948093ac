import MomBot.Cooperative.Keeping

/-!
# The log of a run

A configuration forgets how it came about.  A log holds what the events of a run have noted, in
their order: `Concurrent.Logs` relates it to the configuration that the run leads to.  It is a
function of the run, and every run has one (`Concurrent.reachable_iff_exists_logs`).

What every event keeps of the log, the modes and the configuration holds at the end of the run
(`Protocol.governed_logging`).
-/

set_option linter.unusedSectionVars false

namespace Cooperative

variable {E : Effects} {σ ι X α T ν : Type} [DecidableEq ι]

namespace Concurrent

/-- `C.Logs allowed note shared log c`: a run of allowed events leads from `shared` to `c`, and its
events have noted `log`. -/
inductive Logs (C : Concurrent E σ X α) (allowed : Config E σ ι X α → Event E σ ι X → Prop)
    (note : Config E σ ι X α → Event E σ ι X → Option ν) (shared : σ) :
    List ν → Config E σ ι X α → Prop
  | start : Logs C allowed note shared [] (.start shared)
  | step {log : List ν} {c c' : Config E σ ι X α} {event : Event E σ ι X} :
      Logs C allowed note shared log c → allowed c event → C.Admits c event →
      C.step c event = some c' → Logs C allowed note shared (log ++ (note c event).toList) c'

/-- What a schedule notes. -/
def noteAll (C : Concurrent E σ X α) (note : Config E σ ι X α → Event E σ ι X → Option ν)
    (c : Config E σ ι X α) : List (Event E σ ι X) → List ν
  | [] => []
  | event :: events =>
      (note c event).toList ++ (C.step c event).elim [] fun c' => C.noteAll note c' events

variable {C : Concurrent E σ X α} {allowed : Config E σ ι X α → Event E σ ι X → Prop}
  {note : Config E σ ι X α → Event E σ ι X → Option ν} {shared : σ} {log : List ν}
  {c c' : Config E σ ι X α}

theorem reachable_iff_exists_logs :
    C.Reachable allowed shared c ↔ ∃ log, C.Logs allowed note shared log c := by
  constructor
  · intro h
    induction h with
    | start => exact ⟨[], .start⟩
    | step _ hallowed hadmits hstep ih =>
        obtain ⟨log, hlogs⟩ := ih
        exact ⟨_, hlogs.step hallowed hadmits hstep⟩
  · intro h
    obtain ⟨log, hlogs⟩ := h
    induction hlogs with
    | start => exact .start
    | step _ hallowed hadmits hstep ih => exact ih.step hallowed hadmits hstep

/-- A schedule of the tasks that can be performed adds what it notes. -/
theorem Logs.runIf {permits : Config E σ ι X α → Event E σ ι X → Bool}
    {events : List (Event E σ ι X)} (h : C.Logs allowed note shared log c)
    (hallowed : ∀ c : Config E σ ι X α, ∀ event, permits c event = true → allowed c event)
    (htasks : (events.any Event.isOutside) = false)
    (hrun : C.runIf permits c events = some c') :
    C.Logs allowed note shared (log ++ C.noteAll note c events) c' := by
  induction events generalizing log c with
  | nil =>
      obtain rfl := Option.some.inj hrun
      rwa [noteAll, List.append_nil]
  | cons event events ih =>
      rw [Concurrent.runIf] at hrun
      split at hrun
      case isFalse => cases hrun
      next hpermits =>
        obtain ⟨c₁, hstep, hrest⟩ := Option.bind_eq_some_iff.mp hrun
        obtain ⟨htask, htasks⟩ := Bool.or_eq_false_iff.mp htasks
        have hadmits : C.Admits c event := by
          cases event <;> trivial
        have hlogs := ih (h.step (hallowed c event hpermits) hadmits hstep) htasks hrest
        rwa [noteAll, hstep, Option.elim_some, ← List.append_assoc]

end Concurrent

namespace Protocol

/-- Every allowed event of a governed configuration keeps `J`, which also speaks of the log. -/
def KeepsLogging (P : Protocol E X T) (post : α → T → Prop) (G : (ι → T) → σ → Prop)
    (C : Concurrent E σ X α) (allowed : Config E σ ι X α → Event E σ ι X → Prop)
    (note : Config E σ ι X α → Event E σ ι X → Option ν)
    (J : List ν → (ι → T) → Config E σ ι X α → Prop) : Prop :=
  ∀ ⦃log : List ν⦄ ⦃mode mode' : ι → T⦄ ⦃c c' : Config E σ ι X α⦄ ⦃event : Event E σ ι X⦄,
    P.Governs post G mode c → allowed c event → C.Admits c event → C.step c event = some c' →
    (∀ i, P.Moves post C c event i (mode i) (mode' i)) → J log mode c →
    J (log ++ (note c event).toList) mode' c'

variable {P : Protocol E X T} {post : α → T → Prop} {G : (ι → T) → σ → Prop}
  {C : Concurrent E σ X α} {allowed : Config E σ ι X α → Event E σ ι X → Prop}
  {note : Config E σ ι X α → Event E σ ι X → Option ν}
  {J : List ν → (ι → T) → Config E σ ι X α → Prop} {shared : σ} {log : List ν}
  {c : Config E σ ι X α}

/-- **Run lemma.**  What is kept of the log holds at the end of every run. -/
theorem governed_logging (hsound : P.Sound post G C allowed)
    (hkeeps : P.KeepsLogging post G C allowed note J) (hstart : G (fun _ : ι => P.rest) shared)
    (hJ : J [] (fun _ => P.rest) (.start shared)) (h : C.Logs allowed note shared log c) :
    ∃ mode, P.Governs post G mode c ∧ J log mode c := by
  induction h with
  | start => exact ⟨fun _ => P.rest, ⟨fun _ => rfl, hstart⟩, hJ⟩
  | step _ hallowed hadmits hstep ih =>
      obtain ⟨mode, hgoverns, hJ⟩ := ih
      obtain ⟨mode', hgoverns', hmoves⟩ := hgoverns.step_moves hsound hallowed hadmits hstep
      exact ⟨mode', hgoverns', hkeeps hgoverns hallowed hadmits hstep hmoves hJ⟩

end Protocol

end Cooperative
