import MomBot.Cooperative.Dialogue

/-!
# Handlers for some exceptions

`catching` is `try` with an `except` that names the exceptions it is for; the others pass.  A
handler that only logs and returns asks nothing, so `dialogue_catching_pure` needs no cut in the
dialogue: what comes out is a function of what the body came to.

`Contained` says of a stage of a program when it comes to its end, and `Contained.bind` puts stages
in a row; `Caught` is for the body of a `try`, and `Caught.contained` is for the `try` around it.
-/

namespace Cooperative.Coroutine

variable {E : Effects} {ε α β : Type} {turns : List (Turn E)}

theorem dialogue_perform {o : E.Op} {answer : E.Res o} :
    (perform o).Dialogue turns answer ↔ turns = [.op o answer] := by
  constructor
  · intro h
    obtain ⟨_, _, rfl, rfl, rfl⟩ := h
    rfl
  · intro h
    exact ⟨answer, [], h, rfl, rfl⟩

theorem dialogue_request {call : E.Call} {answer : E.Ans call} :
    (request call).Dialogue turns answer ↔ turns = [.await call answer] := by
  constructor
  · intro h
    obtain ⟨_, _, rfl, rfl, rfl⟩ := h
    rfl
  · intro h
    exact ⟨answer, [], h, rfl, rfl⟩

/-- `try: body; except …: handle`: the errors that are caught go to the handler. -/
def catching (catches : ε → Bool) (body : ExceptT ε (Coroutine E) α)
    (handle : ε → ExceptT ε (Coroutine E) α) : ExceptT ε (Coroutine E) α :=
  tryCatch body fun exc => if catches exc then handle exc else throw exc

/-- What comes out of a handler that returns `value`. -/
def handled (catches : ε → Bool) (value : α) : Except ε α → Except ε α
  | .ok v => .ok v
  | .error exc => if catches exc then .ok value else .error exc

variable {catches : ε → Bool} {body : ExceptT ε (Coroutine E) α} {result : Except ε α}

theorem dialogue_catching_pure {value : α} :
    (catching catches body fun _ => pure value).run.Dialogue turns result ↔
      ∃ outcome, body.run.Dialogue turns outcome ∧ result = handled catches value outcome := by
  rw [catching, dialogue_tryCatch]
  constructor
  · intro h
    rcases h with ⟨v, hbody, rfl⟩ | ⟨first, exc, second, rfl, hbody, hhandle⟩
    · exact ⟨.ok v, hbody, rfl⟩
    · refine ⟨.error exc, ?_⟩
      rw [handled]
      split at hhandle
      next hcaught =>
        obtain ⟨rfl, rfl⟩ := dialogue_pure_raising.mp hhandle
        exact ⟨by rwa [List.append_nil], (if_pos hcaught).symm⟩
      next hpassed =>
        obtain ⟨rfl, rfl⟩ := dialogue_throw.mp hhandle
        exact ⟨by rwa [List.append_nil], (if_neg hpassed).symm⟩
  · intro h
    obtain ⟨outcome, hbody, rfl⟩ := h
    cases outcome with
    | ok v => exact .inl ⟨v, hbody, rfl⟩
    | error exc =>
        refine .inr ⟨turns, exc, [], (List.append_nil turns).symm, hbody, ?_⟩
        rw [handled]
        split
        next => exact dialogue_pure_raising.mpr ⟨rfl, rfl⟩
        next => exact dialogue_throw.mpr ⟨rfl, rfl⟩

/-! ## Stages -/

section Stages

variable (allowed guarded quiet : Turn E → Prop)

/-- Where the answers are allowed ones, every turn of the stage is quiet, and the stage comes to its
end exactly if every turn is guarded. -/
def Contained (p : ExceptT ε (Coroutine E) α) : Prop :=
  ∀ turns result, p.run.Dialogue turns result → (∀ turn ∈ turns, allowed turn) →
    ((∃ value, result = .ok value) ↔ ∀ turn ∈ turns, guarded turn) ∧ ∀ turn ∈ turns, quiet turn

/-- Where the answers are allowed ones, every turn is guarded and quiet, and what the body raises is
caught. -/
def Caught (catches : ε → Bool) (p : ExceptT ε (Coroutine E) α) : Prop :=
  ∀ turns result, p.run.Dialogue turns result → (∀ turn ∈ turns, allowed turn) →
    (∀ turn ∈ turns, guarded turn ∧ quiet turn) ∧ ∀ exc, result = .error exc → catches exc = true

variable {allowed guarded quiet} {p : ExceptT ε (Coroutine E) α} {f : α → ExceptT ε (Coroutine E) β}

theorem contained_pure (value : α) :
    Contained allowed guarded quiet (pure value : ExceptT ε (Coroutine E) α) := by
  intro turns result h _
  obtain ⟨rfl, rfl⟩ := dialogue_pure_raising.mp h
  exact ⟨iff_of_true ⟨value, rfl⟩ (List.forall_mem_nil _), List.forall_mem_nil _⟩

/-- What comes after a stage is done exactly if the stage met nothing unguarded. -/
theorem Contained.cut {result : Except ε β} (hp : Contained allowed guarded quiet p)
    (h : (p >>= f).run.Dialogue turns result) (hturns : ∀ turn ∈ turns, allowed turn) :
    ((∃ exc, result = .error exc) ∧ ¬ (∀ turn ∈ turns, guarded turn) ∧
        ∀ turn ∈ turns, quiet turn) ∨
      ∃ first value second, turns = first ++ second ∧ (∀ turn ∈ first, guarded turn) ∧
        (∀ turn ∈ first, quiet turn) ∧ (f value).run.Dialogue second result := by
  obtain ⟨exc, hfirst, rfl⟩ | ⟨first, v, second, rfl, hfirst, hsecond⟩ :=
    dialogue_bind_raising.mp h
  · obtain ⟨hends, hquiet⟩ := hp turns _ hfirst hturns
    refine .inl ⟨⟨exc, rfl⟩, ?_, hquiet⟩
    rw [← hends]
    simp
  · obtain ⟨hends, hquiet⟩ := hp first _ hfirst (List.forall_mem_append.mp hturns).1
    exact .inr ⟨first, v, second, rfl, hends.mp ⟨v, rfl⟩, hquiet, hsecond⟩

theorem Contained.bind (hp : Contained allowed guarded quiet p)
    (hf : ∀ value, Contained allowed guarded quiet (f value)) :
    Contained allowed guarded quiet (p >>= f) := by
  intro turns result h hturns
  obtain ⟨⟨exc, rfl⟩, hescapes, hquiet⟩ | ⟨first, v, second, rfl, hguarded, hquiet, hsecond⟩ :=
    hp.cut h hturns
  · exact ⟨iff_of_false (by simp) hescapes, hquiet⟩
  · obtain ⟨hends, hquiet'⟩ := hf v second result hsecond (List.forall_mem_append.mp hturns).2
    refine ⟨?_, List.forall_mem_append.mpr ⟨hquiet, hquiet'⟩⟩
    rw [List.forall_mem_append, hends]
    exact (and_iff_right hguarded).symm

theorem caught_pure (value : α) :
    Caught allowed guarded quiet catches (pure value : ExceptT ε (Coroutine E) α) := by
  intro turns result h _
  obtain ⟨rfl, rfl⟩ := dialogue_pure_raising.mp h
  exact ⟨List.forall_mem_nil _, by simp⟩

theorem caught_throw {exc : ε} (hcaught : catches exc = true) :
    Caught allowed guarded quiet catches (throw exc : ExceptT ε (Coroutine E) α) := by
  intro turns result h _
  obtain ⟨rfl, rfl⟩ := dialogue_throw.mp h
  refine ⟨List.forall_mem_nil _, fun other hother => ?_⟩
  rwa [← Except.error.inj hother]

theorem Caught.bind (hp : Caught allowed guarded quiet catches p)
    (hf : ∀ value, Caught allowed guarded quiet catches (f value)) :
    Caught allowed guarded quiet catches (p >>= f) := by
  intro turns result h hturns
  obtain ⟨exc, hfirst, rfl⟩ | ⟨first, v, second, rfl, hfirst, hsecond⟩ :=
    dialogue_bind_raising.mp h
  · obtain ⟨hkept, hcaught⟩ := hp turns _ hfirst hturns
    refine ⟨hkept, fun other hother => hcaught other ?_⟩
    rw [Except.error.inj hother]
  · obtain ⟨hallowed, hallowed'⟩ := List.forall_mem_append.mp hturns
    obtain ⟨hkept, -⟩ := hp first _ hfirst hallowed
    obtain ⟨hkept', hcaught⟩ := hf v second result hsecond hallowed'
    exact ⟨List.forall_mem_append.mpr ⟨hkept, hkept'⟩, hcaught⟩

/-- Nothing gets out of the `try`. -/
theorem Caught.contained (h : Caught allowed guarded quiet catches p) (value : α) :
    Contained allowed guarded quiet (catching catches p fun _ => pure value) := by
  intro turns result hcatching hturns
  obtain ⟨outcome, hbody, rfl⟩ := dialogue_catching_pure.mp hcatching
  obtain ⟨hkept, hcaught⟩ := h turns outcome hbody hturns
  refine ⟨iff_of_true ?_ fun turn hturn => (hkept turn hturn).1,
    fun turn hturn => (hkept turn hturn).2⟩
  cases outcome with
  | ok v => exact ⟨v, rfl⟩
  | error exc => exact ⟨value, if_pos (hcaught exc rfl)⟩

end Stages

end Cooperative.Coroutine
