/-!
# Coroutines

A cooperative task does two kinds of things.  It asks its own process for
something and has the answer before anything else runs (`op`: a database
statement, a cache lookup), or it awaits an answer that the environment chooses
while other tasks run (`await`: a network call).  `Effects` names both kinds,
`Coroutine` is the free monad over them, and a `Machine` says what they do to a
shared state.

Two semantics are given here, both for one task on its own: the relation `Runs`,
which records what was awaited and what came back, and the function `eval`, for
an environment that answers every call by a fixed rule.  Tasks that interleave
are the subject of `Interleave.lean` and `Lock.lean`.
-/

namespace Cooperative

/-- What a task can do: operations answered at once, and calls it awaits. -/
structure Effects where
  Op : Type
  Res : Op → Type
  Call : Type
  Ans : Call → Type

/-- The rest of a task. -/
inductive Coroutine (E : Effects) (α : Type) where
  | done (value : α)
  | op (o : E.Op) (next : E.Res o → Coroutine E α)
  | await (call : E.Call) (next : E.Ans call → Coroutine E α)

/-- An awaited call together with the answer it got. -/
abbrev Exchange (E : Effects) := (call : E.Call) × E.Ans call

/-- What operations and calls do to the shared state.  `issue` is the moment a
call starts, `complete` the moment its answer arrives. -/
structure Machine (E : Effects) (σ : Type) where
  exec : (o : E.Op) → σ → E.Res o × σ
  issue : E.Call → σ → σ
  complete : (call : E.Call) → E.Ans call → σ → σ

variable {E : Effects} {σ α β : Type}

namespace Coroutine

/-- Sequencing: `f` goes on with what the program returns. -/
def bind : Coroutine E α → (α → Coroutine E β) → Coroutine E β
  | done value, f => f value
  | op o next, f => op o fun r => (next r).bind f
  | await call next, f => await call fun a => (next a).bind f

instance : Monad (Coroutine E) where
  pure := done
  bind := bind

/-- The coroutine that only performs `o`. -/
def perform (o : E.Op) : Coroutine E (E.Res o) :=
  op o done

/-- The coroutine that only awaits `call`. -/
def request (call : E.Call) : Coroutine E (E.Ans call) :=
  await call done

@[simp] theorem op_bind (o : E.Op) (next : E.Res o → Coroutine E α) (f : α → Coroutine E β) :
    op o next >>= f = op o fun r => next r >>= f := rfl

@[simp] theorem await_bind (call : E.Call) (next : E.Ans call → Coroutine E α)
    (f : α → Coroutine E β) : await call next >>= f = await call fun a => next a >>= f := rfl

/-! ## A task on its own -/

/-- `p.Runs M s trace value s'`: alone on the machine, `p` takes `s` to `s'` and
returns `value`, and `trace` lists the calls it awaited with their answers. -/
def Runs (M : Machine E σ) : Coroutine E α → σ → List (Exchange E) → α → σ → Prop
  | done v, s, trace, value, s' => trace = [] ∧ value = v ∧ s' = s
  | op o next, s, trace, value, s' =>
      (next (M.exec o s).1).Runs M (M.exec o s).2 trace value s'
  | await call next, s, trace, value, s' =>
      ∃ answer rest, trace = ⟨call, answer⟩ :: rest ∧
        (next answer).Runs M (M.complete call answer (M.issue call s)) rest value s'

variable {M : Machine E σ} {s s' : σ} {trace : List (Exchange E)}

@[simp] theorem runs_op {o : E.Op} {next : E.Res o → Coroutine E α} {value : α} :
    (op o next).Runs M s trace value s' ↔
      (next (M.exec o s).1).Runs M (M.exec o s).2 trace value s' :=
  Iff.rfl

@[simp] theorem runs_await {call : E.Call} {next : E.Ans call → Coroutine E α} {value : α} :
    (await call next).Runs M s trace value s' ↔
      ∃ answer rest, trace = ⟨call, answer⟩ :: rest ∧
        (next answer).Runs M (M.complete call answer (M.issue call s)) rest value s' :=
  Iff.rfl

theorem runs_bind {p : Coroutine E α} {f : α → Coroutine E β} {value : β} :
    (p >>= f).Runs M s trace value s' ↔
      ∃ first mid s₁ second, trace = first ++ second ∧ p.Runs M s first mid s₁ ∧
        (f mid).Runs M s₁ second value s' := by
  induction p generalizing s trace with
  | done v =>
      constructor
      · intro h
        exact ⟨[], v, s, trace, rfl, ⟨rfl, rfl, rfl⟩, h⟩
      · rintro ⟨_, _, _, second, rfl, ⟨rfl, rfl, rfl⟩, h⟩
        exact h
  | op o next ih =>
      simp only [op_bind, runs_op]
      exact ih _
  | await call next ih =>
      simp only [await_bind, runs_await]
      constructor
      · rintro ⟨answer, rest, rfl, h⟩
        obtain ⟨first, mid, s₁, second, rfl, hp, hf⟩ := (ih answer).mp h
        exact ⟨_ :: first, mid, s₁, second, rfl, ⟨answer, first, rfl, hp⟩, hf⟩
      · rintro ⟨_, mid, s₁, second, rfl, ⟨answer, first, rfl, hp⟩, hf⟩
        exact ⟨answer, first ++ second, rfl, (ih answer).mpr ⟨first, mid, s₁, second, rfl, hp, hf⟩⟩

/-- Every coroutine returns, whatever the environment answers. -/
theorem exists_runs (M : Machine E σ) (answer : (call : E.Call) → E.Ans call)
    (p : Coroutine E α) (s : σ) :
    ∃ trace value s', p.Runs M s trace value s' ∧
      ∀ exchange ∈ trace, exchange.2 = answer exchange.1 := by
  induction p generalizing s with
  | done v => exact ⟨[], v, s, ⟨rfl, rfl, rfl⟩, by simp⟩
  | op o next ih => exact ih _ _
  | await call next ih =>
      obtain ⟨trace, value, s', hruns, hanswers⟩ :=
        ih (answer call) (M.complete call (answer call) (M.issue call s))
      exact ⟨⟨call, answer call⟩ :: trace, value, s', ⟨_, _, rfl, hruns⟩, by simpa using hanswers⟩

/-! ## A fixed environment -/

/-- Run a coroutine against an environment that answers `call` with `answer call`. -/
def eval (M : Machine E σ) (answer : (call : E.Call) → E.Ans call) :
    Coroutine E α → σ → α × σ
  | done v, s => (v, s)
  | op o next, s => (next (M.exec o s).1).eval M answer (M.exec o s).2
  | await call next, s =>
      (next (answer call)).eval M answer (M.complete call (answer call) (M.issue call s))

variable {answer : (call : E.Call) → E.Ans call}

/-- A run in which the environment followed the rule is the one `eval` computes. -/
theorem Runs.eval_eq {p : Coroutine E α} {value : α} (h : p.Runs M s trace value s')
    (hanswers : ∀ exchange ∈ trace, exchange.2 = answer exchange.1) :
    p.eval M answer s = (value, s') := by
  induction p generalizing s trace with
  | done v =>
      obtain ⟨-, rfl, rfl⟩ := h
      rfl
  | op o next ih => exact ih _ h hanswers
  | await call next ih =>
      obtain ⟨a, rest, rfl, h⟩ := h
      have ha : a = answer call := hanswers ⟨call, a⟩ (by simp)
      subst ha
      exact ih _ h fun exchange hmem => hanswers exchange (by simp [hmem])

/-! ## Runs that are not over -/

/-- `p.Reaches M s trace q s'`: alone on the machine, `p` gets from `s` to `s'`,
where `q` is left to do. -/
inductive Reaches (M : Machine E σ) (p : Coroutine E α) (s : σ) :
    List (Exchange E) → Coroutine E α → σ → Prop
  | start : Reaches M p s [] p s
  | op {trace : List (Exchange E)} {o : E.Op} {next : E.Res o → Coroutine E α} {s' : σ} :
      Reaches M p s trace (op o next) s' →
      Reaches M p s trace (next (M.exec o s').1) (M.exec o s').2
  | await {trace : List (Exchange E)} {call : E.Call} {next : E.Ans call → Coroutine E α} {s' : σ}
      (answer : E.Ans call) : Reaches M p s trace (await call next) s' →
      Reaches M p s (trace ++ [⟨call, answer⟩]) (next answer)
        (M.complete call answer (M.issue call s'))

/-- What is left to do completes the run. -/
theorem Reaches.append {p q : Coroutine E α} {rest : List (Exchange E)} {s₁ : σ} {value : α}
    (h : p.Reaches M s trace q s₁) (hrest : q.Runs M s₁ rest value s') :
    p.Runs M s (trace ++ rest) value s' := by
  induction h generalizing rest with
  | start => exact hrest
  | op _ ih => exact ih hrest
  | await answer _ ih =>
      rw [List.append_assoc]
      exact ih ⟨answer, rest, rfl, hrest⟩

theorem Reaches.runs {p : Coroutine E α} {value : α} (h : p.Reaches M s trace (done value) s') :
    p.Runs M s trace value s' := by
  have hruns : p.Runs M s (trace ++ []) value s' := h.append ⟨rfl, rfl, rfl⟩
  rwa [List.append_nil] at hruns

/-- A coroutine that is done goes nowhere. -/
theorem Reaches.of_done {v : α} {q : Coroutine E α}
    (h : (Coroutine.done v).Reaches M s trace q s') : q = .done v ∧ s' = s := by
  induction h with
  | start => exact ⟨rfl, rfl⟩
  | op _ ih => exact absurd ih.1 (by simp)
  | await _ _ ih => exact absurd ih.1 (by simp)

/-- The first operation of a run is behind it, or nothing is. -/
theorem Reaches.of_op {o : E.Op} {next : E.Res o → Coroutine E α} {q : Coroutine E α}
    (h : (Coroutine.op o next).Reaches M s trace q s') :
    (trace = [] ∧ q = .op o next ∧ s' = s) ∨
      (next (M.exec o s).1).Reaches M (M.exec o s).2 trace q s' := by
  induction h with
  | start => exact .inl ⟨rfl, rfl, rfl⟩
  | op hreaches ih =>
      rcases ih with ⟨rfl, heq, rfl⟩ | hrest
      · obtain ⟨rfl, hnext⟩ := Coroutine.op.inj heq
        obtain rfl := eq_of_heq hnext
        exact .inr .start
      · exact .inr hrest.op
  | await answer hreaches ih =>
      rcases ih with ⟨rfl, heq, rfl⟩ | hrest
      · exact absurd heq (by simp)
      · exact .inr (hrest.await answer)

/-! ## What a coroutine uses -/

/-- Every operation and every call that the coroutine can come to is permitted. -/
def Uses (permits : E.Op → Prop) (permitsCall : E.Call → Prop) : Coroutine E α → Prop
  | done _ => True
  | op o next => permits o ∧ ∀ r, (next r).Uses permits permitsCall
  | await call next => permitsCall call ∧ ∀ a, (next a).Uses permits permitsCall

variable {permits : E.Op → Prop} {permitsCall : E.Call → Prop}

theorem Uses.bind {p : Coroutine E α} {f : α → Coroutine E β} (hp : p.Uses permits permitsCall)
    (hf : ∀ v, (f v).Uses permits permitsCall) : (p >>= f).Uses permits permitsCall := by
  induction p with
  | done v => exact hf v
  | op o next ih => exact ⟨hp.1, fun r => ih r (hp.2 r)⟩
  | await call next ih => exact ⟨hp.1, fun a => ih a (hp.2 a)⟩

theorem Uses.mono {permits' : E.Op → Prop} {permitsCall' : E.Call → Prop} {p : Coroutine E α}
    (hp : p.Uses permits permitsCall) (hop : ∀ o, permits o → permits' o)
    (hcall : ∀ call, permitsCall call → permitsCall' call) :
    p.Uses permits' permitsCall' := by
  induction p with
  | done v => trivial
  | op o next ih => exact ⟨hop o hp.1, fun r => ih r (hp.2 r)⟩
  | await call next ih => exact ⟨hcall call hp.1, fun a => ih a (hp.2 a)⟩

theorem Reaches.uses {p q : Coroutine E α} (h : p.Reaches M s trace q s')
    (hp : p.Uses permits permitsCall) : q.Uses permits permitsCall := by
  induction h with
  | start => exact hp
  | op _ ih => exact ih.2 _
  | await answer _ ih => exact ih.2 answer

end Coroutine

end Cooperative
