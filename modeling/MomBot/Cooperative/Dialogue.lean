import Mathlib.Data.List.Basic
import MomBot.Cooperative.Coroutine

/-!
# Dialogues

`Runs` is about one machine: it leaves to the state what an operation answers.  Where a
property must hold whatever the process itself answers, its failures included, the
operations count as much as the calls.  A dialogue of a coroutine lists both, each with an
answer that nothing restricts.

A program that may raise is an `ExceptT ε (Coroutine E)`.  The rules for its dialogues
follow its handlers: `dialogue_bind_raising` for a sequence, which an exception cuts short,
and `dialogue_tryCatch` for `try`, where it goes on with the handler.

`Mirrors` compares two coroutines over different effects, of which one asks in its own terms
what the other asks.
-/

namespace Cooperative

/-- One question of a task together with the answer it got. -/
inductive Turn (E : Effects) where
  | op (o : E.Op) (answer : E.Res o)
  | await (call : E.Call) (answer : E.Ans call)

variable {E : Effects} {σ ε α β : Type}

namespace Turn

/-- The exchange of a turn; an operation has none. -/
def exchange : Turn E → Option (Exchange E)
  | op _ _ => none
  | await call answer => some ⟨call, answer⟩

/-- The answer is the one that a fixed environment gives. -/
def Follows (reply : (o : E.Op) → E.Res o) (reply' : (call : E.Call) → E.Ans call) : Turn E → Prop
  | op o answer => answer = reply o
  | await call answer => answer = reply' call

end Turn

namespace Coroutine

/-- `p.Dialogue turns value`: with the answers of `turns`, `p` returns `value`. -/
def Dialogue : Coroutine E α → List (Turn E) → α → Prop
  | done v, turns, value => turns = [] ∧ value = v
  | op o next, turns, value =>
      ∃ answer rest, turns = .op o answer :: rest ∧ (next answer).Dialogue rest value
  | await call next, turns, value =>
      ∃ answer rest, turns = .await call answer :: rest ∧ (next answer).Dialogue rest value

variable {turns : List (Turn E)}

theorem dialogue_bind {p : Coroutine E α} {f : α → Coroutine E β} {value : β} :
    (p >>= f).Dialogue turns value ↔
      ∃ first mid second, turns = first ++ second ∧ p.Dialogue first mid ∧
        (f mid).Dialogue second value := by
  induction p generalizing turns with
  | done v =>
      constructor
      · intro h
        exact ⟨[], v, turns, rfl, ⟨rfl, rfl⟩, h⟩
      · rintro ⟨_, _, second, rfl, ⟨rfl, rfl⟩, h⟩
        exact h
  | op o next ih =>
      constructor
      · rintro ⟨answer, rest, rfl, h⟩
        obtain ⟨first, mid, second, rfl, hp, hf⟩ := (ih answer).mp h
        exact ⟨_ :: first, mid, second, rfl, ⟨answer, first, rfl, hp⟩, hf⟩
      · rintro ⟨_, mid, second, rfl, ⟨answer, first, rfl, hp⟩, hf⟩
        exact ⟨answer, first ++ second, rfl, (ih answer).mpr ⟨first, mid, second, rfl, hp, hf⟩⟩
  | await call next ih =>
      constructor
      · rintro ⟨answer, rest, rfl, h⟩
        obtain ⟨first, mid, second, rfl, hp, hf⟩ := (ih answer).mp h
        exact ⟨_ :: first, mid, second, rfl, ⟨answer, first, rfl, hp⟩, hf⟩
      · rintro ⟨_, mid, second, rfl, ⟨answer, first, rfl, hp⟩, hf⟩
        exact ⟨answer, first ++ second, rfl, (ih answer).mpr ⟨first, mid, second, rfl, hp, hf⟩⟩

/-- A run is a dialogue in which the state answers the operations. -/
theorem Runs.exists_dialogue {M : Machine E σ} {p : Coroutine E α} {s s' : σ}
    {trace : List (Exchange E)} {value : α} (h : p.Runs M s trace value s') :
    ∃ turns, p.Dialogue turns value ∧ turns.filterMap Turn.exchange = trace := by
  induction p generalizing s trace with
  | done v => exact ⟨[], ⟨rfl, h.2.1⟩, h.1.symm⟩
  | op o next ih =>
      obtain ⟨turns, hturns, htrace⟩ := ih _ h
      exact ⟨.op o _ :: turns, ⟨_, turns, rfl, hturns⟩, htrace⟩
  | await call next ih =>
      obtain ⟨answer, rest, rfl, h⟩ := h
      obtain ⟨turns, hturns, rfl⟩ := ih answer h
      exact ⟨.await call answer :: turns, ⟨answer, turns, rfl, hturns⟩, rfl⟩

/-- Whatever the operations and the calls answer, the coroutine returns. -/
theorem exists_dialogue (reply : (o : E.Op) → E.Res o) (answer : (call : E.Call) → E.Ans call)
    (p : Coroutine E α) :
    ∃ turns value, p.Dialogue turns value ∧ ∀ turn ∈ turns, turn.Follows reply answer := by
  induction p with
  | done v => exact ⟨[], v, ⟨rfl, rfl⟩, by simp⟩
  | op o next ih =>
      obtain ⟨turns, value, hturns, hfollows⟩ := ih (reply o)
      refine ⟨.op o (reply o) :: turns, value, ⟨_, turns, rfl, hturns⟩, ?_⟩
      exact List.forall_mem_cons.mpr ⟨rfl, hfollows⟩
  | await call next ih =>
      obtain ⟨turns, value, hturns, hfollows⟩ := ih (answer call)
      refine ⟨.await call (answer call) :: turns, value, ⟨_, turns, rfl, hturns⟩, ?_⟩
      exact List.forall_mem_cons.mpr ⟨rfl, hfollows⟩

/-! ## Two ways to ask the same -/

/-- `q` asks in its own effects what `p` asks, and goes on alike. -/
inductive Mirrors {F : Effects} (same : Turn E → Turn F → Prop) :
    Coroutine E α → Coroutine F α → Prop
  | done (v : α) : Mirrors same (done v) (done v)
  | op {o : E.Op} {o' : F.Op} {next : E.Res o → Coroutine E α} {next' : F.Res o' → Coroutine F α}
      (lift : E.Res o → F.Res o') : (∀ answer, same (.op o answer) (.op o' (lift answer))) →
      (∀ answer, Mirrors same (next answer) (next' (lift answer))) →
      Mirrors same (op o next) (op o' next')
  | await {call : E.Call} {call' : F.Call} {next : E.Ans call → Coroutine E α}
      {next' : F.Ans call' → Coroutine F α} (lift : E.Ans call → F.Ans call') :
      (∀ answer, same (.await call answer) (.await call' (lift answer))) →
      (∀ answer, Mirrors same (next answer) (next' (lift answer))) →
      Mirrors same (await call next) (await call' next')

section Mirrors

variable {F : Effects} {same : Turn E → Turn F → Prop}

theorem Mirrors.bind {p : Coroutine E α} {q : Coroutine F α} {f : α → Coroutine E β}
    {g : α → Coroutine F β} (h : p.Mirrors same q) (hf : ∀ v, (f v).Mirrors same (g v)) :
    (p >>= f).Mirrors same (q >>= g) := by
  induction h with
  | done v => exact hf v
  | op lift hsame _ ih => exact .op lift hsame ih
  | await lift hsame _ ih => exact .await lift hsame ih

theorem Mirrors.dialogue {p : Coroutine E α} {q : Coroutine F α} {value : α}
    (h : p.Mirrors same q) (hp : p.Dialogue turns value) :
    ∃ turns', List.Forall₂ same turns turns' ∧ q.Dialogue turns' value := by
  induction h generalizing turns with
  | done v =>
      obtain ⟨rfl, rfl⟩ := hp
      exact ⟨[], .nil, rfl, rfl⟩
  | op lift hsame _ ih =>
      obtain ⟨answer, rest, rfl, hp⟩ := hp
      obtain ⟨rest', hrest, hq⟩ := ih answer hp
      exact ⟨_, .cons (hsame answer) hrest, lift answer, rest', rfl, hq⟩
  | await lift hsame _ ih =>
      obtain ⟨answer, rest, rfl, hp⟩ := hp
      obtain ⟨rest', hrest, hq⟩ := ih answer hp
      exact ⟨_, .cons (hsame answer) hrest, lift answer, rest', rfl, hq⟩

end Mirrors

/-! ## Programs that raise -/

variable {result : Except ε β}

theorem dialogue_pure_raising {v : β} :
    (pure v : ExceptT ε (Coroutine E) β).run.Dialogue turns result ↔
      turns = [] ∧ result = .ok v :=
  Iff.rfl

theorem dialogue_throw {exc : ε} :
    (throw exc : ExceptT ε (Coroutine E) β).run.Dialogue turns result ↔
      turns = [] ∧ result = .error exc :=
  Iff.rfl

/-- What comes after an exception is not done. -/
theorem dialogue_bind_raising {p : ExceptT ε (Coroutine E) α} {f : α → ExceptT ε (Coroutine E) β} :
    (p >>= f).run.Dialogue turns result ↔
      (∃ exc, p.run.Dialogue turns (.error exc) ∧ result = .error exc) ∨
        ∃ first v second, turns = first ++ second ∧ p.run.Dialogue first (.ok v) ∧
          (f v).run.Dialogue second result := by
  show (p.run >>= ExceptT.bindCont f).Dialogue turns result ↔ _
  rw [dialogue_bind]
  constructor
  · rintro ⟨first, mid, second, rfl, hp, hf⟩
    cases mid with
    | error exc =>
        obtain ⟨rfl, rfl⟩ := hf
        exact .inl ⟨exc, by rwa [List.append_nil], rfl⟩
    | ok v => exact .inr ⟨first, v, second, rfl, hp, hf⟩
  · rintro (⟨exc, hp, rfl⟩ | ⟨first, v, second, rfl, hp, hf⟩)
    · exact ⟨turns, .error exc, [], by rw [List.append_nil], hp, rfl, rfl⟩
    · exact ⟨first, .ok v, second, rfl, hp, hf⟩

theorem dialogue_map_ok {p : ExceptT ε (Coroutine E) α} {g : α → β} {w : β} :
    (p >>= fun v => pure (g v)).run.Dialogue turns (.ok w) ↔
      ∃ v, p.run.Dialogue turns (.ok v) ∧ w = g v := by
  rw [dialogue_bind_raising]
  constructor
  · rintro (⟨exc, -, hok⟩ | ⟨first, v, _, rfl, hp, rfl, hok⟩)
    · cases hok
    · exact ⟨v, by rwa [List.append_nil], Except.ok.inj hok⟩
  · rintro ⟨v, hp, rfl⟩
    exact .inr ⟨turns, v, [], by rw [List.append_nil], hp, rfl, rfl⟩

theorem dialogue_map_error {p : ExceptT ε (Coroutine E) α} {g : α → β} {exc : ε} :
    (p >>= fun v => pure (g v)).run.Dialogue turns (.error exc) ↔
      p.run.Dialogue turns (.error exc) := by
  rw [dialogue_bind_raising]
  constructor
  · rintro (⟨_, hp, herror⟩ | ⟨_, _, _, -, -, -, herror⟩)
    · rwa [Except.error.inj herror]
    · cases herror
  · intro hp
    exact .inl ⟨exc, hp, rfl⟩

/-- The handler goes on where the body raised. -/
theorem dialogue_tryCatch {p : ExceptT ε (Coroutine E) β} {handle : ε → ExceptT ε (Coroutine E) β} :
    (tryCatch p handle).run.Dialogue turns result ↔
      (∃ v, p.run.Dialogue turns (.ok v) ∧ result = .ok v) ∨
        ∃ first exc second, turns = first ++ second ∧ p.run.Dialogue first (.error exc) ∧
          (handle exc).run.Dialogue second result := by
  show (ExceptT.tryCatch p handle).run.Dialogue turns result ↔ _
  unfold ExceptT.tryCatch ExceptT.mk
  show (p.run >>= _).Dialogue turns result ↔ _
  rw [dialogue_bind]
  constructor
  · rintro ⟨first, mid, second, rfl, hp, hf⟩
    cases mid with
    | ok v =>
        obtain ⟨rfl, rfl⟩ := hf
        exact .inl ⟨v, by rwa [List.append_nil], rfl⟩
    | error exc => exact .inr ⟨first, exc, second, rfl, hp, hf⟩
  · rintro (⟨v, hp, rfl⟩ | ⟨first, exc, second, rfl, hp, hf⟩)
    · exact ⟨turns, .ok v, [], by rw [List.append_nil], hp, rfl, rfl⟩
    · exact ⟨first, .error exc, second, rfl, hp, hf⟩

end Coroutine

end Cooperative
