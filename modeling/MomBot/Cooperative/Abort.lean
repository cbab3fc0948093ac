import Mathlib.Data.List.Infix
import MomBot.Cooperative.Coroutine

/-!
# Operations that are refused

Some operations of a task are refused, and a refusal ends the task: an exception
that the task does not catch.  `abortAt` cuts a coroutine at its first refused
operation.  A cut coroutine that returns has run as the whole one does
(`Runs.of_abortAt`) and met no refusal on the way (`not_refused_of_runs_abortAt`);
one that does not has come to a refused operation (`exists_refused_of_runs_abortAt`).
-/

namespace Cooperative

namespace Coroutine

variable {E : Effects} {σ α β : Type} {M : Machine E σ} {s s' s₁ : σ}
  {trace first : List (Exchange E)}

/-! ## Runs and their beginnings -/

theorem Reaches.trans {p q r : Coroutine E α} {second : List (Exchange E)}
    (h₁ : p.Reaches M s first q s₁) (h₂ : q.Reaches M s₁ second r s') :
    p.Reaches M s (first ++ second) r s' := by
  induction h₂ with
  | start =>
      rw [List.append_nil]
      exact h₁
  | op _ ih => exact ih.op
  | await answer _ ih =>
      rw [← List.append_assoc]
      exact ih.await answer

/-- What follows a finished part is reached when the part is. -/
theorem Runs.reaches_bind {p : Coroutine E α} {f : α → Coroutine E β} {value : α}
    (h : p.Runs M s trace value s') : (p >>= f).Reaches M s trace (f value) s' := by
  induction p generalizing s trace with
  | done v =>
      obtain ⟨rfl, rfl, rfl⟩ := h
      exact .start
  | op o next ih =>
      have hfirst : (op o next >>= f).Reaches M s [] (next (M.exec o s).1 >>= f) (M.exec o s).2 :=
        .op .start
      exact hfirst.trans (ih _ h)
  | await call next ih =>
      obtain ⟨answer, rest, rfl, hrest⟩ := h
      have hfirst : (await call next >>= f).Reaches M s [⟨call, answer⟩] (next answer >>= f)
          (M.complete call answer (M.issue call s)) :=
        .await answer .start
      exact hfirst.trans (ih answer hrest)

/-- A run on its way is still in the first part, or the first part has returned. -/
theorem Reaches.of_bind {p : Coroutine E α} {f : α → Coroutine E β} {q : Coroutine E β}
    (h : (p >>= f).Reaches M s trace q s') :
    (∃ p', p.Reaches M s trace p' s' ∧ q = p' >>= f) ∨
      ∃ first value s₁ second, trace = first ++ second ∧ p.Runs M s first value s₁ ∧
        (f value).Reaches M s₁ second q s' := by
  induction h with
  | start => exact .inl ⟨p, .start, rfl⟩
  | @op trace o next s' _ ih =>
      rcases ih with ⟨p', hp, heq⟩ | ⟨first, value, s₁, second, htrace, hruns, hf⟩
      · cases p' with
        | done value =>
            have hvalue : (f value).Reaches M s' [] (Coroutine.op o next) s' := heq ▸ .start
            exact .inr ⟨trace, value, s', [], by simp, hp.runs, hvalue.op⟩
        | op o' next' =>
            obtain ⟨rfl, hnext⟩ := Coroutine.op.inj heq
            obtain rfl := eq_of_heq hnext
            exact .inl ⟨_, hp.op, rfl⟩
        | await => exact nomatch heq
      · exact .inr ⟨first, value, s₁, second, htrace, hruns, hf.op⟩
  | @await trace call next s' answer _ ih =>
      rcases ih with ⟨p', hp, heq⟩ | ⟨first, value, s₁, second, htrace, hruns, hf⟩
      · cases p' with
        | done value =>
            have hvalue : (f value).Reaches M s' [] (Coroutine.await call next) s' := heq ▸ .start
            exact .inr ⟨trace, value, s', _, rfl, hp.runs, hvalue.await answer⟩
        | op => exact nomatch heq
        | await call' next' =>
            obtain ⟨rfl, hnext⟩ := Coroutine.await.inj heq
            obtain rfl := eq_of_heq hnext
            exact .inl ⟨_, hp.await answer, rfl⟩
      · exact .inr ⟨first, value, s₁, _, by rw [htrace, List.append_assoc], hruns,
          hf.await answer⟩

/-- An operation that is reached is one of the first part's, or the first part has returned. -/
theorem Reaches.of_bind_op {p : Coroutine E α} {f : α → Coroutine E β} {o : E.Op}
    {next : E.Res o → Coroutine E β} (h : (p >>= f).Reaches M s trace (Coroutine.op o next) s') :
    (∃ next', p.Reaches M s trace (Coroutine.op o next') s') ∨
      ∃ first value s₁ second, trace = first ++ second ∧ p.Runs M s first value s₁ ∧
        (f value).Reaches M s₁ second (Coroutine.op o next) s' := by
  rcases h.of_bind with ⟨p', hp, heq⟩ | hreturned
  · cases p' with
    | done value =>
        have hvalue : (f value).Reaches M s' [] (Coroutine.op o next) s' := heq ▸ .start
        exact .inr ⟨trace, value, s', [], by simp, hp.runs, hvalue⟩
    | op o' next' =>
        obtain ⟨rfl, -⟩ := Coroutine.op.inj heq
        exact .inl ⟨next', hp⟩
    | await => exact nomatch heq
  · exact .inr hreturned

/-- A run that starts with a run of the first part goes on with the second. -/
theorem Runs.of_bind {p : Coroutine E α} {f : α → Coroutine E β} {mid : α} {value : β}
    {second : List (Exchange E)} (hp : p.Runs M s first mid s₁)
    (h : (p >>= f).Runs M s (first ++ second) value s') : (f mid).Runs M s₁ second value s' := by
  induction p generalizing s first with
  | done v =>
      obtain ⟨rfl, rfl, rfl⟩ := hp
      exact h
  | op o next ih => exact ih _ hp h
  | await call next ih =>
      obtain ⟨answer, rest, rfl, hrest⟩ := hp
      obtain ⟨answer', rest', htrace, h⟩ := h
      -- the trace tells which answer the first part got
      rw [List.cons_append] at htrace
      obtain ⟨hexchange, rfl⟩ := List.cons.inj htrace
      cases hexchange
      exact ih answer hrest h

/-! ## Cut coroutines -/

variable (refused : E.Op → Prop) [DecidablePred refused]

/-- The coroutine up to its first refused operation, where it returns `none`. -/
def abortAt : Coroutine E α → Coroutine E (Option α)
  | done value => done (some value)
  | op o next => if refused o then done none else op o fun r => (next r).abortAt
  | await call next => await call fun a => (next a).abortAt

variable {refused} {p : Coroutine E α}

theorem Runs.of_abortAt {value : α} (h : (p.abortAt refused).Runs M s trace (some value) s') :
    p.Runs M s trace value s' := by
  induction p generalizing s trace with
  | done v =>
      obtain ⟨rfl, hvalue, rfl⟩ := h
      exact ⟨rfl, Option.some.inj hvalue, rfl⟩
  | op o next ih =>
      rw [abortAt] at h
      split at h
      · exact absurd h.2.1 (by simp)
      · exact ih _ h
  | await call next ih =>
      obtain ⟨answer, rest, rfl, hrest⟩ := h
      exact ⟨answer, rest, rfl, ih answer hrest⟩

/-- A cut coroutine without a value stands before a refused operation. -/
theorem exists_refused_of_runs_abortAt (h : (p.abortAt refused).Runs M s trace none s') :
    ∃ o next, p.Reaches M s trace (op o next) s' ∧ refused o := by
  induction p generalizing s trace with
  | done v => exact absurd h.2.1 (by simp)
  | op o next ih =>
      rw [abortAt] at h
      split at h
      -- here the coroutine is cut
      next hrefused =>
        obtain ⟨rfl, -, rfl⟩ := h
        exact ⟨o, next, .start, hrefused⟩
      next =>
        obtain ⟨o', next', hreaches, hrefused⟩ := ih _ h
        have hfirst : (op o next).Reaches M s [] (next (M.exec o s).1) (M.exec o s).2 := .op .start
        exact ⟨o', next', hfirst.trans hreaches, hrefused⟩
  | await call next ih =>
      obtain ⟨answer, rest, rfl, hrest⟩ := h
      obtain ⟨o', next', hreaches, hrefused⟩ := ih answer hrest
      have hfirst : (await call next).Reaches M s [⟨call, answer⟩] (next answer)
          (M.complete call answer (M.issue call s)) :=
        .await answer .start
      exact ⟨o', next', hfirst.trans hreaches, hrefused⟩

/-- Where a coroutine gets to along a run of the cut one, the cut one does. -/
theorem Reaches.abortAt {q : Coroutine E α} {value : α} (hreaches : p.Reaches M s first q s₁)
    (hfirst : first <+: trace) (h : (p.abortAt refused).Runs M s trace (some value) s') :
    ∃ rest, trace = first ++ rest ∧ (q.abortAt refused).Runs M s₁ rest (some value) s' := by
  induction hreaches with
  | start => exact ⟨trace, rfl, h⟩
  | op _ ih =>
      obtain ⟨rest, htrace, hrest⟩ := ih hfirst
      rw [Coroutine.abortAt] at hrest
      split at hrest
      · exact absurd hrest.2.1 (by simp)
      · exact ⟨rest, htrace, hrest⟩
  | @await before call next s₂ answer _ ih =>
      obtain ⟨rest, htrace, answer', rest', rfl, hrest⟩ :=
        ih ((List.prefix_append _ _).trans hfirst)
      subst htrace
      -- both runs got the answer that the trace names
      obtain ⟨tail, htail⟩ := hfirst
      rw [List.append_assoc, List.append_cancel_left_eq, List.singleton_append] at htail
      obtain ⟨hexchange, rfl⟩ := List.cons.inj htail
      cases hexchange
      exact ⟨tail, by simp, hrest⟩

theorem not_refused_of_runs_abortAt {value : α} {o : E.Op} {next : E.Res o → Coroutine E α}
    (h : (p.abortAt refused).Runs M s trace (some value) s')
    (hreaches : p.Reaches M s first (op o next) s₁) (hfirst : first <+: trace) : ¬refused o := by
  intro hrefused
  obtain ⟨rest, -, hrest⟩ := hreaches.abortAt hfirst h
  rw [abortAt, if_pos hrefused] at hrest
  exact absurd hrest.2.1 (by simp)

/-! ## What a cut coroutine does -/

variable {permits : E.Op → Prop} {permitsCall : E.Call → Prop}

theorem Uses.abortAt (h : p.Uses permits permitsCall) :
    (p.abortAt refused).Uses (fun o => permits o ∧ ¬refused o) permitsCall := by
  induction p with
  | done v => trivial
  | op o next ih =>
      rw [Coroutine.abortAt]
      split
      · trivial
      · next hallowed => exact ⟨⟨h.1, hallowed⟩, fun r => ih r (h.2 r)⟩
  | await call next ih => exact ⟨h.1, fun a => ih a (h.2 a)⟩

theorem uses_true (p : Coroutine E α) : p.Uses (fun _ => True) fun _ => True := by
  induction p with
  | done v => trivial
  | op o next ih => exact ⟨trivial, ih⟩
  | await call next ih => exact ⟨trivial, ih⟩

/-- **Run lemma.**  What every permitted step keeps, a run keeps. -/
theorem Runs.keeps (Inv : σ → Prop) {value : α} (h : p.Runs M s trace value s')
    (huses : p.Uses permits permitsCall)
    (hop : ∀ o s, permits o → Inv s → Inv (M.exec o s).2)
    (hcall : ∀ call answer s, permitsCall call → Inv s →
      Inv (M.complete call answer (M.issue call s)))
    (hstart : Inv s) : Inv s' := by
  induction p generalizing s trace with
  | done v =>
      obtain ⟨-, -, rfl⟩ := h
      exact hstart
  | op o next ih => exact ih _ h (huses.2 _) (hop _ _ huses.1 hstart)
  | await call next ih =>
      obtain ⟨answer, rest, -, hrest⟩ := h
      exact ih answer hrest (huses.2 answer) (hcall _ _ _ huses.1 hstart)

end Coroutine

end Cooperative
