import MomBot.Cooperative.Coroutine

/-!
# A run amid interference

`RunsAmid` is `Runs` in a world that does not stand still: before every operation
and every call, and while a call is awaited, the shared state may change as the
relation `R` allows.  A run of a composition splits, and a run alone is a run amid a
world that may also do nothing.
-/

namespace Cooperative

variable {E : Effects} {σ α β : Type} {M : Machine E σ} {R : σ → σ → Prop} {s s' : σ}
  {trace : List (Exchange E)}

namespace Coroutine

/-- `p` takes `s` to `s'` and returns `value`, while the world acts as `R` allows. -/
def RunsAmid (M : Machine E σ) (R : σ → σ → Prop) :
    Coroutine E α → σ → List (Exchange E) → α → σ → Prop
  | done v, s, trace, value, s' => trace = [] ∧ value = v ∧ s' = s
  | op o next, s, trace, value, s' =>
      ∃ s₁, R s s₁ ∧ (next (M.exec o s₁).1).RunsAmid M R (M.exec o s₁).2 trace value s'
  | await call next, s, trace, value, s' =>
      ∃ answer rest s₁ s₂, trace = ⟨call, answer⟩ :: rest ∧ R s s₁ ∧ R (M.issue call s₁) s₂ ∧
        (next answer).RunsAmid M R (M.complete call answer s₂) rest value s'

theorem RunsAmid.of_bind {p : Coroutine E α} {f : α → Coroutine E β} {value : β}
    (h : (p >>= f).RunsAmid M R s trace value s') :
    ∃ first mid s₁ second, trace = first ++ second ∧ p.RunsAmid M R s first mid s₁ ∧
      (f mid).RunsAmid M R s₁ second value s' := by
  induction p generalizing s trace with
  | done v => exact ⟨[], v, s, trace, rfl, ⟨rfl, rfl, rfl⟩, h⟩
  | op o next ih =>
      obtain ⟨s₀, hworld, h⟩ := h
      obtain ⟨first, mid, s₁, second, rfl, hp, hf⟩ := ih _ h
      exact ⟨first, mid, s₁, second, rfl, ⟨s₀, hworld, hp⟩, hf⟩
  | await call next ih =>
      obtain ⟨answer, rest, s₀, s₂, rfl, hworld, hworld', h⟩ := h
      obtain ⟨first, mid, s₁, second, rfl, hp, hf⟩ := ih answer h
      exact ⟨_ :: first, mid, s₁, second, rfl, ⟨answer, first, s₀, s₂, rfl, hworld, hworld', hp⟩,
        hf⟩

/-- A world that may also do nothing lets every run alone be a run. -/
theorem Runs.amid {p : Coroutine E α} {value : α} (h : p.Runs M s trace value s')
    (hR : ∀ s, R s s) : p.RunsAmid M R s trace value s' := by
  induction p generalizing s trace with
  | done v => exact h
  | op o next ih => exact ⟨s, hR s, ih _ h⟩
  | await call next ih =>
      obtain ⟨answer, rest, rfl, h⟩ := h
      exact ⟨answer, rest, s, M.issue call s, rfl, hR s, hR _, ih answer h⟩

end Coroutine

end Cooperative
