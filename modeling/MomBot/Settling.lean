import Mathlib.Data.List.Basic

/-!
# Loops that settle one thing at a time

A loop over tasks in which every round puts its own task in order, leaves those of the other
tasks alone, and does nothing where its task is in order already.  After such a loop every
task is in order, and a second loop does nothing.
-/

namespace Settling

variable {σ τ : Type} {round : σ → τ → σ} {apart : τ → τ → Prop} {settled : τ → σ → Prop}

/-- `apart x y` says that a round for `y` leaves `x` as it is. -/
structure Settles (round : σ → τ → σ) (apart : τ → τ → Prop) (settled : τ → σ → Prop) :
    Prop where
  settles : ∀ s x, settled x (round s x)
  keeps : ∀ s x y, apart x y → settled x s → settled x (round s y)
  idle : ∀ s x, settled x s → round s x = s

namespace Settles

variable {xs : List τ} {s : σ}

theorem foldl_keeps (h : Settles round apart settled) {x : τ} (hx : ∀ y ∈ xs, apart x y)
    (hsettled : settled x s) : settled x (xs.foldl round s) := by
  induction xs generalizing s with
  | nil => exact hsettled
  | cons y rest ih =>
      rw [List.forall_mem_cons] at hx
      exact ih hx.2 (h.keeps s x y hx.1 hsettled)

/-- Every task of the loop is in order at its end. -/
theorem foldl_settled (h : Settles round apart settled) (hxs : xs.Pairwise apart) :
    ∀ x ∈ xs, settled x (xs.foldl round s) := by
  induction hxs generalizing s with
  | nil => exact List.forall_mem_nil _
  | @cons x rest hx _ ih =>
      have hfirst : settled x (rest.foldl round (round s x)) := h.foldl_keeps hx (h.settles s x)
      rw [List.forall_mem_cons]
      exact ⟨hfirst, ih⟩

/-- Where every task is in order, the loop does nothing. -/
theorem foldl_idle (h : Settles round apart settled) (hs : ∀ x ∈ xs, settled x s) :
    xs.foldl round s = s := by
  induction xs with
  | nil => rfl
  | cons x rest ih =>
      rw [List.forall_mem_cons] at hs
      rw [List.foldl_cons, h.idle s x hs.1]
      exact ih hs.2

end Settles

end Settling
