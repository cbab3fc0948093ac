import Mathlib.Data.List.Induction

/-!
# The last entry of a kind

A state that is updated by events often holds what the last event of some kind has put there.
`IsLast p events e` says that `e` is the last of the events that `p` holds for.
-/

namespace History

variable {α : Type} {p : α → Prop} {events : List α} {e last : α}

/-- `e` is an event of the kind `p`, and none after it is. -/
def IsLast (p : α → Prop) (events : List α) (e : α) : Prop :=
  ∃ before after, events = before ++ e :: after ∧ p e ∧ ∀ other ∈ after, ¬ p other

theorem isLast_nil : ¬ IsLast p [] e := by
  intro h
  obtain ⟨before, after, hsplit, -⟩ := h
  exact absurd hsplit (by simp)

/-- An event of the kind is the last one as soon as it has happened. -/
theorem isLast_concat (he : p e) : IsLast p (events ++ [e]) last ↔ last = e := by
  constructor
  · intro h
    obtain ⟨before, after, hsplit, -, hafter⟩ := h
    -- were anything after the last one, its end would be `e`
    cases after using List.reverseRecOn with
    | nil => exact (List.cons.inj (List.append_inj' hsplit rfl).2).1.symm
    | append_singleton after other _ =>
        rw [← List.cons_append, ← List.append_assoc] at hsplit
        have hother : e = other := (List.cons.inj (List.append_inj' hsplit rfl).2).1
        exact absurd (hother ▸ he) (hafter other (by simp))
  · intro h
    subst h
    exact ⟨events, [], rfl, he, List.forall_mem_nil _⟩

/-- Any other event leaves the last one what it is. -/
theorem isLast_concat_of_not (he : ¬ p e) :
    IsLast p (events ++ [e]) last ↔ IsLast p events last := by
  constructor
  · intro h
    obtain ⟨before, after, hsplit, hlast, hafter⟩ := h
    cases after using List.reverseRecOn with
    | nil =>
        have heq : e = last := (List.cons.inj (List.append_inj' hsplit rfl).2).1
        exact absurd (heq ▸ hlast) he
    | append_singleton after other _ =>
        rw [← List.cons_append, ← List.append_assoc] at hsplit
        refine ⟨before, after, (List.append_inj' hsplit rfl).1, hlast, fun x hx => ?_⟩
        exact hafter x (List.mem_append_left _ hx)
  · intro h
    obtain ⟨before, after, rfl, hlast, hafter⟩ := h
    refine ⟨before, after ++ [e], by simp, hlast, fun x hx => ?_⟩
    rcases List.mem_append.mp hx with hold | hnew
    · exact hafter x hold
    · rwa [List.mem_singleton.mp hnew]

theorem IsLast.mem (h : IsLast p events e) : e ∈ events ∧ p e := by
  obtain ⟨before, after, rfl, he, -⟩ := h
  exact ⟨by simp, he⟩

/-- What happened before does not matter. -/
theorem IsLast.append (h : IsLast p events e) (earlier : List α) :
    IsLast p (earlier ++ events) e := by
  obtain ⟨before, after, rfl, he, hafter⟩ := h
  exact ⟨earlier ++ before, after, by simp, he, hafter⟩

theorem exists_isLast (h : ∃ e ∈ events, p e) : ∃ last, IsLast p events last := by
  obtain ⟨e, he, hpe⟩ := h
  induction events using List.reverseRecOn with
  | nil => exact absurd he List.not_mem_nil
  | append_singleton events newest ih =>
      by_cases hnewest : p newest
      · exact ⟨newest, (isLast_concat hnewest).mpr rfl⟩
      · have hne : e ≠ newest := fun heq => hnewest (heq ▸ hpe)
        have hold : e ∈ events := by simpa [hne] using he
        obtain ⟨last, hlast⟩ := ih hold
        exact ⟨last, (isLast_concat_of_not hnewest).mpr hlast⟩

end History
