import MomBot.Cooperative.Dialogue
import MomBot.Cooperative.Embedding

/-!
# Dialogues that are not over

A loop that runs for the lifetime of its process has no dialogue of its own, only dialogues that
have begun.  `p.Begins turns` says that `p` can have come as far as `turns`.  The rules are those of
dialogues: what has begun of a sequence is a beginning of its first part, or all of that and a
beginning of the rest.
-/

namespace Cooperative.Coroutine

variable {E F : Effects} {ε α β : Type} {turns : List (Turn E)}

/-- The turns that a program can have taken, whether or not it has returned. -/
def Begins : Coroutine E α → List (Turn E) → Prop
  | done _, turns => turns = []
  | op o next, turns =>
      turns = [] ∨ ∃ answer rest, turns = .op o answer :: rest ∧ (next answer).Begins rest
  | await call next, turns =>
      turns = [] ∨ ∃ answer rest, turns = .await call answer :: rest ∧ (next answer).Begins rest

theorem Dialogue.begins {p : Coroutine E α} {value : α} (h : p.Dialogue turns value) :
    p.Begins turns := by
  induction p generalizing turns with
  | done v => exact h.1
  | op o next ih =>
      obtain ⟨answer, rest, rfl, h⟩ := h
      exact .inr ⟨answer, rest, rfl, ih answer h⟩
  | await call next ih =>
      obtain ⟨answer, rest, rfl, h⟩ := h
      exact .inr ⟨answer, rest, rfl, ih answer h⟩

theorem begins_bind {p : Coroutine E α} {f : α → Coroutine E β} (h : (p >>= f).Begins turns) :
    p.Begins turns ∨ ∃ first mid second, turns = first ++ second ∧ p.Dialogue first mid ∧
      (f mid).Begins second := by
  induction p generalizing turns with
  | done v => exact .inr ⟨[], v, turns, rfl, ⟨rfl, rfl⟩, h⟩
  | op o next ih =>
      obtain rfl | ⟨answer, rest, rfl, h⟩ := h
      · exact .inl (.inl rfl)
      obtain hp | ⟨first, mid, second, rfl, hp, hf⟩ := ih answer h
      · exact .inl (.inr ⟨answer, rest, rfl, hp⟩)
      · exact .inr ⟨_ :: first, mid, second, rfl, ⟨answer, first, rfl, hp⟩, hf⟩
  | await call next ih =>
      obtain rfl | ⟨answer, rest, rfl, h⟩ := h
      · exact .inl (.inl rfl)
      obtain hp | ⟨first, mid, second, rfl, hp, hf⟩ := ih answer h
      · exact .inl (.inr ⟨answer, rest, rfl, hp⟩)
      · exact .inr ⟨_ :: first, mid, second, rfl, ⟨answer, first, rfl, hp⟩, hf⟩

/-! ## Programs that raise -/

/-- What comes after an exception has not begun. -/
theorem begins_bind_raising {p : ExceptT ε (Coroutine E) α} {f : α → ExceptT ε (Coroutine E) β}
    (h : (p >>= f).run.Begins turns) :
    p.run.Begins turns ∨ ∃ first v second, turns = first ++ second ∧ p.run.Dialogue first (.ok v) ∧
      (f v).run.Begins second := by
  have hbind : (p.run >>= ExceptT.bindCont f).Begins turns := h
  obtain hp | ⟨first, mid, second, rfl, hp, hf⟩ := begins_bind hbind
  · exact .inl hp
  cases mid with
  | error exc =>
      have hend : second = [] := hf
      rw [hend, List.append_nil]
      exact .inl hp.begins
  | ok v => exact .inr ⟨first, v, second, rfl, hp, hf⟩

theorem begins_tryCatch {p : ExceptT ε (Coroutine E) β} {handle : ε → ExceptT ε (Coroutine E) β}
    (h : (tryCatch p handle).run.Begins turns) :
    p.run.Begins turns ∨ ∃ first exc second, turns = first ++ second ∧
      p.run.Dialogue first (.error exc) ∧ (handle exc).run.Begins second := by
  have hcatch : (p.run >>= _).Begins turns := h
  obtain hp | ⟨first, mid, second, rfl, hp, hf⟩ := begins_bind hcatch
  · exact .inl hp
  cases mid with
  | ok v =>
      have hend : second = [] := hf
      rw [hend, List.append_nil]
      exact .inl hp.begins
  | error exc => exact .inr ⟨first, exc, second, rfl, hp, hf⟩

/-! ## What has been used -/

/-- The turn is one that a coroutine with these permissions can have. -/
def Permitted (permits : E.Op → Prop) (permitsCall : E.Call → Prop) : Turn E → Prop
  | .op o _ => permits o
  | .await call _ => permitsCall call

theorem Begins.permitted {permits : E.Op → Prop} {permitsCall : E.Call → Prop} {p : Coroutine E α}
    (h : p.Begins turns) (huses : p.Uses permits permitsCall) :
    ∀ turn ∈ turns, Permitted permits permitsCall turn := by
  induction p generalizing turns with
  | done v =>
      have hend : turns = [] := h
      rw [hend]
      exact List.forall_mem_nil _
  | op o next ih =>
      obtain rfl | ⟨answer, rest, rfl, h⟩ := h
      · exact List.forall_mem_nil _
      · exact List.forall_mem_cons.mpr ⟨huses.1, ih answer h (huses.2 answer)⟩
  | await call next ih =>
      obtain rfl | ⟨answer, rest, rfl, h⟩ := h
      · exact List.forall_mem_nil _
      · exact List.forall_mem_cons.mpr ⟨huses.1, ih answer h (huses.2 answer)⟩

end Cooperative.Coroutine
