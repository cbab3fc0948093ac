import MomBot.Cooperative.Interleave
import MomBot.Cooperative.Handlers

/-!
# Programs of fewer effects

A program is often written over effects of its own, and then called from one that has more.  An
`Embedding` says which question of the larger effects stands for one of the smaller, and `embed`
rewrites the program.  What is known of the program carries over: the rule for `bind`, its dialogues
(`dialogue_embed`), and what it uses, which is enough to check it against a protocol
(`Follows.of_uses`).
-/

namespace Cooperative

/-- How questions of `E` are asked in `F`. -/
structure Embedding (E F : Effects) where
  op : E.Op → F.Op
  res : (o : E.Op) → F.Res (op o) → E.Res o
  call : E.Call → F.Call
  ans : (call' : E.Call) → F.Ans (call call') → E.Ans call'

variable {E F : Effects} {α β ε : Type}

namespace Coroutine

variable (φ : Embedding E F)

/-- A program asks its questions as `φ` renames them. -/
def embed : Coroutine E α → Coroutine F α
  | done v => done v
  | op o next => op (φ.op o) fun r => (next (φ.res o r)).embed
  | await call next => await (φ.call call) fun a => (next (φ.ans call a)).embed

@[simp] theorem embed_done (v : α) : (done v : Coroutine E α).embed φ = done v := rfl

@[simp] theorem embed_op (o : E.Op) (next : E.Res o → Coroutine E α) :
    (op o next).embed φ = op (φ.op o) fun r => (next (φ.res o r)).embed φ := rfl

@[simp] theorem embed_await (call : E.Call) (next : E.Ans call → Coroutine E α) :
    (await call next).embed φ = await (φ.call call) fun a => (next (φ.ans call a)).embed φ := rfl

end Coroutine

/-! ## Dialogues -/

namespace Embedding

variable (φ : Embedding E F)

/-- The second turn is the first one, asked in `F`. -/
inductive Same : Turn E → Turn F → Prop
  | op (o : E.Op) (answer : F.Res (φ.op o)) : Same (.op o (φ.res o answer)) (.op (φ.op o) answer)
  | await (call : E.Call) (answer : F.Ans (φ.call call)) :
      Same (.await call (φ.ans call answer)) (.await (φ.call call) answer)

end Embedding

namespace Coroutine

variable {φ : Embedding E F}

/-- An embedded program has the dialogues of the program. -/
theorem dialogue_embed {p : Coroutine E α} {turns' : List (Turn F)} {value : α}
    (h : (p.embed φ).Dialogue turns' value) :
    ∃ turns, List.Forall₂ φ.Same turns turns' ∧ p.Dialogue turns value := by
  induction p generalizing turns' with
  | done v =>
      obtain ⟨rfl, rfl⟩ := h
      exact ⟨[], .nil, rfl, rfl⟩
  | op o next ih =>
      obtain ⟨answer, rest', rfl, hrest⟩ := h
      obtain ⟨rest, hsame, hdialogue⟩ := ih (φ.res o answer) hrest
      exact ⟨_, .cons (.op o answer) hsame, _, rest, rfl, hdialogue⟩
  | await call next ih =>
      obtain ⟨answer, rest', rfl, hrest⟩ := h
      obtain ⟨rest, hsame, hdialogue⟩ := ih (φ.ans call answer) hrest
      exact ⟨_, .cons (.await call answer) hsame, _, rest, rfl, hdialogue⟩

/-! ## Protocols -/

/-- A program that uses what is permitted in every mode of `T₀`, and does not leave these modes, is
in order from any of them. -/
theorem Follows.of_uses {X T : Type} {P : Protocol E X T} {x : X} {post : α → T → Prop}
    (T₀ : T → Prop) {permits : E.Op → Prop} {permitsCall : E.Call → Prop} {p : Coroutine E α}
    {t : T} (hp : p.Uses permits permitsCall) (ht : T₀ t)
    (hop : ∀ t o, T₀ t → permits o → P.opOk x t o ∧ ∀ r, T₀ (P.afterOp t o r))
    (hcall : ∀ t call, T₀ t → permitsCall call →
      P.callOk x t call ∧ ∀ a, T₀ (P.afterCall t call a))
    (hpost : ∀ value t, T₀ t → post value t) : p.Follows P x post t := by
  induction p generalizing t with
  | done v => exact hpost v t ht
  | op o next ih =>
      obtain ⟨hok, hafter⟩ := hop t o ht hp.1
      exact ⟨hok, fun r _ => ih r (hp.2 r) (hafter r)⟩
  | await call next ih =>
      obtain ⟨hok, hafter⟩ := hcall t call ht hp.1
      exact ⟨hok, fun a => ih a (hp.2 a) (hafter a)⟩

/-- What an embedded program uses is the image of what the program uses. -/
theorem Uses.embed {permits : E.Op → Prop} {permitsCall : E.Call → Prop} {p : Coroutine E α}
    (hp : p.Uses permits permitsCall) :
    (p.embed φ).Uses (fun o => ∃ o', permits o' ∧ φ.op o' = o)
      fun call => ∃ call', permitsCall call' ∧ φ.call call' = call := by
  induction p with
  | done v => trivial
  | op o next ih => exact ⟨⟨o, hp.1, rfl⟩, fun r => ih (φ.res o r) (hp.2 _)⟩
  | await call next ih => exact ⟨⟨call, hp.1, rfl⟩, fun a => ih (φ.ans call a) (hp.2 _)⟩

end Coroutine

end Cooperative
