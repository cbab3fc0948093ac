import MomBot.Cooperative.Embedding

/-!
# Raising programs under a protocol

`Coroutine.Follows` goes through a program one constructor at a time.  A program that may raise is
checked stage by stage instead: its postcondition is about what a stage came to, a value or an
exception, and there is one rule for each way to put stages together.  `Follows.embed` is for a
program that is called from one with more effects, where the smaller protocol is part of the larger.
-/

namespace Cooperative.Coroutine

variable {E F : Effects} {X Y T ε α β : Type} {P : Protocol E X T} {x : X} {t : T}

section Raising

variable {post : Except ε α → T → Prop} {post' : Except ε β → T → Prop}
  {p : ExceptT ε (Coroutine E) α}

theorem follows_pure {value : α} (h : post (.ok value) t) :
    (pure value : ExceptT ε (Coroutine E) α).run.Follows P x post t := h

theorem follows_throw {exc : ε} (h : post (.error exc) t) :
    (throw exc : ExceptT ε (Coroutine E) α).run.Follows P x post t := h

/-- One stage after another; what the first one raises gets out. -/
theorem Follows.bind_raising {f : α → ExceptT ε (Coroutine E) β} (hp : p.run.Follows P x post t)
    (hf : ∀ value t', post (.ok value) t' → (f value).run.Follows P x post' t')
    (hraised : ∀ exc t', post (.error exc) t' → post' (.error exc) t') :
    (p >>= f).run.Follows P x post' t := by
  show (p.run >>= ExceptT.bindCont f).Follows P x post' t
  refine hp.bind fun outcome t' houtcome => ?_
  cases outcome with
  | ok value => exact hf value t' houtcome
  | error exc => exact hraised exc t' houtcome

/-- A handler for some exceptions; the others get out. -/
theorem Follows.catching {catches : ε → Bool} {handle : ε → ExceptT ε (Coroutine E) α}
    {after : Except ε α → T → Prop} (hp : p.run.Follows P x post t)
    (hok : ∀ value t', post (.ok value) t' → after (.ok value) t')
    (hhandle : ∀ exc t', post (.error exc) t' → (handle exc).run.Follows P x after t')
    (hraised : ∀ exc t', post (.error exc) t' → after (.error exc) t') :
    (Coroutine.catching catches p handle).run.Follows P x after t := by
  refine hp.bind fun outcome t' houtcome => ?_
  cases outcome with
  | ok value => exact hok value t' houtcome
  | error exc =>
      show (if catches exc then handle exc else throw exc :
        ExceptT ε (Coroutine E) α).run.Follows P x after t'
      split
      next => exact hhandle exc t' houtcome
      next => exact follows_throw (hraised exc t' houtcome)

end Raising

/-! ## Embedded programs -/

/-- What is in order under a protocol for the smaller effects is in order under one that treats
their questions alike. -/
theorem Follows.embed {φ : Embedding E F} {Q : Protocol F Y T} {y : Y} {post : α → T → Prop}
    {p : Coroutine E α} (hp : p.Follows P x post t)
    (hop : ∀ t o, P.opOk x t o → Q.opOk y t (φ.op o))
    (hgives : ∀ t o r, Q.gives t (φ.op o) r → P.gives t o (φ.res o r))
    (hafterOp : ∀ t o r, Q.afterOp t (φ.op o) r = P.afterOp t o (φ.res o r))
    (hcall : ∀ t call, P.callOk x t call → Q.callOk y t (φ.call call))
    (hafterCall : ∀ t call a, Q.afterCall t (φ.call call) a = P.afterCall t call (φ.ans call a)) :
    (p.embed φ).Follows Q y post t := by
  induction p generalizing t with
  | done v => exact hp
  | op o next ih =>
      refine ⟨hop t o hp.1, fun r hr => ?_⟩
      rw [hafterOp]
      exact ih (φ.res o r) (hp.2 _ (hgives t o r hr))
  | await call next ih =>
      refine ⟨hcall t call hp.1, fun a => ?_⟩
      rw [hafterCall]
      exact ih (φ.ans call a) (hp.2 _)

end Cooperative.Coroutine
