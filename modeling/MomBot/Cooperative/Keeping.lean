import MomBot.Cooperative.Watch

/-!
# What a run keeps besides its protocol

`Protocol.Sound` is about the modes and the shared state.  Two kinds of facts need more:
those that also speak of the tasks, and those about what happened since some point of the
run.  Both are predicates `J` on the modes and the configuration that every event keeps,
where `Protocol.Moves` says how an event moves the modes.

The most common such fact is that a part of the mode, its tag, tells what the task was
started with.
-/

set_option linter.unusedSectionVars false

namespace Cooperative

variable {E : Effects} {σ ι X α T : Type} [DecidableEq ι]

namespace Protocol

/-- Every allowed event of a governed configuration keeps `J`. -/
def Keeps (P : Protocol E X T) (post : α → T → Prop) (G : (ι → T) → σ → Prop)
    (C : Concurrent E σ X α) (allowed : Config E σ ι X α → Event E σ ι X → Prop)
    (J : (ι → T) → Config E σ ι X α → Prop) : Prop :=
  ∀ ⦃mode mode' : ι → T⦄ ⦃c c' : Config E σ ι X α⦄ ⦃event : Event E σ ι X⦄,
    P.Governs post G mode c → P.Governs post G mode' c' → allowed c event → C.Admits c event →
    C.step c event = some c' → (∀ i, P.Moves post C c event i (mode i) (mode' i)) →
    J mode c → J mode' c'

variable {P : Protocol E X T} {post : α → T → Prop} {G : (ι → T) → σ → Prop}
  {C : Concurrent E σ X α} {allowed allowed' : Config E σ ι X α → Event E σ ι X → Prop}
  {J : (ι → T) → Config E σ ι X α → Prop} {mode : ι → T} {c c' : Config E σ ι X α} {shared : σ}

/-- **Run lemma.**  A run that starts from a governed configuration leads to a governed one. -/
theorem Governs.run (h : P.Governs post G mode c) (hsound : P.Sound post G C allowed)
    (hleads : C.Leads allowed c c') : ∃ mode', P.Governs post G mode' c' := by
  induction hleads with
  | refl => exact ⟨mode, h⟩
  | step _ hevent hadmits hstep ih =>
      obtain ⟨mode₁, hgoverns⟩ := ih
      exact hgoverns.step hsound hevent hadmits hstep

/-- **Run lemma.**  What is kept holds at the end of a run that leads from where it holds. -/
theorem Governs.leads (h : P.Governs post G mode c) (hJ : J mode c)
    (hsound : P.Sound post G C allowed) (hkeeps : P.Keeps post G C allowed' J)
    (hallowed : ∀ (c : Config E σ ι X α) (event : Event E σ ι X),
      allowed' c event → allowed c event)
    (hleads : C.Leads allowed' c c') : ∃ mode', P.Governs post G mode' c' ∧ J mode' c' := by
  induction hleads with
  | refl => exact ⟨mode, h, hJ⟩
  | step _ hevent hadmits hstep ih =>
      obtain ⟨mode₁, hgoverns, hJ⟩ := ih
      obtain ⟨mode₂, hgoverns', hmoves⟩ :=
        hgoverns.step_moves hsound (hallowed _ _ hevent) hadmits hstep
      exact ⟨mode₂, hgoverns', hkeeps hgoverns hgoverns' hevent hadmits hstep hmoves hJ⟩

/-- **Run lemma.**  What is kept from the start holds in every reachable configuration. -/
theorem governed_keeping (hsound : P.Sound post G C allowed) (hkeeps : P.Keeps post G C allowed J)
    (hstart : G (fun _ : ι => P.rest) shared) (hJ : J (fun _ => P.rest) (.start shared))
    (h : C.Reachable allowed shared c) : ∃ mode, P.Governs post G mode c ∧ J mode c := by
  induction h with
  | start => exact ⟨fun _ => P.rest, ⟨fun _ => rfl, hstart⟩, hJ⟩
  | step _ hevent hadmits hstep ih =>
      obtain ⟨mode₁, hgoverns, hJ⟩ := ih
      obtain ⟨mode₂, hgoverns', hmoves⟩ := hgoverns.step_moves hsound hevent hadmits hstep
      exact ⟨mode₂, hgoverns', hkeeps hgoverns hgoverns' hevent hadmits hstep hmoves hJ⟩

theorem Keeps.and {K : (ι → T) → Config E σ ι X α → Prop} (hJ : P.Keeps post G C allowed J)
    (hK : P.Keeps post G C allowed K) :
    P.Keeps post G C allowed fun mode c => J mode c ∧ K mode c :=
  fun _ _ _ _ _ hgoverns hgoverns' hevent hadmits hstep hmoves h =>
    ⟨hJ hgoverns hgoverns' hevent hadmits hstep hmoves h.1,
      hK hgoverns hgoverns' hevent hadmits hstep hmoves h.2⟩

/-! ## Tags -/

variable {Y : Type} {tag : T → Y} {of : X → Y}

/-- The tag of a mode is set when a task starts, and stays. -/
structure Tagged (P : Protocol E X T) (tag : T → Y) (of : X → Y) : Prop where
  start : ∀ x, tag (P.start x) = of x
  afterOp : ∀ t o r, tag (P.afterOp t o r) = tag t
  atCall : ∀ t call, tag (P.atCall t call) = tag t
  afterCall : ∀ t call a, tag (P.afterCall t call a) = tag t

/-- The tags tell what the tasks under way were started with. -/
def TagsTell (tag : T → Y) (of : X → Y) (mode : ι → T) (c : Config E σ ι X α) : Prop :=
  ∀ i x, (c.task i).startedWith? = some x → tag (mode i) = of x

theorem Tagged.moves (h : P.Tagged tag of) {event : Event E σ ι X} {i : ι} {t t' : T}
    (hmoves : P.Moves post C c event i t t') (hstep : C.step c event = some c')
    (htell : ∀ x, (c.task i).startedWith? = some x → tag t = of x) :
    ∀ x, (c'.task i).startedWith? = some x → tag t' = of x := by
  intro x hx
  cases hmoves with
  | others hother =>
      rw [Concurrent.step_task_of_ne hstep hother] at hx
      exact htell x hx
  | @spawn _ y htask =>
      simp only [Concurrent.step, htask, Option.some.injEq] at hstep
      subst hstep
      obtain rfl : y = x := by
        simpa [Config.setTask, Progress.startedWith?] using hx
      exact h.start y
  | op htask =>
      simp only [Concurrent.step, htask, Option.some.injEq] at hstep
      subst hstep
      rw [h.afterOp]
      exact htell x (by simpa [Config.setTask, Progress.startedWith?, htask] using hx)
  | issue htask =>
      simp only [Concurrent.step, htask, Option.some.injEq] at hstep
      subst hstep
      rw [h.atCall]
      exact htell x (by simpa [Config.setTask, Progress.startedWith?, htask] using hx)
  | @answer _ _ call _ before _ htask =>
      simp only [Concurrent.step, htask, Option.some.injEq] at hstep
      subst hstep
      rw [h.afterCall, ← h.atCall before call]
      exact htell x (by simpa [Config.setTask, Progress.startedWith?, htask] using hx)
  | finish htask =>
      simp only [Concurrent.step, htask, Option.some.injEq] at hstep
      subst hstep
      simp [Config.setTask, Progress.startedWith?] at hx

theorem Tagged.keeps (h : P.Tagged tag of) :
    P.Keeps post G C allowed (TagsTell tag of) :=
  fun _ _ _ _ _ _ _ _ _ hstep hmoves htell i => h.moves (hmoves i) hstep (htell i)

theorem tagsTell_start :
    TagsTell tag of (fun _ => P.rest) (.start shared : Config E σ ι X α) := by
  intro i x hx
  simp [Config.start, Progress.startedWith?] at hx

end Protocol

end Cooperative
