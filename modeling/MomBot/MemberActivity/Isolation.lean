import MomBot.MemberActivity.Fallible

/-!
# What one failed member does to the rest of a sweep

The loop wants every stale member to be isolated from the others.  Each call of
`_process_member` has a handler, but not each for the same exceptions: `send`, `kick` and the
database may raise anything, while around `fetch_member` only `discord.HTTPException` is
caught.  `processMember_cases` goes through all the ways a member can end; it is the only
place where the handlers are unfolded.

What a member, a sweep and the loop are supposed to look like from outside is said by
`Handled`, `Swept` and `Ticks`, in terms of what was asked and answered.  The whole loop
keeps to it exactly as long as no `fetch_member` raises anything else
(`runLoop_isolates_iff`).
-/

namespace MomBot.MemberActivity.Fallible

open Cooperative Coroutine Python

/-- A turn of the loop. -/
abbrev TickTurn := Turn tickEffects

/-! ## What is raised -/

/-- What an answer of an operation raises. -/
def TickOp.raised : (o : TickOp) → o.Res → Option Raised
  | .isReady, _ | .utcNow, _ | .getMember _, _ => none
  | .listStale _, answer => exceptionOf answer
  | .getTracking _ _, answer => exceptionOf answer
  | .removeTracking _ _, answer => exceptionOf answer

/-- What an answer of a call raises. -/
def TickCall.raised : (call : TickCall) → call.Ans → Option Raised
  | .discord _, answer => exceptionOf answer
  | .sleep, .elapsed => none
  | .sleep, .cancelled => some .cancelled

instance : Raises tickEffects := ⟨TickOp.raised, TickCall.raised⟩

/-- A `fetch_member` raised what is no `discord.HTTPException`. -/
def Unguarded : TickTurn → Prop
  | .await (.discord (.fetchMember _)) answer =>
      ∃ exc ∈ exceptionOf answer, exc.isHttpException = false
  | _ => False

/-! ## A member, from outside -/

section Turns

variable (activity : Activity)

/-- The member was or was not in the cache. -/
abbrev lookedUp (found : Bool) : TickTurn := .op (.getMember activity.memberId) found

/-- What `fetch_member` was answered. -/
abbrev fetched (outcome : Outcome) : TickTurn :=
  .await (.discord (.fetchMember activity.memberId)) outcome

/-- What the DM was answered. -/
abbrev sent (outcome : Outcome) : TickTurn :=
  .await (.discord (.send activity.memberId dmMessage)) outcome

/-- What the second look into the table found. -/
abbrev reread (answer : Except Raised (Option Activity)) : TickTurn :=
  .op (.getTracking activity.guildId activity.memberId) answer

/-- What the kick was answered. -/
abbrev kicked (outcome : Outcome) : TickTurn :=
  .await (.discord (.kick activity.memberId kickReason)) outcome

/-- What the removal of the row was answered. -/
abbrev removed (answer : Except Raised Unit) : TickTurn :=
  .op (.removeTracking activity.guildId activity.memberId) answer

end Turns

/-- A member who was found is written to, and kicked unless the row has changed.  Whatever
fails, the row is removed at the end. -/
inductive Contacted (activity : Activity) : List TickTurn → Prop
  | unread (dm : Outcome) (exc : Raised) (cleanup : Except Raised Unit) :
      Contacted activity [sent activity dm, reread activity (.error exc), removed activity cleanup]
  | changed (dm : Outcome) {current : Option Activity} : stateChanged activity current = true →
      Contacted activity [sent activity dm, reread activity (.ok current)]
  | kick (dm : Outcome) {current : Option Activity} (outcome : Outcome)
      (cleanup : Except Raised Unit) : stateChanged activity current = false →
      Contacted activity [sent activity dm, reread activity (.ok current),
        kicked activity outcome, removed activity cleanup]

/-- A member who has left is removed, one whom Discord does not show is kept for the next
sweep, and one who was found is contacted. -/
inductive Handled (activity : Activity) : List TickTurn → Prop
  | left (cleanup : Except Raised Unit) :
      Handled activity [lookedUp activity false, fetched activity (.error .notFound),
        removed activity cleanup]
  | unavailable {exc : Raised} : exc ≠ .notFound → exc.isHttpException = true →
      Handled activity [lookedUp activity false, fetched activity (.error exc)]
  | cached {turns : List TickTurn} : Contacted activity turns →
      Handled activity (lookedUp activity true :: turns)
  | resolved {turns : List TickTurn} : Contacted activity turns →
      Handled activity (lookedUp activity false :: fetched activity (.ok ()) :: turns)

/-- Every listed member is handled once, in the order of the list. -/
inductive Swept : List Activity → List TickTurn → Prop
  | nil : Swept [] []
  | cons {activity : Activity} {rest : List Activity} {first second : List TickTurn} :
      Handled activity first → Swept rest second → Swept (activity :: rest) (first ++ second)

/-- A tick skips its sweep when the gateway is away or the query fails. -/
inductive SweepDone : List TickTurn → Prop
  | disconnected : SweepDone [.op .isReady false]
  | unlisted (now : ℤ) (exc : Raised) :
      SweepDone [.op .isReady true, .op .utcNow now, .op (.listStale now) (.error exc)]
  | swept (now : ℤ) {stale : List Activity} {turns : List TickTurn} : Swept stale turns →
      SweepDone (.op .isReady true :: .op .utcNow now :: .op (.listStale now) (.ok stale) :: turns)

/-- So many ticks came to their end, each with its sleep. -/
inductive Ticks : ℕ → List TickTurn → Prop
  | zero : Ticks 0 []
  | succ {ticks : ℕ} {body rest : List TickTurn} : SweepDone body → Ticks ticks rest →
      Ticks (ticks + 1) (body ++ .await .sleep .elapsed :: rest)

/-! ## The dialogues of the primitives -/

section Dialogues

variable {α β : Type} {turns : List TickTurn}

/-! The next three cannot raise. -/

theorem dialogue_isReady {f : Bool → TickM α} {result : Except Raised α} :
    (isReady >>= f).run.Dialogue turns result ↔
      ∃ (ready : Bool) (rest : List TickTurn), turns = .op .isReady ready :: rest ∧
        (f ready).run.Dialogue rest result :=
  Iff.rfl

theorem dialogue_utcNow {f : ℤ → TickM α} {result : Except Raised α} :
    (utcNow >>= f).run.Dialogue turns result ↔
      ∃ (now : ℤ) (rest : List TickTurn), turns = .op .utcNow now :: rest ∧
        (f now).run.Dialogue rest result :=
  Iff.rfl

theorem dialogue_getMember {memberId : ℤ} {f : Bool → TickM α} {result : Except Raised α} :
    (getMember memberId >>= f).run.Dialogue turns result ↔
      ∃ (found : Bool) (rest : List TickTurn), turns = .op (.getMember memberId) found :: rest ∧
        (f found).run.Dialogue rest result :=
  Iff.rfl

/-- A body that does not make up a cancellation. -/
def Honest (body : TickM α) : Prop :=
  ∀ turns, Uncancelled turns → ¬ body.run.Dialogue turns (.error .cancelled)

/-- Without a cancellation, `except Exception` catches everything. -/
theorem dialogue_isException {body : TickM α} {handle : Raised → TickM α}
    {result : Except Raised α}
    (h : (catching Raised.isException body handle).run.Dialogue turns result)
    (hturns : Uncancelled turns) (hbody : Honest body) :
    (∃ value, body.run.Dialogue turns (.ok value) ∧ result = .ok value) ∨
      ∃ first exc second, turns = first ++ second ∧ exc ≠ .cancelled ∧
        body.run.Dialogue first (.error exc) ∧ (handle exc).run.Dialogue second result := by
  obtain hok | ⟨first, exc, second, rfl, herror, hhandle⟩ := dialogue_tryCatch.mp h
  · exact .inl hok
  · have hexc : exc ≠ .cancelled := by
      rintro rfl
      exact hbody first (uncancelled_append.mp hturns).1 herror
    rw [if_pos (Raised.isException_iff.mpr hexc)] at hhandle
    exact .inr ⟨first, exc, second, rfl, hexc, herror, hhandle⟩

/-- The same for a body that goes on from the one call that may raise. -/
theorem dialogue_isException_map {body : TickM α} {g : α → β} {handle : Raised → TickM β}
    {result : Except Raised β}
    (h : (catching Raised.isException
      (body >>= fun value => pure (g value)) handle).run.Dialogue turns result)
    (hturns : Uncancelled turns) (hbody : Honest body) :
    (∃ value, body.run.Dialogue turns (.ok value) ∧ result = .ok (g value)) ∨
      ∃ first exc second, turns = first ++ second ∧ body.run.Dialogue first (.error exc) ∧
        (handle exc).run.Dialogue second result := by
  have hhonest : Honest (body >>= fun value => pure (g value)) :=
    fun turns hturns herror => hbody turns hturns (dialogue_map_error.mp herror)
  obtain ⟨_, hok, rfl⟩ | ⟨first, exc, second, rfl, -, herror, hhandle⟩ :=
    dialogue_isException h hturns hhonest
  · obtain ⟨value, hvalue, rfl⟩ := dialogue_map_ok.mp hok
    exact .inl ⟨value, hvalue, rfl⟩
  · exact .inr ⟨first, exc, second, rfl, dialogue_map_error.mp herror, hhandle⟩

theorem dialogue_discord {call : ActivityCall} {outcome : Outcome} :
    (discord call).run.Dialogue turns outcome ↔ turns = [.await (.discord call) outcome] :=
  dialogue_request

theorem dialogue_listStale {now : ℤ} {answer : Except Raised (List Activity)} :
    (listStale now).run.Dialogue turns answer ↔ turns = [.op (.listStale now) answer] :=
  dialogue_perform

theorem dialogue_getTracking {guildId memberId : ℤ} {answer : Except Raised (Option Activity)} :
    (getTracking guildId memberId).run.Dialogue turns answer ↔
      turns = [.op (.getTracking guildId memberId) answer] :=
  dialogue_perform

theorem dialogue_removeTracking {guildId memberId : ℤ} {answer : Except Raised Unit} :
    (removeTracking guildId memberId).run.Dialogue turns answer ↔
      turns = [.op (.removeTracking guildId memberId) answer] :=
  dialogue_perform

theorem discord_honest (call : ActivityCall) : Honest (discord call) := by
  intro turns hturns h
  obtain rfl := dialogue_discord.mp h
  exact hturns _ List.mem_cons_self rfl

theorem listStale_honest (now : ℤ) : Honest (listStale now) := by
  intro turns hturns h
  obtain rfl := dialogue_listStale.mp h
  exact hturns _ List.mem_cons_self rfl

theorem removeTracking_honest (guildId memberId : ℤ) :
    Honest (removeTracking guildId memberId) := by
  intro turns hturns h
  obtain rfl := dialogue_removeTracking.mp h
  exact hturns _ List.mem_cons_self rfl

end Dialogues

/-! ## One member -/

section Member

variable {activity : Activity} {turns : List TickTurn}

theorem safeRemoveTracking_cases {result : Except Raised Unit}
    (h : (safeRemoveTracking activity.guildId activity.memberId).run.Dialogue turns result)
    (hturns : Uncancelled turns) :
    result = .ok () ∧ ∃ cleanup, turns = [removed activity cleanup] := by
  obtain ⟨_, hremove, rfl⟩ | ⟨first, exc, second, rfl, -, hremove, hpass⟩ :=
    dialogue_isException h hturns (removeTracking_honest _ _)
  · exact ⟨rfl, _, dialogue_removeTracking.mp hremove⟩
  · obtain ⟨rfl, rfl⟩ := dialogue_pure_raising.mp hpass
    obtain rfl := dialogue_removeTracking.mp hremove
    exact ⟨rfl, .error exc, rfl⟩

/-- Whatever becomes of the DM, the body goes on. -/
theorem sendDm_cases {result : Except Raised Unit}
    (h : (catching Raised.isException (discord (.send activity.memberId dmMessage))
      fun _ => return ()).run.Dialogue turns result)
    (hturns : Uncancelled turns) : result = .ok () ∧ ∃ dm, turns = [sent activity dm] := by
  obtain ⟨_, hsend, rfl⟩ | ⟨first, exc, second, rfl, -, hsend, hpass⟩ :=
    dialogue_isException h hturns (discord_honest _)
  · exact ⟨rfl, _, dialogue_discord.mp hsend⟩
  · obtain ⟨rfl, rfl⟩ := dialogue_pure_raising.mp hpass
    obtain rfl := dialogue_discord.mp hsend
    exact ⟨rfl, .error exc, rfl⟩

/-- The body contacts the member, or it raises and only the removal is missing. -/
theorem notifyAndKick_cases {result : Except Raised Unit}
    (h : (notifyAndKick activity).run.Dialogue turns result) (hturns : Uncancelled turns) :
    (result = .ok () ∧ Contacted activity turns) ∨
      ∃ exc, result = .error exc ∧ exc ≠ .cancelled ∧
        ∀ cleanup, Contacted activity (turns ++ [removed activity cleanup]) := by
  obtain ⟨exc, hsend, rfl⟩ | ⟨_, _, rest, rfl, hsend, hrest⟩ := dialogue_bind_raising.mp h
  · exact absurd (sendDm_cases hsend hturns).1 (by simp)
  rw [uncancelled_append] at hturns
  obtain ⟨-, dm, rfl⟩ := sendDm_cases hsend hturns.1
  obtain ⟨exc, hget, rfl⟩ | ⟨_, current, rest, rfl, hget, hdecide⟩ := dialogue_bind_raising.mp hrest
  · obtain rfl := dialogue_getTracking.mp hget
    refine .inr ⟨exc, rfl, ?_, fun cleanup => .unread dm exc cleanup⟩
    rintro rfl
    exact hturns.2 _ List.mem_cons_self rfl
  obtain rfl := dialogue_getTracking.mp hget
  rw [uncancelled_append] at hturns
  split at hdecide
  next hchanged =>
    obtain ⟨rfl, rfl⟩ := dialogue_pure_raising.mp hdecide
    exact .inl ⟨rfl, .changed dm hchanged⟩
  next hsame =>
    rw [Bool.not_eq_true] at hsame
    obtain ⟨exc, hkick, rfl⟩ | ⟨_, _, rest, rfl, hkick, hremove⟩ := dialogue_bind_raising.mp hdecide
    · obtain rfl := dialogue_discord.mp hkick
      refine .inr ⟨exc, rfl, ?_, fun cleanup => .kick dm (.error exc) cleanup hsame⟩
      rintro rfl
      exact hturns.2.2 _ List.mem_cons_self rfl
    · obtain rfl := dialogue_discord.mp hkick
      rw [uncancelled_append] at hturns
      obtain ⟨rfl, cleanup, rfl⟩ := safeRemoveTracking_cases hremove hturns.2.2.2
      exact .inl ⟨rfl, .kick dm (.ok ()) cleanup hsame⟩

/-- A member who was found is contacted, whatever fails. -/
theorem contact_cases {result : Except Raised Unit}
    (h : (catching Raised.isException (notifyAndKick activity) fun _ =>
      safeRemoveTracking activity.guildId activity.memberId).run.Dialogue turns result)
    (hturns : Uncancelled turns) : result = .ok () ∧ Contacted activity turns := by
  have hhonest : Honest (notifyAndKick activity) := by
    intro turns hturns h
    obtain ⟨hok, -⟩ | ⟨exc, herror, hexc, -⟩ := notifyAndKick_cases h hturns
    · exact absurd hok (by simp)
    · exact hexc (Except.error.inj herror).symm
  obtain ⟨_, hbody, rfl⟩ | ⟨first, exc, second, rfl, -, hbody, hremove⟩ :=
    dialogue_isException h hturns hhonest
  · obtain ⟨-, hcontacted⟩ | ⟨exc, herror, -⟩ := notifyAndKick_cases hbody hturns
    · exact ⟨rfl, hcontacted⟩
    · exact absurd herror (by simp)
  · rw [uncancelled_append] at hturns
    obtain ⟨rfl, cleanup, rfl⟩ := safeRemoveTracking_cases hremove hturns.2
    obtain ⟨hok, -⟩ | ⟨_, -, -, hcontacted⟩ := notifyAndKick_cases hbody hturns.1
    · exact absurd hok (by simp)
    · exact ⟨rfl, hcontacted cleanup⟩

theorem fetchFailed_cases {exc : Raised} {result : Except Raised Bool}
    (h : (fetchFailed activity exc).run.Dialogue turns result) (hturns : Uncancelled turns) :
    (result = .ok false ∧ Handled activity (lookedUp activity false ::
      fetched activity (.error exc) :: turns)) ∨
      exc.isHttpException = false ∧ result = .error exc ∧ turns = [] := by
  unfold fetchFailed at h
  split_ifs at h with hleft hhttp
  · subst hleft
    obtain ⟨_, hremove, rfl⟩ | ⟨_, _, rest, rfl, hremove, hpure⟩ := dialogue_bind_raising.mp h
    · exact absurd (safeRemoveTracking_cases hremove hturns).1 (by simp)
    · rw [uncancelled_append] at hturns
      obtain ⟨-, cleanup, rfl⟩ := safeRemoveTracking_cases hremove hturns.1
      obtain ⟨rfl, rfl⟩ := dialogue_pure_raising.mp hpure
      exact .inl ⟨rfl, .left cleanup⟩
  · obtain ⟨rfl, rfl⟩ := dialogue_pure_raising.mp h
    exact .inl ⟨rfl, .unavailable hleft hhttp⟩
  · obtain ⟨rfl, rfl⟩ := dialogue_throw.mp h
    exact .inr ⟨Bool.not_eq_true _ ▸ hhttp, rfl, rfl⟩

/-- Nothing but an unguarded `fetch_member` keeps a member from being resolved or given up. -/
theorem resolveMember_cases {result : Except Raised Bool}
    (h : (resolveMember activity).run.Dialogue turns result) (hturns : Uncancelled turns) :
    (result = .ok true ∧ (turns = [lookedUp activity true] ∨
      turns = [lookedUp activity false, fetched activity (.ok ())])) ∨
    (result = .ok false ∧ Handled activity turns) ∨
      ∃ exc, exc.isHttpException = false ∧ result = .error exc ∧
        turns = [lookedUp activity false, fetched activity (.error exc)] := by
  obtain ⟨found, rest, rfl, hrest⟩ := dialogue_getMember.mp h
  rw [uncancelled_cons] at hturns
  cases found with
  | true =>
      obtain ⟨rfl, rfl⟩ := dialogue_pure_raising.mp hrest
      exact .inl ⟨rfl, .inl rfl⟩
  | false =>
      obtain ⟨_, hfetch, rfl⟩ | ⟨_, exc, rest, rfl, hfetch, hfailed⟩ :=
        dialogue_isException_map hrest hturns.2 (discord_honest _)
      · obtain rfl := dialogue_discord.mp hfetch
        exact .inl ⟨rfl, .inr rfl⟩
      · rw [uncancelled_append] at hturns
        obtain rfl := dialogue_discord.mp hfetch
        obtain hhandled | ⟨hexc, rfl, rfl⟩ := fetchFailed_cases hfailed hturns.2.2
        · exact .inr (.inl hhandled)
        · exact .inr (.inr ⟨exc, hexc, rfl, rfl⟩)

/-- All the ways a member can end. -/
theorem processMember_cases {result : Except Raised Unit}
    (h : (processMember activity).run.Dialogue turns result) (hturns : Uncancelled turns) :
    (result = .ok () ∧ Handled activity turns) ∨
      ∃ exc, exc.isHttpException = false ∧ result = .error exc ∧
        turns = [lookedUp activity false, fetched activity (.error exc)] := by
  obtain ⟨exc, hresolve, rfl⟩ | ⟨first, found, rest, rfl, hresolve, hrest⟩ :=
    dialogue_bind_raising.mp h
  · obtain ⟨hok, -⟩ | ⟨hok, -⟩ | ⟨_, hexc, heq, rfl⟩ := resolveMember_cases hresolve hturns
    · exact absurd hok (by simp)
    · exact absurd hok (by simp)
    · rw [Except.error.inj heq]
      exact .inr ⟨_, hexc, rfl, rfl⟩
  · rw [uncancelled_append] at hturns
    obtain ⟨hok, hfirst⟩ | ⟨hok, hhandled⟩ | ⟨_, -, herror, -⟩ :=
      resolveMember_cases hresolve hturns.1
    · obtain rfl := Except.ok.inj hok
      obtain ⟨rfl, hcontacted⟩ := contact_cases hrest hturns.2
      obtain rfl | rfl := hfirst
      · exact .inl ⟨rfl, .cached hcontacted⟩
      · exact .inl ⟨rfl, .resolved hcontacted⟩
    · obtain rfl := Except.ok.inj hok
      obtain ⟨rfl, rfl⟩ := dialogue_pure_raising.mp hrest
      rw [List.append_nil]
      exact .inl ⟨rfl, hhandled⟩
    · exact absurd herror (by simp)

end Member

/-! ## What is guarded -/

/-- Nothing was raised where no handler catches it. -/
def Guarded (turns : List TickTurn) : Prop :=
  ∀ turn ∈ turns, ¬ Unguarded turn

@[simp] theorem guarded_nil : Guarded [] := by
  simp [Guarded]

@[simp] theorem guarded_cons {turn : TickTurn} {turns : List TickTurn} :
    Guarded (turn :: turns) ↔ ¬ Unguarded turn ∧ Guarded turns :=
  List.forall_mem_cons

@[simp] theorem guarded_append {first second : List TickTurn} :
    Guarded (first ++ second) ↔ Guarded first ∧ Guarded second :=
  List.forall_mem_append

theorem not_guarded_fetched (before : List TickTurn) {activity : Activity} {exc : Raised}
    (hexc : exc.isHttpException = false) :
    ¬ Guarded (before ++ [fetched activity (.error exc)]) := by
  intro hguarded
  exact hguarded (fetched activity (.error exc)) (by simp) ⟨exc, rfl, hexc⟩

theorem Contacted.guarded {activity : Activity} {turns : List TickTurn}
    (h : Contacted activity turns) : Guarded turns := by
  cases h <;> simp [Unguarded]

theorem Handled.guarded {activity : Activity} {turns : List TickTurn}
    (h : Handled activity turns) : Guarded turns := by
  cases h with
  | left cleanup => simp [Unguarded, exceptionOf, Raised.isHttpException]
  | unavailable _ hhttp => simp [Unguarded, exceptionOf, hhttp]
  | cached hcontacted => simp [Unguarded, hcontacted.guarded]
  | resolved hcontacted => simp [Unguarded, exceptionOf, hcontacted.guarded]

theorem Swept.guarded {stale : List Activity} {turns : List TickTurn} (h : Swept stale turns) :
    Guarded turns := by
  induction h with
  | nil => exact guarded_nil
  | cons hhandled _ ih => exact guarded_append.mpr ⟨hhandled.guarded, ih⟩

theorem SweepDone.guarded {turns : List TickTurn} (h : SweepDone turns) : Guarded turns := by
  cases h with
  | swept now hswept => simp [hswept.guarded, Unguarded]
  | _ => simp [Unguarded]

theorem Ticks.guarded {ticks : ℕ} {turns : List TickTurn} (h : Ticks ticks turns) :
    Guarded turns := by
  induction h with
  | zero => exact guarded_nil
  | succ hdone _ ih => simp [hdone.guarded, ih, Unguarded]

/-! ## Whose turn it was -/

/-- The member whose processing the turn begins. -/
def lookup : TickTurn → Option ℤ
  | .op (.getMember memberId) _ => some memberId
  | _ => none

theorem Contacted.lookups {activity : Activity} {turns : List TickTurn}
    (h : Contacted activity turns) : turns.filterMap lookup = [] := by
  cases h <;> rfl

theorem Handled.lookups {activity : Activity} {turns : List TickTurn}
    (h : Handled activity turns) : turns.filterMap lookup = [activity.memberId] := by
  cases h with
  | left | unavailable => rfl
  | cached hcontacted => exact congrArg (activity.memberId :: ·) hcontacted.lookups
  | resolved hcontacted => exact congrArg (activity.memberId :: ·) hcontacted.lookups

/-- A sweep begins with each listed member once. -/
theorem Swept.lookups {stale : List Activity} {turns : List TickTurn} (h : Swept stale turns) :
    turns.filterMap lookup = stale.map (·.memberId) := by
  induction h with
  | nil => rfl
  | cons hhandled _ ih =>
      rw [List.filterMap_append, hhandled.lookups, ih, List.map_cons, List.singleton_append]

/-! ## The loop -/

section Loop

variable {turns : List TickTurn} {result : Except Raised Unit}

theorem processMembers_cases {stale : List Activity}
    (h : (processMembers stale).run.Dialogue turns result) (hturns : Uncancelled turns) :
    (result = .ok () ∧ Swept stale turns) ∨ (∃ exc, result = .error exc) ∧ ¬ Guarded turns := by
  induction stale generalizing turns with
  | nil =>
      obtain ⟨rfl, rfl⟩ := dialogue_pure_raising.mp h
      exact .inl ⟨rfl, .nil⟩
  | cons activity rest ih =>
      obtain ⟨exc, hmember, rfl⟩ | ⟨first, _, second, rfl, hmember, hrest⟩ :=
        dialogue_bind_raising.mp h
      · obtain ⟨hok, -⟩ | ⟨_, hexc, -, rfl⟩ := processMember_cases hmember hturns
        · exact absurd hok (by simp)
        · exact .inr ⟨⟨exc, rfl⟩, not_guarded_fetched [lookedUp activity false] hexc⟩
      · rw [uncancelled_append] at hturns
        obtain ⟨-, hhandled⟩ | ⟨_, -, herror, -⟩ := processMember_cases hmember hturns.1
        · obtain ⟨rfl, hswept⟩ | ⟨herror, hescapes⟩ := ih hrest hturns.2
          · exact .inl ⟨rfl, .cons hhandled hswept⟩
          · exact .inr ⟨herror, fun hguarded => hescapes (guarded_append.mp hguarded).2⟩
        · exact absurd herror (by simp)

/-- A failed query is a query without a list. -/
theorem queryStale_cases {now : ℤ} {answer : Except Raised (Option (List Activity))}
    (h : (queryStale now).run.Dialogue turns answer) (hturns : Uncancelled turns) :
    ∃ listed : Except Raised (List Activity), turns = [.op (.listStale now) listed] ∧
      answer = .ok listed.toOption := by
  obtain ⟨stale, hlisted, rfl⟩ | ⟨_, exc, rest, rfl, hlisted, hpure⟩ :=
    dialogue_isException_map h hturns (listStale_honest now)
  · exact ⟨.ok stale, dialogue_listStale.mp hlisted, rfl⟩
  · obtain ⟨rfl, rfl⟩ := dialogue_pure_raising.mp hpure
    obtain rfl := dialogue_listStale.mp hlisted
    exact ⟨.error exc, rfl, rfl⟩

theorem sweepOnce_cases (h : sweepOnce.run.Dialogue turns result) (hturns : Uncancelled turns) :
    (result = .ok () ∧ SweepDone turns) ∨ (∃ exc, result = .error exc) ∧ ¬ Guarded turns := by
  obtain ⟨ready, rest, rfl, hsweep⟩ := dialogue_isReady.mp h
  rw [uncancelled_cons] at hturns
  cases ready with
  | true =>
      obtain ⟨now, rest, rfl, hquery⟩ := dialogue_utcNow.mp hsweep
      rw [uncancelled_cons] at hturns
      obtain ⟨_, hlist, rfl⟩ | ⟨_, found, rest, rfl, hlist, hmembers⟩ :=
        dialogue_bind_raising.mp hquery
      · obtain ⟨_, -, hok⟩ := queryStale_cases hlist hturns.2.2
        exact absurd hok (by simp)
      rw [uncancelled_append] at hturns
      obtain ⟨listed, rfl, heq⟩ := queryStale_cases hlist hturns.2.2.1
      obtain rfl := Except.ok.inj heq
      cases listed with
      | error exc =>
          obtain ⟨rfl, rfl⟩ := dialogue_pure_raising.mp hmembers
          exact .inl ⟨rfl, .unlisted now exc⟩
      | ok stale =>
          obtain ⟨rfl, hswept⟩ | ⟨herror, hescapes⟩ := processMembers_cases hmembers hturns.2.2.2
          · exact .inl ⟨rfl, .swept now hswept⟩
          · refine .inr ⟨herror, fun hguarded => hescapes ?_⟩
            simp only [guarded_cons, guarded_append] at hguarded
            exact hguarded.2.2.2
  | false =>
      obtain ⟨rfl, rfl⟩ := dialogue_pure_raising.mp hsweep
      exact .inl ⟨rfl, .disconnected⟩

theorem sleep_cases (h : sleep.run.Dialogue turns result) (hturns : Uncancelled turns) :
    result = .ok () ∧ turns = [.await .sleep .elapsed] := by
  obtain ⟨slept, rest, rfl, hslept⟩ := h
  cases slept with
  | elapsed =>
      obtain ⟨rfl, rfl⟩ := dialogue_pure_raising.mp hslept
      exact ⟨rfl, rfl⟩
  | cancelled => exact absurd rfl (hturns _ List.mem_cons_self)

theorem tick_cases (h : tick.run.Dialogue turns result) (hturns : Uncancelled turns) :
    (result = .ok () ∧ ∃ body, SweepDone body ∧ turns = body ++ [.await .sleep .elapsed]) ∨
      (∃ exc, result = .error exc) ∧ ¬ Guarded turns := by
  obtain ⟨exc, hsweep, rfl⟩ | ⟨body, _, rest, rfl, hsweep, hsleep⟩ := dialogue_bind_raising.mp h
  · obtain ⟨hok, -⟩ | hescapes := sweepOnce_cases hsweep hturns
    · exact absurd hok (by simp)
    · exact .inr hescapes
  · rw [uncancelled_append] at hturns
    obtain ⟨rfl, rfl⟩ := sleep_cases hsleep hturns.2
    obtain ⟨-, hdone⟩ | ⟨⟨_, herror⟩, -⟩ := sweepOnce_cases hsweep hturns.1
    · exact .inl ⟨rfl, body, hdone, rfl⟩
    · exact absurd herror (by simp)

theorem runLoop_cases {ticks : ℕ} (h : (runLoop ticks).run.Dialogue turns result)
    (hturns : Uncancelled turns) :
    (result = .ok () ∧ Ticks ticks turns) ∨ (∃ exc, result = .error exc) ∧ ¬ Guarded turns := by
  induction ticks generalizing turns with
  | zero =>
      obtain ⟨rfl, rfl⟩ := dialogue_pure_raising.mp h
      exact .inl ⟨rfl, .zero⟩
  | succ ticks ih =>
      obtain ⟨exc, htick, rfl⟩ | ⟨first, _, second, rfl, htick, hrest⟩ :=
        dialogue_bind_raising.mp h
      · obtain ⟨hok, -⟩ | hescapes := tick_cases htick hturns
        · exact absurd hok (by simp)
        · exact .inr hescapes
      · rw [uncancelled_append] at hturns
        obtain ⟨-, body, hdone, rfl⟩ | ⟨⟨_, herror⟩, -⟩ := tick_cases htick hturns.1
        · obtain ⟨rfl, hticks⟩ | ⟨herror, hescapes⟩ := ih hrest hturns.2
          · rw [List.append_assoc]
            exact .inl ⟨rfl, .succ hdone hticks⟩
          · exact .inr ⟨herror, fun hguarded => hescapes (guarded_append.mp hguarded).2⟩
        · exact absurd herror (by simp)

/-- Whatever is answered, the ticks come to an end. -/
theorem runLoop_returns (reply : (o : TickOp) → o.Res) (answer : (call : TickCall) → call.Ans)
    (ticks : ℕ) :
    ∃ turns result, (runLoop ticks).run.Dialogue turns result ∧
      ∀ turn ∈ turns, turn.Follows reply answer :=
  exists_dialogue reply answer (runLoop ticks).run

/-- Every tick comes to its end, and handles each stale member once, exactly as long as no
`fetch_member` raises anything but a `discord.HTTPException`. -/
theorem runLoop_isolates_iff {ticks : ℕ} {turns : List TickTurn} {result : Except Raised Unit}
    (h : (runLoop ticks).run.Dialogue turns result) (hturns : Uncancelled turns) :
    (result = .ok () ∧ Ticks ticks turns) ↔ ∀ turn ∈ turns, ¬ Unguarded turn := by
  constructor
  · intro hticks
    exact hticks.2.guarded
  · intro hguarded
    obtain hticks | ⟨-, hescapes⟩ := runLoop_cases h hturns
    · exact hticks
    · exact absurd hguarded hescapes

end Loop

/-! ## A timeout -/

/-- Two members who joined two days before `lateNow` and have not written since. -/
def ada : Activity := ⟨1, 7, 0, none⟩

/-- The second of them. -/
def bob : Activity := ⟨1, 8, 0, none⟩

/-- When both are due. -/
def lateNow : ℤ := 2 * inactivityWindow

/-- A tick that lists both members. -/
def listingTurns : List TickTurn :=
  [.op .isReady true, .op .utcNow lateNow, .op (.listStale lateNow) (.ok [ada, bob])]

/-- Ada's DM fails, her kick fails and so does the removal of her row. -/
def adaTurns : List TickTurn :=
  [lookedUp ada true, sent ada (.error .timeout), reread ada (.ok (some ada)),
    kicked ada (.error .clientError), removed ada (.error .unexpected)]

/-- Bob has left. -/
def bobTurns : List TickTurn :=
  [lookedUp bob false, fetched bob (.error .notFound), removed bob (.ok ())]

theorem roughTick_dialogue :
    (runLoop 1).run.Dialogue (listingTurns ++ adaTurns ++ bobTurns ++ [.await .sleep .elapsed])
      (.ok ()) :=
  ⟨true, _, rfl, lateNow, _, rfl, .ok [ada, bob], _, rfl,
    true, _, rfl, .error .timeout, _, rfl, .ok (some ada), _, rfl, .error .clientError, _, rfl,
    .error .unexpected, _, rfl, false, _, rfl, .error .notFound, _, rfl, .ok (), _, rfl,
    .elapsed, _, rfl, rfl, rfl⟩

theorem roughTick_uncancelled :
    Uncancelled (listingTurns ++ adaTurns ++ bobTurns ++ [.await .sleep .elapsed]) := by
  decide

/-- The rough tick goes through both members. -/
theorem runLoop_isolates_iff_rough :
    ((Except.ok () : Except Raised Unit) = .ok () ∧
        Ticks 1 (listingTurns ++ adaTurns ++ bobTurns ++ [.await .sleep .elapsed])) ↔
      ∀ turn ∈ listingTurns ++ adaTurns ++ bobTurns ++ [.await .sleep .elapsed],
        ¬ Unguarded turn :=
  runLoop_isolates_iff roughTick_dialogue roughTick_uncancelled

/-- Discord does not answer in time who Ada is. -/
def timeoutTurns : List TickTurn :=
  listingTurns ++ [lookedUp ada false, fetched ada (.error .timeout)]

/-- The timeout ends the loop, and nobody comes to Bob. -/
theorem runLoop_timeout_escapes :
    (runLoop 1).run.Dialogue timeoutTurns (.error .timeout) ∧ Uncancelled timeoutTurns ∧
      timeoutTurns.filterMap lookup = [ada.memberId] ∧ ¬ Ticks 1 timeoutTurns := by
  refine ⟨?_, ?_, rfl, ?_⟩
  · exact ⟨true, _, rfl, lateNow, _, rfl, .ok [ada, bob], _, rfl,
      false, _, rfl, .error .timeout, _, rfl, rfl, rfl⟩
  · decide
  · intro hticks
    exact not_guarded_fetched (listingTurns ++ [lookedUp ada false]) rfl hticks.guarded

end MomBot.MemberActivity.Fallible
