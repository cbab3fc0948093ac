import MomBot.MemberNotifications.Officers

/-!
# Commands that interleave

Any number of users invoke commands, and the handlers switch where they await.  The permission is
looked up after the answer to the interaction has been sent, and between that look and the call of
the service nothing is awaited: so whoever reaches the service holds the permission at that moment,
not only when the command came in (`reachable_authorized`).

What reaches the store is what the parameters of a command of the run were read as (`MadeIn`).
-/

namespace MomBot.MemberNotifications

open Cooperative Coroutine Python

/-! ## What the commands share -/

/-- The store, and what else the answers depend on. -/
structure Office where
  store : NotificationStore
  /-- The next value of the table's sequence. -/
  nextId : ℤ
  now : ℤ
  databaseAnswers : Bool
  /-- `manage_guild` of a user, `none` for one who is no member of the guild. -/
  permissions : ℕ → Option Bool

namespace Office

/-- An access of the store; a database that does not answer leaves it. -/
def access (w : Office) (a : NotificationStore.Access) : Except CommandError Unit × Office :=
  if w.databaseAnswers then
    ((w.store.perform a).1.mapError .service, { w with store := (w.store.perform a).2 })
  else (.error (.raised .unexpected), w)

/-- The access that a call of the service is. -/
def accessOf (w : Office) : ServiceOp → NotificationStore.Access
  | .create name targetDiscordId anchorDateUtc fireTimeUtc cadence messageTemplate =>
      .create w.nextId w.now name targetDiscordId anchorDateUtc fireTimeUtc cadence messageTemplate
        true
  | .update name fields => .update w.now name fields
  | .delete name => .delete name

/-- What a handler that reads is answered. -/
def query (le : String → String → Bool) (w : Office) : (o : ReplyOp) → o.Res
  | .listAll => if w.databaseAnswers then .ok (w.store.listAll le) else .error .unexpected
  | .get name => if w.databaseAnswers then .ok (w.store.get name) else .error .unexpected

/-- The permission as the gate reads it. -/
def permission (w : Office) (userId : ℕ) : Except CommandError Bool :=
  match w.permissions userId with
  | some held => .ok held
  | none => .error (.raised .unexpected)

/-- A sequence does not take a value back. -/
def nextIdAfter (w : Office) : ServiceOp → ℤ
  | .create _ _ _ _ _ _ => w.nextId + 1
  | .update _ _ | .delete _ => w.nextId

/-- The gate reads the guild's cache, and the service works on the store. -/
def exec (le : String → String → Bool) : (o : CommandOp) → Office → o.Res × Office
  | .manageGuild userId, w => (w.permission userId, w)
  | .service o, w =>
      ((w.access (w.accessOf o)).1,
        { (w.access (w.accessOf o)).2 with nextId := w.nextIdAfter o })
  | .query o, w => (w.query le o, w)

/-- The scheduler writes its log; the clock, the members and the database change at will. -/
def Elsewhere (w w' : Office) : Prop :=
  w'.store = w.store ∨ (∃ owner date, w'.store = (w.store.perform (.markSent owner date)).2) ∨
    ∃ rowId, w'.store = (w.store.perform (.unmark rowId)).2

end Office

/-- The commands of any users. -/
def commands (le : String → String → Bool) :
    Concurrent commandEffects Office Invocation (Except CommandError Unit) where
  machine := { exec := Office.exec le, issue := fun _ w => w, complete := fun _ _ w => w }
  program x := x.program.run
  outside := Office.Elsewhere

/-- Everything switches only where the commands await. -/
def AtAwaits {ι : Type} (c : Config commandEffects Office ι Invocation (Except CommandError Unit))
    (event : Event commandEffects Office ι Invocation) : Prop :=
  Concurrent.SwitchesAtAwaits c event ∧
    (event.isOutside = true → ∀ i, (c.task i).isReady = false)

instance {ι : Type} [Fintype ι] [DecidableEq ι]
    (c : Config commandEffects Office ι Invocation (Except CommandError Unit))
    (event : Event commandEffects Office ι Invocation) : Decidable (AtAwaits c event) :=
  inferInstanceAs (Decidable (_ ∧ (_ → _)))

/-! ## What is entered -/

/-- The operation is what the command's parameters were read as. -/
def CommandOp.Of : Command → CommandOp → Prop
  | .add given, .service (.create name targetDiscordId anchorDateUtc fireTimeUtc cadence
      messageTemplate) =>
      name = given.name ∧ targetDiscordId = toString given.member.id ∧
        parseDate given.startDate = some anchorDateUtc ∧ parseTime given.time = some fireTimeUtc ∧
        cadence = given.cadence ∧ given.cadence ∈ validCadences ∧ messageTemplate = given.message
  | .update given, .service (.update name fields) =>
      name = given.name ∧ updatedFields given = .ok fields
  | .remove name', .service (.delete name) => name = name'
  | .list, .query .listAll => True
  | .get name', .query (.get name) => name = name'
  | _, _ => False

/-- The access comes from a command, or from the scheduler. -/
inductive NotificationStore.Access.Entered : NotificationStore.Access → Prop
  | command {w : Office} {command : Command} {o : ServiceOp} :
      (CommandOp.service o).Of command → Entered (w.accessOf o)
  | markSent (owner : ℤ) (date : Date) : Entered (.markSent owner date)
  | unmark (rowId : ℕ) : Entered (.unmark rowId)

/-- Nothing but entered accesses has made the store. -/
def NotificationStore.Entered (s : NotificationStore) : Prop :=
  ∃ accesses, s = run accesses ∧ ∀ a ∈ accesses, a.Entered

/-! ## The gate as a protocol -/

/-- How far a command has come; one that is `authorized` has just read that its user holds the
permission. -/
inductive Clearance where
  | rest
  | working
  | authorized (userId : ℕ)
  deriving DecidableEq

/-- The permission that is asked for is the invoker's own, and the service is asked by those who
hold it, for what they entered. -/
def Cleared (x : Invocation) (t : Clearance) : CommandOp → Prop
  | .manageGuild userId => userId = x.userId
  | o => t = .authorized x.userId ∧ o.Of x.command

/-- Only a permission that was read to be held authorizes. -/
def Clearance.afterOp : (o : CommandOp) → o.Res → Clearance
  | .manageGuild userId, .ok true => authorized userId
  | _, _ => working

/-- A command asks the service only right after its user was found to hold the permission. -/
def gate : Protocol commandEffects Invocation Clearance where
  rest := .rest
  start _ := .working
  opOk x t o := Cleared x t o
  gives _ _ _ := True
  afterOp _ o r := .afterOp o r
  callOk _ _ _ := True
  atCall _ _ := .working
  afterCall _ _ _ := .working

section Follows

variable {x : Invocation} {t : Clearance}

/-- The trivial postcondition. -/
abbrev Ends {α : Type} (_ : α) (_ : Clearance) : Prop := True

theorem follows_reply (content : String) : (reply content).run.Follows gate x Ends t :=
  ⟨trivial, fun _ => trivial⟩

/-- After the call of the service there are only replies. -/
theorem follows_concluding {o : ServiceOp} {done otherwise : String}
    {expected : CommandError → Bool} (hop : Cleared x t (.service o)) :
    (concluding o done expected otherwise).run.Follows gate x Ends t := by
  have hhandle : ∀ (exc : CommandError) (t : Clearance),
      (if expected exc then reply otherwise
        else if exc.isException then reply opsErrorMsg else throw exc).run.Follows
        gate x Ends t := by
    intro exc t
    split
    next => exact follows_reply otherwise
    next =>
      split
      next => exact follows_reply opsErrorMsg
      next => trivial
  refine ⟨hop, fun answer _ => ?_⟩
  cases answer with
  | error exc => exact hhandle exc _
  | ok _ =>
      refine ⟨trivial, fun outcome => ?_⟩
      cases outcome with
      | ok _ => trivial
      | error exc => exact hhandle (.raised exc) _

theorem follows_memberNotifyAdd {given : AddParameters} (hx : x.command = .add given) :
    (memberNotifyAdd given).run.Follows gate x Ends (.authorized x.userId) := by
  unfold memberNotifyAdd
  split
  next => exact follows_reply _
  next parsedDate hdate =>
    split
    next => exact follows_reply _
    next parsedTime htime =>
      split
      next => exact follows_reply _
      next hcadence =>
        refine follows_concluding ⟨rfl, ?_⟩
        rw [hx]
        exact ⟨rfl, rfl, hdate, htime, rfl, not_not.mp hcadence, rfl⟩

theorem follows_memberNotifyUpdate {given : UpdateParameters} (hx : x.command = .update given) :
    (memberNotifyUpdate given).run.Follows gate x Ends (.authorized x.userId) := by
  unfold memberNotifyUpdate
  split
  next => exact follows_reply _
  next fields hfields =>
    refine follows_concluding ⟨rfl, ?_⟩
    rw [hx]
    exact ⟨rfl, hfields⟩

theorem follows_memberNotifyRemove {name : String} (hx : x.command = .remove name) :
    (memberNotifyRemove name).run.Follows gate x Ends (.authorized x.userId) := by
  refine follows_concluding ⟨rfl, ?_⟩
  rw [hx]
  rfl

/-- After a query there are only replies. -/
theorem follows_replying (content : String) :
    (reading (catching Raised.isException (followupSend content)
      fun _ => followupSend opsErrorMsg)).run.Follows gate x Ends t := by
  refine ⟨trivial, fun outcome => ?_⟩
  cases outcome with
  | ok _ => trivial
  | error exc =>
      show ((if exc.isException then followupSend opsErrorMsg
        else throw exc : ReplyM Unit).run.embed queries >>= _).Follows gate x Ends _
      split
      next => exact ⟨trivial, fun _ => trivial⟩
      next => trivial

/-- The error message of a query that failed. -/
theorem follows_failed (exc : Raised) :
    (reading (catching Raised.isException (throw exc)
      fun _ => followupSend opsErrorMsg)).run.Follows gate x Ends t := by
  show ((if exc.isException then followupSend opsErrorMsg
    else throw exc : ReplyM Unit).run.embed queries >>= _).Follows gate x Ends _
  split
  next => exact ⟨trivial, fun _ => trivial⟩
  next => trivial

theorem follows_reading (hx : x.command = .list) :
    (reading memberNotifyList).run.Follows gate x Ends (.authorized x.userId) := by
  refine ⟨⟨rfl, by rw [hx]; trivial⟩, fun answer _ => ?_⟩
  cases answer with
  | error exc => exact follows_failed exc
  | ok rows => exact follows_replying (listReply rows)

theorem follows_readingNamed {name : String} (hx : x.command = .get name) :
    (reading (memberNotifyGet name)).run.Follows gate x Ends (.authorized x.userId) := by
  refine ⟨⟨rfl, by rw [hx]; rfl⟩, fun answer _ => ?_⟩
  cases answer with
  | error exc => exact follows_failed exc
  | ok row => exact follows_replying (getReply name row)

/-- **Every command keeps to the gate.** -/
theorem program_follows (x : Invocation) : x.program.run.Follows gate x Ends .working := by
  have hhandler : x.command.handler.run.Follows gate x Ends (.authorized x.userId) := by
    cases hx : x.command with
    | add given => exact follows_memberNotifyAdd hx
    | update given => exact follows_memberNotifyUpdate hx
    | remove name => exact follows_memberNotifyRemove hx
    | list => exact follows_reading hx
    | get name => exact follows_readingNamed hx
  refine ⟨trivial, fun outcome => ?_⟩
  cases outcome with
  | error exc => trivial
  | ok _ =>
      refine ⟨rfl, fun answer _ => ?_⟩
      match answer with
      | .error exc => trivial
      | .ok true => exact hhandler
      | .ok false => exact follows_reply officersOnlyMsg

end Follows

/-! ## What the modes mean -/

/-- Whoever is authorized holds the permission. -/
def Guards {ι : Type} (mode : ι → Clearance) (w : Office) : Prop :=
  ∀ i userId, mode i = .authorized userId → w.permissions userId = some true

section Sound

variable {ι : Type} {mode : ι → Clearance} {w w' : Office} {i : ι} {le : String → String → Bool}

/-- The permission that the gate has read is there. -/
theorem permissions_of_afterOp {o : CommandOp} {userId : ℕ}
    (h : Clearance.afterOp o (Office.exec le o w).1 = .authorized userId) :
    w.permissions userId = some true := by
  cases o with
  | service o => cases h
  | query o => cases h
  | manageGuild asked =>
      have hread : Clearance.afterOp (.manageGuild asked) (w.permission asked) =
        .authorized userId := h
      unfold Office.permission at hread
      cases hheld : w.permissions asked with
      | none =>
          rw [hheld] at hread
          cases hread
      | some held =>
          rw [hheld] at hread
          cases held with
          | false => cases hread
          | true =>
              obtain rfl := Clearance.authorized.inj hread
              exact hheld

/-- Asking changes no permission. -/
theorem permissions_exec (o : CommandOp) (w : Office) :
    (Office.exec le o w).2.permissions = w.permissions := by
  cases o with
  | manageGuild userId => rfl
  | query o => rfl
  | service o =>
      show (w.access (w.accessOf o)).2.permissions = w.permissions
      unfold Office.access
      split <;> rfl

variable [DecidableEq ι]

theorem Guards.update (h : Guards mode w) (hsame : w'.permissions = w.permissions) {t : Clearance}
    (ht : ∀ userId, t = .authorized userId → w.permissions userId = some true) :
    Guards (Function.update mode i t) w' := by
  intro j userId hj
  rw [hsame]
  by_cases hji : j = i
  · subst hji
    rw [Function.update_self] at hj
    exact ht userId hj
  · rw [Function.update_of_ne hji] at hj
    exact h j userId hj

/-- **Step lemma.** -/
theorem gate_sound :
    gate.Sound Ends (Guards : (ι → Clearance) → Office → Prop) (commands le) AtAwaits where
  program := program_follows
  spawn h _ _ _ := h.holds.update rfl fun _ ht => by cases ht
  op h _ _ _ := ⟨trivial, h.holds.update (permissions_exec _ _) fun _ => permissions_of_afterOp⟩
  issue h _ _ _ := h.holds.update rfl fun _ ht => by cases ht
  answer h _ _ _ _ := h.holds.update rfl fun _ ht => by cases ht
  finish h _ _ _ := h.holds.update rfl fun _ ht => by cases ht
  outside {mode c _} h hallowed _ i userId hi := by
    -- a task that has just read its permission is not awaiting
    have hready : (c.task i).isReady = true :=
      h.isReady (by rw [hi]; simp [gate]) fun _ _ _ _ => by rw [hi]; simp [gate]
    rw [hallowed.2 rfl i] at hready
    cases hready

variable {w₀ : Office} {c c' : Config commandEffects Office ι Invocation (Except CommandError Unit)}
  {event : Event commandEffects Office ι Invocation}

/-- **Run lemma.** -/
theorem authorized_of_reachable (h : (commands le).Reachable AtAwaits w₀ c) {x : Invocation}
    {o : CommandOp} {next : o.Res → Coroutine commandEffects (Except CommandError Unit)}
    (htask : c.task i = .ready x (.op o next)) (hasks : ∀ userId, o ≠ .manageGuild userId) :
    c.shared.permissions x.userId = some true ∧ o.Of x.command := by
  obtain ⟨mode, hgoverns⟩ := Protocol.governed gate_sound (fun _ _ hi => by cases hi) h
  have hcleared : Cleared x (mode i) o := hgoverns.opOk htask
  cases o with
  | manageGuild userId => exact absurd rfl (hasks userId)
  | service o => exact ⟨hgoverns.holds i x.userId hcleared.1, hcleared.2⟩
  | query o => exact ⟨hgoverns.holds i x.userId hcleared.1, hcleared.2⟩

/-! ## Where the rows come from -/

/-- The access was made on the way from `w₀` to `c`: by a command whose invoker held the permission
at that moment and whose parameters were read as it, or by the scheduler. -/
inductive MadeIn (le : String → String → Bool) (w₀ : Office)
    (c : Config commandEffects Office ι Invocation (Except CommandError Unit)) :
    NotificationStore.Access → Prop
  | command {c₁ c₂ : Config commandEffects Office ι Invocation (Except CommandError Unit)} {i : ι}
      {x : Invocation} {o : ServiceOp}
      {next : Except CommandError Unit → Coroutine commandEffects (Except CommandError Unit)} :
      (commands le).Reachable AtAwaits w₀ c₁ → c₁.task i = .ready x (.op (.service o) next) →
      c₁.shared.permissions x.userId = some true → (CommandOp.service o).Of x.command →
      (commands le).step c₁ (.op i) = some c₂ → (commands le).Leads AtAwaits c₂ c →
      MadeIn le w₀ c (c₁.shared.accessOf o)
  | markSent (owner : ℤ) (date : Date) : MadeIn le w₀ c (.markSent owner date)
  | unmark (rowId : ℕ) : MadeIn le w₀ c (.unmark rowId)

/-- The store is what these accesses have made of an empty one. -/
def StoreMadeIn (le : String → String → Bool) (w₀ : Office)
    (c : Config commandEffects Office ι Invocation (Except CommandError Unit)) : Prop :=
  ∃ accesses, c.shared.store = NotificationStore.run accesses ∧ ∀ a ∈ accesses, MadeIn le w₀ c a

theorem MadeIn.entered {a : NotificationStore.Access} (h : MadeIn le w₀ c a) : a.Entered := by
  cases h with
  | command _ _ _ hof => exact .command hof
  | markSent owner date => exact .markSent owner date
  | unmark rowId => exact .unmark rowId

theorem MadeIn.step {a : NotificationStore.Access} (h : MadeIn le w₀ c a)
    (hallowed : AtAwaits c event) (hadmits : (commands le).Admits c event)
    (hstep : (commands le).step c event = some c') :
    MadeIn le w₀ c' a := by
  cases h with
  | command hreach htask hheld hof hmade hleads =>
      exact .command hreach htask hheld hof hmade (hleads.step hallowed hadmits hstep)
  | markSent owner date => exact .markSent owner date
  | unmark rowId => exact .unmark rowId

/-- Nothing has touched the store. -/
theorem StoreMadeIn.step_same (h : StoreMadeIn le w₀ c) (hallowed : AtAwaits c event)
    (hadmits : (commands le).Admits c event) (hstep : (commands le).step c event = some c')
    (hsame : c'.shared.store = c.shared.store) : StoreMadeIn le w₀ c' := by
  obtain ⟨accesses, hstore, hmade⟩ := h
  exact ⟨accesses, hsame.trans hstore, fun a ha => (hmade a ha).step hallowed hadmits hstep⟩

/-- One more access. -/
theorem StoreMadeIn.step_perform (h : StoreMadeIn le w₀ c) (hallowed : AtAwaits c event)
    (hadmits : (commands le).Admits c event) (hstep : (commands le).step c event = some c')
    {a : NotificationStore.Access} (ha : MadeIn le w₀ c' a)
    (hperform : c'.shared.store = (c.shared.store.perform a).2) : StoreMadeIn le w₀ c' := by
  obtain ⟨accesses, hstore, hmade⟩ := h
  refine ⟨accesses ++ [a], ?_, ?_⟩
  · rw [hperform, hstore, NotificationStore.run, NotificationStore.run, List.foldl_append]
    rfl
  · exact List.forall_mem_append.mpr
      ⟨fun a ha => (hmade a ha).step hallowed hadmits hstep, List.forall_mem_singleton.mpr ha⟩

/-- **Run lemma.** -/
theorem storeMadeIn_of_reachable (hstart : w₀.store = .empty)
    (h : (commands le).Reachable AtAwaits w₀ c) : StoreMadeIn le w₀ c := by
  induction h with
  | start => exact ⟨[], hstart, List.forall_mem_nil _⟩
  | @step c c' event hbefore hallowed hadmits hstep ih =>
      cases Concurrent.happens_of_step hstep with
      | spawn | issue | answer | finish => exact ih.step_same hallowed hadmits hstep rfl
      | outside =>
          rcases hadmits with hsame | ⟨owner, date, hmark⟩ | ⟨rowId, hunmark⟩
          · exact ih.step_same hallowed (.inl hsame) hstep hsame
          · exact ih.step_perform hallowed (.inr (.inl ⟨owner, date, hmark⟩)) hstep
              (.markSent owner date) hmark
          · exact ih.step_perform hallowed (.inr (.inr ⟨rowId, hunmark⟩)) hstep (.unmark rowId)
              hunmark
      | @op i x o next htask =>
          cases o with
          | manageGuild userId => exact ih.step_same hallowed hadmits hstep rfl
          | query o => exact ih.step_same hallowed hadmits hstep rfl
          | service o =>
              obtain ⟨hheld, hof⟩ := authorized_of_reachable hbefore htask fun _ h => by cases h
              by_cases hanswers : c.shared.databaseAnswers = true
              · refine ih.step_perform hallowed hadmits hstep
                  (.command hbefore htask hheld hof hstep .refl) ?_
                show (c.shared.access (c.shared.accessOf o)).2.store = _
                rw [Office.access, if_pos hanswers]
              · refine ih.step_same hallowed hadmits hstep ?_
                show (c.shared.access (c.shared.accessOf o)).2.store = _
                rw [Office.access, if_neg hanswers]

theorem entered_of_reachable (hstart : w₀.store = .empty)
    (h : (commands le).Reachable AtAwaits w₀ c) : c.shared.store.Entered := by
  obtain ⟨accesses, hstore, hmade⟩ := storeMadeIn_of_reachable hstart h
  exact ⟨accesses, hstore, fun a ha => (hmade a ha).entered⟩

end Sound

/-! ### Two users -/

/-- The member whom the notification is for. -/
def gymMember : PickedMember := ⟨7, by decide⟩

/-- An officer adds a notification. -/
def addGym : Invocation :=
  ⟨5, .add ⟨gymMember, "gym", "2027-06-01", "09:00", "weekly", "Clan boss"⟩⟩

/-- Somebody else removes it. -/
def removeGym : Invocation := ⟨8, .remove "gym"⟩

/-- Only the user 5 is an officer. -/
def emptyOffice : Office := ⟨.empty, 1, 0, true, fun userId => some (userId = 5)⟩

/-- Discord takes every call. -/
def accepted (_ : CommandCall) : Outcome := .ok ()

/-- Both commands come in, and the officer's gets to the service. -/
def toService : List (Event commandEffects Office Bool Invocation) :=
  [.spawn true addGym, .issue true, .spawn false removeGym, .issue false, .answer true accepted,
    .op true]

end MomBot.MemberNotifications
