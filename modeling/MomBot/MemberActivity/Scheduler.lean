import MomBot.Cooperative.Interleave
import MomBot.Discord
import MomBot.MemberActivity.Service

/-!
# `AutoKickScheduler` and the events it runs beside

A sweep takes the stale rows once and then goes through them, awaiting a lookup, a DM
and a kick for each.  Meanwhile members join and write.  The scheduler and the event
handlers serve one guild, `guildId`.
-/

namespace MomBot.MemberActivity

open Cooperative

/-! ## Effects -/

/-- `getMember` is the lookup in the guild's cache. -/
inductive ActivityOp where
  | recordJoin (guildId memberId joinedAt : ℤ)
  | recordFirstMessage (guildId memberId messageAt : ℤ)
  | listStale (now : ℤ)
  | getTracking (guildId memberId : ℤ)
  | removeTracking (guildId memberId : ℤ)
  | getMember (memberId : ℤ)

/-- `getMember` says whether the member is in the cache; the database answers the rest. -/
def ActivityOp.Res : ActivityOp → Type
  | recordJoin _ _ _ | recordFirstMessage _ _ _ | removeTracking _ _ => Unit
  | listStale _ => List Activity
  | getTracking _ _ => Option Activity
  | getMember _ => Bool

/-- The calls of Discord that a sweep awaits. -/
inductive ActivityCall where
  | fetchMember (memberId : ℤ)
  | send (memberId : ℤ) (message : String)
  | kick (memberId : ℤ) (reason : String)

/-- Everything that a sweep or an event asks. -/
abbrev activityEffects : Effects :=
  ⟨ActivityOp, ActivityOp.Res, ActivityCall, fun _ => Outcome⟩

/-- A sweep or an event, or a part of one. -/
abbrev ActivityM := Coroutine activityEffects

/-- What was recorded of a member of a guild. -/
inductive Recorded where
  | join (member : ℤ × ℤ) (joinedAt : ℤ)
  | message (member : ℤ × ℤ) (messageAt : ℤ)
  deriving DecidableEq

/-- Whom an event is about. -/
def Recorded.member : Recorded → ℤ × ℤ
  | join member _ | message member _ => member

/-- `history` is only recorded, the newest first. -/
structure World where
  table : ActivityTable
  cached : ℤ → Bool
  history : List Recorded

namespace World

/-- An operation on the table or the cache. -/
def exec : (o : ActivityOp) → World → o.Res × World
  | .recordJoin guildId memberId joinedAt, w =>
      ((), { w with
        table := w.table.recordJoin guildId memberId joinedAt
        history := .join (guildId, memberId) joinedAt :: w.history })
  | .recordFirstMessage guildId memberId messageAt, w =>
      ((), { w with
        table := w.table.recordFirstMessage guildId memberId messageAt
        history := .message (guildId, memberId) messageAt :: w.history })
  | .listStale now, w => (w.table.listStale now, w)
  | .getTracking guildId memberId, w => (w.table.getTracking guildId memberId, w)
  | .removeTracking guildId memberId, w =>
      ((), { w with table := w.table.removeTracking guildId memberId })
  | .getMember memberId, w => (w.cached memberId, w)

end World

/-- A call changes nothing in the bot. -/
def activityMachine : Machine activityEffects World where
  exec := World.exec
  issue _ w := w
  complete _ _ w := w

/-- `record_join`, synchronously. -/
def recordJoin (guildId memberId joinedAt : ℤ) : ActivityM Unit :=
  .op (.recordJoin guildId memberId joinedAt) .done

/-- `record_first_message`, synchronously. -/
def recordFirstMessage (guildId memberId messageAt : ℤ) : ActivityM Unit :=
  .op (.recordFirstMessage guildId memberId messageAt) .done

/-- `list_stale`, synchronously. -/
def listStale (now : ℤ) : ActivityM (List Activity) :=
  .op (.listStale now) .done

/-- `get_tracking`, synchronously. -/
def getTracking (guildId memberId : ℤ) : ActivityM (Option Activity) :=
  .op (.getTracking guildId memberId) .done

/-- `_safe_remove_tracking`. -/
def removeTracking (guildId memberId : ℤ) : ActivityM Unit :=
  .op (.removeTracking guildId memberId) .done

/-- `guild.get_member`: whether the member is in the cache. -/
def getMember (memberId : ℤ) : ActivityM Bool :=
  .op (.getMember memberId) .done

/-- `guild.fetch_member`. -/
def fetchMember (memberId : ℤ) : ActivityM Outcome :=
  .await (.fetchMember memberId) .done

/-- `member.send`. -/
def send (memberId : ℤ) (message : String) : ActivityM Outcome :=
  .await (.send memberId message) .done

/-- `guild.kick`. -/
def kick (memberId : ℤ) (reason : String) : ActivityM Outcome :=
  .await (.kick memberId reason) .done

/-! ## The scheduler -/

/-- `_DM_MESSAGE`. -/
def dmMessage : String :=
  "You have been removed because no message was posted within 24 hours " ++
    "of joining. You are welcome to rejoin when you are ready to participate."

/-- `_KICK_REASON`. -/
def kickReason : String := "No messages posted within 24 hours of joining"

/-- The row that is read again is not the one that was selected. -/
def stateChanged (activity : Activity) : Option Activity → Bool
  | none => true
  | some current => current.firstMessageAt ≠ none || current.joinedAt ≠ activity.joinedAt

/-- `_process_member` after `kick`; only a cancellation leaves the row. -/
def afterKick (activity : Activity) : Outcome → ActivityM (Except Raised Unit)
  | .error .cancelled => return .error .cancelled
  | _ => do
      -- also after a kick that Discord refused
      removeTracking activity.guildId activity.memberId
      return .ok ()

/-- `_process_member` once the row is read again: the kick follows at once. -/
def kickUnless (changed : Bool) (activity : Activity) : ActivityM (Except Raised Unit) :=
  if changed then return .ok ()
  else do
    let outcome ← kick activity.memberId kickReason
    afterKick activity outcome

/-- `_process_member` after `send`; a failed DM does not matter. -/
def afterSend (activity : Activity) : Outcome → ActivityM (Except Raised Unit)
  | .error .cancelled => return .error .cancelled
  | _ => do
      -- the row that the sweep selected may be old by now
      let current ← getTracking activity.guildId activity.memberId
      kickUnless (stateChanged activity current) activity

/-- `_process_member` once the member is resolved. -/
def notifyAndKick (activity : Activity) : ActivityM (Except Raised Unit) := do
  let outcome ← send activity.memberId dmMessage
  afterSend activity outcome

/-- `_process_member` after `fetch_member`. -/
def afterFetch (activity : Activity) : Outcome → ActivityM (Except Raised Unit)
  | .ok () => notifyAndKick activity
  -- the member has left, and there is nobody to kick
  | .error .notFound => do
      removeTracking activity.guildId activity.memberId
      return .ok ()
  | .error exc => if exc.isHttpException then return .ok () else return .error exc

/-- `_process_member`. -/
def processMember (activity : Activity) : ActivityM (Except Raised Unit) := do
  if ← getMember activity.memberId then notifyAndKick activity
  else do
    let outcome ← fetchMember activity.memberId
    afterFetch activity outcome

/-- The loop over the stale rows. -/
def processMembers : List Activity → ActivityM (Except Raised Unit)
  | [] => return .ok ()
  | activity :: rest => do
      match ← processMember activity with
      | .error exc => return .error exc
      | .ok () => processMembers rest

/-- One round of `_run_loop`, from the readiness guard to the sleep. -/
def sweep (ready : Bool) (now : ℤ) : ActivityM (Except Raised Unit) :=
  if ready then do
    let stale ← listStale now
    processMembers stale
  else return .ok ()

/-! ## The event handlers -/

/-- `on_member_join`, up to the welcome message. -/
def onMemberJoin (ownGuild : ℤ) (bot : Bool) (guildId memberId joinedAt : ℤ) :
    ActivityM (Except Raised Unit) :=
  if bot then return .ok ()
  else if guildId ≠ ownGuild then return .ok ()
  else do
    recordJoin guildId memberId joinedAt
    return .ok ()

/-- `on_message`; a direct message has no guild. -/
def onMessage (ownGuild : ℤ) (bot : Bool) (guildId : Option ℤ) (authorId messageAt : ℤ) :
    ActivityM (Except Raised Unit) :=
  if bot then return .ok ()
  else
    match guildId with
    | none => return .ok ()
    | some guildId =>
        if guildId ≠ ownGuild then return .ok ()
        else do
          recordFirstMessage guildId authorId messageAt
          return .ok ()

/-- What a task is started with. -/
inductive Activation where
  | sweep (ready : Bool) (now : ℤ)
  | memberJoin (bot : Bool) (guildId memberId joinedAt : ℤ)
  | message (bot : Bool) (guildId : Option ℤ) (authorId messageAt : ℤ)

/-- The handler of an event, or the sweep. -/
def Activation.program (ownGuild : ℤ) : Activation → ActivityM (Except Raised Unit)
  | sweep ready now => MemberActivity.sweep ready now
  | memberJoin bot guildId memberId joinedAt => onMemberJoin ownGuild bot guildId memberId joinedAt
  | message bot guildId authorId messageAt => onMessage ownGuild bot guildId authorId messageAt

/-- Sweeps and events of one guild.  The database may reorder its rows, and the guild's
cache changes at will. -/
def autoKick (ownGuild : ℤ) :
    Concurrent activityEffects World Activation (Except Raised Unit) where
  machine := activityMachine
  program := Activation.program ownGuild
  outside w w' := w'.table.rows.Perm w.table.rows ∧ w'.history = w.history

end MomBot.MemberActivity
