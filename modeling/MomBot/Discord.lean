import MomBot.Cooperative.Dialogue
import MomBot.Python.Raise

/-!
# Discord

Every await of a Discord call returns or raises.  `Raised` lists the exceptions
the bot's handlers tell apart; `forbidden` and `notFound` are the subclasses of
`discord.HTTPException` for the statuses 403 and 404, `timeout` is
`TimeoutError`, `clientError` is `aiohttp.ClientError` and `unexpected` is any
other exception.

`requireManageGuild` is the gate that the officers' commands share.
-/

namespace MomBot

open Cooperative Python

/-! ## How a call ends -/

/-- What a call, or whatever else is asked, may raise. -/
inductive Raised where
  | forbidden
  | notFound
  | httpException (status : ℕ)
  | rateLimited
  | timeout
  | clientError
  | cancelled
  | unexpected
  deriving DecidableEq, Repr

/-- The outcome of an awaited Discord call. -/
abbrev Outcome := Except Raised Unit

namespace Raised

/-- `except asyncio.CancelledError`: not a subclass of `Exception`. -/
def isCancelled : Raised → Bool
  | cancelled => true
  | _ => false

/-- `except Exception`. -/
def isException (exc : Raised) : Bool := !exc.isCancelled

theorem isException_iff {exc : Raised} : exc.isException = true ↔ exc ≠ .cancelled := by
  cases exc <;> simp [isException, isCancelled]

/-- `except discord.HTTPException`, the two subclasses included. -/
def isHttpException : Raised → Bool
  | forbidden | notFound | httpException _ => true
  | _ => false

end Raised

/-! ## What is raised in a dialogue -/

/-- What the answers to the questions of `E` raise. -/
class Raises (E : Effects) where
  op : (o : E.Op) → E.Res o → Option Raised
  call : (call : E.Call) → E.Ans call → Option Raised

section Turns

variable {E : Effects} [Raises E]

/-- What a turn has raised, if it has raised anything. -/
def raised : Turn E → Option Raised
  | .op o answer => Raises.op o answer
  | .await call answer => Raises.call call answer

/-- Nothing is cancelled. -/
def Uncancelled (turns : List (Turn E)) : Prop :=
  ∀ turn ∈ turns, raised turn ≠ some .cancelled

instance : DecidablePred (Uncancelled (E := E)) := fun turns =>
  inferInstanceAs (Decidable (∀ turn ∈ turns, raised turn ≠ some .cancelled))

variable {turn : Turn E} {turns first second : List (Turn E)}

theorem uncancelled_nil : Uncancelled ([] : List (Turn E)) :=
  List.forall_mem_nil _

theorem uncancelled_cons :
    Uncancelled (turn :: turns) ↔ raised turn ≠ some .cancelled ∧ Uncancelled turns :=
  List.forall_mem_cons

theorem uncancelled_append :
    Uncancelled (first ++ second) ↔ Uncancelled first ∧ Uncancelled second :=
  List.forall_mem_append

end Turns

/-! ## The gate of the officers' commands -/

/-- `_OFFICERS_ONLY_MSG`. -/
def officersOnlyMsg : String :=
  "This command is restricted to officers (Manage Server permission)."

/-- What the gate asks of an interaction. -/
structure Interaction (m : Type → Type) where
  defer : m Unit
  /-- `guild_permissions.manage_guild` of the invoker. -/
  manageGuild : m Bool
  followupSend : String → m Unit

/-- The wrapper of `require_manage_guild`. -/
def requireManageGuild {m : Type → Type} [Monad m] (interaction : Interaction m)
    (handler : m Unit) : m Unit := do
  interaction.defer
  if ← interaction.manageGuild then handler
  else interaction.followupSend officersOnlyMsg

end MomBot
