import Mathlib.Data.List.DropRight
import Mathlib.Data.Rat.Defs
import MomBot.Cooperative.Interleave
import MomBot.Discord
import MomBot.Python.Json

/-!
# `SiegeWebClient`

The client of the siege-web API as coroutines, under the source's names.  A request
is answered by a reply, or raises; `_call_with_retry` repeats it after a 429.  The
catalog is cached by stronghold level, and a miss is fetched under one lock.
-/

namespace MomBot.PostConditions

open Cooperative Python

/-! ## Requests and replies -/

/-- What `float()` gives. -/
inductive PyFloat where
  | finite (value : ℚ)
  | infinite (negative : Bool)
  | nan
  deriving DecidableEq

namespace PyFloat

/-- `x <= value`; with NaN it is false. -/
def leRat : PyFloat → ℚ → Bool
  | finite x, value => x ≤ value
  | infinite negative, _ => negative
  | nan, _ => false

/-- `x > value`; with NaN it is false. -/
def gtRat : PyFloat → ℚ → Bool
  | finite x, value => value < x
  | infinite negative, _ => !negative
  | nan, _ => false

end PyFloat

/-- The two methods of HTTP. -/
inductive Method where
  | get
  | put
  deriving DecidableEq

/-- `method.upper()`. -/
def Method.upper : Method → String
  | get => "GET"
  | put => "PUT"

/-- What is given to `session.request`. -/
structure Request where
  method : Method
  url : String
  headers : Option (List (String × String))
  params : Option (List (String × ℤ))
  json : Option (List (String × List ℤ))
  deriving DecidableEq

/-- `retryAfter` is the header as `float()` reads it, where the inner `none` is an exception.
`body` is what `resp.json()` gives. -/
structure Reply where
  status : ℕ
  retryAfter : Option (Option PyFloat)
  body : JsonValue

/-- A reply with its request and the time it came in. -/
structure Exchanged where
  request : Request
  reply : Reply
  receivedAt : ℚ

/-! ## Exceptions -/

/-- The exceptions of the module. -/
inductive SiegeWebError where
  | auth
  | notFound
  | validation
  | rateLimit (method : Method) (url : String) (attempts : ℕ)
  deriving DecidableEq

/-- The text of each exception. -/
def SiegeWebError.message : SiegeWebError → String
  | auth => "siege-web returned 401 — check the bot service token " ++
      "and ensure X-Acting-Discord-Id is present."
  | notFound => "siege-web returned 404 — Discord ID not registered."
  | validation => "siege-web returned 422 — request body failed validation."
  | rateLimit method url attempts => "siege-web rate-limited " ++ method.upper ++ " " ++ url ++
      " after " ++ toString attempts ++ " attempts."

/-- What can leave a method of the client. -/
inductive ClientFailure where
  | siegeWeb (error : SiegeWebError)
  | raised (exc : Raised)
  deriving DecidableEq

/-! ## Effects -/

/-- How a callback answers its interaction.  `view` tells whether the buttons stay. -/
inductive InteractionResponse where
  | sendMessage (content : String)
  | editMessage (embedTitle : String) (view : Bool)
  deriving DecidableEq

/-- The cache, the clock and the release of the lock. -/
inductive ClientOp where
  | catalogCacheGet (strongholdLevel : Option ℤ)
  | catalogCacheSet (strongholdLevel : Option ℤ) (ts : ℚ) (payload : JsonValue)
  | monotonic
  | releaseLock

/-- The cache answers with the time it was filled and the catalog. -/
def ClientOp.Res : ClientOp → Type
  | catalogCacheGet _ => Option (ℚ × JsonValue)
  | catalogCacheSet _ _ _ => Unit
  | monotonic => ℚ
  | releaseLock => Unit

/-- What a method awaits; `respond` is a callback's answer to its interaction. -/
inductive ClientCall where
  | acquireLock
  | request (r : Request)
  | sleep (seconds : PyFloat)
  | respond (response : InteractionResponse)

/-- A request raises or comes back with a reply. -/
def ClientCall.Ans : ClientCall → Type
  | acquireLock => Outcome
  | request _ => Except Raised Reply
  | sleep _ => Outcome
  | respond _ => Outcome

/-- Everything that the client asks. -/
abbrev clientEffects : Effects :=
  ⟨ClientOp, ClientOp.Res, ClientCall, ClientCall.Ans⟩

/-- A method of the client, or a part of one. -/
abbrev ClientM := Coroutine clientEffects

/-- `now` is `time.monotonic()`.  `exchanges` is only recorded, the newest first. -/
structure ClientState where
  catalogCache : Option ℤ → Option (ℚ × JsonValue)
  catalogCacheLocked : Bool
  now : ℚ
  exchanges : List Exchanged

namespace ClientState

/-- A new client. -/
def init (now : ℚ) : ClientState := ⟨fun _ => none, false, now, []⟩

/-- The operations on the cache and the lock. -/
def exec : (o : ClientOp) → ClientState → o.Res × ClientState
  | .catalogCacheGet level, s => (s.catalogCache level, s)
  | .catalogCacheSet level ts payload, s =>
      ((), { s with catalogCache := Function.update s.catalogCache level (some (ts, payload)) })
  | .monotonic, s => (s.now, s)
  | .releaseLock, s => ((), { s with catalogCacheLocked := false })

/-- A lock that was acquired is held, and a reply is recorded. -/
def complete : (call : ClientCall) → call.Ans → ClientState → ClientState
  | .acquireLock, .ok (), s => { s with catalogCacheLocked := true }
  | .request r, .ok reply, s => { s with exchanges := ⟨r, reply, s.now⟩ :: s.exchanges }
  | _, _, s => s

end ClientState

/-- To issue a call changes nothing. -/
def clientMachine : Machine clientEffects ClientState where
  exec := ClientState.exec
  issue _ s := s
  complete := ClientState.complete

/-- `self._catalog_cache.get(stronghold_level)`. -/
def catalogCacheGet (strongholdLevel : Option ℤ) : ClientM (Option (ℚ × JsonValue)) :=
  .op (.catalogCacheGet strongholdLevel) .done

/-- `self._catalog_cache[stronghold_level] = (ts, payload)`. -/
def catalogCacheSet (strongholdLevel : Option ℤ) (ts : ℚ) (payload : JsonValue) : ClientM Unit :=
  .op (.catalogCacheSet strongholdLevel ts payload) .done

/-- `time.monotonic()`. -/
def monotonic : ClientM ℚ :=
  .op .monotonic .done

/-- The end of `async with self._catalog_cache_lock`. -/
def releaseLock : ClientM Unit :=
  .op .releaseLock .done

/-- The beginning of `async with self._catalog_cache_lock`. -/
def acquireLock : ClientM Outcome :=
  .await .acquireLock .done

/-- `session.request`, and what is read of its response. -/
def request (r : Request) : ClientM (Except Raised Reply) :=
  .await (.request r) .done

/-- `asyncio.sleep(seconds)`. -/
def sleep (seconds : PyFloat) : ClientM Outcome :=
  .await (.sleep seconds) .done

/-- A callback answers its interaction. -/
def respond (response : InteractionResponse) : ClientM Outcome :=
  .await (.respond response) .done

/-! ## `_call_with_retry` -/

/-- `_RETRY_BACKOFF_SCHEDULE`. -/
def retryBackoffSchedule : List ℚ := [1, 2, 4]

/-- `_RETRY_AFTER_MAX`. -/
def retryAfterMax : ℚ := 30

/-- `_CATALOG_CACHE_TTL`. -/
def catalogCacheTtl : ℚ := 600

/-- `_parse_retry_after`. -/
def parseRetryAfter : Option (Option PyFloat) → Option PyFloat
  | none => none
  | some none => none
  | some (some value) => if value.leRat 0 || value.gtRat retryAfterMax then none else some value

/-- `_raise_for_status`. -/
def raiseForStatus (status : ℕ) : Except SiegeWebError Unit :=
  if status = 401 then .error .auth
  else if status = 404 then .error .notFound
  else if status = 422 then .error .validation
  else .ok ()

/-- What a reply that is not a 429 gives. -/
def received (reply : Reply) : Except ClientFailure JsonValue :=
  match raiseForStatus reply.status with
  | .error error => .error (.siegeWeb error)
  | .ok () => .ok reply.body

/-- The body of the loop after a reply; `rateLimited` is what follows a 429. -/
def afterReply (rateLimited : Option PyFloat → ClientM (Except ClientFailure JsonValue))
    (reply : Reply) : ClientM (Except ClientFailure JsonValue) :=
  if reply.status = 429 then rateLimited (parseRetryAfter reply.retryAfter)
  else return received reply

/-- One attempt. -/
def attempt (r : Request)
    (rateLimited : Option PyFloat → ClientM (Except ClientFailure JsonValue)) :
    ClientM (Except ClientFailure JsonValue) := do
  match ← request r with
  | .error exc => return .error (.raised exc)
  | .ok reply => afterReply rateLimited reply

/-- The attempts that are left: one for each backoff, and one more. -/
def attempts (r : Request) : List ℚ → ClientM (Except ClientFailure JsonValue)
  | [] => attempt r fun _ =>
      -- the last attempt does not sleep
      return .error (.siegeWeb (.rateLimit r.method r.url (retryBackoffSchedule.length + 1)))
  | backoff :: rest => attempt r fun retryAfter => do
      match ← sleep (retryAfter.getD (.finite backoff)) with
      | .error exc => return .error (.raised exc)
      | .ok () => attempts r rest

/-- `_call_with_retry`. -/
def callWithRetry (r : Request) : ClientM (Except ClientFailure JsonValue) :=
  attempts r retryBackoffSchedule

/-! ## The public methods -/

/-- The client, apart from its cache. -/
structure SiegeWebClient where
  baseUrl : String
  token : String

namespace SiegeWebClient

/-- `__init__`. -/
def create (baseUrl token : String) : SiegeWebClient where
  baseUrl := String.ofList (baseUrl.toList.rdropWhile (· = '/'))
  token := token

variable (c : SiegeWebClient)

/-- `_auth_headers`. -/
def authHeaders (discordId discordUsername : String) : List (String × String) :=
  [("Authorization", "Bearer " ++ c.token), ("X-Acting-Discord-Id", discordId),
    ("X-Acting-Discord-Username", discordUsername)]

/-- The request of `list_catalog`. -/
def catalogRequest (strongholdLevel : Option ℤ) : Request where
  method := .get
  url := c.baseUrl ++ "/api/post-conditions"
  headers := some [("Authorization", "Bearer " ++ c.token)]
  params := strongholdLevel.map fun level => [("stronghold_level", level)]
  json := none

/-- A cached payload that is younger than the TTL. -/
def freshPayload (strongholdLevel : Option ℤ) : ClientM (Option JsonValue) := do
  match ← catalogCacheGet strongholdLevel with
  | none => return none
  | some (ts, payload) => do
      let now ← monotonic
      return if now - ts < catalogCacheTtl then some payload else none

/-- A catalog fetch, which fills the cache. -/
def fetchCatalog (strongholdLevel : Option ℤ) : ClientM (Except ClientFailure JsonValue) := do
  match ← callWithRetry (c.catalogRequest strongholdLevel) with
  | .error failure => return .error failure
  | .ok result => do
      let ts ← monotonic
      catalogCacheSet strongholdLevel ts result
      return .ok result

/-- What `list_catalog` does under the lock. -/
def lockedCatalog (strongholdLevel : Option ℤ) : ClientM (Except ClientFailure JsonValue) := do
  match ← freshPayload strongholdLevel with
  | some payload => return .ok payload
  | none => c.fetchCatalog strongholdLevel

/-- `list_catalog`: the cache is looked at before the lock is taken, and again under it. -/
def listCatalog (strongholdLevel : Option ℤ) : ClientM (Except ClientFailure JsonValue) := do
  match ← freshPayload strongholdLevel with
  | some payload => return .ok payload
  | none =>
      -- another call may fill the cache while this one waits for the lock
      match ← acquireLock with
      | .error exc => return .error (.raised exc)
      | .ok () => do
          -- `async with` gives the lock back however the fetch ends
          let result ← c.lockedCatalog strongholdLevel
          releaseLock
          return result

/-- The request of `get_my_preferences`. -/
def getPreferencesRequest (discordId discordUsername : String) : Request where
  method := .get
  url := c.baseUrl ++ "/api/members/me/preferences"
  headers := some (c.authHeaders discordId discordUsername)
  params := none
  json := none

/-- `get_my_preferences`. -/
def getMyPreferences (discordId discordUsername : String) :
    ClientM (Except ClientFailure JsonValue) :=
  callWithRetry (c.getPreferencesRequest discordId discordUsername)

/-- The request of `set_my_preferences`. -/
def setPreferencesRequest (discordId discordUsername : String) (ids : List ℤ) : Request where
  method := .put
  url := c.baseUrl ++ "/api/members/me/preferences"
  headers := some (c.authHeaders discordId discordUsername)
  params := none
  json := some [("post_condition_ids", ids)]

/-- `set_my_preferences`. -/
def setMyPreferences (discordId discordUsername : String) (ids : List ℤ) :
    ClientM (Except ClientFailure JsonValue) :=
  callWithRetry (c.setPreferencesRequest discordId discordUsername ids)

end SiegeWebClient

/-! ## Tasks -/

/-- A call of one of the methods. -/
inductive ClientMethod where
  | listCatalog (strongholdLevel : Option ℤ)
  | getMyPreferences (discordId discordUsername : String)
  | setMyPreferences (discordId discordUsername : String) (ids : List ℤ)

/-- The method, called. -/
def ClientMethod.call (c : SiegeWebClient) :
    ClientMethod → ClientM (Except ClientFailure JsonValue)
  | listCatalog strongholdLevel => c.listCatalog strongholdLevel
  | getMyPreferences discordId discordUsername => c.getMyPreferences discordId discordUsername
  | setMyPreferences discordId discordUsername ids =>
      c.setMyPreferences discordId discordUsername ids

/-- Any number of concurrent calls, and a clock that does not go back. -/
def clientTasks (c : SiegeWebClient) :
    Concurrent clientEffects ClientState ClientMethod (Except ClientFailure JsonValue) where
  machine := clientMachine
  program := ClientMethod.call c
  outside s s' := ∃ now, s.now ≤ now ∧ s' = { s with now := now }

/-- The lock is handed out while it is free. -/
def lockGranted {ι : Type} (c : Config clientEffects ClientState ι ClientMethod
    (Except ClientFailure JsonValue)) : Event clientEffects ClientState ι ClientMethod → Bool
  | .answer i reply =>
      match c.task i, (reply .acquireLock : Outcome) with
      | .awaiting _ .acquireLock _, .ok () => !c.shared.catalogCacheLocked
      | _, _ => true
  | _ => true

end MomBot.PostConditions
