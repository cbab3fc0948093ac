import MomBot.PostConditions.Success

/-!
# The calls of the catalog client, step by step

`list_catalog` looks at the cache, takes the lock, looks again and only then fetches.
`catalogProtocol` follows one call through this: what it has seen of the cache, whether it
holds the lock, and which reply it got last.  Every method of the client keeps to it.
-/

set_option linter.unusedSectionVars false

namespace MomBot.PostConditions

open Cooperative Python

/-! ## The protocol of a call -/

/-- What a call has seen last.  `missed` is a cache without a fresh entry. -/
inductive Seen where
  | nothing
  | entry (ts : ℚ) (payload : JsonValue)
  | fresh (payload : JsonValue)
  | missed
  | replied (reply : Reply)
  | stamped (ts : ℚ) (reply : Reply)
  | stored (payload : JsonValue)

/-- Where a call stands to the lock. -/
inductive Phase where
  | before
  | holding
  | released
  deriving DecidableEq

/-- `level` is the key of a `list_catalog`; the other methods have none. -/
structure CatalogMode where
  level : Option (Option ℤ)
  phase : Phase
  seen : Seen

namespace Seen

/-- What the cache holds under the key. -/
def ofEntry : Option (ℚ × JsonValue) → Seen
  | none => missed
  | some (ts, payload) => entry ts payload

/-- A payload that is fresh, if there is one. -/
def ofFresh : Option JsonValue → Seen
  | none => missed
  | some payload => fresh payload

/-- What the clock says about an entry, or stamps on a reply. -/
def atClock (now : ℚ) : Seen → Seen
  | entry ts payload => if now - ts < catalogCacheTtl then fresh payload else missed
  | replied reply => stamped now reply
  | seen => seen

/-- What is left of it while the call awaits. -/
def atAwait : Seen → Seen
  | missed | replied _ => missed
  | _ => nothing

end Seen

/-- The key of a call in the cache. -/
def ClientMethod.level : ClientMethod → Option (Option ℤ)
  | listCatalog strongholdLevel => some strongholdLevel
  | _ => none

namespace CatalogMode

/-- A call that has just begun. -/
def start (x : ClientMethod) : CatalogMode := ⟨x.level, .before, .nothing⟩

/-- The cache, the clock and the lock answer at once. -/
def afterOp (t : CatalogMode) : (o : ClientOp) → o.Res → CatalogMode
  | .catalogCacheGet _, entry => { t with seen := .ofEntry entry }
  | .monotonic, now => { t with seen := t.seen.atClock now }
  | .catalogCacheSet _ _ payload, _ => { t with seen := .stored payload }
  | .releaseLock, _ => { t with phase := .released }

/-- What a call still knows when it awaits. -/
def atCall (t : CatalogMode) : ClientCall → CatalogMode
  | .acquireLock => { t with seen := .nothing }
  | _ => { t with seen := t.seen.atAwait }

/-- The lock is held from its answer on, and a reply is the last thing seen. -/
def afterCall (t : CatalogMode) : (call : ClientCall) → call.Ans → CatalogMode
  | .acquireLock, .ok () => { t with phase := .holding, seen := .nothing }
  | .acquireLock, .error _ => { t with seen := .nothing }
  | .request _, .ok reply => { t with seen := .replied reply }
  | .request _, .error _ => { t with seen := .nothing }
  | .sleep _, _ => { t with seen := t.seen.atAwait }
  | .respond _, _ => { t with seen := .nothing }

end CatalogMode

/-- The operations of a call, each in its place. -/
inductive CatalogOpOk (c : SiegeWebClient) : CatalogMode → ClientOp → Prop
  | get {level : Option ℤ} {phase : Phase} : phase ≠ .released →
      CatalogOpOk c ⟨some level, phase, .nothing⟩ (.catalogCacheGet level)
  | check {level : Option ℤ} {phase : Phase} {ts : ℚ} {payload : JsonValue} :
      CatalogOpOk c ⟨some level, phase, .entry ts payload⟩ .monotonic
  | stamp {level : Option ℤ} {reply : Reply} :
      CatalogOpOk c ⟨some level, .holding, .replied reply⟩ .monotonic
  | set {level : Option ℤ} {ts : ℚ} {reply : Reply} {payload : JsonValue} :
      outcomeOf (c.catalogRequest level) reply = .ok payload →
      CatalogOpOk c ⟨some level, .holding, .stamped ts reply⟩ (.catalogCacheSet level ts payload)
  | release {level : Option ℤ} {seen : Seen} :
      CatalogOpOk c ⟨some level, .holding, seen⟩ .releaseLock

/-- The awaits of a call, each in its place; other methods leave the lock alone. -/
inductive CatalogCallOk (c : SiegeWebClient) : CatalogMode → ClientCall → Prop
  | acquire {level : Option ℤ} : CatalogCallOk c ⟨some level, .before, .missed⟩ .acquireLock
  | fetch {level : Option ℤ} :
      CatalogCallOk c ⟨some level, .holding, .missed⟩ (.request (c.catalogRequest level))
  | wait {level : Option ℤ} {reply : Reply} {seconds : PyFloat} :
      CatalogCallOk c ⟨some level, .holding, .replied reply⟩ (.sleep seconds)
  | other {seen : Seen} {call : ClientCall} : call ≠ .acquireLock →
      CatalogCallOk c ⟨none, .before, seen⟩ call

/-- A fetch and a write of the cache come under the lock, and after the cache was found stale. -/
def catalogProtocol (c : SiegeWebClient) : Protocol clientEffects ClientMethod CatalogMode where
  rest := ⟨none, .before, .nothing⟩
  start := .start
  opOk _ t o := CatalogOpOk c t o
  gives _ _ _ := True
  afterOp t o r := t.afterOp o r
  callOk _ t call := CatalogCallOk c t call
  atCall t call := t.atCall call
  afterCall t call answer := t.afterCall call answer

/-- A value was fresh in the cache or has just been stored, and a failure stored nothing. -/
def Returns (value : Except ClientFailure JsonValue) (seen : Seen) : Prop :=
  (∀ payload, value = .ok payload → seen = .fresh payload ∨ seen = .stored payload) ∧
    ∀ failure, value = .error failure → ∀ payload, seen ≠ .stored payload

/-- How a call ends. -/
def CatalogEnds (value : Except ClientFailure JsonValue) (t : CatalogMode) : Prop :=
  t.phase ≠ .holding ∧ (t.level.isSome = true → Returns value t.seen)

section Follows

variable {c : SiegeWebClient} {x : ClientMethod} {level : Option ℤ} {r : Request}
  {value : Except ClientFailure JsonValue}

theorem returns_ok {payload : JsonValue} {seen : Seen}
    (h : seen = .fresh payload ∨ seen = .stored payload) : Returns (.ok payload) seen := by
  refine ⟨fun other hother => ?_, fun failure hfailure => (by cases hfailure)⟩
  obtain rfl := Except.ok.inj hother
  exact h

theorem returns_error {failure : ClientFailure} {seen : Seen}
    (h : ∀ payload, seen ≠ .stored payload) : Returns (.error failure) seen :=
  ⟨fun payload hpayload => (by cases hpayload), fun _ _ => h⟩

/-- A request may be made: the fetch of a call that holds the lock, or one of another
method. -/
inductive MayRequest (c : SiegeWebClient) : CatalogMode → Request → Prop
  | fetch {level : Option ℤ} :
      MayRequest c ⟨some level, .holding, .missed⟩ (c.catalogRequest level)
  | other {seen : Seen} {r : Request} : MayRequest c ⟨none, .before, seen⟩ r

/-- What a request ends in: its last reply is seen, or an error. -/
def Requested (r : Request) (level : Option (Option ℤ)) (phase : Phase)
    (value : Except ClientFailure JsonValue) (t : CatalogMode) : Prop :=
  t.level = level ∧ t.phase = phase ∧
    (∀ payload, value = .ok payload →
      ∃ reply, t.seen = .replied reply ∧ outcomeOf r reply = .ok payload) ∧
    ∀ payload, t.seen ≠ .stored payload

theorem MayRequest.callOk {t : CatalogMode} (h : MayRequest c t r) :
    CatalogCallOk c t (.request r) := by
  cases h with
  | fetch => exact .fetch
  | other => exact .other (by simp)

theorem MayRequest.wait {t : CatalogMode} (h : MayRequest c t r) (reply : Reply)
    (seconds : PyFloat) : CatalogCallOk c { t with seen := .replied reply } (.sleep seconds) := by
  cases h with
  | fetch => exact .wait
  | other => exact .other (by simp)

/-- After a reply and a sleep the request may be made again. -/
theorem MayRequest.again {t : CatalogMode} (h : MayRequest c t r) :
    MayRequest c { t with seen := .missed } r := by
  cases h with
  | fetch => exact .fetch
  | other => exact .other

theorem requested_error {failure : ClientFailure} {t : CatalogMode}
    (h : ∀ payload, t.seen ≠ .stored payload) :
    Requested r t.level t.phase (.error failure) t :=
  ⟨rfl, rfl, fun _ hvalue => (by cases hvalue), h⟩

theorem requested_reply {t : CatalogMode} {reply : Reply} (hstatus : reply.status ≠ 429)
    (h : t.seen = .replied reply) : Requested r t.level t.phase (received reply) t := by
  refine ⟨rfl, rfl, fun payload hvalue => ⟨reply, h, (if_neg hstatus).trans hvalue⟩, ?_⟩
  intro payload hstored
  rw [h] at hstored
  cases hstored

theorem attempts_catalog {t : CatalogMode} (backoffs : List ℚ) (h : MayRequest c t r) :
    (attempts r backoffs).Follows (catalogProtocol c) x (Requested r t.level t.phase) t := by
  induction backoffs generalizing t with
  | nil =>
      apply attempt_follows
      · exact h.callOk
      · intro exc
        exact requested_error (t := { t with seen := .nothing }) (by simp)
      · intro reply hstatus
        exact requested_reply (t := { t with seen := .replied reply }) hstatus rfl
      · intro reply _
        exact requested_error (t := { t with seen := .replied reply }) (by simp)
  | cons backoff backoffs ih =>
      apply attempt_follows
      · exact h.callOk
      · intro exc
        exact requested_error (t := { t with seen := .nothing }) (by simp)
      · intro reply hstatus
        exact requested_reply (t := { t with seen := .replied reply }) hstatus rfl
      · intro reply _
        refine ⟨h.wait reply _, fun outcome => ?_⟩
        cases outcome with
        | error exc => exact requested_error (t := { t with seen := .missed }) (by simp)
        | ok _ => exact ih h.again

/-- A look at the cache, before the lock or under it. -/
theorem freshPayload_catalog {phase : Phase} (hphase : phase ≠ .released) :
    (SiegeWebClient.freshPayload level).Follows (catalogProtocol c) x
      (fun fresh t => t = ⟨some level, phase, .ofFresh fresh⟩) ⟨some level, phase, .nothing⟩ := by
  refine ⟨.get hphase, fun entry _ => ?_⟩
  cases entry with
  | none => rfl
  | some entry =>
      refine ⟨.check, fun (now : ℚ) _ => ?_⟩
      change _ = _
      simp only [catalogProtocol, CatalogMode.afterOp, Seen.ofEntry, Seen.atClock]
      split <;> rfl

/-- What a call returns under the lock. -/
def CatalogLocked (level : Option ℤ) (value : Except ClientFailure JsonValue) (t : CatalogMode) :
    Prop :=
  t.level = some level ∧ t.phase = .holding ∧ Returns value t.seen

theorem fetchCatalog_catalog :
    (c.fetchCatalog level).Follows (catalogProtocol c) x (CatalogLocked level)
      ⟨some level, .holding, .missed⟩ := by
  refine (attempts_catalog retryBackoffSchedule .fetch).bind fun value t ht => ?_
  obtain ⟨tlevel, phase, seen⟩ := t
  obtain ⟨rfl, rfl, hreply, hstored⟩ := ht
  cases value with
  | error failure => exact ⟨rfl, rfl, returns_error hstored⟩
  | ok result =>
      obtain ⟨reply, hseen, houtcome⟩ := hreply result rfl
      obtain rfl : seen = .replied reply := hseen
      exact ⟨.stamp, fun ts _ => ⟨.set houtcome, fun _ _ => ⟨rfl, rfl, returns_ok (.inr rfl)⟩⟩⟩

theorem lockedCatalog_catalog (c : SiegeWebClient) (level : Option ℤ) :
    (c.lockedCatalog level).Follows (catalogProtocol c) x (CatalogLocked level)
      ⟨some level, .holding, .nothing⟩ := by
  refine (freshPayload_catalog (by simp)).bind fun fresh t ht => ?_
  subst ht
  cases fresh with
  | some payload => exact ⟨rfl, rfl, returns_ok (.inl rfl)⟩
  | none => exact fetchCatalog_catalog

theorem before_ne_holding : Phase.before ≠ .holding := by
  decide

theorem released_ne_holding : Phase.released ≠ .holding := by
  decide

theorem nothing_ne_stored (payload : JsonValue) : Seen.nothing ≠ .stored payload := by
  simp

theorem listCatalog_catalog :
    (c.listCatalog level).Follows (catalogProtocol c) x CatalogEnds
      ⟨some level, .before, .nothing⟩ := by
  refine (freshPayload_catalog (by simp)).bind fun fresh t ht => ?_
  subst ht
  cases fresh with
  | some payload => exact ⟨before_ne_holding, fun _ => returns_ok (.inl rfl)⟩
  | none =>
      refine ⟨.acquire, fun outcome => ?_⟩
      cases outcome with
      | error exc => exact ⟨before_ne_holding, fun _ => returns_error nothing_ne_stored⟩
      | ok _ =>
          refine (lockedCatalog_catalog c level).bind fun value t ht => ?_
          obtain ⟨tlevel, phase, seen⟩ := t
          obtain ⟨rfl, rfl, hreturns⟩ := ht
          exact ⟨.release, fun _ _ => ⟨released_ne_holding, fun _ => hreturns⟩⟩

theorem call_catalog (x : ClientMethod) :
    (x.call c).Follows (catalogProtocol c) x CatalogEnds (.start x) := by
  have hother : ∀ r : Request, (callWithRetry r).Follows (catalogProtocol c) x CatalogEnds
      ⟨none, .before, .nothing⟩ := by
    intro r
    refine (attempts_catalog retryBackoffSchedule .other).mono fun value t ht => ?_
    obtain ⟨hlevel, hphase, -⟩ := ht
    exact ⟨by simp [hphase], by simp [hlevel]⟩
  cases x with
  | listCatalog level => exact listCatalog_catalog
  | getMyPreferences discordId discordUsername => exact hother _
  | setMyPreferences discordId discordUsername ids => exact hother _

end Follows

end MomBot.PostConditions
