import MomBot.PostConditions.Views

/-!
# What counts as a success

`_raise_for_status` knows three error statuses, and 429 is retried.  Every other
status, say 500, is taken for a success: its body is returned, shown as saved
preferences and cached as a catalog.  The client returns a value only on success iff
the final reply has a status that it handles.
-/

namespace MomBot.PostConditions

open Cooperative Python

/-- A 2xx status. -/
def Accepted (status : ℕ) : Prop := 200 ≤ status ∧ status < 300

/-- A 2xx status, or an error status that the client knows. -/
def Handled (status : ℕ) : Prop :=
  Accepted status ∨ status = 401 ∨ status = 404 ∨ status = 422 ∨ status = 429

instance (status : ℕ) : Decidable (Accepted status) := inferInstanceAs (Decidable (_ ∧ _))

instance (status : ℕ) : Decidable (Handled status) := inferInstanceAs (Decidable (_ ∨ _))

/-! ## Runs and their replies -/

/-- The reply of an exchange. -/
def replyOf : Exchange clientEffects → Option Reply
  | ⟨.request _, .ok reply⟩ => some reply
  | _ => none

/-- The last reply of a run. -/
def finalReply (trace : List (Exchange clientEffects)) : Option Reply :=
  (trace.filterMap replyOf).getLast?

/-- The server replied, and no sleep was cancelled. -/
def WasReplied : (call : ClientCall) → call.Ans → Prop
  | .request _, answer => ∃ reply, answer = (.ok reply : Except Raised Reply)
  | .sleep _, outcome => outcome = (.ok () : Outcome)
  | .acquireLock, _ | .respond _, _ => True

/-- Every request of the run was replied to. -/
def Replied (trace : List (Exchange clientEffects)) : Prop :=
  ∀ exchange ∈ trace, WasReplied exchange.1 exchange.2

theorem Replied.cons {exchange : Exchange clientEffects} {rest : List (Exchange clientEffects)}
    (h : Replied (exchange :: rest)) : WasReplied exchange.1 exchange.2 ∧ Replied rest :=
  ⟨h exchange (by simp), fun e he => h e (by simp [he])⟩

/-- What the client makes of the final reply. -/
def outcomeOf (r : Request) (final : Reply) : Except ClientFailure JsonValue :=
  if final.status = 429 then
    .error (.siegeWeb (.rateLimit r.method r.url (retryBackoffSchedule.length + 1)))
  else received final

variable {s s' : ClientState} {trace : List (Exchange clientEffects)}
  {value : Except ClientFailure JsonValue} {r : Request}

theorem finalReply_cons_of_isSome {exchange : Exchange clientEffects}
    {rest : List (Exchange clientEffects)} {final : Reply} (h : finalReply rest = some final) :
    finalReply (exchange :: rest) = some final := by
  unfold finalReply at *
  rw [List.filterMap_cons]
  split
  next => exact h
  next reply _ => rw [List.getLast?_cons, h, Option.getD_some]

/-- One attempt of a replied run: the reply ends it unless it is a 429. -/
theorem attempt_outcome {rateLimited : Option PyFloat → ClientM (Except ClientFailure JsonValue)}
    (h : (attempt r rateLimited).Runs clientMachine s trace value s') (hreplied : Replied trace) :
    ∃ reply rest, trace = ⟨.request r, .ok reply⟩ :: rest ∧ Replied rest ∧
      (rest = [] ∧ reply.status ≠ 429 ∧ value = received reply ∨
        reply.status = 429 ∧ ∃ s₁, (rateLimited (parseRetryAfter reply.retryAfter)).Runs
          clientMachine s₁ rest value s') := by
  obtain ⟨answer, rest, rfl, h⟩ := h
  obtain ⟨⟨reply, rfl⟩, hrest⟩ := hreplied.cons
  refine ⟨reply, rest, rfl, hrest, ?_⟩
  change (afterReply rateLimited reply).Runs _ _ _ _ _ at h
  unfold afterReply at h
  by_cases hlimited : reply.status = 429
  · rw [if_pos hlimited] at h
    exact .inr ⟨hlimited, _, h⟩
  · rw [if_neg hlimited] at h
    exact .inl ⟨h.1, hlimited, h.2.1⟩

/-- A run of the attempts ends with what its final reply says. -/
theorem attempts_outcome {backoffs : List ℚ}
    (h : (attempts r backoffs).Runs clientMachine s trace value s') (hreplied : Replied trace) :
    ∃ final, finalReply trace = some final ∧ value = outcomeOf r final := by
  induction backoffs generalizing s trace with
  | nil =>
      obtain ⟨reply, rest, rfl, -, ⟨rfl, hstatus, rfl⟩ | ⟨hstatus, _, rfl, rfl, -⟩⟩ :=
        attempt_outcome h hreplied
      · exact ⟨reply, rfl, (if_neg hstatus).symm⟩
      · exact ⟨reply, rfl, (if_pos hstatus).symm⟩
  | cons backoff backoffs ih =>
      obtain ⟨reply, rest, rfl, hrest, ⟨rfl, hstatus, rfl⟩ | ⟨hstatus, s₁, hsleep⟩⟩ :=
        attempt_outcome h hreplied
      · exact ⟨reply, rfl, (if_neg hstatus).symm⟩
      · -- the sleep is over, and the remaining attempts follow
        obtain ⟨outcome, later, rfl, hattempts⟩ := hsleep
        obtain ⟨rfl, hlater⟩ := hrest.cons
        obtain ⟨final, hfinal, hvalue⟩ := ih hattempts hlater
        exact ⟨final, finalReply_cons_of_isSome (finalReply_cons_of_isSome hfinal), hvalue⟩

theorem callWithRetry_outcome (h : (callWithRetry r).Runs clientMachine s trace value s')
    (hreplied : Replied trace) :
    ∃ final, finalReply trace = some final ∧ value = outcomeOf r final :=
  attempts_outcome h hreplied

/-- `_raise_for_status` raises on exactly three statuses. -/
theorem received_eq_ok {reply : Reply} {payload : JsonValue} : received reply = .ok payload ↔
    (reply.status ≠ 401 ∧ reply.status ≠ 404 ∧ reply.status ≠ 422) ∧ reply.body = payload := by
  unfold received raiseForStatus
  by_cases h401 : reply.status = 401
  · simp [h401]
  · by_cases h404 : reply.status = 404
    · simp [h404]
    · by_cases h422 : reply.status = 422 <;> simp [h401, h404, h422]

theorem outcomeOf_eq_ok {final : Reply} {payload : JsonValue} :
    outcomeOf r final = .ok payload ↔
      ¬ (final.status = 401 ∨ final.status = 404 ∨ final.status = 422 ∨ final.status = 429) ∧
        final.body = payload := by
  unfold outcomeOf
  by_cases h429 : final.status = 429
  · simp [h429]
  · rw [if_neg h429, received_eq_ok]
    tauto

theorem siegeWeb_of_outcomeOf {final : Reply} {failure : ClientFailure}
    (h : outcomeOf r final = .error failure) : ∃ error, failure = .siegeWeb error := by
  unfold outcomeOf received at h
  split at h
  next => exact ⟨_, (Except.error.inj h).symm⟩
  next =>
    split at h
    next error _ => exact ⟨error, (Except.error.inj h).symm⟩
    next => cases h

/-! ## Returning only on success -/

/-- A value means a 2xx reply, and everything else is a `SiegeWebError`. -/
def ReturnsOnlyOnSuccess (final : Reply) (value : Except ClientFailure JsonValue) : Prop :=
  (∀ payload, value = .ok payload → Accepted final.status) ∧
    ∀ failure, value = .error failure → ∃ error, failure = .siegeWeb error

/-- Being accepted and being handled differ on the known error statuses only. -/
theorem accepted_iff_handled {status : ℕ}
    (h : ¬ (status = 401 ∨ status = 404 ∨ status = 422 ∨ status = 429)) :
    Accepted status ↔ Handled status := by
  unfold Handled
  tauto

theorem returnsOnlyOnSuccess_iff {final : Reply} :
    ReturnsOnlyOnSuccess final (outcomeOf r final) ↔ Handled final.status := by
  by_cases hknown : final.status = 401 ∨ final.status = 404 ∨ final.status = 422 ∨
      final.status = 429
  -- a status with an error of its own never gives a value
  · refine iff_of_true ⟨fun payload h => ?_, fun _ => siegeWeb_of_outcomeOf⟩ (.inr hknown)
    exact absurd hknown (outcomeOf_eq_ok.mp h).1
  · rw [← accepted_iff_handled hknown]
    constructor
    · exact fun h => h.1 final.body (outcomeOf_eq_ok.mpr ⟨hknown, rfl⟩)
    · exact fun h => ⟨fun _ _ => h, fun _ => siegeWeb_of_outcomeOf⟩

/-- The editor tells the user that the preferences are saved. -/
def SavedShown (trace : List (Exchange clientEffects)) : Prop :=
  ∃ exchange ∈ trace, exchange.1 = .respond (.editMessage "Preferences saved" false)

/-- Requests and sleeps show nothing. -/
theorem not_savedShown_attempts {backoffs : List ℚ}
    (h : (attempts r backoffs).Runs clientMachine s trace value s') (hreplied : Replied trace) :
    ¬ SavedShown trace := by
  induction backoffs generalizing s trace with
  | nil =>
      obtain ⟨reply, rest, rfl, -, ⟨rfl, -⟩ | ⟨-, _, rfl, -⟩⟩ := attempt_outcome h hreplied <;>
        simp [SavedShown]
  | cons backoff backoffs ih =>
      obtain ⟨reply, rest, rfl, hrest, ⟨rfl, -⟩ | ⟨-, s₁, hsleep⟩⟩ := attempt_outcome h hreplied
      · simp [SavedShown]
      · obtain ⟨outcome, later, rfl, hattempts⟩ := hsleep
        obtain ⟨rfl, hlater⟩ := hrest.cons
        have hnot := ih hattempts hlater
        simpa [SavedShown] using hnot

/-- The report makes no request, and says that the preferences are saved iff the PUT
returned. -/
theorem reportSave_shows {result : Except ClientFailure Unit}
    (h : (PostConditionsGridView.reportSave value).Runs clientMachine s trace result s') :
    trace.filterMap replyOf = [] ∧ (SavedShown trace ↔ ∃ payload, value = .ok payload) := by
  cases value with
  | ok payload =>
      obtain ⟨outcome, rest, rfl, hend⟩ := h
      obtain rfl : rest = [] := by
        -- the interaction is answered once, whether Discord takes the answer or not
        cases outcome <;> exact hend.1
      simp [SavedShown, replyOf]
  | error failure =>
      cases failure with
      | siegeWeb error =>
          obtain ⟨outcome, rest, rfl, hend⟩ := h
          obtain rfl : rest = [] := by
            cases outcome <;> exact hend.1
          simp [SavedShown, replyOf]
      | raised exc =>
          obtain ⟨rfl, -, -⟩ := h
          simp [SavedShown]

/-- The editor says that the preferences are saved iff `set_my_preferences` returns. -/
theorem save_outcome {c : SiegeWebClient} {view : PostConditionsGridView}
    {result : Except ClientFailure Unit}
    (h : (view.save c).Runs clientMachine s trace result s') (hreplied : Replied trace) :
    ∃ final, finalReply trace = some final ∧ (SavedShown trace ↔
      ¬ (final.status = 401 ∨ final.status = 404 ∨ final.status = 422 ∨ final.status = 429)) := by
  obtain ⟨first, mid, s₁, second, rfl, hput, hreport⟩ := Coroutine.runs_bind.mp h
  have hfirst : Replied first := fun e he => hreplied e (List.mem_append_left _ he)
  obtain ⟨final, hfinal, rfl⟩ := callWithRetry_outcome hput hfirst
  obtain ⟨hnone, hshown⟩ := reportSave_shows hreport
  refine ⟨final, ?_, ?_⟩
  · rw [finalReply, List.filterMap_append, hnone, List.append_nil]
    exact hfinal
  -- only the report can show it, and it does for a value alone
  · have hnot := not_savedShown_attempts hput hfirst
    have happend : SavedShown (first ++ second) ↔ SavedShown second := by
      simp only [SavedShown, List.mem_append, or_and_right, exists_or] at *
      exact or_iff_right hnot
    rw [happend, hshown]
    simp only [outcomeOf_eq_ok, exists_and_left, exists_eq', and_true]

/-! ## The catalog cache -/

/-- Every cached payload is the body of a reply to a fetch of its level that was neither
retried nor refused. -/
def CachesUnrefused (c : SiegeWebClient) (s : ClientState) : Prop :=
  ∀ level ts payload, s.catalogCache level = some (ts, payload) →
    ∃ e ∈ s.exchanges, e.request = c.catalogRequest level ∧
      outcomeOf e.request e.reply = .ok payload

/-- Every cached payload is the body of a 2xx reply to a fetch of its level. -/
def CachesOnlySuccess (c : SiegeWebClient) (s : ClientState) : Prop :=
  ∀ level ts payload, s.catalogCache level = some (ts, payload) →
    ∃ e ∈ s.exchanges, e.request = c.catalogRequest level ∧ Accepted e.reply.status ∧
      e.reply.body = payload

/-- A task remembers the last reply that it got, and may cache what that reply gives. -/
def cacheProtocol (c : SiegeWebClient) :
    Protocol clientEffects ClientMethod (Option (Request × Reply)) where
  rest := none
  start _ := none
  opOk _ last o :=
    match o with
    | .catalogCacheSet level _ payload => ∃ reply, last = some (c.catalogRequest level, reply) ∧
        outcomeOf (c.catalogRequest level) reply = .ok payload
    | _ => True
  gives _ _ _ := True
  afterOp last _ _ := last
  callOk _ _ _ := True
  atCall last _ := last
  afterCall last call answer :=
    match call, answer with
    | .request r, .ok reply => some (r, reply)
    | _, _ => last

/-- What the last replies mean for the client: each was received, and so was each cached
one. -/
structure Remembers {ι : Type} (c : SiegeWebClient) (last : ι → Option (Request × Reply))
    (s : ClientState) : Prop where
  received : ∀ i r reply, last i = some (r, reply) →
    ∃ e ∈ s.exchanges, e.request = r ∧ e.reply = reply
  cached : CachesUnrefused c s

section Follows

variable {c : SiegeWebClient} {x : ClientMethod} {last : Option (Request × Reply)}

/-- One attempt keeps to any protocol that lets it make its request and go on from each
answer. -/
theorem attempt_follows {T : Type} {P : Protocol clientEffects ClientMethod T} {t : T}
    {post : Except ClientFailure JsonValue → T → Prop}
    {rateLimited : Option PyFloat → ClientM (Except ClientFailure JsonValue)}
    (hcall : P.callOk x t (.request r))
    (hraised : ∀ exc, post (.error (.raised exc))
      (P.afterCall t (.request r) (.error exc : Except Raised Reply)))
    (hreceived : ∀ reply, reply.status ≠ 429 →
      post (received reply) (P.afterCall t (.request r) (.ok reply : Except Raised Reply)))
    (hlimited : ∀ reply, reply.status = 429 →
      (rateLimited (parseRetryAfter reply.retryAfter)).Follows P x post
        (P.afterCall t (.request r) (.ok reply : Except Raised Reply))) :
    (attempt r rateLimited).Follows P x post t := by
  refine ⟨hcall, fun answer => ?_⟩
  cases answer with
  | error exc => exact hraised exc
  | ok reply =>
      change (afterReply rateLimited reply).Follows _ _ _ _
      unfold afterReply
      split
      next hstatus => exact hlimited reply hstatus
      next hstatus => exact hreceived reply hstatus

/-- A value of `_call_with_retry` comes from the last reply. -/
theorem attempts_follows (backoffs : List ℚ) :
    (attempts r backoffs).Follows (cacheProtocol c) x
      (fun value last => ∀ payload, value = .ok payload →
        ∃ reply, last = some (r, reply) ∧ outcomeOf r reply = .ok payload) last := by
  induction backoffs generalizing last with
  | nil =>
      apply attempt_follows
      · trivial
      · intro exc payload h
        cases h
      · intro reply hstatus payload h
        exact ⟨reply, rfl, (if_neg hstatus).trans h⟩
      · intro reply _ payload h
        cases h
  | cons backoff backoffs ih =>
      apply attempt_follows
      · trivial
      · intro exc payload h
        cases h
      · intro reply hstatus payload h
        exact ⟨reply, rfl, (if_neg hstatus).trans h⟩
      · intro reply _
        refine ⟨trivial, fun outcome => ?_⟩
        cases outcome with
        | error exc =>
            intro payload h
            cases h
        | ok _ => exact ih

theorem freshPayload_follows (level : Option ℤ) :
    (SiegeWebClient.freshPayload level).Follows (cacheProtocol c) x (fun _ _ => True) last := by
  refine ⟨trivial, fun entry _ => ?_⟩
  cases entry with
  | none => trivial
  | some entry => exact ⟨trivial, fun _ _ => trivial⟩

theorem fetchCatalog_follows (level : Option ℤ) :
    (c.fetchCatalog level).Follows (cacheProtocol c) x (fun _ _ => True) last := by
  refine (attempts_follows retryBackoffSchedule).bind fun value last' hvalue => ?_
  cases value with
  | error failure => trivial
  | ok result => exact ⟨trivial, fun _ _ => ⟨hvalue result rfl, fun _ _ => trivial⟩⟩

theorem lockedCatalog_follows (level : Option ℤ) :
    (c.lockedCatalog level).Follows (cacheProtocol c) x (fun _ _ => True) last := by
  refine (freshPayload_follows level).bind fun fresh last' _ => ?_
  cases fresh with
  | some payload => trivial
  | none => exact fetchCatalog_follows level

theorem listCatalog_follows (level : Option ℤ) :
    (c.listCatalog level).Follows (cacheProtocol c) x (fun _ _ => True) last := by
  refine (freshPayload_follows level).bind fun fresh last' _ => ?_
  cases fresh with
  | some payload => trivial
  | none =>
      refine ⟨trivial, fun outcome => ?_⟩
      cases outcome with
      | error exc => trivial
      | ok _ =>
          refine (lockedCatalog_follows level).bind fun result last'' _ => ?_
          exact ⟨trivial, fun _ _ => trivial⟩

theorem call_follows (m : ClientMethod) :
    (m.call c).Follows (cacheProtocol c) x (fun _ _ => True) last := by
  cases m with
  | listCatalog level => exact listCatalog_follows level
  | getMyPreferences discordId discordUsername =>
      exact (attempts_follows retryBackoffSchedule).mono fun _ _ _ => trivial
  | setMyPreferences discordId discordUsername ids =>
      exact (attempts_follows retryBackoffSchedule).mono fun _ _ _ => trivial

end Follows

section Cache

variable {ι : Type} [DecidableEq ι] {c : SiegeWebClient} {last : ι → Option (Request × Reply)}
  {allowed : Config clientEffects ClientState ι ClientMethod (Except ClientFailure JsonValue) →
    Event clientEffects ClientState ι ClientMethod → Prop}

theorem Remembers.forget (h : Remembers c last s) (i : ι) :
    Remembers c (Function.update last i none) s := by
  refine ⟨fun j r reply hlast => ?_, h.cached⟩
  by_cases hj : j = i
  · subst hj
    simp at hlast
  · rw [Function.update_of_ne hj] at hlast
    exact h.received j r reply hlast

theorem Remembers.congr {s' : ClientState} (h : Remembers c last s) (i : ι)
    (hexchanges : s'.exchanges = s.exchanges) (hcache : s'.catalogCache = s.catalogCache) :
    Remembers c (Function.update last i (last i)) s' := by
  rw [Function.update_eq_self]
  constructor
  · rw [hexchanges]
    exact h.received
  · unfold CachesUnrefused
    rw [hexchanges, hcache]
    exact h.cached

/-- An operation caches at most what the last reply gave. -/
theorem Remembers.exec (h : Remembers c last s) {i : ι} {x : ClientMethod} {o : ClientOp}
    (hok : (cacheProtocol c).opOk x (last i) o) :
    Remembers c (Function.update last i (last i)) (ClientState.exec o s).2 := by
  cases o with
  | catalogCacheGet level => exact h.congr i rfl rfl
  | monotonic => exact h.congr i rfl rfl
  | releaseLock => exact h.congr i rfl rfl
  | catalogCacheSet level ts payload =>
      rw [Function.update_eq_self]
      refine ⟨h.received, fun level' ts' payload' hcached => ?_⟩
      simp only [ClientState.exec, Function.update_apply] at hcached
      split at hcached
      next hlevel =>
        cases hcached
        obtain ⟨reply, hlast, houtcome⟩ := hok
        obtain ⟨e, he, hrequest, rfl⟩ := h.received i _ _ hlast
        exact ⟨e, he, by rw [hrequest, hlevel], by rw [hrequest]; exact houtcome⟩
      next => exact h.cached level' ts' payload' hcached

/-- An answer is recorded when it is a reply. -/
theorem Remembers.complete (h : Remembers c last s) (i : ι) (call : ClientCall)
    (answer : call.Ans) :
    Remembers c (Function.update last i ((cacheProtocol c).afterCall (last i) call answer))
      (ClientState.complete call answer s) := by
  cases call with
  | acquireLock => cases answer <;> exact h.congr i rfl rfl
  | sleep seconds => exact h.congr i rfl rfl
  | respond response => exact h.congr i rfl rfl
  | request r =>
      cases answer with
      | error exc => exact h.congr i rfl rfl
      | ok reply =>
          refine ⟨fun j r' reply' hlast => ?_, fun level ts payload hcached => ?_⟩
          · by_cases hj : j = i
            · subst hj
              rw [Function.update_self] at hlast
              cases hlast
              exact ⟨_, List.mem_cons_self, rfl, rfl⟩
            · rw [Function.update_of_ne hj] at hlast
              obtain ⟨e, he, hresult⟩ := h.received j r' reply' hlast
              exact ⟨e, List.mem_cons_of_mem _ he, hresult⟩
          · obtain ⟨e, he, hresult⟩ := h.cached level ts payload hcached
            exact ⟨e, List.mem_cons_of_mem _ he, hresult⟩

theorem cacheProtocol_sound (c : SiegeWebClient) :
    (cacheProtocol c).Sound (fun _ _ => True) (Remembers (ι := ι) c) (clientTasks c) allowed where
  program x := call_follows x
  spawn hgoverns _ _ _ := hgoverns.holds.forget _
  op hgoverns _ _ hok := ⟨trivial, hgoverns.holds.exec hok⟩
  issue hgoverns _ _ _ := hgoverns.holds.congr _ rfl rfl
  answer {mode config i x call next before reply} hgoverns _ _ hmode _ := by
    obtain rfl : mode i = before := hmode
    exact hgoverns.holds.complete i call (reply call)
  finish hgoverns _ _ _ := hgoverns.holds.forget _
  outside hgoverns _ hworld := by
    obtain ⟨now, -, rfl⟩ := hworld
    exact ⟨hgoverns.holds.received, hgoverns.holds.cached⟩

/-- **Run lemma.**  Nothing refused is ever cached. -/
theorem cachesUnrefused {now : ℚ} {config : Config clientEffects ClientState ι ClientMethod
    (Except ClientFailure JsonValue)}
    (h : (clientTasks c).Reachable allowed (.init now) config) :
    CachesUnrefused c config.shared := by
  have hstart : Remembers c (fun _ : ι => none) (.init now) :=
    ⟨by simp, by simp [CachesUnrefused, ClientState.init]⟩
  obtain ⟨mode, hgoverns⟩ := Protocol.governed (cacheProtocol_sound c) hstart h
  exact hgoverns.holds.cached

end Cache

/-! ## The client as a whole -/

/-- A call returns a value only on success iff the status of its final reply is handled,
and Save is truthful under the same condition.  A run in which every reply is handled
caches only successes. -/
theorem client_success_iff_handled (c : SiegeWebClient) :
    (∀ (r : Request) (s : ClientState) trace value s',
      (callWithRetry r).Runs clientMachine s trace value s' → Replied trace →
      ∃ final, finalReply trace = some final ∧
        (ReturnsOnlyOnSuccess final value ↔ Handled final.status)) ∧
    (∀ (view : PostConditionsGridView) (s : ClientState) trace result s',
      (view.save c).Runs clientMachine s trace result s' → Replied trace →
      ∃ final, finalReply trace = some final ∧
        ((SavedShown trace → Accepted final.status) ↔ Handled final.status)) ∧
    ∀ (now : ℚ) (config : Config clientEffects ClientState ℕ ClientMethod
        (Except ClientFailure JsonValue)),
      (clientTasks c).Reachable (fun config event => lockGranted config event = true) (.init now)
        config →
      (∀ e ∈ config.shared.exchanges, Handled e.reply.status) →
      CachesOnlySuccess c config.shared := by
  refine ⟨?_, ?_, ?_⟩
  · intro r s trace value s' h hreplied
    obtain ⟨final, hfinal, rfl⟩ := callWithRetry_outcome h hreplied
    exact ⟨final, hfinal, returnsOnlyOnSuccess_iff⟩
  · intro view s trace result s' h hreplied
    obtain ⟨final, hfinal, hshown⟩ := save_outcome h hreplied
    refine ⟨final, hfinal, ?_⟩
    by_cases hknown : final.status = 401 ∨ final.status = 404 ∨ final.status = 422 ∨
        final.status = 429
    · exact iff_of_true (fun h => absurd hknown (hshown.mp h)) (.inr hknown)
    · rw [← accepted_iff_handled hknown]
      exact ⟨fun h => h (hshown.mpr hknown), fun h _ => h⟩
  · intro now config h hhandled level ts payload hcached
    obtain ⟨e, he, hrequest, houtcome⟩ := cachesUnrefused h level ts payload hcached
    obtain ⟨hunknown, hbody⟩ := outcomeOf_eq_ok.mp houtcome
    exact ⟨e, he, hrequest, (accepted_iff_handled hunknown).mpr (hhandled e he), hbody⟩

/-! ## A server error -/

/-- A client of a deployment. -/
def exampleClient : SiegeWebClient := .create "https://rslsiege.com/" "token"

/-- The editor of a user with one saved preference. -/
def exampleView : PostConditionsGridView :=
  .create [⟨1, "role", "Only HP Champions can be used."⟩] [1] "42" "ann"

/-- The PUT of `exampleView`. -/
def exampleRequest : Request := exampleClient.setPreferencesRequest "42" "ann" [1]

/-- The PUT is accepted. -/
def accepted : Reply := ⟨200, none, .arr []⟩

/-- The server fails. -/
def serverError : Reply := ⟨500, none, .str "Internal Server Error"⟩

theorem runs_attempt_of_reply (r : Request) (s : ClientState) {reply : Reply}
    (hreply : reply.status ≠ 429)
    (rateLimited : Option PyFloat → ClientM (Except ClientFailure JsonValue)) :
    (attempt r rateLimited).Runs clientMachine s [⟨.request r, .ok reply⟩] (received reply)
      (ClientState.complete (.request r) (.ok reply) s) := by
  refine ⟨.ok reply, [], rfl, ?_⟩
  change (afterReply rateLimited reply).Runs _ _ _ _ _
  rw [afterReply, if_neg hreply]
  exact ⟨rfl, rfl, rfl⟩

/-- A call whose first reply is not a 429. -/
theorem runs_of_reply (r : Request) (s : ClientState) {reply : Reply}
    (hreply : reply.status ≠ 429) :
    (callWithRetry r).Runs clientMachine s [⟨.request r, .ok reply⟩] (received reply)
      (ClientState.complete (.request r) (.ok reply) s) :=
  runs_attempt_of_reply r s hreply _

theorem replied_of_reply (r : Request) (reply : Reply) : Replied [⟨.request r, .ok reply⟩] := by
  intro exchange hmem
  obtain rfl := List.mem_singleton.mp hmem
  exact ⟨reply, rfl⟩

/-- A Save whose PUT is answered by `reply`. -/
def savedTrace (reply : Reply) : List (Exchange clientEffects) :=
  [⟨.request exampleRequest, .ok reply⟩,
    ⟨.respond (.editMessage "Preferences saved" false), (.ok () : Outcome)⟩]

theorem runs_save_of_reply {reply : Reply} (hreply : reply.status ≠ 429)
    (hreceived : received reply = .ok reply.body) :
    ∃ result s', (exampleView.save exampleClient).Runs clientMachine (.init 0) (savedTrace reply)
      result s' := by
  have hput := runs_of_reply exampleRequest (.init 0) hreply
  rw [hreceived] at hput
  exact ⟨_, _, Coroutine.runs_bind.mpr ⟨_, _, _, _, rfl, hput, (.ok () : Outcome), [], rfl, rfl,
    rfl, rfl⟩⟩

theorem replied_savedTrace (reply : Reply) : Replied (savedTrace reply) := by
  intro exchange hmem
  rcases List.mem_cons.mp hmem with rfl | hmem
  · exact ⟨reply, rfl⟩
  · obtain rfl := List.mem_singleton.mp hmem
    trivial

theorem savedShown_savedTrace (reply : Reply) : SavedShown (savedTrace reply) :=
  ⟨_, List.mem_cons_of_mem _ List.mem_cons_self, rfl⟩

/-- Every call is answered, each request by `reply`. -/
def answering (reply : Reply) : (call : ClientCall) → call.Ans
  | .acquireLock | .sleep _ | .respond _ => (.ok () : Outcome)
  | .request _ => (.ok reply : Except Raised Reply)

/-- One `list_catalog`, up to the filling of the cache. -/
def catalogSchedule (reply : Reply) : List (Event clientEffects ClientState ℕ ClientMethod) :=
  [.spawn 0 (.listCatalog none), .op 0, .issue 0, .answer 0 (answering reply), .op 0, .issue 0,
    .answer 0 (answering reply), .op 0, .op 0]

/-- A call, a Save and a `list_catalog` that are all answered 200. -/
theorem client_success_accepted :
    ReturnsOnlyOnSuccess accepted (.ok accepted.body) ∧ Accepted accepted.status ∧
    ∃ config, (clientTasks exampleClient).Reachable (ι := ℕ)
      (fun config event => lockGranted config event = true) (.init 0) config ∧
      (config.shared.catalogCache none).isSome = true ∧
      CachesOnlySuccess exampleClient config.shared := by
  have hsuccess := client_success_iff_handled exampleClient
  have haccepted : accepted.status ≠ 429 := by
    decide
  refine ⟨?_, ?_, ?_⟩
  · obtain ⟨final, hfinal, hiff⟩ := hsuccess.1 exampleRequest (.init 0) _ _ _
      (runs_of_reply exampleRequest (.init 0) haccepted) (replied_of_reply _ _)
    obtain rfl : accepted = final := Option.some.inj hfinal
    exact hiff.mpr (by decide)
  · obtain ⟨result, s', hsave⟩ := runs_save_of_reply haccepted rfl
    obtain ⟨final, hfinal, hiff⟩ := hsuccess.2.1 exampleView (.init 0) _ _ _ hsave
      (replied_savedTrace _)
    obtain rfl : accepted = final := Option.some.inj hfinal
    exact hiff.mpr (by decide) (savedShown_savedTrace _)
  · have hrun : ((clientTasks exampleClient).runIf lockGranted (.start (.init 0))
        (catalogSchedule accepted)).map (fun config =>
          ((config.shared.catalogCache none).isSome,
            config.shared.exchanges.map fun e => e.reply.status)) = some (true, [200]) := by
      decide +kernel
    obtain ⟨config, hrun, hcached⟩ := Option.map_eq_some_iff.mp hrun
    obtain ⟨hsome, hall⟩ := Prod.mk.inj hcached
    have hreachable := Concurrent.Reachable.start.runIf (fun _ _ h => h) rfl hrun
    refine ⟨config, hreachable, hsome, hsuccess.2.2 0 config hreachable fun e he => ?_⟩
    have hstatus := List.mem_map_of_mem (f := fun e => e.reply.status) he
    rw [hall] at hstatus
    rw [List.mem_singleton.mp hstatus]
    decide

theorem serverError_ne : serverError.status ≠ 429 := by
  decide

/-- A server error is returned, shown as a success and cached. -/
theorem serverError_taken_for_success :
    (∃ trace value s', (callWithRetry exampleRequest).Runs clientMachine (.init 0) trace value s' ∧
      Replied trace ∧ finalReply trace = some serverError ∧
      ¬ ReturnsOnlyOnSuccess serverError value) ∧
    (∃ trace result s', (exampleView.save exampleClient).Runs clientMachine (.init 0) trace
      result s' ∧ Replied trace ∧ finalReply trace = some serverError ∧ SavedShown trace ∧
      ¬ Accepted serverError.status) ∧
    ∃ config, (clientTasks exampleClient).Reachable (ι := ℕ)
      (fun config event => lockGranted config event = true) (.init 0) config ∧
      ¬ CachesOnlySuccess exampleClient config.shared := by
  have hput := runs_of_reply exampleRequest (.init 0) serverError_ne
  have hunaccepted : ¬ Accepted serverError.status := by
    decide
  refine ⟨⟨_, _, _, hput, replied_of_reply _ _, rfl, fun h => ?_⟩, ?_, ?_⟩
  · exact hunaccepted (h.1 serverError.body rfl)
  · obtain ⟨result, s', hsave⟩ := runs_save_of_reply serverError_ne rfl
    exact ⟨_, _, _, hsave, replied_savedTrace _, rfl, savedShown_savedTrace _, hunaccepted⟩
  · have hrun : ((clientTasks exampleClient).runIf lockGranted (.start (.init 0))
        (catalogSchedule serverError)).map (fun config =>
          (config.shared.catalogCache none).isSome &&
            config.shared.exchanges.all fun e => e.reply.status = 500) = some true := by
      decide +kernel
    obtain ⟨config, hrun, hcached⟩ := Option.map_eq_some_iff.mp hrun
    obtain ⟨hsome, hall⟩ := (Bool.and_eq_true _ _).mp hcached
    refine ⟨config, Concurrent.Reachable.start.runIf (fun _ _ h => h) rfl hrun, fun hsuccess => ?_⟩
    obtain ⟨⟨ts, payload⟩, hentry⟩ := Option.isSome_iff_exists.mp hsome
    obtain ⟨e, he, -, haccepted, -⟩ := hsuccess none ts payload hentry
    have hstatus : e.reply.status = 500 := by simpa using List.all_eq_true.mp hall e he
    rw [hstatus] at haccepted
    exact absurd haccepted (by decide)

end MomBot.PostConditions
