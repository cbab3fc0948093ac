import MomBot.Cooperative.Keeping
import MomBot.PostConditions.Commands
import MomBot.PostConditions.Success

/-!
# What the commands ask and show

A `PostStage` is what one task has found out: the replies it got, the catalogs it found in the
cache, the view it has opened, and the view as Save has read it before and after the PUT.  The
programs keep to a protocol over these stages: a request carries what the task was started with or
what Save has read, and what is shown is made of a payload that the task has.
-/

namespace MomBot.PostConditions

open Cooperative Coroutine Python

/-! ## Stages -/

/-- What a task has seen of the client and of its view. -/
structure PostStage where
  /-- The replies with their requests, the newest first. -/
  seen : List (Request × Reply)
  /-- The catalogs that were found in the cache. -/
  cached : List JsonValue
  opened : Option (ℕ × PostConditionsGridView)
  /-- The view as Save has read it before the PUT. -/
  reading : Option (ℕ × PostConditionsGridView)
  /-- The view as Save has read it after the PUT. -/
  rereading : Option (ℕ × PostConditionsGridView)

namespace PostStage

/-- Nothing was seen yet. -/
def fresh : PostStage := ⟨[], [], none, none, none⟩

/-- One of the replies to the request was neither a 429 nor refused, and gave the payload. -/
def Got (t : PostStage) (r : Request) (payload : JsonValue) : Prop :=
  ∃ reply, (r, reply) ∈ t.seen ∧ outcomeOf r reply = .ok payload

/-- The payload is the catalog, from the cache or from a reply. -/
def HasCatalog (c : SiegeWebClient) (t : PostStage) (payload : JsonValue) : Prop :=
  payload ∈ t.cached ∨ t.Got (c.catalogRequest none) payload

/-- A catalog was found in the cache. -/
def afterClientOp (t : PostStage) : (o : ClientOp) → o.Res → PostStage
  | .catalogCacheGet _, some (_, payload) => { t with cached := payload :: t.cached }
  | _, _ => t

/-- A reply came in. -/
def afterClientCall (t : PostStage) : (call : ClientCall) → call.Ans → PostStage
  | .request r, .ok reply => { t with seen := (r, reply) :: t.seen }
  | _, _ => t

/-- What Save reads the second time is the view after the PUT. -/
def read (t : PostStage) (n : ℕ) (view : PostConditionsGridView) : PostStage :=
  match t.reading with
  | none => { t with reading := some (n, view), rereading := none }
  | some _ => { t with rereading := some (n, view) }

/-- The client has answered, or a view was opened or read. -/
def afterOp (t : PostStage) : (o : PostOp) → o.Res → PostStage
  | .client o, r => t.afterClientOp o r
  | .openView view, n => { t with opened := some (n, view) }
  | .readView n, some view => t.read n view
  | _, _ => t

/-- Only the answers to the client matter. -/
def afterCall (t : PostStage) : (call : PostCall) → call.Ans → PostStage
  | .client call, answer => t.afterClientCall call answer
  | _, _ => t

end PostStage

/-! ## The client -/

/-- Only the catalog of no level is asked for, and it is cached as it came. -/
def MayCache (c : SiegeWebClient) (t : PostStage) : ClientOp → Prop
  | .catalogCacheGet level => level = none
  | .catalogCacheSet level _ payload => level = none ∧ t.Got (c.catalogRequest none) payload
  | .monotonic | .releaseLock => True

/-- The one request of a method. -/
def ClientMethod.request (c : SiegeWebClient) : ClientMethod → Request
  | .listCatalog level => c.catalogRequest level
  | .getMyPreferences discordId discordUsername => c.getPreferencesRequest discordId discordUsername
  | .setMyPreferences discordId discordUsername ids =>
      c.setPreferencesRequest discordId discordUsername ids

/-- A method makes its own request; what Save has read stays as it is. -/
def methodProtocol (c : SiegeWebClient) (reading : Option (ℕ × PostConditionsGridView)) :
    Protocol clientEffects ClientMethod PostStage where
  rest := .fresh
  start _ := .fresh
  opOk _ := MayCache c
  gives _ _ _ := True
  afterOp := PostStage.afterClientOp
  callOk m t
    | .request r => r = m.request c ∧ t.reading = reading
    | .respond _ => False
    | .acquireLock | .sleep _ => True
  atCall t _ := t
  afterCall := PostStage.afterClientCall

/-- What a method came to with the replies `new` and the catalogs `found`. -/
structure Fetches (r : Request) (new : List (Request × Reply)) (found : List JsonValue)
    (value : Except ClientFailure JsonValue) : Prop where
  ok : ∀ payload, value = .ok payload →
    payload ∈ found ∨ ∃ reply, (r, reply) ∈ new ∧ outcomeOf r reply = .ok payload
  notFound : value = .error (.siegeWeb .notFound) → ∃ reply, (r, reply) ∈ new ∧ reply.status = 404

/-- The stage after the attempts of a request. -/
def Answered (r : Request) (t : PostStage) (value : Except ClientFailure JsonValue)
    (t' : PostStage) : Prop :=
  ∃ new, t' = { t with seen := new ++ t.seen } ∧ Fetches r new [] value

/-- The stage after a method. -/
def FetchedFrom (r : Request) (t : PostStage) (value : Except ClientFailure JsonValue)
    (t' : PostStage) : Prop :=
  ∃ new found, t' = { t with seen := new ++ t.seen, cached := found ++ t.cached } ∧
    Fetches r new found value

section Client

variable {c : SiegeWebClient} {reading : Option (ℕ × PostConditionsGridView)} {m : ClientMethod}
  {r : Request} {reply : Reply} {t t' : PostStage} {new : List (Request × Reply)}
  {found more : List JsonValue} {value : Except ClientFailure JsonValue} {failure : ClientFailure}

theorem Fetches.failed (h : failure ≠ .siegeWeb .notFound) :
    Fetches r [] found (.error failure) where
  ok _ h := by cases h
  notFound heq := absurd (Except.error.inj heq) h

/-- A reply that is not a 429. -/
theorem Fetches.received (hstatus : reply.status ≠ 429) :
    Fetches r [(r, reply)] found (received reply) where
  ok payload h := .inr ⟨reply, List.mem_singleton_self _, (if_neg hstatus).trans h⟩
  notFound h := by
    refine ⟨reply, List.mem_singleton_self _, ?_⟩
    by_contra hne
    -- the other refused statuses have errors of their own
    unfold PostConditions.received raiseForStatus at h
    rw [if_neg hne] at h
    split at h
    next error herror =>
      obtain rfl : error = .notFound := by simpa using h
      repeat' split at herror
      all_goals cases herror
    next => cases h

/-- A 429 before the rest. -/
theorem Fetches.limited (h : Fetches r new found value) (reply : Reply) :
    Fetches r (new ++ [(r, reply)]) found value where
  ok payload hok := by
    rcases h.ok payload hok with hfound | ⟨other, hmem, hother⟩
    · exact .inl hfound
    · exact .inr ⟨other, List.mem_append_left _ hmem, hother⟩
  notFound hvalue := by
    obtain ⟨other, hmem, hother⟩ := h.notFound hvalue
    exact ⟨other, List.mem_append_left _ hmem, hother⟩

theorem Fetches.alsoFound (h : Fetches r new found value) (more : List JsonValue) :
    Fetches r new (found ++ more) value where
  ok payload hok := (h.ok payload hok).imp_left (List.mem_append_left more)
  notFound := h.notFound

theorem FetchedFrom.failed (h : failure ≠ .siegeWeb .notFound) :
    FetchedFrom r t (.error failure) t :=
  ⟨[], [], rfl, .failed h⟩

/-- A payload from the cache. -/
theorem FetchedFrom.cachedPayload {payload : JsonValue} (h : payload ∈ found) :
    FetchedFrom r t (.ok payload) { t with cached := found ++ t.cached } :=
  ⟨[], found, rfl, {
    ok := fun other hother => .inl (Except.ok.inj hother ▸ h)
    notFound := fun hvalue => by cases hvalue }⟩

theorem Answered.failed (h : failure ≠ .siegeWeb .notFound) : Answered r t (.error failure) t :=
  ⟨[], rfl, .failed h⟩

theorem Answered.limited (h : Answered r { t with seen := (r, reply) :: t.seen } value t') :
    Answered r t value t' := by
  obtain ⟨new, rfl, h⟩ := h
  exact ⟨new ++ [(r, reply)], by rw [List.append_cons], h.limited reply⟩

theorem Answered.fetchedFrom (h : Answered r t value t') : FetchedFrom r t value t' := by
  obtain ⟨new, rfl, h⟩ := h
  exact ⟨new, [], rfl, h⟩

theorem FetchedFrom.alsoFound (h : FetchedFrom r { t with cached := more ++ t.cached } value t') :
    FetchedFrom r t value t' := by
  obtain ⟨new, found, rfl, h⟩ := h
  exact ⟨new, found ++ more, by rw [List.append_assoc], h.alsoFound more⟩

theorem attempts_fetch (hr : r = m.request c) (backoffs : List ℚ) (ht : t.reading = reading) :
    (attempts r backoffs).Follows (methodProtocol c reading) m (Answered r t) t := by
  have hraised : ∀ exc, ClientFailure.raised exc ≠ .siegeWeb .notFound := fun exc h => by cases h
  have hreceived : ∀ reply : Reply, reply.status ≠ 429 →
      Answered r t (received reply) { t with seen := (r, reply) :: t.seen } :=
    fun reply hstatus => ⟨[(r, reply)], rfl, .received hstatus⟩
  induction backoffs generalizing t with
  | nil =>
      apply attempt_follows
      · exact ⟨hr, ht⟩
      · exact fun exc => .failed (hraised exc)
      · exact hreceived
      · exact fun reply _ => .limited (.failed fun h => by cases h)
  | cons backoff backoffs ih =>
      apply attempt_follows
      · exact ⟨hr, ht⟩
      · exact fun exc => .failed (hraised exc)
      · exact hreceived
      · intro reply _
        refine ⟨trivial, fun outcome => ?_⟩
        cases outcome with
        | error exc => exact .limited (.failed (hraised exc))
        | ok _ =>
            have hrest := ih (t := { t with seen := (r, reply) :: t.seen }) ht
              fun reply hstatus => ⟨[(r, reply)], rfl, .received hstatus⟩
            exact hrest.mono fun _ _ h => h.limited

theorem getMyPreferences_fetch (discordId discordUsername : String) (ht : t.reading = reading) :
    (c.getMyPreferences discordId discordUsername).Follows (methodProtocol c reading)
      (.getMyPreferences discordId discordUsername)
      (Answered (c.getPreferencesRequest discordId discordUsername) t) t :=
  attempts_fetch rfl retryBackoffSchedule ht

theorem setMyPreferences_fetch (discordId discordUsername : String) (ids : List ℤ)
    (ht : t.reading = reading) :
    (c.setMyPreferences discordId discordUsername ids).Follows (methodProtocol c reading)
      (.setMyPreferences discordId discordUsername ids)
      (Answered (c.setPreferencesRequest discordId discordUsername ids) t) t :=
  attempts_fetch rfl retryBackoffSchedule ht

/-- A payload that is young enough was found in the cache. -/
theorem freshPayload_fetch :
    (SiegeWebClient.freshPayload none).Follows (methodProtocol c reading) m
      (fun fresh t' => ∃ found, t' = { t with cached := found ++ t.cached } ∧
        ∀ payload, fresh = some payload → payload ∈ found) t := by
  refine ⟨rfl, fun entry _ => ?_⟩
  match entry with
  | none => exact ⟨[], rfl, fun _ h => by cases h⟩
  | some (ts, payload) =>
      refine ⟨trivial, fun (now : ℚ) _ => ⟨[payload], rfl, fun other h => ?_⟩⟩
      change (if now - ts < catalogCacheTtl then some payload else none) = some other at h
      split at h
      next =>
        obtain rfl := Option.some.inj h
        exact List.mem_singleton_self _
      next => cases h

theorem fetchCatalog_fetch (ht : t.reading = reading) :
    (c.fetchCatalog none).Follows (methodProtocol c reading) (.listCatalog none)
      (FetchedFrom (c.catalogRequest none) t) t := by
  refine (attempts_fetch rfl retryBackoffSchedule ht).bind fun value t' hvalue => ?_
  cases value with
  | error failure => exact hvalue.fetchedFrom
  | ok result =>
      refine ⟨trivial, fun _ _ => ⟨⟨rfl, ?_⟩, fun _ _ => hvalue.fetchedFrom⟩⟩
      obtain ⟨new, rfl, hfetches⟩ := hvalue
      obtain ⟨reply, hmem, houtcome⟩ := (hfetches.ok result rfl).resolve_left List.not_mem_nil
      exact ⟨reply, List.mem_append_left _ hmem, houtcome⟩

theorem lockedCatalog_fetch (ht : t.reading = reading) :
    (c.lockedCatalog none).Follows (methodProtocol c reading) (.listCatalog none)
      (FetchedFrom (c.catalogRequest none) t) t := by
  refine freshPayload_fetch.bind fun fresh t' hfresh => ?_
  obtain ⟨found, rfl, hfound⟩ := hfresh
  cases fresh with
  | some payload => exact .cachedPayload (hfound payload rfl)
  | none =>
      exact (fetchCatalog_fetch (t := { t with cached := found ++ t.cached }) ht).mono
        fun _ _ h => h.alsoFound

theorem listCatalog_fetch (ht : t.reading = reading) :
    (c.listCatalog none).Follows (methodProtocol c reading) (.listCatalog none)
      (FetchedFrom (c.catalogRequest none) t) t := by
  refine freshPayload_fetch.bind fun fresh t' hfresh => ?_
  obtain ⟨found, rfl, hfound⟩ := hfresh
  cases fresh with
  | some payload => exact .cachedPayload (hfound payload rfl)
  | none =>
      refine ⟨trivial, fun outcome => ?_⟩
      cases outcome with
      | error exc => exact .alsoFound (.failed fun h => by cases h)
      | ok _ =>
          show (c.lockedCatalog none >>= fun result => releaseLock >>= fun _ => pure result).Follows
            _ _ _ { t with cached := found ++ t.cached }
          have hlocked := lockedCatalog_fetch (c := c)
            (t := { t with cached := found ++ t.cached }) ht
          refine hlocked.bind fun result t' hresult => ?_
          exact ⟨trivial, fun _ _ => hresult.alsoFound⟩

end Client

/-! ## What a task may ask and show -/

/-- The requests of a task, each for its own user or from the view that it has read. -/
def MaySend (c : SiegeWebClient) : PostTask → PostStage → Request → Prop
  | .catalog, _, r => r = c.catalogRequest none
  | .get user, _, r => r = c.getPreferencesRequest user.discordId user.name
  | .set user, _, r =>
      r = c.catalogRequest none ∨ r = c.getPreferencesRequest user.discordId user.name
  | .save n, t, r => ∃ view, t.reading = some (n, view) ∧
      r = c.setPreferencesRequest view.discordId view.discordUsername view.selectedIds
  | .click _ _, _, _ | .cancel, _, _ => False

/-- The view of an editor is made of the two payloads. -/
def Opens (payloads : Payloads) (user : User) (catalogPayload prefsPayload : JsonValue)
    (view : PostConditionsGridView) : Prop :=
  ∃ catalog prefs, payloads.conditions catalogPayload = .ok catalog ∧
    payloads.conditions prefsPayload = .ok prefs ∧
    view = .create catalog (prefs.map Condition.id) user.discordId user.name

/-- What a payload is shown as; `otherwise` is for one that is empty. -/
def ShownAs (payloads : Payloads) (title otherwise : String) (payload : JsonValue)
    (shown : Shown) : Prop :=
  if payloads.isEmpty payload then shown = .text otherwise
  else ∃ conditions, payloads.conditions payload = .ok conditions ∧
    shown = .embed (listingEmbed title conditions)

variable (payloads : Payloads) (c : SiegeWebClient)

/-- The text of a handler; an account is said to be unknown only after a 404. -/
def Refused (x : PostTask) (t : PostStage) (shown : Shown) : Prop :=
  shown = .text opsErrorMsg ∨ shown = .text notRegisteredMsg ∧
    ∃ r reply, MaySend c x t r ∧ (r, reply) ∈ t.seen ∧ reply.status = 404

/-- What a command may send. -/
def MayFollowUp : PostTask → PostStage → Shown → Prop
  | .catalog, t, shown => shown = .text opsErrorMsg ∨
      ∃ payload, t.HasCatalog c payload ∧
        ShownAs payloads "Post-condition catalog" noConditionsMsg payload shown
  | .get user, t, shown => Refused c (.get user) t shown ∨
      ∃ payload, t.Got (c.getPreferencesRequest user.discordId user.name) payload ∧
        ShownAs payloads "Your post-condition preferences" noPreferencesMsg payload shown
  | .set user, t, shown => Refused c (.set user) t shown ∨
      ∃ n view components catalogPayload prefsPayload, t.opened = some (n, view) ∧
        t.HasCatalog c catalogPayload ∧
        t.Got (c.getPreferencesRequest user.discordId user.name) prefsPayload ∧
        Opens payloads user catalogPayload prefsPayload view ∧
        view.buildComponents = .ok components ∧
        shown = .editor n view.buildEmbedForCurrentPage components
  | .click _ _, _, _ | .save _, _, _ | .cancel, _, _ => False

/-- What the callback of a button may show. -/
def MayEdit : PostTask → PostStage → Shown → Prop
  | .click n _, _, shown => ∃ embed components, shown = .editor n embed components
  | .save n, t, shown => ∃ before view payload, t.reading = some (n, before) ∧
      t.rereading = some (n, view) ∧
      t.Got (c.setPreferencesRequest before.discordId before.discordUsername before.selectedIds)
        payload ∧ shown = .embed view.savedEmbed
  | .cancel, _, shown => shown = .text cancelledMsg
  | _, _, _ => False

/-- A view is opened from the payloads, and each button is about its own view. -/
def MayAsk : PostTask → PostStage → PostOp → Prop
  | _, t, .client o => MayCache c t o
  | .set user, t, .openView view => ∃ catalogPayload prefsPayload, t.HasCatalog c catalogPayload ∧
      t.Got (c.getPreferencesRequest user.discordId user.name) prefsPayload ∧
      Opens payloads user catalogPayload prefsPayload view
  | .save n, _, .readView m => m = n
  | .click n click, _, .changeView m other => m = n ∧ other = click
  | _, _, _ => False

/-- What a task may send to siege-web and to Discord. -/
def MayAwait : PostTask → PostStage → PostCall → Prop
  | x, t, .client (.request r) => MaySend c x t r
  | _, _, .client (.acquireLock) | _, _, .client (.sleep _) => True
  | x, t, .followupSend shown => MayFollowUp payloads c x t shown
  | x, t, .editMessage shown => MayEdit c x t shown
  | .save _, _, .sendMessage content => content = notSavedMsg
  | _, _, .defer => True
  | _, _, _ => False

/-- The commands and the buttons send and show what they have read. -/
def posting : Protocol postEffects PostTask PostStage where
  rest := .fresh
  start _ := .fresh
  opOk := MayAsk payloads c
  gives _ _ _ := True
  afterOp := PostStage.afterOp
  callOk := MayAwait payloads c
  atCall t _ := t
  afterCall := PostStage.afterCall

/-! ## The programs keep to it -/

section Follows

variable {payloads : Payloads} {c : SiegeWebClient} {x : PostTask} {user : User} {n : ℕ} {α : Type}
  {t : PostStage}

/-- Nothing is asked of the end. -/
abbrev Ends (_ : α) (_ : PostStage) : Prop := True

theorem calling_follows (payloads : Payloads) {p : ClientM (Except ClientFailure α)}
    {m : ClientMethod} {post : Except ClientFailure α → PostStage → Prop}
    (hp : p.Follows (methodProtocol c t.reading) m post t)
    (hm : ∀ t' : PostStage, t'.reading = t.reading → MaySend c x t' (m.request c)) :
    (calling p).run.Follows (posting payloads c) x
      (fun result t' => ∃ value, result = raising value ∧ post value t') t := by
  have hembed : (p.embed clients).Follows (posting payloads c) x post t := by
    refine hp.embed (fun _ o h => ?_) (fun _ _ _ h => h) (fun _ _ _ => rfl) (fun _ call h => ?_)
      fun _ _ _ => rfl
    · cases x <;> exact h
    · cases call with
      | request r =>
          obtain ⟨rfl, hreading⟩ := h
          cases x <;> exact hm _ hreading
      | acquireLock | sleep seconds => cases x <;> trivial
      | respond response => cases h
  exact hembed.bind fun value t' hvalue => ⟨value, rfl, hvalue⟩

theorem followupSend_follows {shown : Shown} {post : Except PostError Unit → PostStage → Prop}
    (hshown : MayFollowUp payloads c x t shown) (hpost : ∀ result, post result t) :
    (followupSend shown).run.Follows (posting payloads c) x post t := by
  refine ⟨?_, fun outcome => hpost _⟩
  cases x <;> exact hshown

theorem defer_follows : defer.run.Follows (posting payloads c) x (fun _ t' => t' = t) t := by
  refine ⟨?_, fun _ => rfl⟩
  cases x <;> trivial

/-- A `try` around requests: a value, or a text that may be shown. -/
theorem fetching_follows {fetch : PostM α} {message : PostError → String}
    {post : Except PostError α → PostStage → Prop}
    (hfetch : fetch.run.Follows (posting payloads c) x post t)
    (hmessage : ∀ error t', post (.error error) t' →
      MayFollowUp payloads c x t' (.text (message error))) :
    (fetching fetch message).run.Follows (posting payloads c) x
      (fun result t' => ∀ value, result = .ok (some value) → post (.ok value) t') t := by
  have hbody : (do
      let value ← fetch
      return some value : PostM (Option α)).run.Follows (posting payloads c) x
        (fun result t' => (∀ value, result = .ok (some value) → post (.ok value) t') ∧
          ∀ error, result = .error error → post (.error error) t') t := by
    refine hfetch.bind_raising (fun value t' h => follows_pure ⟨?_, ?_⟩) fun error t' h => ⟨?_, ?_⟩
    · intro other hother
      obtain rfl : value = other := by simpa using hother
      exact h
    · intro error herror
      cases herror
    · intro value hvalue
      cases hvalue
    · intro other hother
      obtain rfl := Except.error.inj hother
      exact h
  refine hbody.catching (fun _ _ h => h.1) (fun error t' h => ?_) fun _ _ h => h.1
  have hsend : (followupSend (.text (message error))).run.Follows (posting payloads c) x
      (Ends (α := Except PostError Unit)) t' :=
    followupSend_follows (hmessage error t' (h.2 error rfl)) fun _ => trivial
  refine hsend.bind_raising (fun _ _ _ => follows_pure fun value hvalue => ?_) fun _ _ _ => ?_
  · cases hvalue
  · intro value hvalue
    cases hvalue

theorem read_follows (payload : JsonValue) :
    (payloads.read payload).run.Follows (posting payloads c) x
      (fun result t' => t' = t ∧ ∀ conditions, result = .ok conditions →
        payloads.conditions payload = .ok conditions) t := by
  refine ⟨rfl, fun conditions h => ?_⟩
  cases hread : payloads.conditions payload with
  | error exc =>
      rw [hread] at h
      cases h
  | ok found =>
      rw [hread] at h
      rw [Except.ok.inj h]

/-- A payload is shown, or is none that can be read. -/
theorem shown_follows {title otherwise : String} {payload : JsonValue}
    (hshown : ∀ shown, ShownAs payloads title otherwise payload shown →
      MayFollowUp payloads c x t shown) :
    (if payloads.isEmpty payload then followupSend (.text otherwise)
      else do
        let conditions ← payloads.read payload
        followupSend (.embed (listingEmbed title conditions)) : PostM Unit).run.Follows
      (posting payloads c) x (Ends (α := Except PostError Unit)) t := by
  split
  next hempty =>
    exact followupSend_follows (hshown _ (by rw [ShownAs, if_pos hempty])) fun _ => trivial
  next hfull =>
    refine (read_follows payload).bind_raising (fun conditions t' h => ?_) fun _ _ _ => trivial
    obtain ⟨rfl, hread⟩ := h
    refine followupSend_follows (hshown _ ?_) fun _ => trivial
    rw [ShownAs, if_neg hfull]
    exact ⟨conditions, hread conditions rfl, rfl⟩

/-! ### The three commands -/

/-- The request of the payload, or of the failure. -/
theorem got_of_fetchedFrom {r : Request} {payload : JsonValue} {t' : PostStage}
    (h : FetchedFrom r t (.ok payload) t') : payload ∈ t'.cached ∨ t'.Got r payload := by
  obtain ⟨new, found, rfl, hfetches⟩ := h
  refine (hfetches.ok payload rfl).imp (List.mem_append_left _) fun hgot => ?_
  obtain ⟨reply, hmem, houtcome⟩ := hgot
  exact ⟨reply, List.mem_append_left _ hmem, houtcome⟩

theorem got_of_answered {r : Request} {payload : JsonValue} {t' : PostStage}
    (h : Answered r t (.ok payload) t') : t'.Got r payload := by
  obtain ⟨new, rfl, hfetches⟩ := h
  obtain ⟨reply, hmem, houtcome⟩ := (hfetches.ok payload rfl).resolve_left List.not_mem_nil
  exact ⟨reply, List.mem_append_left _ hmem, houtcome⟩

theorem hasCatalog_of_answered {r : Request} {value : Except ClientFailure JsonValue}
    {t' : PostStage} {payload : JsonValue} (h : Answered r t value t')
    (hcatalog : t.HasCatalog c payload) : t'.HasCatalog c payload := by
  obtain ⟨new, rfl, -⟩ := h
  refine hcatalog.imp_right fun hgot => ?_
  obtain ⟨reply, hmem, houtcome⟩ := hgot
  exact ⟨reply, List.mem_append_right _ hmem, houtcome⟩

theorem refused_of_fetchedFrom {r : Request} {failure : ClientFailure} {t' : PostStage}
    (h : FetchedFrom r t (.error failure) t') (hr : MaySend c x t' r) :
    Refused c x t' (.text (refusalText (.ofFailure failure))) := by
  obtain ⟨new, found, rfl, hfetches⟩ := h
  by_cases hfailure : failure = .siegeWeb .notFound
  · subst hfailure
    obtain ⟨reply, hmem, hstatus⟩ := hfetches.notFound rfl
    exact .inr ⟨rfl, r, reply, hr, List.mem_append_left _ hmem, hstatus⟩
  · refine .inl (congrArg Shown.text ?_)
    unfold refusalText PostError.ofFailure
    split
    next h =>
      split at h
      next error => exact absurd (by simpa using h) hfailure
      next => cases h
    next => rfl

theorem of_raising_ok {post : Except ClientFailure α → PostStage → Prop} {v : α}
    (h : ∃ value, Except.ok v = raising value ∧ post value t) : post (.ok v) t := by
  obtain ⟨value, hvalue, h⟩ := h
  cases value with
  | ok w => rwa [Except.ok.inj hvalue]
  | error failure => cases hvalue

theorem of_raising_error {post : Except ClientFailure α → PostStage → Prop} {error : PostError}
    (h : ∃ value, Except.error error = raising value ∧ post value t) :
    ∃ failure, error = .ofFailure failure ∧ post (.error failure) t := by
  obtain ⟨value, hvalue, h⟩ := h
  cases value with
  | ok w => cases hvalue
  | error failure => exact ⟨failure, Except.error.inj hvalue, h⟩

theorem postConditionsCatalog_follows :
    (postConditionsCatalog payloads c).run.Follows (posting payloads c) .catalog Ends .fresh := by
  refine defer_follows.bind_raising (fun _ t ht => ?_) fun _ _ _ => trivial
  subst ht
  have hcall := calling_follows payloads (x := .catalog)
    (listCatalog_fetch (c := c) (t := .fresh) rfl) fun _ _ => rfl
  refine (fetching_follows hcall fun error t' h => ?_).bind_raising (fun fetched t' h => ?_)
    fun _ _ _ => trivial
  · exact .inl rfl
  · cases fetched with
    | none => trivial
    | some payload =>
        have hfetched := of_raising_ok (h payload rfl)
        exact shown_follows fun shown hshown =>
          .inr ⟨payload, got_of_fetchedFrom hfetched, hshown⟩

theorem postConditionsGet_follows :
    (postConditionsGet payloads c user).run.Follows (posting payloads c) (.get user) Ends
      .fresh := by
  refine defer_follows.bind_raising (fun _ t ht => ?_) fun _ _ _ => trivial
  subst ht
  have hcall := calling_follows payloads (x := .get user)
    (getMyPreferences_fetch (c := c) (t := .fresh) user.discordId user.name rfl) fun _ _ => rfl
  refine (fetching_follows hcall fun error t' h => ?_).bind_raising (fun fetched t' h => ?_)
    fun _ _ _ => trivial
  · obtain ⟨failure, rfl, hanswered⟩ := of_raising_error h
    exact .inl (refused_of_fetchedFrom hanswered.fetchedFrom rfl)
  · cases fetched with
    | none => trivial
    | some payload =>
        have hanswered := of_raising_ok (h payload rfl)
        exact shown_follows fun shown hshown =>
          .inr ⟨payload, got_of_answered hanswered, hshown⟩

/-- The two requests of an editor: both payloads, or the request that failed. -/
theorem fetchBoth_follows :
    (fetchBoth c user).run.Follows (posting payloads c) (.set user)
      (fun result t' =>
        (∀ catalog prefs, result = .ok (catalog, prefs) → t'.HasCatalog c catalog ∧
          t'.Got (c.getPreferencesRequest user.discordId user.name) prefs) ∧
        ∀ error, result = .error error →
          Refused c (.set user) t' (.text (refusalText error))) .fresh := by
  have hcatalog := calling_follows payloads (x := .set user)
    (listCatalog_fetch (c := c) (t := .fresh) rfl) fun _ _ => .inl rfl
  refine hcatalog.bind_raising (fun catalog t₁ h₁ => ?_) fun error t₁ h₁ => ?_
  · have hfetched := of_raising_ok h₁
    have hprefs := calling_follows payloads (x := .set user)
      (getMyPreferences_fetch (c := c) (t := t₁) user.discordId user.name rfl) fun _ _ => .inr rfl
    refine hprefs.bind_raising (fun prefs t₂ h₂ => follows_pure ⟨?_, ?_⟩)
      fun error t₂ h₂ => ⟨?_, ?_⟩
    · intro catalog' prefs' h
      obtain ⟨rfl, rfl⟩ := Prod.mk.inj (Except.ok.inj h)
      have hanswered := of_raising_ok h₂
      exact ⟨hasCatalog_of_answered hanswered (got_of_fetchedFrom hfetched),
        got_of_answered hanswered⟩
    · intro error herror
      cases herror
    · intro catalog' prefs h
      cases h
    · intro error' herror
      obtain rfl := Except.error.inj herror
      obtain ⟨failure, rfl, hanswered⟩ := of_raising_error h₂
      exact refused_of_fetchedFrom hanswered.fetchedFrom (.inr rfl)
  · refine ⟨fun catalog prefs h => (by cases h), fun error' herror => ?_⟩
    obtain rfl := Except.error.inj herror
    obtain ⟨failure, rfl, hfetched⟩ := of_raising_error h₁
    exact refused_of_fetchedFrom hfetched (.inl rfl)

theorem openEditor_follows {catalogPayload prefsPayload : JsonValue}
    {catalog prefs : List Condition} (hcatalog : t.HasCatalog c catalogPayload)
    (hprefs : t.Got (c.getPreferencesRequest user.discordId user.name) prefsPayload)
    (hreadCatalog : payloads.conditions catalogPayload = .ok catalog)
    (hreadPrefs : payloads.conditions prefsPayload = .ok prefs) :
    (openEditor user catalog prefs).run.Follows (posting payloads c) (.set user) Ends t := by
  unfold openEditor postConditionsSet
  dsimp only
  cases hbuild : (PostConditionsGridView.create catalog (prefs.map Condition.id) user.discordId
      user.name).buildComponents with
  | error error => trivial
  | ok components =>
      refine ⟨⟨catalogPayload, prefsPayload, hcatalog, hprefs, catalog, prefs, hreadCatalog,
        hreadPrefs, rfl⟩, fun n _ => ?_⟩
      have hopens : Opens payloads user catalogPayload prefsPayload _ :=
        ⟨catalog, prefs, hreadCatalog, hreadPrefs, rfl⟩
      exact followupSend_follows (.inr ⟨n, _, components, catalogPayload, prefsPayload, rfl,
        hcatalog, hprefs, hopens, hbuild, rfl⟩) fun _ => trivial

theorem postConditionsSetCommand_follows :
    (postConditionsSetCommand payloads c user).run.Follows (posting payloads c) (.set user) Ends
      .fresh := by
  refine defer_follows.bind_raising (fun _ t ht => ?_) fun _ _ _ => trivial
  subst ht
  refine (fetching_follows fetchBoth_follows fun error t' h => .inl (h.2 error rfl)).bind_raising
    (fun fetched t' h => ?_) fun _ _ _ => trivial
  match fetched with
  | none => trivial
  | some (catalogPayload, prefsPayload) =>
      obtain ⟨hcatalog, hprefs⟩ := (h _ rfl).1 _ _ rfl
      refine (read_follows prefsPayload).bind_raising (fun prefs t₁ h₁ => ?_) fun _ _ _ => trivial
      obtain ⟨rfl, hreadPrefs⟩ := h₁
      refine (read_follows catalogPayload).bind_raising (fun catalog t₂ h₂ => ?_)
        fun _ _ _ => trivial
      obtain ⟨rfl, hreadCatalog⟩ := h₂
      exact openEditor_follows hcatalog hprefs (hreadCatalog catalog rfl) (hreadPrefs prefs rfl)

/-! ### The buttons -/

theorem clickButton_follows (click : Click) :
    (clickButton n click).run.Follows (posting payloads c) (.click n click) Ends t := by
  refine ⟨⟨rfl, rfl⟩, fun found _ => ?_⟩
  cases found with
  | none => trivial
  | some view =>
      show (editEditor n view).run.Follows _ _ _ _
      unfold editEditor
      cases view.buildComponents with
      | error error => trivial
      | ok components => exact ⟨⟨_, _, rfl⟩, fun _ => trivial⟩

/-- The stage after the PUT of a view; `true` is one that was not refused. -/
structure AfterPut (c : SiegeWebClient) (n : ℕ) (view : PostConditionsGridView)
    (result : Except PostError Bool) (t : PostStage) : Prop where
  reading : t.reading = some (n, view)
  got : result = .ok true → ∃ payload, t.Got
    (c.setPreferencesRequest view.discordId view.discordUsername view.selectedIds) payload

theorem AfterPut.failed {view : PostConditionsGridView} {result other : Except PostError Bool}
    (h : AfterPut c n view result t) (hother : other ≠ .ok true) : AfterPut c n view other t :=
  ⟨h.reading, fun htrue => absurd htrue hother⟩

/-- The PUT of a view that Save has read, or the text that it was not saved. -/
theorem putSelected_follows (payloads : Payloads) {view : PostConditionsGridView}
    (hreading : t.reading = some (n, view)) :
    (putSelected c view).run.Follows (posting payloads c) (.save n) (AfterPut c n view) t := by
  have hput := calling_follows payloads (x := .save n)
    (setMyPreferences_fetch (c := c) (t := t) view.discordId view.discordUsername view.selectedIds
      rfl) fun t' ht' => ⟨view, ht'.trans hreading, rfl⟩
  have hbody : (do
      let _ ← calling (c.setMyPreferences view.discordId view.discordUsername view.selectedIds)
      return true : PostM Bool).run.Follows (posting payloads c) (.save n) (AfterPut c n view)
        t := by
    refine hput.bind_raising (fun payload t' h => follows_pure ?_) fun error t' h => ?_
    · have hanswered := of_raising_ok h
      have hgot := got_of_answered hanswered
      obtain ⟨new, rfl, -⟩ := hanswered
      exact ⟨hreading, fun _ => ⟨payload, hgot⟩⟩
    · obtain ⟨failure, -, new, rfl, -⟩ := of_raising_error h
      exact ⟨hreading, fun h => by cases h⟩
  refine hbody.catching (fun _ _ h => h) (fun error t' h => ?_) fun _ _ h => h
  have hsend : (sendMessage notSavedMsg).run.Follows (posting payloads c) (.save n)
      (fun _ t'' => t'' = t') t' := ⟨rfl, fun _ => rfl⟩
  refine hsend.bind_raising (fun _ t'' ht => follows_pure ?_) fun _ t'' ht => ?_
  · subst ht
    exact h.failed fun h => by simp at h
  · subst ht
    exact h.failed fun h => by cases h

theorem saveButton_follows :
    (saveButton c n).run.Follows (posting payloads c) (.save n) Ends .fresh := by
  refine ⟨rfl, fun found _ => ?_⟩
  cases found with
  | none => trivial
  | some view =>
      have hput := putSelected_follows payloads (c := c) (n := n)
        (t := { PostStage.fresh with reading := some (n, view) }) rfl
      refine hput.bind_raising (fun saved t' h => ?_) fun _ _ _ => trivial
      obtain ⟨hreading, hgot⟩ := h
      cases saved with
      | false => trivial
      | true =>
          obtain ⟨payload, hgot⟩ := hgot rfl
          refine ⟨rfl, fun found _ => ?_⟩
          cases found with
          | none => trivial
          | some later =>
              have hread : (posting payloads c).afterOp t' (.readView n) (some later) =
                  { t' with rereading := some (n, later) } := by
                show t'.read n later = _
                rw [PostStage.read, hreading]
              refine ⟨?_, fun _ => trivial⟩
              rw [hread]
              exact ⟨view, later, payload, hreading, rfl, hgot, rfl⟩

/-- **Every task keeps to the protocol.** -/
theorem program_follows (x : PostTask) :
    (x.program payloads c).run.Follows (posting payloads c) x Ends .fresh := by
  cases x with
  | catalog => exact postConditionsCatalog_follows
  | get user => exact postConditionsGet_follows
  | set user => exact postConditionsSetCommand_follows
  | click n click => exact clickButton_follows click
  | save n => exact saveButton_follows
  | cancel => exact ⟨rfl, fun _ => trivial⟩

end Follows

end MomBot.PostConditions
