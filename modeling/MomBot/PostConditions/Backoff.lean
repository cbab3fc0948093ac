import Mathlib.Algebra.Order.Field.Rat
import MomBot.PostConditions.Client

/-!
# How long a call backs off

The replies of one call, as far as they are 429s, determine its sleeps: one for each of
them but the last of four, by the header or else by the schedule (`Retried`).  This is by
induction on the backoffs that are left, over every run of the retry loop and then of the
three methods.

`_parse_retry_after` turns a header down by two comparisons.  A NaN fails both, so it is
the one value outside of the interval that reaches `asyncio.sleep` (`chosen_cases`).
-/

namespace MomBot.PostConditions

open Cooperative Python

/-! ## What a run shows -/

/-- The request of an exchange. -/
def request? : Exchange clientEffects → Option Request
  | ⟨.request r, _⟩ => some r
  | _ => none

/-- The reply of an exchange. -/
def reply? : Exchange clientEffects → Option Reply
  | ⟨.request _, .ok reply⟩ => some reply
  | _ => none

/-- How long an exchange sleeps. -/
def sleep? : Exchange clientEffects → Option PyFloat
  | ⟨.sleep seconds, _⟩ => some seconds
  | _ => none

/-- The requests of a run. -/
def requests (trace : List (Exchange clientEffects)) : List Request := trace.filterMap request?

/-- The replies of a run. -/
def replies (trace : List (Exchange clientEffects)) : List Reply := trace.filterMap reply?

/-- The sleeps of a run. -/
def sleeps (trace : List (Exchange clientEffects)) : List PyFloat := trace.filterMap sleep?

/-- The 429s that came one after the other from the first reply on. -/
def limited (trace : List (Exchange clientEffects)) : List Reply :=
  (replies trace).takeWhile fun reply => reply.status = 429

/-- `sleep_for`. -/
def chosen (backoff : ℚ) (reply : Reply) : PyFloat :=
  (parseRetryAfter reply.retryAfter).getD (.finite backoff)

/-- The run has ended with a `SiegeWebRateLimitError`. -/
def IsRateLimit (value : Except ClientFailure JsonValue) : Prop :=
  ∃ method url n, value = .error (.siegeWeb (.rateLimit method url n))

/-- What a run of the loop has done when `backoffs` were left at its start. -/
structure Retried (backoffs : List ℚ) (trace : List (Exchange clientEffects))
    (value : Except ClientFailure JsonValue) : Prop where
  requests : (requests trace).length ≤ backoffs.length + 1
  sleeps : sleeps trace = List.zipWith chosen backoffs (limited trace)
  rateLimit : IsRateLimit value ↔ (limited trace).length = backoffs.length + 1

theorem not_isRateLimit_raised (exc : Raised) : ¬ IsRateLimit (.error (.raised exc)) := by
  rintro ⟨method, url, n, h⟩
  cases h

theorem not_isRateLimit_received (reply : Reply) : ¬ IsRateLimit (received reply) := by
  rintro ⟨method, url, n, h⟩
  unfold received at h
  split at h
  next error herror =>
    obtain rfl : error = .rateLimit method url n := by simpa using h
    unfold raiseForStatus at herror
    repeat' split at herror
    all_goals simp at herror
  next => cases h

/-- No reply at all. -/
theorem retried_of_no_replies {backoffs : List ℚ} {trace : List (Exchange clientEffects)}
    {value : Except ClientFailure JsonValue} (hrequests : (requests trace).length ≤ 1)
    (hreplies : replies trace = []) (hsleeps : sleeps trace = []) (hvalue : ¬ IsRateLimit value) :
    Retried backoffs trace value := by
  refine ⟨by omega, ?_, iff_of_false hvalue ?_⟩
  · rw [hsleeps, limited, hreplies, List.takeWhile_nil, List.zipWith_nil_right]
  · rw [limited, hreplies]
    simp

variable {σ : Type} {M : Machine clientEffects σ} {s s' : σ}
  {trace : List (Exchange clientEffects)} {value : Except ClientFailure JsonValue}

/-- A run of one attempt: the request raises, or its reply ends the loop, or it is a 429
and the run goes on. -/
theorem attempt_cases {r : Request}
    {rateLimited : Option PyFloat → ClientM (Except ClientFailure JsonValue)}
    (h : (attempt r rateLimited).Runs M s trace value s') :
    (∃ exc, trace = [⟨.request r, .error exc⟩] ∧ value = .error (.raised exc)) ∨
    (∃ reply, trace = [⟨.request r, .ok reply⟩] ∧ reply.status ≠ 429 ∧ value = received reply) ∨
    ∃ reply rest s₁, trace = ⟨.request r, .ok reply⟩ :: rest ∧ reply.status = 429 ∧
      (rateLimited (parseRetryAfter reply.retryAfter)).Runs M s₁ rest value s' := by
  obtain ⟨answer, rest, rfl, h⟩ := h
  cases answer with
  | error exc =>
      obtain ⟨rfl, rfl, -⟩ := h
      exact .inl ⟨exc, rfl, rfl⟩
  | ok reply =>
      change (afterReply rateLimited reply).Runs M _ rest value s' at h
      unfold afterReply at h
      split at h
      next hstatus => exact .inr (.inr ⟨reply, rest, _, rfl, hstatus, h⟩)
      next hstatus =>
        obtain ⟨rfl, rfl, -⟩ := h
        exact .inr (.inl ⟨reply, rfl, hstatus, rfl⟩)

/-- A reply that is not a 429 ends the loop. -/
theorem retried_received (backoffs : List ℚ) (r : Request) {reply : Reply}
    (hstatus : reply.status ≠ 429) :
    Retried backoffs [⟨.request r, .ok reply⟩] (received reply) := by
  have hlimited : limited [⟨.request r, .ok reply⟩] = [] :=
    List.takeWhile_cons_of_neg (by simpa using hstatus)
  refine ⟨Nat.le_add_left 1 _, ?_, iff_of_false (not_isRateLimit_received reply) ?_⟩
  · rw [hlimited, List.zipWith_nil_right]
    rfl
  · rw [hlimited]
    simp

theorem limited_cons_of_429 {r : Request} {reply : Reply} {rest : List (Exchange clientEffects)}
    (hstatus : reply.status = 429) :
    limited (⟨.request r, .ok reply⟩ :: rest) = reply :: limited rest :=
  List.takeWhile_cons_of_pos (by simpa using hstatus)

/-- A 429, the sleep after it, and what the rest of the loop does. -/
theorem Retried.cons {backoff : ℚ} {backoffs : List ℚ} {r : Request} {reply : Reply}
    (exchange : Exchange clientEffects) {rest : List (Exchange clientEffects)}
    (h : Retried backoffs rest value) (hstatus : reply.status = 429)
    (hsleep : sleep? exchange = some (chosen backoff reply)) (hrequest : request? exchange = none)
    (hreply : reply? exchange = none) :
    Retried (backoff :: backoffs) (⟨.request r, .ok reply⟩ :: exchange :: rest) value := by
  have hskip : limited (exchange :: rest) = limited rest := by
    rw [limited, replies, List.filterMap_cons_none hreply]
    rfl
  have hlimited : limited (⟨.request r, .ok reply⟩ :: exchange :: rest) = reply :: limited rest :=
    (limited_cons_of_429 hstatus).trans (congrArg (reply :: ·) hskip)
  have hrequests : PostConditions.requests (⟨.request r, .ok reply⟩ :: exchange :: rest) =
      r :: PostConditions.requests rest :=
    congrArg (r :: ·) (List.filterMap_cons_none hrequest)
  have hsleeps : PostConditions.sleeps (⟨.request r, .ok reply⟩ :: exchange :: rest) =
      chosen backoff reply :: PostConditions.sleeps rest :=
    List.filterMap_cons_some hsleep
  refine ⟨?_, ?_, h.rateLimit.trans ?_⟩
  · rw [hrequests]
    exact Nat.succ_le_succ h.requests
  · rw [hsleeps, hlimited, List.zipWith_cons_cons, h.sleeps]
  · rw [hlimited, List.length_cons, List.length_cons]
    omega

/-- The last attempt raises, the others sleep first. -/
theorem attempts_retried {r : Request} (backoffs : List ℚ)
    (h : (attempts r backoffs).Runs M s trace value s') : Retried backoffs trace value := by
  induction backoffs generalizing s trace with
  | nil =>
      rcases attempt_cases h with ⟨exc, rfl, rfl⟩ | ⟨reply, rfl, hstatus, rfl⟩ |
        ⟨reply, rest, s₁, rfl, hstatus, rfl, rfl, -⟩
      · exact retried_of_no_replies (le_refl 1) rfl rfl (not_isRateLimit_raised exc)
      · exact retried_received [] r hstatus
      · refine ⟨le_refl 1, rfl, iff_of_true ⟨_, _, _, rfl⟩ ?_⟩
        rw [limited_cons_of_429 hstatus]
        rfl
  | cons backoff backoffs ih =>
      rcases attempt_cases h with ⟨exc, rfl, rfl⟩ | ⟨reply, rfl, hstatus, rfl⟩ |
        ⟨reply, later, s₁, rfl, hstatus, hlater⟩
      · exact retried_of_no_replies (le_refl 1) rfl rfl (not_isRateLimit_raised exc)
      · exact retried_received _ r hstatus
      · obtain ⟨answer, rest, rfl, hrest⟩ := hlater
        rcases answer with exc | ⟨⟩
        · obtain ⟨rfl, rfl, -⟩ := hrest
          exact Retried.cons ⟨.sleep (chosen backoff reply), .error exc⟩
            (retried_of_no_replies (Nat.zero_le 1) rfl rfl (not_isRateLimit_raised exc)) hstatus
            rfl rfl rfl
        · exact Retried.cons ⟨.sleep (chosen backoff reply), .ok ()⟩ (ih hrest) hstatus
            rfl rfl rfl

/-! ## The three methods -/

/-- Exchanges that are neither a request nor a sleep do not count. -/
theorem Retried.after {backoffs : List ℚ} {rest : List (Exchange clientEffects)}
    (h : Retried backoffs rest value) (exchange : Exchange clientEffects)
    (hsleep : sleep? exchange = none) (hrequest : request? exchange = none)
    (hreply : reply? exchange = none) : Retried backoffs (exchange :: rest) value := by
  have hrequests : PostConditions.requests (exchange :: rest) = PostConditions.requests rest :=
    List.filterMap_cons_none hrequest
  have hsleeps : PostConditions.sleeps (exchange :: rest) = PostConditions.sleeps rest :=
    List.filterMap_cons_none hsleep
  have hlimited : limited (exchange :: rest) = limited rest := by
    rw [limited, replies, List.filterMap_cons_none hreply]
    rfl
  refine ⟨?_, ?_, ?_⟩
  · rw [hrequests]
    exact h.requests
  · rw [hsleeps, hlimited]
    exact h.sleeps
  · rw [hlimited]
    exact h.rateLimit

theorem not_isRateLimit_ok (payload : JsonValue) : ¬ IsRateLimit (.ok payload) := by
  rintro ⟨method, url, n, h⟩
  cases h

theorem freshPayload_trace {level : Option ℤ} {payload : Option JsonValue}
    (h : (SiegeWebClient.freshPayload level).Runs M s trace payload s') : trace = [] := by
  obtain ⟨first, entry, s₁, second, rfl, ⟨rfl, -, -⟩, hrest⟩ := Coroutine.runs_bind.mp h
  cases entry with
  | none => exact hrest.1
  | some entry => exact hrest.1

variable {c : SiegeWebClient}

theorem fetchCatalog_retried {level : Option ℤ}
    (h : (c.fetchCatalog level).Runs M s trace value s') :
    Retried retryBackoffSchedule trace value := by
  obtain ⟨first, result, s₁, second, rfl, hcall, hrest⟩ := Coroutine.runs_bind.mp h
  have hretried := attempts_retried retryBackoffSchedule hcall
  cases result with
  | error failure =>
      obtain ⟨rfl, rfl, -⟩ := hrest
      rwa [List.append_nil]
  | ok payload =>
      obtain ⟨rfl, rfl, -⟩ := hrest
      rwa [List.append_nil]

theorem lockedCatalog_retried {level : Option ℤ}
    (h : (c.lockedCatalog level).Runs M s trace value s') :
    Retried retryBackoffSchedule trace value := by
  obtain ⟨first, payload, s₁, second, rfl, hfresh, hrest⟩ := Coroutine.runs_bind.mp h
  obtain rfl := freshPayload_trace hfresh
  cases payload with
  | none => exact fetchCatalog_retried hrest
  | some payload =>
      obtain ⟨rfl, rfl, -⟩ := hrest
      exact retried_of_no_replies (Nat.zero_le 1) rfl rfl (not_isRateLimit_ok payload)

theorem listCatalog_retried {level : Option ℤ}
    (h : (c.listCatalog level).Runs M s trace value s') :
    Retried retryBackoffSchedule trace value := by
  obtain ⟨first, payload, s₁, second, rfl, hfresh, hrest⟩ := Coroutine.runs_bind.mp h
  obtain rfl := freshPayload_trace hfresh
  cases payload with
  | some payload =>
      obtain ⟨rfl, rfl, -⟩ := hrest
      exact retried_of_no_replies (Nat.zero_le 1) rfl rfl (not_isRateLimit_ok payload)
  | none =>
      obtain ⟨answer, later, rfl, hlater⟩ := hrest
      rcases answer with exc | ⟨⟩
      · obtain ⟨rfl, rfl, -⟩ := hlater
        exact retried_of_no_replies (Nat.zero_le 1) rfl rfl (not_isRateLimit_raised exc)
      · -- under the lock
        change (c.lockedCatalog level >>= fun result => releaseLock >>= fun _ => pure result).Runs
          M _ later value s' at hlater
        obtain ⟨body, result, s₂, last, rfl, hbody, hend⟩ := Coroutine.runs_bind.mp hlater
        obtain ⟨rfl, rfl, -⟩ := hend
        rw [List.append_nil]
        exact (lockedCatalog_retried hbody).after ⟨.acquireLock, .ok ()⟩ rfl rfl rfl

theorem call_retried {m : ClientMethod} (h : (m.call c).Runs M s trace value s') :
    Retried retryBackoffSchedule trace value := by
  cases m with
  | listCatalog level => exact listCatalog_retried h
  | getMyPreferences discordId discordUsername => exact attempts_retried retryBackoffSchedule h
  | setMyPreferences discordId discordUsername ids => exact attempts_retried retryBackoffSchedule h

/-! ## Bounded backoff -/

/-- A number of seconds in (0, 30]. -/
def InRange (seconds : PyFloat) : Prop := ∃ q : ℚ, seconds = .finite q ∧ 0 < q ∧ q ≤ 30

/-- The header of a reply is usable as it is. -/
def HeaderInRange (reply : Reply) (seconds : PyFloat) : Prop :=
  reply.retryAfter = some (some seconds) ∧ InRange seconds

/-- What one call of the client has done by its end. -/
structure BoundedBackoff (trace : List (Exchange clientEffects))
    (value : Except ClientFailure JsonValue) : Prop where
  requests : (requests trace).length ≤ 4
  sleeps : (sleeps trace).length ≤ 3
  durations : ∀ (i : ℕ) seconds, (PostConditions.sleeps trace)[i]? = some seconds →
    InRange seconds ∧ ∃ reply backoff, (replies trace)[i]? = some reply ∧
      retryBackoffSchedule[i]? = some backoff ∧ (HeaderInRange reply seconds ∨
        (∀ header, ¬ HeaderInRange reply header) ∧ seconds = .finite backoff)
  rateLimit : IsRateLimit value ↔ [429, 429, 429, 429] <:+: (replies trace).map Reply.status

theorem parseRetryAfter_finite (q : ℚ) :
    parseRetryAfter (some (some (.finite q))) =
      if q ≤ 0 ∨ 30 < q then none else some (.finite q) := by
  have hguard : ((PyFloat.finite q).leRat 0 || (PyFloat.finite q).gtRat retryAfterMax) = true ↔
      q ≤ 0 ∨ 30 < q := by
    rw [Bool.or_eq_true, PyFloat.leRat, PyFloat.gtRat, decide_eq_true_eq, decide_eq_true_eq]
    rfl
  exact if_congr hguard rfl rfl

/-- What `_parse_retry_after` lets through. -/
theorem parseRetryAfter_eq (reply : Reply) :
    (∃ seconds, HeaderInRange reply seconds ∧ parseRetryAfter reply.retryAfter = some seconds) ∨
    (∀ header, ¬ HeaderInRange reply header) ∧ (parseRetryAfter reply.retryAfter = none ∨
      reply.retryAfter = some (some .nan) ∧ parseRetryAfter reply.retryAfter = some .nan) := by
  have hout : ∀ value : PyFloat, ¬ InRange value → reply.retryAfter = some (some value) →
      ∀ header, ¬ HeaderInRange reply header := by
    rintro value hvalue hreply header ⟨hheader, hin⟩
    rw [hreply] at hheader
    obtain rfl : value = header := by simpa using hheader
    exact hvalue hin
  rcases hheader : reply.retryAfter with _ | _ | value
  · refine .inr ⟨?_, .inl rfl⟩
    rintro header ⟨h, -⟩
    simp [hheader] at h
  · refine .inr ⟨?_, .inl rfl⟩
    rintro header ⟨h, -⟩
    simp [hheader] at h
  · cases value with
    | nan =>
        refine .inr ⟨hout .nan ?_ hheader, .inr ⟨rfl, rfl⟩⟩
        rintro ⟨q, h, -⟩
        cases h
    | infinite negative =>
        refine .inr ⟨hout (.infinite negative) ?_ hheader, .inl ?_⟩
        · rintro ⟨q, h, -⟩
          cases h
        · cases negative <;> rfl
    | finite q =>
        by_cases hq : 0 < q ∧ q ≤ 30
        · refine .inl ⟨.finite q, ⟨hheader, q, rfl, hq⟩, ?_⟩
          rw [parseRetryAfter_finite, if_neg]
          rintro (h | h)
          · exact absurd hq.1 (not_lt.mpr h)
          · exact absurd hq.2 (not_le.mpr h)
        · refine .inr ⟨hout (.finite q) ?_ hheader, .inl ?_⟩
          · rintro ⟨q', h, hpos, hmax⟩
            obtain rfl := PyFloat.finite.inj h
            exact hq ⟨hpos, hmax⟩
          · rw [parseRetryAfter_finite, if_pos]
            by_contra hno
            exact hq ⟨not_le.mp fun h => hno (.inl h), not_lt.mp fun h => hno (.inr h)⟩

/-- The sleep after a 429 is as it should be unless the header is NaN. -/
theorem chosen_cases {backoff : ℚ} (hbackoff : InRange (.finite backoff)) (reply : Reply) :
    (reply.retryAfter ≠ some (some .nan) ∧ InRange (chosen backoff reply) ∧
      (HeaderInRange reply (chosen backoff reply) ∨
        (∀ header, ¬ HeaderInRange reply header) ∧ chosen backoff reply = .finite backoff)) ∨
    reply.retryAfter = some (some .nan) ∧ chosen backoff reply = .nan := by
  rcases parseRetryAfter_eq reply with ⟨seconds, hheader, hparse⟩ | ⟨hout, hparse | ⟨hnan, hparse⟩⟩
  · have hchosen : chosen backoff reply = seconds := by rw [chosen, hparse, Option.getD_some]
    refine .inl ⟨fun hnan => ?_, hchosen ▸ hheader.2, .inl (hchosen ▸ hheader)⟩
    obtain ⟨hvalue, q, rfl, -⟩ := hheader
    rw [hvalue] at hnan
    simp at hnan
  · have hchosen : chosen backoff reply = .finite backoff := by
      rw [chosen, hparse, Option.getD_none]
    refine .inl ⟨fun hnan => ?_, hchosen ▸ hbackoff, .inr ⟨hout, hchosen⟩⟩
    rw [hnan] at hparse
    cases hparse
  · exact .inr ⟨hnan, by rw [chosen, hparse, Option.getD_some]⟩

theorem length_replies_le (trace : List (Exchange clientEffects)) :
    (replies trace).length ≤ (requests trace).length := by
  induction trace with
  | nil => exact Nat.le_refl 0
  | cons exchange trace ih =>
      rcases exchange with ⟨call, answer⟩
      cases call with
      | request r =>
          rcases answer with exc | reply
          · exact Nat.le_succ_of_le ih
          · exact Nat.succ_le_succ ih
      | acquireLock => exact ih
      | sleep seconds => exact ih
      | respond response => exact ih

/-- Four 429s one after the other, seen from the front. -/
theorem length_limited_eq_four_iff (h : Retried retryBackoffSchedule trace value) :
    (limited trace).length = 4 ↔ [429, 429, 429, 429] <:+: (replies trace).map Reply.status := by
  have hfour : (replies trace).length ≤ 4 := (length_replies_le trace).trans h.requests
  have hall : ∀ reply ∈ limited trace, reply.status = 429 := fun reply hreply => by
    simpa using List.mem_takeWhile_imp hreply
  have hprefix : limited trace <+: replies trace := List.takeWhile_prefix _
  constructor
  · intro hlimited
    have heq : limited trace = replies trace :=
      hprefix.eq_of_length_le (by omega)
    have hmap : (limited trace).map Reply.status = List.replicate 4 429 := by
      rw [← hlimited]
      exact List.eq_replicate_iff.mpr ⟨List.length_map _, fun status hstatus => by
        obtain ⟨reply, hreply, rfl⟩ := List.mem_map.mp hstatus
        exact hall reply hreply⟩
    rw [← heq, hmap]
    exact List.infix_rfl
  · intro hfours
    have heq : (replies trace).map Reply.status = [429, 429, 429, 429] := by
      refine (hfours.eq_of_length_le ?_).symm
      rw [List.length_map]
      exact hfour
    have hlimited : limited trace = replies trace := by
      refine List.takeWhile_eq_self_iff.mpr fun reply hreply => ?_
      have hstatus : reply.status ∈ (replies trace).map Reply.status := List.mem_map_of_mem hreply
      rw [heq] at hstatus
      simpa using hstatus
    rw [hlimited, ← List.length_map Reply.status, heq]
    rfl

/-- A call keeps to its bounds unless one of the first three replies is a 429 with NaN. -/
theorem boundedBackoff_iff {m : ClientMethod} (h : (m.call c).Runs M s trace value s') :
    BoundedBackoff trace value ↔
      ∀ reply ∈ (limited trace).take 3, reply.retryAfter ≠ some (some .nan) := by
  have hretried := call_retried h
  constructor
  · intro hbounded reply hreply hnan
    obtain ⟨i, hi⟩ := List.mem_iff_getElem?.mp hreply
    have hlt : i < 3 := by
      by_contra hge
      rw [List.getElem?_take, if_neg hge] at hi
      cases hi
    rw [List.getElem?_take_of_lt hlt] at hi
    obtain ⟨backoff, hbackoff⟩ : ∃ backoff, retryBackoffSchedule[i]? = some backoff :=
      ⟨_, List.getElem?_eq_getElem hlt⟩
    have hsleep : (sleeps trace)[i]? = some .nan := by
      rw [hretried.sleeps, List.getElem?_zipWith, hbackoff, hi]
      simp [chosen, hnan, parseRetryAfter, PyFloat.leRat, PyFloat.gtRat]
    obtain ⟨⟨q, hq, -⟩, -⟩ := hbounded.durations i .nan hsleep
    cases hq
  · intro hnan
    refine ⟨hretried.requests, ?_, fun i seconds hsleep => ?_,
      hretried.rateLimit.trans (length_limited_eq_four_iff hretried)⟩
    · rw [hretried.sleeps, List.length_zipWith]
      exact Nat.min_le_left _ _
    · rw [hretried.sleeps, List.getElem?_zipWith_eq_some] at hsleep
      obtain ⟨backoff, reply, hbackoff, hreply, rfl⟩ := hsleep
      have hlt : i < 3 := (List.getElem?_eq_some_iff.mp hbackoff).1
      have hschedule : ∀ b ∈ retryBackoffSchedule, 0 < b ∧ b ≤ 30 := by decide
      have hbackoffIn : InRange (.finite backoff) :=
        ⟨backoff, rfl, hschedule backoff (List.mem_of_getElem? hbackoff)⟩
      have hmem : reply ∈ (limited trace).take 3 :=
        List.mem_of_getElem? (by rw [List.getElem?_take_of_lt hlt]; exact hreply)
      rcases chosen_cases hbackoffIn reply with ⟨-, hin, hchosen⟩ | ⟨hheader, -⟩
      · obtain ⟨later, hlater⟩ : limited trace <+: replies trace := List.takeWhile_prefix _
        have hi : i < (limited trace).length := (List.getElem?_eq_some_iff.mp hreply).1
        refine ⟨hin, reply, backoff, ?_, hbackoff, hchosen⟩
        rw [← hlater, List.getElem?_append_left hi, hreply]
      · exact absurd hheader (hnan reply hmem)

/-- The preferences of a member, asked for without a token. -/
def preferencesRequest : Request :=
  (SiegeWebClient.create "https://siege" "").getPreferencesRequest "7" "raider"

/-- A 429 with a header, the sleep, and a reply with the preferences. -/
def retriedTrace (header seconds : PyFloat) : List (Exchange clientEffects) :=
  [⟨.request preferencesRequest, .ok ⟨429, some (some header), .arr []⟩⟩, ⟨.sleep seconds, .ok ()⟩,
    ⟨.request preferencesRequest, .ok ⟨200, none, .arr []⟩⟩]

theorem boundedBackoff_iff_five :
    BoundedBackoff (retriedTrace (.finite 5) (.finite 5)) (.ok (.arr [])) := by
  have hruns : ∃ s', (ClientMethod.call (.create "https://siege" "")
      (.getMyPreferences "7" "raider")).Runs clientMachine (.init 0)
      (retriedTrace (.finite 5) (.finite 5)) (.ok (.arr [])) s' :=
    ⟨_, _, _, rfl, _, _, rfl, _, _, rfl, rfl, rfl, rfl⟩
  obtain ⟨s', hruns⟩ := hruns
  have hlimited : limited (retriedTrace (.finite 5) (.finite 5)) =
      [⟨429, some (some (.finite 5)), .arr []⟩] := rfl
  refine (boundedBackoff_iff hruns).mpr fun reply hreply => ?_
  rw [hlimited] at hreply
  obtain rfl := List.mem_singleton.mp hreply
  simp

/-- A header that parses to NaN is slept. -/
theorem nan_is_slept :
    (∃ s', (ClientMethod.call (.create "https://siege" "") (.getMyPreferences "7" "raider")).Runs
      clientMachine (.init 0) (retriedTrace .nan .nan) (.ok (.arr [])) s') ∧
    ¬ BoundedBackoff (retriedTrace .nan .nan) (.ok (.arr [])) := by
  refine ⟨⟨_, _, _, rfl, _, _, rfl, _, _, rfl, rfl, rfl, rfl⟩, fun h => ?_⟩
  obtain ⟨⟨q, hq, -⟩, -⟩ := h.durations 0 .nan rfl
  cases hq

end MomBot.PostConditions
