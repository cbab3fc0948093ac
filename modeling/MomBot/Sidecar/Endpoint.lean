import MomBot.Cooperative.Abort
import MomBot.Sidecar.Serialization

/-!
# The endpoint as its callers see it

`postRoleSync` takes an authenticated JSON body to an HTTP answer: validation,
the handler, and 500 for an exception that nothing catches.  Two things besides
the handler decide the answer.  The framework validates the fields and writes
the errors of a rejected body as JSON, which fails for a value that JSON cannot
express; it is a parameter (`Framework`).  The database refuses some values: a
text with a NUL, as early as the look-up of the row, a key that is too long for
its index, an integer that is too wide.  Which ones is a parameter too
(`Columns`).

The rows of every reachable state were written by the endpoint (`WrittenRows`),
so replays never fail.  What is left are the bodies that are `Answerable`:
`postRoleSync_total_iff`.
-/

namespace MomBot.Sidecar

open Cooperative Roles Python

/-! ## Validation -/

/-- A validation error: a dictionary with a location, a message, the rejected
input and perhaps a context. -/
abbrev ErrorDict (Obj : Type) := List (String × Obj)

/-- What FastAPI and Pydantic do for the endpoint: the conversions of `str` and
`int` fields, the errors of a body that is rejected, and the text of a JSON
response (`none` where its content has no JSON text).  `Obj` is the type of the
objects in an error. -/
structure Framework (Obj : Type) where
  strField : JsonValue → Option String
  intField : JsonValue → Option ℤ
  errors : JsonValue → List (ErrorDict Obj)
  dictItems : Obj → Option (List (String × Obj))
  ofStrings : List (String × String) → Obj
  str : Obj → String
  render : List (ErrorDict Obj) → Option String
  strField_str : ∀ s, strField (.str s) = some s
  intField_int : ∀ n, intField (.int n) = some n

variable {Obj : Type} (framework : Framework Obj)

/-- The literal type of `action`. -/
def actionOfText? (text : String) : Option Action :=
  [Action.assign, Action.unassign].find? fun action => action.text = text

/-- The field `action`. -/
def literalAction : JsonValue → Option Action
  | .str text => actionOfText? text
  | _ => none

/-- A field of type `int | None` with the default `None`. -/
def optionalInt : Option JsonValue → Option (Option ℤ)
  | none => some none
  | some .null => some none
  | some value => (framework.intField value).map some

/-- The members of an object. -/
def jsonMembers : JsonValue → Option (List (String × JsonValue))
  | .obj members => some members
  | _ => none

/-- `RoleSyncRequest`: the fields, then the conditionality of `day_number`. -/
def validateRequest (payload : JsonValue) : Option RoleSyncRequest := do
  let members ← jsonMembers payload
  let discordId ← (members.lookup "discord_id").bind framework.strField
  let siegeId ← (members.lookup "siege_id").bind framework.intField
  let dayNumber ← optionalInt framework (members.lookup "day_number")
  let action ← (members.lookup "action").bind literalAction
  let assignedAt ← (members.lookup "assigned_at").bind framework.strField
  let correlationId ← (members.lookup "correlation_id").bind framework.strField
  if h : dayNumber.isSome ↔ action = .assign then
    some ⟨discordId, siegeId, dayNumber, action, assignedAt, correlationId, h⟩
  else none

/-- `_clean_validation_errors`: the values of a context become strings. -/
def cleanValidationErrors (errors : List (ErrorDict Obj)) : List (ErrorDict Obj) :=
  errors.map fun err => err.map fun (k, v) =>
    if k = "ctx" then
      match framework.dictItems v with
      | some items => (k, framework.ofStrings (items.map fun (ck, cv) => (ck, framework.str cv)))
      | none => (k, v)
    else (k, v)

/-! ## Answers -/

/-- The answers of the endpoint to a request that is authorized. -/
inductive HttpAnswer where
  /-- 400, with the errors as JSON. -/
  | badRequest (content : String)
  /-- 200. -/
  | ok (response : RoleSyncResponse)
  /-- 500: no handler catches the exception. -/
  | uncaught
  deriving DecidableEq

/-- `_role_sync_validation_error_handler`. -/
def roleSyncValidationErrorHandler (payload : JsonValue) : HttpAnswer :=
  match framework.render (cleanValidationErrors framework (framework.errors payload)) with
  | some content => .badRequest content
  | none => .uncaught

/-! ## What the database takes -/

/-- The values that the database takes, for a table whose lists `codec` writes.
The texts that the endpoint writes itself are among them. -/
structure Columns (codec : JsonCodec) where
  /-- A text to look a row up by. -/
  value : String → Bool
  /-- The primary key of a new row, which has an index. -/
  key : String → Bool
  /-- A text of another column. -/
  text : String → Bool
  integer : ℤ → Bool
  text_action : ∀ action : Action, text action.text
  text_status : ∀ status : Status, text status.text
  text_dumps : ∀ roles, text (codec.dumps roles)
  text_reason : ∀ reason ∈ reasonCodes, text reason

/-- The texts of a row, less the key. -/
def rowTexts (row : MemberRoleSyncState) : List String :=
  [row.lastAssignedAt, row.lastAction, row.lastCorrelationId, row.lastResponseStatus,
    row.lastResponseAdded, row.lastResponseRemoved] ++ row.lastResponseReason.toList

section Columns

variable {codec : JsonCodec} (columns : Columns codec)

/-- A row that the database takes. -/
def Columns.Takes (row : MemberRoleSyncState) : Prop :=
  columns.value row.discordId ∧ columns.key row.discordId ∧
    (∀ text ∈ rowTexts row, columns.text text) ∧ ∀ day ∈ row.lastDayNumber, columns.integer day

instance (row : MemberRoleSyncState) : Decidable (columns.Takes row) := by
  unfold Columns.Takes
  infer_instance

/-- The statements that raise: a look-up by such a value, a write of such a row. -/
def Columns.Refuses : RoleOp → Prop
  | .sessionGet discordId => ¬columns.value discordId
  | .upsert row => ¬columns.Takes row
  | _ => False

instance : DecidablePred columns.Refuses
  | .sessionGet discordId => inferInstanceAs (Decidable ¬columns.value discordId)
  | .upsert row => inferInstanceAs (Decidable ¬columns.Takes row)
  | .selectDayRoleMap _ => inferInstanceAs (Decidable False)
  | .getRole _ => inferInstanceAs (Decidable False)
  | .getMember _ => inferInstanceAs (Decidable False)
  | .environForcePartial => inferInstanceAs (Decidable False)

/-- The values of the request that its row is to hold are taken. -/
def Columns.Storable (body : RoleSyncRequest) : Prop :=
  columns.key body.discordId ∧ columns.text body.assignedAt ∧ columns.text body.correlationId ∧
    ∀ day ∈ body.dayNumber, columns.integer day

variable {columns} {body : RoleSyncRequest}

/-- The rest of a row is the endpoint's own. -/
theorem takes_freshRow_iff {result : RoleSyncResult} (hvalue : columns.value body.discordId)
    (hcoded : result.Coded) :
    columns.Takes (freshRow codec body result) ↔ columns.Storable body := by
  constructor
  · rintro ⟨-, hkey, htexts, hinteger⟩
    exact ⟨hkey, htexts _ (by simp [rowTexts, freshRow]), htexts _ (by simp [rowTexts, freshRow]),
      hinteger⟩
  · rintro ⟨hkey, hassignedAt, hcorrelationId, hinteger⟩
    refine ⟨hvalue, hkey, ?_, hinteger⟩
    simp only [rowTexts, freshRow, List.cons_append, List.nil_append, List.forall_mem_cons,
      Option.mem_toList]
    exact ⟨hassignedAt, columns.text_action _, hcorrelationId, columns.text_status _,
      columns.text_dumps _, columns.text_dumps _, fun reason hreason =>
        columns.text_reason reason (hcoded reason hreason)⟩

end Columns

/-! ## The endpoint -/

/-- The answer to what the handler returned or raised; `none` is an exception of
the database. -/
def httpAnswer : Option (Except PyError RoleSyncResponse) → HttpAnswer
  | some (.ok response) => .ok response
  | some (.error _) => .uncaught
  | none => .uncaught

variable {codec : JsonCodec} (columns : Columns codec) (guildId : ℤ)

/-- `POST /role-sync`. -/
def postRoleSync (payload : JsonValue) : RoleM HttpAnswer :=
  match validateRequest framework payload with
  | none => return roleSyncValidationErrorHandler framework payload
  | some body => do
      let returned ← (roleSync codec guildId body).abortAt columns.Refuses
      return httpAnswer returned

/-! ## The rows of reachable states -/

variable {framework columns guildId} {payload : JsonValue} {body : RoleSyncRequest}
  {w w' : World} {trace : List (Exchange RoleEffects)} {answer : HttpAnswer}

/-- The states that requests lead to, from an empty table.  Between requests
anything but the rows may change. -/
inductive RowsReached (framework : Framework Obj) (columns : Columns codec) (guildId : ℤ) :
    World → Prop
  | start {w : World} : (∀ id, w.states id = none) → RowsReached framework columns guildId w
  | post {w w' : World} {payload : JsonValue} {trace : List (Exchange RoleEffects)}
      {answer : HttpAnswer} : RowsReached framework columns guildId w →
      (postRoleSync framework columns guildId payload).Runs roleMachine w trace answer w' →
      RowsReached framework columns guildId w'
  | elsewhere {w w' : World} : RowsReached framework columns guildId w →
      w'.states = w.states → RowsReached framework columns guildId w'

/-- Every row was written by the endpoint, under a numeric id. -/
def WrittenRows (codec : JsonCodec) (w : World) : Prop :=
  ∀ id row, w.states id = some row →
    (int id).isSome ∧ ∃ body result, row = freshRow codec body result

/-- The operations of a request: it reads and writes a row of its own. -/
private def writesOwn (codec : JsonCodec) (body : RoleSyncRequest) : RoleOp → Prop
  | .sessionGet discordId => discordId = body.discordId
  | .upsert row => (int body.discordId).isSome ∧ ∃ result, row = freshRow codec body result
  | _ => True

private theorem uses_writesOwn :
    (roleSync codec guildId body).Uses (writesOwn codec body) fun _ => True :=
  uses_roleSync rfl (fun hid result => ⟨hid, result, rfl⟩) fun _ _ =>
    ⟨fun _ => trivial, fun _ => trivial, trivial, trivial, fun _ => trivial, fun _ => trivial⟩

/-- **Step lemma.**  A request, however it ends, leaves rows of the endpoint. -/
theorem writtenRows_of_abortAt {returned : Option (Except PyError RoleSyncResponse)}
    (hrows : WrittenRows codec w)
    (h : ((roleSync codec guildId body).abortAt columns.Refuses).Runs roleMachine w trace
      returned w') : WrittenRows codec w' := by
  refine h.keeps (WrittenRows codec) uses_writesOwn.abortAt ?_ ?_ hrows
  · rintro o w ⟨hown, -⟩ hrows
    cases o with
    | upsert row =>
        obtain ⟨hid, result, rfl⟩ := hown
        intro id row hrow
        by_cases heq : id = body.discordId
        · subst heq
          obtain rfl := Option.some.inj ((states_upsert_freshRow w result).symm.trans hrow)
          exact ⟨hid, body, result, rfl⟩
        · exact hrows id row ((states_upsert_of_ne w result heq).symm.trans hrow)
    | sessionGet => exact hrows
    | selectDayRoleMap => exact hrows
    | getRole => exact hrows
    | getMember => exact hrows
    | environForcePartial => exact hrows
  · rintro call outcome w - hrows
    cases call <;> cases outcome <;> exact hrows

/-- The two ways of a body. -/
theorem runs_postRoleSync
    (h : (postRoleSync framework columns guildId payload).Runs roleMachine w trace answer w') :
    (validateRequest framework payload = none ∧
        answer = roleSyncValidationErrorHandler framework payload ∧ trace = [] ∧ w' = w) ∨
      ∃ body returned, validateRequest framework payload = some body ∧
        answer = httpAnswer returned ∧
        ((roleSync codec guildId body).abortAt columns.Refuses).Runs roleMachine w trace
          returned w' := by
  unfold postRoleSync at h
  cases hbody : validateRequest framework payload with
  | none =>
      rw [hbody] at h
      obtain ⟨rfl, rfl, rfl⟩ := h
      exact .inl ⟨rfl, rfl, rfl, rfl⟩
  | some body =>
      simp only [hbody] at h
      obtain ⟨first, returned, w₁, second, rfl, hrun, rfl, rfl, rfl⟩ := Coroutine.runs_bind.mp h
      rw [List.append_nil]
      exact .inr ⟨body, returned, rfl, rfl, hrun⟩

/-- **Run lemma.** -/
theorem RowsReached.writtenRows (h : RowsReached framework columns guildId w) :
    WrittenRows codec w := by
  induction h with
  | start hempty => exact fun id row hrow => absurd hrow (by simp [hempty])
  | post _ hrun ih =>
      rcases runs_postRoleSync hrun with ⟨-, -, -, rfl⟩ | ⟨body, returned, -, -, hrun⟩
      · exact ih
      · exact writtenRows_of_abortAt ih hrun
  | elsewhere _ hstates ih =>
      intro id row hrow
      rw [hstates] at hrow
      exact ih id row hrow

/-! ## What the handler returns -/

/-- The stored row answers: it has the key of the request, or is newer. -/
def AnsweredByRow (w : World) (body : RoleSyncRequest) : Prop :=
  ∃ row, w.states body.discordId = some row ∧
    (keyMatches row body ∨ body.assignedAt < row.lastAssignedAt)

/-- The rows of the endpoint answer with a response. -/
theorem WrittenRows.answered_of_rowAnswer (h : WrittenRows codec w)
    {value : Except PyError RoleSyncResponse} (hanswer : rowAnswer codec w body = some value) :
    AnsweredByRow w body ∧ ∃ response, value = .ok response := by
  obtain ⟨row, hrow, hanswer⟩ := Option.bind_eq_some_iff.mp hanswer
  obtain ⟨-, earlier, result, rfl⟩ := h _ row hrow
  rw [storedAnswer_freshRow] at hanswer
  split at hanswer
  next hkey => exact ⟨⟨_, hrow, .inl hkey⟩, _, (Option.some.inj hanswer).symm⟩
  next hkey =>
    unfold staleWrite at hanswer
    split at hanswer
    next hstale => exact ⟨⟨_, hrow, .inr hstale⟩, _, (Option.some.inj hanswer).symm⟩
    next => exact absurd hanswer (by simp)

theorem WrittenRows.not_answeredByRow (h : WrittenRows codec w)
    (hnone : rowAnswer codec w body = none) : ¬AnsweredByRow w body := by
  rintro ⟨row, hrow, hkey | hstale⟩
  · obtain ⟨-, earlier, result, rfl⟩ := h _ row hrow
    rw [rowAnswer, hrow, Option.bind_some, storedAnswer_freshRow, if_pos hkey] at hnone
    exact absurd hnone (by simp)
  · exact not_le.mpr hstale (le_of_rowAnswer_none hrow hnone)

/-- An unassign without a recorded day. -/
def NothingToRemove (w : World) (body : RoleSyncRequest) : Prop :=
  body.action = .unassign ∧ recordedDay w body.discordId = none

theorem resolvedDay_ne_none (hday : ¬NothingToRemove w body) : resolvedDay w body ≠ none := by
  rw [resolvedDay]
  cases haction : body.action with
  | assign =>
      obtain ⟨day, hsome⟩ := body.exists_dayNumber haction
      simp [hsome]
  | unassign => exact fun hnone => hday ⟨haction, hnone⟩

/-- A fresh write invokes the service, where there is something to do. -/
theorem afterLookup_of_fresh (hnone : rowAnswer codec w body = none)
    (hday : ¬NothingToRemove w body) :
    afterLookup codec guildId body (w.states body.discordId) =
      invokeService codec guildId body (resolvedDay w body) := by
  rw [rowAnswer] at hnone
  simp only [afterLookup, hnone, freshWrite]
  cases haction : body.action with
  | assign => simp [resolvedDay, haction]
  | unassign =>
      have hrecorded := resolvedDay_ne_none hday
      rw [resolvedDay, haction] at hrecorded ⊢
      obtain ⟨day, hsome⟩ := Option.ne_none_iff_exists'.mp hrecorded
      simp only [recordedDay] at hsome ⊢
      simp [hsome, body.dayNumber_of_unassign haction]

theorem afterLookup_of_nothingToRemove (hnone : rowAnswer codec w body = none)
    (hday : NothingToRemove w body) :
    afterLookup codec guildId body (w.states body.discordId) = .done (.ok nothingRecorded) := by
  obtain ⟨haction, hrecorded⟩ := hday
  rw [rowAnswer] at hnone
  rw [recordedDay] at hrecorded
  simp only [afterLookup, hnone, freshWrite, haction, body.dayNumber_of_unassign haction, hrecorded,
    and_self, if_true]
  rfl

/-- The service writes no row of its own, so the row holds one of its results. -/
theorem fresh_of_invokeService {day : Option ℤ} {row : MemberRoleSyncState}
    {next : Unit → RoleM (Except PyError RoleSyncResponse)}
    (hreaches : (invokeService codec guildId body day).Reaches roleMachine w trace
      (.op (.upsert row) next) w') :
    (int body.discordId).isSome ∧ ∃ result : RoleSyncResult, result.Coded ∧
      row = freshRow codec body result := by
  unfold invokeService at hreaches
  cases hid : int body.discordId with
  | none =>
      rw [hid] at hreaches
      exact absurd (Coroutine.Reaches.of_done hreaches).1 (by simp)
  | some discordId =>
      simp only [hid] at hreaches
      refine ⟨rfl, ?_⟩
      rcases hreaches.of_bind_op with ⟨next', hservice⟩ | ⟨_, result, _, _, -, hruns, hrest⟩
      · have huses : (applyDayRole guildId discordId body.action day).Uses
            (fun o => ∀ row, o ≠ RoleOp.upsert row) fun _ => True :=
          uses_applyDayRole ⟨by simp, by simp, by simp, by simp, by simp, by simp⟩ ..
        exact absurd rfl ((hservice.uses huses).1 row)
      · cases result with
        | error => exact absurd (Coroutine.Reaches.of_done hrest).1 (by simp)
        | ok result =>
            rcases Coroutine.Reaches.of_op hrest with ⟨-, heq, -⟩ | hdone
            · obtain ⟨heq, -⟩ := Coroutine.op.inj heq
              exact ⟨result, runs_applyDayRole_coded hruns, RoleOp.upsert.inj heq⟩
            · exact absurd (Coroutine.Reaches.of_done hdone).1 (by simp)

/-- The handler writes only as a fresh write of a numeric id. -/
theorem fresh_of_reaches_upsert {row : MemberRoleSyncState}
    {next : Unit → RoleM (Except PyError RoleSyncResponse)}
    (hreaches : (roleSync codec guildId body).Reaches roleMachine w trace
      (.op (.upsert row) next) w') :
    rowAnswer codec w body = none ∧ ¬NothingToRemove w body ∧ (int body.discordId).isSome ∧
      ∃ result : RoleSyncResult, result.Coded ∧ row = freshRow codec body result := by
  rcases Coroutine.Reaches.of_op hreaches with ⟨-, heq, -⟩ | hreaches
  · exact nomatch (Coroutine.op.inj heq).1
  · have hreaches : (afterLookup codec guildId body (w.states body.discordId)).Reaches roleMachine w
        trace (.op (.upsert row) next) w' := hreaches
    cases hanswer : rowAnswer codec w body with
    | some answer =>
        rw [rowAnswer] at hanswer
        simp only [afterLookup, hanswer] at hreaches
        exact absurd (Coroutine.Reaches.of_done hreaches).1 (by simp)
    | none =>
        by_cases hday : NothingToRemove w body
        · rw [afterLookup_of_nothingToRemove hanswer hday] at hreaches
          exact absurd (Coroutine.Reaches.of_done hreaches).1 (by simp)
        · rw [afterLookup_of_fresh hanswer hday] at hreaches
          exact ⟨rfl, hday, fresh_of_invokeService hreaches⟩

/-- The handler raises only where there is work to do for an id that is no number. -/
theorem WrittenRows.notANumber_of_error {error : PyError} (h : WrittenRows codec w)
    (hok : ReturnsOrForbidden trace)
    (hrun : (roleSync codec guildId body).Runs roleMachine w trace (.error error) w') :
    rowAnswer codec w body = none ∧ ¬NothingToRemove w body ∧ int body.discordId = none := by
  generalize hvalue : (Except.error error : Except PyError RoleSyncResponse) = value at hrun
  cases runs_roleSync hrun with
  | stored hanswer =>
      obtain ⟨-, response, hresponse⟩ := h.answered_of_rowAnswer hanswer
      exact absurd (hvalue.trans hresponse) (by simp)
  | nothingRecorded => exact absurd hvalue (by simp)
  | written => exact absurd hvalue (by simp)
  | raised _ _ _ hservice =>
      obtain ⟨result, hresult⟩ := exists_result_of_runs hok hservice
      exact absurd hresult (by simp)
  | notANumber hnone hid =>
      refine ⟨hnone, fun ⟨haction, hrecorded⟩ => ?_, hid⟩
      have hday : resolvedDay w body = none := by rw [resolvedDay, haction, hrecorded]
      obtain ⟨-, hreturned, -⟩ := (runs_roleSync_of_nothingRecorded hnone haction hday).mp hrun
      exact absurd (hvalue.trans hreturned) (by simp)

/-- A fresh write comes to its UPSERT once the service has returned. -/
theorem reaches_upsert {discordId : ℤ} {result : RoleSyncResult}
    (hnone : rowAnswer codec w body = none) (hid : int body.discordId = some discordId)
    (hday : ¬NothingToRemove w body)
    (hservice : (applyDayRole guildId discordId body.action (resolvedDay w body)).Runs roleMachine w
      trace (.ok result) w') :
    ∃ next, (roleSync codec guildId body).Reaches roleMachine w trace
      (.op (.upsert (freshRow codec body result)) next) w' := by
  have hfirst : (roleSync codec guildId body).Reaches roleMachine w []
      (afterLookup codec guildId body (w.states body.discordId)) w :=
    .op .start
  rw [afterLookup_of_fresh hnone hday] at hfirst
  simp only [invokeService, hid] at hfirst
  exact ⟨_, hfirst.trans hservice.reaches_bind⟩

/-! ## Which bodies are answered -/

/-- A valid request that the handler can serve: its row can be looked up, and
that row answers, or there is no day to remove, or the id is a number and the
row of the request can be written. -/
def Serviceable (columns : Columns codec) (w : World) (body : RoleSyncRequest) : Prop :=
  columns.value body.discordId ∧
    (AnsweredByRow w body ∨ NothingToRemove w body ∨
      (int body.discordId).isSome ∧ columns.Storable body)

/-- A body that is answered: its errors have a JSON text, or it is serviceable. -/
structure Answerable (framework : Framework Obj) (columns : Columns codec) (w : World)
    (payload : JsonValue) : Prop where
  rejected : validateRequest framework payload = none →
    (framework.render (cleanValidationErrors framework (framework.errors payload))).isSome
  valid : ∀ body, validateRequest framework payload = some body → Serviceable columns w body

/-- A body is answered as promised: 400 for an invalid one, 400 or 200 for any,
and nothing changes with a 400. -/
structure Total (framework : Framework Obj) (payload : JsonValue) (w : World)
    (answer : HttpAnswer) (w' : World) : Prop where
  invalid : validateRequest framework payload = none → ∃ content, answer = .badRequest content
  answered : (∃ content, answer = .badRequest content) ∨ ∃ response, answer = .ok response
  unchanged : ∀ content, answer = .badRequest content → w' = w

/-- The row was looked up, so the database took the id. -/
theorem value_of_returned {value : Except PyError RoleSyncResponse}
    (h : ((roleSync codec guildId body).abortAt columns.Refuses).Runs roleMachine w trace
      (some value) w') : columns.value body.discordId := by
  have hfirst : ∃ next, (roleSync codec guildId body).Reaches roleMachine w []
      (.op (.sessionGet body.discordId) next) w := ⟨_, .start⟩
  obtain ⟨next, hfirst⟩ := hfirst
  exact not_not.mp (Coroutine.not_refused_of_runs_abortAt h hfirst List.nil_prefix)

/-- A response is built from a stored row, or from the row that was just written. -/
theorem serviceable_of_response (hrows : WrittenRows codec w) {response : RoleSyncResponse}
    (h : ((roleSync codec guildId body).abortAt columns.Refuses).Runs roleMachine w trace
      (some (.ok response)) w') : Serviceable columns w body := by
  have hlookup := value_of_returned h
  refine ⟨hlookup, ?_⟩
  have hrun := h.of_abortAt
  generalize hvalue : (Except.ok response : Except PyError RoleSyncResponse) = value at hrun
  cases runs_roleSync hrun with
  | notANumber => exact absurd hvalue (by simp)
  | raised => exact absurd hvalue (by simp)
  | stored hanswer => exact .inl (hrows.answered_of_rowAnswer hanswer).1
  | nothingRecorded _ haction hday =>
      rw [resolvedDay, haction] at hday
      exact .inr (.inl ⟨haction, hday⟩)
  | written hnone hid hday hservice =>
      have hday : ¬NothingToRemove w body := by
        rintro ⟨haction, hrecorded⟩
        exact hday haction (by rw [resolvedDay, haction, hrecorded])
      -- the write was issued, so the database took the row
      obtain ⟨next, hreaches⟩ : ∃ next, (roleSync codec guildId body).Reaches roleMachine w trace
          (.op (.upsert (freshRow codec body _)) next) _ :=
        reaches_upsert hnone hid hday hservice
      have htakes := not_not.mp
        (Coroutine.not_refused_of_runs_abortAt h hreaches List.prefix_rfl)
      exact .inr (.inr ⟨by rw [hid, Option.isSome_some],
        (takes_freshRow_iff hlookup (runs_applyDayRole_coded hservice)).mp htakes⟩)

/-- The database refuses the look-up, or a row that nothing can answer in place of. -/
theorem not_serviceable_of_aborted (hrows : WrittenRows codec w)
    (h : ((roleSync codec guildId body).abortAt columns.Refuses).Runs roleMachine w trace
      none w') : ¬Serviceable columns w body := by
  rintro ⟨hlookup, hserviceable⟩
  obtain ⟨o, next, hreaches, hrefused⟩ := Coroutine.exists_refused_of_runs_abortAt h
  cases o with
  | sessionGet discordId =>
      obtain rfl : discordId = body.discordId := (hreaches.uses uses_writesOwn).1
      exact hrefused hlookup
  | upsert row =>
      obtain ⟨hnone, hday, hid, result, hcoded, rfl⟩ := fresh_of_reaches_upsert hreaches
      rcases hserviceable with hanswered | hnothing | ⟨-, hstorable⟩
      · exact hrows.not_answeredByRow hnone hanswered
      · exact hday hnothing
      · exact hrefused ((takes_freshRow_iff hlookup hcoded).mpr hstorable)
  | selectDayRoleMap => exact hrefused.elim
  | getRole => exact hrefused.elim
  | getMember => exact hrefused.elim
  | environForcePartial => exact hrefused.elim

theorem not_serviceable_of_raised (hrows : WrittenRows codec w) {error : PyError}
    (h : ((roleSync codec guildId body).abortAt columns.Refuses).Runs roleMachine w trace
      (some (.error error)) w') (hok : ReturnsOrForbidden trace) :
    ¬Serviceable columns w body := by
  obtain ⟨hnone, hday, hid⟩ := hrows.notANumber_of_error hok h.of_abortAt
  rintro ⟨-, hanswered | hnothing | ⟨hnumeric, -⟩⟩
  · exact hrows.not_answeredByRow hnone hanswered
  · exact hday hnothing
  · exact absurd hnumeric (by simp [hid])

/-- A valid request gets a response exactly if it is serviceable. -/
theorem exists_response_iff (hrows : WrittenRows codec w)
    {returned : Option (Except PyError RoleSyncResponse)}
    (h : ((roleSync codec guildId body).abortAt columns.Refuses).Runs roleMachine w trace
      returned w') (hok : ReturnsOrForbidden trace) :
    (∃ response, returned = some (.ok response)) ↔ Serviceable columns w body := by
  constructor
  · rintro ⟨response, rfl⟩
    exact serviceable_of_response hrows h
  · intro hserviceable
    cases returned with
    | none => exact absurd hserviceable (not_serviceable_of_aborted hrows h)
    | some value =>
        cases value with
        | ok response => exact ⟨response, rfl⟩
        | error error => exact absurd hserviceable (not_serviceable_of_raised hrows h hok)

/-- 400 needs errors that have a JSON text. -/
theorem exists_badRequest_iff :
    (∃ content, roleSyncValidationErrorHandler framework payload = .badRequest content) ↔
      (framework.render (cleanValidationErrors framework (framework.errors payload))).isSome := by
  unfold roleSyncValidationErrorHandler
  cases framework.render (cleanValidationErrors framework (framework.errors payload)) <;> simp

/-- The handler itself never answers 400. -/
theorem httpAnswer_ne_badRequest {returned : Option (Except PyError RoleSyncResponse)}
    (content : String) : httpAnswer returned ≠ .badRequest content := by
  unfold httpAnswer
  split <;> simp

theorem exists_httpAnswer_ok_iff {returned : Option (Except PyError RoleSyncResponse)} :
    (∃ response, httpAnswer returned = .ok response) ↔
      ∃ response, returned = some (.ok response) := by
  unfold httpAnswer
  split <;> simp

theorem total_iff_of_invalid (hinvalid : validateRequest framework payload = none) :
    Total framework payload w (roleSyncValidationErrorHandler framework payload) w ↔
      Answerable framework columns w payload := by
  constructor
  · intro htotal
    exact ⟨fun _ => exists_badRequest_iff.mp (htotal.invalid hinvalid), fun body hbody =>
      absurd (hinvalid.symm.trans hbody) (by simp)⟩
  · intro hanswerable
    have hrejected := exists_badRequest_iff.mpr (hanswerable.rejected hinvalid)
    exact ⟨fun _ => hrejected, .inl hrejected, fun _ _ => rfl⟩

theorem total_iff_of_valid {returned : Option (Except PyError RoleSyncResponse)}
    (hvalid : validateRequest framework payload = some body)
    (hresponse : (∃ response, returned = some (.ok response)) ↔ Serviceable columns w body) :
    Total framework payload w (httpAnswer returned) w' ↔
      Answerable framework columns w payload := by
  constructor
  · intro htotal
    refine ⟨fun hnone => absurd (hnone.symm.trans hvalid) (by simp), fun body' hbody' => ?_⟩
    obtain rfl := Option.some.inj (hvalid.symm.trans hbody')
    rcases htotal.answered with ⟨content, hbad⟩ | hgood
    · exact absurd hbad (httpAnswer_ne_badRequest content)
    · exact hresponse.mp (exists_httpAnswer_ok_iff.mp hgood)
  · intro hanswerable
    have hgood := exists_httpAnswer_ok_iff.mpr (hresponse.mpr (hanswerable.valid body hvalid))
    exact ⟨fun hnone => absurd (hnone.symm.trans hvalid) (by simp), .inr hgood,
      fun content hbad => absurd hbad (httpAnswer_ne_badRequest content)⟩

/-- **Totality.**  In every reachable state, a body is answered as promised
exactly if it is answerable. -/
theorem postRoleSync_total_iff (hreached : RowsReached framework columns guildId w)
    (hrun : (postRoleSync framework columns guildId payload).Runs roleMachine w trace answer w')
    (hok : ReturnsOrForbidden trace) :
    Total framework payload w answer w' ↔ Answerable framework columns w payload := by
  obtain ⟨hinvalid, rfl, -, rfl⟩ | ⟨body, returned, hvalid, rfl, hhandled⟩ :=
    runs_postRoleSync hrun
  · exact total_iff_of_invalid hinvalid
  · exact total_iff_of_valid hvalid (exists_response_iff hreached.writtenRows hhandled hok)

/-! ## An id that is no number -/

/-- Fields without coercions; the errors of a body give its type only. -/
def plainFramework : Framework JsonValue where
  strField | .str text => some text | _ => none
  intField | .int n => some n | _ => none
  errors _ := [[("type", .str "value_error")]]
  dictItems | .obj members => some members | _ => none
  ofStrings members := .obj (members.map fun (k, v) => (k, .str v))
  str _ := ""
  render _ := some "value_error"
  strField_str _ := rfl
  intField_int _ := rfl

/-- The body of an assign for a member. -/
def assignPayload (discordId : String) : JsonValue :=
  .obj [("discord_id", .str discordId), ("siege_id", .int 1), ("day_number", .int 1),
    ("action", .str "assign"), ("assigned_at", .str "T1"), ("correlation_id", .str "c")]

/-- The text has no NUL. -/
def nulFree (text : String) : Bool :=
  !text.toList.contains (Char.ofNat 0)

/-- The columns in PostgreSQL: no text with a NUL, an index for keys of up to
2704 bytes, integers of 32 bits. -/
def postgresColumns : Columns intLists where
  value := nulFree
  key text := nulFree text && text.utf8ByteSize ≤ 2704
  text := nulFree
  integer n := -2147483648 ≤ n && n < 2147483648
  text_action action := by cases action <;> decide
  text_status status := by cases status <;> decide
  text_dumps roles := by simp [nulFree, intLists, nul_notMem_dumpInts]
  text_reason := by decide

theorem validateRequest_assignPayload (discordId : String) :
    validateRequest plainFramework (assignPayload discordId) =
      some ⟨discordId, 1, some 1, .assign, "T1", "c", by simp⟩ := by
  simp [validateRequest, assignPayload, jsonMembers, plainFramework, List.lookup_cons, optionalInt,
    literalAction, actionOfText?, Action.text]

theorem smallGuild_rowsReached :
    RowsReached plainFramework postgresColumns 1 smallGuild :=
  .start fun _ => rfl

theorem postRoleSync_total_numeric :
    ∃ answer w', (postRoleSync plainFramework postgresColumns 1 (assignPayload "7")).Runs
        roleMachine smallGuild [⟨.addRoles 7 101, .ok ()⟩] answer w' ∧
      Total plainFramework (assignPayload "7") smallGuild answer w' := by
  have hruns : ∃ w', (postRoleSync plainFramework postgresColumns 1 (assignPayload "7")).Runs
      roleMachine smallGuild [⟨.addRoles 7 101, .ok ()⟩]
      (.ok ⟨.applied, [101], [], none, none⟩) w' :=
    ⟨_, .ok (), [], rfl, rfl, rfl, rfl⟩
  obtain ⟨w', hruns⟩ := hruns
  refine ⟨_, w', hruns, (postRoleSync_total_iff smallGuild_rowsReached hruns
    (by simp [ReturnsOrForbidden])).mpr ⟨fun hinvalid => ?_, fun body hvalid => ?_⟩⟩
  · exact absurd hinvalid (by simp [validateRequest_assignPayload])
  · rw [validateRequest_assignPayload] at hvalid
    obtain rfl := Option.some.inj hvalid
    exact ⟨by decide, .inr (.inr ⟨by decide, by decide, by decide, by decide, by decide⟩)⟩

/-- **A body that is never answered.**  Its id is not the text of a number. -/
theorem postRoleSync_uncaught :
    RowsReached plainFramework postgresColumns 1 smallGuild ∧
      (validateRequest plainFramework (assignPayload "abc")).isSome ∧
      (postRoleSync plainFramework postgresColumns 1 (assignPayload "abc")).Runs roleMachine
        smallGuild [] .uncaught smallGuild ∧
      ¬Total plainFramework (assignPayload "abc") smallGuild .uncaught smallGuild := by
  refine ⟨smallGuild_rowsReached, by rw [validateRequest_assignPayload]; rfl, ⟨rfl, rfl, rfl⟩, ?_⟩
  · intro htotal
    rcases htotal.answered with ⟨content, hbad⟩ | ⟨response, hgood⟩
    · exact absurd hbad (by simp)
    · exact absurd hgood (by simp)

end MomBot.Sidecar
