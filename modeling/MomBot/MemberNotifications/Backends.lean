import Mathlib.Data.List.Infix
import MomBot.Python.Decimal
import MomBot.MemberNotifications.StoreContract

/-!
# `create` on SQLite and on PostgreSQL

`create` looks for `_NAME_UNIQUE_MARKER` in the text of the driver.  SQLite puts the table
and the column there, PostgreSQL the constraint and a DETAIL line with values of the row:

```text
                 SQLite                          PostgreSQL
name exists      … member_notification.name      … "member_notification_name_key"
                                                 Key (name)=(<name>) already exists.
id exists        … member_notification.id        … "member_notification_pkey"
                                                 Key (id)=(<id>) already exists.
CHECK clause     … <constraint>                  … "<constraint>"
                                                 <the failing row>
```

So the marker never comes from PostgreSQL itself, only from a value of the row
(`createOn_classified_iff`).
-/

namespace MomBot.MemberNotifications

open MomBot.Python

/-! ## The marker in a longer text -/

theorem prefix_of_prefix_append_cons {α : Type} {w xs ys : List α} {c : α} (hc : c ∉ w)
    (h : w <+: xs ++ c :: ys) : w <+: xs := by
  induction xs generalizing w with
  | nil =>
      cases w with
      | nil => exact List.nil_prefix
      | cons a w =>
          obtain ⟨rfl, -⟩ := List.cons_prefix_cons.mp h
          exact absurd List.mem_cons_self hc
  | cons x xs ih =>
      cases w with
      | nil => exact List.nil_prefix
      | cons a w =>
          obtain ⟨rfl, hrest⟩ := List.cons_prefix_cons.mp h
          exact List.cons_prefix_cons.mpr
            ⟨rfl, ih (fun hmem => hc (List.mem_cons_of_mem _ hmem)) hrest⟩

/-- A word does not reach over a character that it has not. -/
theorem infix_append_cons_iff {α : Type} {w xs ys : List α} {c : α} (hc : c ∉ w) :
    w <:+: xs ++ c :: ys ↔ w <:+: xs ∨ w <:+: ys := by
  constructor
  · intro h
    induction xs with
    | nil =>
        rcases List.infix_cons_iff.mp h with h | h
        · have hprefix : w <+: [] := prefix_of_prefix_append_cons hc h
          exact .inl hprefix.isInfix
        · exact .inr h
    | cons x xs ih =>
        rcases List.infix_cons_iff.mp h with h | h
        · have hprefix : w <+: x :: xs := prefix_of_prefix_append_cons hc h
          exact .inl hprefix.isInfix
        · exact (ih h).imp_left List.infix_cons
  · rintro (h | h)
    · exact h.trans List.infix_append_left
    · exact (h.trans (List.suffix_cons c ys).isInfix).trans List.infix_append_right

/-! ## The two backends -/

/-- `echo` is the DETAIL of PostgreSQL for a row that breaks a CHECK clause. -/
inductive Backend where
  | sqlite
  | postgresql (echo : StoredNotification → String)

/-- A message of PostgreSQL and its DETAIL line. -/
def withDetail (message detail : String) : String := message ++ "\nDETAIL: " ++ " " ++ detail

/-- The DETAIL line for a key that is there already. -/
def keyExists (column value : String) : String :=
  "Key (" ++ column ++ ")=" ++ "(" ++ value ++ ")" ++ " already exists."

/-- `str(exc.orig)` of psycopg. -/
def postgresText (echo : StoredNotification → String) (row : StoredNotification) :
    IntegrityError → String
  | .unique column =>
      if column = "member_notification.name" then
        withDetail "duplicate key value violates unique constraint \"member_notification_name_key\""
          (keyExists "name" row.name)
      else
        withDetail "duplicate key value violates unique constraint \"member_notification_pkey\""
          (keyExists "id" (toString row.id))
  | .check constraint =>
      withDetail ("new row for relation \"member_notification\" violates check constraint \"" ++
        constraint ++ "\"") (echo row)
  | .notNull column =>
      withDetail ("null value in column \"" ++ column ++
        "\" of relation \"member_notification\" violates not-null constraint") (echo row)

namespace Backend

/-- `str(exc.orig)`. -/
def text : Backend → StoredNotification → IntegrityError → String
  | .sqlite, _, exc => exc.text
  | .postgresql echo, row, exc => postgresText echo row exc

/-- `_fire_time_check_expr`.  `EXTRACT(SECOND FROM …)` has the microseconds in it, which
`strftime('%S', …)` drops. -/
def fireTimeCheck : Backend → Time → Bool
  | .sqlite, fireTimeUtc => noSeconds fireTimeUtc
  | .postgresql _, fireTimeUtc => fireTimeUtc.IsMinute

end Backend

namespace NotificationStore

/-- INSERT and COMMIT on a backend. -/
def insertOn (backend : Backend) (s : NotificationStore) (row : StoredNotification) :
    Except IntegrityError NotificationStore :=
  if backend.fireTimeCheck row.fireTimeUtc = false then
    .error (.check "ck_member_notification_fire_time_no_seconds")
  else s.insert row

/-- The constraints that a row breaks. -/
def violations (backend : Backend) (s : NotificationStore) (row : StoredNotification) :
    List IntegrityError :=
  (if backend.fireTimeCheck row.fireTimeUtc = false then
    [.check "ck_member_notification_fire_time_no_seconds"] else []) ++
  (if row.cadence.isOther then [.check "ck_member_notification_cadence"] else []) ++
  (if row.id ∈ s.rows.map fun row => row.id then [.unique "member_notification.id"] else []) ++
  (if row.name ∈ s.rows.map StoredNotification.name then
    [.unique "member_notification.name"] else [])

end NotificationStore

/-- The arguments of `create`, with the id and the time that the database assigns. -/
structure CreateCall where
  id : ℤ
  now : ℤ
  name : String
  targetDiscordId : String
  anchorDateUtc : Date
  fireTimeUtc : Time
  cadence : String
  messageTemplate : String
  enabled : Bool

/-- The row that the call would store. -/
def CreateCall.row (call : CreateCall) : StoredNotification :=
  ⟨⟨call.id, call.targetDiscordId, call.anchorDateUtc, call.fireTimeUtc,
    Cadence.ofText call.cadence, call.messageTemplate, call.enabled⟩, call.name, call.now, call.now⟩

namespace NotificationStore

/-- `create` on a backend. -/
def createOn (backend : Backend) (s : NotificationStore) (call : CreateCall) :
    Except ServiceError StoredNotification × NotificationStore :=
  if call.cadence ∉ validCadences then (.error (.invalidCadence call.cadence), s)
  else
    match validateDiscordId call.targetDiscordId with
    | .error exc => (.error exc, s)
    | .ok () =>
        match s.insertOn backend call.row with
        | .ok s' => (.ok call.row, s')
        | .error exc =>
            if nameUniqueMarker.toList <:+: (backend.text call.row exc).toList then
              (.error (.duplicateNotification call.name), s)
            else (.error (.integrityError exc), s)

/-- On SQLite it is `create`. -/
theorem createOn_sqlite (s : NotificationStore) (call : CreateCall) :
    s.createOn .sqlite call = s.create call.id call.now call.name call.targetDiscordId
      call.anchorDateUtc call.fireTimeUtc call.cadence call.messageTemplate call.enabled := by
  have hinsert : s.insertOn .sqlite call.row = s.insert call.row := by
    unfold insertOn
    split
    next hcheck =>
      have hbroken : brokenCheck? call.row =
          some (.check "ck_member_notification_fire_time_no_seconds") := if_pos hcheck
      unfold insert
      split
      next exc hexc => rw [Option.some.inj (hexc.symm.trans hbroken)]
      next hnone => exact nomatch hbroken.symm.trans hnone
    next => rfl
  unfold createOn create
  rw [hinsert]
  rfl

theorem noSeconds_of_fireTimeCheck {backend : Backend} {fireTimeUtc : Time}
    (h : backend.fireTimeCheck fireTimeUtc = true) : noSeconds fireTimeUtc = true := by
  cases backend with
  | sqlite => exact h
  | postgresql echo =>
      have hminute : fireTimeUtc.microseconds % microsecondsPerMinute = 0 := of_decide_eq_true h
      simp only [microsecondsPerMinute, microsecondsPerSecond] at hminute
      apply decide_eq_true
      simp only [microsecondsPerSecond]
      omega

/-- The first broken constraint is the one that is reported. -/
theorem insertOn_cases (backend : Backend) (s : NotificationStore) (row : StoredNotification) :
    (∃ s', s.insertOn backend row = .ok s' ∧ s.violations backend row = []) ∨
      ∃ exc rest, s.insertOn backend row = .error exc ∧
        s.violations backend row = exc :: rest := by
  unfold insertOn violations
  by_cases hfire : backend.fireTimeCheck row.fireTimeUtc = false
  · rw [if_pos hfire, if_pos hfire]
    exact .inr ⟨_, _, rfl, rfl⟩
  rw [if_neg hfire, if_neg hfire, List.nil_append]
  have hseconds : noSeconds row.fireTimeUtc ≠ false := by
    rw [noSeconds_of_fireTimeCheck (by simpa using hfire)]
    decide
  have hbroken : brokenCheck? row = if row.cadence.isOther then
      some (.check "ck_member_notification_cadence") else none := if_neg hseconds
  by_cases hcadence : row.cadence.isOther = true
  · rw [if_pos hcadence]
    rw [if_pos hcadence] at hbroken
    refine .inr ⟨_, _, ?_, rfl⟩
    unfold insert
    split
    next exc hexc => rw [Option.some.inj (hexc.symm.trans hbroken)]
    next hnone => exact nomatch hbroken.symm.trans hnone
  rw [if_neg hcadence, List.nil_append]
  rw [if_neg hcadence] at hbroken
  unfold insert
  split
  next exc hexc => exact nomatch hexc.symm.trans hbroken
  next =>
    by_cases hid : row.id ∈ s.rows.map fun row => row.id
    · rw [dif_pos hid, if_pos hid]
      exact .inr ⟨_, _, rfl, rfl⟩
    by_cases hname : row.name ∈ s.rows.map StoredNotification.name
    · rw [dif_neg hid, dif_pos hname, if_neg hid, if_pos hname]
      exact .inr ⟨_, _, rfl, rfl⟩
    · rw [dif_neg hid, dif_neg hname, if_neg hid, if_neg hname]
      exact .inl ⟨_, rfl, rfl⟩

/-- What the docstring of `create` promises about one call that breaks a constraint. -/
structure Classified (backend : Backend) (s : NotificationStore) (call : CreateCall) : Prop where
  duplicate : call.name ∈ s.rows.map StoredNotification.name →
    (s.createOn backend call).1 = .error (.duplicateNotification call.name)
  propagated : ∀ exc ∈ s.violations backend call.row, exc ≠ .unique "member_notification.name" →
    (s.createOn backend call).1 = .error (.integrityError exc)
  unchanged : s.violations backend call.row ≠ [] → (s.createOn backend call).2 = s

end NotificationStore

/-- The text of the driver has the marker exactly when the name is taken. -/
def Backend.TextTells : Backend → StoredNotification → IntegrityError → Prop
  | .sqlite, _, _ => True
  | .postgresql _, row, .unique column =>
      column = "member_notification.name" → nameUniqueMarker.toList <:+: row.name.toList
  | .postgresql echo, row, .check _ => ¬ nameUniqueMarker.toList <:+: (echo row).toList
  | .postgresql _, _, .notNull _ => True

/-! ## Where the marker is found -/

/-- The constraints that a row can break. -/
def constraints : List IntegrityError :=
  [.check "ck_member_notification_fire_time_no_seconds", .check "ck_member_notification_cadence",
    .unique "member_notification.id", .unique "member_notification.name"]

theorem mem_constraints {backend : Backend} {s : NotificationStore} {row : StoredNotification}
    {exc : IntegrityError} (hexc : exc ∈ s.violations backend row) : exc ∈ constraints := by
  simp only [NotificationStore.violations, List.mem_append] at hexc
  rcases hexc with ((h | h) | h) | h
  all_goals
    split at h
    next => simp [List.mem_singleton.mp h, constraints]
    next => simp at h

theorem mem_violations_name {backend : Backend} {s : NotificationStore} {row : StoredNotification} :
    .unique "member_notification.name" ∈ s.violations backend row ↔
      row.name ∈ s.rows.map StoredNotification.name := by
  simp only [NotificationStore.violations, List.mem_append]
  constructor
  · rintro (((h | h) | h) | h)
    all_goals
      split at h
      next hbroken => first | exact hbroken | simp at h
      next => simp at h
  · intro h
    rw [if_pos h]
    exact .inr List.mem_cons_self

theorem not_marker_toString (n : ℤ) : ¬ nameUniqueMarker.toList <:+: (toString n).toList := by
  intro h
  have hmem : 'm' ∈ (toString n).toList := h.subset (by decide)
  rw [toString_toList] at hmem
  have hdigit : ∀ k : ℕ, 'm' ∉ Nat.toDigits 10 k := by
    intro k hk
    have := Nat.isDigit_of_mem_toDigits (by omega) (by omega) hk
    simp at this
  split at hmem
  next => exact hdigit _ hmem
  next =>
    rcases List.mem_cons.mp hmem with h | h
    · simp at h
    · exact hdigit _ h

/-- The marker has no space, so a message and its DETAIL line are searched one by one. -/
theorem marker_withDetail_iff {message detail : String}
    (hmessage : ¬ nameUniqueMarker.toList <:+: (message ++ "\nDETAIL: ").toList) :
    nameUniqueMarker.toList <:+: (withDetail message detail).toList ↔
      nameUniqueMarker.toList <:+: detail.toList := by
  have hspace : ' ' ∉ nameUniqueMarker.toList := by decide
  have htext : (withDetail message detail).toList =
      (message ++ "\nDETAIL: ").toList ++ ' ' :: detail.toList := by
    simp [withDetail, String.toList_append]
  rw [htext, infix_append_cons_iff hspace, or_iff_right hmessage]

/-- It has no bracket either. -/
theorem marker_keyExists_iff {column value : String}
    (hcolumn : ¬ nameUniqueMarker.toList <:+: ("Key (" ++ column ++ ")=").toList) :
    nameUniqueMarker.toList <:+: (keyExists column value).toList ↔
      nameUniqueMarker.toList <:+: value.toList := by
  have hopen : '(' ∉ nameUniqueMarker.toList := by decide
  have hclose : ')' ∉ nameUniqueMarker.toList := by decide
  have hafter : ¬ nameUniqueMarker.toList <:+: " already exists.".toList := by decide
  have htext : (keyExists column value).toList =
      ("Key (" ++ column ++ ")=").toList ++
        '(' :: (value.toList ++ ')' :: " already exists.".toList) := by
    simp [keyExists, String.toList_append]
  rw [htext, infix_append_cons_iff hopen, infix_append_cons_iff hclose, or_iff_right hcolumn,
    or_iff_left hafter]

/-- On each backend the test of `create` is right for a broken constraint if and only if
the text tells. -/
theorem textTells_iff {backend : Backend} {row : StoredNotification} {exc : IntegrityError}
    (hexc : exc ∈ constraints) :
    backend.TextTells row exc ↔
      (nameUniqueMarker.toList <:+: (backend.text row exc).toList ↔
        exc = .unique "member_notification.name") := by
  cases backend with
  | sqlite =>
      have hall : ∀ exc ∈ constraints, nameUniqueMarker.toList <:+: exc.text.toList ↔
          exc = .unique "member_notification.name" := by
        decide +kernel
      exact iff_of_true trivial (hall exc hexc)
  | postgresql echo =>
      simp only [constraints, List.mem_cons, List.not_mem_nil, or_false] at hexc
      rcases hexc with rfl | rfl | rfl | rfl
      · rw [Backend.text, postgresText, marker_withDetail_iff (by decide +kernel)]
        simp [Backend.TextTells]
      · rw [Backend.text, postgresText, marker_withDetail_iff (by decide +kernel)]
        simp [Backend.TextTells]
      · rw [Backend.text, postgresText, if_neg (by decide),
          marker_withDetail_iff (by decide +kernel), marker_keyExists_iff (by decide +kernel)]
        refine iff_of_true ?_ (iff_of_false (not_marker_toString _) (by decide))
        intro h
        exact absurd h (by decide)
      · rw [Backend.text, postgresText, if_pos rfl, marker_withDetail_iff (by decide +kernel),
          marker_keyExists_iff (by decide +kernel)]
        simp [Backend.TextTells]

/-! ## The classification -/

variable {backend : Backend} {s : NotificationStore} {call : CreateCall}

theorem createOn_of_violation (hcadence : call.cadence ∈ validCadences)
    (hid : validateDiscordId call.targetDiscordId = .ok ()) {exc : IntegrityError}
    (hone : s.violations backend call.row = [exc]) :
    s.createOn backend call =
      (if nameUniqueMarker.toList <:+: (backend.text call.row exc).toList then
        .error (.duplicateNotification call.name) else .error (.integrityError exc), s) := by
  have hinsert : s.insertOn backend call.row = .error exc := by
    rcases s.insertOn_cases backend call.row with ⟨s', -, hnone⟩ | ⟨first, rest, herror, hfirst⟩
    · rw [hone] at hnone
      cases hnone
    · rw [hone] at hfirst
      rw [herror, (List.cons.inj hfirst).1]
  unfold NotificationStore.createOn
  rw [if_neg (not_not_intro hcadence), hid]
  simp only [hinsert]
  split <;> rfl

/-- `create` reports what happened unless the text of the driver misleads it. -/
theorem createOn_classified_iff (hcadence : call.cadence ∈ validCadences)
    (hid : validateDiscordId call.targetDiscordId = .ok ())
    (hone : (s.violations backend call.row).length ≤ 1) :
    s.Classified backend call ↔
      ∀ exc ∈ s.violations backend call.row, backend.TextTells call.row exc := by
  have hname : .unique "member_notification.name" ∈ s.violations backend call.row ↔
      call.row.name ∈ s.rows.map StoredNotification.name := mem_violations_name
  rcases hviolations : s.violations backend call.row with _ | ⟨exc, rest⟩
  · rw [hviolations] at hname
    refine iff_of_true ⟨fun h => ?_, ?_, fun h => absurd hviolations h⟩ (List.forall_mem_nil _)
    · exact absurd (hname.mpr h) List.not_mem_nil
    · rw [hviolations]
      exact List.forall_mem_nil _
  · obtain rfl : rest = [] := by
      rw [hviolations] at hone
      exact List.length_eq_zero_iff.mp (by simpa using hone)
    have hcreate := createOn_of_violation hcadence hid hviolations
    have hexc : exc ∈ constraints := mem_constraints (hviolations ▸ List.mem_cons_self)
    rw [List.forall_mem_singleton, textTells_iff hexc]
    rw [hviolations, List.mem_singleton] at hname
    constructor
    · intro hclassified
      constructor
      · intro hmarker
        by_contra hother
        have hpropagated := hclassified.propagated exc (hviolations ▸ List.mem_cons_self) hother
        rw [hcreate, if_pos hmarker] at hpropagated
        simp at hpropagated
      · intro hduplicate
        by_contra hmarker
        have hreported := hclassified.duplicate (hname.mp hduplicate.symm)
        rw [hcreate, if_neg hmarker] at hreported
        simp at hreported
    · intro htells
      refine ⟨fun h => ?_, fun exc' hexc' hother => ?_, fun _ => by rw [hcreate]⟩
      · rw [hcreate, if_pos (htells.mpr (hname.mpr h).symm)]
      · rw [hviolations] at hexc'
        obtain rfl := List.mem_singleton.mp hexc'
        rw [hcreate, if_neg (mt htells.mp hother)]

/-- A weekly notification with a name. -/
def weeklyCall (id : ℤ) (name : String) : CreateCall :=
  ⟨id, 0, name, "42", ⟨739818, by decide⟩, Time.noon, "weekly", "Raid tonight.", true⟩

/-- The table with one notification. -/
def weeklyStore (name : String) : NotificationStore :=
  { NotificationStore.empty with
    rows := [(weeklyCall 1 name).row]
    primaryKey := List.nodup_singleton _
    uniqueName := List.nodup_singleton _
    checks := by
      intro row hrow
      have hchecks : (noSeconds Time.noon && !(Cadence.ofText "weekly").isOther) = true := by decide
      rw [List.mem_singleton.mp hrow]
      exact hchecks
    foreignKey := List.forall_mem_nil _ }

/-- The values of the text columns, as PostgreSQL lists them. -/
def failingRow (row : StoredNotification) : String :=
  "Failing row contains (" ++ toString row.id ++ ", " ++ row.name ++ ", " ++ row.targetDiscordId ++
    ", " ++ row.messageTemplate ++ ")."

/-- A taken name that happens to be the marker is reported. -/
theorem createOn_classified_iff_marker :
    (weeklyStore nameUniqueMarker).Classified (.postgresql failingRow)
      (weeklyCall 2 nameUniqueMarker) := by
  refine (createOn_classified_iff (by decide) (by decide) (by decide)).mpr ?_
  have hviolations : (weeklyStore nameUniqueMarker).violations (.postgresql failingRow)
      (weeklyCall 2 nameUniqueMarker).row = [.unique "member_notification.name"] := by
    decide
  rw [hviolations, List.forall_mem_singleton]
  exact fun _ => List.infix_rfl

/-- On PostgreSQL a taken name is an `IntegrityError`. -/
theorem createOn_postgresql_duplicate :
    ((weeklyStore "raid").createOn (.postgresql failingRow) (weeklyCall 2 "raid")).1 =
        .error (.integrityError (.unique "member_notification.name")) ∧
      ((weeklyStore "raid").violations (.postgresql failingRow)
        (weeklyCall 2 "raid").row).length = 1 ∧
      ¬ (weeklyStore "raid").Classified (.postgresql failingRow) (weeklyCall 2 "raid") := by
  have hcreate : ((weeklyStore "raid").createOn (.postgresql failingRow) (weeklyCall 2 "raid")).1 =
      .error (.integrityError (.unique "member_notification.name")) := by
    decide +kernel
  refine ⟨hcreate, by decide, fun h => ?_⟩
  have hduplicate := h.duplicate (by decide)
  rw [hcreate] at hduplicate
  simp at hduplicate

end MomBot.MemberNotifications
