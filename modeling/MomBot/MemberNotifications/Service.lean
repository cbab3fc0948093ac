import Mathlib.Data.List.Infix
import MomBot.Python.Int
import MomBot.Reminders.Scheduler

/-!
# `MemberNotificationService`

The table `member_notification` with the log that refers to it.  Its NOT NULL, UNIQUE,
CHECK and foreign-key clauses are fields of `NotificationStore`, so a store that breaks
one cannot be built; a statement that would break one ends in an `IntegrityError`.

`create` takes its arguments as they are annotated.  The keyword arguments of `update`
are unchecked objects: a column that is not in them is `none`, and one that is set to
`None` is `some none`.  Every operation returns what it returns or raises together with
the store it leaves.
-/

namespace MomBot.MemberNotifications

open Cooperative Python Reminders

/-! ## Validation -/

/-- What the column `cadence` holds for a text. -/
def Cadence.ofText : String → Cadence
  | "weekly" => .weekly
  | "biweekly" => .biweekly
  | "monthly" => .monthly
  | text => .other text

/-- The cadence is none of the three. -/
def Cadence.isOther : Cadence → Bool
  | other _ => true
  | _ => false

/-- `_VALID_CADENCES`. -/
def validCadences : List String := ["weekly", "biweekly", "monthly"]

/-- What the database reports, with the text of the driver. -/
inductive IntegrityError where
  | notNull (column : String)
  | unique (column : String)
  | check (constraint : String)
  deriving DecidableEq, Repr

/-- SQLite's words for a violation. -/
def IntegrityError.text : IntegrityError → String
  | notNull column => "NOT NULL constraint failed: " ++ column
  | unique column => "UNIQUE constraint failed: " ++ column
  | check constraint => "CHECK constraint failed: " ++ constraint

/-- What an operation raises.  The first two are plain `ValueError`s. -/
inductive ServiceError where
  | unknownFields (fields : List String)
  | invalidCadence (cadence : Option String)
  | invalidDiscordId (value : String)
  | duplicateNotification (name : String)
  | notificationNotFound (name : String)
  | integrityError (error : IntegrityError)
  deriving DecidableEq, Repr

/-- `_NAME_UNIQUE_MARKER`. -/
def nameUniqueMarker : String := "member_notification.name"

/-- `_validate_discord_id`. -/
def validateDiscordId (value : String) : Except ServiceError Unit :=
  if value = "" then .error (.invalidDiscordId value)
  else
    match int value with
    | none => .error (.invalidDiscordId value)
    | some n => if toString n ≠ value then .error (.invalidDiscordId value) else .ok ()

theorem Cadence.isOther_ofText {text : String} (h : text ∈ validCadences) :
    (Cadence.ofText text).isOther = false := by
  simp only [validCadences, List.mem_cons, List.not_mem_nil, or_false] at h
  obtain rfl | rfl | rfl := h <;> rfl

/-- An accepted id can be read as a number. -/
theorem int_isSome_of_validateDiscordId {value : String} (h : validateDiscordId value = .ok ()) :
    (int value).isSome = true := by
  unfold validateDiscordId at h
  split at h
  next => cases h
  next =>
    cases hint : int value with
    | none => simp [hint] at h
    | some n => rfl

/-! ## The store -/

/-- A row of `member_notifications` with all its columns. -/
structure StoredNotification extends MemberNotification where
  name : String
  createdAt : ℤ
  updatedAt : ℤ
  deriving DecidableEq, Repr

/-- `ck_member_notification_fire_time_no_seconds`. -/
def noSeconds (fireTimeUtc : Time) : Bool :=
  fireTimeUtc.microseconds / microsecondsPerSecond % 60 = 0

/-- The two CHECK clauses. -/
def StoredNotification.checks (row : StoredNotification) : Bool :=
  noSeconds row.fireTimeUtc && !row.cadence.isOther

/-- The two tables; their keys, constraints and foreign key are fields. -/
structure NotificationStore where
  rows : List StoredNotification
  sent : SentTable
  primaryKey : (rows.map fun row => row.id).Nodup
  uniqueName : (rows.map StoredNotification.name).Nodup
  checks : ∀ row ∈ rows, row.checks = true
  foreignKey : ∀ sentRow ∈ sent.rows, sentRow.owner ∈ rows.map fun row => row.id

namespace NotificationStore

/-- Both tables are empty. -/
def empty : NotificationStore where
  rows := []
  sent := ⟨[], 1, List.nodup_nil, List.nodup_nil, List.forall_mem_nil _⟩
  primaryKey := List.nodup_nil
  uniqueName := List.nodup_nil
  checks := List.forall_mem_nil _
  foreignKey := List.forall_mem_nil _

/-! ### Statements -/

/-- The CHECK clause that a row breaks. -/
def brokenCheck? (row : StoredNotification) : Option IntegrityError :=
  if noSeconds row.fireTimeUtc = false then
    some (.check "ck_member_notification_fire_time_no_seconds")
  else if row.cadence.isOther then some (.check "ck_member_notification_cadence")
  else none

theorem checks_of_brokenCheck? {row : StoredNotification} (h : brokenCheck? row = none) :
    row.checks = true := by
  unfold brokenCheck? at h
  split at h
  next => cases h
  next hfire =>
    split at h
    next => cases h
    next hcadence => simp [StoredNotification.checks, hfire, hcadence]

/-- INSERT and COMMIT, with the id that the database assigns. -/
def insert (s : NotificationStore) (row : StoredNotification) :
    Except IntegrityError NotificationStore :=
  match hcheck : brokenCheck? row with
  | some error => .error error
  | none =>
      -- CHECK clauses are tested before the keys
      if hid : row.id ∈ s.rows.map fun row => row.id then
        .error (.unique "member_notification.id")
      else if hname : row.name ∈ s.rows.map StoredNotification.name then
        .error (.unique "member_notification.name")
      else
        .ok
          { rows := s.rows ++ [row]
            sent := s.sent
            primaryKey := by
              rw [List.map_append]
              refine s.primaryKey.append (List.nodup_singleton _) ?_
              intro id hold hnew
              obtain rfl := List.mem_singleton.mp hnew
              exact hid hold
            uniqueName := by
              rw [List.map_append]
              refine s.uniqueName.append (List.nodup_singleton _) ?_
              intro name hold hnew
              obtain rfl := List.mem_singleton.mp hnew
              exact hname hold
            checks := by
              intro other hother
              rcases List.mem_append.mp hother with hold | hnew
              · exact s.checks other hold
              · obtain rfl := List.mem_singleton.mp hnew
                exact checks_of_brokenCheck? hcheck
            foreignKey := by
              intro sentRow hsent
              rw [List.map_append]
              exact List.mem_append_left _ (s.foreignKey sentRow hsent) }

/-- The table with `new` in the place of the row of its name. -/
def replaced (new row : StoredNotification) : StoredNotification :=
  if row.name = new.name then new else row

/-- UPDATE and COMMIT of one row; the id and the name stay. -/
def replace (s : NotificationStore) (old new : StoredNotification) (hold : old ∈ s.rows)
    (hid : new.id = old.id) (hname : new.name = old.name) (hchecks : new.checks = true) :
    NotificationStore :=
  have hids : (s.rows.map (replaced new)).map (fun row => row.id) =
      s.rows.map fun row => row.id := by
    rw [List.map_map]
    refine List.map_congr_left fun row hrow => ?_
    simp only [Function.comp_apply, replaced]
    split
    next heq =>
      -- names are unique, so only the row that was read is replaced
      have hsame : row = old :=
        List.inj_on_of_nodup_map s.uniqueName hrow hold (heq.trans hname)
      rw [hsame, hid]
    next => rfl
  have hnames : (s.rows.map (replaced new)).map StoredNotification.name =
      s.rows.map StoredNotification.name := by
    rw [List.map_map]
    refine List.map_congr_left fun row _ => ?_
    simp only [Function.comp_apply, replaced]
    split
    next heq => exact heq.symm
    next => rfl
  { rows := s.rows.map (replaced new)
    sent := s.sent
    primaryKey := by
      rw [hids]
      exact s.primaryKey
    uniqueName := by
      rw [hnames]
      exact s.uniqueName
    checks := by
      intro row hrow
      obtain ⟨before, hbefore, rfl⟩ := List.mem_map.mp hrow
      unfold replaced
      split
      next => exact hchecks
      next => exact s.checks before hbefore
    foreignKey := by
      rw [hids]
      exact s.foreignKey }

/-- DELETE and COMMIT of one row; the log rows that refer to it go too. -/
def remove (s : NotificationStore) (old : StoredNotification) (hold : old ∈ s.rows) :
    NotificationStore where
  rows := s.rows.filter fun row => row.name ≠ old.name
  sent := s.sent.deleteOwner old.id
  primaryKey := s.primaryKey.sublist (List.filter_sublist.map _)
  uniqueName := s.uniqueName.sublist (List.filter_sublist.map _)
  checks row hrow := s.checks row (List.mem_of_mem_filter hrow)
  foreignKey sentRow hsent := by
    obtain ⟨hmem, hother⟩ := List.mem_filter.mp hsent
    obtain ⟨row, hrow, hid⟩ := List.mem_map.mp (s.foreignKey sentRow hmem)
    refine List.mem_map.mpr ⟨row, List.mem_filter.mpr ⟨hrow, ?_⟩, hid⟩
    apply decide_eq_true
    intro hname
    have hsame : row = old := List.inj_on_of_nodup_map s.uniqueName hrow hold hname
    subst hsame
    exact of_decide_eq_true hother hid.symm

/-- `mark_sent` of `MemberNotificationSentStore`. -/
def insertSent (s : NotificationStore) (owner : ℤ) (date : Date) : NotificationStore :=
  { s with
    sent := (s.sent.insert (owner ∈ s.rows.map fun row => row.id) owner date).2
    foreignKey := by
      intro sentRow hsent
      rcases SentTable.mem_rows_of_mem_insert hsent with hold | ⟨hexists, rfl⟩
      · exact s.foreignKey sentRow hold
      · exact of_decide_eq_true hexists }

/-- A row of the log is deleted. -/
def deleteSent (s : NotificationStore) (rowId : ℕ) : NotificationStore :=
  { s with
    sent := s.sent.delete rowId
    foreignKey := fun sentRow hsent => s.foreignKey sentRow (SentTable.mem_rows_delete.mp hsent).1 }

end NotificationStore

/-! ## Updated columns -/

/-- The columns that `update` may set, as a row holds them. -/
structure Columns where
  targetDiscordId : String
  anchorDateUtc : Date
  fireTimeUtc : Time
  cadence : Cadence
  messageTemplate : String
  enabled : Bool
  deriving DecidableEq, Repr

/-- The keyword arguments of `update`.  `unknown` are the keys outside `_MUTABLE_FIELDS`. -/
structure Fields where
  targetDiscordId : Option String
  anchorDateUtc : Option (Option Date)
  fireTimeUtc : Option (Option Time)
  cadence : Option (Option String)
  messageTemplate : Option (Option String)
  enabled : Option (Option Bool)
  unknown : List String
  deriving DecidableEq, Repr

/-- The columns that the commands set. -/
def StoredNotification.columns (row : StoredNotification) : Columns :=
  ⟨row.targetDiscordId, row.anchorDateUtc, row.fireTimeUtc, row.cadence, row.messageTemplate,
    row.enabled⟩

/-- `updated_at` moves only if the UPDATE has something to write. -/
def StoredNotification.setColumns (row : StoredNotification) (now : ℤ) (columns : Columns) :
    StoredNotification where
  id := row.id
  targetDiscordId := columns.targetDiscordId
  anchorDateUtc := columns.anchorDateUtc
  fireTimeUtc := columns.fireTimeUtc
  cadence := columns.cadence
  messageTemplate := columns.messageTemplate
  enabled := columns.enabled
  name := row.name
  createdAt := row.createdAt
  updatedAt := if columns = row.columns then row.updatedAt else now

@[simp] theorem StoredNotification.columns_setColumns (row : StoredNotification) (now : ℤ)
    (columns : Columns) : (row.setColumns now columns).columns = columns := rfl

/-- `setattr` on a column that is NOT NULL. -/
def assigned {α : Type} (column : String) (given : Option (Option α)) (old : α) :
    Except IntegrityError α :=
  match given with
  | none => .ok old
  | some (some value) => .ok value
  | some none => .error (.notNull column)

/-- The row after `setattr`, as the UPDATE would write it. -/
def Fields.assign (fields : Fields) (old : Columns) : Except IntegrityError Columns := do
  let anchorDateUtc ← assigned "member_notification.anchor_date_utc" fields.anchorDateUtc
    old.anchorDateUtc
  let fireTimeUtc ← assigned "member_notification.fire_time_utc" fields.fireTimeUtc old.fireTimeUtc
  let cadence ← assigned "member_notification.cadence"
    (fields.cadence.map fun given => given.map Cadence.ofText) old.cadence
  let messageTemplate ← assigned "member_notification.message_template" fields.messageTemplate
    old.messageTemplate
  let enabled ← assigned "member_notification.enabled" fields.enabled old.enabled
  return ⟨fields.targetDiscordId.getD old.targetDiscordId, anchorDateUtc, fireTimeUtc, cadence,
    messageTemplate, enabled⟩

/-! ## The operations -/

namespace NotificationStore

/-- `create`.  `id` and `now` are what the database assigns. -/
def create (s : NotificationStore) (id now : ℤ) (name targetDiscordId : String)
    (anchorDateUtc : Date) (fireTimeUtc : Time) (cadence messageTemplate : String)
    (enabled : Bool) : Except ServiceError StoredNotification × NotificationStore :=
  -- the checks of the service come before the session is opened
  if cadence ∉ validCadences then (.error (.invalidCadence cadence), s)
  else
    match validateDiscordId targetDiscordId with
    | .error exc => (.error exc, s)
    | .ok () =>
        let row : StoredNotification :=
          ⟨⟨id, targetDiscordId, anchorDateUtc, fireTimeUtc, Cadence.ofText cadence,
            messageTemplate, enabled⟩, name, now, now⟩
        match s.insert row with
        | .ok s' => (.ok row, s')
        | .error exc =>
            -- the driver's text names the columns of the constraint that is broken
            if nameUniqueMarker.toList <:+: exc.text.toList then
              (.error (.duplicateNotification name), s)
            else (.error (.integrityError exc), s)

/-- `get`. -/
def get (s : NotificationStore) (name : String) : Option StoredNotification :=
  s.rows.find? fun row => row.name = name

/-- The commit of `update`: a row that breaks a CHECK clause is rolled back. -/
def updateRow (s : NotificationStore) (now : ℤ) (row : StoredNotification) (hrow : row ∈ s.rows)
    (columns : Columns) : Except ServiceError StoredNotification × NotificationStore :=
  match hcheck : brokenCheck? (row.setColumns now columns) with
  | some exc => (.error (.integrityError exc), s)
  | none =>
      (.ok (row.setColumns now columns),
        s.replace row (row.setColumns now columns) hrow rfl rfl (checks_of_brokenCheck? hcheck))

/-- `update` once its arguments are checked. -/
def updateNamed (s : NotificationStore) (now : ℤ) (name : String) (fields : Fields) :
    Except ServiceError StoredNotification × NotificationStore :=
  match hrow : s.get name with
  | none => (.error (.notificationNotFound name), s)
  | some row =>
      match fields.assign row.columns with
      | .error exc => (.error (.integrityError exc), s)
      | .ok columns => s.updateRow now row (List.mem_of_find?_eq_some hrow) columns

/-- The checks of `update` on its arguments. -/
def validateFields (fields : Fields) : Except ServiceError Unit :=
  -- unknown keys first, then the cadence, then the id
  if fields.unknown ≠ [] then .error (.unknownFields fields.unknown)
  else
    match fields.cadence with
    | some cadence =>
        if (∃ text ∈ cadence, text ∈ validCadences) then validateTarget fields
        else .error (.invalidCadence cadence)
    | none => validateTarget fields
where
  validateTarget (fields : Fields) : Except ServiceError Unit :=
    match fields.targetDiscordId with
    | some value => validateDiscordId value
    | none => .ok ()

/-- `update`, which validates before it looks for the row. -/
def update (s : NotificationStore) (now : ℤ) (name : String) (fields : Fields) :
    Except ServiceError StoredNotification × NotificationStore :=
  match validateFields fields with
  | .error exc => (.error exc, s)
  | .ok () => s.updateNamed now name fields

/-- `delete`, which takes the log of the row with it. -/
def delete (s : NotificationStore) (name : String) : Except ServiceError Unit × NotificationStore :=
  match hrow : s.get name with
  | none => (.error (.notificationNotFound name), s)
  | some row => (.ok (), s.remove row (List.mem_of_find?_eq_some hrow))

end NotificationStore

end MomBot.MemberNotifications
