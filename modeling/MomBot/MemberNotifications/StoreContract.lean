import MomBot.MemberNotifications.Service
import MomBot.Python.Raise

/-!
# What the notification store keeps

Officers create, update and delete notifications, and the scheduler claims and releases
slots, in any order.  The clauses of the table keep its names unique and its cadences
readable.  That every recipient is a number is kept by the two validators alone, and the
DM loop relies on it.

Each operation has a relation that lists its outcomes (`Creates`, `Updates`, `Deletes`);
everything below is read off from these.
-/

namespace MomBot.MemberNotifications

open Cooperative Python Reminders

/-! ## Outcomes of the operations -/

/-- A column after `setattr`: as given, or else unchanged. -/
def Sets {α : Type} (given : Option (Option α)) (old new : α) : Prop :=
  given = none ∧ new = old ∨ given = some (some new)

/-- The given columns are new, the others are as they were. -/
structure Fields.Set (fields : Fields) (old new : Columns) : Prop where
  targetDiscordId : new.targetDiscordId = fields.targetDiscordId.getD old.targetDiscordId
  anchorDateUtc : Sets fields.anchorDateUtc old.anchorDateUtc new.anchorDateUtc
  fireTimeUtc : Sets fields.fireTimeUtc old.fireTimeUtc new.fireTimeUtc
  cadence : Sets (fields.cadence.map fun given => given.map Cadence.ofText) old.cadence new.cadence
  messageTemplate : Sets fields.messageTemplate old.messageTemplate new.messageTemplate
  enabled : Sets fields.enabled old.enabled new.enabled

theorem sets_of_assigned {α : Type} {column : String} {given : Option (Option α)} {old new : α}
    (h : assigned column given old = .ok new) : Sets given old new := by
  unfold assigned at h
  split at h
  next =>
    obtain rfl := Except.ok.inj h
    exact .inl ⟨rfl, rfl⟩
  next =>
    obtain rfl := Except.ok.inj h
    exact .inr rfl
  next => cases h

theorem Fields.set_of_assign {fields : Fields} {old new : Columns}
    (h : fields.assign old = .ok new) : fields.Set old new := by
  obtain ⟨anchorDateUtc, hanchor, h⟩ := bind_eq_ok_iff.mp h
  obtain ⟨fireTimeUtc, hfire, h⟩ := bind_eq_ok_iff.mp h
  obtain ⟨cadence, hcadence, h⟩ := bind_eq_ok_iff.mp h
  obtain ⟨messageTemplate, hmessage, h⟩ := bind_eq_ok_iff.mp h
  obtain ⟨enabled, henabled, h⟩ := bind_eq_ok_iff.mp h
  obtain rfl := Except.ok.inj h
  exact ⟨rfl, sets_of_assigned hanchor, sets_of_assigned hfire, sets_of_assigned hcadence,
    sets_of_assigned hmessage, sets_of_assigned henabled⟩

namespace NotificationStore

/-- What `create` can do. -/
inductive Creates (s : NotificationStore) (name : String) :
    Except ServiceError StoredNotification × NotificationStore → Prop
  | rejected (exc : ServiceError) : Creates s name (.error exc, s)
  | accepted {row : StoredNotification} {s' : NotificationStore} : row.name = name →
      validateDiscordId row.targetDiscordId = .ok () → s'.rows = s.rows ++ [row] →
      s'.sent = s.sent → Creates s name (.ok row, s')

/-- What `update` can do. -/
inductive Updates (s : NotificationStore) (name : String) (fields : Fields) :
    Except ServiceError StoredNotification × NotificationStore → Prop
  | rejected (exc : ServiceError) : Updates s name fields (.error exc, s)
  | accepted {old row : StoredNotification} {s' : NotificationStore} : old ∈ s.rows →
      old.name = name → row.id = old.id → row.name = name → row.createdAt = old.createdAt →
      fields.Set old.columns row.columns →
      (∀ value ∈ fields.targetDiscordId, validateDiscordId value = .ok ()) →
      s'.rows = s.rows.map (replaced row) → s'.sent = s.sent → Updates s name fields (.ok row, s')

/-- What `delete` can do. -/
inductive Deletes (s : NotificationStore) (name : String) :
    Except ServiceError Unit × NotificationStore → Prop
  | rejected (exc : ServiceError) : Deletes s name (.error exc, s)
  | accepted {old : StoredNotification} {s' : NotificationStore} : old ∈ s.rows →
      old.name = name → s'.rows = s.rows.filter (fun row => row.name ≠ name) →
      s'.sent.rows = s.sent.rows.filter (fun sentRow => sentRow.owner ≠ old.id) →
      Deletes s name (.ok (), s')

variable {s : NotificationStore} {name : String}

theorem rows_of_insert {row : StoredNotification} {s' : NotificationStore}
    (h : s.insert row = .ok s') : s'.rows = s.rows ++ [row] ∧ s'.sent = s.sent := by
  unfold insert at h
  split at h
  next => cases h
  next =>
    split at h
    next => cases h
    next =>
      split at h
      next => cases h
      next =>
        obtain rfl := Except.ok.inj h
        exact ⟨rfl, rfl⟩

theorem brokenCheck?_eq_none {row : StoredNotification} (h : row.checks = true) :
    brokenCheck? row = none := by
  obtain ⟨hfire, hcadence⟩ := Bool.and_eq_true_iff.mp h
  rw [Bool.not_eq_true'] at hcadence
  rw [brokenCheck?, hfire, hcadence]
  rfl

/-- A row that breaks no clause is inserted. -/
theorem exists_insert {row : StoredNotification} (hchecks : row.checks = true)
    (hid : row.id ∉ s.rows.map fun row => row.id)
    (hname : row.name ∉ s.rows.map StoredNotification.name) : ∃ s', s.insert row = .ok s' := by
  unfold insert
  split
  next exc hbroken => exact absurd (hbroken.symm.trans (brokenCheck?_eq_none hchecks)) (by simp)
  next =>
    rw [dif_neg hid, dif_neg hname]
    exact ⟨_, rfl⟩

/-- Valid arguments under a new id and a new name are accepted. -/
theorem rows_create {id now : ℤ} {targetDiscordId cadence messageTemplate : String}
    {anchorDateUtc : Date} {fireTimeUtc : Time} {enabled : Bool}
    (hcadence : cadence ∈ validCadences) (htarget : validateDiscordId targetDiscordId = .ok ())
    (hfire : noSeconds fireTimeUtc = true)
    (hid : id ∉ s.rows.map fun row => row.id)
    (hname : name ∉ s.rows.map StoredNotification.name) :
    (s.create id now name targetDiscordId anchorDateUtc fireTimeUtc cadence messageTemplate
      enabled).2.rows =
      s.rows ++ [⟨⟨id, targetDiscordId, anchorDateUtc, fireTimeUtc, .ofText cadence,
        messageTemplate, enabled⟩, name, now, now⟩] := by
  have hchecks : StoredNotification.checks ⟨⟨id, targetDiscordId, anchorDateUtc, fireTimeUtc,
      .ofText cadence, messageTemplate, enabled⟩, name, now, now⟩ = true := by
    rw [StoredNotification.checks, hfire, Cadence.isOther_ofText hcadence]
    rfl
  obtain ⟨s', hinsert⟩ := exists_insert hchecks hid hname
  unfold create
  rw [if_neg (not_not_intro hcadence), htarget]
  dsimp only
  rw [hinsert]
  exact (rows_of_insert hinsert).1

theorem create_creates (s : NotificationStore) (id now : ℤ) (name targetDiscordId : String)
    (anchorDateUtc : Date) (fireTimeUtc : Time) (cadence messageTemplate : String)
    (enabled : Bool) :
    s.Creates name (s.create id now name targetDiscordId anchorDateUtc fireTimeUtc cadence
      messageTemplate enabled) := by
  unfold create
  split
  next => exact .rejected _
  next =>
    split
    next => exact .rejected _
    next hvalid =>
      dsimp only
      split
      next s' hinsert =>
        obtain ⟨hrows, hsent⟩ := rows_of_insert hinsert
        exact .accepted rfl hvalid hrows hsent
      next =>
        split
        next => exact .rejected _
        next => exact .rejected _

theorem mem_of_get {row : StoredNotification} (h : s.get name = some row) :
    row ∈ s.rows ∧ row.name = name :=
  ⟨List.mem_of_find?_eq_some h, by simpa using List.find?_some h⟩

/-- Checked arguments have a recipient that is a number. -/
theorem validateDiscordId_of_validateFields {fields : Fields}
    (h : validateFields fields = .ok ()) :
    ∀ value ∈ fields.targetDiscordId, validateDiscordId value = .ok () := by
  intro value hvalue
  -- the check of the id is the last one on either path
  have htarget : validateFields.validateTarget fields = .ok () := by
    unfold validateFields at h
    split at h
    next => cases h
    next =>
      split at h
      next =>
        split at h
        next => exact h
        next => cases h
      next => exact h
  rw [validateFields.validateTarget, Option.mem_def.mp hvalue] at htarget
  exact htarget

theorem update_updates (s : NotificationStore) (now : ℤ) (name : String) (fields : Fields) :
    s.Updates name fields (s.update now name fields) := by
  unfold update
  split
  next => exact .rejected _
  next hvalid =>
    unfold updateNamed
    split
    next => exact .rejected _
    next row hrow =>
      obtain ⟨hmem, hname⟩ := mem_of_get hrow
      split
      next => exact .rejected _
      next columns hassign =>
        -- all arguments are in order: the row is written, unless a CHECK clause refuses it
        have hset : fields.Set row.columns (row.setColumns now columns).columns :=
          Fields.set_of_assign hassign
        unfold updateRow
        split
        next => exact .rejected _
        next =>
          exact .accepted hmem hname rfl hname rfl hset (validateDiscordId_of_validateFields hvalid)
            rfl rfl

theorem delete_deletes (s : NotificationStore) (name : String) :
    s.Deletes name (s.delete name) := by
  unfold delete
  split
  next => exact .rejected _
  next row hrow =>
    obtain ⟨hmem, rfl⟩ := mem_of_get hrow
    exact .accepted hmem rfl rfl rfl

/-! ## Runs -/

/-- What a run is made of: the calls of officers, and what the scheduler does to the log. -/
inductive Access where
  | create (id now : ℤ) (name targetDiscordId : String) (anchorDateUtc : Date)
      (fireTimeUtc : Time) (cadence messageTemplate : String) (enabled : Bool)
  | update (now : ℤ) (name : String) (fields : Fields)
  | delete (name : String)
  | markSent (owner : ℤ) (date : Date)
  | unmark (rowId : ℕ)

/-- The store after an access, and what the access raised. -/
def perform (s : NotificationStore) : Access → Except ServiceError Unit × NotificationStore
  | .create id now name targetDiscordId anchorDateUtc fireTimeUtc cadence messageTemplate enabled =>
      (s.create id now name targetDiscordId anchorDateUtc fireTimeUtc cadence messageTemplate
        enabled).map (Except.map fun _ => ()) fun s' => s'
  | .update now name fields => (s.update now name fields).map (Except.map fun _ => ()) fun s' => s'
  | .delete name => s.delete name
  | .markSent owner date => (.ok (), s.insertSent owner date)
  | .unmark rowId => (.ok (), s.deleteSent rowId)

/-- The store after a run that starts from an empty table. -/
def run (accesses : List Access) : NotificationStore :=
  accesses.foldl (fun s access => (s.perform access).2) empty

/-- Every recipient is a number. -/
def TargetsParse (s : NotificationStore) : Prop :=
  ∀ row ∈ s.rows, (int row.targetDiscordId).isSome = true

theorem TargetsParse.created {result : Except ServiceError StoredNotification × NotificationStore}
    (h : s.TargetsParse) (hcreates : s.Creates name result) : result.2.TargetsParse := by
  cases hcreates with
  | rejected exc => exact h
  | accepted _ hvalid hrows _ =>
      intro row hrow
      rw [hrows] at hrow
      rcases List.mem_append.mp hrow with hold | hnew
      · exact h row hold
      · obtain rfl := List.mem_singleton.mp hnew
        exact int_isSome_of_validateDiscordId hvalid

theorem TargetsParse.updated {fields : Fields}
    {result : Except ServiceError StoredNotification × NotificationStore} (h : s.TargetsParse)
    (hupdates : s.Updates name fields result) : result.2.TargetsParse := by
  cases hupdates with
  | rejected exc => exact h
  | @accepted old row _ hold _ _ _ _ hset hvalid hrows _ =>
      intro other hother
      rw [hrows] at hother
      obtain ⟨before, hbefore, rfl⟩ := List.mem_map.mp hother
      unfold replaced
      split
      next =>
        -- the new row has the given recipient, or that of the old row
        have htarget : row.targetDiscordId = fields.targetDiscordId.getD old.targetDiscordId :=
          hset.targetDiscordId
        cases hgiven : fields.targetDiscordId with
        | none =>
            rw [htarget, hgiven]
            exact h old hold
        | some value =>
            rw [htarget, hgiven]
            exact int_isSome_of_validateDiscordId (hvalid value hgiven)
      next => exact h before hbefore

theorem TargetsParse.deleted {result : Except ServiceError Unit × NotificationStore}
    (h : s.TargetsParse) (hdeletes : s.Deletes name result) : result.2.TargetsParse := by
  cases hdeletes with
  | rejected exc => exact h
  | accepted _ _ hrows _ =>
      intro row hrow
      rw [hrows] at hrow
      exact h row (List.mem_of_mem_filter hrow)

/-- **Step lemma.**  No access leaves a recipient that is not a number. -/
theorem TargetsParse.perform (h : s.TargetsParse) (access : Access) :
    (s.perform access).2.TargetsParse := by
  cases access with
  | create => exact h.created (create_creates s _ _ _ _ _ _ _ _ _)
  | update now name fields => exact h.updated (update_updates s now name fields)
  | delete name => exact h.deleted (delete_deletes s name)
  | markSent => exact h
  | unmark => exact h

/-- **Run lemma.** -/
theorem targetsParse_run (accesses : List Access) : (run accesses).TargetsParse := by
  have hrun : ∀ s : NotificationStore, s.TargetsParse →
      (accesses.foldl (fun s access => (s.perform access).2) s).TargetsParse := by
    induction accesses with
    | nil => exact fun s h => h
    | cons access rest ih => exact fun s h => ih _ (h.perform access)
  exact hrun empty (by simp [TargetsParse, empty])

/-! ## Due notifications -/

/-- The tables of the scheduler are those of the store. -/
structure HeldBy (s : NotificationStore) (w : World) : Prop where
  rows : w.memberNotifications.rows = s.rows.map fun row => row.toMemberNotification
  sent : w.sent .memberNotification = s.sent

/-- Due on a date at a time, without a row in the log. -/
def IsDue (s : NotificationStore) (today : Date) (nowTime : Time) (n : MemberNotification) : Prop :=
  n.enabled = true ∧ n.fireTimeUtc.microseconds ≤ nowTime.microseconds ∧
    isOccurrenceDate n.anchorDateUtc n.cadence today = some true ∧ (n.id, today) ∉ s.sent.keys

instance (s : NotificationStore) (today : Date) (nowTime : Time) :
    DecidablePred (s.IsDue today nowTime) :=
  fun _ => inferInstanceAs (Decidable (_ ∧ _))

/-- A cadence that the CHECK clause admits can be read. -/
theorem exists_isOccurrenceDate {cadence : Cadence} (h : cadence.isOther = false)
    (anchorDate today : Date) :
    ∃ occurs, isOccurrenceDate anchorDate cadence today = some occurs := by
  cases cadence with
  | weekly => exact ⟨_, rfl⟩
  | biweekly => exact ⟨_, rfl⟩
  | monthly =>
      dsimp only [isOccurrenceDate]
      split
      next => exact ⟨false, rfl⟩
      next =>
        split
        next => exact ⟨false, rfl⟩
        next => exact ⟨_, rfl⟩
  | other text => cases h

/-- The loop of `list_due` keeps the rows that are late enough and occur. -/
theorem dueRows_eq_filter {today : Date} {nowTime : Time} {rows : List MemberNotification}
    (h : ∀ row ∈ rows, row.cadence.isOther = false) :
    dueRows today nowTime rows = .ok (rows.filter fun n =>
      n.fireTimeUtc.microseconds ≤ nowTime.microseconds ∧
        isOccurrenceDate n.anchorDateUtc n.cadence today = some true) := by
  induction rows with
  | nil => rfl
  | cons row rest ih =>
      have hrest := ih fun other hother => h other (List.mem_cons_of_mem _ hother)
      obtain ⟨occurs, hoccurs⟩ := exists_isOccurrenceDate (h row List.mem_cons_self)
        row.anchorDateUtc today
      unfold dueRows
      split
      next hlate =>
        -- its time is ahead
        have hearly : ¬ row.fireTimeUtc.microseconds ≤ nowTime.microseconds := by omega
        simp [hrest, hearly]
      next hdue =>
        have htime : row.fireTimeUtc.microseconds ≤ nowTime.microseconds := by omega
        cases occurs <;> simp [hoccurs, hrest, htime]

theorem listDue_runs {w : World} (hheld : s.HeldBy w) (today : Date) (nowTime : Time) :
    (listDue today nowTime).Runs schedulerMachine w []
      (.ok ((s.rows.map fun row => row.toMemberNotification).filter
        fun n => s.IsDue today nowTime n)) w := by
  -- the CHECK clause on the cadence keeps the loop of `list_due` from raising
  have hcadences : ∀ n ∈ w.selectCandidates today, n.cadence.isOther = false := by
    intro n hn
    have hmem := List.mem_of_mem_filter hn
    rw [hheld.rows] at hmem
    obtain ⟨row, hrow, rfl⟩ := List.mem_map.mp hmem
    have hchecks := s.checks row hrow
    simp only [StoredNotification.checks, Bool.and_eq_true, Bool.not_eq_true'] at hchecks
    exact hchecks.2
  refine ⟨rfl, ?_, rfl⟩
  change _ = dueRows today nowTime (w.selectCandidates today)
  rw [dueRows_eq_filter hcadences, World.selectCandidates, hheld.rows, List.filter_filter]
  refine congrArg Except.ok (List.filter_congr fun n _ => ?_)
  simp only [IsDue, World.Sent, hheld.sent, ← Bool.decide_and]
  apply decide_eq_decide.mpr
  tauto

/-! ## The contract -/

theorem Creates.unchanged {result : Except ServiceError StoredNotification × NotificationStore}
    (h : s.Creates name result) {exc : ServiceError}
    (hexc : result.1.map (fun _ => ()) = .error exc) : result.2 = s := by
  cases h with
  | rejected exc => rfl
  | accepted => cases hexc

theorem Updates.unchanged {fields : Fields}
    {result : Except ServiceError StoredNotification × NotificationStore}
    (h : s.Updates name fields result) {exc : ServiceError}
    (hexc : result.1.map (fun _ => ()) = .error exc) : result.2 = s := by
  cases h with
  | rejected exc => rfl
  | accepted => cases hexc

theorem Deletes.unchanged {result : Except ServiceError Unit × NotificationStore}
    (h : s.Deletes name result) {exc : ServiceError} (hexc : result.1 = .error exc) :
    result.2 = s := by
  cases h with
  | rejected exc => rfl
  | accepted => cases hexc

/-- A rejected access leaves the store as it is. -/
theorem perform_rejected {access : Access} {exc : ServiceError}
    (h : (s.perform access).1 = .error exc) : (s.perform access).2 = s := by
  cases access with
  | create => exact (create_creates s _ _ _ _ _ _ _ _ _).unchanged h
  | update now name fields => exact (update_updates s now name fields).unchanged h
  | delete name => exact (delete_deletes s name).unchanged h
  | markSent => cases h
  | unmark => cases h

/-- An update changes the given columns of the named row, and at most `updated_at` besides. -/
def ChangesOnly (s : NotificationStore) (name : String) (fields : Fields)
    (row : StoredNotification) (s' : NotificationStore) : Prop :=
  ∃ old ∈ s.rows, old.name = name ∧ row.id = old.id ∧ row.name = name ∧
    row.createdAt = old.createdAt ∧ fields.Set old.columns row.columns ∧
    s'.rows = (s.rows.map fun other => if other.name = name then row else other) ∧
    s'.sent = s.sent

/-- A delete takes the named row and the log rows that refer to it. -/
def RemovesOnly (s : NotificationStore) (name : String) (s' : NotificationStore) : Prop :=
  ∃ old ∈ s.rows, old.name = name ∧ s'.rows = s.rows.filter (fun row => row.name ≠ name) ∧
    s'.sent.rows = s.sent.rows.filter fun sentRow => sentRow.owner ≠ old.id

theorem update_changesOnly {now : ℤ} {fields : Fields} {row : StoredNotification}
    {s' : NotificationStore} (h : s.update now name fields = (.ok row, s')) :
    s.ChangesOnly name fields row s' := by
  have hupdates := update_updates s now name fields
  rw [h] at hupdates
  cases hupdates with
  | @accepted old _ _ hold hname hid hrow hcreated hset _ hrows hsent =>
      refine ⟨old, hold, hname, hid, hrow, hcreated, hset, ?_, hsent⟩
      rw [hrows]
      refine List.map_congr_left fun other _ => ?_
      rw [replaced, hrow]

theorem delete_removesOnly {s' : NotificationStore} (h : s.delete name = (.ok (), s')) :
    s.RemovesOnly name s' := by
  have hdeletes := delete_deletes s name
  rw [h] at hdeletes
  cases hdeletes with
  | accepted hold hname hrows hsent => exact ⟨_, hold, hname, hrows, hsent⟩

/-- What holds of a store after any run, and of the next operation on it. -/
structure Contract (s : NotificationStore) : Prop where
  names : (s.rows.map StoredNotification.name).Nodup
  cadences : ∀ row ∈ s.rows, row.cadence = .weekly ∨ row.cadence = .biweekly ∨
    row.cadence = .monthly
  targets : s.TargetsParse
  rejected : ∀ access exc, (s.perform access).1 = .error exc → (s.perform access).2 = s
  updated : ∀ now name fields row s', s.update now name fields = (.ok row, s') →
    s.ChangesOnly name fields row s'
  deleted : ∀ name s', s.delete name = (.ok (), s') → s.RemovesOnly name s'
  due : ∀ w today nowTime, s.HeldBy w → (listDue today nowTime).Runs schedulerMachine w []
    (.ok ((s.rows.map fun row => row.toMemberNotification).filter
      fun n => s.IsDue today nowTime n)) w

theorem cadence_cases {cadence : Cadence} (h : cadence.isOther = false) :
    cadence = .weekly ∨ cadence = .biweekly ∨ cadence = .monthly := by
  cases cadence with
  | weekly => exact .inl rfl
  | biweekly => exact .inr (.inl rfl)
  | monthly => exact .inr (.inr rfl)
  | other text => cases h

/-- After every run the table is well formed and its recipients are numbers, rejected calls
change nothing, accepted ones change what they name, and `list_due` returns the due rows. -/
theorem run_contract (accesses : List Access) : (run accesses).Contract where
  names := (run accesses).uniqueName
  cadences row hrow := by
    have hchecks := (run accesses).checks row hrow
    simp only [StoredNotification.checks, Bool.and_eq_true, Bool.not_eq_true'] at hchecks
    exact cadence_cases hchecks.2
  targets := targetsParse_run accesses
  rejected _ _ := perform_rejected
  updated _ _ _ _ _ := update_changesOnly
  deleted _ _ := delete_removesOnly
  due _ today nowTime hheld := listDue_runs hheld today nowTime

end NotificationStore

end MomBot.MemberNotifications
