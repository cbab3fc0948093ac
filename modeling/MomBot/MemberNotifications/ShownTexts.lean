import MomBot.MemberNotifications.OfficerRuns
import MomBot.MemberNotifications.Snowflake
import MomBot.NewMemberAlerts.Service

/-!
# What the detail shows can be entered again

`/member-notify-get` writes the columns of a row as texts, and `/member-notify-update` reads such
texts.  For the rows that the commands have made, writing and reading fit together in both
directions.

* Entering shown texts again, all of them or some, changes nothing, not even `updated_at`
  (`update_shown`).
* The detail loses nothing: two rows of one name with the same detail have the same columns
  (`columns_eq_of_getReply`).

A store in general does not have these properties: the service takes a time with microseconds, and
the detail cuts them off.  That the commands write full minutes only is the invariant behind both.
-/

namespace MomBot.MemberNotifications

open Cooperative Python

/-! ## Rows that were entered -/

/-- The columns of a row have the forms that the parsers let through. -/
structure RowEntered (row : StoredNotification) : Prop where
  target : ∃ n : ℕ, n < 2 ^ 64 ∧ row.targetDiscordId = toString n
  fireTime : row.fireTimeUtc.IsMinute

/-- What the given fields of an update are. -/
structure FieldsEntered (fields : Fields) : Prop where
  target : ∀ value ∈ fields.targetDiscordId, ∃ n : ℕ, n < 2 ^ 64 ∧ value = toString n
  fireTime : ∀ t, fields.fireTimeUtc = some (some t) → t.IsMinute

theorem parsed_eq_ok {α : Type} {parse : String → Option α} {message : String}
    {given : Option String} {field : Option (Option α)}
    (h : parsed parse message given = .ok field) :
    (given = none ∧ field = none) ∨
      ∃ text value, given = some text ∧ parse text = some value ∧ field = some (some value) := by
  unfold parsed at h
  split at h
  next => exact .inl ⟨rfl, (Except.ok.inj h).symm⟩
  next text =>
    split at h
    next => cases h
    next value hparse => exact .inr ⟨text, value, rfl, hparse, (Except.ok.inj h).symm⟩

theorem isMinute_of_parseTime {text : String} {t : Time} (h : parseTime text = some t) :
    t.IsMinute := by
  obtain ⟨hour, -, minute, hminute, -, ht⟩ := parseTime_eq_some_iff.mp h
  exact (hourMinuteText_eq hminute ht).1

theorem fieldsEntered_of_updatedFields {given : UpdateParameters} {fields : Fields}
    (h : updatedFields given = .ok fields) : FieldsEntered fields := by
  obtain ⟨anchorDateUtc, -, h⟩ := bind_eq_ok_iff.mp h
  obtain ⟨fireTimeUtc, htime, h⟩ := bind_eq_ok_iff.mp h
  obtain ⟨cadence, -, h⟩ := bind_eq_ok_iff.mp h
  obtain rfl := Except.ok.inj h
  constructor
  · intro value hvalue
    obtain ⟨member, -, rfl⟩ := Option.map_eq_some_iff.mp hvalue
    exact ⟨member.id, member.id_lt, rfl⟩
  · intro t ht
    rcases parsed_eq_ok htime with ⟨-, rfl⟩ | ⟨text, value, -, hparse, rfl⟩
    · cases ht
    · obtain rfl : value = t := Option.some.inj (Option.some.inj ht)
      exact isMinute_of_parseTime hparse

/-! ## The invariant -/

namespace NotificationStore

variable {s : NotificationStore} {name : String}

/-- A call of `create` adds its row or nothing. -/
theorem rows_create_cases (s : NotificationStore) (name : String) (id now : ℤ)
    (targetDiscordId : String) (anchorDateUtc : Date) (fireTimeUtc : Time)
    (cadence messageTemplate : String) (enabled : Bool) :
    (s.create id now name targetDiscordId anchorDateUtc fireTimeUtc cadence messageTemplate
        enabled).2.rows = s.rows ∨
      (s.create id now name targetDiscordId anchorDateUtc fireTimeUtc cadence messageTemplate
        enabled).2.rows = s.rows ++ [⟨⟨id, targetDiscordId, anchorDateUtc, fireTimeUtc,
          .ofText cadence, messageTemplate, enabled⟩, name, now, now⟩] := by
  unfold create
  split
  next => exact .inl rfl
  next =>
    split
    next => exact .inl rfl
    next =>
      dsimp only
      split
      next s' hinsert => exact .inr (rows_of_insert hinsert).1
      next => split <;> exact .inl rfl

/-- The columns of the rows are as entered. -/
def RowsEntered (s : NotificationStore) : Prop :=
  ∀ row ∈ s.rows, RowEntered row

theorem RowsEntered.create (h : s.RowsEntered) (id now : ℤ) (anchorDateUtc : Date)
    {targetDiscordId : String} {fireTimeUtc : Time} (cadence messageTemplate : String)
    (enabled : Bool) (htarget : ∃ n : ℕ, n < 2 ^ 64 ∧ targetDiscordId = toString n)
    (htime : fireTimeUtc.IsMinute) :
    (s.create id now name targetDiscordId anchorDateUtc fireTimeUtc cadence messageTemplate
      enabled).2.RowsEntered := by
  intro row hrow
  rcases rows_create_cases s name id now targetDiscordId anchorDateUtc fireTimeUtc cadence
      messageTemplate enabled with hrows | hrows
  · rw [hrows] at hrow
    exact h row hrow
  · rw [hrows] at hrow
    rcases List.mem_append.mp hrow with hold | hnew
    · exact h row hold
    · obtain rfl := List.mem_singleton.mp hnew
      exact ⟨htarget, htime⟩

theorem RowsEntered.updated {fields : Fields}
    {result : Except ServiceError StoredNotification × NotificationStore} (h : s.RowsEntered)
    (hfields : FieldsEntered fields) (hupdates : s.Updates name fields result) :
    result.2.RowsEntered := by
  cases hupdates with
  | rejected exc => exact h
  | @accepted old row _ hold _ _ _ _ hset _ hrows _ =>
      intro other hother
      rw [hrows] at hother
      obtain ⟨before, hbefore, rfl⟩ := List.mem_map.mp hother
      unfold replaced
      split
      next =>
        -- a column of the new row is a given one, or that of the old row
        constructor
        · have htarget : row.targetDiscordId = fields.targetDiscordId.getD old.targetDiscordId :=
            hset.targetDiscordId
          cases hgiven : fields.targetDiscordId with
          | none =>
              rw [htarget, hgiven]
              exact (h old hold).target
          | some value =>
              rw [htarget, hgiven]
              exact hfields.target value hgiven
        · rcases hset.fireTimeUtc with ⟨-, hsame⟩ | hgiven
          · have hkept : row.fireTimeUtc = old.fireTimeUtc := hsame
            rw [hkept]
            exact (h old hold).fireTime
          · exact hfields.fireTime _ hgiven
      next => exact h before hbefore

theorem RowsEntered.deleted {result : Except ServiceError Unit × NotificationStore}
    (h : s.RowsEntered) (hdeletes : s.Deletes name result) : result.2.RowsEntered := by
  cases hdeletes with
  | rejected exc => exact h
  | accepted _ _ hrows _ =>
      intro row hrow
      rw [hrows] at hrow
      exact h row (List.mem_of_mem_filter hrow)

/-- **Step lemma.** -/
theorem RowsEntered.perform {a : Access} (h : s.RowsEntered) (ha : a.Entered) :
    (s.perform a).2.RowsEntered := by
  cases ha with
  | markSent owner date => exact h
  | unmark rowId => exact h
  | @command w command o hof =>
      cases o with
      | delete name => exact h.deleted (delete_deletes s name)
      | update name fields =>
          cases command with
          | update given =>
              exact h.updated (fieldsEntered_of_updatedFields hof.2)
                (update_updates s _ name fields)
          | add given => exact hof.elim
          | remove name => exact hof.elim
          | list => exact hof.elim
          | get name => exact hof.elim
      | create name targetDiscordId anchorDateUtc fireTimeUtc cadence messageTemplate =>
          cases command with
          | add given =>
              obtain ⟨-, htarget, -, htime, -⟩ := hof
              exact h.create _ _ _ _ _ _ ⟨given.member.id, given.member.id_lt, htarget⟩
                (isMinute_of_parseTime htime)
          | update given => exact hof.elim
          | remove name => exact hof.elim
          | list => exact hof.elim
          | get name => exact hof.elim

/-- **Run lemma.** -/
theorem Entered.rows (h : s.Entered) : s.RowsEntered := by
  obtain ⟨accesses, rfl, hentered⟩ := h
  induction accesses using List.reverseRecOn with
  | nil => exact List.forall_mem_nil _
  | append_singleton accesses a ih =>
      obtain ⟨hold, hnew⟩ := List.forall_mem_append.mp hentered
      rw [run, List.foldl_append]
      exact (ih hold).perform (List.forall_mem_singleton.mp hnew)

end NotificationStore

/-! ## Entering what is shown -/

theorem parseDate_shown (d : Date) : parseDate (String.ofList d.isoformat) = some d :=
  fromisoformat_of_isoformat String.toList_ofList

theorem parseTime_shown {t : Time} (h : t.IsMinute) :
    parseTime (String.ofList (hourMinuteText t)) = some t := by
  have hday : t.microseconds < microsecondsPerDay := t.inRange
  rw [Time.IsMinute] at h
  have hwhole : t.microseconds = t.microseconds / microsecondsPerMinute * microsecondsPerMinute :=
    (Nat.div_mul_cancel (Nat.dvd_of_mod_eq_zero h)).symm
  have hminutes : t.microseconds / microsecondsPerMinute < 24 * 60 := by
    apply Nat.div_lt_of_lt_mul
    exact hday
  generalize hcount : t.microseconds / microsecondsPerMinute = minutes at *
  apply parseTime_eq_some_iff.mpr
  refine ⟨minutes / 60, by omega, minutes % 60, by omega, ?_, ?_⟩
  · rw [String.toList_ofList, hourMinuteText, hcount]
    exact readsAs_text (by omega) (by omega)
  · rw [Nat.div_add_mod' minutes 60]
    exact hwhole

theorem knownCadence_shown {cadence : Cadence} (h : cadence.isOther = false) :
    knownCadence cadence.text = some cadence.text ∧ Cadence.ofText cadence.text = cadence := by
  cases cadence with
  | weekly => exact ⟨by decide, rfl⟩
  | biweekly => exact ⟨by decide, rfl⟩
  | monthly => exact ⟨by decide, rfl⟩
  | other text => cases h

/-- Every given parameter is what the detail shows of the row. -/
structure Repeats (row : StoredNotification) (given : UpdateParameters) : Prop where
  name : given.name = row.name
  member : ∀ member ∈ given.member, toString member.id = row.targetDiscordId
  startDate : ∀ text ∈ given.startDate, text = String.ofList row.anchorDateUtc.isoformat
  time : ∀ text ∈ given.time, text = String.ofList (hourMinuteText row.fireTimeUtc)
  cadence : ∀ text ∈ given.cadence, text = row.cadence.text
  message : ∀ text ∈ given.message, text = row.messageTemplate
  enabled : ∀ flag ∈ given.enabled, flag = row.enabled

theorem parsed_shown {α : Type} {parse : String → Option α} {message shown : String} {value : α}
    {given : Option String} (hgiven : ∀ text ∈ given, text = shown)
    (hparse : parse shown = some value) :
    parsed parse message given = .ok (given.map fun _ => some value) := by
  cases given with
  | none => rfl
  | some text =>
      rw [parsed, hgiven text rfl, hparse]
      rfl

/-- The fields that set given columns of the row to what they are. -/
def repeatedFields (row : StoredNotification) (given : UpdateParameters) : Fields where
  targetDiscordId := given.member.map fun _ => row.targetDiscordId
  anchorDateUtc := given.startDate.map fun _ => some row.anchorDateUtc
  fireTimeUtc := given.time.map fun _ => some row.fireTimeUtc
  cadence := given.cadence.map fun _ => some row.cadence.text
  messageTemplate := given.message.map fun _ => some row.messageTemplate
  enabled := given.enabled.map fun _ => some row.enabled
  unknown := []

theorem map_eq_map_const {α β : Type} {given : Option α} (f : α → β) (value : β)
    (h : ∀ x ∈ given, f x = value) : given.map f = given.map fun _ => value := by
  cases given with
  | none => rfl
  | some x => exact congrArg some (h x rfl)

variable {row : StoredNotification} {given : UpdateParameters}

theorem updatedFields_shown (hrow : RowEntered row) (hcadence : row.cadence.isOther = false)
    (h : Repeats row given) : updatedFields given = .ok (repeatedFields row given) := by
  unfold updatedFields
  rw [parsed_shown h.startDate (parseDate_shown row.anchorDateUtc),
    parsed_shown h.time (parseTime_shown hrow.fireTime),
    parsed_shown h.cadence (knownCadence_shown hcadence).1,
    map_eq_map_const _ _ h.member]
  show Except.ok _ = Except.ok _
  rw [map_eq_map_const some (some row.messageTemplate)
      fun text htext => congrArg some (h.message text htext),
    map_eq_map_const some (some row.enabled)
      fun flag hflag => congrArg some (h.enabled flag hflag)]
  rfl

/-- A column that is set to what it is stays. -/
theorem assigned_same {α β : Type} (column : String) (given : Option β) (old : α) :
    assigned column (given.map fun _ => some old) old = .ok old := by
  cases given <;> rfl

theorem assign_repeatedFields (hcadence : row.cadence.isOther = false) :
    (repeatedFields row given).assign row.columns = .ok row.columns := by
  have hmap : (repeatedFields row given).cadence.map (fun field => field.map Cadence.ofText) =
      given.cadence.map fun _ => some row.cadence := by
    show (given.cadence.map fun _ => some row.cadence.text).map _ = _
    rw [Option.map_map]
    exact congrArg (fun f => Option.map f given.cadence)
      (funext fun _ => congrArg some (knownCadence_shown hcadence).2)
  have htarget : (repeatedFields row given).targetDiscordId.getD row.targetDiscordId =
      row.targetDiscordId := by
    show (given.member.map fun _ => row.targetDiscordId).getD row.targetDiscordId = _
    cases given.member <;> rfl
  have hanchor : ∀ column, assigned column (repeatedFields row given).anchorDateUtc
      row.columns.anchorDateUtc = .ok row.anchorDateUtc := fun column => assigned_same column _ _
  have hfire : ∀ column, assigned column (repeatedFields row given).fireTimeUtc
      row.columns.fireTimeUtc = .ok row.fireTimeUtc := fun column => assigned_same column _ _
  have hmessage : ∀ column, assigned column (repeatedFields row given).messageTemplate
      row.columns.messageTemplate = .ok row.messageTemplate :=
    fun column => assigned_same column _ _
  have henabled : ∀ column, assigned column (repeatedFields row given).enabled
      row.columns.enabled = .ok row.enabled := fun column => assigned_same column _ _
  have hcadence' : ∀ column, assigned column
      ((repeatedFields row given).cadence.map fun field => field.map Cadence.ofText)
      row.columns.cadence = .ok row.cadence := by
    intro column
    rw [hmap]
    exact assigned_same column _ _
  unfold Fields.assign
  rw [hanchor, hfire, hcadence', hmessage, henabled]
  show Except.ok (Columns.mk ((repeatedFields row given).targetDiscordId.getD row.targetDiscordId)
    _ _ _ _ _) = _
  rw [htarget]
  rfl

namespace NotificationStore

variable {s : NotificationStore}

theorem get_eq_some (h : row ∈ s.rows) : s.get row.name = some row := by
  cases hget : s.get row.name with
  | none =>
      have hother := List.find?_eq_none.mp hget row h
      simp at hother
  | some other =>
      obtain ⟨hmem, hname⟩ := mem_of_get hget
      rw [List.inj_on_of_nodup_map s.uniqueName hmem h hname]

/-- A row in its own place changes nothing. -/
theorem replace_self (new : StoredNotification) (h : row ∈ s.rows) (hid : new.id = row.id)
    (hname : new.name = row.name) (hchecks : new.checks = true) (hnew : new = row) :
    s.replace row new h hid hname hchecks = s := by
  subst hnew
  have hrows : s.rows.map (replaced new) = s.rows := by
    conv_rhs => rw [← List.map_id s.rows]
    refine List.map_congr_left fun other hother => ?_
    unfold replaced
    split
    next hsame => exact List.inj_on_of_nodup_map s.uniqueName h hother hsame.symm
    next => rfl
  obtain ⟨rows, sent, _, _, _, _⟩ := s
  unfold replace
  rw [NotificationStore.mk.injEq]
  exact ⟨hrows, rfl⟩

theorem setColumns_self (row : StoredNotification) (now : ℤ) :
    row.setColumns now row.columns = row := by
  show (⟨⟨row.id, _, _, _, _, _, _⟩, row.name, row.createdAt,
    if row.columns = row.columns then row.updatedAt else now⟩ : StoredNotification) = row
  rw [if_pos rfl]
  rfl

/-- An UPDATE of columns to what they are commits nothing. -/
theorem updateRow_self (h : row ∈ s.rows) (now : ℤ) :
    s.updateRow now row h row.columns = (.ok row, s) := by
  have hself := setColumns_self row now
  unfold updateRow
  split
  next exc hbroken =>
    rw [hself, brokenCheck?_eq_none (s.checks row h)] at hbroken
    cases hbroken
  next hchecks =>
    exact Prod.ext (congrArg Except.ok hself)
      (replace_self (row.setColumns now row.columns) h rfl rfl (checks_of_brokenCheck? hchecks)
        hself)

/-- What `str` writes of an id is valid. -/
theorem validateDiscordId_toString {n : ℕ} (h : n < 2 ^ 64) :
    validateDiscordId (toString n) = .ok () :=
  validateDiscordId_eq_ok_iff.mpr
    ⟨n, NewMemberAlerts.SubscriptionTable.int_toString_of_lt h, rfl⟩

theorem validateFields_repeated (hrow : RowEntered row) (hcadence : row.cadence.isOther = false) :
    validateFields (repeatedFields row given) = .ok () := by
  have htarget : validateFields.validateTarget (repeatedFields row given) = .ok () := by
    obtain ⟨n, hn, htext⟩ := hrow.target
    have hvalid : validateDiscordId row.targetDiscordId = .ok () := by
      rw [htext]
      exact validateDiscordId_toString hn
    unfold validateFields.validateTarget repeatedFields
    cases given.member with
    | none => rfl
    | some member => exact hvalid
  have hknown : row.cadence.text ∈ validCadences := by
    have hshown := (knownCadence_shown hcadence).1
    unfold knownCadence at hshown
    split at hshown
    next hmem => exact hmem
    next => cases hshown
  have hunknown : (repeatedFields row given).unknown = [] := rfl
  unfold validateFields
  rw [if_neg (not_not_intro hunknown)]
  cases hgiven : given.cadence with
  | none =>
      have hcadence : (repeatedFields row given).cadence = none := by
        rw [repeatedFields, hgiven]
        rfl
      rw [hcadence]
      exact htarget
  | some text =>
      have hcadence : (repeatedFields row given).cadence = some (some row.cadence.text) := by
        rw [repeatedFields, hgiven]
        rfl
      rw [hcadence]
      exact (if_pos ⟨_, rfl, hknown⟩).trans htarget

theorem isOther_of_mem (h : row ∈ s.rows) : row.cadence.isOther = false := by
  have hchecks := s.checks row h
  simp only [StoredNotification.checks, Bool.and_eq_true, Bool.not_eq_true'] at hchecks
  exact hchecks.2

theorem Entered.update_repeated (h : s.Entered) (hrow : row ∈ s.rows) (hrepeats : Repeats row given)
    (now : ℤ) : s.update now given.name (repeatedFields row given) = (.ok row, s) := by
  have hcadence := isOther_of_mem hrow
  unfold update
  rw [validateFields_repeated (h.rows row hrow) hcadence, hrepeats.name]
  show s.updateNamed now row.name (repeatedFields row given) = _
  unfold updateNamed
  split
  next hget => exact absurd ((get_eq_some hrow).symm.trans hget) (by simp)
  next found hget =>
    obtain rfl := Option.some.inj ((get_eq_some hrow).symm.trans hget)
    rw [assign_repeatedFields hcadence]
    exact updateRow_self hrow now

end NotificationStore

/-- Whatever users have commanded: texts that the detail shows of a row are taken, and change
nothing. -/
theorem update_shown {ι : Type} [DecidableEq ι] {le : String → String → Bool} {w₀ : Office}
    (hstart : w₀.store = .empty)
    {c : Config commandEffects Office ι Invocation (Except CommandError Unit)}
    (h : (commands le).Reachable AtAwaits w₀ c) {row : StoredNotification}
    (hrow : row ∈ c.shared.store.rows) {given : UpdateParameters} (hrepeats : Repeats row given) :
    ∃ fields, updatedFields given = .ok fields ∧
      ∀ now, c.shared.store.update now given.name fields = (.ok row, c.shared.store) := by
  have hentered := entered_of_reachable hstart h
  exact ⟨repeatedFields row given,
    updatedFields_shown (hentered.rows row hrow) (NotificationStore.isOther_of_mem hrow) hrepeats,
    hentered.update_repeated hrow hrepeats⟩

/-! ## The detail loses nothing -/

/-- What stands before a separator can be read off. -/
theorem eq_of_append_cons {α : Type} {sep : α} {xs ys rest rest' : List α} (hxs : sep ∉ xs)
    (hys : sep ∉ ys) (h : xs ++ sep :: rest = ys ++ sep :: rest') : xs = ys ∧ rest = rest' := by
  induction xs generalizing ys with
  | nil =>
      cases ys with
      | nil => exact ⟨rfl, (List.cons.inj h).2⟩
      | cons y ys => exact absurd (List.cons.inj h).1 (List.ne_of_not_mem_cons hys)
  | cons x xs ih =>
      cases ys with
      | nil => exact absurd (List.cons.inj h).1.symm (List.ne_of_not_mem_cons hxs)
      | cons y ys =>
          obtain ⟨rfl, htail⟩ := List.cons.inj h
          obtain ⟨rfl, hrest⟩ := ih (List.not_mem_of_not_mem_cons hxs)
            (List.not_mem_of_not_mem_cons hys) htail
          exact ⟨rfl, hrest⟩

theorem notMem_target {row : StoredNotification} (h : RowEntered row) :
    '>' ∉ row.targetDiscordId.toList := by
  obtain ⟨n, -, htext⟩ := h.target
  intro hmem
  rw [htext, Nat.toString_eq_repr, Nat.toList_repr] at hmem
  have hdigit := Nat.isDigit_of_mem_toDigits (by omega) (by omega) hmem
  simp at hdigit

theorem notMem_cadence {row : StoredNotification} (h : row.cadence.isOther = false) :
    '\n' ∉ row.cadence.text.toList := by
  cases hcadence : row.cadence with
  | weekly => decide
  | biweekly => decide
  | monthly => decide
  | other text => simp [hcadence, Cadence.isOther] at h

theorem notMem_status (enabled : Bool) : '\n' ∉ (statusText enabled).toList := by
  cases enabled <;> decide

theorem statusText_inj {enabled enabled' : Bool} (h : statusText enabled = statusText enabled') :
    enabled = enabled' := by
  have hall : ∀ b b' : Bool, statusText b = statusText b' → b = b' := by decide
  exact hall enabled enabled' h

theorem columns_of_detailText {row row' : StoredNotification} (hrow : RowEntered row)
    (hrow' : RowEntered row') (hcadence : row.cadence.isOther = false)
    (hcadence' : row'.cadence.isOther = false) (hname : row.name = row'.name)
    (h : detailText row = detailText row') : row.columns = row'.columns := by
  -- the fixed texts between the columns, of which only three matter
  unfold detailText at h
  generalize "**" = bold, "**\n" = title, "Target: <@" = target, "Anchor: " = anchor,
    "Time: " = time, " UTC\n" = utc, "Cadence: " = cadence, "Status: " = status,
    "Message: " = message, hclose : ">\n" = close, hline : "\n" = line at h
  have htext := congrArg String.toList h
  have hclose' : close.toList = '>' :: ['\n'] := by
    rw [← hclose]
    rfl
  have hline' : line.toList = ['\n'] := by
    rw [← hline]
    rfl
  simp only [String.toList_append, String.toList_ofList, List.append_assoc, hname, hclose', hline',
    List.cons_append, List.nil_append, List.append_cancel_left_eq] at htext
  obtain ⟨htarget, htext⟩ := eq_of_append_cons (notMem_target hrow) (notMem_target hrow') htext
  rw [List.cons_inj_right, List.append_cancel_left_eq] at htext
  obtain ⟨hanchor, htext⟩ := List.append_inj htext (by rw [length_isoformat, length_isoformat])
  rw [List.cons_inj_right, List.append_cancel_left_eq] at htext
  obtain ⟨htime, htext⟩ := List.append_inj htext
    (by rw [length_hourMinuteText, length_hourMinuteText])
  rw [List.append_cancel_left_eq, List.append_cancel_left_eq] at htext
  obtain ⟨hcadences, htext⟩ :=
    eq_of_append_cons (notMem_cadence hcadence) (notMem_cadence hcadence') htext
  rw [List.append_cancel_left_eq] at htext
  obtain ⟨hstatus, htext⟩ := eq_of_append_cons (notMem_status _) (notMem_status _) htext
  rw [List.append_cancel_left_eq] at htext
  have hdate : row.anchorDateUtc = row'.anchorDateUtc := by
    apply Option.some.inj
    rw [← parseDate_shown, ← parseDate_shown, hanchor]
  have hfire : row.fireTimeUtc = row'.fireTimeUtc := by
    apply Option.some.inj
    rw [← parseTime_shown hrow.fireTime, ← parseTime_shown hrow'.fireTime, htime]
  have hread : row.cadence = row'.cadence := by
    rw [← (knownCadence_shown hcadence).2, ← (knownCadence_shown hcadence').2,
      String.toList_inj.mp hcadences]
  have henabled : row.enabled = row'.enabled := statusText_inj (String.toList_inj.mp hstatus)
  show Columns.mk _ _ _ _ _ _ = Columns.mk _ _ _ _ _ _
  rw [String.toList_inj.mp htarget, hdate, hfire, hread, String.toList_inj.mp htext, henabled]

theorem detailText_ne_notFoundText (row : StoredNotification) (name : String) :
    detailText row ≠ notFoundText name := by
  intro h
  have hhead := congrArg (fun text => text.toList.head?) h
  unfold detailText notFoundText at hhead
  generalize hbold : "**" = bold, hno : "No notification named '" = no at hhead
  have hbold' : bold.toList = ['*', '*'] := by
    rw [← hbold]
    rfl
  have hno' : no.toList.head? = some 'N' := by
    rw [← hno]
    rfl
  simp only [String.toList_append, hbold', List.append_assoc, List.cons_append, List.head?_cons,
    List.head?_append, hno', Option.some_or] at hhead
  exact absurd hhead (by decide)

/-- Whatever users have commanded, the reply to a name tells the columns of its row. -/
theorem columns_eq_of_getReply {ι : Type} [DecidableEq ι] {le : String → String → Bool}
    {w₀ w₁ : Office} (hstart : w₀.store = .empty) (hstart' : w₁.store = .empty)
    {c c' : Config commandEffects Office ι Invocation (Except CommandError Unit)}
    (h : (commands le).Reachable AtAwaits w₀ c) (h' : (commands le).Reachable AtAwaits w₁ c')
    {name : String} (hreply : getReply name (c.shared.store.get name) =
      getReply name (c'.shared.store.get name)) :
    (c.shared.store.get name).map StoredNotification.columns =
      (c'.shared.store.get name).map StoredNotification.columns := by
  have hentered := entered_of_reachable hstart h
  have hentered' := entered_of_reachable hstart' h'
  cases hget : c.shared.store.get name with
  | none =>
      cases hget' : c'.shared.store.get name with
      | none => rfl
      | some row' =>
          rw [hget, hget'] at hreply
          exact absurd hreply.symm (detailText_ne_notFoundText row' name)
  | some row =>
      cases hget' : c'.shared.store.get name with
      | none =>
          rw [hget, hget'] at hreply
          exact absurd hreply (detailText_ne_notFoundText row name)
      | some row' =>
          rw [hget, hget'] at hreply
          obtain ⟨hmem, hname⟩ := NotificationStore.mem_of_get hget
          obtain ⟨hmem', hname'⟩ := NotificationStore.mem_of_get hget'
          exact congrArg some (columns_of_detailText (hentered.rows row hmem)
            (hentered'.rows row' hmem') (NotificationStore.isOther_of_mem hmem)
            (NotificationStore.isOther_of_mem hmem') (hname.trans hname'.symm) hreply)

/-! ## A notification -/

theorem addGym_performed : ((commands binaryCollation).runIf
    (fun c event => decide (AtAwaits c event)) (.start emptyOffice)
    (toService ++ [.op true])).isSome = true := by
  decide +kernel

/-- The officer's notification is there. -/
def gymAdded : Config commandEffects Office Bool Invocation (Except CommandError Unit) :=
  Option.get _ addGym_performed

theorem gymAdded_reachable : (commands binaryCollation).Reachable AtAwaits emptyOffice gymAdded :=
  Concurrent.Reachable.start.runIf (fun _ _ h => of_decide_eq_true h) rfl
    (Option.some_get addGym_performed).symm

/-- The notification of `addGym`. -/
def gymRow : StoredNotification :=
  ⟨⟨1, "7", ⟨740133, by decide⟩, ⟨540 * microsecondsPerMinute, by decide⟩, .weekly, "Clan boss",
    true⟩, "gym", 0, 0⟩

/-- All that the detail shows of it. -/
def gymShown : UpdateParameters :=
  ⟨"gym", some gymMember, some "2027-06-01", some "09:00", some "weekly", some "Clan boss",
    some true⟩

theorem rows_gymAdded : gymAdded.shared.store.rows = [gymRow] := by
  decide +kernel

theorem update_shown_gym : gymRow ∈ gymAdded.shared.store.rows ∧
    ∃ fields, updatedFields gymShown = .ok fields ∧ ∀ now,
      gymAdded.shared.store.update now "gym" fields = (.ok gymRow, gymAdded.shared.store) := by
  have hrow : gymRow ∈ gymAdded.shared.store.rows := by
    rw [rows_gymAdded]
    exact List.mem_singleton_self gymRow
  have hrepeats : Repeats gymRow gymShown := by
    constructor <;> decide +kernel
  exact ⟨hrow, update_shown rfl gymAdded_reachable hrow hrepeats⟩

/-- The same command on another day, after eight other notifications have come and gone. -/
def laterOffice : Office := { emptyOffice with nextId := 9, now := 1000 }

theorem addGym_performed_later : ((commands binaryCollation).runIf
    (fun c event => decide (AtAwaits c event)) (.start laterOffice)
    (toService ++ [.op true])).isSome = true := by
  decide +kernel

/-- The configuration after `addGym_performed_later`. -/
def gymAddedLater : Config commandEffects Office Bool Invocation (Except CommandError Unit) :=
  Option.get _ addGym_performed_later

theorem gymAddedLater_reachable :
    (commands binaryCollation).Reachable AtAwaits laterOffice gymAddedLater :=
  Concurrent.Reachable.start.runIf (fun _ _ h => of_decide_eq_true h) rfl
    (Option.some_get addGym_performed_later).symm

theorem columns_eq_of_getReply_gym :
    gymAdded.shared.store.get "gym" ≠ gymAddedLater.shared.store.get "gym" ∧
      (gymAdded.shared.store.get "gym").map StoredNotification.columns =
        (gymAddedLater.shared.store.get "gym").map StoredNotification.columns := by
  refine ⟨by decide +kernel, ?_⟩
  apply columns_eq_of_getReply rfl rfl gymAdded_reachable gymAddedLater_reachable
  decide +kernel

end MomBot.MemberNotifications
