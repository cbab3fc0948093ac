import MomBot.Reminders.Suppression

/-!
# How a row is missed

A row is missed only after its sent row was deleted while another instance stood
between its two queries.  In a run without that event, `Reappears`, none is missed;
an instance that is alone never misses one.  The invariant is `Shown`: while a tick
stands between its queries, every row that replaces one it has loaded is loaded too
or sent.
-/

namespace MomBot.Reminders

open Cooperative Python MemberNotifications

/-- The next step deletes a row of `reminder_sent`. -/
def Deletes (rowId : ℕ) (progress : Progress schedulerEffects Tick TickEnd) : Prop :=
  ∃ t next, progress = .ready t (.op (.deleteSent .reminder rowId) next)

/-- The event deletes the sent row of a reminder while another tick of that date stands
between its queries, which has loaded a row that the reminder replaces. -/
def Reappears {ι : Type} (c : Config schedulerEffects World ι Tick TickEnd)
    (event : Event schedulerEffects World ι Tick) : Prop :=
  ∃ i, event = .op i ∧ ∃ row ∈ (c.shared.sent .reminder).rows, Deletes row.id (c.task i) ∧
    ∃ j loaded, j ≠ i ∧ BetweenQueries row.date loaded (c.task j) ∧
      ∃ replacing, replacing.id = row.owner ∧ replacing ∉ loaded ∧
        ∃ r ∈ loaded, r.monthCondition = none ∧ Replaces c.shared.reminders replacing r

/-- A single instance never sees it. -/
theorem not_reappears {ι : Type} [Subsingleton ι]
    (c : Config schedulerEffects World ι Tick TickEnd)
    (event : Event schedulerEffects World ι Tick) : ¬ Reappears c event := by
  rintro ⟨i, -, -, -, -, j, -, hji, -⟩
  exact hji (Subsingleton.elim j i)

section Shown

set_option linter.unusedSectionVars false

variable {ι : Type} [DecidableEq ι]

/-- Every row that replaces a loaded one is loaded or sent. -/
structure Shown (table : ReminderTable) (mode : ι → Stage) (w : World) : Prop where
  watched : Watched table mode w
  shown : ∀ {i : ι} {t : Tick} {loaded : List Reminder}, mode i = .between t loaded →
    ∀ r ∈ loaded, r.monthCondition = none → ∀ replacing, Replaces table replacing r →
      replacing ∈ loaded ∨ w.Sent ⟨.reminder, replacing.id, t.nowUtc.date⟩

variable {table : ReminderTable} {mode : ι → Stage} {w w' : World} {i j : ι} {stage : Stage}
  {t : Tick} {loaded : List Reminder} {c : Config schedulerEffects World ι Tick TickEnd}

/-- A stage that is not between the queries asks for nothing. -/
theorem Shown.advance (h : Shown table mode w)
    (hwatched : Watched table (Function.update mode i stage) w')
    (hstage : ∀ t loaded, stage ≠ .between t loaded)
    (hsent : ∀ j t loaded, mode j = .between t loaded → ∀ replacing, replacing ∉ loaded →
      (∃ r ∈ loaded, r.monthCondition = none ∧ Replaces table replacing r) →
      w.Sent ⟨.reminder, replacing.id, t.nowUtc.date⟩ →
      w'.Sent ⟨.reminder, replacing.id, t.nowUtc.date⟩) :
    Shown table (Function.update mode i stage) w' where
  watched := hwatched
  shown {j t loaded} hj r hr hnone replacing hreplaces := by
    by_cases hji : j = i
    · subst hji
      rw [Function.update_self] at hj
      exact absurd hj (hstage t loaded)
    · rw [Function.update_of_ne hji] at hj
      by_cases hmem : replacing ∈ loaded
      · exact .inl hmem
      · have hbefore := (h.shown hj r hr hnone replacing hreplaces).resolve_left hmem
        exact .inr (hsent j t loaded hj replacing hmem ⟨r, hr, hnone, hreplaces⟩ hbefore)

/-- Nothing happens to reminders and logs, and the task is not between its queries. -/
theorem Shown.still (h : Shown table mode w) (hreminders : w'.reminders = w.reminders)
    (hsent : w'.sent = w.sent) (hstage : ∀ t loaded, stage ≠ .between t loaded) :
    Shown table (Function.update mode i stage) w' :=
  h.advance (h.watched.advance hreminders hstage) hstage
    fun _ _ _ _ _ _ _ => (World.sent_congr hsent).mpr

theorem Shown.call {x : Tick} {call : SchedulerCall} (h : Shown table mode w)
    (hreminders : w'.reminders = w.reminders) (hsent : w'.sent = w.sent)
    (hi : (claims table).callOk x stage call) :
    Shown table (Function.update mode i stage) w' := by
  obtain rfl : stage = .claiming := hi
  exact h.still hreminders hsent Stage.claiming_ne_between

theorem Shown.outside (h : Shown table mode w) (houtside : w.SameReminders w') :
    Shown table mode w' where
  watched := ⟨houtside.reminders.trans h.watched.reminders, h.watched.due⟩
  shown hi r hr hnone replacing hreplaces :=
    (h.shown hi r hr hnone replacing hreplaces).imp_right (World.sent_congr houtside.sent).mpr

/-- **Step lemma, first query.**  A row that is due as another is, and is not selected
with it, is sent. -/
theorem Watched.sent_of_not_mem (h : Watched table mode w) {r replacing : Reminder}
    {weekday : ℕ} {time : Time} {date : Date} (hr : r ∈ w.selectEligible weekday time date)
    (hreplaces : Replaces table replacing r)
    (hunseen : replacing ∉ w.selectEligible weekday time date) :
    w.Sent ⟨.reminder, replacing.id, date⟩ := by
  obtain ⟨-, hweekday, htime⟩ := h.areDue weekday time date r hr
  have hslot := hreplaces.slot
  simp only [Reminder.slot, Prod.mk.injEq] at hslot
  obtain ⟨-, hweekday', htime'⟩ := hslot
  by_contra hsent
  apply hunseen
  refine List.mem_filter.mpr ⟨h.reminders.symm ▸ hreplaces.mem, decide_eq_true ⟨?_, ?_, hsent⟩⟩
  · exact hweekday'.trans hweekday
  · rw [htime']
    exact htime

/-- The second query is a tick's between its queries. -/
theorem between_of_opOk {x : Tick} {weekday : ℕ} {date : Date}
    (h : (claims table).opOk x stage (.selectSentTankEnd weekday date loaded)) :
    ∃ t, stage = .between t loaded ∧ date = t.nowUtc.date := by
  cases stage with
  | between t loaded' =>
      obtain ⟨-, rfl, rfl⟩ := h
      exact ⟨t, rfl, rfl⟩
  | rest => exact h.elim
  | begun _ => exact h.elim
  | claiming => exact h.elim

/-- Nothing is missed where every replacing row is shown. -/
theorem Shown.not_missed (h : (claims table).Governs Ended (Shown table) mode c)
    (event : Event schedulerEffects World ι Tick) : ¬ Missed c event := by
  rintro ⟨i, date, loaded, -, ⟨x, weekday, next, htask⟩, r, hr, hnone, ⟨replacing, hreplaces⟩,
    hall⟩
  -- the missed row would be neither loaded nor sent
  obtain ⟨hunseen, hsent⟩ := hall replacing hreplaces
  rw [h.holds.watched.reminders] at hreplaces
  obtain ⟨t, hi, rfl⟩ := between_of_opOk (h.opOk htask)
  exact (h.holds.shown hi r hr hnone replacing hreplaces).elim hunseen hsent

/-- A tick between its queries stands before the second one. -/
theorem betweenQueries_of_stage {G : (ι → Stage) → World → Prop}
    (h : (claims table).Governs Ended G mode c) (hi : mode i = .between t loaded) :
    BetweenQueries t.nowUtc.date loaded (c.task i) := by
  have hfits := h.fits i
  rw [hi] at hfits
  cases htask : c.task i with
  | idle =>
      rw [htask] at hfits
      exact absurd hfits.symm (Stage.rest_ne_between t loaded)
  | awaiting x call next =>
      rw [htask] at hfits
      obtain ⟨before, hbefore, rfl, -⟩ := hfits
      exact absurd hbefore.symm (Stage.claiming_ne_between t loaded)
  | ready x p =>
      rw [htask] at hfits
      cases p with
      | done value => exact absurd rfl (hfits t loaded)
      | await call next => exact absurd hfits.1.symm (Stage.claiming_ne_between t loaded)
      | op o next =>
          cases o with
          | selectSentTankEnd weekday date loaded' =>
              obtain ⟨rfl, rfl, rfl⟩ := hfits.1
              exact ⟨x, _, next, rfl⟩
          | _ => exact hfits.1.elim

/-- **Step lemma, DELETE.**  Unless a row reappears, what a tick relies on stays. -/
theorem Shown.sent_deleteSent {store : SentStore} {rowId : ℕ} {next : Unit → SchedulerM TickEnd}
    {x : Tick} (h : (claims table).Governs Ended (Shown table) mode c)
    (htask : c.task i = .ready x (.op (.deleteSent store rowId) next))
    (hallowed : ¬ Reappears c (.op i)) (hj : mode j = .between t loaded) {replacing : Reminder}
    (hunseen : replacing ∉ loaded)
    (hreplaces : ∃ r ∈ loaded, r.monthCondition = none ∧ Replaces table replacing r)
    (hsent : c.shared.Sent ⟨.reminder, replacing.id, t.nowUtc.date⟩) :
    (c.shared.deleteSent store rowId).Sent ⟨.reminder, replacing.id, t.nowUtc.date⟩ := by
  obtain ⟨row, hrow, hkey⟩ := List.mem_map.mp hsent
  refine List.mem_map.mpr ⟨row, World.mem_rows_deleteSent.mpr ⟨hrow, ?_⟩, hkey⟩
  rintro rfl rfl
  obtain ⟨howner, hdate⟩ : row.owner = replacing.id ∧ row.date = t.nowUtc.date :=
    Prod.mk.inj hkey
  have hbetween := betweenQueries_of_stage h hj
  -- the tick that deletes is not the one between its queries
  have hji : j ≠ i := by
    rintro rfl
    obtain ⟨t', weekday, next', hother⟩ := hbetween
    rw [htask] at hother
    cases hother
  rw [← h.holds.watched.reminders] at hreplaces
  rw [← hdate] at hbetween
  exact hallowed ⟨i, rfl, row, hrow, ⟨x, next, htask⟩, j, loaded, hji, hbetween, replacing,
    howner.symm, hunseen, hreplaces⟩

/-- **Step lemma, operations.** -/
theorem Shown.exec {o : SchedulerOp} {next : o.Res → SchedulerM TickEnd} {x : Tick}
    (h : (claims table).Governs Ended (Shown table) mode c)
    (htask : c.task i = .ready x (.op o next)) (hallowed : ¬ Reappears c (.op i))
    (hwatched : Watched table (Function.update mode i
      ((claims table).afterOp (mode i) o (c.shared.exec o).1)) (c.shared.exec o).2) :
    Shown table (Function.update mode i
      ((claims table).afterOp (mode i) o (c.shared.exec o).1)) (c.shared.exec o).2 := by
  have hok := h.opOk htask
  generalize hi : mode i = stage at hok hwatched ⊢
  cases stage with
  | rest => cases o <;> exact hok.elim
  | begun t =>
      cases o with
      | selectEligible weekday time date =>
          obtain ⟨rfl, rfl, rfl⟩ := hok
          refine ⟨hwatched, fun {j t' loaded} hj r hr hnone replacing hreplaces => ?_⟩
          by_cases hji : j = i
          · subst hji
            rw [Function.update_self] at hj
            obtain ⟨rfl, rfl⟩ := Stage.of_afterFirst hj
            -- a replacing row that is due and not selected has been sent
            by_cases hmem : replacing ∈ c.shared.selectEligible t'.nowUtc.date.weekday
                t'.nowUtc.time.truncate t'.nowUtc.date
            · exact .inl hmem
            · exact .inr (h.holds.watched.sent_of_not_mem hr hreplaces hmem)
          · rw [Function.update_of_ne hji] at hj
            exact h.holds.shown hj r hr hnone replacing hreplaces
      | _ => exact hok.elim
  | between t loaded =>
      cases o with
      | selectSentTankEnd weekday date loaded' =>
          exact h.holds.advance hwatched Stage.claiming_ne_between fun _ _ _ _ _ _ _ => id
      | _ => exact hok.elim
  | claiming =>
      cases o with
      | insertSent slot =>
          exact h.holds.advance hwatched Stage.claiming_ne_between
            fun _ _ _ _ _ _ _ hsent => World.sent_insertSent.mpr (.inl hsent)
      | deleteSent store rowId =>
          exact h.holds.advance hwatched Stage.claiming_ne_between
            fun _ _ _ hj _ hunseen hreplaces hsent =>
              Shown.sent_deleteSent h htask hallowed hj hunseen hreplaces hsent
      | _ => exact h.holds.advance hwatched Stage.claiming_ne_between fun _ _ _ _ _ _ _ => id

/-- Every event but `Reappears` keeps the replacing rows shown. -/
theorem shown_sound (table : ReminderTable) :
    (claims table).Sound Ended (Shown table (ι := ι)) reminderScheduler
      fun c event => ¬ Reappears c event where
  program := follows_tick_claims
  spawn h _ _ _ := h.holds.still rfl rfl (Stage.begun_ne_between _)
  op h hallowed htask ho := by
    obtain ⟨hgives, hwatched⟩ := h.holds.watched.exec ho fun t loaded hi _ =>
      h.holds.watched.covers hi fun r hr hnone replacing hreplaces =>
        ⟨replacing, hreplaces, h.holds.shown hi r hr hnone replacing hreplaces⟩
    exact ⟨hgives, Shown.exec h htask hallowed hwatched⟩
  issue h _ _ hcall := h.holds.call (World.issue_reminders _ _) (World.issue_sent _ _) hcall
  answer h _ _ _ hcall :=
    h.holds.call (World.complete_reminders _ _ _) (World.complete_sent _ _ _) hcall
  finish h _ _ _ := h.holds.still rfl rfl Stage.rest_ne_between
  outside h _ houtside := h.holds.outside houtside

theorem Shown.start {w : World} : Shown w.reminders (fun _ : ι => .rest) w where
  watched := .start
  shown h := absurd h (by simp)

/-- **Run lemma.**  A run in which no row reappears is one in which none is missed. -/
theorem reachable_of_not_reappears {w : World}
    (h : reminderScheduler.Reachable (fun c event => ¬ Reappears c event) w c) :
    reminderScheduler.Reachable (fun c event => ¬ Missed c event) w c := by
  induction h with
  | start => exact .start
  | step hbefore _ hadmits hstep ih =>
      obtain ⟨mode, hgoverns⟩ := Protocol.governed (shown_sound w.reminders) Shown.start hbefore
      exact .step ih (Shown.not_missed hgoverns _) hadmits hstep

/-- No run of a single instance misses a row. -/
theorem reachable_of_subsingleton [Subsingleton ι] {w : World}
    (h : reminderScheduler.Reachable (fun _ _ => True) w c) :
    reminderScheduler.Reachable (fun c event => ¬ Missed c event) w c := by
  apply reachable_of_not_reappears
  induction h with
  | start => exact .start
  | step _ _ hadmits hstep ih => exact .step ih (not_reappears _ _) hadmits hstep

end Shown

/-- An instance alone, on the last day of Tank Week: both of its queries are behind it, and it
claims the row that replaces the regular one. -/
theorem claim_rightful_tankEnd : ∃ c : Config schedulerEffects World Unit Tick TickEnd,
    reminderScheduler.Reachable (fun c event => ¬ Missed c event) tankWorld c ∧
      nextInsert? (c.task ()) =
        some (tuesdayTick, ⟨.reminder, tankEnd.id, tuesdayTick.nowUtc.date⟩) ∧
      Rightful tankWorld.reminders tuesdayTick tankEnd := by
  have hrun : (reminderScheduler.run (.start tankWorld) [.spawn () tuesdayTick, .op (), .op ()]).map
      (fun c => nextInsert? (c.task ())) =
      some (some (tuesdayTick, ⟨.reminder, tankEnd.id, tuesdayTick.nowUtc.date⟩)) := by
    decide +kernel
  obtain ⟨c, hrun, hinsert⟩ := Option.map_eq_some_iff.mp hrun
  have hreachable : reminderScheduler.Reachable (fun c event => ¬ Missed c event) tankWorld c :=
    reachable_of_subsingleton (Concurrent.Reachable.start.run (fun _ _ => trivial) rfl hrun)
  exact ⟨c, hreachable, hinsert, (claim_rightful hreachable hinsert rfl).2 tankEnd (by decide) rfl⟩

end MomBot.Reminders
