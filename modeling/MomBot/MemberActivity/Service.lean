import Mathlib.Data.List.Nodup
import Mathlib.Data.Int.Notation

/-!
# `MemberActivityService`

One row for each member of a guild: the latest join, and the first message after it.
Times are microseconds, in naive UTC.
-/

namespace MomBot.MemberActivity

/-- A row of `member_activity`. -/
structure Activity where
  guildId : ℤ
  memberId : ℤ
  joinedAt : ℤ
  firstMessageAt : Option ℤ
  deriving DecidableEq, Repr

/-- What `uq_member_activity_guild_member` is on. -/
def Activity.key (row : Activity) : ℤ × ℤ := (row.guildId, row.memberId)

/-- The table `member_activity`; its unique constraint is a field. -/
structure ActivityTable where
  rows : List Activity
  unique : (rows.map Activity.key).Nodup

/-- 24 hours. -/
def inactivityWindow : ℤ := 24 * 60 * 60 * 1000000

namespace ActivityTable

/-- Nobody has joined yet. -/
def empty : ActivityTable := ⟨[], List.nodup_nil⟩

variable (t : ActivityTable) (guildId memberId : ℤ)

/-- The row of a join: a new one, or the old one with its stay restarted. -/
def rejoined (joinedAt : ℤ) (row : Activity) : Activity :=
  if row.key = (guildId, memberId) then
    { row with joinedAt := joinedAt, firstMessageAt := none }
  else row

/-- The row of a first message. -/
def spoken (messageAt : ℤ) (row : Activity) : Activity :=
  if row.key = (guildId, memberId) ∧ row.firstMessageAt = none then
    { row with firstMessageAt := some messageAt }
  else row

@[simp] theorem key_rejoined (joinedAt : ℤ) (row : Activity) :
    (rejoined guildId memberId joinedAt row).key = row.key := by
  unfold rejoined
  split <;> rfl

@[simp] theorem key_spoken (messageAt : ℤ) (row : Activity) :
    (spoken guildId memberId messageAt row).key = row.key := by
  unfold spoken
  split <;> rfl

theorem map_key_map {f : Activity → Activity} (hf : ∀ row, (f row).key = row.key)
    (rows : List Activity) :
    (rows.map f).map Activity.key = rows.map Activity.key := by
  rw [List.map_map]
  exact List.map_congr_left fun row _ => hf row

/-- `record_join`. -/
def recordJoin (joinedAt : ℤ) : ActivityTable :=
  if h : (guildId, memberId) ∈ t.rows.map Activity.key then
    { rows := t.rows.map (rejoined guildId memberId joinedAt)
      unique := by
        rw [map_key_map (key_rejoined guildId memberId joinedAt)]
        exact t.unique }
  else
    { rows := t.rows ++ [⟨guildId, memberId, joinedAt, none⟩]
      unique := by
        rw [List.map_append, List.nodup_append]
        refine ⟨t.unique, List.nodup_singleton _, ?_⟩
        intro a ha b hb hab
        obtain rfl := List.mem_singleton.mp hb
        subst hab
        exact h ha }

/-- `record_first_message`. -/
def recordFirstMessage (messageAt : ℤ) : ActivityTable where
  rows := t.rows.map (spoken guildId memberId messageAt)
  unique := by
    rw [map_key_map (key_spoken guildId memberId messageAt)]
    exact t.unique

/-- `list_stale`, as of `now`. -/
def listStale (now : ℤ) : List Activity :=
  t.rows.filter fun row => row.firstMessageAt = none ∧ row.joinedAt ≤ now - inactivityWindow

/-- `get_tracking`. -/
def getTracking : Option Activity :=
  t.rows.find? fun row => row.key = (guildId, memberId)

/-- `remove_tracking`. -/
def removeTracking : ActivityTable where
  rows := t.rows.filter fun row => row.key ≠ (guildId, memberId)
  unique := (List.filter_sublist.map Activity.key).nodup t.unique

variable {t guildId memberId} {row : Activity} {joinedAt messageAt now : ℤ}

/-- After a join its row is fresh, and the other rows are as they were. -/
theorem mem_recordJoin (h : row ∈ (t.recordJoin guildId memberId joinedAt).rows) :
    row = ⟨guildId, memberId, joinedAt, none⟩ ∨ row ∈ t.rows ∧ row.key ≠ (guildId, memberId) := by
  unfold recordJoin at h
  split at h
  next =>
    obtain ⟨old, hold, rfl⟩ := List.mem_map.mp h
    unfold rejoined
    by_cases hkey : old.key = (guildId, memberId)
    · obtain ⟨rfl, rfl⟩ := Prod.ext_iff.mp hkey
      exact .inl (if_pos rfl)
    · rw [if_neg hkey]
      exact .inr ⟨hold, hkey⟩
  next hnew =>
    rcases List.mem_append.mp h with hold | hfresh
    · exact .inr ⟨hold, fun hkey => hnew (hkey ▸ List.mem_map_of_mem hold)⟩
    · exact .inl (List.mem_singleton.mp hfresh)

/-- A row that is still without a message belongs to another member. -/
theorem mem_recordFirstMessage (h : row ∈ (t.recordFirstMessage guildId memberId messageAt).rows) :
    ∃ old ∈ t.rows, old.guildId = row.guildId ∧ (row.firstMessageAt = none →
      row = old ∧ row.key ≠ (guildId, memberId)) := by
  obtain ⟨old, hold, rfl⟩ := List.mem_map.mp h
  refine ⟨old, hold, (congrArg Prod.fst (key_spoken guildId memberId messageAt old)).symm, ?_⟩
  unfold spoken
  split
  next => exact fun hnone => absurd hnone (by simp)
  next hother => exact fun hnone => ⟨rfl, fun hkey => hother ⟨hkey, hnone⟩⟩

theorem mem_listStale (h : row ∈ t.listStale now) :
    row ∈ t.rows ∧ row.firstMessageAt = none ∧ row.joinedAt + inactivityWindow ≤ now := by
  obtain ⟨hrow, hstale⟩ := List.mem_filter.mp h
  obtain ⟨hnone, hjoined⟩ := of_decide_eq_true hstale
  exact ⟨hrow, hnone, by omega⟩

theorem mem_of_getTracking (h : t.getTracking guildId memberId = some row) :
    row ∈ t.rows ∧ row.key = (guildId, memberId) :=
  ⟨List.mem_of_find?_eq_some h, by simpa using List.find?_some h⟩

theorem mem_of_mem_removeTracking (h : row ∈ (t.removeTracking guildId memberId).rows) :
    row ∈ t.rows :=
  List.mem_of_mem_filter h

end ActivityTable

end MomBot.MemberActivity
