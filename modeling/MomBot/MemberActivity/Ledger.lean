import MomBot.Cooperative.Embedding
import MomBot.Cooperative.Logs
import MomBot.History
import MomBot.MemberActivity.Cleanup

/-!
# Which members a sweep lists

The table holds one row for a member and forgets what was before it.  What it means is a map from
members to stays, and that map is a function of the log of the run: the joins, the messages, what
the sweeps have listed and what they have removed, in their order (`noted`).  `Refines` connects the
two, and `stays_iff` reads a stay off the log.

So `list_stale` is exact: it lists those members whose last entry but for messages and listings is a
join 24 hours ago or earlier, and who have not written since that join.  It is so at the end of
every run and was so whenever a sweep has listed, and a sweep removes nobody whom it has not listed
(`listStale_iff_of_reachable`).
-/

namespace MomBot.MemberActivity

open Cooperative History

/-! ## Entries -/

/-- What the operations of the tasks enter, and where a task begins. -/
inductive Entry (ι : Type) where
  | began (task : ι)
  | join (member : ℤ × ℤ) (joinedAt : ℤ)
  | message (member : ℤ × ℤ) (messageAt : ℤ)
  | listed (sweep : ι) (now : ℤ) (rows : List Activity)
  | removed (sweep : ι) (member : ℤ × ℤ)
  deriving DecidableEq

variable {ι : Type}

namespace Entry

/-- What an operation of task `i` enters. -/
def ofOp (i : ι) (w : World) : ActivityOp → Option (Entry ι)
  | .recordJoin guildId memberId joinedAt => some (.join (guildId, memberId) joinedAt)
  | .recordFirstMessage guildId memberId messageAt => some (.message (guildId, memberId) messageAt)
  | .listStale now => some (.listed i now (w.exec (.listStale now)).1)
  | .removeTracking guildId memberId => some (.removed i (guildId, memberId))
  | .getTracking _ _ | .getMember _ => none

/-- The entry begins or ends a stay of the member. -/
def Resets (member : ℤ × ℤ) : Entry ι → Prop
  | join member' _ | removed _ member' => member' = member
  | began _ | message _ _ | listed _ _ _ => False

/-- When the member writes. -/
def writtenAt? (member : ℤ × ℤ) : Entry ι → Option ℤ
  | message member' messageAt => if member' = member then some messageAt else none
  | began _ | join _ _ | listed _ _ _ | removed _ _ => none

/-- Task `i` begins anew, or lists anew. -/
def Renews (i : ι) : Entry ι → Prop
  | began task => task = i
  | listed sweep _ _ => sweep = i
  | join _ _ | message _ _ | removed _ _ => False

end Entry

/-- What an event enters in the log. -/
def noted (c : Config activityEffects World ι Activation (Except Raised Unit)) :
    Event activityEffects World ι Activation → Option (Entry ι)
  | .spawn i _ => some (.began i)
  | .op i =>
      match c.task i with
      | .ready _ (.op o _) => Entry.ofOp i c.shared o
      | _ => none
  | .issue _ | .answer _ _ | .finish _ | .outside _ => none

/-- The table after an entry; a listing changes nothing. -/
def ActivityTable.enter (t : ActivityTable) : Entry ι → ActivityTable
  | .join member joinedAt => t.recordJoin member.1 member.2 joinedAt
  | .message member messageAt => t.recordFirstMessage member.1 member.2 messageAt
  | .removed _ member => t.removeTracking member.1 member.2
  | .began _ | .listed _ _ _ => t

/-! ## Stays -/

/-- A member's time in the guild: since when, and the first message since. -/
structure Stay where
  joinedAt : ℤ
  firstMessageAt : Option ℤ
  deriving DecidableEq, Repr

/-- What an entry does to the stay of one member. -/
def Stay.enter (member : ℤ × ℤ) (stay : Option Stay) : Entry ι → Option Stay
  | .join member' joinedAt => if member' = member then some ⟨joinedAt, none⟩ else stay
  | .message member' messageAt =>
      if member' = member then
        stay.map fun s => ⟨s.joinedAt, s.firstMessageAt.or (some messageAt)⟩
      else stay
  | .removed _ member' => if member' = member then none else stay
  | .began _ | .listed _ _ _ => stay

/-- The stay of a member after some entries. -/
def stayAfter (member : ℤ × ℤ) (entries : List (Entry ι)) : Option Stay :=
  entries.foldl (Stay.enter member) none

/-- The member's last join or removal is a join, and these are the messages since. -/
def Stands (entries : List (Entry ι)) (member : ℤ × ℤ) (joinedAt : ℤ)
    (firstMessageAt : Option ℤ) : Prop :=
  ∃ before after, entries = before ++ .join member joinedAt :: after ∧
    (∀ e ∈ after, ¬ e.Resets member) ∧
    firstMessageAt = (after.filterMap (Entry.writtenAt? member)).head?

section Stays

variable {member : ℤ × ℤ} {entries after : List (Entry ι)} {joinedAt : ℤ}
  {firstMessageAt : Option ℤ}

/-- Within a stay only the first message counts. -/
theorem foldl_enter_of_not_resets (h : ∀ e ∈ after, ¬ e.Resets member) (stay : Option Stay) :
    after.foldl (Stay.enter member) stay = stay.map fun s =>
      ⟨s.joinedAt, s.firstMessageAt.or (after.filterMap (Entry.writtenAt? member)).head?⟩ := by
  induction after generalizing stay with
  | nil =>
      cases stay with
      | none => rfl
      | some s => simp
  | cons e after ih =>
      obtain ⟨he, hafter⟩ := List.forall_mem_cons.mp h
      rw [List.foldl_cons, ih hafter, List.filterMap_cons]
      cases e with
      | join member' joinedAt =>
          have hother : member' ≠ member := he
          simp [Stay.enter, Entry.writtenAt?, hother]
      | removed sweep member' =>
          have hother : member' ≠ member := he
          simp [Stay.enter, Entry.writtenAt?, hother]
      | began | listed => simp [Stay.enter, Entry.writtenAt?]
      | message member' messageAt =>
          by_cases hmember : member' = member
          · cases stay with
            | none => simp [Stay.enter]
            | some s =>
                cases hs : s.firstMessageAt <;> simp [Stay.enter, Entry.writtenAt?, hmember, hs]
          · simp [Stay.enter, Entry.writtenAt?, hmember]

theorem stayAfter_of_stands (h : Stands entries member joinedAt firstMessageAt) :
    stayAfter member entries = some ⟨joinedAt, firstMessageAt⟩ := by
  obtain ⟨before, after, rfl, hafter, rfl⟩ := h
  rw [stayAfter, List.foldl_append, List.foldl_cons, foldl_enter_of_not_resets hafter]
  simp [Stay.enter]

/-- **Run lemma.**  What a stay says of the entries. -/
theorem stays_iff : stayAfter member entries = some ⟨joinedAt, firstMessageAt⟩ ↔
    Stands entries member joinedAt firstMessageAt := by
  refine ⟨fun h => ?_, stayAfter_of_stands⟩
  by_cases hreset : ∃ e ∈ entries, e.Resets member
  · obtain ⟨last, before, after, rfl, hlast, hafter⟩ := exists_isLast hreset
    cases last with
    | began | message | listed => cases hlast
    | removed sweep member' =>
        -- after a removal there is no stay
        obtain rfl : member' = member := hlast
        rw [stayAfter, List.foldl_append, List.foldl_cons, foldl_enter_of_not_resets hafter] at h
        simp [Stay.enter] at h
    | join member' joinedAt' =>
        obtain rfl : member' = member := hlast
        have hstands : Stands (before ++ .join member' joinedAt' :: after) member' joinedAt' _ :=
          ⟨before, after, rfl, hafter, rfl⟩
        rw [stayAfter_of_stands hstands] at h
        obtain ⟨rfl, rfl⟩ := Stay.mk.inj (Option.some.inj h)
        exact hstands
  · rw [stayAfter, foldl_enter_of_not_resets fun e he hresets => hreset ⟨e, he, hresets⟩] at h
    cases h

end Stays

/-! ## The table -/

/-- The rows are the stays. -/
def Refines (t : ActivityTable) (stay : ℤ × ℤ → Option Stay) : Prop :=
  ∀ row, row ∈ t.rows ↔ stay row.key = some ⟨row.joinedAt, row.firstMessageAt⟩

section Refines

variable {t : ActivityTable} {stay : ℤ × ℤ → Option Stay}

theorem mem_recordJoin_iff {guildId memberId joinedAt : ℤ} {row : Activity} :
    row ∈ (t.recordJoin guildId memberId joinedAt).rows ↔
      row = ⟨guildId, memberId, joinedAt, none⟩ ∨ row ∈ t.rows ∧ row.key ≠ (guildId, memberId) := by
  refine ⟨ActivityTable.mem_recordJoin, fun h => ?_⟩
  unfold ActivityTable.recordJoin
  split
  next hknown =>
    rcases h with rfl | ⟨hrow, hkey⟩
    · obtain ⟨old, hold, hkey⟩ := List.mem_map.mp hknown
      obtain ⟨rfl, rfl⟩ := Prod.ext_iff.mp hkey
      exact List.mem_map.mpr ⟨old, hold, if_pos rfl⟩
    · exact List.mem_map.mpr ⟨row, hrow, if_neg hkey⟩
  next =>
    rcases h with rfl | ⟨hrow, -⟩
    · exact List.mem_append_right _ (List.mem_singleton_self _)
    · exact List.mem_append_left _ hrow

theorem Refines.join (h : Refines t stay) (member : ℤ × ℤ) (joinedAt : ℤ) :
    Refines (t.enter (.join member joinedAt : Entry ι)) fun other =>
      Stay.enter other (stay other) (.join member joinedAt : Entry ι) := by
  intro row
  rw [ActivityTable.enter, mem_recordJoin_iff, h row]
  by_cases hkey : row.key = member
  · subst hkey
    obtain ⟨guildId, memberId, joinedAt', firstMessageAt⟩ := row
    simp [Stay.enter, Activity.key, eq_comm]
  · have hne : row ≠ ⟨member.1, member.2, joinedAt, none⟩ := by
      intro heq
      exact hkey (heq ▸ rfl)
    simp [Stay.enter, hne, hkey, Ne.symm hkey]

/-- The first message stays the first. -/
theorem spoken_eq (member : ℤ × ℤ) (messageAt : ℤ) (row : Activity) :
    ActivityTable.spoken member.1 member.2 messageAt row =
      if row.key = member then
        { row with firstMessageAt := row.firstMessageAt.or (some messageAt) }
      else row := by
  unfold ActivityTable.spoken
  by_cases hkey : row.key = member
  · obtain ⟨guildId, memberId, joinedAt, firstMessageAt⟩ := row
    cases firstMessageAt <;> simp [hkey]
  · rw [if_neg hkey, if_neg fun h => hkey h.1]

theorem Refines.message (h : Refines t stay) (member : ℤ × ℤ) (messageAt : ℤ) :
    Refines (t.enter (.message member messageAt : Entry ι)) fun other =>
      Stay.enter other (stay other) (.message member messageAt : Entry ι) := by
  intro row
  show row ∈ t.rows.map _ ↔
    (if member = row.key then (stay row.key).map _ else stay row.key) = _
  by_cases hkey : member = row.key
  · rw [if_pos hkey]
    constructor
    · intro hrow
      obtain ⟨old, hold, rfl⟩ := List.mem_map.mp hrow
      rw [ActivityTable.key_spoken] at hkey ⊢
      rw [(h old).mp hold, spoken_eq, if_pos hkey.symm]
      rfl
    · intro hstay
      obtain ⟨s, hs, heq⟩ := Option.map_eq_some_iff.mp hstay
      obtain ⟨hjoined, hfirst⟩ := Stay.mk.inj heq
      let old : Activity := { row with firstMessageAt := s.firstMessageAt }
      have hold : old ∈ t.rows := (h old).mpr (by rw [← hjoined]; exact hs)
      have hold_key : old.key = member := hkey.symm
      refine List.mem_map.mpr ⟨old, hold, ?_⟩
      rw [spoken_eq, if_pos hold_key]
      show { row with firstMessageAt := s.firstMessageAt.or (some messageAt) } = row
      rw [hfirst]
  · rw [if_neg hkey, ← h row]
    constructor
    · intro hrow
      obtain ⟨old, hold, rfl⟩ := List.mem_map.mp hrow
      rw [ActivityTable.key_spoken] at hkey
      rwa [spoken_eq, if_neg fun heq => hkey heq.symm]
    · intro hrow
      refine List.mem_map.mpr ⟨row, hrow, ?_⟩
      rw [spoken_eq, if_neg fun heq => hkey heq.symm]

theorem Refines.removed (h : Refines t stay) (sweep : ι) (member : ℤ × ℤ) :
    Refines (t.enter (.removed sweep member)) fun other =>
      Stay.enter other (stay other) (.removed sweep member) := by
  intro row
  rw [ActivityTable.enter, ActivityTable.removeTracking, List.mem_filter, h row]
  by_cases hkey : row.key = member
  · simp [Stay.enter, hkey]
  · simp [Stay.enter, hkey, Ne.symm hkey]

/-- **Step lemma.** -/
theorem Refines.enter (h : Refines t stay) (e : Entry ι) :
    Refines (t.enter e) fun member => Stay.enter member (stay member) e := by
  cases e with
  | join member joinedAt => exact h.join member joinedAt
  | message member messageAt => exact h.message member messageAt
  | removed sweep member => exact h.removed sweep member
  | began | listed => exact h

theorem Refines.entered {entries : List (Entry ι)}
    (h : Refines t fun member => stayAfter member entries) (e : Entry ι) :
    Refines (t.enter e) fun member => stayAfter member (entries ++ [e]) := by
  have hstep := h.enter e
  simp only [stayAfter, List.foldl_append, List.foldl_cons, List.foldl_nil] at hstep ⊢
  exact hstep

end Refines

/-! ## What is behind the log -/

/-- The row is due at `now`: its member has joined 24 hours ago or earlier, was not removed since,
and has not written since. -/
def Stale (entries : List (Entry ι)) (now : ℤ) (row : Activity) : Prop :=
  row.firstMessageAt = none ∧ row.joinedAt + inactivityWindow ≤ now ∧
    Stands entries row.key row.joinedAt none

/-- Since task `i` has begun, it has listed the row, which was stale then. -/
def ListedBy (entries : List (Entry ι)) (i : ι) (row : Activity) : Prop :=
  ∃ earlier now rows later, entries = earlier ++ .listed i now rows :: later ∧
    (∀ e ∈ later, ¬ e.Renews i) ∧ row ∈ rows ∧ Stale earlier now row

/-- A sweep lists what is stale, and removes a member whom it has listed. -/
def Entry.Accounted (before : List (Entry ι)) : Entry ι → Prop
  | listed _ now rows => ∀ row, row ∈ rows ↔ Stale before now row
  | removed sweep member => ∃ row, row.key = member ∧ ListedBy before sweep row
  | began _ | join _ _ | message _ _ => True

/-- What the entries say of the table, and of each other. -/
structure Entered (entries : List (Entry ι)) (w : World) : Prop where
  table : Refines w.table fun member => stayAfter member entries
  accounted : ∀ before e after, entries = before ++ e :: after → e.Accounted before

section Entered

variable {entries : List (Entry ι)} {w w' : World} {row : Activity} {cached : ℤ → Bool} {i : ι}
  {e : Entry ι}

theorem ListedBy.concat (h : ListedBy entries i row) (he : ¬ e.Renews i) :
    ListedBy (entries ++ [e]) i row := by
  obtain ⟨earlier, now, rows, later, rfl, hlater, hrow, hstale⟩ := h
  refine ⟨earlier, now, rows, later ++ [e], by simp, ?_, hrow, hstale⟩
  exact List.forall_mem_append.mpr ⟨hlater, List.forall_mem_singleton.mpr he⟩

theorem Entered.start : Entered ([] : List (Entry ι)) (.start cached) where
  table row := by simp [World.start, ActivityTable.empty, stayAfter]
  accounted before e after h := absurd h (by simp)

/-- The table is that of the entries. -/
theorem Entered.same (h : Entered entries w) (hrows : w'.table.rows.Perm w.table.rows) :
    Entered entries w' where
  table row := by
    rw [hrows.mem_iff]
    exact h.table row
  accounted := h.accounted

theorem Entered.concat (h : Entered entries w) (hw : w'.table = w.table.enter e)
    (he : e.Accounted entries) : Entered (entries ++ [e]) w' where
  table := hw ▸ h.table.entered e
  accounted before other after hsplit := by
    cases after using List.reverseRecOn with
    | nil =>
        obtain ⟨rfl, hlast⟩ := List.append_inj' hsplit rfl
        exact (List.cons.inj hlast).1 ▸ he
    | append_singleton after last _ =>
        rw [← List.cons_append, ← List.append_assoc] at hsplit
        exact h.accounted before other after (List.append_inj' hsplit rfl).1

/-- Which rows are there. -/
theorem Entered.mem_rows_iff (h : Entered entries w) :
    row ∈ w.table.rows ↔ Stands entries row.key row.joinedAt row.firstMessageAt :=
  (h.table row).trans stays_iff

theorem Entered.mem_listStale_iff (h : Entered entries w) (now : ℤ) :
    row ∈ w.table.listStale now ↔ Stale entries now row := by
  rw [ActivityTable.listStale, List.mem_filter, decide_eq_true_iff, h.mem_rows_iff]
  constructor
  · intro hlisted
    obtain ⟨hstands, hsilent, hjoined⟩ := hlisted
    exact ⟨hsilent, by omega, hsilent ▸ hstands⟩
  · intro hstale
    obtain ⟨hsilent, hjoined, hstands⟩ := hstale
    exact ⟨hsilent ▸ hstands, hsilent, by omega⟩

end Entered

/-! ## What a sweep removes -/

/-- Of the operations that change the table, only the removal of the activity's own row. -/
def RemovesOwn (activity : Activity) : ActivityOp → Prop
  | .removeTracking guildId memberId => (guildId, memberId) = activity.key
  | .getTracking _ _ | .getMember _ => True
  | .recordJoin _ _ _ | .recordFirstMessage _ _ _ | .listStale _ => False

section Uses

variable {activity : Activity}

theorem uses_afterKick (outcome : Outcome) :
    (afterKick activity outcome).Uses (RemovesOwn activity) fun _ => True := by
  unfold afterKick
  split
  next => trivial
  next => exact ⟨rfl, fun _ => trivial⟩

theorem uses_afterSend (outcome : Outcome) :
    (afterSend activity outcome).Uses (RemovesOwn activity) fun _ => True := by
  unfold afterSend
  split
  next => trivial
  next =>
    refine ⟨trivial, fun current => ?_⟩
    show (kickUnless (stateChanged activity current) activity).Uses _ _
    unfold kickUnless
    split
    next => trivial
    next => exact ⟨trivial, uses_afterKick⟩

theorem uses_processMember (activity : Activity) :
    (processMember activity).Uses (RemovesOwn activity) fun _ => True := by
  have hnotify : (notifyAndKick activity).Uses (RemovesOwn activity) fun _ => True :=
    ⟨trivial, uses_afterSend⟩
  refine ⟨trivial, fun found => ?_⟩
  cases found with
  | true => exact hnotify
  | false =>
      refine ⟨trivial, fun outcome => ?_⟩
      show (afterFetch activity outcome).Uses _ _
      unfold afterFetch
      split
      next => exact hnotify
      next => exact ⟨rfl, fun _ => trivial⟩
      next => split <;> trivial

theorem uses_processMembers (rows : List Activity) :
    (processMembers rows).Uses (fun o => ∃ activity ∈ rows, RemovesOwn activity o)
      fun _ => True := by
  induction rows with
  | nil => trivial
  | cons activity rest ih =>
      have hfirst := (uses_processMember activity).mono
        (fun o ho => (⟨activity, List.mem_cons_self, ho⟩ :
          ∃ activity' ∈ activity :: rest, RemovesOwn activity' o)) fun _ _ => trivial
      refine hfirst.bind fun result => ?_
      cases result with
      | error exc => trivial
      | ok _ =>
          refine ih.mono (fun o ho => ?_) fun _ _ => trivial
          obtain ⟨other, hother, hremoves⟩ := ho
          exact ⟨other, List.mem_cons_of_mem _ hother, hremoves⟩

end Uses

/-! ## The protocol -/

/-- The mode of a task is what it has listed; it removes nothing else. -/
def listing : Protocol activityEffects Activation (List Activity) where
  rest := []
  start _ := []
  opOk _ listed
    | .removeTracking guildId memberId => ∃ row ∈ listed, row.key = (guildId, memberId)
    | _ => True
  gives _ _ _ := True
  afterOp listed o r :=
    match o, r with
    | .listStale _, rows => rows
    | _, _ => listed
  callOk _ _ _ := True
  atCall listed _ := listed
  afterCall listed _ _ := listed

/-- The loop of a sweep removes members whom the sweep has listed. -/
theorem listing_processMembers (stale : List Activity) (x : Activation) :
    (processMembers stale).Follows listing x (fun _ _ => True) stale := by
  refine Coroutine.Follows.of_uses (fun listed => listed = stale) (uses_processMembers stale) rfl
    ?_ (fun _ _ hlisted _ => ⟨trivial, fun _ => hlisted⟩) fun _ _ _ => trivial
  intro listed o hlisted ho
  obtain ⟨row, hrow, hremoves⟩ := ho
  subst hlisted
  cases o with
  | removeTracking guildId memberId => exact ⟨⟨row, hrow, hremoves.symm⟩, fun _ => rfl⟩
  | getTracking guildId memberId => exact ⟨trivial, fun _ => rfl⟩
  | getMember memberId => exact ⟨trivial, fun _ => rfl⟩
  | recordJoin => cases hremoves
  | recordFirstMessage => cases hremoves
  | listStale => cases hremoves

theorem listing_follows (ownGuild : ℤ) (x : Activation) :
    (x.program ownGuild).Follows listing x (fun _ _ => True) [] := by
  cases x with
  | sweep ready now =>
      show (sweep ready now).Follows _ _ _ _
      unfold sweep
      split
      next => exact ⟨trivial, fun stale _ => listing_processMembers stale _⟩
      next => trivial
  | memberJoin bot guildId memberId joinedAt =>
      show (onMemberJoin ownGuild bot guildId memberId joinedAt).Follows _ _ _ _
      unfold onMemberJoin
      split
      next => trivial
      next =>
        split
        next => trivial
        next => exact ⟨trivial, fun _ _ => trivial⟩
  | message bot guildId authorId messageAt =>
      show (onMessage ownGuild bot guildId authorId messageAt).Follows _ _ _ _
      unfold onMessage
      split
      next => trivial
      next =>
        split
        next => trivial
        next =>
          split
          next => trivial
          next => exact ⟨trivial, fun _ _ => trivial⟩

/-! ## Every run -/

section Runs

variable {ownGuild : ℤ} {cached : ℤ → Bool} {mode mode' : ι → List Activity}
  {w : World} {i : ι} {log : List (Entry ι)}
  {c c' : Config activityEffects World ι Activation (Except Raised Unit)}
  {event : Event activityEffects World ι Activation}
  {allowed : Config activityEffects World ι Activation (Except Raised Unit) →
    Event activityEffects World ι Activation → Prop}

/-- The log accounts for the table, and for what every task has listed. -/
structure Accounts (log : List (Entry ι)) (mode : ι → List Activity)
    (c : Config activityEffects World ι Activation (Except Raised Unit)) : Prop where
  entered : Entered log c.shared
  listed : ∀ i, ∀ row ∈ mode i, ListedBy log i row

/-- **Step lemma.**  An operation is entered for what it does. -/
theorem Accounts.exec (h : Accounts log mode c) {x : Activation} {o : ActivityOp}
    (ho : listing.opOk x (mode i) o) :
    Entered (log ++ (Entry.ofOp i c.shared o).toList) (c.shared.exec o).2 := by
  cases o with
  | recordJoin guildId memberId joinedAt => exact h.entered.concat rfl trivial
  | recordFirstMessage guildId memberId messageAt => exact h.entered.concat rfl trivial
  | listStale now =>
      exact h.entered.concat rfl fun row => h.entered.mem_listStale_iff now
  | removeTracking guildId memberId =>
      obtain ⟨row, hrow, hkey⟩ := ho
      exact h.entered.concat rfl ⟨row, hkey, h.listed i row hrow⟩
  | getTracking guildId memberId =>
      rw [Entry.ofOp, Option.toList_none, List.append_nil]
      exact h.entered
  | getMember memberId =>
      rw [Entry.ofOp, Option.toList_none, List.append_nil]
      exact h.entered

/-- What a task has listed stays listed until the task lists or begins anew. -/
theorem ListedBy.exec {row : Activity} {o : ActivityOp} (h : ∀ row ∈ mode i, ListedBy log i row)
    (hentered : Entered log w) (hrow : row ∈ listing.afterOp (mode i) o (w.exec o).1) :
    ListedBy (log ++ (Entry.ofOp i w o).toList) i row := by
  cases o with
  | listStale now =>
      exact ⟨log, now, _, [], rfl, List.forall_mem_nil _, hrow,
        (hentered.mem_listStale_iff now).mp hrow⟩
  | recordJoin | recordFirstMessage | removeTracking => exact (h row hrow).concat not_false
  | getTracking | getMember =>
      rw [Entry.ofOp, Option.toList_none, List.append_nil]
      exact h row hrow

theorem noted_op {x : Activation} {o : ActivityOp}
    {next : o.Res → ActivityM (Except Raised Unit)} (htask : c.task i = .ready x (.op o next)) :
    noted c (.op i) = Entry.ofOp i c.shared o := by
  simp only [noted, htask]

/-- Only a task itself begins and lists. -/
theorem not_renews_of_noted {e : Entry ι} (he : e ∈ noted c event)
    (hother : event.task? ≠ some i) : ¬ e.Renews i := by
  have hne : ∀ j, event.task? = some j → j ≠ i := fun j hj heq => hother (heq ▸ hj)
  cases event with
  | spawn j x =>
      obtain rfl := Option.some.inj he
      exact hne j rfl
  | op j =>
      simp only [noted] at he
      split at he
      next x o next htask =>
        cases o with
        | listStale now =>
            obtain rfl := Option.some.inj he
            exact hne j rfl
        | recordJoin | recordFirstMessage | removeTracking =>
            obtain rfl := Option.some.inj he
            exact not_false
        | getTracking | getMember => cases he
      next => cases he
  | issue | answer | finish | outside => cases he

variable [DecidableEq ι]

/-- The modes carry all there is to know. -/
theorem listing_sound (ownGuild : ℤ) :
    listing.Sound (fun _ _ => True) (fun (_ : ι → List Activity) _ => True) (autoKick ownGuild)
      allowed where
  program x := listing_follows ownGuild x
  spawn _ _ _ _ := trivial
  op _ _ _ _ := ⟨trivial, trivial⟩
  issue _ _ _ _ := trivial
  answer _ _ _ _ _ := trivial
  finish _ _ _ _ := trivial
  outside _ _ _ := trivial

/-- The part of the table. -/
theorem Accounts.entered_step (h : Accounts log mode c)
    (hadmits : (autoKick ownGuild).Admits c event)
    (hstep : (autoKick ownGuild).step c event = some c')
    (hmoves : ∀ i,
      listing.Moves (fun _ _ => True) (autoKick ownGuild) c event i (mode i) (mode' i)) :
    Entered (log ++ (noted c event).toList) c'.shared := by
  cases Concurrent.happens_of_step hstep with
  | spawn => exact h.entered.concat rfl trivial
  | @op i x o next htask =>
      rw [noted_op htask]
      have hi := hmoves i
      generalize hmode : mode i = t at hi
      generalize mode' i = t' at hi
      cases hi with
      | others hother => exact absurd rfl hother
      | op htask' hok =>
          obtain ⟨rfl, heq⟩ := Progress.ready.inj (htask.symm.trans htask')
          obtain ⟨rfl, -⟩ := Coroutine.op.inj heq
          exact h.exec (hmode ▸ hok)
  | issue | answer | finish =>
      rw [noted, Option.toList_none, List.append_nil]
      exact h.entered
  | outside =>
      rw [noted, Option.toList_none, List.append_nil]
      exact h.entered.same hadmits.1

/-- **Step lemma.**  Every event is noted for what it does. -/
theorem accounts_keeps (ownGuild : ℤ) :
    listing.KeepsLogging (fun _ _ => True) (fun (_ : ι → List Activity) _ => True)
      (autoKick ownGuild) allowed noted Accounts := by
  intro log mode mode' c c' event _ _ hadmits hstep hmoves h
  refine ⟨h.entered_step hadmits hstep hmoves, fun j row hrow => ?_⟩
  have hj := hmoves j
  have hlisted := h.listed j
  generalize hmode : mode j = t at hj hlisted
  generalize mode' j = t' at hj hrow
  cases hj with
  | others hother =>
      cases hnote : noted c event with
      | none => simpa using hlisted row hrow
      | some e => exact (hlisted row hrow).concat (not_renews_of_noted hnote hother)
  | spawn | finish => exact absurd hrow List.not_mem_nil
  | op htask =>
      rw [noted_op htask]
      exact ListedBy.exec (hmode ▸ hlisted) h.entered (hmode ▸ hrow)
  | issue | answer => simpa [noted] using hlisted row hrow

/-- **Run lemma.** -/
theorem accounts_of_logs (h : (autoKick ownGuild).Logs allowed noted (.start cached) log c) :
    ∃ mode, Accounts log mode c := by
  have hstart : Accounts ([] : List (Entry ι)) (fun _ => []) (.start (.start cached)) :=
    ⟨.start, fun _ _ hrow => absurd hrow List.not_mem_nil⟩
  obtain ⟨mode, -, haccounts⟩ :=
    Protocol.governed_logging (listing_sound ownGuild) (accounts_keeps ownGuild) trivial hstart h
  exact ⟨mode, haccounts⟩

/-- The log of the run says which members are listed: those who joined 24 hours ago or earlier, were
not removed since, and have not written since.  The sweeps have listed these and no others, and have
removed no others. -/
theorem listStale_iff_of_reachable
    (h : (autoKick ownGuild).Reachable allowed (.start cached) c) :
    (∃ log, (autoKick ownGuild).Logs allowed noted (.start cached) log c) ∧
      ∀ log, (autoKick ownGuild).Logs allowed noted (.start cached) log c →
        (∀ now row, row ∈ c.shared.table.listStale now ↔ Stale log now row) ∧
          ∀ before e after, log = before ++ e :: after → e.Accounted before := by
  refine ⟨Concurrent.reachable_iff_exists_logs.mp h, fun log hlogs => ?_⟩
  obtain ⟨mode, haccounts⟩ := accounts_of_logs hlogs
  exact ⟨fun now row => haccounts.entered.mem_listStale_iff now, haccounts.entered.accounted⟩

end Runs

/-! ### A member who has left -/

/-- Member 7 joins, and is gone when a sweep 24 hours later looks. -/
def goneMember : List (Event activityEffects World Bool Activation) :=
  [.spawn false (.memberJoin false 1 7 0), .op false, .finish false,
    .spawn true (.sweep true inactivityWindow), .op true, .op true, .issue true,
    .answer true fun _ => .error .notFound, .op true]

/-- A member joins, and a sweep lists and removes him. -/
def goneLog : List (Entry Bool) :=
  [.began false, .join (1, 7) 0, .began true, .listed true inactivityWindow [⟨1, 7, 0, none⟩],
    .removed true (1, 7)]

theorem listStale_iff_of_reachable_removed :
    ∃ c : Config activityEffects World Bool Activation (Except Raised Unit),
      (autoKick 1).Logs Concurrent.SwitchesAtAwaits noted (.start fun _ => false) goneLog c ∧
      (∀ now row, row ∈ c.shared.table.listStale now ↔ Stale goneLog now row) ∧
        ∀ before e after, goneLog = before ++ e :: after → e.Accounted before := by
  have hperformed : ((autoKick 1).runIf
      (fun c event => decide (Concurrent.SwitchesAtAwaits c event))
      (.start (.start fun _ => false)) goneMember).isSome = true := by
    decide +kernel
  have hlog : (autoKick 1).noteAll noted (.start (.start fun _ => false)) goneMember = goneLog := by
    decide +kernel
  obtain ⟨c, hrun⟩ := Option.isSome_iff_exists.mp hperformed
  have hlogs : (autoKick 1).Logs Concurrent.SwitchesAtAwaits noted (.start fun _ => false) goneLog
      c := by
    rw [← hlog, ← List.nil_append ((autoKick 1).noteAll _ _ _)]
    exact Concurrent.Logs.start.runIf (fun _ _ h => of_decide_eq_true h) rfl hrun
  have hreachable := Concurrent.reachable_iff_exists_logs.mpr ⟨_, hlogs⟩
  exact ⟨c, hlogs, (listStale_iff_of_reachable hreachable).2 goneLog hlogs⟩

end MomBot.MemberActivity
