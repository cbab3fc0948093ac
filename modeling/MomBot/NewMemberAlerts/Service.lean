import Mathlib.Data.List.Nodup
import MomBot.Python.Decimal

/-!
# `NewMemberAlertService`

The officers of a guild who want a DM when somebody joins.  A subscription is a row; the ids of
guild and officer are text, and the command that writes them gets them from Discord as numbers.
-/

namespace MomBot.NewMemberAlerts

open Python

/-- A row of the subscriptions. -/
structure Subscription where
  id : ℕ
  guildId : String
  userId : String
  deriving DecidableEq, Repr

/-- What `uq_new_member_alert_subscription_guild_user` is on. -/
def Subscription.key (row : Subscription) : String × String := (row.guildId, row.userId)

/-- The table, in the order of its ids. -/
structure SubscriptionTable where
  rows : List Subscription
  nextId : ℕ
  ordered : rows.Pairwise fun row later => row.id < later.id
  fresh : ∀ row ∈ rows, row.id < nextId
  unique : (rows.map Subscription.key).Nodup

namespace SubscriptionTable

/-- Nobody is subscribed. -/
def empty : SubscriptionTable := ⟨[], 1, .nil, List.forall_mem_nil _, List.nodup_nil⟩

/-- `set_subscription`. -/
def setSubscription (t : SubscriptionTable) (guildId userId : String) (enabled : Bool) :
    SubscriptionTable :=
  if hrow : (guildId, userId) ∈ t.rows.map Subscription.key then
    if enabled then t
    else
      { rows := t.rows.filter fun row => row.key ≠ (guildId, userId)
        nextId := t.nextId
        ordered := t.ordered.filter _
        fresh := fun row hmem => t.fresh row (List.mem_of_mem_filter hmem)
        unique := (List.filter_sublist.map _).nodup t.unique }
  else if enabled then
    { rows := t.rows ++ [⟨t.nextId, guildId, userId⟩]
      nextId := t.nextId + 1
      ordered := by
        rw [List.pairwise_append]
        refine ⟨t.ordered, List.pairwise_singleton _ _, fun row hold added hnew => ?_⟩
        obtain rfl := List.mem_singleton.mp hnew
        exact t.fresh row hold
      fresh := by
        rw [List.forall_mem_append]
        exact ⟨fun row hold => Nat.lt_succ_of_lt (t.fresh row hold), by simp⟩
      unique := by
        rw [List.map_append]
        refine t.unique.append (List.nodup_singleton _) ?_
        intro key hold hnew
        obtain rfl := List.mem_singleton.mp hnew
        exact hrow hold }
  else t

/-- `list_subscriber_ids`. -/
def listSubscriberIds (t : SubscriptionTable) (guildId : String) : List String :=
  (t.rows.filter fun row => row.guildId = guildId).map Subscription.userId

/-- The same officer is listed once. -/
theorem nodup_listSubscriberIds (t : SubscriptionTable) (guildId : String) :
    (t.listSubscriberIds guildId).Nodup := by
  apply List.Nodup.map_on
  · intro row hrow other hother huser
    obtain ⟨hmem, hguild⟩ := List.mem_filter.mp hrow
    obtain ⟨hmem', hguild'⟩ := List.mem_filter.mp hother
    apply List.inj_on_of_nodup_map t.unique hmem hmem'
    exact Prod.ext ((of_decide_eq_true hguild).trans (of_decide_eq_true hguild').symm) huser
  · exact (t.unique.of_map _).filter _

/-! ## The command -/

/-- `notify_new_members`, once it has a state.  Discord's ids have 64 bits. -/
structure Toggle where
  guildId : ℤ
  userId : ℕ
  userId_lt : userId < 2 ^ 64
  enabled : Bool

/-- The table after a command. -/
def toggle (t : SubscriptionTable) (command : Toggle) : SubscriptionTable :=
  t.setSubscription (toString command.guildId) (toString (command.userId : ℤ)) command.enabled

/-- The table after some commands. -/
def run (commands : List Toggle) : SubscriptionTable :=
  commands.foldl toggle empty

/-- Every officer is an id, as `str` writes it. -/
def Numeric (t : SubscriptionTable) : Prop :=
  ∀ row ∈ t.rows, ∃ n : ℕ, n < 2 ^ 64 ∧ row.userId = toString (n : ℤ)

/-- **Step lemma.** -/
theorem Numeric.toggle {t : SubscriptionTable} (h : t.Numeric) (command : Toggle) :
    (t.toggle command).Numeric := by
  unfold SubscriptionTable.toggle setSubscription
  split
  next =>
    split
    next => exact h
    next => exact fun row hrow => h row (List.mem_of_mem_filter hrow)
  next =>
    split
    next =>
      intro row hrow
      rcases List.mem_append.mp hrow with hold | hnew
      · exact h row hold
      · obtain rfl := List.mem_singleton.mp hnew
        exact ⟨command.userId, command.userId_lt, rfl⟩
    next => exact h

/-- **Run lemma.** -/
theorem numeric_run (commands : List Toggle) : (run commands).Numeric :=
  List.foldlRecOn (motive := Numeric) commands toggle (List.forall_mem_nil _)
    fun _ h command _ => h.toggle command

theorem int_toString_of_lt {n : ℕ} (h : n < 2 ^ 64) : int (toString (n : ℤ)) = some (n : ℤ) := by
  apply int_toString
  have hlength : (Nat.toDigits 10 n).length ≤ 20 :=
    (Nat.length_toDigits_le_iff (by omega) (by omega)).mpr (h.trans (by decide))
  have hlimit : 20 ≤ intMaxStrDigits := by decide
  exact hlength.trans hlimit

/-- After any commands the listed ids are numbers, of different officers. -/
theorem listSubscriberIds_run (commands : List Toggle) (guildId : String) :
    (∀ userId ∈ (run commands).listSubscriberIds guildId, (int userId).isSome = true) ∧
      (((run commands).listSubscriberIds guildId).map int).Nodup := by
  have hnumeric : ∀ userId ∈ (run commands).listSubscriberIds guildId,
      ∃ n : ℕ, n < 2 ^ 64 ∧ userId = toString (n : ℤ) := by
    intro userId huser
    obtain ⟨row, hrow, rfl⟩ := List.mem_map.mp huser
    exact numeric_run commands row (List.mem_of_mem_filter hrow)
  constructor
  · intro userId huser
    obtain ⟨n, hn, rfl⟩ := hnumeric userId huser
    rw [int_toString_of_lt hn]
    rfl
  · refine List.Nodup.map_on ?_ (nodup_listSubscriberIds _ guildId)
    intro userId huser other hother heq
    obtain ⟨n, hn, rfl⟩ := hnumeric userId huser
    obtain ⟨n', hn', rfl⟩ := hnumeric other hother
    rw [int_toString_of_lt hn, int_toString_of_lt hn', Option.some_inj] at heq
    rw [heq]

end SubscriptionTable

end MomBot.NewMemberAlerts
