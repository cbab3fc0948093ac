import MomBot.History
import MomBot.NewMemberAlerts.Service

/-!
# Who is listed after some commands

A subscription stands as long as the last command of its officer in its guild was `on`.  The list
keeps the order in which the subscriptions were made: an officer who is subscribed without a break
stays ahead of everybody who subscribes later, and one who switches off and on again goes to the
end (`listSubscriberIds_run_iff`).
-/

namespace MomBot.NewMemberAlerts.SubscriptionTable

open History

/-- The subscriptions, in the order of their ids. -/
def keys (t : SubscriptionTable) : List (String × String) := t.rows.map Subscription.key

/-- The guild and the user whom a command is about. -/
def Toggle.key (command : Toggle) : String × String :=
  (toString command.guildId, toString (command.userId : ℤ))

variable {t : SubscriptionTable} {guildId userId other : String} {key : String × String}
  {commands before after : List Toggle} {command : Toggle}

/-! ## Keys -/

/-- **Step lemma.**  A subscription is appended, taken out, or left as it is. -/
theorem keys_toggle (t : SubscriptionTable) (command : Toggle) :
    (t.toggle command).keys =
      if command.key ∈ t.keys then
        if command.enabled then t.keys else t.keys.filter fun key => key ≠ command.key
      else if command.enabled then t.keys ++ [command.key] else t.keys := by
  unfold toggle setSubscription
  change _ = if (toString command.guildId, toString (command.userId : ℤ)) ∈
    t.rows.map Subscription.key then _ else _
  split
  next =>
    split
    next => rfl
    next =>
      rw [keys, keys, List.filter_map]
      rfl
  next =>
    split
    next => simp [keys, Subscription.key, Toggle.key]
    next => rfl

theorem mem_keys_toggle :
    key ∈ (t.toggle command).keys ↔
      if command.key = key then command.enabled = true else key ∈ t.keys := by
  rw [keys_toggle]
  by_cases hkey : command.key = key
  · subst hkey
    cases command.enabled <;> by_cases hmem : command.key ∈ t.keys <;> simp [hmem]
  · have hne : key ≠ command.key := fun h => hkey h.symm
    cases command.enabled <;> by_cases hmem : command.key ∈ t.keys <;> simp [hmem, hkey, hne]

/-- The officers of a guild are those of its keys. -/
theorem listSubscriberIds_eq (t : SubscriptionTable) (guildId : String) :
    t.listSubscriberIds guildId = (t.keys.filter fun key => key.1 = guildId).map Prod.snd := by
  rw [listSubscriberIds, keys, List.filter_map, List.map_map]
  rfl

theorem mem_listSubscriberIds :
    userId ∈ t.listSubscriberIds guildId ↔ (guildId, userId) ∈ t.keys := by
  rw [listSubscriberIds_eq]
  simp

/-! ## Runs -/

theorem run_concat : run (commands ++ [command]) = (run commands).toggle command := by
  rw [run, run, List.foldl_append]
  rfl

/-- **Run lemma.**  The last command about a subscription decides. -/
theorem mem_keys_run_iff :
    key ∈ (run commands).keys ↔
      ∃ last, IsLast (fun command : Toggle => command.key = key) commands last ∧
        last.enabled = true := by
  induction commands using List.reverseRecOn with
  | nil => exact iff_of_false List.not_mem_nil fun h => isLast_nil h.choose_spec.1
  | append_singleton commands command ih =>
      rw [run_concat, mem_keys_toggle]
      split
      next hkey =>
        simp only [isLast_concat (p := fun command : Toggle => command.key = key) hkey,
          exists_eq_left]
      next hkey =>
        simp only [isLast_concat_of_not (p := fun command : Toggle => command.key = key) hkey]
        exact ih

/-- **Step lemma.**  Whoever is ahead of another subscriber, or subscribed when the other is not, is
ahead of him after a command that leaves both subscribed. -/
theorem sublist_keys_toggle {first second : String × String} (hfirst : first ∈ t.keys)
    (hahead : second ∈ t.keys → [first, second].Sublist t.keys)
    (hstays : first ∈ (t.toggle command).keys) (hin : second ∈ (t.toggle command).keys) :
    [first, second].Sublist (t.toggle command).keys := by
  rw [keys_toggle] at hstays hin ⊢
  by_cases hold : command.key ∈ t.keys
  · rw [if_pos hold] at hstays hin ⊢
    by_cases henabled : command.enabled = true
    · rw [if_pos henabled] at hin ⊢
      exact hahead hin
    · rw [if_neg henabled] at hstays hin ⊢
      -- neither of the two is taken out
      have hsub := (hahead (List.mem_of_mem_filter hin)).filter fun key => key ≠ command.key
      rwa [List.filter_cons_of_pos (List.of_mem_filter hstays),
        List.filter_cons_of_pos (List.of_mem_filter hin), List.filter_nil] at hsub
  · rw [if_neg hold] at hin ⊢
    by_cases henabled : command.enabled = true
    · rw [if_pos henabled] at hin ⊢
      rcases List.mem_append.mp hin with hthere | hadded
      · exact (hahead hthere).trans (List.sublist_append_left _ _)
      · rw [List.mem_singleton] at hadded
        subst hadded
        exact (List.singleton_sublist.mpr hfirst).append (List.Sublist.refl [command.key])
    · rw [if_neg henabled] at hin ⊢
      exact hahead hin

/-- **Run lemma.**  A subscription that nobody ends stays, and stays ahead. -/
theorem sublist_keys_run {first second : String × String}
    (hfirst : first ∈ (run before).keys) (hsecond : second ∉ (run before).keys)
    (hafter : ∀ command ∈ after, command.key = first → command.enabled = true) :
    first ∈ (run (before ++ after)).keys ∧
      (second ∈ (run (before ++ after)).keys →
        [first, second].Sublist (run (before ++ after)).keys) := by
  induction after using List.reverseRecOn with
  | nil =>
      rw [List.append_nil]
      exact ⟨hfirst, fun h => absurd h hsecond⟩
  | append_singleton after command ih =>
      rw [List.forall_mem_append, List.forall_mem_singleton] at hafter
      obtain ⟨hmem, hahead⟩ := ih hafter.1
      rw [← List.append_assoc, run_concat]
      have hstays : first ∈ ((run (before ++ after)).toggle command).keys := by
        rw [mem_keys_toggle]
        split
        next hkey => exact hafter.2 hkey
        next => exact hmem
      exact ⟨hstays, sublist_keys_toggle hmem hahead hstays⟩

/-- After any commands: listed are those whose last command was `on`, once each, and whoever has
been subscribed without a break since before another one subscribed is ahead of him. -/
theorem listSubscriberIds_run_iff (commands : List Toggle) (guildId : String) :
    (∀ userId, userId ∈ (run commands).listSubscriberIds guildId ↔
        ∃ last, IsLast (fun command : Toggle => command.key = (guildId, userId)) commands last ∧
          last.enabled = true) ∧
      ((run commands).listSubscriberIds guildId).Nodup ∧
      ∀ before after userId other, commands = before ++ after →
        userId ∈ (run before).listSubscriberIds guildId →
        other ∉ (run before).listSubscriberIds guildId →
        (∀ command ∈ after, command.key = (guildId, userId) → command.enabled = true) →
        other ∈ (run commands).listSubscriberIds guildId →
        [userId, other].Sublist ((run commands).listSubscriberIds guildId) := by
  refine ⟨fun userId => ?_, nodup_listSubscriberIds _ guildId, ?_⟩
  · rw [mem_listSubscriberIds, mem_keys_run_iff]
  · intro before after userId other hsplit huser hother hafter hlisted
    subst hsplit
    rw [mem_listSubscriberIds] at huser hother hlisted
    have hsub := (sublist_keys_run huser hother hafter).2 hlisted
    rw [listSubscriberIds_eq]
    have hguild := hsub.filter fun key => key.1 = guildId
    rw [List.filter_cons_of_pos (by simp), List.filter_cons_of_pos (by simp),
      List.filter_nil] at hguild
    exact hguild.map Prod.snd

end MomBot.NewMemberAlerts.SubscriptionTable
