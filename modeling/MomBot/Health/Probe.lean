import Mathlib.Data.List.Chain
import MomBot.Health.Progress

/-!
# `GET /healthz`

`record_heartbeat` remembers the time of the last heartbeat, and the handler compares its age with
60 seconds.  The container is restarted after three checks in a row that fail, 30 seconds apart.  A
round of the reminders sleeps 60 seconds, so a heartbeat is regularly older than that and single
checks do fail.  Three in a row do not as long as no two heartbeats are more than 119 seconds apart,
and they do at some time between two heartbeats that are 150 seconds apart (`threeChecks_fail`).
-/

namespace MomBot.Health

open History

/-- `HEARTBEAT_THRESHOLD_SECONDS`. -/
def heartbeatThresholdSeconds : ℚ := 60

/-- `periodSeconds` of the probe. -/
def periodSeconds : ℚ := 30

/-- `last_heartbeat` after a call at `now`. -/
def recordHeartbeat (_ : Option ℚ) (now : ℚ) : Option ℚ := some now

/-- The status of `healthz_handler`. -/
def healthzHandler (R : Rounding) (lastHeartbeat : Option ℚ) (now : ℚ) : ℕ :=
  match lastHeartbeat with
  | none => 503
  | some last =>
      if R.nearest (now - last) < heartbeatThresholdSeconds then 200 else 503

/-- `last_heartbeat` at `now`, where the heartbeats of the process are at `heartbeats`. -/
def lastHeartbeatAt (heartbeats : List ℚ) (now : ℚ) : Option ℚ :=
  (heartbeats.filter (· ≤ now)).foldl recordHeartbeat none

/-- What a check at `now` is answered. -/
def check (R : Rounding) (heartbeats : List ℚ) (now : ℚ) : ℕ :=
  healthzHandler R (lastHeartbeatAt heartbeats now) now

/-- Three checks in a row, the first at `now`. -/
def threeChecks (R : Rounding) (heartbeats : List ℚ) (now : ℚ) : List ℕ :=
  [now, now + periodSeconds, now + 2 * periodSeconds].map (check R heartbeats)

/-! ## The last heartbeat -/

variable {R : Rounding} {heartbeats before after : List ℚ} {now last next gap : ℚ}

theorem foldl_recordHeartbeat (heartbeats : List ℚ) (last : ℚ) :
    (heartbeats ++ [last]).foldl recordHeartbeat none = some last := by
  rw [List.foldl_append]
  rfl

theorem lastHeartbeatAt_of_isLast (h : IsLast (· ≤ now) heartbeats last) :
    lastHeartbeatAt heartbeats now = some last := by
  obtain ⟨before, after, rfl, hlast, hafter⟩ := h
  have hnone : after.filter (· ≤ now) = [] := by
    apply List.filter_eq_nil_iff.mpr
    intro t ht
    simpa using hafter t ht
  rw [lastHeartbeatAt, List.filter_append, List.filter_cons_of_pos (by simpa using hlast), hnone]
  exact foldl_recordHeartbeat _ last

theorem check_eq_ok (h : IsLast (· ≤ now) heartbeats last)
    (hage : R.nearest (now - last) < heartbeatThresholdSeconds) : check R heartbeats now = 200 := by
  rw [check, lastHeartbeatAt_of_isLast h, healthzHandler, if_pos hage]

theorem check_eq_unavailable (h : IsLast (· ≤ now) heartbeats last)
    (hage : heartbeatThresholdSeconds ≤ R.nearest (now - last)) :
    check R heartbeats now = 503 := by
  rw [check, lastHeartbeatAt_of_isLast h, healthzHandler, if_neg (not_lt.mpr hage)]

/-- A heartbeat that is not after the check is not after the last one either. -/
theorem le_of_isLast (horder : heartbeats.Pairwise (· ≤ ·))
    (h : IsLast (· ≤ now) heartbeats last) (hnext : next ∈ heartbeats) (hle : next ≤ now) :
    next ≤ last := by
  obtain ⟨before, after, rfl, hlast, hafter⟩ := h
  rcases List.mem_append.mp hnext with hbefore | hrest
  · exact (List.pairwise_append.mp horder).2.2 next hbefore last List.mem_cons_self
  · rcases List.mem_cons.mp hrest with rfl | hlater
    · exact le_refl _
    · exact absurd hle (hafter next hlater)

/-! ## Three checks -/

/-- A check that some recent heartbeat precedes. -/
theorem check_of_recent (hexact : R.nearest 59 = 59) (horder : heartbeats.Pairwise (· ≤ ·))
    (hnext : next ∈ heartbeats) (hle : next ≤ now) (hage : now - next ≤ 59) :
    check R heartbeats now = 200 := by
  obtain ⟨last, hlast⟩ : ∃ last, IsLast (· ≤ now) heartbeats last :=
    exists_isLast ⟨next, hnext, hle⟩
  refine check_eq_ok hlast ?_
  have hyoung : now - last ≤ 59 := by
    have hlater := le_of_isLast horder hlast hnext hle
    linarith
  calc R.nearest (now - last) ≤ R.nearest 59 := R.monotone hyoung
    _ = 59 := hexact
    _ < heartbeatThresholdSeconds := by norm_num [heartbeatThresholdSeconds]

/-- Consecutive heartbeats are in order, and no more than `gap` apart. -/
def Regular (gap : ℚ) (heartbeats : List ℚ) : Prop :=
  heartbeats.IsChain fun earlier later => earlier ≤ later ∧ later ≤ earlier + gap

theorem Regular.pairwise (h : Regular gap heartbeats) : heartbeats.Pairwise (· ≤ ·) :=
  (h.imp fun _ _ hstep => hstep.1).pairwise

/-- After a heartbeat that is not recent there is a next one. -/
theorem exists_next (hregular : Regular gap heartbeats) (hlast : IsLast (· ≤ now) heartbeats last)
    (hgoes : ∃ later ∈ heartbeats, now < later) :
    ∃ next ∈ heartbeats, now < next ∧ next ≤ last + gap := by
  obtain ⟨later, hlater, hlt⟩ := hgoes
  have horder := hregular.pairwise
  obtain ⟨before, after, rfl, hle, hafter⟩ := hlast
  cases after with
  | nil =>
      -- nothing comes after the last heartbeat, so nothing is later than `now`
      have hsorted : ∀ t ∈ before ++ [last], t ≤ last := by
        intro t ht
        rcases List.mem_append.mp ht with hbefore | hend
        · exact (List.pairwise_append.mp horder).2.2 t hbefore last List.mem_cons_self
        · exact le_of_eq (List.mem_singleton.mp hend)
      exact absurd (hsorted later hlater) (by linarith)
  | cons next after =>
      obtain ⟨-, ⟨-, hgap⟩, -⟩ := List.isChain_append_cons_cons.mp hregular
      exact ⟨next, by simp, not_le.mp (hafter next List.mem_cons_self), hgap⟩

/-- While the heartbeats are regular, one of three checks in a row succeeds. -/
theorem ok_mem_threeChecks (hexact : R.nearest 59 = 59) (hregular : Regular 119 heartbeats)
    (hstarted : ∃ first ∈ heartbeats, first ≤ now) (hgoes : ∃ later ∈ heartbeats, now < later) :
    200 ∈ threeChecks R heartbeats now := by
  have horder := hregular.pairwise
  obtain ⟨last, hlast⟩ := exists_isLast hstarted
  obtain ⟨hmem, hle⟩ := hlast.mem
  have hperiod : periodSeconds = 30 := rfl
  by_cases hfirst : now - last ≤ 59
  · have hok : check R heartbeats now = 200 := check_of_recent hexact horder hmem hle hfirst
    simp [threeChecks, hok]
  · obtain ⟨next, hnext, hlt, hgap⟩ := exists_next hregular hlast hgoes
    by_cases hsecond : next ≤ now + periodSeconds
    · have hok : check R heartbeats (now + periodSeconds) = 200 :=
        check_of_recent hexact horder hnext hsecond (by linarith)
      simp [threeChecks, hok]
    · have hok : check R heartbeats (now + 2 * periodSeconds) = 200 :=
        check_of_recent hexact horder hnext (by linarith) (by linarith)
      simp [threeChecks, hok]

/-- Between two heartbeats, from the first minute on, every check fails. -/
theorem check_in_gap (hexact : R.nearest 60 = 60) (horder : heartbeats.Pairwise (· ≤ ·))
    (hsplit : heartbeats = before ++ last :: next :: after) (hfrom : last + 60 ≤ now)
    (hto : now < next) : check R heartbeats now = 503 := by
  subst hsplit
  have hlast : IsLast (· ≤ now) (before ++ last :: next :: after) last := by
    refine ⟨before, next :: after, rfl, by linarith, fun t ht => not_le.mpr ?_⟩
    rcases List.mem_cons.mp ht with rfl | hlater
    · exact hto
    · have hrest := (List.pairwise_append.mp horder).2.1
      have hnext := (List.pairwise_cons.mp (List.pairwise_cons.mp hrest).2).1 t hlater
      linarith
  refine check_eq_unavailable hlast ?_
  calc heartbeatThresholdSeconds = R.nearest 60 := hexact.symm
    _ ≤ R.nearest (now - last) := R.monotone (by linarith)

/-- Checks that are made in the gap, whenever the first of all was made. -/
theorem exists_threeChecks_fail (hexact : R.nearest 60 = 60)
    (horder : heartbeats.Pairwise (· ≤ ·)) (hsplit : heartbeats = before ++ last :: next :: after)
    (hgap : last + 150 ≤ next) {phase : ℚ} (hphase : phase ≤ last + 60) :
    ∃ n : ℕ, threeChecks R heartbeats (phase + n * periodSeconds) = [503, 503, 503] := by
  have hperiod : periodSeconds = 30 := rfl
  have hnonneg : 0 ≤ (last + 60 - phase) / 30 := by
    apply div_nonneg
    · linarith
    · norm_num
  have hfrom := Nat.le_ceil ((last + 60 - phase) / 30)
  have hto := Nat.ceil_lt_add_one hnonneg
  refine ⟨⌈(last + 60 - phase) / 30⌉₊, ?_⟩
  have hfails : ∀ t, last + 60 ≤ t → t < last + 150 → check R heartbeats t = 503 :=
    fun t hle hlt => check_in_gap hexact horder hsplit hle (by linarith)
  simp only [threeChecks, List.map_cons, List.map_nil, hperiod]
  rw [hfails _ (by linarith) (by linarith), hfails _ (by linarith) (by linarith),
    hfails _ (by linarith) (by linarith)]

/-- Three checks in a row do not all fail while no two heartbeats are more than 119 seconds apart,
and they do at some time between two heartbeats that are 150 seconds apart. -/
theorem threeChecks_fail (hexact : R.nearest 59 = 59) (hexact' : R.nearest 60 = 60)
    (horder : heartbeats.Pairwise (· ≤ ·)) :
    (Regular 119 heartbeats → ∀ now, (∃ first ∈ heartbeats, first ≤ now) →
      (∃ later ∈ heartbeats, now < later) → 200 ∈ threeChecks R heartbeats now) ∧
    ∀ before last next after, heartbeats = before ++ last :: next :: after → last + 150 ≤ next →
      ∀ phase ≤ last + 60, ∃ n : ℕ,
        threeChecks R heartbeats (phase + n * periodSeconds) = [503, 503, 503] := by
  constructor
  · intro hregular now hstarted hgoes
    exact ok_mem_threeChecks hexact hregular hstarted hgoes
  · intro before last next after hsplit hgap phase hphase
    exact exists_threeChecks_fail hexact' horder hsplit hgap hphase

/-- One round takes a minute, the next one takes three. -/
def slowRound : List ℚ := [0, 61, 242]

theorem threeChecks_fail_slowRound : ∃ n : ℕ,
    threeChecks .exact slowRound (5 + n * periodSeconds) = [503, 503, 503] := by
  have horder : slowRound.Pairwise (· ≤ ·) := by decide
  obtain ⟨-, hfails⟩ := threeChecks_fail (R := .exact) rfl rfl horder
  exact hfails [0] 61 242 [] rfl (by norm_num) 5 (by norm_num)

end MomBot.Health
