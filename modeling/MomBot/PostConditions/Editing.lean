import Mathlib.Algebra.Ring.Parity
import Mathlib.Logic.Basic
import MomBot.PostConditions.Views

/-!
# What an edit changes

The selections of the editor are seeded from the catalog, so every id of the catalog
keeps its saved state until its button is clicked.  A saved id that the catalog
does not list has no selection, and the PUT, which replaces the whole set, drops
it.
-/

namespace MomBot.PostConditions

open Python

/-- How often the button of the condition was clicked. -/
def toggles (id : ℤ) (clicks : List Click) : ℕ := clicks.count (.toggle id)

theorem toggles_cons_self (id : ℤ) (clicks : List Click) :
    toggles id (.toggle id :: clicks) = toggles id clicks + 1 :=
  List.count_cons_self

theorem toggles_cons_of_ne {id : ℤ} {c : Click} (h : c ≠ .toggle id) (clicks : List Click) :
    toggles id (c :: clicks) = toggles id clicks :=
  List.count_cons_of_ne h

/-- The saved ids with those flipped that were toggled an odd number of times, and none
twice. -/
def ChangesOnlyToggled (saved : List ℤ) (clicks : List Click) (sent : List ℤ) : Prop :=
  sent.Nodup ∧ ∀ id, id ∈ sent ↔ Xor (id ∈ saved) (Odd (toggles id clicks))

/-! ## The selections -/

namespace PostConditionsGridView

variable {view : PostConditionsGridView} {id : ℤ}

theorem mem_selectedIds : id ∈ view.selectedIds ↔ view.selections.get? id = some true := by
  rw [← Dict.mem_entries, selectedIds, List.mem_map]
  constructor
  · rintro ⟨⟨_, on⟩, hmem, rfl⟩
    obtain ⟨hmem, rfl⟩ := List.mem_filter.mp hmem
    exact hmem
  · intro hmem
    exact ⟨(id, true), List.mem_filter.mpr ⟨hmem, rfl⟩, rfl⟩

theorem nodup_selectedIds : view.selectedIds.Nodup :=
  (List.filter_sublist.map Prod.fst).nodup view.selections.nodup

/-- A toggle button stands for a condition of the page. -/
theorem mem_of_toggleButtons {selections : Dict ℤ Bool} {i : ℕ} {conditions : List Condition}
    {buttons : List Component} (h : toggleButtons selections i conditions = .ok buttons)
    {component : Component} (hmem : component ∈ buttons)
    (htoggle : component.isToggleOf id = true) : ∃ cond ∈ conditions, cond.id = id := by
  induction conditions generalizing i buttons with
  | nil =>
      obtain rfl := Except.ok.inj h
      cases hmem
  | cons cond rest ih =>
      simp only [toggleButtons] at h
      split at h
      next => cases h
      next label hlabel =>
        split at h
        next => cases h
        next buttons' hrest =>
          obtain rfl := Except.ok.inj h
          rcases List.mem_cons.mp hmem with rfl | hmem
          · exact ⟨cond, by simp, by simpa [Component.isToggleOf] using htoggle⟩
          · obtain ⟨other, hother, hid⟩ := ih hrest hmem
            exact ⟨other, by simp [hother], hid⟩

/-- A rendered toggle button stands for a condition of some page. -/
theorem mem_of_buildComponents {components : List Component}
    (h : view.buildComponents = .ok components) {component : Component}
    (hmem : component ∈ components) (htoggle : component.isToggleOf id = true) :
    ∃ page ∈ view.pages, ∃ cond ∈ page.conditions, cond.id = id := by
  unfold buildComponents at h
  split at h
  next =>
    obtain rfl := Except.ok.inj h
    cases hmem
  next hpages =>
    split at h
    next => cases h
    next buttons hbuttons =>
      obtain rfl := Except.ok.inj h
      rcases List.mem_append.mp hmem with hmem | hmem
      · exact ⟨_, List.get_mem _ _, mem_of_toggleButtons hbuttons hmem htoggle⟩
      · simp only [navRow, List.mem_cons, List.not_mem_nil, or_false] at hmem
        rcases hmem with rfl | rfl | rfl | rfl <;> cases htoggle

end PostConditionsGridView

/-! ## Clicks -/

/-- The buttons stand for `known` ids, and the selections are `selected` on these. -/
structure Editor.Tracks (known : List ℤ) (selected : ℤ → Bool) (e : Editor) : Prop where
  pages : ∀ page ∈ e.view.pages, ∀ cond ∈ page.conditions, cond.id ∈ known
  shown : ∀ id, ∀ component ∈ e.shown, component.isToggleOf id = true → id ∈ known
  selections : ∀ id, e.view.selections.get? id = if id ∈ known then some (selected id) else none

/-- What a click makes of the selected ids. -/
def Click.flip (selected : ℤ → Bool) : Click → ℤ → Bool
  | toggle id => Function.update selected id (!selected id)
  | navigate _ => selected

namespace Editor

variable {e e' : Editor} {known : List ℤ} {selected : ℤ → Bool} {c : Click} {clicks : List Click}

theorem change_pages (view : PostConditionsGridView) (c : Click) :
    (change view c).pages = view.pages := by
  cases c with
  | toggle id => rfl
  | navigate direction =>
      cases direction <;> simp only [change, PostConditionsGridView.navigate] <;> split <;> rfl

/-- Navigation leaves the selections alone, a toggle of a known id flips it. -/
theorem change_selections (h : e.Tracks known selected) (henabled : e.enabled c = true) (id : ℤ) :
    (change e.view c).selections.get? id =
      if id ∈ known then some (c.flip selected id) else none := by
  cases c with
  | navigate direction =>
      refine Eq.trans ?_ (h.selections id)
      cases direction <;> simp only [change, PostConditionsGridView.navigate] <;> split <;> rfl
  | toggle clicked =>
      obtain ⟨component, hmem, htoggle⟩ := List.any_eq_true.mp henabled
      -- a button stands for a condition of a page
      have hknown : clicked ∈ known := h.shown clicked component hmem htoggle
      simp only [change, PostConditionsGridView.toggle, Dict.get?_set, h.selections, hknown,
        if_true, Option.getD_some, Click.flip]
      by_cases hid : id = clicked
      · subst hid
        simp [hknown]
      · simp [hid]

/-- **Step lemma.** -/
theorem Tracks.click (h : e.Tracks known selected) (henabled : e.enabled c = true) :
    (e.click c).Tracks known (c.flip selected) := by
  have hpages : ∀ page ∈ (change e.view c).pages, ∀ cond ∈ page.conditions, cond.id ∈ known := by
    rw [change_pages]
    exact h.pages
  simp only [Editor.click]
  cases hbuild : (change e.view c).buildComponents with
  | error error => exact ⟨hpages, h.shown, change_selections h henabled⟩
  | ok components =>
      refine ⟨hpages, ?_, change_selections h henabled⟩
      intro id component hmem htoggle
      obtain ⟨page, hpage, cond, hcond, rfl⟩ :=
        PostConditionsGridView.mem_of_buildComponents hbuild hmem htoggle
      exact hpages page hpage cond hcond

/-- Flipping for one click after the other. -/
theorem foldl_flip (selected : ℤ → Bool) (clicks : List Click) (id : ℤ) :
    clicks.foldl Click.flip selected id = true ↔
      Xor (selected id = true) (Odd (toggles id clicks)) := by
  induction clicks generalizing selected with
  | nil => simp [toggles, Xor]
  | cons c clicks ih =>
      rw [List.foldl_cons, ih]
      -- the click toggles this id, or has nothing to do with it
      by_cases hc : c = .toggle id
      · subst hc
        rw [toggles_cons_self, Nat.odd_add_one, Click.flip, Function.update_self]
        cases selected id <;> simp [Xor]
      · rw [toggles_cons_of_ne hc]
        cases c with
        | navigate direction => rfl
        | toggle clicked =>
            have hid : id ≠ clicked := fun h => hc (h ▸ rfl)
            rw [Click.flip, Function.update_of_ne hid]

/-- **Run lemma.**  Only known ids are toggled, and the selections follow the toggles. -/
theorem Tracks.clickAll (h : e.Tracks known selected) (hclicks : e.clickAll clicks = some e') :
    e'.Tracks known (clicks.foldl Click.flip selected) ∧
      ∀ id, id ∉ known → toggles id clicks = 0 := by
  induction clicks generalizing e selected with
  | nil =>
      obtain rfl := Option.some.inj hclicks
      exact ⟨h, fun _ _ => rfl⟩
  | cons c clicks ih =>
      simp only [Editor.clickAll] at hclicks
      split at hclicks
      case isFalse => cases hclicks
      next henabled =>
        obtain ⟨htracks, hunknown⟩ := ih (h.click henabled) hclicks
        refine ⟨htracks, fun id hid => ?_⟩
        have hne : c ≠ .toggle id := by
          rintro rfl
          obtain ⟨component, hmem, htoggle⟩ := List.any_eq_true.mp henabled
          exact hid (h.shown id component hmem htoggle)
        rw [toggles_cons_of_ne hne]
        exact hunknown id hid

end Editor

/-- A new editor shows the saved state of every id of the catalog. -/
theorem tracks_postConditionsSet {catalog prefs : List Condition}
    {discordId discordUsername : String} {e : Editor}
    (h : postConditionsSet catalog prefs discordId discordUsername = .ok e) :
    e.Tracks (catalog.map Condition.id) fun id => decide (id ∈ prefs.map Condition.id) := by
  simp only [postConditionsSet] at h
  split at h
  next => cases h
  next components hbuild =>
    obtain rfl := Except.ok.inj h
    have hpages : ∀ page ∈ splitByMetaGroup catalog pageSize, ∀ cond ∈ page.conditions,
        cond.id ∈ catalog.map Condition.id :=
      fun page hpage cond hcond => List.mem_map_of_mem (mem_of_mem_splitByMetaGroup hpage hcond)
    refine ⟨hpages, ?_, fun id => ?_⟩
    · intro id component hmem htoggle
      obtain ⟨page, hpage, cond, hcond, rfl⟩ :=
        PostConditionsGridView.mem_of_buildComponents hbuild hmem htoggle
      exact hpages page hpage cond hcond
    · have hgraph := Dict.get?_ofList_graph (catalog.map Condition.id)
        (fun id => decide (id ∈ prefs.map Condition.id)) id
      rwa [List.map_map] at hgraph

/-- What Save sends is the saved set with the toggled ids flipped iff the catalog lists
every saved id. -/
theorem changesOnlyToggled_iff {catalog prefs : List Condition}
    {discordId discordUsername : String} {e e' : Editor} {clicks : List Click} {sent : List ℤ}
    (hopen : postConditionsSet catalog prefs discordId discordUsername = .ok e)
    (hclicks : e.clickAll clicks = some e') (hsent : e'.sent = some sent) :
    ChangesOnlyToggled (prefs.map Condition.id) clicks sent ↔
      ∀ id ∈ prefs.map Condition.id, id ∈ catalog.map Condition.id := by
  obtain ⟨htracks, hunknown⟩ := (tracks_postConditionsSet hopen).clickAll hclicks
  obtain rfl : e'.view.selectedIds = sent := by
    unfold Editor.sent at hsent
    split at hsent
    next => exact Option.some.inj hsent
    next => cases hsent
  -- the editor sends the listed ids whose state the clicks leave on
  have hmem : ∀ id, id ∈ e'.view.selectedIds ↔ id ∈ catalog.map Condition.id ∧
      Xor (id ∈ prefs.map Condition.id) (Odd (toggles id clicks)) := by
    intro id
    rw [PostConditionsGridView.mem_selectedIds, htracks.selections]
    by_cases hid : id ∈ catalog.map Condition.id
    · rw [if_pos hid, Option.some_inj, Editor.foldl_flip, decide_eq_true_iff]
      simp only [hid, true_and]
    · simp [hid]
  constructor
  · rintro ⟨-, hchanges⟩ id hsaved
    by_contra hid
    -- a saved id that is not listed cannot be toggled, and is not sent
    have hkept : id ∈ e'.view.selectedIds :=
      (hchanges id).mpr (.inl ⟨hsaved, by simp [hunknown id hid]⟩)
    exact hid ((hmem id).mp hkept).1
  · intro hlisted
    refine ⟨PostConditionsGridView.nodup_selectedIds, fun id => ?_⟩
    rw [hmem, and_iff_right_iff_imp]
    rintro (⟨hsaved, -⟩ | ⟨hodd, -⟩)
    · exact hlisted id hsaved
    · by_contra hid
      rw [hunknown id hid] at hodd
      exact absurd hodd (by decide)

/-! ## Three conditions -/

/-- Listed on the second page. -/
def hpOnly : Condition := ⟨1, "role", "Only HP Champions can be used."⟩

/-- Listed on the first page. -/
def orcsOnly : Condition := ⟨2, "faction", "Only Orc Champions can be used."⟩

/-- Listed on the second page as well. -/
def voidOnly : Condition := ⟨3, "affinity", "Only Void Champions can be used."⟩

/-- Orcs are toggled twice; on the next page void is toggled on, and HP off. -/
def fiveClicks : List Click := [.toggle 2, .toggle 2, .navigate .next, .toggle 3, .toggle 1]

/-- Both saved conditions are listed. -/
theorem changesOnlyToggled_fiveClicks : ChangesOnlyToggled [1, 2] fiveClicks [2, 3] := by
  have hrun : (postConditionsSet [hpOnly, orcsOnly, voidOnly] [hpOnly, orcsOnly] "42"
      "ann").toOption.bind (fun e => (e.clickAll fiveClicks).bind Editor.sent) = some [2, 3] := by
    decide +kernel
  obtain ⟨e, hopen, hrun⟩ := Option.bind_eq_some_iff.mp hrun
  obtain ⟨e', hclicks, hsent⟩ := Option.bind_eq_some_iff.mp hrun
  exact (changesOnlyToggled_iff (toOption_eq_some_iff.mp hopen) hclicks hsent).mpr (by decide)

/-- The second saved condition is not listed: Save without a click drops it. -/
theorem unlisted_dropped : ∃ e, postConditionsSet [hpOnly] [hpOnly, orcsOnly] "42" "ann" = .ok e ∧
    e.clickAll [] = some e ∧ e.sent = some [1] ∧ ¬ ChangesOnlyToggled [1, 2] [] [1] := by
  have hsent : (postConditionsSet [hpOnly] [hpOnly, orcsOnly] "42" "ann").toOption.bind
      Editor.sent = some [1] := by
    decide +kernel
  obtain ⟨e, hopen, hsent⟩ := Option.bind_eq_some_iff.mp hsent
  refine ⟨e, toOption_eq_some_iff.mp hopen, rfl, hsent, ?_⟩
  rintro ⟨-, hchanges⟩
  have hkept : (2 : ℤ) ∈ [(1 : ℤ)] := (hchanges 2).mpr (.inl ⟨by decide, by decide⟩)
  exact absurd hkept (by decide)

end MomBot.PostConditions
