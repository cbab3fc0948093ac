import Mathlib.Data.List.Flatten
import MomBot.PostConditions.Views

/-!
# Nothing is lost between the pages

A catalog is cut twice, into the meta-groups and each of these into pages, and
`_summary_pages` puts the pages of a group together again.

* The groups with nothing in them give no page, so the pages are those of all three
  groups in a row (`splitByMetaGroup_eq`), and the pages of one group stand together
  (`pagesWith_splitByMetaGroup`).
* The pages of a group are its sorted conditions, cut every `size` conditions
  (`flatten_chunks`).
* The merge meets the pages of a group one after the other, so only the last entry
  grows (`mergePages_append`).
-/

namespace MomBot.PostConditions

open Python

/-! ## Cutting a list -/

theorem chunks_nil {size : ℕ} (hsize : 1 ≤ size) : chunks size [] = [] := by
  have hnone : ([] : List Condition).length + size - 1 < size := by
    rw [List.length_nil]
    omega
  rw [chunks, Nat.div_eq_of_lt hnone]
  rfl

theorem flatten_take_drop (conds : List Condition) (size n : ℕ) :
    ((List.range n).map fun i => (conds.drop (i * size)).take size).flatten =
      conds.take (n * size) := by
  induction n with
  | zero => simp
  | succ n ih =>
      rw [List.range_succ, List.map_append, List.flatten_append, ih, Nat.succ_mul, List.take_add]
      simp

/-- The pages are the list. -/
theorem flatten_chunks {size : ℕ} (hsize : 1 ≤ size) (conds : List Condition) :
    (chunks size conds).flatten = conds := by
  have hall : conds.length ≤ (conds.length + size - 1) / size * size := by
    have := Nat.div_add_mod (conds.length + size - 1) size
    have := Nat.mod_lt (conds.length + size - 1) hsize
    rw [Nat.mul_comm]
    omega
  rw [chunks, flatten_take_drop, List.take_of_length_le hall]

theorem length_of_mem_chunks {size : ℕ} {conds part : List Condition} (hsize : 1 ≤ size)
    (hpart : part ∈ chunks size conds) : 1 ≤ part.length ∧ part.length ≤ size := by
  obtain ⟨i, hi, rfl⟩ := List.mem_map.mp hpart
  rw [List.mem_range] at hi
  have hstart : i * size < conds.length := by
    have hlt := Nat.mul_le_of_le_div _ _ _ (Nat.succ_le_of_lt hi)
    rw [Nat.succ_mul] at hlt
    omega
  rw [List.length_take, List.length_drop]
  omega

/-! ## The three groups -/

/-- The groups of a catalog, with the empty ones. -/
def allGroups (conditions : List Condition) : List (String × List Condition) :=
  metaGroups.map fun group => (group.1, bucket conditions group.1)

theorem pagesOfGroup_of_isEmpty {size : ℕ} (hsize : 1 ≤ size) {group : String × List Condition}
    (h : group.2.isEmpty = true) : pagesOfGroup size group = [] := by
  obtain ⟨label, conds⟩ := group
  obtain rfl : conds = [] := List.isEmpty_iff.mp h
  simp [pagesOfGroup, chunks_nil hsize]

theorem splitByMetaGroup_eq {size : ℕ} (hsize : 1 ≤ size) (conditions : List Condition) :
    splitByMetaGroup conditions size = (allGroups conditions).flatMap (pagesOfGroup size) := by
  have hfilter : ∀ groups : List (String × List Condition),
      (groups.filter fun group => ¬ group.2.isEmpty).flatMap (pagesOfGroup size) =
        groups.flatMap (pagesOfGroup size) := by
    intro groups
    induction groups with
    | nil => rfl
    | cons group groups ih =>
        by_cases hempty : group.2.isEmpty = true
        · rw [List.filter_cons_of_neg (by simp [hempty]), ih, List.flatMap_cons,
            pagesOfGroup_of_isEmpty hsize hempty, List.nil_append]
        · rw [List.filter_cons_of_pos (by simpa using hempty), List.flatMap_cons, ih,
            List.flatMap_cons]
  exact hfilter (allGroups conditions)

theorem conditions_pagesOfGroup {size : ℕ} (hsize : 1 ≤ size) (group : String × List Condition) :
    (pagesOfGroup size group).flatMap GridPage.conditions =
      group.2.insertionSort sortsBefore := by
  have hparts : (pagesOfGroup size group).map GridPage.conditions =
      chunks size (group.2.insertionSort sortsBefore) :=
    List.ext_getElem (by simp [pagesOfGroup]) fun i _ _ => by simp [pagesOfGroup]
  rw [List.flatMap_def, hparts, flatten_chunks hsize]

theorem metaLabel_of_mem_pagesOfGroup {size : ℕ} {group : String × List Condition} {page : GridPage}
    (h : page ∈ pagesOfGroup size group) : page.metaLabel = group.1 := by
  obtain ⟨i, hi, rfl⟩ := List.mem_mapIdx.mp h
  rfl

theorem typeToMeta_eq_some {conditionType label : String}
    (h : typeToMeta conditionType = some label) : label ∈ metaGroups.map Prod.fst := by
  obtain ⟨group, hgroup, rfl⟩ := Option.map_eq_some_iff.mp h
  exact List.mem_map_of_mem (List.mem_of_find?_eq_some hgroup)

/-- The buckets of some labels are the conditions that belong to one of them. -/
theorem perm_buckets (conditions : List Condition) (labels : List String) (hnodup : labels.Nodup) :
    (labels.flatMap (bucket conditions)).Perm
      (conditions.filter fun c =>
        labels.any fun label => typeToMeta c.conditionType = some label) := by
  induction labels with
  | nil => simp
  | cons label labels ih =>
      obtain ⟨hlabel, hnodup⟩ := List.nodup_cons.mp hnodup
      have hsplit := List.filter_append_perm
        (fun c : Condition => decide (typeToMeta c.conditionType = some label))
        (conditions.filter fun c =>
          (label :: labels).any fun label => typeToMeta c.conditionType = some label)
      refine List.Perm.trans ?_ hsplit
      rw [List.flatMap_cons, List.filter_filter, List.filter_filter]
      refine List.Perm.append ?_ ((ih hnodup).trans ?_)
      · refine List.Perm.of_eq (List.filter_congr fun c _ => ?_)
        by_cases h : typeToMeta c.conditionType = some label <;> simp [h]
      · refine List.Perm.of_eq (List.filter_congr fun c _ => ?_)
        by_cases h : typeToMeta c.conditionType = some label
        · have hother : ∀ other ∈ labels, label ≠ other := by
            rintro other hother rfl
            exact hlabel hother
          simpa [h] using hother
        · simp [h]

theorem perm_pages {size : ℕ} (hsize : 1 ≤ size) (conditions : List Condition) :
    ((splitByMetaGroup conditions size).flatMap GridPage.conditions).Perm
      (conditions.filter fun c => (typeToMeta c.conditionType).isSome) := by
  have hnodup : (metaGroups.map Prod.fst).Nodup := by decide
  have hknown : (conditions.filter fun c =>
      (metaGroups.map Prod.fst).any fun label => typeToMeta c.conditionType = some label) =
      conditions.filter fun c => (typeToMeta c.conditionType).isSome := by
    refine List.filter_congr fun c _ => ?_
    rw [Bool.eq_iff_iff, List.any_eq_true, Option.isSome_iff_exists]
    constructor
    · rintro ⟨label, -, h⟩
      exact ⟨label, of_decide_eq_true h⟩
    · rintro ⟨label, h⟩
      exact ⟨label, typeToMeta_eq_some h, decide_eq_true h⟩
  rw [← hknown]
  refine List.Perm.trans ?_ (perm_buckets conditions (metaGroups.map Prod.fst) hnodup)
  rw [splitByMetaGroup_eq hsize, List.flatMap_assoc]
  simp only [conditions_pagesOfGroup hsize]
  rw [allGroups, List.flatMap_map, List.flatMap_map]
  exact List.Perm.flatMap_left _ fun group _ => List.perm_insertionSort _ _

/-- The pages with the label of a group. -/
def pagesWith (label : String) (pages : List GridPage) : List GridPage :=
  pages.filter fun page => page.metaLabel = label

theorem pagesWith_flatMap {size : ℕ} {groups : List (String × List Condition)}
    (hnodup : (groups.map Prod.fst).Nodup) {group : String × List Condition}
    (hgroup : group ∈ groups) :
    pagesWith group.1 (groups.flatMap (pagesOfGroup size)) = pagesOfGroup size group := by
  induction groups with
  | nil => exact absurd hgroup List.not_mem_nil
  | cons first groups ih =>
      obtain ⟨hfirst, hnodup⟩ := List.nodup_cons.mp hnodup
      rw [List.flatMap_cons, pagesWith, List.filter_append]
      rcases List.mem_cons.mp hgroup with rfl | hmem
      · have hown : (pagesOfGroup size group).filter (fun page => page.metaLabel = group.1) =
            pagesOfGroup size group :=
          List.filter_eq_self.mpr fun page hpage => by simp [metaLabel_of_mem_pagesOfGroup hpage]
        have hothers : (groups.flatMap (pagesOfGroup size)).filter
            (fun page => page.metaLabel = group.1) = [] := by
          refine List.filter_eq_nil_iff.mpr fun page hpage => ?_
          obtain ⟨other, hother, hpage⟩ := List.mem_flatMap.mp hpage
          rw [metaLabel_of_mem_pagesOfGroup hpage, decide_eq_true_eq]
          exact fun heq => hfirst (heq ▸ List.mem_map_of_mem hother)
        rw [hown, hothers, List.append_nil]
      · have hnone :
            (pagesOfGroup size first).filter (fun page => page.metaLabel = group.1) = [] := by
          refine List.filter_eq_nil_iff.mpr fun page hpage => ?_
          rw [metaLabel_of_mem_pagesOfGroup hpage, decide_eq_true_eq]
          exact fun heq => hfirst (heq ▸ List.mem_map_of_mem hmem)
        rw [hnone, List.nil_append]
        exact ih hnodup hmem

theorem map_fst_allGroups (conditions : List Condition) :
    (allGroups conditions).map Prod.fst = metaGroups.map Prod.fst := by
  rw [allGroups, List.map_map]
  rfl

theorem nodup_allGroups (conditions : List Condition) :
    ((allGroups conditions).map Prod.fst).Nodup := by
  rw [map_fst_allGroups]
  decide

/-- The pages of a label are those of its group. -/
theorem pagesWith_splitByMetaGroup {size : ℕ} (hsize : 1 ≤ size) (conditions : List Condition)
    (label : String) : pagesWith label (splitByMetaGroup conditions size) =
      if label ∈ metaGroups.map Prod.fst then pagesOfGroup size (label, bucket conditions label)
      else [] := by
  rw [splitByMetaGroup_eq hsize]
  split
  next hlabel =>
    have hgroup : (label, bucket conditions label) ∈ allGroups conditions := by
      obtain ⟨group, hgroup, rfl⟩ := List.mem_map.mp hlabel
      exact List.mem_map_of_mem hgroup
    exact pagesWith_flatMap (nodup_allGroups conditions) hgroup
  next hlabel =>
    refine List.filter_eq_nil_iff.mpr fun page hpage => ?_
    obtain ⟨group, hgroup, hpage⟩ := List.mem_flatMap.mp hpage
    rw [metaLabel_of_mem_pagesOfGroup hpage, decide_eq_true_eq]
    rintro rfl
    rw [← map_fst_allGroups conditions] at hlabel
    exact hlabel (List.mem_map_of_mem hgroup)

/-! ## The order -/

instance : Std.Total sortsBefore where
  total a b := by
    rcases lt_trichotomy a.conditionType b.conditionType with h | h | h
    · exact .inl (.inl h)
    · rcases le_total a.id b.id with hid | hid
      · exact .inl (.inr ⟨h, hid⟩)
      · exact .inr (.inr ⟨h.symm, hid⟩)
    · exact .inr (.inl h)

instance : IsTrans Condition sortsBefore where
  trans a b c hab hbc := by
    rcases hab with hab | ⟨hab, hid⟩
    · rcases hbc with hbc | ⟨hbc, -⟩
      · exact .inl (hab.trans hbc)
      · exact .inl (hbc ▸ hab)
    · rcases hbc with hbc | ⟨hbc, hid'⟩
      · exact .inl (hab ▸ hbc)
      · exact .inr ⟨hab.trans hbc, hid.trans hid'⟩

/-- The place of a label in `META_GROUPS`. -/
def metaIndex (label : String) : ℕ := (metaGroups.map Prod.fst).idxOf label

theorem pairwise_metaIndex {size : ℕ} (hsize : 1 ≤ size) (conditions : List Condition) :
    (splitByMetaGroup conditions size).Pairwise fun p q =>
      metaIndex p.metaLabel ≤ metaIndex q.metaLabel := by
  rw [splitByMetaGroup_eq hsize, List.pairwise_flatMap]
  constructor
  · intro group _
    refine List.pairwise_of_forall_mem_list fun p hp q hq => ?_
    rw [metaLabel_of_mem_pagesOfGroup hp, metaLabel_of_mem_pagesOfGroup hq]
  · have hindex : (metaGroups.map Prod.fst).Pairwise fun a b => metaIndex a ≤ metaIndex b := by
      decide
    rw [← map_fst_allGroups conditions, List.pairwise_map] at hindex
    refine hindex.imp fun h p hp q hq => ?_
    rwa [metaLabel_of_mem_pagesOfGroup hp, metaLabel_of_mem_pagesOfGroup hq]

/-! ## The pages -/

/-- What `split_by_meta_group` makes of a list of conditions. -/
structure Paginated (conditions : List Condition) (size : ℕ) (pages : List GridPage) : Prop where
  permutation : (pages.flatMap GridPage.conditions).Perm
    (conditions.filter fun c => (typeToMeta c.conditionType).isSome)
  bounded : ∀ page ∈ pages, 1 ≤ page.conditions.length ∧ page.conditions.length ≤ size
  oneGroup : ∀ page ∈ pages, ∀ c ∈ page.conditions, typeToMeta c.conditionType = some page.metaLabel
  groupOrder : pages.Pairwise fun p q => metaIndex p.metaLabel ≤ metaIndex q.metaLabel
  sorted : ∀ label, ((pagesWith label pages).flatMap GridPage.conditions).Pairwise sortsBefore
  labels : ∀ label i page, (pagesWith label pages)[i]? = some page → page.label =
    if 1 < (pagesWith label pages).length then
      label ++ " (" ++ toString (i + 1) ++ "/" ++ toString (pagesWith label pages).length ++ ")"
    else label

theorem label_pagesOfGroup {size i : ℕ} {group : String × List Condition} {page : GridPage}
    (h : (pagesOfGroup size group)[i]? = some page) :
    page.label = if 1 < (pagesOfGroup size group).length then
      group.1 ++ " (" ++ toString (i + 1) ++ "/" ++ toString (pagesOfGroup size group).length ++ ")"
    else group.1 := by
  have hpos : i < (pagesOfGroup size group).length := by
    by_contra hout
    rw [List.getElem?_eq_none (by omega)] at h
    cases h
  have hlength : (pagesOfGroup size group).length =
      (chunks size (group.2.insertionSort sortsBefore)).length := by
    rw [pagesOfGroup, List.length_mapIdx]
  have hlabel : page.label = pageLabel group.1 (i + 1) (pagesOfGroup size group).length := by
    rw [hlength]
    unfold pagesOfGroup at h
    rw [List.getElem?_mapIdx, Option.map_eq_some_iff] at h
    obtain ⟨part, -, rfl⟩ := h
    rfl
  rw [hlabel, pageLabel]
  split
  next hone => rw [if_neg (by omega)]
  next hmany => rw [if_pos (by omega)]

theorem paginated_splitByMetaGroup {size : ℕ} (hsize : 1 ≤ size) (conditions : List Condition) :
    Paginated conditions size (splitByMetaGroup conditions size) := by
  have hparts : ∀ page ∈ splitByMetaGroup conditions size, ∃ group ∈ allGroups conditions,
      page.metaLabel = group.1 ∧
        page.conditions ∈ chunks size (group.2.insertionSort sortsBefore) := by
    intro page hpage
    rw [splitByMetaGroup_eq hsize] at hpage
    obtain ⟨group, hgroup, hpage⟩ := List.mem_flatMap.mp hpage
    obtain ⟨i, hi, rfl⟩ := List.mem_mapIdx.mp hpage
    exact ⟨group, hgroup, rfl, List.getElem_mem hi⟩
  refine ⟨perm_pages hsize conditions, ?_, ?_, pairwise_metaIndex hsize conditions, ?_, ?_⟩
  · intro page hpage
    obtain ⟨group, -, -, hpart⟩ := hparts page hpage
    exact length_of_mem_chunks hsize hpart
  · intro page hpage c hc
    obtain ⟨group, hgroup, hlabel, hpart⟩ := hparts page hpage
    have hmem := mem_of_mem_chunks hpart hc
    rw [List.mem_insertionSort] at hmem
    obtain ⟨metaGroup, -, rfl⟩ := List.mem_map.mp hgroup
    rw [hlabel]
    exact of_decide_eq_true (List.mem_filter.mp hmem).2
  · intro label
    rw [pagesWith_splitByMetaGroup hsize]
    split
    next =>
      rw [conditions_pagesOfGroup hsize]
      exact List.pairwise_insertionSort _ _
    next => exact List.Pairwise.nil
  · intro label i page hpage
    rw [pagesWith_splitByMetaGroup hsize] at hpage ⊢
    split at hpage
    next hlabel =>
      rw [if_pos hlabel]
      exact label_pagesOfGroup hpage
    next => cases hpage

/-! ## The buttons -/

/-- The component is a toggle button. -/
def isToggle : Component → Bool
  | .toggleButton .. => true
  | _ => false

/-- A toggle button in a row. -/
def isToggleIn (row : ℕ) : Component → Bool
  | .toggleButton _ _ r _ => r = row
  | _ => false

/-- What `_build_components` shows for a page. -/
structure FitsGrid (components : List Component) : Prop where
  atMost : components.length ≤ 24
  rows : ∀ row < 4, components.countP (isToggleIn row) ≤ 5
  noOtherRow : ∀ component ∈ components, isToggle component = true →
    ∃ row < 4, isToggleIn row component = true

theorem toggleButtons_eq_ok (selections : Dict ℤ Bool) (i : ℕ) {conds : List Condition}
    (hlabels : ∀ c ∈ conds, ∃ label, shortLabel c = .ok label) :
    ∃ buttons, PostConditionsGridView.toggleButtons selections i conds = .ok buttons ∧
      buttons.length = conds.length ∧
      (∀ b ∈ buttons, ∃ row < (i + conds.length + 4) / 5, isToggleIn row b = true) ∧
      ∀ row, buttons.countP (isToggleIn row) ≤ 5 * row + 5 - max i (5 * row) := by
  induction conds generalizing i with
  | nil => exact ⟨[], rfl, rfl, List.forall_mem_nil _, fun row => Nat.zero_le _⟩
  | cons c conds ih =>
      obtain ⟨label, hlabel⟩ := hlabels c List.mem_cons_self
      obtain ⟨buttons, hbuttons, hlength, hrows, hcount⟩ :=
        ih (i + 1) fun d hd => hlabels d (List.mem_cons_of_mem _ hd)
      refine ⟨_, by rw [PostConditionsGridView.toggleButtons, hlabel, hbuttons], ?_, ?_, ?_⟩
      · rw [List.length_cons, List.length_cons, hlength]
      · rw [List.length_cons]
        refine List.forall_mem_cons.mpr ⟨⟨i / 5, by omega, by simp [isToggleIn]⟩, fun b hb => ?_⟩
        obtain ⟨row, hrow, hin⟩ := hrows b hb
        exact ⟨row, by omega, hin⟩
      · intro row
        have hrest := hcount row
        rw [List.countP_cons]
        by_cases hrow : i / 5 = row
        · have hin : isToggleIn row (.toggleButton c.id label (i / 5)
              ((selections.get? c.id).getD false)) = true := decide_eq_true hrow
          rw [if_pos hin]
          omega
        · have hout : ¬ isToggleIn row (.toggleButton c.id label (i / 5)
              ((selections.get? c.id).getD false)) = true := by simpa [isToggleIn] using hrow
          rw [if_neg hout]
          omega

theorem navRow_not_toggle (view : PostConditionsGridView) :
    ∀ component ∈ view.navRow,
      isToggle component = false ∧ ∀ row, isToggleIn row component = false := by
  simp [PostConditionsGridView.navRow, isToggle, isToggleIn]

/-- Every page of the default size has room for its buttons, whatever is selected. -/
theorem buildComponents_fitsGrid {catalog : List Condition} {view : PostConditionsGridView}
    (hpages : view.pages = splitByMetaGroup catalog pageSize)
    (hlabels : ∀ c ∈ catalog, ∃ label, shortLabel c = .ok label) :
    ∃ components, view.buildComponents = .ok components ∧ FitsGrid components := by
  unfold PostConditionsGridView.buildComponents
  split
  next => exact ⟨[], rfl, Nat.zero_le _, fun row _ => Nat.zero_le _, List.forall_mem_nil _⟩
  next hne =>
    generalize hpage : view.pages.get ⟨view.pageIndex, view.pageIndex_lt hne⟩ = page
    have hmem : page ∈ splitByMetaGroup catalog pageSize := by
      rw [← hpages, ← hpage]
      exact List.get_mem _ _
    have hsize : page.conditions.length ≤ 20 :=
      ((paginated_splitByMetaGroup (by decide) catalog).bounded page hmem).2
    obtain ⟨buttons, hbuttons, hlength, hrows, hcount⟩ := toggleButtons_eq_ok view.selections 0
      fun c hc => hlabels c (mem_of_mem_splitByMetaGroup hmem hc)
    have hnav := navRow_not_toggle view
    refine ⟨buttons ++ view.navRow, by rw [hbuttons], ?_, ?_, ?_⟩
    · rw [List.length_append, hlength]
      exact Nat.add_le_add hsize (le_refl 4)
    · intro row _
      have hnone : view.navRow.countP (isToggleIn row) = 0 :=
        List.countP_eq_zero.mpr fun c hc => by simp [(hnav c hc).2 row]
      have := hcount row
      rw [List.countP_append, hnone]
      omega
    · intro component hcomponent htoggle
      rcases List.mem_append.mp hcomponent with h | h
      · obtain ⟨row, hrow, hin⟩ := hrows component h
        exact ⟨row, by omega, hin⟩
      · rw [(hnav component h).1] at htoggle
        cases htoggle

/-! ## The merge -/

/-- The loop of `_summary_pages`, with its `out` and `seen`. -/
def mergePages : List GridPage → List (String × List Condition) → Dict String ℕ →
    List (String × List Condition)
  | [], out, _ => out
  | page :: rest, out, seen =>
      match seen.get? page.metaLabel with
      | some i =>
          mergePages rest (out.modify i fun entry => (entry.1, entry.2 ++ page.conditions)) seen
      | none =>
          mergePages rest (out ++ [(page.metaLabel, page.conditions)])
            (seen.set page.metaLabel out.length)

/-- `_summary_pages`. -/
def PostConditionsGridView.summaryPages (view : PostConditionsGridView) :
    List (String × List Condition) :=
  mergePages view.pages [] Dict.empty

/-- Pages of the group that came last go to its entry. -/
theorem mergePages_append {label : String} {pages rest : List GridPage}
    {out : List (String × List Condition)} {conds : List Condition} {seen : Dict String ℕ}
    (hpages : ∀ page ∈ pages, page.metaLabel = label) (hseen : seen.get? label = some out.length) :
    mergePages (pages ++ rest) (out ++ [(label, conds)]) seen =
      mergePages rest (out ++ [(label, conds ++ pages.flatMap GridPage.conditions)]) seen := by
  induction pages generalizing conds with
  | nil => simp
  | cons page pages ih =>
      obtain ⟨hpage, hpages⟩ := List.forall_mem_cons.mp hpages
      have hmodify : (out ++ [(label, conds)]).modify out.length
          (fun entry => (entry.1, entry.2 ++ page.conditions)) =
          out ++ [(label, conds ++ page.conditions)] := by
        rw [List.modify_eq_take_cons_drop (by simp)]
        simp
      rw [List.cons_append, mergePages, hpage, hseen]
      simp only [hmodify]
      rw [ih hpages, List.flatMap_cons, List.append_assoc]

/-- One group after the other, each with pages of its own. -/
theorem mergePages_groups {groups : List (String × List GridPage)}
    {out : List (String × List Condition)} {seen : Dict String ℕ}
    (hnodup : (groups.map Prod.fst).Nodup)
    (hpages : ∀ group ∈ groups, group.2 ≠ [] ∧ ∀ page ∈ group.2, page.metaLabel = group.1)
    (hseen : ∀ group ∈ groups, seen.get? group.1 = none) :
    mergePages (groups.flatMap Prod.snd) out seen =
      out ++ groups.map fun group => (group.1, group.2.flatMap GridPage.conditions) := by
  induction groups generalizing out seen with
  | nil => simp [mergePages]
  | cons group groups ih =>
      obtain ⟨hfirst, hrest⟩ := List.nodup_cons.mp hnodup
      obtain ⟨⟨hne, hown⟩, hothers⟩ := List.forall_mem_cons.mp hpages
      obtain ⟨hnew, hunseen⟩ := List.forall_mem_cons.mp hseen
      obtain ⟨label, pages⟩ := group
      obtain ⟨page, pages, rfl⟩ := List.exists_cons_of_ne_nil hne
      obtain ⟨hpage, hlabel⟩ := List.forall_mem_cons.mp hown
      rw [List.flatMap_cons, List.cons_append, mergePages, hpage, hnew]
      simp only
      rw [mergePages_append hlabel (by rw [Dict.get?_set, if_pos rfl]), ih hrest hothers,
        List.map_cons, List.append_assoc, List.flatMap_cons]
      · rfl
      · intro other hother
        rw [Dict.get?_set, if_neg, hunseen other hother]
        rintro heq
        exact hfirst (List.mem_map.mpr ⟨other, hother, heq⟩)

theorem nodup_groupByMeta (conditions : List Condition) :
    ((groupByMeta conditions).map Prod.fst).Nodup :=
  (nodup_allGroups conditions).sublist (List.filter_sublist.map _)

theorem pagesOfGroup_ne_nil {size : ℕ} (hsize : 1 ≤ size) {conditions : List Condition}
    {group : String × List Condition} (hgroup : group ∈ groupByMeta conditions) :
    pagesOfGroup size group ≠ [] := by
  intro hnil
  have hconditions := conditions_pagesOfGroup hsize group
  have hne := (List.mem_filter.mp hgroup).2
  rw [hnil, List.flatMap_nil] at hconditions
  have hlength := congrArg List.length hconditions
  rw [List.length_insertionSort, List.length_nil] at hlength
  simp [List.length_eq_zero_iff.mp hlength.symm] at hne

/-- One entry for each group, with its conditions in their order. -/
theorem mergePages_splitByMetaGroup {size : ℕ} (hsize : 1 ≤ size) (conditions : List Condition) :
    mergePages (splitByMetaGroup conditions size) [] Dict.empty =
      (groupByMeta conditions).map fun group => (group.1, group.2.insertionSort sortsBefore) := by
  have hgroups : splitByMetaGroup conditions size =
      ((groupByMeta conditions).map fun group => (group.1, pagesOfGroup size group)).flatMap
        Prod.snd := by
    rw [splitByMetaGroup, List.flatMap_map]
  rw [hgroups, mergePages_groups]
  · rw [List.nil_append, List.map_map]
    refine List.map_congr_left fun group _ => ?_
    rw [Function.comp_apply, conditions_pagesOfGroup hsize]
  · rw [List.map_map]
    exact nodup_groupByMeta conditions
  · intro group hgroup
    obtain ⟨group, hmem, rfl⟩ := List.mem_map.mp hgroup
    exact ⟨pagesOfGroup_ne_nil hsize hmem, fun page hpage => metaLabel_of_mem_pagesOfGroup hpage⟩
  · intro group _
    rfl

/-- What the merge makes of the pages. -/
structure Merged (pages : List GridPage) (entries : List (String × List Condition)) : Prop where
  oneEntry : (entries.map Prod.fst).Nodup
  groups : ∀ label, label ∈ entries.map Prod.fst ↔ ∃ page ∈ pages, page.metaLabel = label
  conditions : ∀ entry ∈ entries, entry.2 = (pagesWith entry.1 pages).flatMap GridPage.conditions
  order : entries.flatMap Prod.snd = pages.flatMap GridPage.conditions

theorem merged_splitByMetaGroup {size : ℕ} (hsize : 1 ≤ size) (conditions : List Condition) :
    Merged (splitByMetaGroup conditions size)
      (mergePages (splitByMetaGroup conditions size) [] Dict.empty) := by
  rw [mergePages_splitByMetaGroup hsize]
  constructor
  · rw [List.map_map]
    exact nodup_groupByMeta conditions
  · intro label
    rw [List.map_map]
    constructor
    · intro hlabel
      obtain ⟨group, hgroup, rfl⟩ := List.mem_map.mp hlabel
      obtain ⟨page, hpage⟩ := List.exists_mem_of_ne_nil _ (pagesOfGroup_ne_nil hsize hgroup)
      have hlabel : page.metaLabel = group.1 := metaLabel_of_mem_pagesOfGroup hpage
      exact ⟨page, List.mem_flatMap.mpr ⟨group, hgroup, hpage⟩, hlabel⟩
    · rintro ⟨page, hpage, rfl⟩
      obtain ⟨group, hgroup, hpage⟩ := List.mem_flatMap.mp hpage
      exact List.mem_map.mpr ⟨group, hgroup, (metaLabel_of_mem_pagesOfGroup hpage).symm⟩
  · intro entry hentry
    obtain ⟨group, hgroup, rfl⟩ := List.mem_map.mp hentry
    obtain ⟨metaGroup, hmeta, rfl⟩ := List.mem_map.mp (List.mem_of_mem_filter hgroup)
    rw [pagesWith_splitByMetaGroup hsize, if_pos (List.mem_map_of_mem hmeta),
      conditions_pagesOfGroup hsize]
  · rw [splitByMetaGroup, List.flatMap_assoc, List.flatMap_map]
    exact List.flatMap_congr fun group _ => (conditions_pagesOfGroup hsize group).symm

/-- Pagination loses nothing and repeats nothing, and the merge gives every group back. -/
theorem pagination_faithful (conditions : List Condition) {size : ℕ} (hsize : 1 ≤ size) :
    Paginated conditions size (splitByMetaGroup conditions size) ∧
      (∀ view : PostConditionsGridView, view.pages = splitByMetaGroup conditions size →
        Merged view.pages view.summaryPages) ∧
      ∀ view : PostConditionsGridView, view.pages = splitByMetaGroup conditions pageSize →
        (∀ c ∈ conditions, ∃ label, shortLabel c = .ok label) →
        ∃ components, view.buildComponents = .ok components ∧ FitsGrid components := by
  refine ⟨paginated_splitByMetaGroup hsize conditions, fun view hpages => ?_,
    fun view hpages hlabels => buildComponents_fitsGrid hpages hlabels⟩
  rw [PostConditionsGridView.summaryPages, hpages]
  exact merged_splitByMetaGroup hsize conditions

theorem pagination_faithful_two :
    Paginated [⟨1, "league", "a"⟩, ⟨2, "faction", "b"⟩, ⟨3, "unknown", "c"⟩] 1
      (splitByMetaGroup [⟨1, "league", "a"⟩, ⟨2, "faction", "b"⟩, ⟨3, "unknown", "c"⟩] 1) :=
  (pagination_faithful _ (by decide)).1

end MomBot.PostConditions
