import Mathlib.Data.Finset.Basic
import Mathlib.Data.List.DropRight
import MomBot.PostConditions.Pagination
import MomBot.Python.Join

/-!
# The text of an embed

`build_grouped_embed` renders lines and forgets what they are: an item is a line that is
neither empty nor bold.  Where every condition has a type with an emoji this is right, and
the lines are those of a list of entries.

* `lines_eq_entries`: the lines are a heading and its items for each group, with blank
  lines between the groups.
* `keepLines` keeps a prefix of them with room for the longest suffix there can be, so a
  shorter number, and the removal of a heading at the end, cannot make it too long.
* The last entry is an item, so a cut always costs one.
-/

namespace MomBot.PostConditions

open Python

/-! ## `build_grouped_embed` -/

/-- `discord.Embed`, as far as it is filled. -/
structure Embed where
  title : String
  description : String

/-- `_TYPE_EMOJI`. -/
def typeEmojis : List (String × String) :=
  [("faction", "⚔️"), ("league", "🌐"), ("role", "🛡️"), ("affinity", "✨"), ("rarity", "💎"),
    ("effect", "🔮"), ("other", "📋")]

/-- `_EMBED_MAX_CHARS`. -/
def embedMaxChars : ℕ := 4096

/-- `_TRUNCATION_SUFFIX.format(n=n)`. -/
def truncationSuffix (n : ℕ) : String := "… and " ++ toString n ++ " more"

/-- The placeholder. -/
def noneSelected : String := "_None selected yet._"

/-- `"\n".join(lines)`. -/
def joinLines (lines : List String) : String := "\n".intercalate lines

/-- The line of a condition. -/
def itemLine (cond : Condition) : String :=
  let emoji := (typeEmojis.lookup cond.conditionType).getD ""
  (if emoji = "" then "" else emoji ++ " ") ++ cond.description

/-- The line of a meta-group. -/
def headingLine (metaLabel : String) : String := "**" ++ metaLabel ++ "**"

/-- One round of the loop that collects the lines. -/
def addGroup (selectedIds : Finset ℤ) (lines : List String) (page : String × List Condition) :
    List String :=
  let groupLines := (page.2.filter fun cond => cond.id ∈ selectedIds).map itemLine
  if groupLines = [] then lines
  else (if lines = [] then lines else lines ++ [""]) ++ headingLine page.1 :: groupLines

/-- `ln.startswith("**")`. -/
def isBold (ln : String) : Bool := "**".toList.isPrefixOf ln.toList

/-- A line that counts as an item. -/
def isItemLine (ln : String) : Bool := ln ≠ "" && !isBold ln

/-- The loop that fills `kept`. -/
def keepLines (total : ℕ) : List String → List String → List String
  | kept, [] => kept
  | kept, ln :: rest =>
      if (joinLines (kept ++ [ln])).length + 1 + (truncationSuffix total).length >
          embedMaxChars then kept
      else keepLines total (kept ++ [ln]) rest

/-- The description of lines that are too many. -/
def truncateLines (lines : List String) : String :=
  let total := lines.countP isItemLine
  let kept := keepLines total [] lines
  let dropped := total - kept.countP isItemLine
  joinLines (kept.rdropWhile isBold) ++ "\n" ++ truncationSuffix dropped

/-- `build_grouped_embed`. -/
def buildGroupedEmbed (title : String) (pages : List (String × List Condition))
    (selectedIds : Finset ℤ) : Embed :=
  if selectedIds = ∅ ∨ pages = [] then ⟨title, noneSelected⟩
  else
    let lines := pages.foldl (addGroup selectedIds) []
    if lines = [] then ⟨title, noneSelected⟩
    else if (joinLines lines).length ≤ embedMaxChars then ⟨title, joinLines lines⟩
    else ⟨title, truncateLines lines⟩

/-- `build_summary_embed`. -/
def buildSummaryEmbed (pages : List (String × List Condition))
    (selections : Dict String (Finset ℤ)) : Embed :=
  let flatSelected := selections.entries.foldl (fun ids entry => ids ∪ entry.2) ∅
  buildGroupedEmbed "Selected preferences" pages flatSelected

/-! ## The entries behind the lines -/

/-- What a line stands for. -/
inductive Entry where
  | blank
  | heading (metaLabel : String)
  | item (cond : Condition)

namespace Entry

/-- The line of an entry. -/
def text : Entry → String
  | .blank => ""
  | .heading metaLabel => headingLine metaLabel
  | .item cond => itemLine cond

/-- The entry is a condition. -/
def isItem : Entry → Bool
  | .item _ => true
  | _ => false

/-- The entry is the name of a meta-group. -/
def isHeading : Entry → Bool
  | .heading _ => true
  | _ => false

/-- The condition of an item. -/
def cond? : Entry → Option Condition
  | .item cond => some cond
  | _ => none

end Entry

/-- The conditions of a group that are selected. -/
def selected (selectedIds : Finset ℤ) (conds : List Condition) : List Condition :=
  conds.filter fun cond => cond.id ∈ selectedIds

/-- A group that has something selected. -/
def groupEntries (metaLabel : String) (conds : List Condition) : List Entry :=
  .heading metaLabel :: conds.map .item

/-- The full listing: the groups that have something selected, with a blank line before
each but the first. -/
def entriesAfter (selectedIds : Finset ℤ) : Bool → List (String × List Condition) → List Entry
  | _, [] => []
  | first, page :: rest =>
      if selected selectedIds page.2 = [] then entriesAfter selectedIds first rest
      else (if first then [] else [.blank]) ++ groupEntries page.1 (selected selectedIds page.2) ++
        entriesAfter selectedIds false rest

/-- The full listing. -/
def entries (selectedIds : Finset ℤ) (pages : List (String × List Condition)) : List Entry :=
  entriesAfter selectedIds true pages

/-- The text of entries. -/
def listing (shown : List Entry) : String := joinLines (shown.map Entry.text)

theorem foldl_addGroup (selectedIds : Finset ℤ) (pages : List (String × List Condition))
    (lines : List String) :
    pages.foldl (addGroup selectedIds) lines =
      lines ++ (entriesAfter selectedIds (lines = []) pages).map Entry.text := by
  induction pages generalizing lines with
  | nil => simp [entriesAfter]
  | cons page pages ih =>
      rw [List.foldl_cons, ih, entriesAfter]
      by_cases hnone : selected selectedIds page.2 = []
      · have hskip : addGroup selectedIds lines page = lines := by
          unfold selected at hnone
          simp [addGroup, hnone]
        rw [hskip, if_pos hnone]
      · have hadd : addGroup selectedIds lines page =
            lines ++ ((if lines = [] then [] else [Entry.blank]) ++
              groupEntries page.1 (selected selectedIds page.2)).map Entry.text := by
          have hlines : (page.2.filter fun cond => cond.id ∈ selectedIds).map itemLine ≠ [] :=
            fun h => hnone (List.map_eq_nil_iff.mp h)
          have hitems : Entry.text ∘ Entry.item = itemLine := rfl
          rw [addGroup, if_neg hlines, groupEntries, selected]
          by_cases hfirst : lines = []
          · simp [hfirst, Entry.text, hitems]
          · simp [hfirst, Entry.text, hitems]
        have hne : addGroup selectedIds lines page ≠ [] := by
          rw [hadd]
          simp [groupEntries]
        rw [if_neg hnone, decide_eq_false hne, hadd]
        by_cases hfirst : lines = [] <;> simp [hfirst]

/-- The lines of the code are those of the entries. -/
theorem lines_eq_entries (selectedIds : Finset ℤ) (pages : List (String × List Condition)) :
    pages.foldl (addGroup selectedIds) [] = (entries selectedIds pages).map Entry.text := by
  rw [foldl_addGroup, List.nil_append]
  rfl

/-! ## What the entries are -/

/-- Every selected condition of the pages, in their order. -/
theorem filterMap_cond?_entriesAfter (selectedIds : Finset ℤ) (first : Bool)
    (pages : List (String × List Condition)) :
    (entriesAfter selectedIds first pages).filterMap Entry.cond? =
      selected selectedIds (pages.flatMap Prod.snd) := by
  induction pages generalizing first with
  | nil => rfl
  | cons page pages ih =>
      have hitems : ∀ conds : List Condition,
          (groupEntries page.1 conds).filterMap Entry.cond? = conds := by
        intro conds
        rw [groupEntries, List.filterMap_cons_none rfl, List.filterMap_map]
        exact List.filterMap_some
      have happend : selected selectedIds ((page :: pages).flatMap Prod.snd) =
          selected selectedIds page.2 ++ selected selectedIds (pages.flatMap Prod.snd) := by
        rw [List.flatMap_cons, selected, List.filter_append]
        rfl
      rw [entriesAfter, happend]
      split
      next hnone => rw [ih, hnone, List.nil_append]
      next =>
        rw [List.filterMap_append, List.filterMap_append, hitems, ih]
        cases first <;> simp [Entry.cond?]

/-- Every heading is followed by an item. -/
def HeadingsHaveItems (shown : List Entry) : Prop :=
  ∀ before metaLabel after, shown = before ++ .heading metaLabel :: after →
    ∃ cond rest, after = .item cond :: rest

theorem HeadingsHaveItems.append {xs ys : List Entry} (hxs : HeadingsHaveItems xs)
    (hys : HeadingsHaveItems ys) : HeadingsHaveItems (xs ++ ys) := by
  intro before metaLabel after h
  rcases List.append_eq_append_iff.mp h with ⟨middle, rfl, hmiddle⟩ | ⟨middle, rfl, hmiddle⟩
  · exact hys middle metaLabel after hmiddle
  · cases middle with
    | nil => exact hys [] metaLabel after hmiddle.symm
    | cons entry middle =>
        obtain ⟨rfl, rfl⟩ := List.cons.inj hmiddle
        obtain ⟨cond, rest, rfl⟩ := hxs before metaLabel middle rfl
        exact ⟨cond, rest ++ ys, rfl⟩

theorem headingsHaveItems_of_forall {xs : List Entry} (h : ∀ entry ∈ xs, entry.isHeading = false) :
    HeadingsHaveItems xs := by
  rintro before metaLabel after rfl
  have := h (.heading metaLabel) (by simp)
  cases this

theorem headingsHaveItems_groupEntries (metaLabel : String) {conds : List Condition}
    (hconds : conds ≠ []) : HeadingsHaveItems (groupEntries metaLabel conds) := by
  obtain ⟨cond, conds, rfl⟩ := List.exists_cons_of_ne_nil hconds
  intro before other after h
  cases before with
  | nil => exact ⟨cond, conds.map .item, (List.cons.inj h).2.symm⟩
  | cons entry before =>
      -- no heading among the items
      have hmem : Entry.heading other ∈ (cond :: conds).map Entry.item := by
        rw [(List.cons.inj h).2]
        simp
      obtain ⟨_, -, hitem⟩ := List.mem_map.mp hmem
      cases hitem

theorem headingsHaveItems_entriesAfter (selectedIds : Finset ℤ) (first : Bool)
    (pages : List (String × List Condition)) :
    HeadingsHaveItems (entriesAfter selectedIds first pages) := by
  induction pages generalizing first with
  | nil => exact headingsHaveItems_of_forall (List.forall_mem_nil _)
  | cons page pages ih =>
      rw [entriesAfter]
      split
      next => exact ih first
      next hsome =>
        refine (HeadingsHaveItems.append ?_ (headingsHaveItems_groupEntries _ hsome)).append
          (ih false)
        refine headingsHaveItems_of_forall fun entry hentry => ?_
        cases first
        · rw [List.mem_singleton.mp hentry]
          rfl
        · cases hentry

/-- The last entry is an item. -/
theorem getLast?_entriesAfter (selectedIds : Finset ℤ) (first : Bool)
    (pages : List (String × List Condition)) :
    ∀ entry ∈ (entriesAfter selectedIds first pages).getLast?, entry.isItem = true := by
  induction pages generalizing first with
  | nil => simp [entriesAfter]
  | cons page pages ih =>
      rw [entriesAfter]
      split
      next => exact ih first
      next hsome =>
        intro entry hentry
        rw [List.getLast?_append, Option.mem_def, Option.or_eq_some_iff] at hentry
        rcases hentry with hentry | ⟨-, hentry⟩
        · exact ih false entry hentry
        · have hlast : (groupEntries page.1 (selected selectedIds page.2)).getLast? =
              ((selected selectedIds page.2).map Entry.item).getLast? := by
            obtain ⟨cond, conds, hconds⟩ := List.exists_cons_of_ne_nil hsome
            rw [groupEntries, hconds, List.map_cons, List.getLast?_cons_cons]
          rw [List.getLast?_append, hlast, Option.or_eq_some_iff] at hentry
          rcases hentry with hentry | ⟨hnone, -⟩
          · obtain ⟨cond, -, rfl⟩ := List.mem_map.mp (List.mem_of_getLast? hentry)
            rfl
          · rw [List.getLast?_eq_none_iff, List.map_eq_nil_iff] at hnone
            exact absurd hnone hsome

/-! ## Telling lines apart -/

/-- A type that has an emoji. -/
def IsKnown (cond : Condition) : Prop := cond.conditionType ∈ typeEmojis.map Prod.fst

theorem itemLine_of_isKnown {cond : Condition} (h : IsKnown cond) :
    ∃ c cs, (itemLine cond).toList = c :: cs ∧ c ≠ '*' := by
  have hall : ∀ conditionType ∈ typeEmojis.map Prod.fst,
      ((typeEmojis.lookup conditionType).getD "").toList.head?.any (· != '*') = true := by
    decide
  obtain ⟨c, hc, hne⟩ := (Option.any_eq_true _ _).mp (hall _ h)
  obtain ⟨cs, hcs⟩ := List.head?_eq_some_iff.mp hc
  have hemoji : (typeEmojis.lookup cond.conditionType).getD "" ≠ "" := by
    intro hempty
    rw [hempty] at hcs
    cases hcs
  refine ⟨c, cs ++ ' ' :: cond.description.toList, ?_, by simpa using hne⟩
  simp [itemLine, hemoji, String.toList_append, hcs]

theorem isBold_text {entry : Entry} (h : ∀ cond, entry = .item cond → IsKnown cond) :
    isBold entry.text = entry.isHeading := by
  cases entry with
  | blank => rfl
  | heading metaLabel =>
      simp [Entry.text, Entry.isHeading, isBold, headingLine, String.toList_append]
  | item cond =>
      obtain ⟨c, cs, hline, hne⟩ := itemLine_of_isKnown (h cond rfl)
      have hstar : ('*' == c) = false := beq_false_of_ne hne.symm
      simp [Entry.text, Entry.isHeading, isBold, hline, List.isPrefixOf, hstar]

theorem isItemLine_text {entry : Entry} (h : ∀ cond, entry = .item cond → IsKnown cond) :
    isItemLine entry.text = entry.isItem := by
  rw [isItemLine, isBold_text h]
  cases entry with
  | blank => rfl
  | heading metaLabel => simp [Entry.isHeading, Entry.isItem]
  | item cond =>
      obtain ⟨c, cs, hline, -⟩ := itemLine_of_isKnown (h cond rfl)
      have hne : itemLine cond ≠ "" := by
        intro hempty
        rw [hempty] at hline
        cases hline
      simp [Entry.text, Entry.isHeading, Entry.isItem, hne]

/-! ## Lengths -/

theorem length_joinLines_append (lines more : List String) :
    (joinLines lines).length ≤ (joinLines (lines ++ more)).length := by
  by_cases hlines : lines = []
  · subst hlines
    exact Nat.zero_le _
  by_cases hmore : more = []
  · rw [hmore, List.append_nil]
  · rw [joinLines, joinLines, String.intercalate_append_of_ne_nil hlines hmore,
      String.length_append, String.length_append]
    omega

theorem length_toString (n : ℕ) : (toString n).length = (Nat.toDigits 10 n).length := by
  rw [← String.length_toList, Nat.toString_eq_repr, Nat.toList_repr]

theorem length_truncationSuffix (n : ℕ) :
    (truncationSuffix n).length = 11 + (Nat.toDigits 10 n).length := by
  have hbefore : "… and ".length = 6 := by decide
  have hafter : " more".length = 5 := by decide
  rw [truncationSuffix, String.length_append, String.length_append, length_toString, hbefore,
    hafter]
  omega

/-- A smaller number has no longer suffix. -/
theorem length_truncationSuffix_mono {m n : ℕ} (h : m ≤ n) :
    (truncationSuffix m).length ≤ (truncationSuffix n).length := by
  have hpos : 0 < (Nat.toDigits 10 n).length := Nat.length_toDigits_pos
  have hn : n < 10 ^ (Nat.toDigits 10 n).length :=
    (Nat.length_toDigits_le_iff (by omega) hpos).mp (le_refl _)
  have hm := (Nat.length_toDigits_le_iff (b := 10) (by omega) hpos).mpr (lt_of_le_of_lt h hn)
  rw [length_truncationSuffix, length_truncationSuffix]
  omega

/-- There is room for a line break and the longest suffix. -/
def HasRoom (total : ℕ) (kept : List String) : Prop :=
  (joinLines kept).length + 1 + (truncationSuffix total).length ≤ embedMaxChars

/-- What the loop keeps is a prefix that leaves room. -/
theorem keepLines_spec {total : ℕ} {kept : List String} (lines : List String)
    (hroom : HasRoom total kept) :
    HasRoom total (keepLines total kept lines) ∧
      ∃ rest, kept ++ lines = keepLines total kept lines ++ rest := by
  induction lines generalizing kept with
  | nil => exact ⟨hroom, [], rfl⟩
  | cons ln lines ih =>
      rw [keepLines]
      split
      next => exact ⟨hroom, ln :: lines, rfl⟩
      next hfits =>
        have hkept : HasRoom total (kept ++ [ln]) := Nat.le_of_not_gt hfits
        obtain ⟨hmore, rest, hrest⟩ := ih hkept
        exact ⟨hmore, rest, (List.append_cons kept ln lines).trans hrest⟩

/-! ## The truncated listing -/

/-- Items that are not shown. -/
def itemCount (shown : List Entry) : ℕ := shown.countP Entry.isItem

theorem itemCount_append (shown more : List Entry) :
    itemCount (shown ++ more) = itemCount shown + itemCount more :=
  List.countP_append

theorem itemCount_pos_of_getLast? {shown : List Entry} (hne : shown ≠ [])
    (hlast : ∀ entry ∈ shown.getLast?, entry.isItem = true) : 0 < itemCount shown := by
  obtain ⟨entry, hentry⟩ := Option.isSome_iff_exists.mp (List.getLast?_isSome.mpr hne)
  exact List.countP_pos_iff.mpr ⟨entry, List.mem_of_getLast? hentry, hlast entry hentry⟩

/-- The heading at the end goes, and nothing else. -/
theorem rdropWhile_text {kept : List Entry} (hknown : ∀ cond, .item cond ∈ kept → IsKnown cond) :
    (kept.map Entry.text).rdropWhile isBold = (kept.rdropWhile Entry.isHeading).map Entry.text := by
  induction kept using List.reverseRecOn with
  | nil => rfl
  | append_singleton kept entry ih =>
      have hbold : isBold entry.text = entry.isHeading :=
        isBold_text fun cond h => hknown cond (by simp [h])
      rw [List.map_append, List.map_singleton]
      by_cases hheading : entry.isHeading = true
      · rw [List.rdropWhile_concat_pos _ _ _ (hbold.trans hheading),
          List.rdropWhile_concat_pos _ _ _ hheading,
          ih fun cond hmem => hknown cond (List.mem_append_left _ hmem)]
      · rw [List.rdropWhile_concat_neg _ _ _ (by rwa [hbold]),
          List.rdropWhile_concat_neg _ _ _ hheading, List.map_append, List.map_singleton]

theorem getLast?_rdropWhile {kept : List Entry} {entry : Entry}
    (hentry : entry ∈ (kept.rdropWhile Entry.isHeading).getLast?) : entry.isHeading = false := by
  have hne : kept.rdropWhile Entry.isHeading ≠ [] := by
    intro hnil
    rw [hnil] at hentry
    cases hentry
  rw [List.getLast?_eq_some_getLast hne, Option.mem_def, Option.some_inj] at hentry
  simpa [hentry] using List.rdropWhile_last_not Entry.isHeading kept hne

theorem itemCount_rdropWhile (kept : List Entry) :
    itemCount (kept.rdropWhile Entry.isHeading) = itemCount kept := by
  induction kept using List.reverseRecOn with
  | nil => rfl
  | append_singleton kept entry ih =>
      by_cases hheading : entry.isHeading = true
      · have hitem : itemCount [entry] = 0 := by
          cases entry with
          | heading metaLabel => rfl
          | blank => cases hheading
          | item cond => cases hheading
        rw [List.rdropWhile_concat_pos _ _ _ hheading, ih, itemCount_append, hitem, Nat.add_zero]
      · rw [List.rdropWhile_concat_neg _ _ _ hheading]

theorem countP_isItemLine {shown : List Entry}
    (hknown : ∀ cond, .item cond ∈ shown → IsKnown cond) :
    (shown.map Entry.text).countP isItemLine = itemCount shown := by
  rw [List.countP_map, itemCount]
  refine List.countP_congr fun entry hentry => ?_
  rw [Function.comp_apply, isItemLine_text fun cond h => hknown cond (h ▸ hentry)]

/-- A heading that is cut off from its items is not shown. -/
theorem headingsHaveItems_of_prefix {all shown rest : List Entry} (hall : HeadingsHaveItems all)
    (hsplit : all = shown ++ rest) (hlast : ∀ entry ∈ shown.getLast?, entry.isHeading = false) :
    HeadingsHaveItems shown := by
  rintro before metaLabel after rfl
  cases after with
  | nil =>
      have := hlast (.heading metaLabel) (by simp)
      cases this
  | cons entry after =>
      obtain ⟨cond, more, hmore⟩ :=
        hall before metaLabel (entry :: after ++ rest) (by simp [hsplit])
      obtain ⟨rfl, -⟩ := List.cons.inj hmore
      exact ⟨cond, after, rfl⟩

/-- A listing that is too long is cut somewhere, with at least one item behind the cut. -/
theorem truncateLines_spec {all : List Entry} (hknown : ∀ cond, .item cond ∈ all → IsKnown cond)
    (hheadings : HeadingsHaveItems all) (hlast : ∀ entry ∈ all.getLast?, entry.isItem = true)
    (hroom : HasRoom (itemCount all) []) (hlong : embedMaxChars < (listing all).length) :
    (truncateLines (all.map Entry.text)).length ≤ embedMaxChars ∧ ∃ shown rest,
      all = shown ++ rest ∧ 1 ≤ itemCount rest ∧ HeadingsHaveItems shown ∧
      truncateLines (all.map Entry.text) =
        listing shown ++ "\n" ++ truncationSuffix (itemCount rest) := by
  have htotal := countP_isItemLine hknown
  obtain ⟨hfits, restLines, hlines⟩ := keepLines_spec (all.map Entry.text) hroom
  rw [List.nil_append] at hlines
  obtain ⟨kept, rest, rfl, hkept, -⟩ := List.map_eq_append_iff.mp hlines
  have hknownKept : ∀ cond, .item cond ∈ kept → IsKnown cond :=
    fun cond h => hknown cond (List.mem_append_left _ h)
  -- the loop cannot have kept everything
  have hrest : rest ≠ [] := by
    rintro rfl
    rw [List.append_nil] at hkept hfits hlong
    rw [HasRoom, ← hkept] at hfits
    rw [listing] at hlong
    omega
  have hitems : 0 < itemCount rest := by
    apply itemCount_pos_of_getLast? hrest
    intro entry hentry
    apply hlast
    rw [List.getLast?_append, hentry]
    rfl
  have hshown := itemCount_rdropWhile kept
  have htext := rdropWhile_text hknownKept
  have hend : ∀ entry ∈ (kept.rdropWhile Entry.isHeading).getLast?, entry.isHeading = false :=
    fun entry hentry => getLast?_rdropWhile hentry
  obtain ⟨headings, hsplit⟩ := List.rdropWhile_prefix Entry.isHeading (l := kept)
  generalize kept.rdropWhile Entry.isHeading = shown at *
  have hall : kept ++ rest = shown ++ (headings ++ rest) := by
    rw [← hsplit, List.append_assoc]
  have hcount : itemCount (kept ++ rest) - itemCount kept = itemCount (headings ++ rest) := by
    rw [hall, itemCount_append, hshown, Nat.add_sub_cancel_left]
  have hdescription : truncateLines ((kept ++ rest).map Entry.text) =
      listing shown ++ "\n" ++ truncationSuffix (itemCount (headings ++ rest)) := by
    simp only [truncateLines, htotal, ← hkept, countP_isItemLine hknownKept, hcount, htext, listing]
  refine ⟨?_, shown, headings ++ rest, hall, ?_, headingsHaveItems_of_prefix hheadings hall hend,
    hdescription⟩
  · have hline : "\n".length = 1 := by decide
    have hshorter : (listing shown).length ≤ (joinLines (kept.map Entry.text)).length := by
      rw [← hsplit, List.map_append]
      exact length_joinLines_append _ _
    have hsuffix : (truncationSuffix (itemCount (headings ++ rest))).length ≤
        (truncationSuffix (itemCount (kept ++ rest))).length := by
      apply length_truncationSuffix_mono
      rw [← hcount]
      exact Nat.sub_le _ _
    calc (truncateLines ((kept ++ rest).map Entry.text)).length
        = (listing shown).length + 1 +
            (truncationSuffix (itemCount (headings ++ rest))).length := by
          rw [hdescription, String.length_append, String.length_append, hline]
      _ ≤ (joinLines (kept.map Entry.text)).length + 1 +
            (truncationSuffix (itemCount (kept ++ rest))).length := by omega
      _ ≤ embedMaxChars := hkept ▸ hfits
  · rw [itemCount_append]
    omega

/-! ## The description -/

/-- The description of the conditions that are selected on some pages. -/
structure SoundDescription (selectedIds : Finset ℤ) (pages : List (String × List Condition))
    (description : String) : Prop where
  atMost : description.length ≤ 4096
  none : selected selectedIds (pages.flatMap Prod.snd) = [] → description = "_None selected yet._"
  oneEntryEach : (entries selectedIds pages).filterMap Entry.cond? =
    selected selectedIds (pages.flatMap Prod.snd)
  full : selected selectedIds (pages.flatMap Prod.snd) ≠ [] →
    (listing (entries selectedIds pages)).length ≤ 4096 →
    description = listing (entries selectedIds pages)
  truncated : 4096 < (listing (entries selectedIds pages)).length → ∃ shown rest,
    entries selectedIds pages = shown ++ rest ∧ 1 ≤ itemCount rest ∧ HeadingsHaveItems shown ∧
    description = listing shown ++ "\n… and " ++ toString (itemCount rest) ++ " more"

/-- No list of the interpreter is longer. -/
def maxListLength : ℕ := 9223372036854775807

theorem isKnown_of_mem_entriesAfter {selectedIds : Finset ℤ} {first : Bool}
    {pages : List (String × List Condition)}
    (hknown : ∀ page ∈ pages, ∀ cond ∈ page.2, IsKnown cond) {cond : Condition}
    (h : .item cond ∈ entriesAfter selectedIds first pages) : IsKnown cond := by
  have hmem : cond ∈ (entriesAfter selectedIds first pages).filterMap Entry.cond? :=
    List.mem_filterMap.mpr ⟨_, h, rfl⟩
  rw [filterMap_cond?_entriesAfter] at hmem
  obtain ⟨page, hpage, hcond⟩ := List.mem_flatMap.mp (List.mem_of_mem_filter hmem)
  exact hknown page hpage cond hcond

theorem itemCount_entries (selectedIds : Finset ℤ) (pages : List (String × List Condition)) :
    itemCount (entries selectedIds pages) =
      (selected selectedIds (pages.flatMap Prod.snd)).length := by
  have hfilter : ∀ shown : List Entry, itemCount shown = (shown.filterMap Entry.cond?).length := by
    intro shown
    induction shown with
    | nil => rfl
    | cons entry shown ih =>
        rw [itemCount, List.countP_cons] at *
        cases entry <;> simp [Entry.isItem, Entry.cond?, List.filterMap_cons, ih]
  rw [hfilter, entries, filterMap_cond?_entriesAfter]

theorem entries_eq_nil_iff (selectedIds : Finset ℤ) (pages : List (String × List Condition)) :
    entries selectedIds pages = [] ↔ selected selectedIds (pages.flatMap Prod.snd) = [] := by
  have hcount := itemCount_entries selectedIds pages
  constructor
  · intro h
    rw [h] at hcount
    exact List.length_eq_zero_iff.mp hcount.symm
  · intro h
    rw [h] at hcount
    by_contra hne
    have hpos : 0 < itemCount (entries selectedIds pages) :=
      itemCount_pos_of_getLast? hne (getLast?_entriesAfter selectedIds true pages)
    simp [hcount] at hpos

/-- The suffix has at most nineteen digits. -/
theorem hasRoom_entries {pages : List (String × List Condition)} (selectedIds : Finset ℤ)
    (hlength : (pages.flatMap Prod.snd).length ≤ maxListLength) :
    HasRoom (itemCount (entries selectedIds pages)) [] := by
  have hcount : itemCount (entries selectedIds pages) < 10 ^ 19 := by
    calc itemCount (entries selectedIds pages)
        = (selected selectedIds (pages.flatMap Prod.snd)).length := itemCount_entries _ _
      _ ≤ (pages.flatMap Prod.snd).length := List.length_filter_le _ _
      _ ≤ maxListLength := hlength
      _ < 10 ^ 19 := by decide
  have hdigits : (Nat.toDigits 10 (itemCount (entries selectedIds pages))).length ≤ 19 :=
    (Nat.length_toDigits_le_iff (by omega) (by omega)).mpr hcount
  have hempty : (joinLines []).length = 0 := by decide
  rw [HasRoom, length_truncationSuffix, hempty, embedMaxChars]
  omega

/-- Nothing is selected: the placeholder. -/
theorem soundDescription_none {selectedIds : Finset ℤ} {pages : List (String × List Condition)}
    (h : selected selectedIds (pages.flatMap Prod.snd) = []) :
    SoundDescription selectedIds pages noneSelected := by
  have hentries := (entries_eq_nil_iff selectedIds pages).mpr h
  refine ⟨by decide, fun _ => rfl, filterMap_cond?_entriesAfter _ _ _, fun hne => absurd h hne,
    fun hlong => ?_⟩
  have hempty : (listing []).length = 0 := by decide
  rw [hentries, hempty] at hlong
  omega

theorem buildGroupedEmbed_of_isKnown (title : String) {pages : List (String × List Condition)}
    (selectedIds : Finset ℤ) (hknown : ∀ page ∈ pages, ∀ cond ∈ page.2, IsKnown cond)
    (hlength : (pages.flatMap Prod.snd).length ≤ maxListLength) :
    SoundDescription selectedIds pages (buildGroupedEmbed title pages selectedIds).description := by
  unfold buildGroupedEmbed
  split
  next hnone =>
    apply soundDescription_none
    rcases hnone with rfl | rfl <;> simp [selected]
  next =>
    rw [lines_eq_entries]
    simp only
    split
    next hempty =>
      apply soundDescription_none
      exact (entries_eq_nil_iff selectedIds pages).mp (List.map_eq_nil_iff.mp hempty)
    next hne =>
      have hsome : selected selectedIds (pages.flatMap Prod.snd) ≠ [] := by
        intro h
        rw [(entries_eq_nil_iff selectedIds pages).mpr h] at hne
        exact hne rfl
      split
      next hfits =>
        exact ⟨hfits, fun h => absurd h hsome, filterMap_cond?_entriesAfter _ _ _, fun _ _ => rfl,
          fun hlong => absurd hfits (Nat.not_le_of_gt hlong)⟩
      next hlong =>
        have hroom := hasRoom_entries selectedIds hlength
        obtain ⟨hatMost, shown, rest, hsplit, hitems, hheadings, hdescription⟩ :=
          truncateLines_spec (fun cond h => isKnown_of_mem_entriesAfter hknown h)
            (headingsHaveItems_entriesAfter _ _ _) (getLast?_entriesAfter _ _ _) hroom
            (Nat.lt_of_not_le hlong)
        refine ⟨hatMost, fun h => absurd h hsome, filterMap_cond?_entriesAfter _ _ _,
          fun _ hfits => absurd hfits hlong, fun _ => ⟨shown, rest, hsplit, hitems, hheadings, ?_⟩⟩
        refine hdescription.trans ?_
        simp [truncationSuffix, ← String.toList_inj, String.toList_append]

/-- Pages from `group_by_meta`, or from `_summary_pages` of a view. -/
def Produced (pages : List (String × List Condition)) : Prop :=
  ∃ conditions : List Condition, conditions.length ≤ maxListLength ∧
    (pages = groupByMeta conditions ∨ ∃ view : PostConditionsGridView,
      view.pages = splitByMetaGroup conditions pageSize ∧ pages = view.summaryPages)

theorem perm_of_produced {conditions : List Condition} {pages : List (String × List Condition)}
    (h : pages = groupByMeta conditions ∨ ∃ view : PostConditionsGridView,
      view.pages = splitByMetaGroup conditions pageSize ∧ pages = view.summaryPages) :
    (pages.flatMap Prod.snd).Perm
      (conditions.filter fun c => (typeToMeta c.conditionType).isSome) := by
  have hmerged := merged_splitByMetaGroup (by decide : 1 ≤ pageSize) conditions
  have hpages := perm_pages (by decide : 1 ≤ pageSize) conditions
  rw [← hmerged.order] at hpages
  rcases h with rfl | ⟨view, hview, rfl⟩
  · rw [mergePages_splitByMetaGroup (by decide), List.flatMap_map] at hpages
    exact (List.Perm.flatMap_left _ fun group _ => (List.perm_insertionSort _ _).symm).trans hpages
  · rwa [PostConditionsGridView.summaryPages, hview]

theorem isKnown_of_typeToMeta {cond : Condition}
    (h : (typeToMeta cond.conditionType).isSome = true) : IsKnown cond := by
  have hall : ∀ group ∈ metaGroups, ∀ conditionType ∈ group.2,
      conditionType ∈ typeEmojis.map Prod.fst := by
    decide
  obtain ⟨label, hlabel⟩ := Option.isSome_iff_exists.mp h
  obtain ⟨group, hgroup, -⟩ := Option.map_eq_some_iff.mp hlabel
  exact hall group (List.mem_of_find?_eq_some hgroup) _ (by simpa using List.find?_some hgroup)

/-- The description is the listing or an honest part of it. -/
theorem buildGroupedEmbed_sound (title : String) {pages : List (String × List Condition)}
    (hpages : Produced pages) (selectedIds : Finset ℤ) :
    SoundDescription selectedIds pages (buildGroupedEmbed title pages selectedIds).description := by
  obtain ⟨conditions, hlength, hproduced⟩ := hpages
  have hperm := perm_of_produced hproduced
  refine buildGroupedEmbed_of_isKnown title selectedIds (fun page hpage cond hcond => ?_) ?_
  · have hmem := hperm.mem_iff.mp (List.mem_flatMap.mpr ⟨page, hpage, hcond⟩)
    exact isKnown_of_typeToMeta (List.mem_filter.mp hmem).2
  · rw [hperm.length_eq]
    exact (List.length_filter_le _ _).trans hlength

/-- A text that leaves no room for the marks around it. -/
def longText : String := String.ofList (List.replicate embedMaxChars 'b')

/-- Two conditions, whose lines are too long together. -/
def longCatalog : List Condition := [⟨1, "league", "a"⟩, ⟨2, "faction", longText⟩]

/-- A listing that is cut: its last entry alone is too long. -/
theorem buildGroupedEmbed_sound_long :
    4096 < (listing (entries {1, 2} (groupByMeta longCatalog))).length ∧
      SoundDescription {1, 2} (groupByMeta longCatalog)
        (buildGroupedEmbed "Catalog" (groupByMeta longCatalog) {1, 2}).description := by
  refine ⟨?_, buildGroupedEmbed_sound "Catalog" ⟨longCatalog, by decide, .inl rfl⟩ {1, 2}⟩
  have hitem : itemLine ⟨2, "faction", longText⟩ ∈
      (entries {1, 2} (groupByMeta longCatalog)).map Entry.text := List.mem_of_getLast? rfl
  calc 4096 = longText.length := by
        rw [longText, String.length_ofList, List.length_replicate, embedMaxChars]
    _ < ("⚔️" ++ " ").length + longText.length := Nat.lt_add_of_pos_left (by decide)
    _ = (itemLine ⟨2, "faction", longText⟩).toList.length := (String.length_append _ _).symm
    _ ≤ (listing (entries {1, 2} (groupByMeta longCatalog))).length :=
        (infix_intercalate "\n" hitem).length_le

/-- With nothing selected the listing is empty, and it is not what is shown. -/
theorem buildGroupedEmbed_empty_selection :
    (listing (entries ∅ (groupByMeta [⟨1, "league", "a"⟩]))).length ≤ 4096 ∧
      (buildGroupedEmbed "Catalog" (groupByMeta [⟨1, "league", "a"⟩]) ∅).description ≠
        listing (entries ∅ (groupByMeta [⟨1, "league", "a"⟩])) := by
  decide

/-- The summary of a view is the embed of the union of its selections. -/
theorem buildSummaryEmbed_sound {pages : List (String × List Condition)} (hpages : Produced pages)
    (selections : Dict String (Finset ℤ)) :
    SoundDescription (selections.entries.foldl (fun ids entry => ids ∪ entry.2) ∅) pages
      (buildSummaryEmbed pages selections).description :=
  buildGroupedEmbed_sound "Selected preferences" hpages _

end MomBot.PostConditions
