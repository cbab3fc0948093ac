import MomBot.Cooperative.Raising
import MomBot.PostConditions.Editing
import MomBot.PostConditions.Embed

/-!
# Commands and buttons

The three slash commands and the callbacks of the buttons, each a task of its own.  The tasks share
the client and the views of the open editors: a click changes a view at once and awaits Discord
afterwards, and Save reads the view before the PUT and once more when it is over.
-/

namespace MomBot.PostConditions

open Cooperative Coroutine Python

/-! ## Texts -/

/-- `_NOT_REGISTERED_MSG`. -/
def notRegisteredMsg : String :=
  "Your Discord account isn't registered with siege-web yet. " ++
    "Ask a clan admin to add you, then try this command again."

/-- `_OPS_ERROR_MSG`. -/
def opsErrorMsg : String :=
  "An internal error occurred while contacting siege-web. Please try again later."

/-- The reply to a catalog that is empty. -/
def noConditionsMsg : String := "No post-conditions found."

/-- The reply to preferences that are empty. -/
def noPreferencesMsg : String := "You have no post-condition preferences set."

/-- The reply to a save that siege-web refused. -/
def notSavedMsg : String := "Could not save preferences. Try again."

/-- The text that replaces a cancelled editor. -/
def cancelledMsg : String := "Cancelled — preferences unchanged."

/-! ## The embed of the editor -/

/-- One round of the loop of `_flat_to_meta_keyed`. -/
def addToMeta (idToMeta : Dict ℤ String) (out : Dict String (Finset ℤ)) (entry : ℤ × Bool) :
    Dict String (Finset ℤ) :=
  if entry.2 then
    match idToMeta.get? entry.1 with
    | none => out
    -- `out.setdefault(meta, set()).add(cid)`
    | some label => out.set label (insert entry.1 ((out.get? label).getD ∅))
  else out

/-- `_flat_to_meta_keyed`: the selected ids of the pages under their labels. -/
def flatToMetaKeyed (selectionsFlat : Dict ℤ Bool) (pages : List GridPage) :
    Dict String (Finset ℤ) :=
  let idToMeta : Dict ℤ String :=
    .ofList (pages.flatMap fun page => page.conditions.map fun cond => (cond.id, page.metaLabel))
  selectionsFlat.entries.foldl (addToMeta idToMeta) .empty

namespace PostConditionsGridView

variable (view : PostConditionsGridView)

/-- The title of the current page. -/
def pageTitle : String :=
  if h : view.pages = [] then "Preferences"
  else
    "Editing — " ++ (view.pages.get ⟨view.pageIndex, view.pageIndex_lt h⟩).label ++ " (page " ++
      toString (view.pageIndex + 1) ++ "/" ++ toString view.pages.length ++ ")"

/-- `_build_embed_for_current_page`. -/
def buildEmbedForCurrentPage : Embed :=
  let embed := buildSummaryEmbed view.summaryPages (flatToMetaKeyed view.selections view.pages)
  { embed with title := view.pageTitle }

/-- The embed of `SaveButton.callback`. -/
def savedEmbed : Embed :=
  { view.buildEmbedForCurrentPage with title := "Preferences saved" }

end PostConditionsGridView

/-! ### What it lists -/

section Listed

/-- All the ids of a meta-keyed dict. -/
def flatSelected (selections : Dict String (Finset ℤ)) : Finset ℤ :=
  selections.entries.foldl (fun ids entry => ids ∪ entry.2) ∅

/-- The id is that of a condition on some page. -/
def OnPage (pages : List GridPage) (id : ℤ) : Prop :=
  ∃ page ∈ pages, ∃ cond ∈ page.conditions, cond.id = id

variable {selections : Dict String (Finset ℤ)} {idToMeta : Dict ℤ String} {id : ℤ}

theorem mem_foldl_union (entries : List (String × Finset ℤ)) (ids : Finset ℤ) :
    id ∈ entries.foldl (fun ids entry => ids ∪ entry.2) ids ↔
      id ∈ ids ∨ ∃ entry ∈ entries, id ∈ entry.2 := by
  induction entries generalizing ids with
  | nil => simp
  | cons entry entries ih =>
      rw [List.foldl_cons, ih, Finset.mem_union, List.exists_mem_cons_iff, or_assoc]

theorem mem_flatSelected : id ∈ flatSelected selections ↔
    ∃ label ids, selections.get? label = some ids ∧ id ∈ ids := by
  rw [flatSelected, mem_foldl_union]
  constructor
  · intro h
    rcases h with h | ⟨⟨label, ids⟩, hentry, hid⟩
    · exact absurd h (Finset.notMem_empty id)
    · exact ⟨label, ids, Dict.mem_entries.mp hentry, hid⟩
  · intro h
    obtain ⟨label, ids, hget, hid⟩ := h
    exact .inr ⟨(label, ids), Dict.mem_entries.mpr hget, hid⟩

/-- An id that is added under a label is there, and so is whatever was. -/
theorem mem_flatSelected_set (label : String) (added : ℤ) :
    id ∈ flatSelected (selections.set label (insert added ((selections.get? label).getD ∅))) ↔
      id = added ∨ id ∈ flatSelected selections := by
  rw [mem_flatSelected, mem_flatSelected]
  constructor
  · intro h
    obtain ⟨other, ids, hget, hid⟩ := h
    rw [Dict.get?_set] at hget
    split at hget
    next =>
      obtain rfl := Option.some.inj hget
      rcases Finset.mem_insert.mp hid with rfl | hid
      · exact .inl rfl
      · cases hbefore : selections.get? label with
        | none => simp [hbefore] at hid
        | some before =>
            rw [hbefore] at hid
            exact .inr ⟨label, before, hbefore, hid⟩
    next => exact .inr ⟨other, ids, hget, hid⟩
  · intro h
    rcases h with rfl | ⟨other, ids, hget, hid⟩
    · exact ⟨label, _, by rw [Dict.get?_set, if_pos rfl], Finset.mem_insert_self _ _⟩
    · by_cases hother : other = label
      · subst hother
        refine ⟨other, _, by rw [Dict.get?_set, if_pos rfl], Finset.mem_insert_of_mem ?_⟩
        rwa [hget]
      · exact ⟨other, ids, by rw [Dict.get?_set, if_neg hother, hget], hid⟩

/-- **Step lemma.**  One round adds at most its own id. -/
theorem mem_flatSelected_addToMeta (entry : ℤ × Bool) :
    id ∈ flatSelected (addToMeta idToMeta selections entry) ↔
      (id, true) = entry ∧ (idToMeta.get? id).isSome ∨ id ∈ flatSelected selections := by
  obtain ⟨first, on⟩ := entry
  unfold addToMeta
  cases on with
  | false => simp
  | true =>
      cases hlabel : idToMeta.get? first with
      | none =>
          have hne : (idToMeta.get? id).isSome → id ≠ first := by
            rintro hsome rfl
            simp [hlabel] at hsome
          simp only [if_true, Prod.mk.injEq, and_true]
          tauto
      | some label =>
          have hsome : id = first → (idToMeta.get? id).isSome := by
            rintro rfl
            simp [hlabel]
          simp only [if_true, mem_flatSelected_set, Prod.mk.injEq, and_true]
          tauto

/-- **Run lemma.** -/
theorem mem_flatSelected_foldl (entries : List (ℤ × Bool)) :
    id ∈ flatSelected (entries.foldl (addToMeta idToMeta) selections) ↔
      (id, true) ∈ entries ∧ (idToMeta.get? id).isSome ∨ id ∈ flatSelected selections := by
  induction entries generalizing selections with
  | nil => simp
  | cons entry entries ih =>
      rw [List.foldl_cons, ih, mem_flatSelected_addToMeta, List.mem_cons]
      tauto

/-- The embed lists the selected ids that are on a page. -/
theorem mem_flatSelected_flatToMetaKeyed (selectionsFlat : Dict ℤ Bool) (pages : List GridPage) :
    id ∈ flatSelected (flatToMetaKeyed selectionsFlat pages) ↔
      selectionsFlat.get? id = some true ∧ OnPage pages id := by
  have hempty : id ∉ flatSelected (Dict.empty : Dict String (Finset ℤ)) := Finset.notMem_empty id
  have hpage : id ∈ (pages.flatMap fun page => page.conditions.map fun cond =>
      (cond.id, page.metaLabel)).map Prod.fst ↔ OnPage pages id := by
    simp only [List.map_flatMap, List.map_map, List.mem_flatMap, List.mem_map, Function.comp_apply,
      OnPage]
  rw [flatToMetaKeyed, mem_flatSelected_foldl, Dict.mem_entries, Dict.isSome_get?_ofList, hpage,
    or_iff_left hempty]

end Listed

/-! ### What clicks make of the selections -/

section Selections

variable {view : PostConditionsGridView} {id : ℤ}

/-- The view after some clicks. -/
def clicked (view : PostConditionsGridView) (clicks : List Click) : PostConditionsGridView :=
  clicks.foldl Editor.change view

theorem pages_clicked (clicks : List Click) : (clicked view clicks).pages = view.pages := by
  induction clicks generalizing view with
  | nil => rfl
  | cons click clicks ih => exact ih.trans (Editor.change_pages view click)

/-- An editor stays with its user. -/
theorem user_clicked (view : PostConditionsGridView) (clicks : List Click) :
    (clicked view clicks).discordId = view.discordId ∧
      (clicked view clicks).discordUsername = view.discordUsername := by
  induction clicks generalizing view with
  | nil => exact ⟨rfl, rfl⟩
  | cons click clicks ih =>
      obtain ⟨hid, hname⟩ := ih (Editor.change view click)
      have hchange : (Editor.change view click).discordId = view.discordId ∧
          (Editor.change view click).discordUsername = view.discordUsername := by
        cases click with
        | toggle id => exact ⟨rfl, rfl⟩
        | navigate direction =>
            cases direction <;> simp only [Editor.change, PostConditionsGridView.navigate] <;>
              split <;> exact ⟨rfl, rfl⟩
      exact ⟨hid.trans hchange.1, hname.trans hchange.2⟩

theorem mem_selectedIds_change (click : Click) : id ∈ (Editor.change view click).selectedIds ↔
    Xor (id ∈ view.selectedIds) (click = .toggle id) := by
  rw [PostConditionsGridView.mem_selectedIds, PostConditionsGridView.mem_selectedIds]
  cases click with
  | navigate direction =>
      have hsame : (Editor.change view (.navigate direction)).selections = view.selections := by
        cases direction <;> simp only [Editor.change, PostConditionsGridView.navigate] <;> split <;>
          rfl
      rw [hsame]
      simp [Xor]
  | toggle clicked =>
      simp only [Editor.change, PostConditionsGridView.toggle, Dict.get?_set]
      by_cases hid : id = clicked
      · subst hid
        cases hon : view.selections.get? id with
        | none => simp [Xor]
        | some on => cases on <;> simp [Xor]
      · have hother : Click.toggle clicked ≠ Click.toggle id := fun h =>
          hid (Click.toggle.inj h).symm
        simp [hid, hother, Xor]

/-- The selected ids are flipped as often as their buttons were clicked. -/
theorem mem_selectedIds_clicked (clicks : List Click) : id ∈ (clicked view clicks).selectedIds ↔
    Xor (id ∈ view.selectedIds) (Odd (toggles id clicks)) := by
  induction clicks generalizing view with
  | nil => simp [clicked, toggles, Xor]
  | cons click clicks ih =>
      refine ih.trans ?_
      rw [mem_selectedIds_change]
      by_cases htoggle : click = .toggle id
      · subst htoggle
        rw [toggles_cons_self, Nat.odd_add_one]
        unfold Xor
        tauto
      · rw [toggles_cons_of_ne htoggle]
        unfold Xor
        tauto

/-- A new editor has selected what is saved and listed. -/
theorem mem_selectedIds_create {catalog : List Condition} {preferences : List ℤ}
    {discordId discordUsername : String} :
    id ∈ (PostConditionsGridView.create catalog preferences discordId discordUsername).selectedIds ↔
      id ∈ catalog.map Condition.id ∧ id ∈ preferences := by
  rw [PostConditionsGridView.mem_selectedIds]
  have hgraph := Dict.get?_ofList_graph (catalog.map Condition.id)
    (fun id => decide (id ∈ preferences)) id
  rw [List.map_map] at hgraph
  refine (congrArg (· = some true) hgraph).to_iff.trans ?_
  split
  next hlisted => simp [hlisted]
  next hlisted => simp [hlisted]

end Selections

/-! ## Effects -/

/-- What a message shows; an editor also has its buttons. -/
inductive Shown where
  | text (content : String)
  | embed (embed : Embed)
  | editor (n : ℕ) (embed : Embed) (components : List Component)

/-- Views are numbered as they are opened. -/
inductive PostOp where
  | client (o : ClientOp)
  | openView (view : PostConditionsGridView)
  | readView (n : ℕ)
  | changeView (n : ℕ) (click : Click)

/-- `none` is a view that is not there. -/
def PostOp.Res : PostOp → Type
  | client o => o.Res
  | openView _ => ℕ
  | readView _ | changeView _ _ => Option PostConditionsGridView

/-- The calls of the client and of Discord. -/
inductive PostCall where
  | client (call : ClientCall)
  | defer
  | followupSend (shown : Shown)
  | sendMessage (content : String)
  | editMessage (shown : Shown)

/-- The client's calls are answered as in `Client.lean`, the others by an outcome. -/
def PostCall.Ans : PostCall → Type
  | client call => call.Ans
  | defer | followupSend _ | sendMessage _ | editMessage _ => Outcome

/-- Everything that the commands and the buttons ask. -/
abbrev postEffects : Effects := ⟨PostOp, PostOp.Res, PostCall, PostCall.Ans⟩

/-- What can leave a command or a callback. -/
inductive PostError where
  | siegeWeb (error : SiegeWebError)
  | raised (exc : Raised)
  | keyError (error : KeyError)

namespace PostError

/-- `except Exception`. -/
def isException : PostError → Bool
  | raised exc => exc.isException
  | siegeWeb _ | keyError _ => true

/-- `except SiegeWebError`. -/
def isSiegeWeb : PostError → Bool
  | siegeWeb _ => true
  | raised _ | keyError _ => false

/-- An exception that has come through the client. -/
def ofFailure : ClientFailure → PostError
  | .siegeWeb error => siegeWeb error
  | .raised exc => raised exc

end PostError

/-- A command or a callback, or a part of one. -/
abbrev PostM := ExceptT PostError (Coroutine postEffects)

/-- The client, among the commands. -/
def clients : Embedding clientEffects postEffects where
  op := .client
  res _ r := r
  call := .client
  ans _ a := a

/-- What a method of the client has returned or raised. -/
def raising {α : Type} : Except ClientFailure α → Except PostError α
  | .ok value => .ok value
  | .error failure => .error (.ofFailure failure)

/-- A method of the client. -/
def calling {α : Type} (p : ClientM (Except ClientFailure α)) : PostM α :=
  ExceptT.mk (p.embed clients >>= fun value => pure (raising value))

/-- A call of Discord, which raises what it was answered. -/
def awaitCall (call : PostCall) (outcome : call.Ans → Outcome) : PostM Unit :=
  ExceptT.mk (.await (E := postEffects) call fun answer =>
    .done ((outcome answer).mapError .raised))

/-- `interaction.response.defer(ephemeral=True)`. -/
def defer : PostM Unit := awaitCall .defer id

/-- `interaction.followup.send`. -/
def followupSend (shown : Shown) : PostM Unit := awaitCall (.followupSend shown) id

/-- `interaction.response.send_message`. -/
def sendMessage (content : String) : PostM Unit := awaitCall (.sendMessage content) id

/-- `interaction.response.edit_message`. -/
def editMessage (shown : Shown) : PostM Unit := awaitCall (.editMessage shown) id

/-- A view is made. -/
def openView (view : PostConditionsGridView) : PostM ℕ :=
  ExceptT.mk (.op (E := postEffects) (.openView view) fun n => .done (.ok n))

/-- `assert view is not None`. -/
def present : Option PostConditionsGridView → Except PostError PostConditionsGridView
  | some view => .ok view
  | none => .error (.raised .unexpected)

/-- The callback reads its view. -/
def readView (n : ℕ) : PostM PostConditionsGridView :=
  ExceptT.mk (.op (E := postEffects) (.readView n) fun found => .done (present found))

/-- The callback of a button changes its view. -/
def changeView (n : ℕ) (click : Click) : PostM PostConditionsGridView :=
  ExceptT.mk (.op (E := postEffects) (.changeView n click) fun found => .done (present found))

/-! ## Commands -/

/-- `interaction.user`. -/
structure User where
  id : ℕ
  name : String
  deriving DecidableEq

/-- `str(interaction.user.id)`. -/
def User.discordId (user : User) : String := toString user.id

/-- How the commands read what `resp.json()` gives: whether it is falsy, and its conditions. -/
structure Payloads where
  isEmpty : JsonValue → Bool
  conditions : JsonValue → Except Raised (List Condition)

/-- A payload as the handlers read it. -/
def Payloads.read (payloads : Payloads) (payload : JsonValue) : PostM (List Condition) :=
  ExceptT.mk (pure ((payloads.conditions payload).mapError .raised))

/-- `try` around the requests of a command; `message` is what its handlers send before they
return. -/
def fetching {α : Type} (fetch : PostM α) (message : PostError → String) : PostM (Option α) :=
  catching PostError.isException
    (do
      let value ← fetch
      return some value)
    fun error => do
      followupSend (.text (message error))
      return none

/-- What the handlers of the commands for one user send. -/
def refusalText : PostError → String
  | .siegeWeb .notFound => notRegisteredMsg
  | _ => opsErrorMsg

/-- The embed of a listing, where every condition is selected. -/
def listingEmbed (title : String) (conditions : List Condition) : Embed :=
  buildGroupedEmbed title (groupByMeta conditions) (conditions.map Condition.id).toFinset

variable (payloads : Payloads) (c : SiegeWebClient)

/-- `post_conditions_catalog`. -/
def postConditionsCatalog : PostM Unit := do
  defer
  match ← fetching (calling (c.listCatalog none)) fun _ => opsErrorMsg with
  | none => return
  | some payload =>
      if payloads.isEmpty payload then followupSend (.text noConditionsMsg)
      else do
        let catalog ← payloads.read payload
        followupSend (.embed (listingEmbed "Post-condition catalog" catalog))

/-- `post_conditions_get`. -/
def postConditionsGet (user : User) : PostM Unit := do
  defer
  match ← fetching (calling (c.getMyPreferences user.discordId user.name)) refusalText with
  | none => return
  | some payload =>
      if payloads.isEmpty payload then followupSend (.text noPreferencesMsg)
      else do
        let prefs ← payloads.read payload
        followupSend (.embed (listingEmbed "Your post-condition preferences" prefs))

/-- What `post_conditions_set` fetches. -/
def fetchBoth (user : User) : PostM (JsonValue × JsonValue) := do
  let catalog ← calling (c.listCatalog none)
  let prefs ← calling (c.getMyPreferences user.discordId user.name)
  return (catalog, prefs)

/-- The editor of `post_conditions_set`. -/
def openEditor (user : User) (catalog prefs : List Condition) : PostM Unit :=
  match postConditionsSet catalog prefs user.discordId user.name with
  | .error error => throw (.keyError error)
  | .ok editor => do
      let n ← openView editor.view
      followupSend (.editor n editor.view.buildEmbedForCurrentPage editor.shown)

/-- `post_conditions_set`, up to what it sends. -/
def postConditionsSetCommand (user : User) : PostM Unit := do
  defer
  match ← fetching (fetchBoth c user) refusalText with
  | none => return
  | some (catalog, prefs) => do
      let prefs ← payloads.read prefs
      let catalog ← payloads.read catalog
      openEditor user catalog prefs

/-! ## Buttons -/

/-- The end of the callbacks that change a view. -/
def editEditor (n : ℕ) (view : PostConditionsGridView) : PostM Unit :=
  match view.buildComponents with
  | .error error => throw (.keyError error)
  | .ok components => editMessage (.editor n view.buildEmbedForCurrentPage components)

/-- `_ToggleButton.callback` and `NavButton.callback`. -/
def clickButton (n : ℕ) (click : Click) : PostM Unit := do
  let view ← changeView n click
  editEditor n view

/-- The PUT of `SaveButton.callback`, with what its handler sends. -/
def putSelected (view : PostConditionsGridView) : PostM Bool :=
  catching PostError.isSiegeWeb
    (do
      let _ ← calling (c.setMyPreferences view.discordId view.discordUsername view.selectedIds)
      return true)
    fun _ => do
      sendMessage notSavedMsg
      return false

/-- `SaveButton.callback`. -/
def saveButton (n : ℕ) : PostM Unit := do
  let view ← readView n
  let saved ← putSelected c view
  if saved then do
    -- the view as it is after the PUT
    let view ← readView n
    editMessage (.embed view.savedEmbed)
  else return

/-- `CancelButton.callback`. -/
def cancelButton : PostM Unit := editMessage (.text cancelledMsg)

/-- What a task is started with. -/
inductive PostTask where
  | catalog
  | get (user : User)
  | set (user : User)
  | click (n : ℕ) (click : Click)
  | save (n : ℕ)
  | cancel

/-- The command, or the callback of the button. -/
def PostTask.program : PostTask → PostM Unit
  | catalog => postConditionsCatalog payloads c
  | get user => postConditionsGet payloads c user
  | set user => postConditionsSetCommand payloads c user
  | click n button => clickButton n button
  | save n => saveButton c n
  | cancel => cancelButton

/-! ## What the tasks share -/

/-- `opened` and `clicks` are only recorded. -/
structure OpenEditor where
  opened : PostConditionsGridView
  clicks : List Click
  view : PostConditionsGridView

/-- An editor after a click. -/
def OpenEditor.click (editor : OpenEditor) (click : Click) : OpenEditor :=
  { editor with
    clicks := editor.clicks ++ [click]
    view := Editor.change editor.view click }

/-- The client, and the editors in the order in which they were opened. -/
structure PostOffice where
  client : ClientState
  editors : List OpenEditor

namespace PostOffice

/-- A new process. -/
def init (now : ℚ) : PostOffice := ⟨.init now, []⟩

/-- The operations of the client and those on the views. -/
def exec : (o : PostOp) → PostOffice → o.Res × PostOffice
  | .client o, w =>
      ((ClientState.exec o w.client).1, { w with client := (ClientState.exec o w.client).2 })
  | .openView view, w =>
      (w.editors.length, { w with editors := w.editors ++ [⟨view, [], view⟩] })
  | .readView n, w => (w.editors[n]?.map OpenEditor.view, w)
  | .changeView n click, w =>
      (w.editors[n]?.map fun editor => (editor.click click).view,
        { w with editors := w.editors.modify n fun editor => editor.click click })

/-- Only an answer to the client changes anything. -/
def complete : (call : PostCall) → call.Ans → PostOffice → PostOffice
  | .client call, answer, w => { w with client := ClientState.complete call answer w.client }
  | .defer, _, w | .followupSend _, _, w | .sendMessage _, _, w | .editMessage _, _, w => w

end PostOffice

/-- Any commands and clicks, and a clock that does not go back. -/
def posts : Concurrent postEffects PostOffice PostTask (Except PostError Unit) where
  machine := { exec := PostOffice.exec, issue := fun _ w => w, complete := PostOffice.complete }
  program x := (x.program payloads c).run
  outside w w' := ∃ now, w.client.now ≤ now ∧ w' = { w with client := { w.client with now := now } }

end MomBot.PostConditions
