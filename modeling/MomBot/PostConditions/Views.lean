import MomBot.PostConditions.Client
import MomBot.PostConditions.GridLayout
import MomBot.Python.Dict

/-!
# The preference editor

`PostConditionsGridView` and the callbacks of its buttons.  A callback changes the view
first and then renders it again; when a condition without a short label makes the
rendering fail, the message keeps the buttons it had.
-/

namespace MomBot.PostConditions

open Cooperative Python

/-! ## Components -/

/-- The directions of `NavButton`. -/
inductive Direction where
  | prev
  | next
  deriving DecidableEq

/-- The buttons of a view. -/
inductive Component where
  | toggleButton (conditionId : ℤ) (label : String) (row : ℕ) (on : Bool)
  | navButton (direction : Direction) (disabled : Bool)
  | saveButton
  | cancelButton
  deriving DecidableEq

/-! ## The view -/

/-- `PostConditionsGridView`; a field keeps its page among the pages. -/
structure PostConditionsGridView where
  discordId : String
  discordUsername : String
  pages : List GridPage
  pageIndex : ℕ
  selections : Dict ℤ Bool
  pageIndex_lt : pages ≠ [] → pageIndex < pages.length

namespace PostConditionsGridView

/-- `__init__`, up to the rendering. -/
def create (catalog : List Condition) (preferences : List ℤ) (discordId discordUsername : String) :
    PostConditionsGridView where
  discordId := discordId
  discordUsername := discordUsername
  pages := splitByMetaGroup catalog pageSize
  pageIndex := 0
  selections := .ofList (catalog.map fun c => (c.id, decide (c.id ∈ preferences)))
  pageIndex_lt := List.length_pos_iff.mpr

variable (view : PostConditionsGridView)

/-- The toggle buttons of a page, from the `i`-th on. -/
def toggleButtons (selections : Dict ℤ Bool) :
    ℕ → List Condition → Except KeyError (List Component)
  | _, [] => .ok []
  | i, cond :: rest =>
      match shortLabel cond with
      | .error error => .error error
      | .ok label =>
          match toggleButtons selections (i + 1) rest with
          | .error error => .error error
          | .ok buttons =>
              let on := (selections.get? cond.id).getD false
              .ok (.toggleButton cond.id label (i / 5) on :: buttons)

/-- The last row of buttons. -/
def navRow : List Component :=
  [.navButton .prev (view.pageIndex = 0), .saveButton, .cancelButton,
    .navButton .next (view.pages.length - 1 ≤ view.pageIndex)]

/-- `_build_components`: the buttons of the current page. -/
def buildComponents : Except KeyError (List Component) :=
  if h : view.pages = [] then .ok []
  else
    match toggleButtons view.selections 0
        (view.pages.get ⟨view.pageIndex, view.pageIndex_lt h⟩).conditions with
    | .error error => .error error
    | .ok buttons => .ok (buttons ++ view.navRow)

/-- What `_ToggleButton.callback` changes. -/
def toggle (conditionId : ℤ) : PostConditionsGridView :=
  { view with
    selections :=
      view.selections.set conditionId (!(view.selections.get? conditionId).getD false) }

/-- What `NavButton.callback` changes. -/
def navigate : Direction → PostConditionsGridView
  | .prev =>
      if view.pageIndex > 0 then
        { view with
          pageIndex := view.pageIndex - 1
          pageIndex_lt := fun h => Nat.lt_of_le_of_lt (Nat.sub_le _ _) (view.pageIndex_lt h) }
      else view
  | .next =>
      if h : view.pageIndex < view.pages.length - 1 then
        { view with
          pageIndex := view.pageIndex + 1
          pageIndex_lt := fun _ => Nat.add_lt_of_lt_sub h }
      else view

/-- The ids that `SaveButton.callback` sends. -/
def selectedIds : List ℤ :=
  (view.selections.entries.filter Prod.snd).map Prod.fst

/-- `SaveButton.callback` once the PUT has returned or raised. -/
def reportSave : Except ClientFailure JsonValue → ClientM (Except ClientFailure Unit)
  | .error (.siegeWeb _) => do
      match ← respond (.sendMessage "Could not save preferences. Try again.") with
      | .error exc => return .error (.raised exc)
      | .ok () => return .ok ()
  | .error (.raised exc) => return .error (.raised exc)
  | .ok _ => do
      match ← respond (.editMessage "Preferences saved" false) with
      | .error exc => return .error (.raised exc)
      | .ok () => return .ok ()

/-- `SaveButton.callback`. -/
def save (c : SiegeWebClient) : ClientM (Except ClientFailure Unit) := do
  let result ← c.setMyPreferences view.discordId view.discordUsername view.selectedIds
  reportSave result

end PostConditionsGridView

/-! ## The editor message -/

/-- A click on a toggle or on a navigation button. -/
inductive Click where
  | toggle (conditionId : ℤ)
  | navigate (direction : Direction)
  deriving DecidableEq

/-- The view together with the buttons that the message shows. -/
structure Editor where
  view : PostConditionsGridView
  shown : List Component

/-- `post_conditions_set` with what it fetched. -/
def postConditionsSet (catalog prefs : List Condition) (discordId discordUsername : String) :
    Except KeyError Editor :=
  let view := PostConditionsGridView.create catalog (prefs.map Condition.id) discordId
    discordUsername
  match view.buildComponents with
  | .error error => .error error
  | .ok components => .ok ⟨view, components⟩

/-- The component is the toggle button of the condition. -/
def Component.isToggleOf (conditionId : ℤ) : Component → Bool
  | toggleButton id _ _ _ => id = conditionId
  | _ => false

namespace Editor

/-- The button is shown and enabled. -/
def enabled (e : Editor) : Click → Bool
  | .toggle conditionId => e.shown.any (Component.isToggleOf conditionId)
  | .navigate direction => .navButton direction false ∈ e.shown

/-- The view after the callback of a button. -/
def change (view : PostConditionsGridView) : Click → PostConditionsGridView
  | .toggle conditionId => view.toggle conditionId
  | .navigate direction => view.navigate direction

/-- The callback of the button. -/
def click (e : Editor) (click : Click) : Editor :=
  let view := change e.view click
  match view.buildComponents with
  | .error _ => { e with view := view }
  | .ok components => ⟨view, components⟩

/-- A sequence of clicks; `none` if a button was not there to be clicked. -/
def clickAll (e : Editor) : List Click → Option Editor
  | [] => some e
  | click :: clicks => if e.enabled click then (e.click click).clickAll clicks else none

/-- The ids that a click on Save sends. -/
def sent (e : Editor) : Option (List ℤ) :=
  if .saveButton ∈ e.shown then some e.view.selectedIds else none

end Editor

end MomBot.PostConditions
