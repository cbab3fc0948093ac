import Mathlib.Algebra.Order.BigOperators.Group.List
import MomBot.Cooperative.Handlers
import MomBot.MemberNotifications.Commands
import MomBot.MemberNotifications.StoreContract
import MomBot.Python.Join

/-!
# What the list and the detail command reply

`/member-notify-list` sends a line for every notification, `/member-notify-get` the columns of one.
Discord refuses a content of more than 2000 characters.  The commands that write the rows bound no
text, and the two that show them do not look at the length, so a reply that grows too long is
refused, and the handler sends the message for internal errors in its place.

`ListFits` and `DetailFits` count the characters from the columns alone.
-/

namespace MomBot.MemberNotifications

open Cooperative Coroutine Python

/-! ## Texts -/

/-- The number of characters that Discord takes in one message. -/
def contentLimit : ℕ := 2000

/-- `_OPS_ERROR_MSG`. -/
def opsErrorMsg : String := "An internal error occurred. Please try again later."

/-- The reply to a list without rows. -/
def noneConfigured : String := "No member notifications configured."

/-- A cadence as the table stores it. -/
def Cadence.text : Cadence → String
  | weekly => "weekly"
  | biweekly => "biweekly"
  | monthly => "monthly"
  | other text => text

/-- `enabled` as it is shown. -/
def statusText (enabled : Bool) : String :=
  if enabled then "enabled" else "disabled"

/-- The line of one row. -/
def listLine (row : StoredNotification) : String :=
  "**" ++ row.name ++ "** — <@" ++ row.targetDiscordId ++ "> | " ++
    String.ofList row.anchorDateUtc.isoformat ++ " " ++
    String.ofList (hourMinuteText row.fireTimeUtc) ++ " UTC | " ++ row.cadence.text ++ " | " ++
    statusText row.enabled

/-- What is sent for the rows. -/
def listReply (rows : List StoredNotification) : String :=
  if rows = [] then noneConfigured else "\n".intercalate (rows.map listLine)

/-- `detail`. -/
def detailText (row : StoredNotification) : String :=
  "**" ++ row.name ++ "**\n" ++ "Target: <@" ++ row.targetDiscordId ++ ">\n" ++
    "Anchor: " ++ String.ofList row.anchorDateUtc.isoformat ++ "\n" ++
    "Time: " ++ String.ofList (hourMinuteText row.fireTimeUtc) ++ " UTC\n" ++
    "Cadence: " ++ row.cadence.text ++ "\n" ++ "Status: " ++ statusText row.enabled ++ "\n" ++
    "Message: " ++ row.messageTemplate

/-- The reply about a name that no row has. -/
def notFoundText (name : String) : String :=
  "No notification named '" ++ name ++ "' found."

/-- What is sent for the row of a name. -/
def getReply (name : String) : Option StoredNotification → String
  | none => notFoundText name
  | some row => detailText row

/-! ## The commands -/

/-- What the handlers that read ask the service. -/
inductive ReplyOp where
  | listAll
  | get (name : String)

/-- Whatever asks the database may raise. -/
def ReplyOp.Res : ReplyOp → Type
  | listAll => Except Raised (List StoredNotification)
  | get _ => Except Raised (Option StoredNotification)

/-- Their one call of Discord. -/
inductive ReplyCall where
  | followupSend (content : String)
  deriving DecidableEq, Repr

/-- The text of a reply. -/
def ReplyCall.content : ReplyCall → String
  | followupSend content => content

/-- Everything that they ask. -/
abbrev replyEffects : Effects :=
  ⟨ReplyOp, ReplyOp.Res, ReplyCall, fun _ => Outcome⟩

/-- A handler that reads, or a part of one. -/
abbrev ReplyM := ExceptT Raised (Coroutine replyEffects)

/-- `service.list_all()`. -/
def listAll : ReplyM (List StoredNotification) :=
  ExceptT.mk (perform (E := replyEffects) .listAll)

/-- `service.get(name)`. -/
def getNamed (name : String) : ReplyM (Option StoredNotification) :=
  ExceptT.mk (perform (E := replyEffects) (.get name))

/-- `interaction.followup.send(content, ephemeral=True)`. -/
def followupSend (content : String) : ReplyM Unit :=
  ExceptT.mk (request (E := replyEffects) (.followupSend content))

/-- `member_notify_list`. -/
def memberNotifyList : ReplyM Unit :=
  catching Raised.isException
    (do
      let rows ← listAll
      followupSend (listReply rows))
    fun _ => followupSend opsErrorMsg

/-- `member_notify_get`. -/
def memberNotifyGet (name : String) : ReplyM Unit :=
  catching Raised.isException
    (do
      let row ← getNamed name
      followupSend (getReply name row))
    fun _ => followupSend opsErrorMsg

/-- `list_all`.  How names compare is up to the database. -/
def NotificationStore.listAll (s : NotificationStore) (le : String → String → Bool) :
    List StoredNotification :=
  s.rows.mergeSort fun row other => le row.name other.name

/-- The two queries leave the store as it is. -/
def replyMachine (le : String → String → Bool) : Machine replyEffects NotificationStore where
  exec
    | .listAll, s => (.ok (s.listAll le), s)
    | .get name, s => (.ok (s.get name), s)
  issue _ s := s
  complete _ _ s := s

/-! ## What is sent -/

/-- The contents that a handler has sent, in order. -/
def contents (trace : List (Exchange replyEffects)) : List String :=
  trace.map fun exchange => exchange.1.content

/-- Those that Discord took. -/
def delivered (trace : List (Exchange replyEffects)) : List String :=
  trace.filterMap fun exchange =>
    match exchange.2 with
    | .ok () => some exchange.1.content
    | .error _ => none

/-- Discord keeps to its limit. -/
def Limited (trace : List (Exchange replyEffects)) : Prop :=
  ∀ exchange ∈ trace, contentLimit < exchange.1.content.length → exchange.2 ≠ .ok ()

/-- All contents can be sent. -/
def Fits (trace : List (Exchange replyEffects)) : Prop :=
  ∀ content ∈ contents trace, content.length ≤ contentLimit

/-- Every row stands in one of the replies. -/
structure ListReplied (s : NotificationStore) (trace : List (Exchange replyEffects)) : Prop where
  fits : Fits trace
  mentions : ∃ content ∈ contents trace, ∀ row ∈ s.rows, (listLine row).toList <:+: content.toList

/-- One content is sent, and the error message if that fails. -/
inductive Answered (content : String) : List (Exchange replyEffects) → Prop
  | sent (outcome : Outcome) : Answered content [⟨.followupSend content, outcome⟩]
  | failed (exc : Raised) (outcome : Outcome) :
      Answered content [⟨.followupSend content, .error exc⟩, ⟨.followupSend opsErrorMsg, outcome⟩]

variable {le : String → String → Bool} {s s' : NotificationStore} {name content : String}
  {trace : List (Exchange replyEffects)} {result : Except Raised Unit}

theorem answered_of_runs
    (h : (catching Raised.isException (followupSend content)
      fun _ => followupSend opsErrorMsg).run.Runs (replyMachine le) s trace result s') :
    Answered content trace := by
  obtain ⟨outcome, rest, rfl, hrest⟩ := h
  cases outcome with
  | ok _ =>
      obtain ⟨rfl, -, -⟩ := hrest
      exact .sent (.ok ())
  | error exc =>
      have hhandle : (if exc.isException then followupSend opsErrorMsg
          else throw exc : ReplyM Unit).run.Runs (replyMachine le) s rest result s' := hrest
      split at hhandle
      next =>
        obtain ⟨outcome, last, rfl, rfl, -, -⟩ := hhandle
        exact .failed exc outcome
      next =>
        obtain ⟨rfl, -, -⟩ := hhandle
        exact .sent (.error exc)

theorem answered_memberNotifyList
    (h : memberNotifyList.run.Runs (replyMachine le) s trace result s') :
    Answered (listReply (s.listAll le)) trace :=
  answered_of_runs h

theorem answered_memberNotifyGet
    (h : (memberNotifyGet name).run.Runs (replyMachine le) s trace result s') :
    Answered (getReply name (s.get name)) trace :=
  answered_of_runs h

theorem Answered.mem_contents (h : Answered content trace) : content ∈ contents trace := by
  cases h with
  | sent outcome => exact List.mem_cons_self
  | failed exc outcome => exact List.mem_cons_self

theorem Answered.eq_or_eq (h : Answered content trace) :
    ∀ sent ∈ contents trace, sent = content ∨ sent = opsErrorMsg := by
  cases h with
  | sent outcome => simp [contents, ReplyCall.content]
  | failed exc outcome => simp [contents, ReplyCall.content]

/-- The error message is short, so it is the reply that decides. -/
theorem Answered.fits_iff (h : Answered content trace) :
    Fits trace ↔ content.length ≤ contentLimit := by
  constructor
  · intro hfits
    exact hfits content h.mem_contents
  · intro hshort sent hsent
    obtain rfl | rfl := h.eq_or_eq sent hsent
    · exact hshort
    · decide

/-- A reply that is too long does not arrive. -/
theorem Answered.delivered (h : Answered content trace) (hlimited : Limited trace)
    (hlong : contentLimit < content.length) : ∀ sent ∈ delivered trace, sent = opsErrorMsg := by
  intro sent hsent
  obtain ⟨exchange, hexchange, htaken⟩ := List.mem_filterMap.mp hsent
  have hmem : exchange.1.content ∈ contents trace := List.mem_map_of_mem hexchange
  have htook : exchange.2 = .ok () ∧ exchange.1.content = sent := by
    split at htaken
    next hok => exact ⟨hok, Option.some_inj.mp htaken⟩
    next => cases htaken
  obtain heq | heq := h.eq_or_eq _ hmem
  · exact absurd htook.1 (hlimited exchange hexchange (by rwa [heq]))
  · rw [← htook.2, heq]

/-! ## How long the texts are -/

/-- The characters of a line and of what separates it from the next, from the columns. -/
def listWidth (row : StoredNotification) : ℕ :=
  40 + row.name.length + row.targetDiscordId.length + row.cadence.text.length +
    (statusText row.enabled).length

/-- The characters of a detail, from the columns. -/
def detailWidth (row : StoredNotification) : ℕ :=
  80 + row.name.length + row.targetDiscordId.length + row.cadence.text.length +
    (statusText row.enabled).length + row.messageTemplate.length

theorem length_listLine (row : StoredNotification) :
    (listLine row).length + 1 = listWidth row := by
  unfold listLine listWidth
  simp only [String.length_append, String.length_ofList, length_isoformat,
    length_hourMinuteText, show "**".length = 2 from rfl, show "** — <@".length = 7 from rfl,
    show "> | ".length = 4 from rfl, show " ".length = 1 from rfl,
    show " UTC | ".length = 7 from rfl, show " | ".length = 3 from rfl]
  omega

theorem length_detailText (row : StoredNotification) :
    (detailText row).length = detailWidth row := by
  unfold detailText detailWidth
  simp only [String.length_append, String.length_ofList, length_isoformat,
    length_hourMinuteText, show "**".length = 2 from rfl, show "\n".length = 1 from rfl,
    show "**\n".length = 3 from rfl, show "Target: <@".length = 10 from rfl,
    show ">\n".length = 2 from rfl, show "Anchor: ".length = 8 from rfl,
    show "Time: ".length = 6 from rfl, show " UTC\n".length = 5 from rfl,
    show "Cadence: ".length = 9 from rfl, show "Status: ".length = 8 from rfl,
    show "Message: ".length = 9 from rfl]
  omega

theorem length_notFoundText (name : String) : (notFoundText name).length = 31 + name.length := by
  unfold notFoundText
  simp only [String.length_append,
    show "No notification named '".length = 23 from rfl, show "' found.".length = 8 from rfl]
  omega

theorem six_le_length_text {row : StoredNotification} (h : row.checks = true) :
    6 ≤ row.cadence.text.length := by
  have hother : row.cadence.isOther = false := by
    simpa using (Bool.and_eq_true_iff.mp h).2
  cases hcadence : row.cadence with
  | weekly => decide
  | biweekly => decide
  | monthly => decide
  | other text => simp [hcadence, Cadence.isOther] at hother

theorem seven_le_length_statusText (enabled : Bool) : 7 ≤ (statusText enabled).length := by
  cases enabled <;> decide

theorem length_listReply_le_iff (rows : List StoredNotification) :
    (listReply rows).length ≤ contentLimit ↔ (rows.map listWidth).sum ≤ contentLimit + 1 := by
  unfold listReply
  split
  next hempty =>
    subst hempty
    exact iff_of_true (by decide) (Nat.zero_le _)
  next hne =>
    have hjoin := length_intercalate "\n" (mt List.map_eq_nil_iff.mp hne : rows.map listLine ≠ [])
    have hwidths : ((rows.map listLine).map fun line => line.length + "\n".length) =
        rows.map listWidth := by
      rw [List.map_map]
      exact List.map_congr_left fun row _ => length_listLine row
    rw [hwidths] at hjoin
    rw [← hjoin]
    exact Nat.add_le_add_iff_right.symm

namespace NotificationStore

/-- The lines of all rows fit into one message; the last one is not followed by another. -/
def ListFits (s : NotificationStore) : Prop :=
  (s.rows.map listWidth).sum ≤ contentLimit + 1

/-- The columns of the row fit into one message, or the name that no row has does. -/
def DetailFits (s : NotificationStore) (name : String) : Prop :=
  match s.get name with
  | some row => detailWidth row ≤ contentLimit
  | none => 31 + name.length ≤ contentLimit

theorem mem_listAll {row : StoredNotification} : row ∈ s.listAll le ↔ row ∈ s.rows :=
  List.mem_mergeSort

theorem sum_listAll : ((s.listAll le).map listWidth).sum = (s.rows.map listWidth).sum :=
  ((List.mergeSort_perm s.rows _).map listWidth).sum_eq

/-- From 38 notifications on the list cannot be sent. -/
theorem not_listFits_of_length (accesses : List Access) (h : 38 ≤ (run accesses).rows.length) :
    ¬ (run accesses).ListFits := by
  have hwidth : ∀ width ∈ (run accesses).rows.map listWidth, 54 ≤ width := by
    intro width hmem
    obtain ⟨row, hrow, rfl⟩ := List.mem_map.mp hmem
    have htarget : row.targetDiscordId.length ≠ 0 := by
      intro hempty
      have hparses := targetsParse_run accesses row hrow
      rw [String.length_eq_zero_iff.mp hempty] at hparses
      exact absurd hparses (by decide)
    have hcadence := six_le_length_text ((run accesses).checks row hrow)
    have hstatus := seven_le_length_statusText row.enabled
    unfold listWidth
    omega
  have hsum := List.card_nsmul_le_sum _ 54 hwidth
  rw [List.length_map, Nat.nsmul_eq_mul] at hsum
  unfold ListFits contentLimit
  omega

end NotificationStore

/-- **The list.** -/
theorem listReplied_iff (h : memberNotifyList.run.Runs (replyMachine le) s trace result s') :
    ListReplied s trace ↔ s.ListFits := by
  have hanswered := answered_memberNotifyList h
  have hfits : Fits trace ↔ s.ListFits := by
    rw [hanswered.fits_iff, length_listReply_le_iff, NotificationStore.sum_listAll]
    rfl
  rw [← hfits]
  constructor
  · intro hreplied
    exact hreplied.fits
  · intro hfits
    refine ⟨hfits, listReply (s.listAll le), hanswered.mem_contents, fun row hrow => ?_⟩
    have hmem : row ∈ s.listAll le := NotificationStore.mem_listAll.mpr hrow
    rw [listReply, if_neg (List.ne_nil_of_mem hmem)]
    exact infix_intercalate "\n" (List.mem_map_of_mem hmem)

/-- **The detail.** -/
theorem fits_memberNotifyGet_iff
    (h : (memberNotifyGet name).run.Runs (replyMachine le) s trace result s') :
    Fits trace ↔ s.DetailFits name := by
  rw [(answered_memberNotifyGet h).fits_iff]
  unfold NotificationStore.DetailFits
  cases s.get name with
  | none => rw [getReply, length_notFoundText]
  | some row => rw [getReply, length_detailText]

/-- A list that does not fit is not seen by anyone. -/
theorem not_mentioned_of_not_listFits
    (h : memberNotifyList.run.Runs (replyMachine le) s trace result s') (hlimited : Limited trace)
    (hlong : ¬ s.ListFits) : ∀ sent ∈ delivered trace, sent = opsErrorMsg := by
  apply (answered_memberNotifyList h).delivered hlimited
  rw [← Nat.not_le, length_listReply_le_iff, NotificationStore.sum_listAll]
  exact hlong

/-! ## Stores of every size -/

/-- `/member-notify-add` for the member 7. -/
def added (id : ℕ) (name message : String) : NotificationStore.Access :=
  .create id 0 name "7" ⟨1, by decide⟩ .noon "weekly" message true

/-- The row of `added`. -/
def addedRow (id : ℕ) (name message : String) : StoredNotification :=
  ⟨⟨id, "7", ⟨1, by decide⟩, .noon, .ofText "weekly", message, true⟩, name, 0, 0⟩

theorem rows_perform_added {id : ℕ} {message : String}
    (hid : (id : ℤ) ∉ s.rows.map fun row => row.id)
    (hname : name ∉ s.rows.map StoredNotification.name) :
    (s.perform (added id name message)).2.rows = s.rows ++ [addedRow id name message] := by
  have hcadence : "weekly" ∈ validCadences := by decide
  have htarget : validateDiscordId "7" = .ok () := rfl
  have hfire : noSeconds .noon = true := by decide
  exact NotificationStore.rows_create hcadence htarget hfire hid hname

/-- A text of some length. -/
def letters (n : ℕ) : String := String.ofList (List.replicate n 'a')

theorem length_letters (n : ℕ) : (letters n).length = n := by
  rw [letters, String.length_ofList, List.length_replicate]

theorem letters_inj {m n : ℕ} (h : letters m = letters n) : m = n := by
  rw [← length_letters m, h, length_letters]

/-- As many notifications as one likes can be added, under the names `a`, `aa`, `aaa`. -/
def addedMany (n : ℕ) : List NotificationStore.Access :=
  (List.range n).map fun i => added i (letters (i + 1)) "Clan boss"

theorem rows_addedMany (n : ℕ) :
    (NotificationStore.run (addedMany n)).rows =
      (List.range n).map fun i => addedRow i (letters (i + 1)) "Clan boss" := by
  induction n with
  | zero => rfl
  | succ n ih =>
      have hfresh : ∀ row ∈ (NotificationStore.run (addedMany n)).rows,
          row.id ≠ n ∧ row.name ≠ letters (n + 1) := by
        intro row hrow
        rw [ih] at hrow
        obtain ⟨i, hi, rfl⟩ := List.mem_map.mp hrow
        have hne : i ≠ n := (List.mem_range.mp hi).ne
        refine ⟨fun hid => hne (Int.ofNat_inj.mp hid), fun hname => hne ?_⟩
        exact Nat.succ.inj (letters_inj hname)
      rw [addedMany, List.range_succ, List.map_append, List.map_append, ← ih, NotificationStore.run,
        List.foldl_append]
      apply rows_perform_added
      · intro hid
        obtain ⟨row, hrow, heq⟩ := List.mem_map.mp hid
        exact (hfresh row hrow).1 heq
      · intro hname
        obtain ⟨row, hrow, heq⟩ := List.mem_map.mp hname
        exact (hfresh row hrow).2 heq

/-- SQLite's own order of texts. -/
def binaryCollation (name other : String) : Bool := name ≤ other

/-- Discord takes the content. -/
def sentTrace (content : String) : List (Exchange replyEffects) :=
  [⟨.followupSend content, .ok ()⟩]

/-- Discord refuses the content, and takes the error message. -/
def refusedTrace (content : String) : List (Exchange replyEffects) :=
  [⟨.followupSend content, .error (.httpException 400)⟩, ⟨.followupSend opsErrorMsg, .ok ()⟩]

theorem limited_refusedTrace (content : String) : Limited (refusedTrace content) := by
  intro exchange hexchange hlong
  rcases List.mem_cons.mp hexchange with rfl | hlast
  · show (.error _ : Outcome) ≠ .ok ()
    simp
  · obtain rfl := List.mem_singleton.mp hlast
    exact absurd hlong (by decide)

/-- Discord may refuse a list that does not fit, and then the rows are not shown. -/
theorem exists_list_refused (hlong : ¬ s.ListFits) :
    ∃ listed result s', memberNotifyList.run.Runs (replyMachine le) s listed result s' ∧
      Limited listed ∧ ¬ ListReplied s listed := by
  have hruns : memberNotifyList.run.Runs (replyMachine le) s
      (refusedTrace (listReply (s.listAll le))) (.ok ()) s :=
    ⟨.error (.httpException 400), _, rfl, .ok (), _, rfl, rfl, rfl, rfl⟩
  exact ⟨_, _, _, hruns, limited_refusedTrace _, fun hreplied =>
    hlong ((listReplied_iff hruns).mp hreplied)⟩

theorem exists_get_refused (hlong : ¬ s.DetailFits name) :
    ∃ shown result s', (memberNotifyGet name).run.Runs (replyMachine le) s shown result s' ∧
      Limited shown ∧ ¬ Fits shown := by
  have hruns : (memberNotifyGet name).run.Runs (replyMachine le) s
      (refusedTrace (getReply name (s.get name))) (.ok ()) s :=
    ⟨.error (.httpException 400), _, rfl, .ok (), _, rfl, rfl, rfl, rfl⟩
  exact ⟨_, _, _, hruns, limited_refusedTrace _, fun hfits =>
    hlong ((fits_memberNotifyGet_iff hruns).mp hfits)⟩

/-- A store of `n` such rows. -/
abbrev storedMany (n : ℕ) : NotificationStore := .run (addedMany n)

/-- Nothing is left for a message of more than 1903 characters. -/
theorem detailFits_added_iff {message : String} :
    (NotificationStore.run [added 1 "gym" message]).DetailFits "gym" ↔ message.length ≤ 1903 := by
  have hrows : (NotificationStore.run [added 1 "gym" message]).rows = [addedRow 1 "gym" message] :=
    rows_perform_added List.not_mem_nil List.not_mem_nil
  have hget : (NotificationStore.run [added 1 "gym" message]).get "gym" =
      some (addedRow 1 "gym" message) := by
    rw [NotificationStore.get, hrows]
    rfl
  have hwidth : detailWidth (addedRow 1 "gym" message) = 97 + message.length := by
    show 80 + "gym".length + "7".length + "weekly".length + "enabled".length + message.length = _
    rw [show "gym".length = 3 from rfl, show "7".length = 1 from rfl,
      show "weekly".length = 6 from rfl, show "enabled".length = 7 from rfl]
  rw [NotificationStore.DetailFits, hget]
  show detailWidth (addedRow 1 "gym" message) ≤ 2000 ↔ _
  rw [hwidth]
  omega

/-! ## Both replies -/

/-- Both replies to what any calls of the service have left fit exactly if the texts are short
enough. -/
theorem replies_fit_iff {accesses : List NotificationStore.Access}
    {listed shown : List (Exchange replyEffects)} {result result' : Except Raised Unit}
    {s₁ s₂ : NotificationStore}
    (hlist : memberNotifyList.run.Runs (replyMachine le) (.run accesses) listed result s₁)
    (hget : (memberNotifyGet name).run.Runs (replyMachine le) (.run accesses) shown result' s₂) :
    (ListReplied (.run accesses) listed ↔ (NotificationStore.run accesses).ListFits) ∧
      (Fits shown ↔ (NotificationStore.run accesses).DetailFits name) :=
  ⟨listReplied_iff hlist, fits_memberNotifyGet_iff hget⟩

/-- The two commands after two notifications have been added. -/
theorem replies_fit_iff_two :
    (ListReplied (storedMany 2) (sentTrace (listReply ((storedMany 2).listAll binaryCollation))) ↔
        (storedMany 2).ListFits) ∧
      (Fits (sentTrace (getReply "aa" ((storedMany 2).get "aa"))) ↔
        (storedMany 2).DetailFits "aa") :=
  replies_fit_iff ⟨.ok (), _, rfl, rfl, rfl, rfl⟩ ⟨.ok (), _, rfl, rfl, rfl, rfl⟩

/-- The list of 38 notifications is refused, and so is the detail of a message that can be sent as
a DM. -/
theorem replies_outgrow_limit :
    (∃ listed result s', memberNotifyList.run.Runs (replyMachine binaryCollation) (storedMany 38)
        listed result s' ∧ Limited listed ∧ ¬ ListReplied (storedMany 38) listed) ∧
      ∃ shown result s', (memberNotifyGet "gym").run.Runs (replyMachine binaryCollation)
        (.run [added 1 "gym" (letters 1950)]) shown result s' ∧ Limited shown ∧ ¬ Fits shown := by
  constructor
  · apply exists_list_refused
    apply NotificationStore.not_listFits_of_length
    rw [rows_addedMany]
    simp
  · apply exists_get_refused
    rw [detailFits_added_iff, length_letters]
    omega

end MomBot.MemberNotifications
