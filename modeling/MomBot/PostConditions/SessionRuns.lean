import MomBot.PostConditions.Sessions

/-!
# Sessions side by side

Any number of commands and clicks share one client and the views of the open editors.  What a
stage means stays true while the others go on: replies are only added, and a view is what the
clicks so far have made of the view that was opened.

* `asked_of_leads`: every request carries the identity of the user it is made for, and a PUT carries
  what that user had saved with all his clicks before Save.
* `shown_of_leads`: a command shows its user's own preferences, from a reply that came after its
  start.
* `saved_of_leads`: the message after Save shows the clicks that were made while the PUT was under
  way, which the PUT did not carry.
-/

namespace MomBot.PostConditions

open Cooperative Coroutine Python

variable {payloads : Payloads} {c : SiegeWebClient} {t : PostStage} {old w w' : PostOffice}

/-! ## What stays -/

/-- The payload was the body of a reply that was neither a 429 nor refused. -/
def Received (exchanges : List Exchanged) (r : Request) (payload : JsonValue) : Prop :=
  ∃ e ∈ exchanges, e.request = r ∧ outcomeOf r e.reply = .ok payload

/-- The later editor is the earlier one after some more clicks. -/
def OpenEditor.Continues (editor later : OpenEditor) : Prop :=
  later.opened = editor.opened ∧ editor.clicks <+: later.clicks

/-- Replies and clicks are only added. -/
structure Grown (w w' : PostOffice) : Prop where
  exchanges : w.client.exchanges <:+ w'.client.exchanges
  editors : ∀ (n : ℕ) (editor : OpenEditor), w.editors[n]? = some editor →
    ∃ later, w'.editors[n]? = some later ∧ editor.Continues later

theorem OpenEditor.Continues.same {editor : OpenEditor} : editor.Continues editor :=
  ⟨rfl, List.prefix_rfl⟩

theorem OpenEditor.Continues.trans {editor later last : OpenEditor} (h : editor.Continues later)
    (hlast : later.Continues last) : editor.Continues last :=
  ⟨hlast.1.trans h.1, h.2.trans hlast.2⟩

theorem Grown.of_editors (hexchanges : w.client.exchanges <:+ w'.client.exchanges)
    (heditors : w'.editors = w.editors) : Grown w w' :=
  ⟨hexchanges, fun n editor h => ⟨editor, by rw [heditors, h], .same⟩⟩

theorem Grown.same : Grown w w := .of_editors List.suffix_rfl rfl

theorem Grown.trans (h : Grown old w) (hlater : Grown w w') : Grown old w' := by
  refine ⟨h.exchanges.trans hlater.exchanges, fun n editor hget => ?_⟩
  obtain ⟨later, hget', hcontinues⟩ := h.editors n editor hget
  obtain ⟨last, hget'', hcontinues'⟩ := hlater.editors n later hget'
  exact ⟨last, hget'', hcontinues.trans hcontinues'⟩

theorem exchanges_exec (o : ClientOp) (s : ClientState) :
    (ClientState.exec o s).2.exchanges = s.exchanges := by
  cases o <;> rfl

theorem grown_exec (o : PostOp) (w : PostOffice) : Grown w (PostOffice.exec o w).2 := by
  cases o with
  | client o => exact .of_editors (exchanges_exec o w.client ▸ List.suffix_rfl) rfl
  | readView n => exact .same
  | openView view =>
      refine ⟨List.suffix_rfl, fun n editor h => ⟨editor, ?_, .same⟩⟩
      exact List.getElem?_append_left (List.getElem?_eq_some_iff.mp h).1 ▸ h
  | changeView m click =>
      refine ⟨List.suffix_rfl, fun n editor h => ?_⟩
      refine ⟨if m = n then editor.click click else editor, ?_, ?_⟩
      · show (w.editors.modify m _)[n]? = _
        rw [List.getElem?_modify, h]
        split <;> rfl
      · split
        next => exact ⟨rfl, List.prefix_append _ _⟩
        next => exact .same

theorem grown_complete (call : PostCall) (answer : call.Ans) (w : PostOffice) :
    Grown w (PostOffice.complete call answer w) := by
  cases call with
  | defer | followupSend | sendMessage | editMessage => exact .same
  | client call =>
      refine .of_editors ?_ rfl
      cases call with
      | sleep | respond => exact List.suffix_rfl
      | acquireLock => cases answer <;> exact List.suffix_rfl
      | request r =>
          cases answer with
          | error exc => exact List.suffix_rfl
          | ok reply => exact List.suffix_cons _ _

/-! ## What a stage means -/

/-- The reply has come in since the record was `old`. -/
def SeenSince (old exchanges : List Exchanged) (r : Request) (reply : Reply) : Prop :=
  ∃ new, exchanges = new ++ old ∧ ∃ e ∈ new, e.request = r ∧ e.reply = reply

/-- A payload that came in since the record was `old`. -/
def ReceivedSince (old exchanges : List Exchanged) (r : Request) (payload : JsonValue) : Prop :=
  ∃ reply, SeenSince old exchanges r reply ∧ outcomeOf r reply = .ok payload

/-- The clicks go on from those that the editor had had. -/
def GoOnFrom (old : List OpenEditor) (n : ℕ) (clicks : List Click) : Prop :=
  ∀ editor, old[n]? = some editor → editor.clicks <+: clicks

/-- What Save has read is the view after the clicks up to then. -/
def Reads (old editors : List OpenEditor) (n : ℕ) (before : PostConditionsGridView)
    (rereading : Option (ℕ × PostConditionsGridView)) : Prop :=
  ∃ editor first rest, editors[n]? = some editor ∧ editor.clicks = first ++ rest ∧
    GoOnFrom old n first ∧ before = clicked editor.opened first ∧
    ∀ later, rereading = some (n, later) →
      ∃ during after, rest = during ++ after ∧ later = clicked editor.opened (first ++ during)

/-- `old` is the office as it was when the task had not begun. -/
structure PostStage.Means (c : SiegeWebClient) (old : PostOffice) (t : PostStage)
    (w : PostOffice) : Prop where
  seen : ∀ r reply, (r, reply) ∈ t.seen →
    SeenSince old.client.exchanges w.client.exchanges r reply
  cached : ∀ payload ∈ t.cached, Received w.client.exchanges (c.catalogRequest none) payload
  opened : ∀ n view, t.opened = some (n, view) →
    ∃ editor, w.editors[n]? = some editor ∧ editor.opened = view
  reading : ∀ n before, t.reading = some (n, before) →
    Reads old.editors w.editors n before t.rereading

theorem SeenSince.mono {old exchanges later : List Exchanged} {r : Request} {reply : Reply}
    (h : SeenSince old exchanges r reply) (hlater : exchanges <:+ later) :
    SeenSince old later r reply := by
  obtain ⟨new, rfl, e, he, hexchange⟩ := h
  obtain ⟨more, rfl⟩ := hlater
  have hsplit : more ++ (new ++ old) = more ++ new ++ old := (List.append_assoc more new old).symm
  exact ⟨more ++ new, hsplit, e, List.mem_append_right _ he, hexchange⟩

/-- The last exchange is one that has come in. -/
theorem SeenSince.last {old exchanges : List Exchanged} (h : old <:+ exchanges) (e : Exchanged) :
    SeenSince old (e :: exchanges) e.request e.reply := by
  obtain ⟨new, rfl⟩ := h
  exact ⟨e :: new, rfl, e, List.mem_cons_self, rfl, rfl⟩

theorem ReceivedSince.received {old exchanges : List Exchanged} {r : Request} {payload : JsonValue}
    (h : ReceivedSince old exchanges r payload) : Received exchanges r payload := by
  obtain ⟨reply, ⟨new, rfl, e, he, hrequest, rfl⟩, houtcome⟩ := h
  exact ⟨e, List.mem_append_left _ he, hrequest, houtcome⟩

theorem Received.mono {exchanges later : List Exchanged} {r : Request} {payload : JsonValue}
    (h : Received exchanges r payload) (hlater : exchanges <:+ later) :
    Received later r payload := by
  obtain ⟨e, he, hrequest, houtcome⟩ := h
  exact ⟨e, hlater.subset he, hrequest, houtcome⟩

theorem Reads.mono {before : List OpenEditor} {n : ℕ} {view : PostConditionsGridView}
    {rereading : Option (ℕ × PostConditionsGridView)} (h : Reads before w.editors n view rereading)
    (hgrown : Grown w w') : Reads before w'.editors n view rereading := by
  obtain ⟨editor, first, rest, hget, hclicks, hfirst, hview, hlater⟩ := h
  obtain ⟨later, hget', hopened, more, hmore⟩ := hgrown.editors n editor hget
  refine ⟨later, first, rest ++ more, hget', ?_, hfirst, ?_, fun view hview => ?_⟩
  · rw [← hmore, hclicks, List.append_assoc]
  · rw [hopened, hview]
  · obtain ⟨during, after, hrest, hview⟩ := hlater view hview
    exact ⟨during, after ++ more, by rw [hrest, List.append_assoc], by rw [hopened, hview]⟩

theorem PostStage.Means.mono (h : t.Means c old w) (hgrown : Grown w w') : t.Means c old w' where
  seen r reply hmem := (h.seen r reply hmem).mono hgrown.exchanges
  cached payload hmem := (h.cached payload hmem).mono hgrown.exchanges
  opened n view hopened := by
    obtain ⟨editor, hget, hview⟩ := h.opened n view hopened
    obtain ⟨later, hget', hlater, -⟩ := hgrown.editors n editor hget
    exact ⟨later, hget', hlater.trans hview⟩
  reading n before hreading := (h.reading n before hreading).mono hgrown

theorem PostStage.Means.fresh : PostStage.fresh.Means c old w where
  seen _ _ hmem := by cases hmem
  cached _ hmem := by cases hmem
  opened _ _ h := by cases h
  reading _ _ h := by cases h

theorem PostStage.Means.received {r : Request} {payload : JsonValue} (h : t.Means c old w)
    (hgot : t.Got r payload) :
    ReceivedSince old.client.exchanges w.client.exchanges r payload := by
  obtain ⟨reply, hmem, houtcome⟩ := hgot
  exact ⟨reply, h.seen r reply hmem, houtcome⟩

theorem PostStage.Means.receivedCatalog {payload : JsonValue} (h : t.Means c old w)
    (hcatalog : t.HasCatalog c payload) :
    Received w.client.exchanges (c.catalogRequest none) payload :=
  hcatalog.elim (h.cached payload) fun hgot => (h.received hgot).received

/-! ## What the tasks share -/

/-- The view was opened for the user, from a catalog and from his own preferences. -/
def OpenedFor (payloads : Payloads) (c : SiegeWebClient) (exchanges : List Exchanged) (user : User)
    (catalog prefs : List Condition) (view : PostConditionsGridView) : Prop :=
  ∃ catalogPayload prefsPayload, Received exchanges (c.catalogRequest none) catalogPayload ∧
    Received exchanges (c.getPreferencesRequest user.discordId user.name) prefsPayload ∧
    payloads.conditions catalogPayload = .ok catalog ∧
    payloads.conditions prefsPayload = .ok prefs ∧
    view = .create catalog (prefs.map Condition.id) user.discordId user.name

/-- The view is what the clicks have made of it. -/
structure OpenEditor.Sound (payloads : Payloads) (c : SiegeWebClient) (exchanges : List Exchanged)
    (editor : OpenEditor) : Prop where
  view : editor.view = clicked editor.opened editor.clicks
  opened : ∃ user catalog prefs, OpenedFor payloads c exchanges user catalog prefs editor.opened

/-- `old i` is the office as it was when task `i` had not begun. -/
structure Shares {ι : Type} (payloads : Payloads) (c : SiegeWebClient) (old : ι → PostOffice)
    (stage : ι → PostStage) (w : PostOffice) : Prop where
  cache : ∀ ts payload, w.client.catalogCache none = some (ts, payload) →
    Received w.client.exchanges (c.catalogRequest none) payload
  editors : ∀ (n : ℕ) (editor : OpenEditor), w.editors[n]? = some editor →
    editor.Sound payloads c w.client.exchanges
  grown : ∀ i, Grown (old i) w
  tasks : ∀ i, (stage i).Means c (old i) w

theorem OpenEditor.Sound.mono {exchanges later : List Exchanged} {editor : OpenEditor}
    (h : editor.Sound payloads c exchanges) (hlater : exchanges <:+ later) :
    editor.Sound payloads c later := by
  obtain ⟨user, catalog, prefs, catalogPayload, prefsPayload, hcatalog, hprefs, hview⟩ := h.opened
  exact ⟨h.view, user, catalog, prefs, catalogPayload, prefsPayload, hcatalog.mono hlater,
    hprefs.mono hlater, hview⟩

theorem OpenEditor.Sound.click {exchanges : List Exchanged} {editor : OpenEditor}
    (h : editor.Sound payloads c exchanges) (click : Click) :
    (editor.click click).Sound payloads c exchanges where
  view := by
    show Editor.change editor.view click = clicked editor.opened (editor.clicks ++ [click])
    rw [h.view, clicked, clicked, List.foldl_append]
    rfl
  opened := h.opened

/-! ### Step lemmas -/

section Steps

variable {ι : Type} {offices : ι → PostOffice} {stage : ι → PostStage} {i : ι} {x : PostTask}

theorem mayCache_of_mayAsk {o : ClientOp} (h : MayAsk payloads c x t (.client o)) :
    MayCache c t o := by
  cases x <;> exact h

/-- What was found in the cache had been received. -/
theorem PostStage.Means.afterClientOp (h : t.Means c old w) (o : ClientOp) (hok : MayCache c t o)
    (hcache : ∀ ts payload, w.client.catalogCache none = some (ts, payload) →
      Received w.client.exchanges (c.catalogRequest none) payload) :
    (t.afterClientOp o (ClientState.exec o w.client).1).Means c old w := by
  cases o with
  | catalogCacheSet | monotonic | releaseLock => exact h
  | catalogCacheGet level =>
      obtain rfl : level = none := hok
      show (t.afterClientOp (.catalogCacheGet none) (w.client.catalogCache none)).Means c old w
      match hentry : w.client.catalogCache none with
      | none => exact h
      | some (ts, payload) =>
          refine ⟨h.seen, fun other hmem => ?_, h.opened, h.reading⟩
          rcases List.mem_cons.mp hmem with rfl | hmem
          · exact hcache ts other hentry
          · exact h.cached other hmem

/-- The first time Save reads the view, and the second time. -/
theorem PostStage.Means.read (h : t.Means c old w) (hgrown : Grown old w) {n : ℕ}
    {editor : OpenEditor} (heditor : w.editors[n]? = some editor)
    (hview : editor.view = clicked editor.opened editor.clicks) :
    (t.read n editor.view).Means c old w := by
  unfold PostStage.read
  split
  next =>
    refine ⟨h.seen, h.cached, h.opened, fun m before hbefore => ?_⟩
    obtain ⟨rfl, rfl⟩ := Prod.mk.inj (Option.some.inj hbefore)
    have hfirst : GoOnFrom old.editors n editor.clicks := by
      intro earlier hearlier
      obtain ⟨later, hget, -, hclicks⟩ := hgrown.editors n earlier hearlier
      obtain rfl : editor = later := Option.some.inj (heditor.symm.trans hget)
      exact hclicks
    refine ⟨editor, editor.clicks, [], heditor, (List.append_nil _).symm, hfirst, hview,
      fun _ hlater => ?_⟩
    cases hlater
  next =>
    refine ⟨h.seen, h.cached, h.opened, fun m before hbefore => ?_⟩
    obtain ⟨other, first, rest, hget, hclicks, hfirst, hbefore, -⟩ := h.reading m before hbefore
    refine ⟨other, first, rest, hget, hclicks, hfirst, hbefore, fun later hlater => ?_⟩
    -- the second reading is of all the clicks there are
    obtain ⟨rfl, rfl⟩ := Prod.mk.inj (Option.some.inj hlater)
    obtain rfl : editor = other := Option.some.inj (heditor.symm.trans hget)
    exact ⟨rest, [], (List.append_nil _).symm, by rw [← hclicks, hview]⟩

theorem PostStage.Means.exec (h : t.Means c old w) (hgrown : Grown old w)
    (hshares : Shares payloads c offices stage w) (o : PostOp) (hok : MayAsk payloads c x t o) :
    (t.afterOp o (PostOffice.exec o w).1).Means c old (PostOffice.exec o w).2 := by
  cases o with
  | client o =>
      have hafter := h.afterClientOp o (mayCache_of_mayAsk hok) hshares.cache
      exact hafter.mono (grown_exec (.client o) w)
  | changeView n click => exact h.mono (grown_exec (.changeView n click) w)
  | openView view =>
      have hmono := h.mono (grown_exec (.openView view) w)
      refine ⟨hmono.seen, hmono.cached, fun n opened hopened => ?_, hmono.reading⟩
      obtain ⟨rfl, rfl⟩ := Prod.mk.inj (Option.some.inj hopened)
      refine ⟨⟨view, [], view⟩, ?_, rfl⟩
      show (w.editors ++ [_])[w.editors.length]? = _
      simp
  | readView n =>
      show (t.afterOp (.readView n) (w.editors[n]?.map OpenEditor.view)).Means c old w
      cases heditor : w.editors[n]? with
      | none => exact h
      | some editor => exact h.read hgrown heditor (hshares.editors n editor heditor).view

/-- An answer is in the stage as it is in the record. -/
theorem PostStage.Means.complete (h : t.Means c old w) (hgrown : Grown old w) (call : PostCall)
    (answer : call.Ans) :
    (t.afterCall call answer).Means c old (PostOffice.complete call answer w) := by
  have hmono := h.mono (grown_complete call answer w)
  cases call with
  | defer | followupSend | sendMessage | editMessage => exact hmono
  | client call =>
      cases call with
      | sleep | respond | acquireLock => exact hmono
      | request r =>
          cases answer with
          | error exc => exact hmono
          | ok reply =>
              refine ⟨fun r' reply' hmem => ?_, hmono.cached, hmono.opened, hmono.reading⟩
              rcases List.mem_cons.mp hmem with heq | hmem
              · obtain ⟨rfl, rfl⟩ := Prod.mk.inj heq
                exact .last hgrown.exchanges _
              · exact hmono.seen r' reply' hmem

/-- What is cached is what the task has received. -/
theorem Shares.cache_exec (h : Shares payloads c offices stage w) (ht : t.Means c old w)
    (o : PostOp) (hok : MayAsk payloads c x t o) : ∀ ts payload,
      (PostOffice.exec o w).2.client.catalogCache none = some (ts, payload) →
      Received w.client.exchanges (c.catalogRequest none) payload := by
  cases o with
  | openView | readView | changeView => exact h.cache
  | client o =>
      have hcache := mayCache_of_mayAsk hok
      cases o with
      | catalogCacheGet | monotonic | releaseLock => exact h.cache
      | catalogCacheSet level ts payload =>
          obtain ⟨rfl, hgot⟩ := hcache
          intro ts' payload' hentry
          have hset : some (ts, payload) = some (ts', payload') := by
            simpa [PostOffice.exec, ClientState.exec] using hentry
          obtain ⟨-, rfl⟩ := Prod.mk.inj (Option.some.inj hset)
          exact (ht.received hgot).received

theorem Shares.editors_exec (h : Shares payloads c offices stage w) (ht : t.Means c old w)
    (o : PostOp) (hok : MayAsk payloads c x t o) : ∀ (n : ℕ) (editor : OpenEditor),
      (PostOffice.exec o w).2.editors[n]? = some editor →
      editor.Sound payloads c w.client.exchanges := by
  intro n editor heditor
  cases o with
  | client | readView => exact h.editors n editor heditor
  | changeView m click =>
      have hmodify : (w.editors.modify m fun editor => editor.click click)[n]? = some editor :=
        heditor
      rw [List.getElem?_modify, Option.map_eq_map, Option.map_eq_some_iff] at hmodify
      obtain ⟨before, hbefore, rfl⟩ := hmodify
      split
      next => exact (h.editors n before hbefore).click click
      next => exact h.editors n before hbefore
  | openView view =>
      have happend : (w.editors ++ [(⟨view, [], view⟩ : OpenEditor)])[n]? = some editor := heditor
      rcases List.mem_append.mp (List.mem_of_getElem? happend) with hmem | hmem
      · obtain ⟨m, hm⟩ := List.mem_iff_getElem?.mp hmem
        exact h.editors m editor hm
      · obtain rfl := List.mem_singleton.mp hmem
        refine ⟨rfl, ?_⟩
        cases x with
        | catalog | get | click | save | cancel => cases hok
        | set user =>
            obtain ⟨catalogPayload, prefsPayload, hcatalog, hprefs, catalog, prefs, hread, hread',
              rfl⟩ := hok
            exact ⟨user, catalog, prefs, catalogPayload, prefsPayload, ht.receivedCatalog hcatalog,
              (ht.received hprefs).received, hread, hread', rfl⟩

/-- Only the clock goes on. -/
theorem Shares.elsewhere {now : ℚ} (h : Shares payloads c offices stage w) :
    Shares payloads c offices stage { w with client := { w.client with now := now } } := by
  have hgrown : Grown w { w with client := { w.client with now := now } } :=
    .of_editors List.suffix_rfl rfl
  exact ⟨h.cache, h.editors, fun j => (h.grown j).trans hgrown, fun j => (h.tasks j).mono hgrown⟩

variable [DecidableEq ι]

theorem Shares.set (h : Shares payloads c offices stage w) (i : ι) (ht : t.Means c (offices i) w) :
    Shares payloads c offices (Function.update stage i t) w := by
  refine ⟨h.cache, h.editors, h.grown, fun j => ?_⟩
  by_cases hj : j = i
  · subst hj
    rwa [Function.update_self]
  · rw [Function.update_of_ne hj]
    exact h.tasks j

/-- **Step lemma.** -/
theorem Shares.exec (h : Shares payloads c offices stage w) (o : PostOp)
    (hok : MayAsk payloads c x (stage i) o) :
    Shares payloads c offices
      (Function.update stage i ((stage i).afterOp o (PostOffice.exec o w).1))
      (PostOffice.exec o w).2 := by
  have hgrown := grown_exec o w
  have hbase : Shares payloads c offices stage (PostOffice.exec o w).2 := {
    cache := fun ts payload hentry =>
      (h.cache_exec (h.tasks i) o hok ts payload hentry).mono hgrown.exchanges
    editors := fun n editor heditor =>
      (h.editors_exec (h.tasks i) o hok n editor heditor).mono hgrown.exchanges
    grown := fun j => (h.grown j).trans hgrown
    tasks := fun j => (h.tasks j).mono hgrown }
  exact hbase.set i ((h.tasks i).exec (h.grown i) h o hok)

/-- An answer changes neither the cache nor the editors. -/
theorem complete_keeps (call : PostCall) (answer : call.Ans) (w : PostOffice) :
    (PostOffice.complete call answer w).client.catalogCache = w.client.catalogCache ∧
      (PostOffice.complete call answer w).editors = w.editors := by
  cases call with
  | defer | followupSend | sendMessage | editMessage => exact ⟨rfl, rfl⟩
  | client call =>
      cases call with
      | sleep | respond => exact ⟨rfl, rfl⟩
      | acquireLock | request => cases answer <;> exact ⟨rfl, rfl⟩

theorem Shares.complete (h : Shares payloads c offices stage w) (call : PostCall)
    (answer : call.Ans) :
    Shares payloads c offices (Function.update stage i ((stage i).afterCall call answer))
      (PostOffice.complete call answer w) := by
  have hgrown := grown_complete call answer w
  obtain ⟨hcache, heditors⟩ := complete_keeps call answer w
  have hbase : Shares payloads c offices stage (PostOffice.complete call answer w) := {
    cache := fun ts payload hentry => (h.cache ts payload (hcache ▸ hentry)).mono hgrown.exchanges
    editors := fun n editor heditor =>
      (h.editors n editor (heditors ▸ heditor)).mono hgrown.exchanges
    grown := fun j => (h.grown j).trans hgrown
    tasks := fun j => (h.tasks j).mono hgrown }
  exact hbase.set i ((h.tasks i).complete (h.grown i) call answer)

/-- A task that has not begun may be looked at from now on. -/
theorem Shares.rebase (h : Shares payloads c offices stage w) (hrest : stage i = .fresh) :
    Shares payloads c (Function.update offices i w) stage w := by
  refine ⟨h.cache, h.editors, fun j => ?_, fun j => ?_⟩
  all_goals by_cases hj : j = i
  · subst hj
    rw [Function.update_self]
    exact .same
  · rw [Function.update_of_ne hj]
    exact h.grown j
  · subst hj
    rw [hrest]
    exact .fresh
  · rw [Function.update_of_ne hj]
    exact h.tasks j

end Steps

/-! ## Runs -/

section Runs

variable {ι : Type} {i : ι} {now : ℚ}
  {c₁ c₂ : Config postEffects PostOffice ι PostTask (Except PostError Unit)}
  {allowed : Config postEffects PostOffice ι PostTask (Except PostError Unit) →
    Event postEffects PostOffice ι PostTask → Prop}

theorem shares_init (payloads : Payloads) (c : SiegeWebClient) (now : ℚ) :
    Shares payloads c (fun _ : ι => .init now) (fun _ => (posting payloads c).rest)
      (.init now) where
  cache _ _ h := by cases h
  editors _ _ h := by cases h
  grown _ := .same
  tasks _ := .fresh

variable [DecidableEq ι]

theorem posting_sound (payloads : Payloads) (c : SiegeWebClient) (offices : ι → PostOffice) :
    (posting payloads c).Sound Ends (Shares payloads c offices) (posts payloads c) allowed where
  program := program_follows
  spawn hgoverns _ _ _ := hgoverns.holds.set _ .fresh
  op hgoverns _ _ hok := ⟨trivial, hgoverns.holds.exec _ hok⟩
  issue {mode config i x call next} hgoverns _ _ _ := hgoverns.holds.set i (hgoverns.holds.tasks i)
  answer {mode config i x call next before reply} hgoverns _ _ hmode _ := by
    obtain rfl : mode i = before := hmode
    exact hgoverns.holds.complete call (reply call)
  finish hgoverns _ _ _ := hgoverns.holds.set _ .fresh
  outside hgoverns _ hworld := by
    obtain ⟨now, -, rfl⟩ := hworld
    exact hgoverns.holds.elsewhere

/-- **Run lemma.**  A call that is under way is one that the stage of its task permits, and the
stage tells what the task has found out since it began. -/
theorem awaited_of_leads (hreach : (posts payloads c).Reachable allowed (.init now) c₁)
    (hidle : c₁.task i = .idle) (hleads : (posts payloads c).Leads allowed c₁ c₂) {x : PostTask}
    {call : PostCall} {next : call.Ans → Coroutine postEffects (Except PostError Unit)}
    (htask : c₂.task i = .awaiting x call next) :
    ∃ stage : PostStage, stage.Means c c₁.shared c₂.shared ∧
      MayAwait payloads c x stage call ∧
      ∀ (n : ℕ) (editor : OpenEditor), c₂.shared.editors[n]? = some editor →
        editor.Sound payloads c c₂.shared.client.exchanges := by
  obtain ⟨stage₁, hgoverns₁⟩ := Protocol.governed (posting_sound payloads c _)
    (shares_init payloads c now) hreach
  have hrest : stage₁ i = .fresh := by
    have hfits := hgoverns₁.fits i
    rw [hidle] at hfits
    exact hfits
  have hgoverns : (posting payloads c).Governs Ends _ stage₁ c₁ :=
    ⟨hgoverns₁.fits, hgoverns₁.holds.rebase hrest⟩
  obtain ⟨stage, hgoverns₂⟩ := hgoverns.run (posting_sound payloads c _) hleads
  obtain ⟨before, hmode, hok⟩ := hgoverns₂.atCall htask
  obtain rfl : stage i = before := hmode
  have hmeans := hgoverns₂.holds.tasks i
  rw [Function.update_self] at hmeans
  exact ⟨stage i, hmeans, hok, hgoverns₂.holds.editors⟩

/-! ### Requests -/

/-- What is sent for an editor after the clicks `first`: the ids that were saved and are listed,
with those flipped that were clicked an odd number of times. -/
def Carries (payloads : Payloads) (c : SiegeWebClient) (exchanges : List Exchanged)
    (opened : PostConditionsGridView) (user : User) (first : List Click) (ids : List ℤ) : Prop :=
  ∃ catalog prefs, OpenedFor payloads c exchanges user catalog prefs opened ∧ ids.Nodup ∧
    ∀ id, id ∈ ids ↔
      Xor (id ∈ catalog.map Condition.id ∧ id ∈ prefs.map Condition.id) (Odd (toggles id first))

/-- The request is one for the user of the task, or of the editor.  A PUT carries all the clicks
that there were in `old`. -/
def AskedFor (payloads : Payloads) (c : SiegeWebClient) (old w : PostOffice) :
    PostTask → Request → Prop
  | .catalog, r => r = c.catalogRequest none
  | .get user, r => r = c.getPreferencesRequest user.discordId user.name
  | .set user, r =>
      r = c.catalogRequest none ∨ r = c.getPreferencesRequest user.discordId user.name
  | .save n, r => ∃ editor user first ids, w.editors[n]? = some editor ∧ first <+: editor.clicks ∧
      GoOnFrom old.editors n first ∧
      Carries payloads c w.client.exchanges editor.opened user first ids ∧
      r = c.setPreferencesRequest user.discordId user.name ids
  | .click _ _, _ | .cancel, _ => False

/-- What the clicks have selected is what is sent, for the user of the editor. -/
theorem OpenEditor.Sound.carries {exchanges : List Exchanged} {editor : OpenEditor}
    (h : editor.Sound payloads c exchanges) (first : List Click) :
    ∃ user : User, (clicked editor.opened first).discordId = user.discordId ∧
      (clicked editor.opened first).discordUsername = user.name ∧
      Carries payloads c exchanges editor.opened user first
        (clicked editor.opened first).selectedIds := by
  obtain ⟨user, catalog, prefs, hopened⟩ := h.opened
  obtain ⟨hid, hname⟩ := user_clicked editor.opened first
  have hview : editor.opened =
      .create catalog (prefs.map Condition.id) user.discordId user.name := by
    obtain ⟨_, _, -, -, -, -, hview⟩ := hopened
    exact hview
  refine ⟨user, by rw [hid, hview]; rfl, by rw [hname, hview]; rfl, catalog, prefs, hopened,
    PostConditionsGridView.nodup_selectedIds, fun id => ?_⟩
  rw [mem_selectedIds_clicked, hview, mem_selectedIds_create]

theorem asked_of_leads (hreach : (posts payloads c).Reachable allowed (.init now) c₁)
    (hidle : c₁.task i = .idle) (hleads : (posts payloads c).Leads allowed c₁ c₂) {x : PostTask}
    {r : Request} {next : Except Raised Reply → Coroutine postEffects (Except PostError Unit)}
    (htask : c₂.task i = .awaiting x (.client (.request r)) next) :
    AskedFor payloads c c₁.shared c₂.shared x r := by
  obtain ⟨stage, hmeans, hok, heditors⟩ := awaited_of_leads hreach hidle hleads htask
  cases x with
  | catalog | get | set => exact hok
  | click | cancel => exact hok
  | save n =>
      obtain ⟨before, hreading, rfl⟩ := hok
      obtain ⟨editor, first, rest, hget, hclicks, hfirst, hbefore, -⟩ :=
        hmeans.reading n before hreading
      obtain ⟨user, hid, hname, hcarries⟩ := (heditors n editor hget).carries first
      subst hbefore
      exact ⟨editor, user, first, _, hget, ⟨rest, hclicks.symm⟩, hfirst, hcarries,
        by rw [hid, hname]⟩

/-! ### What is shown -/

/-- The text of a handler; an account is said to be unknown only after a 404 to one of the task's
own requests that came in since the record was `old`. -/
def RefusedSince (old exchanges : List Exchanged) (asks : Request → Prop)
    (shown : Shown) : Prop :=
  shown = .text opsErrorMsg ∨ shown = .text notRegisteredMsg ∧
    ∃ r reply, asks r ∧ SeenSince old exchanges r reply ∧ reply.status = 404

/-- What a command shows: its user's own preferences, from a reply that came in since the record was
`old`, and a catalog that was received at some time. -/
def ShownFor (payloads : Payloads) (c : SiegeWebClient) (old : List Exchanged) (w : PostOffice) :
    PostTask → Shown → Prop
  | .catalog, shown => shown = .text opsErrorMsg ∨
      ∃ payload, Received w.client.exchanges (c.catalogRequest none) payload ∧
        ShownAs payloads "Post-condition catalog" noConditionsMsg payload shown
  | .get user, shown =>
      RefusedSince old w.client.exchanges
        (· = c.getPreferencesRequest user.discordId user.name) shown ∨
      ∃ payload, ReceivedSince old w.client.exchanges
          (c.getPreferencesRequest user.discordId user.name) payload ∧
        ShownAs payloads "Your post-condition preferences" noPreferencesMsg payload shown
  | .set user, shown =>
      RefusedSince old w.client.exchanges
        (fun r => r = c.catalogRequest none ∨
          r = c.getPreferencesRequest user.discordId user.name) shown ∨
      ∃ n editor components catalogPayload prefsPayload, w.editors[n]? = some editor ∧
        Received w.client.exchanges (c.catalogRequest none) catalogPayload ∧
        ReceivedSince old w.client.exchanges
          (c.getPreferencesRequest user.discordId user.name) prefsPayload ∧
        Opens payloads user catalogPayload prefsPayload editor.opened ∧
        editor.opened.buildComponents = .ok components ∧
        shown = .editor n editor.opened.buildEmbedForCurrentPage components
  | .click _ _, _ | .save _, _ | .cancel, _ => False

theorem Refused.since {x : PostTask} {shown : Shown} {old exchanges : List Exchanged}
    (h : Refused c x t shown)
    (hseen : ∀ r reply, (r, reply) ∈ t.seen → SeenSince old exchanges r reply) :
    RefusedSince old exchanges (MaySend c x t) shown := by
  refine h.imp_right fun h => ?_
  obtain ⟨hshown, r, reply, hr, hmem, hstatus⟩ := h
  exact ⟨hshown, r, reply, hr, hseen r reply hmem, hstatus⟩

theorem shown_of_leads (hreach : (posts payloads c).Reachable allowed (.init now) c₁)
    (hidle : c₁.task i = .idle) (hleads : (posts payloads c).Leads allowed c₁ c₂) {x : PostTask}
    {shown : Shown} {next : Outcome → Coroutine postEffects (Except PostError Unit)}
    (htask : c₂.task i = .awaiting x (.followupSend shown) next) :
    ShownFor payloads c c₁.shared.client.exchanges c₂.shared x shown := by
  obtain ⟨stage, hmeans, hok, -⟩ := awaited_of_leads hreach hidle hleads htask
  cases x with
  | click | save | cancel => exact hok
  | catalog =>
      refine hok.imp_right fun h => ?_
      obtain ⟨payload, hcatalog, hshown⟩ := h
      exact ⟨payload, hmeans.receivedCatalog hcatalog, hshown⟩
  | get user =>
      refine hok.imp (fun h => h.since hmeans.seen) fun h => ?_
      obtain ⟨payload, hprefs, hshown⟩ := h
      exact ⟨payload, hmeans.received hprefs, hshown⟩
  | set user =>
      refine hok.imp (fun h => h.since hmeans.seen) fun h => ?_
      obtain ⟨n, view, components, catalogPayload, prefsPayload, hopened, hcatalog, hprefs, hopens,
        hbuild, hshown⟩ := h
      obtain ⟨editor, hget, rfl⟩ := hmeans.opened n view hopened
      exact ⟨n, editor, components, catalogPayload, prefsPayload, hget,
        hmeans.receivedCatalog hcatalog, hmeans.received hprefs, hopens, hbuild, hshown⟩

/-! ### The message after Save -/

/-- The embed lists the ids that were sent, with those flipped that were clicked an odd number of
times while the PUT was under way. -/
def ShowsSent (opened : PostConditionsGridView) (sent : List ℤ) (during : List Click)
    (embed : Embed) : Prop :=
  ∃ listed : Finset ℤ,
    embed = { buildGroupedEmbed "Selected preferences" opened.summaryPages listed with
      title := "Preferences saved" } ∧
    (∀ id, id ∈ listed ↔ OnPage opened.pages id ∧ Xor (id ∈ sent) (Odd (toggles id during))) ∧
    ((∀ id, OnPage opened.pages id → (id ∈ listed ↔ id ∈ sent)) ↔
      ∀ id, OnPage opened.pages id → Even (toggles id during))

theorem showsSent_savedEmbed (opened : PostConditionsGridView) (first during : List Click) :
    ShowsSent opened (clicked opened first).selectedIds during
      (clicked opened (first ++ during)).savedEmbed := by
  have hpages : (clicked opened (first ++ during)).pages = opened.pages := pages_clicked _
  have hlisted : ∀ id, id ∈ flatSelected (flatToMetaKeyed
      (clicked opened (first ++ during)).selections (clicked opened (first ++ during)).pages) ↔
      OnPage opened.pages id ∧
        Xor (id ∈ (clicked opened first).selectedIds) (Odd (toggles id during)) := by
    intro id
    have hsplit : clicked opened (first ++ during) = clicked (clicked opened first) during :=
      List.foldl_append
    rw [mem_flatSelected_flatToMetaKeyed, hpages, ← PostConditionsGridView.mem_selectedIds, hsplit,
      mem_selectedIds_clicked, and_comm]
  refine ⟨_, ?_, hlisted, forall₂_congr fun id hid => ?_⟩
  · simp only [PostConditionsGridView.savedEmbed, PostConditionsGridView.buildEmbedForCurrentPage,
      PostConditionsGridView.summaryPages, hpages]
    rfl
  · rw [hlisted, and_iff_right hid, ← Nat.not_odd_iff_even]
    unfold Xor
    tauto

/-- The PUT carried what the clicks `before` had made of the editor, all that there were in `old`
among them, and was not refused; the embed takes in the clicks `during` as well. -/
def SavedFor (payloads : Payloads) (c : SiegeWebClient) (old w : PostOffice) (n : ℕ)
    (embed : Embed) : Prop :=
  ∃ editor user before during after sent payload, w.editors[n]? = some editor ∧
    editor.clicks = before ++ during ++ after ∧ GoOnFrom old.editors n before ∧
    Carries payloads c w.client.exchanges editor.opened user before sent ∧
    ReceivedSince old.client.exchanges w.client.exchanges
      (c.setPreferencesRequest user.discordId user.name sent) payload ∧
    ShowsSent editor.opened sent during embed

theorem saved_of_leads (hreach : (posts payloads c).Reachable allowed (.init now) c₁)
    (hidle : c₁.task i = .idle) (hleads : (posts payloads c).Leads allowed c₁ c₂) {n : ℕ}
    {embed : Embed} {next : Outcome → Coroutine postEffects (Except PostError Unit)}
    (htask : c₂.task i = .awaiting (.save n) (.editMessage (.embed embed)) next) :
    SavedFor payloads c c₁.shared c₂.shared n embed := by
  obtain ⟨stage, hmeans, hok, heditors⟩ := awaited_of_leads hreach hidle hleads htask
  obtain ⟨view, later, payload, hreading, hrereading, hgot, hshown⟩ := hok
  obtain ⟨editor, before, rest, hget, hclicks, hbefore, rfl, hlater⟩ :=
    hmeans.reading n view hreading
  obtain ⟨during, after, rfl, rfl⟩ := hlater later hrereading
  obtain ⟨user, hid, hname, hcarries⟩ := (heditors n editor hget).carries before
  have hreceived := hmeans.received hgot
  rw [hid, hname] at hreceived
  obtain rfl : embed = (clicked editor.opened (before ++ during)).savedEmbed := by
    injection hshown
  exact ⟨editor, user, before, during, after, _, payload, hget, by rw [hclicks, List.append_assoc],
    hbefore, hcarries, hreceived, showsSent_savedEmbed editor.opened before during⟩

end Runs

/-! ## A session -/

/-- A condition, from its object in a payload. -/
def conditionOf : JsonValue → Except Raised Condition
  | .obj members =>
      match members.lookup "id", members.lookup "condition_type", members.lookup "description" with
      | some (.int id), some (.str conditionType), some (.str description) =>
          .ok ⟨id, conditionType, description⟩
      | _, _, _ => .error .unexpected
  | _ => .error .unexpected

/-- Payloads as siege-web sends them. -/
def plainPayloads : Payloads where
  isEmpty
    | .null | .bool false | .int 0 | .str "" | .arr [] | .obj [] => true
    | _ => false
  conditions
    | .arr values => values.mapM conditionOf
    | _ => .error .unexpected

/-- One condition, which is listed and saved. -/
def hpPayload : JsonValue :=
  .arr [.obj [("id", .int 1), ("condition_type", .str "role"),
    ("description", .str "Only HP Champions can be used.")]]

/-- Every request is answered by `hpPayload`, and Discord takes every message. -/
def hpReplies : (call : PostCall) → call.Ans
  | .client (.request _) => (.ok ⟨200, none, hpPayload⟩ : Except Raised Reply)
  | .client .acquireLock | .client (.sleep _) | .client (.respond _) | .defer | .followupSend _
  | .sendMessage _ | .editMessage _ => (.ok () : Outcome)

/-- Who opens the editor. -/
def ann : User := ⟨42, "ann"⟩

/-- A call and its answer. -/
def answered (i : Bool) : List (Event postEffects PostOffice Bool PostTask) :=
  [.issue i, .answer i hpReplies]

/-- The catalog is shown to someone, and is in the cache then. -/
def toCatalog : List (Event postEffects PostOffice Bool PostTask) :=
  [.spawn false .catalog] ++ answered false ++ [.op false] ++ answered false ++ [.op false] ++
    answered false ++ [.op false, .op false, .op false] ++ answered false ++ [.finish false]

/-- Ann opens her editor. -/
def toEditor : List (Event postEffects PostOffice Bool PostTask) :=
  [.spawn true (.set ann)] ++ answered true ++ [.op true, .op true] ++ answered true ++
    [.op true, .issue true]

/-- She clicks the button of the condition. -/
def clicking : List (Event postEffects PostOffice Bool PostTask) :=
  [.spawn false (.click 0 (.toggle 1)), .op false] ++ answered false ++ [.finish false]

/-- When the editor is there, she clicks the button off and on. -/
def toClicks : List (Event postEffects PostOffice Bool PostTask) :=
  [.answer true hpReplies, .finish true] ++ clicking ++ clicking

/-- She saves. -/
def toPut : List (Event postEffects PostOffice Bool PostTask) :=
  [.spawn true (.save 0), .op true, .issue true]

/-- She clicks once more while the PUT is under way. -/
def toSaved : List (Event postEffects PostOffice Bool PostTask) :=
  clicking ++ [.answer true hpReplies, .op true, .issue true]

/-- A run of tasks that switch at their awaits only. -/
def perform (config : Config postEffects PostOffice Bool PostTask (Except PostError Unit))
    (events : List (Event postEffects PostOffice Bool PostTask)) :
    Option (Config postEffects PostOffice Bool PostTask (Except PostError Unit)) :=
  (posts plainPayloads exampleClient).runIf
    (fun config event => decide (Concurrent.SwitchesAtAwaits config event)) config events

theorem catalog_performed : (perform (.start (.init 0)) toCatalog).isSome = true := by
  decide +kernel

/-- The configuration after `toCatalog`. -/
def catalogShown := Option.get _ catalog_performed

theorem editor_performed : (perform catalogShown toEditor).isSome = true := by
  decide +kernel

/-- The configuration after `toEditor`. -/
def editorShown := Option.get _ editor_performed

theorem clicks_performed : (perform editorShown toClicks).isSome = true := by
  decide +kernel

/-- The configuration after `toClicks`. -/
def clicksDone := Option.get _ clicks_performed

theorem put_performed : (perform clicksDone toPut).isSome = true := by
  decide +kernel

/-- The configuration after `toPut`. -/
def putSent := Option.get _ put_performed

theorem saved_performed : (perform putSent toSaved).isSome = true := by
  decide +kernel

/-- The configuration after `toSaved`. -/
def savedShown := Option.get _ saved_performed

theorem leads_of_perform {config config' config'' :
      Config postEffects PostOffice Bool PostTask (Except PostError Unit)}
    {events : List (Event postEffects PostOffice Bool PostTask)}
    (h : (posts plainPayloads exampleClient).Leads Concurrent.SwitchesAtAwaits config config')
    (htasks : (events.any Event.isOutside) = false)
    (hperform : perform config' events = some config'') :
    (posts plainPayloads exampleClient).Leads Concurrent.SwitchesAtAwaits config config'' :=
  h.runIf (fun _ _ h => of_decide_eq_true h) htasks hperform

theorem catalogShown_reachable : (posts plainPayloads exampleClient).Reachable
    Concurrent.SwitchesAtAwaits (.init 0) catalogShown :=
  Concurrent.Reachable.start.leads
    (leads_of_perform .refl rfl (Option.some_get catalog_performed).symm) fun _ _ h => h

theorem editorShown_leads : (posts plainPayloads exampleClient).Leads
    Concurrent.SwitchesAtAwaits catalogShown editorShown :=
  leads_of_perform .refl rfl (Option.some_get editor_performed).symm

theorem clicksDone_reachable : (posts plainPayloads exampleClient).Reachable
    Concurrent.SwitchesAtAwaits (.init 0) clicksDone :=
  catalogShown_reachable.leads
    (leads_of_perform editorShown_leads rfl (Option.some_get clicks_performed).symm) fun _ _ h => h

theorem putSent_leads : (posts plainPayloads exampleClient).Leads
    Concurrent.SwitchesAtAwaits clicksDone putSent :=
  leads_of_perform .refl rfl (Option.some_get put_performed).symm

theorem savedShown_leads : (posts plainPayloads exampleClient).Leads
    Concurrent.SwitchesAtAwaits clicksDone savedShown :=
  leads_of_perform putSent_leads rfl (Option.some_get saved_performed).symm

section Ann

variable {p : Progress postEffects PostTask (Except PostError Unit)}

/-- What the PUT of her editor asks. -/
def putRequest : Progress postEffects PostTask (Except PostError Unit) → Option Request
  | .awaiting (.save 0) (.client (.request r)) _ => some r
  | _ => none

/-- For whom an editor is shown. -/
def editorUser : Progress postEffects PostTask (Except PostError Unit) → Option User
  | .awaiting (.set user) (.followupSend (.editor 0 _ _)) _ => some user
  | _ => none

/-- What her message shows after Save. -/
def savedText : Progress postEffects PostTask (Except PostError Unit) → Option String
  | .awaiting (.save 0) (.editMessage (.embed embed)) _ => some embed.description
  | _ => none

theorem awaiting_of_putRequest {r : Request} (h : putRequest p = some r) :
    ∃ next, p = .awaiting (.save 0) (.client (.request r)) next := by
  unfold putRequest at h
  split at h
  next asked next =>
    obtain rfl := Option.some.inj h
    exact ⟨next, rfl⟩
  next => cases h

theorem awaiting_of_editorUser {user : User} (h : editorUser p = some user) :
    ∃ embed components next,
      p = .awaiting (.set user) (.followupSend (.editor 0 embed components)) next := by
  unfold editorUser at h
  split at h
  next shownTo embed components next =>
    obtain rfl := Option.some.inj h
    exact ⟨embed, components, next, rfl⟩
  next => cases h

theorem awaiting_of_savedText {description : String} (h : savedText p = some description) :
    ∃ embed next, p = .awaiting (.save 0) (.editMessage (.embed embed)) next ∧
      embed.description = description := by
  unfold savedText at h
  split at h
  next embed next => exact ⟨embed, next, rfl, Option.some.inj h⟩
  next => cases h

theorem idle_clicksDone : clicksDone.task true = .idle := by
  apply Progress.eq_idle_of_isNone
  decide +kernel

theorem asked_of_leads_ann : ∃ next,
    putSent.task true = .awaiting (.save 0) (.client (.request exampleRequest)) next ∧
      AskedFor plainPayloads exampleClient clicksDone.shared putSent.shared (.save 0)
        exampleRequest := by
  have hasks : putRequest (putSent.task true) = some exampleRequest := by
    decide +kernel
  obtain ⟨next, htask⟩ := awaiting_of_putRequest hasks
  exact ⟨next, htask, asked_of_leads clicksDone_reachable idle_clicksDone putSent_leads htask⟩

theorem shown_of_leads_ann : ∃ embed components next,
    editorShown.task true = .awaiting (.set ann) (.followupSend (.editor 0 embed components)) next ∧
      ShownFor plainPayloads exampleClient catalogShown.shared.client.exchanges editorShown.shared
        (.set ann) (.editor 0 embed components) := by
  have hidle : catalogShown.task true = .idle := by
    apply Progress.eq_idle_of_isNone
    decide +kernel
  have hshows : editorUser (editorShown.task true) = some ann := by
    decide +kernel
  obtain ⟨embed, components, next, htask⟩ := awaiting_of_editorUser hshows
  exact ⟨embed, components, next, htask,
    shown_of_leads catalogShown_reachable hidle editorShown_leads htask⟩

/-- The PUT has carried the condition, and the message says that none is selected. -/
theorem saved_of_leads_ann : ∃ embed next,
    savedShown.task true = .awaiting (.save 0) (.editMessage (.embed embed)) next ∧
      embed.description = noneSelected ∧
      SavedFor plainPayloads exampleClient clicksDone.shared savedShown.shared 0 embed := by
  have hshows : savedText (savedShown.task true) = some noneSelected := by
    decide +kernel
  obtain ⟨embed, next, htask, hnone⟩ := awaiting_of_savedText hshows
  exact ⟨embed, next, htask, hnone,
    saved_of_leads clicksDone_reachable idle_clicksDone savedShown_leads htask⟩

end Ann

end MomBot.PostConditions
