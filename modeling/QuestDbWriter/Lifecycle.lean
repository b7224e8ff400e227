import QuestDbWriter.Runtime
import QuestDbWriter.Worker.Jobs

/-!
# The lifecycle of the runtime

`async_start` and `async_stop` of `runtime.py`, and what Home Assistant holds for the runtime: its
subscriptions, its background task and its repair issue. `async_start` acquires in four steps and
has one handler for a failure, which stops the worker and nothing else. So a failure behind the
registration of the listener leaves the listener subscribed (`sync_leaves_listener`), and
`lifecycle_cleanup` says that no other failure leaves anything behind; `async_stop` releases
everything wherever it returns `True`.
-/

namespace QuestDbWriter

open Lib World

/-- What Home Assistant is told of the credentials. -/
inductive AuthEvent where
  /-- The issue was created, or deleted. -/
  | reported (rejected : Bool)
  /-- `request_reauth` was called. -/
  | requested
deriving DecidableEq

/-- The runtime with the resources that it holds. -/
structure RuntimeResources extends HassQuestDbRuntime where
  /-- `_entry_id`. -/
  entryId : Option PyStr
  stopTimeoutSeconds : ℚ
  stopTimeoutSeconds_pos : 0 < stopTimeoutSeconds
  /-- `_request_reauth` is given. -/
  hasRequestReauth : Bool
  reauthRequested : Bool
  /-- The subscription that `_unsubscribe` ends. -/
  unsubscribe : Option Nat
  monitorTask : Option Nat
  /-- The number of registrations so far. -/
  registrations : Nat
  /-- The listeners of the runtime that are subscribed. -/
  listeners : List Nat
  /-- The monitor tasks of the runtime that run. -/
  monitors : List Nat
  /-- The repair issue of the entry exists. -/
  issue : Bool
  /-- The number of calls of the worker's `stop()`. -/
  stopCalls : Nat
  /-- What Home Assistant was told, in order; no code reads it. -/
  told : List AuthEvent

namespace RuntimeResources

/-- `__init__`. -/
def init (entryId : Option PyStr) (stopTimeoutSeconds : ℚ) (hpos : 0 < stopTimeoutSeconds)
    (hasRequestReauth issue : Bool) (service : World) : RuntimeResources where
  counters := {}
  service
  entryId
  stopTimeoutSeconds
  stopTimeoutSeconds_pos := hpos
  hasRequestReauth
  reauthRequested := false
  unsubscribe := none
  monitorTask := none
  registrations := 0
  listeners := []
  monitors := []
  issue
  stopCalls := 0
  told := []

/-! ## async_start -/

/-- `async_listen` or `async_track_state_change_event`. -/
def listen (r : RuntimeResources) : RuntimeResources :=
  { r with
    unsubscribe := some r.registrations
    registrations := r.registrations + 1
    listeners := r.listeners ++ [r.registrations] }

/-- `async_create_background_task` of the monitor loop. -/
def createMonitor (r : RuntimeResources) : RuntimeResources :=
  { r with
    monitorTask := some r.registrations
    registrations := r.registrations + 1
    monitors := r.monitors ++ [r.registrations] }

/-- `_request_reauth_once`, where the request raises as given. -/
def requestReauthOnce (r : RuntimeResources) (reauth : Option Exc) :
    Except Exc Unit × RuntimeResources :=
  if r.reauthRequested ∨ r.hasRequestReauth = false then (.ok (), r)
  else
    let r := { r with reauthRequested := true, told := r.told ++ [.requested] }
    match reauth with
    | some e => (.error e, r)
    | none => (.ok (), r)

/-- The worker is blocked on the credentials. -/
def authBlocked (w : World) : Bool :=
  decide (w.shared.state = .blocked ∧ w.shared.blockReason = some .auth)

/-- `_sync_auth_issue`, where the call of the issue registry and the request raise as given. -/
def syncAuthIssue (r : RuntimeResources) (issue reauth : Option Exc) :
    Except Exc Unit × RuntimeResources :=
  match r.entryId with
  | none => (.ok (), r)
  | some _ =>
    match issue with
    | some e => (.error e, r)
    | none =>
      if authBlocked r.service then
        { r with
          issue := true, told := r.told ++ [AuthEvent.reported true] }.requestReauthOnce reauth
      else
        (.ok (), { r with
          issue := false, reauthRequested := false, told := r.told ++ [.reported false] })

/-- How the calls of `async_start` end, and where the service stands behind its two jobs. -/
structure StartCalls where
  start : Option Exc
  listen : Option Exc
  issue : Option Exc
  reauth : Option Exc
  createTask : Option Exc
  /-- The service when the issue is synced, with `start()` behind it. -/
  started : World
  /-- The service behind the `stop()` of the handler. -/
  stopped : World

/-- The handler of `async_start`. -/
def startFailed (r : RuntimeResources) (e : Exc) (stopped : World) :
    Except Exc Unit × RuntimeResources :=
  (.error e, { r with service := stopped, stopCalls := r.stopCalls + 1 })

/-- `async_start`. -/
def asyncStart (r : RuntimeResources) (c : StartCalls) : Except Exc Unit × RuntimeResources :=
  let r := { r with service := c.started }
  match c.start with
  | some e => r.startFailed e c.stopped
  | none =>
    match c.listen with
    | some e => r.startFailed e c.stopped
    | none =>
      let r := r.listen
      if r.entryId = none then (.ok (), r)
      else
        match r.syncAuthIssue c.issue c.reauth with
        | (.error e, r) => r.startFailed e c.stopped
        | (.ok (), r) =>
          match c.createTask with
          | some e => r.startFailed e c.stopped
          | none => (.ok (), r.createMonitor)

/-- The jobs are runs of the service. -/
structure StartCalls.Happen (c : StartCalls) (r : RuntimeResources) : Prop where
  start : StartJob r.service c.started c.start.isNone
  stop : (∃ e, (r.asyncStart c).1 = .error e) →
    ∃ gone, StopJob r.stopTimeoutSeconds c.started c.stopped gone

/-! ## async_stop -/

/-- How the calls of `async_stop` end, and where the service stands behind its job. -/
structure StopCalls where
  /-- What awaiting the cancelled monitor raises, other than its cancellation. -/
  monitor : Option Exc
  unsubscribe : Option Exc
  stop : Except Exc Bool
  deleteIssue : Option Exc
  stopped : World

/-- The monitor task is cancelled, and is over. -/
def cancelMonitor (r : RuntimeResources) : RuntimeResources :=
  { r with
    monitorTask := none
    monitors := r.monitors.filter fun task => !decide (r.monitorTask = some task) }

/-- The call of `_unsubscribe`: whether the listener is no longer subscribed. -/
def removeListener (r : RuntimeResources) (unsubscribe : Option Exc) : Bool × RuntimeResources :=
  match r.unsubscribe with
  | none => (true, r)
  | some listener =>
    match unsubscribe with
    | some _ => (false, r)
    | none =>
      (true, { r with
        unsubscribe := none
        listeners := r.listeners.filter fun l => !decide (l = listener) })

/-- `async_stop` behind its monitor. -/
def stopWorker (r : RuntimeResources) (c : StopCalls) : Except Exc Bool × RuntimeResources :=
  let removed := r.removeListener c.unsubscribe
  let r := { removed.2 with service := c.stopped, stopCalls := r.stopCalls + 1 }
  match c.stop with
  | .error e => (.error e, r)
  | .ok stopped =>
    if r.entryId = none then (.ok (removed.1 && stopped), r)
    else
      match c.deleteIssue with
      | some e => (.error e, r)
      | none => (.ok (removed.1 && stopped), { r with issue := false })

/-- `async_stop`. -/
def asyncStop (r : RuntimeResources) (c : StopCalls) : Except Exc Bool × RuntimeResources :=
  if r.monitorTask = none then r.stopWorker c
  else
    match c.monitor with
    | some e => (.error e, r.cancelMonitor)
    | none => r.cancelMonitor.stopWorker c

/-- The job is a run of the service. -/
def StopCalls.Happen (c : StopCalls) (r : RuntimeResources) : Prop :=
  ∀ gone, c.stop = .ok gone → StopJob r.stopTimeoutSeconds r.service c.stopped gone

/-! ## What is held -/

/-- The runtime holds every listener and every monitor that it has. -/
structure Held (r : RuntimeResources) : Prop where
  listeners : ∀ listener ∈ r.listeners, r.unsubscribe = some listener
  monitors : ∀ task ∈ r.monitors, r.monitorTask = some task

/-- The runtime has no listener and no monitor. -/
def Released (r : RuntimeResources) : Prop := r.listeners = [] ∧ r.monitors = []

/-- If `async_start` raises, nothing is left behind, and the worker's stop was invoked. -/
def FailsClean (r : RuntimeResources) (c : StartCalls) : Prop :=
  ∀ e, (r.asyncStart c).1 = .error e →
    (r.asyncStart c).2.Released ∧ (r.asyncStart c).2.stopCalls = r.stopCalls + 1

/-- If `async_stop` returns `True`, nothing is left behind, and the worker thread has been
joined. -/
def StopsClean (r : RuntimeResources) : Prop :=
  ∀ (c : StopCalls) (r' : RuntimeResources), c.Happen r → r.asyncStop c = (.ok true, r') →
    r'.Released ∧ r'.service.threadAlive = false

/-- The sync of the auth issue raises. -/
def SyncRaises (r : RuntimeResources) (c : StartCalls) : Prop :=
  c.issue ≠ none ∨ authBlocked c.started ∧ r.hasRequestReauth ∧ c.reauth ≠ none

/-- A step behind the registration of the listener fails. -/
def FailsBehindListener (r : RuntimeResources) (c : StartCalls) : Prop :=
  c.start = none ∧ c.listen = none ∧ r.entryId ≠ none ∧ (SyncRaises r c ∨ c.createTask ≠ none)

section
variable {r r' : RuntimeResources} {c : StartCalls}

/-- The sync holds what it held, and does not touch the service. -/
theorem syncAuthIssue_keeps (r : RuntimeResources) (issue reauth : Option Exc) :
    ∃ issue' reauthRequested told, (r.syncAuthIssue issue reauth).2 =
      { r with issue := issue', reauthRequested, told } := by
  unfold syncAuthIssue requestReauthOnce
  split
  · exact ⟨_, _, _, rfl⟩
  · split
    · exact ⟨_, _, _, rfl⟩
    · split
      · split
        · exact ⟨_, _, _, rfl⟩
        · split <;> exact ⟨_, _, _, rfl⟩
      · exact ⟨_, _, _, rfl⟩

/-- When the synchronization of a service that has just started raises. -/
theorem syncAuthIssue_raises (hentry : r.entryId ≠ none) (hnew : r.reauthRequested = false)
    (hservice : r.service = c.started) :
    (∃ e, (r.syncAuthIssue c.issue c.reauth).1 = .error e) ↔ SyncRaises r c := by
  obtain ⟨entry, hentry⟩ := Option.ne_none_iff_exists'.mp hentry
  unfold syncAuthIssue requestReauthOnce SyncRaises
  rw [hentry, hservice]
  cases hissue : c.issue with
  | some e => simp
  | none =>
    cases hblocked : authBlocked c.started with
    | false => simp
    | true =>
      cases hgiven : r.hasRequestReauth with
      | false => simp
      | true => cases hreauth : c.reauth <;> simp [hnew]

/-- A listener or a monitor that is not held is not there. -/
theorem Held.released (h : Held r) (hlistener : r.unsubscribe = none)
    (hmonitor : r.monitorTask = none) :
    r.Released := by
  constructor
  · refine List.eq_nil_iff_forall_not_mem.mpr fun l hl => ?_
    cases hlistener.symm.trans (h.listeners l hl)
  · refine List.eq_nil_iff_forall_not_mem.mpr fun t ht => ?_
    cases hmonitor.symm.trans (h.monitors t ht)

/-! ## A failed start -/

/-- The runtime has not been started. -/
structure New (r : RuntimeResources) : Prop where
  released : r.Released
  unsubscribe : r.unsubscribe = none
  monitorTask : r.monitorTask = none
  reauthRequested : r.reauthRequested = false

/-- Resources that are new are held. -/
theorem New.held (h : New r) : Held r :=
  ⟨by simp [h.released.1], by simp [h.released.2]⟩

/-- A new object. -/
theorem New.init (entryId : Option PyStr) (stopTimeoutSeconds : ℚ) (hpos : 0 < stopTimeoutSeconds)
    (hasRequestReauth issue : Bool) (service : World) :
    New (.init entryId stopTimeoutSeconds hpos hasRequestReauth issue service) :=
  ⟨⟨rfl, rfl⟩, rfl, rfl, rfl⟩

/-- How `async_start` ends: a failure before the listener is registered, a failure behind it, or a
start, without a monitor where there is no entry. -/
inductive Outcome (r : RuntimeResources) (c : StartCalls) :
    Except Exc Unit × RuntimeResources → Prop
  | failed (e : Exc) (h : c.start ≠ none ∨ c.listen ≠ none) :
      Outcome r c ({ r with service := c.started }.startFailed e c.stopped)
  | behind (e : Exc) (h : FailsBehindListener r c) (issue reauthRequested : Bool)
      (told : List AuthEvent) :
      Outcome r c
        ({ { r with service := c.started }.listen with issue, reauthRequested, told }.startFailed
          e c.stopped)
  | started (hstart : c.start = none) (hlisten : c.listen = none) (hentry : r.entryId = none) :
      Outcome r c (.ok (), { r with service := c.started }.listen)
  | monitored (hstart : c.start = none) (hlisten : c.listen = none)
      (hsync : ¬ SyncRaises r c) (htask : c.createTask = none) (issue reauthRequested : Bool)
      (told : List AuthEvent) :
      Outcome r c (.ok (),
        { { r with service := c.started }.listen with issue, reauthRequested, told }.createMonitor)

/-- What a start leaves behind, return or raise. -/
theorem asyncStart_outcome (h : New r) (c : StartCalls) : Outcome r c (r.asyncStart c) := by
  unfold asyncStart
  dsimp only
  split
  · next e hstart => exact .failed e (.inl (by simp [hstart]))
  · next hstart =>
    split
    · next e hlisten => exact .failed e (.inr (by simp [hlisten]))
    · next hlisten =>
      split
      · next hentry => exact .started hstart hlisten hentry
      · next hentry =>
        have hraises := syncAuthIssue_raises (r := { r with service := c.started }.listen) hentry
          h.reauthRequested rfl
        obtain ⟨issue, reauthRequested, told, hkeeps⟩ :=
          syncAuthIssue_keeps { r with service := c.started }.listen c.issue c.reauth
        split
        · next e u hsync =>
          cases (congrArg Prod.snd hsync).symm.trans hkeeps
          have hsyncs : SyncRaises r c := hraises.mp ⟨e, congrArg Prod.fst hsync⟩
          exact .behind (r := r) e ⟨hstart, hlisten, hentry, .inl hsyncs⟩ _ _ _
        · next u hsync =>
          cases (congrArg Prod.snd hsync).symm.trans hkeeps
          split
          · next e htask =>
            exact .behind (r := r) e ⟨hstart, hlisten, hentry, .inr (by simp [htask])⟩ _ _ _
          · next htask =>
            refine .monitored (r := r) hstart hlisten (fun hs => ?_) htask _ _ _
            obtain ⟨e, he⟩ := hraises.mpr hs
            rw [hsync] at he
            cases he

/-- `async_start` returns where none of its steps fails. -/
theorem asyncStart_ok (h : New r) (hstart : c.start = none) (hlisten : c.listen = none)
    (hbehind : ¬ FailsBehindListener r c) : ∃ r', r.asyncStart c = (.ok (), r') := by
  have hout := asyncStart_outcome h c
  generalize r.asyncStart c = result at hout
  cases hout with
  | failed e hfirst => exact (hfirst.elim (· hstart) (· hlisten)).elim
  | behind e hfails => exact absurd hfails hbehind
  | started => exact ⟨_, rfl⟩
  | monitored => exact ⟨_, rfl⟩

/-- **`async_start` cleans up behind a failure exactly if no step behind the registration of the
listener fails.** -/
theorem failsClean_iff (h : New r) : FailsClean r c ↔ ¬ FailsBehindListener r c := by
  have hout := asyncStart_outcome h c
  unfold FailsClean
  generalize r.asyncStart c = result at hout
  cases hout with
  | failed e hfirst =>
    refine ⟨fun _ hbehind => ?_, fun _ _ _ => ⟨h.released, rfl⟩⟩
    rcases hfirst with hne | hne
    · exact hne hbehind.1
    · exact hne hbehind.2.1
  | behind e hbehind =>
    refine ⟨fun hclean => ?_, fun hnot => absurd hbehind hnot⟩
    obtain ⟨⟨hlisteners, -⟩, -⟩ := hclean e rfl
    cases List.append_ne_nil_of_right_ne_nil r.listeners (List.cons_ne_nil _ _) hlisteners
  | started _ _ hentry => exact ⟨fun _ hbehind => hbehind.2.2.1 hentry, fun _ _ => nofun⟩
  | monitored _ _ hsync htask =>
    refine ⟨fun _ hbehind => ?_, fun _ _ => nofun⟩
    exact hbehind.2.2.2.elim hsync fun hne => hne htask

/-! ## A stop -/

/-- Whatever `async_start` has acquired is held. -/
theorem Held.asyncStart (h : New r) (c : StartCalls) : Held (r.asyncStart c).2 := by
  have hlisten : ∀ {issue reauthRequested told},
      Held { { r with service := c.started }.listen with issue, reauthRequested, told } := by
    refine ⟨?_, ?_⟩
    · simp [RuntimeResources.listen, h.released.1]
    · simp [RuntimeResources.listen, h.released.2]
  have hout := asyncStart_outcome h c
  generalize r.asyncStart c = result at hout
  cases hout with
  | failed e => exact ⟨h.held.listeners, h.held.monitors⟩
  | behind e _ issue reauthRequested told =>
    have hheld :
        Held { { r with service := c.started }.listen with issue, reauthRequested, told } :=
      hlisten
    exact ⟨hheld.listeners, hheld.monitors⟩
  | started => exact hlisten
  | monitored _ _ _ _ issue reauthRequested told =>
    have hheld :
        Held { { r with service := c.started }.listen with issue, reauthRequested, told } :=
      hlisten
    refine ⟨hheld.listeners, ?_⟩
    simp [createMonitor, RuntimeResources.listen, h.released.2]

/-- The service has been started, wherever `async_start` ends. -/
theorem asyncStart_service (h : New r) (hp : Placed r.service) (hc : c.Happen r) :
    Placed (r.asyncStart c).2.service ∧ (r.asyncStart c).2.service.start ≠ .idle := by
  have hstarted := StartJob.started hp hc.start
  have hstopped : (∃ e, (r.asyncStart c).1 = .error e) →
      Placed c.stopped ∧ c.stopped.start ≠ .idle := fun herror => by
    obtain ⟨gone, hjob⟩ := hc.stop herror
    exact hjob.started hstarted.1 hstarted.2
  have hout := asyncStart_outcome h c
  generalize r.asyncStart c = result at hout hstopped
  cases hout with
  | failed e => exact hstopped ⟨e, rfl⟩
  | behind e => exact hstopped ⟨e, rfl⟩
  | started => exact hstarted
  | monitored => exact hstarted

/-- The monitor goes first. -/
theorem cancelMonitor_held (h : Held r) :
    Held r.cancelMonitor ∧ r.cancelMonitor.monitorTask = none := by
  refine ⟨⟨h.listeners, fun t ht => ?_⟩, rfl⟩
  obtain ⟨hmem, hne⟩ := List.mem_filter.mp ht
  simp [h.monitors t hmem] at hne

/-- Then the listener. -/
theorem removeListener_held (h : Held r) (unsubscribe : Option Exc)
    (hremoved : (r.removeListener unsubscribe).1 = true) :
    (r.removeListener unsubscribe).2.listeners = [] := by
  unfold removeListener at hremoved ⊢
  split at hremoved
  · next hnone =>
    refine List.eq_nil_iff_forall_not_mem.mpr fun l hl => ?_
    cases hnone.symm.trans (h.listeners l hl)
  · next listener hsome =>
    split at hremoved
    · cases hremoved
    · refine List.eq_nil_iff_forall_not_mem.mpr fun l hl => ?_
      obtain ⟨hmem, hne⟩ := List.mem_filter.mp hl
      cases hsome.symm.trans (h.listeners l hmem)
      simp at hne

/-- A stop that returns True releases the rest. -/
theorem stopWorker_clean (h : Held r) (hmonitor : r.monitorTask = none) (d : StopCalls)
    (hreturns : r.stopWorker d = (.ok true, r')) :
    r'.Released ∧ d.stop = .ok true ∧ r'.service = d.stopped := by
  have hmonitors : r.monitors = [] :=
    List.eq_nil_iff_forall_not_mem.mpr fun t ht => by cases hmonitor.symm.trans (h.monitors t ht)
  have hkept : (r.removeListener d.unsubscribe).2.monitors = r.monitors := by
    unfold removeListener
    split
    · rfl
    · split <;> rfl
  have hclean := removeListener_held h d.unsubscribe
  unfold stopWorker at hreturns
  dsimp only at hreturns
  split at hreturns
  · cases hreturns
  · next stopped hstop =>
    split at hreturns
    · obtain ⟨hboth, rfl⟩ := Prod.ext_iff.mp hreturns
      obtain ⟨hremoved, rfl⟩ := (Bool.and_eq_true _ _).mp (Except.ok.inj hboth)
      exact ⟨⟨hclean hremoved, hkept.trans hmonitors⟩, hstop, rfl⟩
    · split at hreturns
      · cases hreturns
      · obtain ⟨hboth, rfl⟩ := Prod.ext_iff.mp hreturns
        obtain ⟨hremoved, rfl⟩ := (Bool.and_eq_true _ _).mp (Except.ok.inj hboth)
        exact ⟨⟨hclean hremoved, hkept.trans hmonitors⟩, hstop, rfl⟩

/-- **A stop that returns `True` has released everything**, and has joined the thread. -/
theorem stopsClean_of_held (h : Held r) (hp : Placed r.service) (hs : r.service.start ≠ .idle) :
    StopsClean r := by
  intro d r' hd hreturns
  have hjoined : d.stop = .ok true → d.stopped.threadAlive = false := fun hstop =>
    (hd true hstop).joined hp hs
  unfold asyncStop at hreturns
  split at hreturns
  · next hnone =>
    obtain ⟨hreleased, hstop, hservice⟩ := stopWorker_clean h hnone d hreturns
    exact ⟨hreleased, hservice ▸ hjoined hstop⟩
  · split at hreturns
    · cases hreturns
    · obtain ⟨hheld, hnone⟩ := cancelMonitor_held h
      obtain ⟨hreleased, hstop, hservice⟩ := stopWorker_clean hheld hnone d hreturns
      exact ⟨hreleased, hservice ▸ hjoined hstop⟩

end

/-- **The lifecycle cleans up behind itself, exactly if no step behind the registration of the
listener fails.** -/
theorem lifecycle_cleanup (config : Config) (env : Env) (db : Database) (history : List Obs)
    (service : World) (entryId : Option PyStr) (stopTimeoutSeconds : ℚ)
    (hpos : 0 < stopTimeoutSeconds) (hasRequestReauth issue : Bool) (c : StartCalls)
    (hservice : Steps step (fun _ _ => True) (.boot config env db history) service)
    (hc : c.Happen (.init entryId stopTimeoutSeconds hpos hasRequestReauth issue service)) :
    let r := init entryId stopTimeoutSeconds hpos hasRequestReauth issue service
    (FailsClean r c ∧ StopsClean (r.asyncStart c).2) ↔ ¬ FailsBehindListener r c := by
  intro r
  have hnew : New r := .init ..
  have hp : Placed r.service := hservice.invariant (.boot ..) fun u a v hp _ hs => hp.step hs
  obtain ⟨hplaced, hstarted⟩ := asyncStart_service hnew hp hc
  have hstops : StopsClean (r.asyncStart c).2 :=
    stopsClean_of_held (.asyncStart hnew c) hplaced hstarted
  rw [← failsClean_iff hnew]
  exact ⟨And.left, fun hfails => ⟨hfails, hstops⟩⟩

/-! ## Runs of the jobs -/

/-- A closed run of `start()`, if it ends as it should. -/
def startRun (w : World) (actions : List Action) (returns : Bool) : Option World :=
  ((step w .startCall).bind (execIn step (fun _ a => !a.isRestart) actions)).filter fun w' =>
    decide (w'.start = if returns then .returned else .raised)

/-- A closed run of `stop()`, if it ends as it should. -/
def stopRun (w : World) (actions : List Action) (gone : Bool) : Option World :=
  ((step w (.stopCall 1)).bind (execIn step (fun _ a => !a.isRestart) actions)).filter fun w' =>
    decide (w'.stops[w.stops.length]? = some (.returned gone))

section
variable {w w' : World} {actions : List Action}

/-- The check of a start is the job. -/
theorem startJob_of_run {returns : Bool} (h : startRun w actions returns = some w') :
    StartJob w w' returns := by
  obtain ⟨hrun, hreturns⟩ := Option.filter_eq_some_iff.mp h
  obtain ⟨u, hcall, hafter⟩ := Option.bind_eq_some_iff.mp hrun
  exact ⟨u, hcall, .of_execIn (fun _ _ ha => by simpa using ha) hafter,
    of_decide_eq_true hreturns⟩

/-- The check of a stop is the job. -/
theorem stopJob_of_run {gone : Bool} (h : stopRun w actions gone = some w') :
    StopJob 1 w w' gone := by
  obtain ⟨hrun, hgone⟩ := Option.filter_eq_some_iff.mp h
  obtain ⟨u, hcall, hafter⟩ := Option.bind_eq_some_iff.mp hrun
  exact ⟨w, u, .refl, hcall, .of_execIn (fun _ _ ha => by simpa using ha) hafter,
    of_decide_eq_true hgone⟩

end

/-- The spool factory, or the issue registry, raises. -/
def refusal : Exc := { type := .workerError, message := py "refused" }

/-- A start whose spool factory raises, behind its call. -/
def unopenedStart : List Action :=
  [.threadOpen (some refusal), .threadFail, .threadClose none, .startReady, .threadExit, .threadDie]

/-- A start that becomes ready, behind its call. -/
def readyStart : List Action := [.threadOpen none, .threadStartup, .threadAnnounce, .startReady]

/-- A start whose spool factory raises cleans up, and its stop joins the thread. -/
theorem failedStart_clean : ∃ c : StartCalls,
    let r := init (some (py "entry")) 1 one_pos true false (.boot .provisional .quiet .fresh [])
    c.Happen r ∧ (r.asyncStart c).1 = .error refusal ∧ FailsClean r c ∧
      StopsClean (r.asyncStart c).2 := by
  have hrun : ((startRun (.boot .provisional .quiet .fresh []) unopenedStart false).bind
      (stopRun · [.stopLock 0] true)).isSome = true := by
    decide +kernel
  obtain ⟨w', hw'⟩ := Option.isSome_iff_exists.mp hrun
  obtain ⟨w, hw, hw'⟩ := Option.bind_eq_some_iff.mp hw'
  have hstart := startJob_of_run hw
  have hstop := stopJob_of_run hw'
  let c : StartCalls :=
    { start := some refusal, listen := none, issue := none, reauth := none, createTask := none,
      started := w, stopped := w' }
  have hc : c.Happen (.init (some (py "entry")) 1 one_pos true false
      (.boot .provisional .quiet .fresh [])) := ⟨hstart, fun _ => ⟨true, hstop⟩⟩
  obtain ⟨hfails, hstops⟩ :=
    (lifecycle_cleanup .provisional .quiet .fresh [] _ (some (py "entry")) 1
    one_pos true false c .refl hc).mpr fun hbehind => nomatch hbehind.1
  exact ⟨c, hc, rfl, hfails, hstops⟩

/-- **A start whose auth-issue sync fails leaves its listener subscribed**, although it raises: the
handler stops the worker only. -/
theorem sync_leaves_listener :
    ¬ ∀ (config : Config) (env : Env) (db : Database) (history : List Obs)
    (service : World) (entryId : Option PyStr) (stopTimeoutSeconds : ℚ)
    (hpos : 0 < stopTimeoutSeconds) (hasRequestReauth issue : Bool) (c : StartCalls),
    Steps step (fun _ _ => True) (.boot config env db history) service →
      c.Happen (.init entryId stopTimeoutSeconds hpos hasRequestReauth issue service) →
        let r := init entryId stopTimeoutSeconds hpos hasRequestReauth issue service
        FailsClean r c ∧ StopsClean (r.asyncStart c).2 := by
  intro h
  have hrun : ((startRun (.boot .provisional .quiet .fresh []) readyStart true).bind
      (stopRun · [.stopLock 0, .stopSet 0, .stopSignal 0, .stopReturn 0] false)).isSome = true := by
    decide +kernel
  obtain ⟨w', hw'⟩ := Option.isSome_iff_exists.mp hrun
  obtain ⟨w, hw, hw'⟩ := Option.bind_eq_some_iff.mp hw'
  have hstart := startJob_of_run hw
  have hstop := stopJob_of_run hw'
  let c : StartCalls :=
    { start := none, listen := none, issue := some refusal, reauth := none, createTask := none,
      started := w, stopped := w' }
  have hc : c.Happen (.init (some (py "entry")) 1 one_pos true false
      (.boot .provisional .quiet .fresh [])) := ⟨hstart, fun _ => ⟨false, hstop⟩⟩
  obtain ⟨hfails, -⟩ := h .provisional .quiet .fresh [] _ (some (py "entry")) 1 one_pos true false c
    .refl hc
  obtain ⟨⟨hlisteners, -⟩, -⟩ := hfails refusal rfl
  cases hlisteners

end RuntimeResources

end QuestDbWriter
