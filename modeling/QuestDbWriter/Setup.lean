import QuestDbWriter.Lifecycle

/-!
# The setups of a config entry

`async_setup_entry` and `async_unload_entry` of `__init__.py`, called by Home Assistant over and
over: it sets an entry up again after a failure, and unloads and sets it up again when its options
change. Every setup makes a runtime of its own, with a worker on the one spool file of the entry.

`one_writer` says that the workers take turns: as long as what a failed setup has acquired is
released again, no worker lives beside another, and the whole life of the entry, in whatever order
it is set up and unloaded, is a run of one service that is restarted on its file.
-/

namespace QuestDbWriter

open Lib World RuntimeResources

/-- `ConfigEntryState`. -/
inductive EntryState where
  | notLoaded
  | loaded
  | setupRetry
  | setupError
  | failedUnload
deriving DecidableEq

/-- Home Assistant may set the entry up. -/
def EntryState.allowsSetup : EntryState → Bool
  | notLoaded | setupRetry | setupError => true
  | loaded | failedUnload => false

/-- The entry in one process of Home Assistant. -/
structure EntryLife where
  entryId : PyStr
  state : EntryState
  /-- The runtimes that its setups have made, the last one first. -/
  runtimes : List RuntimeResources
  /-- The last service of an earlier process. -/
  earlier : World
  /-- The repair issue that an earlier process has left. -/
  earlierIssue : Bool

/-- How a setup goes: what `_runtime_configuration` returns or raises, how the calls of
`async_start` end, what `async_forward_entry_setups` raises, and how those of the `async_stop`
behind it end. -/
structure SetupCalls where
  configuration : Except Exc (Config × { timeout : ℚ // 0 < timeout })
  env : Env
  start : StartCalls
  forward : Option Exc
  stop : StopCalls

namespace EntryLife

/-- The entry when Home Assistant starts. -/
def init (entryId : PyStr) (earlier : World) (issue : Bool) : EntryLife :=
  { entryId, state := .notLoaded, runtimes := [], earlier, earlierIssue := issue }

/-- The service that was last on the spool file. -/
def service (e : EntryLife) : World := e.runtimes.head?.elim e.earlier (·.service)

/-- The repair issue of the entry exists. -/
def issue (e : EntryLife) : Bool := e.runtimes.head?.elim e.earlierIssue (·.issue)

/-- A timeout is positive. -/
theorem timeout_pos (timeout : { timeout : ℚ // 0 < timeout }) : 0 < timeout.1 := timeout.2

/-- `HassQuestDbRuntime(...)`. -/
def newRuntime (e : EntryLife) (config : Config) (timeout : { timeout : ℚ // 0 < timeout })
    (env : Env) : RuntimeResources :=
  .init (some e.entryId) timeout.1 (timeout_pos timeout) true e.issue
    (.boot config env e.service.spool.db e.service.history)

/-- `ConfigEntryNotReady`, which the start of the worker is turned into where it fails. -/
def startRaises (x : Exc) : Exc :=
  match x.type with
  | .workerStartError | .workerStartTimeoutError =>
    { type := .other "ConfigEntryNotReady",
      message := py "QuestDB writer did not start: " ++ x.message }
  | _ => x

/-- Where Home Assistant has the entry when its setup raises. -/
def stateAfter (x : Exc) : EntryState :=
  if x.type = .other "ConfigEntryNotReady" then .setupRetry else .setupError

/-- `async_setup_entry`. -/
def asyncSetupEntry (e : EntryLife) (c : SetupCalls) : EntryLife :=
  match c.configuration with
  | .error x => { e with state := stateAfter x }
  | .ok (config, timeout) =>
    match (e.newRuntime config timeout c.env).asyncStart c.start with
    | (.error x, r) =>
      { e with state := stateAfter (startRaises x), runtimes := r :: e.runtimes }
    | (.ok (), r) =>
      match c.forward with
      | none => { e with state := .loaded, runtimes := r :: e.runtimes }
      | some x =>
        -- what `async_stop` returns or raises is logged or dropped
        { e with state := stateAfter x, runtimes := (r.asyncStop c.stop).2 :: e.runtimes }

/-- `async_unload_entry` of the runtime that the entry has, where `async_unload_platforms` raises as
given. -/
def asyncUnloadEntry (e : EntryLife) (c : StopCalls) (platforms : Option Exc) : EntryLife :=
  match e.runtimes with
  | [] => e
  | r :: rs =>
    match r.asyncStop c with
    | (.ok true, r) =>
      { e with
        state := if platforms = none then .notLoaded else .failedUnload, runtimes := r :: rs }
    | (_, r) => { e with state := .failedUnload, runtimes := r :: rs }

end EntryLife

/-- What happens to an entry: Home Assistant sets it up or unloads it, a service takes a step, or a
monitor syncs the auth issue. -/
inductive EntryAction where
  | setup (c : SetupCalls)
  | unload (c : StopCalls) (platforms : Option Exc)
  | worker (i : Nat) (a : Action)
  | sync (i : Nat) (issue reauth : Option Exc)

/-- One step of the entry. -/
def entryStep (e : EntryLife) : EntryAction → Option EntryLife
  | .setup c => if e.state.allowsSetup then some (e.asyncSetupEntry c) else none
  | .unload c platforms => if e.state = .loaded then some (e.asyncUnloadEntry c platforms) else none
  | .worker i a =>
    match e.runtimes[i]? with
    | none => none
    | some r =>
      if a.isRestart then none
      else (step r.service a).map fun service =>
        { e with runtimes := e.runtimes.set i { r with service } }
  | .sync i issue reauth =>
    match e.runtimes[i]? with
    | none => none
    | some r =>
      if r.monitors = [] then none
      else some { e with runtimes := e.runtimes.set i (r.syncAuthIssue issue reauth).2 }

/-! ## Runs that clean up -/

/-- The job of `async_stop` is a run of the service, also where it raises. -/
structure StopRuns (c : StopCalls) (r : RuntimeResources) : Prop where
  happen : c.Happen r
  raises : ∀ x, c.stop = .error x → Steps step (fun _ a => ¬ a.isRestart) r.service c.stopped

/-- The calls of a setup are runs of the service, and what a failed setup has acquired is released:
the `stop()` of its handler returns `True`. -/
structure SetupRuns (c : SetupCalls) (r : RuntimeResources) : Prop where
  happen : c.start.Happen r
  clean : ¬ FailsBehindListener r c.start
  start : (∃ x, (r.asyncStart c.start).1 = .error x) →
    StopJob r.stopTimeoutSeconds c.start.started c.start.stopped true
  forward : c.forward ≠ none → StopRuns c.stop (r.asyncStart c.start).2 ∧
    ((r.asyncStart c.start).2.asyncStop c.stop).1 = .ok true

/-- An action of a run in which failed setups are cleaned up behind. -/
def CleansUp (e : EntryLife) : EntryAction → Prop
  | .setup c => ∀ config timeout, c.configuration = .ok (config, timeout) →
    SetupRuns c (e.newRuntime config timeout c.env)
  | .unload c _ => ∀ r, e.runtimes.head? = some r → StopRuns c r
  | .worker _ _ | .sync _ _ _ => True

/-- A service that has been started stays so. -/
theorem started_step {w w' : World} {a : Action} (hp : Placed w) (hs : w.start ≠ .idle)
    (hr : ¬ a.isRestart) (h : step w a = some w') : w'.start ≠ .idle :=
  (Joining.stepped (n := w.stops.length)
    ⟨hp, hs, fun i _ hle hi => absurd (List.getElem?_eq_some_iff.mp hi).1 (by omega)⟩ hr h).started

namespace RuntimeResources

/-- The runtime holds what it has, and its service has been started. -/
structure Live (r : RuntimeResources) : Prop where
  held : Held r
  placed : Placed r.service
  started : r.service.start ≠ .idle

/-- The runtime has nothing left, and its thread is not alive. -/
structure Over (r : RuntimeResources) : Prop extends Live r where
  released : r.Released
  dead : r.service.threadAlive = false

section
variable {r : RuntimeResources}

/-- A new runtime on the file of an earlier service. -/
theorem New.newRuntime (e : EntryLife) (config : Config)
    (timeout : { timeout : ℚ // 0 < timeout }) (env : Env) :
    New (e.newRuntime config timeout env) := .init ..

/-- A start of a placed service is live. -/
theorem Live.asyncStart {c : StartCalls} (h : New r) (hp : Placed r.service) (hc : c.Happen r) :
    Live (r.asyncStart c).2 := by
  obtain ⟨hplaced, hstarted⟩ := asyncStart_service h hp hc
  exact ⟨.asyncStart h c, hplaced, hstarted⟩

/-- The service goes on while the runtime is started. -/
theorem asyncStart_steps {c : StartCalls} (h : New r) (hc : c.Happen r) :
    Steps step (fun _ a => ¬ a.isRestart) r.service (r.asyncStart c).2.service := by
  have hstarted : Steps step (fun _ a => ¬ a.isRestart) r.service c.started := by
    obtain ⟨u, hcall, hafter, -⟩ := hc.start
    have hnot : ¬ Action.startCall.isRestart := Bool.false_ne_true
    exact (Steps.tail _ .refl hnot hcall).trans hafter
  have hstopped : (∃ x, (r.asyncStart c).1 = .error x) →
      Steps step (fun _ a => ¬ a.isRestart) r.service c.stopped := fun hfailed => by
    obtain ⟨gone, u, v, hbefore, hcall, hafter, -⟩ := hc.stop hfailed
    have hnot : ¬ (Action.stopCall r.stopTimeoutSeconds).isRestart := Bool.false_ne_true
    exact hstarted.trans ((Steps.tail _ hbefore hnot hcall).trans hafter)
  have hout := asyncStart_outcome h c
  generalize r.asyncStart c = result at hout hstopped
  cases hout with
  | failed e => exact hstopped ⟨e, rfl⟩
  | behind e => exact hstopped ⟨e, rfl⟩
  | started => exact hstarted
  | monitored => exact hstarted

/-- **A failed start that is cleaned up behind is over.** -/
theorem Over.startFailed {c : StartCalls} (h : New r) (hp : Placed r.service) (hc : c.Happen r)
    (hclean : ¬ FailsBehindListener r c)
    (hstop : StopJob r.stopTimeoutSeconds c.started c.stopped true) {x : Exc}
    (hfailed : (r.asyncStart c).1 = .error x) : Over (r.asyncStart c).2 where
  toLive := .asyncStart h hp hc
  released := ((failsClean_iff h).mpr hclean x hfailed).1
  dead := by
    have hout := asyncStart_outcome h c
    obtain ⟨hplaced, hstarted⟩ := StartJob.started hp hc.start
    have hdead := hstop.joined hplaced hstarted
    generalize r.asyncStart c = result at hout hfailed
    cases hout with
    | failed e => exact hdead
    | behind e => exact hdead
    | started => cases hfailed
    | monitored => cases hfailed

/-- A stop leaves the worker, or has run its `stop()`. -/
theorem asyncStop_service (r : RuntimeResources) (c : StopCalls) :
    (r.asyncStop c).2.service = r.service ∨ (r.asyncStop c).2.service = c.stopped := by
  have hworker : ∀ r : RuntimeResources, (r.stopWorker c).2.service = c.stopped := by
    intro r
    unfold stopWorker
    dsimp only
    split
    · rfl
    · split
      · rfl
      · split <;> rfl
  unfold asyncStop
  split
  · exact .inr (hworker r)
  · split
    · exact .inl rfl
    · exact .inr (hworker _)

/-- The service goes on while the runtime is stopped. -/
theorem asyncStop_steps {c : StopCalls} (hc : StopRuns c r) :
    Steps step (fun _ a => ¬ a.isRestart) r.service (r.asyncStop c).2.service := by
  rcases asyncStop_service r c with he | he
  · rw [he]
    exact .refl
  · rw [he]
    cases hstop : c.stop with
    | error x => exact hc.raises x hstop
    | ok gone =>
      obtain ⟨u, v, hbefore, hcall, hafter, -⟩ := hc.happen gone hstop
      have hnot : ¬ (Action.stopCall r.stopTimeoutSeconds).isRestart := Bool.false_ne_true
      exact (Steps.tail _ hbefore hnot hcall).trans hafter

/-- **A stop that returns `True` ends the runtime.** -/
theorem Over.asyncStop {c : StopCalls} (h : Live r) (hc : StopRuns c r)
    (hreturns : (r.asyncStop c).1 = .ok true) : Over (r.asyncStop c).2 := by
  obtain ⟨hreleased, hdead⟩ := stopsClean_of_held h.held h.placed h.started c _ hc.happen
    (Prod.ext hreturns rfl)
  have hplaced : Placed (r.asyncStop c).2.service ∧ (r.asyncStop c).2.service.start ≠ .idle :=
    (asyncStop_steps hc).invariant (I := fun u => Placed u ∧ u.start ≠ .idle)
      ⟨h.placed, h.started⟩ fun u a v hu hr hs => ⟨hu.1.step hs, started_step hu.1 hu.2 hr hs⟩
  exact ⟨⟨⟨by simp [hreleased.1], by simp [hreleased.2]⟩, hplaced.1, hplaced.2⟩, hreleased, hdead⟩

/-- A step of its service leaves a runtime live, and one that is over, over. -/
theorem Live.worker (h : Live r) {a : Action} (hr : ¬ a.isRestart) {service : World}
    (hs : step r.service a = some service) : Live { r with service } :=
  ⟨⟨h.held.listeners, h.held.monitors⟩, h.placed.step hs, started_step h.placed h.started hr hs⟩

/-- The worker of an entry that is over may go on by itself. -/
theorem Over.worker (h : Over r) {a : Action} (hr : ¬ a.isRestart) {service : World}
    (hs : step r.service a = some service) : Over { r with service } := by
  refine ⟨h.toLive.worker hr hs, h.released, ?_⟩
  have hthread := thread_of_dead h.placed (Taken.of_step hs) hr h.started h.dead
  have hdead := h.dead
  unfold threadAlive at hdead ⊢
  rwa [hthread]

/-- A synchronization keeps the entry live. -/
theorem Live.sync (h : Live r) (issue reauth : Option Exc) :
    Live (r.syncAuthIssue issue reauth).2 := by
  obtain ⟨issue', requested, told, he⟩ := syncAuthIssue_keeps r issue reauth
  rw [he]
  exact ⟨⟨h.held.listeners, h.held.monitors⟩, h.placed, h.started⟩

end

end RuntimeResources

/-! ## One writer -/

/-- The runtimes of an entry: none but the last one has anything left, and that one only where the
entry is loaded or could not be unloaded. -/
structure Owned (w : World) (e : EntryLife) : Prop where
  steps : Steps step (fun _ _ => True) w e.service
  others : ∀ i r, e.runtimes[i]? = some r → 0 < i ∨ e.state.allowsSetup → Over r
  live : e.state = .loaded → ∃ r rs, e.runtimes = r :: rs ∧ Live r

section
variable {w : World} {e e' : EntryLife}

/-- A run of a service goes on. -/
theorem reaches_on {u v : World} (h : Steps step (fun _ _ => True) w u)
    (h' : Steps step (fun _ a => ¬ a.isRestart) u v) : Steps step (fun _ _ => True) w v :=
  h'.invariant h fun _ a _ hu _ hs => .tail a hu trivial hs

namespace Owned

/-- Before the first setup the process owns its files. -/
theorem init (w : World) (entryId : PyStr) (issue : Bool) : Owned w (.init entryId w issue) where
  steps := .refl
  others i r hi := by cases hi
  live hloaded := by cases hloaded

/-- Every runtime of an entry that may be set up is over. -/
theorem all_over (h : Owned w e) (hs : e.state.allowsSetup) : ∀ r ∈ e.runtimes, Over r := by
  intro r hr
  obtain ⟨i, hi⟩ := List.getElem?_of_mem hr
  exact h.others i r hi (.inr hs)

/-- One more runtime, on the file of those before it. -/
theorem cons (h : Owned w e) (hs : e.state.allowsSetup) {state : EntryState} {r : RuntimeResources}
    (hsteps : Steps step (fun _ _ => True) w r.service) (hlive : Live r)
    (hover : state.allowsSetup → Over r) :
    Owned w { e with state, runtimes := r :: e.runtimes } where
  steps := hsteps
  others i r' hi hwhen := by
    cases i with
    | zero =>
      cases hi
      exact hover (hwhen.resolve_left (Nat.lt_irrefl 0))
    | succ i => exact h.all_over hs r' (List.mem_of_getElem? hi)
  live _ := ⟨r, e.runtimes, rfl, hlive⟩

/-- **A setup keeps the workers apart.** -/
theorem setup (h : Owned w e) (hs : e.state.allowsSetup) {c : SetupCalls}
    (hc : CleansUp e (.setup c)) : Owned w (e.asyncSetupEntry c) := by
  unfold EntryLife.asyncSetupEntry
  cases hconfig : c.configuration with
  | error x =>
    refine ⟨h.steps, fun i r hi _ => h.others i r hi (.inr hs), fun hloaded => ?_⟩
    unfold EntryLife.stateAfter at hloaded
    dsimp only at hloaded
    split at hloaded <;> cases hloaded
  | ok built =>
    obtain ⟨config, timeout⟩ := built
    have hruns := hc config timeout hconfig
    have hnew := New.newRuntime e config timeout c.env
    have hboot : Steps step (fun _ _ => True) w (e.newRuntime config timeout c.env).service :=
      .tail (.restart config c.env) h.steps trivial rfl
    have hplaced : Placed (e.newRuntime config timeout c.env).service := .boot ..
    dsimp only
    generalize e.newRuntime config timeout c.env = r at hruns hnew hboot hplaced
    have hlive := Live.asyncStart hnew hplaced hruns.happen
    have hsteps := reaches_on hboot (asyncStart_steps hnew hruns.happen)
    have hstart := hruns.start
    have hover := fun x (hx : (r.asyncStart c.start).1 = .error x) =>
      Over.startFailed hnew hplaced hruns.happen hruns.clean (hstart ⟨x, hx⟩) hx
    have hforward := hruns.forward
    generalize r.asyncStart c.start = result at hlive hsteps hover hforward
    obtain ⟨outcome, r'⟩ := result
    cases outcome with
    | error x => exact h.cons hs hsteps hlive fun _ => hover x rfl
    | ok =>
      cases hraised : c.forward with
      | none => exact h.cons hs hsteps hlive (absurd · Bool.false_ne_true)
      | some x =>
        obtain ⟨hstop, hreturns⟩ := hforward (by simp [hraised])
        have hgone := Over.asyncStop hlive hstop hreturns
        exact h.cons hs (reaches_on hsteps (asyncStop_steps hstop)) hgone.toLive fun _ => hgone

/-- The last runtime of a loaded entry is stopped, and it is over where that returned `True`. -/
theorem unload (h : Owned w e) (hs : e.state = .loaded) {c : StopCalls} {platforms : Option Exc}
    (hc : CleansUp e (.unload c platforms)) : Owned w (e.asyncUnloadEntry c platforms) := by
  obtain ⟨r, rs, hruntimes, hlive⟩ := h.live hs
  have hruns : StopRuns c r := hc r (by rw [hruntimes]; rfl)
  have hsteps : Steps step (fun _ _ => True) w (r.asyncStop c).2.service := by
    have hservice : e.service = r.service := by
      unfold EntryLife.service
      rw [hruntimes]
      rfl
    exact reaches_on (hservice ▸ h.steps) (asyncStop_steps hruns)
  have hrest : ∀ i r', rs[i]? = some r' → Over r' := fun i r' hi =>
    h.others (i + 1) r' (by rw [hruntimes]; exact hi) (.inl (Nat.succ_pos i))
  have hreplaced : ∀ state : EntryState, state ≠ .loaded →
      (state.allowsSetup → Over (r.asyncStop c).2) →
      Owned w { e with state, runtimes := (r.asyncStop c).2 :: rs } := by
    intro state hloaded hover
    refine ⟨hsteps, fun i r' hi hwhen => ?_, fun hl => absurd hl hloaded⟩
    cases i with
    | zero =>
      cases hi
      exact hover (hwhen.resolve_left (Nat.lt_irrefl 0))
    | succ i => exact hrest i r' hi
  have hgone : (r.asyncStop c).1 = .ok true → Over (r.asyncStop c).2 :=
    Over.asyncStop hlive hruns
  unfold EntryLife.asyncUnloadEntry
  rw [hruntimes]
  dsimp only
  generalize r.asyncStop c = result at hreplaced hgone
  obtain ⟨outcome, r'⟩ := result
  split
  · next r'' heq =>
    cases heq
    refine hreplaced _ (fun hl => ?_) fun _ => hgone rfl
    split at hl <;> cases hl
  · next _ r'' _ heq =>
    cases heq
    exact hreplaced .failedUnload (by simp) (absurd · Bool.false_ne_true)

/-- A runtime changes, and stays what it is. -/
theorem set (h : Owned w e) {i : Nat} {r r' : RuntimeResources} (hi : e.runtimes[i]? = some r)
    (hsteps : Steps step (fun _ a => ¬ a.isRestart) r.service r'.service)
    (hlive : Live r → Live r') (hover : Over r → Over r') :
    Owned w { e with runtimes := e.runtimes.set i r' } where
  steps := by
    have hkeep := h.steps
    unfold EntryLife.service at hkeep ⊢
    cases hruntimes : e.runtimes with
    | nil =>
      rw [hruntimes] at hi
      cases hi
    | cons r₀ rs =>
      rw [hruntimes] at hi hkeep
      cases i with
      | zero =>
        cases hi
        exact reaches_on hkeep hsteps
      | succ i => exact hkeep
  others j r'' hj hwhen := by
    dsimp only at hj
    by_cases hij : i = j
    · subst hij
      rw [List.getElem?_set_self (List.getElem?_eq_some_iff.mp hi).1] at hj
      cases hj
      exact hover (h.others i r hi hwhen)
    · rw [List.getElem?_set_ne hij] at hj
      exact h.others j r'' hj hwhen
  live hloaded := by
    obtain ⟨r₀, rs, hruntimes, hr₀⟩ := h.live hloaded
    dsimp only
    rw [hruntimes] at hi ⊢
    cases i with
    | zero =>
      cases hi
      exact ⟨r', rs, rfl, hlive hr₀⟩
    | succ i => exact ⟨r₀, rs.set i r', rfl, hr₀⟩

/-- **Every step keeps the workers apart.** -/
theorem step {a : EntryAction} (h : Owned w e) (hc : CleansUp e a)
    (hs : entryStep e a = some e') : Owned w e' := by
  cases a with
  | setup c =>
    rw [entryStep] at hs
    split at hs
    · next hallows =>
      cases hs
      exact h.setup hallows hc
    · cases hs
  | unload c platforms =>
    rw [entryStep] at hs
    split at hs
    · next hloaded =>
      cases hs
      exact h.unload hloaded hc
    · cases hs
  | worker i a =>
    rw [entryStep] at hs
    split at hs
    · cases hs
    · next r hi =>
      split at hs
      · cases hs
      · next hr =>
        obtain ⟨service, hservice, rfl⟩ := Option.map_eq_some_iff.mp hs
        exact h.set hi (.tail a .refl hr hservice) (·.worker hr hservice) (·.worker hr hservice)
  | sync i issue reauth =>
    rw [entryStep] at hs
    split at hs
    · cases hs
    · next r hi =>
      split at hs
      · cases hs
      · next hmonitors =>
        cases hs
        obtain ⟨issue', requested, told, he⟩ := syncAuthIssue_keeps r issue reauth
        refine h.set hi (by rw [he]; exact .refl) (·.sync issue reauth) fun hover => ?_
        exact absurd hover.released.2 hmonitors

end Owned

end

/-- **The writers of an entry take turns.** In every run in which failed setups are cleaned up
behind, whatever Home Assistant and the services do: the service of the entry has come from that of
an earlier process by steps and restarts on the one file, no runtime but the last one has a
listener, a monitor or a live thread, and where the entry is neither loaded nor stuck in its unload,
the last one has none either. -/
theorem one_writer (w : World) (entryId : PyStr) (issue : Bool) (e : EntryLife)
    (hrun : Steps entryStep CleansUp (.init entryId w issue) e) :
    Steps step (fun _ _ => True) w e.service ∧
      ∀ i r, e.runtimes[i]? = some r → 0 < i ∨ e.state.allowsSetup →
        r.Released ∧ r.service.threadAlive = false := by
  have howned : Owned w e :=
    hrun.invariant (.init w entryId issue) fun _ _ _ h hc hs => h.step hc hs
  exact ⟨howned.steps, fun i r hi hwhen =>
    ⟨(howned.others i r hi hwhen).released, (howned.others i r hi hwhen).dead⟩⟩

/-- The entry of a first process. -/
def newEntryLife : EntryLife :=
  .init (py "entry") { World.boot .provisional .quiet .fresh [] with history := [] } false

/-- A setup whose spool cannot be opened leaves no writer, and the one that Home Assistant tries
next is loaded. -/
theorem failedSetup_over : ∃ e : EntryLife, e.state = .loaded ∧ e.runtimes.length = 2 ∧
    Steps step (fun _ _ => True) newEntryLife.earlier e.service ∧
      ∀ i r, e.runtimes[i]? = some r → 0 < i ∨ e.state.allowsSetup →
        r.Released ∧ r.service.threadAlive = false := by
  have hrun : (((startRun (.boot .provisional .quiet .fresh []) unopenedStart false).bind
      (stopRun · [.stopLock 0] true)).bind fun w' =>
        startRun (.boot .provisional .quiet w'.spool.db w'.history) readyStart true).isSome =
      true := by
    decide +kernel
  obtain ⟨w₂, hw₂⟩ := Option.isSome_iff_exists.mp hrun
  obtain ⟨w', hw', hw₂⟩ := Option.bind_eq_some_iff.mp hw₂
  obtain ⟨w, hw, hw'⟩ := Option.bind_eq_some_iff.mp hw'
  have hstart := startJob_of_run hw
  have hstop := stopJob_of_run hw'
  let raised : Exc := { type := .workerStartError, message := errorText refusal }
  let setup (start : StartCalls) : SetupCalls :=
    { configuration := .ok (.provisional, ⟨1, one_pos⟩), env := .quiet, start, forward := none
      stop := { monitor := none, unsubscribe := none, stop := .ok true, deleteIssue := none,
                stopped := w' } }
  let first : StartCalls :=
    { start := some raised, listen := none, issue := none, reauth := none, createTask := none,
      started := w, stopped := w' }
  let second : StartCalls :=
    { start := none, listen := none, issue := none, reauth := none, createTask := none,
      started := w₂, stopped := w₂ }
  have hfirst : CleansUp newEntryLife (.setup (setup first)) := by
    intro config timeout hconfig
    cases hconfig
    exact ⟨⟨hstart, fun _ => ⟨true, hstop⟩⟩, fun h => absurd h.1 (Option.some_ne_none _),
      fun _ => hstop, fun h => absurd rfl h⟩
  let e₁ := newEntryLife.asyncSetupEntry (setup first)
  have hsmooth : ∀ config timeout env,
      ¬ FailsBehindListener (e₁.newRuntime config timeout env) second := by
    simp [FailsBehindListener, SyncRaises, second]
  have hreturns : ∀ config timeout env,
      ∃ r', (e₁.newRuntime config timeout env).asyncStart second = (.ok (), r') :=
    fun config timeout env =>
      asyncStart_ok (.newRuntime e₁ config timeout env) rfl rfl (hsmooth config timeout env)
  have hsecond : CleansUp e₁ (.setup (setup second)) := by
    intro config timeout hconfig
    cases hconfig
    obtain ⟨r', hr'⟩ := hreturns .provisional ⟨1, one_pos⟩ .quiet
    have hok : ¬ ∃ x, ((e₁.newRuntime .provisional ⟨1, one_pos⟩ .quiet).asyncStart
        second).1 = .error x := by
      rw [hr']
      exact nofun
    exact ⟨⟨startJob_of_run hw₂, fun h => absurd h hok⟩, hsmooth _ _ _, fun h => absurd h hok,
      fun h => absurd rfl h⟩
  obtain ⟨r', hr'⟩ := hreturns .provisional ⟨1, one_pos⟩ .quiet
  have hloaded : e₁.asyncSetupEntry (setup second) =
      { e₁ with state := .loaded, runtimes := r' :: e₁.runtimes } := by
    unfold EntryLife.asyncSetupEntry
    dsimp only [setup]
    rw [hr']
  refine ⟨_, (congrArg EntryLife.state hloaded).trans rfl,
    (congrArg (fun e => e.runtimes.length) hloaded).trans rfl, ?_⟩
  exact one_writer _ (py "entry") false _
    (.tail (.setup (setup second)) (.tail (.setup (setup first)) .refl hfirst rfl) hsecond rfl)

end QuestDbWriter
