import QuestDbWriter.Lifecycle
import QuestDbWriter.Worker.Blocking
import QuestDbWriter.Lib.Lists

/-!
# The monitor of the credentials

`_sync_auth_issue` as `async_start` calls it once and `_monitor_loop` again and again, whatever the
worker does in between. The issue registry is told what a sync finds, and Home Assistant is asked
for a reauthentication where a sync finds the credentials rejected (`told`). A sync whose call of
the registry raises tells nothing, and a request that raises is not repeated.

`reauth_once_per_outage` says that the requests are the first reports of the outages: as many as
there are changes from accepted to rejected in what the registry was told.
-/

namespace QuestDbWriter

open Lib World

/-- What was reported, in order. -/
def reports (events : List AuthEvent) : List Bool :=
  events.filterMap fun
    | .reported rejected => some rejected
    | .requested => none

theorem reports_append (events events' : List AuthEvent) :
    reports (events ++ events') = reports events ++ reports events' :=
  List.filterMap_append

namespace RuntimeResources

/-- What goes on once `async_start` has ended: the service takes a step, or the monitor syncs, where
the issue registry and the request raise as given. -/
inductive MonitorAction where
  | worker (a : Action)
  | sync (issue reauth : Option Exc)

/-- One step of the runtime. What a sync raises is logged. -/
def monitorStep (r : RuntimeResources) : MonitorAction → Option RuntimeResources
  | .worker a => (step r.service a).map fun service => { r with service }
  | .sync issue reauth =>
    if r.monitors = [] then none else some (r.syncAuthIssue issue reauth).2

/-- The flags of the runtime are what it has told last. -/
structure Told (r : RuntimeResources) (issue : Bool) : Prop where
  issue : r.issue = (reports r.told).getLast?.getD issue
  requested : r.reauthRequested = (r.hasRequestReauth && (reports r.told).getLast?.getD false)
  count : r.told.count .requested =
    if r.hasRequestReauth then Edges.rises false (reports r.told) else 0

/-- What a sync does. -/
inductive Synced (r : RuntimeResources) : RuntimeResources → Prop where
  | nothing : Synced r r
  | accepted :
      Synced r { r with
        issue := false, reauthRequested := false, told := r.told ++ [.reported false] }
  | requested (hnew : r.reauthRequested = false) (hgiven : r.hasRequestReauth = true) :
      Synced r { r with
        issue := true, reauthRequested := true, told := r.told ++ [.reported true, .requested] }
  | rejected (hasked : r.reauthRequested = true ∨ r.hasRequestReauth = false) :
      Synced r { r with issue := true, told := r.told ++ [.reported true] }

section
variable {r r' : RuntimeResources} {issue : Bool}

theorem syncAuthIssue_synced (r : RuntimeResources) (issue reauth : Option Exc) :
    Synced r (r.syncAuthIssue issue reauth).2 := by
  unfold syncAuthIssue
  split
  · exact .nothing
  · split
    · exact .nothing
    · split
      · unfold requestReauthOnce
        split
        · next hasked => exact .rejected hasked
        · next hasked =>
          rw [not_or, Bool.not_eq_true, Bool.not_eq_false] at hasked
          have hsynced := Synced.requested (r := r) hasked.1 hasked.2
          rw [List.append_cons] at hsynced
          dsimp only
          split <;> exact hsynced
      · exact .accepted

/-- **A sync asks once for each outage.** -/
theorem Told.sync (h : Told r issue) (hs : Synced r r') : Told r' issue := by
  obtain ⟨hissue, hrequested, hcount⟩ := h
  cases hs with
  | nothing => exact ⟨hissue, hrequested, hcount⟩
  | accepted =>
    have hreports : reports (r.told ++ [.reported false]) = reports r.told ++ [false] :=
      reports_append ..
    refine ⟨by simp [hreports], by simp [hreports], ?_⟩
    rw [List.count_append, hcount, hreports, Edges.rises_snoc]
    simp
  | requested hnew hgiven =>
    have hreports : reports (r.told ++ [.reported true, .requested]) = reports r.told ++ [true] :=
      reports_append ..
    have hlast : (reports r.told).getLast?.getD false = false := by
      rw [hnew, hgiven] at hrequested
      simpa using hrequested.symm
    refine ⟨by simp [hreports], by simp [hreports, hgiven], ?_⟩
    rw [List.count_append, hcount, hreports, Edges.rises_snoc, hlast]
    simp [hgiven]
  | rejected hasked =>
    have hreports : reports (r.told ++ [.reported true]) = reports r.told ++ [true] :=
      reports_append ..
    cases hgiven : r.hasRequestReauth with
    | false =>
      rw [hgiven] at hrequested hcount
      refine ⟨by simp [hreports], ?_, ?_⟩
      · simpa [hgiven] using hrequested
      · rw [List.count_append, hcount]
        simp
    | true =>
      have hold : r.reauthRequested = true := hasked.resolve_right (by simp [hgiven])
      have hlast : (reports r.told).getLast?.getD false = true := by
        rw [hold, hgiven] at hrequested
        simpa using hrequested.symm
      refine ⟨by simp [hreports], by simp [hreports, hold], ?_⟩
      rw [List.count_append, hcount, hreports, Edges.rises_snoc, hlast]
      simp [hgiven]

/-- A runtime that has not been started has told nothing, and `async_start` tells what its one sync
tells. -/
theorem Told.start (h : New r) (htold : r.told = []) (c : StartCalls) :
    Told (r.asyncStart c).2 r.issue := by
  have hnew : Told { r with service := c.started }.listen r.issue := by
    unfold RuntimeResources.listen
    refine ⟨?_, ?_, ?_⟩
    · simp [htold, reports]
    · simp [htold, reports, h.reauthRequested]
    · simp [htold, reports, Edges.rises]
  have hsync := hnew.sync
    (syncAuthIssue_synced { r with service := c.started }.listen c.issue c.reauth)
  unfold asyncStart
  dsimp only
  split
  · exact ⟨hnew.issue, hnew.requested, hnew.count⟩
  · split
    · exact ⟨hnew.issue, hnew.requested, hnew.count⟩
    · split
      · exact hnew
      · split
        · next e u hu =>
          rw [hu] at hsync
          exact ⟨hsync.issue, hsync.requested, hsync.count⟩
        · next u hu =>
          rw [hu] at hsync
          split <;> exact ⟨hsync.issue, hsync.requested, hsync.count⟩

/-- Every step keeps what was told, and whether a reauthentication can be requested. -/
theorem Told.step (h : Told r issue) {a : MonitorAction} (hs : monitorStep r a = some r') :
    Told r' issue ∧ r'.hasRequestReauth = r.hasRequestReauth := by
  cases a with
  | worker a =>
    obtain ⟨service, -, rfl⟩ := Option.map_eq_some_iff.mp hs
    exact ⟨⟨h.issue, h.requested, h.count⟩, rfl⟩
  | sync call reauth =>
    rw [monitorStep] at hs
    split at hs
    · cases hs
    · cases hs
      obtain ⟨_, _, _, he⟩ := syncAuthIssue_keeps r call reauth
      exact ⟨h.sync (syncAuthIssue_synced r call reauth), by rw [he]⟩

end

/-- **Reauthentication is requested once for each outage.** Whatever the worker does between the
syncs, and whichever calls of the issue registry and requests raise: the requests are as many as the
changes from accepted to rejected in what the registry was told, and the issue is there exactly
where it was told last that the credentials are rejected. -/
theorem reauth_once_per_outage (entryId : Option PyStr) (stopTimeoutSeconds : ℚ)
    (hpos : 0 < stopTimeoutSeconds) (hasRequestReauth issue : Bool) (service : World)
    (c : StartCalls) (r : RuntimeResources)
    (hrun : Steps monitorStep (fun _ _ => True)
      ((init entryId stopTimeoutSeconds hpos hasRequestReauth issue service).asyncStart c).2 r) :
    r.issue = (reports r.told).getLast?.getD issue ∧
      r.told.count .requested =
        if hasRequestReauth then Edges.rises false (reports r.told) else 0 := by
  have hnew := New.init entryId stopTimeoutSeconds hpos hasRequestReauth issue service
  have hstart := Told.start hnew rfl c
  have hgiven : ((init entryId stopTimeoutSeconds hpos hasRequestReauth issue service).asyncStart
      c).2.hasRequestReauth = hasRequestReauth := by
    have hout := asyncStart_outcome hnew c
    generalize (init _ _ _ _ _ _).asyncStart c = result at hout
    cases hout <;> rfl
  obtain ⟨htold, hsame⟩ := hrun.invariant
    (I := fun v => Told v issue ∧ v.hasRequestReauth = hasRequestReauth) ⟨hstart, hgiven⟩
    fun _ _ _ ⟨h, hsame⟩ _ hs => ⟨(h.step hs).1, (h.step hs).2.trans hsame⟩
  exact ⟨htold.issue, by rw [htold.count, hsame]⟩

/-- A start none of whose calls raises, before the thread has done anything. -/
def smoothStart : StartCalls where
  start := none
  listen := none
  issue := none
  reauth := none
  createTask := none
  started := .boot .provisional .quiet .fresh []
  stopped := .boot .provisional .quiet .fresh []

/-- The first batch is rejected with status 401, and three syncs follow; the issue registry raises
in the first one. -/
def deniedSyncs : List MonitorAction :=
  oneDenied.map .worker ++ [.sync (some refusal) none, .sync none none, .sync none none]

/-- The issue is there, and one reauthentication was requested. -/
theorem deniedSyncs_requested : ∃ r : RuntimeResources,
    Steps monitorStep (fun _ _ => True)
      ((init (some (py "entry")) 1 one_pos true false smoothStart.started).asyncStart
        smoothStart).2 r ∧
    r.told = [.reported false, .reported true, .requested, .reported true] ∧
    r.issue = true ∧ r.told.count .requested = Edges.rises false (reports r.told) := by
  have hrun : ((exec monitorStep deniedSyncs
      ((init (some (py "entry")) 1 one_pos true false smoothStart.started).asyncStart
        smoothStart).2).any fun r => r.issue &&
          decide (r.told = [.reported false, .reported true, .requested, .reported true])) =
      true := by
    decide +kernel
  obtain ⟨r, hr, hend⟩ := (Option.any_eq_true _ _).mp hrun
  obtain ⟨hissue, htold⟩ := (Bool.and_eq_true _ _).mp hend
  have hsteps := Steps.of_exec (Option.mem_def.mp hr)
  exact ⟨r, hsteps, of_decide_eq_true htold, hissue,
    (reauth_once_per_outage _ _ one_pos true false _ smoothStart r hsteps).2⟩

end RuntimeResources

end QuestDbWriter
