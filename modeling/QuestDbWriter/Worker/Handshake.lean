import QuestDbWriter.Worker.Sides
import QuestDbWriter.Lib.Lists
import QuestDbWriter.Lib.Transition

/-!
# The handshake of a stop request

A requester sets `_stop_requested` and then signals the loop, if it finds one; the worker thread
publishes its loop and then tests `_stop_requested`. Here every access to `_stop_requested`, `_loop`
and `_stop_async` is a step of its own, for any number of requesters (`Handshake`). No request is
lost (`stop_request_kept`), and a run of the service is one of the handshake
(`Handshakes.of_steps`).
-/

namespace QuestDbWriter

open Lib

/-! ## The accesses -/

/-- A call of `stop()`, or of `start()` that can time out. -/
inductive RequesterPc where
  /-- Before the lock block that decides on a request, or not to make one. -/
  | calling
  /-- Before `_stop_requested.set()`. -/
  | setting
  /-- In `_signal_loop`, before it reads `_loop`. -/
  | reading
  /-- Before `loop.is_running()`. -/
  | asking
  /-- Before `loop.call_soon_threadsafe(_stop_async.set)`. -/
  | scheduling
  | finished
deriving DecidableEq

/-- The worker thread, in `asyncio.run(_async_main(...))`. -/
inductive LoopPc where
  | starting
  /-- Before `_loop` is assigned. -/
  | publishing
  /-- Before `_stop_requested.is_set()`. -/
  | testing
  /-- Before `_stop_async.set()`, where the test found a request. -/
  | setting
  /-- Behind the test. -/
  | passed
  | ended
deriving DecidableEq

/-- The requester has set `_stop_requested`. -/
def RequesterPc.HasSet : RequesterPc → Prop
  | .reading | .asking | .scheduling | .finished => True
  | _ => False

/-- The three variables, the callbacks that set `_stop_async`, and where the threads stand. -/
structure Handshake where
  stopRequested : Bool
  /-- `_loop` is not `None`. -/
  published : Bool
  /-- `loop.is_running()`. -/
  running : Bool
  stopAsync : Bool
  callbacks : Nat
  requesters : List RequesterPc
  loop : LoopPc

/-- One access of a thread to what they share. -/
inductive HandshakeAction where
  | call
  | request (i : Nat)
  | set (i : Nat)
  | read (i : Nat)
  | ask (i : Nat)
  | schedule (i : Nat)
  | run
  | publish
  | test
  | setAsync
  | callback
  | leave

namespace Handshake

/-- Before the thread of `start()` runs. -/
def initial : Handshake where
  stopRequested := false
  published := false
  running := false
  stopAsync := false
  callbacks := 0
  requesters := []
  loop := .starting

/-- A requester moves on. -/
def goTo (s : Handshake) (i : Nat) (pc : RequesterPc) : Handshake :=
  { s with requesters := s.requesters.set i pc }

/-- One access. -/
def step (s : Handshake) : HandshakeAction → Option Handshake
  | .call => some { s with requesters := s.requesters ++ [.calling] }
  | .request i => if s.requesters[i]? = some .calling then some (s.goTo i .setting) else none
  | .set i =>
    if s.requesters[i]? = some .setting then some { s.goTo i .reading with stopRequested := true }
    else none
  | .read i =>
    if s.requesters[i]? = some .reading then
      some (s.goTo i (if s.published then .asking else .finished))
    else none
  | .ask i =>
    if s.requesters[i]? = some .asking then
      some (s.goTo i (if s.running then .scheduling else .finished))
    else none
  -- `call_soon_threadsafe` raises a `RuntimeError`, which is caught, where the loop is closed
  | .schedule i =>
    if s.requesters[i]? = some .scheduling then
      some { s.goTo i .finished with
        callbacks := if s.running then s.callbacks + 1 else s.callbacks }
    else none
  | .run =>
    if s.loop = .starting then some { s with running := true, loop := .publishing } else none
  | .publish =>
    if s.loop = .publishing then some { s with published := true, loop := .testing } else none
  | .test =>
    if s.loop = .testing then
      some { s with loop := if s.stopRequested then .setting else .passed }
    else none
  | .setAsync =>
    if s.loop = .setting then some { s with stopAsync := true, loop := .passed } else none
  | .callback =>
    if s.running ∧ 0 < s.callbacks then
      some { s with callbacks := s.callbacks - 1, stopAsync := true }
    else none
  | .leave =>
    if s.loop = .passed then some { s with running := false, loop := .ended } else none

/-! ## No request is lost -/

/-- A request that has been signalled has reached the loop, or a callback will tell it, or the loop
has not tested for it yet. -/
structure Kept (s : Handshake) : Prop where
  published : s.published = true ↔ s.loop ≠ .starting ∧ s.loop ≠ .publishing
  running : s.running = true ↔ s.loop ≠ .starting ∧ s.loop ≠ .ended
  requested : ∀ pc ∈ s.requesters, pc.HasSet → s.stopRequested = true
  seen : ∀ pc ∈ s.requesters, pc = .asking ∨ pc = .scheduling → s.published = true
  kept : .finished ∈ s.requesters → s.stopAsync = true ∨ 0 < s.callbacks ∨ s.loop ≠ .passed

namespace Kept

variable {s s' : Handshake}

/-- Before the thread starts nothing is promised. -/
theorem initial : Kept initial where
  published := by simp [Handshake.initial]
  running := by simp [Handshake.initial]
  requested := nofun
  seen := nofun
  kept := nofun

/-- A requester moves on, and has set `_stop_requested` where it was to. -/
theorem goTo (h : Kept s) {i : Nat} {pc pc' : RequesterPc} (hi : s.requesters[i]? = some pc)
    (hset : pc'.HasSet → pc.HasSet) (hseen : pc' = .asking ∨ pc' = .scheduling → s.published = true)
    (hkept : pc' = .finished → s.stopAsync = true ∨ 0 < s.callbacks ∨ s.loop ≠ .passed) :
    Kept (s.goTo i pc') where
  published := h.published
  running := h.running
  requested q hq hn := by
    rcases List.mem_or_eq_of_mem_set hq with hq | rfl
    · exact h.requested q hq hn
    · exact h.requested pc (List.mem_of_getElem? hi) (hset hn)
  seen q hq hn := by
    rcases List.mem_or_eq_of_mem_set hq with hq | rfl
    · exact h.seen q hq hn
    · exact hseen hn
  kept hm := by
    rcases List.mem_or_eq_of_mem_set hm with hm | he
    · exact h.kept hm
    · exact hkept he.symm

/-- **Every access keeps it.** -/
theorem step (h : Kept s) {a : HandshakeAction} (hs : s.step a = some s') : Kept s' := by
  cases a with
  | call =>
    cases hs
    refine ⟨h.published, h.running, fun pc hm hn => ?_, fun pc hm hn => ?_, fun hm => h.kept ?_⟩
    · rcases List.mem_append.mp hm with hm | hm
      · exact h.requested pc hm hn
      · exact (List.mem_singleton.mp hm ▸ hn : RequesterPc.HasSet .calling).elim
    · rcases List.mem_append.mp hm with hm | hm
      · exact h.seen pc hm hn
      · obtain rfl := List.mem_singleton.mp hm
        rcases hn with hn | hn <;> cases hn
    · rcases List.mem_append.mp hm with hm | hm
      · exact hm
      · cases List.mem_singleton.mp hm
  | request i =>
    obtain ⟨hi, ⟨⟩⟩ := Option.ite_none_right_eq_some.mp hs
    exact h.goTo hi False.elim (fun hn => by rcases hn with hn | hn <;> cases hn) nofun
  | set i =>
    obtain ⟨hi, ⟨⟩⟩ := Option.ite_none_right_eq_some.mp hs
    refine ⟨h.published, h.running, fun _ _ _ => rfl, fun pc hm hn => ?_, fun hm => h.kept ?_⟩
    · rcases List.mem_or_eq_of_mem_set hm with hm | rfl
      · exact h.seen pc hm hn
      · rcases hn with hn | hn <;> cases hn
    · exact (List.mem_or_eq_of_mem_set hm).resolve_right nofun
  | read i =>
    obtain ⟨hi, ⟨⟩⟩ := Option.ite_none_right_eq_some.mp hs
    refine h.goTo hi (fun _ => trivial) (fun hn => ?_) fun hn => ?_
    · split at hn
      · next hp => exact hp
      · rcases hn with hn | hn <;> cases hn
    · split at hn
      · cases hn
      · next hp =>
        -- the loop was not published, so the test is still to come
        refine .inr (.inr fun hpassed => hp (h.published.mpr ?_))
        rw [hpassed]
        exact ⟨nofun, nofun⟩
  | ask i =>
    obtain ⟨hi, ⟨⟩⟩ := Option.ite_none_right_eq_some.mp hs
    have hp := h.seen _ (List.mem_of_getElem? hi) (.inl rfl)
    refine h.goTo hi (fun _ => trivial) (fun _ => hp) fun hn => ?_
    split at hn
    · cases hn
    · next hr =>
      -- the loop has been published and does not run, so it has ended
      refine .inr (.inr fun hpassed => hr (h.running.mpr ?_))
      rw [hpassed]
      exact ⟨nofun, nofun⟩
  | schedule i =>
    obtain ⟨hi, ⟨⟩⟩ := Option.ite_none_right_eq_some.mp hs
    have hreq := h.requested _ (List.mem_of_getElem? hi) trivial
    refine ⟨h.published, h.running, fun _ _ _ => hreq, fun pc hm hn => ?_, fun _ => ?_⟩
    · rcases List.mem_or_eq_of_mem_set hm with hm | rfl
      · exact h.seen pc hm hn
      · rcases hn with hn | hn <;> cases hn
    · dsimp only
      split
      · exact .inr (.inl (Nat.succ_pos _))
      · next hr =>
        refine .inr (.inr fun hpassed => hr (h.running.mpr ?_))
        rw [show s.loop = .passed from hpassed]
        exact ⟨nofun, nofun⟩
  | run =>
    obtain ⟨hl, ⟨⟩⟩ := Option.ite_none_right_eq_some.mp hs
    refine ⟨?_, by simp, h.requested, h.seen, fun _ => .inr (.inr nofun)⟩
    have hp := h.published
    rw [hl] at hp
    simpa using hp
  | publish =>
    obtain ⟨hl, ⟨⟩⟩ := Option.ite_none_right_eq_some.mp hs
    refine ⟨by simp, ?_, h.requested, fun _ _ _ => rfl, fun _ => .inr (.inr nofun)⟩
    have hr := h.running
    rw [hl] at hr
    simpa using hr
  | test =>
    obtain ⟨hl, ⟨⟩⟩ := Option.ite_none_right_eq_some.mp hs
    have hp := h.published
    have hr := h.running
    rw [hl] at hp hr
    by_cases hreq : s.stopRequested = true
    · rw [if_pos hreq]
      exact ⟨by simpa using hp, by simpa using hr, h.requested, h.seen, fun _ => .inr (.inr nofun)⟩
    · rw [if_neg hreq]
      refine ⟨by simpa using hp, by simpa using hr, h.requested, h.seen, fun hm => ?_⟩
      -- a requester that has finished has set `_stop_requested` before
      exact absurd (h.requested _ hm trivial) hreq
  | setAsync =>
    obtain ⟨hl, ⟨⟩⟩ := Option.ite_none_right_eq_some.mp hs
    have hp := h.published
    have hr := h.running
    rw [hl] at hp hr
    exact ⟨by simpa using hp, by simpa using hr, h.requested, h.seen, fun _ => .inl rfl⟩
  | callback =>
    obtain ⟨-, ⟨⟩⟩ := Option.ite_none_right_eq_some.mp hs
    exact ⟨h.published, h.running, h.requested, h.seen, fun _ => .inl rfl⟩
  | leave =>
    obtain ⟨hl, ⟨⟩⟩ := Option.ite_none_right_eq_some.mp hs
    have hp := h.published
    rw [hl] at hp
    exact ⟨by simpa using hp, by simp, h.requested, h.seen, fun _ => .inr (.inr nofun)⟩

/-- It holds in every interleaving of the accesses. -/
theorem of_steps (hrun : Steps Handshake.step (fun _ _ => True) Handshake.initial s) : Kept s :=
  hrun.invariant initial fun _ _ _ h _ hs => h.step hs

end Kept

/-- **A stop request is never lost**: in no state of any interleaving has a requester finished, and
the worker passed its test with its loop running, while `_stop_async` is unset and no callback that
sets it is outstanding. -/
theorem stop_request_kept (s : Handshake) (hrun : Steps step (fun _ _ => True) initial s) :
    ¬ (.finished ∈ s.requesters ∧ s.loop = .passed ∧ s.running = true ∧ s.stopAsync = false ∧
      s.callbacks = 0) := by
  rintro ⟨hfinished, hpassed, -, hunset, hnone⟩
  rcases (Kept.of_steps hrun).kept hfinished with hset | hpos | hne
  · cases hunset.symm.trans hset
  · exact absurd hnone (Nat.ne_of_gt hpos)
  · exact hne hpassed

/-- A request that finds no loop, and a worker that tests behind it. -/
def earlyRequest : List HandshakeAction :=
  [.call, .request 0, .set 0, .run, .read 0, .publish, .test, .setAsync]

/-- It is kept. -/
theorem earlyRequest_kept : ∃ s : Handshake, exec step earlyRequest initial = some s ∧
    .finished ∈ s.requesters ∧
    ¬ (.finished ∈ s.requesters ∧ s.loop = .passed ∧ s.running = true ∧ s.stopAsync = false ∧
      s.callbacks = 0) := by
  have hrun : ((exec step earlyRequest initial).any fun s =>
      decide (.finished ∈ s.requesters)) = true := by
    decide
  obtain ⟨s, hs, hfinished⟩ := (Option.any_eq_true _ _).mp hrun
  exact ⟨s, hs, of_decide_eq_true hfinished, stop_request_kept s (.of_exec hs)⟩

end Handshake

/-! ## The service takes part in the handshake -/

/-- Where `_async_main` stands in the handshake. -/
def MainPc.loopPc : MainPc → LoopPc
  | .idle => .starting
  | .publishing => .publishing
  | .testing => .testing
  | .ended => .ended
  | _ => .passed

/-- Where a call of `stop()` stands. One that returned has finished, or made no request. -/
def StopPc.IsAt : StopPc → RequesterPc → Prop
  | .locking _ _, pc => pc = .calling
  | .setting, pc => pc = .setting
  | .signalling, pc => pc = .reading
  | .joining, pc => pc = .finished
  | .returned _, pc => pc = .calling ∨ pc = .finished

/-- Where the call of `start()` stands. -/
def StartPc.IsAt : StartPc → RequesterPc → Prop
  | .timedOut, pc => pc = .setting
  | .signalling, pc => pc = .reading
  | .raised, pc => pc = .calling ∨ pc = .finished
  | _, pc => pc = .calling

/-- The thread has left its loop. -/
def ThreadPc.IsBeyond : ThreadPc → Prop
  | .raising _ | .closing _ | .exiting _ _ | .ended | .dead => True
  | _ => False

/-- The service stands where the handshake stands: the call of `start()` is the first requester, and
the calls of `stop()` are the others. -/
structure Handshakes (w : World) (s : Handshake) : Prop where
  stopRequested : s.stopRequested = w.stopRequested
  loopRunning : w.loopRunning = (s.published && s.running)
  stopAsync : s.stopAsync = w.stopAsync
  callbacks : s.callbacks = w.callbacks.count .stopAsync
  loop : s.loop = w.main.loopPc
  requesters : ∃ pc pcs, s.requesters = pc :: pcs ∧ w.start.IsAt pc ∧
    List.Forall₂ StopPc.IsAt w.stops pcs
  beyond : w.main = .ended → w.thread.IsBeyond

namespace Handshake

/-- A requester signals the loop, if it finds one. -/
theorem signals {s : Handshake} {i : Nat} (hi : s.requesters[i]? = some .reading) :
    Steps step (fun _ _ => True) s { s.goTo i .finished with
      callbacks := if s.published && s.running then s.callbacks + 1 else s.callbacks } := by
  have hlt : i < s.requesters.length := (List.getElem?_eq_some_iff.mp hi).1
  have hset : ∀ pc : RequesterPc, (s.requesters.set i pc)[i]? = some pc := fun pc => by
    rw [List.getElem?_set_self hlt]
  have hread : s.step (.read i) = some (s.goTo i (if s.published then .asking else .finished)) :=
    if_pos hi
  cases hp : s.published with
  | false =>
    rw [hp] at hread
    exact .tail _ .refl trivial hread
  | true =>
    rw [hp] at hread
    have hask : (s.goTo i .asking).step (.ask i) =
        some ((s.goTo i .asking).goTo i (if s.running then .scheduling else .finished)) :=
      if_pos (hset .asking)
    have hasked : Steps step (fun _ _ => True) s
        ((s.goTo i .asking).goTo i (if s.running then .scheduling else .finished)) :=
      .tail _ (.tail _ .refl trivial hread) trivial hask
    have hgo : ∀ pc pc' : RequesterPc, (s.goTo i pc).goTo i pc' = s.goTo i pc' := fun pc pc' => by
      unfold goTo
      rw [List.set_set]
    rw [hgo] at hasked
    cases hr : s.running with
    | false =>
      rw [hr] at hasked
      exact hasked
    | true =>
      rw [hr] at hasked
      have hschedule : (s.goTo i .scheduling).step (.schedule i) =
          some { (s.goTo i .scheduling).goTo i .finished with
            callbacks := if s.running then s.callbacks + 1 else s.callbacks } :=
        if_pos (hset .scheduling)
      rw [hgo, hr] at hschedule
      exact hasked.tail _ trivial hschedule

end Handshake

namespace Handshakes

open World

variable {w w' : World} {s : Handshake} {a : Action}

/-- A step that the handshake does not see. -/
theorem of_eq (h : Handshakes w s) (hr : w'.stopRequested = w.stopRequested)
    (hl : w'.loopRunning = w.loopRunning) (ha : w'.stopAsync = w.stopAsync)
    (hc : w'.callbacks.count .stopAsync = w.callbacks.count .stopAsync)
    (hm : w'.main.loopPc = w.main.loopPc) (hs : w'.start = w.start) (ht : w'.stops = w.stops)
    (hb : w'.main = .ended → w'.thread.IsBeyond) : Handshakes w' s where
  stopRequested := h.stopRequested.trans hr.symm
  loopRunning := hl.trans h.loopRunning
  stopAsync := h.stopAsync.trans ha.symm
  callbacks := h.callbacks.trans hc.symm
  loop := h.loop.trans hm.symm
  requesters := hs ▸ ht ▸ h.requesters
  beyond := hb

/-- The service has followed the handshake by some accesses. -/
def Follows (w' : World) (s : Handshake) : Prop :=
  ∃ s', Steps Handshake.step (fun _ _ => True) s s' ∧ Handshakes w' s'

/-- No access at all. -/
theorem Follows.rest (h : Handshakes w' s) : Follows w' s := ⟨s, .refl, h⟩

/-- A write of the state is no access. -/
theorem acts (h : Handshakes w s) (ha : Acts w w') : Handshakes w' s := by
  obtain ⟨_, _, _, rfl⟩ := ha.world
  exact h.of_eq rfl rfl rfl rfl rfl rfl rfl h.beyond

/-- Neither is a turn of the delivery task. -/
theorem delivers (h : Handshakes w s) (ha : Delivers w w') : Handshakes w' s := by
  obtain ⟨_, _, _, _, _, _, rfl⟩ := ha.world
  exact h.of_eq rfl rfl rfl rfl rfl rfl rfl h.beyond

/-- The loop is left. -/
theorem leave (h : Handshakes w s) (hpassed : s.loop = .passed) {persist : PersistPc}
    {deliver : DeliverPc} {thread : ThreadPc} (hb : thread.IsBeyond) :
    Follows { w with persist, deliver, thread, main := .ended, loopRunning := false } s := by
  refine ⟨{ s with running := false, loop := .ended }, .tail .leave .refl trivial (if_pos hpassed),
    h.stopRequested, ?_, h.stopAsync, h.callbacks, rfl, h.requesters, fun _ => hb⟩
  rw [Bool.and_false]

/-- The end by an exception is the access of the worker thread that ends it. -/
theorem mainRaise (h : Handshakes w s) (hpassed : s.loop = .passed) (e : Exc) :
    Follows (w.mainRaise e) s := by
  obtain ⟨persist, deliver, he, -⟩ := mainRaise_eq w e
  rw [he]
  exact h.leave hpassed trivial

/-- So is the return. -/
theorem mainFinish (h : Handshakes w s) (hpassed : s.loop = .passed) : Follows w.mainFinish s := by
  rcases mainFinish_eq w with ⟨e, he⟩ | ⟨deliver, he, -⟩
  · rw [he]
    exact h.mainRaise hpassed e
  · rw [he]
    exact @leave w s h hpassed w.persist deliver (.closing false) trivial

/-- A shutdown flush is no access before it. -/
theorem flushes (h : Handshakes w s) (hf : Flushes w w') (hpassed : s.loop = .passed) :
    Follows w' s := by
  cases hf with
  | raised u e hu => exact (h.acts hu).mainRaise hpassed e
  | finished u hu => exact (h.acts hu).mainFinish hpassed
  | ensuring u hu =>
    have h := h.acts hu
    exact .rest (h.of_eq rfl rfl rfl rfl (h.loop ▸ hpassed).symm rfl rfl nofun)
  | sending u built backoff hu =>
    have h := h.acts hu
    exact .rest (h.of_eq rfl rfl rfl rfl (h.loop ▸ hpassed).symm rfl rfl nofun)

/-- A call of `stop()` moves on with its requester. -/
theorem stop_moves (h : Handshakes w s) {i : Nat} {pc pc' : StopPc} {q : RequesterPc}
    (hi : w.stops[i]? = some pc) (hq : pc'.IsAt q) :
    ∃ q', s.requesters[i + 1]? = some q' ∧ pc.IsAt q' ∧
      ∃ p pcs, s.requesters.set (i + 1) q = p :: pcs ∧
      w.start.IsAt p ∧ List.Forall₂ StopPc.IsAt (w.stops.set i pc') pcs := by
  obtain ⟨p, pcs, hreq, hstart, hstops⟩ := h.requesters
  obtain ⟨q', hq', hat, hset⟩ := forall₂_set hstops hi hq
  exact ⟨q', hreq ▸ hq', hat, p, pcs.set i q, by rw [hreq, List.set_cons_succ], hstart, hset⟩

/-- `start()` moves on with its requester. -/
theorem start_moves (h : Handshakes w s) {pc : StartPc} {q : RequesterPc} (hq : pc.IsAt q) :
    ∃ q', s.requesters[0]? = some q' ∧ w.start.IsAt q' ∧ ∃ p pcs, s.requesters.set 0 q = p :: pcs ∧
      pc.IsAt p ∧ List.Forall₂ StopPc.IsAt w.stops pcs := by
  obtain ⟨p, pcs, hreq, hstart, hstops⟩ := h.requesters
  exact ⟨p, by rw [hreq]; rfl, hstart, q, pcs, by rw [hreq]; rfl, hq, hstops⟩

/-- A request is signalled, by the call that `v` has moved on from. -/
theorem signalled {v : World} (h : Handshakes w s) {i : Nat} (hi : s.requesters[i]? = some .reading)
    (hsame : v.stopRequested = w.stopRequested ∧ v.loopRunning = w.loopRunning ∧
      v.stopAsync = w.stopAsync ∧ v.callbacks = w.callbacks ∧ v.main = w.main ∧ v.thread = w.thread)
    (hreq : ∃ p pcs, s.requesters.set i .finished = p :: pcs ∧ v.start.IsAt p ∧
      List.Forall₂ StopPc.IsAt v.stops pcs) : Follows (v.signalLoop .stopAsync) s := by
  obtain ⟨h1, h2, h3, h4, h5, h6⟩ := hsame
  refine ⟨_, Handshake.signals hi, ?_⟩
  have hrunning : v.loopRunning = (s.published && s.running) := h2.trans h.loopRunning
  unfold signalLoop
  cases hl : (s.published && s.running) with
  | true =>
    rw [if_pos (hrunning.trans hl)]
    refine ⟨h.stopRequested.trans h1.symm, hrunning, h.stopAsync.trans h3.symm, ?_,
      h.loop.trans (congrArg MainPc.loopPc h5.symm), hreq, fun hm => h6 ▸ h.beyond (h5 ▸ hm)⟩
    show s.callbacks + 1 = (v.callbacks ++ [Callback.stopAsync]).count Callback.stopAsync
    rw [h.callbacks, h4, List.count_append]
    rfl
  | false =>
    rw [if_neg (by rw [hrunning, hl]; exact nofun)]
    refine ⟨h.stopRequested.trans h1.symm, hrunning, h.stopAsync.trans h3.symm, ?_,
      h.loop.trans (congrArg MainPc.loopPc h5.symm), hreq, fun hm => h6 ▸ h.beyond (h5 ▸ hm)⟩
    exact h.callbacks.trans (congrArg _ h4.symm)

/-- What the callers and the callbacks do is made of accesses of the handshake. -/
theorem outside (ht : Taken w a w') (ha : a.IsOutside) (h : Handshakes w s) : Follows w' s := by
  cases ht with
  | submit event =>
    obtain ⟨shared, ⟨he, -⟩ | ⟨e, -, -, -, -, he, -⟩, -⟩ := submit_eq w event
    · rw [he]
      exact .rest (h.of_eq rfl rfl rfl rfl rfl rfl rfl h.beyond)
    · rw [he]
      exact .rest (h.of_eq rfl rfl rfl rfl rfl rfl rfl h.beyond)
  | submitSignal =>
    unfold signalLoop
    split
    · refine .rest (h.of_eq rfl rfl rfl ?_ rfl rfl rfl h.beyond)
      show (w.callbacks ++ [Callback.wakePersist]).count Callback.stopAsync = _
      rw [List.count_append]
      rfl
    · exact .rest (h.of_eq rfl rfl rfl rfl rfl rfl rfl h.beyond)
  | startReady hwait =>
    obtain ⟨pc, pcs, hreq, hstart, hstops⟩ := h.requesters
    rw [hwait] at hstart
    have hstart : pc = .calling := hstart
    rcases startReady_eq w with he | he
    · rw [he]
      exact .rest ⟨h.stopRequested, h.loopRunning, h.stopAsync, h.callbacks, h.loop,
        ⟨pc, pcs, hreq, .inl hstart, hstops⟩, h.beyond⟩
    · rw [he]
      exact .rest ⟨h.stopRequested, h.loopRunning, h.stopAsync, h.callbacks, h.loop,
        ⟨pc, pcs, hreq, hstart, hstops⟩, h.beyond⟩
  | startTimeout hwait =>
    obtain ⟨q, hq, hat, hreq⟩ := h.start_moves (show StartPc.IsAt .timedOut .setting from rfl)
    rw [hwait] at hat
    obtain rfl : q = .calling := hat
    exact ⟨_, .tail (.request 0) .refl trivial (if_pos hq), h.stopRequested, h.loopRunning,
      h.stopAsync, h.callbacks, h.loop, hreq, h.beyond⟩
  | startTimedOut hat =>
    obtain ⟨q, hq, hat', hreq⟩ := h.start_moves (show StartPc.IsAt .signalling .reading from rfl)
    rw [hat] at hat'
    obtain rfl : q = .setting := hat'
    exact ⟨_, .tail (.set 0) .refl trivial (if_pos hq), rfl, h.loopRunning, h.stopAsync,
      h.callbacks, h.loop, hreq, h.beyond⟩
  | startSignal hat =>
    obtain ⟨q, hq, hat', hreq⟩ := h.start_moves (show StartPc.IsAt .raised .finished from .inr rfl)
    rw [hat] at hat'
    obtain rfl : q = .reading := hat'
    exact h.signalled (v := { w with start := .raised }) hq ⟨rfl, rfl, rfl, rfl, rfl, rfl⟩ hreq
  | stopCall timeout =>
    obtain ⟨pc, pcs, hreq, hstart, hstops⟩ := h.requesters
    refine ⟨_, .tail .call .refl trivial rfl, h.stopRequested, h.loopRunning, h.stopAsync,
      h.callbacks, h.loop, ⟨pc, pcs ++ [.calling], ?_, hstart, ?_⟩, h.beyond⟩
    · show s.requesters ++ [.calling] = _
      rw [hreq, List.cons_append]
    · exact List.rel_append hstops (.cons rfl .nil)
  | stopSet i hi =>
    obtain ⟨q, hq, hat, hreq⟩ := h.stop_moves hi (show StopPc.IsAt .signalling .reading from rfl)
    obtain rfl : q = .setting := hat
    exact ⟨_, .tail (.set (i + 1)) .refl trivial (if_pos hq), rfl, h.loopRunning, h.stopAsync,
      h.callbacks, h.loop, hreq, h.beyond⟩
  | stopSignal i hi =>
    obtain ⟨q, hq, hat, hreq⟩ := h.stop_moves hi (show StopPc.IsAt .joining .finished from rfl)
    obtain rfl : q = .reading := hat
    exact h.signalled (v := { w with stops := w.stops.set i .joining }) hq
      ⟨rfl, rfl, rfl, rfl, rfl, rfl⟩ hreq
  | stopReturn i hi =>
    obtain ⟨q, hq, hat, hreq⟩ := h.stop_moves hi
      (show StopPc.IsAt (.returned (!w.threadAlive)) .finished from .inr rfl)
    obtain rfl : q = .finished := hat
    rw [set_same hq] at hreq
    exact .rest ⟨h.stopRequested, h.loopRunning, h.stopAsync, h.callbacks, h.loop, hreq, h.beyond⟩
  | wakePersist callbacks _ _ hc =>
    refine .rest (h.of_eq rfl rfl rfl ?_ rfl rfl rfl h.beyond)
    rw [hc]
    rfl
  | stopAsync callbacks hl _ hc =>
    have hrunning := h.loopRunning
    rw [hl] at hrunning
    have hpos : s.callbacks = callbacks.count .stopAsync + 1 := by
      rw [h.callbacks, hc, List.count_cons_self]
    refine ⟨_, .tail .callback .refl trivial
      (if_pos ⟨(Bool.and_eq_true_iff.mp hrunning.symm).2, ?_⟩),
      h.stopRequested, h.loopRunning, rfl, ?_, h.loop, h.requesters, h.beyond⟩
    · exact Nat.sub_eq_of_eq_add hpos
    · omega
  | _ => exact ha.elim

/-- So is what the thread does, and what starts and stops it. -/
theorem other (ht : Taken w a w') (ha : a.IsOther) (hp : Placed w) (hk : s.Kept)
    (h : Handshakes w s) (hr : ¬ a.isRestart) : Follows w' s := by
  cases ht with
  | environment =>
    exact .rest (h.of_eq rfl rfl rfl rfl rfl rfl rfl h.beyond)
  | restart => exact absurd rfl hr
  | startCall hidle =>
    obtain ⟨pc, pcs, hreq, hstart, hstops⟩ := h.requesters
    rw [hidle] at hstart
    have hstart : pc = .calling := hstart
    unfold startCall
    split
    · next hn =>
      refine .rest ⟨h.stopRequested, h.loopRunning, h.stopAsync, h.callbacks, h.loop,
        ⟨pc, pcs, hreq, hstart, hstops⟩, fun hm => ?_⟩
      have hb := h.beyond hm
      rw [hp.fresh hn] at hb
      exact hb.elim
    · exact .rest ⟨h.stopRequested, h.loopRunning, h.stopAsync, h.callbacks, h.loop,
        ⟨pc, pcs, hreq, .inl hstart, hstops⟩, h.beyond⟩
  | stopLock i seen timeout hi =>
    obtain ⟨pc, state, deadline, he, hcase⟩ := stopLock_eq w i seen timeout
    rw [he]
    have hpc : pc = .returned true ∨ pc = .setting := by
      rcases hcase with ⟨-, -, hpc⟩ | ⟨-, -, hpc, -⟩ | ⟨-, hpc, -⟩
      · exact .inl hpc
      · exact .inl hpc
      · exact .inr hpc
    rcases hpc with rfl | rfl
    · obtain ⟨q, hq, hat, hreq⟩ :=
        h.stop_moves hi (show StopPc.IsAt (.returned true) .calling from .inl rfl)
      obtain rfl : q = .calling := hat
      rw [set_same hq] at hreq
      exact .rest ⟨h.stopRequested, h.loopRunning, h.stopAsync, h.callbacks, h.loop, hreq, h.beyond⟩
    · obtain ⟨q, hq, hat, hreq⟩ := h.stop_moves hi (show StopPc.IsAt .setting .setting from rfl)
      obtain rfl : q = .calling := hat
      exact ⟨_, .tail (.request (i + 1)) .refl trivial (if_pos hq), h.stopRequested, h.loopRunning,
        h.stopAsync, h.callbacks, h.loop, hreq, h.beyond⟩
  | threadOpen factoryError ht =>
    obtain ⟨u, thread, hacts, he, -⟩ := threadOpen_eq w factoryError
    obtain ⟨_, _, _, rfl⟩ := hacts.world
    rw [he]
    refine .rest (h.of_eq rfl rfl rfl rfl rfl rfl rfl fun hm => ?_)
    have hb := h.beyond hm
    rw [ht] at hb
    exact hb.elim
  | threadStartup ht =>
    refine .rest (h.of_eq rfl rfl rfl rfl rfl rfl rfl fun hm => ?_)
    have hb := h.beyond hm
    rw [ht] at hb
    exact hb.elim
  | threadAnnounce ht =>
    have hidle : w.main = .idle := by
      cases hm : w.main with
      | idle => rfl
      | ended =>
        have hb := h.beyond hm
        rw [ht] at hb
        exact hb.elim
      | _ => cases ht.symm.trans (hp.looping (by rw [hm]; trivial))
    have hstarting : s.loop = .starting := h.loop.trans (by rw [hidle]; rfl)
    have hpublished : s.published = false := by
      refine Bool.eq_false_iff.mpr fun hn => ?_
      exact (hk.published.mp hn).1 hstarting
    refine ⟨_, .tail .run .refl trivial (if_pos hstarting), h.stopRequested, ?_, h.stopAsync,
      h.callbacks, rfl, h.requesters, nofun⟩
    have hl := h.loopRunning
    rw [hpublished, Bool.false_and] at hl
    rw [hpublished, Bool.false_and]
    exact hl
  | threadFail | threadClose | threadExit | threadDie =>
    exact .rest (h.of_eq rfl rfl rfl rfl rfl rfl rfl fun _ => trivial)
  | _ => exact ha.elim

/-- So is what the coroutines do. -/
theorem inside (ht : Taken w a w') (ha : a.IsInside) (hk : s.Kept) (h : Handshakes w s) :
    Follows w' s := by
  cases ht with
  | deliverWake | persistRun | persistWake =>
    exact .rest (h.of_eq rfl rfl rfl rfl rfl rfl rfl h.beyond)
  | mainPublish hm =>
    have hpublishing : s.loop = .publishing := h.loop.trans (by rw [hm]; rfl)
    have hrunning : s.running = true := hk.running.mpr (by rw [hpublishing]; exact ⟨nofun, nofun⟩)
    exact ⟨_, .tail .publish .refl trivial (if_pos hpublishing),
      h.stopRequested, by rw [hrunning]; rfl, h.stopAsync, h.callbacks, rfl, h.requesters, nofun⟩
  | mainTest hm =>
    have htesting : s.loop = .testing := h.loop.trans (by rw [hm]; rfl)
    have htest : s.step .test =
        some { s with loop := if s.stopRequested then .setting else .passed } :=
      if_pos htesting
    by_cases hreq : s.stopRequested = true
    · rw [if_pos hreq] at htest
      refine ⟨_, .tail .setAsync (.tail .test .refl trivial htest) trivial rfl, h.stopRequested,
        h.loopRunning, ?_, h.callbacks, rfl, h.requesters, nofun⟩
      show true = (w.stopAsync || w.stopRequested)
      rw [← h.stopRequested, hreq, Bool.or_true]
    · rw [if_neg hreq] at htest
      refine ⟨_, .tail .test .refl trivial htest, h.stopRequested, h.loopRunning, ?_,
        h.callbacks, rfl, h.requesters, nofun⟩
      show s.stopAsync = (w.stopAsync || w.stopRequested)
      rw [← h.stopRequested, Bool.eq_false_iff.mpr hreq, Bool.or_false, h.stopAsync]
  | mainStop hm => exact .rest (h.of_eq rfl rfl rfl rfl (by rw [hm]; rfl) rfl rfl nofun)
  | mainTaskDone e hm => exact h.mainRaise (h.loop.trans (by rw [hm]; rfl)) e
  | mainPersistRaised e hm => exact h.mainRaise (h.loop.trans (by rw [hm]; rfl)) e
  | mainPersisted hm => exact h.flushes (.mainPersisted w) (h.loop.trans (by rw [hm]; rfl))
  | flushEnsured result hm =>
    exact h.flushes (.flushEnsured w result) (h.loop.trans (by rw [hm]; rfl))
  | flushSent built result hm =>
    exact h.flushes (.flushSent w built result) (h.loop.trans (by rw [hm]; rfl))
  | persistDrain =>
    rcases persistDrain_eq w with ⟨_, _, -, -, he⟩ | he
    · rw [he]
      exact .rest (h.of_eq rfl rfl rfl rfl rfl rfl rfl h.beyond)
    · rw [he]
      exact .rest (h.of_eq rfl rfl rfl rfl rfl rfl rfl h.beyond)
  | persistRound =>
    rcases persistRound_eq w with ⟨u, hu, he⟩ | ⟨u, e, hu, he⟩
    · obtain ⟨⟨_, _, _, _, rfl⟩, -⟩ := hu.frame
      rw [he]
      exact .rest (h.of_eq rfl rfl rfl rfl rfl rfl rfl h.beyond)
    · obtain ⟨⟨_, _, _, _, rfl⟩, -⟩ := hu.frame
      rw [he]
      exact .rest (h.of_eq rfl rfl rfl rfl rfl rfl rfl h.beyond)
  | persistCheck =>
    rcases persistCheck_eq w with ⟨he, -⟩ | ⟨_, _, he, -⟩
    · rw [he]
      exact .rest (h.of_eq rfl rfl rfl rfl rfl rfl rfl h.beyond)
    · rw [he]
      exact .rest (h.of_eq rfl rfl rfl rfl rfl rfl rfl h.beyond)
  | deliverRun => exact .rest (h.delivers (.deliverTop w))
  | deliverEnsured result => exact .rest (h.delivers (.deliverEnsured w result))
  | deliverSent built result => exact .rest (h.delivers (.deliverSent w built result))
  | _ => exact ha.elim

/-- **Every step of the service is made of accesses of the handshake.** -/
theorem step (hp : Placed w) (hk : s.Kept) (h : Handshakes w s) (hr : ¬ a.isRestart)
    (hs : QuestDbWriter.step w a = some w') : Follows w' s := by
  have ht := Taken.of_step hs
  rcases a.sides with ha | ha | ha
  · exact outside ht ha h
  · exact inside ht ha hk h
  · exact other ht ha hp hk h hr

/-- **A run of the service is a run of the handshake.** -/
theorem of_steps {config : Config} {env : Env} {db : Database} {history : List Obs}
    (hrun : Steps QuestDbWriter.step (fun _ a => ¬ a.isRestart) (.boot config env db history) w) :
    ∃ s, Steps Handshake.step (fun _ _ => True) Handshake.initial s ∧ Handshakes w s := by
  have hinv : Placed w ∧ ∃ s, Steps Handshake.step (fun _ _ => True) Handshake.initial s ∧
      Handshakes w s := by
    refine hrun.invariant (I := fun w => Placed w ∧ ∃ s,
      Steps Handshake.step (fun _ _ => True) Handshake.initial s ∧ Handshakes w s) ?_ ?_
    · refine ⟨.boot .., _, .tail .call .refl trivial rfl, rfl, rfl, rfl, rfl, rfl, ?_, nofun⟩
      exact ⟨.calling, [], rfl, rfl, .nil⟩
    · rintro u a v ⟨hp, s, hrun, h⟩ hr hs
      obtain ⟨s', hmore, h'⟩ := h.step hp (.of_steps hrun) hr hs
      exact ⟨hp.step hs, s', hrun.trans hmore, h'⟩
  exact hinv.2

end Handshakes

namespace World

/-- So `stop()` reaches a service that runs: behind its signal, a main coroutine that is past its
test has been told to stop, or a callback will tell it. -/
theorem signalled_stops (config : Config) (env : Env) (db : Database)
    (history : List Obs) (w : World)
    (hrun : Steps step (fun _ a => ¬ a.isRestart) (.boot config env db history) w)
    (hstop : .joining ∈ w.stops) (hpassed : w.main.loopPc = .passed) :
    w.stopAsync = true ∨ .stopAsync ∈ w.callbacks := by
  obtain ⟨s, hs, h⟩ := Handshakes.of_steps hrun
  have hfinished : .finished ∈ s.requesters := by
    obtain ⟨pc, pcs, hreq, -, hstops⟩ := h.requesters
    obtain ⟨i, hi, hpc⟩ := List.getElem_of_mem hstop
    obtain ⟨q, hq, hat, -⟩ := forall₂_set hstops (List.getElem?_eq_some_iff.mpr ⟨hi, hpc⟩)
      (show StopPc.IsAt .joining .finished from rfl)
    obtain rfl : q = .finished := hat
    exact hreq ▸ List.mem_cons_of_mem _ (List.mem_of_getElem? hq)
  rcases (Handshake.Kept.of_steps hs).kept hfinished with hset | hpos | hne
  · exact .inl (h.stopAsync.symm.trans hset)
  · exact .inr (List.count_pos_iff.mp (h.callbacks ▸ hpos))
  · exact absurd (h.loop.trans hpassed) hne

end World

end QuestDbWriter
