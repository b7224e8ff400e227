import QuestDbWriter.Lib.Transition
import QuestDbWriter.Worker.Sides

/-!
# Storage pauses

What the service does to its storage is a trace of events: the measurements of the free space, the
calls of `reclaim`, `compact` and `enqueue_many`, as its methods record them, and the durable
writes. `StorageMonitor` says which traces are in order; `storage_pauses` proves that every run of a
process shows one, and that its counters account for the pauses.
-/

namespace QuestDbWriter

open Lib

/-! ## Events -/

/-- The durable writes among observations. -/
def writesOf (history : List Obs) : List StorageEvent :=
  (history.filter Obs.isWrite).map fun _ => .written

/-- What a step does to the storage: the calls that its methods have recorded, and the durable write
that the last of them may end with. -/
def storageEvents (w : World) (_ : Action) (w' : World) : List StorageEvent :=
  w'.shared.storage.calls.drop w.shared.storage.calls.length ++
    writesOf (w'.history.drop w.history.length)

/-! ## The monitor -/

/-- What the order of the events depends on: the measurement that has just been made, the last call
of `reclaim`, and whether `compact` was called since the last durable write. -/
structure StorageMonitor where
  measured : Option StorageStatus
  lastReclaim : Option ℚ
  rewritten : Bool

namespace StorageMonitor

/-- Before the first measurement. -/
def init : StorageMonitor := { measured := none, lastReclaim := none, rewritten := false }

/-- An event in order. -/
def step (m : StorageMonitor) : StorageEvent → Option StorageMonitor
  | .measured status => some { m with measured := some status }
  | .reclaim now =>
    if m.lastReclaim.any (now - · < World.reclaimIntervalSeconds) then none
    else some { m with measured := none, lastReclaim := some now }
  | .compact => if m.rewritten then none else some { m with measured := none, rewritten := true }
  | .enqueueMany =>
    if m.measured.any (!·.blocked) then some { m with measured := none } else none
  | .written => some { m with measured := none, rewritten := false }

/-- The time of a call of `reclaim`. -/
def reclaimAt : StorageEvent → Option ℚ
  | .reclaim now => some now
  | _ => none

variable {m m' : StorageMonitor} {events : List StorageEvent}

/-- An event of a trace in order is in order itself. -/
theorem exec_cons {e : StorageEvent} (h : exec step (e :: events) m = some m') :
    ∃ n, step m e = some n ∧ exec step events n = some m' :=
  Option.bind_eq_some_iff.mp h

/-- **A call of `enqueue_many` directly follows a measurement that lets it.** -/
theorem enqueue_measured (h : exec step events .init = some m) {before after : List StorageEvent}
    (hsplit : events = before ++ .enqueueMany :: after) :
    ∃ status, before.getLast? = some (.measured status) ∧ status.blocked = false := by
  rw [hsplit, exec_append] at h
  obtain ⟨n, hbefore, h⟩ := Option.bind_eq_some_iff.mp h
  obtain ⟨n', henqueue, -⟩ := exec_cons h
  have hany : n.measured.any (!·.blocked) = true := by
    by_contra hnot
    rw [step, if_neg hnot] at henqueue
    cases henqueue
  obtain ⟨status, hstatus, hblocked⟩ := (Option.any_eq_true _ _).mp hany
  refine ⟨status, ?_, by simpa using hblocked⟩
  rcases List.eq_nil_or_concat before with rfl | ⟨init, last, rfl⟩
  · cases hbefore
    cases hstatus
  · rw [List.concat_eq_append, exec_append] at hbefore
    obtain ⟨n₀, -, hlast⟩ := Option.bind_eq_some_iff.mp hbefore
    obtain ⟨n₁, hlast, hn⟩ := exec_cons hlast
    cases hn
    rw [List.concat_eq_append, List.getLast?_append, List.getLast?_singleton]
    cases last with
    | measured status' =>
      cases hlast
      cases hstatus
      rfl
    | reclaim now =>
      rw [step] at hlast
      split at hlast <;> cases hlast
      cases hstatus
    | compact =>
      rw [step] at hlast
      split at hlast <;> cases hlast
      cases hstatus
    | enqueueMany =>
      rw [step] at hlast
      split at hlast <;> cases hlast
      cases hstatus
    | written =>
      cases hlast
      cases hstatus

/-- **Two calls of `reclaim` are at least the interval apart.** -/
theorem reclaims_apart (h : exec step events m = some m') :
    (∀ last ∈ m.lastReclaim, ∀ now ∈ events.filterMap reclaimAt,
      World.reclaimIntervalSeconds ≤ now - last) ∧
    (events.filterMap reclaimAt).Pairwise fun s t => World.reclaimIntervalSeconds ≤ t - s := by
  have hpos : 0 < World.reclaimIntervalSeconds := by norm_num [World.reclaimIntervalSeconds]
  induction events generalizing m with
  | nil => exact ⟨nofun, .nil⟩
  | cons e events ih =>
    obtain ⟨n, hn, h⟩ := exec_cons h
    obtain ⟨hlast, hpairs⟩ := ih h
    cases e with
    | reclaim now =>
      rw [step] at hn
      split at hn
      · cases hn
      · next hnot =>
        cases hn
        have hnow : ∀ last ∈ m.lastReclaim, World.reclaimIntervalSeconds ≤ now - last := by
          intro last hm
          rw [Option.mem_def] at hm
          simpa [hm] using hnot
        rw [show (StorageEvent.reclaim now :: events).filterMap reclaimAt =
          now :: events.filterMap reclaimAt from rfl]
        refine ⟨fun last hm => List.forall_mem_cons.mpr ⟨hnow last hm, fun t ht => ?_⟩,
          List.pairwise_cons.mpr ⟨hlast now rfl, hpairs⟩⟩
        have h1 := hnow last hm
        have h2 := hlast now rfl t ht
        linarith
    | measured status =>
      cases hn
      exact ⟨hlast, hpairs⟩
    | compact =>
      rw [step] at hn
      split at hn <;> cases hn
      exact ⟨hlast, hpairs⟩
    | enqueueMany =>
      rw [step] at hn
      split at hn <;> cases hn
      exact ⟨hlast, hpairs⟩
    | written =>
      cases hn
      exact ⟨hlast, hpairs⟩

/-- **Without a durable write `compact` is called at most once.** -/
theorem compact_once (h : exec step events m = some m') (hunwritten : .written ∉ events) :
    events.count .compact ≤ if m.rewritten then 0 else 1 := by
  induction events generalizing m with
  | nil => simp
  | cons e events ih =>
    obtain ⟨n, hn, h⟩ := exec_cons h
    have hle := ih h fun hm => hunwritten (List.mem_cons_of_mem e hm)
    cases e with
    | compact =>
      rw [step] at hn
      split at hn
      · cases hn
      · next hnot =>
        cases hn
        rw [List.count_cons_self, if_neg hnot]
        simpa using hle
    | written => exact absurd (List.mem_cons_self ..) hunwritten
    | measured status =>
      cases hn
      rwa [List.count_cons_of_ne (show StorageEvent.measured status ≠ .compact from nofun)]
    | reclaim now =>
      rw [step] at hn
      split at hn <;> cases hn
      rwa [List.count_cons_of_ne (show StorageEvent.reclaim now ≠ .compact from nofun)]
    | enqueueMany =>
      rw [step] at hn
      split at hn <;> cases hn
      rwa [List.count_cons_of_ne (show StorageEvent.enqueueMany ≠ .compact from nofun)]

end StorageMonitor

/-! ## The counters of the pauses -/

/-- A pause that has been opened is one that was closed, or the present one; and every pause was
opened by an attempt. -/
structure StoragePauses.Counted (s : StoragePauses) : Prop where
  blocks : s.blocks = s.recoveries + if s.episode.isSome then 1 else 0
  attempts : s.blocks ≤ s.blockAttempts

namespace StoragePauses.Counted

variable {s : StoragePauses}

/-- The first refusal of a pause is counted. -/
theorem openEpisode (h : s.Counted) (reason : BlockReason) :
    (Shared.openEpisode s reason).Counted := by
  obtain ⟨hblocks, hattempts⟩ := h
  unfold Shared.openEpisode
  dsimp only
  split
  · next hnone =>
    rw [hnone] at hblocks
    exact ⟨by simpa using hblocks, Nat.succ_le_succ hattempts⟩
  · exact ⟨hblocks, Nat.le_succ_of_le hattempts⟩

/-- The end of a pause counts no further one. -/
theorem closeEpisode (h : s.Counted) : (Shared.closeEpisode s).Counted := by
  obtain ⟨hblocks, hattempts⟩ := h
  unfold Shared.closeEpisode
  dsimp only
  split
  · next hsome =>
    rw [if_pos hsome] at hblocks
    exact ⟨by simpa using hblocks, hattempts⟩
  · exact ⟨hblocks, hattempts⟩

end StoragePauses.Counted

/-- The end of a pause is no call. -/
theorem closeEpisode_frame (s : StoragePauses) :
    (Shared.closeEpisode s).lastReclaim = s.lastReclaim ∧
      (Shared.closeEpisode s).calls = s.calls := by
  unfold Shared.closeEpisode
  dsimp only
  split <;> exact ⟨rfl, rfl⟩

/-- Nor is its begin, and it forgets no rewrite. -/
theorem openEpisode_frame (s : StoragePauses) (reason : BlockReason) :
    (Shared.openEpisode s reason).lastReclaim = s.lastReclaim ∧
      (Shared.openEpisode s reason).rewriteAttempted = s.rewriteAttempted ∧
      (Shared.openEpisode s reason).calls = s.calls := by
  unfold Shared.openEpisode
  dsimp only
  split <;> exact ⟨rfl, rfl, rfl⟩

/-- `_resume_after_storage_block` closes the episode. -/
theorem resumeAfterStorageBlock_storage (s : Shared) (now : Int) :
    (s.resumeAfterStorageBlock now).storage = Shared.closeEpisode s.storage := by
  unfold Shared.resumeAfterStorageBlock
  dsimp only
  split <;> rfl

/-! ## What a step does to the pauses -/

namespace World

/-- No call was made, the pauses are counted, and a rewrite is allowed again only behind a durable
write. -/
structure Pausing (w u : World) : Prop where
  calls : u.shared.storage.calls = w.shared.storage.calls
  lastReclaim : u.shared.storage.lastReclaim = w.shared.storage.lastReclaim
  counted : w.shared.storage.Counted → u.shared.storage.Counted
  history : ∃ obs, u.history = w.history ++ obs ∧
    (u.shared.storage.rewriteAttempted = w.shared.storage.rewriteAttempted ∨
      ∃ o ∈ obs, o.isWrite = true)

namespace Pausing

variable {u v w : World}

/-- Nothing but observations was added. -/
theorem of_eq (hs : u.shared.storage = w.shared.storage) {obs : List Obs}
    (hh : u.history = w.history ++ obs) : Pausing w u where
  calls := by rw [hs]
  lastReclaim := by rw [hs]
  counted := by rw [hs]; exact id
  history := ⟨obs, hh, .inl (by rw [hs])⟩

/-- A step that leaves the pauses and the history alone. -/
theorem same (hs : u.shared.storage = w.shared.storage) (hh : u.history = w.history) :
    Pausing w u := .of_eq hs (hh.trans (List.append_nil _).symm)

/-- Nothing happened. -/
theorem refl (w : World) : Pausing w w := .same rfl rfl

/-- Two steps in order. -/
theorem trans (h : Pausing w v) (h' : Pausing v u) : Pausing w u where
  calls := h'.calls.trans h.calls
  lastReclaim := h'.lastReclaim.trans h.lastReclaim
  counted := h'.counted ∘ h.counted
  history := by
    obtain ⟨obs, hv, hw⟩ := h.history
    obtain ⟨obs', hu, hw'⟩ := h'.history
    refine ⟨obs ++ obs', by rw [hu, hv, List.append_assoc], ?_⟩
    rcases hw' with hsame' | ⟨o, ho, hwrite⟩
    · rcases hw with hsame | ⟨o, ho, hwrite⟩
      · exact .inl (hsame'.trans hsame)
      · exact .inr ⟨o, List.mem_append_left _ ho, hwrite⟩
    · exact .inr ⟨o, List.mem_append_right _ ho, hwrite⟩

/-- A line of the history is no pause. -/
theorem observe (w : World) (o : Obs) : Pausing w (w.observe o) := .of_eq rfl rfl

/-- Neither is a call of the spool. -/
theorem call {α : Type} (w : World) (p : SpoolM α) : Pausing w (w.call p).2 := .same rfl rfl

/-- A refusal opens a pause or belongs to the one that is open. -/
theorem blockOnStorage (w : World) (reason : BlockReason) (error : PyStr) :
    Pausing w (w.blockOnStorage reason error) where
  calls := (openEpisode_frame _ reason).2.2
  lastReclaim := (openEpisode_frame _ reason).1
  counted h := h.openEpisode reason
  history := ⟨[], (List.append_nil _).symm, .inl (openEpisode_frame _ reason).2.1⟩

/-- The end of a pause, behind a write that was observed. -/
theorem resume (h : Pausing w u) {obs : List Obs} (hh : u.history = w.history ++ obs) {o : Obs}
    (ho : o ∈ obs) (hwrite : o.isWrite = true) : Pausing w u.resumeAfterStorageBlock where
  calls := by
    show (u.shared.resumeAfterStorageBlock _).storage.calls = _
    rw [resumeAfterStorageBlock_storage, (closeEpisode_frame _).2, h.calls]
  lastReclaim := by
    show (u.shared.resumeAfterStorageBlock _).storage.lastReclaim = _
    rw [resumeAfterStorageBlock_storage, (closeEpisode_frame _).1, h.lastReclaim]
  counted hc := by
    show (u.shared.resumeAfterStorageBlock _).storage.Counted
    rw [resumeAfterStorageBlock_storage]
    exact (h.counted hc).closeEpisode
  history := ⟨obs, hh, .inr ⟨o, ho, hwrite⟩⟩

/-- The turns of the delivery loop do nothing else. -/
theorem framed : LoopFramed Pausing where
  refl := refl
  trans := trans
  call := call
  withShared _ _ _ hs := .same hs rfl
  blockOnStorage := blockOnStorage
  observe _ o _ _ := observe _ o
  delivered _ _ _ := (observe _ _).resume rfl (List.mem_singleton.mpr rfl) rfl
  loop _ _ _ _ := .same rfl rfl

/-- Cancelling the persist task pauses nothing. -/
theorem cancelPersist (w : World) : Pausing w w.cancelPersist := by
  unfold World.cancelPersist
  split <;> exact .same rfl rfl

/-- Neither does cancelling the delivery task. -/
theorem cancelDeliver (w : World) : Pausing w w.cancelDeliver := by
  unfold World.cancelDeliver
  split <;> exact .same rfl rfl

/-- Nor the end of the service by an exception. -/
theorem mainRaise (w : World) (e : Exc) : Pausing w (w.mainRaise e) :=
  ((cancelPersist w).trans (cancelDeliver _)).trans (.same rfl rfl)

/-- Nor its return. -/
theorem mainFinish (w : World) : Pausing w w.mainFinish := by
  unfold World.mainFinish
  split
  · exact mainRaise w _
  · exact (cancelDeliver w).trans (.same rfl rfl)

/-- The end of a flush keeps what the flush kept. -/
theorem of_flushed (h : Flushed Pausing w u) : Pausing w u := by
  cases h with
  | raised v e h => exact h.trans (mainRaise v e)
  | finished v h => exact h.trans (mainFinish v)
  | ensuring v h => exact h.trans (.same rfl rfl)
  | sending v built backoff h => exact h.trans (.same rfl rfl)

/-- Behind its call of `enqueue_many`, a committed batch ends the pause; another exception does
not. -/
theorem enqueueHeld (w : World) : Pausing (w.logCall .enqueueMany) w.enqueueHeld.2 := by
  have hcall := call (w.logCall .enqueueMany) (SQLiteSpool.enqueueMany w.config.limits w.held)
  unfold World.enqueueHeld
  split
  · next n v he =>
    rw [he] at hcall
    have hheld : Pausing (w.logCall .enqueueMany) (v.heldPersisted w.spool.db) :=
      hcall.trans (.of_eq rfl rfl)
    have hhistory : (v.heldPersisted w.spool.db).readStats.2.history = w.history ++
        [.enqueued v.held (insertedRows w.spool.db v.spool.db)] := by
      obtain ⟨spool, spoolStats, hstats⟩ := readStats_eq (v.heldPersisted w.spool.db)
      rw [hstats]
      show v.history ++ _ = _
      rw [show v.history = w.history from congrArg (·.2.history) he.symm]
    have hread := framed.readStats (v.heldPersisted w.spool.db)
    split
    · next s x hx =>
      rw [hx] at hhistory hread
      exact (hheld.trans hread).resume hhistory (List.mem_singleton.mpr rfl) rfl
    · next e x hx =>
      rw [hx] at hread
      exact hheld.trans hread
  · next e v he =>
    rw [he] at hcall
    split
    · exact hcall.trans (blockOnStorage _ _ _)
    · split
      · exact hcall.trans (blockOnStorage _ _ _)
      · exact hcall

end Pausing

/-! ## The monitor follows -/

/-- The monitor is where the service is, and the pauses are counted. -/
structure Follows (w : World) (m : StorageMonitor) : Prop where
  lastReclaim : m.lastReclaim = w.shared.storage.lastReclaim
  rewritten : m.rewritten = true → w.shared.storage.rewriteAttempted = true
  counted : w.shared.storage.Counted

section
variable {w u : World} {m : StorageMonitor}

/-- The monitor takes any number of durable writes. -/
theorem exec_writes (history : List Obs) (m : StorageMonitor) :
    ∃ m', exec StorageMonitor.step (writesOf history) m = some m' ∧
      m'.lastReclaim = m.lastReclaim ∧ (m'.rewritten = true → m.rewritten = true) ∧
      ((∃ o ∈ history, o.isWrite = true) → m'.rewritten = false) := by
  induction history generalizing m with
  | nil => exact ⟨m, rfl, rfl, id, nofun⟩
  | cons o history ih =>
    cases ho : o.isWrite with
    | false =>
      obtain ⟨m', hexec, hlast, hkept, hreset⟩ := ih m
      refine ⟨m', ?_, hlast, hkept, ?_⟩
      · rw [writesOf, List.filter_cons_of_neg (by simp [ho])]
        exact hexec
      · rintro ⟨o', ho', hwrite⟩
        rcases List.mem_cons.mp ho' with rfl | ho'
        · rw [ho] at hwrite
          cases hwrite
        · exact hreset ⟨o', ho', hwrite⟩
    | true =>
      obtain ⟨m', hexec, hlast, hkept, -⟩ := ih { m with measured := none, rewritten := false }
      have hreset : m'.rewritten = false := Bool.eq_false_iff.mpr fun h => by cases hkept h
      refine ⟨m', ?_, hlast, fun h => absurd h (Bool.eq_false_iff.mp hreset), fun _ => hreset⟩
      rw [writesOf, List.filter_cons_of_pos ho]
      exact hexec

/-- The monitor takes the writes of a step. -/
theorem Pausing.follows (h : Pausing w u) (hf : Follows w m) :
    ∃ m', exec StorageMonitor.step (writesOf (u.history.drop w.history.length)) m = some m' ∧
      Follows u m' := by
  obtain ⟨obs, hhistory, hwrites⟩ := h.history
  rw [hhistory, List.drop_left]
  obtain ⟨m', hexec, hlast, hkept, hreset⟩ := exec_writes obs m
  refine ⟨m', hexec, ?_, fun hrewritten => ?_, h.counted hf.counted⟩
  · rw [hlast, hf.lastReclaim, h.lastReclaim]
  · rcases hwrites with hsame | hwrite
    · rw [hsame]
      exact hf.rewritten (hkept hrewritten)
    · rw [hreset hwrite] at hrewritten
      cases hrewritten

/-- The monitor takes the calls that were made from `w` to `u`, where nothing was written. -/
structure Called (w u : World) (m m' : StorageMonitor) : Prop where
  calls : ∃ calls, u.shared.storage.calls = w.shared.storage.calls ++ calls ∧
    exec StorageMonitor.step calls m = some m'
  history : u.history = w.history
  follows : Follows u m'

namespace Called

variable {v : World} {m' n : StorageMonitor}

theorem refl (hf : Follows w m) : Called w w m m :=
  ⟨⟨[], (List.append_nil _).symm, rfl⟩, rfl, hf⟩

/-- One call. -/
theorem one {e : StorageEvent} (hstep : StorageMonitor.step m e = some m')
    (hcalls : u.shared.storage.calls = w.shared.storage.calls ++ [e])
    (hhistory : u.history = w.history) (hf : Follows u m') : Called w u m m' := by
  refine ⟨⟨[e], hcalls, ?_⟩, hhistory, hf⟩
  rw [exec, hstep]
  rfl

theorem trans (h : Called w v m n) (h' : Called v u n m') : Called w u m m' := by
  obtain ⟨calls, hcalls, hexec⟩ := h.calls
  obtain ⟨calls', hcalls', hexec'⟩ := h'.calls
  refine ⟨⟨calls ++ calls', by rw [hcalls', hcalls, List.append_assoc], ?_⟩,
    h'.history.trans h.history, h'.follows⟩
  rw [exec_append, hexec]
  exact hexec'

/-- What follows the calls: the monitor takes the events of the whole step. -/
theorem pausing (h : Called w v m n) (hp : Pausing v u) (a : Action) :
    ∃ m', exec StorageMonitor.step (storageEvents w a u) m = some m' ∧ Follows u m' := by
  obtain ⟨calls, hcalls, hexec⟩ := h.calls
  obtain ⟨m', hwrites, hf⟩ := hp.follows h.follows
  refine ⟨m', ?_, hf⟩
  rw [storageEvents, hp.calls, hcalls, List.drop_left, exec_append, hexec, Option.bind_some,
    ← h.history]
  exact hwrites

end Called

/-- The monitor takes the calls of `_reclaim_spool`. -/
theorem reclaimSpool_follows (hf : Follows w m) : ∃ m', Called w w.reclaimSpool.2 m m' := by
  unfold reclaimSpool
  dsimp only
  split
  · exact ⟨m, .refl hf⟩
  · next hlate =>
    have hreclaim : StorageMonitor.step m (.reclaim w.env.monotonic) =
        some { m with measured := none, lastReclaim := some w.env.monotonic } := by
      rw [StorageMonitor.step, hf.lastReclaim, if_neg hlate]
    have hreclaimed : Called w ((w.logCall (.reclaim w.env.monotonic)).withShared fun s =>
          { s with storage := { s.storage with lastReclaim := some w.env.monotonic } }) m
        { m with measured := none, lastReclaim := some w.env.monotonic } :=
      .one hreclaim rfl rfl ⟨rfl, hf.rewritten, ⟨hf.counted.blocks, hf.counted.attempts⟩⟩
    split
    · exact ⟨_, hreclaimed⟩
    split
    · next hrewrite =>
      have hfirst : m.rewritten ≠ true := fun h => by
        have hattempted : w.shared.storage.rewriteAttempted = true := hf.rewritten h
        exact Bool.false_ne_true (hrewrite.2.symm.trans hattempted)
      refine ⟨{ measured := none, lastReclaim := some w.env.monotonic, rewritten := true },
        hreclaimed.trans (.one (e := .compact) (if_neg hfirst) rfl rfl ⟨rfl, fun _ => rfl, ?_⟩)⟩
      exact ⟨hf.counted.blocks, hf.counted.attempts⟩
    · exact ⟨_, hreclaimed⟩

/-- A measurement is the last call. -/
theorem checkStorage_follows (hf : Follows w m) (usage : Except PyStr StorageUsage) :
    Called w (w.checkStorage usage).2 m { m with measured := some (w.checkStorage usage).1 } :=
  .one rfl rfl rfl ⟨hf.lastReclaim, hf.rewritten, ⟨hf.counted.blocks, hf.counted.attempts⟩⟩

/-- The monitor takes the calls of the free-space check, and has its last measurement. -/
theorem freeSpace_follows (hf : Follows w m) : ∃ m', Called w w.freeSpace.2 m m' ∧
    (w.freeSpace.1.blocked = false → m'.measured = some w.freeSpace.1) := by
  have hchecked := checkStorage_follows hf w.env.usage
  unfold freeSpace
  dsimp only
  split
  · next hblocked =>
    obtain ⟨n, hreclaimed⟩ := reclaimSpool_follows hchecked.follows
    split
    · exact ⟨_, (hchecked.trans hreclaimed).trans (checkStorage_follows hreclaimed.follows _),
        fun _ => rfl⟩
    · refine ⟨n, hchecked.trans hreclaimed, fun hunblocked => ?_⟩
      rw [hblocked] at hunblocked
      cases hunblocked
  · exact ⟨_, hchecked, fun _ => rfl⟩

/-- It takes the calls of `_persist_held`, up to where the pause is opened or closed. -/
theorem persistHeld_follows (hf : Follows w m) :
    ∃ v m', Called w v m m' ∧ Pausing v w.persistHeld.2 := by
  unfold persistHeld
  split
  · exact ⟨w, m, .refl hf, .refl w⟩
  · obtain ⟨n, hspace, hmeasured⟩ := freeSpace_follows hf
    dsimp only
    split
    · exact ⟨w.freeSpace.2, n, hspace, .blockOnStorage _ _ _⟩
    · next hunblocked =>
      have hunblocked : w.freeSpace.1.blocked = false := Bool.eq_false_iff.mpr hunblocked
      have henqueue : StorageMonitor.step n .enqueueMany = some { n with measured := none } := by
        rw [StorageMonitor.step, hmeasured hunblocked,
          if_pos (by rw [Option.any_some, hunblocked]; rfl)]
      have hf' := hspace.follows
      exact ⟨w.freeSpace.2.logCall .enqueueMany, _,
        hspace.trans (.one henqueue rfl rfl ⟨hf'.lastReclaim, hf'.rewritten,
          ⟨hf'.counted.blocks, hf'.counted.attempts⟩⟩), .enqueueHeld _⟩

/-- A turn of the persist loop reads the counters behind an attempt, and moves on. -/
theorem persistRound_pausing (w : World) : Pausing w.persistHeld.2 w.persistRound := by
  unfold persistRound
  split
  · next e v he =>
    rw [he]
    exact .same rfl rfl
  · next r v he =>
    rw [he]
    have hread := Pausing.framed.readStats v
    split
    · next e u hu =>
      rw [hu] at hread
      exact hread.trans (.same rfl rfl)
    · next stats u hu =>
      rw [hu] at hread
      exact hread.trans (.same rfl rfl)

end

end World

open World

section
variable {w w' : World} {a : Action}

/-- Every other action of a process pauses at most, or ends a pause. -/
theorem Taken.pausing (h : Taken w a w') (hr : ¬ a.isRestart) (hp : a ≠ .persistRound) :
    Pausing w w' := by
  have hcases := h
  cases h with
  | restart => exact absurd rfl hr
  | persistRound => exact absurd rfl hp
  | submit | submitSignal | startReady | startTimeout | startTimedOut | startSignal | stopCall
  | stopSet | stopSignal | stopReturn | wakePersist | stopAsync =>
    have hout := hcases.outside trivial
    obtain ⟨obs, hobs, -⟩ := hout.history
    exact .of_eq hout.storage hobs
  | environment | threadAnnounce | threadFail | threadClose | threadDie | mainPublish | mainTest
  | mainStop | persistRun | persistWake | deliverWake => exact .same rfl rfl
  | startCall =>
    unfold World.startCall
    split <;> exact .same rfl rfl
  | stopLock i seen timeout =>
    unfold World.stopLock
    dsimp only
    split
    · exact .same rfl rfl
    · split <;> exact .same rfl rfl
  | threadOpen factoryError =>
    have hcall := Pausing.call w (SQLiteSpool.openSpool w.env.pragmas w.env.freeBytes)
    unfold World.threadOpen
    split
    · next e v he =>
      rw [he] at hcall
      exact hcall.trans (.same rfl rfl)
    · next n v he =>
      rw [he] at hcall
      split
      · exact hcall.trans (.same rfl rfl)
      · have hread := Pausing.framed.readStats v
        split
        · next e u hu =>
          rw [hu] at hread
          exact (hcall.trans hread).trans (.same rfl rfl)
        · next stats u hu =>
          rw [hu] at hread
          exact (hcall.trans hread).trans (.same rfl rfl)
  | threadStartup =>
    refine .same ?_ rfl
    unfold World.threadStartup withShared
    dsimp only
    split <;> rfl
  | threadExit failed cleanup =>
    refine .same ?_ rfl
    unfold World.threadExit withShared
    dsimp only
    split
    · rfl
    · split <;> rfl
  | mainTaskDone e => exact .mainRaise w e
  | mainPersistRaised e => exact .mainRaise w e
  | mainPersisted => exact .of_flushed (Pausing.framed.mainPersisted w)
  | flushEnsured result => exact .of_flushed (Pausing.framed.flushEnsured w result)
  | flushSent built result => exact .of_flushed (Pausing.framed.flushSent w built result)
  | persistDrain =>
    unfold World.persistDrain
    split
    · split <;> exact .same rfl rfl
    · exact .same rfl rfl
  | persistCheck =>
    rcases persistCheck_eq w with ⟨he, -⟩ | ⟨_, _, he, -⟩
    · rw [he]
      exact .same rfl rfl
    · rw [he]
      exact .same rfl rfl
  | deliverRun => exact Pausing.framed.deliverTop w
  | deliverEnsured result => exact Pausing.framed.deliverEnsured w result
  | deliverSent built result => exact Pausing.framed.deliverSent w built result

/-- **The monitor follows every step.** -/
theorem World.Follows.taken {m : StorageMonitor} (hf : Follows w m) (hr : ¬ a.isRestart)
    (hs : step w a = some w') :
    ∃ m', exec StorageMonitor.step (storageEvents w a w') m = some m' ∧ Follows w' m' := by
  have ht := Taken.of_step hs
  by_cases hround : a = .persistRound
  · subst hround
    obtain rfl : w' = w.persistRound := by
      cases ht
      rfl
    obtain ⟨v, n, hcalled, hpausing⟩ := persistHeld_follows hf
    exact hcalled.pausing (hpausing.trans (persistRound_pausing w)) _
  · exact (Called.refl hf).pausing (ht.pausing hr hround) a

end

/-! ## The theorem -/

/-- **The pauses of the storage are accounted for.** In every run of a process: the pauses opened
are those closed and the present one; each was opened by an attempt; a call of `enqueue_many`
directly follows a measurement that lets it; two calls of `reclaim` are at least the interval apart;
and without a durable write between them `compact` is not called twice. -/
theorem storage_pauses (config : Config) (env : Env) (db : Database)
    (history : List Obs) (w : World) (events : List StorageEvent)
    (hrun : Traced step (fun _ a => ¬ a.isRestart) storageEvents (.boot config env db history) w
      events) :
    ((w.shared.storage.blocks : Int) - w.shared.storage.recoveries =
        if w.shared.storage.episode.isSome then 1 else 0) ∧
      w.shared.storage.blocks ≤ w.shared.storage.blockAttempts ∧
      (∀ before after, events = before ++ .enqueueMany :: after →
        ∃ status, before.getLast? = some (.measured status) ∧ status.blocked = false) ∧
      (events.filterMap StorageMonitor.reclaimAt).Pairwise (fun s t => 1 ≤ t - s) ∧
      ∀ before between after, events = before ++ between ++ after → .written ∉ between →
        between.count .compact ≤ 1 := by
  have hboot : Follows (.boot config env db history) .init :=
    ⟨rfl, nofun, ⟨rfl, Nat.le_refl 0⟩⟩
  obtain ⟨m, hexec, hf⟩ := hrun.accepted hboot fun u a v n hu hr hs => hu.taken hr hs
  refine ⟨?_, hf.counted.attempts, fun before after hsplit =>
    StorageMonitor.enqueue_measured hexec hsplit, (StorageMonitor.reclaims_apart hexec).2,
    fun before between after hsplit hunwritten => ?_⟩
  · rw [hf.counted.blocks]
    split <;> simp
  · rw [hsplit, List.append_assoc, exec_append] at hexec
    obtain ⟨n, -, hexec⟩ := Option.bind_eq_some_iff.mp hexec
    rw [exec_append] at hexec
    obtain ⟨n', hbetween, -⟩ := Option.bind_eq_some_iff.mp hexec
    refine (StorageMonitor.compact_once hbetween hunwritten).trans ?_
    split <;> decide

/-- A full disk, and a database from before incremental auto-vacuum. -/
def crampedDisk : Env :=
  { Env.quiet with
    usage := .ok { totalBytes := 2 ^ 40, freeBytes := 0 }
    usageAfter := .ok { totalBytes := 2 ^ 40, freeBytes := 0 }
    reclaimed := { error := false, incremental := false, moved := false } }

/-- The service starts, and its first attempt to persist finds the disk full. -/
def crampedStart : List Action :=
  [.startCall, .threadOpen none, .threadStartup, .threadAnnounce, .mainPublish, .mainTest,
    .submit lightEvent, .persistRun, .persistDrain, .persistDrain, .environment crampedDisk [],
    .persistRound]

/-- One pause is open. -/
theorem crampedStart_paused : ∃ (w : World) (events : List StorageEvent),
    Traced step (fun _ a => ¬ a.isRestart) storageEvents (.boot .provisional .quiet .fresh []) w
      events ∧
    w.shared.storage.episode = some .diskSpace ∧
    (w.shared.storage.blocks : Int) - w.shared.storage.recoveries = 1 := by
  let living : World → Action → Bool := fun _ a => !a.isRestart
  have hrun : ((execIn step living crampedStart (.boot .provisional .quiet .fresh [])).any fun w =>
      decide (w.shared.storage.episode = some .diskSpace)) = true := by
    decide +kernel
  obtain ⟨w, hw, hepisode⟩ := (Option.any_eq_true _ _).mp hrun
  have hepisode : w.shared.storage.episode = some .diskSpace := of_decide_eq_true hepisode
  have hsteps : Steps step (fun _ a => ¬ a.isRestart) (.boot .provisional .quiet .fresh []) w :=
    .of_execIn (fun _ a ha => by simpa [living] using ha) (Option.mem_def.mp hw)
  obtain ⟨events, hevents⟩ := hsteps.traced storageEvents
  refine ⟨w, events, hevents, hepisode, ?_⟩
  rw [(storage_pauses _ _ _ _ w events hevents).1, hepisode]
  rfl

end QuestDbWriter
