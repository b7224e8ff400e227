import QuestDbWriter.Worker.Turns
import QuestDbWriter.Worker.Blocking

/-!
# Uncertain deliveries

A row may be at the server already when it is sent: an earlier `send_batch` of it returned, or
raised an error that leaves that open. `tainted` are these rows of a process. Where the transaction
that follows such a call commits (`Settles`), a tainted row that is still pending is marked, and
every batch that is built of it counts it (`Marked`); so it is counted when it is delivered.
-/

namespace QuestDbWriter

open Lib Database SQLiteSpool
open Session (run)

/-! ## What a history leaves open -/

/-- The server may have the rows. -/
def SendResult.taints : SendResult → Bool
  | .ok => true
  | .error e => e.deliveryUncertain
  | .raised _ => false

/-- The sequences of the rows that the server may have, by the calls of the present process. -/
def tainted (history : List Obs) : List Int :=
  history.foldl (fun tainted o => match o with
    | .started _ _ _ => []
    | .sent built result => if result.taints then tainted ++ built.sequences else tainted
    | _ => tainted) []

/-- One more observation: a new process forgets, a send that taints adds its rows. -/
theorem tainted_snoc (history : List Obs) (o : Obs) : tainted (history ++ [o]) = match o with
    | .started _ _ _ => []
    | .sent built result =>
      if result.taints then tainted history ++ built.sequences else tainted history
    | _ => tainted history := by
  rw [tainted, List.foldl_append]
  rfl

/-- A delivery counts every row that the server may have had before the call that has just
returned. -/
def CountsUncertain (before : List Obs) : Obs → Prop
  | .delivered rows uncertain => uncertain.Sublist (rows.map (·.sequence)) ∧
      ∀ row ∈ rows, row.sequence ∈ tainted before.dropLast → row.sequence ∈ uncertain
  | _ => True

/-- An observation without a delivery counts nothing. -/
theorem countsUncertain_of_isOf {before : List Obs} {o : Obs} (h : o.IsOf False) :
    CountsUncertain before o := by
  cases o <;> first | exact h.elim | trivial

/-- Where no `send_batch` ends, nothing is tainted, and nothing is delivered. -/
theorem tainted_append (history : List Obs) : ∀ {obs : List Obs}, (∀ o ∈ obs, o.IsOf False) →
    tainted (history ++ obs) = tainted history ∧
      (Chronicle CountsUncertain history → Chronicle CountsUncertain (history ++ obs)) := by
  intro obs
  induction obs using List.reverseRecOn with
  | nil =>
    intro _
    simp
  | append_singleton obs o ih =>
    intro h
    obtain ⟨hold, hcounted⟩ := ih fun p hm => h p (List.mem_append_left _ hm)
    have ho := h o (List.mem_append_right _ (List.mem_singleton.mpr rfl))
    rw [← List.append_assoc, tainted_snoc]
    refine ⟨?_, fun hc => .snoc _ (hcounted hc) (countsUncertain_of_isOf ho)⟩
    cases o <;> first | exact ho.elim | exact hold

/-- The thread has not left its loop. -/
def ThreadPc.IsLive : ThreadPc → Prop
  | .absent | .opening | .opened | .announcing | .looping => True
  | _ => False

namespace World

/-! ## The condition -/

/-- The transaction commits. -/
def Commits (w : World) {α : Type} (p : SpoolM α) : Prop := ∃ a, (run p w.spool).1 = .ok a

/-- The attempt of the batch is recorded, and the shutdown flush has none of its rows in flight. -/
def Recorded (w : World) (built : BuiltBatch) (e : IlpError) : Prop :=
  Commits w (SQLiteSpool.recordAttempt built.sequences e.text true) ∧
    ∀ b, w.main = .flushSending b → ∀ s ∈ built.sequences, s ∉ b.sequences

/-- What may have been delivered is settled: removed, moved or marked. -/
def Settled (w : World) (built : BuiltBatch) : SendResult → Prop
  | .ok => Commits w (markDelivered built.sequences)
  | .raised _ => True
  | .error e => e.deliveryUncertain = true → match e.kind with
    | .retryable => Recorded w built e
    | .permanent => e.statusCode = some 400 ∧ match built.sequences with
      | [s] => Commits w
          (SQLiteSpool.moveToDeadLetter w.config.limits [s] e.text w.env.wallTimeNs true)
      | _ => Recorded w built e
    | .authentication | .transport => False

/-- The end of a `send_batch` of the delivery loop settles its rows, where one of them is
pending. -/
def Settles (w : World) : Action → Prop
  | .deliverSent result => ∀ built, w.deliver = .sending built →
      (∃ r ∈ w.spool.db.pending, r.sequence ∈ built.sequences) → Settled w built result
  | _ => True

section
variable {w w' u : World} {built : BuiltBatch} {result : SendResult}

/-! ## The end of a send -/

/-- What the end of a `send_batch` does to the rows: it is observed, and what it delivers is the
batch; flags are only set, on the rows of the batch, by an uncertain error; and where it settles
its rows, those that are still pending are marked. -/
structure Ended (w : World) (built : BuiltBatch) (result : SendResult) (w' : World) : Prop where
  history : ∃ obs more, w'.history = (w.history ++ [.sent built result] ++ obs) ++ more ∧
    (∀ o ∈ more, o.IsOf False) ∧ (obs = [] ∨
      obs = [.delivered (World.rowsOf w.spool.db built.sequences) built.uncertainSequences] ∧
        ∀ s ∈ built.sequences, s ∈ w.spool.db.pending.map (·.sequence))
  pending : ∀ r' ∈ w'.spool.db.pending, ∃ r ∈ w.spool.db.pending, r'.sequence = r.sequence ∧
    (r.deliveryUncertain = true → r'.deliveryUncertain = true) ∧
    (r'.deliveryUncertain = true → r.deliveryUncertain = true ∨ r.sequence ∈ built.sequences ∧
      (Settled w built result →
        ∀ b, w.main = .flushSending b → ∀ s ∈ built.sequences, s ∉ b.sequences))
  settled : Settled w built result → result.taints = true →
    ∀ r' ∈ w'.spool.db.pending, r'.sequence ∈ built.sequences → r'.deliveryUncertain = true

/-- What is quiet behind it changes nothing of that. -/
theorem Ended.quiet (h : Ended w built result u) (hq : Quiet False u w') :
    Ended w built result w' where
  history := by
    obtain ⟨obs, more, hobs, hmore, hcase⟩ := h.history
    obtain ⟨quiet, hquiet, hof⟩ := hq.history
    refine ⟨obs, more ++ quiet, by rw [hquiet, hobs, List.append_assoc], fun o hm => ?_, hcase⟩
    exact (List.mem_append.mp hm).elim (hmore o) fun hm => (hof o hm).isOf
  pending r' hr' := h.pending r' (hq.db.pending ▸ hr')
  settled hs ht r' hr' := h.settled hs ht r' (hq.db.pending ▸ hr')

/-- A call that raises has not committed. -/
theorem not_commits {α : Type} {p : SpoolM α} {e : Exc} (h : w.call p = (.error e, w')) :
    ¬ Commits w p := by
  rintro ⟨a, ha⟩
  have hresult : (run p w.spool).1 = .error e := congrArg Prod.fst h
  cases ha.symm.trans hresult

/-- Nothing has happened to the rows. -/
theorem Ended.kept (hp : u.spool.db.pending = w.spool.db.pending)
    (hh : u.history = w.history ++ [.sent built result])
    (hs : Settled w built result → result.taints = true → False) : Ended w built result u where
  history := ⟨[], [], by rw [hh, List.append_nil, List.append_nil], nofun, .inl rfl⟩
  pending r hr := ⟨r, hp ▸ hr, rfl, id, .inl⟩
  settled h ht := (hs h ht).elim

/-- The attempt that is recorded marks the rows of an uncertain error. -/
theorem Ended.recorded {e : IlpError} (h : Books w)
    (hrec : Settled w built (.error e) → e.deliveryUncertain = true → Recorded w built e)
    {res : Except Exc Unit}
    (hm : (w.observe (.sent built (.error e))).recordAttempt built e.text e.deliveryUncertain =
      (res, u)) : Ended w built (.error e) u := by
  unfold World.recordAttempt at hm
  split at hm
  · next n v hv =>
    obtain ⟨c, hrun, rfl⟩ := of_call hv
    cases hm
    obtain ⟨hdb, -, hnodup, -⟩ := recordAttempt_ok h.coherent hrun
    have hpending : c.db.pending = w.spool.db.pending.map fun r =>
        if r.sequence ∈ built.sequences then Sql.attempted e.text e.deliveryUncertain r else r := by
      rw [hdb]
      exact attemptedAll_pending _ _ hnodup
    refine ⟨⟨[], [], by simp [observe], nofun, .inl rfl⟩, fun r' hr' => ?_,
      fun _ ht r' hr' hs => ?_⟩
    · change r' ∈ c.db.pending at hr'
      rw [hpending] at hr'
      obtain ⟨r, hr, rfl⟩ := List.mem_map.mp hr'
      by_cases hs : r.sequence ∈ built.sequences
      · rw [if_pos hs]
        refine ⟨r, hr, rfl, fun hflag => by simp [Sql.attempted, hflag], fun hflag => ?_⟩
        rcases (Bool.or_eq_true _ _).mp hflag with hflag | hunc
        · exact .inl hflag
        · exact .inr ⟨hs, fun hset => (hrec hset hunc).2⟩
      · rw [if_neg hs]
        exact ⟨r, hr, rfl, id, .inl⟩
    · change r' ∈ c.db.pending at hr'
      rw [hpending] at hr'
      obtain ⟨r, hr, rfl⟩ := List.mem_map.mp hr'
      have hrs : r.sequence ∈ built.sequences := by
        split at hs
        · exact hs
        · exact hs
      have hunc : e.deliveryUncertain = true := ht
      rw [if_pos hrs]
      simp [Sql.attempted, hunc]
  · next x v hv =>
    cases hm
    have hq : Quiet False _ u := .failed (atomic_recordAttempt _ _ _) hv
    obtain ⟨c, -, rfl⟩ := of_call hv
    refine .kept hq.db.pending rfl fun hset ht => ?_
    have hunc : e.deliveryUncertain = true := ht
    rw [hunc] at hv
    obtain ⟨a, ha⟩ := (hrec hset hunc).1
    exact not_commits hv ⟨a, ha⟩

/-- The row of a batch of one goes to dead letter. -/
theorem Ended.moved {e : IlpError} {s : Int} (h : Books w) (ho : w.spool.db.Opened)
    (hs : built.sequences = [s])
    (hmove : Settled w built (.error e) → e.deliveryUncertain = true → Commits w
      (SQLiteSpool.moveToDeadLetter w.config.limits [s] e.text w.env.wallTimeNs true))
    {res : Except Exc Unit}
    (hm : (w.observe (.sent built (.error e))).moveToDeadLetter s e.text e.deliveryUncertain =
      (res, u)) : Ended w built (.error e) u := by
  unfold World.moveToDeadLetter at hm
  split at hm
  · next m k v hv =>
    obtain ⟨c, hrun, rfl⟩ := of_call hv
    cases hm
    obtain ⟨rs, hmap, -, hdb, -⟩ := moveToDeadLetter_ok h.coherent ho hrun
    have hpending : c.db.pending = w.spool.db.pending.filter (·.sequence ∉ built.sequences) := by
      rw [hdb, hs, ← hmap]
      exact (movedAll_pending _ _ _ _ _ rs).1
    refine ⟨⟨[], [_], by rw [List.append_nil]; rfl, ?_, .inl rfl⟩, fun r hr => ?_,
      fun _ _ r hr hrs => ?_⟩
    · simp [movedRow, Obs.IsOf]
    · change r ∈ c.db.pending at hr
      rw [hpending] at hr
      exact ⟨r, (List.mem_filter.mp hr).1, rfl, id, .inl⟩
    · change r ∈ c.db.pending at hr
      rw [hpending] at hr
      exact absurd hrs (by simpa using (List.mem_filter.mp hr).2)
  · next x v hv =>
    cases hm
    have hq : Quiet False _ u := .failed (atomic_moveToDeadLetter _ _ _ _ _) hv
    obtain ⟨c, -, rfl⟩ := of_call hv
    refine .kept hq.db.pending rfl fun hset ht => ?_
    have hunc : e.deliveryUncertain = true := ht
    rw [hunc] at hv
    obtain ⟨a, ha⟩ := hmove hset hunc
    exact not_commits hv ⟨a, ha⟩

/-- The rows of a batch that was sent are removed. -/
theorem Ended.delivered (h : Books w) {res : Except Exc Unit}
    (hm : (w.observe (.sent built .ok)).batchDelivered built = (res, u)) :
    Ended w built .ok u := by
  unfold batchDelivered at hm
  split at hm
  · next e v hv =>
    cases hm
    have hq : Quiet False _ u := .failed (atomic_markDelivered _) hv
    obtain ⟨c, -, rfl⟩ := of_call hv
    exact .kept hq.db.pending rfl fun hset _ => not_commits hv hset
  · next n v hv =>
    obtain ⟨c, hrun, rfl⟩ := of_call hv
    cases hm
    obtain ⟨hdb, -, -, -, hall⟩ := markDelivered_ok h.coherent hrun
    have hpending : c.db.pending = w.spool.db.pending.filter (·.sequence ∉ built.sequences) := by
      rw [hdb]
      exact removedAll_pending _ _
    refine ⟨⟨[_], [], by rw [List.append_nil]; rfl, nofun, .inr ⟨rfl, hall⟩⟩, fun r hr => ?_,
      fun _ _ r hr hrs => ?_⟩
    · change r ∈ c.db.pending at hr
      rw [hpending] at hr
      exact ⟨r, (List.mem_filter.mp hr).1, rfl, id, .inl⟩
    · change r ∈ c.db.pending at hr
      rw [hpending] at hr
      exact absurd hrs (by simpa using (List.mem_filter.mp hr).2)

/-- **The end of a `send_batch`**, by what it raises. -/
theorem deliverFinish_ended (h : Books w) (ho : w.spool.db.Opened) {backoff backoff' : Backoff}
    {res : Except Exc DeliveryOutcome}
    (hm : w.deliverFinish built backoff result = (res, backoff', w')) :
    Ended w built result w' := by
  unfold deliverFinish at hm
  dsimp only at hm
  split at hm
  · split at hm
    · next v hv =>
      cases hm
      exact .delivered h hv
    · next e v hv =>
      cases hm
      exact .delivered h hv
  · cases hm
    exact .kept rfl rfl nofun
  · next e =>
    have hquiet : ∀ (state : WorkerState) (lastError : Option PyStr) (reason : Option BlockReason),
        (Settled w built (.error e) → e.deliveryUncertain = true → False) →
        Ended w built (.error e)
          ((w.observe (.sent built (.error e))).setDeliveryState state lastError none reason) :=
      fun _ _ _ hs => .kept rfl rfl hs
    split at hm
    · next hkind =>
      cases hm
      exact hquiet _ _ _ fun hset hunc => by simpa [hkind] using hset hunc
    · next hkind =>
      have hrec : Settled w built (.error e) → e.deliveryUncertain = true → Recorded w built e :=
        fun hset hunc => by simpa [hkind] using hset hunc
      split at hm
      · next v hv =>
        cases hm
        exact (Ended.recorded h hrec hv).quiet (.retryLater ..)
      · next x v hv =>
        cases hm
        exact .recorded h hrec hv
    · next hkind =>
      have hperm : Settled w built (.error e) → e.deliveryUncertain = true → _ :=
        fun hset hunc => by simpa only [hkind] using hset hunc
      split at hm
      · next hstatus =>
        unfold batchRejected at hm
        split at hm
        · next s hs =>
          have hmove : Settled w built (.error e) → e.deliveryUncertain = true → Commits w
              (SQLiteSpool.moveToDeadLetter w.config.limits [s] e.text w.env.wallTimeNs true) :=
            fun hset hunc => by simpa only [hs] using (hperm hset hunc).2
          split at hm
          · next v hv =>
            cases hm
            exact .moved h ho hs hmove hv
          · next x v hv =>
            split at hm
            · cases hm
              exact (Ended.moved h ho hs hmove hv).quiet (.retryLater ..)
            · cases hm
              exact .moved h ho hs hmove hv
        · next hmany =>
          have hrec : Settled w built (.error e) → e.deliveryUncertain = true →
              Recorded w built e := fun hset hunc => by
            have := (hperm hset hunc).2
            split at this
            · next s hs => exact absurd hs (hmany s)
            · exact this
          split at hm
          · next v hv =>
            cases hm
            exact (Ended.recorded h hrec hv).quiet (.setDeliveryState ..)
          · next x v hv =>
            cases hm
            exact .recorded h hrec hv
      · next hstatus =>
        cases hm
        exact hquiet _ _ _ fun hset hunc => hstatus (hperm hset hunc).1
    · next hkind =>
      cases hm
      exact .kept rfl rfl fun hset hunc => by simpa [hkind] using hset hunc

/-- The handler of a response ends the attempt with its marks. -/
theorem deliverSent_ended (h : Books w) (ho : w.spool.db.Opened) :
    Ended w built result (w.deliverSent built result) := by
  unfold deliverSent
  split
  · next outcome backoff v hv =>
    have hended : Ended w built result (v.withBackoff backoff) :=
      (deliverFinish_ended h ho hv).quiet (.of_eq rfl rfl rfl rfl)
    exact hended.quiet (afterDelivery_quiet _ outcome).1
  · next e backoff v hv =>
    have hended : Ended w built result (v.withBackoff backoff) :=
      (deliverFinish_ended h ho hv).quiet (.of_eq rfl rfl rfl rfl)
    exact hended.quiet (deliveryFailed_quiet _ e).1

/-- The shutdown flush ends with its one batch. -/
theorem flushSent_ended (h : Books w) (ho : w.spool.db.Opened) :
    Ended w built result (w.flushSent built result) ∧
      ¬ (w.flushSent built result).thread.IsLive := by
  have hraise : ∀ (v : World) (e : Exc), ¬ (v.mainRaise e).thread.IsLive := fun _ _ => id
  unfold flushSent
  split
  · next v hv =>
    refine ⟨(deliverFinish_ended h ho hv).quiet (.mainFinish (.refl v)), ?_⟩
    rcases mainFinish_eq v with ⟨e, he⟩ | ⟨deliver, he, -⟩
    · rw [he]
      exact hraise v e
    · rw [he]
      exact id
  · next e backoff v hv =>
    exact ⟨(deliverFinish_ended h ho hv).quiet (.mainRaise (.refl v) e), hraise v e⟩

end

/-! ## Marked rows -/

section
variable {w w' : World} {a : Action} {built : BuiltBatch} {result : SendResult}

/-- The batch counts its marked rows. -/
def CountsFlagged (w : World) (built : BuiltBatch) : Prop :=
  built.uncertainSequences.Sublist built.sequences ∧
    ∀ r ∈ w.spool.db.pending, r.sequence ∈ built.sequences → r.deliveryUncertain = true →
      r.sequence ∈ built.uncertainSequences

/-- The tainted rows that are pending are marked, the batches in flight count the marked rows, and
so did every delivery. -/
structure Marked (w : World) : Prop where
  flagged : w.thread.IsLive → ∀ r ∈ w.spool.db.pending, r.sequence ∈ tainted w.history →
    r.deliveryUncertain = true
  assigned : ∀ s ∈ tainted w.history, s ≤ w.spool.db.pendingSeq
  flight : ∀ built, w.deliver = .sending built ∨ w.main = .flushSending built →
    CountsFlagged w built
  counts : Chronicle CountsUncertain w.history

/-- The thread does not come back. -/
theorem isLive_of_taken (hp : Placed w) (ht : Taken w a w') (hr : ¬ a.isRestart)
    (hl : w'.thread.IsLive) : w.thread.IsLive := by
  rcases a.sides with ha | ha | ha
  · exact (ht.outside ha).thread ▸ hl
  · rcases (ht.inside hp ha).thread with he | ⟨hloop, -⟩
    · exact he ▸ hl
    · rw [hloop]
      trivial
  · cases ht with
    | restart => exact absurd rfl hr
    | environment => exact hl
    | startCall =>
      unfold World.startCall at hl
      split at hl
      · next hnew =>
        rw [hp.fresh hnew]
        trivial
      · exact hl
    | stopLock i seen timeout =>
      obtain ⟨pc, state, deadline, he, -⟩ := stopLock_eq w i seen timeout
      rw [he] at hl
      exact hl
    | threadOpen factoryError hth => exact hth ▸ trivial
    | threadStartup hth => exact hth ▸ trivial
    | threadAnnounce hth => exact hth ▸ trivial
    | threadFail | threadClose | threadExit | threadDie => exact hl.elim
    | _ => exact ha.elim

/-- A batch that has just been built counts its marked rows. -/
theorem Fresh.countsFlagged (hc : w.spool.db.Coherent) (hf : Fresh w built) :
    CountsFlagged w built := by
  obtain ⟨-, rows, rest, hp, hbuilt⟩ := hf
  have hsub : rows.Sublist w.spool.db.pending := hp ▸ List.sublist_append_left _ _
  constructor
  · rw [hbuilt.uncertain, hbuilt.sequences]
    exact List.filter_sublist.map _
  · intro r hr hs hflag
    rw [hbuilt.sequences] at hs
    obtain ⟨q, hq, hqs⟩ := List.mem_map.mp hs
    obtain rfl := eq_of_key hc.pendingNodup (hsub.subset hq) hr hqs
    rw [hbuilt.uncertain]
    exact List.mem_map_of_mem (List.mem_filter.mpr ⟨hq, hflag⟩)

/-- A step that ends no `send_batch` marks no row, and takes no mark back. -/
theorem Marked.aside (h : Marked w) (hb : Bookkept w) (ht : Taken w a w') (hr : ¬ a.isRestart)
    (hns : ¬ a.IsSent) : Marked w' := by
  have hfalse : a.IsSent = False := eq_false hns
  have hc : Carries False w w' := hfalse ▸ hb.carries ht hr
  obtain ⟨obs, hobs, hof⟩ := hc.keeps.history
  obtain ⟨htainted, hcounts⟩ := tainted_append w.history hof
  have hrows : ∀ r' ∈ w'.spool.db.pending, r' ∈ w.spool.db.pending ∨
      w.spool.db.pendingSeq < r'.sequence ∧ r'.deliveryUncertain = false := by
    intro r' hr'
    rcases hc.keeps.pending r' hr' with ⟨r, hr, -, -, rfl | hf⟩ | ⟨hnew, hclear | hf⟩
    · exact .inl hr
    · exact hf.elim
    · exact .inr ⟨hnew, hclear⟩
    · exact hf.elim
  have hkept : ∀ {built}, CountsFlagged w built → CountsFlagged w' built := by
    refine fun hcount => ⟨hcount.1, fun r' hr' hs hflag => ?_⟩
    rcases hrows r' hr' with hr' | ⟨-, hclear⟩
    · exact hcount.2 r' hr' hs hflag
    · cases hclear.symm.trans hflag
  refine ⟨fun hl r' hr' hs => ?_, fun s hs => ?_, fun built hflight => ?_, hobs ▸ hcounts h.counts⟩
  · rw [hobs, htainted] at hs
    rcases hrows r' hr' with hr' | ⟨hnew, -⟩
    · exact h.flagged (isLive_of_taken hb.placed ht hr hl) r' hr' hs
    · exact absurd (h.assigned _ hs) (not_le.mpr hnew)
  · rw [hobs, htainted] at hs
    exact (h.assigned s hs).trans hc.keeps.seq
  · rcases hflight with hd | hm
    · rcases hc.sending built hd with hd | hfresh
      · exact hkept (h.flight built (.inl hd))
      · exact hfresh.countsFlagged hc.keeps.books.coherent
    · rcases hc.flushing built hm with hm | hfresh
      · exact hkept (h.flight built (.inr hm))
      · exact hfresh.countsFlagged hc.keeps.books.coherent

/-- What the end of a `send_batch` adds to the history. -/
theorem Marked.ended_history (h : Marked w) (hb : Books w) (hbatch : Batched w built)
    (hcount : CountsFlagged w built) (hl : w.thread.IsLive) (he : Ended w built result w') :
    tainted w'.history =
        (if result.taints then tainted w.history ++ built.sequences else tainted w.history) ∧
      Chronicle CountsUncertain w'.history := by
  obtain ⟨obs, more, hobs, hmore, hcase⟩ := he.history
  have hsent : Chronicle CountsUncertain (w.history ++ [.sent built result]) :=
    .snoc _ h.counts trivial
  have hmid : tainted (w.history ++ [.sent built result] ++ obs) =
        (if result.taints then tainted w.history ++ built.sequences else tainted w.history) ∧
      Chronicle CountsUncertain (w.history ++ [.sent built result] ++ obs) := by
    rcases hcase with rfl | ⟨rfl, hall⟩
    · rw [List.append_nil]
      exact ⟨tainted_snoc _ _, hsent⟩
    · obtain ⟨hkeys, -⟩ := hbatch.rowsOf hb hall
      refine ⟨(tainted_snoc _ _).trans (tainted_snoc _ _),
        .snoc _ hsent ⟨hkeys.symm ▸ hcount.1, ?_⟩⟩
      intro row hrow hs
      rw [List.dropLast_concat] at hs
      obtain ⟨r, hr, rfl⟩ := List.mem_map.mp hrow
      obtain ⟨hr, hin⟩ := List.mem_filter.mp hr
      exact hcount.2 r hr (by simpa using hin) (h.flagged hl r hr hs)
  obtain ⟨htainted, hcounts⟩ :=
    tainted_append (w.history ++ [.sent built result] ++ obs) hmore
  rw [hobs]
  exact ⟨htainted.trans hmid.1, hcounts hmid.2⟩

/-- What is tainted has been assigned. -/
theorem Marked.ended_assigned (h : Marked w) (hbatch : Batched w built)
    (ht : tainted w'.history =
      if result.taints then tainted w.history ++ built.sequences else tainted w.history)
    (hseq : w.spool.db.pendingSeq ≤ w'.spool.db.pendingSeq) :
    ∀ s ∈ tainted w'.history, s ≤ w'.spool.db.pendingSeq := by
  intro s hs
  rw [ht] at hs
  split at hs
  · exact ((List.mem_append.mp hs).elim (h.assigned s) (hbatch.assigned s)).trans hseq
  · exact (h.assigned s hs).trans hseq

/-- The end of a `send_batch` of the delivery loop, where it settles its rows. -/
theorem Marked.deliverSent (h : Marked w) (hb : Bookkept w) (ho : w.spool.db.Opened)
    (hd : w.deliver = .sending built)
    (hset : (∃ r ∈ w.spool.db.pending, r.sequence ∈ built.sequences) → Settled w built result) :
    Marked (w.deliverSent built result) := by
  have hl : w.thread.IsLive := by
    rw [hb.placed.looping (tasksRun_active (hb.placed.delivering (hd ▸ trivial)))]
    trivial
  have hbatch := hb.sending built hd
  have hcount := h.flight built (.inl hd)
  have hturn := deliverSent_turn hb.books ho hbatch result
  have he : Ended w built result (w.deliverSent built result) := deliverSent_ended hb.books ho
  obtain ⟨htainted, hcounts⟩ := h.ended_history hb.books hbatch hcount hl he
  refine ⟨fun _ r' hr' hs => ?_, h.ended_assigned hbatch htainted hturn.keeps.seq,
    fun b hflight => ?_, hcounts⟩
  · obtain ⟨r, hr, hsame, hkept, -⟩ := he.pending r' hr'
    have hold : r'.sequence ∈ tainted w.history → r'.deliveryUncertain = true :=
      fun hs => hkept (h.flagged hl r hr (hsame ▸ hs))
    rw [htainted] at hs
    split at hs
    · next htaints =>
      rcases List.mem_append.mp hs with hs | hs
      · exact hold hs
      · exact he.settled (hset ⟨r, hr, hsame ▸ hs⟩) htaints r' hr' hs
    · exact hold hs
  · rcases hflight with hflight | hflight
    · exact (hturn.fresh b hflight).countsFlagged hturn.keeps.books.coherent
    · -- the flush is in flight: its rows are marked by no one else
      have hmain : w.main = .flushSending b := by
        have hframe := Delivers.deliverSent w built result
        obtain ⟨_, _, _, _, _, _, heq⟩ := hframe.world
        rw [heq] at hflight
        exact hflight
      have hb' := h.flight b (.inr hmain)
      refine ⟨hb'.1, fun r' hr' hs hflag => ?_⟩
      obtain ⟨r, hr, hsame, -, hnew⟩ := he.pending r' hr'
      rw [hsame] at hs ⊢
      rcases hnew hflag with hflag | ⟨hin, hdisjoint⟩
      · exact hb'.2 r hr hs hflag
      · exact absurd hs (hdisjoint (hset ⟨r, hr, hin⟩) b hmain _ hin)

/-- The end of the shutdown flush: nothing follows it. -/
theorem Marked.flushSent (h : Marked w) (hb : Bookkept w) (ho : w.spool.db.Opened)
    (hm : w.main = .flushSending built) (hp : Placed (w.flushSent built result)) :
    Marked (w.flushSent built result) := by
  have hl : w.thread.IsLive := by
    rw [hb.placed.looping (hm ▸ trivial)]
    trivial
  have hbatch := hb.flushing built hm
  have hturn := flushSent_turn hb.books ho hbatch result
  obtain ⟨he, hover⟩ : Ended w built result _ ∧ _ := flushSent_ended hb.books ho
  obtain ⟨htainted, hcounts⟩ := h.ended_history hb.books hbatch (h.flight built (.inr hm)) hl he
  have hidle : ¬ (w.flushSent built result).main.IsActive := fun ha => by
    rw [hp.looping ha] at hover
    exact hover trivial
  refine ⟨fun hl => absurd hl hover, h.ended_assigned hbatch htainted hturn.keeps.seq,
    fun b hflight => ?_, hcounts⟩
  rcases hflight with hflight | hflight
  · exact absurd (tasksRun_active (hp.delivering (hflight ▸ trivial))) hidle
  · exact absurd (hflight ▸ trivial) hidle

/-- A new process has uncertain rows from earlier ones only. -/
theorem Marked.boot (config : Config) (env : Env) (db : Database) {history : List Obs}
    (hc : Chronicle CountsUncertain history) : Marked (.boot config env db history) := by
  have hnone : tainted (World.boot config env db history).history = [] := tainted_snoc _ _
  refine ⟨fun _ r _ hs => ?_, fun s hs => ?_, nofun, .snoc _ hc trivial⟩
  · rw [hnone] at hs
    cases hs
  · rw [hnone] at hs
    cases hs

/-- A step that settles keeps the marks. -/
theorem Marked.step (h : Marked w) (hb : Bookkept w) (hg : Settles w a)
    (hs : step w a = some w') : Marked w' := by
  have ht := Taken.of_step hs
  by_cases hr : a.isRestart
  · cases ht with
    | restart config env => exact .boot config env _ h.counts
    | _ => cases hr
  · by_cases hsent : a.IsSent
    · cases ht with
      | deliverSent built result hbusy hd =>
        have ho := hb.opened (hb.placed.looping
          (tasksRun_active (hb.placed.delivering (hd ▸ trivial))) ▸ trivial)
        exact h.deliverSent hb ho hd (hg built hd)
      | flushSent built result hm =>
        exact h.flushSent hb (hb.opened (hb.placed.looping (hm ▸ trivial) ▸ trivial)) hm
          (hb.placed.step hs)
      | _ => exact hsent.elim
    · exact h.aside hb ht hr hsent

/-! ## Every run -/

/-- A mark stays: on a row that is pending, on one that is moved, and on a dead letter. -/
def KeepsMarks (w w' : World) : Prop :=
  (∀ r ∈ w.spool.db.pending, r.deliveryUncertain = true →
      (∀ r' ∈ w'.spool.db.pending, r'.sequence = r.sequence → r'.deliveryUncertain = true) ∧
      ∀ d' ∈ w'.spool.db.deadLetter, d'.originalSequence = r.sequence →
        d'.deliveryUncertain = true) ∧
    ∀ d ∈ w.spool.db.deadLetter, d.deliveryUncertain = true →
      ∀ d' ∈ w'.spool.db.deadLetter, d'.originalSequence = d.originalSequence →
        d'.deliveryUncertain = true

/-- A dead letter has a sequence that was assigned. -/
theorem Books.deadLetter_assigned (h : Books w) {d : DeadLetterRecord}
    (hd : d ∈ w.spool.db.deadLetter) : d.originalSequence ≤ w.spool.db.pendingSeq :=
  h.assigned d.identity (h.fifo ▸ List.mem_append_left _ (h.deadLetter_removed hd))

/-- What keeps the books keeps the marks. -/
theorem KeepsMarks.of_keeps {attempt : Prop} (h : Books w) (hk : Keeps attempt w w') :
    KeepsMarks w w' := by
  have hseqs := List.nodup_append.mp h.coherent.sequences
  have hassigned : ∀ r ∈ w.spool.db.pending, r.sequence ≤ w.spool.db.pendingSeq :=
    fun r hr => (h.coherent.pendingKeys r hr).2
  refine ⟨fun r hr hflag => ⟨fun r' hr' hs => ?_, fun d' hd' hs => ?_⟩,
    fun d hd hflag d' hd' hs => ?_⟩
  · rcases hk.pending r' hr' with ⟨q, hq, hid, hkept, -⟩ | ⟨hnew, -⟩
    · have hqs : r'.sequence = q.sequence := congrArg RowIdentity.sequence hid
      obtain rfl := eq_of_key h.coherent.pendingNodup hq hr (hqs.symm.trans hs)
      exact hkept hflag
    · exact absurd (hassigned r hr) (not_le.mpr (hs ▸ hnew))
  · rcases hk.deadLetter d' hd' with hold | ⟨q, hq, hid, hkept⟩ | hnew
    · exact absurd hs.symm (hseqs.2.2 _ (List.mem_map_of_mem hr) _ (List.mem_map_of_mem hold))
    · have hqs : d'.originalSequence = q.sequence := congrArg RowIdentity.sequence hid
      obtain rfl := eq_of_key h.coherent.pendingNodup hq hr (hqs.symm.trans hs)
      exact hkept hflag
    · exact absurd (hassigned r hr) (not_le.mpr (hs ▸ hnew))
  · rcases hk.deadLetter d' hd' with hold | ⟨q, hq, hid, -⟩ | hnew
    · obtain rfl := eq_of_key hseqs.2.1 hold hd hs
      exact hflag
    · have hqs : d'.originalSequence = q.sequence := congrArg RowIdentity.sequence hid
      exact absurd (hqs.symm.trans hs)
        (hseqs.2.2 _ (List.mem_map_of_mem hq) _ (List.mem_map_of_mem hd))
    · exact absurd (h.deadLetter_assigned hd) (not_le.mpr (hs ▸ hnew))

/-- Every step keeps the marks of the rows that stay. -/
theorem KeepsMarks.step (h : Bookkept w) (hs : step w a = some w') : KeepsMarks w w' := by
  have ht := Taken.of_step hs
  by_cases hr : a.isRestart
  · cases ht with
    | restart config env =>
      -- a new process reads the same file
      have hsame : Keeps False w w := .refl h.books
      exact (KeepsMarks.of_keeps h.books hsame : KeepsMarks w w)
    | _ => cases hr
  · exact .of_keeps h.books (h.carries ht hr).keeps

/-- **Uncertain deliveries stay observable**: no step of any run takes a mark back, and in every run
whose sends settle their rows, a row that the server may have had is counted as uncertain when it is
delivered. -/
theorem uncertain_counted (config : Config) (env : Env) :
    (∀ w, Steps QuestDbWriter.step Settles (.boot config env Database.fresh []) w →
      (∀ before rows uncertain after, w.history = before ++ .delivered rows uncertain :: after →
        uncertain.Sublist (rows.map (·.sequence)) ∧
          ∀ row ∈ rows, row.sequence ∈ tainted before.dropLast → row.sequence ∈ uncertain) ∧
      w.shared.counters.uncertainDeliveredEvents = (tallyOf w.history).uncertain) ∧
    ∀ w a w', Steps QuestDbWriter.step (fun _ _ => True) (.boot config env Database.fresh []) w →
      QuestDbWriter.step w a = some w' → KeepsMarks w w' := by
  refine ⟨fun w hrun => ?_, fun w a w' hrun hs => .step (.of_steps hrun) hs⟩
  have hinv : Bookkept w ∧ Marked w := by
    refine hrun.invariant (I := fun w => Bookkept w ∧ Marked w)
      ⟨.of_books (.fresh config env), .boot config env _ .nil⟩ ?_
    rintro u a v ⟨hb, h⟩ hg hs
    exact ⟨hb.step hs, h.step hb hg hs⟩
  refine ⟨fun before rows uncertain after heq => ?_, hinv.1.books.tallied.counters.2.2.1⟩
  exact hinv.2.counts.rests heq

/-- The request was sent, and no answer came. -/
def timedOut : IlpError :=
  { kind := .retryable, message := py "timeout", statusCode := none, deliveryUncertain := true }

/-- One event is sent, and sent again after a timeout. -/
def sentAgain : List Action :=
  oneSent ++ [.deliverSent (.error timedOut), .environment { Env.quiet with monotonic := 10 } [],
    .deliverRun, .deliverSent .ok]

/-- The check of `Settled`. -/
def isSettled (w : World) (built : BuiltBatch) : SendResult → Bool
  | .ok => (run (markDelivered built.sequences) w.spool).1.isOk
  | .error e => decide (e.kind = .retryable) && decide (w.main = .waiting) &&
      (run (SQLiteSpool.recordAttempt built.sequences e.text true) w.spool).1.isOk
  | .raised _ => true

/-- The check of `Settles`. -/
def isSettling (w : World) : Action → Bool
  | .deliverSent result =>
    match w.deliver with
    | .sending built => isSettled w built result
    | _ => true
  | _ => true

/-- A call that returns commits. -/
theorem commits_of {w : World} {α : Type} {p : SpoolM α} (h : (run p w.spool).1.isOk = true) :
    Commits w p := by
  unfold Commits
  cases hres : (run p w.spool).1 with
  | ok a => exact ⟨a, rfl⟩
  | error e =>
    rw [hres] at h
    cases h

/-- The check of an action is its condition. -/
theorem settles_of (w : World) (a : Action) (h : isSettling w a = true) : Settles w a := by
  cases a with
  | deliverSent result =>
    intro built hd _
    simp only [isSettling, hd] at h
    cases result with
    | ok => exact commits_of h
    | raised e => trivial
    | error e =>
      simp only [isSettled, Bool.and_eq_true, decide_eq_true_eq] at h
      obtain ⟨⟨hkind, hmain⟩, hok⟩ := h
      intro _
      simp only [hkind]
      exact ⟨commits_of hok, fun b hb => by rw [hmain] at hb; cases hb⟩
  | _ => trivial

/-- The second `send_batch` counts what the first left open. -/
theorem sentAgain_counted : ∃ w : World,
    exec QuestDbWriter.step sentAgain (.boot .provisional .quiet .fresh []) = some w ∧
      w.shared.counters.deliveredEvents = 1 ∧
      ∀ before rows uncertain after, w.history = before ++ .delivered rows uncertain :: after →
        ∀ row ∈ rows, row.sequence ∈ tainted before.dropLast → row.sequence ∈ uncertain := by
  have hrun : ((execIn QuestDbWriter.step isSettling sentAgain
      (.boot .provisional .quiet .fresh [])).any fun w =>
      decide (w.shared.counters.deliveredEvents = 1)) = true := by
    decide +kernel
  obtain ⟨w, hw, hend⟩ := (Option.any_eq_true _ _).mp hrun
  refine ⟨w, exec_of_execIn (Option.mem_def.mp hw), of_decide_eq_true hend, ?_⟩
  intro before rows uncertain after heq
  exact (((uncertain_counted _ _).1 w (.of_execIn settles_of hw)).1 before rows uncertain after heq).2

/-- One event is sent, its removal fails, and it is sent again. -/
def sentTwice : List Action :=
  oneSent ++ [.environment .quiet [some (some 13)], .deliverSent .ok,
    .environment { Env.quiet with monotonic := 10 } [], .deliverRun, .deliverSent .ok]

/-- The observation is a delivery that leaves out a row whose delivery was uncertain before. -/
def isUncounted (w : World) : Obs → Bool
  | .delivered rows uncertain =>
    decide (∃ row ∈ rows, row.sequence ∈ tainted w.history.dropLast.dropLast ∧
      row.sequence ∉ uncertain)
  | _ => false

/-- The check finds a removed row whose uncertainty is not counted. -/
theorem isUncounted_iff {w : World} {o : Obs} : isUncounted w o = true ↔
    ∃ rows uncertain, o = .delivered rows uncertain ∧
      ∃ row ∈ rows, row.sequence ∈ tainted w.history.dropLast.dropLast ∧
        row.sequence ∉ uncertain := by
  cases o <;> simp [isUncounted]

/-- **A delivery is not always counted as uncertain**: a row that was acknowledged is sent again
unmarked where its removal failed. -/
theorem uncertain_uncounted : ¬ ∀ (config : Config) (env : Env) (w : World),
    Steps QuestDbWriter.step (fun _ _ => True) (.boot config env Database.fresh []) w →
      ∀ before rows uncertain after, w.history = before ++ .delivered rows uncertain :: after →
        ∀ row ∈ rows, row.sequence ∈ tainted before.dropLast → row.sequence ∈ uncertain := by
  intro h
  have hrun : ((exec QuestDbWriter.step sentTwice (.boot .provisional .quiet .fresh [])).any
      fun w => w.history.getLast?.any (isUncounted w)) = true := by
    decide +kernel
  obtain ⟨w, hw, hend⟩ := (Option.any_eq_true _ _).mp hrun
  obtain ⟨o, hlast, ho⟩ := (Option.any_eq_true _ _).mp hend
  obtain ⟨rows, uncertain, rfl, row, hrow, htainted, hout⟩ := isUncounted_iff.mp ho
  refine hout (h _ _ w (.of_exec hw) w.history.dropLast rows uncertain [] ?_ row hrow htainted)
  exact (List.dropLast_append_getLast? _ hlast).symm

end

end World

end QuestDbWriter
