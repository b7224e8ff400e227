import QuestDbWriter.Worker.Accounts
import QuestDbWriter.Worker.Deliveries

/-!
# The isolation of rejected rows

The deliveries of `_delivery_loop` against a server that takes some rows and rejects a batch with
status 400 for any other row in it, while rows are appended (`drive`). A rejected batch of several
rows makes the next one a batch of one row, so every call of `send_batch` but one for each removed
row is paid for by that row. `Ledger` is what has become of the rows, `Isolating` the invariant, and
`isolation_exact` the result: each row ends where it belongs, in order, after at most two calls for
each removed row.
-/

namespace QuestDbWriter

open Lib Database SQLiteSpool
open Session (eval run)

/-! ## The rows and the calls -/

/-- The calls of `send_batch` that have ended. -/
def sendCount (history : List Obs) : Nat := history.countP fun
  | .sent _ _ => true
  | _ => false

theorem sendCount_snoc (history : List Obs) (o : Obs) : sendCount (history ++ [o]) =
    sendCount history + match o with
      | .sent _ _ => 1
      | _ => 0 := by
  rw [sendCount, List.countP_append]
  cases o <;> rfl

/-- What has become of the rows, by the observations since they were `first`: those that are removed
are the oldest ones, the accepted ones among them were delivered and the others moved, all in the
order of their sequences. -/
structure Ledger (accepts : RowIdentity → Bool) (first : List RowIdentity) (seq : Int)
    (pending : List RowIdentity) (obs : List Obs) : Prop where
  fifo : first ++ committedRows obs = removedRows obs ++ pending
  delivered : deliveredRows obs = (removedRows obs).filter accepts
  moved : movedRows obs = (removedRows obs).filter fun row => !accepts row
  increasing : ((first ++ committedRows obs).map (·.sequence)).Pairwise (· < ·)
  assigned : ∀ row ∈ first ++ committedRows obs, row.sequence ≤ seq

namespace Ledger

variable {accepts : RowIdentity → Bool} {first pending rows rest : List RowIdentity} {seq : Int}
  {obs : List Obs}

/-- An observation that moves no row. -/
theorem sent (h : Ledger accepts first seq pending obs) (built : BuiltBatch) (result : SendResult) :
    Ledger accepts first seq pending (obs ++ [.sent built result]) := by
  constructor
  · rw [committedRows_snoc, removedRows_snoc, List.append_nil, List.append_nil]
    exact h.fifo
  · rw [deliveredRows_snoc, removedRows_snoc, List.append_nil, List.append_nil]
    exact h.delivered
  · rw [movedRows_snoc, removedRows_snoc, List.append_nil, List.append_nil]
    exact h.moved
  · rw [committedRows_snoc, List.append_nil]
    exact h.increasing
  · rw [committedRows_snoc, List.append_nil]
    exact h.assigned

/-- The oldest rows are delivered. -/
theorem deliver (h : Ledger accepts first seq (rows ++ rest) obs)
    (haccepts : ∀ row ∈ rows, accepts row = true) (uncertain : List Int) :
    Ledger accepts first seq rest (obs ++ [.delivered rows uncertain]) := by
  have hkeep : rows.filter accepts = rows := List.filter_eq_self.mpr haccepts
  have hdrop : rows.filter (fun row => !accepts row) = [] :=
    List.filter_eq_nil_iff.mpr fun row hrow => by simp [haccepts row hrow]
  constructor
  · rw [committedRows_snoc, removedRows_snoc, List.append_nil, List.append_assoc]
    exact h.fifo
  · rw [deliveredRows_snoc, removedRows_snoc, List.filter_append, h.delivered, hkeep]
  · rw [movedRows_snoc, removedRows_snoc, List.filter_append, h.moved, hdrop]
  · rw [committedRows_snoc, List.append_nil]
    exact h.increasing
  · rw [committedRows_snoc, List.append_nil]
    exact h.assigned

/-- The oldest row is moved. -/
theorem bury {row : RowIdentity} (h : Ledger accepts first seq (row :: rest) obs)
    (hrejects : accepts row = false) (evicted : List RowIdentity) :
    Ledger accepts first seq rest (obs ++ [.moved row evicted]) := by
  constructor
  · rw [committedRows_snoc, removedRows_snoc, List.append_nil, List.append_assoc]
    exact h.fifo
  · rw [deliveredRows_snoc, removedRows_snoc, List.filter_append, h.delivered]
    simp [hrejects]
  · rw [movedRows_snoc, removedRows_snoc, List.filter_append, h.moved]
    simp [hrejects]
  · rw [committedRows_snoc, List.append_nil]
    exact h.increasing
  · rw [committedRows_snoc, List.append_nil]
    exact h.assigned

/-- New rows are appended. -/
theorem enqueue (h : Ledger accepts first seq pending obs) {events : List NewSpoolEvent}
    {seq' : Int} (hsorted : (rows.map (·.sequence)).Pairwise (· < ·))
    (hnew : ∀ row ∈ rows, seq < row.sequence ∧ row.sequence ≤ seq') (hle : seq ≤ seq') :
    Ledger accepts first seq' (pending ++ rows) (obs ++ [.enqueued events rows]) := by
  constructor
  · rw [committedRows_snoc, removedRows_snoc, List.append_nil, ← List.append_assoc, h.fifo,
      List.append_assoc]
  · rw [deliveredRows_snoc, removedRows_snoc, List.append_nil, List.append_nil]
    exact h.delivered
  · rw [movedRows_snoc, removedRows_snoc, List.append_nil, List.append_nil]
    exact h.moved
  · rw [committedRows_snoc, ← List.append_assoc, List.map_append, List.pairwise_append]
    refine ⟨h.increasing, hsorted, fun s hs t ht => ?_⟩
    obtain ⟨row, hrow, rfl⟩ := List.mem_map.mp hs
    obtain ⟨row', hrow', rfl⟩ := List.mem_map.mp ht
    exact lt_of_le_of_lt (h.assigned row hrow) (hnew row' hrow').1
  · rw [committedRows_snoc, ← List.append_assoc]
    intro row hrow
    rcases List.mem_append.mp hrow with hrow | hrow
    · exact (h.assigned row hrow).trans hle
    · exact (hnew row hrow).2

end Ledger

namespace World

/-! ## The drive -/

/-- The answer of a server that takes a batch exactly where it takes each of its rows. -/
def answer (w : World) (good : RowIdentity → Bool) (built : BuiltBatch) (body : Bytes) :
    SendResult :=
  if (rowsOf w.spool.db built.sequences).all good then .ok else .error (rejection 400 body)

/-- A world that is driven, and how often `_deliver_once` has been called. -/
structure Drive where
  world : World
  attempts : Nat

inductive DriveAction where
  /-- The delivery loop calls `_deliver_once`. -/
  | attempt
  /-- The server answers. -/
  | answer (body : Bytes)
  /-- The persist loop has persisted these events. -/
  | persist (events : List NewSpoolEvent)
  | environment (env : Env)

/-- The deliveries of `_delivery_loop`, which attempts one where rows are pending, against the
server. -/
def drive (good : RowIdentity → Bool) (d : Drive) : DriveAction → Option Drive
  | .attempt =>
    if d.world.deliver = .top ∧ d.world.spool.db.pending ≠ [] then
      some { world := d.world.deliverAttempt, attempts := d.attempts + 1 }
    else none
  | .answer body =>
    match d.world.deliver with
    | .sending built =>
      some { d with world := d.world.deliverSent built (d.world.answer good built body) }
    | _ => none
  | .persist events =>
    match { d.world with held := events }.enqueueHeld with
    | (.ok true, w) => some { d with world := w }
    | _ => none
  | .environment env => some { d with world := { d.world with env } }

/-- The row of a payload fits into a batch if there is one, and the payload into dead letter. -/
structure Deliverable (config : Config) (payload : Bytes) : Prop where
  encoded : ∀ encoded, encodePayload config.table.name payload = .ok encoded →
    encoded.length ≤ config.settings.deliveryBatchBytes
  undecodable : ∀ e, encodePayload config.table.name payload = .error e → isUndecodable e = true
  deadLetter : payload.length ≤ config.limits.maxDeadLetterBytes
  bytes : payload.length ≤ maxSqliteBatchBytes

/-- Storage does not fail: SQLite can store the clock, and a key of the dead letters is left; and
the rows that are appended are deliverable. -/
def Drivable (d : Drive) (a : DriveAction) : Prop :=
  d.world.spool.db.deadLetterSeq < sqliteIntegerMax ∧
  match a with
  | .persist events => ∀ e ∈ events, Deliverable d.world.config e.payload
  | .environment env => sqliteIntegerMin ≤ env.wallTimeNs ∧ env.wallTimeNs ≤ sqliteIntegerMax
  | _ => True

/-- The row can be decoded and encoded, and the server takes it. -/
def accepts (good : RowIdentity → Bool) (table : PyStr) (row : RowIdentity) : Bool :=
  good row && match encodePayload table row.payload with
    | .ok _ => true
    | .error _ => false

/-! ## The invariant -/

/-- The batch in flight is of rows from the front that can be encoded, one row where the delivery
isolates. -/
def InFlight (w : World) (built : BuiltBatch) : Prop :=
  ∃ rows rest, w.spool.db.pending = rows ++ rest ∧ rows ≠ [] ∧
    BuiltOf w.config.table.name rows built ∧ (w.locals.isolateNext = true → rows.length = 1)

/-- What a driven world keeps, with the observations since it was `w₀`. A call that isolates is one
more than the removed rows pay for, and so is an attempt whose answer is outstanding. -/
structure Isolating (good : RowIdentity → Bool) (w₀ : World) (d : Drive)
    (obs : List Obs) : Prop where
  working : d.world.Working
  clock : sqliteIntegerMin ≤ d.world.env.wallTimeNs ∧ d.world.env.wallTimeNs ≤ sqliteIntegerMax
  config : d.world.config = w₀.config
  history : d.world.history = w₀.history ++ obs
  deliverable : ∀ row ∈ d.world.spool.db.pending.map SpoolRecord.identity,
    Deliverable w₀.config row.payload
  ledger : Ledger (accepts good w₀.config.table.name) (w₀.spool.db.pending.map SpoolRecord.identity)
    d.world.spool.db.pendingSeq (d.world.spool.db.pending.map SpoolRecord.identity) obs
  split : d.world.locals.isolateNext = true → d.world.spool.db.pending ≠ []
  sends : sendCount obs ≤ 2 * (removedRows obs).length + d.world.locals.isolateNext.toNat
  place : (d.world.deliver = .top ∧
      d.attempts ≤ 2 * (removedRows obs).length + d.world.locals.isolateNext.toNat) ∨
    ∃ built, d.world.deliver = .sending built ∧ InFlight d.world built ∧
      d.attempts ≤ 2 * (removedRows obs).length + d.world.locals.isolateNext.toNat + 1

/-- **Events that are persisted** are appended behind the pending rows. -/
theorem enqueueHeld_appends {w v : World} (h : w.Working) (hm : w.enqueueHeld = (.ok true, v)) :
    ∃ new, (∀ e ∈ new, e ∈ w.held) ∧ v.Working ∧
      v.spool.db.pending = w.spool.db.pending ++ newRows w.spool.db.pendingSeq new ∧
      v.spool.db.pendingSeq = w.spool.db.pendingSeq + new.length ∧
      v.history = w.history ++ [.enqueued w.held
        ((newRows w.spool.db.pendingSeq new).map SpoolRecord.identity)] ∧
      v.config = w.config ∧ v.env = w.env ∧ v.locals = w.locals ∧ v.deliver = w.deliver := by
  have hcall := call_healthy (show (w.logCall .enqueueMany).Healthy from h.healthy)
    (clear_enqueueMany w.config.limits w.held)
  unfold enqueueHeld at hm
  split at hm
  · next n u hu =>
    obtain ⟨⟨db, faults⟩, hrun, rfl⟩ := of_call hu
    obtain rfl : [] = faults := congrArg (·.2.spool.faults) (hcall.symm.trans hu)
    obtain ⟨new, -, rfl, hnew⟩ := enqueueMany_ok h.coherent h.opened hrun
    have hrows := insertedRows_eq h.coherent (show _ = w.spool.db.appendedAll new from rfl)
    have hcoherent := hnew.coherent h.coherent
    have hopened : (w.spool.db.appendedAll new).Opened := by
      refine hcoherent.counted.opened ?_
      rw [appendedAll_isSome]
      exact h.opened.isSome
    have hread : (heldPersisted { w.logCall .enqueueMany with
        spool := ⟨w.spool.db.appendedAll new, []⟩ } w.spool.db).readStats = _ :=
      readStats_healthy rfl hopened
    rw [hread] at hm
    obtain ⟨-, rfl⟩ := Prod.mk.inj hm
    refine ⟨new, hnew.mem, ⟨rfl, hcoherent, hopened⟩, appendedAll_pending new,
      appendedAll_pendingSeq new, ?_, rfl, rfl, rfl, rfl⟩
    rw [← hrows]
    rfl
  · split at hm
    · cases hm
    · split at hm
      · cases hm
      · cases hm

namespace Isolating

variable {good : RowIdentity → Bool} {w₀ v : World} {d d' : Drive} {obs obs' : List Obs}

/-- The end of an attempt. -/
theorem finished (h : Isolating good w₀ d obs) (hacts : Acts d.world v) (hv : v.Working)
    (hhistory : v.history = w₀.history ++ obs')
    (hdeliverable : ∀ row ∈ v.spool.db.pending.map SpoolRecord.identity,
      row ∈ d.world.spool.db.pending.map SpoolRecord.identity)
    (hledger : Ledger (accepts good w₀.config.table.name)
      (w₀.spool.db.pending.map SpoolRecord.identity) v.spool.db.pendingSeq
      (v.spool.db.pending.map SpoolRecord.identity) obs')
    {outcome : DeliveryOutcome} (hsplit : outcome = .split → v.spool.db.pending ≠ [])
    (hsends : sendCount obs' ≤ 2 * (removedRows obs').length + (decide (outcome = .split)).toNat)
    {attempts : Nat}
    (hattempts : attempts ≤ 2 * (removedRows obs').length + (decide (outcome = .split)).toNat)
    (backoff : Backoff) :
    Isolating good w₀ ⟨(v.withBackoff backoff).afterDelivery outcome, attempts⟩ obs' := by
  have hworking : (v.withBackoff backoff).Working := ⟨hv.healthy, hv.coherent, hv.opened⟩
  obtain ⟨shared, locals, he, hisolate⟩ := afterDelivery_working hworking outcome
  obtain ⟨_, _, _, hw⟩ := hacts.world
  have hconfig : v.config = d.world.config := by rw [hw]
  have henv : v.env = d.world.env := by rw [hw]
  rw [he]
  refine ⟨⟨hv.healthy, hv.coherent, hv.opened⟩, ?_, hconfig.trans h.config, hhistory,
    fun row hrow => h.deliverable row (hdeliverable row hrow), hledger, ?_, ?_, .inl ⟨rfl, ?_⟩⟩
  · exact henv.symm ▸ h.clock
  · exact fun hn => hsplit (of_decide_eq_true (hisolate.symm.trans hn))
  · exact hisolate.symm ▸ hsends
  · exact hisolate.symm ▸ hattempts

/-- A pending row is deliverable. -/
theorem row (h : Isolating good w₀ d obs) {r : SpoolRecord} (hr : r ∈ d.world.spool.db.pending) :
    Deliverable d.world.config r.payload :=
  h.config.symm ▸ h.deliverable r.identity (List.mem_map_of_mem hr)

/-- The end of an attempt, or of its answer, that buries the oldest row: `seen` is what has been
observed before the move. -/
theorem finished_buried (h : Isolating good w₀ d obs) {u : World} (hspool : u.spool = d.world.spool)
    (hacts : Acts d.world v) {r : SpoolRecord} {rest : List SpoolRecord}
    (hp : d.world.spool.db.pending = r :: rest) (hburied : Buried u v r)
    (hrejects : accepts good w₀.config.table.name r.identity = false) {seen : List Obs}
    (hhistory : u.history = w₀.history ++ seen)
    (hledger : Ledger (accepts good w₀.config.table.name)
      (w₀.spool.db.pending.map SpoolRecord.identity) d.world.spool.db.pendingSeq
      (d.world.spool.db.pending.map SpoolRecord.identity) seen)
    (hsends : sendCount seen ≤ 2 * (removedRows seen).length + 2) {attempts : Nat}
    (hattempts : attempts ≤ 2 * (removedRows seen).length + 2) (backoff : Backoff) :
    ∃ obs', Isolating good w₀
      ⟨(v.withBackoff backoff).afterDelivery .deadLetter, attempts⟩ obs' := by
  obtain ⟨evicted, hmoved⟩ := hburied.history
  have hpending : v.spool.db.pending = rest :=
    hburied.pending (hspool ▸ h.working.coherent) (hspool ▸ hp)
  have hseq : v.spool.db.pendingSeq = d.world.spool.db.pendingSeq := by
    obtain ⟨text, flag, hdb⟩ := hburied.db
    rw [hdb, movedTo_pendingSeq, hspool]
  have hremoved : (removedRows (seen ++ [.moved r.identity evicted])).length =
      (removedRows seen).length + 1 := by
    rw [removedRows_snoc, List.length_append]
    rfl
  rw [hp, List.map_cons] at hledger
  refine ⟨seen ++ [.moved r.identity evicted],
    h.finished hacts hburied.working (hmoved.trans ?_) ?_ ?_ ?_ ?_ ?_ backoff⟩
  · rw [hhistory, List.append_assoc]
  · rw [hpending, hp, List.map_cons]
    exact fun row hrow => List.mem_cons_of_mem _ hrow
  · rw [hpending, hseq]
    exact hledger.bury hrejects evicted
  · exact nofun
  · rw [sendCount_snoc, hremoved]
    dsimp only
    omega
  · rw [hremoved]
    omega

/-- **An attempt** buries the oldest row, or sends a batch. -/
theorem attempt (h : Isolating good w₀ d obs)
    (hrows : (w₀.config.settings.deliveryBatchRows : Int) ≤ sqliteIntegerMax)
    (hkey : d.world.spool.db.deadLetterSeq < sqliteIntegerMax)
    (hs : drive good d .attempt = some d') : ∃ obs', Isolating good w₀ d' obs' := by
  simp only [drive] at hs
  split at hs
  case isFalse => cases hs
  next hat =>
  cases hs
  obtain ⟨htop, hne⟩ := hat
  obtain ⟨r, rest, hp⟩ := List.exists_cons_of_ne_nil hne
  have hr : r ∈ d.world.spool.db.pending := hp ▸ List.mem_cons_self ..
  have hable : d.world.Able :=
    { healthy := h.working.healthy, coherent := h.working.coherent, opened := h.working.opened,
      clock := h.clock, key := hkey }
  have hattempts : d.attempts ≤ 2 * (removedRows obs).length +
      d.world.locals.isolateNext.toNat := by
    rcases h.place with ⟨-, hle⟩ | ⟨built, hsending, -⟩
    · exact hle
    · cases htop.symm.trans hsending
  have hpeek : Peekable d.world d.world.locals.isolateNext r := by
    refine ⟨?_, (h.row hr).bytes⟩
    unfold maxRows
    split
    · decide
    · exact h.config.symm ▸ hrows
  have hacts := Acts.deliverStart d.world d.world.locals.isolateNext d.world.locals.backoff
  cases henc : encodePayload d.world.config.table.name r.payload with
  | error e =>
    rcases @deliverStart_buries d.world r rest d.world.locals.isolateNext
        d.world.locals.backoff hable
        hp hpeek e henc ((h.row hr).undecodable e henc) with ⟨-, v, hstart, hburied⟩ | ⟨hlt, -⟩
    · have he : d.world.deliverAttempt =
          (v.withBackoff d.world.locals.backoff).afterDelivery .deadLetter := by
        unfold deliverAttempt
        rw [hstart]
      rw [hstart] at hacts
      rw [he]
      have hrejects : accepts good w₀.config.table.name r.identity = false := by
        have hsame : encodePayload w₀.config.table.name r.identity.payload = .error e :=
          h.config ▸ henc
        rw [accepts, hsame, Bool.and_false]
      have hisolate := Bool.toNat_le d.world.locals.isolateNext
      have hsends := h.sends
      exact h.finished_buried rfl hacts hp hburied hrejects h.history h.ledger (by omega) (by omega) _
    · exact absurd (h.row hr).deadLetter (not_le.mpr hlt)
  | ok encoded =>
    obtain ⟨built, taken, others, hstart, hrest, hof, hlen⟩ :=
      @deliverStart_sends d.world r rest d.world.locals.isolateNext d.world.locals.backoff
        h.working.healthy hp hpeek encoded henc ((h.row hr).encoded encoded henc)
        (fun q hq => (h.row (hp ▸ List.mem_cons_of_mem _ hq)).undecodable)
    have he : d.world.deliverAttempt =
        { d.world.withBackoff d.world.locals.backoff with deliver := .sending built } := by
      unfold deliverAttempt
      rw [hstart]
    rw [he]
    refine ⟨obs, ⟨h.working.healthy, h.working.coherent, h.working.opened⟩, h.clock, h.config,
      h.history, h.deliverable, h.ledger, h.split, h.sends,
      .inr ⟨built, rfl, ⟨r :: taken, others, ?_, List.cons_ne_nil _ _, hof, fun hone => ?_⟩, ?_⟩⟩
    · exact hp.trans (by rw [hrest, List.cons_append])
    · have hone' : d.world.locals.isolateNext = true := hone
      rw [maxRows, if_pos hone'] at hlen
      rw [List.length_cons]
      omega
    · exact Nat.add_le_add_right hattempts 1

/-- The observation of an answer is behind all others. -/
theorem sent_history (h : Isolating good w₀ d obs) (built : BuiltBatch) (result : SendResult) :
    (d.world.observe (.sent built result)).history = w₀.history ++ (obs ++ [.sent built result]) := by
  rw [← List.append_assoc, ← h.history]
  rfl

section
variable {built : BuiltBatch} {rest : List SpoolRecord}
  (hattempts : d.attempts ≤
    2 * (removedRows obs).length + d.world.locals.isolateNext.toNat + 1)
include hattempts

/-- A batch of rows that the server takes is delivered. -/
theorem accepted (h : Isolating good w₀ d obs) {rows : List SpoolRecord}
    (hp : d.world.spool.db.pending = rows ++ rest) (hne : rows ≠ [])
    (hof : BuiltOf d.world.config.table.name rows built)
    (hgood : (rows.map SpoolRecord.identity).all good = true) :
    ∃ obs', Isolating good w₀ { d with world := d.world.deliverSent built .ok } obs' := by
  have hacts := Acts.deliverFinish d.world built d.world.locals.backoff .ok
  have hu : (d.world.observe (.sent built .ok)).Working :=
    ⟨h.working.healthy, h.working.coherent, h.working.opened⟩
  obtain ⟨v, hv, hworking, hpending, hseq, hdelivered⟩ := batchDelivered_healthy hu hp hof.sequences
  have hfinish : d.world.deliverFinish built d.world.locals.backoff .ok =
      (.ok .success, Backoff.initial v.config.settings, v) := by
    unfold deliverFinish
    dsimp only
    rw [hv]
  have he : d.world.deliverSent built .ok =
      (v.withBackoff (.initial v.config.settings)).afterDelivery .success := by
    unfold deliverSent
    rw [hfinish]
  have haccepts : ∀ row ∈ rows.map SpoolRecord.identity,
      accepts good w₀.config.table.name row = true := by
    intro row hrow
    obtain ⟨encoded, hencoded⟩ := hof.batch.encodes row hrow
    rw [accepts, List.all_eq_true.mp hgood row hrow, ← h.config, hencoded]
    rfl
  have hremoved : (removedRows (obs ++ [.sent built .ok] ++
      [.delivered (rows.map SpoolRecord.identity) built.uncertainSequences])).length =
      (removedRows obs).length + rows.length := by
    rw [removedRows_snoc, removedRows_snoc, List.append_nil, List.length_append, List.length_map]
  have hpos : 0 < rows.length := List.length_pos_iff.mpr hne
  have hisolate := Bool.toNat_le d.world.locals.isolateNext
  have hsends := h.sends
  have hledger := h.ledger
  rw [hp, List.map_append] at hledger
  rw [hfinish] at hacts
  rw [he]
  refine ⟨obs ++ [.sent built .ok] ++
    [.delivered (rows.map SpoolRecord.identity) built.uncertainSequences],
    h.finished hacts hworking (hdelivered.trans ?_) ?_ ?_ ?_ ?_ ?_ (.initial v.config.settings)⟩
  · rw [h.sent_history, List.append_assoc]
  · rw [hpending, hp, List.map_append]
    exact fun row hrow => List.mem_append_right _ hrow
  · rw [hpending, hseq]
    exact (hledger.sent built _).deliver haccepts _
  · exact nofun
  · rw [sendCount_snoc, sendCount_snoc, hremoved]
    dsimp only
    omega
  · rw [hremoved]
    omega

/-- A row that is rejected alone goes to dead letter. -/
theorem rejected_alone (h : Isolating good w₀ d obs)
    (hkey : d.world.spool.db.deadLetterSeq < sqliteIntegerMax) {r : SpoolRecord}
    (hp : d.world.spool.db.pending = r :: rest)
    (hof : BuiltOf d.world.config.table.name [r] built) (hbad : good r.identity = false)
    (body : Bytes) :
    ∃ obs', Isolating good w₀
      { d with world := d.world.deliverSent built (.error (rejection 400 body)) } obs' := by
  have hacts := Acts.deliverFinish d.world built d.world.locals.backoff
    (.error (rejection 400 body))
  have hu : (d.world.observe (.sent built (.error (rejection 400 body)))).Able :=
    { healthy := h.working.healthy, coherent := h.working.coherent, opened := h.working.opened,
      clock := h.clock, key := hkey }
  have hr : r ∈ d.world.spool.db.pending := hp ▸ List.mem_cons_self ..
  have halone : built.sequences = [r.sequence] := hof.sequences
  rcases moveToDeadLetter_healthy hu hr (IlpError.text_storable (rejection_encodable 400 body))
      (rejection 400 body).deliveryUncertain with ⟨-, v, hmove, hburied⟩ | ⟨hlt, -⟩
  · have hfinish : d.world.deliverFinish built d.world.locals.backoff
        (.error (rejection 400 body)) = (.ok .deadLetter, .initial d.world.config.settings, v) := by
      change batchRejected _ built _ _ = _
      unfold batchRejected
      rw [halone]
      dsimp only
      rw [hmove]
      rfl
    have he : d.world.deliverSent built (.error (rejection 400 body)) =
        (v.withBackoff (.initial d.world.config.settings)).afterDelivery .deadLetter := by
      unfold deliverSent
      rw [hfinish]
    have hrejects : accepts good w₀.config.table.name r.identity = false := by
      rw [accepts, hbad, Bool.false_and]
    have hremoved : removedRows (obs ++ [.sent built (.error (rejection 400 body))]) =
        removedRows obs := by
      rw [removedRows_snoc, List.append_nil]
    have hisolate := Bool.toNat_le d.world.locals.isolateNext
    have hsends := h.sends
    rw [hfinish] at hacts
    rw [he]
    refine h.finished_buried (u := d.world.observe _) (v := v) rfl hacts hp hburied hrejects
      (h.sent_history built _) (h.ledger.sent built _) ?_ ?_ _
    · rw [sendCount_snoc, hremoved]
      dsimp only
      omega
    · rw [hremoved]
      omega
  · exact absurd (h.row hr).deadLetter (not_le.mpr hlt)

/-- Several rows that are rejected together stay, and the next batch is of one row. -/
theorem rejected_together (h : Isolating good w₀ d obs) {r r' : SpoolRecord}
    {taken : List SpoolRecord} (hp : d.world.spool.db.pending = r :: r' :: taken ++ rest)
    (hof : BuiltOf d.world.config.table.name (r :: r' :: taken) built)
    (hfirst : d.world.locals.isolateNext = false) (body : Bytes) :
    ∃ obs', Isolating good w₀
      { d with world := d.world.deliverSent built (.error (rejection 400 body)) } obs' := by
  have hacts := Acts.deliverFinish d.world built d.world.locals.backoff
    (.error (rejection 400 body))
  have hu : (d.world.observe (.sent built (.error (rejection 400 body)))).Working :=
    ⟨h.working.healthy, h.working.coherent, h.working.opened⟩
  obtain ⟨-, -, hnodup⟩ := rowsOf_front h.working.coherent hp
  have hall : ∀ s ∈ built.sequences, s ∈ d.world.spool.db.pending.map (·.sequence) := by
    intro s hs
    rw [hp, List.map_append]
    exact List.mem_append_left _ (hof.sequences ▸ hs)
  obtain ⟨v, hv, hworking, hsame, hseq, hquiet⟩ := recordAttempt_healthy hu
    (hof.sequences ▸ hnodup) hall (IlpError.text_storable (rejection_encodable 400 body))
    (rejection 400 body).deliveryUncertain
  have hfinish : d.world.deliverFinish built d.world.locals.backoff
      (.error (rejection 400 body)) =
      (.ok .split, .initial d.world.config.settings,
        v.setDeliveryState .running (some (rejection 400 body).text) none) := by
    change batchRejected _ built _ _ = _
    unfold batchRejected
    rw [hof.sequences]
    dsimp only [List.map_cons]
    rw [hv]
    rfl
  have he : d.world.deliverSent built (.error (rejection 400 body)) =
      ((v.setDeliveryState .running (some (rejection 400 body).text) none).withBackoff
        (.initial d.world.config.settings)).afterDelivery .split := by
    unfold deliverSent
    rw [hfinish]
  have hstays : v.spool.db.pending.map SpoolRecord.identity =
      d.world.spool.db.pending.map SpoolRecord.identity := hsame
  have hremoved : removedRows (obs ++ [.sent built (.error (rejection 400 body))]) =
      removedRows obs := by
    rw [removedRows_snoc, List.append_nil]
  have hsends := h.sends
  rw [hfirst, Bool.toNat_false] at hattempts hsends
  rw [hfinish] at hacts
  rw [he]
  refine ⟨obs ++ [.sent built (.error (rejection 400 body))],
    h.finished hacts ⟨hworking.healthy, hworking.coherent, hworking.opened⟩
      (hquiet.trans (h.sent_history built _)) ?_ ?_ ?_ ?_ ?_ (.initial d.world.config.settings)⟩
  · exact fun row hrow => hstays ▸ hrow
  · show Ledger _ _ v.spool.db.pendingSeq (v.spool.db.pending.map SpoolRecord.identity) _
    rw [hstays, show v.spool.db.pendingSeq = d.world.spool.db.pendingSeq from hseq]
    exact h.ledger.sent built _
  · intro _ hempty
    have hnil : v.spool.db.pending = [] := hempty
    rw [hnil, hp] at hstays
    cases hstays
  · rw [sendCount_snoc, hremoved]
    exact Nat.add_le_add_right hsends 1
  · rw [hremoved]
    exact hattempts

end

/-- **An answer** removes the rows of the batch, or has the next batch be of one row. -/
theorem answered (h : Isolating good w₀ d obs) {body : Bytes}
    (hkey : d.world.spool.db.deadLetterSeq < sqliteIntegerMax)
    (hs : drive good d (.answer body) = some d') : ∃ obs', Isolating good w₀ d' obs' := by
  simp only [drive] at hs
  split at hs
  case h_2 => cases hs
  next built hat =>
  cases hs
  obtain ⟨⟨rows, rest, hp, hne, hof, hone⟩, hattempts⟩ : InFlight d.world built ∧
      d.attempts ≤ 2 * (removedRows obs).length + d.world.locals.isolateNext.toNat + 1 := by
    rcases h.place with ⟨htop, -⟩ | ⟨b, hb, hflight, hle⟩
    · cases hat.symm.trans htop
    · cases hat.symm.trans hb
      exact ⟨hflight, hle⟩
  obtain ⟨hrowsOf, -, -⟩ := rowsOf_front h.working.coherent hp
  rw [answer, hof.sequences, hrowsOf]
  by_cases hgood : (rows.map SpoolRecord.identity).all good = true
  · rw [if_pos hgood]
    exact accepted hattempts h hp hne hof hgood
  · rw [if_neg hgood]
    rcases rows with _ | ⟨r, _ | ⟨r', taken⟩⟩
    · exact absurd rfl hne
    · exact rejected_alone hattempts h hkey hp hof (by simpa using hgood) body
    · have hfirst : d.world.locals.isolateNext = false := by
        cases hn : d.world.locals.isolateNext
        · rfl
        · have hlen := hone hn
          rw [List.length_cons, List.length_cons] at hlen
          omega
      exact rejected_together hattempts h hp hof hfirst body

/-- **Events that are persisted** are the last rows. -/
theorem persisted (h : Isolating good w₀ d obs) {events : List NewSpoolEvent}
    (hevents : ∀ e ∈ events, Deliverable d.world.config e.payload)
    (hs : drive good d (.persist events) = some d') : ∃ obs', Isolating good w₀ d' obs' := by
  simp only [drive] at hs
  split at hs
  case h_2 => cases hs
  next v hv =>
  cases hs
  have hworking : World.Working { d.world with held := events } :=
    ⟨h.working.healthy, h.working.coherent, h.working.opened⟩
  obtain ⟨new, hmem, hvworking, hpending, hseq, hhistory, hconfig, henv, hlocals, hdeliver⟩ :=
    enqueueHeld_appends hworking hv
  dsimp only at hmem hpending hseq hhistory hconfig henv hlocals hdeliver
  obtain ⟨hsorted, hbounds⟩ := newRows_sequences d.world.spool.db.pendingSeq new
  have hevent := newRows_event d.world.spool.db.pendingSeq new
  generalize newRows d.world.spool.db.pendingSeq new = rows
    at hpending hhistory hsorted hbounds hevent
  have hpayload : ∀ r ∈ rows, Deliverable w₀.config r.payload := by
    intro r hr
    have he : r.identity.event ∈ new := by
      rw [← hevent]
      exact List.mem_map_of_mem hr
    exact h.config ▸ hevents _ (hmem _ he)
  have hledger : Ledger (accepts good w₀.config.table.name)
      (w₀.spool.db.pending.map SpoolRecord.identity) v.spool.db.pendingSeq
      (v.spool.db.pending.map SpoolRecord.identity)
      (obs ++ [.enqueued events (rows.map SpoolRecord.identity)]) := by
    rw [hpending, hseq, List.map_append]
    refine h.ledger.enqueue ?_ ?_ (by omega)
    · rw [List.map_map]
      exact hsorted
    · intro row hrow
      obtain ⟨r, hr, rfl⟩ := List.mem_map.mp hrow
      exact hbounds r hr
  have hremoved : removedRows (obs ++ [.enqueued events (rows.map SpoolRecord.identity)]) =
      removedRows obs := by
    rw [removedRows_snoc, List.append_nil]
  refine ⟨_, ⟨hvworking, henv ▸ h.clock, hconfig.trans h.config, ?_, ?_, hledger, ?_, ?_, ?_⟩⟩
  · rw [hhistory, h.history, List.append_assoc]
  · intro row hrow
    rw [hpending, List.map_append] at hrow
    rcases List.mem_append.mp hrow with hrow | hrow
    · exact h.deliverable row hrow
    · obtain ⟨r, hr, rfl⟩ := List.mem_map.mp hrow
      exact hpayload r hr
  · intro hn hempty
    rw [hpending] at hempty
    exact h.split (hlocals ▸ hn) (List.append_eq_nil_iff.mp hempty).1
  · rw [sendCount_snoc, hremoved]
    exact hlocals.symm ▸ h.sends
  · rw [hremoved]
    rcases h.place with ⟨htop, hle⟩ | ⟨built, hat, ⟨taken, rest, hp, hne, hof, hone⟩, hle⟩
    · exact .inl ⟨hdeliver.trans htop, hlocals.symm ▸ hle⟩
    · refine .inr ⟨built, hdeliver.trans hat, ⟨taken, rest ++ rows, ?_, hne, ?_, fun hn => ?_⟩, ?_⟩
      · rw [hpending, hp, List.append_assoc]
      · exact hconfig.symm ▸ hof
      · exact hone (hlocals ▸ hn)
      · exact hlocals.symm ▸ hle

/-- Every step keeps the invariant. -/
theorem step (hrows : (w₀.config.settings.deliveryBatchRows : Int) ≤ sqliteIntegerMax)
    (h : Isolating good w₀ d obs) (a : DriveAction) (hg : Drivable d a)
    (hs : drive good d a = some d') : ∃ obs', Isolating good w₀ d' obs' := by
  cases a with
  | attempt => exact h.attempt hrows hg.1 hs
  | answer body => exact h.answered hg.1 hs
  | persist events => exact h.persisted hg.2 hs
  | environment env =>
    cases hs
    exact ⟨obs, ⟨h.working.healthy, h.working.coherent, h.working.opened⟩, hg.2,
      h.config, h.history, h.deliverable, h.ledger, h.split, h.sends, h.place⟩

/-- The invariant holds where the deliveries start. -/
theorem init (hw : w₀.Working)
    (hclock : sqliteIntegerMin ≤ w₀.env.wallTimeNs ∧ w₀.env.wallTimeNs ≤ sqliteIntegerMax)
    (htop : w₀.deliver = .top) (hisolate : w₀.locals.isolateNext = false)
    (hrows : ∀ r ∈ w₀.spool.db.pending, Deliverable w₀.config r.payload) :
    Isolating good w₀ ⟨w₀, 0⟩ [] := by
  refine ⟨hw, hclock, rfl, (List.append_nil _).symm, fun row hrow => ?_, ⟨?_, rfl, rfl, ?_, ?_⟩,
    fun hn => ?_, Nat.zero_le _, .inl ⟨htop, Nat.zero_le _⟩⟩
  · obtain ⟨r, hr, rfl⟩ := List.mem_map.mp hrow
    exact hrows r hr
  · exact List.append_nil _
  · show List.Pairwise _ ((_ ++ []).map _)
    rw [List.append_nil, List.map_map]
    exact hw.coherent.pendingSorted
  · intro row hrow
    obtain ⟨r, hr, rfl⟩ := List.mem_map.mp ((List.append_nil _).symm ▸ hrow)
    exact (hw.coherent.pendingKeys r hr).2
  · rw [hisolate] at hn
    cases hn

/-- A run keeps it. -/
theorem of_steps (hrows : (w₀.config.settings.deliveryBatchRows : Int) ≤ sqliteIntegerMax)
    (h₀ : Isolating good w₀ ⟨w₀, 0⟩ []) (hrun : Steps (drive good) Drivable ⟨w₀, 0⟩ d) :
    ∃ obs, Isolating good w₀ d obs :=
  hrun.invariant (I := fun d => ∃ obs, Isolating good w₀ d obs) ⟨[], h₀⟩
    fun _ a _ ⟨_, h⟩ hg hs => h.step hrows a hg hs

end Isolating

/-- **Rejected rows are isolated**, for a batch limit that SQLite can bind: whatever rows are
pending and appended, the deliveries never raise; the rows leave in the order of their sequences,
those that the server takes by a delivery and the others for dead letter; `send_batch` has been
called at most twice for each removed row where nothing is pending, and at most once more elsewhere;
and after two attempts for each row nothing is pending. -/
theorem isolation_exact (good : RowIdentity → Bool) (w₀ : World) (d : Drive) (hw : w₀.Working)
    (hclock : sqliteIntegerMin ≤ w₀.env.wallTimeNs ∧ w₀.env.wallTimeNs ≤ sqliteIntegerMax)
    (htop : w₀.deliver = .top) (hisolate : w₀.locals.isolateNext = false)
    (hpending : ∀ r ∈ w₀.spool.db.pending, Deliverable w₀.config r.payload)
    (hrows : (w₀.config.settings.deliveryBatchRows : Int) ≤ sqliteIntegerMax)
    (hrun : Steps (drive good) Drivable ⟨w₀, 0⟩ d) :
    ∃ obs, d.world.history = w₀.history ++ obs ∧
      (d.world.deliver = .top ∨ ∃ built, d.world.deliver = .sending built) ∧
      let rows := w₀.spool.db.pending.map SpoolRecord.identity ++ committedRows obs
      let removed := removedRows obs
      rows = removed ++ d.world.spool.db.pending.map SpoolRecord.identity ∧
        (rows.map (·.sequence)).Pairwise (· < ·) ∧
        deliveredRows obs = removed.filter (accepts good w₀.config.table.name) ∧
        (movedRows obs = removed.filter fun row => !accepts good w₀.config.table.name row) ∧
        sendCount obs ≤ 2 * removed.length + 1 ∧
        (d.world.spool.db.pending = [] → sendCount obs ≤ 2 * removed.length) ∧
        (d.world.deliver = .top → 2 * rows.length ≤ d.attempts →
            d.world.spool.db.pending = []) := by
  obtain ⟨obs, h⟩ := Isolating.of_steps hrows (.init hw hclock htop hisolate hpending) hrun
  have hone := Bool.toNat_le d.world.locals.isolateNext
  have hsends := h.sends
  refine ⟨obs, h.history, ?_, h.ledger.fifo, h.ledger.increasing, h.ledger.delivered,
    h.ledger.moved,
    by omega, fun hempty => ?_, fun hat hle => ?_⟩
  · rcases h.place with ⟨hat, -⟩ | ⟨built, hat, -⟩
    · exact .inl hat
    · exact .inr ⟨built, hat⟩
  · cases hn : d.world.locals.isolateNext
    · rwa [hn, Bool.toNat_false, Nat.add_zero] at hsends
    · exact absurd hempty (h.split hn)
  · by_contra hne
    have hattempts : d.attempts ≤ 2 * (removedRows obs).length +
        d.world.locals.isolateNext.toNat := by
      rcases h.place with ⟨-, hle⟩ | ⟨built, hsending, -⟩
      · exact hle
      · cases hat.symm.trans hsending
    have hpos := List.length_pos_iff.mpr hne
    rw [h.ledger.fifo, List.length_append, List.length_map] at hle
    omega

/-- The service starts, and persists two events. -/
def storedTwo : List Action :=
  [.startCall, .threadOpen none, .threadStartup, .threadAnnounce, .mainPublish, .mainTest,
    .submit lightEvent, .submit darkEvent, .persistRun, .persistDrain, .persistDrain, .persistDrain,
    .persistRound]

/-- A server that takes the first event only. -/
def takesLight (row : RowIdentity) : Bool := decide (row.eventId = py "1")

/-- What `Deliverable` asks of a payload. -/
def isDeliverable (config : Config) (payload : Bytes) : Bool :=
  decide (payload.length ≤ config.limits.maxDeadLetterBytes ∧
    payload.length ≤ maxSqliteBatchBytes) &&
  match encodePayload config.table.name payload with
  | .ok encoded => decide (encoded.length ≤ config.settings.deliveryBatchBytes)
  | .error e => isUndecodable e

theorem deliverable_of {config : Config} {payload : Bytes}
    (h : isDeliverable config payload = true) : Deliverable config payload := by
  obtain ⟨hlimits, h⟩ := Bool.and_eq_true_iff.mp h
  obtain ⟨hdead, hbytes⟩ := of_decide_eq_true hlimits
  refine ⟨fun encoded he => ?_, fun e he => ?_, hdead, hbytes⟩
  · rw [he] at h
    exact of_decide_eq_true h
  · rw [he] at h
    exact h

/-- What `isolation_exact` asks of the first state. -/
def isUndelivered (w : World) : Bool :=
  decide (w.spool.faults = [] ∧
    (sqliteIntegerMin ≤ w.env.wallTimeNs ∧ w.env.wallTimeNs ≤ sqliteIntegerMax) ∧
    w.deliver = .top ∧ w.locals.isolateNext = false ∧ w.thread = .looping) &&
  w.spool.db.pending.all fun r => isDeliverable w.config r.payload

theorem of_undelivered {config : Config} {env : Env} {w : World}
    (hrun : Steps QuestDbWriter.step (fun _ _ => True) (.boot config env Database.fresh []) w)
    (h : isUndelivered w = true) :
    w.Working ∧ (sqliteIntegerMin ≤ w.env.wallTimeNs ∧ w.env.wallTimeNs ≤ sqliteIntegerMax) ∧
      w.deliver = .top ∧ w.locals.isolateNext = false ∧
      ∀ r ∈ w.spool.db.pending, Deliverable w.config r.payload := by
  obtain ⟨h, hrows⟩ := Bool.and_eq_true_iff.mp h
  obtain ⟨hhealthy, hclock, htop, hisolate, hlooping⟩ := of_decide_eq_true h
  have hb := Bookkept.of_steps hrun
  exact ⟨⟨hhealthy, hb.books.coherent, hb.opened (hlooping ▸ trivial)⟩, hclock, htop, hisolate,
    fun r hr => deliverable_of (List.all_eq_true.mp hrows r hr)⟩

/-- Both rows are sent, the first one is delivered, and the second one moved. -/
def bothSent : List DriveAction :=
  [.attempt, .answer [], .attempt, .answer [], .attempt, .answer []]

/-- The check of `Drivable` before an attempt or an answer. -/
def isDrivable (d : Drive) : DriveAction → Bool
  | .attempt | .answer _ => decide (d.world.spool.db.deadLetterSeq < sqliteIntegerMax)
  | _ => false

/-- In the development profile a server that takes the first of two events only gets it, and the
second one is moved. -/
theorem bothSent_isolated : ∃ w d, exec QuestDbWriter.step storedTwo
      (.boot .provisional .quiet .fresh []) = some w ∧
    w.spool.db.pending.length = 2 ∧ exec (drive takesLight) bothSent ⟨w, 0⟩ = some d ∧
    d.world.spool.db.pending = [] ∧
    ∃ obs, d.world.history = w.history ++ obs ∧
      (d.world.deliver = .top ∨ ∃ built, d.world.deliver = .sending built) ∧
      let rows := w.spool.db.pending.map SpoolRecord.identity ++ committedRows obs
      let removed := removedRows obs
      rows = removed ++ d.world.spool.db.pending.map SpoolRecord.identity ∧
        (rows.map (·.sequence)).Pairwise (· < ·) ∧
        deliveredRows obs = removed.filter (accepts takesLight w.config.table.name) ∧
        (movedRows obs = removed.filter fun row => !accepts takesLight w.config.table.name row) ∧
        sendCount obs ≤ 2 * removed.length + 1 ∧
        (d.world.spool.db.pending = [] → sendCount obs ≤ 2 * removed.length) ∧
        (d.world.deliver = .top → 2 * rows.length ≤ d.attempts →
            d.world.spool.db.pending = []) := by
  have hrun : ((exec QuestDbWriter.step storedTwo (.boot .provisional .quiet .fresh [])).any
      fun w =>
      isUndelivered w && decide (w.spool.db.pending.length = 2 ∧
        (w.config.settings.deliveryBatchRows : Int) ≤ sqliteIntegerMax) &&
      (execIn (drive takesLight) isDrivable bothSent ⟨w, 0⟩).any fun d =>
        decide (d.world.spool.db.pending = [])) = true := by
    decide +kernel
  obtain ⟨w, hw, hend⟩ := (Option.any_eq_true _ _).mp hrun
  obtain ⟨hstart, hdrive⟩ := Bool.and_eq_true_iff.mp hend
  obtain ⟨hundelivered, htwo⟩ := Bool.and_eq_true_iff.mp hstart
  obtain ⟨hlength, hrows⟩ := of_decide_eq_true htwo
  obtain ⟨d, hd, hempty⟩ := (Option.any_eq_true _ _).mp hdrive
  obtain ⟨hworking, hclock, htop, hisolate, hpending⟩ := of_undelivered (.of_exec hw) hundelivered
  have hdrivable : ∀ d a, isDrivable d a = true → Drivable d a := by
    intro d a h
    cases a with
    | attempt => exact ⟨of_decide_eq_true h, trivial⟩
    | answer body => exact ⟨of_decide_eq_true h, trivial⟩
    | persist events => cases h
    | environment env => cases h
  exact ⟨w, d, hw, hlength, exec_of_execIn hd, of_decide_eq_true hempty,
    isolation_exact takesLight w d hworking hclock htop hisolate hpending hrows
      (.of_execIn hdrivable hd)⟩

/-- The development profile with a limit of rows that SQLite cannot bind. -/
def hugeBatches : Config where
  settings := { WorkerSettings.provisional with
    deliveryBatchRows := 2 ^ 63, deliveryBatchRows_pos := by decide }
  limits := .provisional
  table := Config.provisional.table
  hasSchema := false

/-- Whether the delivery has raised. -/
def isRaised (d : Drive) : Bool :=
  match d.world.deliver with
  | .raised _ => true
  | _ => false

/-- **Rows are not isolated for every `delivery_batch_rows`**: SQLite cannot bind one of `2 ^ 63`,
and the delivery raises. -/
theorem isolation_unbound : ¬ ∀ (good : RowIdentity → Bool) (w₀ : World) (d : Drive), w₀.Working →
    sqliteIntegerMin ≤ w₀.env.wallTimeNs ∧ w₀.env.wallTimeNs ≤ sqliteIntegerMax →
    w₀.deliver = .top → w₀.locals.isolateNext = false →
    (∀ r ∈ w₀.spool.db.pending, Deliverable w₀.config r.payload) →
    Steps (drive good) Drivable ⟨w₀, 0⟩ d →
      d.world.deliver = .top ∨ ∃ built, d.world.deliver = .sending built := by
  intro h
  have hrun : ((exec QuestDbWriter.step storedTwo (.boot hugeBatches .quiet .fresh [])).any fun w =>
      isUndelivered w && decide (w.spool.db.deadLetterSeq < sqliteIntegerMax) &&
      (drive takesLight ⟨w, 0⟩ .attempt).any isRaised) = true := by
    decide +kernel
  obtain ⟨w, hw, hend⟩ := (Option.any_eq_true _ _).mp hrun
  obtain ⟨hstart, hdrive⟩ := Bool.and_eq_true_iff.mp hend
  obtain ⟨hundelivered, hkey⟩ := Bool.and_eq_true_iff.mp hstart
  obtain ⟨d, hd, hraises⟩ := (Option.any_eq_true _ _).mp hdrive
  obtain ⟨hworking, hclock, htop, hisolate, hpending⟩ := of_undelivered (.of_exec hw) hundelivered
  have hat := h takesLight w d hworking hclock htop hisolate hpending
    (.tail .attempt .refl ⟨of_decide_eq_true hkey, trivial⟩ hd)
  unfold isRaised at hraises
  rcases hat with hat | ⟨built, hat⟩
  · rw [hat] at hraises
    cases hraises
  · rw [hat] at hraises
    cases hraises

end World

end QuestDbWriter
