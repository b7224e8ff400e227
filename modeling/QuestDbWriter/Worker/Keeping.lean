import QuestDbWriter.Worker.Books

/-!
# The methods keep the books

Each method of the worker leaves the books kept: a committed call of the spool is observed and
counted, and everything else is quiet. A batch is taken from the front of the queue
(`buildBatch_batched`), and stays there until its rows are removed.
-/

namespace QuestDbWriter

open Lib Database SQLiteSpool
open Session (run)

/-! ## One committed call -/

/-- Where the oldest pending row is moved, it is the newest dead letter, behind those that are kept
of the others. -/
theorem moveOldest_ok {limits : SpoolLimits} {c c' : Conn Database StorageFault} {r : SpoolRecord}
    {rest : List SpoolRecord} {text : PyStr} {failedNs : Int} {flag : Bool} {m k : Nat}
    (hc : c.db.Coherent) (ho : c.db.Opened) (hp : c.db.pending = r :: rest)
    (h : run (moveToDeadLetter limits [r.sequence] text failedNs flag) c = (.ok (m, k), c')) :
    ∃ evicted kept id, c.db.deadLetter = evicted ++ kept ∧ c'.db.pending = rest ∧
      c'.db.deadLetter =
        kept ++ [{ deadLetterOf r text failedNs flag with deadLetterId := id }] ∧
      c'.db.pendingSeq = c.db.pendingSeq ∧ c'.db.Coherent ∧ c'.db.Opened ∧ m = 1 ∧
      k = evicted.length := by
  obtain ⟨rs, hmap, hall, hdb, hc', rfl, hk, -⟩ := moveToDeadLetter_ok hc ho h
  obtain ⟨p, rfl, hps⟩ := List.map_eq_singleton_iff.mp hmap
  have hmem : r ∈ c.db.pending := hp ▸ List.mem_cons_self ..
  obtain rfl : p = r := eq_of_key hc.pendingNodup (hall p (List.mem_cons_self ..)) hmem hps
  change c'.db = movedTo limits c.db (deadLetterOf p text failedNs flag) at hdb
  obtain ⟨evicted, hev⟩ := keepNewest_suffix limits p.payload.length c.db.deadLetter
  have hlen := congrArg List.length hev
  rw [List.length_append] at hlen
  refine ⟨evicted, _, c.db.deadLetterSeq + 1, hev.symm, ?_, ?_, ?_, hc', ?_, rfl, ?_⟩
  · rw [hdb, movedTo_pending, hp, List.filter_cons_of_neg (by simp [deadLetterOf])]
    have hnodup := hc.pendingNodup
    rw [hp, List.map_cons, List.nodup_cons] at hnodup
    rw [List.filter_eq_self]
    intro q hq
    exact decide_eq_true fun he : q.sequence = p.sequence =>
      hnodup.1 (he ▸ List.mem_map_of_mem hq)
  · rw [hdb]
    rfl
  · rw [hdb]
    rfl
  · refine hc'.counted.opened ?_
    rw [hdb, movedTo_isSome]
    exact ho.isSome
  · rw [hdb, movedTo_deadLetter] at hk
    simp only [List.length_append, List.length_singleton, deadLetterOf] at hk
    omega

/-- What a move is observed as. -/
theorem movedRow_eq {db db' : Database} {r : SpoolRecord} {rest : List SpoolRecord}
    {evicted kept : List DeadLetterRecord} {d : DeadLetterRecord} (hc : db.Coherent)
    (hp : db.pending = r :: rest) (hd : db.deadLetter = evicted ++ kept)
    (hd' : db'.deadLetter = kept ++ [d]) (hs : d.originalSequence = r.sequence) :
    World.movedRow db db' r.sequence =
      .moved r.identity (evicted.map DeadLetterRecord.identity) := by
  have hseqs := List.nodup_append.mp hc.sequences
  have hdead := hseqs.2.1
  rw [hd, List.map_append] at hdead
  have hout : ∀ e ∈ evicted, e.originalSequence ∉ (kept ++ [d]).map (·.originalSequence) := by
    intro e he hmem
    rw [List.map_append, List.mem_append] at hmem
    rcases hmem with hmem | hmem
    · exact (List.nodup_append.mp hdead).2.2 _ (List.mem_map_of_mem he) _ hmem rfl
    · have hed : e.originalSequence = r.sequence := (List.mem_singleton.mp hmem).trans hs
      refine hseqs.2.2 r.sequence ?_ e.originalSequence ?_ hed.symm
      · exact List.mem_map_of_mem (hp ▸ List.mem_cons_self ..)
      · exact List.mem_map_of_mem (hd ▸ List.mem_append_left _ he)
  have hfilter : (db.deadLetter.filter fun e =>
      e.originalSequence ∉ db'.deadLetter.map (·.originalSequence)) = evicted := by
    rw [hd, hd', List.filter_append]
    have hleft : (evicted.filter fun e =>
        e.originalSequence ∉ (kept ++ [d]).map (·.originalSequence)) = evicted :=
      List.filter_eq_self.mpr fun e he => by simpa using hout e he
    have hright : (kept.filter fun e =>
        e.originalSequence ∉ (kept ++ [d]).map (·.originalSequence)) = [] := by
      rw [List.filter_eq_nil_iff]
      intro e he
      simp only [decide_eq_true_eq, not_not]
      exact List.mem_map_of_mem (List.mem_append_left _ he)
    rw [hleft, hright, List.append_nil]
  rw [World.movedRow, hfilter, hp, List.find?_cons_of_pos (by simp)]
  rfl

namespace World

section
variable {attempt : Prop} {w w' u : World}

/-- The pending rows are those of the batch and then the others. -/
theorem Batched.split (h : Books w) {built : BuiltBatch} (hb : Batched w built) :
    w.spool.db.pending.filter (·.sequence ∈ built.sequences) ++
      w.spool.db.pending.filter (·.sequence ∉ built.sequences) = w.spool.db.pending := by
  have hsplit := filter_append_of_before
      (p := fun r : SpoolRecord => decide (r.sequence ∈ built.sequences))
    h.coherent.pendingSorted fun r _ hr q hq hq' =>
      hb.first q hq (by simpa using hq') _ (by simpa using hr)
  simpa only [decide_not] using hsplit

/-- The rows of a batch that are all pending are the rows it was built of. -/
theorem Batched.rowsOf (h : Books w) {built : BuiltBatch} (hb : Batched w built)
    (hall : ∀ s ∈ built.sequences, s ∈ w.spool.db.pending.map (·.sequence)) :
    (rowsOf w.spool.db built.sequences).map (·.sequence) = built.sequences ∧
      IsBatch w.config.table.name (World.rowsOf w.spool.db built.sequences) built.payload := by
  have hkeys : (World.rowsOf w.spool.db built.sequences).map (·.sequence) =
      (w.spool.db.pending.filter (·.sequence ∈ built.sequences)).map (·.sequence) := by
    rw [World.rowsOf, List.map_map]
    rfl
  have hsorted : ((World.rowsOf w.spool.db built.sequences).map (·.sequence)).Pairwise (· < ·) := by
    rw [hkeys]
    exact h.coherent.pendingSorted.sublist (List.filter_sublist.map _)
  have hmem : ∀ s, s ∈ (World.rowsOf w.spool.db built.sequences).map (·.sequence) ↔
      s ∈ built.sequences := by
    intro s
    rw [hkeys, List.mem_map]
    constructor
    · rintro ⟨r, hr, rfl⟩
      simpa using (List.mem_filter.mp hr).2
    · intro hs
      obtain ⟨r, hr, rfl⟩ := List.mem_map.mp (hall s hs)
      exact ⟨r, List.mem_filter.mpr ⟨hr, by simpa using hs⟩, rfl⟩
  have hsame : (World.rowsOf w.spool.db built.sequences).map (·.sequence) = built.sequences := by
    have hperm := (List.perm_ext_iff_of_nodup (hsorted.imp ne_of_lt)
      (hb.increasing.imp ne_of_lt)).mpr hmem
    exact hperm.eq_of_pairwise (fun a b _ _ hab hba => absurd hba (lt_asymm hab)) hsorted
      hb.increasing
  obtain ⟨rows, hmap, hbatch, hrows⟩ := hb.rows
  have hrowsOf : World.rowsOf w.spool.db built.sequences = rows := by
    refine eq_of_subset_of_keys hsorted (fun row hrow => ?_) (hsame.trans hmap.symm)
    obtain ⟨r, hr, rfl⟩ := List.mem_map.mp hrow
    obtain ⟨hr, hs⟩ := List.mem_filter.mp hr
    exact hrows r hr (by simpa using hs)
  exact ⟨hsame, hrowsOf ▸ hbatch⟩

namespace Books

/-- A removed row is older than every pending one. -/
theorem removed_lt (h : Books w) {row : RowIdentity} (hrow : row ∈ removedRows w.history)
    {r : SpoolRecord} (hr : r ∈ w.spool.db.pending) : row.sequence < r.sequence := by
  have hinc := h.increasing
  rw [h.fifo, List.map_append, List.pairwise_append] at hinc
  refine hinc.2.2 _ (List.mem_map_of_mem hrow) _ ?_
  exact List.mem_map_of_mem (f := RowIdentity.sequence) (List.mem_map_of_mem hr)

/-- A dead letter has been committed, and removed. -/
theorem deadLetter_removed (h : Books w) {d : DeadLetterRecord}
    (hd : d ∈ w.spool.db.deadLetter) : d.identity ∈ removedRows w.history := by
  have hmoved : d.identity ∈ movedRows w.history := by
    rw [h.buried]
    exact List.mem_append_right _ (List.mem_map_of_mem hd)
  exact (removedRows_perm _).mem_iff.mpr (List.mem_append_right _ hmoved)

/-- An event that is stored has been committed. -/
theorem stored_committed (h : Books w) {eventId : PyStr} {payload : Bytes} {createdNs : Int}
    (hs : Sql.stored eventId w.spool.db = some (payload, createdNs)) :
    ∃ row ∈ committedRows w.history,
      row.eventId = eventId ∧ row.payload = payload ∧ row.createdNs = createdNs := by
  have hcommitted : ∀ {row : RowIdentity}, row ∈ removedRows w.history ∨
      row ∈ w.spool.db.pending.map SpoolRecord.identity → row ∈ committedRows w.history :=
    fun hrow => h.fifo ▸ List.mem_append.mpr hrow
  rcases (Option.orElse_eq_some _ _ _).mp hs with hs | ⟨-, hs⟩
  · obtain ⟨r, hr, hcontent⟩ := Option.map_eq_some_iff.mp hs
    cases hcontent
    exact ⟨r.identity, hcommitted (.inr (List.mem_map_of_mem (List.mem_of_find?_eq_some hr))),
      of_decide_eq_true (List.find?_some
        (p := fun q : SpoolRecord => decide (q.eventId = eventId)) hr), rfl, rfl⟩
  · obtain ⟨d, hd, hcontent⟩ := Option.map_eq_some_iff.mp hs
    cases hcontent
    exact ⟨d.identity, hcommitted (.inl (h.deadLetter_removed (List.mem_of_find?_eq_some hd))),
      of_decide_eq_true (List.find?_some
        (p := fun q : DeadLetterRecord => decide (q.eventId = eventId)) hd),
      rfl, rfl⟩

/-- The move of the oldest pending row keeps the books. -/
theorem moved (h : Books w) {r : SpoolRecord} {rest : List SpoolRecord}
    {evicted kept : List DeadLetterRecord} {d : DeadLetterRecord}
    (hp : w.spool.db.pending = r :: rest) (hd : w.spool.db.deadLetter = evicted ++ kept)
    (hcond : Condemned w.history r.identity) (hconfig : u.config = w.config)
    (hcoherent : u.spool.db.Coherent) (hp' : u.spool.db.pending = rest)
    (hd' : u.spool.db.deadLetter = kept ++ [d]) (hid : d.identity = r.identity)
    (hseq : u.spool.db.pendingSeq = w.spool.db.pendingSeq)
    (hcounters : u.shared.counters = w.shared.counters.deadLetterMove 1 evicted.length)
    (hhistory : u.history =
      w.history ++ [.moved r.identity (evicted.map DeadLetterRecord.identity)]) : Books u := by
  have hfifo := h.fifo
  have hburied := h.buried
  rw [hp, List.map_cons] at hfifo
  rw [hd, List.map_append] at hburied
  obtain ⟨⟨h1, h2, h3, h4, h5⟩, hpend, hdead⟩ := h.tallied
  refine ⟨hcoherent, ?_, ?_, ?_, ?_, ?_, ?_, ⟨?_, ?_, ?_⟩⟩
  · rw [hhistory, tableOf_snoc, hconfig]
    exact h.table
  · rw [hhistory, committedRows_snoc, removedRows_snoc, hp', List.append_nil, hfifo]
    simp
  · rw [hhistory, movedRows_snoc, evictedRows_snoc, hd', hburied, List.map_append,
      List.map_singleton, hid]
    simp
  · rw [hhistory, committedRows_snoc, List.append_nil]
    exact h.increasing
  · rw [hhistory, committedRows_snoc, List.append_nil, hseq]
    exact h.assigned
  · rw [hhistory]
    refine .snoc _ h.chronicle ⟨⟨rest.map SpoolRecord.identity, hfifo⟩, ?_, hcond⟩
    intro e he
    obtain ⟨x, hx, rfl⟩ := List.mem_map.mp he
    exact h.removed_lt (h.deadLetter_removed (hd ▸ List.mem_append_left _ hx))
      (hp ▸ List.mem_cons_self ..)
  · rw [hhistory, tallyOf_snoc, hcounters]
    simp only [Counters.deadLetterMove, Obs.tally, List.length_map]
    exact ⟨h1, h2, h3, by rw [h4], by rw [h5]⟩
  · rw [hhistory, tallyOf_snoc, hp']
    rw [hp, List.length_cons] at hpend
    simp only [Obs.tally]
    omega
  · rw [hhistory, tallyOf_snoc, hd']
    rw [hd, List.length_append] at hdead
    simp only [Obs.tally, List.length_append, List.length_singleton, List.length_map]
    omega

/-- New rows keep the books, where every event has a row. -/
theorem enqueued (h : Books w) {events new : List NewSpoolEvent} {limits : SpoolLimits}
    (hnew : Enqueued limits w.spool.db events new) (hconfig : u.config = w.config)
    (hdb : u.spool.db = w.spool.db.appendedAll new)
    (hcounters : u.shared.counters =
      { w.shared.counters with
        persistedEvents := w.shared.counters.persistedEvents + events.length })
    (hhistory : u.history = w.history ++ [.enqueued events
      ((newRows w.spool.db.pendingSeq new).map SpoolRecord.identity)]) : Books u := by
  obtain ⟨hsorted, hbounds⟩ := newRows_sequences w.spool.db.pendingSeq new
  have hrows := newRows_events w.spool.db.pendingSeq new
  generalize hns : newRows w.spool.db.pendingSeq new = rows at hsorted hbounds hrows hhistory
  have hlen : rows.length = new.length := by rw [← hns, newRows_length]
  have hseqs : (rows.map SpoolRecord.identity).map (·.sequence) = rows.map (·.sequence) := by
    rw [List.map_map]
    rfl
  obtain ⟨⟨h1, h2, h3, h4, h5⟩, hpend, hdead⟩ := h.tallied
  refine ⟨hdb ▸ hnew.coherent h.coherent, ?_, ?_, ?_, ?_, ?_, ?_, ⟨?_, ?_, ?_⟩⟩
  · rw [hhistory, tableOf_snoc, hconfig]
    exact h.table
  · rw [hhistory, committedRows_snoc, removedRows_snoc, hdb, appendedAll_pending, hns, h.fifo]
    simp
  · rw [hhistory, movedRows_snoc, evictedRows_snoc, hdb, appendedAll_deadLetter, h.buried]
    simp
  · rw [hhistory, committedRows_snoc, List.map_append, List.pairwise_append, hseqs]
    refine ⟨h.increasing, hsorted, fun s hs t ht => ?_⟩
    obtain ⟨row, hrow, rfl⟩ := List.mem_map.mp hs
    obtain ⟨r, hr, rfl⟩ := List.mem_map.mp ht
    exact lt_of_le_of_lt (h.assigned row hrow) (hbounds r hr).1
  · rw [hhistory, committedRows_snoc, hdb, appendedAll_pendingSeq]
    intro row hrow
    rcases List.mem_append.mp hrow with hrow | hrow
    · have := h.assigned row hrow
      omega
    · obtain ⟨r, hr, rfl⟩ := List.mem_map.mp hrow
      exact (hbounds r hr).2
  · rw [hhistory]
    refine .snoc _ h.chronicle ⟨?_, fun e he => ?_⟩
    · rw [List.length_map, hlen]
      exact hnew.length_le
    rcases hnew.stored e he with he | hstored
    · rw [← hrows] at he
      obtain ⟨r, hr, rfl⟩ := List.mem_map.mp he
      exact ⟨r.identity, List.mem_append_right _ (List.mem_map_of_mem hr), rfl, rfl, rfl⟩
    · obtain ⟨row, hrow, hsame⟩ := h.stored_committed hstored
      exact ⟨row, List.mem_append_left _ hrow, hsame⟩
  · rw [hhistory, tallyOf_snoc, hcounters]
    exact ⟨congrArg (· + events.length) h1, h2, h3, h4, h5⟩
  · rw [hhistory, tallyOf_snoc, hdb, appendedAll_pending, hns]
    simp only [Obs.tally, List.length_append, List.length_map]
    omega
  · rw [hhistory, tallyOf_snoc, hdb, appendedAll_deadLetter]
    exact hdead

/-- The removal of a batch that is acknowledged keeps the books. -/
theorem delivered (h : Books w) {built : BuiltBatch} (hb : Batched w built)
    (hall : ∀ s ∈ built.sequences, s ∈ w.spool.db.pending.map (·.sequence))
    (hlast : w.history.getLast? = some (.sent built .ok)) (hconfig : u.config = w.config)
    (hdb : u.spool.db = w.spool.db.removedAll built.sequences) (hcoherent : u.spool.db.Coherent)
    (hcounters : u.shared.counters =
      { w.shared.counters with
        deliveredEvents := w.shared.counters.deliveredEvents + built.sequences.length
        uncertainDeliveredEvents :=
          w.shared.counters.uncertainDeliveredEvents + built.uncertainSequences.length })
    (hhistory : u.history = w.history ++
      [.delivered (rowsOf w.spool.db built.sequences) built.uncertainSequences]) : Books u := by
  have hsplit := hb.split h
  obtain ⟨hkeys, hbatch⟩ := hb.rowsOf h hall
  have hlen := congrArg List.length hkeys
  rw [List.length_map] at hlen
  have hfifo := h.fifo
  rw [← hsplit, List.map_append] at hfifo
  change committedRows w.history = removedRows w.history ++
    (rowsOf w.spool.db built.sequences ++ _) at hfifo
  obtain ⟨⟨h1, h2, h3, h4, h5⟩, hpend, hdead⟩ := h.tallied
  refine ⟨hcoherent, ?_, ?_, ?_, ?_, ?_, ?_, ⟨?_, ?_, ?_⟩⟩
  · rw [hhistory, tableOf_snoc, hconfig]
    exact h.table
  · rw [hhistory, committedRows_snoc, removedRows_snoc, hdb, removedAll_pending, List.append_nil,
      hfifo, List.append_assoc]
  · rw [hhistory, movedRows_snoc, evictedRows_snoc, hdb, removedAll_deadLetter, h.buried]
    simp
  · rw [hhistory, committedRows_snoc, List.append_nil]
    exact h.increasing
  · rw [hhistory, committedRows_snoc, List.append_nil, hdb, removedAll_pendingSeq]
    exact h.assigned
  · rw [hhistory]
    refine .snoc _ h.chronicle ⟨?_, ⟨_, hfifo⟩, built, hlast, hkeys.symm, h.table ▸ hbatch⟩
    intro hnil
    rw [hnil] at hkeys
    exact hb.nonempty hkeys.symm
  · rw [hhistory, tallyOf_snoc, hcounters]
    simp only [Obs.tally, hlen]
    exact ⟨h1, by rw [h2], by rw [h3], h4, h5⟩
  · have hlens := congrArg List.length hsplit
    rw [List.length_append] at hlens
    have hrows : (w.spool.db.pending.filter (·.sequence ∈ built.sequences)).length =
        (rowsOf w.spool.db built.sequences).length := (List.length_map _).symm
    rw [hhistory, tallyOf_snoc, hdb, removedAll_pending]
    simp only [Obs.tally]
    simp only [decide_not] at hlens ⊢
    omega
  · rw [hhistory, tallyOf_snoc, hdb, removedAll_deadLetter]
    exact hdead

/-- An attempt that is recorded keeps the books. -/
theorem attempted (h : Books w) {text : PyStr} {flag : Bool} {seqs : List Int}
    (hconfig : u.config = w.config) (hdb : u.spool.db = w.spool.db.attemptedAll text flag seqs)
    (hcoherent : u.spool.db.Coherent) (hcounters : u.shared.counters = w.shared.counters)
    (hhistory : u.history = w.history) : Books u := by
  obtain ⟨hdead, hseq, -⟩ := attemptedAll_frame w.spool.db text flag seqs
  have hids : (w.spool.db.attemptedAll text flag seqs).pending.map SpoolRecord.identity =
      w.spool.db.pending.map SpoolRecord.identity :=
    attemptedAll_map SpoolRecord.identity text flag (fun _ => rfl) seqs
  have hlen := congrArg List.length hids
  simp only [List.length_map] at hlen
  obtain ⟨hcount, hpend, hdl⟩ := h.tallied
  refine ⟨hcoherent, ?_, ?_, ?_, ?_, ?_, ?_, ⟨?_, ?_, ?_⟩⟩
  · rw [hhistory, hconfig]
    exact h.table
  · rw [hhistory, hdb, hids]
    exact h.fifo
  · rw [hhistory, hdb, hdead]
    exact h.buried
  · rw [hhistory]
    exact h.increasing
  · rw [hhistory, hdb, hseq]
    exact h.assigned
  · rw [hhistory]
    exact h.chronicle
  · rw [hhistory, hcounters]
    exact hcount
  · rw [hhistory, hdb, hlen]
    exact hpend
  · rw [hhistory, hdb, hdead]
    exact hdl

end Books

/-! ## The methods -/

/-- A quiet step behind one that keeps the books. -/
theorem Keeps.quiet (h : Keeps attempt w u) (hq : Quiet attempt u w') : Keeps attempt w w' :=
  h.trans (hq.keeps h.books)

/-- The end of a storage pause counts nothing. -/
theorem resume_counters (s : Shared) (now : Int) :
    (s.resumeAfterStorageBlock now).counters = s.counters := by
  unfold Shared.resumeAfterStorageBlock
  dsimp only
  split <;> rfl

/-- A storage pause touches neither rows nor history. -/
theorem Quiet.blockOnStorage (w : World) (reason : BlockReason) (error : PyStr) :
    Quiet attempt w (w.blockOnStorage reason error) :=
  .withShared w _ rfl

/-- Its end touches neither. -/
theorem Quiet.resume (w : World) : Quiet attempt w w.resumeAfterStorageBlock :=
  .withShared w _ (resume_counters _ _)

/-- The move of a row that is the oldest pending one, and is condemned. -/
theorem moveToDeadLetter_keeps (h : Books w) (ho : w.spool.db.Opened) {s : Int} {error : PyStr}
    {flag : Bool} {res : Except Exc Unit}
    (hfirst : ∀ r ∈ w.spool.db.pending, r.sequence = s →
      (∃ rest, w.spool.db.pending = r :: rest) ∧ Condemned w.history r.identity)
    (hm : w.moveToDeadLetter s error flag = (res, w')) : Keeps attempt w w' := by
  unfold World.moveToDeadLetter at hm
  split at hm
  · next m k v hv =>
    obtain ⟨c, hrun, rfl⟩ := of_call hv
    cases hm
    obtain ⟨rs, hmap, hall, -⟩ := moveToDeadLetter_ok h.coherent ho hrun
    obtain ⟨r, rfl, rfl⟩ := List.map_eq_singleton_iff.mp hmap
    obtain ⟨⟨rest, hp⟩, hcond⟩ := hfirst r (hall r (List.mem_cons_self ..)) rfl
    obtain ⟨evicted, kept, number, hd, hp', hd', hseq, hc', ho', rfl, rfl⟩ :=
      moveOldest_ok h.coherent ho hp hrun
    have hobs := movedRow_eq h.coherent hp hd hd' rfl
    rw [hobs]
    refine ⟨h.moved hp hd hcond rfl hc' hp' hd' rfl hseq rfl rfl, rfl, ⟨_, rfl, ?_⟩, fun _ => ho',
      le_of_eq hseq.symm, fun q hq => .inl ⟨q, ?_, rfl, id, .inl rfl⟩, fun d hdead => ?_⟩
    · simp [Obs.IsOf]
    · rw [hp]
      exact List.mem_cons_of_mem _ (hp' ▸ hq)
    · change d ∈ c.db.deadLetter at hdead
      rw [hd', List.mem_append, List.mem_singleton] at hdead
      rcases hdead with hdead | rfl
      · exact .inl (hd ▸ List.mem_append_right _ hdead)
      · refine .inr (.inl ⟨r, hp ▸ List.mem_cons_self .., rfl, fun hflag => ?_⟩)
        simp [deadLetterOf, hflag]
  · next e v hv =>
    cases hm
    exact (Quiet.failed (atomic_moveToDeadLetter _ _ _ _ _) hv).keeps h

/-- An attempt that is recorded, or fails to be. -/
theorem recordAttempt_keeps (h : Books w) {built : BuiltBatch} {error : PyStr} {flag : Bool}
    {res : Except Exc Unit} (hm : w.recordAttempt built error flag = (res, w')) :
    Keeps True w w' := by
  unfold World.recordAttempt at hm
  split at hm
  · next n v hv =>
    obtain ⟨c, hrun, rfl⟩ := of_call hv
    cases hm
    obtain ⟨hdb, hc', hnodup, -⟩ := recordAttempt_ok h.coherent hrun
    obtain ⟨hdead, hseq, hstats, -⟩ :=
      attemptedAll_frame w.spool.db error flag built.sequences
    refine ⟨h.attempted rfl hdb hc' rfl rfl, rfl, ⟨[], (List.append_nil _).symm, nofun⟩,
      fun ho => ?_, ?_, fun q hq => ?_, fun d hd => .inl ?_⟩
    · refine hc'.counted.opened ?_
      rw [hdb, hstats]
      exact ho.isSome
    · rw [hdb, hseq]
    · rw [hdb, attemptedAll_pending _ _ hnodup] at hq
      obtain ⟨r, hr, rfl⟩ := List.mem_map.mp hq
      refine .inl ⟨r, hr, ?_⟩
      split
      · exact ⟨rfl, fun hflag => by simp [Sql.attempted, hflag], .inr trivial⟩
      · exact ⟨rfl, id, .inl rfl⟩
    · rwa [hdb, hdead] at hd
  · next e v hv =>
    cases hm
    exact (Quiet.failed (atomic_recordAttempt _ _ _) hv).keeps h

/-- The removal of a batch for which `send_batch` has just returned, or its failure. -/
theorem batchDelivered_keeps (h : Books w) {built : BuiltBatch} (hb : Batched w built)
    (hlast : w.history.getLast? = some (.sent built .ok)) {res : Except Exc Unit}
    (hm : w.batchDelivered built = (res, w')) : Keeps True w w' := by
  unfold World.batchDelivered at hm
  split at hm
  · next e v hv =>
    cases hm
    exact (Quiet.failed (atomic_markDelivered _) hv).keeps h
  · next n v hv =>
    obtain ⟨c, hrun, rfl⟩ := of_call hv
    cases hm
    obtain ⟨hdb, hc', -, -, hall⟩ := markDelivered_ok h.coherent hrun
    refine ⟨h.delivered hb hall hlast rfl hdb hc' ?_ rfl, rfl, ⟨_, rfl, ?_⟩, fun ho => ?_, ?_,
      fun q hq => ?_, fun d hd => .inl ?_⟩
    · exact congrArg (fun c : Counters => { c with
        deliveredEvents := c.deliveredEvents + built.sequences.length
        uncertainDeliveredEvents := c.uncertainDeliveredEvents + built.uncertainSequences.length })
        (resume_counters w.shared w.env.wallTimeNs)
    · simp [Obs.IsOf]
    · refine hc'.counted.opened ?_
      rw [hdb, removedAll_isSome]
      exact ho.isSome
    · change w.spool.db.pendingSeq ≤ c.db.pendingSeq
      rw [hdb, removedAll_pendingSeq]
    · change q ∈ c.db.pending at hq
      rw [hdb, removedAll_pending] at hq
      exact .inl ⟨q, (List.mem_filter.mp hq).1, rfl, id, .inl rfl⟩
    · change d ∈ c.db.deadLetter at hd
      rwa [hdb, removedAll_deadLetter] at hd

/-! ## Building a batch -/

/-- The batch that is built of these rows. -/
structure BuiltOf (table : PyStr) (rows : List SpoolRecord) (built : BuiltBatch)
    (interpreter : Interpreter := .plain) : Prop where
  sequences : built.sequences = rows.map (·.sequence)
  uncertain : built.uncertainSequences = (rows.filter (·.deliveryUncertain)).map (·.sequence)
  batch : IsBatch table (rows.map SpoolRecord.identity) built.payload interpreter

/-- The batch before its first row. -/
theorem BuiltOf.empty (table : PyStr) {interpreter : Interpreter} :
    BuiltOf table [] .empty interpreter :=
  ⟨rfl, rfl, [], .nil, rfl⟩

/-- One more row in a batch. -/
theorem BuiltOf.add {table : PyStr} {rows : List SpoolRecord} {built : BuiltBatch}
    {record : SpoolRecord} {bytes : Bytes} {interpreter : Interpreter}
    (h : BuiltOf table rows built interpreter)
    (henc : encodePayload table record.payload interpreter = .ok bytes) :
    BuiltOf table (rows ++ [record]) (built.add record bytes) interpreter where
  sequences := by simp [BuiltBatch.add, h.sequences]
  uncertain := by
    rw [BuiltBatch.add, h.uncertain, List.filter_append, List.map_append]
    cases hflag : record.deliveryUncertain <;> simp [hflag]
  batch := by
    obtain ⟨encoded, hrows, hpayload⟩ := h.batch
    refine ⟨encoded ++ [bytes], ?_, by simp [BuiltBatch.add, hpayload]⟩
    rw [List.map_append]
    exact List.rel_append hrows (.cons henc .nil)

/-- The loop of `_build_batch` takes rows from the front. -/
theorem planBatch_send {table : PyStr} {limit : Nat} {records rows : List SpoolRecord}
    {built built' : BuiltBatch} (h : BuiltOf table rows built)
    (hplan : planBatch table limit records built = .send built') :
    ∃ taken rest, records = taken ++ rest ∧ BuiltOf table (rows ++ taken) built' := by
  induction records generalizing rows built with
  | nil =>
    cases hplan
    exact ⟨[], [], rfl, (List.append_nil rows).symm ▸ h⟩
  | cons record records ih =>
    have hstop : built = built' → ∃ taken rest, record :: records = taken ++ rest ∧
        BuiltOf table (rows ++ taken) built' := by
      rintro rfl
      exact ⟨[], _, rfl, (List.append_nil rows).symm ▸ h⟩
    rw [planBatch] at hplan
    split at hplan
    · split at hplan
      · split at hplan
        · cases hplan
          exact hstop rfl
        · cases hplan
      · cases hplan
    · next bytes henc =>
      split at hplan
      · split at hplan
        · cases hplan
        · cases hplan
          exact hstop rfl
      · obtain ⟨taken, rest, rfl, hbuilt⟩ := ih (h.add henc) hplan
        exact ⟨record :: taken, rest, rfl, by simpa using hbuilt⟩

/-- A row that is buried is the first one, and cannot be decoded or encoded. -/
theorem planBatch_bury {table : PyStr} {limit : Nat} {records : List SpoolRecord}
    {built : BuiltBatch} {r : SpoolRecord} {e : Exc}
    (hplan : planBatch table limit records built = .bury r e) :
    built.sequences = [] ∧ records.head? = some r ∧
      encodePayload table r.payload = .error e ∧ isUndecodable e = true := by
  induction records generalizing built with
  | nil => cases hplan
  | cons record records ih =>
    rw [planBatch] at hplan
    split at hplan
    · next e henc =>
      split at hplan
      · next hun =>
        split at hplan
        · cases hplan
        · next hnil =>
          cases hplan
          exact ⟨not_not.mp hnil, rfl, henc, hun⟩
      · cases hplan
    · split at hplan
      · split at hplan <;> cases hplan
      · -- behind a row that was taken, no row is buried
        obtain ⟨hnil, -⟩ := ih hplan
        simp [BuiltBatch.add] at hnil

/-- The batch is of rows at the front of the queue. -/
theorem Batched.of_built {table : PyStr} {rows rest : List SpoolRecord} {built : BuiltBatch}
    (hc : w.spool.db.Coherent) (hp : w.spool.db.pending = rows ++ rest)
    (ht : table = w.config.table.name) (h : BuiltOf table rows built)
    (hne : built.sequences ≠ []) : Batched w built := by
  have hsorted := hc.pendingSorted
  rw [hp, List.map_append, List.pairwise_append] at hsorted
  obtain ⟨hrows, -, hlt⟩ := hsorted
  have hmem : ∀ r ∈ w.spool.db.pending, r.sequence ∈ built.sequences → r ∈ rows := by
    intro r hr hs
    rw [h.sequences] at hs
    rw [hp] at hr
    rcases List.mem_append.mp hr with hr | hr
    · exact hr
    · exact absurd (hlt _ hs _ (List.mem_map_of_mem hr)) (lt_irrefl _)
  refine ⟨hne, h.sequences ▸ hrows, ⟨rows.map SpoolRecord.identity, ?_, ht ▸ h.batch, ?_⟩, ?_, ?_⟩
  · rw [h.sequences, List.map_map]
    rfl
  · exact fun r hr hs => List.mem_map_of_mem (hmem r hr hs)
  · intro s hs
    rw [h.sequences] at hs
    obtain ⟨r, hr, rfl⟩ := List.mem_map.mp hs
    exact (hc.pendingKeys r (hp ▸ List.mem_append_left _ hr)).2
  · intro r hr hs s hm
    rw [h.sequences] at hs hm
    rw [hp] at hr
    rcases List.mem_append.mp hr with hr | hr
    · exact absurd (List.mem_map_of_mem hr) hs
    · exact hlt _ hm _ (List.mem_map_of_mem hr)

/-- The undecodable oldest row goes to dead letter, or stays; there is no batch then. -/
theorem bury_keeps (hk : Keeps attempt u w) (ho : w.spool.db.Opened)
    {record : SpoolRecord} {e : Exc} {res : Except Exc (Option BuiltBatch)}
    (hfirst : ∀ r ∈ w.spool.db.pending, r.sequence = record.sequence →
      (∃ rest, w.spool.db.pending = r :: rest) ∧ Condemned w.history r.identity)
    (hm : w.bury record e = (res, w')) : Keeps attempt u w' ∧
      ∀ built, res = .ok (some built) → built.sequences = [] := by
  unfold bury at hm
  split at hm
  · next v hv =>
    cases hm
    refine ⟨hk.trans (moveToDeadLetter_keeps hk.books ho hfirst hv), fun built hb => ?_⟩
    cases hb
    rfl
  · next x v hv =>
    have hv' := hk.trans (moveToDeadLetter_keeps hk.books ho hfirst hv)
    split at hm
    · cases hm
      exact ⟨hv'.quiet (.setDeliveryState ..), nofun⟩
    · cases hm
      exact ⟨hv', nofun⟩

/-- **`_build_batch`** takes its batch from the front of the queue, or buries the first row, or
changes nothing. -/
theorem buildBatch_keeps (h : Books w) (ho : w.spool.db.Opened) {isolateNext : Bool}
    {res : Except Exc (Option BuiltBatch)} (hm : w.buildBatch isolateNext = (res, w')) :
    Keeps attempt w w' ∧ ∀ built, res = .ok (some built) → built.sequences ≠ [] →
      ∃ rows rest, w'.spool.db.pending = rows ++ rest ∧
        BuiltOf w'.config.table.name rows built := by
  unfold buildBatch at hm
  dsimp only at hm
  generalize (if isolateNext then 1 else w.config.settings.deliveryBatchRows) = maxRows at hm
  split at hm
  · next e v hv =>
    cases hm
    exact ⟨(Quiet.read (readOnly_peekBatch _ _) hv).keeps h, nofun⟩
  · next v hv =>
    cases hm
    exact ⟨(Quiet.read (readOnly_peekBatch _ _) hv).keeps h, nofun⟩
  · next records v hne hv =>
    have hquiet : Quiet attempt w v := .read (readOnly_peekBatch _ _) hv
    obtain ⟨c, hrun, rfl⟩ := of_call hv
    have hpending : c.db.pending = w.spool.db.pending := hquiet.db.pending
    obtain ⟨⟨others, hpre⟩, -⟩ := peekBatch_ok hrun
    split at hm
    · next built hplan =>
      cases hm
      obtain ⟨taken, rest, hrecords, hbuilt⟩ := planBatch_send (.empty _) hplan
      refine ⟨hquiet.keeps h, fun b hb _ => ?_⟩
      cases hb
      refine ⟨taken, rest ++ others, ?_, hbuilt⟩
      change c.db.pending = _
      rw [hpending, ← hpre, hrecords, List.append_assoc]
    · next record e hplan =>
      obtain ⟨-, hhead, henc, hun⟩ := planBatch_bury hplan
      obtain ⟨records, rfl⟩ := List.head?_eq_some_iff.mp hhead
      have hk : Keeps attempt w _ := hquiet.keeps h
      have hfirst : ∀ r ∈ c.db.pending, r.sequence = record.sequence →
          (∃ rest, c.db.pending = r :: rest) ∧ Condemned w.history r.identity := by
        intro r hr hs
        have hp : c.db.pending = record :: (records ++ others) := by
          rw [hpending, ← hpre, List.cons_append]
        have hmem : record ∈ c.db.pending := hp ▸ List.mem_cons_self ..
        obtain rfl := eq_of_key hk.books.coherent.pendingNodup hr hmem hs
        exact ⟨⟨_, hp⟩, .inl ⟨e, h.table ▸ henc, hun⟩⟩
      obtain ⟨hbury, hnil⟩ := bury_keeps hk (hk.opened ho) hfirst hm
      exact ⟨hbury, fun built hb hne => absurd (hnil built hb) hne⟩
    · next e hplan =>
      cases hm
      exact ⟨hquiet.keeps h, nofun⟩

/-! ## Delivery -/

/-- The batch has just been built, of rows at the front of the queue. -/
def Fresh (w : World) (built : BuiltBatch) : Prop :=
  built.sequences ≠ [] ∧ ∃ rows rest, w.spool.db.pending = rows ++ rest ∧
    BuiltOf w.config.table.name rows built

/-- A batch read just now is one of the rows of the spool. -/
theorem Fresh.batched (h : Books w) {built : BuiltBatch} (hf : Fresh w built) :
    Batched w built := by
  obtain ⟨hne, rows, rest, hp, hbuilt⟩ := hf
  exact .of_built h.coherent hp rfl hbuilt hne

/-- The part before the request keeps the books, and its batch is fresh. -/
theorem deliverStart_keeps (h : Books w) (ho : w.spool.db.Opened) {isolateNext : Bool}
    {backoff backoff' : Backoff} {res : Except Exc Started}
    (hm : w.deliverStart isolateNext backoff = (res, backoff', w')) :
    Keeps attempt w w' ∧ ∀ built, res = .ok (.sending built) → Fresh w' built := by
  unfold deliverStart at hm
  split at hm
  · next e v hv =>
    cases hm
    exact ⟨(buildBatch_keeps h ho hv).1, nofun⟩
  · next v hv =>
    cases hm
    exact ⟨(buildBatch_keeps h ho hv).1.quiet (.retryLater ..), nofun⟩
  · next built v hv =>
    obtain ⟨hk, hbuilt⟩ := buildBatch_keeps h ho hv
    split at hm
    · cases hm
      exact ⟨hk, nofun⟩
    · next hne =>
      cases hm
      refine ⟨hk, fun b hb => ?_⟩
      cases hb
      exact ⟨hne, hbuilt built rfl hne⟩

/-- A batch of one row that was rejected: the row is the oldest pending one. -/
theorem Batched.condemned (h : Books w) {built : BuiltBatch} {s : Int} (hb : Batched w built)
    (hs : built.sequences = [s]) {e : IlpError} (hk : e.kind = .permanent)
    (hstatus : e.statusCode = some 400)
    (hlast : w.history.getLast? = some (.sent built (.error e))) {r : SpoolRecord}
    (hr : r ∈ w.spool.db.pending) (hrs : r.sequence = s) :
    (∃ rest, w.spool.db.pending = r :: rest) ∧ Condemned w.history r.identity := by
  constructor
  · cases hp : w.spool.db.pending with
    | nil =>
      rw [hp] at hr
      cases hr
    | cons p rest =>
      have hmem : p ∈ w.spool.db.pending := hp ▸ List.mem_cons_self ..
      have hle : p.sequence ≤ r.sequence := by
        have hsorted := h.coherent.pendingSorted
        rw [hp, List.map_cons, List.pairwise_cons] at hsorted
        rw [hp] at hr
        rcases List.mem_cons.mp hr with rfl | hr
        · exact le_refl _
        · exact le_of_lt (hsorted.1 _ (List.mem_map_of_mem hr))
      have hps : p.sequence ∈ built.sequences := by
        by_contra hout
        exact absurd (hb.first p hmem hout s (hs ▸ List.mem_cons_self ..)) (not_lt.mpr (hrs ▸ hle))
      rw [hs, List.mem_singleton] at hps
      obtain rfl := eq_of_key h.coherent.pendingNodup hr hmem (hrs.trans hps.symm)
      exact ⟨rest, rfl⟩
  · obtain ⟨rows, hmap, hbatch, hrows⟩ := hb.rows
    have hrow := hrows r hr (by rw [hs, hrs]; exact List.mem_cons_self ..)
    rw [hs] at hmap
    obtain ⟨row, rfl, -⟩ := List.map_eq_singleton_iff.mp hmap
    rw [List.mem_singleton.mp hrow]
    exact .inr ⟨built, e, hlast, hk, hstatus, hs.trans hmap.symm, h.table ▸ hbatch⟩

/-- The handler of a status 400 keeps the books. -/
theorem batchRejected_keeps (h : Books w) (ho : w.spool.db.Opened) {built : BuiltBatch}
    (hb : Batched w built) {e : IlpError} (hk : e.kind = .permanent)
    (hstatus : e.statusCode = some 400)
    (hlast : w.history.getLast? = some (.sent built (.error e))) {backoff backoff' : Backoff}
    {res : Except Exc DeliveryOutcome}
    (hm : w.batchRejected built backoff e = (res, backoff', w')) : Keeps True w w' := by
  unfold batchRejected at hm
  split at hm
  · next s hs =>
    have hfirst : ∀ r ∈ w.spool.db.pending, r.sequence = s →
        (∃ rest, w.spool.db.pending = r :: rest) ∧ Condemned w.history r.identity :=
      fun r hr hrs => hb.condemned h hs hk hstatus hlast hr hrs
    split at hm
    · next v hv =>
      cases hm
      exact moveToDeadLetter_keeps h ho hfirst hv
    · next x v hv =>
      have hkeep : Keeps True w v := moveToDeadLetter_keeps h ho hfirst hv
      split at hm
      · cases hm
        exact hkeep.quiet (.retryLater ..)
      · cases hm
        exact hkeep
  · split at hm
    · next v hv =>
      cases hm
      exact (recordAttempt_keeps h hv).quiet (.setDeliveryState ..)
    · next x v hv =>
      cases hm
      exact recordAttempt_keeps h hv

/-- **`_deliver_once` from its await on** keeps the books. -/
theorem deliverFinish_keeps (h : Books w) (ho : w.spool.db.Opened) {built : BuiltBatch}
    (hb : Batched w built) {backoff backoff' : Backoff} {result : SendResult}
    {res : Except Exc DeliveryOutcome}
    (hm : w.deliverFinish built backoff result = (res, backoff', w')) : Keeps True w w' := by
  have hk : Keeps True w (w.observe (.sent built result)) :=
    (Quiet.observe w (o := .sent built result) trivial).keeps h
  have hlast : (w.observe (.sent built result)).history.getLast? = some (.sent built result) :=
    List.getLast?_concat
  have hb' := hb.keeps hk
  unfold deliverFinish at hm
  dsimp only at hm
  split at hm
  · split at hm
    · next v hv =>
      cases hm
      exact hk.trans (batchDelivered_keeps hk.books hb' hlast hv)
    · next e v hv =>
      cases hm
      exact hk.trans (batchDelivered_keeps hk.books hb' hlast hv)
  · cases hm
    exact hk
  · next e =>
    split at hm
    · cases hm
      exact hk.quiet (.setDeliveryState ..)
    · split at hm
      · next v hv =>
        cases hm
        exact (hk.trans (recordAttempt_keeps hk.books hv)).quiet (.retryLater ..)
      · next x v hv =>
        cases hm
        exact hk.trans (recordAttempt_keeps hk.books hv)
    · next hkind =>
      split at hm
      · next hstatus =>
        exact hk.trans (batchRejected_keeps hk.books (hk.opened ho) hb' hkind hstatus hlast hm)
      · cases hm
        exact hk.quiet (.setDeliveryState ..)
    · cases hm
      exact hk

/-! ## Persistence -/

/-- The record of a storage call is no part of the books. -/
theorem Quiet.logCall (w : World) (event : StorageEvent) : Quiet attempt w (w.logCall event) :=
  .of_eq rfl rfl rfl rfl

/-- Neither is a measurement. -/
theorem Quiet.freeSpace (w : World) : Quiet attempt w w.freeSpace.2 := by
  obtain ⟨_, _, _, _, he⟩ := Measures.freeSpace w
  rw [he]
  exact .of_eq rfl rfl rfl rfl

/-- The rows a transaction inserted are the new ones. -/
theorem insertedRows_eq {db db' : Database} {new : List NewSpoolEvent} (hc : db.Coherent)
    (hdb : db' = db.appendedAll new) :
    insertedRows db db' = (newRows db.pendingSeq new).map SpoolRecord.identity := by
  have hold : (db.pending.filter fun r => decide (db.pendingSeq < r.sequence)) = [] := by
    rw [List.filter_eq_nil_iff]
    intro r hr
    simpa using (hc.pendingKeys r hr).2
  have hnew : ((newRows db.pendingSeq new).filter fun r => decide (db.pendingSeq < r.sequence)) =
      newRows db.pendingSeq new := by
    rw [List.filter_eq_self]
    intro r hr
    simpa using ((newRows_sequences db.pendingSeq new).2 r hr).1
  rw [insertedRows, hdb, appendedAll_pending, List.filter_append, hold, hnew, List.nil_append]

/-- Rows enter the spool without the mark of uncertainty. -/
theorem newRows_clear (seq : Int) (es : List NewSpoolEvent) :
    ∀ r ∈ newRows seq es, r.deliveryUncertain = false := by
  induction es generalizing seq with
  | nil => simp [newRows]
  | cons e es ih =>
    intro r hr
    rcases List.mem_cons.mp hr with rfl | hr
    · rfl
    · exact ih _ r hr

/-- An enqueue of the held events keeps the books. -/
theorem enqueueHeld_keeps (h : Books w) (ho : w.spool.db.Opened) {res : Except Exc Bool}
    (hm : w.enqueueHeld = (res, w')) : Keeps attempt w w' := by
  unfold enqueueHeld at hm
  split at hm
  · next n v hv =>
    obtain ⟨c, hrun, rfl⟩ := of_call hv
    obtain ⟨new, rfl, hdb, hnew⟩ := enqueueMany_ok h.coherent ho hrun
    have hk : Keeps attempt w
        (heldPersisted { w.logCall .enqueueMany with spool := c } w.spool.db) := by
      refine ⟨h.enqueued hnew rfl hdb rfl ?_, rfl, ⟨_, rfl, ?_⟩, fun _ => ?_, ?_, fun q hq => ?_,
        fun d hd => .inl ?_⟩
      · rw [← insertedRows_eq h.coherent hdb]
        rfl
      · simp [Obs.IsOf]
      · change c.db.Opened
        refine Counted.opened ?_ ?_
        · rw [hdb]
          exact (hnew.coherent h.coherent).counted
        · rw [hdb, appendedAll_isSome]
          exact ho.isSome
      · change w.spool.db.pendingSeq ≤ c.db.pendingSeq
        rw [hdb, appendedAll_pendingSeq]
        omega
      · change q ∈ c.db.pending at hq
        rw [hdb, appendedAll_pending, List.mem_append] at hq
        rcases hq with hq | hq
        · exact .inl ⟨q, hq, rfl, id, .inl rfl⟩
        · exact .inr ⟨((newRows_sequences _ _).2 q hq).1, .inl (newRows_clear _ _ q hq)⟩
      · change d ∈ c.db.deadLetter at hd
        rwa [hdb, appendedAll_deadLetter] at hd
    split at hm
    · next stats v hv =>
      cases hm
      exact (hk.quiet (.readStats hv)).quiet (.resume v)
    · next e v hv =>
      cases hm
      exact hk.quiet (.readStats hv)
  · next e v hv =>
    have hfailed : Keeps attempt w v :=
      ((Quiet.logCall w .enqueueMany).keeps h).quiet (.failed (atomic_enqueueMany _ _) hv)
    split at hm
    · cases hm
      exact hfailed.quiet (.blockOnStorage ..)
    · split at hm
      · cases hm
        exact hfailed.quiet (.blockOnStorage ..)
      · cases hm
        exact hfailed

/-- **`_persist_held`** keeps the books. -/
theorem persistHeld_keeps (h : Books w) (ho : w.spool.db.Opened) {res : Except Exc Bool}
    (hm : w.persistHeld = (res, w')) : Keeps attempt w w' := by
  have hspace : Quiet attempt w w.freeSpace.2 := .freeSpace w
  unfold persistHeld at hm
  dsimp only at hm
  split at hm
  · cases hm
    exact .refl h
  · have hk : Keeps attempt w w.freeSpace.2 := hspace.keeps h
    split at hm
    · cases hm
      exact hk.quiet (.blockOnStorage ..)
    · exact hk.trans (enqueueHeld_keeps hk.books (hk.opened ho) hm)

end

end World

end QuestDbWriter
