import QuestDbWriter.Worker.Places
import QuestDbWriter.Spool.Reading
import QuestDbWriter.Lib.Ledger

/-!
# The worker's books

What the history says about the rows of the spool, and what the counters say about the history.
The rows ever committed are the rows removed and then the pending ones (`fifo`); the rows moved to
dead letter are the evicted ones and then the dead letters (`buried`). `Justified` is what an
observation rests on. The methods keep the books (`Keeps`) where the batch in flight is one that
was taken from the front of the queue (`Batched`), which is what `_build_batch` returns.
-/

namespace QuestDbWriter

open Lib Database SQLiteSpool
open Session (run)

/-! ## Accounts of a history -/

/-- The table of the present process. -/
def tableOf (history : List Obs) : PyStr :=
  history.foldl (fun table o => match o with
    | .started table _ _ => table
    | _ => table) []

/-- The rows that committed calls of `enqueue_many` have inserted. -/
def committedRows (history : List Obs) : List RowIdentity :=
  history.flatMap fun
    | .enqueued _ rows => rows
    | _ => []

/-- The rows that committed calls have removed from `pending`. -/
def removedRows (history : List Obs) : List RowIdentity :=
  history.flatMap fun
    | .delivered rows _ => rows
    | .moved row _ => [row]
    | _ => []

/-- The rows that committed calls of `mark_delivered` have removed. -/
def deliveredRows (history : List Obs) : List RowIdentity :=
  history.flatMap fun
    | .delivered rows _ => rows
    | _ => []

/-- The rows that have been moved to dead letter. -/
def movedRows (history : List Obs) : List RowIdentity :=
  history.flatMap fun
    | .moved row _ => [row]
    | _ => []

/-- The rows that moves have evicted from dead letter. -/
def evictedRows (history : List Obs) : List RowIdentity :=
  history.flatMap fun
    | .moved _ evicted => evicted
    | _ => []

section
variable (history : List Obs) (o : Obs)

/-- The table behind one more observation. -/
theorem tableOf_snoc : tableOf (history ++ [o]) = match o with
    | .started table _ _ => table
    | _ => tableOf history := by
  rw [tableOf, List.foldl_append]
  cases o <;> rfl

/-- The committed rows behind one more observation. -/
theorem committedRows_snoc : committedRows (history ++ [o]) = committedRows history ++
    match o with
    | .enqueued _ rows => rows
    | _ => [] := by
  rw [committedRows, List.flatMap_append, List.flatMap_singleton]
  rfl

/-- The removed rows behind one more observation. -/
theorem removedRows_snoc : removedRows (history ++ [o]) = removedRows history ++
    match o with
    | .delivered rows _ => rows
    | .moved row _ => [row]
    | _ => [] := by
  rw [removedRows, List.flatMap_append, List.flatMap_singleton]
  rfl

/-- The delivered rows behind one more observation. -/
theorem deliveredRows_snoc : deliveredRows (history ++ [o]) = deliveredRows history ++
    match o with
    | .delivered rows _ => rows
    | _ => [] := by
  rw [deliveredRows, List.flatMap_append, List.flatMap_singleton]
  rfl

/-- The moved rows behind one more observation. -/
theorem movedRows_snoc : movedRows (history ++ [o]) = movedRows history ++
    match o with
    | .moved row _ => [row]
    | _ => [] := by
  rw [movedRows, List.flatMap_append, List.flatMap_singleton]
  rfl

/-- The evicted rows behind one more observation. -/
theorem evictedRows_snoc : evictedRows (history ++ [o]) = evictedRows history ++
    match o with
    | .moved _ evicted => evicted
    | _ => [] := by
  rw [evictedRows, List.flatMap_append, List.flatMap_singleton]
  rfl

end

/-- What is removed is delivered or moved. -/
theorem removedRows_perm (history : List Obs) :
    (removedRows history).Perm (deliveredRows history ++ movedRows history) := by
  induction history using List.reverseRecOn with
  | nil => exact .nil
  | append_singleton history o ih =>
    rw [removedRows_snoc, deliveredRows_snoc, movedRows_snoc]
    cases o with
    | delivered rows uncertain =>
      simp only [List.append_nil]
      rw [List.append_assoc]
      refine (ih.append_right rows).trans ?_
      rw [List.append_assoc]
      exact List.perm_append_comm.append_left _
    | moved row evicted =>
      simp only [List.append_nil]
      rw [← List.append_assoc]
      exact ih.append_right [row]
    | _ => simpa using ih

/-- An observation of a process after its start; only an attempt ends a `send_batch` or delivers
rows. -/
def Obs.IsOf (attempt : Prop) : Obs → Prop
  | .started _ _ _ => False
  | .sent _ _ | .delivered _ _ => attempt
  | _ => True

/-- One that moves no row. -/
def Obs.IsQuiet (attempt : Prop) : Obs → Prop
  | .accepted _ | .ensured _ => True
  | .sent _ _ => attempt
  | _ => False

/-- A quiet observation is one of the present process. -/
theorem Obs.IsQuiet.isOf {attempt : Prop} {o : Obs} (h : o.IsQuiet attempt) : o.IsOf attempt := by
  cases o <;> first | exact h | exact h.elim

/-- The counts of a process: what it found, and what it did since. -/
structure Tally where
  startPending : Nat := 0
  startDeadLetter : Nat := 0
  persisted : Nat := 0
  inserted : Nat := 0
  delivered : Nat := 0
  uncertain : Nat := 0
  moved : Nat := 0
  evicted : Nat := 0
deriving DecidableEq

/-- The events of a process that were already stored when they were persisted. -/
def Tally.duplicates (t : Tally) : Nat := t.persisted - t.inserted

/-- The counts after one more observation. -/
def Obs.tally (t : Tally) : Obs → Tally
  | .started _ pendingRows deadLetterRows =>
      { startPending := pendingRows, startDeadLetter := deadLetterRows }
  | .enqueued events rows =>
      { t with persisted := t.persisted + events.length, inserted := t.inserted + rows.length }
  | .delivered rows uncertain =>
      { t with delivered := t.delivered + rows.length, uncertain := t.uncertain + uncertain.length }
  | .moved _ evicted => { t with moved := t.moved + 1, evicted := t.evicted + evicted.length }
  | _ => t

/-- The counts of the present process. -/
def tallyOf (history : List Obs) : Tally := history.foldl Obs.tally {}

/-- The tally behind one more observation. -/
theorem tallyOf_snoc (history : List Obs) (o : Obs) :
    tallyOf (history ++ [o]) = Obs.tally (tallyOf history) o := by
  rw [tallyOf, List.foldl_append]
  rfl

/-! ## What an observation rests on -/

/-- The payload of a batch is the encodings of its rows, in their order. -/
def IsBatch (table : PyStr) (rows : List RowIdentity) (payload : Bytes)
    (interpreter : Interpreter := .plain) : Prop :=
  ∃ encoded, List.Forall₂ (fun (row : RowIdentity) bytes =>
    World.encodePayload table row.payload interpreter = .ok bytes) rows encoded ∧
    payload = encoded.flatten

/-- `send_batch` has just returned, for a batch of exactly these rows. -/
def Acknowledged (before : List Obs) (rows : List RowIdentity) : Prop :=
  ∃ built, before.getLast? = some (.sent built .ok) ∧ built.sequences = rows.map (·.sequence) ∧
    IsBatch (tableOf before) rows built.payload

/-- The row cannot be decoded or encoded, or `send_batch` has just been rejected with status 400
for a batch of this row alone. -/
def Condemned (before : List Obs) (row : RowIdentity) : Prop :=
  (∃ e, World.encodePayload (tableOf before) row.payload = .error e ∧
      World.isUndecodable e = true) ∨
    ∃ built e, before.getLast? = some (.sent built (.error e)) ∧ e.kind = .permanent ∧
      e.statusCode = some 400 ∧ built.sequences = [row.sequence] ∧
      IsBatch (tableOf before) [row] built.payload

/-- What the history before an observation says for it:

- an event that is enqueued has a committed row with its content, of its own or an older one;
- delivered rows are the oldest pending ones, and are acknowledged;
- a moved row is the oldest pending one, is condemned, and is newer than the rows it evicts. -/
def Justified (before : List Obs) : Obs → Prop
  | .enqueued events rows => rows.length ≤ events.length ∧
      ∀ e ∈ events, ∃ row ∈ committedRows before ++ rows,
        row.eventId = e.eventId ∧ row.payload = e.payload ∧ row.createdNs = e.createdNs
  | .delivered rows _ => rows ≠ [] ∧
      (∃ rest, committedRows before = removedRows before ++ (rows ++ rest)) ∧
      Acknowledged before rows
  | .moved row evicted =>
      (∃ rest, committedRows before = removedRows before ++ (row :: rest)) ∧
      (∀ e ∈ evicted, e.sequence < row.sequence) ∧ Condemned before row
  | _ => True

/-- No more rows are inserted than events persisted. -/
theorem inserted_le {history : List Obs} (h : Chronicle Justified history) :
    (tallyOf history).inserted ≤ (tallyOf history).persisted := by
  induction h with
  | nil => exact le_refl _
  | @snoc history o h hj ih =>
    rw [tallyOf_snoc]
    cases o with
    | enqueued events rows => exact Nat.add_le_add ih hj.1
    | started => exact le_refl _
    | _ => exact ih

/-! ## The books -/

namespace World

/-- The counters are what the history counts, and account for the rows. -/
structure Tallied (w : World) : Prop where
  counters : w.shared.counters.persistedEvents = (tallyOf w.history).persisted ∧
    w.shared.counters.deliveredEvents = (tallyOf w.history).delivered ∧
    w.shared.counters.uncertainDeliveredEvents = (tallyOf w.history).uncertain ∧
    w.shared.counters.deadLetteredEvents = (tallyOf w.history).moved ∧
    w.shared.counters.deadLetterEvictedEvents = (tallyOf w.history).evicted
  pending : w.spool.db.pending.length + (tallyOf w.history).delivered + (tallyOf w.history).moved =
    (tallyOf w.history).startPending + (tallyOf w.history).inserted
  deadLetter : w.spool.db.deadLetter.length + (tallyOf w.history).evicted =
    (tallyOf w.history).startDeadLetter + (tallyOf w.history).moved

/-- What the history says about the rows of the spool. -/
structure Books (w : World) : Prop where
  coherent : w.spool.db.Coherent
  table : tableOf w.history = w.config.table.name
  /-- The committed rows are the removed ones and then the pending ones. -/
  fifo : committedRows w.history =
    removedRows w.history ++ w.spool.db.pending.map SpoolRecord.identity
  /-- The moved rows are the evicted ones and then the dead letters. -/
  buried : movedRows w.history =
    evictedRows w.history ++ w.spool.db.deadLetter.map DeadLetterRecord.identity
  increasing : ((committedRows w.history).map (·.sequence)).Pairwise (· < ·)
  assigned : ∀ row ∈ committedRows w.history, row.sequence ≤ w.spool.db.pendingSeq
  chronicle : Chronicle Justified w.history
  tallied : Tallied w

/-- The batch is of rows that were the oldest pending ones when it was built: those that are still
pending are before all others. -/
structure Batched (w : World) (built : BuiltBatch) : Prop where
  nonempty : built.sequences ≠ []
  increasing : built.sequences.Pairwise (· < ·)
  rows : ∃ rows : List RowIdentity, rows.map (·.sequence) = built.sequences ∧
    IsBatch w.config.table.name rows built.payload ∧
    ∀ r ∈ w.spool.db.pending, r.sequence ∈ built.sequences → r.identity ∈ rows
  assigned : ∀ s ∈ built.sequences, s ≤ w.spool.db.pendingSeq
  first : ∀ r ∈ w.spool.db.pending, r.sequence ∉ built.sequences → ∀ s ∈ built.sequences,
    s < r.sequence

/-- The books are kept, and every row is where it was, has gone on, or is new; an uncertain
delivery stays marked, and nothing else of a row changes where no `send_batch` has ended. -/
structure Keeps (attempt : Prop) (w w' : World) : Prop where
  books : Books w'
  config : w'.config = w.config
  history : ∃ obs, w'.history = w.history ++ obs ∧ ∀ o ∈ obs, o.IsOf attempt
  opened : w.spool.db.Opened → w'.spool.db.Opened
  seq : w.spool.db.pendingSeq ≤ w'.spool.db.pendingSeq
  pending : ∀ r' ∈ w'.spool.db.pending, (∃ r ∈ w.spool.db.pending, r'.identity = r.identity ∧
    (r.deliveryUncertain = true → r'.deliveryUncertain = true) ∧ (r' = r ∨ attempt)) ∨
    w.spool.db.pendingSeq < r'.sequence ∧ (r'.deliveryUncertain = false ∨ attempt)
  deadLetter : ∀ d' ∈ w'.spool.db.deadLetter, d' ∈ w.spool.db.deadLetter ∨
    (∃ r ∈ w.spool.db.pending, d'.identity = r.identity ∧
      (r.deliveryUncertain = true → d'.deliveryUncertain = true)) ∨
    w.spool.db.pendingSeq < d'.originalSequence

section
variable {attempt : Prop} {u v w w' : World}

/-- Nothing is done. -/
theorem Keeps.refl (h : Books w) : Keeps attempt w w where
  books := h
  config := rfl
  history := ⟨[], (List.append_nil _).symm, nofun⟩
  opened := id
  seq := le_refl _
  pending r hr := .inl ⟨r, hr, rfl, id, .inl rfl⟩
  deadLetter _ hd := .inl hd

/-- Two steps that keep the books, in a row. -/
theorem Keeps.trans (h : Keeps attempt u v) (h' : Keeps attempt v w) : Keeps attempt u w where
  books := h'.books
  config := h'.config.trans h.config
  history := by
    obtain ⟨obs, ho, hof⟩ := h.history
    obtain ⟨obs', ho', hof'⟩ := h'.history
    refine ⟨obs ++ obs', by rw [ho', ho, List.append_assoc], fun o hm => ?_⟩
    exact (List.mem_append.mp hm).elim (hof o) (hof' o)
  opened ho := h'.opened (h.opened ho)
  seq := h.seq.trans h'.seq
  pending r hr := by
    rcases h'.pending r hr with ⟨q, hq, hid, hflag, hattempt⟩ | ⟨hnew, hclear⟩
    · rcases h.pending q hq with ⟨p, hp, hid', hflag', hattempt'⟩ | ⟨hnew, hclear⟩
      · refine .inl ⟨p, hp, hid.trans hid', hflag ∘ hflag', ?_⟩
        rcases hattempt with rfl | hattempt
        · exact hattempt'
        · exact .inr hattempt
      · have hsame : r.sequence = q.sequence := congrArg RowIdentity.sequence hid
        refine .inr ⟨hsame ▸ hnew, ?_⟩
        rcases hattempt with rfl | hattempt
        · exact hclear
        · exact .inr hattempt
    · exact .inr ⟨lt_of_le_of_lt h.seq hnew, hclear⟩
  deadLetter d hd := by
    rcases h'.deadLetter d hd with hd | ⟨q, hq, hid, hflag⟩ | hnew
    · exact h.deadLetter d hd
    · rcases h.pending q hq with ⟨p, hp, hid', hflag', -⟩ | ⟨hnew, -⟩
      · exact .inr (.inl ⟨p, hp, hid.trans hid', hflag ∘ hflag'⟩)
      · have hsame : d.originalSequence = q.sequence := congrArg RowIdentity.sequence hid
        exact .inr (.inr (hsame ▸ hnew))
    · exact .inr (.inr (lt_of_le_of_lt h.seq hnew))

/-- A batch in flight stays one: no other row comes before its own. -/
theorem Batched.keeps {built : BuiltBatch} (h : Batched w built) (hk : Keeps attempt w w') :
    Batched w' built where
  nonempty := h.nonempty
  increasing := h.increasing
  rows := by
    obtain ⟨rows, hmap, hbatch, hrows⟩ := h.rows
    refine ⟨rows, hmap, hk.config ▸ hbatch, fun r hr hs => ?_⟩
    rcases hk.pending r hr with ⟨q, hq, hid, -⟩ | ⟨hnew, -⟩
    · have hsame : r.sequence = q.sequence := congrArg RowIdentity.sequence hid
      exact hid ▸ hrows q hq (hsame ▸ hs)
    · exact absurd (h.assigned _ hs) (not_le.mpr hnew)
  assigned s hs := (h.assigned s hs).trans hk.seq
  first r hr hs := by
    rcases hk.pending r hr with ⟨q, hq, hid, -⟩ | ⟨hnew, -⟩
    · have hsame : r.sequence = q.sequence := congrArg RowIdentity.sequence hid
      exact fun s hm => hsame ▸ h.first q hq (hsame ▸ hs) s hm
    · exact fun s hm => lt_of_le_of_lt (h.assigned s hm) hnew

end

/-! ## Quiet steps -/

/-- The tables have not changed. -/
structure SameRows (db db' : Database) : Prop where
  pending : db'.pending = db.pending
  deadLetter : db'.deadLetter = db.deadLetter
  seq : db'.pendingSeq = db.pendingSeq
  coherent : db.Coherent → db'.Coherent
  opened : db.Opened → db'.Opened

/-- The same database has the same rows. -/
theorem SameRows.of_eq {db db' : Database} (h : db' = db) : SameRows db db' := by
  subst h
  exact ⟨rfl, rfl, rfl, id, id⟩

/-- No row has moved, and nothing is counted that the history counts. -/
structure Quiet (attempt : Prop) (w w' : World) : Prop where
  config : w'.config = w.config
  db : SameRows w.spool.db w'.spool.db
  counters : w'.shared.counters.persistedEvents = w.shared.counters.persistedEvents ∧
    w'.shared.counters.deliveredEvents = w.shared.counters.deliveredEvents ∧
    w'.shared.counters.uncertainDeliveredEvents = w.shared.counters.uncertainDeliveredEvents ∧
    w'.shared.counters.deadLetteredEvents = w.shared.counters.deadLetteredEvents ∧
    w'.shared.counters.deadLetterEvictedEvents = w.shared.counters.deadLetterEvictedEvents
  history : ∃ obs, w'.history = w.history ++ obs ∧ ∀ o ∈ obs, o.IsQuiet attempt

section
variable {attempt : Prop} {u v w w' : World}

/-- Quiet observations add nothing to the accounts. -/
theorem quiet_accounts (history : List Obs) : ∀ {obs : List Obs}, (∀ o ∈ obs, o.IsQuiet attempt) →
    tableOf (history ++ obs) = tableOf history ∧
    committedRows (history ++ obs) = committedRows history ∧
    removedRows (history ++ obs) = removedRows history ∧
    movedRows (history ++ obs) = movedRows history ∧
    evictedRows (history ++ obs) = evictedRows history ∧
    tallyOf (history ++ obs) = tallyOf history ∧
    (Chronicle Justified history → Chronicle Justified (history ++ obs)) := by
  intro obs
  induction obs using List.reverseRecOn with
  | nil =>
    intro _
    simp
  | append_singleton obs o ih =>
    intro h
    obtain ⟨h1, h2, h3, h4, h5, h6, h7⟩ := ih fun p hp => h p (List.mem_append_left _ hp)
    have ho := h o (List.mem_append_right _ (List.mem_singleton.mpr rfl))
    rw [← List.append_assoc, tableOf_snoc, committedRows_snoc, removedRows_snoc, movedRows_snoc,
      evictedRows_snoc, tallyOf_snoc, h2, h3, h4, h5, h6]
    cases o <;> simp only [Obs.IsQuiet] at ho
    all_goals
      exact ⟨h1, List.append_nil _, List.append_nil _, List.append_nil _, List.append_nil _, rfl,
        fun hc => .snoc _ (h7 hc) trivial⟩

/-- A quiet step keeps the books. -/
theorem Quiet.keeps (hq : Quiet attempt w w') (h : Books w) : Keeps attempt w w' where
  books := by
    obtain ⟨obs, ho, hquiet⟩ := hq.history
    obtain ⟨h1, h2, h3, h4, h5, h6, h7⟩ := quiet_accounts w.history hquiet
    have hc := h.tallied.counters
    refine ⟨hq.db.coherent h.coherent, ?_, ?_, ?_, ?_, ?_, ?_, ?_, ?_, ?_⟩
    · rw [ho, h1, hq.config]
      exact h.table
    · rw [ho, h2, h3, hq.db.pending]
      exact h.fifo
    · rw [ho, h4, h5, hq.db.deadLetter]
      exact h.buried
    · rw [ho, h2]
      exact h.increasing
    · rw [ho, h2, hq.db.seq]
      exact h.assigned
    · rw [ho]
      exact h7 h.chronicle
    · rw [ho, h6, hq.counters.1, hq.counters.2.1, hq.counters.2.2.1, hq.counters.2.2.2.1,
        hq.counters.2.2.2.2]
      exact hc
    · rw [ho, h6, hq.db.pending]
      exact h.tallied.pending
    · rw [ho, h6, hq.db.deadLetter]
      exact h.tallied.deadLetter
  config := hq.config
  history := by
    obtain ⟨obs, ho, hquiet⟩ := hq.history
    exact ⟨obs, ho, fun o hm => (hquiet o hm).isOf⟩
  opened := hq.db.opened
  seq := le_of_eq hq.db.seq.symm
  pending r hr := .inl ⟨r, hq.db.pending ▸ hr, rfl, id, .inl rfl⟩
  deadLetter d hd := .inl (hq.db.deadLetter ▸ hd)

/-- A call of the spool changes nothing but its connection. -/
theorem of_call {α : Type} {p : SpoolM α} {r : Except Exc α} (h : w.call p = (r, w')) :
    ∃ c, run p w.spool = (r, c) ∧ w' = { w with spool := c } := by
  have hresult : (run p w.spool).1 = r := congrArg Prod.fst h
  exact ⟨(run p w.spool).2, Prod.ext hresult rfl, (congrArg Prod.snd h).symm⟩

namespace Quiet

/-- Nothing is done. -/
theorem refl (w : World) : Quiet attempt w w :=
  ⟨rfl, .of_eq rfl, ⟨rfl, rfl, rfl, rfl, rfl⟩, [], (List.append_nil _).symm, nofun⟩

/-- Quiet steps in a row. -/
theorem trans (h : Quiet attempt u v) (h' : Quiet attempt v w) : Quiet attempt u w where
  config := h'.config.trans h.config
  db := ⟨h'.db.pending.trans h.db.pending, h'.db.deadLetter.trans h.db.deadLetter,
    h'.db.seq.trans h.db.seq, h'.db.coherent ∘ h.db.coherent, h'.db.opened ∘ h.db.opened⟩
  counters := ⟨h'.counters.1.trans h.counters.1, h'.counters.2.1.trans h.counters.2.1,
    h'.counters.2.2.1.trans h.counters.2.2.1, h'.counters.2.2.2.1.trans h.counters.2.2.2.1,
    h'.counters.2.2.2.2.trans h.counters.2.2.2.2⟩
  history := by
    obtain ⟨obs, ho, hq⟩ := h.history
    obtain ⟨obs', ho', hq'⟩ := h'.history
    refine ⟨obs ++ obs', by rw [ho', ho, List.append_assoc], fun o hm => ?_⟩
    exact (List.mem_append.mp hm).elim (hq o) (hq' o)

/-- What leaves the spool, the counters and the history is quiet. -/
theorem of_eq (hc : w'.config = w.config) (hs : w'.spool = w.spool)
    (hn : w'.shared.counters = w.shared.counters) (hh : w'.history = w.history) :
    Quiet attempt w w' := by
  refine ⟨hc, .of_eq (congrArg Conn.db hs), ?_, [], by rw [hh, List.append_nil], nofun⟩
  rw [hn]
  exact ⟨rfl, rfl, rfl, rfl, rfl⟩

/-- A change under the lock that leaves the counters is quiet. -/
theorem withShared (w : World) (f : Shared → Shared)
    (hf : (f w.shared).counters = w.shared.counters) : Quiet attempt w (w.withShared f) :=
  .of_eq rfl rfl hf rfl

/-- A quiet observation. -/
theorem observe (w : World) {o : Obs} (h : o.IsQuiet attempt) : Quiet attempt w (w.observe o) :=
  ⟨rfl, .of_eq rfl, ⟨rfl, rfl, rfl, rfl, rfl⟩, [o], rfl, by simpa using h⟩

/-- A change of the connection that leaves the rows is quiet. -/
theorem withSpool (w : World) {spool : Conn Database StorageFault}
    (h : SameRows w.spool.db spool.db) : Quiet attempt w { w with spool } :=
  ⟨rfl, h, ⟨rfl, rfl, rfl, rfl, rfl⟩, [], (List.append_nil _).symm, nofun⟩

/-- A transaction that fails changes nothing. -/
theorem failed {α : Type} {p : SpoolM α} {e : Exc} (hp : Session.Atomic p)
    (h : w.call p = (.error e, w')) : Quiet attempt w w' := by
  obtain ⟨c, hrun, rfl⟩ := of_call h
  exact withSpool w (.of_eq (hp _ _ e hrun))

/-- A call that only reads changes nothing. -/
theorem read {α : Type} {p : SpoolM α} {r : Except Exc α} (hp : Session.ReadOnly p)
    (h : w.call p = (r, w')) : Quiet attempt w w' := by
  obtain ⟨c, hrun, rfl⟩ := of_call h
  have hdb := hp w.spool
  rw [hrun] at hdb
  exact withSpool w (.of_eq hdb)

/-- Reporting a state is quiet. -/
theorem setDeliveryState (w : World) (state : WorkerState) (lastError : Option PyStr)
    (retryDelay : Option ℚ) (reason : Option BlockReason) :
    Quiet attempt w (w.setDeliveryState state lastError retryDelay reason) :=
  withShared w _ rfl

/-- Reading the counters is quiet. -/
theorem readStats {r : Except Exc SpoolStats} (h : w.readStats = (r, w')) : Quiet attempt w w' := by
  unfold World.readStats at h
  split at h
  · next stats v hv =>
    cases h
    exact (read readOnly_stats hv).trans (withShared v _ rfl)
  · next e v hv =>
    cases h
    exact read readOnly_stats hv

/-- Counting and reporting a retry is quiet. -/
theorem retryLater (w : World) (backoff : Backoff) (error : PyStr) :
    Quiet attempt w (w.retryLater backoff error).2.2 := by
  unfold World.retryLater
  dsimp only
  exact (show Quiet attempt w (w.count Counters.retried) from
    ⟨rfl, .of_eq rfl, ⟨rfl, rfl, rfl, rfl, rfl⟩, [], (List.append_nil _).symm, nofun⟩).trans
    (setDeliveryState _ _ _ _ _)

end Quiet

end

end World

end QuestDbWriter
