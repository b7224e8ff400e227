import QuestDbWriter.Lib.Insertion
import QuestDbWriter.Spool.History

/-!
# enqueue_many as an insertion

`enqueue_many` looks a repeated event up twice: among the events of its own batch and in the two
tables. Both agree with inserting the events one after the other into a store that holds one content
for each id (`insertAll_distinct`, `selectNew_insertAll`), so `enqueueMany_iff` describes a call by
that insertion and by the limits of what it leaves. `enqueueMany_append` and `enqueueMany_again` are
then facts about insertion.
-/

namespace QuestDbWriter

open Lib Database SQLiteSpool
open Session (eval run)

/-- The spool as a store of events under their ids, in either table. -/
def spoolInsertion : Insertion Database NewSpoolEvent PyStr (Bytes × Int) where
  key := (·.eventId)
  content e := (e.payload, e.createdNs)
  lookup db eventId := Sql.stored eventId db
  add := Database.appended

/-- Insert events into the tables one after the other, without limits. -/
abbrev Database.insertAll (db : Database) (events : List NewSpoolEvent) : Option Database :=
  spoolInsertion.insertAll db events

/-- One event: it is appended where its id is unused. -/
theorem Database.insertAll_cons (db : Database) (e : NewSpoolEvent) (es : List NewSpoolEvent) :
    db.insertAll (e :: es) = match Sql.stored e.eventId db with
      | none => (db.appended e).insertAll es
      | some content =>
        if content = (e.payload, e.createdNs) then db.insertAll es else none := by
  rw [Database.insertAll, Insertion.insertAll_cons]
  cases hs : Sql.stored e.eventId db with
  | none => rw [Insertion.insert_new (I := spoolInsertion) hs]; rfl
  | some content =>
      by_cases hc : content = (e.payload, e.createdNs)
      · rw [Insertion.insert_stored (I := spoolInsertion) (hs.trans (congrArg some hc))]
        exact (if_pos hc).symm
      · rw [Insertion.insert_conflict (I := spoolInsertion) hs hc]
        exact (if_neg hc).symm

/-- The content stored for an id, after an event with an unused id has been appended. -/
theorem stored_appended {db : Database} {e : NewSpoolEvent} (eventId : PyStr)
    (h : Sql.stored e.eventId db = none) :
    Sql.stored eventId (db.appended e) =
      if eventId = e.eventId then some (e.payload, e.createdNs) else Sql.stored eventId db := by
  obtain ⟨hp, -⟩ := stored_eq_none.mp h
  have hpending : db.pending.find? (·.eventId = e.eventId) = none :=
    List.find?_eq_none.mpr fun r hr => by
      simpa using fun he => hp (List.mem_map.mpr ⟨r, hr, he⟩)
  unfold Sql.stored
  rw [appended_pending, appended_deadLetter, List.find?_append, List.find?_singleton]
  by_cases heq : eventId = e.eventId
  · subst heq
    rw [hpending, if_pos rfl]
    simp [newRow]
  · have hrow : ¬ (newRow (db.pendingSeq + 1) e).eventId = eventId := fun he => heq he.symm
    rw [decide_eq_false hrow, if_neg heq]
    simp

/-- Row identities and the order of insertion satisfy the laws of the library. -/
theorem spoolInsertion_lawful : spoolInsertion.Lawful :=
    fun _ _ eventId h => stored_appended eventId h

/-- Events of one id with the same content are one event. -/
theorem NewSpoolEvent.eq_of_content {a b : NewSpoolEvent}
    (hkey : spoolInsertion.key a = spoolInsertion.key b)
    (h : spoolInsertion.content a = spoolInsertion.content b) : a = b := by
  cases a
  cases b
  simp_all [spoolInsertion]

/-! ## The two lookups -/

/-- **Leaving out repeated events changes nothing, and a conflict in the batch is a conflict of the
insertion.** The induction is on the events left, with those already distinct. -/
theorem insertAll_addDistinct (db : Database) : ∀ (es acc : List NewSpoolEvent),
    db.insertAll (acc ++ es) = match es.foldlM addDistinct acc with
      | .ok ds => db.insertAll ds
      | .error _ => none
  | [], acc => by
      rw [List.append_nil]
      rfl
  | e :: es, acc => by
      rw [List.foldlM_cons, addDistinct]
      cases hf : acc.find? (·.eventId = e.eventId) with
      | none =>
          have ih := insertAll_addDistinct db es (acc ++ [e])
          rw [List.append_assoc, List.singleton_append] at ih
          exact ih
      | some previous =>
          have hmem : previous ∈ acc := List.mem_of_find?_eq_some hf
          have hkey : previous.eventId = e.eventId := by simpa using List.find?_some hf
          by_cases hpe : previous = e
          · simp only [hpe, ne_eq, not_true_eq_false, if_false]
            exact (Insertion.insertAll_repeated spoolInsertion_lawful (hpe ▸ hmem)).trans
              (insertAll_addDistinct db es acc)
          · simp only [hpe, ne_eq, not_false_eq_true, if_true]
            exact Insertion.insertAll_conflict spoolInsertion_lawful hmem hkey
              fun hc => hpe (NewSpoolEvent.eq_of_content hkey hc)

/-- The insertion depends on the distinct events only. -/
theorem insertAll_distinct (db : Database) (es : List NewSpoolEvent) :
    db.insertAll es = match distinctEvents es with
      | .ok ds => db.insertAll ds
      | .error _ => none :=
  insertAll_addDistinct db es []

/-- **Looking events up in the two tables before the first is inserted is the same as looking each
up at its turn**, as their ids are distinct: `d` is the database at the turn of the first of
`es`. -/
theorem selectNew_insertAll (db : Database) : ∀ {es : List NewSpoolEvent} {d : Database},
    (es.map (·.eventId)).Nodup → (∀ e ∈ es, (Utf8.encode e.eventId).isSome) →
      (∀ e ∈ es, Sql.stored e.eventId d = Sql.stored e.eventId db) →
      d.insertAll es = match (eval (selectNew es) db).1 with
        | .ok new => some (d.appendedAll new)
        | .error _ => none
  | [], _, _, _, _ => rfl
  | e :: es, d, hn, henc, hst => by
      obtain ⟨he, hn⟩ := List.nodup_cons.mp hn
      have hhead := hst e (List.mem_cons_self ..)
      have henc' : ∀ x ∈ es, (Utf8.encode x.eventId).isSome :=
        fun x hx => henc x (List.mem_cons_of_mem _ hx)
      rw [selectNew, eval_execute_bind, selectStored_eq (henc e (List.mem_cons_self ..)),
        Database.insertAll_cons, hhead]
      cases hs : Sql.stored e.eventId db with
      | none =>
          have ih := selectNew_insertAll db (d := d.appended e) hn henc' fun x hx => by
            have hne : x.eventId ≠ e.eventId := fun h => he (List.mem_map.mpr ⟨x, hx, h⟩)
            rw [stored_appended _ (hhead.trans hs), if_neg hne]
            exact hst x (List.mem_cons_of_mem _ hx)
          simp only
          rw [(clear_selectNew es).eval_bind]
          refine ih.trans ?_
          rcases eval (selectNew es) db with ⟨r | r, db'⟩ <;> rfl
      | some content =>
          obtain ⟨payload, createdNs⟩ := content
          by_cases hsame : payload = e.payload ∧ createdNs = e.createdNs
          · have ih := selectNew_insertAll db (d := d) hn henc'
              fun x hx => hst x (List.mem_cons_of_mem _ hx)
            obtain ⟨rfl, rfl⟩ := hsame
            dsimp only
            rw [if_pos rfl, eval_check_ok (raiseUnless_ok (u := ()).mpr ⟨rfl, rfl⟩)]
            exact ih
          · have hne : ¬ (payload, createdNs) = (e.payload, e.createdNs) := by
              rw [Prod.mk.injEq]
              exact hsame
            simp only [if_neg hne]
            rw [(clear_check _).eval_bind, raiseUnless, if_neg hsame]
            rfl

/-! ## The call -/

/-- What a returning `enqueue_many` is, on healthy storage: the events can be inserted, and what
they leave is within the limits. An empty call checks no limit. -/
structure Enqueues (limits : SpoolLimits) (db : Database) (events : List NewSpoolEvent) (n : Nat)
    (db' : Database) : Prop where
  valid : ∀ e ∈ events, validateNewEvent limits e = .ok ()
  encodable : ∀ e ∈ events, (Utf8.encode e.eventId).isSome
  inserted : db.insertAll events = some db'
  rows : events ≠ [] → db'.pending.length ≤ limits.maxPendingRows
  bytes : events ≠ [] → Sql.rowBytes db'.pending ≤ limits.maxPendingBytes
  keys : db'.pendingSeq ≤ sqliteIntegerMax
  count : db.pending.length + n = db'.pending.length

/-- The rows of new events have the bytes of the events. -/
theorem rowBytes_newRows (seq : Int) (es : List NewSpoolEvent) :
    Sql.rowBytes (newRows seq es) = eventBytes es := by
  induction es generalizing seq with
  | nil => rfl
  | cons e es ih =>
      have ih := ih (seq + 1)
      simp only [Sql.rowBytes, eventBytes, newRows, newRow, List.map_cons, List.sum_cons] at ih ⊢
      omega

/-- The payload bytes of the pending rows, after events have been appended. -/
theorem rowBytes_appendedAll (db : Database) (es : List NewSpoolEvent) :
    Sql.rowBytes (db.appendedAll es).pending = Sql.rowBytes db.pending + eventBytes es := by
  have h := rowBytes_newRows db.pendingSeq es
  rw [appendedAll_pending]
  unfold Sql.rowBytes at h ⊢
  rw [List.map_append, List.sum_append, h]

section
variable {limits : SpoolLimits} {db db' : Database} {n : Nat}

/-- The transaction of distinct events inserts them one after the other, within the limits. -/
theorem enqueueDistinct_iff {ds : List NewSpoolEvent} (hc : db.Coherent) (ho : db.Opened)
    (hn : (ds.map (·.eventId)).Nodup) (hv : ∀ e ∈ ds, validateNewEvent limits e = .ok ()) :
    eval (enqueueDistinct limits ds) db = (.ok n, db') ↔
      (∀ e ∈ ds, (Utf8.encode e.eventId).isSome) ∧ db.insertAll ds = some db' ∧
        db'.pending.length ≤ limits.maxPendingRows ∧
        Sql.rowBytes db'.pending ≤ limits.maxPendingBytes ∧
        db'.pendingSeq ≤ sqliteIntegerMax ∧ db.pending.length + n = db'.pending.length := by
  rw [eval_enqueueDistinct_ok hc ho hn hv]
  constructor
  · rintro ⟨new, hsel, rfl, rfl, hk, hrows, hbytes⟩
    obtain ⟨-, -, -, henc, -⟩ := selectNew_ok _ hsel
    have hins := selectNew_insertAll db (d := db) hn henc fun _ _ => rfl
    rw [hsel] at hins
    refine ⟨henc, hins, ?_, ?_, ?_, ?_⟩
    · simpa using hrows
    · rw [rowBytes_appendedAll]
      exact hbytes
    · rw [appendedAll_pendingSeq]
      exact hk
    · simp
  · rintro ⟨henc, hins, hrows, hbytes, hk, hcount⟩
    rw [selectNew_insertAll db (d := db) hn henc fun _ _ => rfl] at hins
    rcases hsel : eval (selectNew ds) db with ⟨e | new, db₁⟩
    · rw [hsel] at hins
      cases hins
    · rw [hsel] at hins
      obtain ⟨rfl, -⟩ := selectNew_ok _ hsel
      cases hins
      rw [appendedAll_pending, List.length_append, newRows_length] at hrows hcount
      rw [rowBytes_appendedAll] at hbytes
      rw [appendedAll_pendingSeq] at hk
      exact ⟨new, rfl, by omega, rfl, hk, hrows, hbytes⟩

/-- **A call returns exactly if its events can be inserted within the limits.** -/
theorem enqueueMany_iff {events : List NewSpoolEvent} (hc : db.Coherent) (ho : db.Opened) :
    eval (enqueueMany limits events) db = (.ok n, db') ↔ Enqueues limits db events n db' := by
  rw [enqueueMany]
  cases hvalid : events.forM (validateNewEvent limits) with
  | error e =>
      rw [eval_check_error rfl]
      constructor
      · intro h
        cases h
      · intro h
        rw [(forM_ok (u := ⟨⟩)).mpr h.valid] at hvalid
        cases hvalid
  | ok u =>
      have hv : ∀ e ∈ events, validateNewEvent limits e = .ok () := forM_ok.mp hvalid
      rw [eval_check_ok rfl]
      by_cases hne : events = []
      · subst hne
        rw [if_pos rfl]
        constructor
        · rintro ⟨⟩
          exact ⟨hv, fun e he => absurd he List.not_mem_nil, rfl, fun h => absurd rfl h,
            fun h => absurd rfl h, hc.pendingSeq_le, rfl⟩
        · intro h
          have hsame : db = db' := Option.some.inj h.inserted
          have hcount := h.count
          subst hsame
          obtain rfl : n = 0 := by omega
          rfl
      · rw [if_neg hne]
        cases hds : distinctEvents events with
        | error e =>
            rw [eval_check_error rfl]
            constructor
            · intro h
              cases h
            · intro h
              have hins := h.inserted
              rw [insertAll_distinct, hds] at hins
              cases hins
        | ok ds =>
            obtain ⟨hn, hmem, -, hall⟩ := foldlM_addDistinct hds List.nodup_nil
            have hmem' : ∀ e ∈ ds, e ∈ events :=
              fun e he => (hmem e he).resolve_left List.not_mem_nil
            have hins := insertAll_distinct db events
            rw [hds] at hins
            rw [eval_check_ok rfl, Session.eval_mapError_ok,
              enqueueDistinct_iff hc ho hn fun e he => hv e (hmem' e he)]
            constructor
            · rintro ⟨henc, hds, hrows, hbytes, hk, hcount⟩
              exact ⟨hv, fun e he => henc e (hall e he), hins.trans hds, fun _ => hrows,
                fun _ => hbytes, hk, hcount⟩
            · rintro ⟨-, henc, hds, hrows, hbytes, hk, hcount⟩
              exact ⟨fun e he => henc e (hmem' e he), hins.symm.trans hds, hrows hne, hbytes hne,
                hk, hcount⟩

/-- A returning call leaves a database that further calls can start from. -/
theorem enqueueMany_opened {events : List NewSpoolEvent} (hc : db.Coherent) (ho : db.Opened)
    (h : eval (enqueueMany limits events) db = (.ok n, db')) : db'.Coherent ∧ db'.Opened := by
  have hrun := (clear_enqueueMany limits events).run_nil db
  rw [h] at hrun
  obtain ⟨new, -, hdb, henq⟩ := enqueueMany_ok (c := ⟨db, []⟩) hc ho hrun
  obtain rfl : db' = db.appendedAll new := hdb
  have hc' := henq.coherent hc
  refine ⟨hc', hc'.counted.opened ?_⟩
  rw [appendedAll_isSome]
  exact ho.isSome

/-- Inserted events follow the rows that were there. -/
theorem insertAll_appendedAll : ∀ {es : List NewSpoolEvent} {db : Database},
    db.insertAll es = some db' → ∃ new, db' = db.appendedAll new
  | [], db, h => by
      cases h
      exact ⟨[], rfl⟩
  | e :: es, db, h => by
      rw [Database.insertAll_cons] at h
      split at h
      · obtain ⟨new, rfl⟩ := insertAll_appendedAll h
        exact ⟨e :: new, rfl⟩
      · split at h
        · exact insertAll_appendedAll h
        · cases h

/-- What an insertion uses grows with it. -/
structure Within (db db' : Database) : Prop where
  rows : db.pending.length ≤ db'.pending.length
  bytes : Sql.rowBytes db.pending ≤ Sql.rowBytes db'.pending
  keys : db.pendingSeq ≤ db'.pendingSeq

/-- An insertion keeps the file within what it can number. -/
theorem insertAll_within {es : List NewSpoolEvent} (h : db.insertAll es = some db') :
    Within db db' := by
  obtain ⟨new, rfl⟩ := insertAll_appendedAll h
  refine ⟨?_, ?_, ?_⟩
  · rw [appendedAll_pending, List.length_append]
    exact Nat.le_add_right ..
  · rw [rowBytes_appendedAll]
    exact Nat.le_add_right ..
  · rw [appendedAll_pendingSeq]
    omega

variable {a b : List NewSpoolEvent}

/-- The first part of a list that is enqueued is enqueued, and then the second part. -/
theorem Enqueues.split (h : Enqueues limits db (a ++ b) n db') :
    ∃ m k d, Enqueues limits db a m d ∧ Enqueues limits d b k db' ∧ n = m + k := by
  have hins := h.inserted
  rw [Database.insertAll, Insertion.insertAll_append] at hins
  obtain ⟨d, ha, hb⟩ := Option.bind_eq_some_iff.mp hins
  have hda := insertAll_within ha
  have hdb := insertAll_within hb
  have hrows := h.rows
  have hcount := h.count
  have hda_rows := hda.rows
  have hdb_rows := hdb.rows
  have hne : a ≠ [] → a ++ b ≠ [] := fun hne => List.append_ne_nil_of_left_ne_nil hne b
  have hne' : b ≠ [] → a ++ b ≠ [] := fun hne => List.append_ne_nil_of_right_ne_nil a hne
  refine ⟨d.pending.length - db.pending.length, db'.pending.length - d.pending.length, d,
    ⟨fun e he => h.valid e (List.mem_append_left b he),
      fun e he => h.encodable e (List.mem_append_left b he), ha,
      fun ha => hdb_rows.trans (hrows (hne ha)),
      fun ha => hdb.bytes.trans (h.bytes (hne ha)), hdb.keys.trans h.keys, by omega⟩,
    ⟨fun e he => h.valid e (List.mem_append_right a he),
      fun e he => h.encodable e (List.mem_append_right a he), hb, fun hb => hrows (hne' hb),
      fun hb => h.bytes (hne' hb), h.keys, by omega⟩, by omega⟩

/-- Two lists that are enqueued one after the other are enqueued together. -/
theorem Enqueues.append {m k : Nat} {d : Database} (ha : Enqueues limits db a m d)
    (hb : Enqueues limits d b k db') : Enqueues limits db (a ++ b) (m + k) db' := by
  have hlast : ∀ {P : Database → Prop}, (a ≠ [] → P d) → (b ≠ [] → P db') →
      a ++ b ≠ [] → P db' := by
    intro P hpa hpb hne
    by_cases hbnil : b = []
    · subst hbnil
      have hsame : d = db' := Option.some.inj hb.inserted
      rw [List.append_nil] at hne
      exact hsame ▸ hpa hne
    · exact hpb hbnil
  refine ⟨fun e he => (List.mem_append.mp he).elim (ha.valid e) (hb.valid e),
    fun e he => (List.mem_append.mp he).elim (ha.encodable e) (hb.encodable e), ?_,
    hlast (P := fun d => d.pending.length ≤ limits.maxPendingRows) ha.rows hb.rows,
    hlast (P := fun d => Sql.rowBytes d.pending ≤ limits.maxPendingBytes) ha.bytes hb.bytes,
    hb.keys, ?_⟩
  · rw [Database.insertAll, Insertion.insertAll_append]
    exact Option.bind_eq_some_iff.mpr ⟨d, ha.inserted, hb.inserted⟩
  · have hca := ha.count
    have hcb := hb.count
    omega

/-- What has been enqueued can be enqueued again, and nothing changes. -/
theorem Enqueues.again (h : Enqueues limits db a n db') : Enqueues limits db' a 0 db' :=
  ⟨h.valid, h.encodable, Insertion.insertAll_again spoolInsertion_lawful h.inserted, h.rows,
    h.bytes, h.keys, rfl⟩

end

/-! ## What it raises -/

/-- A failure of the storage, as an operation of the spool reports it. -/
structure WrappedFailure (e : Exc) : Prop where
  type : e.type = .spoolError ∨ e.type = .spoolDiskFullError ∨ e.type = .spoolReadOnlyError
  cause : IsStorageFailure e

/-- The classification knows three types. -/
theorem classifyStorageError_type (e : Exc) (message : PyStr) (freeBytes : Option Int) :
    (classifyStorageError e message freeBytes).type = .spoolError ∨
      (classifyStorageError e message freeBytes).type = .spoolDiskFullError ∨
      (classifyStorageError e message freeBytes).type = .spoolReadOnlyError := by
  unfold classifyStorageError
  dsimp only
  split
  · exact .inr (.inl rfl)
  · split
    · exact .inr (.inr rfl)
    · split
      · split
        · exact .inr (.inl rfl)
        · exact .inl rfl
      · exact .inl rfl

/-- An error that carries a report of SQLite is SQLite's own. -/
def IsRaw (e : Exc) : Prop := e.cause ≠ none → e.isSqliteError

/-- A raw storage failure leaves as one of these. -/
theorem IsRaw.wrapped {e : Exc} (h : IsRaw e) (hf : IsStorageFailure e) (message : PyStr)
    (freeBytes : Option Int) : WrappedFailure (classified message freeBytes e) := by
  have hcause : IsStorageFailure (classified message freeBytes e) := by
    obtain ⟨f, hf⟩ := hf
    exact ⟨f, (classified_cause message freeBytes e).trans hf⟩
  refine ⟨?_, hcause⟩
  obtain ⟨f, hf⟩ := hf
  rw [classified, if_pos (h (by rw [hf]; exact Option.some_ne_none _))]
  exact classifyStorageError_type e message freeBytes

/-- **`enqueue_many` is a homomorphism and idempotent**, from every state a spool file can reach:
a list is enqueued exactly if its parts are, one after the other, with the same database in the end
and the sum of their results; and a list that was enqueued is enqueued again without effect. -/
theorem enqueueMany_homomorphism (calls : List SpoolCall) (limits : SpoolLimits)
    (hopen : (SpoolFile.create.runCalls calls).limits = some limits) (a b : List NewSpoolEvent) :
    (∀ n db', eval (enqueueMany limits (a ++ b)) (SpoolFile.create.runCalls calls).db =
      (.ok n, db') ↔
      ∃ m k d, eval (enqueueMany limits a) (SpoolFile.create.runCalls calls).db = (.ok m, d) ∧
        eval (enqueueMany limits b) d = (.ok k, db') ∧ n = m + k) ∧
    ∀ n d, eval (enqueueMany limits a) (SpoolFile.create.runCalls calls).db = (.ok n, d) →
      eval (enqueueMany limits a) d = (.ok 0, d) := by
  have hsound := SpoolFile.runCalls_sound calls SpoolFile.create_sound
  generalize SpoolFile.create.runCalls calls = f at hsound hopen ⊢
  have hc := hsound.coherent
  have ho := hsound.opened (by rw [hopen]; rfl)
  constructor
  · intro n db'
    rw [enqueueMany_iff hc ho]
    constructor
    · intro h
      obtain ⟨m, k, d, ha, hb, hsum⟩ := h.split
      have hra := (enqueueMany_iff hc ho).mpr ha
      obtain ⟨hcd, hod⟩ := enqueueMany_opened hc ho hra
      exact ⟨m, k, d, hra, (enqueueMany_iff hcd hod).mpr hb, hsum⟩
    · rintro ⟨m, k, d, ha, hb, rfl⟩
      obtain ⟨hcd, hod⟩ := enqueueMany_opened hc ho ha
      exact ((enqueueMany_iff hc ho).mp ha).append ((enqueueMany_iff hcd hod).mp hb)
  · intro n d h
    obtain ⟨hcd, hod⟩ := enqueueMany_opened hc ho h
    exact (enqueueMany_iff hcd hod).mpr ((enqueueMany_iff hc ho).mp h).again

/-- A repeated id, in a spool that has just been opened. -/
theorem enqueueMany_homomorphism_opened :
    let f := SpoolFile.create.runCalls [⟨.open twoRows .standard none, []⟩]
    let a : List NewSpoolEvent := [⟨py "a", [123], 5⟩]
    let b : List NewSpoolEvent := [⟨py "a", [123], 5⟩, ⟨py "b", [125], 6⟩]
    (∀ n db', eval (enqueueMany twoRows (a ++ b)) f.db = (.ok n, db') ↔
      ∃ m k d, eval (enqueueMany twoRows a) f.db = (.ok m, d) ∧
        eval (enqueueMany twoRows b) d = (.ok k, db') ∧ n = m + k) ∧
    ∀ n d, eval (enqueueMany twoRows a) f.db = (.ok n, d) →
      eval (enqueueMany twoRows a) d = (.ok 0, d) :=
  enqueueMany_homomorphism [⟨.open twoRows .standard none, []⟩] twoRows rfl _ _

end QuestDbWriter
