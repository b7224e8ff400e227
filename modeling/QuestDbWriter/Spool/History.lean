import QuestDbWriter.Spool.Specs
import QuestDbWriter.Lib.Transition

/-!
# Histories of a spool file

A spool file under any sequence of operations: opened with any limits, used, closed and opened
again, where every statement of every operation may fail (`SpoolCall.faults`). The state carries
the sequences assigned so far, so that "never reused" can be said. `SpoolFile.Sound` is the
invariant of every history; `SpoolFile.applied` says what one call does to it.
-/

namespace QuestDbWriter

open Lib Database SQLiteSpool
open Session (eval run Raises)

/-! ## Failures that are not the schema's -/

namespace SQLiteSpool

section
variable {α : Type}

/-- The operation never raises a violated UNIQUE constraint, whatever the database. -/
abbrev Unclashing (p : SpoolM α) : Prop := Raises NotUnique p

/-- A check clashes with no key where what it raises is no clash. -/
theorem unclashing_check {x : Except Exc α} (h : RaisesOnly NotUnique x) :
    Unclashing (check x) := by
  cases x with
  | ok a => exact .pure _
  | error e => exact .throw (h e rfl)

/-- A failure of the storage is no clash of keys. -/
theorem notUnique_storageFailure (f : StorageFault) : NotUnique (storageFailure f) := by
  simp [NotUnique, storageFailure]

/-- A statement clashes with no key where what it raises is no clash. -/
theorem unclashing_execute {stmt : Database → Except Exc (α × Database)}
    (h : ∀ db, RaisesOnly NotUnique (stmt db)) : Unclashing (execute stmt) :=
  .execute notUnique_storageFailure fun db e he => h db e he

/-- Classifying makes no clash out of what was none. -/
theorem notUnique_classified {e : Exc} (h : NotUnique e) (message : PyStr)
    (freeBytes : Option Int) : NotUnique (classified message freeBytes e) := by
  intro column
  rw [classified_cause]
  exact h column

/-- Wrapping makes no clash out of what was none. -/
theorem notUnique_wrapped {e : Exc} (h : NotUnique e) (message : PyStr) :
    NotUnique (wrapped message e) := by
  intro column
  rw [wrapped_cause]
  exact h column

/-- An exception without an SQLite error is no clash. -/
theorem notUnique_raise {type : ExcType} {message : PyStr} :
    NotUnique { type, message } := by simp [NotUnique]

/-- A check of an argument is no clash. -/
theorem unclashing_raiseUnless {p : Prop} [Decidable p] {type : ExcType} {message : PyStr} :
    RaisesOnly NotUnique (raiseUnless p { type, message }) :=
  .raiseUnless fun _ => notUnique_raise

/-- A refused list of keys is no clash. -/
theorem sequenceTuple_raises (seqs : List Int) : RaisesOnly NotUnique (sequenceTuple seqs) :=
  (RaisesOnly.forM (fun _ => unclashing_raiseUnless) _).bind fun _ _ => unclashing_raiseUnless

/-- `P` holds of a failure of the storage and of an error that reports nothing of SQLite's. -/
structure Covers (P : Exc → Prop) : Prop where
  failure : ∀ f, P (storageFailure f)
  plain : ∀ type message, P { type, message }

/-- A check of an argument is covered. -/
theorem Covers.check {P : Exc → Prop} (h : Covers P) {p : Prop} [Decidable p] {type : ExcType}
    {message : PyStr} : Raises P (check (raiseUnless p { type, message })) := by
  unfold raiseUnless
  split
  · exact .pure _
  · exact .throw (h.plain _ _)

/-- Reading the counters is covered. -/
theorem Covers.statsRow {P : Exc → Prop} (h : Covers P) : Raises P statsRow := by
  refine .bind (.execute h.failure fun _ => RaisesOnly.pure _) fun s => ?_
  cases s with
  | none => exact .throw (h.plain _ _)
  | some s => exact .pure _

/-- Looking up which events are new is covered. -/
theorem Covers.selectNew {P : Exc → Prop} (h : Covers P) : ∀ events, Raises P (selectNew events)
  | [] => .pure _
  | e :: events => by
      have hstmt : ∀ db, RaisesOnly P (Sql.selectStored e.eventId db) := by
        intro db
        refine .bind ?_ fun _ _ => .pure _
        intro x hx
        rw [bindText, encodeUtf8] at hx
        split at hx
        · cases hx
        · cases hx
          exact h.plain _ _
      refine .bind (.execute h.failure hstmt) fun found => ?_
      cases found with
      | none => exact .bind (h.selectNew events) fun _ => .pure _
      | some content => exact .bind h.check fun _ => h.selectNew events

/-- What is no clash covers the failures of the storage. -/
theorem covers_notUnique : Covers NotUnique :=
    ⟨notUnique_storageFailure, fun _ _ => notUnique_raise⟩

/-- Events of one id and two contents are no clash. -/
theorem distinctEvents_raises (events : List NewSpoolEvent) :
    RaisesOnly NotUnique (distinctEvents events) := by
  have hfold : ∀ (es acc : List NewSpoolEvent),
      RaisesOnly NotUnique (es.foldlM addDistinct acc) := by
    intro es
    induction es with
    | nil => exact fun acc => .pure _
    | cons e es ih =>
        intro acc
        refine RaisesOnly.bind ?_ fun acc' _ => ih acc'
        intro e' he
        unfold addDistinct at he
        split at he
        · cases he
        · split at he <;> cases he
          exact notUnique_raise
  exact hfold events []

/-- Deleting a pending row is no clash. -/
theorem deletePending_raises (s : Int) (db : Database) :
    RaisesOnly NotUnique (Sql.deletePending s db) := by
  refine (bindInteger_raises _).bind fun _ _ => ?_
  split
  · exact .pure _
  · exact (updateStats_raises _ _).bind fun _ _ => .pure _

/-- Recording an attempt is no clash. -/
theorem updateAttempt_raises (text : PyStr) (flag : Bool) (s : Int) (db : Database) :
    RaisesOnly NotUnique (Sql.updateAttempt text flag s db) :=
  (bindText_raises _).bind fun _ _ => (bindInteger_raises _).bind fun _ _ => .pure _

/-- Deleting a dead letter is no clash. -/
theorem deleteDeadLetterBy_raises (key : DeadLetterRecord → Int) (k : Int) (db : Database) :
    RaisesOnly NotUnique (Sql.deleteDeadLetterBy key k db) := by
  refine (bindInteger_raises _).bind fun _ _ => ?_
  split
  · exact .pure _
  · exact (updateStats_raises _ _).bind fun _ _ => .pure _

/-- A statement on one pending row clashes with no key. -/
theorem unclashing_onPending {stmt : Int → Database → Except Exc (Nat × Database)}
    (h : ∀ s db, RaisesOnly NotUnique (stmt s db)) (s : Int) : Unclashing (onPending stmt s) :=
  (unclashing_execute (h s)).bind fun _ => unclashing_check unclashing_raiseUnless

/-- `mark_delivered` clashes with no key. -/
theorem unclashing_markDelivered (seqs : List Int) : Unclashing (markDelivered seqs) := by
  refine (unclashing_check (sequenceTuple_raises seqs)).bind fun _ => ?_
  split
  · exact .pure _
  · exact (((Raises.forM (unclashing_onPending deletePending_raises) _).transaction
      notUnique_storageFailure).mapError fun _ h => notUnique_classified h _ _).bind
        fun _ => .pure _

/-- `record_attempt` clashes with no key. -/
theorem unclashing_recordAttempt (seqs : List Int) (text : PyStr) (flag : Bool) :
    Unclashing (recordAttempt seqs text flag) := by
  refine (unclashing_check (sequenceTuple_raises seqs)).bind fun _ =>
    (unclashing_check unclashing_raiseUnless).bind fun _ => ?_
  split
  · exact .pure _
  · exact (((Raises.forM (unclashing_onPending (updateAttempt_raises text flag)) _).transaction
      notUnique_storageFailure).mapError fun _ h => notUnique_classified h _ _).bind
        fun _ => .pure _

/-- `delete_dead_letters` clashes with no key. -/
theorem unclashing_deleteDeadLetters (seqs : List Int) : Unclashing (deleteDeadLetters seqs) := by
  refine (unclashing_check (sequenceTuple_raises seqs)).bind fun _ => ?_
  split
  · exact .pure _
  · exact (((Raises.forM (fun _ => (unclashing_execute (deleteDeadLetterBy_raises _ _)).bind
      fun _ => unclashing_check unclashing_raiseUnless) _).transaction
      notUnique_storageFailure).mapError fun _ h => notUnique_wrapped h _).bind fun _ => .pure _

/-- Opening the spool clashes with no key. -/
theorem unclashing_openSpool (pragmas : Pragmas) (freeBytes : Option Int) :
    Unclashing (openSpool pragmas freeBytes) := by
  have touch : Unclashing (Session.touch storageFailure : SpoolM Unit) :=
    unclashing_execute fun _ => .pure _
  have count : Unclashing (execute fun db => pure (Sql.counts db, db)) :=
    unclashing_execute fun _ => .pure _
  refine Raises.mapError (P := NotUnique) ?_ fun _ h => notUnique_classified h _ _
  refine touch.bind fun _ => touch.bind fun _ => touch.bind fun _ => touch.bind fun _ =>
    (unclashing_check unclashing_raiseUnless).bind fun _ => touch.bind fun _ => touch.bind fun _ =>
    (unclashing_check unclashing_raiseUnless).bind fun _ =>
    Raises.transaction notUnique_storageFailure ?_
  refine (unclashing_execute fun _ => .pure _).bind fun version =>
    (unclashing_check unclashing_raiseUnless).bind fun _ => (Raises.forM (fun _ => touch) _).bind
    fun _ => (unclashing_execute fun _ => .pure _).bind fun _ => (unclashing_execute fun _ =>
    .pure _).bind fun _ => (unclashing_check unclashing_raiseUnless).bind fun _ => Raises.bind
    (count.bind fun _ => count.bind fun _ => unclashing_execute fun db =>
      (updateStats_raises _ _).bind fun _ _ => .pure _) fun _ => ?_
  split
  · exact unclashing_execute fun _ => .pure _
  · exact .pure _

end

section
variable {limits : SpoolLimits} {c c' : Conn Database StorageFault} {e : Exc}

/-- What an operation raises on any storage is a failure of it, or raised on healthy storage. -/
theorem notUnique_of_clear {α : Type} {p : SpoolM α} (hp : Clear p)
    (h : ∀ e, (eval p c.db).1 = .error e → NotUnique e) (hr : run p c = (.error e, c')) :
    NotUnique e := by
  rcases hp.error hr with ⟨f, hf⟩ | he
  · intro column hcol
    rw [hf] at hcol
    cases hcol
  · exact h e he

/-- Inserting new events clashes with no key on a coherent file. -/
theorem enqueueDistinct_notUnique {db db' : Database} {ds : List NewSpoolEvent}
    (hc : db.Coherent) (ho : db.Opened) (hn : (ds.map (·.eventId)).Nodup)
    (hv : ∀ x ∈ ds, validateNewEvent limits x = .ok ())
    (h : eval (enqueueDistinct limits ds) db = (.error e, db')) : NotUnique e := by
  rw [eval_enqueueDistinct hc ho hn hv] at h
  rcases hsel : eval (selectNew ds) db with ⟨e' | new, db₁⟩
  · rw [hsel] at h
    cases h
    exact covers_notUnique.selectNew ds ⟨db, []⟩ e (congrArg Prod.fst hsel)
  · rw [hsel] at h
    dsimp only at h
    cases hcap : checkCapacity limits (Sql.counts db) new with
    | error e' =>
        rw [hcap] at h
        cases h
        intro column
        rw [(checkCapacity_raises _ _ e hcap).2]
        exact nofun
    | ok u =>
        rw [hcap] at h
        by_cases hk : db.pendingSeq + new.length ≤ sqliteIntegerMax
        · rw [if_pos hk] at h
          cases h
        · rw [if_neg hk] at h
          cases h
          exact notUnique_storageFailure _

/-- **The UNIQUE constraint of `pending` never fires**: `enqueue_many` inserts unused ids only. -/
theorem enqueueMany_notUnique {events : List NewSpoolEvent} (hc : c.db.Coherent)
    (ho : c.db.Opened) (hr : run (enqueueMany limits events) c = (.error e, c')) :
    NotUnique e := by
  refine notUnique_of_clear (clear_enqueueMany limits events) (fun e he => ?_) hr
  rw [enqueueMany] at he
  have hvraises : RaisesOnly NotUnique (events.forM (validateNewEvent limits)) :=
    .forM (fun _ => unclashing_raiseUnless.bind fun _ _ => unclashing_raiseUnless.bind fun _ _ =>
      unclashing_raiseUnless.bind fun _ _ => unclashing_raiseUnless) _
  cases hvalid : events.forM (validateNewEvent limits) with
  | error e' =>
      rw [eval_check_error hvalid] at he
      cases he
      exact hvraises e hvalid
  | ok u =>
      rw [eval_check_ok hvalid] at he
      split at he
      · cases he
      · cases hds : distinctEvents events with
        | error e' =>
            rw [eval_check_error hds] at he
            cases he
            exact distinctEvents_raises events e hds
        | ok ds =>
            rw [eval_check_ok hds, Session.eval_mapError] at he
            rcases hdis : eval (enqueueDistinct limits ds) c.db with ⟨r, db'⟩
            rw [hdis] at he
            cases r with
            | ok n => cases he
            | error e' =>
                cases he
                obtain ⟨hn, hmem, -, -⟩ := foldlM_addDistinct hds List.nodup_nil
                have hv := (forM_ok (u := ⟨⟩)).mp hvalid
                exact notUnique_classified (enqueueDistinct_notUnique hc ho hn
                  (fun x hx => hv x ((hmem x hx).resolve_left (by simp))) hdis) _ _

/-- **The UNIQUE constraints of `dead_letter` never fire**: a moved row is in `pending` only. -/
theorem moveToDeadLetter_notUnique {seqs : List Int} {text : PyStr} {failedNs : Int} {flag : Bool}
    (hc : c.db.Coherent) (ho : c.db.Opened)
    (hr : run (moveToDeadLetter limits seqs text failedNs flag) c = (.error e, c')) :
    NotUnique e := by
  refine notUnique_of_clear (clear_moveToDeadLetter limits seqs text failedNs flag)
    (fun e he => ?_) hr
  rw [moveToDeadLetter] at he
  cases hseq : sequenceTuple seqs with
  | error e' =>
      rw [eval_check_error hseq] at he
      cases he
      exact sequenceTuple_raises seqs e hseq
  | ok u =>
      rw [eval_check_ok hseq] at he
      cases htext : requireErrorText text with
      | error e' =>
          rw [eval_check_error htext] at he
          cases he
          exact unclashing_raiseUnless e htext
      | ok u =>
          rw [eval_check_ok htext] at he
          cases hfailed : sqliteInteger "failed_ns" failedNs with
          | error e' =>
              rw [eval_check_error hfailed] at he
              cases he
              exact unclashing_raiseUnless e hfailed
          | ok u =>
              rw [eval_check_ok hfailed] at he
              split at he
              · cases he
              · rw [Session.eval_mapError] at he
                rcases eval_moveTransaction limits text failedNs flag hc ho
                    (sequenceTuple_ok.mp hseq).2 with
                  ⟨rs, k, -, -, hev, -⟩ | ⟨e', hu, hev⟩
                · rw [hev] at he
                  cases he
                · rw [hev] at he
                  cases he
                  exact notUnique_classified hu _ _

end

end SQLiteSpool

/-! ## Histories -/

/-- An operation on a spool file. `open` is a new `SQLiteSpool` on the file. -/
inductive SpoolOp where
  | open (limits : SpoolLimits) (pragmas : Pragmas) (freeBytes : Option Int)
  | enqueueMany (events : List NewSpoolEvent)
  | recordAttempt (sequences : List Int) (lastError : PyStr) (deliveryUncertain : Bool)
  | markDelivered (sequences : List Int)
  | moveToDeadLetter (sequences : List Int) (lastError : PyStr) (failedNs : Int)
      (deliveryUncertain : Bool)
  | deleteDeadLetters (sequences : List Int)
  | close

/-- One call: the operation and the storage's answers to its statements. -/
structure SpoolCall where
  op : SpoolOp
  faults : List (Option StorageFault)

/-- A spool file: its database, the limits of the open handle, and the sequences assigned to
committed rows so far, in the order of their assignment. -/
structure SpoolFile where
  db : Database
  limits : Option SpoolLimits
  assigned : List Int

namespace SpoolFile

/-- A new file. -/
def create : SpoolFile := { db := .fresh, limits := none, assigned := [] }

/-- The sequences of pending rows that were not there before. -/
def newSequences (before after : Database) : List Int :=
  (after.pending.map (·.sequence)).filter (· ∉ before.pending.map (·.sequence))

/-- Run an operation on the open handle. -/
def perform (f : SpoolFile) (faults : List (Option StorageFault)) {α : Type} (p : SpoolM α) :
    Except Exc Unit × SpoolFile :=
  let (r, c) := run p ⟨f.db, faults⟩
  (r.map fun _ => (), { f with db := c.db, assigned := f.assigned ++ newSequences f.db c.db })

/-- What `_db` raises on a closed handle. -/
def closed : Exc := { type := .spoolClosedError, message := py "SQLite spool is closed" }

/-- Run one call. -/
def call (f : SpoolFile) (c : SpoolCall) : Except Exc Unit × SpoolFile :=
  match c.op, f.limits with
  | .close, _ => (.ok (), { f with limits := none })
  | .open limits pragmas freeBytes, _ =>
    match perform { f with limits := none } c.faults (openSpool pragmas freeBytes) with
    | (.ok _, f') => (.ok (), { f' with limits := some limits })
    | (.error e, f') => (.error e, f')
  | _, none => (.error closed, f)
  | .enqueueMany events, some limits => perform f c.faults (enqueueMany limits events)
  | .recordAttempt sequences text flag, some _ =>
    perform f c.faults (recordAttempt sequences text flag)
  | .markDelivered sequences, some _ => perform f c.faults (markDelivered sequences)
  | .moveToDeadLetter sequences text failedNs flag, some limits =>
    perform f c.faults (moveToDeadLetter limits sequences text failedNs flag)
  | .deleteDeadLetters sequences, some _ => perform f c.faults (deleteDeadLetters sequences)

/-- Run calls one after the other, whether they return or raise. -/
def runCalls (f : SpoolFile) (calls : List SpoolCall) : SpoolFile :=
  calls.foldl (fun f c => (f.call c).2) f

/-- The invariant of every history. -/
structure Sound (f : SpoolFile) : Prop where
  coherent : f.db.Coherent
  opened : f.limits.isSome → f.db.Opened
  assignedSorted : f.assigned.Pairwise (· < ·)
  assigned_le : ∀ s ∈ f.assigned, s ≤ f.db.pendingSeq
  /-- Pending rows were assigned their sequences in the order they are in. -/
  pending_assigned : (f.db.pending.map (·.sequence)).Sublist f.assigned

/-- A new file is sound. -/
theorem create_sound : create.Sound where
  coherent := fresh_coherent
  opened h := by cases h
  assignedSorted := .nil
  assigned_le := by simp [create]
  pending_assigned := by simp [create, Database.fresh]

/-- An operation that removes rows, or none, assigns no sequence. -/
theorem newSequences_nil {before after : Database}
    (h : (after.pending.map (·.sequence)).Sublist (before.pending.map (·.sequence))) :
    newSequences before after = [] := by
  rw [newSequences, List.filter_eq_nil_iff]
  intro s hs
  simpa using h.subset hs

/-- `enqueue_many` assigns the sequences that follow the last one. -/
theorem newSequences_appendedAll {db : Database} (hc : db.Coherent) (es : List NewSpoolEvent) :
    newSequences db (db.appendedAll es) = (newRows db.pendingSeq es).map (·.sequence) := by
  rw [newSequences, appendedAll_pending, List.map_append, List.filter_append]
  have hold : ((db.pending.map (·.sequence)).filter
      (· ∉ db.pending.map (·.sequence))) = [] := by
    rw [List.filter_eq_nil_iff]
    intro s hs
    simpa using hs
  have hnew : (((newRows db.pendingSeq es).map (·.sequence)).filter
      (· ∉ db.pending.map (·.sequence))) = (newRows db.pendingSeq es).map (·.sequence) := by
    rw [List.filter_eq_self]
    intro s hs
    obtain ⟨r, hr, rfl⟩ := List.mem_map.mp hs
    have hlt := ((newRows_sequences db.pendingSeq es).2 r hr).1
    refine decide_eq_true fun hmem => ?_
    obtain ⟨p, hp, hpe⟩ := List.mem_map.mp hmem
    have := (hc.pendingKeys p hp).2
    omega
  rw [hold, hnew, List.nil_append]

/-- What one call does: the invariant stays, and a call that raises changes nothing, and never
raises a violated UNIQUE constraint. -/
structure Applied (f : SpoolFile) (r : Except Exc Unit × SpoolFile) : Prop where
  sound : r.2.Sound
  raised : ∀ e, r.1 = .error e → r.2.db = f.db ∧ NotUnique e

/-- A session that returns into a coherent, opened database, and otherwise changes nothing. -/
theorem perform_applied {f : SpoolFile} (h : f.Sound) (faults : List (Option StorageFault))
    {α : Type} {p : SpoolM α} (hatomic : Session.Atomic p)
    (hunique : ∀ e c', run p ⟨f.db, faults⟩ = (.error e, c') → NotUnique e)
    (hok : ∀ a c', run p ⟨f.db, faults⟩ = (.ok a, c') →
      c'.db.Coherent ∧ (f.limits.isSome → c'.db.Opened) ∧ f.db.pendingSeq ≤ c'.db.pendingSeq ∧
      (newSequences f.db c'.db).Pairwise (· < ·) ∧
      (∀ s ∈ newSequences f.db c'.db, f.db.pendingSeq < s ∧ s ≤ c'.db.pendingSeq) ∧
      (c'.db.pending.map (·.sequence)).Sublist
        (f.db.pending.map (·.sequence) ++ newSequences f.db c'.db)) :
    Applied f (f.perform faults p) := by
  rcases hrun : run p ⟨f.db, faults⟩ with ⟨r, c'⟩
  rw [perform, hrun]
  cases r with
  | error e =>
      have hdb : c'.db = f.db := hatomic _ _ _ hrun
      have hnil : newSequences f.db f.db = [] := newSequences_nil (.refl _)
      simp only [hdb]
      refine ⟨⟨h.coherent, fun hs => h.opened hs, ?_, ?_, ?_⟩, ?_⟩
      · simpa only [hnil, List.append_nil] using h.assignedSorted
      · simpa only [hnil, List.append_nil] using h.assigned_le
      · simpa only [hnil, List.append_nil] using h.pending_assigned
      · rintro e' he
        cases he
        exact ⟨rfl, hunique e c' hrun⟩
  | ok a =>
      obtain ⟨hc, ho, hle, hsorted, hnew, hsub⟩ := hok a c' hrun
      refine ⟨⟨hc, ho, ?_, ?_, ?_⟩, fun e he => by cases he⟩
      · rw [List.pairwise_append]
        refine ⟨h.assignedSorted, hsorted, fun s hs t ht => ?_⟩
        have := h.assigned_le s hs
        have := (hnew t ht).1
        omega
      · intro s hs
        show s ≤ c'.db.pendingSeq
        rcases List.mem_append.mp hs with hs | hs
        · have := h.assigned_le s hs
          omega
        · exact (hnew s hs).2
      · exact hsub.trans (h.pending_assigned.append_right _)

/-- An operation that returns with rows removed at most, and no sequence assigned. -/
theorem removing_ok {f : SpoolFile} {db' : Database} (hc : db'.Coherent)
    (ho : f.limits.isSome → db'.Opened) (hseq : db'.pendingSeq = f.db.pendingSeq)
    (hsub : (db'.pending.map (·.sequence)).Sublist (f.db.pending.map (·.sequence))) :
    db'.Coherent ∧ (f.limits.isSome → db'.Opened) ∧ f.db.pendingSeq ≤ db'.pendingSeq ∧
      (newSequences f.db db').Pairwise (· < ·) ∧
      (∀ s ∈ newSequences f.db db', f.db.pendingSeq < s ∧ s ≤ db'.pendingSeq) ∧
      (db'.pending.map (·.sequence)).Sublist
        (f.db.pending.map (·.sequence) ++ newSequences f.db db') := by
  rw [newSequences_nil hsub, hseq, List.append_nil]
  exact ⟨hc, ho, le_refl _, .nil, by simp, hsub⟩

/-- **Every call keeps the invariant.** -/
theorem call_applied {f : SpoolFile} (h : f.Sound) (c : SpoolCall) : Applied f (f.call c) := by
  obtain ⟨op, faults⟩ := c
  have hclosed : Applied f (.error closed, f) :=
    ⟨h, fun e he => by cases he; exact ⟨rfl, notUnique_raise⟩⟩
  cases op with
  | close =>
      exact ⟨{ h with opened := fun hs => nomatch hs }, fun e he => nomatch he⟩
  | «open» limits pragmas freeBytes =>
      have happ := perform_applied (f := { f with limits := none })
        { h with opened := fun hs => nomatch hs } faults (atomic_openSpool pragmas freeBytes)
        (fun e c' hr => unclashing_openSpool pragmas freeBytes _ e (by rw [hr])) fun u c' hr => by
          obtain ⟨hdb, hcoh, -⟩ := openSpool_ok (c := ⟨f.db, faults⟩) h.coherent hr
          exact removing_ok hcoh (fun hs => nomatch hs) (by rw [hdb]; rfl) (by rw [hdb]; rfl)
      simp only [call]
      rcases hper : perform { f with limits := none } faults (openSpool pragmas freeBytes)
        with ⟨r, f'⟩
      rw [hper] at happ
      cases r with
      | error e => exact ⟨happ.sound, happ.raised⟩
      | ok u =>
          refine ⟨{ happ.sound with opened := fun _ => ?_ }, fun e he => nomatch he⟩
          rcases hrun : run (openSpool pragmas freeBytes) ⟨f.db, faults⟩ with ⟨r, c'⟩
          simp only [perform, hrun] at hper
          cases r with
          | error e => cases hper
          | ok u =>
              cases hper
              exact (openSpool_ok (c := ⟨f.db, faults⟩) h.coherent hrun).2.2
  | enqueueMany events =>
      simp only [call]
      cases hl : f.limits with
      | none => exact hclosed
      | some limits =>
          have ho := h.opened (by rw [hl]; rfl)
          refine perform_applied h faults (atomic_enqueueMany limits events)
            (fun e c' hr => enqueueMany_notUnique (c := ⟨f.db, faults⟩) h.coherent ho hr)
            fun n c' hr => ?_
          obtain ⟨new, -, hdb, henq⟩ := enqueueMany_ok (c := ⟨f.db, faults⟩) h.coherent ho hr
          have hcoh := henq.coherent h.coherent
          have hseq := newSequences_appendedAll h.coherent new
          obtain ⟨hsorted, hbounds⟩ := newRows_sequences f.db.pendingSeq new
          simp only at hdb
          rw [hdb, hseq]
          refine ⟨hcoh, fun _ => hcoh.counted.opened ?_, ?_, hsorted, fun s hs => ?_, ?_⟩
          · rw [appendedAll_isSome]
            exact ho.isSome
          · rw [appendedAll_pendingSeq]
            omega
          · obtain ⟨r, hr, rfl⟩ := List.mem_map.mp hs
            rw [appendedAll_pendingSeq]
            exact hbounds r hr
          · rw [appendedAll_pending, List.map_append]
  | recordAttempt seqs text flag =>
      simp only [call]
      cases hl : f.limits with
      | none => exact hclosed
      | some limits =>
          have ho := h.opened (by rw [hl]; rfl)
          refine perform_applied h faults (atomic_recordAttempt seqs text flag)
            (fun e c' hr => unclashing_recordAttempt seqs text flag _ e (by rw [hr]))
            fun n c' hr => ?_
          obtain ⟨hdb, hcoh, -, -⟩ := recordAttempt_ok (c := ⟨f.db, faults⟩) h.coherent hr
          obtain ⟨-, hps, hst, -⟩ := attemptedAll_frame f.db text flag seqs
          refine removing_ok hcoh (fun _ => hcoh.counted.opened ?_) ?_ ?_
          · rw [hdb, hst]
            exact ho.isSome
          · rw [hdb, hps]
          · rw [hdb, attemptedAll_map (·.sequence) text flag fun _ => rfl]
  | markDelivered seqs =>
      simp only [call]
      cases hl : f.limits with
      | none => exact hclosed
      | some limits =>
          have ho := h.opened (by rw [hl]; rfl)
          refine perform_applied h faults (atomic_markDelivered seqs)
            (fun e c' hr => unclashing_markDelivered seqs _ e (by rw [hr])) fun n c' hr => ?_
          obtain ⟨hdb, hcoh, -, -, -⟩ := markDelivered_ok (c := ⟨f.db, faults⟩) h.coherent hr
          refine removing_ok hcoh (fun _ => hcoh.counted.opened ?_) ?_ ?_
          · rw [hdb, removedAll_isSome]
            exact ho.isSome
          · rw [hdb, removedAll_pendingSeq]
          · rw [hdb, removedAll_pending]
            exact List.filter_sublist.map _
  | moveToDeadLetter seqs text failedNs flag =>
      simp only [call]
      cases hl : f.limits with
      | none => exact hclosed
      | some limits =>
          have ho := h.opened (by rw [hl]; rfl)
          refine perform_applied h faults (atomic_moveToDeadLetter limits seqs text failedNs flag)
            (fun e c' hr => moveToDeadLetter_notUnique (c := ⟨f.db, faults⟩) h.coherent ho hr)
            fun n c' hr => ?_
          obtain ⟨m, k⟩ := n
          obtain ⟨rs, -, -, hdb, hcoh, -, -, -⟩ :=
            moveToDeadLetter_ok (c := ⟨f.db, faults⟩) h.coherent ho hr
          obtain ⟨hp, hps, hst⟩ := movedAll_pending limits text failedNs flag f.db rs
          refine removing_ok hcoh (fun _ => hcoh.counted.opened ?_) ?_ ?_
          · rw [hdb, hst]
            exact ho.isSome
          · rw [hdb, hps]
          · rw [hdb, hp]
            exact List.filter_sublist.map _
  | deleteDeadLetters seqs =>
      simp only [call]
      cases hl : f.limits with
      | none => exact hclosed
      | some limits =>
          have ho := h.opened (by rw [hl]; rfl)
          refine perform_applied h faults (atomic_deleteDeadLetters seqs)
            (fun e c' hr => unclashing_deleteDeadLetters seqs _ e (by rw [hr])) fun n c' hr => ?_
          obtain ⟨rest, -, hdb, hcoh⟩ := deleteDeadLetters_ok (c := ⟨f.db, faults⟩) h.coherent hr
          refine removing_ok hcoh (fun _ => hcoh.counted.opened ?_) ?_ ?_
          · rw [hdb, evictedTo, recounted_isSome]
            exact ho.isSome
          · rw [hdb, evictedTo_pendingSeq]
          · rw [hdb, evictedTo_pending]

/-- Every history keeps the invariant. -/
theorem runCalls_sound : ∀ {f : SpoolFile} (calls : List SpoolCall), f.Sound →
    (f.runCalls calls).Sound
  | _, [], h => h
  | f, c :: calls, h => runCalls_sound (f := (f.call c).2) calls (call_applied h c).sound

/-- **The representation invariant of the spool**, after any history of calls that each succeed or
fail at any of their statements: the counters are the row counts and byte sums of the tables,
sequences are assigned in increasing order and never reused, no event id is in the tables twice,
no sequence is in both, and the next call, if it raises, changes nothing and does not report a
violated UNIQUE constraint. Nor does the overlap check on opening find anything. -/
theorem representation (calls : List SpoolCall) :
    let f := create.runCalls calls
    (∀ s, f.db.spoolStats = some s → s = Sql.counts f.db) ∧
      (f.limits.isSome → f.db.spoolStats = some (Sql.counts f.db)) ∧
      f.assigned.Pairwise (· < ·) ∧ (f.db.pending.map (·.sequence)).Sublist f.assigned ∧
      (f.db.pending.map (·.eventId) ++ f.db.deadLetter.map (·.eventId)).Nodup ∧
      (∀ r ∈ f.db.pending, ∀ d ∈ f.db.deadLetter, r.sequence ≠ d.originalSequence) ∧
      Sql.overlap f.db = false ∧
      ∀ c e f', f.call c = (.error e, f') →
        f'.db = f.db ∧ ∀ column, e.cause ≠ some (.unique column) := by
  intro f
  have h : f.Sound := runCalls_sound calls create_sound
  refine ⟨h.coherent.counted, h.opened, h.assignedSorted, h.pending_assigned, h.coherent.ids,
    fun r hr d hd => ?_, overlap_eq_false h.coherent, fun c e f' hcall => ?_⟩
  · exact (List.nodup_append.mp h.coherent.sequences).2.2 _ (List.mem_map_of_mem hr) _
      (List.mem_map_of_mem hd)
  · have happ := call_applied h c
    rw [hcall] at happ
    exact happ.raised e rfl

end SpoolFile

/-- The limits of a spool of two rows. -/
def twoRows : SpoolLimits where
  maxPendingRows := 2
  maxPendingBytes := 8
  maxEventBytes := 4
  maxDeadLetterRows := 2
  maxDeadLetterBytes := 8
  pendingRows_pos := by decide
  pendingBytes_pos := by decide
  eventBytes_pos := by decide
  deadLetterRows_pos := by decide
  deadLetterBytes_pos := by decide
  event_le_pending := by decide
  event_le_deadLetter := by decide

end QuestDbWriter
