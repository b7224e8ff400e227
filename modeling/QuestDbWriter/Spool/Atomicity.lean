import QuestDbWriter.Spool.Statements

/-!
# Failures of the spool's operations

Each operation is transparent: up to a failure of the storage, which keeps the SQLite error as its
cause, it does what it does on healthy storage. And each is atomic: what raises changes nothing.
-/

namespace QuestDbWriter

open Lib Database SQLiteSpool
open Session (eval run Transparent Atomic)

/-- The exception reports a failure of the storage. -/
def IsStorageFailure (e : Exc) : Prop := ∃ f, e.cause = some (.failure f)

/-- What an injected fault raises is a storage failure. -/
theorem storageFailure_isStorageFailure (f : StorageFault) :
    IsStorageFailure (storageFailure f) := ⟨f, rfl⟩

/-- Classifying an exception keeps the SQLite error behind it. -/
theorem classified_cause (message : PyStr) (freeBytes : Option Int) (e : Exc) :
    (classified message freeBytes e).cause = e.cause := by
  simp only [classified, classifyStorageError]
  split
  · split
    · rfl
    · split
      · rfl
      · cases freeBytes with
        | none => rfl
        | some free => simp only; split <;> rfl
  · rfl

/-- The message of a method leaves the cause. -/
theorem wrapped_cause (message : PyStr) (e : Exc) : (wrapped message e).cause = e.cause := by
  unfold wrapped
  split <;> rfl

namespace SQLiteSpool

/-! ## Transparency and atomicity -/

section
variable {α : Type} {P : Exc → Prop}

/-- Up to a failure of the storage, the operation does what it does on healthy storage. -/
abbrev Clear (p : SpoolM α) : Prop := Transparent IsStorageFailure p

/-- A statement fails with a storage failure or as the statement does. -/
theorem clear_execute (stmt : Database → Except Exc (α × Database)) : Clear (execute stmt) :=
  .execute storageFailure_isStorageFailure _

/-- A statement hands its result on, with the database it leaves. -/
theorem eval_execute_bind {β : Type} (stmt : Database → Except Exc (α × Database))
    (f : α → SpoolM β) (db : Database) :
    eval (execute stmt >>= f) db =
      match stmt db with
      | .ok (a, db') => eval (f a) db'
      | .error e => (.error e, db) := by
  rw [(clear_execute stmt).eval_bind, execute, Session.eval_execute]
  cases stmt db <;> rfl

/-- A statement without effect fails with a storage failure only. -/
theorem clear_touch : Clear (Session.touch storageFailure : SpoolM Unit) := clear_execute _

/-- A check of arguments touches no storage. -/
theorem clear_check : ∀ x : Except Exc α, Clear (check x)
  | .ok _ => .pure _
  | .error _ => .throw _

/-- A check that passes hands its result on. -/
theorem eval_check_ok {β : Type} {x : Except Exc α} {a : α} (h : x = .ok a) (f : α → SpoolM β)
    (db : Database) : eval (check x >>= f) db = eval (f a) db := by
  rw [(clear_check x).eval_bind, h]
  rfl

/-- A check that raises ends the operation. -/
theorem eval_check_error {β : Type} {x : Except Exc α} {e : Exc} (h : x = .error e)
    (f : α → SpoolM β) (db : Database) : eval (check x >>= f) db = (.error e, db) := by
  rw [(clear_check x).eval_bind, h]
  rfl

/-- A transaction is clear where its body is. -/
theorem clear_transaction {p : SpoolM α} (hp : Clear p) : Clear (transaction p) :=
  hp.transaction storageFailure_isStorageFailure

/-- Classifying a failure of the storage keeps it one. -/
theorem clear_classified {p : SpoolM α} (message : PyStr) (freeBytes : Option Int)
    (hp : Clear p) : Clear (Session.mapError (classified message freeBytes) p) :=
  hp.mapError fun e ⟨f, hf⟩ => ⟨f, (classified_cause message freeBytes e).trans hf⟩

/-- Wrapping a failure of the storage keeps it one. -/
theorem clear_wrapped {p : SpoolM α} (message : PyStr) (hp : Clear p) :
    Clear (Session.mapError (wrapped message) p) :=
  hp.mapError fun e ⟨f, hf⟩ => ⟨f, (wrapped_cause message e).trans hf⟩

/-- Reading the counters is clear. -/
theorem clear_statsRow : Clear statsRow :=
  (clear_execute _).bind fun s => by cases s <;> first | exact .throw _ | exact .pure _

/-- Looking up which events are new is clear. -/
theorem clear_selectNew : ∀ events, Clear (selectNew events)
  | [] => .pure _
  | _ :: events => (clear_execute _).bind fun found => by
      cases found with
      | none => exact (clear_selectNew events).bind fun _ => .pure _
      | some content => exact (clear_check _).bind fun _ => clear_selectNew events

/-- The body of `enqueue_many` is clear. -/
theorem clear_enqueueBody (limits : SpoolLimits) (events : List NewSpoolEvent) :
    Clear (enqueueBody limits events) :=
  (clear_selectNew _).bind fun _ => clear_statsRow.bind fun _ => (clear_check _).bind fun _ =>
    (Transparent.forM (fun _ => clear_execute _) _).bind fun _ => .pure _

/-- `enqueue_many` behind its check of the rows is clear. -/
theorem clear_enqueueDistinct (limits : SpoolLimits) (events : List NewSpoolEvent) :
    Clear (enqueueDistinct limits events) :=
  clear_transaction (clear_enqueueBody limits events)

/-- `enqueue_many` is clear. -/
theorem clear_enqueueMany (limits : SpoolLimits) (events : List NewSpoolEvent) :
    Clear (enqueueMany limits events) := by
  refine (clear_check _).bind fun _ => ?_
  split
  · exact .pure _
  · exact (clear_check _).bind fun _ => clear_classified _ _ (clear_enqueueDistinct _ _)

/-- A statement on one pending row is clear. -/
theorem clear_onPending (stmt : Int → Database → Except Exc (Nat × Database)) (s : Int) :
    Clear (onPending stmt s) :=
  (clear_execute _).bind fun _ => clear_check _

/-- `mark_delivered` is clear. -/
theorem clear_markDelivered (sequences : List Int) : Clear (markDelivered sequences) := by
  refine (clear_check _).bind fun _ => ?_
  split
  · exact .pure _
  · exact (clear_classified _ _ (clear_transaction
      (Transparent.forM (clear_onPending _) _))).bind fun _ => .pure _

/-- `record_attempt` is clear. -/
theorem clear_recordAttempt (sequences : List Int) (text : PyStr) (flag : Bool) :
    Clear (recordAttempt sequences text flag) := by
  refine (clear_check _).bind fun _ => (clear_check _).bind fun _ => ?_
  split
  · exact .pure _
  · exact (clear_classified _ _ (clear_transaction
      (Transparent.forM (clear_onPending _) _))).bind fun _ => .pure _

/-- Reading the rows to move is clear. -/
theorem clear_selectRecords : ∀ sequences, Clear (selectRecords sequences)
  | [] => .pure _
  | _ :: sequences => (clear_execute _).bind fun found => by
      cases found with
      | none => exact .throw _
      | some record => exact (clear_selectRecords sequences).bind fun _ => .pure _

/-- Evicting rows until there is room is clear, however many rounds it takes. -/
theorem clear_makeRoom (limits : SpoolLimits) (payloadBytes : Nat) :
    ∀ rounds room, Clear (makeRoom limits payloadBytes rounds room)
  | 0, room => by
      unfold makeRoom
      split
      · exact (clear_execute _).bind fun _ => .throw _
      · exact .pure _
  | rounds + 1, room => by
      unfold makeRoom
      split
      · refine (clear_execute _).bind fun oldest => ?_
        cases oldest with
        | none => exact .throw _
        | some oldest =>
            exact (clear_execute _).bind fun _ => clear_makeRoom limits payloadBytes rounds _
      · exact .pure _

/-- Counting the dead letters is clear. -/
theorem clear_deadLetterCount : Clear deadLetterCount :=
  ⟨fun _ => rfl, fun _ => .inr ⟨rfl, rfl⟩⟩

/-- Moving one row is clear. -/
theorem clear_moveRecord (limits : SpoolLimits) (text : PyStr) (failedNs : Int) (flag : Bool)
    (record : SpoolRecord) (room : Room) :
    Clear (moveRecord limits text failedNs flag record room) :=
  clear_deadLetterCount.bind fun _ => (clear_makeRoom _ _ _ _).bind fun _ =>
    (clear_execute _).bind fun _ => (clear_execute _).bind fun _ => (clear_check _).bind fun _ =>
    .pure _

/-- Moving the rows is clear. -/
theorem clear_moveRecords (limits : SpoolLimits) (text : PyStr) (failedNs : Int) (flag : Bool) :
    ∀ records room, Clear (moveRecords limits text failedNs flag records room)
  | [], _ => .pure _
  | _ :: records, _ => (clear_moveRecord _ _ _ _ _ _).bind fun _ =>
      clear_moveRecords limits text failedNs flag records _

/-- The body of `move_to_dead_letter` is clear. -/
theorem clear_moveBody (limits : SpoolLimits) (sequences : List Int) (text : PyStr)
    (failedNs : Int) (flag : Bool) : Clear (moveBody limits sequences text failedNs flag) :=
  (clear_selectRecords _).bind fun _ => clear_statsRow.bind fun _ =>
    (clear_moveRecords _ _ _ _ _ _).bind fun _ => .pure _

/-- The transaction of `move_to_dead_letter` is clear. -/
theorem clear_moveTransaction (limits : SpoolLimits) (sequences : List Int) (text : PyStr)
    (failedNs : Int) (flag : Bool) :
    Clear (moveTransaction limits sequences text failedNs flag) :=
  clear_transaction (clear_moveBody _ _ _ _ _)

/-- `move_to_dead_letter` is clear. -/
theorem clear_moveToDeadLetter (limits : SpoolLimits) (sequences : List Int) (text : PyStr)
    (failedNs : Int) (flag : Bool) :
    Clear (moveToDeadLetter limits sequences text failedNs flag) := by
  refine (clear_check _).bind fun _ => (clear_check _).bind fun _ => (clear_check _).bind fun _ =>
    ?_
  split
  · exact .pure _
  · exact clear_classified _ _ (clear_moveTransaction _ _ _ _ _)

/-- Deleting one dead letter is clear. -/
theorem clear_deleteDeadLetter (s : Int) : Clear (deleteDeadLetter s) :=
  (clear_execute _).bind fun _ => clear_check _

/-- `delete_dead_letters` is clear. -/
theorem clear_deleteDeadLetters (sequences : List Int) : Clear (deleteDeadLetters sequences) := by
  refine (clear_check _).bind fun _ => ?_
  split
  · exact .pure _
  · exact (clear_wrapped _ (clear_transaction (Transparent.forM clear_deleteDeadLetter _))).bind
      fun _ => .pure _

/-- Reconciling the counters is clear. -/
theorem clear_reconcileStats : Clear reconcileStats :=
  (clear_execute _).bind fun _ => (clear_execute _).bind fun _ => clear_execute _

/-- Preparing the schema is clear. -/
theorem clear_prepareSchema : Clear prepareSchema := by
  refine (clear_execute _).bind fun version => (clear_check _).bind fun _ =>
    (Transparent.forM (fun _ => clear_touch) _).bind fun _ => (clear_execute _).bind fun _ =>
    (clear_execute _).bind fun _ => (clear_check _).bind fun _ =>
    clear_reconcileStats.bind fun _ => ?_
  split
  · exact clear_execute _
  · exact .pure _

/-- Initializing the schema is clear. -/
theorem clear_initializeSchema : Clear initializeSchema := clear_transaction clear_prepareSchema

/-- Opening the spool is clear. -/
theorem clear_openSpool (pragmas : Pragmas) (freeBytes : Option Int) :
    Clear (openSpool pragmas freeBytes) :=
  clear_classified _ _ <| clear_touch.bind fun _ => clear_touch.bind fun _ =>
    clear_touch.bind fun _ => clear_touch.bind fun _ => (clear_check _).bind fun _ =>
    clear_touch.bind fun _ => clear_touch.bind fun _ => (clear_check _).bind fun _ =>
    clear_initializeSchema

/-- A check leaves the database. -/
theorem check_db {x : Except Exc α} {c c' : Conn Database StorageFault} {r : Except Exc α}
    (h : run (check x) c = (r, c')) : c'.db = c.db := by
  cases x <;> cases h <;> rfl

/-- **An operation that raises leaves the tables and the counters exactly as they were.** -/
theorem atomic_enqueueMany (limits : SpoolLimits) (events : List NewSpoolEvent) :
    Atomic (enqueueMany limits events) := by
  refine .bind_read check_db fun _ => ?_
  split
  · exact .pure _
  · exact .bind_read check_db fun _ => (Atomic.transaction _ _).mapError _

/-- `mark_delivered` changes nothing where it raises. -/
theorem atomic_markDelivered (sequences : List Int) : Atomic (markDelivered sequences) := by
  refine .bind_read check_db fun _ => ?_
  split
  · exact .pure _
  · exact ((Atomic.transaction _ _).mapError _).map _

/-- `record_attempt` changes nothing where it raises. -/
theorem atomic_recordAttempt (sequences : List Int) (text : PyStr) (flag : Bool) :
    Atomic (recordAttempt sequences text flag) := by
  refine .bind_read check_db fun _ => .bind_read check_db fun _ => ?_
  split
  · exact .pure _
  · exact ((Atomic.transaction _ _).mapError _).map _

/-- `move_to_dead_letter` changes nothing where it raises. -/
theorem atomic_moveToDeadLetter (limits : SpoolLimits) (sequences : List Int) (text : PyStr)
    (failedNs : Int) (flag : Bool) :
    Atomic (moveToDeadLetter limits sequences text failedNs flag) := by
  refine .bind_read check_db fun _ => .bind_read check_db fun _ => .bind_read check_db fun _ => ?_
  split
  · exact .pure _
  · exact (Atomic.transaction _ _).mapError _

/-- `delete_dead_letters` changes nothing where it raises. -/
theorem atomic_deleteDeadLetters (sequences : List Int) : Atomic (deleteDeadLetters sequences) := by
  refine .bind_read check_db fun _ => ?_
  split
  · exact .pure _
  · exact ((Atomic.transaction _ _).mapError _).map _

/-- A statement without effect leaves the database. -/
theorem touch_read {c c' : Conn Database StorageFault} {r : Except Exc Unit}
    (h : run (Session.touch storageFailure) c = (r, c')) : c'.db = c.db := Session.touch_db h

/-- Opening the spool changes nothing where it raises. -/
theorem atomic_openSpool (pragmas : Pragmas) (freeBytes : Option Int) :
    Atomic (openSpool pragmas freeBytes) :=
  .mapError _ <| .bind_read touch_read fun _ => .bind_read touch_read fun _ =>
    .bind_read touch_read fun _ => .bind_read touch_read fun _ => .bind_read check_db fun _ =>
    .bind_read touch_read fun _ => .bind_read touch_read fun _ => .bind_read check_db fun _ =>
    Atomic.transaction _ _

end

end SQLiteSpool

end QuestDbWriter
