import QuestDbWriter.Spool.Atomicity

/-!
# What the spool's operations do

What each operation leaves where it returns, from a coherent database and with any failures on
the way: `enqueueMany_ok`, `markDelivered_ok`, `recordAttempt_ok`, `moveToDeadLetter_ok`,
`deleteDeadLetters_ok` and `openSpool_ok`. The converse, on healthy storage, is stated for the
calls the worker makes: an insert of unused events and the move of one row.
-/

namespace QuestDbWriter

open Lib Database SQLiteSpool
open Session (eval run)

/-! ## enqueue_many -/

namespace Database

/-- The rows of events inserted one after the other, with the keys that follow `seq`. -/
def newRows (seq : Int) : List NewSpoolEvent → List SpoolRecord
  | [] => []
  | e :: es => newRow (seq + 1) e :: newRows (seq + 1) es

/-- Events inserted one after the other. -/
def appendedAll (db : Database) (es : List NewSpoolEvent) : Database := es.foldl appended db

section
variable {db : Database}

/-- No event is inserted. -/
@[simp] theorem appendedAll_nil : db.appendedAll [] = db := rfl

/-- The events are inserted one behind the other. -/
@[simp] theorem appendedAll_cons (e : NewSpoolEvent) (es : List NewSpoolEvent) :
    db.appendedAll (e :: es) = (db.appended e).appendedAll es := rfl

/-- The new rows stand behind the old ones. -/
@[simp] theorem appendedAll_pending : ∀ {db : Database} (es : List NewSpoolEvent),
    (db.appendedAll es).pending = db.pending ++ newRows db.pendingSeq es
  | db, [] => by simp [newRows]
  | db, e :: es => by
      rw [appendedAll_cons, appendedAll_pending es]
      simp [newRows]

/-- Inserting leaves the dead letters. -/
@[simp] theorem appendedAll_deadLetter : ∀ {db : Database} (es : List NewSpoolEvent),
    (db.appendedAll es).deadLetter = db.deadLetter
  | _, [] => rfl
  | db, e :: es => by rw [appendedAll_cons, appendedAll_deadLetter es, appended_deadLetter]

/-- Each event uses one key. -/
@[simp] theorem appendedAll_pendingSeq : ∀ {db : Database} (es : List NewSpoolEvent),
    (db.appendedAll es).pendingSeq = db.pendingSeq + es.length
  | db, [] => by simp
  | db, e :: es => by
      rw [appendedAll_cons, appendedAll_pendingSeq es, appended_pendingSeq, List.length_cons]
      push_cast
      omega

/-- Inserting leaves the row of the counters where it is. -/
theorem appendedAll_isSome : ∀ {db : Database} (es : List NewSpoolEvent),
    (db.appendedAll es).spoolStats.isSome = db.spoolStats.isSome
  | _, [] => rfl
  | db, e :: es => by
      rw [appendedAll_cons, appendedAll_isSome es, appended, recounted_isSome]

/-- Each event makes one row. -/
@[simp] theorem newRows_length (seq : Int) (es : List NewSpoolEvent) :
    (newRows seq es).length = es.length := by
  induction es generalizing seq with
  | nil => rfl
  | cons e es ih => simp [newRows, ih]

/-- The rows carry the events, in their order. -/
theorem newRows_events (seq : Int) (es : List NewSpoolEvent) :
    (newRows seq es).map (fun r => (⟨r.eventId, r.payload, r.createdNs⟩ : NewSpoolEvent)) = es := by
  induction es generalizing seq with
  | nil => rfl
  | cons e es ih => simp [newRows, newRow, ih]

/-- The keys of the rows follow `seq`. -/
theorem newRows_sequences (seq : Int) (es : List NewSpoolEvent) :
    ((newRows seq es).map (·.sequence)).Pairwise (· < ·) ∧
      ∀ r ∈ newRows seq es, seq < r.sequence ∧ r.sequence ≤ seq + es.length := by
  induction es generalizing seq with
  | nil => simp [newRows]
  | cons e es ih =>
      obtain ⟨hsorted, hbounds⟩ := ih (seq + 1)
      refine ⟨?_, fun r hr => ?_⟩
      · rw [newRows, List.map_cons, List.pairwise_cons]
        refine ⟨fun s hs => ?_, hsorted⟩
        obtain ⟨r, hr, rfl⟩ := List.mem_map.mp hs
        exact (hbounds r hr).1
      · rw [List.length_cons]
        push_cast
        rcases List.mem_cons.mp hr with rfl | hr
        · simp only [newRow]
          omega
        · have := hbounds r hr
          omega

/-- The events can all be inserted: their ids are distinct and unused, and keys are left. -/
structure Insertable (db : Database) (es : List NewSpoolEvent) : Prop where
  nodup : (es.map (·.eventId)).Nodup
  unused : ∀ e ∈ es, Unused db e.eventId
  storable : ∀ e ∈ es, Storable e.eventId e.payload e.createdNs

/-- The other events can be inserted behind the first one. -/
theorem Insertable.tail {e : NewSpoolEvent} {es : List NewSpoolEvent}
    (h : Insertable db (e :: es)) : Insertable (db.appended e) es where
  nodup := (List.nodup_cons.mp h.nodup).2
  unused e' he' := by
    have hu := h.unused e' (List.mem_cons_of_mem _ he')
    have hne : e'.eventId ≠ e.eventId := fun heq =>
      
      (List.nodup_cons.mp h.nodup).1 (List.mem_map.mpr ⟨e', he', heq⟩)
    refine ⟨?_, hu.2⟩
    rw [appended_pending, List.map_append, List.mem_append, List.map_singleton,
      List.mem_singleton]
    exact not_or.mpr ⟨hu.1, hne⟩
  storable e' he' := h.storable e' (List.mem_cons_of_mem _ he')

/-- Inserting new events keeps a file coherent. -/
theorem Coherent.appendedAll : ∀ {db : Database} {es : List NewSpoolEvent}, db.Coherent →
    Insertable db es → db.pendingSeq + es.length ≤ sqliteIntegerMax → (db.appendedAll es).Coherent
  | _, [], h, _, _ => h
  | db, e :: es, h, hi, hk => by
      rw [List.length_cons] at hk
      push_cast at hk
      have h1 := h.appended (hi.unused e (List.mem_cons_self ..))
        (hi.storable e (List.mem_cons_self ..)) (by omega)
      rw [appendedAll_cons]
      refine Coherent.appendedAll h1 hi.tail ?_
      rw [appended_pendingSeq]
      omega

end

end Database

section
variable {db : Database} {limits : SpoolLimits}

/-- The inserts of `enqueue_many`: they succeed while keys are left. -/
theorem eval_inserts : ∀ {db : Database} {es : List NewSpoolEvent}, db.Coherent →
    Insertable db es →
      (db.pendingSeq + es.length ≤ sqliteIntegerMax ∧
        eval (es.forM fun e => execute (Sql.insertPending e)) db = (.ok (), db.appendedAll es)) ∨
      (¬ db.pendingSeq + es.length ≤ sqliteIntegerMax ∧ ∃ db',
        eval (es.forM fun e => execute (Sql.insertPending e)) db =
          (.error (storageFailure (some 13)), db'))
  | db, [], h, _ => .inl ⟨by simpa using h.pendingSeq_le, rfl⟩
  | db, e :: es, h, hi => by
      have hs := hi.storable e (List.mem_cons_self ..)
      have hu := hi.unused e (List.mem_cons_self ..)
      have hbind := (clear_execute (Sql.insertPending e)).eval_bind
        (fun _ => es.forM fun e => execute (Sql.insertPending e)) db
      rw [List.length_cons]
      push_cast
      by_cases hk : db.pendingSeq < sqliteIntegerMax
      · rw [execute, Session.eval_execute, insertPending_eq h.counted hs hu.1 hk] at hbind
        rcases eval_inserts (h.appended hu hs hk) hi.tail with ⟨hk', hev⟩ | ⟨hk', db', hev⟩
        · rw [appended_pendingSeq] at hk'
          exact .inl ⟨by omega, hbind.trans hev⟩
        · rw [appended_pendingSeq] at hk'
          exact .inr ⟨by omega, db', hbind.trans hev⟩
      · rw [execute, Session.eval_execute, insertPending_full hs hk] at hbind
        exact .inr ⟨by omega, db, hbind⟩

/-- What the selection of new events returns: the events whose id is unused; the others are stored
with the same content. -/
theorem selectNew_ok : ∀ (es : List NewSpoolEvent) {new : List NewSpoolEvent} {db' : Database},
    eval (selectNew es) db = (.ok new, db') →
      db' = db ∧ new.Sublist es ∧ (∀ e ∈ new, Unused db e.eventId) ∧
      (∀ e ∈ es, (Utf8.encode e.eventId).isSome) ∧
      ∀ e ∈ es, e ∈ new ∨ Sql.stored e.eventId db = some (e.payload, e.createdNs)
  | [], new, db', h => by
      cases h
      exact ⟨rfl, .refl _, by simp, by simp, by simp⟩
  | e :: es, new, db', h => by
      rw [selectNew, eval_execute_bind] at h
      cases henc : Utf8.encode e.eventId with
      | none =>
          rw [Sql.selectStored, bindText, encodeUtf8, henc] at h
          cases h
      | some bs =>
          have hsome : (Utf8.encode e.eventId).isSome := by rw [henc, Option.isSome_some]
          rw [selectStored_eq hsome] at h
          cases hst : Sql.stored e.eventId db with
          | none =>
              simp only [hst] at h
              rw [(clear_selectNew es).eval_bind] at h
              rcases hrec : eval (selectNew es) db with ⟨r, db₁⟩
              rw [hrec] at h
              cases r with
              | error e' => cases h
              | ok rest =>
                  cases h
                  obtain ⟨rfl, hsub, hun, hencs, hst'⟩ := selectNew_ok es hrec
                  refine ⟨rfl, hsub.cons_cons e, ?_, ?_, ?_⟩
                  · rintro x (_ | ⟨_, hx⟩)
                    · exact stored_eq_none.mp hst
                    · exact hun x hx
                  · rintro x (_ | ⟨_, hx⟩)
                    · exact hsome
                    · exact hencs x hx
                  · rintro x (_ | ⟨_, hx⟩)
                    · exact .inl (List.mem_cons_self ..)
                    · exact (hst' x hx).imp (List.mem_cons_of_mem _) id
          | some content =>
              obtain ⟨payload, createdNs⟩ := content
              simp only [hst] at h
              by_cases hsame : payload = e.payload ∧ createdNs = e.createdNs
              · rw [eval_check_ok (raiseUnless_ok (u := ()).mpr hsame)] at h
                obtain ⟨rfl, hsub, hun, hencs, hst'⟩ := selectNew_ok es h
                refine ⟨rfl, hsub.cons e, hun, ?_, ?_⟩
                · rintro x (_ | ⟨_, hx⟩)
                  · exact hsome
                  · exact hencs x hx
                · rintro x (_ | ⟨_, hx⟩)
                  · exact .inr (by rw [hst, hsame.1, hsame.2])
                  · exact hst' x hx
              · rw [(clear_check _).eval_bind, raiseUnless, if_neg hsame] at h
                cases h

/-- Unused events are all new. -/
theorem eval_selectNew : ∀ {es : List NewSpoolEvent},
    (∀ e ∈ es, Unused db e.eventId ∧ (Utf8.encode e.eventId).isSome) →
      eval (selectNew es) db = (.ok es, db)
  | [], _ => rfl
  | e :: es, h => by
      obtain ⟨hu, henc⟩ := h e (List.mem_cons_self ..)
      rw [selectNew, eval_execute_bind,
        selectStored_eq henc]
      simp only [stored_eq_none.mpr hu]
      rw [(clear_selectNew es).eval_bind,
        eval_selectNew fun x hx => h x (List.mem_cons_of_mem _ hx)]
      rfl

/-- What `distinct_events` holds after the loop. -/
theorem foldlM_addDistinct : ∀ {es acc ds : List NewSpoolEvent},
    es.foldlM addDistinct acc = .ok ds → (acc.map (·.eventId)).Nodup →
      (ds.map (·.eventId)).Nodup ∧ (∀ e ∈ ds, e ∈ acc ∨ e ∈ es) ∧ (∀ e ∈ acc, e ∈ ds) ∧
        ∀ e ∈ es, e ∈ ds
  | [], acc, ds, h, hn => by
      cases h
      exact ⟨hn, fun _ he => .inl he, fun _ he => he, by simp⟩
  | e :: es, acc, ds, h, hn => by
      rw [List.foldlM_cons, addDistinct] at h
      cases hf : acc.find? (·.eventId = e.eventId) with
      | none =>
          rw [hf] at h
          have hn' : ((acc ++ [e]).map (·.eventId)).Nodup := by
            rw [List.map_append, List.map_singleton, List.nodup_append]
            refine ⟨hn, List.nodup_singleton _, fun a ha b hb => ?_⟩
            obtain ⟨x, hx, rfl⟩ := List.mem_map.mp ha
            rw [List.mem_singleton] at hb
            subst hb
            simpa using List.find?_eq_none.mp hf x hx
          obtain ⟨h1, h2, h3, h4⟩ := foldlM_addDistinct h hn'
          refine ⟨h1, fun x hx => ?_, fun x hx => h3 x (List.mem_append_left _ hx), ?_⟩
          · rcases h2 x hx with hx | hx
            · rcases List.mem_append.mp hx with hx | hx
              · exact .inl hx
              · exact .inr (List.mem_singleton.mp hx ▸ List.mem_cons_self ..)
            · exact .inr (List.mem_cons_of_mem _ hx)
          · rintro x (_ | ⟨_, hx⟩)
            · exact h3 e (List.mem_append_right _ (List.mem_singleton_self e))
            · exact h4 x hx
      | some p =>
          rw [hf] at h
          by_cases hpe : p = e
          · subst hpe
            simp only [ne_eq, not_true_eq_false, if_false] at h
            obtain ⟨h1, h2, h3, h4⟩ := foldlM_addDistinct h hn
            refine ⟨h1, fun x hx => (h2 x hx).imp id (List.mem_cons_of_mem _), h3, ?_⟩
            rintro x (_ | ⟨_, hx⟩)
            · exact h3 p (List.mem_of_find?_eq_some hf)
            · exact h4 x hx
          · simp only [ne_eq, hpe, not_false_eq_true, if_true] at h
            cases h

/-- Events with distinct ids are all kept. -/
theorem foldlM_addDistinct_nodup : ∀ (es acc : List NewSpoolEvent),
    ((acc ++ es).map (·.eventId)).Nodup → es.foldlM addDistinct acc = .ok (acc ++ es)
  | [], acc, _ => by rw [List.append_nil]; rfl
  | e :: es, acc, hn => by
      have hf : acc.find? (·.eventId = e.eventId) = none := by
        rw [List.find?_eq_none]
        intro x hx
        rw [List.map_append, List.nodup_append] at hn
        simpa using hn.2.2 _ (List.mem_map_of_mem hx) _
          (List.mem_map_of_mem (List.mem_cons_self ..))
      rw [List.foldlM_cons, addDistinct, hf]
      have ih := foldlM_addDistinct_nodup es (acc ++ [e]) (by simpa using hn)
      rw [List.append_assoc, List.singleton_append] at ih
      exact ih

/-- What `_validate_new_event` accepts. -/
theorem validateNewEvent_ok {e : NewSpoolEvent} {u : Unit} :
    validateNewEvent limits e = .ok u ↔
      (e.eventId ≠ [] ∧ ofChar '\x00' ∉ e.eventId) ∧ e.payload ≠ [] ∧
        (sqliteIntegerMin ≤ e.createdNs ∧ e.createdNs ≤ sqliteIntegerMax) ∧
        e.payload.length ≤ limits.maxEventBytes := by
  have hbind {x y : Except Exc Unit} :
      (x >>= fun _ => y) = .ok u ↔ x = .ok () ∧ y = .ok u := by
    cases x <;> simp [bind, Except.bind]
  simp only [validateNewEvent, sqliteInteger, hbind, raiseUnless_ok]

/-- A text without NUL has SQL's length. -/
theorem sqlLength_pos {s : PyStr} (hne : s ≠ []) (hnul : ofChar '\x00' ∉ s) : 0 < sqlLength s := by
  cases s with
  | nil => exact absurd rfl hne
  | cons c s =>
      have hc : c ≠ ofChar '\x00' := fun h => hnul (h ▸ List.mem_cons_self ..)
      simp [sqlLength, hc]

/-- A validated event whose id can be encoded can be stored. -/
theorem storable_of_valid {e : NewSpoolEvent} {u : Unit} (h : validateNewEvent limits e = .ok u)
    (henc : (Utf8.encode e.eventId).isSome) : Storable e.eventId e.payload e.createdNs := by
  obtain ⟨⟨hne, hnul⟩, hp, ⟨h1, h2⟩, -⟩ := validateNewEvent_ok.mp h
  exact ⟨henc, sqlLength_pos hne hnul, hp, h1, h2⟩

/-- A check of every element of a list passes where each of them passes. -/
theorem forM_ok {α : Type} {f : α → Except Exc PUnit} :
    ∀ {l : List α} {u : PUnit}, l.forM f = .ok u ↔ ∀ a ∈ l, f a = .ok ⟨⟩
  | [], _ => by
      simp [List.forM, pure, Except.pure]
  | a :: l, u => by
      show (f a >>= fun _ => l.forM f) = _ ↔ _
      rw [List.forall_mem_cons, ← forM_ok (l := l) (u := u)]
      cases f a <;> simp [bind, Except.bind]

/-- What `enqueue_many` inserts. -/
structure Enqueued (limits : SpoolLimits) (db : Database) (events new : List NewSpoolEvent) :
    Prop where
  insertable : Insertable db new
  keys : db.pendingSeq + new.length ≤ sqliteIntegerMax
  mem : ∀ e ∈ new, e ∈ events
  rows : events ≠ [] → db.pending.length + new.length ≤ limits.maxPendingRows
  bytes : events ≠ [] → Sql.rowBytes db.pending + eventBytes new ≤ limits.maxPendingBytes
  valid : ∀ e ∈ events, validateNewEvent limits e = .ok ()
  /-- An event that is not inserted is already stored, with the same content. -/
  stored : ∀ e ∈ events, e ∈ new ∨ Sql.stored e.eventId db = some (e.payload, e.createdNs)
  length_le : new.length ≤ events.length

/-- A call of `enqueue_many` keeps a file coherent. -/
theorem Enqueued.coherent {events new : List NewSpoolEvent} (h : Enqueued limits db events new)
    (hc : db.Coherent) : (db.appendedAll new).Coherent :=
  hc.appendedAll h.insertable h.keys

/-- The capacity checks, on the counters. -/
theorem checkCapacity_ok {new : List NewSpoolEvent} {u : Unit} :
    checkCapacity limits (Sql.counts db) new = .ok u ↔
      db.pending.length + new.length ≤ limits.maxPendingRows ∧
        Sql.rowBytes db.pending + eventBytes new ≤ limits.maxPendingBytes := by
  have hbind {x y : Except Exc Unit} :
      (x >>= fun _ => y) = .ok u ↔ x = .ok () ∧ y = .ok u := by
    cases x <;> simp [bind, Except.bind]
  simp only [checkCapacity, hbind]
  rw [raiseUnless_ok, raiseUnless_ok]
  simp only [Sql.counts]
  omega

/-- The capacity checks raise nothing but `SpoolFullError`. -/
theorem checkCapacity_raises (s : SpoolStats) (new : List NewSpoolEvent) :
    RaisesOnly (fun e => e.type = .spoolFullError ∧ e.cause = none)
      (checkCapacity limits s new) :=
  .bind (.raiseUnless fun _ => ⟨rfl, rfl⟩) fun _ _ => .raiseUnless fun _ => ⟨rfl, rfl⟩

/-- The row of the counters is read. -/
theorem eval_statsRow (h : db.Opened) : eval statsRow db = (.ok (Sql.counts db), db) := by
  rw [statsRow, eval_execute_bind]
  simp only [Sql.selectStats, pure, Except.pure, show db.spoolStats = _ from h]
  rfl

/-- The transaction of `enqueue_many`: a conflict, a full spool, exhausted keys, or the events whose
ids are unused. -/
theorem eval_enqueueDistinct {ds : List NewSpoolEvent} (hc : db.Coherent) (ho : db.Opened)
    (hn : (ds.map (·.eventId)).Nodup) (hv : ∀ e ∈ ds, validateNewEvent limits e = .ok ()) :
    eval (enqueueDistinct limits ds) db = match (eval (selectNew ds) db).1 with
      | .error e => (.error e, db)
      | .ok new => match checkCapacity limits (Sql.counts db) new with
        | .error e => (.error e, db)
        | .ok _ =>
          if db.pendingSeq + new.length ≤ sqliteIntegerMax then
            (.ok new.length, db.appendedAll new)
          else (.error (storageFailure (some 13)), db) := by
  rw [enqueueDistinct, SQLiteSpool.transaction, (clear_enqueueBody limits ds).eval_transaction,
    enqueueBody, (clear_selectNew ds).eval_bind]
  rcases hsel : eval (selectNew ds) db with ⟨e | new, db₁⟩
  · rfl
  · obtain ⟨rfl, hsub, hun, henc, -⟩ := selectNew_ok _ hsel
    have hins : Insertable db₁ new :=
      ⟨hn.sublist (hsub.map _), hun, fun e he =>
        storable_of_valid (hv e (hsub.subset he)) (henc e (hsub.subset he))⟩
    simp only [clear_statsRow.eval_bind, eval_statsRow ho]
    cases hcap : checkCapacity limits (Sql.counts db₁) new with
    | error e => rw [eval_check_error rfl]
    | ok u =>
        rw [eval_check_ok rfl, (Session.Transparent.forM
          (fun e => clear_execute (Sql.insertPending e)) new).eval_bind]
        rcases eval_inserts hc hins with ⟨hk, hev⟩ | ⟨hk, db', hev⟩
        · rw [hev, if_pos hk]
          rfl
        · rw [hev, if_neg hk]

/-- The transaction of `enqueue_many`, where it returns. -/
theorem eval_enqueueDistinct_ok {ds : List NewSpoolEvent} {db' : Database} {n : Nat}
    (hc : db.Coherent) (ho : db.Opened) (hn : (ds.map (·.eventId)).Nodup)
    (hv : ∀ e ∈ ds, validateNewEvent limits e = .ok ()) :
    eval (enqueueDistinct limits ds) db = (.ok n, db') ↔
      ∃ new, eval (selectNew ds) db = (.ok new, db) ∧ n = new.length ∧ db' = db.appendedAll new ∧
        db.pendingSeq + new.length ≤ sqliteIntegerMax ∧
        (db.pending.length + new.length ≤ limits.maxPendingRows ∧
          Sql.rowBytes db.pending + eventBytes new ≤ limits.maxPendingBytes) := by
  rw [eval_enqueueDistinct hc ho hn hv]
  rcases hsel : eval (selectNew ds) db with ⟨e | new, db₁⟩
  · constructor
    · rintro ⟨⟩
    · rintro ⟨new, ⟨⟩, -⟩
  · obtain ⟨rfl, -⟩ := selectNew_ok _ hsel
    dsimp only
    constructor
    · intro h
      cases hcap : checkCapacity limits (Sql.counts db₁) new with
      | error e =>
          rw [hcap] at h
          cases h
      | ok u =>
          rw [hcap] at h
          by_cases hk : db₁.pendingSeq + new.length ≤ sqliteIntegerMax
          · rw [if_pos hk] at h
            cases h
            exact ⟨new, rfl, rfl, rfl, hk, checkCapacity_ok.mp hcap⟩
          · rw [if_neg hk] at h
            cases h
    · rintro ⟨new', hnew, rfl, rfl, hk, hcap⟩
      cases hnew
      rw [(checkCapacity_ok (u := ())).mpr hcap]
      exact if_pos hk

/-- **Where `enqueue_many` returns, it has appended the events whose ids were unused**, each once,
within the limits; every other event was stored before, with the same content. -/
theorem enqueueMany_ok {events : List NewSpoolEvent} {c c' : Conn Database StorageFault} {n : Nat}
    (hc : c.db.Coherent) (ho : c.db.Opened)
    (h : run (enqueueMany limits events) c = (.ok n, c')) :
    ∃ new, n = new.length ∧ c'.db = c.db.appendedAll new ∧ Enqueued limits c.db events new := by
  obtain ⟨db, faults⟩ := c
  have hev := (clear_enqueueMany limits events).ok h
  generalize c'.db = db' at hev ⊢
  rw [enqueueMany] at hev
  cases hvalid : events.forM (validateNewEvent limits) with
  | error e =>
      rw [eval_check_error hvalid] at hev
      cases hev
  | ok u =>
      have hv : ∀ e ∈ events, validateNewEvent limits e = .ok () := forM_ok.mp hvalid
      rw [eval_check_ok hvalid] at hev
      split at hev
      · next hnil =>
        cases hev
        refine ⟨[], rfl, rfl, ⟨⟨by simp, by simp, by simp⟩, ?_, by simp, fun h => absurd hnil h,
          fun h => absurd hnil h, hv, by simp [hnil], by simp⟩⟩
        simpa using hc.pendingSeq_le
      · next hne =>
        cases hds : distinctEvents events with
        | error e =>
            rw [eval_check_error hds] at hev
            cases hev
        | ok ds =>
            rw [eval_check_ok hds, Session.eval_mapError] at hev
            obtain ⟨hn, hmem, -, hall⟩ := foldlM_addDistinct hds List.nodup_nil
            have hmem' : ∀ e ∈ ds, e ∈ events := fun e he => (hmem e he).resolve_left (by simp)
            rcases hdis : eval (enqueueDistinct limits ds) db with ⟨r, db₁⟩
            rw [hdis] at hev
            cases r with
            | error e => cases hev
            | ok m =>
                cases hev
                have hvds : ∀ e ∈ ds, validateNewEvent limits e = .ok () :=
                  fun e he => hv e (hmem' e he)
                obtain ⟨new, hsel, rfl, hdb, hk, hcap⟩ :=
                  (eval_enqueueDistinct_ok hc ho hn hvds).mp hdis
                obtain ⟨-, hsub, hun, henc, hst⟩ := selectNew_ok _ hsel
                have hins : Insertable db new :=
                  ⟨hn.sublist (hsub.map _), hun, fun e he =>
                    storable_of_valid (hvds e (hsub.subset he)) (henc e (hsub.subset he))⟩
                refine ⟨new, rfl, hdb, ⟨hins, hk, fun e he => hmem' e (hsub.subset he),
                  fun _ => hcap.1, fun _ => hcap.2, hv, fun e he => hst e (hall e he), ?_⟩⟩
                have hnew : new.Nodup := List.Nodup.of_map _ hins.nodup
                exact (List.subperm_of_subset hnew
                  fun e he => hmem' e (hsub.subset he)).length_le

/-- Events with distinct unused ids, on healthy storage. -/
theorem eval_enqueueMany_new {events : List NewSpoolEvent} (hc : db.Coherent) (ho : db.Opened)
    (hv : ∀ e ∈ events, validateNewEvent limits e = .ok ())
    (henc : ∀ e ∈ events, (Utf8.encode e.eventId).isSome)
    (hn : (events.map (·.eventId)).Nodup) (hun : ∀ e ∈ events, Unused db e.eventId)
    (hne : events ≠ []) :
    eval (enqueueMany limits events) db = match checkCapacity limits (Sql.counts db) events with
      | .error e => (.error (classified (py "failed to enqueue events") none e), db)
      | .ok _ =>
        if db.pendingSeq + events.length ≤ sqliteIntegerMax then
          (.ok events.length, db.appendedAll events)
        else
          (.error (classified (py "failed to enqueue events") none (storageFailure (some 13))),
            db) := by
  have hdis : distinctEvents events = .ok events :=
    foldlM_addDistinct_nodup _ [] (by simpa using hn)
  rw [enqueueMany, eval_check_ok (forM_ok (u := ⟨⟩).mpr hv), if_neg hne, eval_check_ok hdis,
    Session.eval_mapError, eval_enqueueDistinct hc ho hn hv,
    eval_selectNew fun e he => ⟨hun e he, henc e he⟩]
  dsimp only
  cases checkCapacity limits (Sql.counts db) events with
  | error e => rfl
  | ok u =>
      by_cases hk : db.pendingSeq + events.length ≤ sqliteIntegerMax
      · simp only [if_pos hk]
      · simp only [if_neg hk]

/-- On healthy storage with keys left, events with distinct unused ids are inserted exactly if
they fit: `enqueue_many` returns their number, or raises `SpoolFullError`. -/
theorem eval_enqueueMany_unused {events : List NewSpoolEvent} (hc : db.Coherent) (ho : db.Opened)
    (hv : ∀ e ∈ events, validateNewEvent limits e = .ok ())
    (henc : ∀ e ∈ events, (Utf8.encode e.eventId).isSome)
    (hn : (events.map (·.eventId)).Nodup) (hun : ∀ e ∈ events, Unused db e.eventId)
    (hne : events ≠ []) (hk : db.pendingSeq + events.length ≤ sqliteIntegerMax) :
    (db.pending.length + events.length ≤ limits.maxPendingRows ∧
        Sql.rowBytes db.pending + eventBytes events ≤ limits.maxPendingBytes ∧
        eval (enqueueMany limits events) db = (.ok events.length, db.appendedAll events)) ∨
    (¬ (db.pending.length + events.length ≤ limits.maxPendingRows ∧
        Sql.rowBytes db.pending + eventBytes events ≤ limits.maxPendingBytes) ∧
        ∃ e, eval (enqueueMany limits events) db = (.error e, db) ∧
          e.type = .spoolFullError) := by
  have hev := eval_enqueueMany_new hc ho hv henc hn hun hne
  cases hcap : checkCapacity limits (Sql.counts db) events with
  | ok u =>
      rw [hcap] at hev
      obtain ⟨h1, h2⟩ := checkCapacity_ok.mp hcap
      exact .inl ⟨h1, h2, hev.trans (if_pos hk)⟩
  | error e =>
      rw [hcap] at hev
      refine .inr ⟨fun hfits => ?_, _, hev, ?_⟩
      · rw [(checkCapacity_ok (u := ())).mpr hfits] at hcap
        cases hcap
      · have htype := (checkCapacity_raises _ _ e hcap).1
        rw [classified, Exc.isSqliteError, htype]
        exact htype

end

/-! ## mark_delivered and record_attempt

Both run one statement on each of their rows, and each row has to exist. -/

/-- What a statement on one pending row does: `change` where the row is there. -/
structure RowStatement (stmt : Int → Database → Except Exc (Nat × Database))
    (change : Database → Int → Database) : Prop where
  hit : ∀ {db : Database}, db.Coherent → ∀ r ∈ db.pending,
    stmt r.sequence db = .ok (1, change db r.sequence)
  miss : ∀ {db : Database} {s : Int}, s ∉ db.pending.map (·.sequence) →
    stmt s db = .ok (0, db) ∨ ∃ e, stmt s db = .error e
  coherent : ∀ {db : Database} (s : Int), db.Coherent → (change db s).Coherent
  /-- The other rows stay. -/
  other : ∀ {db : Database} {s s' : Int}, s' ≠ s →
    (s' ∈ (change db s).pending.map (·.sequence) ↔ s' ∈ db.pending.map (·.sequence))

/-- Recording an attempt leaves the keys. -/
theorem sequences_attempted (db : Database) (text : PyStr) (flag : Bool) (s : Int) :
    (db.attempted text flag s).pending.map (·.sequence) = db.pending.map (·.sequence) := by
  simp only [attempted, List.map_map]
  refine List.map_congr_left fun r _ => ?_
  rw [Function.comp_apply]
  split <;> rfl

/-- Deleting is a statement on one row. -/
theorem rowStatement_delete : RowStatement Sql.deletePending removed where
  hit hc r hr := deletePending_eq hc.counted hc.pendingNodup hr (hc.key_range hr)
  miss {db s} hs := by
    by_cases hrange : sqliteIntegerMin ≤ s ∧ s ≤ sqliteIntegerMax
    · exact .inl (deletePending_absent hs hrange)
    · exact .inr ⟨_, by rw [Sql.deletePending, bindInteger_error hrange]; rfl⟩
  coherent s hc := hc.removed s
  other {db s s'} hne := by
    simp only [removed_pending, List.mem_map, List.mem_filter, decide_eq_true_eq]
    constructor
    · rintro ⟨r, ⟨hr, -⟩, rfl⟩
      exact ⟨r, hr, rfl⟩
    · rintro ⟨r, hr, rfl⟩
      exact ⟨r, ⟨hr, hne⟩, rfl⟩

/-- Recording an attempt is a statement on one row. -/
theorem rowStatement_attempt {text : PyStr} (ht : (Utf8.encode text).isSome) (flag : Bool) :
    RowStatement (Sql.updateAttempt text flag) fun db s => db.attempted text flag s where
  hit hc r hr := updateAttempt_eq hc.pendingNodup flag ht hr (hc.key_range hr)
  miss {db s} hs := by
    by_cases hrange : sqliteIntegerMin ≤ s ∧ s ≤ sqliteIntegerMax
    · exact .inl (updateAttempt_absent flag ht hs hrange)
    · exact .inr ⟨_, by rw [Sql.updateAttempt, bindText_eq ht, bindInteger_error hrange]; rfl⟩
  coherent s hc := hc.attempted text flag s
  other _ := by rw [sequences_attempted]

section
variable {db : Database} {stmt : Int → Database → Except Exc (Nat × Database)}
  {change : Database → Int → Database}

/-- A statement on one pending row changes it, or raises where it is not there. -/
theorem eval_onPending (hs : RowStatement stmt change) (hc : db.Coherent) (s : Int) :
    (s ∈ db.pending.map (·.sequence) ∧ eval (onPending stmt s) db = (.ok (), change db s)) ∨
    (s ∉ db.pending.map (·.sequence) ∧ ∃ e, eval (onPending stmt s) db = (.error e, db)) := by
  rw [onPending, eval_execute_bind]
  by_cases hmem : s ∈ db.pending.map (·.sequence)
  · obtain ⟨r, hr, rfl⟩ := List.mem_map.mp hmem
    rw [hs.hit hc r hr]
    exact .inl ⟨hmem, rfl⟩
  · rcases hs.miss hmem with h | ⟨e, h⟩
    · rw [h]
      exact .inr ⟨hmem, _, rfl⟩
    · rw [h]
      exact .inr ⟨hmem, e, rfl⟩

/-- The loop over the rows: every row has to exist, and then each is changed. -/
theorem eval_forM_onPending (hs : RowStatement stmt change) :
    ∀ {seqs : List Int} {db : Database}, db.Coherent → seqs.Nodup →
      ((∀ s ∈ seqs, s ∈ db.pending.map (·.sequence)) ∧ (seqs.foldl change db).Coherent ∧
        eval (seqs.forM (onPending stmt)) db = (.ok (), seqs.foldl change db)) ∨
      ((∃ s ∈ seqs, s ∉ db.pending.map (·.sequence)) ∧
        ∃ e db', eval (seqs.forM (onPending stmt)) db = (.error e, db'))
  | [], db, hc, _ => .inl ⟨by simp, hc, rfl⟩
  | s :: seqs, db, hc, hn => by
      obtain ⟨hs', hn'⟩ := List.nodup_cons.mp hn
      have hbind := (clear_onPending stmt s).eval_bind (fun _ => seqs.forM (onPending stmt)) db
      have hother {s' : Int} (h : s' ∈ seqs) :
          s' ∈ (change db s).pending.map (·.sequence) ↔ s' ∈ db.pending.map (·.sequence) :=
        hs.other fun heq => hs' (heq ▸ h)
      rcases eval_onPending hs hc s with ⟨hmem, hev⟩ | ⟨hmem, e, hev⟩
      · rw [hev] at hbind
        rcases eval_forM_onPending hs (hs.coherent s hc) hn' with ⟨hall, hc', hev'⟩ |
            ⟨hex, e, db', hev'⟩
        · refine .inl ⟨?_, hc', hbind.trans hev'⟩
          rintro s' (_ | ⟨_, h⟩)
          · exact hmem
          · exact (hother h).mp (hall s' h)
        · obtain ⟨s', h, hmiss⟩ := hex
          exact .inr ⟨⟨s', List.mem_cons_of_mem _ h, fun hm => hmiss ((hother h).mpr hm)⟩, e, db',
            hbind.trans hev'⟩
      · rw [hev] at hbind
        exact .inr ⟨⟨s, List.mem_cons_self .., hmem⟩, e, db, hbind⟩

/-- A list of keys is accepted where all are positive and no two are the same. -/
theorem sequenceTuple_ok {seqs : List Int} {u : Unit} :
    sequenceTuple seqs = .ok u ↔ (∀ s ∈ seqs, 0 < s) ∧ seqs.Nodup := by
  have hbind {x : Except Exc PUnit} {y : Except Exc Unit} :
      (x >>= fun _ => y) = .ok u ↔ x = .ok ⟨⟩ ∧ y = .ok u := by
    cases x <;> simp [bind, Except.bind]
  simp only [sequenceTuple, hbind, forM_ok, positiveInteger, raiseUnless_ok]

end

namespace Database

/-- The rows of several sequences deleted from `pending`. -/
def removedAll (db : Database) (seqs : List Int) : Database := seqs.foldl removed db

/-- The deleted rows are gone. -/
@[simp] theorem removedAll_pending : ∀ (db : Database) (seqs : List Int),
    (db.removedAll seqs).pending = db.pending.filter (·.sequence ∉ seqs)
  | db, [] => by
      simp [removedAll]
  | db, s :: seqs => by
      show ((db.removed s).removedAll seqs).pending = _
      rw [removedAll_pending _ seqs, removed_pending, List.filter_filter]
      refine List.filter_congr fun r _ => ?_
      simp only [List.mem_cons, not_or, Bool.decide_and]
      exact Bool.and_comm _ _

/-- Deleting leaves the dead letters. -/
@[simp] theorem removedAll_deadLetter : ∀ (db : Database) (seqs : List Int),
    (db.removedAll seqs).deadLetter = db.deadLetter
  | _, [] => rfl
  | db, s :: seqs => removedAll_deadLetter (db.removed s) seqs

/-- Deleting leaves the last key. -/
@[simp] theorem removedAll_pendingSeq : ∀ (db : Database) (seqs : List Int),
    (db.removedAll seqs).pendingSeq = db.pendingSeq
  | _, [] => rfl
  | db, s :: seqs => removedAll_pendingSeq (db.removed s) seqs

/-- Deleting leaves the row of the counters where it is. -/
theorem removedAll_isSome : ∀ (db : Database) (seqs : List Int),
    (db.removedAll seqs).spoolStats.isSome = db.spoolStats.isSome
  | _, [] => rfl
  | db, s :: seqs => by
      show ((db.removed s).removedAll seqs).spoolStats.isSome = _
      rw [removedAll_isSome _ seqs, removed, recounted_isSome]

/-- One attempt recorded on the rows of several sequences. -/
def attemptedAll (db : Database) (text : PyStr) (flag : Bool) (seqs : List Int) : Database :=
  seqs.foldl (fun db s => db.attempted text flag s) db

/-- Recording attempts changes nothing but the attempt metadata of pending rows. -/
theorem attemptedAll_frame : ∀ (db : Database) (text : PyStr) (flag : Bool) (seqs : List Int),
    (db.attemptedAll text flag seqs).deadLetter = db.deadLetter ∧
      (db.attemptedAll text flag seqs).pendingSeq = db.pendingSeq ∧
      (db.attemptedAll text flag seqs).spoolStats = db.spoolStats ∧
      (db.attemptedAll text flag seqs).deadLetterSeq = db.deadLetterSeq
  | _, _, _, [] => ⟨rfl, rfl, rfl, rfl⟩
  | db, text, flag, s :: seqs => attemptedAll_frame (db.attempted text flag s) text flag seqs

/-- Recording attempts leaves what does not read them. -/
theorem attemptedAll_map {β : Type} (f : SpoolRecord → β) (text : PyStr) (flag : Bool)
    (hf : ∀ r, f (Sql.attempted text flag r) = f r) : ∀ {db : Database} (seqs : List Int),
    (db.attemptedAll text flag seqs).pending.map f = db.pending.map f
  | _, [] => rfl
  | db, s :: seqs => by
      show ((db.attempted text flag s).attemptedAll text flag seqs).pending.map f = _
      rw [attemptedAll_map f text flag hf seqs]
      simp only [attempted, List.map_map]
      refine List.map_congr_left fun r _ => ?_
      rw [Function.comp_apply]
      split
      · exact hf r
      · rfl

/-- Each row of the given sequences counts one attempt more, the others none. -/
theorem attemptedAll_pending : ∀ {db : Database} (text : PyStr) (flag : Bool) {seqs : List Int},
    seqs.Nodup → (db.attemptedAll text flag seqs).pending = db.pending.map fun r =>
      if r.sequence ∈ seqs then Sql.attempted text flag r else r
  | db, _, _, [], _ => by
      simp [attemptedAll]
  | db, text, flag, s :: seqs, hn => by
      obtain ⟨hs, hn'⟩ := List.nodup_cons.mp hn
      show ((db.attempted text flag s).attemptedAll text flag seqs).pending = _
      rw [attemptedAll_pending text flag hn', attempted, List.map_map]
      refine List.map_congr_left fun r _ => ?_
      rw [Function.comp_apply]
      by_cases hr : r.sequence = s
      · have hmem : s ∉ seqs := hs
        simp [hr, Sql.attempted, hmem]
      · simp [hr]

end Database

section
variable {c c' : Conn Database StorageFault} {n : Nat} {seqs : List Int}

/-- **Where `mark_delivered` returns, its rows were all pending and are removed**, and nothing else
has changed. -/
theorem markDelivered_ok (hc : c.db.Coherent) (h : run (markDelivered seqs) c = (.ok n, c')) :
    c'.db = c.db.removedAll seqs ∧ c'.db.Coherent ∧ n = seqs.length ∧ seqs.Nodup ∧
      ∀ s ∈ seqs, s ∈ c.db.pending.map (·.sequence) := by
  obtain ⟨db, faults⟩ := c
  have hev := (clear_markDelivered seqs).ok h
  generalize c'.db = db' at hev ⊢
  rw [markDelivered] at hev
  cases hseq : sequenceTuple seqs with
  | error e =>
      rw [eval_check_error hseq] at hev
      cases hev
  | ok u =>
      obtain ⟨-, hn⟩ := sequenceTuple_ok.mp hseq
      rw [eval_check_ok hseq] at hev
      split at hev
      · next hnil =>
        cases hev
        subst hnil
        exact ⟨rfl, hc, rfl, List.nodup_nil, by simp⟩
      · have hclear := Session.Transparent.forM (clear_onPending Sql.deletePending) seqs
        rw [(clear_classified _ _ (clear_transaction hclear)).eval_bind, Session.eval_mapError,
          SQLiteSpool.transaction, hclear.eval_transaction] at hev
        rcases eval_forM_onPending rowStatement_delete hc hn with ⟨hall, hc', hev'⟩ |
            ⟨-, e, _, hev'⟩
        · rw [hev'] at hev
          cases hev
          exact ⟨rfl, hc', rfl, hn, hall⟩
        · rw [hev'] at hev
          cases hev

/-- On healthy storage `mark_delivered` removes rows that are all pending. -/
theorem eval_markDelivered {db : Database} (hc : db.Coherent) (hn : seqs.Nodup)
    (hall : ∀ s ∈ seqs, s ∈ db.pending.map (·.sequence)) :
    eval (markDelivered seqs) db = (.ok seqs.length, db.removedAll seqs) := by
  have hpos : ∀ s ∈ seqs, 0 < s := fun s hs => by
    obtain ⟨r, hr, rfl⟩ := List.mem_map.mp (hall s hs)
    exact (hc.pendingKeys r hr).1
  rw [markDelivered, eval_check_ok (sequenceTuple_ok (u := ()).mpr ⟨hpos, hn⟩)]
  split
  · next hnil => subst hnil; rfl
  · have hclear := Session.Transparent.forM (clear_onPending Sql.deletePending) seqs
    rw [(clear_classified _ _ (clear_transaction hclear)).eval_bind, Session.eval_mapError,
      SQLiteSpool.transaction, hclear.eval_transaction]
    rcases eval_forM_onPending rowStatement_delete hc hn with ⟨-, -, hev⟩ | ⟨⟨s, hs, hmiss⟩, -⟩
    · rw [hev]
      rfl
    · exact absurd (hall s hs) hmiss

/-- **Where `record_attempt` returns, its rows are all pending and count one attempt more**, and
nothing else has changed. -/
theorem recordAttempt_ok {text : PyStr} {flag : Bool} (hc : c.db.Coherent)
    (h : run (recordAttempt seqs text flag) c = (.ok n, c')) :
    c'.db = c.db.attemptedAll text flag seqs ∧ c'.db.Coherent ∧ seqs.Nodup ∧
      ∀ s ∈ seqs, s ∈ c.db.pending.map (·.sequence) := by
  obtain ⟨db, faults⟩ := c
  have hev := (clear_recordAttempt seqs text flag).ok h
  generalize c'.db = db' at hev ⊢
  rw [recordAttempt] at hev
  cases hseq : sequenceTuple seqs with
  | error e =>
      rw [eval_check_error hseq] at hev
      cases hev
  | ok u =>
      obtain ⟨-, hn⟩ := sequenceTuple_ok.mp hseq
      rw [eval_check_ok hseq] at hev
      cases htext : requireErrorText text with
      | error e =>
          rw [eval_check_error htext] at hev
          cases hev
      | ok u =>
          rw [eval_check_ok htext] at hev
          split at hev
          · next hnil =>
            cases hev
            subst hnil
            exact ⟨rfl, hc, List.nodup_nil, by simp⟩
          · have hclear :=
              Session.Transparent.forM (clear_onPending (Sql.updateAttempt text flag)) seqs
            rw [(clear_classified _ _ (clear_transaction hclear)).eval_bind,
              Session.eval_mapError, SQLiteSpool.transaction, hclear.eval_transaction] at hev
            cases henc : Utf8.encode text with
            | none =>
                obtain ⟨s, rest, rfl⟩ := List.exists_cons_of_ne_nil ‹seqs ≠ []›
                have hfail : Sql.updateAttempt text flag s db =
                    .error { type := .unicodeEncodeError,
                             message := py "surrogates not allowed" } := by
                  rw [Sql.updateAttempt, bindText, encodeUtf8, henc]
                  rfl
                have hbind := (clear_onPending (Sql.updateAttempt text flag) s).eval_bind
                  (fun _ => rest.forM (onPending (Sql.updateAttempt text flag))) db
                rw [onPending, eval_execute_bind,
                  hfail] at hbind
                rw [show eval (List.forM (s :: rest) _) db = _ from hbind] at hev
                cases hev
            | some bs =>
                have hsome : (Utf8.encode text).isSome := by rw [henc, Option.isSome_some]
                rcases eval_forM_onPending (rowStatement_attempt hsome flag) hc hn with
                  ⟨hall, hc', hev'⟩ | ⟨-, e, _, hev'⟩
                · rw [hev'] at hev
                  cases hev
                  exact ⟨rfl, hc', hn, hall⟩
                · rw [hev'] at hev
                  cases hev

/-- On healthy storage `record_attempt` counts an attempt on rows that are all pending. -/
theorem eval_recordAttempt {db : Database} {text : PyStr} {flag : Bool} (hc : db.Coherent)
    (hn : seqs.Nodup) (hall : ∀ s ∈ seqs, s ∈ db.pending.map (·.sequence)) (hne : text ≠ [])
    (henc : (Utf8.encode text).isSome) :
    eval (recordAttempt seqs text flag) db = (.ok seqs.length, db.attemptedAll text flag seqs) := by
  have hpos : ∀ s ∈ seqs, 0 < s := fun s hs => by
    obtain ⟨r, hr, rfl⟩ := List.mem_map.mp (hall s hs)
    exact (hc.pendingKeys r hr).1
  rw [recordAttempt, eval_check_ok (sequenceTuple_ok (u := ()).mpr ⟨hpos, hn⟩),
    eval_check_ok (show requireErrorText text = .ok () from raiseUnless_ok.mpr hne)]
  split
  · next hnil => subst hnil; rfl
  · have hclear := Session.Transparent.forM (clear_onPending (Sql.updateAttempt text flag)) seqs
    rw [(clear_classified _ _ (clear_transaction hclear)).eval_bind, Session.eval_mapError,
      SQLiteSpool.transaction, hclear.eval_transaction]
    rcases eval_forM_onPending (rowStatement_attempt henc flag) hc hn with
      ⟨-, -, hev⟩ | ⟨⟨s, hs, hmiss⟩, -⟩
    · rw [hev]
      rfl
    · exact absurd (hall s hs) hmiss

end

/-! ## move_to_dead_letter -/

namespace SQLiteSpool

/-- The dead letters leave room for one more row of the given size. -/
def fits (limits : SpoolLimits) (payloadBytes : Nat) (ds : List DeadLetterRecord) : Bool :=
  ds.length + 1 ≤ limits.maxDeadLetterRows &&
    Sql.deadBytes ds + payloadBytes ≤ limits.maxDeadLetterBytes

/-- The newest dead letters that leave room for one more row of the given size. -/
def keepNewest (limits : SpoolLimits) (payloadBytes : Nat) :
    List DeadLetterRecord → List DeadLetterRecord
  | [] => []
  | d :: ds => if fits limits payloadBytes (d :: ds) then d :: ds
      else keepNewest limits payloadBytes ds

/-- What is kept are the newest dead letters. -/
theorem keepNewest_suffix (limits : SpoolLimits) (payloadBytes : Nat) :
    ∀ ds, keepNewest limits payloadBytes ds <:+ ds
  | [] => List.suffix_refl _
  | d :: ds => by
      rw [keepNewest]
      split
      · exact List.suffix_refl _
      · exact (keepNewest_suffix limits payloadBytes ds).trans (List.suffix_cons d ds)

/-- The local counters of the move are the counters of the table. -/
def Room.Matches (room : Room) (db : Database) : Prop :=
  room.currentRows = db.deadLetter.length ∧ room.currentBytes = Sql.deadBytes db.deadLetter

/-- The room is measured by the counters. -/
theorem matches_start (db : Database) : (Room.start (Sql.counts db)).Matches db := ⟨rfl, rfl⟩

/-- The room is short where the dead letters and the new row do not fit. -/
theorem Room.Matches.isShort {room : Room} {db : Database} (h : room.Matches db)
    (limits : SpoolLimits) (payloadBytes : Nat) :
    room.isShort limits payloadBytes = !fits limits payloadBytes db.deadLetter := by
  rw [Bool.eq_iff_iff]
  simp only [Room.isShort, fits, h.1, h.2, gt_iff_lt, Bool.or_eq_true, decide_eq_true_eq,
    Bool.not_eq_true', Bool.and_eq_false_iff, decide_eq_false_iff_not]
  omega

end SQLiteSpool

namespace Database

/-- Keeping every dead letter evicts none. -/
theorem evictedTo_self {db : Database} (h : db.Counted) : db.evictedTo db.deadLetter = db :=
  h.recounted_eq

/-- Evicting again is evicting once. -/
theorem evictedTo_evictedTo (db : Database) (ds ds' : List DeadLetterRecord) :
    (db.evictedTo ds).evictedTo ds' = db.evictedTo ds' := by
  simp only [evictedTo, recounted, Option.map_map]
  rfl

/-- A pending row moved to `dead_letter` as `row`, behind the dead letters that leave it room. -/
def movedTo (limits : SpoolLimits) (db : Database) (row : DeadLetterRecord) : Database :=
  (db.evictedTo (keepNewest limits row.payload.length db.deadLetter)).moved row

/-- A moved row is gone from the pending ones. -/
@[simp] theorem movedTo_pending (limits : SpoolLimits) (db : Database) (row : DeadLetterRecord) :
    (movedTo limits db row).pending =
      db.pending.filter (·.sequence ≠ row.originalSequence) := rfl

/-- A moved row is the newest dead letter, behind those that are kept. -/
@[simp] theorem movedTo_deadLetter (limits : SpoolLimits) (db : Database)
    (row : DeadLetterRecord) :
    (movedTo limits db row).deadLetter =
      keepNewest limits row.payload.length db.deadLetter ++
        [{ row with deadLetterId := db.deadLetterSeq + 1 }] := rfl

/-- Moving leaves the last key of a pending row. -/
@[simp] theorem movedTo_pendingSeq (limits : SpoolLimits) (db : Database)
    (row : DeadLetterRecord) : (movedTo limits db row).pendingSeq = db.pendingSeq := rfl

/-- Moving leaves the row of the counters where it is. -/
theorem movedTo_isSome (limits : SpoolLimits) (db : Database) (row : DeadLetterRecord) :
    (movedTo limits db row).spoolStats.isSome = db.spoolStats.isSome := by
  simp only [movedTo, moved, removed, buried, evictedTo, recounted_isSome]

end Database

section
variable {limits : SpoolLimits}

/-- **The eviction loop**: it drops the oldest dead letters until the row fits. It fails only for
a row that is over the byte limit by itself. -/
theorem eval_makeRoom (limits : SpoolLimits) (payloadBytes : Nat) :
    ∀ {rounds : Nat} {db : Database} {room : Room},
    db.Coherent → room.Matches db → rounds = db.deadLetter.length →
      (payloadBytes ≤ limits.maxDeadLetterBytes ∧ ∃ room',
        eval (makeRoom limits payloadBytes rounds room) db =
          (.ok room', db.evictedTo (keepNewest limits payloadBytes db.deadLetter)) ∧
        room'.Matches (db.evictedTo (keepNewest limits payloadBytes db.deadLetter)) ∧
        room'.moved = room.moved ∧
        room'.evicted + (keepNewest limits payloadBytes db.deadLetter).length =
          room.evicted + db.deadLetter.length) ∨
      (limits.maxDeadLetterBytes < payloadBytes ∧ ∃ db',
        eval (makeRoom limits payloadBytes rounds room) db = (.error deadLetterFull, db'))
  | 0, db, room, hc, hm, hr => by
      have hnil : db.deadLetter = [] := List.length_eq_zero_iff.mp hr.symm
      have hpos := limits.deadLetterRows_pos
      have hself : db.evictedTo [] = db := by rw [← hnil, evictedTo_self hc.counted]
      rw [makeRoom, hm.isShort]
      by_cases hp : payloadBytes ≤ limits.maxDeadLetterBytes
      · have hfits : fits limits payloadBytes db.deadLetter = true := by
          simp only [fits, hnil, Sql.deadBytes, List.length_nil, List.map_nil, List.sum_nil,
            Bool.and_eq_true, decide_eq_true_eq]
          omega
        refine .inl ⟨hp, room, ?_, ?_, rfl, ?_⟩
        · rw [hfits, hnil, keepNewest, hself]
          rfl
        · rw [hnil, keepNewest, hself]
          exact hm
        · rw [hnil, keepNewest]
      · have hfits : fits limits payloadBytes db.deadLetter = false := by
          simp only [fits, hnil, Sql.deadBytes, List.length_nil, List.map_nil, List.sum_nil,
            Bool.and_eq_false_iff, decide_eq_false_iff_not]
          omega
        refine .inr ⟨by omega, db, ?_⟩
        rw [hfits]
        simp only [Bool.not_false, if_true]
        rw [eval_execute_bind]
        rfl
  | rounds + 1, db, room, hc, hm, hr => by
      obtain ⟨d, ds, hds⟩ := List.exists_cons_of_length_eq_add_one hr.symm
      have hself : db.evictedTo (d :: ds) = db := by rw [← hds, evictedTo_self hc.counted]
      rw [makeRoom, hm.isShort]
      cases hfits : fits limits payloadBytes db.deadLetter with
      | true =>
          have hkeep : keepNewest limits payloadBytes db.deadLetter = db.deadLetter := by
            rw [hds, keepNewest, ← hds, hfits, if_pos rfl]
          simp only [fits, Bool.and_eq_true, decide_eq_true_eq] at hfits
          refine .inl ⟨by omega, room, ?_, ?_, rfl, ?_⟩
          · rw [hkeep, hds, hself]
            rfl
          · rw [hkeep, hds, hself]
            exact hm
          · rw [hkeep]
      | false =>
          have hkeep : keepNewest limits payloadBytes db.deadLetter =
              keepNewest limits payloadBytes ds := by
            rw [hds, keepNewest, ← hds, hfits, if_neg (by simp)]
          have hdel : db.deadLetter.filter (fun c => c.deadLetterId ≠ d.deadLetterId) = ds := by
            have hn := hc.deadNodup
            rw [hds, List.map_cons, List.nodup_cons] at hn
            rw [hds, List.filter_cons_of_neg (by simp), List.filter_eq_self]
            intro c hcmem
            have : c.deadLetterId ≠ d.deadLetterId := fun h =>
              hn.1 (List.mem_map.mpr ⟨c, hcmem, h⟩)
            simpa using this
          have hmem : d ∈ db.deadLetter := hds ▸ List.mem_cons_self ..
          have hstmt := deleteDeadLetterBy_eq (·.deadLetterId) hc.counted hc.deadNodup
            hmem (hc.deadId_range hmem)
          rw [hdel] at hstmt
          have hsub : ds.Sublist db.deadLetter := hds ▸ List.sublist_cons_self d ds
          simp only [Bool.not_false, if_true]
          rw [eval_execute_bind]
          simp only [Sql.selectOldestDeadLetter, hds, List.head?_cons, pure, Except.pure]
          rw [eval_execute_bind, hstmt]
          have hlen : rounds = ds.length := by rw [hds, List.length_cons] at hr; omega
          have hm' : Room.Matches { room with
              currentRows := room.currentRows - 1,
              currentBytes := room.currentBytes - d.payload.length,
              evicted := room.evicted + 1 } (db.evictedTo ds) := by
            obtain ⟨h1, h2⟩ := hm
            rw [hds] at h1 h2
            simp only [Sql.deadBytes, List.map_cons, List.sum_cons, List.length_cons] at h1 h2
            refine ⟨?_, ?_⟩
            · simp only [h1, evictedTo_deadLetter]
              omega
            · simp only [h2, evictedTo_deadLetter, Sql.deadBytes]
              omega
          rcases eval_makeRoom limits payloadBytes (hc.evictedTo hsub) hm' hlen with
            ⟨hp, room', hev, hmatch, hmoved, hevicted⟩ | ⟨hp, db', hev⟩
          · rw [evictedTo_deadLetter, evictedTo_evictedTo] at hev hmatch
            rw [evictedTo_deadLetter] at hevicted
            rw [← hds, hkeep]
            refine .inl ⟨hp, room', hev, hmatch, hmoved, ?_⟩
            rw [hds, List.length_cons]
            simp only at hevicted
            omega
          · exact .inr ⟨hp, db', hev⟩

/-- What the move of a row needs besides room: a text that can be stored, a timestamp in range and
a key that is left. -/
structure Movable (db : Database) (text : PyStr) (failedNs : Int) : Prop where
  encodable : (Utf8.encode text).isSome
  nonempty : 0 < sqlLength text
  failed_ge : sqliteIntegerMin ≤ failedNs
  failed_le : failedNs ≤ sqliteIntegerMax
  key : db.deadLetterSeq < sqliteIntegerMax

/-- The row that a pending record is moved to is what `INSERT INTO dead_letter` accepts. -/
theorem eval_insertDeadLetter {db : Database} {r : SpoolRecord} (text : PyStr) (failedNs : Int)
    (flag : Bool) (hc : db.Coherent) (hr : r ∈ db.pending) :
    (Sql.insertDeadLetter (deadLetterOf r text failedNs flag) db =
        .ok ((), db.buried (deadLetterOf r text failedNs flag)) ∧
      db.deadLetterSeq < sqliteIntegerMax) ∨
    (¬ Movable db text failedNs ∧ ∃ e, NotUnique e ∧
      Sql.insertDeadLetter (deadLetterOf r text failedNs flag) db = .error e) := by
  have hseq : (deadLetterOf r text failedNs flag).originalSequence ∉
      db.deadLetter.map (·.originalSequence) := fun h =>
    (List.nodup_append.mp hc.sequences).2.2 _ (List.mem_map_of_mem hr) _ h rfl
  have hid : (deadLetterOf r text failedNs flag).eventId ∉ db.deadLetter.map (·.eventId) :=
    fun h => (List.nodup_append.mp hc.ids).2.2 _ (List.mem_map_of_mem hr) _ h rfl
  cases hins : Sql.insertDeadLetter (deadLetterOf r text failedNs flag) db with
  | error e =>
      refine .inr ⟨fun hm => ?_, e, insertDeadLetter_raises hseq hid e hins, rfl⟩
      rw [insertDeadLetter_eq hc.counted (hc.storable r hr) ⟨hm.failed_ge, hm.failed_le⟩
        hm.encodable hm.nonempty (Nat.succ_pos _) hseq hid hm.key] at hins
      cases hins
  | ok res =>
      have hbind {α β : Type} {x : Except Exc α} {f : α → Except Exc β} {b : β}
          (h : (x >>= f) = .ok b) : ∃ a, x = .ok a ∧ f a = .ok b := by
        cases x with
        | error e => cases h
        | ok a => exact ⟨a, rfl, h⟩
      have hins' := hins
      obtain ⟨_, -, hins'⟩ := hbind hins'
      obtain ⟨_, -, hins'⟩ := hbind hins'
      obtain ⟨_, hfailed, hins'⟩ := hbind hins'
      obtain ⟨_, htext, hins'⟩ := hbind hins'
      obtain ⟨_, hkey, hins'⟩ := hbind hins'
      obtain ⟨_, -, hins'⟩ := hbind hins'
      obtain ⟨_, -, hins'⟩ := hbind hins'
      obtain ⟨_, -, hins'⟩ := hbind hins'
      obtain ⟨_, hlen, -⟩ := hbind hins'
      have hkey' : db.deadLetterSeq < sqliteIntegerMax := by
        unfold nextKey at hkey
        split at hkey
        · assumption
        · cases hkey
      have htext' : (Utf8.encode text).isSome := by
        change bindText text = _ at htext
        cases henc : Utf8.encode text with
        | some bs => rfl
        | none => rw [bindText, encodeUtf8, henc] at htext; cases htext
      rw [insertDeadLetter_eq hc.counted (hc.storable r hr) (raiseUnless_ok.mp hfailed) htext'
        (raiseUnless_ok.mp hlen) (Nat.succ_pos _) hseq hid hkey'] at hins
      cases hins
      exact .inl ⟨rfl, hkey'⟩

/-- One record of the move: it succeeds on a row within the byte limit; a failure is never a
violated UNIQUE constraint. -/
theorem eval_moveRecord (limits : SpoolLimits) {db : Database} {r : SpoolRecord} (text : PyStr)
    (failedNs : Int) (flag : Bool) {room : Room} (hc : db.Coherent) (hm : room.Matches db)
    (hr : r ∈ db.pending) :
    (∃ room', eval (moveRecord limits text failedNs flag r room) db =
        (.ok room', movedTo limits db (deadLetterOf r text failedNs flag)) ∧
      room'.Matches (movedTo limits db (deadLetterOf r text failedNs flag)) ∧
      (movedTo limits db (deadLetterOf r text failedNs flag)).Coherent ∧
      room'.moved = room.moved + 1 ∧
      room'.evicted + (movedTo limits db (deadLetterOf r text failedNs flag)).deadLetter.length =
        room.evicted + db.deadLetter.length + 1 ∧
      r.payload.length ≤ limits.maxDeadLetterBytes) ∨
    (limits.maxDeadLetterBytes < r.payload.length ∧ ∃ db',
      eval (moveRecord limits text failedNs flag r room) db = (.error deadLetterFull, db')) ∨
    (¬ Movable db text failedNs ∧ ∃ e db', NotUnique e ∧
      eval (moveRecord limits text failedNs flag r room) db = (.error e, db')) := by
  have hcount : eval deadLetterCount db = (.ok db.deadLetter.length, db) := rfl
  rw [moveRecord, clear_deadLetterCount.eval_bind, hcount]
  simp only
  rw [(clear_makeRoom _ _ _ _).eval_bind]
  rcases eval_makeRoom limits r.payload.length hc hm rfl with
    ⟨hp, room', hev, hmatch, hmoved, hevicted⟩ | ⟨hp, db', hev⟩
  · rw [hev]
    simp only
    have hsub := (keepNewest_suffix limits r.payload.length db.deadLetter).sublist
    have hc' := hc.evictedTo hsub
    rw [eval_execute_bind]
    rcases eval_insertDeadLetter text failedNs flag hc' hr with
      ⟨hins, hkey⟩ | ⟨hnm, e, hu, hins⟩
    · have hdel : Sql.deletePending r.sequence
          ((db.evictedTo (keepNewest limits r.payload.length db.deadLetter)).buried
            (deadLetterOf r text failedNs flag)) =
          .ok (1, movedTo limits db (deadLetterOf r text failedNs flag)) :=
        @deletePending_eq ((db.evictedTo _).buried _) (recounted_counted _) hc.pendingNodup _ hr
          (hc.key_range hr)
      rw [hins]
      dsimp only
      rw [eval_execute_bind, hdel]
      dsimp only
      rw [eval_check_ok (raiseUnless_ok (u := ()).mpr rfl)]
      refine .inl ⟨_, rfl, ?_, ?_, by rw [hmoved], ?_, hp⟩
      · obtain ⟨h1, h2⟩ := hmatch
        refine ⟨?_, ?_⟩
        · rw [movedTo_deadLetter, List.length_append, List.length_singleton]
          simp only [h1, evictedTo_deadLetter, deadLetterOf]
          push_cast
          rfl
        · rw [movedTo_deadLetter]
          simp only [h2, Sql.deadBytes, evictedTo_deadLetter, deadLetterOf, List.map_append,
            List.map_singleton, List.sum_append, List.sum_singleton]
          push_cast
          rfl
      · exact hc'.moved hr rfl rfl hkey
      · rw [movedTo_deadLetter, List.length_append, List.length_singleton]
        simp only [deadLetterOf]
        omega
    · rw [hins]
      exact .inr (.inr ⟨fun hmv => hnm ⟨hmv.encodable, hmv.nonempty, hmv.failed_ge,
        hmv.failed_le, hmv.key⟩, e, _, hu, rfl⟩)
  · rw [hev]
    exact .inr (.inl ⟨hp, db', rfl⟩)

namespace Database

/-- Rows moved one after the other. -/
def movedAll (limits : SpoolLimits) (text : PyStr) (failedNs : Int) (flag : Bool) (db : Database)
    (rs : List SpoolRecord) : Database :=
  rs.foldl (fun db r => movedTo limits db (deadLetterOf r text failedNs flag)) db

/-- A move takes the moved rows from `pending`, and no others. -/
theorem movedAll_pending (limits : SpoolLimits) (text : PyStr) (failedNs : Int) (flag : Bool) :
    ∀ (db : Database) (rs : List SpoolRecord),
      (movedAll limits text failedNs flag db rs).pending =
        db.pending.filter (·.sequence ∉ rs.map (·.sequence)) ∧
      (movedAll limits text failedNs flag db rs).pendingSeq = db.pendingSeq ∧
      (movedAll limits text failedNs flag db rs).spoolStats.isSome = db.spoolStats.isSome
  | db, [] => by simp [movedAll]
  | db, r :: rs => by
      obtain ⟨h1, h2, h3⟩ := movedAll_pending limits text failedNs flag
        (movedTo limits db (deadLetterOf r text failedNs flag)) rs
      refine ⟨?_, h2, h3.trans (movedTo_isSome _ _ _)⟩
      refine h1.trans ?_
      rw [movedTo_pending, List.filter_filter]
      refine List.filter_congr fun p _ => ?_
      simp only [List.map_cons, List.mem_cons, not_or, Bool.decide_and, deadLetterOf]
      exact Bool.and_comm _ _

end Database

/-- The loop of the move. -/
theorem eval_moveRecords (limits : SpoolLimits) (text : PyStr) (failedNs : Int) (flag : Bool) :
    ∀ {rs : List SpoolRecord} {db : Database} {room : Room}, db.Coherent → room.Matches db →
      (rs.map (·.sequence)).Nodup → (∀ r ∈ rs, r ∈ db.pending) →
      (∃ room', eval (moveRecords limits text failedNs flag rs room) db =
          (.ok room', movedAll limits text failedNs flag db rs) ∧
        (movedAll limits text failedNs flag db rs).Coherent ∧
        room'.moved = room.moved + rs.length ∧
        room'.evicted + (movedAll limits text failedNs flag db rs).deadLetter.length =
          room.evicted + db.deadLetter.length + rs.length ∧
        ∀ r ∈ rs, r.payload.length ≤ limits.maxDeadLetterBytes) ∨
      (∃ e db', NotUnique e ∧
        eval (moveRecords limits text failedNs flag rs room) db = (.error e, db'))
  | [], db, room, hc, hm, _, _ => .inl ⟨room, rfl, hc, rfl, rfl, by simp⟩
  | r :: rs, db, room, hc, hm, hn, hall => by
      rw [List.map_cons, List.nodup_cons] at hn
      rw [moveRecords, (clear_moveRecord _ _ _ _ _ _).eval_bind]
      rcases eval_moveRecord limits text failedNs flag hc hm (hall r (List.mem_cons_self ..)) with
        ⟨room', hev, hm', hc', hmoved, hevicted, hp⟩ | ⟨-, db', hev⟩ | ⟨-, e, db', hu, hev⟩
      · rw [hev]
        have hall' : ∀ p ∈ rs,
            p ∈ (movedTo limits db (deadLetterOf r text failedNs flag)).pending := by
          intro p hp
          rw [movedTo_pending, List.mem_filter]
          refine ⟨hall p (List.mem_cons_of_mem _ hp), ?_⟩
          have : p.sequence ≠ r.sequence := fun h => hn.1 (List.mem_map.mpr ⟨p, hp, h⟩)
          exact decide_eq_true this
        rcases eval_moveRecords limits text failedNs flag hc' hm' hn.2 hall' with
          ⟨room'', hev', hc'', hmoved', hevicted', hps⟩ | hfail
        · refine .inl ⟨room'', hev', hc'', ?_, ?_, ?_⟩
          · rw [hmoved', hmoved, List.length_cons]
            omega
          · refine hevicted'.trans ?_
            rw [hevicted, List.length_cons]
            omega
          · rintro p (_ | ⟨_, hp'⟩)
            · exact hp
            · exact hps p hp'
        · exact .inr hfail
      · rw [hev]
        exact .inr ⟨deadLetterFull, db', by simp [NotUnique, deadLetterFull], rfl⟩
      · rw [hev]
        exact .inr ⟨e, db', hu, rfl⟩

/-- The rows to move are read, or one of them is not there. -/
theorem eval_selectRecords {db : Database} (hc : db.Coherent) : ∀ (seqs : List Int),
    (∃ rs, rs.map (·.sequence) = seqs ∧ (∀ r ∈ rs, r ∈ db.pending) ∧
      eval (selectRecords seqs) db = (.ok rs, db)) ∨
    ((∃ s ∈ seqs, s ∉ db.pending.map (·.sequence)) ∧
      ∃ e, NotUnique e ∧ eval (selectRecords seqs) db = (.error e, db))
  | [] => .inl ⟨[], rfl, by simp, rfl⟩
  | s :: seqs => by
      rw [selectRecords, eval_execute_bind]
      by_cases hmem : s ∈ db.pending.map (·.sequence)
      · obtain ⟨r, hr, rfl⟩ := List.mem_map.mp hmem
        simp only [Sql.selectPending, bindInteger_eq (hc.key_range hr),
          find?_key hc.pendingNodup hr, bind, Except.bind, pure, Except.pure]
        have hbind := (clear_selectRecords seqs).eval_bind (fun rs => pure (r :: rs)) db
        rcases eval_selectRecords hc seqs with
          ⟨rs, hmap, hall, hev⟩ | ⟨⟨s', hs', hmiss⟩, e, hu, hev⟩
        · rw [hev] at hbind
          refine .inl ⟨r :: rs, by rw [List.map_cons, hmap], ?_, hbind⟩
          rintro p (_ | ⟨_, hp⟩)
          · exact hr
          · exact hall p hp
        · rw [hev] at hbind
          exact .inr ⟨⟨s', List.mem_cons_of_mem _ hs', hmiss⟩, e, hu, hbind⟩
      · refine .inr ⟨⟨s, List.mem_cons_self .., hmem⟩, ?_⟩
        by_cases hrange : sqliteIntegerMin ≤ s ∧ s ≤ sqliteIntegerMax
        · simp only [Sql.selectPending, bindInteger_eq hrange, find?_no_key hmem, bind,
            Except.bind, pure, Except.pure]
          exact ⟨_, by simp [NotUnique, spoolStateError], rfl⟩
        · simp only [Sql.selectPending, bindInteger_error hrange, bind, Except.bind]
          exact ⟨_, by simp [NotUnique], rfl⟩

/-- The transaction of the move, on healthy storage. -/
theorem eval_moveTransaction (limits : SpoolLimits) {db : Database} {seqs : List Int}
    (text : PyStr) (failedNs : Int) (flag : Bool) (hc : db.Coherent) (ho : db.Opened)
    (hn : seqs.Nodup) :
    (∃ rs k, rs.map (·.sequence) = seqs ∧ (∀ r ∈ rs, r ∈ db.pending) ∧
      eval (moveTransaction limits seqs text failedNs flag) db =
        (.ok (seqs.length, k), movedAll limits text failedNs flag db rs) ∧
      (movedAll limits text failedNs flag db rs).Coherent ∧
      k + (movedAll limits text failedNs flag db rs).deadLetter.length =
        db.deadLetter.length + seqs.length ∧
      ∀ r ∈ rs, r.payload.length ≤ limits.maxDeadLetterBytes) ∨
    (∃ e, NotUnique e ∧
      eval (moveTransaction limits seqs text failedNs flag) db = (.error e, db)) := by
  rw [moveTransaction, SQLiteSpool.transaction,
    (clear_moveBody limits seqs text failedNs flag).eval_transaction, moveBody,
    (clear_selectRecords seqs).eval_bind]
  rcases eval_selectRecords hc seqs with ⟨rs, hmap, hall, hev⟩ | ⟨-, e, hu, hev⟩
  · rw [hev]
    simp only [clear_statsRow.eval_bind, eval_statsRow ho]
    rw [(clear_moveRecords _ _ _ _ _ _).eval_bind]
    rcases eval_moveRecords limits text failedNs flag hc (SQLiteSpool.matches_start db)
        (hmap.symm ▸ hn) hall with
      ⟨room', hev', hc', hmoved, hevicted, hps⟩ | ⟨e, db', hu, hev'⟩
    · rw [hev']
      refine .inl ⟨rs, room'.evicted, hmap, hall, ?_, hc', ?_, hps⟩
      rotate_left
      · rw [hevicted, ← hmap, List.length_map,
          show (Room.start (Sql.counts db)).evicted = 0 from rfl, Nat.zero_add]
      have hlen : room'.moved = seqs.length := by
        rw [hmoved, ← hmap, List.length_map]
        exact Nat.zero_add _
      simp only [Session.eval_pure, hlen]
    · rw [hev']
      exact .inr ⟨e, hu, rfl⟩
  · rw [hev]
    exact .inr ⟨e, hu, rfl⟩

variable {c c' : Conn Database StorageFault}

/-- **Where `move_to_dead_letter` returns, its rows were all pending, and each is now a dead
letter** or was evicted again by a later one of them; the two results count the moved and the
evicted rows. -/
theorem moveToDeadLetter_ok {seqs : List Int} {text : PyStr} {failedNs : Int} {flag : Bool}
    {m k : Nat} (hc : c.db.Coherent) (ho : c.db.Opened)
    (h : run (moveToDeadLetter limits seqs text failedNs flag) c = (.ok (m, k), c')) :
    ∃ rs, rs.map (·.sequence) = seqs ∧ (∀ r ∈ rs, r ∈ c.db.pending) ∧
      c'.db = movedAll limits text failedNs flag c.db rs ∧ c'.db.Coherent ∧ m = seqs.length ∧
      k + c'.db.deadLetter.length = c.db.deadLetter.length + seqs.length ∧
      ∀ r ∈ rs, r.payload.length ≤ limits.maxDeadLetterBytes := by
  obtain ⟨db, faults⟩ := c
  have hev := (clear_moveToDeadLetter limits seqs text failedNs flag).ok h
  generalize c'.db = db' at hev ⊢
  rw [moveToDeadLetter] at hev
  cases hseq : sequenceTuple seqs with
  | error e =>
      rw [eval_check_error hseq] at hev
      cases hev
  | ok u =>
      obtain ⟨-, hn⟩ := sequenceTuple_ok.mp hseq
      rw [eval_check_ok hseq] at hev
      cases htext : requireErrorText text with
      | error e =>
          rw [eval_check_error htext] at hev
          cases hev
      | ok u =>
          rw [eval_check_ok htext] at hev
          cases hfailed : sqliteInteger "failed_ns" failedNs with
          | error e =>
              rw [eval_check_error hfailed] at hev
              cases hev
          | ok u =>
              rw [eval_check_ok hfailed] at hev
              split at hev
              · next hnil =>
                cases hev
                subst hnil
                exact ⟨[], rfl, by simp, rfl, hc, rfl, by simp, by simp⟩
              · rw [Session.eval_mapError] at hev
                rcases eval_moveTransaction limits text failedNs flag hc ho hn with
                  ⟨rs, k', hmap, hall, hev', hc', hk, hps⟩ | ⟨e, -, hev'⟩
                · rw [hev'] at hev
                  cases hev
                  exact ⟨rs, hmap, hall, rfl, hc', rfl, hk, hps⟩
                · rw [hev'] at hev
                  cases hev

/-- The records of pending sequences. -/
theorem eval_selectRecords_pending {db : Database} (hc : db.Coherent) :
    ∀ {rs : List SpoolRecord}, (∀ r ∈ rs, r ∈ db.pending) →
      eval (selectRecords (rs.map (·.sequence))) db = (.ok rs, db)
  | [], _ => rfl
  | r :: rs, hall => by
      have hr := hall r (List.mem_cons_self ..)
      have hbind := (clear_selectRecords (rs.map (·.sequence))).eval_bind
        (fun rs' => pure (r :: rs')) db
      rw [eval_selectRecords_pending hc fun p hp => hall p (List.mem_cons_of_mem _ hp)] at hbind
      rw [List.map_cons, selectRecords, eval_execute_bind]
      simp only [Sql.selectPending, bindInteger_eq (hc.key_range hr),
        find?_key hc.pendingNodup hr, bind, Except.bind, pure, Except.pure]
      exact hbind

/-- On healthy storage a move is its loop over the records, undone if it raises. -/
theorem eval_moveToDeadLetter (limits : SpoolLimits) {db : Database} {rs : List SpoolRecord}
    {text : PyStr} {failedNs : Int} (flag : Bool) (hc : db.Coherent) (ho : db.Opened)
    (hn : (rs.map (·.sequence)).Nodup) (hall : ∀ r ∈ rs, r ∈ db.pending) (hrs : rs ≠ [])
    (hne : text ≠ []) (hfailed : sqliteIntegerMin ≤ failedNs ∧ failedNs ≤ sqliteIntegerMax) :
    eval (moveToDeadLetter limits (rs.map (·.sequence)) text failedNs flag) db =
      match eval (moveRecords limits text failedNs flag rs (.start (Sql.counts db))) db with
      | (.ok room, db') => (.ok (room.moved, room.evicted), db')
      | (.error e, _) =>
        (.error (classified (py "failed to move events to dead letter") none e), db) := by
  have hpos : ∀ s ∈ rs.map (·.sequence), 0 < s := by
    intro s hs
    obtain ⟨r, hr, rfl⟩ := List.mem_map.mp hs
    exact (hc.pendingKeys r (hall r hr)).1
  rw [moveToDeadLetter, eval_check_ok (sequenceTuple_ok (u := ()).mpr ⟨hpos, hn⟩),
    eval_check_ok (show requireErrorText text = .ok () from raiseUnless_ok.mpr hne),
    eval_check_ok (show sqliteInteger "failed_ns" failedNs = .ok () from
      raiseUnless_ok.mpr hfailed), if_neg (by simpa using hrs),
    Session.eval_mapError, moveTransaction, SQLiteSpool.transaction,
    (clear_moveBody limits _ text failedNs flag).eval_transaction, moveBody,
    (clear_selectRecords _).eval_bind, eval_selectRecords_pending hc hall]
  simp only [clear_statsRow.eval_bind, eval_statsRow ho]
  rw [(clear_moveRecords _ _ _ _ _ _).eval_bind]
  rcases eval (moveRecords limits text failedNs flag rs (.start (Sql.counts db))) db with
    ⟨e | room, db'⟩ <;> rfl

/-- On healthy storage a pending row is moved exactly if its payload is within the byte limit of
the dead letters. -/
theorem eval_moveToDeadLetter_one {db : Database} {r : SpoolRecord} {text : PyStr}
    {failedNs : Int} {flag : Bool} (hc : db.Coherent) (ho : db.Opened) (hr : r ∈ db.pending)
    (hne : text ≠ []) (hm : Movable db text failedNs) :
    (r.payload.length ≤ limits.maxDeadLetterBytes ∧ ∃ k,
      eval (moveToDeadLetter limits [r.sequence] text failedNs flag) db =
        (.ok (1, k), movedTo limits db (deadLetterOf r text failedNs flag)) ∧
      (movedTo limits db (deadLetterOf r text failedNs flag)).Coherent) ∨
    (limits.maxDeadLetterBytes < r.payload.length ∧
      eval (moveToDeadLetter limits [r.sequence] text failedNs flag) db =
        (.error deadLetterFull, db)) := by
  have hpending : ∀ p ∈ [r], p ∈ db.pending := fun p hp => List.mem_singleton.mp hp ▸ hr
  have hnodup : ([r].map (·.sequence)).Nodup := List.nodup_singleton _
  have hev := eval_moveToDeadLetter limits flag hc ho hnodup hpending
    (List.cons_ne_nil r []) hne ⟨hm.failed_ge, hm.failed_le⟩
  rw [List.map_singleton, moveRecords, (clear_moveRecord _ _ _ _ _ _).eval_bind] at hev
  rcases eval_moveRecord limits text failedNs flag hc (SQLiteSpool.matches_start db) hr with
    ⟨room', hrec, -, hc', hmoved, -, hp⟩ | ⟨hp, db', hrec⟩ | ⟨hnm, -⟩
  · rw [hrec] at hev
    refine .inl ⟨hp, room'.evicted, ?_, hc'⟩
    rw [hev]
    simp only [moveRecords, Session.eval_pure, hmoved]
    rfl
  · rw [hrec] at hev
    exact .inr ⟨hp, hev⟩
  · exact absurd hm hnm

end

/-! ## Deleting dead letters, reading and opening -/

section
variable {c c' : Conn Database StorageFault}

/-- The dead letters without those of the given sequences. -/
theorem eval_deleteDeadLetters : ∀ (seqs : List Int) {db : Database}, db.Coherent →
    (∃ rest, rest.Sublist db.deadLetter ∧ (db.evictedTo rest).Coherent ∧
      eval (seqs.forM deleteDeadLetter) db = (.ok (), db.evictedTo rest)) ∨
    (∃ e db', eval (seqs.forM deleteDeadLetter) db = (.error e, db'))
  | [], db, hc => .inl ⟨db.deadLetter, .refl _, by rwa [evictedTo_self hc.counted], by
      rw [evictedTo_self hc.counted]
      rfl⟩
  | s :: seqs, db, hc => by
      have hbind := (clear_deleteDeadLetter s).eval_bind (fun _ => seqs.forM deleteDeadLetter) db
      have hone : (∃ rest, rest.Sublist db.deadLetter ∧
          eval (deleteDeadLetter s) db = (.ok (), db.evictedTo rest)) ∨
          (∃ e db', eval (deleteDeadLetter s) db = (.error e, db')) := by
        rw [deleteDeadLetter, eval_execute_bind]
        by_cases hrange : sqliteIntegerMin ≤ s ∧ s ≤ sqliteIntegerMax
        · by_cases hmem : s ∈ db.deadLetter.map (·.originalSequence)
          · obtain ⟨d, hd, rfl⟩ := List.mem_map.mp hmem
            have hn : (db.deadLetter.map (·.originalSequence)).Nodup :=
              (List.nodup_append.mp hc.sequences).2.1
            rw [deleteDeadLetterBy_eq (·.originalSequence) hc.counted hn hd hrange]
            exact .inl ⟨_, List.filter_sublist, rfl⟩
          · rw [deleteDeadLetterBy_absent hmem hrange]
            exact .inr ⟨_, _, rfl⟩
        · rw [Sql.deleteDeadLetterBy, bindInteger_error hrange]
          exact .inr ⟨_, _, rfl⟩
      rcases hone with ⟨rest, hsub, hev⟩ | ⟨e, db', hev⟩
      · rw [hev] at hbind
        rcases eval_deleteDeadLetters seqs (hc.evictedTo hsub) with
          ⟨rest', hsub', hc', hev'⟩ | ⟨e, db', hev'⟩
        · rw [evictedTo_evictedTo] at hc' hev'
          exact .inl ⟨rest', hsub'.trans hsub, hc', hbind.trans hev'⟩
        · exact .inr ⟨e, db', hbind.trans hev'⟩
      · rw [hev] at hbind
        exact .inr ⟨e, db', hbind⟩

/-- **Where `delete_dead_letters` returns, dead letters are gone** and nothing else has changed. -/
theorem deleteDeadLetters_ok {seqs : List Int} {n : Nat} (hc : c.db.Coherent)
    (h : run (deleteDeadLetters seqs) c = (.ok n, c')) :
    ∃ rest, rest.Sublist c.db.deadLetter ∧ c'.db = c.db.evictedTo rest ∧ c'.db.Coherent := by
  obtain ⟨db, faults⟩ := c
  have hev := (clear_deleteDeadLetters seqs).ok h
  generalize c'.db = db' at hev ⊢
  rw [deleteDeadLetters] at hev
  cases hseq : sequenceTuple seqs with
  | error e =>
      rw [eval_check_error hseq] at hev
      cases hev
  | ok u =>
      rw [eval_check_ok hseq] at hev
      split at hev
      · cases hev
        exact ⟨db.deadLetter, .refl _, (evictedTo_self hc.counted).symm, hc⟩
      · have hclear := Session.Transparent.forM clear_deleteDeadLetter seqs
        rw [(clear_wrapped _ (clear_transaction hclear)).eval_bind, Session.eval_mapError,
          SQLiteSpool.transaction, hclear.eval_transaction] at hev
        rcases eval_deleteDeadLetters seqs hc with
          ⟨rest, hsub, hc', hev'⟩ | ⟨e, db', hev'⟩
        · rw [hev'] at hev
          cases hev
          exact ⟨rest, hsub, rfl, hc'⟩
        · rw [hev'] at hev
          cases hev

/-- The database that opening leaves: the same rows, with the counters set to what they are. -/
def Database.reopened (db : Database) : Database :=
  { db with userVersion := schemaVersion, spoolStats := some (Sql.counts db) }

/-- The counters are set to what they count. -/
theorem setStats_eq {db : Database} {s t : SpoolStats} (h : db.spoolStats = some s)
    (ht : t = Sql.counts db) :
    Sql.setStats t db = .ok ((), { db with spoolStats := some (Sql.counts db) }) := by
  subst ht
  simp only [Sql.setStats, updateStats, h, requireCheck, raiseUnless, bind, Except.bind]
  simp [Sql.counts, pure, Except.pure]

/-- Reconciled counters count. -/
theorem eval_reconcileStats (db : Database) {s : SpoolStats} (h : db.spoolStats = some s) :
    eval reconcileStats db = (.ok (), { db with spoolStats := some (Sql.counts db) }) := by
  rw [reconcileStats, eval_execute_bind]
  simp only [pure, Except.pure]
  rw [eval_execute_bind]
  dsimp only
  rw [execute, Session.eval_execute]
  rw [setStats_eq h rfl]

/-- Preparing the schema of a coherent database succeeds on healthy storage. -/
theorem eval_initializeSchema {db : Database} (hc : db.Coherent) :
    eval initializeSchema db = (.ok (), db.reopened) := by
  let db₁ : Database := { db with spoolStats := some (db.spoolStats.getD ⟨0, 0, 0, 0⟩) }
  have hforM : eval (schemaStatements.forM fun _ => Session.touch storageFailure) db =
      (.ok (), db) := by
    simp only [schemaStatements, List.replicate]
    rfl
  have hoverlap : Sql.overlap db₁ = false := (overlap_eq_false hc : Sql.overlap db = false)
  have hbody : eval prepareSchema db = (.ok (), db.reopened) := by
    rw [prepareSchema, eval_execute_bind]
    simp only [Sql.selectUserVersion, pure, Except.pure]
    rw [eval_check_ok (raiseUnless_ok (u := ()).mpr hc.version),
      (Session.Transparent.forM (fun _ : Unit => clear_touch) _).eval_bind, hforM]
    simp only
    rw [eval_execute_bind]
    simp only [Sql.insertStats, pure, Except.pure]
    rw [eval_execute_bind]
    simp only [Sql.selectOverlap, pure, Except.pure]
    rw [eval_check_ok (raiseUnless_ok (u := ()).mpr hoverlap), clear_reconcileStats.eval_bind,
      eval_reconcileStats db₁ rfl]
    simp only
    rcases hc.version with hv | hv
    · rw [if_pos hv, execute, Session.eval_execute]
      rfl
    · rw [if_neg (by rw [hv]; decide)]
      simp only [Database.reopened, ← hv]
      rfl
  rw [initializeSchema, SQLiteSpool.transaction, clear_prepareSchema.eval_transaction, hbody]

/-- **Opening a coherent database keeps its rows** and leaves it coherent, with its counters. -/
theorem openSpool_ok {pragmas : Pragmas} {freeBytes : Option Int} {u : Unit}
    (hc : c.db.Coherent) (h : run (openSpool pragmas freeBytes) c = (.ok u, c')) :
    c'.db = c.db.reopened ∧ c'.db.Coherent ∧ c'.db.Opened := by
  obtain ⟨db, faults⟩ := c
  have hev := (clear_openSpool pragmas freeBytes).ok h
  generalize c'.db = db' at hev ⊢
  have hok : eval (openSpool pragmas freeBytes) db = (.ok (), db.reopened) ∨
      ∃ e db', eval (openSpool pragmas freeBytes) db = (.error e, db') := by
    rw [openSpool, Session.eval_mapError]
    simp only [clear_touch.eval_bind, Session.eval_touch]
    cases hwal : raiseUnless (pragmas.journalMode.map lowerAscii = py "wal")
        (spoolStateError (py "SQLite did not enable WAL mode: " ++ pragmas.journalMode)) with
    | error e => exact .inr ⟨_, _, by rw [eval_check_error rfl]⟩
    | ok u =>
        rw [eval_check_ok rfl]
        simp only [clear_touch.eval_bind, Session.eval_touch]
        cases hfull : raiseUnless (pragmas.synchronous = 2)
            (spoolStateError (py "SQLite did not enable synchronous=FULL: " ++
              intText pragmas.synchronous)) with
        | error e => exact .inr ⟨_, _, by rw [eval_check_error rfl]⟩
        | ok u => exact .inl (by rw [eval_check_ok rfl, eval_initializeSchema hc])
  rcases hok with hok | ⟨e, db₁, hok⟩
  · rw [hok] at hev
    cases hev
    exact ⟨rfl, hc.reopened, rfl⟩
  · rw [hok] at hev
    cases hev

end

end QuestDbWriter
