import QuestDbWriter.Lib.Retention
import QuestDbWriter.Spool.History

/-!
# The dead letters that are kept

`move_to_dead_letter` drops the oldest dead letters one at a time, before each of the rows it moves,
and may drop rows that it has just moved. `movedAll_deadLetter` says that what it leaves is the
longest suffix of the old dead letters and the moved rows that is within both limits, and
`move_keeps_newest` that it raises `DeadLetterFullError` exactly for a row over the byte limit.
-/

namespace QuestDbWriter

open Lib Database SQLiteSpool
open Session (eval run)

/-! ## The limits as a bound on lists -/

/-- The dead letters are within the limits. -/
def SpoolLimits.holds (limits : SpoolLimits) (ds : List DeadLetterRecord) : Bool :=
  ds.length ≤ limits.maxDeadLetterRows && Sql.deadBytes ds ≤ limits.maxDeadLetterBytes

/-- The bytes of dead letters add up. -/
theorem deadBytes_append (ds ds' : List DeadLetterRecord) :
    Sql.deadBytes (ds ++ ds') = Sql.deadBytes ds + Sql.deadBytes ds' := by
  rw [Sql.deadBytes, List.map_append, List.sum_append]
  rfl

section
variable {limits : SpoolLimits}

/-- The limits hold where both of them do. -/
theorem holds_iff {ds : List DeadLetterRecord} :
    limits.holds ds ↔
      ds.length ≤ limits.maxDeadLetterRows ∧ Sql.deadBytes ds ≤ limits.maxDeadLetterBytes := by
  simp [SpoolLimits.holds]

/-- No dead letters are within every limit. -/
theorem holds_nil : limits.holds [] := holds_iff.mpr ⟨Nat.zero_le _, Nat.zero_le _⟩

/-- A part of dead letters within the limits is within them. -/
theorem holds_shrinking : Shrinking limits.holds := by
  rintro s t ⟨before, after, rfl⟩ ht
  obtain ⟨hrows, hbytes⟩ := holds_iff.mp ht
  rw [List.length_append, List.length_append] at hrows
  rw [deadBytes_append, deadBytes_append] at hbytes
  exact holds_iff.mpr ⟨by omega, by omega⟩

/-- A row within the byte limit fits alone. -/
theorem holds_singleton {d : DeadLetterRecord}
    (h : d.payload.length ≤ limits.maxDeadLetterBytes) : limits.holds [d] := by
  refine holds_iff.mpr ⟨limits.deadLetterRows_pos, ?_⟩
  simpa [Sql.deadBytes] using h

/-- A payload fits where the dead letters with its row are within the limits. -/
theorem fits_eq (d : DeadLetterRecord) (ds : List DeadLetterRecord) :
    fits limits d.payload.length ds = limits.holds (ds ++ [d]) := by
  have hbytes : Sql.deadBytes [d] = d.payload.length := by simp [Sql.deadBytes]
  rw [Bool.eq_iff_iff, holds_iff, deadBytes_append, hbytes, List.length_append, fits]
  simp

/-- The eviction loop and the insert that follows it. -/
theorem keepNewest_eq {d : DeadLetterRecord} (h : d.payload.length ≤ limits.maxDeadLetterBytes)
    (ds : List DeadLetterRecord) :
    keepNewest limits d.payload.length ds ++ [d] = retain limits.holds (ds ++ [d]) := by
  rw [retain_concat (holds_singleton h)]
  congr 1
  induction ds with
  | nil => rfl
  | cons c ds ih => rw [keepNewest, retain, ih, fits_eq d (c :: ds)]

end

/-! ## The loop -/

/-- The dead letters of moved rows, with the keys that follow `seq`. -/
def deadLettersOf (text : PyStr) (failedNs : Int) (flag : Bool) :
    Int → List SpoolRecord → List DeadLetterRecord
  | _, [] => []
  | seq, r :: rs =>
    { deadLetterOf r text failedNs flag with deadLetterId := seq + 1 } ::
      deadLettersOf text failedNs flag (seq + 1) rs

/-- Each row makes one dead letter. -/
@[simp] theorem deadLettersOf_length (text : PyStr) (failedNs : Int) (flag : Bool) (seq : Int)
    (rs : List SpoolRecord) : (deadLettersOf text failedNs flag seq rs).length = rs.length := by
  induction rs generalizing seq with
  | nil => rfl
  | cons r rs ih => rw [deadLettersOf, List.length_cons, ih, List.length_cons]

/-- A moved row has one attempt more, and stays uncertain if it was. -/
theorem deadLettersOf_attempts (text : PyStr) (failedNs : Int) (flag : Bool) (seq : Int)
    (rs : List SpoolRecord) :
    (deadLettersOf text failedNs flag seq rs).map
        (fun d => (d.originalSequence, d.attemptCount, d.deliveryUncertain)) =
      rs.map fun r => (r.sequence, r.attemptCount + 1, r.deliveryUncertain || flag) := by
  induction rs generalizing seq with
  | nil => rfl
  | cons r rs ih =>
    rw [deadLettersOf, List.map_cons, ih, List.map_cons]
    rfl

section
variable {limits : SpoolLimits} {text : PyStr} {failedNs : Int} {flag : Bool}

/-- One row. -/
theorem movedTo_retain {r : SpoolRecord} (db : Database)
    (h : r.payload.length ≤ limits.maxDeadLetterBytes) :
    (movedTo limits db (deadLetterOf r text failedNs flag)).deadLetter =
      retain limits.holds (db.deadLetter ++
        [{ deadLetterOf r text failedNs flag with deadLetterId := db.deadLetterSeq + 1 }]) :=
  keepNewest_eq (d := { deadLetterOf r text failedNs flag with
    deadLetterId := db.deadLetterSeq + 1 }) h db.deadLetter

/-- **A move leaves the longest suffix that is within the limits**, whether the old dead letters
were within them or not. -/
theorem movedAll_deadLetter : ∀ {rs : List SpoolRecord} (db : Database), rs ≠ [] →
    (∀ r ∈ rs, r.payload.length ≤ limits.maxDeadLetterBytes) →
    (movedAll limits text failedNs flag db rs).deadLetter =
      retain limits.holds
        (db.deadLetter ++ deadLettersOf text failedNs flag db.deadLetterSeq rs)
  | [], _, hne, _ => absurd rfl hne
  | [r], db, _, hp => movedTo_retain db (hp r (List.mem_cons_self ..))
  | r :: p :: rs, db, _, hp => by
      have ih := movedAll_deadLetter (movedTo limits db (deadLetterOf r text failedNs flag))
        (List.cons_ne_nil p rs) fun x hx => hp x (List.mem_cons_of_mem r hx)
      rw [movedTo_retain db (hp r (List.mem_cons_self ..)),
        retain_append holds_shrinking holds_nil, List.append_assoc, List.singleton_append] at ih
      exact ih

/-- The text and the time of a move can be stored. -/
structure Recordable (text : PyStr) (failedNs : Int) : Prop where
  encodable : (Utf8.encode text).isSome
  nonempty : 0 < sqlLength text
  failed_ge : sqliteIntegerMin ≤ failedNs
  failed_le : failedNs ≤ sqliteIntegerMax

/-- The loop of the move, with keys left: it raises for a row over the byte limit only. -/
theorem eval_moveRecords_recordable (limits : SpoolLimits) (flag : Bool)
    (ht : Recordable text failedNs) :
    ∀ {rs : List SpoolRecord} {db : Database} {room : Room}, db.Coherent → room.Matches db →
      (rs.map (·.sequence)).Nodup → (∀ r ∈ rs, r ∈ db.pending) →
      db.deadLetterSeq + rs.length ≤ sqliteIntegerMax →
      ((∀ r ∈ rs, r.payload.length ≤ limits.maxDeadLetterBytes) ∧ ∃ room',
        eval (moveRecords limits text failedNs flag rs room) db =
          (.ok room', movedAll limits text failedNs flag db rs)) ∨
      ((∃ r ∈ rs, limits.maxDeadLetterBytes < r.payload.length) ∧ ∃ db',
        eval (moveRecords limits text failedNs flag rs room) db = (.error deadLetterFull, db'))
  | [], db, room, _, _, _, _, _ => .inl ⟨nofun, room, rfl⟩
  | r :: rs, db, room, hc, hm, hn, hall, hkeys => by
      rw [List.map_cons, List.nodup_cons] at hn
      rw [List.length_cons, Nat.cast_succ] at hkeys
      rw [moveRecords, (clear_moveRecord _ _ _ _ _ _).eval_bind]
      rcases eval_moveRecord limits text failedNs flag hc hm (hall r (List.mem_cons_self ..)) with
        ⟨room', hev, hm', hc', -, -, hp⟩ | ⟨hp, db', hev⟩ | ⟨hnot, -⟩
      · have hall' : ∀ p ∈ rs,
            p ∈ (movedTo limits db (deadLetterOf r text failedNs flag)).pending := by
          intro p hp
          rw [movedTo_pending, List.mem_filter]
          refine ⟨hall p (List.mem_cons_of_mem _ hp), ?_⟩
          have hne : p.sequence ≠ r.sequence := fun h => hn.1 (List.mem_map.mpr ⟨p, hp, h⟩)
          exact decide_eq_true hne
        have hkeys' : (movedTo limits db (deadLetterOf r text failedNs flag)).deadLetterSeq +
            rs.length ≤ sqliteIntegerMax := by
          change db.deadLetterSeq + 1 + rs.length ≤ _
          omega
        rw [hev]
        rcases eval_moveRecords_recordable limits flag ht hc' hm' hn.2 hall' hkeys' with
          ⟨hps, room'', hev'⟩ | ⟨⟨p, hp, hlarge⟩, db', hev'⟩
        · exact .inl ⟨List.forall_mem_cons.mpr ⟨hp, hps⟩, room'', hev'⟩
        · exact .inr ⟨⟨p, List.mem_cons_of_mem r hp, hlarge⟩, db', hev'⟩
      · rw [hev]
        exact .inr ⟨⟨r, List.mem_cons_self .., hp⟩, db', rfl⟩
      · exact absurd ⟨ht.encodable, ht.nonempty, ht.failed_ge, ht.failed_le, by omega⟩ hnot

end

/-! ## The call -/

/-- The rows of pending sequences, in the order of the sequences. -/
def Database.records (db : Database) (seqs : List Int) : List SpoolRecord :=
  seqs.filterMap fun s => db.pending.find? (·.sequence = s)

/-- The rows of pending keys are pending rows. -/
theorem records_pending {db : Database} (hc : db.Coherent) : ∀ {seqs : List Int},
    (∀ s ∈ seqs, s ∈ db.pending.map (·.sequence)) →
      (db.records seqs).map (·.sequence) = seqs ∧ ∀ r ∈ db.records seqs, r ∈ db.pending
  | [], _ => ⟨rfl, nofun⟩
  | s :: seqs, hall => by
      obtain ⟨r, hr, rfl⟩ := List.mem_map.mp (hall s (List.mem_cons_self ..))
      obtain ⟨hmap, hmem⟩ := records_pending hc fun s hs => hall s (List.mem_cons_of_mem _ hs)
      have hcons : db.records (r.sequence :: seqs) = r :: db.records seqs :=
        List.filterMap_cons_some (find?_key hc.pendingNodup hr)
      rw [hcons, List.map_cons, hmap]
      exact ⟨rfl, List.forall_mem_cons.mpr ⟨hr, hmem⟩⟩

/-- The longest suffix of the dead letters that is within the limits. -/
structure KeptNewest (limits : SpoolLimits) (all kept : List DeadLetterRecord) : Prop where
  suffix : kept <:+ all
  holds : limits.holds kept
  longest : ∀ ds, ds <:+ all → limits.holds ds → ds.length ≤ kept.length

/-- Retention keeps the newest dead letters. -/
theorem keptNewest_retain (limits : SpoolLimits) (all : List DeadLetterRecord) :
    KeptNewest limits all (retain limits.holds all) where
  suffix := retain_suffix limits.holds all
  holds := retain_fits holds_nil all
  longest _ hs hp := (retain_longest hs hp).length_le

/-- **`move_to_dead_letter` keeps exactly the newest rows that fit.** From every state a spool file
can reach, for pending rows in any order: if each of their payloads is within the byte limit, they
leave `pending` and follow the old dead letters, of which the longest suffix within the limits is
kept; the results count the moved and the dropped rows. Otherwise nothing changes. -/
theorem move_keeps_newest (calls : List SpoolCall) (limits : SpoolLimits)
    (hopen : (SpoolFile.create.runCalls calls).limits = some limits) (db : Database)
    (hdb : db = (SpoolFile.create.runCalls calls).db) (seqs : List Int) (hne : seqs ≠ [])
    (hn : seqs.Nodup) (hall : ∀ s ∈ seqs, s ∈ db.pending.map (·.sequence)) (text : PyStr)
    (failedNs : Int) (flag : Bool) (ht : Recordable text failedNs)
    (hkeys : db.deadLetterSeq + seqs.length ≤ sqliteIntegerMax) :
    let rows := db.records seqs
    let moved := deadLettersOf text failedNs flag db.deadLetterSeq rows
    let all := db.deadLetter ++ moved
    (moved.map fun d => (d.originalSequence, d.attemptCount, d.deliveryUncertain)) =
        rows.map (fun r => (r.sequence, r.attemptCount + 1, r.deliveryUncertain || flag)) ∧
      ((∀ r ∈ rows, r.payload.length ≤ limits.maxDeadLetterBytes) → ∃ db',
        eval (moveToDeadLetter limits seqs text failedNs flag) db =
          (.ok (seqs.length, all.length - db'.deadLetter.length), db') ∧
        KeptNewest limits all db'.deadLetter ∧
        db'.pending = db.pending.filter (·.sequence ∉ seqs) ∧ db'.pendingSeq = db.pendingSeq ∧
        db'.spoolStats = some (Sql.counts db')) ∧
      ((∃ r ∈ rows, limits.maxDeadLetterBytes < r.payload.length) →
        eval (moveToDeadLetter limits seqs text failedNs flag) db =
            (.error deadLetterFull, db)) := by
  intro rows moved all
  have hsound := SpoolFile.runCalls_sound calls SpoolFile.create_sound
  have hc : db.Coherent := hdb ▸ hsound.coherent
  have ho : db.Opened := hdb ▸ hsound.opened (by rw [hopen]; rfl)
  obtain ⟨hmap, hmem⟩ := records_pending hc hall
  have hrows : rows ≠ [] := by
    intro hnil
    rw [show db.records seqs = [] from hnil] at hmap
    exact hne hmap.symm
  have htext : text ≠ [] := by
    rintro rfl
    exact absurd ht.nonempty (lt_irrefl 0)
  have hn' : (rows.map (·.sequence)).Nodup := hmap.symm ▸ hn
  have hlen : rows.length = seqs.length := by
    have h := congrArg List.length hmap
    rwa [List.length_map] at h
  have hev := eval_moveToDeadLetter limits flag hc ho hn' hmem hrows htext
    ⟨ht.failed_ge, ht.failed_le⟩
  rw [hmap] at hev
  have hloop := eval_moveRecords_recordable limits flag ht hc
    (SQLiteSpool.matches_start db) hn' hmem (hlen.symm ▸ hkeys)
  refine ⟨deadLettersOf_attempts text failedNs flag db.deadLetterSeq rows, fun hp => ?_,
    fun ⟨r, hr, hlarge⟩ => ?_⟩
  · rcases eval_moveRecords limits text failedNs flag hc (SQLiteSpool.matches_start db)
        hn' hmem with
      ⟨room, hroom, hc', hmoved, hevicted, -⟩ | ⟨e, db', -, hfail⟩
    · refine ⟨movedAll limits text failedNs flag db rows, ?_, ?_, ?_, ?_, ?_⟩
      · have hall_length : all.length = db.deadLetter.length + rows.length := by
          rw [List.length_append, deadLettersOf_length]
        have hmoved' : room.moved = seqs.length := by
          rw [hmoved, hlen]
          exact Nat.zero_add _
        have hevicted' : room.evicted = all.length -
            (movedAll limits text failedNs flag db rows).deadLetter.length := by
          have hstart : (Room.start (Sql.counts db)).evicted = 0 := rfl
          omega
        rw [hev, hroom, ← hmoved', ← hevicted']
      · rw [movedAll_deadLetter db hrows hp]
        exact keptNewest_retain limits all
      · rw [(movedAll_pending limits text failedNs flag db rows).1, hmap]
      · exact (movedAll_pending limits text failedNs flag db rows).2.1
      · exact hc'.counted.opened
          (((movedAll_pending limits text failedNs flag db rows).2.2).trans ho.isSome)
    · rcases hloop with ⟨-, room, hroom⟩ | ⟨⟨r, hr, hlarge⟩, -⟩
      · rw [hroom] at hfail
        cases hfail
      · exact absurd (hp r hr) (not_le.mpr hlarge)
  · rcases hloop with ⟨hp, -⟩ | ⟨-, db', hfull⟩
    · exact absurd (hp r hr) (not_le.mpr hlarge)
    · rw [hfull] at hev
      exact hev

/-- The limits of a spool that keeps one dead letter. -/
def oneDeadLetter : SpoolLimits :=
  { twoRows with maxDeadLetterRows := 1, deadLetterRows_pos := Nat.one_pos }

/-- A spool is opened, and two events are stored. -/
def pairStored : List SpoolCall :=
  [⟨.open oneDeadLetter .standard none, []⟩,
    ⟨.enqueueMany [⟨py "a", [123], 5⟩, ⟨py "b", [125], 6⟩], []⟩]

/-- The spool has the limits that it was opened with. -/
theorem pairStored_limits :
    (SpoolFile.create.runCalls pairStored).limits = some oneDeadLetter := by
  have hopen : (SpoolFile.create.call ⟨.open oneDeadLetter .standard none, []⟩).2.limits =
      some oneDeadLetter := rfl
  rw [pairStored, SpoolFile.runCalls, List.foldl_cons, List.foldl_cons, List.foldl_nil]
  generalize (SpoolFile.create.call _).2 = f at hopen ⊢
  unfold SpoolFile.call
  rw [hopen]
  exact hopen

/-- The database of two pending rows. -/
def pairDb : Database := (SpoolFile.create.runCalls pairStored).db

/-- Two rows, moved together: the second one drops the first. -/
theorem move_keeps_newest_pair : ∃ db',
    eval (moveToDeadLetter oneDeadLetter [2, 1] (py "rejected") 7 true) pairDb =
        (.ok (2, (pairDb.deadLetter ++ deadLettersOf (py "rejected") 7 true pairDb.deadLetterSeq
          (pairDb.records [2, 1])).length - db'.deadLetter.length), db') ∧
      db'.deadLetter.length ≤ 1 ∧ db'.pending = [] := by
  obtain ⟨-, hfits, -⟩ := move_keeps_newest pairStored oneDeadLetter pairStored_limits pairDb rfl
    [2, 1] nofun
    (by decide) (by decide +kernel) (py "rejected") 7 true
    ⟨by decide, by decide, by decide, by decide⟩ (by decide +kernel)
  obtain ⟨db', hev, hkept, hpending, -⟩ := hfits (by decide +kernel)
  refine ⟨db', hev, (holds_iff.mp hkept.holds).1, hpending.trans ?_⟩
  decide +kernel

end QuestDbWriter
