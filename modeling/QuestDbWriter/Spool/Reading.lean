import QuestDbWriter.Spool.Specs

/-!
# The operations that only read

`stats` and `peek_batch` leave the database as it is. On an open spool the first returns the counts
of the tables, and the second a prefix of the pending rows, which is empty only where they are.
-/

namespace QuestDbWriter

open Lib Database SQLiteSpool
open Session (eval run ReadOnly)

/-! ## stats -/

/-- A check only reads. -/
theorem readOnly_check {α : Type} : ∀ x : Except Exc α, ReadOnly (check x)
  | .ok _ => .pure _
  | .error _ => .throw _

/-- `stats` only reads. -/
theorem readOnly_stats : ReadOnly stats := by
  refine .mapError (.bind (.execute fun db a db' h => ?_) fun s => ?_) _
  · cases h
    rfl
  · cases s with
    | none => exact .throw _
    | some s => exact .pure _

/-- `stats` is clear. -/
theorem clear_stats : Clear stats := clear_wrapped _ clear_statsRow

/-- On healthy storage `stats` returns the counts of an open spool. -/
theorem eval_stats {db : Database} (h : db.Opened) : eval stats db = (.ok (Sql.counts db), db) := by
  rw [stats, Session.eval_mapError, eval_statsRow h]

/-- What `stats` returns of an open spool. -/
theorem stats_ok {c c' : Conn Database StorageFault} {s : SpoolStats} (ho : c.db.Opened)
    (h : run stats c = (.ok s, c')) : s = Sql.counts c.db := by
  have hev := clear_stats.ok h
  rw [eval_stats ho] at hev
  exact (Except.ok.inj (congrArg Prod.fst hev)).symm

/-! ## peek_batch -/

/-- What is taken is a front of the rows. -/
theorem takeBatch_isHead (maxBytes : Nat) : ∀ (batchBytes : Nat) (rows : List SpoolRecord),
    takeBatch maxBytes batchBytes rows <+: rows
  | _, [] => List.prefix_refl _
  | batchBytes, row :: rows => by
      rw [takeBatch]
      split
      · exact List.nil_prefix
      · exact List.cons_prefix_cons.mpr ⟨rfl, takeBatch_isHead maxBytes _ rows⟩

/-- **The rows that `peek_batch` takes are the longest part from the front within the byte
limit.** -/
theorem prefix_takeBatch {maxBytes : Nat} {rows s : List SpoolRecord} {batchBytes : Nat}
    (hle : batchBytes ≤ maxBytes) :
    s <+: takeBatch maxBytes batchBytes rows ↔
      s <+: rows ∧ batchBytes + Sql.rowBytes s ≤ maxBytes := by
  induction rows generalizing s batchBytes with
  | nil =>
    cases s with
    | nil => simpa [Sql.rowBytes, takeBatch] using hle
    | cons row s => simp [takeBatch]
  | cons row' rows ih =>
    cases s with
    | nil => simpa [Sql.rowBytes] using hle
    | cons row s =>
      have hcons : Sql.rowBytes (row :: s) = row.payload.length + Sql.rowBytes s := rfl
      rw [takeBatch, hcons, ← Nat.add_assoc]
      split
      · next hlt =>
        constructor
        · intro h
          cases List.prefix_nil.mp h
        · rintro ⟨h, hle⟩
          obtain ⟨rfl, -⟩ := List.cons_prefix_cons.mp h
          omega
      · next hle =>
        rw [List.cons_prefix_cons, List.cons_prefix_cons, ih (not_lt.mp hle), and_assoc]
        exact and_congr_right fun heq => by rw [heq]

/-- `peek_batch` only reads. -/
theorem readOnly_peekBatch (maxRows maxBytes : Nat) : ReadOnly (peekBatch maxRows maxBytes) := by
  refine .bind (readOnly_check _) fun _ => .bind (readOnly_check _) fun _ =>
    .bind (.mapError (.execute fun db a db' h => ?_) _) fun _ => .bind (readOnly_check _) fun _ =>
    .pure _
  obtain ⟨_, -, h⟩ := bind_ok.mp h
  cases h
  rfl

/-- `peek_batch` is clear. -/
theorem clear_peekBatch (maxRows maxBytes : Nat) : Clear (peekBatch maxRows maxBytes) :=
  (clear_check _).bind fun _ => (clear_check _).bind fun _ =>
    (clear_wrapped _ (clear_execute _)).bind fun _ => (clear_check _).bind fun _ => .pure _

/-- The selection of `peek_batch`, where the row limit can be bound. -/
theorem eval_selectOldest {maxRows : Nat} {db : Database}
    (h : bindInteger maxRows = .ok ()) (f : List SpoolRecord → SpoolM (List SpoolRecord)) :
    eval (Session.mapError (wrapped (py "failed to read pending batch"))
        (execute (Sql.selectOldest maxRows)) >>= f) db = eval (f (db.pending.take maxRows)) db := by
  rw [(clear_wrapped _ (clear_execute _)).eval_bind, Session.eval_mapError, execute,
    Session.eval_execute, Sql.selectOldest, h]
  rfl

/-- **What `peek_batch` returns is a prefix of the pending rows**, within the row limit, and not
empty unless there are none; it returns only where the row limit can be bound and the oldest row
is within the byte limit. -/
theorem peekBatch_ok {maxRows maxBytes : Nat} {c c' : Conn Database StorageFault}
    {rs : List SpoolRecord} (h : run (peekBatch maxRows maxBytes) c = (.ok rs, c')) :
    rs <+: c.db.pending ∧ rs.length ≤ maxRows ∧ (rs = [] → c.db.pending = []) ∧
      (maxRows : Int) ≤ sqliteIntegerMax ∧
      ∀ r ∈ c.db.pending.head?, r.payload.length ≤ maxBytes := by
  obtain ⟨db, faults⟩ := c
  have hev := (clear_peekBatch maxRows maxBytes).ok h
  generalize c'.db = db' at hev
  dsimp only at hev ⊢
  rw [peekBatch] at hev
  cases hrows : positiveInteger "max_rows" maxRows with
  | error e =>
    rw [eval_check_error hrows] at hev
    cases hev
  | ok u =>
    have hpos : (0 : Int) < maxRows := raiseUnless_ok.mp hrows
    rw [eval_check_ok hrows] at hev
    cases hbytes : positiveInteger "max_bytes" maxBytes with
    | error e =>
      rw [eval_check_error hbytes] at hev
      cases hev
    | ok u =>
      rw [eval_check_ok hbytes] at hev
      cases hb : bindInteger maxRows with
      | error e =>
        rw [(clear_wrapped _ (clear_execute _)).eval_bind, Session.eval_mapError, execute,
          Session.eval_execute, Sql.selectOldest, hb] at hev
        cases hev
      | ok u =>
        rw [eval_selectOldest hb] at hev
        cases hfit : (db.pending.take maxRows).head?.toList.forM (oldestFits maxBytes) with
        | error e =>
          rw [eval_check_error hfit] at hev
          cases hev
        | ok u =>
          rw [eval_check_ok hfit] at hev
          cases hev
          obtain ⟨n, rfl⟩ : ∃ n, maxRows = n + 1 := ⟨maxRows - 1, by omega⟩
          have hhead : ∀ r ∈ db.pending.head?, r.payload.length ≤ maxBytes := by
            intro r hr
            refine raiseUnless_ok.mp (forM_ok.mp hfit r ?_)
            rw [List.head?_take, if_neg (Nat.succ_ne_zero n)]
            exact Option.mem_toList.mpr hr
          refine ⟨(takeBatch_isHead _ _ _).trans (List.take_prefix _ _),
            (takeBatch_isHead _ _ _).length_le.trans (List.length_take_le _ _), fun hnil => ?_,
            (raiseUnless_ok.mp hb).2, hhead⟩
          cases hp : db.pending with
          | nil => rfl
          | cons r rest =>
            have hle := hhead r (hp ▸ rfl)
            rw [hp, List.take_succ_cons, takeBatch, if_neg (by omega)] at hnil
            cases hnil

/-- On healthy storage a bindable row limit and an oldest row that fits give a batch. -/
theorem eval_peekBatch {maxRows maxBytes : Nat} {db : Database} (hrows : 0 < maxRows)
    (hbind : (maxRows : Int) ≤ sqliteIntegerMax) (hbytes : 0 < maxBytes)
    (hfit : ∀ r ∈ db.pending.head?, r.payload.length ≤ maxBytes) :
    eval (peekBatch maxRows maxBytes) db =
      (.ok (takeBatch maxBytes 0 (db.pending.take maxRows)), db) := by
  have hb : bindInteger maxRows = .ok () :=
    bindInteger_eq ⟨by simp only [sqliteIntegerMin]; omega, hbind⟩
  have hone : (db.pending.take maxRows).head?.toList.forM (oldestFits maxBytes) = .ok () := by
    rw [forM_ok]
    intro r hr
    refine raiseUnless_ok.mpr (hfit r ?_)
    rw [List.head?_take, if_neg (by omega)] at hr
    simpa using hr
  rw [peekBatch, eval_check_ok (x := positiveInteger "max_rows" maxRows) (a := ())
      (raiseUnless_ok.mpr (by omega)),
    eval_check_ok (x := positiveInteger "max_bytes" maxBytes) (a := ())
      (raiseUnless_ok.mpr (by omega)), eval_selectOldest hb, eval_check_ok hone]
  rfl

end QuestDbWriter
