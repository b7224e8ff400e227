import Mathlib

/-!
# Sessions on a transactional store

A session is a program over a store that raises exceptions and keeps the store's contents in
place. Every statement it executes first asks the storage, through a plan of answers, whether it
runs at all: `some φ` is a failure of kind `φ`, raised in place of the statement. `transaction`
is the bracket BEGIN, body, COMMIT: whatever raises inside it, the store is put back to what it
was at BEGIN.

* `transaction_error`: a transaction that raises leaves the store as it was;
* `Transparent`: up to an injected failure, a session does what it does on healthy storage.
  The predicate is closed under the session combinators, so that a session has to be computed
  on healthy storage only (`Transparent.ok`, `Transparent.error`).
-/

namespace QuestDbWriter.Lib

/-- A connection: the store it sees and the storage's answers to its coming statements. An
exhausted plan answers that the storage is healthy. -/
structure Conn (σ φ : Type) where
  db : σ
  faults : List (Option φ)

/-- A program on a connection that may raise `ε`. -/
abbrev Session (σ φ ε : Type) := ExceptT ε (StateM (Conn σ φ))

namespace Session

variable {σ φ ε α β : Type}

/-- Run a session on a connection. -/
def run (p : Session σ φ ε α) (c : Conn σ φ) : Except ε α × Conn σ φ := p c

/-- A result touches nothing. -/
@[simp] theorem run_pure (a : α) (c : Conn σ φ) :
    run (pure a : Session σ φ ε α) c = (.ok a, c) := rfl

/-- An exception touches nothing. -/
@[simp] theorem run_throw (e : ε) (c : Conn σ φ) :
    run (throw e : Session σ φ ε α) c = (.error e, c) := rfl

/-- The second session runs where the first one returned, on what it left. -/
theorem run_bind (p : Session σ φ ε α) (f : α → Session σ φ ε β) (c : Conn σ φ) :
    run (p >>= f) c =
      match run p c with
      | (.ok a, c') => run (f a) c'
      | (.error e, c') => (.error e, c') := by
  show (ExceptT.bind p f) c = _
  simp only [ExceptT.bind, ExceptT.mk, run]
  show (match p c with | (a, s) => (ExceptT.bindCont f a) s) = _
  cases p c with
  | mk r c' => cases r <;> rfl

/-- Execute one statement. A failing statement changes nothing. -/
def execute (raised : φ → ε) (stmt : σ → Except ε (α × σ)) : Session σ φ ε α := fun c =>
  match c.faults with
  | some f :: rest => (.error (raised f), { c with faults := rest })
  | answers =>
    match stmt c.db with
    | .ok (a, db) => (.ok a, { db := db, faults := answers.tail })
    | .error e => (.error e, { c with faults := answers.tail })

/-- On healthy storage a statement runs. -/
@[simp] theorem run_execute_nil (raised : φ → ε) (stmt : σ → Except ε (α × σ)) (db : σ) :
    run (execute raised stmt) ⟨db, []⟩ =
      match stmt db with
      | .ok (a, db') => (.ok a, ⟨db', []⟩)
      | .error e => (.error e, ⟨db, []⟩) := by
  simp only [run, execute]
  cases stmt db with
  | ok r => rfl
  | error e => rfl

/-- Run a session; if it raises, put the store back to what it was. -/
def atomically (p : Session σ φ ε α) : Session σ φ ε α := fun c =>
  match run p c with
  | (.ok a, c') => (.ok a, c')
  | (.error e, c') => (.error e, { c' with db := c.db })

/-- What is undone is the store; the answers of the storage are used up. -/
theorem run_atomically (p : Session σ φ ε α) (c : Conn σ φ) :
    run (atomically p) c =
      match run p c with
      | (.ok a, c') => (.ok a, c')
      | (.error e, c') => (.error e, { c' with db := c.db }) := rfl

/-- A statement that reads and writes no row, such as BEGIN and COMMIT. -/
def touch (raised : φ → ε) : Session σ φ ε Unit :=
  execute raised fun db => .ok ((), db)

/-- BEGIN, the body, COMMIT; an exception anywhere inside rolls the store back. -/
def transaction (raised : φ → ε) (body : Session σ φ ε α) : Session σ φ ε α := do
  touch raised
  atomically do
    let a ← body
    touch raised
    pure a

/-- Translate the exception a session raises. -/
def mapError (g : ε → ε) (p : Session σ φ ε α) : Session σ φ ε α := fun c =>
  match run p c with
  | (.ok a, c') => (.ok a, c')
  | (.error e, c') => (.error (g e), c')

/-- The exception is another one; the connection is the same. -/
theorem run_mapError (g : ε → ε) (p : Session σ φ ε α) (c : Conn σ φ) :
    run (mapError g p) c =
      match run p c with
      | (.ok a, c') => (.ok a, c')
      | (.error e, c') => (.error (g e), c') := rfl

/-! ## Atomicity -/

/-- A statement without effect leaves the store. -/
theorem touch_db {raised : φ → ε} {c c' : Conn σ φ} {r : Except ε Unit}
    (h : run (touch raised) c = (r, c')) : c'.db = c.db := by
  simp only [run, touch, execute] at h
  split at h <;> cases h <;> rfl

/-- **A transaction that raises leaves the store exactly as it was.** -/
theorem transaction_error {raised : φ → ε} {p : Session σ φ ε α} {c c' : Conn σ φ} {e : ε}
    (h : run (transaction raised p) c = (.error e, c')) : c'.db = c.db := by
  rw [transaction, run_bind] at h
  rcases hb : run (touch raised) c with ⟨r, c₁⟩
  have hdb := touch_db hb
  rw [hb] at h
  cases r with
  | error e' => cases h; exact hdb
  | ok u =>
      simp only [run_atomically] at h
      split at h
      · cases h
      · cases h; exact hdb

/-! ## What a session raises -/

/-- Everything that a session raises satisfies `P`. -/
def Raises (P : ε → Prop) (p : Session σ φ ε α) : Prop := ∀ c e, (run p c).1 = .error e → P e

namespace Raises

variable {P Q : ε → Prop} {raised : φ → ε}

/-- A result raises nothing. -/
protected theorem pure (a : α) : Raises P (pure a : Session σ φ ε α) := fun _ _ h => by cases h

/-- An exception is raised as it is. -/
protected theorem throw {e : ε} (h : P e) : Raises P (throw e : Session σ φ ε α) := by
  intro c e' he
  cases he
  exact h

/-- Two sessions raise what either of them raises. -/
protected theorem bind {p : Session σ φ ε α} {f : α → Session σ φ ε β} (hp : Raises P p)
    (hf : ∀ a, Raises P (f a)) : Raises P (p >>= f) := by
  intro c e h
  rw [run_bind] at h
  split at h
  · exact hf _ _ _ h
  · next hr =>
      cases h
      exact hp c e (by rw [hr])

/-- A statement raises what it raises itself, or a failure of the storage. -/
protected theorem execute (hraised : ∀ f, P (raised f)) {stmt : σ → Except ε (α × σ)}
    (hstmt : ∀ db e, stmt db = .error e → P e) : Raises P (execute raised stmt) := by
  intro c e h
  simp only [run, Session.execute] at h
  split at h
  · cases h; exact hraised _
  · split at h
    · cases h
    · next he => cases h; exact hstmt _ _ he

/-- A transaction raises what its body raises, or a failure of the storage. -/
protected theorem transaction (hraised : ∀ f, P (raised f)) {p : Session σ φ ε α}
    (hp : Raises P p) : Raises P (transaction raised p) := by
  have htouch : Raises P (touch raised : Session σ φ ε Unit) :=
    Raises.execute hraised fun _ _ h => by cases h
  refine Raises.bind htouch fun _ => ?_
  intro c e h
  rw [run_atomically] at h
  split at h
  · cases h
  · next hr =>
      cases h
      exact (hp.bind fun a => htouch.bind fun _ => Raises.pure a) c e (by rw [hr])

/-- What is raised is what the exceptions are mapped to. -/
protected theorem mapError {p : Session σ φ ε α} (hp : Raises P p) {g : ε → ε}
    (hg : ∀ e, P e → Q (g e)) : Raises Q (mapError g p) := by
  intro c e h
  rw [run_mapError] at h
  split at h
  · cases h
  · next hr =>
      cases h
      exact hg _ (hp c _ (by rw [hr]))

/-- A loop raises what its rounds raise. -/
protected theorem forM {p : β → Session σ φ ε PUnit} (hp : ∀ b, Raises P (p b)) :
    ∀ l : List β, Raises P (l.forM p)
  | [] => Raises.pure _
  | b :: l => (hp b).bind fun _ => Raises.forM hp l

end Raises

/-! ## Transparency -/

/-- Up to a failure of the storage, whose exception satisfies `P`, the session computes what it
computes on healthy storage. -/
structure Transparent (P : ε → Prop) (p : Session σ φ ε α) : Prop where
  healthy : ∀ db, (run p ⟨db, []⟩).2.faults = []
  outcome : ∀ c, (∃ e, (run p c).1 = .error e ∧ P e) ∨
    ((run p c).1 = (run p ⟨c.db, []⟩).1 ∧ (run p c).2.db = (run p ⟨c.db, []⟩).2.db)

section
variable {P Q : ε → Prop} {raised : φ → ε}

/-- A result is transparent. -/
theorem Transparent.pure (a : α) : Transparent P (pure a : Session σ φ ε α) :=
  ⟨fun _ => rfl, fun _ => .inr ⟨rfl, rfl⟩⟩

/-- An exception is transparent. -/
theorem Transparent.throw (e : ε) : Transparent P (throw e : Session σ φ ε α) :=
  ⟨fun _ => rfl, fun _ => .inr ⟨rfl, rfl⟩⟩

/-- A statement is transparent: it runs, or the storage fails. -/
theorem Transparent.execute (hP : ∀ f, P (raised f)) (stmt : σ → Except ε (α × σ)) :
    Transparent P (execute raised stmt) := by
  refine ⟨fun db => ?_, fun c => ?_⟩
  · rw [run_execute_nil]
    cases stmt db <;> rfl
  · obtain ⟨db, faults⟩ := c
    rw [run_execute_nil]
    cases faults with
    | nil =>
        rw [run_execute_nil]
        exact .inr ⟨rfl, rfl⟩
    | cons f rest =>
        cases f with
        | some f => exact .inl ⟨raised f, rfl, hP f⟩
        | none =>
            refine .inr ?_
            simp only [run, Session.execute]
            cases stmt db <;> exact ⟨rfl, rfl⟩

/-- Transparent sessions in a row are transparent. -/
theorem Transparent.bind {p : Session σ φ ε α} {f : α → Session σ φ ε β}
    (hp : Transparent P p) (hf : ∀ a, Transparent P (f a)) : Transparent P (p >>= f) := by
  refine ⟨fun db => ?_, fun c => ?_⟩
  · have h := hp.healthy db
    rw [run_bind]
    rcases hrun : run p ⟨db, []⟩ with ⟨r, c'⟩
    rw [hrun] at h
    cases r with
    | error e => exact h
    | ok a =>
        obtain ⟨db', faults⟩ := c'
        cases h
        exact (hf a).healthy db'
  · rw [run_bind, run_bind]
    have hn := hp.healthy c.db
    rcases hp.outcome c with ⟨e, he, hpe⟩ | ⟨h1, h2⟩
    · refine .inl ⟨e, ?_, hpe⟩
      rcases hrun : run p c with ⟨r, c'⟩
      rw [hrun] at he
      cases he
      rfl
    · rcases hrun : run p c with ⟨r, db', faults'⟩
      rcases hnil : run p ⟨c.db, []⟩ with ⟨r₀, db₀, faults₀⟩
      rw [hrun, hnil] at h1 h2
      rw [hnil] at hn
      cases h1
      cases h2
      cases hn
      cases r with
      | error e => exact .inr ⟨rfl, rfl⟩
      | ok a => exact (hf a).outcome ⟨db', faults'⟩

/-- Undoing what was raised behind keeps a session transparent. -/
theorem Transparent.atomically {p : Session σ φ ε α} (hp : Transparent P p) :
    Transparent P (atomically p) := by
  refine ⟨fun db => ?_, fun c => ?_⟩
  · have h := hp.healthy db
    rw [run_atomically]
    split <;> next hr => rw [hr] at h; exact h
  · rw [run_atomically, run_atomically]
    rcases hp.outcome c with ⟨e, he, hpe⟩ | ⟨h1, h2⟩
    · refine .inl ⟨e, ?_, hpe⟩
      split <;> next hr => rw [hr] at he; exact he
    · rcases hrun : run p c with ⟨r, c'⟩
      rcases hnil : run p ⟨c.db, []⟩ with ⟨r₀, c₀⟩
      rw [hrun, hnil] at h1 h2
      cases h1
      cases r with
      | ok a => exact .inr ⟨rfl, h2⟩
      | error e => exact .inr ⟨rfl, rfl⟩

/-- A transaction is transparent where its body is. -/
theorem Transparent.transaction (hP : ∀ f, P (raised f)) {p : Session σ φ ε α}
    (hp : Transparent P p) : Transparent P (transaction raised p) :=
  (Transparent.execute hP _).bind fun _ =>
    (hp.bind fun a => (Transparent.execute hP _).bind fun _ => .pure a).atomically

/-- A session stays transparent where failures are mapped to failures. -/
theorem Transparent.mapError {p : Session σ φ ε α} (hp : Transparent P p) {g : ε → ε}
    (hg : ∀ e, P e → Q (g e)) : Transparent Q (mapError g p) := by
  refine ⟨fun db => ?_, fun c => ?_⟩
  · have h := hp.healthy db
    rw [run_mapError]
    split <;> next hr => rw [hr] at h; exact h
  · rw [run_mapError, run_mapError]
    rcases hp.outcome c with ⟨e, he, hpe⟩ | ⟨h1, h2⟩
    · refine .inl ⟨g e, ?_, hg e hpe⟩
      split
      · next hr => rw [hr] at he; cases he
      · next hr => rw [hr] at he; cases he; rfl
    · rcases hrun : run p c with ⟨r, c'⟩
      rcases hnil : run p ⟨c.db, []⟩ with ⟨r₀, c₀⟩
      rw [hrun, hnil] at h1 h2
      cases h1
      cases r with
      | ok a => exact .inr ⟨rfl, h2⟩
      | error e => exact .inr ⟨rfl, h2⟩

/-- A list of transparent sessions in a row. -/
theorem Transparent.forM {p : β → Session σ φ ε PUnit} (hp : ∀ b, Transparent P (p b)) :
    ∀ l : List β, Transparent P (l.forM p)
  | [] => .pure _
  | b :: l => (hp b).bind fun _ => Transparent.forM hp l

end

/-! ## On healthy storage

A transparent session is a function of the store alone where the storage is healthy: `eval`. -/

/-- The outcome of a session on healthy storage, and the store it leaves. -/
def eval (p : Session σ φ ε α) (db : σ) : Except ε α × σ :=
  ((run p ⟨db, []⟩).1, (run p ⟨db, []⟩).2.db)

/-- A result is returned. -/
@[simp] theorem eval_pure (a : α) (db : σ) :
    eval (pure a : Session σ φ ε α) db = (.ok a, db) := rfl

/-- An exception is raised. -/
@[simp] theorem eval_throw (e : ε) (db : σ) :
    eval (throw e : Session σ φ ε α) db = (.error e, db) := rfl

/-- A statement does what it does. -/
@[simp] theorem eval_execute (raised : φ → ε) (stmt : σ → Except ε (α × σ)) (db : σ) :
    eval (execute raised stmt) db =
      match stmt db with
      | .ok (a, db') => (.ok a, db')
      | .error e => (.error e, db) := by
  simp only [eval, run_execute_nil]
  cases stmt db <;> rfl

/-- A statement without effect does nothing. -/
@[simp] theorem eval_touch (raised : φ → ε) (db : σ) :
    eval (touch raised) db = (.ok (), db) := by
  simp [touch]

section
variable {P : ε → Prop} {p : Session σ φ ε α} {raised : φ → ε}

/-- A transparent session on healthy storage is what `eval` says. -/
theorem Transparent.run_nil (hp : Transparent P p) (db : σ) :
    run p ⟨db, []⟩ = ((eval p db).1, ⟨(eval p db).2, []⟩) := by
  have h := hp.healthy db
  simp only [eval]
  rcases hrun : run p ⟨db, []⟩ with ⟨r, db', faults⟩
  rw [hrun] at h
  cases h
  rfl

/-- On healthy storage, the second session runs on what the first one left. -/
theorem Transparent.eval_bind (hp : Transparent P p) (f : α → Session σ φ ε β) (db : σ) :
    eval (p >>= f) db =
      match eval p db with
      | (.ok a, db') => eval (f a) db'
      | (.error e, db') => (.error e, db') := by
  rw [eval, run_bind, hp.run_nil db]
  rcases eval p db with ⟨r, db'⟩
  cases r <;> rfl

/-- On healthy storage, the exception is mapped. -/
theorem eval_mapError (g : ε → ε) (p : Session σ φ ε α) (db : σ) :
    eval (mapError g p) db =
      match eval p db with
      | (.ok a, db') => (.ok a, db')
      | (.error e, db') => (.error (g e), db') := by
  simp only [eval, run_mapError]
  rcases run p ⟨db, []⟩ with ⟨r, c⟩
  cases r <;> rfl

/-- What returns is not changed by a map of the exceptions. -/
theorem eval_mapError_ok {g : ε → ε} {p : Session σ φ ε α} {db db' : σ} {a : α} :
    eval (mapError g p) db = (.ok a, db') ↔ eval p db = (.ok a, db') := by
  rw [eval_mapError]
  rcases eval p db with ⟨e | b, d⟩ <;> simp

/-- On healthy storage a transaction is its body, undone if it raises. -/
theorem Transparent.eval_transaction (hp : Transparent P p) (db : σ) :
    eval (Session.transaction raised p) db =
      match eval p db with
      | (.ok a, db') => (.ok a, db')
      | (.error e, _) => (.error e, db) := by
  rw [eval, Session.transaction, run_bind, touch, run_execute_nil]
  simp only [run_atomically, run_bind, run_pure, hp.run_nil db]
  rcases eval p db with ⟨r, db'⟩
  cases r with
  | ok a => simp only [run_execute_nil]
  | error e => rfl

/-- What a transparent session returns, it returns on healthy storage, with the same store. -/
theorem Transparent.ok (hp : Transparent P p) {c c' : Conn σ φ} {a : α}
    (h : run p c = (.ok a, c')) : eval p c.db = (.ok a, c'.db) := by
  rcases hp.outcome c with ⟨e, he, -⟩ | ⟨h1, h2⟩
  · rw [h] at he
    cases he
  · rw [h] at h1 h2
    exact Prod.ext h1.symm h2.symm

/-- What a transparent session raises is a failure of the storage, or raised on healthy storage
too. -/
theorem Transparent.error (hp : Transparent P p) {c c' : Conn σ φ} {e : ε}
    (h : run p c = (.error e, c')) : P e ∨ (eval p c.db).1 = .error e := by
  rcases hp.outcome c with ⟨e', he, hpe⟩ | ⟨h1, -⟩
  · rw [h] at he
    cases he
    exact .inl hpe
  · rw [h] at h1
    exact .inr h1.symm

end

/-! ## Sessions that change nothing when they raise -/

/-- A session that leaves the store as it was whenever it raises. -/
def Atomic (p : Session σ φ ε α) : Prop :=
  ∀ c c' e, run p c = (.error e, c') → c'.db = c.db

/-- A transaction is atomic. -/
theorem Atomic.transaction (raised : φ → ε) (p : Session σ φ ε α) :
    Atomic (Session.transaction raised p) := fun _ _ _ h => transaction_error h

/-- A result raises nothing, so it is atomic. -/
theorem Atomic.pure (a : α) : Atomic (pure a : Session σ φ ε α) := fun _ _ _ h => by cases h

/-- A map of the exceptions keeps a session atomic. -/
theorem Atomic.mapError (g : ε → ε) {p : Session σ φ ε α} (hp : Atomic p) :
    Atomic (Session.mapError g p) := by
  intro c c' e h
  rw [run_mapError] at h
  split at h
  · cases h
  · next hr =>
      cases h
      exact hp _ _ _ hr

/-- A session that reads only, before an atomic one. -/
theorem Atomic.bind_read {p : Session σ φ ε α} {f : α → Session σ φ ε β}
    (hp : ∀ {c c' : Conn σ φ} {r}, run p c = (r, c') → c'.db = c.db) (hf : ∀ a, Atomic (f a)) :
    Atomic (p >>= f) := by
  intro c c' e h
  rw [run_bind] at h
  split at h
  · next hr => exact (hf _ _ _ _ h).trans (hp hr)
  · next hr =>
      cases h
      exact hp hr

/-- An atomic session, and then one that never raises. -/
theorem Atomic.map {p : Session σ φ ε α} (hp : Atomic p) (f : α → β) :
    Atomic (p >>= fun a => Pure.pure (f a)) := by
  intro c c' e h
  rw [run_bind] at h
  split at h
  · cases h
  · next hr =>
      cases h
      exact hp _ _ _ hr

/-! ## Sessions that only read -/

/-- A session that leaves the store as it was. -/
def ReadOnly (p : Session σ φ ε α) : Prop := ∀ c, (run p c).2.db = c.db

/-- A result changes nothing. -/
theorem ReadOnly.pure (a : α) : ReadOnly (pure a : Session σ φ ε α) := fun _ => rfl

/-- An exception changes nothing. -/
theorem ReadOnly.throw (e : ε) : ReadOnly (throw e : Session σ φ ε α) := fun _ => rfl

/-- A statement that returns the store as it was changes nothing. -/
theorem ReadOnly.execute {raised : φ → ε} {stmt : σ → Except ε (α × σ)}
    (h : ∀ db a db', stmt db = .ok (a, db') → db' = db) : ReadOnly (execute raised stmt) := by
  rintro ⟨db, faults⟩
  have hstmt := h db
  simp only [run, Session.execute]
  split
  · rfl
  · split
    · next a db' he => exact hstmt a db' he
    · rfl

/-- Sessions in a row that change nothing change nothing. -/
theorem ReadOnly.bind {p : Session σ φ ε α} {f : α → Session σ φ ε β} (hp : ReadOnly p)
    (hf : ∀ a, ReadOnly (f a)) : ReadOnly (p >>= f) := by
  intro c
  have h := hp c
  rw [run_bind]
  split
  · next a c' hr =>
    rw [hr] at h
    exact (hf a c').trans h
  · next e c' hr =>
    rw [hr] at h
    exact h

/-- A map of the exceptions changes nothing. -/
theorem ReadOnly.mapError {p : Session σ φ ε α} (hp : ReadOnly p) (g : ε → ε) :
    ReadOnly (mapError g p) := by
  intro c
  have h := hp c
  rw [run_mapError]
  split
  · next a c' hr =>
    rw [hr] at h
    exact h
  · next e c' hr =>
    rw [hr] at h
    exact h

end Session

end QuestDbWriter.Lib
