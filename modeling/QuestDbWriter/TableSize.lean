import QuestDbWriter.HttpConnection
import QuestDbWriter.Requests
import QuestDbWriter.Lib.Lists

/-!
# The sensor of the table's size

`QuestDbTableSizeSensor` of `sensor.py`: each refresh queries QuestDB over a transport that the
sensor keeps, and shows the size or that there is none to be had. The refreshes follow one another.
How `int()` reads a text depends on the Unicode database, and is a parameter.

`table_size_follows` says what the sensor shows and logs by the replies alone, whatever the server
does: a reply that comes too late for its refresh is never shown.
-/

namespace QuestDbWriter

open Lib Json

/-! ## The size in an answer -/

/-- `type(value).__name__`. -/
def Json.Value.typeName : Value → String
  | .null => "NoneType"
  | .bool _ => "bool"
  | .int _ => "int"
  | .float _ => "float"
  | .str _ => "str"
  | .array _ => "list"
  | .object _ => "dict"

/-- `value[0]`. -/
def Json.Value.first : Value → Except Exc Value
  | .array (element :: _) => .ok element
  | .array [] => .error { type := .other "IndexError", message := py "list index out of range" }
  | .str (c :: _) => .ok (.str [c])
  | .str [] => .error { type := .other "IndexError", message := py "string index out of range" }
  | .object _ => .error { type := .other "KeyError", message := py "0" }
  | value => .error
    { type := .typeError
      message := py "'" ++ py value.typeName ++ py "' object is not subscriptable" }

/-- `int(value)`. -/
def Json.Value.asInt (intText : PyStr → Except Exc Int) (value : Value) : Except Exc Int :=
  match value with
  | .str s => intText s
  | value => value.toInt.getD (.error
    { type := .typeError
      message :=
        py "int() argument must be a string, a bytes-like object or a real number, not '" ++
          py value.typeName ++ py "'" })

/-- `document.get("dataset") or []`. -/
def datasetOrEmpty (document : Document) : Value :=
  match member (py "dataset") document with
  | some rows => if rows.truth then rows else .array []
  | none => .array []

/-- `size_bytes`. -/
def sizeBytes (intText : PyStr → Except Exc Int) (document : Document) :
    Except Exc (Option Int) :=
  let rows := datasetOrEmpty document
  if rows.truth then do
    let row ← rows.first
    let cell ← row.first
    match cell with
    | .null => pure none
    | cell => some <$> cell.asInt intText
  else pure none

/-- `round(size_bytes / 1_000_000, 1)`. -/
def megabytes (sizeBytes : Int) : Except Exc PyDouble :=
  match nearestDouble (sizeBytes / 1000000) with
  | .finite q => .ok (nearestDouble (roundHalfEven (q * 10) / 10))
  | _ => .error
    { type := .overflowError, message := py "integer division result too large for a float" }

/-- The value that an answer gives. -/
def sizeValue (intText : PyStr → Except Exc Int) (document : Document) :
    Except Exc (Option PyDouble) := do
  match ← sizeBytes intText document with
  | some size => some <$> megabytes size
  | none => pure none

/-! ## The sensor -/

/-- `TABLE_SIZE_QUERY_RETRIES`. -/
def tableSizeQueryRetries : Int := 1

/-- A line of the log: the query failed, or is answered again. -/
inductive SizeLog where
  | warning (err : IlpError)
  | info
deriving DecidableEq

/-- What a refresh meets: what `build_transport` raises if it is called, and the replies to the
query and its repetition. -/
structure SizeRefresh where
  build : Option Exc
  replies : Nat → Reply

/-- The sensor: its table, its transport and what it shows. -/
structure QuestDbTableSizeSensor where
  table : PyStr
  transport : Option IlpHttpTransport := none
  available : Bool := true
  nativeValue : Option PyDouble := none

namespace QuestDbTableSizeSensor

/-- `async_update` behind `build_transport`. -/
def query (interpreter : Interpreter) (intText : PyStr → Except Exc Int)
    (s : QuestDbTableSizeSensor) (transport : IlpHttpTransport) (replies : Nat → Reply) :
    Except CallError Unit × List SizeLog × QuestDbTableSizeSensor :=
  let called := IlpHttpTransport.execQuery interpreter transport (tableSizeQuery s.table)
    tableSizeQueryRetries replies
  let s := { s with transport := some called.2 }
  match called.1 with
  | .ok document =>
    match sizeValue intText document with
    | .ok value =>
      (.ok (), if s.available then [] else [.info],
        { s with nativeValue := value, available := true })
    | .error e => (.error (.other e), [], s)
  | .error (.ilp err) =>
    (.ok (), if s.available then [.warning err] else [], { s with available := false })
  | .error e => (.error e, [], s)

/-- `async_update`. -/
def asyncUpdate (interpreter : Interpreter) (intText : PyStr → Except Exc Int)
    (s : QuestDbTableSizeSensor) (u : SizeRefresh) :
    Except CallError Unit × List SizeLog × QuestDbTableSizeSensor :=
  match s.transport, u.build with
  | some transport, _ => s.query interpreter intText transport u.replies
  | none, none => s.query interpreter intText .init u.replies
  | none, some e => (.error (.other e), [], s)

/-- A sensor through its refreshes, with the log. What a refresh raises is for Home Assistant to
log. -/
def asyncUpdates (interpreter : Interpreter) (intText : PyStr → Except Exc Int) :
    List SizeRefresh → QuestDbTableSizeSensor → List SizeLog × QuestDbTableSizeSensor
  | [], s => ([], s)
  | u :: us, s =>
    let updated := s.asyncUpdate interpreter intText u
    let rest := asyncUpdates interpreter intText us updated.2.2
    (updated.2.1 ++ rest.1, rest.2)

end QuestDbTableSizeSensor

/-! ## What the replies say -/

namespace SizeRefresh

/-- The document that the replies to a refresh give. -/
def document (interpreter : Interpreter) (table : PyStr) (u : SizeRefresh) :
    Except CallError Document :=
  match encodeUtf8 (tableSizeQuery table) with
  | .ok _ => IlpHttpTransport.attempts interpreter u.replies 1 0
  | .error e => .error (.other e)

/-- The size, or the failure, that a call gives; `none` where the refresh raises. -/
def answerOf (intText : PyStr → Except Exc Int) :
    Except CallError Document → Option (Except IlpError (Option PyDouble))
  | .ok document => (sizeValue intText document).toOption.map .ok
  | .error (.ilp err) => some (.error err)
  | .error _ => none

/-- What the replies to a refresh give. -/
def answer (interpreter : Interpreter) (intText : PyStr → Except Exc Int) (table : PyStr)
    (u : SizeRefresh) : Option (Except IlpError (Option PyDouble)) :=
  answerOf intText (u.document interpreter table)

/-- What a list of refreshes says, from the first that has a transport on. -/
def answers (interpreter : Interpreter) (intText : PyStr → Except Exc Int) (table : PyStr)
    (us : List SizeRefresh) : List (Except IlpError (Option PyDouble)) :=
  (us.dropWhile (·.build.isSome)).filterMap (answer interpreter intText table)

end SizeRefresh

namespace IlpHttpTransport

/-- A connection is no request. -/
theorem getConnection_sent (t : IlpHttpTransport) : t.getConnection.2.sent = t.sent := by
  unfold getConnection
  cases t.connection <;> rfl

/-- Closing sends nothing. -/
theorem closeFor_sent (t : IlpHttpTransport) (response : HttpResponse) :
    (t.closeFor response).sent = t.sent := by
  have hclose : ∀ t : IlpHttpTransport, t.close.sent = t.sent := fun _ => rfl
  rw [closeFor, apply_ite IlpHttpTransport.sent, hclose, ite_self, apply_ite IlpHttpTransport.sent,
    hclose, ite_self]

/-- An attempt is one request. -/
theorem execOnce_sent (interpreter : Interpreter) (t : IlpHttpTransport) (repetition : Bool)
    (reply : Reply) :
    (execOnce interpreter t repetition reply).2.sent = t.sent + 1 := by
  have hexchange : (t.exchange repetition reply).2.sent = t.sent + 1 := by
    unfold exchange
    cases reply with
    | failed exception => exact congrArg (· + 1) (getConnection_sent t)
    | response status body =>
      dsimp only
      split <;> exact congrArg (· + 1) (getConnection_sent t)
  unfold execOnce
  split
  · next he => rw [← hexchange, he]; rfl
  · next he =>
    rw [he] at hexchange
    split
    · dsimp only
      split <;> exact hexchange
    · exact (closeFor_sent _ _).trans hexchange

/-- There is one attempt more than repetitions at most. -/
theorem execLoop_sent (interpreter : Interpreter) (replies : Nat → Reply) (left attempt : Nat)
    (t : IlpHttpTransport) :
    (execLoop interpreter replies left attempt t).2.sent ≤ t.sent + left + 1 := by
  induction left generalizing attempt t with
  | zero =>
    have honce := execOnce_sent interpreter t (decide (0 < attempt))
      (replies attempt)
    unfold execLoop
    generalize execOnce interpreter t (decide (0 < attempt)) (replies attempt) = r at honce
    obtain ⟨result, t'⟩ := r
    cases result with
    | ok document => exact honce.le
    | error e =>
      dsimp only
      split <;> exact honce.le
  | succ left ih =>
    have honce := execOnce_sent interpreter t (decide (0 < attempt))
      (replies attempt)
    unfold execLoop
    generalize execOnce interpreter t (decide (0 < attempt)) (replies attempt) = r at honce
    obtain ⟨result, t'⟩ := r
    dsimp only at honce
    cases result with
    | ok document =>
      dsimp only
      omega
    | error e =>
      dsimp only
      split
      · have hrest := ih (attempt + 1) t'.close
        have hclose : t'.close.sent = t'.sent := rfl
        omega
      · dsimp only
        omega

end IlpHttpTransport

/-! ## A refresh -/

namespace QuestDbTableSizeSensor

variable {interpreter : Interpreter} {intText : PyStr → Except Exc Int}
  {s s' : QuestDbTableSizeSensor} {u : SizeRefresh}

/-- The transport that a refresh leaves is in step, and has sent two requests more at most. -/
structure Carried (s : QuestDbTableSizeSensor) (u : SizeRefresh) (t : IlpHttpTransport) :
    Prop where
  inStep : t.InStep
  sent : t.sent ≤ (s.transport.elim 0 (·.sent)) + 2
  built : s.transport = none → u.build = none

/-- What a refresh logs and changes, by the answer that its replies give. -/
inductive Refreshed (interpreter : Interpreter) (intText : PyStr → Except Exc Int)
    (s : QuestDbTableSizeSensor) (u : SizeRefresh) :
    List SizeLog → QuestDbTableSizeSensor → Prop where
  | unbuilt (hnone : s.transport = none) (hbuild : u.build.isSome = true) :
      Refreshed interpreter intText s u [] s
  | raised (t : IlpHttpTransport) (ht : Carried s u t)
      (hanswer : u.answer interpreter intText s.table = none) :
      Refreshed interpreter intText s u [] { s with transport := some t }
  | answered (t : IlpHttpTransport) (ht : Carried s u t) (value : Option PyDouble)
      (hanswer : u.answer interpreter intText s.table = some (.ok value)) :
      Refreshed interpreter intText s u (if s.available then [] else [.info])
        { s with transport := some t, nativeValue := value, available := true }
  | failed (t : IlpHttpTransport) (ht : Carried s u t) (err : IlpError)
      (hanswer : u.answer interpreter intText s.table = some (.error err)) :
      Refreshed interpreter intText s u (if s.available then [.warning err] else [])
        { s with transport := some t, available := false }

/-- **A query in step is answered by the replies to this refresh**, and to no other. -/
theorem query_document (interpreter : Interpreter) (table : PyStr) (u : SizeRefresh)
    {t : IlpHttpTransport} (ht : t.InStep) :
    (IlpHttpTransport.execQuery interpreter t (tableSizeQuery table) tableSizeQueryRetries
        u.replies).1 = u.document interpreter table ∧
      (IlpHttpTransport.execQuery interpreter t (tableSizeQuery table) tableSizeQueryRetries
        u.replies).2.InStep ∧
      (IlpHttpTransport.execQuery interpreter t (tableSizeQuery table) tableSizeQueryRetries
        u.replies).2.sent ≤ t.sent + 2 := by
  have hne : tableSizeQuery table ≠ [] := List.cons_ne_nil _ _
  unfold IlpHttpTransport.execQuery SizeRefresh.document
  rw [if_neg hne, if_neg (by decide : ¬ tableSizeQueryRetries < 0)]
  cases encodeUtf8 (tableSizeQuery table) with
  | error e => exact ⟨rfl, ht, Nat.le_add_right _ _⟩
  | ok bytes =>
    obtain ⟨hresult, hstep⟩ := IlpHttpTransport.execLoop_inStep interpreter u.replies 1 0 ht
      fun hlt => absurd hlt (Nat.lt_irrefl 0)
    exact ⟨hresult, hstep, IlpHttpTransport.execLoop_sent interpreter u.replies 1 0 t⟩

/-- A refresh that reaches the server shows what the server answers. -/
theorem query_refreshed {t : IlpHttpTransport} (ht : t.InStep)
    (hsent : t.sent = s.transport.elim 0 (·.sent)) (hbuilt : s.transport = none → u.build = none) :
    Refreshed interpreter intText s u (s.query interpreter intText t u.replies).2.1
      (s.query interpreter intText t u.replies).2.2 := by
  obtain ⟨hdocument, hstep, hmore⟩ := query_document interpreter s.table u ht
  unfold query
  generalize IlpHttpTransport.execQuery interpreter t (tableSizeQuery s.table)
    tableSizeQueryRetries u.replies = called at hdocument hstep hmore
  obtain ⟨result, t'⟩ := called
  have hcarried : Carried s u t' := ⟨hstep, hsent ▸ hmore, hbuilt⟩
  dsimp only at hdocument ⊢
  rw [hdocument]
  cases hd : u.document interpreter s.table with
  | error e =>
    cases e with
    | ilp err =>
      have hanswer : u.answer interpreter intText s.table = some (.error err) := by
        rw [SizeRefresh.answer, hd]
        rfl
      exact .failed t' hcarried err hanswer
    | _ =>
      have hanswer : u.answer interpreter intText s.table = none := by
        rw [SizeRefresh.answer, hd]
        rfl
      exact .raised t' hcarried hanswer
  | ok document =>
    have hanswer : u.answer interpreter intText s.table =
        (sizeValue intText document).toOption.map .ok := by
      rw [SizeRefresh.answer, hd]
      rfl
    dsimp only
    cases hv : sizeValue intText document with
    | error e =>
      rw [hv] at hanswer
      exact .raised t' hcarried hanswer
    | ok value =>
      rw [hv] at hanswer
      exact .answered t' hcarried value hanswer

/-- One lemma for every way a refresh can go. -/
theorem asyncUpdate_refreshed (h : ∀ t, s.transport = some t → t.InStep) (u : SizeRefresh) :
    Refreshed interpreter intText s u (s.asyncUpdate interpreter intText u).2.1
      (s.asyncUpdate interpreter intText u).2.2 := by
  unfold asyncUpdate
  split
  · next t ht =>
    refine query_refreshed (h t ht) (by rw [ht]; rfl) fun hnone => ?_
    rw [hnone] at ht
    cases ht
  · next hnone hbuild => exact query_refreshed .init (by rw [hnone]; rfl) fun _ => hbuild
  · next hnone hbuild => exact .unbuilt hnone (by rw [hbuild]; rfl)

/-- A query keeps the table. -/
theorem query_table (s : QuestDbTableSizeSensor) (t : IlpHttpTransport) (replies : Nat → Reply) :
    (s.query interpreter intText t replies).2.2.table = s.table := by
  unfold query
  dsimp only
  split
  · split <;> rfl
  · rfl
  · rfl

/-- So does every refresh. -/
theorem asyncUpdates_table (us : List SizeRefresh) (s : QuestDbTableSizeSensor) :
    (asyncUpdates interpreter intText us s).2.table = s.table := by
  induction us generalizing s with
  | nil => rfl
  | cons u us ih =>
    have hupdate : (s.asyncUpdate interpreter intText u).2.2.table = s.table := by
      unfold asyncUpdate
      split
      · exact query_table s _ u.replies
      · exact query_table s .init u.replies
      · rfl
    exact (ih _).trans hupdate

/-! ## All refreshes -/

/-- What the sensor shows and has logged, by the answers to its refreshes. -/
structure Shows (interpreter : Interpreter) (intText : PyStr → Except Exc Int)
    (s : QuestDbTableSizeSensor) (us : List SizeRefresh) (logs : List SizeLog) : Prop where
  built : s.transport = none ↔ us.dropWhile (·.build.isSome) = []
  inStep : ∀ t, s.transport = some t → t.InStep
  sent : s.transport.elim 0 (·.sent) ≤ 2 * us.length
  available : s.available =
    ((SizeRefresh.answers interpreter intText s.table us).map (·.isOk)).getLast?.getD true
  nativeValue : s.nativeValue =
    ((SizeRefresh.answers interpreter intText s.table us).filterMap (·.toOption)).getLast?.join
  recoveries : logs.count .info =
    Edges.rises true ((SizeRefresh.answers interpreter intText s.table us).map (·.isOk))
  balance : logs.length = 2 * logs.count .info + (!s.available).toNat

/-- The answers up to one more refresh. -/
theorem answers_snoc (table : PyStr) (us : List SizeRefresh)
    (h : us.dropWhile (·.build.isSome) = [] → u.build = none) :
    SizeRefresh.answers interpreter intText table (us ++ [u]) =
      SizeRefresh.answers interpreter intText table us ++
        (u.answer interpreter intText table).toList := by
  unfold SizeRefresh.answers
  rw [List.dropWhile_append]
  cases hus : us.dropWhile (·.build.isSome) with
  | nil =>
    have hbuild := h hus
    cases ha : u.answer interpreter intText table <;> simp [List.dropWhile, hbuild, ha]
  | cons first rest =>
    rw [List.isEmpty_cons, if_neg Bool.false_ne_true, List.filterMap_append]
    cases ha : u.answer interpreter intText table <;> simp [ha]

variable {us : List SizeRefresh} {logs told : List SizeLog}

/-- A sensor that was never refreshed shows nothing. -/
theorem Shows.init (interpreter : Interpreter) (intText : PyStr → Except Exc Int)
    (table : PyStr) : Shows interpreter intText { table } [] [] where
  built := ⟨fun _ => rfl, fun _ => rfl⟩
  inStep t ht := by cases ht
  sent := Nat.le_refl 0
  available := rfl
  nativeValue := rfl
  recoveries := rfl
  balance := rfl

/-- A refresh with a transport is one more, and its answer is the last. -/
theorem Shows.carried (h : Shows interpreter intText s us logs) {t : IlpHttpTransport}
    (ht : Carried s u t) : (us ++ [u]).dropWhile (·.build.isSome) ≠ [] ∧
      t.sent ≤ 2 * (us ++ [u]).length ∧
      SizeRefresh.answers interpreter intText s.table (us ++ [u]) =
        SizeRefresh.answers interpreter intText s.table us ++
          (u.answer interpreter intText s.table).toList := by
  have hfirst : us.dropWhile (·.build.isSome) = [] → u.build = none :=
    fun hus => ht.built (h.built.mpr hus)
  refine ⟨?_, ?_, answers_snoc s.table us hfirst⟩
  · rw [List.dropWhile_append]
    cases hus : us.dropWhile (·.build.isSome) with
    | nil => simp [hfirst hus]
    | cons first rest => simp
  · have hbefore := h.sent
    have hsent := ht.sent
    rw [List.length_append, List.length_singleton]
    omega

/-- One more answer is a recovery where the sensor was not available. -/
theorem Shows.recoveries_snoc (h : Shows interpreter intText s us logs)
    (a : Except IlpError (Option PyDouble)) :
    Edges.rises true
        ((SizeRefresh.answers interpreter intText s.table us ++ [a]).map (·.isOk)) =
      logs.count .info + if a.isOk && !s.available then 1 else 0 := by
  rw [List.map_append, h.recoveries, h.available]
  exact Edges.rises_snoc true _ a.isOk

/-- **A refresh that is answered is shown, and logged where the answer is another than before.** -/
theorem Shows.update (h : Shows interpreter intText s us logs)
    (hr : Refreshed interpreter intText s u told s') :
    Shows interpreter intText s' (us ++ [u]) (logs ++ told) := by
  have hbalance := h.balance
  cases hr with
  | unbuilt hnone hbuild =>
    have hdrop := h.built.mp hnone
    have hstill : (us ++ [u]).dropWhile (·.build.isSome) = [] := by
      rw [List.dropWhile_append, hdrop]
      simp [hbuild]
    have hanswers : SizeRefresh.answers interpreter intText s.table (us ++ [u]) =
        SizeRefresh.answers interpreter intText s.table us := by
      rw [SizeRefresh.answers, SizeRefresh.answers, hstill, hdrop]
    have hsent := h.sent
    rw [List.append_nil]
    refine ⟨⟨fun _ => hstill, fun _ => hnone⟩, h.inStep, ?_, ?_, ?_, ?_, hbalance⟩
    · rw [List.length_append, List.length_singleton]
      omega
    · rw [hanswers, h.available]
    · rw [hanswers, h.nativeValue]
    · rw [hanswers, h.recoveries]
  | raised t ht hanswer =>
    obtain ⟨hdrop, hmore, hanswers⟩ := h.carried ht
    rw [hanswer, Option.toList_none, List.append_nil] at hanswers
    rw [List.append_nil]
    refine ⟨iff_of_false (Option.some_ne_none t) hdrop, ?_, hmore, ?_, ?_, ?_, hbalance⟩
    · rintro t' ⟨⟩
      exact ht.inStep
    · exact h.available.trans (by rw [hanswers])
    · exact h.nativeValue.trans (by rw [hanswers])
    · exact h.recoveries.trans (by rw [hanswers])
  | answered t ht value hanswer =>
    obtain ⟨hdrop, hmore, hanswers⟩ := h.carried ht
    rw [hanswer, Option.toList_some] at hanswers
    refine ⟨iff_of_false (Option.some_ne_none t) hdrop, ?_, hmore, ?_, ?_, ?_, ?_⟩
    · rintro t' ⟨⟩
      exact ht.inStep
    · simp [hanswers, Except.isOk, Except.toBool]
    · simp [hanswers, Except.toOption]
    · dsimp only
      rw [hanswers, h.recoveries_snoc, List.count_append]
      cases s.available <;> simp [Except.isOk, Except.toBool]
    · cases hs : s.available <;> simp [hs] at hbalance ⊢ <;> omega
  | failed t ht err hanswer =>
    obtain ⟨hdrop, hmore, hanswers⟩ := h.carried ht
    rw [hanswer, Option.toList_some] at hanswers
    refine ⟨iff_of_false (Option.some_ne_none t) hdrop, ?_, hmore, ?_, ?_, ?_, ?_⟩
    · rintro t' ⟨⟩
      exact ht.inStep
    · simp [hanswers, Except.isOk, Except.toBool]
    · have hvalues : (SizeRefresh.answers interpreter intText s.table
          (us ++ [u])).filterMap (·.toOption) =
          (SizeRefresh.answers interpreter intText s.table us).filterMap (·.toOption) := by
        simp [hanswers, Except.toOption]
      exact h.nativeValue.trans (by rw [hvalues])
    · dsimp only
      rw [hanswers, h.recoveries_snoc, List.count_append]
      cases s.available <;> simp [Except.isOk, Except.toBool]
    · cases hs : s.available <;> simp [hs] at hbalance ⊢ <;> omega

/-- What holds of the refreshes so far holds behind some more. -/
theorem Shows.updates (h : Shows interpreter intText s us logs) (more : List SizeRefresh) :
    Shows interpreter intText (asyncUpdates interpreter intText more s).2 (us ++ more)
      (logs ++ (asyncUpdates interpreter intText more s).1) := by
  induction more generalizing s us logs with
  | nil => simpa [asyncUpdates] using h
  | cons u more ih =>
    have hrest := ih (h.update (asyncUpdate_refreshed h.inStep u))
    rw [List.append_assoc, List.append_assoc] at hrest
    exact hrest

/-- **The sensor follows the answers to its own refreshes.** Whatever the server and the network do:
it is available exactly where the last refresh that did not raise was answered, it shows the size
that was answered last, it warns once for each outage and tells of each recovery, and no refresh
sends more than two requests or reads the response to another. -/
theorem table_size_follows (interpreter : Interpreter) (intText : PyStr → Except Exc Int)
    (table : PyStr) (us : List SizeRefresh) :
    let shown := asyncUpdates interpreter intText us { table }
    let answers := SizeRefresh.answers interpreter intText table us
    shown.2.available = (answers.map (·.isOk)).getLast?.getD true ∧
      shown.2.nativeValue = (answers.filterMap (·.toOption)).getLast?.join ∧
      shown.1.count .info = Edges.rises true (answers.map (·.isOk)) ∧
      shown.1.length =
        shown.1.count .info + Edges.rises false ((answers.map (·.isOk)).map (!·)) ∧
      ∀ t, shown.2.transport = some t → t.InStep ∧ t.sent ≤ 2 * us.length := by
  intro shown answers
  have h := (Shows.init interpreter intText table).updates us
  rw [List.nil_append, List.nil_append] at h
  have htable : shown.2.table = table := asyncUpdates_table us _
  refine ⟨?_, ?_, ?_, ?_, fun t ht => ⟨h.inStep t ht, ?_⟩⟩
  · rw [h.available, htable]
  · rw [h.nativeValue, htable]
  · rw [h.recoveries, htable]
  · have hturns := Edges.rises_not true (answers.map (·.isOk))
    have havailable := h.available
    have hrecoveries := h.recoveries
    have hbalance := h.balance
    rw [htable] at havailable hrecoveries
    rw [← havailable, ← hrecoveries] at hturns
    cases hs : shown.2.available <;> simp [shown, hs] at hturns hbalance ⊢ <;> omega
  · have hsent := h.sent
    rw [ht] at hsent
    exact hsent

end QuestDbTableSizeSensor

end QuestDbWriter
