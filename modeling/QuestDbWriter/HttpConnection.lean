import QuestDbWriter.Transport
import QuestDbWriter.Lib.Transition

/-!
# The reused connection

`IlpHttpTransport` with the connection that it keeps between calls. A connection carries the
responses in the order of the requests: what is left unread of one, or has not arrived of one that
failed, is what the next call on that connection reads (`unread`). So a connection may be kept only
where nothing is left (`InStep`). In every run it is, and every call is then the one that
`Transport` describes for its own reply. A request has one response at most (`Reply`).

`history` is what an observer of the wire has seen; no code reads it.
-/

namespace QuestDbWriter

open Lib

/-- The response to a request, by the number of the request. -/
structure HttpResponse where
  request : Nat
  status : Nat
  body : Bytes

/-- An open connection, by its number, and the responses on it that are not read to their end, the
next one first. -/
structure HttpConnection where
  id : Nat
  unread : List HttpResponse

/-- One request as the wire has seen it. -/
structure Exchange where
  connection : Nat
  request : Nat
  /-- It repeats a query that failed. -/
  repetition : Bool
  /-- The request whose response was read, if one was. -/
  answered : Option Nat
  /-- That response was read to its end. -/
  complete : Bool
deriving DecidableEq

structure IlpHttpTransport where
  /-- `_connection`. -/
  connection : Option HttpConnection
  made : Nat
  sent : Nat
  history : List Exchange

namespace IlpHttpTransport

/-- `__init__`. -/
def init : IlpHttpTransport := { connection := none, made := 0, sent := 0, history := [] }

/-- `_get_connection`. -/
def getConnection (t : IlpHttpTransport) : HttpConnection × IlpHttpTransport :=
  match t.connection with
  | some connection => (connection, t)
  | none =>
    let connection := { id := t.made, unread := [] }
    (connection, { t with connection := some connection, made := t.made + 1 })

/-- `close`. -/
def close (t : IlpHttpTransport) : IlpHttpTransport := { t with connection := none }

/-- The response to a request that failed, should it still come: as bad as it can be. -/
def lateResponse (request : Nat) : HttpResponse := { request, status := 204, body := [] }

/-- `response.read(MAX_ERROR_BODY_BYTES + 1)` of the next response: what is read, and what is left
on the connection. -/
def readNext (responses : List HttpResponse) : Option HttpResponse × List HttpResponse :=
  match responses with
  | [] => (none, [])
  | response :: later =>
    let left := response.body.drop (maxErrorBodyBytes + 1)
    (some { response with body := response.body.take (maxErrorBodyBytes + 1) },
      if left = [] then later else { response with body := left } :: later)

/-- `connection.request`, `connection.getresponse` and `response.read` of one request, for which the
server or the network answers `reply`. -/
def exchange (t : IlpHttpTransport) (repetition : Bool) (reply : Reply) :
    Except String HttpResponse × IlpHttpTransport :=
  let connected := t.getConnection
  let connection := connected.1
  let t := connected.2
  let seen : Exchange :=
    { connection := connection.id, request := t.sent, repetition, answered := none,
      complete := false }
  let moved (unread : List HttpResponse) (seen : Exchange) : IlpHttpTransport :=
    { t with
      connection := some { connection with unread }
      sent := t.sent + 1
      history := t.history ++ [seen] }
  match reply with
  | .failed exception =>
    (.error exception, moved (connection.unread ++ [lateResponse t.sent]) seen)
  | .response status body =>
    let responses := connection.unread ++ [{ request := t.sent, status, body }]
    match readNext responses with
    | (none, unread) => (.error "ResponseNotReady", moved unread seen)
    | (some response, unread) =>
      (.ok response, moved unread { seen with
        answered := some response.request
        complete := decide (unread.length < responses.length) })

/-- The connection behind a response that is no success. -/
def closeFor (t : IlpHttpTransport) (response : HttpResponse) : IlpHttpTransport :=
  let t := if maxErrorBodyBytes < response.body.length then t.close else t
  if response.status = 408 ∨ 500 ≤ response.status ∧ response.status < 600 then t.close else t

/-- `send_batch`. -/
def sendBatch (t : IlpHttpTransport) (payload : Bytes) (reply : Reply) :
    Except CallError Unit × IlpHttpTransport :=
  if payload = [] then
    (.error (.other { type := .valueError, message := py "payload must be non-empty bytes" }), t)
  else if payload.getLast? ≠ some 10 then
    (.error (.other
      { type := .valueError, message := py "ILP payload must end with a newline" }), t)
  else
    match t.exchange false reply with
    | (.error exception, t) => (.error (.ilp (batchLost exception)), t.close)
    | (.ok response, t) =>
      if 200 ≤ response.status ∧ response.status < 300 then
        (.ok (), if maxErrorBodyBytes < response.body.length then t.close else t)
      else (.error (.ilp (rejection response.status response.body)), t.closeFor response)

/-- `_exec_query_on_current_connection`. -/
def execOnce (interpreter : Interpreter) (t : IlpHttpTransport) (repetition : Bool)
    (reply : Reply) :
    Except CallError Document × IlpHttpTransport :=
  match t.exchange repetition reply with
  | (.error exception, t) => (.error (.ilp (networkError exception)), t.close)
  | (.ok response, t) =>
    if 200 ≤ response.status ∧ response.status < 300 then
      (readDocument interpreter response.body,
        if maxErrorBodyBytes < response.body.length then t.close else t)
    else (.error (.ilp (statusError response.status response.body)), t.closeFor response)

/-- `except RetryableIlpError`. -/
def isRetryable : CallError → Bool
  | .ilp e => decide (e.kind = .retryable)
  | _ => false

/-- The loop of `exec_query` from an attempt on, with some repetitions left. -/
def execLoop (interpreter : Interpreter) (replies : Nat → Reply) :
    (left attempt : Nat) → IlpHttpTransport → Except CallError Document × IlpHttpTransport
  | left, attempt, t =>
    match t.execOnce interpreter (decide (0 < attempt)) (replies attempt) with
    | (.error e, t) =>
      if isRetryable e then
        match left with
        | 0 => (.error e, t)
        | left + 1 => execLoop interpreter replies left (attempt + 1) t.close
      else (.error e, t)
    | (.ok document, t) => (.ok document, t)

/-- `exec_query`, where the attempts are answered with `replies`. -/
def execQuery (interpreter : Interpreter) (t : IlpHttpTransport) (query : PyStr) (retries : Int)
    (replies : Nat → Reply) : Except CallError Document × IlpHttpTransport :=
  if query = [] then
    (.error (.other { type := .valueError, message := py "query must be a non-empty string" }), t)
  else if retries < 0 then
    (.error (.other { type := .valueError, message := py "retries must not be negative" }), t)
  else
    match encodeUtf8 query with
    | .error e => (.error (.other e), t)
    | .ok _ => execLoop interpreter replies retries.toNat 0 t

/-- A call of the transport, and what the server does. -/
inductive HttpCall where
  | sendBatch (payload : Bytes) (reply : Reply)
  | execQuery (query : PyStr) (retries : Int) (replies : Nat → Reply)
  | close

/-- A step of the transport. -/
def callStep (interpreter : Interpreter) (t : IlpHttpTransport) : HttpCall → Option IlpHttpTransport
  | .sendBatch payload reply => some (t.sendBatch payload reply).2
  | .execQuery query retries replies => some (execQuery interpreter t query retries replies).2
  | .close => some t.close

/-! ## In step -/

/-- Every response that was read is the one to its own request, and every repetition was sent on a
connection that carried none of the requests before. -/
structure Recorded (t : IlpHttpTransport) : Prop where
  numbered : ∀ e ∈ t.history, e.connection < t.made
  own : ∀ e ∈ t.history, e.answered = none ∨ e.answered = some e.request
  fresh : t.history.Pairwise fun earlier e => e.repetition = true →
    earlier.connection ≠ e.connection

/-- Nothing is left unread on the connection that is kept: every request on it was answered, and its
response was read to its end. -/
structure InStep (t : IlpHttpTransport) : Prop extends Recorded t where
  made : ∀ c, t.connection = some c → c.id < t.made
  read : ∀ c, t.connection = some c → c.unread = []
  answered : ∀ c, t.connection = some c → ∀ e ∈ t.history, e.connection = c.id →
    e.answered = some e.request ∧ e.complete = true

section
variable {t : IlpHttpTransport}

theorem InStep.init : InStep .init := ⟨⟨nofun, nofun, .nil⟩, nofun, nofun, nofun⟩

/-- A transport without a connection is in step. -/
theorem Recorded.close (h : Recorded t) : InStep t.close :=
  ⟨⟨h.numbered, h.own, h.fresh⟩, nofun, nofun, nofun⟩

/-- A new connection has carried nothing. -/
theorem InStep.getConnection (h : InStep t) :
    InStep t.getConnection.2 ∧ t.getConnection.2.connection = some t.getConnection.1 ∧
      t.getConnection.2.sent = t.sent ∧ t.getConnection.2.history = t.history ∧
      (t.connection = none → ∀ e ∈ t.history, e.connection ≠ t.getConnection.1.id) := by
  unfold IlpHttpTransport.getConnection
  split
  · next c hc => exact ⟨h, hc, rfl, rfl, fun hnone => nomatch hc.symm.trans hnone⟩
  · refine ⟨⟨⟨?_, h.own, h.fresh⟩, ?_, ?_, ?_⟩, rfl, rfl, rfl, ?_⟩
    · exact fun e he => Nat.lt_succ_of_lt (h.numbered e he)
    · rintro c ⟨⟩
      exact Nat.lt_succ_self _
    · rintro c ⟨⟩
      rfl
    · rintro c ⟨⟩ e he heq
      exact absurd heq (Nat.ne_of_lt (h.numbered e he))
    · exact fun _ e he => Nat.ne_of_lt (h.numbered e he)

/-- One more exchange is recorded. -/
theorem Recorded.snoc (h : Recorded t) {connection : Option HttpConnection} {sent : Nat}
    {e : Exchange}
    (hnumbered : e.connection < t.made) (hown : e.answered = none ∨ e.answered = some e.request)
    (hfresh : e.repetition = true → ∀ earlier ∈ t.history, earlier.connection ≠ e.connection) :
    Recorded { t with connection, sent, history := t.history ++ [e] } := by
  constructor
  · intro x hx
    rcases List.mem_append.mp hx with hx | hx
    · exact h.numbered x hx
    · rw [List.mem_singleton.mp hx]
      exact hnumbered
  · intro x hx
    rcases List.mem_append.mp hx with hx | hx
    · exact h.own x hx
    · rw [List.mem_singleton.mp hx]
      exact hown
  · refine List.pairwise_append.mpr ⟨h.fresh, List.pairwise_singleton _ _,
      fun earlier he x hx => ?_⟩
    rw [List.mem_singleton.mp hx]
    exact fun hr => hfresh hr earlier he

/-- A request that fails is recorded. -/
theorem exchange_failed (h : InStep t) (repetition : Bool)
    (hrep : repetition = true → t.connection = none) (exception : String) :
    ∃ t', t.exchange repetition (.failed exception) = (.error exception, t') ∧ Recorded t' := by
  obtain ⟨hin, hconnection, -, hhistory, hnew⟩ := h.getConnection
  refine ⟨_, rfl, hin.toRecorded.snoc (hin.made _ hconnection) (.inl rfl) fun hr => ?_⟩
  rw [hhistory]
  exact hnew (hrep hr)

/-- **A request in step reads the response to itself**, and stays in step if that is read to its
end. -/
theorem exchange_response (h : InStep t) (repetition : Bool)
    (hrep : repetition = true → t.connection = none) (status : Nat) (body : Bytes) :
    ∃ t', t.exchange repetition (.response status body) =
        (.ok { request := t.sent, status, body := body.take (maxErrorBodyBytes + 1) }, t') ∧
      Recorded t' ∧ (body.length ≤ maxErrorBodyBytes + 1 → InStep t') := by
  obtain ⟨hin, hconnection, hsent, hhistory, hnew⟩ := h.getConnection
  have hread := hin.read _ hconnection
  have hid := hin.made _ hconnection
  rw [← hhistory] at hnew
  unfold exchange
  dsimp only
  rw [hread, List.nil_append, hsent]
  simp only [readNext]
  refine ⟨_, rfl, ?_, fun hle => ?_⟩
  · exact hin.toRecorded.snoc hid (.inr rfl) fun hr => hnew (hrep hr)
  · have hend : body.drop (maxErrorBodyBytes + 1) = [] := List.drop_eq_nil_of_le hle
    rw [if_pos hend]
    refine ⟨?_, ?_, ?_, ?_⟩
    · exact hin.toRecorded.snoc hid (.inr rfl) fun hr => hnew (hrep hr)
    · rintro c ⟨⟩
      exact hid
    · rintro c ⟨⟩
      rfl
    · rintro c ⟨⟩ e he heq
      rcases List.mem_append.mp he with he | he
      · exact hin.answered _ hconnection e he heq
      · rw [List.mem_singleton.mp he]
        exact ⟨rfl, rfl⟩

/-! ## The calls -/

/-- Where the connection is kept, the body was no longer than `MAX_ERROR_BODY_BYTES`, and so it was
read to its end. -/
theorem keep_inStep {body : Bytes} (hrecorded : Recorded t)
    (hstep : body.length ≤ maxErrorBodyBytes + 1 → InStep t) :
    InStep (if maxErrorBodyBytes < (body.take (maxErrorBodyBytes + 1)).length then t.close
      else t) := by
  split
  · exact hrecorded.close
  · next hshort =>
    rw [List.length_take] at hshort
    exact hstep (by omega)

theorem closeFor_inStep {request status : Nat} {body : Bytes} (hrecorded : Recorded t)
    (hstep : body.length ≤ maxErrorBodyBytes + 1 → InStep t) :
    InStep (t.closeFor { request, status, body := body.take (maxErrorBodyBytes + 1) }) := by
  have hkept := keep_inStep hrecorded hstep
  unfold closeFor
  dsimp only
  split
  · exact hkept.toRecorded.close
  · exact hkept

theorem take_max (body : Bytes) :
    (body.take (maxErrorBodyBytes + 1)).take maxErrorBodyBytes = body.take maxErrorBodyBytes := by
  rw [List.take_take, Nat.min_eq_left (Nat.le_succ _)]

theorem statusError_take (status : Nat) (body : Bytes) :
    statusError status (body.take (maxErrorBodyBytes + 1)) = statusError status body := by
  unfold statusError
  rw [take_max]

theorem rejection_take (status : Nat) (body : Bytes) :
    rejection status (body.take (maxErrorBodyBytes + 1)) = rejection status body := by
  unfold rejection
  rw [take_max, statusError_take]

theorem readDocument_take (interpreter : Interpreter) (body : Bytes) :
    readDocument interpreter (body.take (maxErrorBodyBytes + 1)) =
        readDocument interpreter body := by
  unfold readDocument
  rw [List.take_take, Nat.min_self]

/-- **A batch that is sent in step is answered by its own reply**, and leaves the transport in
step. -/
theorem sendBatch_inStep (h : InStep t) (payload : Bytes) (reply : Reply) :
    (t.sendBatch payload reply).1 = QuestDbWriter.sendBatch payload reply ∧
      InStep (t.sendBatch payload reply).2 := by
  by_cases hempty : payload = []
  · rw [sendBatch, if_pos hempty, QuestDbWriter.sendBatch.eq_def, raiseUnless,
      if_neg (not_not.mpr hempty)]
    exact ⟨rfl, h⟩
  by_cases hline : payload.getLast? = some 10
  · have hrep : false = true → t.connection = none := fun hrep => absurd hrep Bool.false_ne_true
    rw [sendBatch, if_neg hempty, if_neg (not_not.mpr hline), QuestDbWriter.sendBatch.eq_def,
      raiseUnless, raiseUnless, if_pos hempty, if_pos hline]
    cases reply with
    | failed exception =>
      obtain ⟨t', he, hrecorded⟩ := exchange_failed h false hrep exception
      rw [he]
      exact ⟨rfl, hrecorded.close⟩
    | response status body =>
      obtain ⟨t', he, hrecorded, hstep⟩ := exchange_response h false hrep status body
      rw [he]
      dsimp only [bind, Except.bind]
      rw [rejection_take]
      split
      · exact ⟨rfl, keep_inStep hrecorded hstep⟩
      · exact ⟨rfl, closeFor_inStep hrecorded hstep⟩
  · rw [sendBatch, if_neg hempty, if_pos hline, QuestDbWriter.sendBatch.eq_def, raiseUnless,
      raiseUnless, if_pos hempty, if_neg hline]
    exact ⟨rfl, h⟩

/-- One attempt in step is answered by its own reply. -/
theorem execOnce_inStep (interpreter : Interpreter) (h : InStep t) (repetition : Bool)
    (hrep : repetition = true → t.connection = none) (reply : Reply) :
    (execOnce interpreter t repetition reply).1 = reply.document interpreter ∧
      InStep (execOnce interpreter t repetition reply).2 := by
  unfold execOnce
  cases reply with
  | failed exception =>
    obtain ⟨t', he, hrecorded⟩ := exchange_failed h repetition hrep exception
    rw [he]
    exact ⟨rfl, hrecorded.close⟩
  | response status body =>
    obtain ⟨t', he, hrecorded, hstep⟩ := exchange_response h repetition hrep status body
    rw [he]
    dsimp only [Reply.document]
    rw [statusError_take, readDocument_take]
    split
    · exact ⟨rfl, keep_inStep hrecorded hstep⟩
    · exact ⟨rfl, closeFor_inStep hrecorded hstep⟩

/-- The attempts of `exec_query`, each by its own reply. -/
def attempts (interpreter : Interpreter) (replies : Nat → Reply) :
    (left attempt : Nat) → Except CallError Document
  | left, attempt =>
    match (replies attempt).document interpreter with
    | .error e =>
      if isRetryable e then
        match left with
        | 0 => .error e
        | left + 1 => attempts interpreter replies left (attempt + 1)
      else .error e
    | .ok document => .ok document

/-- The loop of `exec_query`, by recursion on the repetitions that are left: each of them starts
behind a `close`. -/
theorem execLoop_inStep (interpreter : Interpreter) (replies : Nat → Reply) :
    ∀ (left attempt : Nat) {t : IlpHttpTransport}, InStep t → (0 < attempt → t.connection = none) →
      (execLoop interpreter replies left attempt t).1 = attempts interpreter replies left attempt ∧
        InStep (execLoop interpreter replies left attempt t).2
  | left, attempt, t, h, hfirst => by
    obtain ⟨hresult, hstep⟩ := execOnce_inStep interpreter h (decide (0 < attempt))
      (fun hr => hfirst (of_decide_eq_true hr)) (replies attempt)
    unfold execLoop attempts
    rw [← hresult]
    generalize execOnce interpreter t (decide (0 < attempt)) (replies attempt) = r at hstep
    obtain ⟨result, t'⟩ := r
    cases result with
    | ok document => exact ⟨rfl, hstep⟩
    | error e =>
      dsimp only
      split
      · cases left with
        | zero => exact ⟨rfl, hstep⟩
        | succ left =>
          exact execLoop_inStep interpreter replies left (attempt + 1) hstep.toRecorded.close
            fun _ => rfl
      · exact ⟨rfl, hstep⟩

/-- Without a repetition the answer is that of the one request. -/
theorem attempts_zero (interpreter : Interpreter) (replies : Nat → Reply) (attempt : Nat) :
    attempts interpreter replies 0 attempt = (replies attempt).document interpreter := by
  unfold attempts
  cases (replies attempt).document interpreter with
  | ok document => rfl
  | error e => exact ite_self _

/-- **A query is answered by the replies to its own attempts**, and leaves the transport in step. -/
theorem execQuery_inStep (interpreter : Interpreter) (h : InStep t) (query : PyStr) (retries : Int)
    (replies : Nat → Reply) :
    (retries = 0 → (execQuery interpreter t query retries replies).1 =
        QuestDbWriter.execQuery interpreter query (replies 0)) ∧
      InStep (execQuery interpreter t query retries replies).2 := by
  unfold execQuery QuestDbWriter.execQuery raiseUnless
  by_cases hempty : query = []
  · rw [if_pos hempty, if_neg (not_not.mpr hempty)]
    exact ⟨fun _ => rfl, h⟩
  rw [if_neg hempty, if_pos hempty]
  by_cases hneg : retries < 0
  · rw [if_pos hneg]
    exact ⟨fun hzero => absurd hzero (by omega), h⟩
  rw [if_neg hneg]
  cases encodeUtf8 query with
  | error e => exact ⟨fun _ => rfl, h⟩
  | ok bytes =>
    obtain ⟨hresult, hstep⟩ := execLoop_inStep interpreter replies retries.toNat 0 h
      fun hlt => absurd hlt (Nat.lt_irrefl 0)
    refine ⟨fun hzero => ?_, hstep⟩
    subst hzero
    exact hresult.trans (attempts_zero interpreter replies 0)

/-! ## Runs -/

/-- Every call leaves the transport in step. -/
theorem InStep.call {interpreter : Interpreter} {call : HttpCall} {t' : IlpHttpTransport}
    (h : InStep t) (hcall : callStep interpreter t call = some t') : InStep t' := by
  cases call with
  | sendBatch payload reply =>
    cases hcall
    exact (sendBatch_inStep h payload reply).2
  | execQuery query retries replies =>
    cases hcall
    exact (execQuery_inStep interpreter h query retries replies).2
  | close =>
    cases hcall
    exact h.toRecorded.close

/-- A batch is acknowledged by a status of success only. -/
theorem sendBatch_ok {payload : Bytes} {reply : Reply}
    (h : QuestDbWriter.sendBatch payload reply = .ok ()) :
    ∃ status body, reply = .response status body ∧ 200 ≤ status ∧ status < 300 := by
  rw [QuestDbWriter.sendBatch.eq_def, raiseUnless, raiseUnless] at h
  split at h
  · split at h
    · cases reply with
      | failed exception => cases h
      | response status body =>
        by_cases hstatus : 200 ≤ status ∧ status < 300
        · exact ⟨status, body, rfl, hstatus⟩
        · dsimp only at h
          rw [if_neg hstatus] at h
          cases h
    · cases h
  · cases h

/-- **The reused connection never goes out of step.** In whatever order batches and queries are
sent, and whatever the server answers to them: a connection that is kept has nothing left unread, as
every request on it was answered and read to the end. So every response that is read is the one to
its own request, a batch is acknowledged only where its own response says so, and a query is
repeated only on a connection that carried no request before. -/
theorem connection_inStep {interpreter : Interpreter}
    (h : Steps (callStep interpreter) (fun _ _ => True) .init t) :
    (∀ c, t.connection = some c → c.unread = [] ∧
      ∀ e ∈ t.history, e.connection = c.id → e.answered = some e.request ∧ e.complete = true) ∧
    (∀ e ∈ t.history, e.answered = none ∨ e.answered = some e.request) ∧
    (∀ payload reply, (t.sendBatch payload reply).1 = .ok () →
      ∃ status body, reply = .response status body ∧ 200 ≤ status ∧ status < 300) ∧
    t.history.Pairwise fun earlier e => e.repetition = true →
        earlier.connection ≠ e.connection := by
  have hin : InStep t := h.invariant InStep.init fun _ _ _ hs _ hcall => hs.call hcall
  refine ⟨fun c hc => ⟨hin.read c hc, hin.answered c hc⟩, hin.own, fun payload reply hok => ?_,
    hin.fresh⟩
  exact sendBatch_ok ((sendBatch_inStep hin payload reply).1.symm.trans hok)

/-- A batch and a query, which is repeated. -/
def repeatedQuery : List HttpCall :=
  [.sendBatch [65, 10] (.response 204 []),
    .execQuery (py "select 1") 1 fun attempt =>
      if attempt = 0 then .response 503 [] else .response 400 []]

/-- The repetition is the first request on a second connection. -/
theorem repeatedQuery_inStep :
    ∃ t, exec (callStep .plain) repeatedQuery .init = some t ∧
      t.history.map Exchange.connection = [0, 0, 1] ∧
      t.history.map Exchange.repetition = [false, false, true] ∧
      (∀ c, t.connection = some c → c.unread = []) := by
  have hrun : ((exec (callStep .plain) repeatedQuery .init).any fun t =>
      decide (t.history.map Exchange.connection = [0, 0, 1] ∧
        t.history.map Exchange.repetition = [false, false, true])) = true := by
    decide +kernel
  obtain ⟨t, ht, hhistory⟩ := (Option.any_eq_true _ _).mp hrun
  obtain ⟨hconnections, hrepetitions⟩ := of_decide_eq_true hhistory
  exact ⟨t, ht, hconnections, hrepetitions,
    fun c hc => ((connection_inStep (.of_exec ht)).1 c hc).1⟩

end

end IlpHttpTransport

end QuestDbWriter
