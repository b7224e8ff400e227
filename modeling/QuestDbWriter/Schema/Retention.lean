import QuestDbWriter.Schema.Ensure
import QuestDbWriter.Schema.Validation

/-!
# Retention alignment

What `ensure` leaves of the TTL of the table. The statements that it sends are recorded beside its
result (`Logged`; recording changes nothing, `ensureLogged_result`), and the server sets the TTL at
every `SET TTL` that it accepts. `_read_ttl_days` reads the value of the TTL and not its unit, so
the TTL is aligned exactly where the unit does not matter (`retention_aligned`).
-/

namespace QuestDbWriter

open Lib Json

/-! ## The TTL of the server -/

/-- The units that `tables()` reports. -/
inductive TtlUnit where
  | hour
  | day
  | week
  | month
  | year
deriving DecidableEq

/-- The `ttlUnit` of a unit. -/
def TtlUnit.name : TtlUnit → PyStr
  | hour => py "HOUR"
  | day => py "DAY"
  | week => py "WEEK"
  | month => py "MONTH"
  | year => py "YEAR"

/-- The hours that the server counts for a month and for a year. -/
structure Calendar where
  month : Nat
  year : Nat
  month_gt : 24 < month
  year_gt : 24 < year

/-- The hours of a unit. -/
def TtlUnit.hours (calendar : Calendar) : TtlUnit → Nat
  | hour => 1
  | day => 24
  | week => 7 * 24
  | month => calendar.month
  | year => calendar.year

/-- A TTL as `tables()` reports it; no TTL has the value 0. -/
structure Ttl where
  value : Nat
  unit : TtlUnit
deriving DecidableEq

/-- The duration of a TTL. -/
def Ttl.hours (calendar : Calendar) (ttl : Ttl) : Nat := ttl.value * ttl.unit.hours calendar

/-- The TTL lasts that many days; 0 days are none. -/
def Ttl.IsDays (calendar : Calendar) (ttl : Ttl) (days : Nat) : Prop :=
  ttl.hours calendar = days * TtlUnit.day.hours calendar

instance (calendar : Calendar) (ttl : Ttl) (days : Nat) : Decidable (ttl.IsDays calendar days) :=
  inferInstanceAs (Decidable (_ = _))

/-- A unit lasts. -/
theorem TtlUnit.hours_pos (calendar : Calendar) (unit : TtlUnit) : 0 < unit.hours calendar := by
  have hmonth := calendar.month_gt
  have hyear := calendar.year_gt
  cases unit <;> simp only [TtlUnit.hours] <;> omega

/-- Only a day is as long as a day. -/
theorem TtlUnit.hours_eq_day {calendar : Calendar} {unit : TtlUnit} :
    unit.hours calendar = TtlUnit.day.hours calendar ↔ unit = .day := by
  have hmonth := calendar.month_gt
  have hyear := calendar.year_gt
  cases unit <;> simp only [TtlUnit.hours, reduceCtorEq, iff_false] <;> omega

/-- The dataset of `tables()` for a table with the TTL. -/
def ShowsTtlOf (ttl : Ttl) (document : Document) : Prop :=
  ∃ name rows, member (py "dataset") document =
    some (.array (.array [name, .int ttl.value, .str ttl.unit.name] :: rows))

/-! ## The statements of ensure -/

/-- The statements that `ensure` sends. -/
inductive Statement where
  | create
  | showColumns
  | readTtl
  | setTtl (days : Nat)
deriving DecidableEq

/-- The text that `schema.py` builds for a statement. -/
def Statement.text (table : PyStr) : Statement → PyStr
  | create => createTableDdl table
  | showColumns => showColumnsQuery table
  | readTtl => readTtlQuery table
  | setTtl days => setTtlQuery table days

/-- The first two letters of a statement. -/
def Statement.lead : Statement → PyStr
  | create => py "CR"
  | showColumns => py "SH"
  | readTtl => py "SE"
  | setTtl _ => py "AL"

/-- The first characters of a statement. -/
theorem Statement.take_text (table : PyStr) (statement : Statement) :
    (statement.text table).take 2 = statement.lead := by
  cases statement <;> rfl

/-- **The texts tell the statements apart**: no two of them have one text. -/
theorem Statement.text_injective (table : PyStr) : Function.Injective (Statement.text table) := by
  intro s s' h
  have hlead : s.lead = s'.lead := by rw [← take_text table s, ← take_text table s', h]
  cases s <;> cases s' <;> simp only [lead] at hlead
  case setTtl.setTtl days days' =>
    have hdays : natText days = natText days' :=
      List.append_cancel_left (List.append_cancel_right h)
    rw [natText_injective hdays]
  all_goals first | rfl | exact absurd hlead (by decide)

/-- The text says that the TTL of the table becomes that many days. -/
def SetsTtl (table text : PyStr) (days : Nat) : Prop :=
  text = py "ALTER TABLE " ++ quoteIdentifier table ++ py " SET TTL " ++ natText days ++ py " DAYS"

/-- A statement says so where it is the one that sets the TTL to these days. -/
theorem Statement.setsTtl_iff {table : PyStr} {statement : Statement} {days : Nat} :
    SetsTtl table (statement.text table) days ↔ statement = .setTtl days :=
  (text_injective table).eq_iff' rfl

/-- What comes out of a call, with the statements it has sent and the replies to them. -/
structure Logged (α : Type) where
  result : Except CallError α
  sent : List (Statement × Reply)

namespace Logged

variable {α β : Type}

/-- A computation that sends nothing. -/
def ofExcept (x : Except CallError α) : Logged α := ⟨x, []⟩

/-- What the second part sends stands behind what the first sent. -/
def andThen (x : Logged α) (f : α → Logged β) : Logged β :=
  match x.result with
  | .error e => ⟨.error e, x.sent⟩
  | .ok a => ⟨(f a).result, x.sent ++ (f a).sent⟩

instance : Monad Logged where
  pure a := ⟨.ok a, []⟩
  bind := andThen

/-- An `except` clause around a call. -/
def handle (f : Except CallError α → Except CallError β) (x : Logged α) : Logged β :=
  ⟨f x.result, x.sent⟩

/-- A value is its own result. -/
@[simp] theorem pure_result (a : α) : (pure a : Logged α).result = .ok a := rfl

/-- The result of a computation that sends nothing. -/
@[simp] theorem ofExcept_result (x : Except CallError α) : (ofExcept x).result = x := rfl

/-- An `except` clause acts on the result. -/
@[simp] theorem handle_result (f : Except CallError α → Except CallError β) (x : Logged α) :
    (x.handle f).result = f x.result := rfl

/-- The results of a `do` block are those of `Except`. -/
@[simp] theorem bind_result (x : Logged α) (f : α → Logged β) :
    (x >>= f).result = x.result >>= fun a => (f a).result := by
  show (x.andThen f).result = _
  unfold andThen
  cases x.result <;> rfl

/-- Two calls return where both do, and have sent what both have. -/
theorem bind_ok {x : Logged α} {f : α → Logged β} {b : β} (h : (x >>= f).result = .ok b) :
    ∃ a, x.result = .ok a ∧ (f a).result = .ok b ∧ (x >>= f).sent = x.sent ++ (f a).sent := by
  have hresult : (x.andThen f).result = .ok b := h
  show ∃ a, _ ∧ _ ∧ (x.andThen f).sent = _
  unfold andThen at hresult ⊢
  cases hx : x.result with
  | error e =>
    rw [hx] at hresult
    cases hresult
  | ok a =>
    rw [hx] at hresult
    exact ⟨a, rfl, hresult, rfl⟩

end Logged

/-- `exec_query` of a statement. -/
def send (interpreter : Interpreter) (table : PyStr) (statement : Statement) (reply : Reply) :
    Logged Document :=
  ⟨execQuery interpreter (statement.text table) reply, [(statement, reply)]⟩

namespace SchemaManager

/-- The handler around the statement that sets the TTL. -/
def afterSetTtl (m : SchemaManager) : Except CallError Document → Except CallError SchemaManager
  | .error (.ilp e) =>
    if m.retentionDays ≠ 0 ∧ e.isPermanent = true then .ok { m with ttlRejected := true }
    else .error (.ilp e)
  | .error e => .error e
  | .ok _ => .ok m

/-- `_apply_retention`. -/
def applyRetentionLogged (m : SchemaManager) (interpreter : Interpreter) (table : PyStr)
    (tables altered : Reply) : Logged SchemaManager :=
  if m.ttlRejected then pure m
  else do
    let document ← send interpreter table .readTtl tables
    let current ← Logged.ofExcept (ttlDays (member (py "dataset") document) table)
    if current = m.desired then pure m
    else (send interpreter table (.setTtl m.retentionDays) altered).handle m.afterSetTtl

/-- `ensure`. -/
def ensureLogged (m : SchemaManager) (interpreter : Interpreter) (table : PyStr)
    (replies : Nat → Reply) : Logged SchemaManager := do
  Logged.ofExcept ((raiseUnless (table ≠ [] ∧ ofChar '\x00' ∉ table)
    { type := .valueError,
      message := py "table must be a non-empty string without NUL" }).mapError .other)
  let _ ← send interpreter table .create (replies 0)
  let document ← (send interpreter table .showColumns (replies 1)).handle markDisappeared
  Logged.ofExcept (validateTableColumns interpreter (member (py "dataset") document) table)
  m.applyRetentionLogged interpreter table (replies 2) (replies 3)

section
variable (m : SchemaManager) (interpreter : Interpreter) (table : PyStr)

/-- The ALTER of the logged program is that of the program. -/
theorem afterSetTtl_eq (reply : Reply) :
    m.afterSetTtl (execQuery interpreter (setTtlQuery table m.retentionDays) reply) =
      m.setTtl interpreter table reply := by
  unfold afterSetTtl setTtl
  cases execQuery interpreter (setTtlQuery table m.retentionDays) reply with
  | ok document => rfl
  | error e => cases e <;> rfl

/-- The log does not change what the retention check answers. -/
theorem applyRetentionLogged_result (tables altered : Reply) :
    (m.applyRetentionLogged interpreter table tables altered).result =
      m.applyRetention interpreter table tables altered := by
  unfold applyRetentionLogged applyRetention
  split
  · rfl
  · simp only [Logged.bind_result, Logged.ofExcept_result]
    refine congrArg _ (funext fun document => congrArg _ (funext fun current => ?_))
    split
    · rfl
    · exact m.afterSetTtl_eq interpreter table altered

/-- **Recording what is sent changes nothing.** -/
theorem ensureLogged_result (replies : Nat → Reply) :
    (m.ensureLogged interpreter table replies).result = m.ensure interpreter table replies := by
  unfold ensureLogged ensure
  simp only [Logged.bind_result, Logged.ofExcept_result, Logged.handle_result,
    applyRetentionLogged_result]
  rfl

end

end SchemaManager

/-! ## The TTL behind ensure -/

/-- The server accepts a statement that it answers with a 2xx status. -/
def Reply.accepts : Reply → Bool
  | .response status _ => decide (200 ≤ status ∧ status < 300)
  | .failed _ => false

/-- The server rejects a statement that it answers with any other. -/
def Reply.Rejects (reply : Reply) : Prop :=
  ∃ status body, reply = .response status body ∧ reply.accepts = false

/-- The TTL behind a statement. -/
def Ttl.afterStatement (ttl : Ttl) : Statement × Reply → Ttl
  | (.setTtl days, reply) => if reply.accepts then ⟨days, .day⟩ else ttl
  | _ => ttl

/-- An accepted statement leaves the TTL that its text says, and any other leaves the TTL. -/
theorem Ttl.afterStatement_text (ttl : Ttl) (table : PyStr) (statement : Statement)
    (reply : Reply) :
    (∃ days, SetsTtl table (statement.text table) days ∧ reply.accepts = true ∧
        ttl.afterStatement (statement, reply) = ⟨days, .day⟩) ∨
      ((∀ days, ¬ SetsTtl table (statement.text table) days) ∨ reply.accepts = false) ∧
        ttl.afterStatement (statement, reply) = ttl := by
  cases statement with
  | setTtl days =>
    cases haccepts : reply.accepts with
    | true => exact .inl ⟨days, rfl, rfl, if_pos haccepts⟩
    | false => exact .inr ⟨.inr rfl, if_neg (by simp [haccepts])⟩
  | create | showColumns | readTtl =>
    refine .inr ⟨.inl fun days h => ?_, rfl⟩
    cases Statement.setsTtl_iff.mp h

/-- The TTL behind some statements, in their order. -/
def Ttl.afterStatements (ttl : Ttl) (sent : List (Statement × Reply)) : Ttl :=
  sent.foldl Ttl.afterStatement ttl

/-- The TTL that `_read_ttl_days` reads: the value, whatever its unit is. -/
theorem ttlDays_shown {ttl : Ttl} {document : Document} (h : ShowsTtlOf ttl document)
    (table : PyStr) :
    ttlDays (member (py "dataset") document) table =
      .ok (if ttl.value = 0 then none else some ttl.value) := by
  obtain ⟨name, rows, hmember⟩ := h
  rw [hmember]
  by_cases hzero : ttl.value = 0
  · simp [ttlDays, Value.toInt, hzero, Except.mapError, bind, Except.bind, pure, Except.pure]
  · simp [ttlDays, Value.toInt, hzero, Except.mapError, bind, Except.bind, pure, Except.pure]

section
variable {interpreter : Interpreter} {m m' : SchemaManager} {table : PyStr} {ttl : Ttl}
  {replies : Nat → Reply}

/-- What is read is the configured retention exactly where the value is. -/
theorem SchemaManager.desired_eq {value : Nat} :
    (if value = 0 then none else some (value : Int)) = m.desired ↔ value = m.retentionDays := by
  unfold SchemaManager.desired
  split <;> split <;> simp <;> omega

/-- What a query returns, and an error of the transport that it raises, comes from the reply. -/
theorem execQuery_from_reply {query : PyStr} {reply : Reply} {result : Except CallError Document}
    (h : execQuery interpreter query reply = result) (hreply : ∀ e, result ≠ .error (.other e)) :
    reply.document interpreter = result := by
  unfold execQuery raiseUnless at h
  split at h
  · cases hbytes : encodeUtf8 query with
    | ok bytes =>
      rw [hbytes] at h
      exact h
    | error e =>
      rw [hbytes] at h
      exact absurd h.symm (hreply e)
  · exact absurd h.symm (hreply _)

/-- The end of the check returns where the server has accepted the TTL, or rejected it. -/
theorem afterSetTtl_ok {query : PyStr} {reply : Reply}
    (h : m.afterSetTtl (execQuery interpreter query reply) = .ok m')
    (haccepted : ¬ reply.Rejects) : reply.accepts = true := by
  cases reply with
  | response status body =>
    by_contra hnot
    exact haccepted ⟨status, body, rfl, Bool.not_eq_true _ ▸ hnot⟩
  | failed exception =>
    -- A lost reply is raised as an error that is no rejection.
    cases hquery : execQuery interpreter query (.failed exception) with
    | ok document => cases execQuery_from_reply hquery (by simp)
    | error e =>
      rw [hquery] at h
      cases e with
      | ilp e =>
        cases execQuery_from_reply hquery (by simp)
        simp [SchemaManager.afterSetTtl, networkError, IlpError.isPermanent] at h
      | schema mismatch message => cases h
      | other e => cases h

/-- A schema check that returns has sent the statement that sets the TTL exactly where the value of
the TTL is not the configured one. -/
theorem ensureLogged_sent (hrejected : m.ttlRejected = false)
    (hshown : ∀ document, (replies 2).document interpreter = .ok document → ShowsTtlOf ttl document)
    (hensure : m.ensure interpreter table replies = .ok m') :
    ∃ before, (∀ days reply, (Statement.setTtl days, reply) ∉ before) ∧
      (m.ensureLogged interpreter table replies).sent =
        (if ttl.value = m.retentionDays then before
        else before ++ [(.setTtl m.retentionDays, replies 3)]) ∧
      (ttl.value ≠ m.retentionDays → m.afterSetTtl (execQuery interpreter
        (setTtlQuery table m.retentionDays) (replies 3)) = .ok m') := by
  rw [← SchemaManager.ensureLogged_result] at hensure
  unfold SchemaManager.ensureLogged at hensure ⊢
  obtain ⟨_, -, hensure, hsent₀⟩ := Logged.bind_ok hensure
  obtain ⟨_, -, hensure, hsent₁⟩ := Logged.bind_ok hensure
  obtain ⟨shown, -, hensure, hsent₂⟩ := Logged.bind_ok hensure
  obtain ⟨_, -, hensure, hsent₃⟩ := Logged.bind_ok hensure
  rw [hsent₀, hsent₁, hsent₂, hsent₃]
  unfold SchemaManager.applyRetentionLogged at hensure ⊢
  rw [if_neg (by simp [hrejected])] at hensure ⊢
  obtain ⟨document, hdocument, hensure, hsent₄⟩ := Logged.bind_ok hensure
  obtain ⟨current, hcurrent, hensure, hsent₅⟩ := Logged.bind_ok hensure
  rw [hsent₄, hsent₅]
  have hreply := execQuery_from_reply hdocument (by simp)
  have hread := (ttlDays_shown (hshown document hreply) table).symm.trans hcurrent
  cases hread
  refine ⟨[(.create, replies 0), (.showColumns, replies 1), (.readTtl, replies 2)], by simp, ?_⟩
  by_cases hvalue : ttl.value = m.retentionDays
  · rw [if_pos hvalue, if_pos (SchemaManager.desired_eq.mpr hvalue)]
    exact ⟨rfl, fun hne => absurd hvalue hne⟩
  · rw [if_neg (SchemaManager.desired_eq.not.mpr hvalue)] at hensure
    rw [if_neg hvalue, if_neg (SchemaManager.desired_eq.not.mpr hvalue)]
    exact ⟨rfl, fun _ => hensure⟩

/-- Other statements leave the TTL. -/
theorem Ttl.afterStatements_others {sent : List (Statement × Reply)}
    (h : ∀ days reply, (Statement.setTtl days, reply) ∉ sent) : ttl.afterStatements sent = ttl := by
  induction sent with
  | nil => rfl
  | cons entry sent ih =>
    obtain ⟨statement, reply⟩ := entry
    have hrest : ∀ days reply, (Statement.setTtl days, reply) ∉ sent := by
      intro days reply hmem
      exact h days reply (List.mem_cons_of_mem _ hmem)
    cases statement with
    | setTtl days => exact absurd List.mem_cons_self (h days reply)
    | create => exact ih hrest
    | showColumns => exact ih hrest
    | readTtl => exact ih hrest

/-- A value counts days exactly in the unit of days. -/
theorem Ttl.isDays_of_value {calendar : Calendar} (hpos : 0 < ttl.value) :
    ttl.IsDays calendar ttl.value ↔ ttl.unit = .day := by
  unfold Ttl.IsDays Ttl.hours
  rw [Nat.mul_right_inj hpos.ne', TtlUnit.hours_eq_day]

/-- In that unit it is the number of days. -/
theorem Ttl.isDays_day {calendar : Calendar} (value days : Nat) :
    Ttl.IsDays calendar ⟨value, .day⟩ days ↔ value = days := by
  unfold Ttl.IsDays Ttl.hours
  exact Nat.mul_left_inj (TtlUnit.hours_pos calendar .day).ne'

/-- **The TTL is aligned exactly where its unit does not matter.** Of a schema check that returns,
with no TTL rejected before it or by it: the TTL behind it is the configured retention, and no `SET
TTL` was sent where it was before, exactly where the TTL was in days, or there was none, or neither
its value nor its duration was the configured one. -/
theorem retention_aligned (calendar : Calendar) (interpreter : Interpreter) (m m' : SchemaManager)
    (table : PyStr) (ttl : Ttl) (replies : Nat → Reply) (hrejected : m.ttlRejected = false)
    (hshown : ∀ document, (replies 2).document interpreter = .ok document → ShowsTtlOf ttl document)
    (hensure : m.ensure interpreter table replies = .ok m')
    (haccepted : ∀ days reply,
      (.setTtl days, reply) ∈ (m.ensureLogged interpreter table replies).sent → ¬ reply.Rejects) :
    let sent := (m.ensureLogged interpreter table replies).sent
    ((ttl.afterStatements sent).IsDays calendar m.retentionDays ∧
      (ttl.IsDays calendar m.retentionDays → ∀ days reply, (.setTtl days, reply) ∉ sent)) ↔
    (ttl.unit = .day ∨ ttl.value = 0 ∨
      ttl.value ≠ m.retentionDays ∧ ¬ ttl.IsDays calendar m.retentionDays) := by
  intro sent
  obtain ⟨before, hbefore, hsent, hset⟩ := ensureLogged_sent hrejected hshown hensure
  rw [show sent = _ from hsent]
  by_cases hvalue : ttl.value = m.retentionDays
  · -- Nothing is sent, so the TTL has to be the configured one as it is.
    rw [if_pos hvalue, Ttl.afterStatements_others hbefore, ← hvalue]
    simp only [hbefore, not_false_eq_true, implies_true, and_true, ne_eq, not_true_eq_false,
      false_and, or_false]
    by_cases hzero : ttl.value = 0
    · simp [Ttl.IsDays, Ttl.hours, hzero]
    · simp only [hzero, or_false, Ttl.isDays_of_value (Nat.pos_of_ne_zero hzero)]
  · -- The TTL is set, so it must not have been the configured one before.
    rw [if_neg hvalue]
    have hmem : (.setTtl m.retentionDays, replies 3) ∈ sent := by
      rw [show sent = _ from hsent, if_neg hvalue]
      simp
    have haccepts : (replies 3).accepts = true :=
      afterSetTtl_ok (hset hvalue) (haccepted _ _ hmem)
    have hafter : (ttl.afterStatements (before ++ [(.setTtl m.retentionDays, replies 3)])) =
        ⟨m.retentionDays, .day⟩ := by
      simp [Ttl.afterStatements, Ttl.afterStatement, haccepts]
    have hdone : Ttl.IsDays calendar ⟨m.retentionDays, .day⟩ m.retentionDays :=
      (Ttl.isDays_day _ _).mpr rfl
    rw [hafter]
    constructor
    · rintro ⟨-, hnone⟩
      refine .inr (.inr ⟨hvalue, fun hdays => ?_⟩)
      exact hnone hdays m.retentionDays (replies 3) (by simp)
    · intro h
      have hnot : ¬ ttl.IsDays calendar m.retentionDays := by
        obtain ⟨value, unit⟩ := ttl
        rcases h with rfl | rfl | h
        · exact fun hdays => hvalue ((Ttl.isDays_day _ _).mp hdays)
        · intro hdays
          simp only [Ttl.IsDays, Ttl.hours, Nat.zero_mul, zero_eq_mul] at hdays
          rcases hdays with hzero | hzero
          · exact hvalue hzero.symm
          · exact (TtlUnit.hours_pos calendar .day).ne' hzero
        · exact h.2
      exact ⟨hdone, fun hdays => absurd hdays hnot⟩

end

/-! ## A table of this integration -/

/-- A calendar with months of 30 days. -/
def plainCalendar : Calendar :=
  { month := 30 * 24, year := 365 * 24, month_gt := by decide, year_gt := by decide }

/-- A 2xx reply with an ASCII text. -/
def textReply (text : PyStr) : Reply := .response 200 (text.map fun c => UInt8.ofNat c.val)

/-- A row of `SHOW COLUMNS`. -/
def columnText (entry : PyStr × Column) : PyStr :=
  let bool (b : Bool) := if b then py "true" else py "false"
  py "[\"" ++ entry.1 ++ py "\",\"" ++ entry.2.type ++ py "\",false,0,false,0,0," ++
    bool entry.2.designated ++ py "," ++ bool entry.2.upsertKey ++ py "]"

/-- The owned table exists, and has the TTL. -/
def ownedReplies (ttl : Ttl) : Nat → Reply
  | 1 => textReply (py "\x7b\"dataset\":[" ++
      (py ",").intercalate (ownedSchema.map columnText) ++ py "]\x7d")
  | 2 => textReply (py "\x7b\"dataset\":[[\"hass\"," ++ natText ttl.value ++ py ",\"" ++
      ttl.unit.name ++ py "\"]]\x7d")
  | _ => textReply (py "\x7b\"ddl\":\"OK\"\x7d")

/-- 30 days are kept. -/
def thirtyDays : SchemaManager where
  retentionDays := 30
  ttlRejected := false
  retention_lt := (by decide : 30 < 10 ^ 2).trans_le (Nat.pow_le_pow_right (by decide) (by decide))

/-- The dataset of `tables()` in those replies is read as it is meant. -/
theorem ownedReplies_shown (ttl : Ttl)
    (h : ((ownedReplies ttl 2).document .plain).toOption.any (fun document =>
      match member (py "dataset") document with
      | some (.array (.array [_, .int value, .str unit] :: _)) =>
        decide (value = ttl.value ∧ unit = ttl.unit.name)
      | _ => false) = true) :
    ∀ document, (ownedReplies ttl 2).document .plain = .ok document →
      ShowsTtlOf ttl document := by
  intro document hdocument
  rw [hdocument, Except.toOption, Option.any_some] at h
  split at h
  · next name value unit rows hmember =>
    obtain ⟨hvalue, hunit⟩ := of_decide_eq_true h
    exact ⟨name, rows, by rw [hmember, hvalue, hunit]⟩
  · cases h

/-- A week is set to 30 days. -/
theorem sevenDays_aligned : ∃ m',
    thirtyDays.ensure .plain (py "hass") (ownedReplies ⟨7, .day⟩) = .ok m' ∧
      let sent := (thirtyDays.ensureLogged .plain (py "hass")
        (ownedReplies ⟨7, .day⟩)).sent
      (Ttl.afterStatements ⟨7, .day⟩ sent).IsDays plainCalendar 30 := by
  have hok : (thirtyDays.ensure .plain (py "hass") (ownedReplies ⟨7, .day⟩)).isOk =
      true := by
    decide +kernel
  have hshown := ownedReplies_shown ⟨7, .day⟩ (by decide +kernel)
  cases hensure : thirtyDays.ensure .plain (py "hass") (ownedReplies ⟨7, .day⟩) with
  | error e =>
    rw [hensure] at hok
    cases hok
  | ok m' =>
    refine ⟨m', rfl, ?_⟩
    have haccepted : ∀ days reply, (Statement.setTtl days, reply) ∈ (thirtyDays.ensureLogged
        .plain (py "hass") (ownedReplies ⟨7, .day⟩)).sent → ¬ reply.Rejects := by
      intro days reply hmem
      obtain ⟨before, hbefore, hsent, -⟩ := ensureLogged_sent rfl hshown hensure
      rw [hsent, if_neg (by decide), List.mem_append, List.mem_singleton] at hmem
      rcases hmem with hmem | hmem
      · exact absurd hmem (hbefore days reply)
      · cases hmem
        rintro ⟨status, body, he, haccepts⟩
        cases haccepts
    exact ((retention_aligned plainCalendar .plain thirtyDays m' (py "hass") ⟨7, .day⟩
      (ownedReplies ⟨7, .day⟩) rfl hshown hensure haccepted).mpr (.inl rfl)).1

/-- **A TTL of 30 hours is taken for 30 days.** -/
theorem thirtyHours_kept : ¬ ∀ (calendar : Calendar) (interpreter : Interpreter)
    (m m' : SchemaManager) (table : PyStr) (ttl : Ttl) (replies : Nat → Reply),
    m.ttlRejected = false →
    (∀ document, (replies 2).document interpreter = .ok document → ShowsTtlOf ttl document) →
    m.ensure interpreter table replies = .ok m' →
    (∀ days reply,
      (.setTtl days, reply) ∈ (m.ensureLogged interpreter table replies).sent → ¬ reply.Rejects) →
    (ttl.afterStatements (m.ensureLogged interpreter table replies).sent).IsDays calendar
        m.retentionDays ∧
      (ttl.IsDays calendar m.retentionDays →
        ∀ days reply, (.setTtl days, reply) ∉ (m.ensureLogged interpreter table replies).sent) := by
  intro h
  have hok : (thirtyDays.ensure .plain (py "hass") (ownedReplies ⟨30, .hour⟩)).isOk =
      true := by
    decide +kernel
  have hshown := ownedReplies_shown ⟨30, .hour⟩ (by decide +kernel)
  cases hensure : thirtyDays.ensure .plain (py "hass") (ownedReplies ⟨30, .hour⟩) with
  | error e =>
    rw [hensure] at hok
    cases hok
  | ok m' =>
    obtain ⟨before, hbefore, hsent, -⟩ := ensureLogged_sent rfl hshown hensure
    rw [if_pos (by decide)] at hsent
    have hdays := (h plainCalendar .plain thirtyDays m' (py "hass") ⟨30, .hour⟩ _ rfl
      hshown hensure (fun days reply hmem => absurd (hsent ▸ hmem) (hbefore days reply))).1
    rw [hsent, Ttl.afterStatements_others hbefore] at hdays
    exact absurd hdays (by decide)

end QuestDbWriter
