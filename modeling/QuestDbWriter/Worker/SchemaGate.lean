import QuestDbWriter.Schema.Retention
import QuestDbWriter.Worker.Gate
import QuestDbWriter.Worker.Blocking

/-!
# The gate and the replies of the server

The gate of the delivery loop handles the errors of the transport and a table of another schema. The
schema check raises more than these: where a reply is not what it expects (`Readable`), a plain
`SchemaError`, or an exception of `int()` or of the JSON parser, ends the delivery loop, and the
worker with it. `schema_gate` is the exact line between the two.
-/

namespace QuestDbWriter

open Lib Json

/-! ## What the gate is told -/

/-- An exception of the schema check, as the gate sees it. -/
def CallError.result : CallError → EnsureResult
  | .ilp e => .error e
  | .schema mismatch message => .schema mismatch message
  | .other e => .raised e

/-- How a call of `ensure` ends. -/
def ensureResult : Except CallError SchemaManager → EnsureResult
  | .ok _ => .ok
  | .error e => e.result

namespace World

section
variable {u w w' : World} {a : Action}

/-! ## The gate is called only until it has passed -/

/-- The gate is called where it has not passed. -/
def Unready (w : World) : Prop := w.deliver = .ensuring → w.locals.schemaReady = false

/-- Behind the answer of the gate no call of it is in flight. -/
theorem deliverEnsured_calls (w : World) (result : EnsureResult) :
    (w.deliverEnsured result).deliver ≠ .ensuring := by
  unfold deliverEnsured
  dsimp only
  split
  · exact (Body.deliverBody _).gate
  · split <;> nofun
  · split <;> nofun
  · nofun

/-- The loop calls the gate only before the table is known ready. -/
theorem deliverTop_calls (h : w.deliverTop.deliver = .ensuring) :
    w.deliverTop.locals.schemaReady = false := by
  revert h
  unfold deliverTop
  split
  · exact nofun
  split
  · exact fun h => absurd h (Body.deliverBody w).gate
  · next hready => exact fun _ => Bool.eq_false_iff.mpr hready

/-- A worker that is not ready stays so but for an answer of the gate. -/
theorem Unready.step (h : Unready w) (hs : QuestDbWriter.step w a = some w') : Unready w' := by
  have ht := Taken.of_step hs
  by_cases hr : a.isRestart
  · cases a with
    | restart =>
      cases ht
      exact nofun
    | _ => cases hr
  by_cases hd : a.IsDeliver
  · cases ht with
    | deliverRun => exact deliverTop_calls
    | deliverEnsured result => exact fun he => absurd he (deliverEnsured_calls w result)
    | deliverSent built result =>
      intro he
      rcases (deliverSent_locals w built result).2.2 with hat | ⟨e, hat⟩ <;> cases he.symm.trans hat
    | deliverWake => exact nofun
    | _ => exact hd.elim
  · have hu := ht.undelivered hd hr
    intro he
    rcases hu.deliver with hsame | ⟨hover, -⟩
    · exact (congrArg _ hu.locals).trans (h (hsame.symm.trans he))
    · rw [he] at hover
      exact hover.elim

/-! ## What the gate does -/

/-- The gate has handled a schema check: the delivery goes on behind it, or waits to call it again;
the worker is `RUNNING`, `RETRY_WAIT` or `BLOCKED`, unless it stops, and accepts events as
before. -/
def GateHandled (w w' : World) : Prop :=
  ∃ u : World,
    (u.locals.schemaReady = true ∧ w' = u.deliverBody ∨
      w' = u ∧ ∃ deadline, u.deliver = .gateWait deadline) ∧
    ((u.shared.state = .running ∨ u.shared.state = .retryWait ∨ u.shared.state = .blocked) ∨
      u.shared.state = w.shared.state ∧ (w.shared.state = .stopping ∨ w.shared.state = .failed)) ∧
    u.shared.accepting = w.shared.accepting

/-- A state that the delivery sets is the worker's, unless it stops or has failed. -/
theorem setDeliveryState_shows {s : Shared} {now : Int} {state : WorkerState}
    {lastError : Option PyStr} {retryDelay : Option ℚ} {reason : Option BlockReason}
    (hstate : state = .running ∨ state = .retryWait ∨ state = .blocked) :
    let s' := s.setDeliveryState now state lastError retryDelay reason
    (s'.state = .running ∨ s'.state = .retryWait ∨ s'.state = .blocked) ∨
      s'.state = s.state ∧ (s.state = .stopping ∨ s.state = .failed) := by
  dsimp only [Shared.setDeliveryState]
  split
  · next h => exact .inr ⟨rfl, h⟩
  · exact .inl hstate

/-- Waiting for the next call is handling the one before. -/
theorem GateHandled.wait {deadline : ℚ} (hdeliver : w'.deliver = .gateWait deadline)
    (hstate : (w'.shared.state = .running ∨ w'.shared.state = .retryWait ∨
        w'.shared.state = .blocked) ∨
      w'.shared.state = w.shared.state ∧ (w.shared.state = .stopping ∨ w.shared.state = .failed))
    (hacc : w'.shared.accepting = w.shared.accepting) : GateHandled w w' :=
  ⟨w', .inr ⟨rfl, deadline, hdeliver⟩, hstate, hacc⟩

/-- An exception that is caught is handled. -/
theorem gateHandled_caught {e : CallError} (h : e.IsCaught) :
    GateHandled w (w.deliverEnsured e.result) := by
  cases e with
  | ilp e =>
    simp only [CallError.result, deliverEnsured]
    have hkind : e.kind ≠ .transport := h
    split
    · exact .wait rfl (setDeliveryState_shows (.inr (.inr rfl))) rfl
    · exact .wait rfl (setDeliveryState_shows (.inr (.inr rfl))) rfl
    · exact .wait rfl (setDeliveryState_shows (.inr (.inl rfl))) rfl
    · next hk => exact absurd hk hkind
  | schema mismatch message =>
    have hmismatch : mismatch = true := h
    simp only [CallError.result, deliverEnsured, if_pos hmismatch]
    exact .wait rfl (setDeliveryState_shows (.inr (.inr rfl))) rfl
  | other e => exact h.elim

/-- A check that returns is handled. -/
theorem gateHandled_ok : GateHandled w (w.deliverEnsured .ok) := by
  unfold deliverEnsured
  dsimp only
  generalize hu : World.setDeliveryState _ _ _ _ = u
  refine ⟨u, .inl ⟨?_, rfl⟩, ?_, ?_⟩
  · rw [← hu]
    rfl
  · have hshared : u.shared =
        w.shared.setDeliveryState w.env.wallTimeNs .running none none := by
      rw [← hu]
      rfl
    rw [hshared]
    exact setDeliveryState_shows (.inl rfl)
  · rw [← hu]
    rfl

/-- An exception that is not caught ends the delivery loop. -/
theorem deliverEnsured_uncaught {e : CallError} (h : ¬ e.IsCaught) :
    (w.deliverEnsured e.result).locals = w.locals ∧
      (w.deliverEnsured e.result).thread = w.thread ∧
      ∃ e', (w.deliverEnsured e.result).deliver = .raised e' := by
  cases e with
  | ilp e =>
    have hkind : e.kind = .transport := not_not.mp h
    simp only [CallError.result, deliverEnsured, hkind]
    exact ⟨rfl, rfl, _, rfl⟩
  | schema mismatch message =>
    have hmismatch : ¬ mismatch = true := h
    simp only [CallError.result, deliverEnsured, if_neg hmismatch]
    exact ⟨rfl, rfl, _, rfl⟩
  | other e => exact ⟨rfl, rfl, _, rfl⟩

/-- **The gate handles a schema check exactly where its exception, if any, is caught.** -/
theorem gateHandled_iff (hready : w.locals.schemaReady = false)
    (x : Except CallError SchemaManager) :
    GateHandled w (w.deliverEnsured (ensureResult x)) ↔ Caught x := by
  cases x with
  | ok m => exact ⟨fun _ => .ok m, fun _ => gateHandled_ok⟩
  | error e =>
    rw [Caught.error]
    refine ⟨fun h => ?_, gateHandled_caught⟩
    by_contra hcaught
    obtain ⟨hlocals, -, e', hraised⟩ := deliverEnsured_uncaught (w := w) hcaught
    obtain ⟨u, ⟨hpassed, hbody⟩ | ⟨hsame, deadline, hwait⟩, -⟩ := h
    · have hbehind : (w.deliverEnsured e.result).locals.schemaReady = true := by
        rw [show w.deliverEnsured e.result = u.deliverBody from hbody]
        exact (Body.deliverBody u).ready.trans hpassed
      rw [hlocals, hready] at hbehind
      cases hbehind
    · rw [← hsame] at hwait
      cases hraised.symm.trans hwait

/-! ## A delivery loop that has raised -/

/-- The worker fails: its delivery loop has raised and the loop still runs, or an exception is on
its way, or has been kept. -/
def Failing (w : World) : Prop :=
  (w.thread = .looping ∧ ∃ e, w.deliver = .raised e) ∨ (∃ e, w.thread = .raising e) ∨
    w.shared.failure ≠ none ∧ ((∃ failed, w.thread = .closing failed) ∨
      (∃ failed cleanup, w.thread = .exiting failed cleanup) ∨ w.thread = .ended ∨ w.thread = .dead)

/-- The end of the service keeps the failure. -/
theorem Failing.mainFinish {e : Exc} (h : w.deliver = .raised e) : Failing w.mainFinish := by
  unfold World.mainFinish
  rw [h]
  exact .inr (.inl ⟨e, rfl⟩)

/-- So does a shutdown flush. -/
theorem Failing.of_flushes {e : Exc} (hl : w.thread = .looping) (hd : w.deliver = .raised e)
    (h : Flushes w w') : Failing w' := by
  cases h with
  | raised u e' hu => exact .inr (.inl ⟨e', rfl⟩)
  | finished u hu =>
    obtain ⟨_, _, _, rfl⟩ := hu.world
    exact .mainFinish hd
  | ensuring u hu =>
    obtain ⟨_, _, _, rfl⟩ := hu.world
    exact .inl ⟨hl, e, hd⟩
  | sending u built backoff hu =>
    obtain ⟨_, _, _, rfl⟩ := hu.world
    exact .inl ⟨hl, e, hd⟩

/-- What the worker does while its delivery loop has raised. -/
theorem Failing.inside {e : Exc} (ht : Taken w a w') (ha : a.IsInside) (hl : w.thread = .looping)
    (hd : w.deliver = .raised e) : Failing w' := by
  cases ht with
  | mainPublish | mainTest | mainStop | persistRun | persistWake => exact .inl ⟨hl, e, hd⟩
  | mainTaskDone e' | mainPersistRaised e' => exact .inr (.inl ⟨e', rfl⟩)
  | mainPersisted => exact .of_flushes hl hd (.mainPersisted w)
  | flushEnsured result => exact .of_flushes hl hd (.flushEnsured w result)
  | flushSent built result => exact .of_flushes hl hd (.flushSent w built result)
  | persistDrain =>
    rcases persistDrain_eq w with ⟨_, _, -, -, he⟩ | he
    · exact .inl (he ▸ ⟨hl, e, hd⟩)
    · exact .inl (he ▸ ⟨hl, e, hd⟩)
  | persistRound =>
    rcases persistRound_eq w with ⟨u, hu, he⟩ | ⟨u, _, hu, he⟩
    · obtain ⟨⟨_, _, _, _, rfl⟩, -⟩ := hu.frame
      exact .inl (he ▸ ⟨hl, e, hd⟩)
    · obtain ⟨⟨_, _, _, _, rfl⟩, -⟩ := hu.frame
      exact .inl (he ▸ ⟨hl, e, hd⟩)
  | persistCheck =>
    rcases persistCheck_eq w with ⟨he, -⟩ | ⟨_, _, he, -⟩
    · exact .inl (he ▸ ⟨hl, e, hd⟩)
    · exact .inl (he ▸ ⟨hl, e, hd⟩)
  | deliverRun _ _ hat | deliverEnsured _ _ hat | deliverSent _ _ _ hat => cases hd.symm.trans hat
  | deliverWake _ _ hat => rcases hat with hat | hat <;> cases hd.symm.trans hat
  | _ => exact ha.elim

/-- Behind the loop the coroutines do not move. -/
theorem inside_behind (hp : Placed w) (ht : Taken w a w') (ha : a.IsInside)
    (hl : w.thread ≠ .looping) : w'.thread = w.thread ∧ w'.shared = w.shared := by
  have hmain : ¬ w.main.IsActive := fun h => hl (hp.looping h)
  have htasks : ¬ w.tasksRun := fun h => hmain (tasksRun_active h)
  cases ht with
  | mainPublish hm | mainTest hm | mainStop hm | mainTaskDone _ hm | mainPersisted hm
  | mainPersistRaised _ hm | flushEnsured _ hm | flushSent _ _ hm =>
    exact absurd (hm ▸ trivial) hmain
  | persistRun ht | deliverRun ht => exact absurd ht htasks
  | persistDrain hat | persistRound hat | persistCheck hat =>
    exact absurd (hp.persisting (hat ▸ trivial)) htasks
  | deliverEnsured _ _ hat | deliverSent _ _ _ hat =>
    exact absurd (hp.delivering (hat ▸ trivial)) htasks
  | persistWake | deliverWake => exact ⟨rfl, rfl⟩
  | _ => exact ha.elim

/-- **A worker that fails goes on failing.** -/
theorem Failing.step (hp : Placed w) (h : Failing w) (hr : ¬ a.isRestart)
    (hs : QuestDbWriter.step w a = some w') : Failing w' := by
  have ht := Taken.of_step hs
  rcases a.sides with ha | ha | ha
  · obtain ⟨_, _, _, _, _, _, _, _, _, _, _, _, _, _, _, rfl⟩ := (ht.outside ha).world
    exact h
  · by_cases hl : w.thread = .looping
    · rcases h with ⟨-, e, hd⟩ | ⟨e, he⟩ | ⟨-, ⟨_, he⟩ | ⟨_, _, he⟩ | he | he⟩
      · exact .inside ht ha hl hd
      all_goals cases hl.symm.trans he
    · obtain ⟨hthread, hshared⟩ := inside_behind hp ht ha hl
      rcases h with ⟨hl', -⟩ | h
      · exact absurd hl' hl
      · unfold Failing
        rw [hthread, hshared]
        exact .inr h
  cases ht with
  | restart => exact absurd rfl hr
  | environment => exact h
  | startCall =>
    unfold World.startCall
    split
    · next hn =>
      have habs := hp.fresh hn
      rcases h with ⟨he, -⟩ | ⟨_, he⟩ | ⟨-, ⟨_, he⟩ | ⟨_, _, he⟩ | he | he⟩ <;>
        cases habs.symm.trans he
    · exact h
  | stopLock i seen timeout =>
    obtain ⟨_, _, _, he, -⟩ := stopLock_eq w i seen timeout
    rw [he]
    exact h
  | threadOpen _ hth | threadStartup hth | threadAnnounce hth =>
    rcases h with ⟨he, -⟩ | ⟨_, he⟩ | ⟨-, ⟨_, he⟩ | ⟨_, _, he⟩ | he | he⟩ <;>
      cases hth.symm.trans he
  | threadFail e hth => exact .inr (.inr ⟨nofun, .inl ⟨true, rfl⟩⟩)
  | threadClose failed cleanup hth =>
    rcases h with ⟨he, -⟩ | ⟨_, he⟩ | ⟨hfail, -⟩
    · cases hth.symm.trans he
    · cases hth.symm.trans he
    · exact .inr (.inr ⟨hfail, .inr (.inl ⟨failed, cleanup, rfl⟩)⟩)
  | threadExit failed cleanup hth =>
    rcases h with ⟨he, -⟩ | ⟨_, he⟩ | ⟨hfail, -⟩
    · cases hth.symm.trans he
    · cases hth.symm.trans he
    · refine .inr (.inr ⟨?_, .inr (.inr (.inl rfl))⟩)
      show (if failed = true then _ else _ : Shared).failure ≠ none
      split
      · exact hfail
      · split
        · nofun
        · exact hfail
  | threadDie hth =>
    rcases h with ⟨he, -⟩ | ⟨_, he⟩ | ⟨hfail, -⟩
    · cases hth.symm.trans he
    · cases hth.symm.trans he
    · exact .inr (.inr ⟨hfail, .inr (.inr (.inr rfl))⟩)
  | _ => exact ha.elim

end

/-! ## The line -/

/-- **The gate handles a schema check exactly where every reply that the check gets to read can be
read**, in every reachable state and for every sequence of replies. Any other check fails the
worker: in every run of the process from there on, the thread does not end without an exception. -/
theorem schema_gate (config : Config) (env : Env) (db : Database) (history : List Obs)
    (interpreter : Interpreter) (m : SchemaManager) (replies : Nat → Reply) (w w' : World)
    (hrun : Steps step (fun _ _ => True) (.boot config env db history) w)
    (hcheck : step w (.deliverEnsured
      (ensureResult (m.ensure interpreter w.config.table.name replies))) = some w') :
    (GateHandled w w' ↔ Readable interpreter m w.config.table replies) ∧
      (¬ Readable interpreter m w.config.table replies →
        ∀ v, Steps step (fun _ a => ¬ a.isRestart) w' v →
          v.thread = .ended ∨ v.thread = .dead → v.shared.failure ≠ none) := by
  obtain ⟨hp, hu⟩ : Placed w ∧ Unready w :=
    hrun.invariant (I := fun v => Placed v ∧ Unready v) ⟨.boot .., nofun⟩
      fun u a v ⟨hp, hu⟩ _ hs => ⟨hp.step hs, hu.step hs⟩
  have hp' := hp.step hcheck
  cases Taken.of_step hcheck with
  | deliverEnsured result hbusy hat =>
    have hiff := gateHandled_iff (w := w) (hu hat)
      (m.ensure interpreter w.config.table.name replies)
    rw [ensure_caught] at hiff
    refine ⟨hiff, fun hnot v hlater hend => ?_⟩
    have hl : w.thread = .looping :=
      hp.looping (tasksRun_active (hp.delivering (hat ▸ trivial)))
    have hfailing : Failing (w.deliverEnsured
        (ensureResult (m.ensure interpreter w.config.table.name replies))) := by
      rw [← ensure_caught] at hnot
      generalize m.ensure interpreter w.config.table.name replies = x at hnot ⊢
      cases x with
      | ok m => exact absurd (.ok m) hnot
      | error e =>
        rw [Caught.error] at hnot
        obtain ⟨-, hthread, e', hraised⟩ := deliverEnsured_uncaught (w := w) hnot
        exact .inl ⟨hthread.trans hl, e', hraised⟩
    obtain ⟨-, hv⟩ := hlater.invariant (I := fun v => Placed v ∧ Failing v) ⟨hp', hfailing⟩
      fun u a v ⟨hp, hf⟩ hr hs => ⟨hp.step hs, hf.step hp hr hs⟩
    rcases hv with ⟨he, -⟩ | ⟨_, he⟩ | ⟨hfail, -⟩
    · rcases hend with hend | hend <;> cases he.symm.trans hend
    · rcases hend with hend | hend <;> cases he.symm.trans hend
    · exact hfail

/-- The owned table is dropped before `tables()` is asked for it. -/
def droppedReplies : Nat → Reply
  | 2 => textReply (py "\x7b\"dataset\":[]\x7d")
  | n => ownedReplies ⟨0, .hour⟩ n

/-- No retention is configured. -/
def unlimited : SchemaManager :=
  { retentionDays := 0, ttlRejected := false, retention_lt := Nat.pow_pos (by decide) }

/-- The answers of the example are a schema failure. -/
theorem dropped_result :
    ensureResult (unlimited.ensure .plain (py "hass") droppedReplies) =
    .schema false (py "malformed tables() response for hass") := by
  decide +kernel

/-- The service starts, and its table is dropped during the first schema check. -/
theorem gatedStart_checked : ∃ w w' : World,
    exec step gatedStart (.boot gatedProfile .quiet .fresh []) = some w ∧
      step w (.deliverEnsured (ensureResult (unlimited.ensure .plain
        w.config.table.name droppedReplies))) = some w' ∧
      (GateHandled w w' ↔ Readable .plain unlimited w.config.table droppedReplies) ∧
      (¬ Readable .plain unlimited w.config.table droppedReplies →
        ∀ v, Steps step (fun _ a => ¬ a.isRestart) w' v →
          v.thread = .ended ∨ v.thread = .dead → v.shared.failure ≠ none) := by
  have hrun : ((exec step gatedStart (.boot gatedProfile .quiet .fresh [])).any fun w =>
      decide (w.config.table.name = py "hass") && (step w (.deliverEnsured
        (.schema false (py "malformed tables() response for hass")))).isSome) = true := by
    decide +kernel
  obtain ⟨w, hw, hrun⟩ := (Option.any_eq_true _ _).mp hrun
  obtain ⟨htable, hstep⟩ := Bool.and_eq_true_iff.mp hrun
  have htable : w.config.table.name = py "hass" := of_decide_eq_true htable
  obtain ⟨w', hw'⟩ := Option.isSome_iff_exists.mp hstep
  rw [← dropped_result, ← htable] at hw'
  exact ⟨w, w', hw, hw', schema_gate _ _ _ _ .plain unlimited droppedReplies w w'
    (.of_exec hw) hw'⟩

/-- **A dropped table fails the worker**: the gate does not handle every sequence of replies. -/
theorem schema_gate_fails : ¬ ∀ (config : Config) (env : Env) (db : Database) (history : List Obs)
    (interpreter : Interpreter) (m : SchemaManager) (replies : Nat → Reply) (w w' v : World),
    Steps step (fun _ _ => True) (.boot config env db history) w →
      step w (.deliverEnsured
        (ensureResult (m.ensure interpreter w.config.table.name replies))) = some w' →
      Steps step (fun _ a => a = .mainTaskDone ∨ a = .threadFail) w' v →
      GateHandled w w' ∧ v.shared.state ≠ .failed := by
  intro h
  let ends : World → Action → Bool
    | _, .mainTaskDone => true
    | _, .threadFail => true
    | _, _ => false
  have hends : ∀ w a, ends w a = true → a = .mainTaskDone ∨ a = .threadFail := by
    intro w a ha
    cases a with
    | mainTaskDone => exact .inl rfl
    | threadFail => exact .inr rfl
    | _ => cases ha
  have hrun : ((exec step gatedStart (.boot gatedProfile .quiet .fresh [])).any fun w =>
      (step w (.deliverEnsured
        (.schema false (py "malformed tables() response for hass")))).any fun w' =>
        (execIn step ends [.mainTaskDone, .threadFail] w').any fun v =>
          decide (w.config.table.name = py "hass" ∧ v.shared.state = .failed)) = true := by
    decide +kernel
  obtain ⟨w, hw, hrun⟩ := (Option.any_eq_true _ _).mp hrun
  obtain ⟨w', hw', hrun⟩ := (Option.any_eq_true _ _).mp hrun
  obtain ⟨v, hv, hend⟩ := (Option.any_eq_true _ _).mp hrun
  obtain ⟨htable, hfailed⟩ := of_decide_eq_true hend
  rw [← dropped_result, ← htable] at hw'
  exact (h _ _ _ _ .plain unlimited droppedReplies w w' v (.of_exec hw) hw'
    (.of_execIn hends hv)).2 hfailed

end World

end QuestDbWriter
