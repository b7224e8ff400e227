import QuestDbWriter.Worker.Turns
import QuestDbWriter.Worker.Blocking

/-!
# No write before a validated schema

A worker with a schema manager sends nothing before a `schema.ensure` of its process has returned,
neither from its delivery loop nor from its shutdown flush, and until then the pending rows stay as
they are. While the gate is `Closed`, every step but a turn of the persist loop is quiet, and that
one only appends.
-/

namespace QuestDbWriter

open Lib Database SQLiteSpool

/-- A `schema.ensure` of the present process has returned. -/
def passed (history : List Obs) : Bool :=
  history.foldl (fun passed o => match o with
    | .started _ _ _ => false
    | .ensured .ok => true
    | _ => passed) false

/-- The gate behind one more observation. -/
theorem passed_snoc (history : List Obs) (o : Obs) : passed (history ++ [o]) = match o with
    | .started _ _ _ => false
    | .ensured .ok => true
    | _ => passed history := by
  rw [passed, List.foldl_append]
  rfl

/-- Only the start of a process takes it back. -/
theorem passed_append {attempt : Prop} {history : List Obs} (hp : passed history = true) :
    ∀ {obs : List Obs}, (∀ o ∈ obs, o.IsOf attempt) → passed (history ++ obs) = true := by
  intro obs
  induction obs using List.reverseRecOn with
  | nil =>
    intro _
    rwa [List.append_nil]
  | append_singleton obs o ih =>
    intro h
    have hold := ih fun p hm => h p (List.mem_append_left _ hm)
    have ho := h o (List.mem_append_right _ (List.mem_singleton.mpr rfl))
    rw [← List.append_assoc, passed_snoc]
    cases o with
    | started => exact ho.elim
    | ensured result => cases result <;> first | rfl | exact hold
    | _ => exact hold

namespace World

section
variable {w w' : World} {a : Action}

/-! ## A closed gate -/

/-- The gate has not passed, and neither has the shutdown flush. -/
structure Closed (w : World) : Prop where
  schema : w.config.hasSchema = true
  ready : w.locals.schemaReady = false
  sending : ∀ built, w.deliver ≠ .sending built
  flushing : ∀ built, w.main ≠ .flushSending built

/-! ## What happens while the gate is closed -/

/-- The gate is still closed, and the pending rows are what they were, with new ones behind them. -/
structure StillClosed (w w' : World) : Prop where
  ready : w'.locals.schemaReady = false
  flushing : ∀ built, w'.main ≠ .flushSending built
  pending : w.spool.db.pending <+: w'.spool.db.pending

/-- What starts no request and touches no row leaves a closed gate closed. -/
theorem StillClosed.of_eq (hc : Closed w) (hdb : w'.spool.db.pending = w.spool.db.pending)
    (hl : w'.locals.schemaReady = w.locals.schemaReady)
    (hm : w'.main = w.main ∨ ∀ built, w'.main ≠ .flushSending built) : StillClosed w w' where
  ready := hl.trans hc.ready
  flushing built he := by
    rcases hm with hm | hm
    · exact hc.flushing built (hm.symm.trans he)
    · exact hm built he
  pending := hdb ▸ List.prefix_refl _

/-- The gate ends no delivery. -/
theorem deliverEnsured_closed (h : Bookkept w) (hc : Closed w) (ho : w.spool.db.Opened)
    (result : EnsureResult) :
    passed (w.deliverEnsured result).history = true ∨ StillClosed w (w.deliverEnsured result) := by
  have hq : Quiet False w (w.observe (.ensured result)) := .observe w trivial
  unfold deliverEnsured
  dsimp only
  split
  · left
    generalize hu : World.setDeliveryState _ _ _ _ = u
    have hkeep : Keeps False w u := by
      rw [← hu]
      exact (hq.keeps h.books).quiet (.of_eq rfl rfl rfl rfl)
    have hpassed : passed u.history = true := by
      rw [← hu]
      exact passed_snoc _ _
    have hturn : DeliverTurn False u u.deliverBody := deliverBody_turn hkeep.books (hkeep.opened ho)
    obtain ⟨obs, hobs, hof⟩ := hturn.keeps.history
    rw [hobs]
    exact passed_append hpassed hof
  · split
    · exact .inr (.of_eq hc rfl rfl (.inl rfl))
    · exact .inr (.of_eq hc rfl rfl (.inl rfl))
    · exact .inr (.of_eq hc rfl rfl (.inl rfl))
    · exact .inr (.of_eq hc rfl rfl (.inl rfl))
  · split
    · exact .inr (.of_eq hc rfl rfl (.inl rfl))
    · exact .inr (.of_eq hc rfl rfl (.inl rfl))
  · exact .inr (.of_eq hc rfl rfl (.inl rfl))

/-- A main coroutine that ends sends nothing. -/
theorem StillClosed.ended (hc : Closed w) {u : World} (hq : Quiet False w u)
    (hl : w'.locals = w.locals) (h : w' = u.mainFinish ∨ ∃ e, w' = u.mainRaise e) :
    StillClosed w w' := by
  rcases h with rfl | ⟨e, rfl⟩
  · refine .of_eq hc (Quiet.mainFinish hq).db.pending (congrArg _ hl) (.inr fun built he => ?_)
    rw [mainFinish_main] at he
    cases he
  · exact .of_eq hc (Quiet.mainRaise hq e).db.pending (congrArg _ hl) (.inr nofun)

/-- The shutdown flush asks the schema manager first. -/
theorem mainPersisted_closed (hc : Closed w) (hl : w.mainPersisted.locals = w.locals) :
    StillClosed w w.mainPersisted := by
  revert hl
  unfold mainPersisted
  split
  · split
    · next e v hv => exact fun hl => .ended hc (.read readOnly_stats hv) hl (.inr ⟨e, rfl⟩)
    · next stats v hv =>
      have hread : Quiet False w v := .read readOnly_stats hv
      split
      · exact fun hl => .ended hc hread hl (.inl rfl)
      · split
        · exact fun hl => .of_eq hc hread.db.pending (congrArg _ hl) (.inr nofun)
        · next hschema =>
          rw [hread.config] at hschema
          exact absurd hc.schema hschema
  · exact fun hl => .ended hc (.refl w) hl (.inl rfl)

/-- The schema check of the flush passes, or nothing is sent behind it. -/
theorem flushEnsured_closed (h : Bookkept w) (hc : Closed w) (ho : w.spool.db.Opened)
    (result : EnsureResult) (hl : (w.flushEnsured result).locals = w.locals) :
    passed (w.flushEnsured result).history = true ∨ StillClosed w (w.flushEnsured result) := by
  have hq : Quiet False w (w.observe (.ensured result)) := .observe w trivial
  revert hl
  unfold flushEnsured
  dsimp only
  split
  · intro _
    left
    have hkeep : Keeps False w (w.observe (.ensured .ok)) := hq.keeps h.books
    have hturn : FlushTurn False _ (w.observe (.ensured .ok)).flushStart :=
      flushStart_turn (.refl hkeep.books) (hkeep.opened ho)
    obtain ⟨obs, hobs, hof⟩ := hturn.keeps.history
    rw [hobs]
    exact passed_append (passed_snoc _ _) hof
  · exact fun hl => .inr (.ended hc hq hl (.inl rfl))
  · exact fun hl => .inr (.ended hc hq hl (.inl rfl))
  · exact fun hl => .inr (.ended hc hq hl (.inr ⟨_, rfl⟩))

/-- **A step while the gate is closed**: a `schema.ensure` returns, or the gate stays closed and the
pending rows stay what they are. -/
theorem Closed.taken (h : Bookkept w) (hc : Closed w) (ht : Taken w a w') (hr : ¬ a.isRestart) :
    passed w'.history = true ∨ StillClosed w w' := by
  have hlocals : ¬ a.IsDeliver → w'.locals = w.locals := fun hd => (ht.undelivered hd hr).locals
  have hloop : w.main.IsActive → w.spool.db.Opened := fun hm =>
    h.opened (h.placed.looping hm ▸ trivial)
  have htasks : w.tasksRun → w.spool.db.Opened := fun hrun => hloop (tasksRun_active hrun)
  have hcases := ht
  cases ht with
  | restart => exact absurd rfl hr
  | submit | submitSignal | startReady | startTimeout | startTimedOut | startSignal | stopCall
  | stopSet | stopSignal | stopReturn | wakePersist | stopAsync =>
    have hq : Quiet False w _ := .outside hcases trivial
    exact .inr (.of_eq hc hq.db.pending (congrArg _ (hlocals id))
      (.inl (hcases.outside trivial).main))
  | environment | threadStartup | threadFail | threadClose | threadExit | threadDie
  | persistRun | persistWake => exact .inr (.of_eq hc rfl rfl (.inl rfl))
  | threadAnnounce | mainPublish | mainTest | mainStop =>
    exact .inr (.of_eq hc rfl rfl (.inr nofun))
  | startCall =>
    refine .inr (.of_eq hc ?_ (congrArg _ (hlocals id)) (.inl ?_))
    · unfold World.startCall
      split <;> rfl
    · unfold World.startCall
      split <;> rfl
  | stopLock i seen timeout =>
    obtain ⟨pc, state, deadline, he, -⟩ := stopLock_eq w i seen timeout
    rw [he]
    exact .inr (.of_eq hc rfl rfl (.inl rfl))
  | threadOpen factoryError =>
    obtain ⟨u, thread, hu, he, -⟩ := threadOpen_eq w factoryError
    have hq : Quiet False w _ ∧ _ := threadOpen_quiet h.books.coherent factoryError
    refine .inr (.of_eq hc hq.1.db.pending (congrArg _ (hlocals id)) (.inl ?_))
    rw [he]
    obtain ⟨_, _, _, rfl⟩ := hu.world
    rfl
  | mainTaskDone e | mainPersistRaised e =>
    exact .inr (.ended hc (.refl w) (hlocals id) (.inr ⟨e, rfl⟩))
  | mainPersisted => exact .inr (mainPersisted_closed hc (hlocals id))
  | flushEnsured result hm =>
    exact flushEnsured_closed h hc (hloop (hm ▸ trivial)) result (hlocals id)
  | flushSent built result hm => exact absurd hm (hc.flushing built)
  | persistDrain =>
    rcases persistDrain_eq w with ⟨event, ingress, -, -, he⟩ | he
    · rw [he]
      exact .inr (.of_eq hc rfl rfl (.inl rfl))
    · rw [he]
      exact .inr (.of_eq hc rfl rfl (.inl rfl))
  | persistRound hp =>
    refine .inr ⟨(congrArg _ (hlocals id)).trans hc.ready, fun built hb => ?_, ?_⟩
    · have hmain : w.persistRound.main = w.main := by
        rcases persistRound_eq w with ⟨u, hu, he⟩ | ⟨u, e, hu, he⟩
        · obtain ⟨⟨_, _, _, _, rfl⟩, -⟩ := hu.frame
          rw [he]
        · obtain ⟨⟨_, _, _, _, rfl⟩, -⟩ := hu.frame
          rw [he]
      exact hc.flushing built (hmain.symm.trans hb)
    · exact persistRound_appends h.books (htasks (h.placed.persisting (hp ▸ trivial)))
  | persistCheck =>
    rcases persistCheck_eq w with ⟨he, -⟩ | ⟨persist, wakePersist, he, -⟩
    · rw [he]
      exact .inr (.of_eq hc rfl rfl (.inl rfl))
    · rw [he]
      exact .inr (.of_eq hc rfl rfl (.inl rfl))
  | deliverRun =>
    unfold deliverTop
    split
    · exact .inr (.of_eq hc rfl rfl (.inl rfl))
    · rw [if_neg (by simp [hc.ready])]
      exact .inr (.of_eq hc rfl rfl (.inl rfl))
  | deliverEnsured result hb hd =>
    exact deliverEnsured_closed h hc (htasks (h.placed.delivering (hd ▸ trivial))) result
  | deliverSent built result hb hd => exact absurd hd (hc.sending built)
  | deliverWake => exact .inr (.of_eq hc rfl rfl (.inl rfl))

/-- With a schema manager the gate is closed until a `schema.ensure` has returned. -/
def Guarded (w : World) : Prop :=
  w.config.hasSchema = true → passed w.history = true ∨
    w.locals.schemaReady = false ∧ ∀ built, w.main ≠ .flushSending built

/-- Where the gate has not passed, it is closed. -/
theorem Guarded.closed (hg : Guarded w) (hb : Behind w) (hs : w.config.hasSchema = true) :
    passed w.history = true ∨ Closed w := by
  refine (hg hs).imp_right fun h => ⟨hs, h.1, fun built he => ?_, h.2⟩
  have hready := hb.ready (.inr ⟨built, he⟩)
  rw [h.1] at hready
  cases hready

/-- The gate of a new process is closed. -/
theorem Guarded.boot (config : Config) (env : Env) (db : Database) (history : List Obs) :
    Guarded (.boot config env db history) := by
  refine fun hs => .inr ⟨?_, nofun⟩
  have hs : config.hasSchema = true := hs
  simp [World.boot, DeliverLocals.initial, hs]

/-- Every step guards the gate. -/
theorem Guarded.step (hg : Guarded w) (h : Bookkept w) (hb : Behind w) (hs : step w a = some w') :
    Guarded w' := by
  have ht := Taken.of_step hs
  by_cases hr : a.isRestart
  · cases ht with
    | restart config env => exact .boot _ _ _ _
    | _ => cases hr
  · intro hschema
    have hkeep := (h.carries ht hr).keeps
    rw [hkeep.config] at hschema
    rcases hg.closed hb hschema with hpassed | hclosed
    · obtain ⟨obs, hobs, hof⟩ := hkeep.history
      exact .inl (hobs ▸ passed_append hpassed hof)
    · exact (hclosed.taken h ht hr).imp_right fun h => ⟨h.ready, h.flushing⟩

/-- **No write before a validated schema**: in every run, while a worker with a schema manager has a
request in flight, a `schema.ensure` of its process has returned, and until one has, no step removes
or changes a pending row. -/
theorem validated_first (config : Config) (env : Env) (w : World)
    (hrun : Steps QuestDbWriter.step (fun _ _ => True) (.boot config env Database.fresh []) w)
    (hschema : w.config.hasSchema = true) :
    (∀ built, w.deliver = .sending built ∨ w.main = .flushSending built →
        passed w.history = true) ∧
      ∀ a w', QuestDbWriter.step w a = some w' → passed w'.history = false →
        w.spool.db.pending <+: w'.spool.db.pending := by
  have hinv : (Bookkept w ∧ Behind w) ∧ Guarded w := by
    refine hrun.invariant (I := fun w => (Bookkept w ∧ Behind w) ∧ Guarded w)
      ⟨⟨.of_books (.fresh config env), .boot ..⟩, .boot config env _ _⟩ ?_
    rintro u a v ⟨⟨h, hb⟩, hg⟩ - hs
    exact ⟨⟨h.step hs, hb.step h.placed hs⟩, hg.step h hb hs⟩
  obtain ⟨⟨h, hb⟩, hg⟩ := hinv
  constructor
  · intro built hflight
    rcases hg.closed hb hschema with hpassed | hclosed
    · exact hpassed
    · exact (hflight.elim (hclosed.sending built) (hclosed.flushing built)).elim
  · intro a w' hs hno
    have ht := Taken.of_step hs
    by_cases hr : a.isRestart
    · cases ht with
      | restart config env => exact List.prefix_refl _
      | _ => cases hr
    · rcases hg.closed hb hschema with hpassed | hclosed
      · obtain ⟨obs, hobs, hof⟩ := (h.carries ht hr).keeps.history
        rw [hobs, passed_append hpassed hof] at hno
        cases hno
      · rcases hclosed.taken h ht hr with hpassed | hstill
        · cases hno.symm.trans hpassed
        · exact hstill.pending

/-- The gate of a started service passes, and one event is sent. -/
def gatedSent : List Action :=
  gatedStart ++ [.submit lightEvent, .submitSignal, .callback, .persistWake, .persistRun,
    .persistDrain, .persistDrain, .persistRound, .persistCheck, .deliverEnsured .ok]

/-- The batch is in flight, and the gate has passed. -/
theorem gatedSent_validated : ∃ w : World,
    exec QuestDbWriter.step gatedSent (.boot gatedProfile .quiet .fresh []) = some w ∧
      (∃ built, w.deliver = .sending built) ∧ passed w.history = true := by
  have hrun : ((exec QuestDbWriter.step gatedSent (.boot gatedProfile .quiet .fresh [])).any
      fun w =>
      w.config.hasSchema && w.deliver.isSending) = true := by
    decide +kernel
  obtain ⟨w, hw, hend⟩ := (Option.any_eq_true _ _).mp hrun
  obtain ⟨hschema, hsending⟩ := (Bool.and_eq_true _ _).mp hend
  obtain ⟨built, hd⟩ := DeliverPc.isSending_iff.mp hsending
  exact ⟨w, hw, ⟨built, hd⟩, (validated_first _ _ w (.of_exec hw) hschema).1 built (.inl hd)⟩

end

end World

end QuestDbWriter
