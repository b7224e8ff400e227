import QuestDbWriter.Worker.Gate

/-!
# What a blocked delivery shows

A delivery that is blocked for the rest of the run, and a storage pause of the persist loop, write
the same fields under the lock. `Body` says what one turn of the delivery loop behind its gate can
do to them, `persistHeld_reports` what an attempt to persist does. A blocked delivery shows as
`BLOCKED` in every run in which no attempt ends a pause that was reported over it
(`blocked_visible`), and not in every run (`blocked_masked`). Rejected credentials are reported as
such in every run in which they are rejected by `send_batch`, and no pause that was open before is
reported again (`auth_reported`), and not where the gate finds them (`auth_unreported`).
-/

namespace QuestDbWriter

open Lib

/-- The thread has read whether a stop was requested before it was ready. -/
def ThreadPc.IsBegun : ThreadPc → Prop
  | .absent | .opening | .opened => False
  | _ => True

/-- The state of a delivery that has failed for the rest of the run. -/
def Shared.ShowsBlock (s : Shared) : Prop :=
  s.state = .blocked ∨ s.state = .stopping ∨ s.state = .failed ∨ s.state = .stopped

/-- What rejected credentials show, unless the worker stops or has ended. -/
def Shared.ReportsAuth (s : Shared) : Prop :=
  s.state = .blocked ∧ s.blockReason = some .auth ∨
    s.state = .stopping ∨ s.state = .failed ∨ s.state = .stopped

namespace World

/-! ## Turns of the delivery loop -/

/-- What a turn of the delivery loop behind its gate does to what the gate and a block are decided
by. -/
structure Body (w w' : World) : Prop where
  ready : w'.locals.schemaReady = w.locals.schemaReady
  blocked : w'.locals.blocked = true → w.locals.blocked = true
  /-- A blocked delivery only reads the counters, and parks. -/
  parked : w.locals.blocked = true → w'.locals.blocked = true ∧
    w'.shared.state = w.shared.state ∧ w'.shared.blockReason = w.shared.blockReason ∧
    ∀ built, w'.deliver ≠ .sending built
  gate : w'.deliver ≠ .ensuring

section
variable {w w' : World}

/-- A write of the state leaves the locals of the tasks alone. -/
theorem acts_locals (h : Acts w w') : w'.locals = w.locals := by
  obtain ⟨_, _, _, rfl⟩ := h.world
  rfl

/-- Building a batch does not block the delivery. -/
theorem deliverStart_outcome {isolateNext : Bool} {backoff backoff' : Backoff}
    {outcome : DeliveryOutcome}
    (h : w.deliverStart isolateNext backoff = (.ok (.done outcome), backoff', w')) :
    outcome ≠ .blocked := by
  unfold deliverStart at h
  split at h
  · cases h
  · cases h
    nofun
  · split at h
    · cases h
      nofun
    · cases h

/-- What the end of a delivery does to the block and to the gate. -/
theorem afterDelivery_locals (w : World) (outcome : DeliveryOutcome) :
    (w.afterDelivery outcome).locals.schemaReady = w.locals.schemaReady ∧
      ((w.afterDelivery outcome).locals.blocked = true →
        w.locals.blocked = true ∨ outcome = .blocked) ∧
      ((w.afterDelivery outcome).deliver = .top ∨
        ∃ e, (w.afterDelivery outcome).deliver = .raised e) ∧
      (w.afterDelivery outcome).shared.state = w.shared.state ∧
      (w.afterDelivery outcome).shared.blockReason = w.shared.blockReason := by
  obtain ⟨spool, spoolStats, hw⟩ := readStats_eq w
  unfold afterDelivery
  split
  · next e v hv =>
    rw [hv] at hw
    subst hw
    exact ⟨rfl, .inl, .inr ⟨e, rfl⟩, rfl, rfl⟩
  · next s v hv =>
    rw [hv] at hw
    subst hw
    refine ⟨rfl, fun h => ?_, .inl rfl, rfl, rfl⟩
    have h : (w.locals.blocked || decide (outcome = .blocked)) = true := h
    rwa [Bool.or_eq_true, decide_eq_true_iff] at h

/-- What a failed delivery does to the block and to the gate. -/
theorem deliveryFailed_locals (w : World) (e : Exc) :
    (w.deliveryFailed e).locals.schemaReady = w.locals.schemaReady ∧
      (w.deliveryFailed e).locals.blocked = w.locals.blocked ∧
      ((w.deliveryFailed e).deliver = .top ∨ ∃ e', (w.deliveryFailed e).deliver = .raised e') := by
  unfold deliveryFailed
  split
  · exact ⟨rfl, rfl, .inl rfl⟩
  · exact ⟨rfl, rfl, .inr ⟨e, rfl⟩⟩

/-- An attempt of a task that is not blocked. -/
theorem Body.deliverAttempt (hb : w.locals.blocked = false) : Body w w.deliverAttempt := by
  have hacts := acts_locals (Acts.deliverStart w w.locals.isolateNext w.locals.backoff)
  have hfree : ∀ {p : Prop}, w.locals.blocked = true → p := fun h => nomatch hb.symm.trans h
  unfold World.deliverAttempt
  split
  · next built backoff v hv =>
    have hl : v.locals = w.locals := by rwa [hv] at hacts
    have hready : v.locals.schemaReady = w.locals.schemaReady := congrArg _ hl
    exact ⟨hready, fun h => hl ▸ h, hfree, nofun⟩
  · next outcome backoff v hv =>
    have hl : v.locals = w.locals := by rwa [hv] at hacts
    have hready : v.locals.schemaReady = w.locals.schemaReady := congrArg _ hl
    obtain ⟨hafter, hblocked, hat, -⟩ := afterDelivery_locals (v.withBackoff backoff) outcome
    refine ⟨hafter.trans hready, fun h => ?_, hfree, ?_⟩
    · have hv' : v.locals.blocked = true := (hblocked h).resolve_right (deliverStart_outcome hv)
      exact hl ▸ hv'
    · rcases hat with hat | ⟨e, hat⟩ <;> simp [hat]
  · next e backoff v hv =>
    have hl : v.locals = w.locals := by rwa [hv] at hacts
    have hready : v.locals.schemaReady = w.locals.schemaReady := congrArg _ hl
    obtain ⟨hafter, hblocked, hat⟩ := deliveryFailed_locals (v.withBackoff backoff) e
    refine ⟨hafter.trans hready, fun h => ?_, hfree, ?_⟩
    · have hv' : v.locals.blocked = true := hblocked.symm.trans h
      exact hl ▸ hv'
    · rcases hat with hat | ⟨e, hat⟩ <;> simp [hat]

/-- A step that leaves these alone belongs to the body. -/
theorem Body.of_eq {u : World} (h : Body u w')
    (hready : u.locals.schemaReady = w.locals.schemaReady)
    (hblocked : u.locals.blocked = w.locals.blocked) (hst : u.shared.state = w.shared.state)
    (hreason : u.shared.blockReason = w.shared.blockReason) : Body w w' where
  ready := h.ready.trans hready
  blocked hb := hblocked ▸ h.blocked hb
  parked hb := by
    obtain ⟨h0, h1, h2, h3⟩ := h.parked (hblocked.trans hb)
    exact ⟨h0, h1.trans hst, h2.trans hreason, h3⟩
  gate := h.gate

/-- **One turn behind the gate.** -/
theorem Body.deliverBody (w : World) : Body w w.deliverBody := by
  obtain ⟨spool, spoolStats, hw⟩ := readStats_eq w
  unfold World.deliverBody
  split
  · next e v hv =>
    rw [hv] at hw
    subst hw
    exact ⟨rfl, id, fun hb => ⟨hb, rfl, rfl, nofun⟩, nofun⟩
  · next stats v hv =>
    rw [hv] at hw
    subst hw
    dsimp only
    split
    · next hdue =>
      have hb : w.locals.blocked = false := by
        simp only [deliveryDue, Bool.and_eq_true, Bool.not_eq_true'] at hdue
        exact hdue.1.1.2
      exact Body.of_eq (Body.deliverAttempt hb) rfl rfl rfl rfl
    · exact ⟨rfl, id, fun hb => ⟨hb, rfl, rfl, nofun⟩, nofun⟩

/-! ## Attempts to persist -/

/-- How an attempt to persist shows: it opens or repeats a pause, it ends one, or it shows
nothing. -/
inductive Reports (w : World) : Except Exc Bool × World → Prop where
  | paused (v : World) (hst : v.shared.state = w.shared.state ∨ v.shared.state = .blocked) :
      Reports w (.ok false, v)
  | resumed (v : World) (hheld : w.held ≠ []) (hst : w.shared.state = .blocked)
      (hreason : w.shared.blockReason.any BlockReason.isStorage = true) : Reports w (.ok true, v)
  | kept (r : Except Exc Bool) (v : World) (hr : r ≠ .ok false)
      (hst : v.shared.state = w.shared.state)
      (hreason : v.shared.blockReason = w.shared.blockReason) : Reports w (r, v)

/-- A step that leaves these alone reports nothing. -/
theorem Reports.of_eq {u : World} {r : Except Exc Bool × World} (h : Reports u r)
    (hheld : u.held = w.held) (hst : u.shared.state = w.shared.state)
    (hreason : u.shared.blockReason = w.shared.blockReason) : Reports w r := by
  cases h with
  | paused v hv => exact .paused v (hst ▸ hv)
  | resumed v hh hb hr => exact .resumed v (hheld ▸ hh) (hst ▸ hb) (hreason ▸ hr)
  | kept r v hr hv hv' => exact .kept r v hr (hv.trans hst) (hv'.trans hreason)

/-- A storage pause shows `BLOCKED`, or leaves what is shown. -/
theorem blockOnStorage_state (w : World) (reason : BlockReason) (error : PyStr) :
    (w.blockOnStorage reason error).shared.state = w.shared.state ∨
      (w.blockOnStorage reason error).shared.state = .blocked := by
  unfold blockOnStorage withShared Shared.blockOnStorage Shared.setDeliveryState
  dsimp only
  split
  · exact .inl rfl
  · exact .inr rfl

/-- An enqueue reports the pauses it opens and closes. -/
theorem enqueueHeld_reports (w : World) (hheld : w.held ≠ []) : Reports w w.enqueueHeld := by
  unfold enqueueHeld
  split
  · next n v hv =>
    have hcall : v.shared = (w.logCall .enqueueMany).shared :=
      (congrArg (fun r => r.2.shared) hv).symm
    have hst : v.shared.state = w.shared.state := by rw [hcall]; rfl
    have hreason : v.shared.blockReason = w.shared.blockReason := by rw [hcall]; rfl
    obtain ⟨spool, spoolStats, hw⟩ := readStats_eq (v.heldPersisted w.spool.db)
    split
    · next s u hu =>
      rw [hu] at hw
      subst hw
      unfold resumeAfterStorageBlock withShared Shared.resumeAfterStorageBlock
      dsimp only
      split
      · next hb => exact .resumed _ hheld (hst ▸ hb.1) (hreason ▸ hb.2)
      · exact .kept _ _ nofun hst hreason
    · next e u hu =>
      rw [hu] at hw
      subst hw
      exact .kept _ _ nofun hst hreason
  · next e v hv =>
    have hcall : v.shared = (w.logCall .enqueueMany).shared :=
      (congrArg (fun r => r.2.shared) hv).symm
    have hst : v.shared.state = w.shared.state := by rw [hcall]; rfl
    have hreason : v.shared.blockReason = w.shared.blockReason := by rw [hcall]; rfl
    have hpause := fun reason => blockOnStorage_state v reason (errorText e)
    rw [hst] at hpause
    split
    · exact .paused _ (hpause _)
    · split
      · exact .paused _ (hpause _)
      · exact .kept _ _ nofun hst hreason

/-- **What an attempt to persist shows.** -/
theorem persistHeld_reports (w : World) : Reports w w.persistHeld := by
  obtain ⟨_, _, _, _, he⟩ := Measures.freeSpace w
  have hst : w.freeSpace.2.shared.state = w.shared.state := by rw [he]
  have hreason : w.freeSpace.2.shared.blockReason = w.shared.blockReason := by rw [he]
  have hsame : w.freeSpace.2.held = w.held := by rw [he]
  unfold persistHeld
  split
  · exact .kept _ _ nofun rfl rfl
  · next hheld =>
    dsimp only
    split
    · exact .paused _ (hst ▸ blockOnStorage_state w.freeSpace.2 _ _)
    · exact (enqueueHeld_reports w.freeSpace.2 (hsame ▸ hheld)).of_eq hsame hst hreason

/-- A persist round shows what its attempt shows. -/
theorem persistRound_eq_held (w : World) :
    w.persistRound.shared.state = w.persistHeld.2.shared.state ∧
      w.persistRound.shared.blockReason = w.persistHeld.2.shared.blockReason := by
  unfold persistRound
  split
  · next e v hv => exact ⟨by rw [hv], by rw [hv]⟩
  · next r v hv =>
    rw [hv]
    obtain ⟨spool, spoolStats, hw⟩ := readStats_eq v
    split
    · next e u hu =>
      rw [hu] at hw
      subst hw
      exact ⟨rfl, rfl⟩
    · next s u hu =>
      rw [hu] at hw
      subst hw
      exact ⟨rfl, rfl⟩

/-! ## Ends of calls -/

/-- How `schema.ensure` ends in the gate: it does not block the delivery, and a batch is sent only
behind it. -/
theorem deliverEnsured_locals (w : World) (result : EnsureResult) :
    ((w.deliverEnsured result).locals.blocked = true → w.locals.blocked = true) ∧
      ∀ built, (w.deliverEnsured result).deliver = .sending built →
        (w.deliverEnsured result).locals.schemaReady = true := by
  unfold deliverEnsured
  dsimp only
  split
  · generalize hu : World.setDeliveryState _ _ _ _ = u
    have hlocals : u.locals.blocked = w.locals.blocked ∧ u.locals.schemaReady = true := by
      rw [← hu]
      exact ⟨rfl, rfl⟩
    have hbody := Body.deliverBody u
    exact ⟨fun h => hlocals.1 ▸ hbody.blocked h, fun _ _ => hbody.ready.trans hlocals.2⟩
  · split
    · exact ⟨id, nofun⟩
    · exact ⟨id, nofun⟩
    · exact ⟨id, nofun⟩
    · exact ⟨id, nofun⟩
  · split
    · exact ⟨id, nofun⟩
    · exact ⟨id, nofun⟩
  · exact ⟨id, nofun⟩

/-- The method reports the block with its reason. -/
theorem setDeliveryState_blocked (w : World) (lastError : Option PyStr) (retryDelay : Option ℚ)
    (reason : Option BlockReason) :
    (w.setDeliveryState .blocked lastError retryDelay reason).shared.ShowsBlock := by
  unfold setDeliveryState withShared Shared.setDeliveryState Shared.ShowsBlock
  dsimp only
  split
  · next h => exact h.elim (fun h => .inr (.inl h)) fun h => .inr (.inr (.inl h))
  · exact .inl rfl

/-- A delivery that ends blocked shows it. -/
theorem deliverFinish_blocked {built : BuiltBatch} {backoff backoff' : Backoff}
    {result : SendResult}
    (h : w.deliverFinish built backoff result = (.ok .blocked, backoff', w')) :
    w'.shared.ShowsBlock := by
  unfold deliverFinish at h
  dsimp only at h
  split at h
  · split at h <;> cases h
  · cases h
  · split at h
    · cases h
      exact setDeliveryState_blocked _ _ _ _
    · split at h <;> cases h
    · split at h
      · unfold batchRejected at h
        split at h
        · split at h
          · cases h
          · split at h <;> cases h
        · split at h <;> cases h
      · cases h
        exact setDeliveryState_blocked _ _ _ _
    · cases h

/-- How `send_batch` ends in the delivery loop: where it blocks the delivery, that shows. -/
theorem deliverSent_locals (w : World) (built : BuiltBatch) (result : SendResult) :
    (w.deliverSent built result).locals.schemaReady = w.locals.schemaReady ∧
      ((w.deliverSent built result).locals.blocked = true → w.locals.blocked = true ∨
        (w.deliverSent built result).shared.ShowsBlock) ∧
      ((w.deliverSent built result).deliver = .top ∨
        ∃ e, (w.deliverSent built result).deliver = .raised e) := by
  have hacts := acts_locals (Acts.deliverFinish w built w.locals.backoff result)
  unfold deliverSent
  split
  · next outcome backoff v hv =>
    have hl : v.locals = w.locals := by rwa [hv] at hacts
    have hready : v.locals.schemaReady = w.locals.schemaReady := congrArg _ hl
    have hkept : v.locals.blocked = w.locals.blocked := congrArg _ hl
    obtain ⟨hafter, hblocked, hat, hst, -⟩ := afterDelivery_locals (v.withBackoff backoff) outcome
    refine ⟨hafter.trans hready, fun h => ?_, hat⟩
    rcases hblocked h with hb | rfl
    · exact .inl (hkept.symm.trans hb)
    · have hshown : v.shared.ShowsBlock := deliverFinish_blocked hv
      refine .inr ?_
      unfold Shared.ShowsBlock
      rw [hst]
      exact hshown
  · next e backoff v hv =>
    have hl : v.locals = w.locals := by rwa [hv] at hacts
    have hready : v.locals.schemaReady = w.locals.schemaReady := congrArg _ hl
    have hkept : v.locals.blocked = w.locals.blocked := congrArg _ hl
    obtain ⟨hafter, hblocked, hat⟩ := deliveryFailed_locals (v.withBackoff backoff) e
    exact ⟨hafter.trans hready, fun h => .inl (hkept.symm.trans (hblocked.symm.trans h)), hat⟩

end

/-! ## A blocked delivery shows -/

section
variable {w w' : World} {a : Action}

/-- What a step of the main coroutine or of the persist loop shows: nothing, a stop, or what an
attempt to persist reports. -/
structure Beside (w : World) (a : Action) (w' : World) : Prop where
  stopping : w'.main.IsStopping → w.main.IsStopping ∨ w'.shared.state = .stopping
  shows : w'.shared.state = w.shared.state ∧ w'.shared.blockReason = w.shared.blockReason ∨
    w'.shared.state = .stopping ∨ a = .persistRound

namespace Beside

/-- A step that leaves the state alone stands beside delivery. -/
theorem of_eq (hm : w'.main.IsStopping → w.main.IsStopping)
    (hst : w'.shared.state = w.shared.state) (hr : w'.shared.blockReason = w.shared.blockReason) :
    Beside w a w' :=
  ⟨fun h => .inl (hm h), .inl ⟨hst, hr⟩⟩

/-- So does the end by an exception. -/
theorem mainRaise (u : World) (e : Exc)
    (hs : u.shared.state = w.shared.state ∧ u.shared.blockReason = w.shared.blockReason ∨
      u.shared.state = .stopping) : Beside w a (u.mainRaise e) := by
  obtain ⟨persist, deliver, he, -⟩ := mainRaise_eq u e
  rw [he]
  exact ⟨nofun, hs.imp_right .inl⟩

/-- The shutdown flush reports nothing: the worker stops. -/
theorem of_flushes (h : Flushes w w') (hm : w.main.IsStopping)
    (hst : w.shared.state = .stopping) : Beside w a w' := by
  have hkept : ∀ u, Acts w u → u.shared.state = .stopping := by
    intro u hu
    rcases hu.shared.state with he | ⟨hne, -⟩
    · exact he.trans hst
    · exact absurd hst hne
  cases h with
  | raised u e hu => exact mainRaise u e (.inr (hkept u hu))
  | finished u hu =>
    rcases mainFinish_eq u with ⟨e, he⟩ | ⟨deliver, he, -⟩
    · rw [he]
      exact mainRaise u e (.inr (hkept u hu))
    · rw [he]
      exact ⟨nofun, .inr (.inl (hkept u hu))⟩
  | ensuring u hu => exact ⟨fun _ => .inl hm, .inr (.inl (hkept u hu))⟩
  | sending u built backoff hu => exact ⟨fun _ => .inl hm, .inr (.inl (hkept u hu))⟩

end Beside

/-- A turn of the persist side stands beside delivery. -/
theorem Beside.of_taken (h : Taken w a w') (hf : w.main.IsStopping → w.shared.state = .stopping)
    (ha : a.IsInside) (hd : ¬ a.IsDeliver) : Beside w a w' := by
  cases h with
  | mainPublish | mainTest => exact .of_eq nofun rfl rfl
  | mainStop => exact ⟨fun _ => .inr rfl, .inr (.inl rfl)⟩
  | mainTaskDone e => exact .mainRaise w e (.inl ⟨rfl, rfl⟩)
  | mainPersistRaised e => exact .mainRaise w e (.inl ⟨rfl, rfl⟩)
  | mainPersisted hm =>
    have hm : w.main.IsStopping := hm ▸ trivial
    exact .of_flushes (.mainPersisted w) hm (hf hm)
  | flushEnsured result hm =>
    have hm : w.main.IsStopping := hm ▸ trivial
    exact .of_flushes (.flushEnsured w result) hm (hf hm)
  | flushSent built result hm =>
    have hm : w.main.IsStopping := hm ▸ trivial
    exact .of_flushes (.flushSent w built result) hm (hf hm)
  | persistRun | persistWake => exact .of_eq id rfl rfl
  | persistDrain =>
    rcases persistDrain_eq w with ⟨_, _, -, -, he⟩ | he
    · rw [he]
      exact .of_eq id rfl rfl
    · rw [he]
      exact .of_eq id rfl rfl
  | persistRound =>
    refine ⟨fun hm => .inl ?_, .inr (.inr rfl)⟩
    rcases persistRound_eq w with ⟨u, hu, he⟩ | ⟨u, e, hu, he⟩
    · obtain ⟨⟨_, _, _, _, rfl⟩, -⟩ := hu.frame
      rwa [he] at hm
    · obtain ⟨⟨_, _, _, _, rfl⟩, -⟩ := hu.frame
      rwa [he] at hm
  | persistCheck =>
    rcases persistCheck_eq w with ⟨he, -⟩ | ⟨_, _, he, -⟩
    · rw [he]
      exact .of_eq id rfl rfl
    · rw [he]
      exact .of_eq id rfl rfl
  | deliverRun | deliverEnsured | deliverSent | deliverWake => exact absurd trivial hd
  | _ => exact ha.elim

/-- The delivery calls no more. -/
def GaveUp (w : World) : Prop := w.locals.blocked = true ∨ w.deliver.IsOver

/-- A delivery that is blocked, or sends, is behind its gate, and a blocked one is at no call; the
worker stops where the main coroutine awaits its end. -/
structure Behind (w : World) : Prop where
  ready : (w.locals.blocked = true ∨ ∃ built, w.deliver = .sending built) →
    w.locals.schemaReady = true
  placed : w.locals.blocked = true →
    w.deliver ≠ .ensuring ∧ ∀ built, w.deliver ≠ .sending built
  begun : GaveUp w → w.thread.IsBegun
  flush : w.main.IsStopping → w.shared.state = .stopping

namespace Behind

/-- A new process is not blocked. -/
theorem boot (config : Config) (env : Env) (db : Database) (history : List Obs) :
    Behind (.boot config env db history) where
  ready := by simp [World.boot, DeliverLocals.initial]
  placed := nofun
  begun := by simp [GaveUp, World.boot, DeliverLocals.initial, DeliverPc.IsOver]
  flush := nofun

/-- A step that leaves the delivery loop where it stands, or ends it. -/
theorem of_eq (h : Behind w) (hl : w'.locals = w.locals)
    (hd : w'.deliver = w.deliver ∨ w'.deliver.IsOver ∧ w'.thread.IsBegun)
    (hbegun : GaveUp w → w'.thread.IsBegun)
    (hflush : w'.main.IsStopping → w'.shared.state = .stopping) : Behind w' := by
  have hover : ∀ {d : DeliverPc}, d.IsOver → d ≠ .ensuring ∧ ∀ built, d ≠ .sending built := by
    intro d hd
    cases d <;> simp [DeliverPc.IsOver] at hd ⊢
  refine ⟨fun hb => ?_, fun hb => ?_, fun hg => ?_, hflush⟩
  · rw [hl] at hb ⊢
    refine h.ready (hb.imp_right fun ⟨built, hs⟩ => ⟨built, ?_⟩)
    rcases hd with hd | ⟨hd, -⟩
    · exact hd.symm.trans hs
    · exact absurd hs ((hover hd).2 built)
  · rcases hd with hd | ⟨hd, -⟩
    · exact hd ▸ h.placed (hl ▸ hb)
    · exact hover hd
  · rcases hd with hd | ⟨-, hd⟩
    · exact hbegun (hg.imp (fun hb => hl ▸ hb) fun ho => hd ▸ ho)
    · exact hd

/-- A turn of the delivery loop. -/
theorem delivers (hp : Placed w) (h : Behind w) (ht : Taken w a w') (hd : a.IsDeliver)
    (hstop : w.main.IsStopping → w'.shared.state = .stopping) : Behind w' := by
  have hframe : ∀ {v}, Delivers w v → w.tasksRun = true →
      v.main = w.main ∧ v.thread.IsBegun := by
    intro v hv hrun
    obtain ⟨_, _, _, _, _, _, rfl⟩ := hv.world
    have hl : w.thread = .looping := hp.looping (tasksRun_active hrun)
    exact ⟨rfl, hl ▸ trivial⟩
  cases ht with
  | deliverRun hrun =>
    obtain ⟨hmain, hthread⟩ := hframe (Delivers.deliverTop w) hrun
    have hflush : w.deliverTop.main.IsStopping → w.deliverTop.shared.state = .stopping :=
      fun hm => hstop (hmain ▸ hm)
    revert hflush hthread
    unfold deliverTop
    split
    · exact fun hthread => h.of_eq rfl (.inr ⟨trivial, hthread⟩) fun _ => hthread
    · split
      · next hready =>
        intro hthread hflush
        have hbody := Body.deliverBody w
        refine ⟨fun _ => hbody.ready.trans hready, fun hb => ?_, fun _ => hthread, hflush⟩
        exact ⟨hbody.gate, (hbody.parked (hbody.blocked hb)).2.2.2⟩
      · next hready =>
        intro hthread hflush
        have hfree : ∀ {p : Prop}, w.locals.blocked = true → p := fun hb =>
          absurd (h.ready (.inl hb)) hready
        refine ⟨fun hb => ?_, hfree, fun _ => hthread, hflush⟩
        rcases hb with hb | ⟨built, hb⟩
        · exact hfree hb
        · cases hb
  | deliverEnsured result _ hat =>
    obtain ⟨hblocked, hready⟩ := deliverEnsured_locals w result
    have hfree : ∀ {p : Prop}, (w.deliverEnsured result).locals.blocked = true → p := fun hb =>
      absurd hat (h.placed (hblocked hb)).1
    obtain ⟨hmain, hthread⟩ :=
      hframe (Delivers.deliverEnsured w result) (hp.delivering (hat ▸ trivial))
    refine ⟨fun hb => ?_, hfree, fun _ => hthread, fun hm => hstop (hmain ▸ hm)⟩
    rcases hb with hb | ⟨built, hb⟩
    · exact hfree hb
    · exact hready built hb
  | deliverSent built result _ hat =>
    obtain ⟨hready, -, hnext⟩ := deliverSent_locals w built result
    obtain ⟨hmain, hthread⟩ :=
      hframe (Delivers.deliverSent w built result) (hp.delivering (hat ▸ trivial))
    refine ⟨fun _ => hready.trans (h.ready (.inr ⟨built, hat⟩)), fun _ => ?_, fun _ => hthread,
      fun hm => hstop (hmain ▸ hm)⟩
    rcases hnext with hn | ⟨e, hn⟩ <;> simp [hn]
  | deliverWake =>
    refine ⟨fun hb => h.ready (.inl (hb.resolve_right ?_)), fun _ => ⟨nofun, nofun⟩,
      fun hg => h.begun (.inl (hg.resolve_right id)), h.flush⟩
    rintro ⟨built, hb⟩
    cases hb
  | _ => exact hd.elim

/-- What the main coroutine's stop means for the state. -/
theorem stops (h : Behind w) (hi : Inside w w') (hm : w.main.IsStopping) :
    w'.shared.state = .stopping := by
  rcases hi.state with he | ⟨-, he | ⟨hne, -⟩⟩
  · exact he.trans (h.flush hm)
  · exact he
  · exact absurd (h.flush hm) hne

/-- Every step keeps the delivery behind its gate. -/
theorem step (hp : Placed w) (h : Behind w) (hs : step w a = some w') : Behind w' := by
  have ht := Taken.of_step hs
  rcases a.sides with ha | ha | ha
  · have ho := ht.outside ha
    have hu := ht.undelivered ha.not_deliver ha.not_restart
    exact h.of_eq hu.locals (.inl ho.deliver) (fun hg => ho.thread ▸ h.begun hg)
      fun hm => ho.state.trans (h.flush (ho.main ▸ hm))
  · have hi := ht.inside hp ha
    by_cases hd : a.IsDeliver
    · exact h.delivers hp ht hd (h.stops hi)
    · have hu := ht.undelivered hd ha.not_restart
      have hended : (∃ e, w'.thread = .raising e) ∨ w'.thread = .closing false →
          w'.thread.IsBegun := by
        rintro (⟨e, hth⟩ | hth)
        · exact hth ▸ trivial
        · exact hth ▸ trivial
      refine h.of_eq hu.locals (hu.deliver.imp_right (And.imp_right hended)) (fun hg => ?_)
        fun hm => ?_
      · rcases hi.thread with hth | ⟨-, hth⟩
        · exact hth ▸ h.begun hg
        · exact hended hth
      · exact ((Beside.of_taken ht h.flush ha hd).stopping hm).elim (h.stops hi) id
  have hidle : w.thread ≠ .looping → ¬ w.main.IsStopping := fun hl hm =>
    hl (hp.looping hm.active)
  cases ht with
  | restart => exact boot _ _ _ _
  | environment => exact h.of_eq rfl (.inl rfl) h.begun h.flush
  | startCall =>
    unfold startCall
    split
    · next hn =>
      have habs := hp.fresh hn
      exact h.of_eq rfl (.inl rfl) (fun hg => (habs ▸ h.begun hg).elim)
        fun hm => absurd hm (hidle (by simp [habs]))
    · exact h.of_eq rfl (.inl rfl) h.begun h.flush
  | stopLock i seen timeout =>
    obtain ⟨pc, state, deadline, he, hcase⟩ := stopLock_eq w i seen timeout
    rw [he]
    rcases hcase with ⟨hn, -, -⟩ | ⟨-, hst, -⟩ | ⟨hst, -⟩
    · have habs := hp.fresh hn
      exact h.of_eq rfl (.inl rfl) h.begun fun hm => absurd hm (hidle (by simp [habs]))
    · subst hst
      exact h.of_eq rfl (.inl rfl) h.begun h.flush
    · exact h.of_eq rfl (.inl rfl) h.begun fun _ => hst
  | threadOpen factoryError hth =>
    obtain ⟨u, thread, hacts, he, -⟩ := threadOpen_eq w factoryError
    obtain ⟨_, _, _, rfl⟩ := hacts.world
    rw [he]
    exact h.of_eq rfl (.inl rfl) (fun hg => (hth ▸ h.begun hg).elim)
      fun hm => absurd hm (hidle (by simp [hth]))
  | threadStartup hth =>
    exact h.of_eq rfl (.inl rfl) (fun _ => trivial) fun hm => absurd hm (hidle (by simp [hth]))
  | threadAnnounce hth => exact h.of_eq rfl (.inl rfl) (fun _ => trivial) nofun
  | threadFail _ hth | threadClose _ _ hth | threadExit _ _ hth | threadDie hth =>
    exact h.of_eq rfl (.inl rfl) (fun _ => trivial) fun hm => absurd hm (hidle (by simp [hth]))
  | _ => exact ha.elim

end Behind

/-! ## What a delivery that has given up shows -/

/-- A report is decided by the state and its reason, and a worker that stops or has ended makes
any. -/
structure IsReport (P : Shared → Prop) : Prop where
  congr : ∀ {s s' : Shared}, P s → s'.state = s.state → s'.blockReason = s.blockReason → P s'
  ended : ∀ {s : Shared}, s.state = .stopping ∨ s.state = .failed ∨ s.state = .stopped → P s

/-- **A report stays while no attempt to persist overwrites it**, once the delivery has given
up. -/
theorem Behind.keeps {P : Shared → Prop} (hP : IsReport P) (hp : Placed w) (h : Behind w)
    (hgave : GaveUp w) (hrep : P w.shared) (hround : a = .persistRound → P w.persistHeld.2.shared)
    (hr : ¬ a.isRestart) (hs : QuestDbWriter.step w a = some w') : GaveUp w' ∧ P w'.shared := by
  have ht := Taken.of_step hs
  have hbegun := h.begun hgave
  have hat : ∀ {d : DeliverPc}, w.deliver = d → ¬ d.IsOver → w.locals.blocked = true :=
    fun hd hn => hgave.resolve_right fun ho => hn (hd ▸ ho)
  by_cases hdel : a.IsDeliver
  · cases ht with
    | deliverRun _ _ hd =>
      have hb := hat hd id
      unfold deliverTop
      split
      · exact ⟨.inr trivial, hrep⟩
      · rw [if_pos (h.ready (.inl hb))]
        obtain ⟨hb', hst, hreason, -⟩ := (Body.deliverBody w).parked hb
        exact ⟨.inl hb', hP.congr hrep hst hreason⟩
    | deliverEnsured _ _ hd => exact absurd hd (h.placed (hat hd id)).1
    | deliverSent built _ _ hd => exact absurd hd ((h.placed (hat hd id)).2 built)
    | deliverWake _ _ hd => exact ⟨.inl (hd.elim (fun hd => hat hd id) fun hd => hat hd id), hrep⟩
    | _ => exact hdel.elim
  have hu := ht.undelivered hdel hr
  refine ⟨?_, ?_⟩
  · rcases hu.deliver with hd | ⟨hd, -⟩
    · exact hgave.imp (fun hb => hu.locals ▸ hb) fun ho => hd ▸ ho
    · exact .inr hd
  rcases a.sides with ha | ha | ha
  · have ho := ht.outside ha
    exact hP.congr hrep ho.state ho.blockReason
  · rcases (Beside.of_taken ht h.flush ha hdel).shows with ⟨hst, hreason⟩ | hst | rfl
    · exact hP.congr hrep hst hreason
    · exact hP.ended (.inl hst)
    · cases ht
      obtain ⟨hst, hreason⟩ := persistRound_eq_held w
      exact hP.congr (hround rfl) hst hreason
  cases ht with
  | restart => exact absurd rfl hr
  | environment | threadAnnounce | threadClose | threadDie => exact hrep
  | startCall =>
    unfold startCall
    split
    · next hn => exact (hp.fresh hn ▸ hbegun).elim
    · exact hrep
  | stopLock i seen timeout =>
    obtain ⟨pc, state, deadline, he, hcase⟩ := stopLock_eq w i seen timeout
    rw [he]
    rcases hcase with ⟨-, hst, -⟩ | ⟨-, hst, -⟩ | ⟨hst, -⟩
    · exact hP.ended (.inr (.inr hst))
    · exact hP.congr hrep hst rfl
    · exact hP.ended (.inl hst)
  | threadOpen _ hth => exact (hth ▸ hbegun).elim
  | threadStartup hth => exact (hth ▸ hbegun).elim
  | threadFail => exact hP.ended (.inr (.inl rfl))
  | threadExit failed cleanup =>
    unfold threadExit withShared
    dsimp only
    split
    · exact hP.congr hrep rfl rfl
    · split
      · exact hP.ended (.inr (.inl rfl))
      · exact hP.ended (.inr (.inr rfl))
  | _ => exact ha.elim

/-! ## A block stays visible -/

/-- An attempt to persist ends a pause that was reported over a blocked delivery. -/
def Unmasks (w : World) (a : Action) : Prop :=
  a = .persistRound ∧ w.locals.blocked = true ∧ w.shared.state = .blocked ∧
    w.shared.blockReason.any BlockReason.isStorage = true ∧ w.held ≠ [] ∧
    w.persistHeld.1 = .ok true

/-- A block that is shown is a report. -/
theorem isReport_showsBlock : IsReport Shared.ShowsBlock where
  congr h hst _ := by
    unfold Shared.ShowsBlock
    rwa [hst]
  ended h := .inr h

/-- A step that unmasks no pause leaves a blocked delivery visible. -/
theorem Behind.visible (hp : Placed w) (h : Behind w)
    (hv : w.locals.blocked = true → w.shared.ShowsBlock) (hg : ¬ Unmasks w a)
    (hs : QuestDbWriter.step w a = some w') (hb : w'.locals.blocked = true) :
    w'.shared.ShowsBlock := by
  have ht := Taken.of_step hs
  by_cases hr : a.isRestart = true
  · cases ht with
    | restart => cases hb
    | _ => cases hr
  by_cases hw : w.locals.blocked = true
  · refine (h.keeps isReport_showsBlock hp (.inl hw) (hv hw) (fun ha => ?_) hr hs).2
    have hreport := persistHeld_reports w
    generalize hround : w.persistHeld = r at hreport ⊢
    unfold Shared.ShowsBlock
    cases hreport with
    | paused v hst =>
      rcases hst with hst | hst
      · rw [hst]
        exact hv hw
      · exact .inl hst
    | resumed v hheld hst hreason =>
      exact absurd ⟨ha, hw, hst, hreason, hheld, congrArg Prod.fst hround⟩ hg
    | kept r v _ hst =>
      rw [hst]
      exact hv hw
  by_cases hdel : a.IsDeliver
  · cases ht with
    | deliverRun =>
      refine absurd ?_ hw
      revert hb
      unfold deliverTop
      split
      · exact id
      · split
        · exact (Body.deliverBody w).blocked
        · exact id
    | deliverEnsured result => exact absurd ((deliverEnsured_locals w result).1 hb) hw
    | deliverSent built result =>
      exact ((deliverSent_locals w built result).2.1 hb).resolve_left hw
    | deliverWake => exact absurd hb hw
    | _ => exact hdel.elim
  · exact absurd ((ht.undelivered hdel hr).locals ▸ hb) hw

end

/-- **A blocked delivery is visible** in every run in which no attempt to persist ends a pause that
was reported over it: while the worker does not stop and has not ended, its state is `BLOCKED`. -/
theorem blocked_visible (config : Config) (env : Env) (db : Database) (history : List Obs)
    (w : World) (hrun : Steps step (fun v a => ¬ Unmasks v a) (.boot config env db history) w)
    (hb : w.locals.blocked = true)
    (hst : w.shared.state ≠ .stopping ∧ w.shared.state ≠ .stopped ∧ w.shared.state ≠ .failed) :
    w.shared.state = .blocked := by
  have hinv : Placed w ∧ Behind w ∧ (w.locals.blocked = true → w.shared.ShowsBlock) := by
    refine hrun.invariant (I := fun w => Placed w ∧ Behind w ∧
      (w.locals.blocked = true → w.shared.ShowsBlock)) ⟨.boot .., .boot .., nofun⟩ ?_
    rintro u a v ⟨hp, h, hv⟩ hg hs
    exact ⟨hp.step hs, h.step hp hs, h.visible hp hv hg hs⟩
  rcases hinv.2.2 hb with h | h | h | h
  · exact h
  · exact absurd h hst.1
  · exact absurd h hst.2.2
  · exact absurd h hst.2.1

/-- Rejected credentials. -/
def denied : IlpError :=
  { kind := .authentication, message := py "HTTP 401", statusCode := some 401,
    deliveryUncertain := false }

/-- One event is persisted, and its batch is sent. -/
def oneSent : List Action :=
  [.startCall, .threadOpen none, .threadStartup, .threadAnnounce, .mainPublish, .mainTest,
    .submit lightEvent, .persistRun, .persistDrain, .persistDrain, .persistRound, .persistCheck,
    .deliverRun]

/-- One event is persisted, and its batch is rejected with status 401. -/
def oneDenied : List Action := oneSent ++ [.deliverSent (.error denied), .deliverRun]

/-- The worker is blocked, and shows it. -/
theorem oneDenied_visible : ∃ w : World,
    exec step oneDenied (.boot .provisional .quiet .fresh []) = some w ∧
      w.locals.blocked = true ∧ w.shared.state = .blocked := by
  let unblocked : World → Action → Bool
    | w, .persistRound => !w.locals.blocked
    | _, _ => true
  have hunblocked : ∀ w a, unblocked w a = true → ¬ Unmasks w a := by
    rintro w a hw ⟨rfl, hb, -⟩
    simp [unblocked, hb] at hw
  have hrun : ((execIn step unblocked oneDenied (.boot .provisional .quiet .fresh [])).any fun w =>
      decide (w.locals.blocked = true ∧ w.shared.state ≠ .stopping ∧ w.shared.state ≠ .stopped ∧
        w.shared.state ≠ .failed)) = true := by
    decide +kernel
  obtain ⟨w, hw, hend⟩ := (Option.any_eq_true _ _).mp hrun
  obtain ⟨hb, hst⟩ := of_decide_eq_true hend
  refine ⟨w, exec_of_execIn (Option.mem_def.mp hw), hb, ?_⟩
  exact blocked_visible _ _ _ _ w (.of_execIn hunblocked (Option.mem_def.mp hw)) hb hst

/-- The disk is full, and the clock has moved on. -/
def fullDisk : Env :=
  { Env.quiet with
    monotonic := 10
    usage := .ok { totalBytes := 2 ^ 40, freeBytes := 0 }
    usageAfter := .ok { totalBytes := 2 ^ 40, freeBytes := 0 } }

/-- A second event comes while the disk is full, and is persisted when there is space again. -/
def pausedOnce : List Action :=
  oneDenied ++
    [.submit lightEvent, .environment fullDisk [], .persistWake, .persistRun, .persistDrain,
      .persistDrain, .persistRound, .persistCheck,
        .environment { Env.quiet with monotonic := 20 } [],
      .persistWake, .persistRun, .persistDrain, .persistRound]

/-- **A blocked delivery is not always visible**: the end of a storage pause shows `RUNNING`. -/
theorem blocked_masked : ¬ ∀ (config : Config) (env : Env) (db : Database) (history : List Obs)
    (w : World), Steps step (fun _ _ => True) (.boot config env db history) w →
      w.locals.blocked = true →
      w.shared.state ≠ .stopping ∧ w.shared.state ≠ .stopped ∧ w.shared.state ≠ .failed →
      w.shared.state = .blocked := by
  intro h
  have hrun : ((exec step pausedOnce (.boot .provisional .quiet .fresh [])).any fun w =>
      decide (w.locals.blocked = true ∧ w.shared.state = .running)) = true := by
    decide +kernel
  obtain ⟨w, hw, hend⟩ := (Option.any_eq_true _ _).mp hrun
  obtain ⟨hb, hst⟩ := of_decide_eq_true hend
  have hblocked := h _ _ _ _ w (.of_exec hw) hb (by simp [hst])
  cases hst.symm.trans hblocked

/-! ## Rejected credentials -/

/-- A call of the delivery side ends with rejected credentials. -/
def RaisesAuth (a : Action) : Prop :=
  ∃ e : IlpError, e.kind = .authentication ∧
    (a = .deliverEnsured (.error e) ∨ a = .deliverSent (.error e))

/-- An attempt to persist opens a storage pause. -/
def OpensPause (w : World) (a : Action) : Prop :=
  a = .persistRound ∧ w.persistHeld.1 = .ok false ∧ w.shared.storage.episode = none

/-- An attempt to persist reports a storage pause that is open. -/
def RepeatsPause (w : World) (a : Action) : Prop :=
  a = .persistRound ∧ w.persistHeld.1 = .ok false ∧ w.shared.storage.episode ≠ none

/-- So is an auth block. -/
theorem isReport_reportsAuth : IsReport Shared.ReportsAuth where
  congr h hst hreason := by
    unfold Shared.ReportsAuth
    rwa [hst, hreason]
  ended h := .inr h

/-- A batch that is rejected for its credentials ends the delivery, and that is reported. -/
theorem deliverSent_auth (w : World) (built : BuiltBatch) {e : IlpError}
    (he : e.kind = .authentication) :
    GaveUp (w.deliverSent built (.error e)) ∧
        (w.deliverSent built (.error e)).shared.ReportsAuth := by
  have hfinish : w.deliverFinish built w.locals.backoff (.error e) =
      (.ok .blocked, w.locals.backoff,
        (w.observe (.sent built (.error e))).setDeliveryState .blocked (some e.text) none
          (some .auth)) := by
    simp only [deliverFinish, he]
  have hreport : ((w.observe (.sent built (.error e))).setDeliveryState .blocked (some e.text) none
      (some .auth)).shared.ReportsAuth := by
    unfold setDeliveryState withShared Shared.setDeliveryState Shared.ReportsAuth
    dsimp only
    split
    · next h => exact h.elim (fun h => .inr (.inl h)) fun h => .inr (.inr (.inl h))
    · exact .inl ⟨rfl, rfl⟩
  unfold deliverSent
  rw [hfinish]
  dsimp only
  generalize World.setDeliveryState _ _ _ _ _ = u at hreport
  obtain ⟨spool, spoolStats, hw⟩ := readStats_eq (u.withBackoff w.locals.backoff)
  unfold afterDelivery
  split
  · next x v hv =>
    rw [hv] at hw
    subst hw
    exact ⟨.inr trivial, isReport_reportsAuth.congr hreport rfl rfl⟩
  · next s v hv =>
    rw [hv] at hw
    subst hw
    exact ⟨.inl (by simp), isReport_reportsAuth.congr hreport rfl rfl⟩

/-- **Rejected credentials are reported** in every run of the process from the call on, where that
is a `send_batch` and no pause that is open is reported again: while no pause is opened and the
worker does not stop and has not ended, its state is `BLOCKED` with the reason `auth`. -/
theorem auth_reported (config : Config) (env : Env) (db : Database) (history : List Obs)
    (w w₁ w₂ : World) (a : Action)
    (hrun : Steps step (fun _ _ => True) (.boot config env db history) w)
    (hauth : RaisesAuth a) (hsend : ∀ result, a ≠ .deliverEnsured result)
    (hcall : step w a = some w₁)
    (hlater : Steps step (fun v b => ¬ OpensPause v b ∧ ¬ RepeatsPause v b ∧ ¬ b.isRestart) w₁ w₂)
    (hst : w₂.shared.state ≠ .stopping ∧ w₂.shared.state ≠ .stopped ∧ w₂.shared.state ≠ .failed) :
    w₂.shared.state = .blocked ∧ w₂.shared.blockReason = some .auth := by
  have hinv : Placed w ∧ Behind w := by
    refine hrun.invariant (I := fun w => Placed w ∧ Behind w) ⟨.boot .., .boot ..⟩ ?_
    rintro u b v ⟨hp, h⟩ - hs
    exact ⟨hp.step hs, h.step hp hs⟩
  obtain ⟨hp, h⟩ := hinv
  have hfirst : GaveUp w₁ ∧ w₁.shared.ReportsAuth := by
    obtain ⟨e, he, rfl | rfl⟩ := hauth
    · exact absurd rfl (hsend _)
    · cases Taken.of_step hcall with
      | deliverSent built => exact deliverSent_auth w built he
  have hend : (Placed w₂ ∧ Behind w₂) ∧ GaveUp w₂ ∧ w₂.shared.ReportsAuth := by
    refine hlater.invariant (I := fun v => (Placed v ∧ Behind v) ∧ GaveUp v ∧ v.shared.ReportsAuth)
      ⟨⟨hp.step hcall, h.step hp hcall⟩, hfirst⟩ ?_
    rintro u b v ⟨⟨hp, h⟩, hgave, hrep⟩ ⟨hopens, hrepeats, hr⟩ hs
    refine ⟨⟨hp.step hs, h.step hp hs⟩, h.keeps isReport_reportsAuth hp hgave hrep ?_ hr hs⟩
    intro hb
    have hreport := persistHeld_reports u
    generalize hround : u.persistHeld = r at hreport ⊢
    cases hreport with
    | paused v =>
      -- a pause is opened, or an open one is repeated
      by_cases hepisode : u.shared.storage.episode = none
      · exact absurd ⟨hb, congrArg Prod.fst hround, hepisode⟩ hopens
      · exact absurd ⟨hb, congrArg Prod.fst hround, hepisode⟩ hrepeats
    | resumed v _ hblocked hreason =>
      -- only a pause for the storage is ended
      rcases hrep with ⟨-, hauth⟩ | hrest
      · rw [hauth] at hreason
        cases hreason
      · rw [hblocked] at hrest
        simp at hrest
    | kept r v _ hst hreason => exact isReport_reportsAuth.congr hrep hst hreason
  rcases hend.2.2 with hreport | hrest | hrest | hrest
  · exact hreport
  · exact absurd hrest hst.1
  · exact absurd hrest hst.2.2
  · exact absurd hrest hst.2.1

/-- One event is sent and denied, and the report stays through a second, idle turn of both loops. -/
theorem oneSent_reported : ∃ w w₁ w₂ : World,
    exec step oneSent (.boot .provisional .quiet .fresh []) = some w ∧
      step w (.deliverSent (.error denied)) = some w₁ ∧
      exec step [.deliverRun, .environment { Env.quiet with monotonic := 10 } [], .persistWake,
        .persistRun, .persistDrain, .persistRound] w₁ = some w₂ ∧
      w₂.shared.state = .blocked ∧ w₂.shared.blockReason = some .auth := by
  let unpaused : World → Action → Bool
    | w, .persistRound => decide (w.persistHeld.1 ≠ .ok false)
    | _, a => !a.isRestart
  have hunpaused : ∀ w a, unpaused w a = true →
      ¬ OpensPause w a ∧ ¬ RepeatsPause w a ∧ ¬ a.isRestart := by
    intro w a hw
    refine ⟨?_, ?_, ?_⟩
    · rintro ⟨rfl, hp, -⟩
      exact of_decide_eq_true hw hp
    · rintro ⟨rfl, hp, -⟩
      exact of_decide_eq_true hw hp
    · intro hr
      cases a with
      | restart => cases hw
      | _ => cases hr
  have hrun : ((exec step oneSent (.boot .provisional .quiet .fresh [])).any fun w =>
      (step w (.deliverSent (.error denied))).any fun w₁ =>
        (execIn step unpaused [.deliverRun, .environment { Env.quiet with monotonic := 10 } [],
          .persistWake, .persistRun, .persistDrain, .persistRound] w₁).any fun w₂ =>
          decide (w₂.shared.state ≠ .stopping ∧ w₂.shared.state ≠ .stopped ∧
            w₂.shared.state ≠ .failed)) = true := by
    decide +kernel
  obtain ⟨w, hw, hrun⟩ := (Option.any_eq_true _ _).mp hrun
  obtain ⟨w₁, hw₁, hrun⟩ := (Option.any_eq_true _ _).mp hrun
  obtain ⟨w₂, hw₂, hend⟩ := (Option.any_eq_true _ _).mp hrun
  refine ⟨w, w₁, w₂, hw, hw₁, exec_of_execIn hw₂, ?_⟩
  exact auth_reported _ _ _ _ w w₁ w₂ _ (.of_exec hw) ⟨denied, rfl, .inr rfl⟩ nofun hw₁
    (.of_execIn hunpaused hw₂) (of_decide_eq_true hend)

/-- **Rejected credentials are not always reported**: the gate blocks without a reason. -/
theorem auth_unreported : ¬ ∀ (config : Config) (env : Env) (db : Database) (history : List Obs)
    (w w₁ w₂ : World) (a : Action),
      Steps step (fun _ _ => True) (.boot config env db history) w → RaisesAuth a →
      step w a = some w₁ → Steps step (fun v b => ¬ OpensPause v b ∧ ¬ b.isRestart) w₁ w₂ →
      w₂.shared.state ≠ .stopping ∧ w₂.shared.state ≠ .stopped ∧ w₂.shared.state ≠ .failed →
      w₂.shared.state = .blocked ∧ w₂.shared.blockReason = some .auth := by
  intro h
  have hrun : ((exec step gatedStart (.boot gatedProfile .quiet .fresh [])).any fun w =>
      (step w (.deliverEnsured (.error denied))).any fun w₁ =>
        decide (w₁.shared.state = .blocked ∧ w₁.shared.blockReason = none)) = true := by
    decide +kernel
  obtain ⟨w, hw, hrun⟩ := (Option.any_eq_true _ _).mp hrun
  obtain ⟨w₁, hw₁, hend⟩ := (Option.any_eq_true _ _).mp hrun
  obtain ⟨hst, hreason⟩ := of_decide_eq_true hend
  have hauth := (h _ _ _ _ w w₁ w₁ _ (.of_exec hw) ⟨denied, rfl, .inl rfl⟩ hw₁ .refl
    (by simp [hst])).2
  cases hreason.symm.trans hauth

end World

end QuestDbWriter
