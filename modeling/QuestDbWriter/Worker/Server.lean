import QuestDbWriter.Worker.Uncertain
import QuestDbWriter.Worker.SingleDelivery
import QuestDbWriter.Worker.Genuine
import QuestDbWriter.Ilp.Decodable
import QuestDbWriter.Lib.Redelivery

/-!
# The table on the server

What the requests leave in the table, whose upsert keys make a retried delivery a no-op. The server
reads the bytes of a batch as line protocol (`Reads`); a request in flight may write any of its rows
at any time, and one that returns has written them all (`Answers`). The service and its server
(`Served`) are simulated by a queue in front of an upserting table (`Served.simulates`), which gives
`served_once`: whatever is retried, lost or interrupted, a key of no pending and no dead row shows
what one write of each delivered row, in order, would have left.
-/

namespace QuestDbWriter

open Lib Ilp

/-! ## Rows of the table -/

/-- `EventEnvelope.to_ilp`, as a call of `encode_row`. -/
def EventEnvelope.ilpRow (e : EventEnvelope) (table : PyStr) : IlpRow Empty where
  table
  symbols :=
    [(py "entity_id", some e.fields.entityId), (py "domain", some (domainOf e.fields.entityId))]
  fields :=
    [(py "event_id", .str e.fields.eventId), (py "state", .str e.fields.state),
      (py "attributes", .str e.fields.attributesJson),
      (py "ingested_at", .timestamp (e.fields.ingestedAtNs / 1000)),
      (py "last_changed", .timestamp (e.fields.lastChangedNs / 1000)),
      (py "context_id", textOrNone e.fields.contextId)]
  timestampNs := e.fields.lastUpdatedNs

/-- An event is sent as its row. -/
theorem EventEnvelope.toIlp_eq (e : EventEnvelope) (table : PyStr) :
    e.toIlp table = (e.ilpRow table).encode := rfl

/-- What the stored payload of a row says. -/
def RowIdentity.content (table : PyStr) (row : RowIdentity) : Option (IlpContent Empty) :=
  (EventEnvelope.fromBytes row.payload).toOption.map fun e => (e.ilpRow table).content

/-- What rows say, without those that cannot be decoded. -/
def contents (table : PyStr) (rows : List RowIdentity) : List (IlpContent Empty) :=
  rows.filterMap (RowIdentity.content table)

section
variable {table : PyStr} {rows more : List RowIdentity} {row : RowIdentity}

/-- No row has content. -/
@[simp] theorem contents_nil : contents table [] = [] := rfl

/-- Content row by row. -/
@[simp] theorem contents_append :
    contents table (rows ++ more) = contents table rows ++ contents table more :=
  List.filterMap_append

/-- A content belongs to one of the rows. -/
theorem mem_contents {c : IlpContent Empty} :
    c ∈ contents table rows ↔ ∃ row ∈ rows, row.content table = some c :=
  List.mem_filterMap

/-- More rows have the content of fewer. -/
theorem contents_subset (h : rows ⊆ more) : contents table rows ⊆ contents table more := by
  intro c hc
  obtain ⟨row, hrow, hsay⟩ := mem_contents.mp hc
  exact mem_contents.mpr ⟨row, h hrow, hsay⟩

/-- A row that can be encoded says something, and is written as its text. -/
theorem content_of_encodes {bytes : Bytes}
    (h : World.encodePayload table row.payload = .ok bytes) :
    ∃ c text, row.content table = some c ∧ RowText c text ∧ Utf8.encode text = some bytes := by
  obtain ⟨e, he, hrow⟩ := bind_ok.mp h
  rw [EventEnvelope.toIlp_eq] at hrow
  obtain ⟨text, htext, hbytes⟩ := IlpRow.encode_ok hrow
  refine ⟨_, text, ?_, htext, hbytes⟩
  rw [RowIdentity.content, he]
  rfl

/-! ## What the server reads -/

/-- The bytes are the lines of these rows. -/
def Reads (payload : Bytes) (cs : List (IlpContent Empty)) : Prop :=
  ∃ texts, List.Forall₂ RowText cs texts ∧ Utf8.encode texts.flatten = some payload

/-- There is no float in an event's row. -/
theorem lawfulRepr_empty : LawfulRepr Empty where
  injective x := x.elim
  chars x := x.elim

/-- The server reads nothing else. -/
theorem Reads.unique {payload : Bytes} {cs cs' : List (IlpContent Empty)} (h : Reads payload cs)
    (h' : Reads payload cs') : cs = cs' := by
  obtain ⟨texts, htexts, hbytes⟩ := h
  obtain ⟨texts', htexts', hbytes'⟩ := h'
  exact rowTexts_cancel lawfulRepr_empty htexts htexts' (Utf8.encode_injective hbytes hbytes')

/-- **A batch is read as its rows.** -/
theorem IsBatch.reads {payload : Bytes} (h : IsBatch table rows payload) :
    Reads payload (contents table rows) := by
  obtain ⟨encoded, hrows, rfl⟩ := h
  induction hrows with
  | nil => exact ⟨[], .nil, rfl⟩
  | @cons row bytes rows encoded hrow _ ih =>
    obtain ⟨c, text, hsay, htext, hbytes⟩ := content_of_encodes hrow
    obtain ⟨texts, htexts, hrest⟩ := ih
    have hcons : contents table (row :: rows) = c :: contents table rows := by
      simp [contents, hsay]
    rw [hcons]
    exact ⟨text :: texts, .cons htext htexts, Utf8.encode_append hbytes hrest⟩

end

/-! ## The queue that a history tells of -/

/-- The rows that are pending, delivered and moved, by a history, and what the table was given. -/
def redeliveryOf (table : PyStr) (history : List Obs) (log : List (IlpContent Empty)) :
    Redelivery (IlpContent Empty) where
  queued := contents table ((committedRows history).drop (removedRows history).length)
  acknowledged := contents table (deliveredRows history)
  buried := contents table (movedRows history)
  log

/-- Rows are removed in the order they were committed. -/
theorem removed_front {history : List Obs} (h : Chronicle Justified history) :
    removedRows history <+: committedRows history := by
  induction h with
  | nil => exact List.prefix_refl _
  | @snoc history o h hj ih =>
    rw [removedRows_snoc, committedRows_snoc]
    cases o with
    | enqueued events rows =>
      rw [List.append_nil]
      exact ih.trans (List.prefix_append _ _)
    | delivered rows uncertain =>
      obtain ⟨rest, hrest⟩ := hj.2.1
      exact ⟨rest, by rw [hrest, List.append_nil, List.append_assoc]⟩
    | moved row evicted =>
      obtain ⟨rest, hrest⟩ := hj.1
      exact ⟨rest, by rw [hrest, List.append_nil, List.append_assoc]; rfl⟩
    | _ => simpa only [List.append_nil] using ih

/-- Not a committed `mark_delivered`. -/
def Obs.Undelivers : Obs → Prop
  | .delivered _ _ => False
  | _ => True

/-- An observation without a delivery removes nothing. -/
theorem Obs.IsOf.undelivers {o : Obs} (h : o.IsOf False) : o.Undelivers := by
  cases o <;> first | exact h | trivial

section
variable {table : PyStr} {before history : List Obs} {log : List (IlpContent Empty)} {o : Obs}

/-- An observation that delivers nothing is a step of the queue, or none. -/
theorem reaches_snoc (hp : removedRows before <+: committedRows before) (hj : Justified before o)
    (ho : o.Undelivers) :
    (redeliveryOf table before log).Reaches (redeliveryOf table (before ++ [o]) log) := by
  unfold redeliveryOf
  rw [committedRows_snoc, removedRows_snoc, deliveredRows_snoc, movedRows_snoc]
  cases o with
  | delivered rows uncertain => exact ho.elim
  | enqueued events rows =>
    have hstep := Redelivery.Step.enqueue (redeliveryOf table before log) (contents table rows)
    rw [List.append_nil, List.append_nil, List.append_nil,
      List.drop_append_of_le_length hp.length_le, contents_append]
    exact .single hstep
  | moved row evicted =>
    obtain ⟨rest, hrest⟩ := hj.1
    have hqueued : (redeliveryOf table before log).queued = contents table (row :: rest) := by
      rw [redeliveryOf, hrest, List.drop_left]
    rw [List.append_nil, List.append_nil, List.length_append, List.length_singleton,
      ← List.drop_drop, hrest, List.drop_left, contents_append]
    cases hsay : row.content table with
    | none =>
      have hskip : contents table (row :: rest) = contents table rest := by
        simp [contents, hsay]
      have hnone : contents table [row] = [] := by simp [contents, hsay]
      rw [hnone, List.append_nil, hskip]
      exact .refl
    | some c =>
      have hcons : contents table (row :: rest) = c :: contents table rest := by
        simp [contents, hsay]
      have hone : contents table [row] = [c] := by simp [contents, hsay]
      rw [hone, hcons]
      have hstep := Redelivery.Step.bury (redeliveryOf table before log) c (contents table rest)
        (hqueued.trans hcons)
      rw [redeliveryOf, hrest, List.drop_left, hcons] at hstep
      exact .single hstep
  | _ =>
    simp only [List.append_nil]
    exact .refl

/-- A run of observations that deliver nothing. -/
theorem reaches_append (hb : Chronicle Justified before) (hc : Chronicle Justified history)
    {obs : List Obs} (hobs : history = before ++ obs) (ho : ∀ o ∈ obs, o.Undelivers) :
    (redeliveryOf table before log).Reaches (redeliveryOf table history log) := by
  induction obs generalizing before with
  | nil =>
    rw [List.append_nil] at hobs
    rw [hobs]
  | cons o obs ih =>
    have hj : Justified before o := hc.rests hobs
    have hnext : history = (before ++ [o]) ++ obs := by rw [hobs, List.append_assoc]; rfl
    have hfirst : (redeliveryOf table before log).Reaches
        (redeliveryOf table (before ++ [o]) log) :=
      reaches_snoc (removed_front hb) hj (ho o (List.mem_cons_self ..))
    exact hfirst.trans (ih (.snoc o hb hj) hnext fun p hp => ho p (List.mem_cons_of_mem _ hp))

/-- A committed `mark_delivered` acknowledges its rows. -/
theorem reaches_delivered {rows : List RowIdentity} {uncertain : List Int}
    (hj : Justified before (.delivered rows uncertain)) :
    (redeliveryOf table before log).Reaches
      (redeliveryOf table (before ++ [.delivered rows uncertain])
        (log ++ contents table rows)) := by
  obtain ⟨rest, hrest⟩ := hj.2.1
  have hqueued : (redeliveryOf table before log).queued =
      contents table rows ++ contents table rest := by
    rw [redeliveryOf, hrest, List.drop_left, contents_append]
  have hstep := Redelivery.Step.acknowledge (redeliveryOf table before log) _ _ hqueued
  unfold redeliveryOf at hstep ⊢
  rw [committedRows_snoc, removedRows_snoc, deliveredRows_snoc, movedRows_snoc, List.append_nil,
    List.append_nil, List.length_append, ← List.drop_drop, contents_append]
  rw [hrest, List.drop_left] at hstep ⊢
  rw [List.drop_left]
  exact .single hstep

end

/-! ## The service and its server -/

/-- The service, and what the server has written to its table, in order. -/
structure Served where
  world : World
  log : List (IlpContent Empty)

/-- A step of the service, and what the server writes meanwhile. -/
structure ServedAction where
  action : Action
  written : List (IlpContent Empty)

namespace Served

open World (Outstanding FlushesAlone Single Bookkept Batched Books)

/-- A step of the service; the log of the table gets what is written. -/
def step (s : Served) (a : ServedAction) : Option Served :=
  (QuestDbWriter.step s.world a.action).map fun world => { world, log := s.log ++ a.written }

/-- The step is the return of the `send_batch` of the batch. -/
def Acknowledges (w : World) (a : Action) (built : BuiltBatch) : Prop :=
  a = .deliverSent .ok ∧ w.deliver = .sending built ∨
    a = .flushSent .ok ∧ w.main = .flushSending built

/-- A request that returns has been written; otherwise the server writes rows of requests that are
in flight, whatever becomes of them. -/
def Answers (w : World) (a : Action) (written : List (IlpContent Empty)) : Prop :=
  (∃ built, Acknowledges w a built ∧ Reads built.payload written) ∨
    (∀ built, ¬ Acknowledges w a built) ∧ ∀ c ∈ written, ∃ built cs,
      Outstanding w built ∧ Reads built.payload cs ∧ c ∈ cs

/-- The table stays the same over restarts. -/
def KeepsTable (w : World) (a : Action) : Prop :=
  ∀ config env, a = .restart config env → config.table = w.config.table

/-- The shutdown flush is alone, the table stays the same, and the server does what it answers. -/
def Lawful (s : Served) (a : ServedAction) : Prop :=
  FlushesAlone s.world a.action ∧ KeepsTable s.world a.action ∧
    Answers s.world a.action a.written

/-- A new service on an empty spool file, and an empty table. -/
def fresh (config : Config) (env : Env) : Served where
  world := .boot config env Database.fresh []
  log := []

/-- What the state says of the queue and of the table. -/
def redelivery (s : Served) : Redelivery (IlpContent Empty) :=
  redeliveryOf s.world.config.table.name s.world.history s.log

/-! ## The simulation -/

section
variable {w w' : World} {a : Action} {built : BuiltBatch} {result : SendResult}
  {log written : List (IlpContent Empty)}

/-- The queue is what is pending. -/
theorem queued_eq (hb : Books w) (log : List (IlpContent Empty)) :
    (redeliveryOf w.config.table.name w.history log).queued =
      contents w.config.table.name (w.spool.db.pending.map SpoolRecord.identity) := by
  rw [redeliveryOf, hb.fifo, List.drop_left]

/-- A request in flight is of rows that are pending. -/
theorem reads_queued (log : List (IlpContent Empty)) (hb : Bookkept w) (h : Single w)
    (hout : Outstanding w built) {cs : List (IlpContent Empty)} (hcs : Reads built.payload cs) :
    cs = contents w.config.table.name (World.rowsOf w.spool.db built.sequences) ∧
      ∀ c ∈ cs, c ∈ (redeliveryOf w.config.table.name w.history log).queued := by
  have hbatched : Batched w built := hout.elim (hb.sending built) (hb.flushing built)
  obtain ⟨-, hbatch⟩ := hbatched.rowsOf hb.books (h.present built hout)
  have hread := hcs.unique hbatch.reads
  refine ⟨hread, fun c hc => ?_⟩
  rw [queued_eq hb.books]
  rw [hread] at hc
  refine contents_subset (fun row hrow => ?_) hc
  obtain ⟨r, hr, rfl⟩ := List.mem_map.mp hrow
  exact List.mem_map_of_mem (List.mem_filter.mp hr).1

/-- What the server writes is queued. -/
theorem Answers.queued (log : List (IlpContent Empty)) (hb : Bookkept w) (h : Single w)
    (ha : Answers w a written) :
    ∀ c ∈ written, c ∈ (redeliveryOf w.config.table.name w.history log).queued := by
  rcases ha with ⟨built, hack, hread⟩ | ⟨-, hwritten⟩
  · have hout : Outstanding w built := hack.imp And.right And.right
    exact (reads_queued log hb h hout hread).2
  · intro c hc
    obtain ⟨built, cs, hout, hread, hmem⟩ := hwritten c hc
    exact (reads_queued log hb h hout hread).2 c hmem

/-- A request that returns has been written. -/
theorem Answers.acknowledged (ha : Answers w a written) (hack : Acknowledges w a built) :
    Reads built.payload written := by
  rcases ha with ⟨sent, hsent, hread⟩ | ⟨hnone, -⟩
  · have hsame : sent = built := by
      rcases hack with ⟨rfl, hd⟩ | ⟨rfl, hm⟩
      · rcases hsent with ⟨-, hd'⟩ | ⟨hne, -⟩
        · cases hd'.symm.trans hd
          rfl
        · cases hne
      · rcases hsent with ⟨hne, -⟩ | ⟨-, hm'⟩
        · cases hne
        · cases hm'.symm.trans hm
          rfl
    exact hsame ▸ hread
  · exact absurd hack (hnone built)

/-- The server takes what is queued. -/
theorem reaches_write {table : PyStr} {history : List Obs}
    (h : ∀ c ∈ written, c ∈ (redeliveryOf table history log).queued) :
    (redeliveryOf table history log).Reaches (redeliveryOf table history (log ++ written)) :=
  .single (.write (redeliveryOf table history log) written h)

/-- The end of a `send_batch`: if it returns and its rows are removed, they are acknowledged. -/
theorem reaches_sent (hb : Bookkept w) (h : Single w) (hb' : Books w')
    (hout : Outstanding w built) (he : World.Ended w built result w')
    (hanswer : result = .ok → Reads built.payload written)
    (hqueued : ∀ c ∈ written, c ∈ (redeliveryOf w.config.table.name w.history log).queued) :
    (redeliveryOf w.config.table.name w.history log).Reaches
      (redeliveryOf w.config.table.name w'.history (log ++ written)) := by
  obtain ⟨obs, more, hobs, hmore, hcase⟩ := he.history
  have hchronicle := hb'.chronicle
  rcases hcase with rfl | ⟨rfl, -⟩
  · -- the rows are still pending
    rw [List.append_nil, List.append_assoc] at hobs
    refine (reaches_write hqueued).trans (reaches_append hb.books.chronicle hchronicle hobs ?_)
    intro o ho
    rcases List.mem_append.mp ho with ho | ho
    · cases List.mem_singleton.mp ho
      trivial
    · exact (hmore o ho).undelivers
  · have hsent : Chronicle Justified (w.history ++ [.sent built result]) :=
      .snoc _ hb.books.chronicle trivial
    have hj : Justified (w.history ++ [.sent built result]) (.delivered
        (World.rowsOf w.spool.db built.sequences) built.uncertainSequences) :=
      hchronicle.rests (by rw [hobs, List.append_assoc]; rfl)
    have hok : result = .ok := by
      obtain ⟨-, -, sent, hlast, -⟩ := hj
      rw [List.getLast?_concat] at hlast
      cases hlast
      rfl
    obtain ⟨rfl, -⟩ := reads_queued log hb h hout (hanswer hok)
    have hsend : (redeliveryOf w.config.table.name w.history log).Reaches
        (redeliveryOf w.config.table.name (w.history ++ [.sent built result]) log) :=
      reaches_snoc (removed_front hb.books.chronicle) trivial trivial
    exact (hsend.trans (reaches_delivered hj)).trans
      (reaches_append (.snoc _ hsent hj) hchronicle hobs fun o ho => (hmore o ho).undelivers)

/-- **The service and its server are a queue in front of an upserting table.** -/
theorem simulates {s s' : Served} {a : ServedAction} (hb : Bookkept s.world) (h : Single s.world)
    (hl : s.Lawful a) (hs : s.step a = some s') :
    s'.world.config.table.name = s.world.config.table.name ∧
      s.redelivery.Reaches s'.redelivery := by
  obtain ⟨hflush, htable, hanswers⟩ := hl
  obtain ⟨w', hw, rfl⟩ := Option.map_eq_some_iff.mp hs
  have hqueued := Answers.queued s.log hb h hanswers
  have hb' := hb.step hw
  have ht := Taken.of_step hw
  have hname : w'.config.table.name = s.world.config.table.name := by
    by_cases hr : a.action.isRestart
    · generalize a.action = act at ht hr htable
      cases ht with
      | restart config env => exact congrArg Table.name (htable config env rfl)
      | _ => cases hr
    · rw [(hb.carries ht hr).keeps.config]
  refine ⟨hname, ?_⟩
  unfold redelivery
  dsimp only
  rw [hname]
  by_cases hr : a.action.isRestart
  · have hrestart : w'.history = s.world.history ++ [.started w'.config.table.name
        s.world.spool.db.pending.length s.world.spool.db.deadLetter.length] := by
      generalize a.action = act at ht hr
      cases ht with
      | restart config env => rfl
      | _ => cases hr
    refine (reaches_write hqueued).trans
      (reaches_append hb.books.chronicle hb'.books.chronicle hrestart ?_)
    intro o ho
    cases List.mem_singleton.mp ho
    trivial
  · by_cases hsent : a.action.IsSent
    · obtain ⟨action, written⟩ := a
      dsimp only at hanswers hqueued ht hsent
      cases ht with
      | deliverSent built result hbusy hd =>
        have hactive := World.tasksRun_active (hb.placed.delivering (hd ▸ trivial))
        have ho := hb.opened (hb.placed.looping hactive ▸ trivial)
        have hended : World.Ended s.world built result (s.world.deliverSent built result) :=
          World.deliverSent_ended hb.books ho
        refine reaches_sent hb h hb'.books (.inl hd) hended ?_ hqueued
        rintro rfl
        exact hanswers.acknowledged (.inl ⟨rfl, hd⟩)
      | flushSent built result hm =>
        have ho := hb.opened (hb.placed.looping (hm ▸ trivial) ▸ trivial)
        have hended : World.Ended s.world built result (s.world.flushSent built result) :=
          (World.flushSent_ended hb.books ho).1
        refine reaches_sent hb h hb'.books (.inr hm) hended ?_ hqueued
        rintro rfl
        exact hanswers.acknowledged (.inr ⟨rfl, hm⟩)
      | _ => exact hsent.elim
    · have hfalse : a.action.IsSent = False := eq_false hsent
      have hc : World.Carries False s.world w' := hfalse ▸ hb.carries ht hr
      obtain ⟨obs, hobs, hof⟩ := hc.keeps.history
      refine (reaches_write hqueued).trans
        (reaches_append hb.books.chronicle hb'.books.chronicle hobs fun o ho => ?_)
      exact (hof o ho).undelivers

end

/-! ## Runs -/

/-- The books, the delivery and the table of every run. -/
theorem of_steps {config : Config} {env : Env} {s : Served}
    (hrun : Steps step Lawful (fresh config env) s) :
    (Bookkept s.world ∧ Single s.world) ∧ World.Genuine s.world ∧
      s.world.config.table.name = config.table.name ∧ s.redelivery.Sound := by
  refine hrun.invariant (I := fun s => (Bookkept s.world ∧ Single s.world) ∧
    World.Genuine s.world ∧ s.world.config.table.name = config.table.name ∧ s.redelivery.Sound)
    ⟨⟨.of_books (.fresh config env), .boot ..⟩, .fresh config env, rfl, .empty []⟩ ?_
  rintro u a v ⟨⟨hb, hsingle⟩, hg, hname, hsound⟩ hl hs
  obtain ⟨hsame, hreaches⟩ := simulates hb hsingle hl hs
  obtain ⟨w', hw, rfl⟩ := Option.map_eq_some_iff.mp hs
  exact ⟨⟨hb.step hw, hsingle.step hb hl.1 hw⟩, hg.step hb hw, hsame.trans hname,
    hsound.of_reaches hreaches⟩

/-- What is removed and not moved is delivered. -/
theorem removed_eq_delivered {history : List Obs} (h : movedRows history = []) :
    removedRows history = deliveredRows history := by
  induction history using List.reverseRecOn with
  | nil => rfl
  | append_singleton history o ih =>
    rw [movedRows_snoc, List.append_eq_nil_iff] at h
    rw [removedRows_snoc, deliveredRows_snoc, ih h.1]
    cases o with
    | moved row evicted => cases h.2
    | _ => rfl

/-- The row of an event says what the event says. -/
theorem content_of_event {event : EventEnvelope} {row : RowIdentity}
    (h : event.toSpoolEvent = .ok row.event) (table : PyStr) :
    row.content table = some (event.ilpRow table).content := by
  obtain ⟨payload, hpayload, hevent⟩ := bind_ok.mp h
  have hsame : row.payload = payload :=
    (congrArg NewSpoolEvent.payload (Except.ok.inj hevent)).symm
  rw [RowIdentity.content, hsame, EventEnvelope.fromBytes_toBytes hpayload]
  rfl

/-- There is a server for every run, also one that writes every request that it gets. -/
theorem exists_served {config : Config} {env : Env} {w : World}
    (hrun : Steps QuestDbWriter.step (fun w a => FlushesAlone w a ∧ KeepsTable w a)
      (.boot config env Database.fresh []) w) :
    ∃ log, Steps step Lawful (fresh config env) ⟨w, log⟩ := by
  induction hrun with
  | refl => exact ⟨[], .refl⟩
  | @tail u v a hrun hg hs ih =>
    obtain ⟨log, hserved⟩ := ih
    obtain ⟨⟨hb, hsingle⟩, -⟩ := of_steps hserved
    have hread : ∀ built, Outstanding u built → ∃ cs, Reads built.payload cs := fun built hout =>
      ⟨_, ((hout.elim (hb.sending built) (hb.flushing built)).rowsOf hb.books
        (hsingle.present built hout)).2.reads⟩
    have hanswers : ∃ written, Answers u a written := by
      by_cases hack : ∃ built, Acknowledges u a built
      · obtain ⟨built, hack⟩ := hack
        obtain ⟨cs, hcs⟩ := hread built (hack.imp And.right And.right)
        exact ⟨cs, .inl ⟨built, hack, hcs⟩⟩
      · by_cases hout : ∃ built, Outstanding u built
        · obtain ⟨built, hout⟩ := hout
          obtain ⟨cs, hcs⟩ := hread built hout
          exact ⟨cs, .inr ⟨fun b hb => hack ⟨b, hb⟩, fun c hc => ⟨built, cs, hout, hcs, hc⟩⟩⟩
        · exact ⟨[], .inr ⟨fun b hb => hack ⟨b, hb⟩, fun c hc => absurd hc List.not_mem_nil⟩⟩
    obtain ⟨written, hanswers⟩ := hanswers
    refine ⟨log ++ written, .tail ⟨a, written⟩ hserved ⟨hg.1, hg.2, hanswers⟩ ?_⟩
    rw [step, hs]
    rfl

/-- **Delivery is effectively once.** In every run in which the shutdown flush is alone, whatever
fails, is retried, is interrupted or restarted, and whatever part of a request that does not return
the server has written: the table has been given nothing but rows of committed events; every
delivered row, in order; and it shows, for each key that no pending and no moved row has, what one
write of the delivered rows in their order would show. So once the spool has drained, and if no row
was moved, it shows what one write of every committed row would show. -/
theorem served_once {κ : Type} [DecidableEq κ] (key : IlpContent Empty → κ) (config : Config)
    (env : Env) (s : Served) (hrun : Steps step Lawful (fresh config env) s) :
    (∀ row ∈ committedRows s.world.history, ∃ event : EventEnvelope,
      event.toSpoolEvent = .ok row.event ∧
        row.content config.table.name = some (event.ilpRow config.table.name).content) ∧
    (∀ c ∈ s.log, ∃ row ∈ committedRows s.world.history,
      row.content config.table.name = some c) ∧
    (contents config.table.name (deliveredRows s.world.history)).Sublist s.log ∧
    (∀ k, (∀ row ∈ s.world.spool.db.pending.map SpoolRecord.identity ++
          movedRows s.world.history,
        ∀ c, row.content config.table.name = some c → key c ≠ k) →
      latest key s.log k =
        latest key (contents config.table.name (deliveredRows s.world.history)) k) ∧
    (s.world.spool.db.pending = [] → movedRows s.world.history = [] → ∀ k,
      latest key s.log k =
        latest key (contents config.table.name (committedRows s.world.history)) k) := by
  obtain ⟨⟨hb, -⟩, hgenuine, hname, hsound⟩ := of_steps hrun
  have hfifo := hb.books.fifo
  have hremoved := removedRows_perm s.world.history
  have hqueued : s.redelivery.queued =
      contents config.table.name (s.world.spool.db.pending.map SpoolRecord.identity) := by
    rw [← hname]
    exact queued_eq hb.books s.log
  have hacknowledged : s.redelivery.acknowledged =
      contents config.table.name (deliveredRows s.world.history) := by rw [← hname]; rfl
  have hburied : s.redelivery.buried =
      contents config.table.name (movedRows s.world.history) := by rw [← hname]; rfl
  have hsettled : ∀ k, (∀ row ∈ s.world.spool.db.pending.map SpoolRecord.identity ++
        movedRows s.world.history,
      ∀ c, row.content config.table.name = some c → key c ≠ k) →
      latest key s.log k =
        latest key (contents config.table.name (deliveredRows s.world.history)) k := by
    intro k hk
    rw [← hacknowledged]
    refine hsound.settled key k fun c hc => ?_
    rw [hqueued, hburied] at hc
    rcases hc with hc | hc
    · obtain ⟨row, hrow, hsay⟩ := mem_contents.mp hc
      exact hk row (List.mem_append_left _ hrow) c hsay
    · obtain ⟨row, hrow, hsay⟩ := mem_contents.mp hc
      exact hk row (List.mem_append_right _ hrow) c hsay
  refine ⟨fun row hrow => ?_, fun c hc => ?_, ?_, hsettled, fun hpending hmoved k => ?_⟩
  · obtain ⟨event, hevent⟩ := hgenuine.committed row hrow
    exact ⟨event, hevent, content_of_event hevent _⟩
  · have hcommitted : ∀ row, row ∈ deliveredRows s.world.history ++ movedRows s.world.history →
        row ∈ committedRows s.world.history := fun row hrow =>
      hfifo ▸ List.mem_append_left _ (hremoved.symm.subset hrow)
    rcases hsound.given c hc with hc | hc | hc
    · obtain ⟨row, hrow, hsay⟩ := mem_contents.mp (hacknowledged ▸ hc)
      exact ⟨row, hcommitted row (List.mem_append_left _ hrow), hsay⟩
    · obtain ⟨row, hrow, hsay⟩ := mem_contents.mp (hburied ▸ hc)
      exact ⟨row, hcommitted row (List.mem_append_right _ hrow), hsay⟩
    · obtain ⟨row, hrow, hsay⟩ := mem_contents.mp (hqueued ▸ hc)
      exact ⟨row, hfifo ▸ List.mem_append_right _ hrow, hsay⟩
  · rw [← hacknowledged]
    exact hsound.written
  · rw [hfifo, hpending, List.map_nil, List.append_nil, removed_eq_delivered hmoved]
    refine hsettled k fun row hrow => ?_
    rw [hpending, hmoved] at hrow
    cases hrow

/-- The upsert keys of the table: the time of a row, and its entity. -/
def upsertKey (c : IlpContent Empty) : Int × Option PyStr :=
  (c.timestampNs, c.symbols.lookup (py "entity_id"))

/-- The check of `FlushesAlone`, in one process. -/
def isUninterrupted (w : World) (a : Action) : Bool := World.isFlushedAlone w a && !a.isRestart

/-- The check of an action is its condition. -/
theorem uninterrupted_of (w : World) (a : Action) (h : isUninterrupted w a = true) :
    FlushesAlone w a ∧ KeepsTable w a := by
  obtain ⟨hflush, hrestart⟩ := (Bool.and_eq_true _ _).mp h
  refine ⟨World.flushesAlone_of w a hflush, ?_⟩
  rintro config env rfl
  cases hrestart

/-- The response to the first request is lost, and the row is sent again. -/
theorem sentAgain_once : ∃ s : Served, Steps step Lawful (fresh .provisional .quiet) s ∧
    (deliveredRows s.world.history).length = 1 ∧ ∀ k, latest upsertKey s.log k =
      latest upsertKey (contents Config.provisional.table.name
        (committedRows s.world.history)) k := by
  have hrun : ((execIn QuestDbWriter.step isUninterrupted World.sentAgain
      (.boot .provisional .quiet .fresh [])).any fun w =>
      decide ((deliveredRows w.history).length = 1 ∧ w.spool.db.pending.length = 0 ∧
        (movedRows w.history).length = 0)) = true := by
    decide +kernel
  obtain ⟨w, hw, hend⟩ := (Option.any_eq_true _ _).mp hrun
  obtain ⟨hdelivered, hpending, hmoved⟩ := of_decide_eq_true hend
  obtain ⟨log, hserved⟩ := exists_served (.of_execIn uninterrupted_of (Option.mem_def.mp hw))
  refine ⟨⟨w, log⟩, hserved, hdelivered, ?_⟩
  exact (served_once upsertKey .provisional .quiet ⟨w, log⟩ hserved).2.2.2.2
    (List.eq_nil_of_length_eq_zero hpending) (List.eq_nil_of_length_eq_zero hmoved)

end Served

end QuestDbWriter
