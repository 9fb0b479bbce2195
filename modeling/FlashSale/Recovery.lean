import FlashSale.Orders
/-!
# Recovery

From any state of a run, whatever failed before: the workers are started
again, and from then on nothing fails. The calls that were under way end, the
broker takes what is in the write buffers, one fresh worker empties the queue a
message at a time, and what it dead-letters Postgres has no unit for. A call that
waits for the `drain` of a connection has published, and is not under way here.
-/

namespace FlashSale
open Lib.Runs

/-! ## Nothing fails any more -/

section
variable {β : Type}

def DeploymentAction.isLoss : DeploymentAction β → Bool
  | .lose _ => true
  | _ => false

/-- A step of a call under way or of a worker, with the broker and Postgres
there. The api's clock says `now` and Postgres's `dbNow`. -/
def DeploymentAction.isCalm (now dbNow : Int) : DeploymentAction β → Bool
  | .act (.publish _ queued) => queued
  | .act (.lookup _ pgUp now') => pgUp && now' = now
  | .act (.write _ dbNow' fate) => fate = .runs && dbNow' = dbNow
  | .act _ => false
  | .write _ fate => fate = .runs
  | .discard _ | .work _ .stop | .lose _ | .stray .. => false
  | .take _ | .connect | .deliver _ | .work .. | .settle .. => true

end

/-- Postgres cannot take the message's purchase, now or later. -/
def Db.Unsellable (db : Db) (m : PurchaseWriteEntry) : Prop :=
  db.sale (.ofText m.saleId) = none ∨ outsideSalePeriod db m.row = true ∨
    ∃ s, db.sale (.ofText m.saleId) = some s ∧ s.remainingStock = 0

theorem Db.Schema.unsellable_of_refused {db : Db} (hs : db.Schema) {m : PurchaseWriteEntry} (h : Refused db [m]) :
    db.Unsellable m := by
  rcases h with ⟨e, he, hnone⟩ | ⟨e, he, hout⟩ | ⟨s, hm, hlt⟩
  · obtain rfl := List.mem_singleton.1 he
    exact .inl (Db.sale_eq_none.2 hnone)
  · obtain rfl := List.mem_singleton.1 he
    exact .inr (.inl ((outsideSalePeriod_iff hs).2 hout))
  · right
    right
    have hleft := hs.sales_remaining_stock_check s hm
    have hpairs : ofSale (newPairs db [m]) s.id ⊆ {m.row.key} := by
      intro k hk
      have hk' := (Finset.mem_sdiff.1 (Finset.mem_filter.1 hk).1).1
      simpa [pairsOf] using hk'
    have hone := Finset.card_le_card hpairs
    rw [Finset.card_singleton] at hone
    have hzero : s.remainingStock = 0 := by omega
    -- The pair that is one too many is the message's own.
    have hpos : 0 < (ofSale (newPairs db [m]) s.id).card := by omega
    obtain ⟨k, hk⟩ := Finset.card_pos.1 hpos
    obtain rfl := Finset.mem_singleton.1 (hpairs hk)
    have hid : Uuid.ofText m.saleId = s.id := (Finset.mem_filter.1 hk).2
    exact ⟨s, by rw [hid]; exact hs.sale_of_mem hm, hzero⟩

theorem Db.Unsellable.sold {db db' : Db} {m : PurchaseWriteEntry} (h : db.Unsellable m) {new : List PgPurchase}
    (hsold : Sold db db' new) : db'.Unsellable m := by
  rcases h with hnone | hout | ⟨s, hsale, hzero⟩
  · exact .inl (by rw [hsold.sale, hnone]; rfl)
  · exact .inr (.inl (by rw [hsold.outsideSalePeriod]; exact hout))
  · refine .inr (.inr ⟨s.take (unitsOf new (.ofText m.saleId)), by rw [hsold.sale, hsale]; rfl, ?_⟩)
    have habsorbs := hsold.absorbs_sale hsale
    rw [PgSale.take_remainingStock]
    omega

/-! ## The calls end -/

section
variable {β : Type} {encode : PurchaseWriteEntry → β} {o : DrainOptions β PurchaseWriteEntry} {prefetch : Nat}
  {now dbNow : Int}

/-- Runs in which nothing fails. -/
abbrev Recovers (encode : PurchaseWriteEntry → β) (o : DrainOptions β PurchaseWriteEntry) (prefetch : Nat)
    (now dbNow : Int) (D D' : Deployment β) : Prop :=
  Steps (fun D a => D.step encode o prefetch a) (fun _ a => a.isCalm now dbNow = true) D D'

/-- The call `p`, the first of those under way, is over in `D'`. -/
structure Deployment.Ended (D : Deployment β) (p : Pending) (rest : List Pending) (D' : Deployment β) : Prop where
  pending : D'.pending = rest
  workers : D'.workers = D.workers
  dead : D'.dead = D.dead
  answers : ∃ result, D'.answers = D.answers ++ [p.answer result]

theorem Deployment.step_act {D : Deployment β} {a : Action} {S : System} (ha : a.isDrain = false)
    (h : FlashSale.step D.front a = some S) : D.step encode o prefetch (.act a) = some (D.acted encode S) := by
  simp [Deployment.step, ha, h]

/-- A lookup ends its call, or lets it go on to its write. -/
theorem stepLookup_cases (S : System) (i : Nat) (p : Pending) (pgUp : Bool) (now : Int) : ∃ caches,
    (∃ result, stepLookup S i p pgUp now = System.finish { S with caches } i p result) ∨
      stepLookup S i p pgUp now = System.goOn { S with caches } i p .record := by
  unfold stepLookup
  rcases findRowById pgUp S.db (S.caches p.replica) p.saleId with ⟨_ | _ | row, cache⟩
  · exact ⟨_, .inl ⟨_, rfl⟩⟩
  · exact ⟨_, .inl ⟨_, rfl⟩⟩
  · dsimp only
    split
    · exact ⟨_, .inr rfl⟩
    · exact ⟨_, .inl ⟨_, rfl⟩⟩

/-- A call that is to write its row does, or is told why not. -/
theorem Deployment.write_ends {D : Deployment β} {p : Pending} {rest : List Pending} (hp : D.pending = p :: rest)
    (hstage : p.stage = .write ∨ p.stage = .record) :
    ∃ D', Recovers encode o prefetch now dbNow D D' ∧ D.Ended p rest D' := by
  have hstep : FlashSale.step D.front (.write 0 dbNow .runs) = some (stepWrite D.front 0 p dbNow .runs) := by
    simp [FlashSale.step, Deployment.front, hp, hstage]
  refine ⟨D.acted encode (stepWrite D.front 0 p dbNow .runs), ?_, ?_, rfl, rfl, _, rfl⟩
  · exact .tail (.act (.write 0 dbNow .runs)) .refl (by simp [DeploymentAction.isCalm]) (step_act rfl hstep)
  · simp [Deployment.acted, stepWrite, System.finish, Deployment.front, hp]

/-- The first of the calls under way ends. -/
theorem Deployment.call_ends {D : Deployment β} {p : Pending} {rest : List Pending} (hp : D.pending = p :: rest) :
    ∃ D', Recovers encode o prefetch now dbNow D D' ∧ D.Ended p rest D' := by
  cases hstage : p.stage with
  | publish =>
    have hstep : FlashSale.step D.front (.publish 0 true) = some (stepPublish D.front 0 p true) := by
      simp [FlashSale.step, Deployment.front, hp, hstage]
    refine ⟨D.acted encode (stepPublish D.front 0 p true), ?_, ?_, rfl, rfl, _, rfl⟩
    · exact .tail (.act (.publish 0 true)) .refl rfl (step_act rfl hstep)
    · simp [Deployment.acted, stepPublish, System.finish, Deployment.front, hp]
  | write => exact Deployment.write_ends hp (.inl hstage)
  | record => exact Deployment.write_ends hp (.inr hstage)
  | lookup =>
    have hstep : FlashSale.step D.front (.lookup 0 true now) = some (stepLookup D.front 0 p true now) := by
      simp [FlashSale.step, Deployment.front, hp, hstage]
    have hrun : Recovers encode o prefetch now dbNow D (D.acted encode (stepLookup D.front 0 p true now)) :=
      .tail (.act (.lookup 0 true now)) .refl (by simp [DeploymentAction.isCalm]) (step_act rfl hstep)
    obtain ⟨caches, ⟨result, heq⟩ | heq⟩ := stepLookup_cases D.front 0 p true now <;> rw [heq] at hrun
    · refine ⟨_, hrun, ?_, rfl, rfl, result, rfl⟩
      simp [Deployment.acted, System.finish, Deployment.front, hp]
    · have hrecords : (D.acted encode (System.goOn { D.front with caches } 0 p .record)).pending =
          { p with stage := .record } :: rest := by
        simp [Deployment.acted, System.goOn, Deployment.front, hp]
      obtain ⟨D', hmore, hends⟩ := Deployment.write_ends hrecords (.inr rfl)
      exact ⟨D', hrun.trans hmore, hends.pending, hends.workers, hends.dead, hends.answers⟩

/-- The calls under way end, in their order. -/
theorem Deployment.calls_end (D : Deployment β) (now dbNow : Int) :
    ∃ D', Recovers encode o prefetch now dbNow D D' ∧ D'.pending = [] ∧ D'.workers = D.workers ∧ D'.dead = D.dead ∧
      ∃ new, D'.answers = D.answers ++ new ∧
        new.map (fun a => (a.saleId, a.email)) = D.pending.map fun p => (p.saleId, p.email) := by
  generalize hps : D.pending = ps
  induction ps generalizing D with
  | nil => exact ⟨D, .refl, hps, rfl, rfl, [], by simp, rfl⟩
  | cons p rest ih =>
    obtain ⟨D', hrun, hrest, hworkers, hdead, result, hanswers⟩ := Deployment.call_ends hps
    obtain ⟨D'', hmore, hnone, hworkers', hdead', new, hnew, hwho⟩ := ih D' hrest
    refine ⟨D'', hrun.trans hmore, hnone, hworkers'.trans hworkers, hdead'.trans hdead, p.answer result :: new, ?_, ?_⟩
    · rw [hnew, hanswers, List.append_assoc]
      rfl
    · rw [List.map_cons, List.map_cons, hwho]
      rfl

/-- The broker takes what is in the write buffers. -/
theorem Deployment.buffers_empty (D : Deployment β) (now dbNow : Int) :
    ∃ D', Recovers encode o prefetch now dbNow D D' ∧ D'.buffered = [] ∧ D'.pending = D.pending ∧
      D'.workers = D.workers ∧ D'.dead = D.dead ∧ D'.answers = D.answers := by
  generalize hbuffered : D.buffered = buffered
  induction buffered generalizing D with
  | nil => exact ⟨D, .refl, hbuffered, rfl, rfl, rfl, rfl⟩
  | cons content rest ih =>
    have hstep : D.step encode o prefetch (.take 0) = some (D.take 0 content) := by simp [Deployment.step, hbuffered]
    obtain ⟨D', hrun, hempty, hsame⟩ := ih (D.take 0 content) (by simp [Deployment.take, hbuffered])
    exact ⟨D', .head rfl hstep hrun, hempty, hsame⟩

/-- The workers are stopped. -/
theorem Deployment.workers_stop (D : Deployment β) :
    ∃ D', Steps (fun D a => D.step encode o prefetch a) (fun _ a => a.isLoss = true) D D' ∧ D'.workers = [] ∧
      D'.pending = D.pending ∧ D'.answers = D.answers ∧ D'.dead = D.dead := by
  generalize hws : D.workers = ws
  induction ws generalizing D with
  | nil => exact ⟨D, .refl, hws, rfl, rfl, rfl⟩
  | cons w ws ih =>
    obtain ⟨D', hrun, hnone, hpending, hanswers, hdead⟩ := ih (D.lose 0 w) (by simp [Deployment.lose, hws])
    have hstep : D.step encode o prefetch (.lose 0) = some (D.lose 0 w) := by simp [Deployment.step, hws]
    exact ⟨D', .head rfl hstep hrun, hnone, hpending, hanswers, hdead⟩

end

/-! ## One message in the loop -/

section
variable {β ε : Type} {o : DrainOptions β ε} {d : Drain β ε} {msg : Delivery β} {e : ε} {attempt : Nat}

/-- Between two messages, each so far answered. -/
structure Drain.Rests (d : Drain β ε) : Prop where
  stopped : d.stopped = false
  rejected : d.rejected = false
  pending : d.pending = []
  flushing : d.flushing = none
  chain : d.finished = d.chained
  settled : ∀ t, t ∈ d.acked ∨ t ∈ d.nacked → t < d.delivered

/-- It has the one message `msg`, and a flush is chained for it. -/
structure Drain.Holds (d : Drain β ε) (msg : Delivery β) : Prop where
  stopped : d.stopped = false
  rejected : d.rejected = false
  pending : d.pending = [msg]
  flushing : d.flushing = none
  chain : d.finished + 1 = d.chained
  next : d.delivered = msg.tag + 1
  settled : ∀ t, t ∈ d.acked ∨ t ∈ d.nacked → t < msg.tag

/-- It writes the one message `msg`, for the `attempt`-th time. -/
structure Drain.Writes (d : Drain β ε) (msg : Delivery β) (e : ε) (attempt : Nat) : Prop where
  stopped : d.stopped = false
  rejected : d.rejected = false
  pending : d.pending = []
  flushing : ∃ number, d.flushing = some ⟨number, [msg], [e], attempt, .writeBatch⟩
  chain : d.finished + 1 = d.chained
  next : d.delivered = msg.tag + 1
  settled : ∀ t, t ∈ d.acked ∨ t ∈ d.nacked → t < msg.tag

theorem Drain.start_rests : (Drain.start β ε).Rests := by
  constructor <;> simp [Drain.start]

/-- The steps that the loop takes of its own between two calls of `writeBatch`. -/
abbrev Drain.Goes (o : DrainOptions β ε) (d d' : Drain β ε) : Prop :=
  Steps (Drain.step o) (fun _ a => a = .timer ∨ a = .flush ∨ a = .wake) d d'

/-- The window of a lone message ends, if its batch is not full. -/
theorem Drain.Rests.holds (h : d.Rests) (content : β) :
    ∃ d', Drain.Goes o (d.deliver o content) d' ∧ d'.Holds ⟨d.delivered, content⟩ := by
  have hdeliver : d.deliver o content = if o.batchSize ≤ 1 then
      Drain.chain { d with
        delivered := d.delivered + 1
        accepted := d.accepted ++ [⟨d.delivered, content⟩]
        pending := [⟨d.delivered, content⟩] }
      else { d with
        delivered := d.delivered + 1
        accepted := d.accepted ++ [⟨d.delivered, content⟩]
        pending := [⟨d.delivered, content⟩]
        flushTimer := true } := by
    simp [Drain.deliver, h.stopped, h.pending]
  rw [hdeliver]
  split
  · refine ⟨_, .refl, h.stopped, h.rejected, rfl, h.flushing, ?_, rfl, h.settled⟩
    exact congrArg (· + 1) h.chain
  · refine ⟨_, .tail .timer .refl (.inl rfl) rfl, h.stopped, h.rejected, rfl, h.flushing, ?_, rfl, h.settled⟩
    exact congrArg (· + 1) h.chain

theorem Drain.Holds.writes (h : d.Holds msg) (hparse : o.parse msg.content = some e) (hmax : 0 < o.maxAttempts) :
    ∃ d', Drain.Goes o d d' ∧ d'.Writes msg e 1 := by
  have hlt : d.finished < d.chained := by
    have := h.chain
    omega
  have hstep : Drain.step o d .flush = some { d with
      pending := []
      batches := d.batches ++ [[msg]]
      flushing := some ⟨d.batches.length, [msg], [e], 1, .writeBatch⟩ } := by
    simp [Drain.step, h.flushing, h.rejected, hlt, Drain.flush, h.pending, hparse, Nat.ne_of_gt hmax]
  refine ⟨_, .tail .flush .refl (.inr (.inl rfl)) hstep, ?_⟩
  exact ⟨h.stopped, h.rejected, rfl, ⟨_, rfl⟩, h.chain, h.next, h.settled⟩

theorem Drain.Writes.resolves (h : d.Writes msg e attempt) :
    ∃ d', Drain.step o d .writeResolves = some d' ∧ d'.Rests ∧ msg.tag ∈ d'.acked := by
  obtain ⟨number, hf⟩ := h.flushing
  have hstep : Drain.step o d .writeResolves = some (d.writeResolves ⟨number, [msg], [e], attempt, .writeBatch⟩) := by
    simp [Drain.step, hf]
  refine ⟨_, hstep, ⟨h.stopped, h.rejected, h.pending, rfl, h.chain, fun t ht => ?_⟩, ?_⟩
  · have hnext := h.next
    have hbefore := h.settled t
    simp only [Drain.writeResolves, Drain.ackUpTo, Drain.finish, List.getLast?_singleton, List.mem_append,
      List.mem_filter, List.mem_range] at ht ⊢
    rcases ht with (ht | ht) | ht
    · have := hbefore (.inl ht)
      omega
    · omega
    · have := hbefore (.inr ht)
      omega
  · have hnew : msg.tag ∉ d.acked ∧ msg.tag ∉ d.nacked :=
      ⟨fun ht => Nat.lt_irrefl _ (h.settled _ (.inl ht)), fun ht => Nat.lt_irrefl _ (h.settled _ (.inr ht))⟩
    simp [Drain.writeResolves, Drain.ackUpTo, Drain.finish, hnew]

/-- The write is tried again after a sleep. -/
theorem Drain.Writes.retries (h : d.Writes msg e attempt) (hlt : attempt < o.maxAttempts) :
    ∃ d' d'', Drain.step o d .writeRejects = some d' ∧ Drain.Goes o d' d'' ∧ d''.Writes msg e (attempt + 1) := by
  obtain ⟨number, hf⟩ := h.flushing
  have hstep : Drain.step o d .writeRejects =
      some (d.writeRejects o ⟨number, [msg], [e], attempt, .writeBatch⟩) := by
    simp [Drain.step, hf]
  rw [Drain.writeRejects, if_pos hlt] at hstep
  refine ⟨_, _, hstep, .tail .wake .refl (.inr (.inr rfl)) rfl, ?_⟩
  exact ⟨h.stopped, h.rejected, h.pending, ⟨_, rfl⟩, h.chain, h.next, h.settled⟩

theorem Drain.Writes.givesUp (h : d.Writes msg e attempt) (hlast : o.maxAttempts ≤ attempt) :
    ∃ d', Drain.step o d .writeRejects = some d' ∧ d'.Rests ∧ msg.tag ∉ d'.acked ∧ msg.tag ∈ d'.nacked := by
  obtain ⟨number, hf⟩ := h.flushing
  have hstep : Drain.step o d .writeRejects =
      some (d.writeRejects o ⟨number, [msg], [e], attempt, .writeBatch⟩) := by
    simp [Drain.step, hf]
  rw [Drain.writeRejects, if_neg (Nat.not_lt.2 hlast)] at hstep
  refine ⟨_, hstep, ⟨h.stopped, h.rejected, h.pending, rfl, h.chain, fun t ht => ?_⟩, ?_, ?_⟩
  · have hnext := h.next
    have hbefore := h.settled t
    simp only [Drain.deadLetter, Drain.finish, List.map_cons, List.map_nil, List.mem_append, List.mem_singleton] at ht ⊢
    rcases ht with ht | ht | ht
    · have := hbefore (.inl ht)
      omega
    · have := hbefore (.inr ht)
      omega
    · omega
  · exact fun ht => Nat.lt_irrefl _ (h.settled _ (.inl ht))
  · simp [Drain.deadLetter, Drain.finish]

end

/-! ## A worker serves the queue -/

section
variable {β : Type} {encode : PurchaseWriteEntry → β} {o : DrainOptions β PurchaseWriteEntry} {prefetch : Nat}
  {now dbNow : Int}

/-- One worker, with what it has yet to hear of. -/
def Deployment.serving (D : Deployment β) (d : Drain β PurchaseWriteEntry) (unacked : List (Delivery β)) :
    Deployment β :=
  { D with workers := [⟨d, unacked⟩] }

theorem Deployment.serving_goes (D : Deployment β) {d d' : Drain β PurchaseWriteEntry} (h : Drain.Goes o d d')
    (unacked : List (Delivery β)) :
    Recovers encode o prefetch now dbNow (D.serving d unacked) (D.serving d' unacked) := by
  induction h with
  | refl => exact .refl
  | @tail t t' a _ hown hstep ih =>
    refine ih.tail (.work 0 a) ?_ ?_
    · rcases hown with rfl | rfl | rfl <;> rfl
    · rcases hown with rfl | rfl | rfl <;> simp [Deployment.step, Deployment.serving, DrainAction.isOwn, hstep]

/-- A purchase that Postgres refuses is refused each time, and dead-lettered in
the end. -/
theorem Deployment.serving_refused (D : Deployment β) (hs : D.db.Schema) {msg : Delivery β} {e : PurchaseWriteEntry}
    (hrefused : Refused D.db [e]) (unacked : List (Delivery β)) {d : Drain β PurchaseWriteEntry} {attempt : Nat}
    (h : d.Writes msg e attempt) :
    ∃ d', Recovers encode o prefetch now dbNow (D.serving d unacked) (D.serving d' unacked) ∧ d'.Rests ∧
      msg.tag ∉ d'.acked ∧ msg.tag ∈ d'.nacked := by
  obtain ⟨error, hthrows⟩ := writePurchaseBatch_throws hs hrefused
  have hrejects {d d' : Drain β PurchaseWriteEntry} {attempt : Nat} (h : d.Writes msg e attempt)
      (hstep : Drain.step o d .writeRejects = some d') :
      Recovers encode o prefetch now dbNow (D.serving d unacked) (D.serving d' unacked) := by
    obtain ⟨number, hf⟩ := h.flushing
    refine .tail (.write 0 .runs) .refl rfl ?_
    simp [Deployment.step, Deployment.write, Deployment.serving, hf, hthrows, hstep]
  induction hleft : o.maxAttempts - attempt generalizing d attempt with
  | zero =>
    obtain ⟨d', hstep, hrests, hnot, hdead⟩ := h.givesUp (Nat.le_of_sub_eq_zero hleft)
    exact ⟨d', hrejects h hstep, hrests, hnot, hdead⟩
  | succ n ih =>
    obtain ⟨d', d'', hstep, hgoes, hnext⟩ := h.retries (Nat.lt_of_sub_eq_succ hleft)
    obtain ⟨d₃, hrun, hend⟩ := ih hnext (by omega)
    exact ⟨d₃, ((hrejects h hstep).trans (D.serving_goes hgoes unacked)).trans hrun, hend⟩

/-- The oldest message is taken off the queue, written or refused. -/
theorem Deployment.serving_one (D : Deployment β) (now dbNow : Int) (hs : D.db.Schema)
    {d : Drain β PurchaseWriteEntry} (hd : d.Rests) (hmax : 0 < o.maxAttempts) {content : β} {rest : List β}
    (hready : D.ready = content :: rest) {e : PurchaseWriteEntry} (hparse : o.parse content = some e) :
    ∃ (D' : Deployment β) (d' : Drain β PurchaseWriteEntry),
      Recovers encode o prefetch now dbNow (D.serving d []) (D'.serving d' []) ∧ d'.Rests ∧ D'.ready = rest ∧
      D'.pending = D.pending ∧ D'.answers = D.answers ∧ D'.buffered = D.buffered ∧
      (D'.dead = D.dead ∨ D'.dead = D.dead ++ [content] ∧ Refused D.db [e]) := by
  set msg : Delivery β := ⟨d.delivered, content⟩ with hmsg
  obtain ⟨d₁, hgoes, hholds⟩ := hd.holds (o := o) content
  obtain ⟨d₂, hgoes', hwrites⟩ := hholds.writes (e := e) hparse hmax
  -- It is delivered, and the batch that is written is this one message.
  have hdelivers : Deployment.step encode o prefetch (D.serving d []) (.deliver 0) =
      some (Deployment.serving { D with ready := rest } (d.deliver o content) [msg]) := by
    have hroom : prefetch = 0 ∨ 0 < prefetch := Nat.eq_zero_or_pos prefetch
    simp [Deployment.step, Deployment.deliver, Deployment.serving, hready, hroom, hmsg]
  have hwriting : Recovers encode o prefetch now dbNow (D.serving d [])
      (Deployment.serving { D with ready := rest } d₂ [msg]) :=
    .head rfl hdelivers
      ((Deployment.serving_goes { D with ready := rest } hgoes [msg]).trans
        (Deployment.serving_goes { D with ready := rest } hgoes' [msg]))
  by_cases hrefused : Refused D.db [e]
  · obtain ⟨d', hrun, hrests, hnot, hdead⟩ :=
      Deployment.serving_refused { D with ready := rest } hs hrefused [msg] hwrites
    refine ⟨{ D with ready := rest, dead := D.dead ++ [content] }, d',
      (hwriting.trans hrun).tail (.settle 0 msg.tag) rfl ?_, hrests, rfl, rfl, rfl, rfl, .inr ⟨rfl, hrefused⟩⟩
    simp [Deployment.step, Deployment.settle, Deployment.serving, hnot, hdead, hmsg]
  · obtain ⟨db, hcommits, -⟩ := writePurchaseBatch_commits hs hrefused
    obtain ⟨d', hstep, hrests, hacked⟩ := hwrites.resolves (o := o)
    obtain ⟨number, hf⟩ := hwrites.flushing
    have hwrote : Deployment.step encode o prefetch (Deployment.serving { D with ready := rest } d₂ [msg])
        (.write 0 .runs) = some (Deployment.serving { D with ready := rest, db := db } d' [msg]) := by
      simp [Deployment.step, Deployment.write, Deployment.serving, hf, hcommits, hstep]
    refine ⟨{ D with ready := rest, db := db, acked := D.acked ++ [content] }, d',
      (hwriting.tail (.write 0 .runs) rfl hwrote).tail (.settle 0 msg.tag) rfl ?_, hrests, rfl, rfl, rfl, rfl, .inl rfl⟩
    simp [Deployment.step, Deployment.settle, Deployment.serving, hacked, hmsg]

end

/-! ## Main theorem -/

section
variable {batchSize maxAttempts prefetch : Nat} {D D' : Deployment String}

/-- What was sent stays so, and only a discard loses any of it. -/
theorem Deployment.Step.sent {β : Type} {encode : PurchaseWriteEntry → β} {o : DrainOptions β PurchaseWriteEntry}
    {D D' : Deployment β} {a : DeploymentAction β} (h : D.Step encode o prefetch a D') (ha : ∀ k, a ≠ .discard k) :
    D.sent ⊆ D'.sent ∧ D'.discarded = D.discarded := by
  cases h with
  | act => exact ⟨List.subset_append_left _ _, rfl⟩
  | discard => exact absurd rfl (ha _)
  | take | connect | deliver | work | wrote | failed | acked | deadLettered | lose | stray =>
    exact ⟨List.Subset.refl _, rfl⟩

theorem Deploys.sent {ok : Deployment String → DeploymentAction String → Prop}
    (hok : ∀ D k, ¬ ok D (.discard k)) (h : Deploys batchSize maxAttempts prefetch ok D D') :
    D.sent ⊆ D'.sent ∧ D'.discarded = D.discarded := by
  refine h.inv (I := fun E => D.sent ⊆ E.sent ∧ E.discarded = D.discarded) ⟨List.Subset.refl _, rfl⟩
    fun E a E' hinv ha hstep => ?_
  have hs := (Deployment.Step.of_step hstep).sent (by rintro k rfl; exact hok E k ha)
  exact ⟨List.Subset.trans hinv.1 hs.1, hs.2.trans hinv.2⟩

/-- One worker empties the queue. -/
theorem Deployment.queue_empties (now dbNow : Int) (hmax : 0 < maxAttempts)
    {d : Drain String PurchaseWriteEntry} (hd : d.Rests)
    (hok : (D.serving d []).Ok PurchaseWriteEntry.content (drainPurchaseWrites batchSize maxAttempts)) :
    ∃ (D' : Deployment String) (d' : Drain String PurchaseWriteEntry),
      Recovers PurchaseWriteEntry.content (drainPurchaseWrites batchSize maxAttempts) prefetch now dbNow
        (D.serving d []) (D'.serving d' []) ∧
      D'.ready = [] ∧ D'.buffered = D.buffered ∧ D'.pending = D.pending ∧ D'.answers = D.answers ∧
        ∃ refused, D'.dead = D.dead ++ refused ∧
          ∀ c ∈ refused, ∃ m : PurchaseWriteEntry, c = m.content ∧ D'.db.Unsellable m := by
  generalize hready : D.ready = ready
  induction ready generalizing D d with
  | nil => exact ⟨D, d, .refl, hready, rfl, rfl, rfl, [], by simp, by simp⟩
  | cons content rest ih =>
    obtain ⟨ms, hms⟩ := hok.encoded
    have hpublished : content ∈ D.published := hok.kept.mem_iff.2 (by simp [Deployment.serving, hready])
    obtain ⟨m, -, rfl⟩ := List.mem_map.1 (hms ▸ hok.published_sent hpublished)
    obtain ⟨D₁, d₁, hrun, hd₁, hrest, hpending, hanswers, hbuffered, hdead⟩ :=
      Deployment.serving_one D now dbNow hok.schema hd hmax hready (drainPurchaseWrites_parse batchSize maxAttempts m)
    obtain ⟨D', d', hmore, hnone, hbuffered', hpending', hanswers', refused, hrefused, hunsellable⟩ :=
      ih hd₁ (hok.deploys hrun).1 hrest
    refine ⟨D', d', hrun.trans hmore, hnone, hbuffered'.trans hbuffered, hpending'.trans hpending,
      hanswers'.trans hanswers, ?_⟩
    rcases hdead with hdead | ⟨hdead, hwas⟩
    · exact ⟨refused, by rw [hrefused, hdead], hunsellable⟩
    · refine ⟨m.content :: refused, by rw [hrefused, hdead, List.append_assoc]; rfl, fun c hc => ?_⟩
      rcases List.mem_cons.1 hc with rfl | hc
      · obtain ⟨-, new, hsold⟩ := hok.deploys (hrun.trans hmore)
        exact ⟨m, rfl, (hok.schema.unsellable_of_refused hwas).sold hsold⟩
      · exact hunsellable c hc

/-- From any state of any run, once the workers are started again and nothing
fails any more: every call under way is answered, the broker takes what is in the
write buffers, and one worker empties it. Every message that was ever sent then
has its row or is dead-lettered, unless it had been lost with its connection, and
Postgres has no unit for what was dead-lettered since. -/
theorem deployment_recovers (hmax : 0 < maxAttempts) (hstart : D.Starts PurchaseWriteEntry.content)
    (h : Deploys batchSize maxAttempts prefetch (fun _ _ => True) D D') (now dbNow : Int) :
    ∃ D₁ D₂ : Deployment String,
      Deploys batchSize maxAttempts prefetch (fun _ a => a.isLoss = true) D' D₁ ∧ D₁.workers = [] ∧
      Deploys batchSize maxAttempts prefetch (fun _ a => a.isCalm now dbNow = true) D₁ D₂ ∧
      D₂.pending = [] ∧ D₂.buffered = [] ∧ D₂.ready = [] ∧ D₂.held = [] ∧
      (∃ new, D₂.answers = D'.answers ++ new ∧
        new.map (fun a => (a.saleId, a.email)) = D'.pending.map fun p => (p.saleId, p.email)) ∧
      (∃ refused, D₂.dead = D'.dead ++ refused ∧
        ∀ c ∈ refused, ∃ m : PurchaseWriteEntry, c = m.content ∧ D₂.db.Unsellable m) ∧
      ∀ m : PurchaseWriteEntry, m.content ∈ D'.sent →
        m.row.key ∈ D₂.db.pairs ∨ m.content ∈ D₂.dead ∨ m.content ∈ D'.discarded := by
  have hok := Deployment.ok_of_deploys hstart h
  obtain ⟨D₁, hlost, hworkers, hpending, hanswers, hdead⟩ := Deployment.workers_stop D'
  obtain ⟨hok₁, -⟩ := hok.deploys hlost
  obtain ⟨Dc, hcalls, hnone, hworkers', hdead', new, hnew, hwho⟩ := Deployment.calls_end D₁ now dbNow
  obtain ⟨Db, htaken, hempty, hpendingb, hworkersb, hdeadb, hanswersb⟩ := Deployment.buffers_empty Dc now dbNow
  obtain ⟨hokb, -⟩ := hok₁.deploys (hcalls.trans htaken)
  -- A worker starts.
  have hserving : Deployment.step PurchaseWriteEntry.content (drainPurchaseWrites batchSize maxAttempts) prefetch Db
      .connect = some (Db.serving (Drain.start String PurchaseWriteEntry) []) := by
    simp [Deployment.step, Deployment.serving, hworkersb, hworkers', hworkers]
  have hokw := hokb.step (Deployment.Step.of_step hserving)
  obtain ⟨D₂, d₂, hserves, hready, hbuffered₂, hpending₂, hanswers₂, refused, hrefused, hunsellable⟩ :=
    Deployment.queue_empties now dbNow hmax Drain.start_rests hokw
  have hrun := ((hcalls.trans htaken).tail .connect rfl hserving).trans hserves
  obtain ⟨hok₂, -⟩ := hok₁.deploys hrun
  have hbuffered : (D₂.serving d₂ []).buffered = [] := hbuffered₂.trans hempty
  refine ⟨D₁, D₂.serving d₂ [], hlost, hworkers, hrun, hpending₂.trans (hpendingb.trans hnone), hbuffered, hready, rfl,
    ⟨new, ?_, ?_⟩, ⟨refused, ?_, hunsellable⟩, fun m hm => ?_⟩
  · exact hanswers₂.trans (by rw [hanswersb, hnew, hanswers])
  · rw [hwho, hpending]
  · exact hrefused.trans (by rw [hdeadb, hdead', hdead])
  · obtain ⟨hsent₁, hdiscarded₁⟩ := Deploys.sent (by simp [DeploymentAction.isLoss]) hlost
    obtain ⟨hsent₂, hdiscarded₂⟩ := Deploys.sent (by simp [DeploymentAction.isCalm]) hrun
    have hqueue : m ∈ ((D₂.serving d₂ []).system (drainPurchaseWrites batchSize maxAttempts)).queue :=
      List.mem_filterMap.2 ⟨_, hsent₂ (hsent₁ hm), drainPurchaseWrites_parse batchSize maxAttempts m⟩
    have hheld : (D₂.serving d₂ []).held ++ (D₂.serving d₂ []).ready = [] := by
      simp [Deployment.serving, Deployment.held, contentsOf, hready]
    rcases hok₂.located hqueue with hrow | hplace | hdiscarded
    · exact .inl hrow
    · rw [Deployment.Carries, hbuffered, hheld] at hplace
      exact .inr (.inl ((hplace.resolve_left List.not_mem_nil).resolve_left List.not_mem_nil))
    · exact .inr (.inr (by rwa [hdiscarded₂, hdiscarded₁] at hdiscarded))

end

/-- A worker holds one buyer's message, a second is in a write buffer, and a
third buyer has just reserved. -/
def demoCutOff : List (DeploymentAction String) :=
  [.act (.attempt 0 demoId.text "ann@example.com" 5 .answered), .act (.publish 0 true), .take 0, .connect, .deliver 0,
    .act (.attempt 1 demoId.text "cy@example.com" 6 .answered), .act (.publish 0 true),
    .act (.attempt 1 demoId.text "Bob@example.com" 7 .answered)]

theorem deployment_recovers_demo :
    ∃ D : Deployment String, D.pending = [] ∧ D.buffered = [] ∧ D.ready = [] ∧ D.held = [] ∧ D.answers.length = 3 ∧
      ((PurchaseWriteEntry.row ⟨demoId.text, "ann@example.com", 5⟩).key ∈ D.db.pairs ∨
        PurchaseWriteEntry.content ⟨demoId.text, "ann@example.com", 5⟩ ∈ D.dead) := by
  obtain ⟨D', hrun, hanswers, hpending, hdiscarded, hsent⟩ : ∃ D',
      Deploys 2 5 500 (fun _ _ => True) (demoDeployment 3) D' ∧
        D'.answers.length = 2 ∧ D'.pending.length = 1 ∧ D'.discarded = [] ∧
          PurchaseWriteEntry.content ⟨demoId.text, "ann@example.com", 5⟩ ∈ D'.sent :=
    Steps.exists_of_run demoCutOff (by decide +kernel)
  obtain ⟨-, D, -, -, -, hnone, hbuffered, hready, hheld, ⟨new, hnew, hwho⟩, -, hplaced⟩ :=
    deployment_recovers (by decide) (demoDeployment_starts 3) hrun 10 20
  refine ⟨D, hnone, hbuffered, hready, hheld, ?_, by simpa [hdiscarded] using hplaced _ hsent⟩
  have hlength := congrArg List.length hwho
  rw [List.length_map, List.length_map, hpending] at hlength
  rw [hnew, List.length_append, hanswers, hlength]

end FlashSale
