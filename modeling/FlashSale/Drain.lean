import Mathlib.Data.List.Range
import FlashSale.Lib.Runs
/-!
# The drain loop

`drainPurchaseWrites` (packages/queue/src/drain.ts): deliveries pile up in
`pending`, and a flush takes them all as one batch and writes it, with retries.
Flushes are chained on one promise, so a flush starts when the one before it is
done. What the loop says to the broker and to its callbacks is logged.

A step is one run of a callback, a timer or an await: `writeBatch` settles after
any delay, and deliveries, timers and `stop()` come in between. The channel is
taken to work: `cancel` resolves, `ack` and `nack` do not throw.
-/

namespace FlashSale
open Lib.Runs

/-! ## The loop's state -/

/-- `β` is a message's content and `ε` an entry of a batch. -/
structure DrainOptions (β ε : Type) where
  /-- `JSON.parse(msg.content.toString("utf8"))`; nothing when it throws. -/
  parse : β → Option ε
  batchSize : Nat
  maxAttempts : Nat

structure Delivery (β : Type) where
  tag : Nat
  content : β
deriving DecidableEq

/-- A settled call of `writeBatch`: for which batch, with what, and whether it
resolved. -/
structure WriteCall (ε : Type) where
  batch : Nat
  entries : List ε
  resolved : Bool
deriving DecidableEq

/-- What the retry loop of a flush awaits. -/
inductive Awaited where
  | writeBatch
  | sleep
deriving DecidableEq

/-- A flush inside its retry loop. -/
structure Flushing (β ε : Type) where
  number : Nat
  batch : List (Delivery β)
  entries : List ε
  attempt : Nat
  awaits : Awaited
deriving DecidableEq

/-- A call of `stop()`: it awaits the cancel, then the flush it chained. -/
inductive Stopping where
  | cancelling
  | awaiting (flush : Nat)
  | resolved (flush : Nat)
  | rejected
deriving DecidableEq

structure Drain (β ε : Type) where
  pending : List (Delivery β)
  flushTimer : Bool
  /-- How many flushes were chained on `flushing`, and how many of these are done. -/
  chained : Nat
  finished : Nat
  flushing : Option (Flushing β ε)
  /-- Whether `flushing` is rejected: no flush chained on it runs any more. -/
  rejected : Bool
  stopped : Bool
  stops : List Stopping
  /-- The next delivery tag. -/
  delivered : Nat
  /-- The deliveries the consumer kept, those it ignored, and the batches taken. -/
  accepted : List (Delivery β)
  ignored : List (Delivery β)
  batches : List (List (Delivery β))
  calls : List (WriteCall ε)
  acked : List Nat
  nacked : List Nat
  deadLettered : List (List ε)
deriving DecidableEq

/-- Consuming, before the first message. -/
def Drain.start (β ε : Type) : Drain β ε where
  pending := []
  flushTimer := false
  chained := 0
  finished := 0
  flushing := none
  rejected := false
  stopped := false
  stops := []
  delivered := 0
  accepted := []
  ignored := []
  batches := []
  calls := []
  acked := []
  nacked := []
  deadLettered := []

inductive DrainAction (β : Type) where
  | deliver (content : β)
  /-- The broker cancelled the consumer: the callback gets null. -/
  | deliverNull
  /-- The window is over. -/
  | timer
  /-- The next flush on the chain runs up to its first await. -/
  | flush
  | writeResolves
  | writeRejects
  | wake
  | stop
  /-- The `channel.cancel` of call `k` of `stop()` resolves. -/
  | cancelled (k : Nat)
  | stopResolves (k : Nat)
  | stopRejects (k : Nat)
deriving DecidableEq

/-! ## What the loop does -/

section
variable {β ε : Type} (o : DrainOptions β ε) (d : Drain β ε)

/-- `flushing = flushing.then(flush)`, and the timer cleared where it was set. -/
def Drain.chain : Drain β ε := { d with flushTimer := false, chained := d.chained + 1 }

/-- The consumer callback. `scheduleFlush` leaves a timer that is set alone. -/
def Drain.deliver (content : β) : Drain β ε :=
  let msg : Delivery β := ⟨d.delivered, content⟩
  if d.stopped then { d with delivered := d.delivered + 1, ignored := d.ignored ++ [msg] }
  else
    let d : Drain β ε := { d with
      delivered := d.delivered + 1
      accepted := d.accepted ++ [msg]
      pending := d.pending ++ [msg] }
    if o.batchSize ≤ d.pending.length then d.chain else { d with flushTimer := true }

/-- The flush that runs returns. -/
def Drain.finish : Drain β ε := { d with flushing := none, finished := d.finished + 1 }

/-- The end of a flush whose attempts are used up. -/
def Drain.deadLetter (batch : List (Delivery β)) (entries : List ε) : Drain β ε :=
  Drain.finish { d with nacked := d.nacked ++ batch.map (·.tag), deadLettered := d.deadLettered ++ [entries] }

/-- `channel.ack(msg, true)`: settles every delivery up to `tag` that is not
settled yet. -/
def Drain.ackUpTo (tag : Nat) : Drain β ε :=
  { d with acked := d.acked ++ (List.range (tag + 1)).filter fun t => t ∉ d.acked ∧ t ∉ d.nacked }

/-- A flush up to its first await: it takes what is pending, parses it outside
of its try block, and calls `writeBatch`. -/
def Drain.flush : Drain β ε :=
  if d.pending = [] then d.finish
  else
    let batch := d.pending
    let d : Drain β ε := { d with pending := [], batches := d.batches ++ [batch] }
    match batch.mapM (o.parse ·.content) with
    | none => { d with rejected := true }
    | some entries =>
      if o.maxAttempts = 0 then d.deadLetter batch entries
      else { d with flushing := some ⟨d.batches.length - 1, batch, entries, 1, .writeBatch⟩ }

def Drain.writeResolves (f : Flushing β ε) : Drain β ε :=
  let d : Drain β ε := { d with calls := d.calls ++ [⟨f.number, f.entries, true⟩] }
  match f.batch.getLast? with
  | some msg => (d.ackUpTo msg.tag).finish
  | none => d.finish

def Drain.writeRejects (f : Flushing β ε) : Drain β ε :=
  let d : Drain β ε := { d with calls := d.calls ++ [⟨f.number, f.entries, false⟩] }
  if f.attempt < o.maxAttempts then { d with flushing := some { f with awaits := .sleep } }
  else d.deadLetter f.batch f.entries

def Drain.step : DrainAction β → Option (Drain β ε)
  | .deliver content => some (d.deliver o content)
  | .deliverNull => some d
  | .timer => if d.flushTimer then some d.chain else none
  | .flush =>
    if d.flushing.isNone ∧ d.rejected = false ∧ d.finished < d.chained then some (d.flush o) else none
  | .writeResolves =>
    match d.flushing with
    | some f => if f.awaits = .writeBatch then some (d.writeResolves f) else none
    | none => none
  | .writeRejects =>
    match d.flushing with
    | some f => if f.awaits = .writeBatch then some (d.writeRejects o f) else none
    | none => none
  | .wake =>
    match d.flushing with
    | some f =>
      if f.awaits = .sleep then
        some { d with flushing := some { f with attempt := f.attempt + 1, awaits := .writeBatch } }
      else none
    | none => none
  | .stop => some { d with stopped := true, stops := d.stops ++ [.cancelling] }
  | .cancelled k =>
    if d.stops[k]? = some .cancelling then
      some { d.chain with stops := d.stops.set k (.awaiting (d.chained + 1)) }
    else none
  | .stopResolves k =>
    match d.stops[k]? with
    | some (.awaiting n) => if n ≤ d.finished then some { d with stops := d.stops.set k (.resolved n) } else none
    | _ => none
  | .stopRejects k =>
    match d.stops[k]? with
    | some (.awaiting n) =>
      if d.rejected ∧ d.finished < n then some { d with stops := d.stops.set k .rejected } else none
    | _ => none

end

/-! ## What a step can do -/

section
variable {β ε : Type} (o : DrainOptions β ε)

inductive Drain.Step (d : Drain β ε) : DrainAction β → Drain β ε → Prop
  | ignored {content} : d.stopped = true → Drain.Step d (.deliver content)
      { d with delivered := d.delivered + 1, ignored := d.ignored ++ [⟨d.delivered, content⟩] }
  | kept {content} {timer : Bool} {chained : Nat} : d.stopped = false →
      (timer = true ∧ chained = d.chained ∨ timer = false ∧ chained = d.chained + 1) →
      Drain.Step d (.deliver content)
        { d with
          delivered := d.delivered + 1
          accepted := d.accepted ++ [⟨d.delivered, content⟩]
          pending := d.pending ++ [⟨d.delivered, content⟩]
          flushTimer := timer
          chained := chained }
  | deliverNull : Drain.Step d .deliverNull d
  | timer : d.flushTimer = true → Drain.Step d .timer d.chain
  | flushNothing : d.flushing = none → d.rejected = false → d.finished < d.chained → d.pending = [] →
      Drain.Step d .flush d.finish
  | flushThrows : d.flushing = none → d.rejected = false → d.finished < d.chained → d.pending ≠ [] →
      d.pending.mapM (o.parse ·.content) = none →
      Drain.Step d .flush { d with pending := [], batches := d.batches ++ [d.pending], rejected := true }
  | flushGivesUp {entries} : d.flushing = none → d.rejected = false → d.finished < d.chained → d.pending ≠ [] →
      d.pending.mapM (o.parse ·.content) = some entries → o.maxAttempts = 0 →
      Drain.Step d .flush
        (Drain.deadLetter { d with pending := [], batches := d.batches ++ [d.pending] } d.pending entries)
  | flushWrites {entries} : d.flushing = none → d.rejected = false → d.finished < d.chained → d.pending ≠ [] →
      d.pending.mapM (o.parse ·.content) = some entries → 0 < o.maxAttempts →
      Drain.Step d .flush
        { d with
          pending := []
          batches := d.batches ++ [d.pending]
          flushing := some ⟨d.batches.length, d.pending, entries, 1, .writeBatch⟩ }
  | writeResolves {f} : d.flushing = some f → f.awaits = .writeBatch → Drain.Step d .writeResolves (d.writeResolves f)
  | writeRetries {f} : d.flushing = some f → f.awaits = .writeBatch → f.attempt < o.maxAttempts →
      Drain.Step d .writeRejects
        { d with calls := d.calls ++ [⟨f.number, f.entries, false⟩], flushing := some { f with awaits := .sleep } }
  | writeGivesUp {f} : d.flushing = some f → f.awaits = .writeBatch → o.maxAttempts ≤ f.attempt →
      Drain.Step d .writeRejects
        (Drain.deadLetter { d with calls := d.calls ++ [⟨f.number, f.entries, false⟩] } f.batch f.entries)
  | wake {f} : d.flushing = some f → f.awaits = .sleep → Drain.Step d .wake
      { d with flushing := some { f with attempt := f.attempt + 1, awaits := .writeBatch } }
  | stop : Drain.Step d .stop { d with stopped := true, stops := d.stops ++ [.cancelling] }
  | cancelled {k} : d.stops[k]? = some .cancelling → Drain.Step d (.cancelled k)
      { d.chain with stops := d.stops.set k (.awaiting (d.chained + 1)) }
  | stopResolves {k n} : d.stops[k]? = some (.awaiting n) → n ≤ d.finished → Drain.Step d (.stopResolves k)
      { d with stops := d.stops.set k (.resolved n) }
  | stopRejects {k n} : d.stops[k]? = some (.awaiting n) → d.rejected = true → d.finished < n →
      Drain.Step d (.stopRejects k) { d with stops := d.stops.set k .rejected }

variable {o} {d d' : Drain β ε}

/-- A call that resolves ends its flush; what it settles is acked. -/
theorem Drain.writeResolves_eq (d : Drain β ε) (f : Flushing β ε) :
    ∃ acked, d.writeResolves f =
      Drain.finish { d with calls := d.calls ++ [⟨f.number, f.entries, true⟩], acked := acked } := by
  unfold Drain.writeResolves
  cases f.batch.getLast? with
  | none => exact ⟨d.acked, rfl⟩
  | some msg => exact ⟨_, rfl⟩

theorem Drain.Step.of_step {a : DrainAction β} (h : d.step o a = some d') : d.Step o a d' := by
  cases a with
  | deliver content =>
    obtain rfl := Option.some.inj h
    unfold Drain.deliver
    split
    · exact .ignored (by assumption)
    · rename_i hs
      rw [Bool.not_eq_true] at hs
      simp only []
      split
      · exact .kept hs (.inr ⟨rfl, rfl⟩)
      · exact .kept hs (.inl ⟨rfl, rfl⟩)
  | deliverNull =>
    obtain rfl := Option.some.inj h
    exact .deliverNull
  | timer =>
    simp only [Drain.step] at h
    split at h
    · obtain rfl := Option.some.inj h
      exact .timer (by assumption)
    · cases h
  | flush =>
    simp only [Drain.step] at h
    split at h
    · rename_i hg
      obtain ⟨hnone, hr, hlt⟩ := hg
      rw [Option.isNone_iff_eq_none] at hnone
      obtain rfl := Option.some.inj h
      unfold Drain.flush
      split
      · exact .flushNothing hnone hr hlt (by assumption)
      · rename_i hp
        simp only []
        split
        · exact .flushThrows hnone hr hlt hp (by assumption)
        · split
          · exact .flushGivesUp hnone hr hlt hp (by assumption) (by assumption)
          · rename_i hm
            simp only [List.length_append, List.length_singleton, Nat.add_sub_cancel]
            exact .flushWrites hnone hr hlt hp (by assumption) (Nat.pos_of_ne_zero hm)
    · cases h
  | writeResolves =>
    simp only [Drain.step] at h
    split at h
    · split at h
      · obtain rfl := Option.some.inj h
        exact .writeResolves (by assumption) (by assumption)
      · cases h
    · cases h
  | writeRejects =>
    simp only [Drain.step] at h
    split at h
    · split at h
      · obtain rfl := Option.some.inj h
        unfold Drain.writeRejects
        simp only []
        split
        · exact .writeRetries (by assumption) (by assumption) (by assumption)
        · rename_i hge
          exact .writeGivesUp (by assumption) (by assumption) (Nat.le_of_not_lt hge)
      · cases h
    · cases h
  | wake =>
    simp only [Drain.step] at h
    split at h
    · split at h
      · obtain rfl := Option.some.inj h
        exact .wake (by assumption) (by assumption)
      · cases h
    · cases h
  | stop =>
    obtain rfl := Option.some.inj h
    exact .stop
  | cancelled k =>
    simp only [Drain.step] at h
    split at h
    · obtain rfl := Option.some.inj h
      exact .cancelled (by assumption)
    · cases h
  | stopResolves k =>
    simp only [Drain.step] at h
    split at h
    · split at h
      · obtain rfl := Option.some.inj h
        exact .stopResolves (by assumption) (by assumption)
      · cases h
    · cases h
  | stopRejects k =>
    simp only [Drain.step] at h
    split at h
    · split at h
      · rename_i hg
        obtain rfl := Option.some.inj h
        exact .stopRejects (by assumption) hg.1 hg.2
      · cases h
    · cases h

end

end FlashSale
