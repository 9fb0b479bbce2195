import FlashSale.Settling
import FlashSale.Batches
import FlashSale.Stores
import FlashSale.Lib.Parts
/-!
# The deployment

The system with its broker and workers: the write buffers of the api processes'
connections, the broker's queue and the dead-letter queue as the broker keeps
them, and any number of worker processes, each with its own drain loop
(apps/worker/src/main.ts, packages/queue/src/drain.ts) over the deliveries the
broker made to it. Workers start and lose their connections at any time; the
broker queues again what it has no answer for. What an api process published is
in its own write buffer until the broker takes it, and is lost with the
connection if that comes first.

A call that published counts as answered from then on. If `sendToQueue` reported
back-pressure, its answer is heard after `drain`, or never.

The codec of a message is a parameter here: `encode` is what `publish` sends,
and the loop's `parse` what it reads.
-/

namespace FlashSale
open Lib.Runs Lib.Parts

/-! ## The state -/

structure WorkerProcess (β : Type) where
  drain : Drain β PurchaseWriteEntry
  /-- What the broker delivered to it and has handled no answer for. -/
  unacked : List (Delivery β)
deriving DecidableEq

structure Deployment (β : Type) where
  redis : Redis
  db : Db
  caches : Nat → Cache
  pending : List Pending
  answers : List Answer
  warm : WarmScript
  /-- What is in the write buffers of the api processes' connections. -/
  buffered : List β
  /-- `flash-sale.purchase-writes`: what is ready, oldest first. -/
  ready : List β
  /-- `flash-sale.purchase-writes.dead`. -/
  dead : List β
  workers : List (WorkerProcess β)
  /-- What each worker that lost its connection still had to write. -/
  lost : List (List β)
  /-- All that the api processes ever sent, and what of it was lost with a
  connection. -/
  sent : List β
  discarded : List β
  /-- All that the broker ever took, and what it let go on an ack. -/
  published : List β
  acked : List β

inductive DeploymentAction (β : Type) where
  /-- A step of an api process or of the warm script. -/
  | act (a : Action)
  /-- The broker takes a message from a write buffer. -/
  | take (k : Nat)
  /-- A message is lost with the connection in whose buffer it is. -/
  | discard (k : Nat)
  /-- A worker starts to consume. -/
  | connect
  /-- The broker delivers the oldest message to worker `i`. -/
  | deliver (i : Nat)
  /-- Worker `i` takes a step that is neither a delivery nor the end of a write. -/
  | work (i : Nat) (a : DrainAction β)
  /-- The `writeBatch` that worker `i` awaits settles. -/
  | write (i : Nat) (fate : TxFate)
  /-- The broker handles what worker `i` said of one delivery. -/
  | settle (i : Nat) (tag : Nat)
  /-- The connection of worker `i` closes, or its process dies. -/
  | lose (i : Nat)
  /-- A worker without a connection writes some of what it had. -/
  | stray (i : Nat) (entries : List PurchaseWriteEntry) (fate : TxFate)
deriving DecidableEq

/-! ## The steps -/

/-- Neither a delivery nor the end of a write. -/
def DrainAction.isOwn {β : Type} : DrainAction β → Bool
  | .deliver _ | .writeResolves | .writeRejects => false
  | _ => true

def Action.isDrain : Action → Bool
  | .drain .. => true
  | _ => false

/-- The deliveries that the loop has yet to write. -/
def Drain.unwritten {β ε : Type} (d : Drain β ε) : List (Delivery β) :=
  (d.flushing.map (·.batch)).getD [] ++ d.pending

def contentsOf {β : Type} (batch : List (Delivery β)) : List β := batch.map (·.content)

section
variable {β : Type} (encode : PurchaseWriteEntry → β) (o : DrainOptions β PurchaseWriteEntry) (prefetch : Nat)

/-- What the api processes and the warm script see. The queue holds what the
step under way puts there. -/
def Deployment.front (D : Deployment β) : System where
  redis := D.redis
  db := D.db
  caches := D.caches
  queue := []
  dead := []
  pending := D.pending
  answers := D.answers
  warm := D.warm

/-- A step of the front leaves `S`: what it queued is in a write buffer, in wire
form. -/
def Deployment.acted (D : Deployment β) (S : System) : Deployment β := { D with
  redis := S.redis
  db := S.db
  caches := S.caches
  pending := S.pending
  answers := S.answers
  warm := S.warm
  buffered := D.buffered ++ S.queue.map encode
  sent := D.sent ++ S.queue.map encode }

def Deployment.take (D : Deployment β) (k : Nat) (content : β) : Deployment β := { D with
  buffered := D.buffered.eraseIdx k
  ready := D.ready ++ [content]
  published := D.published ++ [content] }

def Deployment.discard (D : Deployment β) (k : Nat) (content : β) : Deployment β := { D with
  buffered := D.buffered.eraseIdx k
  discarded := D.discarded ++ [content] }

/-- The worker is told of a message; a prefetch of 0 is no limit. -/
def Deployment.deliver (D : Deployment β) (i : Nat) (w : WorkerProcess β) : Option (Deployment β) :=
  match D.ready with
  | content :: ready =>
    if prefetch = 0 ∨ w.unacked.length < prefetch then
      let w' : WorkerProcess β := ⟨w.drain.deliver o content, w.unacked ++ [⟨w.drain.delivered, content⟩]⟩
      some { D with ready := ready, workers := D.workers.set i w' }
    else none
  | [] => none

/-- `writeBatch` is `writePurchaseBatch` on the batch's entries: the loop is
resumed with its outcome. -/
def Deployment.write (D : Deployment β) (i : Nat) (w : WorkerProcess β) (fate : TxFate) : Option (Deployment β) :=
  match w.drain.flushing with
  | none => none
  | some f =>
    let (written, db) := writePurchaseBatch fate f.entries D.db
    let outcome : DrainAction β := match written with
      | .ok _ => .writeResolves
      | .error _ => .writeRejects
    (w.drain.step o outcome).map fun d => { D with db, workers := D.workers.set i { w with drain := d } }

/-- An acked message is gone; one that is nacked without a requeue goes to the
dead-letter queue. -/
def Deployment.settle (D : Deployment β) (i : Nat) (w : WorkerProcess β) (tag : Nat) : Option (Deployment β) :=
  match w.unacked.find? (·.tag = tag) with
  | none => none
  | some msg =>
    let D : Deployment β := { D with
      workers := D.workers.set i { w with unacked := w.unacked.eraseP (·.tag = tag) } }
    if tag ∈ w.drain.acked then some { D with acked := D.acked ++ [msg.content] }
    else if tag ∈ w.drain.nacked then some { D with dead := D.dead ++ [msg.content] }
    else none

/-- The broker puts what it has no answer for back at the head of its queue. -/
def Deployment.lose (D : Deployment β) (i : Nat) (w : WorkerProcess β) : Deployment β := { D with
  ready := contentsOf w.unacked ++ D.ready
  workers := D.workers.eraseIdx i
  lost := D.lost ++ [contentsOf w.drain.unwritten] }

def Deployment.step (D : Deployment β) : DeploymentAction β → Option (Deployment β)
  | .act a => if a.isDrain then none else (FlashSale.step D.front a).map (D.acted encode)
  | .take k => (D.buffered[k]?).map (D.take k)
  | .discard k => (D.buffered[k]?).map (D.discard k)
  | .connect => some { D with workers := D.workers ++ [⟨Drain.start β PurchaseWriteEntry, []⟩] }
  | .deliver i => (D.workers[i]?).bind fun w => D.deliver o prefetch i w
  | .work i a => (D.workers[i]?).bind fun w =>
    if a.isOwn then (w.drain.step o a).map fun d => { D with workers := D.workers.set i { w with drain := d } }
    else none
  | .write i fate => (D.workers[i]?).bind fun w => D.write o i w fate
  | .settle i tag => (D.workers[i]?).bind fun w => D.settle i w tag
  | .lose i => (D.workers[i]?).map fun w => D.lose i w
  | .stray i entries fate => (D.lost[i]?).bind fun held =>
    if entries ⊆ held.filterMap o.parse then some { D with db := (writePurchaseBatch fate entries D.db).2 } else none

/-- The system the deployment is a form of. -/
def Deployment.system (D : Deployment β) : System :=
  { D.front with queue := D.sent.filterMap o.parse }

/-- The front takes only steps that `ok` allows. -/
def FrontOnly (ok : System → Action → Prop) (D : Deployment β) :
    DeploymentAction β → Prop
  | .act a => ok (D.system o) a
  | _ => True

instance (ok : System → Action → Prop) [∀ S a, Decidable (ok S a)]
    (D : Deployment β) (a : DeploymentAction β) : Decidable (FrontOnly o ok D a) :=
  match a with
  | .act a => inferInstanceAs (Decidable (ok (D.system o) a))
  | .take _ | .discard _ | .connect | .deliver _ | .work .. | .write .. | .settle .. | .lose _ | .stray .. =>
    inferInstanceAs (Decidable True)

end

/-! ## What a step is -/

section
variable {β : Type} (encode : PurchaseWriteEntry → β) (o : DrainOptions β PurchaseWriteEntry) (prefetch : Nat)

/-- The steps there are. What a worker does is a step of its loop, or an answer
of its that the broker handles. -/
inductive Deployment.Step (D : Deployment β) : DeploymentAction β → Deployment β → Prop
  | act {a S} : a.isDrain = false → FlashSale.step D.front a = some S → Deployment.Step D (.act a) (D.acted encode S)
  | take {k content} : D.buffered[k]? = some content → Deployment.Step D (.take k) (D.take k content)
  | discard {k content} : D.buffered[k]? = some content → Deployment.Step D (.discard k) (D.discard k content)
  | connect : Deployment.Step D .connect { D with workers := D.workers ++ [⟨Drain.start β PurchaseWriteEntry, []⟩] }
  | deliver {i w content ready d} : D.workers[i]? = some w → D.ready = content :: ready →
      (prefetch = 0 ∨ w.unacked.length < prefetch) → w.drain.step o (.deliver content) = some d →
      Deployment.Step D (.deliver i) { D with
        ready := ready
        workers := D.workers.set i ⟨d, w.unacked ++ [⟨w.drain.delivered, content⟩]⟩ }
  | work {i w a d} : D.workers[i]? = some w → a.isOwn = true → w.drain.step o a = some d →
      Deployment.Step D (.work i a) { D with workers := D.workers.set i { w with drain := d } }
  | wrote {i w fate f n db d} : D.workers[i]? = some w → w.drain.flushing = some f →
      writePurchaseBatch fate f.entries D.db = (.ok n, db) → w.drain.step o .writeResolves = some d →
      Deployment.Step D (.write i fate) { D with db := db, workers := D.workers.set i { w with drain := d } }
  | failed {i w fate f e db d} : D.workers[i]? = some w → w.drain.flushing = some f →
      writePurchaseBatch fate f.entries D.db = (.error e, db) → w.drain.step o .writeRejects = some d →
      Deployment.Step D (.write i fate) { D with db := db, workers := D.workers.set i { w with drain := d } }
  | acked {i w msg} : D.workers[i]? = some w → w.unacked.find? (·.tag = msg.tag) = some msg →
      msg.tag ∈ w.drain.acked →
      Deployment.Step D (.settle i msg.tag) { D with
        workers := D.workers.set i { w with unacked := w.unacked.eraseP (·.tag = msg.tag) }
        acked := D.acked ++ [msg.content] }
  | deadLettered {i w msg} : D.workers[i]? = some w → w.unacked.find? (·.tag = msg.tag) = some msg →
      msg.tag ∈ w.drain.nacked →
      Deployment.Step D (.settle i msg.tag) { D with
        workers := D.workers.set i { w with unacked := w.unacked.eraseP (·.tag = msg.tag) }
        dead := D.dead ++ [msg.content] }
  | lose {i w} : D.workers[i]? = some w → Deployment.Step D (.lose i) (D.lose i w)
  | stray {i held entries fate} : D.lost[i]? = some held → entries ⊆ held.filterMap o.parse →
      Deployment.Step D (.stray i entries fate) { D with db := (writePurchaseBatch fate entries D.db).2 }

variable {encode o prefetch} {D D' : Deployment β}

theorem Deployment.Step.of_step {a : DeploymentAction β} (h : D.step encode o prefetch a = some D') :
    D.Step encode o prefetch a D' := by
  cases a with
  | act a =>
    simp only [Deployment.step] at h
    split at h
    · cases h
    · rename_i hdrain
      obtain ⟨S, hS, rfl⟩ := Option.map_eq_some_iff.1 h
      exact .act (Bool.not_eq_true _ ▸ hdrain) hS
  | take k =>
    obtain ⟨content, hk, rfl⟩ := Option.map_eq_some_iff.1 h
    exact .take hk
  | discard k =>
    obtain ⟨content, hk, rfl⟩ := Option.map_eq_some_iff.1 h
    exact .discard hk
  | connect =>
    obtain rfl := Option.some.inj h
    exact .connect
  | deliver i =>
    obtain ⟨w, hw, h⟩ := Option.bind_eq_some_iff.1 h
    unfold Deployment.deliver at h
    split at h
    · split at h
      · obtain rfl := Option.some.inj h
        exact .deliver hw (by assumption) (by assumption) rfl
      · cases h
    · cases h
  | work i a =>
    obtain ⟨w, hw, h⟩ := Option.bind_eq_some_iff.1 h
    split at h
    · obtain ⟨d, hd, rfl⟩ := Option.map_eq_some_iff.1 h
      exact .work hw (by assumption) hd
    · cases h
  | write i fate =>
    obtain ⟨w, hw, h⟩ := Option.bind_eq_some_iff.1 h
    unfold Deployment.write at h
    split at h
    · cases h
    · rename_i f hf
      rcases hwrite : writePurchaseBatch fate f.entries D.db with ⟨e | n, db⟩
      · rw [hwrite] at h
        obtain ⟨d, hd, rfl⟩ := Option.map_eq_some_iff.1 h
        exact .failed hw hf hwrite hd
      · rw [hwrite] at h
        obtain ⟨d, hd, rfl⟩ := Option.map_eq_some_iff.1 h
        exact .wrote hw hf hwrite hd
  | settle i tag =>
    obtain ⟨w, hw, h⟩ := Option.bind_eq_some_iff.1 h
    unfold Deployment.settle at h
    split at h
    · cases h
    · rename_i msg hfind
      obtain rfl : msg.tag = tag := by simpa using List.find?_some hfind
      simp only [] at h
      split at h
      · obtain rfl := Option.some.inj h
        exact .acked hw hfind (by assumption)
      · split at h
        · obtain rfl := Option.some.inj h
          exact .deadLettered hw hfind (by assumption)
        · cases h
  | lose i =>
    obtain ⟨w, hw, rfl⟩ := Option.map_eq_some_iff.1 h
    exact .lose hw
  | stray i entries fate =>
    obtain ⟨held, hheld, h⟩ := Option.bind_eq_some_iff.1 h
    split at h
    · obtain rfl := Option.some.inj h
      exact .stray hheld (by assumption)
    · cases h

end

end FlashSale
