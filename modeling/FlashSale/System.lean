import FlashSale.Warm
/-!
# The system

Any number of api processes, the worker and the warm script, over one Redis,
one broker and one Postgres. A step is what happens in one store at one
moment: a script, a statement, a transaction, a message handed over. Calls
under way are kept with what they have yet to do, so steps of different calls
interleave freely. `answers` records what every call answered.
-/

namespace FlashSale
open Lib.Runs

/-! ## The state -/

/-- What a call has yet to do after its reservation. -/
inductive Stage where
  /-- It reserved: queue the write. -/
  | publish
  /-- It reserved, and the broker would not take the message: write the row. -/
  | write
  /-- Postgres alone: look the sale up. -/
  | lookup
  /-- Postgres alone, and the sale is open: write the row. -/
  | record
deriving DecidableEq

/-- A call to `purchase` under way in one api process. -/
structure Pending where
  replica : Nat
  saleId : String
  email : String
  now : Int
  stage : Stage
deriving DecidableEq

structure Answer where
  saleId : String
  email : String
  result : Except JsError PurchaseResult

/-- The warm script: the rows it has yet to visit, and the row it is at once it
has read its buyers. -/
structure WarmScript where
  rows : List SaleRow
  reading : Option (SaleRow × List String)
deriving DecidableEq

def WarmScript.idle : WarmScript := ⟨[], none⟩

structure System where
  redis : Redis
  db : Db
  /-- Each api process's row cache. -/
  caches : Nat → Cache
  /-- Messages the broker holds: queued, or delivered and not yet settled. -/
  queue : List PurchaseWriteEntry
  /-- The dead-letter queue. -/
  dead : List PurchaseWriteEntry
  pending : List Pending
  answers : List Answer
  warm : WarmScript

/-! ## The steps -/

inductive Action where
  /-- A call starts: one reservation round trip. Where steps of others come
  between the two runs of a command sent again, the first run is an attempt of
  its own, `resent`, of which nobody hears. -/
  | attempt (replica : Nat) (saleId email : String) (now : Int) (link : Link)
  /-- Call `i` publishes its message, or finds that it cannot. -/
  | publish (i : Nat) (queued : Bool)
  /-- Call `i` looks the sale up. -/
  | lookup (i : Nat) (pgUp : Bool) (now : Int)
  /-- Call `i` writes its row. -/
  | write (i : Nat) (dbNow : Int) (fate : TxFate)
  /-- The worker tries to write a batch; `settled` is whether the ack after a
  success, or the nack after the last failure, reaches the broker. -/
  | drain (entries : List PurchaseWriteEntry) (fate : TxFate) (settled : Bool)
  /-- One page of a flush is deleted. -/
  | flush (keys : List (String × KeyKind))
  /-- A cached row expires. -/
  | expire (replica : Nat) (id : String)
  /-- The warm script starts, and reads the sales. A script cut off earlier is
  gone. -/
  | warmRows (now : Int)
  /-- The warm script reads the buyers of its next sale. -/
  | warmBuyers
  /-- The warm script syncs the sale it is at. -/
  | warmSync
deriving DecidableEq

def Pending.answer (p : Pending) (result : Except JsError PurchaseResult) : Answer := ⟨p.saleId, p.email, result⟩

/-- The message a call publishes. -/
def Pending.message (p : Pending) : PurchaseWriteEntry := ⟨p.saleId, p.email, p.now⟩

/-- Call `i` ends with an answer. -/
def System.finish (S : System) (i : Nat) (p : Pending) (result : Except JsError PurchaseResult) : System :=
  { S with pending := S.pending.eraseIdx i, answers := S.answers ++ [p.answer result] }

/-- Call `i` goes on to `stage`. -/
def System.goOn (S : System) (i : Nat) (p : Pending) (stage : Stage) : System :=
  { S with pending := S.pending.set i { p with stage } }

def stepAttempt (S : System) (replica : Nat) (saleId email : String) (now : Int) (link : Link) : System :=
  let (reservation, redis) := reserve link S.redis saleId email now
  let S := { S with redis }
  let start (stage : Stage) : System := { S with pending := S.pending ++ [⟨replica, saleId, email, now, stage⟩] }
  let refuse (result : PurchaseResult) : System := { S with answers := S.answers ++ [⟨saleId, email, .ok result⟩] }
  match reservation with
  | some .sale_not_active => refuse SALE_NOT_ACTIVE_RESULT
  | some .already_purchased => refuse ALREADY_PURCHASED_RESULT
  | some .sold_out => refuse SOLD_OUT_RESULT
  | some .reserved => start .publish
  | none | some .not_warmed => start .lookup

def stepPublish (S : System) (i : Nat) (p : Pending) (queued : Bool) : System :=
  if queued then { S.finish i p (.ok SUCCESS_RESULT) with queue := S.queue ++ [p.message] }
  else S.goOn i p .write

def stepLookup (S : System) (i : Nat) (p : Pending) (pgUp : Bool) (now : Int) : System :=
  let (found, cache) := findRowById pgUp S.db (S.caches p.replica) p.saleId
  let S := { S with caches := Function.update S.caches p.replica cache }
  match found with
  | .error e => S.finish i p (.error e)
  | .ok none => S.finish i p (.error SALE_NOT_FOUND)
  | .ok (some sale) => if isSaleOpen sale now then S.goOn i p .record else S.finish i p (.ok SALE_NOT_ACTIVE_RESULT)

def stepWrite (S : System) (i : Nat) (p : Pending) (dbNow : Int) (fate : TxFate) : System :=
  let (result, db) := writePurchase fate dbNow p.saleId p.email S.db
  { S.finish i p result with db }

def stepDrain (S : System) (entries : List PurchaseWriteEntry) (fate : TxFate) (settled : Bool) : System :=
  let (written, db) := writePurchaseBatch fate entries S.db
  let queue := if settled then S.queue.diff entries else S.queue
  match written with
  | .ok _ => { S with db, queue }
  | .error _ => { S with db, queue, dead := if settled then S.dead ++ entries else S.dead }

/-- One step, if it can be taken. -/
def step (S : System) : Action → Option System
  | .attempt replica saleId email now link => some (stepAttempt S replica saleId email now link)
  | .publish i queued =>
    match S.pending[i]? with
    | some p => if p.stage = .publish then some (stepPublish S i p queued) else none
    | none => none
  | .lookup i pgUp now =>
    match S.pending[i]? with
    | some p => if p.stage = .lookup then some (stepLookup S i p pgUp now) else none
    | none => none
  | .write i dbNow fate =>
    match S.pending[i]? with
    | some p => if p.stage = .write ∨ p.stage = .record then some (stepWrite S i p dbNow fate) else none
    | none => none
  | .drain entries fate settled => if entries ⊆ S.queue then some (stepDrain S entries fate settled) else none
  | .flush keys => some { S with redis := delKeys S.redis keys }
  | .expire replica id =>
    some { S with caches := Function.update S.caches replica (Function.update (S.caches replica) id none) }
  | .warmRows now => some { S with warm := ⟨S.db.warmRows now, none⟩ }
  | .warmBuyers =>
    match S.warm with
    | ⟨row :: rows, none⟩ => some { S with warm := ⟨rows, some (row, S.db.buyerEmails (.ofText row.id))⟩ }
    | _ => none
  | .warmSync =>
    match S.warm.reading with
    | some (row, buyers) =>
      some { S with redis := syncSale S.redis row.toSync buyers, warm := { S.warm with reading := none } }
    | none => none

/-- Every run of the system. -/
abbrev Reaches (S S' : System) : Prop := Steps step (fun _ _ => True) S S'

/-! ## What a step is -/

/-- The steps there are, each with what it takes. -/
inductive Step (S : System) : Action → System → Prop
  | attempt {replica saleId email now link} :
      Step S (.attempt replica saleId email now link) (stepAttempt S replica saleId email now link)
  | publish {i queued p} : S.pending[i]? = some p → p.stage = .publish →
      Step S (.publish i queued) (stepPublish S i p queued)
  | lookup {i pgUp now p} : S.pending[i]? = some p → p.stage = .lookup →
      Step S (.lookup i pgUp now) (stepLookup S i p pgUp now)
  | write {i dbNow fate p} : S.pending[i]? = some p → p.stage = .write ∨ p.stage = .record →
      Step S (.write i dbNow fate) (stepWrite S i p dbNow fate)
  | drain {entries fate settled} : entries ⊆ S.queue →
      Step S (.drain entries fate settled) (stepDrain S entries fate settled)
  | flush {keys} : Step S (.flush keys) { S with redis := delKeys S.redis keys }
  | expire {replica id} : Step S (.expire replica id)
      { S with caches := Function.update S.caches replica (Function.update (S.caches replica) id none) }
  | warmRows {now} : Step S (.warmRows now) { S with warm := ⟨S.db.warmRows now, none⟩ }
  | warmBuyers {row rows} : S.warm = ⟨row :: rows, none⟩ →
      Step S .warmBuyers { S with warm := ⟨rows, some (row, S.db.buyerEmails (.ofText row.id))⟩ }
  | warmSync {row buyers} : S.warm.reading = some (row, buyers) →
      Step S .warmSync { S with redis := syncSale S.redis row.toSync buyers, warm := { S.warm with reading := none } }

theorem Step.of_step {S S' : System} {a : Action} (h : step S a = some S') : Step S a S' := by
  cases a with
  | attempt replica saleId email now link =>
    obtain rfl := Option.some.inj h
    exact .attempt
  | publish i queued =>
    simp only [step] at h
    split at h
    · split at h
      · obtain rfl := Option.some.inj h
        exact .publish (by assumption) (by assumption)
      · cases h
    · cases h
  | lookup i pgUp now =>
    simp only [step] at h
    split at h
    · split at h
      · obtain rfl := Option.some.inj h
        exact .lookup (by assumption) (by assumption)
      · cases h
    · cases h
  | write i dbNow fate =>
    simp only [step] at h
    split at h
    · split at h
      · obtain rfl := Option.some.inj h
        exact .write (by assumption) (by assumption)
      · cases h
    · cases h
  | drain entries fate settled =>
    simp only [step] at h
    split at h
    · obtain rfl := Option.some.inj h
      exact .drain (by assumption)
    · cases h
  | flush keys =>
    obtain rfl := Option.some.inj h
    exact .flush
  | expire replica id =>
    obtain rfl := Option.some.inj h
    exact .expire
  | warmRows now =>
    obtain rfl := Option.some.inj h
    exact .warmRows
  | warmBuyers =>
    simp only [step] at h
    split at h
    · rename_i hwarm
      obtain rfl := Option.some.inj h
      exact .warmBuyers hwarm
    · cases h
  | warmSync =>
    simp only [step] at h
    split at h
    · rename_i hreading
      obtain rfl := Option.some.inj h
      exact .warmSync hreading
    · cases h

/-- The state after an attempt, by what the reservation answered. -/
theorem stepAttempt_cases (S : System) (replica : Nat) (saleId email : String) (now : Int) (link : Link) :
    let r := reserve link S.redis saleId email now
    (r.1 = some .reserved ∧ stepAttempt S replica saleId email now link =
        { S with redis := r.2, pending := S.pending ++ [⟨replica, saleId, email, now, .publish⟩] }) ∨
      ((r.1 = none ∨ r.1 = some .not_warmed) ∧ stepAttempt S replica saleId email now link =
        { S with redis := r.2, pending := S.pending ++ [⟨replica, saleId, email, now, .lookup⟩] }) ∨
      (r.1 ≠ none ∧ r.1 ≠ some .reserved ∧ ∃ result, result.status ≠ .success ∧
        stepAttempt S replica saleId email now link =
          { S with redis := r.2, answers := S.answers ++ [⟨saleId, email, .ok result⟩] }) := by
  intro r
  unfold stepAttempt
  cases hr : reserve link S.redis saleId email now with
  | mk reservation redis =>
    have h1 : r.1 = reservation := by simp [r, hr]
    have h2 : r.2 = redis := by simp [r, hr]
    rw [h1, h2]
    match reservation with
    | none => exact .inr (.inl ⟨.inl rfl, rfl⟩)
    | some .not_warmed => exact .inr (.inl ⟨.inr rfl, rfl⟩)
    | some .reserved => exact .inl ⟨rfl, rfl⟩
    | some .sold_out => exact .inr (.inr ⟨by simp, by simp, _, by decide, rfl⟩)
    | some .already_purchased => exact .inr (.inr ⟨by simp, by simp, _, by decide, rfl⟩)
    | some .sale_not_active => exact .inr (.inr ⟨by simp, by simp, _, by decide, rfl⟩)

theorem stepAttempt_frame (S : System) (replica : Nat) (saleId email : String) (now : Int) (link : Link) :
    (stepAttempt S replica saleId email now link).db = S.db ∧
      (stepAttempt S replica saleId email now link).queue = S.queue ∧
      (stepAttempt S replica saleId email now link).warm = S.warm ∧
      (stepAttempt S replica saleId email now link).redis = (reserve link S.redis saleId email now).2 := by
  rcases stepAttempt_cases S replica saleId email now link with ⟨-, h⟩ | ⟨-, h⟩ | ⟨-, -, _, -, h⟩ <;>
    rw [h] <;> exact ⟨rfl, rfl, rfl, rfl⟩

theorem stepLookup_frame (S : System) (i : Nat) (p : Pending) (pgUp : Bool) (now : Int) :
    (stepLookup S i p pgUp now).db = S.db ∧ (stepLookup S i p pgUp now).queue = S.queue ∧
      (stepLookup S i p pgUp now).warm = S.warm ∧ (stepLookup S i p pgUp now).redis = S.redis := by
  unfold stepLookup
  rcases findRowById pgUp S.db (S.caches p.replica) p.saleId with ⟨_ | _ | row, cache⟩
  · exact ⟨rfl, rfl, rfl, rfl⟩
  · exact ⟨rfl, rfl, rfl, rfl⟩
  · dsimp only
    split <;> exact ⟨rfl, rfl, rfl, rfl⟩

theorem stepDrain_frame (S : System) (entries : List PurchaseWriteEntry) (fate : TxFate) (settled : Bool) :
    (stepDrain S entries fate settled).db = (writePurchaseBatch fate entries S.db).2 ∧
      (stepDrain S entries fate settled).redis = S.redis ∧ (stepDrain S entries fate settled).warm = S.warm := by
  unfold stepDrain
  rcases writePurchaseBatch fate entries S.db with ⟨_ | _, db⟩ <;> exact ⟨rfl, rfl, rfl⟩

end FlashSale
