import FlashSale.Redis
import FlashSale.Sales
import FlashSale.Ledger
/-!
# The purchase endpoint

`PurchasesService.purchase` (apps/api): reserve in Redis, then either queue the
write, write it to Postgres, or go through Postgres alone. `Env` is what the
call does not control: the clocks, and what becomes of each round trip.
-/

namespace FlashSale

/-! ## The call -/

/-- The reservation round trip: the client is not connected, the command fails
before Redis runs it, Redis runs it but the reply is lost, it is answered, or
the reply is lost with the connection and ioredis sends the command again on the
next one, as it does unless told not to: then the second run is answered. -/
inductive Link where
  | notReady
  | failed
  | replyLost
  | answered
  | resent
deriving DecidableEq

/-- The script runs. -/
def Link.executes : Link → Bool
  | .notReady | .failed => false
  | .replyLost | .answered | .resent => true

/-- The call hears what the script answers. -/
def Link.heard : Link → Bool
  | .notReady | .failed | .replyLost => false
  | .answered | .resent => true

/-- `PurchaseReserveService.reserve`; `none` is its null. -/
def reserve (link : Link) (redis : Redis) (saleId email : String) (now : Int) : Option ReservationCode × Redis :=
  match link with
  | .notReady | .failed => (none, redis)
  | .replyLost => (none, (reservePurchase redis saleId email now).2)
  | .answered =>
    let (code, redis) := reservePurchase redis saleId email now
    (some code, redis)
  | .resent =>
    let (_, redis) := reservePurchase redis saleId email now
    let (code, redis) := reservePurchase redis saleId email now
    (some code, redis)

structure Env where
  /-- `Date.now()` at the start of the call, in milliseconds. -/
  now : Int
  link : Link
  /-- Whether `PurchaseQueueService.publish` answers true. -/
  queued : Bool
  /-- Whether the row lookup is answered, and `new Date()` after it. -/
  pgUp : Bool
  lookupNow : Int
  /-- Postgres's clock, in microseconds, and the fate of the transaction. -/
  dbNow : Int
  fate : TxFate
deriving DecidableEq

/-- The stores a call touches, and its own process's cache. -/
structure World where
  redis : Redis
  queue : List PurchaseWriteEntry
  db : Db
  cache : Cache

def SALE_NOT_FOUND : JsError := .notFound "Sale not found"

/-- `writePurchase` on the call's stores. -/
def World.writePurchase (env : Env) (saleId email : String) (w : World) : Except JsError PurchaseResult × World :=
  let (result, db) := FlashSale.writePurchase env.fate env.dbNow saleId email w.db
  (result, { w with db })

/-- `recordPurchase`: the Postgres-only flow. -/
def recordPurchase (env : Env) (saleId email : String) (w : World) : Except JsError PurchaseResult × World :=
  match findRowById env.pgUp w.db w.cache saleId with
  | (.error e, cache) => (.error e, { w with cache })
  | (.ok none, cache) => (.error SALE_NOT_FOUND, { w with cache })
  | (.ok (some sale), cache) =>
    if isSaleOpen sale env.lookupNow then World.writePurchase env saleId email { w with cache }
    else (.ok SALE_NOT_ACTIVE_RESULT, { w with cache })

def purchase (env : Env) (saleId email : String) (w : World) : Except JsError PurchaseResult × World :=
  let (reservation, redis) := reserve env.link w.redis saleId email env.now
  let w := { w with redis }
  match reservation with
  | some .sale_not_active => (.ok SALE_NOT_ACTIVE_RESULT, w)
  | some .already_purchased => (.ok ALREADY_PURCHASED_RESULT, w)
  | some .sold_out => (.ok SOLD_OUT_RESULT, w)
  | some .reserved =>
    if env.queued then
      (.ok SUCCESS_RESULT, { w with queue := w.queue ++ [{ saleId, email, reservedAt := env.now }] })
    else w.writePurchase env saleId email
  | none | some .not_warmed => recordPurchase env saleId email w

/-! ## What the parts touch -/

theorem reserve_redis (link : Link) (redis : Redis) (saleId email : String) (now : Int) :
    (reserve link redis saleId email now).2 =
      if link.executes then (reservePurchase redis saleId email now).2 else redis := by
  cases link with
  | resent => simp [reserve, Link.executes, reservePurchase_again]
  | _ => rfl

/-- A call is told the code of the script's first run, unless that run reserved
and its reply was lost: then ioredis's second try is told of a purchase. -/
theorem reserve_code (link : Link) (redis : Redis) (saleId email : String) (now : Int) :
    (reserve link redis saleId email now).1 =
      if ¬ link.heard then none
      else if link = .resent ∧ (reservePurchase redis saleId email now).1 = .reserved then some .already_purchased
      else some (reservePurchase redis saleId email now).1 := by
  cases link with
  | resent =>
    simp only [reserve, reservePurchase_again, Link.heard]
    split <;> simp_all
  | _ => simp [reserve, Link.heard]

@[simp] theorem World.writePurchase_redis (env : Env) (saleId email : String) (w : World) :
    (w.writePurchase env saleId email).2.redis = w.redis := rfl

@[simp] theorem World.writePurchase_queue (env : Env) (saleId email : String) (w : World) :
    (w.writePurchase env saleId email).2.queue = w.queue := rfl

@[simp] theorem recordPurchase_redis (env : Env) (saleId email : String) (w : World) :
    (recordPurchase env saleId email w).2.redis = w.redis := by
  unfold recordPurchase
  rcases findRowById env.pgUp w.db w.cache saleId with ⟨_ | _ | row, cache⟩ <;> simp only []
  split <;> rfl

@[simp] theorem recordPurchase_queue (env : Env) (saleId email : String) (w : World) :
    (recordPurchase env saleId email w).2.queue = w.queue := by
  unfold recordPurchase
  rcases findRowById env.pgUp w.db w.cache saleId with ⟨_ | _ | row, cache⟩ <;> simp only []
  split <;> rfl

/-- Nothing after the script touches Redis: a purchase leaves it as its
reservation did. -/
theorem purchase_redis (env : Env) (saleId email : String) (w : World) :
    (purchase env saleId email w).2.redis = (reserve env.link w.redis saleId email env.now).2 := by
  unfold purchase
  rcases reserve env.link w.redis saleId email env.now with ⟨_ | code, redis⟩
  · simp
  · cases code <;> simp only [recordPurchase_redis]
    split <;> rfl

/-! ## A purchase that fails -/

/-- The script runs, and promises the buyer a unit. -/
def Reserves (env : Env) (saleId email : String) (w : World) : Prop :=
  env.link.executes ∧ (reserveScript (normalizeEmail email) env.now (w.redis saleId)).1 = .reserved

instance (env : Env) (saleId email : String) (w : World) : Decidable (Reserves env saleId email w) :=
  inferInstanceAs (Decidable (_ ∧ _))

/-- The unit and the buyer of a reservation that came to nothing. -/
structure Stranded (keys keys' : SaleKeys) (email : String) : Prop where
  spent : ∃ stock, keys.Stocks stock ∧ 0 < stock ∧ keys' = keys.spend stock email
  recorded : email ∉ keys.saleBuyers ∧ email ∈ keys'.saleBuyers
  told : ∀ now, keys'.Open now → reserveScript email now keys' = (.already_purchased, keys')

theorem purchase_redis_of_not_reserves {env : Env} {saleId email : String} {w : World}
    (h : ¬ Reserves env saleId email w) : (purchase env saleId email w).2.redis = w.redis := by
  rw [purchase_redis, reserve_redis]
  split
  · exact reservePurchase_kept fun hr => h ⟨by assumption, hr⟩
  · rfl

theorem purchase_stranded {env : Env} {saleId email : String} {w : World} (h : Reserves env saleId email w) :
    (∀ id, id ≠ saleId → (purchase env saleId email w).2.redis id = w.redis id) ∧
      Stranded (w.redis saleId) ((purchase env saleId email w).2.redis saleId) (normalizeEmail email) := by
  obtain ⟨hx, hcode⟩ := h
  obtain ⟨stock, -, hb, hs, hpos, hk⟩ := reserveScript_reserved hcode
  rw [purchase_redis, reserve_redis, if_pos hx, reservePurchase_self, hk]
  refine ⟨fun id hid => reservePurchase_other _ _ _ hid, ⟨stock, hs, hpos, rfl⟩, ⟨hb, ?_⟩, fun now ho => ?_⟩
  · exact Finset.mem_insert_self _ _
  · exact reserveScript_recorded ho (Finset.mem_insert_self _ _)

/-- The Postgres-only flow answers success, or that the buyer has a purchase,
only if the buyer then has a row. -/
theorem recordPurchase_answer {env : Env} {saleId email : String} {w : World} (hs : w.db.Schema)
    (h : (recordPurchase env saleId email w).1 = .ok SUCCESS_RESULT ∨
      (recordPurchase env saleId email w).1 = .ok ALREADY_PURCHASED_RESULT) :
    normalizeEmail email ∈ (recordPurchase env saleId email w).2.db.buyers (.ofText saleId) := by
  unfold recordPurchase at h ⊢
  cases hf : findRowById env.pgUp w.db w.cache saleId with
  | mk found cache =>
    rw [hf] at h
    match found with
    | .error e => simp at h
    | .ok none => simp at h
    | .ok (some row) =>
      simp only [] at h ⊢
      split at h
      · rename_i ho
        rw [if_pos ho]
        exact writePurchase_answer hs h
      · simp [SALE_NOT_ACTIVE_RESULT, SUCCESS_RESULT, ALREADY_PURCHASED_RESULT] at h

/-- A call that reserved on a command sent again is told that the buyer has a
purchase, though none is written or queued. -/
theorem purchase_resent {env : Env} {saleId email : String} {w : World} (h : Reserves env saleId email w)
    (hlink : env.link = .resent) : (purchase env saleId email w).1 = .ok ALREADY_PURCHASED_RESULT ∧
      (purchase env saleId email w).2.db = w.db ∧ (purchase env saleId email w).2.queue = w.queue := by
  have hcode := reserve_code env.link w.redis saleId email env.now
  rw [hlink, if_neg (by simp [Link.heard]), if_pos ⟨rfl, h.2⟩, ← hlink] at hcode
  unfold purchase
  rcases hr : reserve env.link w.redis saleId email env.now with ⟨code, redis⟩
  rw [hr] at hcode
  obtain rfl : code = some .already_purchased := hcode
  exact ⟨rfl, rfl, rfl⟩

/-- Any other call that reserved, queued nothing and left no row was told
neither that it succeeded nor that the buyer has a purchase already. -/
theorem purchase_refused {env : Env} {saleId email : String} {w : World} (hs : w.db.Schema)
    (h : Reserves env saleId email w) (hlink : env.link ≠ .resent)
    (hrow : normalizeEmail email ∉ (purchase env saleId email w).2.db.buyers (.ofText saleId))
    (hmsg : (purchase env saleId email w).2.queue = w.queue) :
    (purchase env saleId email w).1 ≠ .ok SUCCESS_RESULT ∧
      (purchase env saleId email w).1 ≠ .ok ALREADY_PURCHASED_RESULT := by
  rw [← not_or]
  intro hans
  apply hrow
  clear hrow
  obtain ⟨hx, hcode⟩ := h
  unfold purchase at hans hmsg ⊢
  cases hl : env.link with
  | notReady => simp [hl, Link.executes] at hx
  | failed => simp [hl, Link.executes] at hx
  | resent => exact absurd hl hlink
  | replyLost =>
    simp only [hl, reserve] at hans ⊢
    exact recordPurchase_answer hs hans
  | answered =>
    have hcode' : (reservePurchase w.redis saleId email env.now).1 = .reserved := hcode
    simp only [hl, reserve, hcode'] at hans hmsg ⊢
    cases hq : env.queued with
    | true => simp [hq] at hmsg
    | false =>
      simp only [hq, Bool.false_eq_true, if_false] at hans ⊢
      exact writePurchase_answer hs hans

/-- A warmed sale of one unit, and a call whose broker and database are down. -/
def demoWorld : World where
  redis := syncSale (fun _ => .none) ⟨demoId.text, 1, 0, 1000, none⟩ []
  queue := []
  db := demoDb 1
  cache := fun _ => none

def demoOutage : Env where
  now := 5
  link := .answered
  queued := false
  pgUp := false
  lookupNow := 5
  dbNow := 5000
  fate := .unreachable

end FlashSale
