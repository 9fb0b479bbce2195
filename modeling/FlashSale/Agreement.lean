import FlashSale.Lib.Runs
import FlashSale.Purchases
/-!
# The gate and the Postgres-only path agree

A warmed sale's keys hold what its row and its purchases say. In that state,
an attempt the script decides and the same attempt through `recordPurchase`
get the same answer, and leave the keys and the rows saying the same again.
So the two answer any list of attempts alike.
-/

namespace FlashSale
open Lib.Runs

/-! ## In sync -/

/-- What the warm script passes to `syncSale`. -/
def SaleRow.toSync (row : SaleRow) : SyncSaleInput where
  id := row.id
  remainingStock := row.remainingStock
  startsAt := row.startsAt
  endsAt := row.endsAt
  cancelledAt := row.cancelledAt

/-- `select email from purchases where sale_id = $1`. -/
def Db.buyerEmails (db : Db) (id : Uuid) : List String := (db.purchasesOf id).map (·.email)

/-- The keys of a sale loaded from its row and its purchases. -/
def warmedKeys (db : Db) (s : PgSale) : SaleKeys := syncedKeys s.toRow.toSync (db.buyerEmails s.id)

def InSync (keys : SaleKeys) (db : Db) (id : Uuid) : Prop := ∃ s, db.sale id = some s ∧ keys = warmedKeys db s

theorem PgSale.WholeMs.take {s : PgSale} (h : s.WholeMs) (n : Nat) : (s.take n).WholeMs := ⟨h.startsAt, h.endsAt⟩

/-- Its keys hold the buyers of the sale. -/
theorem warmedKeys_buyers (db : Db) (s : PgSale) : (warmedKeys db s).saleBuyers = db.buyers s.id := by
  simp [warmedKeys, syncedKeys, Db.buyerEmails, Db.buyers, List.map_map, Function.comp_def]

/-- Whether Postgres takes the row at `now` is what the script checks first. -/
theorem isSaleOpen_toRow (s : PgSale) (now : Int) :
    isSaleOpen s.toRow now = true ↔
      ¬ (s.cancelledAt.isSome ∨ now < s.startsAt / 1000 ∨ s.endsAt / 1000 ≤ now) := by
  cases hc : s.cancelledAt <;> simp [isSaleOpen, PgSale.toRow, hc]

/-- An open sale's window, as the trigger reads it. -/
theorem PgSale.WholeMs.inside {s : PgSale} (h : s.WholeMs) {now : Int} (ho : isSaleOpen s.toRow now = true) :
    ¬ (now * 1000 < s.startsAt ∨ s.endsAt < now * 1000) := by
  have := (isSaleOpen_toRow s now).1 ho
  have := h.startsAt
  have := h.endsAt
  omega

/-! ## One attempt -/

structure Attempt where
  email : String
  /-- Milliseconds; Postgres's clock shows the same instant. -/
  now : Int
  /-- Whether the cached row expired before this attempt. -/
  expired : Bool
deriving DecidableEq

/-- What a buyer is told; `reserved` is a success, and `not_warmed` no answer. -/
def ReservationCode.told : ReservationCode → Option PurchaseResult
  | .reserved => some SUCCESS_RESULT
  | .sold_out => some SOLD_OUT_RESULT
  | .already_purchased => some ALREADY_PURCHASED_RESULT
  | .sale_not_active => some SALE_NOT_ACTIVE_RESULT
  | .not_warmed => none

/-- The attempt through the script. -/
def Attempt.gate (keys : SaleKeys) (a : Attempt) : ReservationCode × SaleKeys :=
  reserveScript (normalizeEmail a.email) a.now keys

/-- Nothing fails, and every clock shows the instant of the attempt. -/
def Attempt.env (a : Attempt) : Env where
  now := a.now
  link := .notReady
  queued := false
  pgUp := true
  lookupNow := a.now
  dbNow := a.now * 1000
  fate := .runs

/-- The attempt through Postgres alone. -/
def Attempt.postgres (saleId : String) (w : World) (a : Attempt) : Except JsError PurchaseResult × World :=
  recordPurchase a.env saleId a.email (if a.expired then { w with cache := Function.update w.cache saleId none } else w)

/-- The keys and the world of a sale that the two paths keep alike. -/
structure Alike (saleId : String) (keys : SaleKeys) (w : World) : Prop where
  schema : w.db.Schema
  wholeMs : ∀ s, w.db.sale (.ofText saleId) = some s → s.WholeMs
  coherent : w.cache.Coherent w.db
  inSync : InSync keys w.db (.ofText saleId)

/-! ### The script's answer on the keys of a row -/

theorem gate_warmed (db : Db) (s : PgSale) (a : Attempt) :
    a.gate (warmedKeys db s) =
      if isSaleOpen s.toRow a.now = false then (.sale_not_active, warmedKeys db s)
      else if normalizeEmail a.email ∈ db.buyers s.id then (.already_purchased, warmedKeys db s)
      else if s.remainingStock ≤ 0 then (.sold_out, warmedKeys db s)
      else (.reserved, (warmedKeys db s).spend s.remainingStock (normalizeEmail a.email)) := by
  have hopen : isSaleOpen s.toRow a.now = false ↔
      (s.cancelledAt.isSome ∨ a.now < s.startsAt / 1000 ∨ s.endsAt / 1000 ≤ a.now) := by
    rw [← Bool.not_eq_true, isSaleOpen_toRow, not_not]
  have hscript := reserveScript_synced (normalizeEmail a.email) a.now s.toRow.toSync (db.buyerEmails s.id)
  rw [show s.toRow.toSync.cancelledAt.isSome = s.cancelledAt.isSome by simp [PgSale.toRow, SaleRow.toSync]] at hscript
  exact hscript.trans (if_congr hopen.symm rfl (if_congr (by rw [← warmedKeys_buyers]; rfl) rfl rfl))

/-- One purchase changes the keys a sale would be loaded with as the script
changes them. -/
theorem warmedKeys_sell {db : Db} {s : PgSale} {dbNow : Int} {saleId email : String}
    (h : Sold db (db.sell (purchaseRow dbNow saleId email)) [purchaseRow dbNow saleId email])
    (hs : db.sale (.ofText saleId) = some s) :
    InSync ((warmedKeys db s).spend s.remainingStock (normalizeEmail email))
      (db.sell (purchaseRow dbNow saleId email)) (.ofText saleId) := by
  have hid := (Db.sale_mem hs).2
  have hunits : unitsOf [purchaseRow dbNow saleId email] (.ofText saleId) = 1 := by
    simp [unitsOf, purchaseRow]
  refine ⟨s.take 1, by rw [h.sale, hs, hunits]; rfl, SaleKeys.ext ?_ ?_ ?_⟩
  · simp [warmedKeys, SaleKeys.spend, syncedKeys, SaleRow.toSync, PgSale.toRow]
  · simp [warmedKeys, SaleKeys.spend, syncedKeys, SaleRow.toSync, PgSale.toRow]
  · rw [warmedKeys_buyers, PgSale.take_id, hid, h.buyers]
    have hnew : buyersOf [purchaseRow dbNow saleId email] (.ofText saleId) = {normalizeEmail email} := by
      simp [buyersOf, purchaseRow]
    rw [hnew, Finset.union_comm, ← hid, ← warmedKeys_buyers]
    rfl

theorem Cache.Coherent.sold {cache : Cache} {db db' : Db} {new : List PgPurchase} (hc : cache.Coherent db)
    (h : Sold db db' new) : cache.Coherent db' := by
  intro id cached hcached
  obtain ⟨s, hs, hrow⟩ := hc id cached hcached
  exact ⟨s.take _, by rw [h.sale, hs]; rfl, hrow⟩

/-! ### The Postgres-only answer -/

/-- What `recordPurchase` answers, on a database whose clock and the api's show
the same instant. -/
theorem recordPurchase_now {saleId : String} {w : World} (hs : w.db.Schema) (hc : w.cache.Coherent w.db)
    {s : PgSale} (hsale : w.db.sale (.ofText saleId) = some s) (hms : s.WholeMs) (a : Attempt) :
    (recordPurchase a.env saleId a.email w).1 = (.ok
      (if isSaleOpen s.toRow a.now = false then SALE_NOT_ACTIVE_RESULT
      else if normalizeEmail a.email ∈ w.db.buyers s.id then ALREADY_PURCHASED_RESULT
      else if s.remainingStock ≤ 0 then SOLD_OUT_RESULT
      else SUCCESS_RESULT)) ∧
    (recordPurchase a.env saleId a.email w).2.db =
      (if isSaleOpen s.toRow a.now = true ∧ normalizeEmail a.email ∉ w.db.buyers s.id ∧ 0 < s.remainingStock then
        w.db.sell (purchaseRow (a.now * 1000) saleId a.email) else w.db) ∧
    (recordPurchase a.env saleId a.email w).2.cache.Coherent w.db := by
  have hid := (Db.sale_mem hsale).2
  have hcache := findRowById_cache hc true saleId
  unfold recordPurchase
  rw [show a.env.pgUp = true from rfl]
  rcases findRowById_coherent hc saleId with ⟨row, s', hrow, hs', hopen⟩ | ⟨-, hnone⟩
  · obtain rfl : s = s' := Option.some.inj (hsale.symm.trans hs')
    cases hf : findRowById true w.db w.cache saleId with
    | mk found cache =>
      rw [hf] at hrow hcache
      obtain rfl : found = .ok (some row) := hrow
      simp only [show a.env.lookupNow = a.now from rfl, hopen]
      -- The cached row decides the window; the trigger, at the same instant, agrees.
      by_cases ho : isSaleOpen s.toRow a.now = true
      · have hin := hms.inside ho
        have hw := writePurchase_runs hs (a.now * 1000) saleId a.email
        rw [hsale] at hw
        simp only [hin, if_false, ← hid] at hw
        rw [if_pos ho]
        simp only [World.writePurchase, show a.env.fate = .runs from rfl,
          show a.env.dbNow = a.now * 1000 from rfl, hw, ho]
        refine ⟨?_, ?_, hcache⟩ <;> by_cases hb : normalizeEmail a.email ∈ w.db.buyers s.id
        · simp [hb]
        · by_cases hz : s.remainingStock ≤ 0 <;> simp [hb, hz]
        · simp [hb]
        · by_cases hz : s.remainingStock ≤ 0
          · have : ¬ 0 < s.remainingStock := by omega
            simp [hb, hz, this]
          · have : 0 < s.remainingStock := by omega
            simp [hb, hz, this]
      · simp only [Bool.not_eq_true] at ho
        simp [ho, hcache]
  · rw [hnone] at hsale
    cases hsale

/-- An attempt gets the same answer from the script as from Postgres, and
leaves the two alike. -/
theorem attempt_agrees {saleId : String} {keys : SaleKeys} {w : World} (h : Alike saleId keys w) (a : Attempt) :
    (a.gate keys).1.told.map .ok = some (a.postgres saleId w).1 ∧
      Alike saleId (a.gate keys).2 (a.postgres saleId w).2 := by
  obtain ⟨hs, hms, hc, s, hsale, rfl⟩ := h
  have hid := (Db.sale_mem hsale).2
  set w₁ := if a.expired then { w with cache := Function.update w.cache saleId none } else w with hw₁
  have hdb : w₁.db = w.db := by rw [hw₁]; split <;> rfl
  have hc₁ : w₁.cache.Coherent w₁.db := by
    rw [hdb, hw₁]
    split
    · exact hc.expire saleId
    · exact hc
  have hpost : a.postgres saleId w = recordPurchase a.env saleId a.email w₁ := rfl
  obtain ⟨hanswer, hafter, hcache⟩ := recordPurchase_now (hdb ▸ hs) hc₁ (hdb ▸ hsale) (hms s hsale) a
  rw [hdb] at hanswer hafter hcache
  rw [hpost, hanswer, gate_warmed]
  -- The keys stay, the rows stay: one argument for every refusal.
  have kept (hno : ¬ (isSaleOpen s.toRow a.now = true ∧ normalizeEmail a.email ∉ w.db.buyers s.id ∧
      0 < s.remainingStock)) : Alike saleId (warmedKeys w.db s) (recordPurchase a.env saleId a.email w₁).2 := by
    rw [if_neg hno] at hafter
    exact ⟨hafter ▸ hs, hafter ▸ hms, hafter ▸ hcache, s, hafter ▸ hsale, by rw [hafter]⟩
  by_cases ho : isSaleOpen s.toRow a.now = false
  · simp only [ho, if_true]
    exact ⟨rfl, kept (by simp [ho])⟩
  by_cases hb : normalizeEmail a.email ∈ w.db.buyers s.id
  · simp only [ho, hb, if_true]
    exact ⟨rfl, kept (by simp [hb])⟩
  by_cases hz : s.remainingStock ≤ 0
  · simp only [ho, hb, hz, if_true, if_false]
    exact ⟨rfl, kept (by omega)⟩
  -- What is left is the success: a unit and a buyer on either side.
  simp only [ho, hb, hz, if_false]
  rw [Bool.not_eq_false] at ho
  rw [if_pos ⟨ho, hb, by omega⟩] at hafter
  have hsold := hs.sell a.email hsale ((hms s hsale).inside ho) (hid ▸ hb) hz
  refine ⟨rfl, hafter ▸ hsold.schema hs, fun t ht => ?_, hafter ▸ hcache.sold hsold,
    hafter ▸ warmedKeys_sell hsold hsale⟩
  rw [hafter, hsold.sale, hsale] at ht
  obtain rfl := Option.some.inj ht
  exact (hms s hsale).take _

/-! ## Any list of attempts -/

/-- The script and the Postgres-only path, started in sync, answer every list
of attempts alike, and end in sync. -/
theorem gate_agrees_with_postgres {saleId : String} {keys : SaleKeys} {w : World} (hs : w.db.Schema)
    (hms : ∀ s, w.db.sale (.ofText saleId) = some s → s.WholeMs) (hc : w.cache.Coherent w.db)
    (hsync : InSync keys w.db (.ofText saleId)) (attempts : List Attempt) :
    (answers Attempt.gate keys attempts).1.map (fun code => code.told.map .ok) =
        (answers (Attempt.postgres saleId) w attempts).1.map some ∧
      InSync (answers Attempt.gate keys attempts).2 (answers (Attempt.postgres saleId) w attempts).2.db
        (.ofText saleId) := by
  have h := answers_agree (f := Attempt.gate) (g := Attempt.postgres saleId) (R := Alike saleId)
    (p := fun code : ReservationCode => code.told.map (Except.ok (ε := JsError))) (q := some)
    (fun _ _ a halike => attempt_agrees halike a) ⟨hs, hms, hc, hsync⟩ attempts
  exact ⟨h.1, h.2.inSync⟩

theorem demoDb_wholeMs {stock : Nat} {id : Uuid} {s : PgSale} (h : (demoDb stock).sale id = some s) : s.WholeMs := by
  have hm := (Db.sale_mem h).1
  obtain rfl : s = ⟨demoId, stock, stock, 0, 1000000, none⟩ := by simpa [demoDb] using hm
  exact ⟨rfl, rfl⟩

/-- Too early, the last unit, the same buyer again, sold out, too late. -/
theorem gate_agrees_demo :
    let attempts := [⟨"ann@example.com", -1, false⟩, ⟨"Ann@example.com", 0, false⟩, ⟨"ann@example.com", 7, true⟩,
      ⟨"bob@example.com", 7, false⟩, ⟨"bob@example.com", 1000, false⟩]
    (answers Attempt.gate (demoWorld.redis demoId.text) attempts).1.map (fun code => code.told.map .ok) =
        (answers (Attempt.postgres demoId.text) demoWorld attempts).1.map some ∧
      InSync (answers Attempt.gate (demoWorld.redis demoId.text) attempts).2
        (answers (Attempt.postgres demoId.text) demoWorld attempts).2.db (.ofText demoId.text) :=
  gate_agrees_with_postgres (demoDb_schema 1) (fun _ h => demoDb_wholeMs h) (fun _ _ h => by simp [demoWorld] at h)
    ⟨⟨demoId, 1, 1, 0, 1000000, none⟩, by decide, by decide⟩ _

end FlashSale
