import Mathlib.Data.Finset.Card
import Mathlib.Data.Finset.Image
import FlashSale.Lib.Keyed
import FlashSale.Text
/-!
# The Postgres side

The tables `sales` and `purchases` (packages/database/drizzle/*.sql), the
statements the writers send, and what Postgres does with each: the window
trigger, the unique constraint, the foreign key, `ON CONFLICT DO NOTHING` and
the guarded decrement. Columns that no query below reads are left out.
-/

namespace FlashSale
open Lib.Keyed

/-! ## Tables -/

/-- A row of `sales`. Times are microseconds, the resolution of `timestamptz`. -/
structure PgSale where
  id : Uuid
  totalStock : Int
  remainingStock : Int
  startsAt : Int
  endsAt : Int
  cancelledAt : Option Int
deriving DecidableEq

/-- A row of `purchases`. -/
structure PgPurchase where
  saleId : Uuid
  email : String
  purchasedAt : Int
deriving DecidableEq

structure Db where
  sales : List PgSale
  purchases : List PgPurchase
deriving DecidableEq

/-- What `purchases_one_per_user_per_sale` compares: the email is `citext`. -/
def PgPurchase.key (r : PgPurchase) : Uuid × String := (r.saleId, citextLower r.email)

/-- The constraints of migration 0002. -/
structure Db.Schema (db : Db) : Prop where
  sales_pkey : (db.sales.map (·.id)).Nodup
  purchases_one_per_user_per_sale : (db.purchases.map (·.key)).Nodup
  purchases_sale_id_fk : ∀ r ∈ db.purchases, ∃ s ∈ db.sales, s.id = r.saleId
  sales_total_stock_check : ∀ s ∈ db.sales, 0 ≤ s.totalStock
  sales_remaining_stock_check : ∀ s ∈ db.sales, 0 ≤ s.remainingStock
  sales_end_after_start : ∀ s ∈ db.sales, s.startsAt < s.endsAt
  sales_remaining_lte_total : ∀ s ∈ db.sales, s.remainingStock ≤ s.totalStock

/-- `select ... from sales where id = $1`. -/
def Db.sale (db : Db) (id : Uuid) : Option PgSale := db.sales.find? (·.id = id)

/-- The purchases of one sale, in insertion order. -/
def Db.purchasesOf (db : Db) (id : Uuid) : List PgPurchase := db.purchases.filter (·.saleId = id)

/-- The buyers of one sale, by case-folded email. -/
def Db.buyers (db : Db) (id : Uuid) : Finset String :=
  ((db.purchasesOf id).map (normalizeEmail ·.email)).toFinset

/-! ## Errors -/

/-- What a writer can throw. A failed query is a `DrizzleQueryError` whose
`cause` carries the code; the others are thrown by the writers themselves. -/
inductive JsError where
  | coded (code : String)
  | query (cause : JsError)
  | soldOut
  | oversold (saleId : Uuid) (count : Nat)
  | notFound (message : String)
deriving DecidableEq

/-- The message of the error a batch throws when a decrement finds no row. -/
def JsError.message : JsError → Option String
  | .oversold saleId count => some
      s!"writePurchaseBatch: sale {saleId.text} could not absorb a decrement of {count} — remaining_stock would go negative."
  | .notFound message => some message
  | _ => none

/-- `getErrorCode`: the first `code` on the cause chain. -/
def getErrorCode : JsError → Option String
  | .coded code => some code
  | .query cause => getErrorCode cause
  | _ => none

def isPgErrorWithCode (error : JsError) (code : String) : Bool := getErrorCode error = some code

def POSTGRES_UNIQUE_VIOLATION : String := "23505"
def PURCHASE_OUTSIDE_SALE_WINDOW : String := "P1002"
/-- `purchases_sale_id_sales_id_fk`. -/
def foreignKeyViolation : JsError := .query (.coded "23503")
def uniqueViolation : JsError := .query (.coded POSTGRES_UNIQUE_VIOLATION)
def outsideSaleWindow : JsError := .query (.coded PURCHASE_OUTSIDE_SALE_WINDOW)
/-- The pool cannot connect. -/
def connectionRefused : JsError := .coded "ECONNREFUSED"
/-- A query for which the pool cannot connect, or under which its connection
died. -/
def unreachable : JsError := .query connectionRefused

/-! ## Statements -/

/-- Whether the trigger `check_purchase_within_sale_period` raises. For a sale
that does not exist both bounds are NULL, and a NULL condition does not raise. -/
def outsideSalePeriod (db : Db) (row : PgPurchase) : Bool :=
  match db.sale row.saleId with
  | none => false
  | some s => row.purchasedAt < s.startsAt || s.endsAt < row.purchasedAt

/-- `insert into purchases values (...)`: the trigger runs first, then the
unique index, and the foreign key is checked when the statement ends. -/
def insertPurchase (db : Db) (row : PgPurchase) : Except JsError Db :=
  if outsideSalePeriod db row then .error outsideSaleWindow
  else if row.key ∈ db.purchases.map (·.key) then .error uniqueViolation
  else if (db.sale row.saleId).isNone then .error foreignKeyViolation
  else .ok { db with purchases := db.purchases ++ [row] }

/-- One row of a multi-row insert `on conflict do nothing`. The trigger fires
even for a row that is then skipped. -/
def insertRow (db : Db) (inserted : List PgPurchase) (row : PgPurchase) : Except JsError (List PgPurchase) :=
  if outsideSalePeriod db row then .error outsideSaleWindow
  else .ok (addNew PgPurchase.key db.purchases inserted row)

/-- `insert into purchases values (...), ... on conflict do nothing returning`:
the rows it returns, and the table after it. -/
def insertOnConflictDoNothing (db : Db) (rows : List PgPurchase) : Except JsError (List PgPurchase × Db) := do
  let inserted ← rows.foldlM (insertRow db) []
  if inserted.all fun r => (db.sale r.saleId).isSome then
    .ok (inserted, { db with purchases := db.purchases ++ inserted })
  else .error foreignKeyViolation

def PgSale.take (n : Nat) (s : PgSale) : PgSale := { s with remainingStock := s.remainingStock - n }

/-- `update sales set remaining_stock = remaining_stock - n where id = $1 and
remaining_stock >= n returning ...`; `none` when no row matches. -/
def decrementStock (db : Db) (id : Uuid) (n : Nat) : Option Db :=
  if db.sales.any fun s => s.id = id && (n : Int) ≤ s.remainingStock then
    some { db with sales := db.sales.map fun s =>
      if s.id = id && (n : Int) ≤ s.remainingStock then s.take n else s }
  else none

/-! ## Transactions -/

/-- How a transaction ends for its client: it runs its course, it gets no
connection to Postgres, or it commits but the connection dies before the client
hears. -/
inductive TxFate where
  | runs
  | unreachable
  | replyLost
deriving DecidableEq

/-- `db.transaction(callback)`: keeps what the callback left, or rolls all of
it back and rethrows. -/
def transaction {α : Type} (fate : TxFate) (callback : Db → Except JsError (α × Db)) (db : Db) :
    Except JsError α × Db :=
  match fate, callback db with
  | .unreachable, _ => (.error connectionRefused, db)
  | _, .error e => (.error e, db)
  | .runs, .ok (a, db') => (.ok a, db')
  | .replyLost, .ok (_, db') => (.error unreachable, db')

/-! ## Looking a sale up -/

@[simp] theorem PgSale.take_id (n : Nat) (s : PgSale) : (s.take n).id = s.id := rfl
@[simp] theorem PgSale.take_totalStock (n : Nat) (s : PgSale) : (s.take n).totalStock = s.totalStock := rfl
@[simp] theorem PgSale.take_remainingStock (n : Nat) (s : PgSale) :
    (s.take n).remainingStock = s.remainingStock - n := rfl
@[simp] theorem PgSale.take_startsAt (n : Nat) (s : PgSale) : (s.take n).startsAt = s.startsAt := rfl
@[simp] theorem PgSale.take_endsAt (n : Nat) (s : PgSale) : (s.take n).endsAt = s.endsAt := rfl
@[simp] theorem PgSale.take_cancelledAt (n : Nat) (s : PgSale) : (s.take n).cancelledAt = s.cancelledAt := rfl
@[simp] theorem PgSale.take_zero (s : PgSale) : s.take 0 = s := by simp [PgSale.take]

theorem Db.sale_mem {db : Db} {id : Uuid} {s : PgSale} (h : db.sale id = some s) : s ∈ db.sales ∧ s.id = id :=
  ⟨List.mem_of_find?_eq_some h, by simpa using List.find?_some h⟩

theorem Db.sale_eq_none {db : Db} {id : Uuid} : db.sale id = none ↔ ∀ s ∈ db.sales, s.id ≠ id := by
  simp [Db.sale, List.find?_eq_none]

/-- With the primary key, looking up a row's id finds that row. -/
theorem Db.Schema.sale_of_mem {db : Db} (hs : db.Schema) {s : PgSale} (h : s ∈ db.sales) :
    db.sale s.id = some s := by
  cases hf : db.sale s.id with
  | none => exact absurd rfl (Db.sale_eq_none.1 hf s h)
  | some r =>
    obtain ⟨hr, hid⟩ := Db.sale_mem hf
    rw [List.inj_on_of_nodup_map hs.sales_pkey hr h hid]

theorem Db.mem_buyers {db : Db} {id : Uuid} {e : String} :
    e ∈ db.buyers id ↔ ∃ r ∈ db.purchases, r.saleId = id ∧ normalizeEmail r.email = e := by
  simp [Db.buyers, Db.purchasesOf, and_assoc]

theorem Db.mem_buyers_iff_key {db : Db} {id : Uuid} {email : String} :
    normalizeEmail email ∈ db.buyers id ↔ (id, normalizeEmail email) ∈ db.purchases.map (·.key) := by
  simp [Db.mem_buyers, PgPurchase.key]

/-- With the unique constraint, a sale has one buyer for each purchase. -/
theorem Db.Schema.card_buyers {db : Db} (hs : db.Schema) (id : Uuid) :
    (db.buyers id).card = (db.purchasesOf id).length := by
  unfold Db.buyers
  rw [List.toFinset_card_of_nodup, List.length_map]
  have hk := hs.purchases_one_per_user_per_sale
  refine List.Nodup.of_map (fun e => (id, e)) ?_
  rw [List.map_map]
  have he : (db.purchasesOf id).map ((fun e => (id, e)) ∘ (normalizeEmail ·.email)) =
      (db.purchasesOf id).map (·.key) := by
    refine List.map_congr_left fun r hr => ?_
    have : r.saleId = id := by simpa using (List.mem_filter.1 hr).2
    simp [PgPurchase.key, this]
  rw [he]
  exact hk.sublist (List.filter_sublist.map _)

end FlashSale
