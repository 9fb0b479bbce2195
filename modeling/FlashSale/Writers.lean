import FlashSale.Postgres
/-!
# The two writers

`writePurchase` (apps/api) writes one purchase in a transaction,
`writePurchaseBatch` (packages/database) a worker batch. `Sold` says what a
writer can do to the database: `writePurchase_sold` and
`writePurchaseBatch_sold` sum both up, and nothing later looks at their code
again, except for the errors they throw.
-/

namespace FlashSale
open Lib.Keyed

/-! ## Results -/

inductive PurchaseStatus where
  | success
  | already_purchased
  | sold_out
  | sale_not_active
deriving DecidableEq

structure PurchaseResult where
  status : PurchaseStatus
  message : String
deriving DecidableEq

def SUCCESS_RESULT : PurchaseResult := ⟨.success, "You've successfully secured your item!"⟩
def ALREADY_PURCHASED_RESULT : PurchaseResult := ⟨.already_purchased, "You have already purchased this item."⟩
def SOLD_OUT_RESULT : PurchaseResult := ⟨.sold_out, "Sorry, this item is sold out."⟩
def SALE_NOT_ACTIVE_RESULT : PurchaseResult := ⟨.sale_not_active, "This sale is not currently active."⟩

/-! ## The single-row write -/

/-- The row a single write inserts; `purchased_at` defaults to the start of the
transaction, on the database's clock. -/
def purchaseRow (dbNow : Int) (saleId email : String) : PgPurchase := ⟨.ofText saleId, email, dbNow⟩

/-- The callback of `writePurchase`'s transaction: insert first, decrement
second. On an integer column `remaining_stock > 0` is `remaining_stock >= 1`. -/
def writePurchaseTx (dbNow : Int) (saleId email : String) (db : Db) : Except JsError (Unit × Db) := do
  let db ← insertPurchase db (purchaseRow dbNow saleId email)
  match decrementStock db (.ofText saleId) 1 with
  | some db => .ok ((), db)
  | none => .error .soldOut

/-- `writePurchase`'s catch block: three errors are answers, the rest rethrow. -/
def writePurchaseCatch (error : JsError) : Except JsError PurchaseResult :=
  if error = .soldOut then .ok SOLD_OUT_RESULT
  else if isPgErrorWithCode error POSTGRES_UNIQUE_VIOLATION then .ok ALREADY_PURCHASED_RESULT
  else if isPgErrorWithCode error PURCHASE_OUTSIDE_SALE_WINDOW then .ok SALE_NOT_ACTIVE_RESULT
  else .error error

def writePurchase (fate : TxFate) (dbNow : Int) (saleId email : String) (db : Db) :
    Except JsError PurchaseResult × Db :=
  match transaction fate (writePurchaseTx dbNow saleId email) db with
  | (.ok _, db') => (.ok SUCCESS_RESULT, db')
  | (.error e, db') => (writePurchaseCatch e, db')

/-! ## The batched write -/

structure PurchaseWriteEntry where
  saleId : String
  email : String
  /-- Milliseconds; becomes `purchased_at`. -/
  reservedAt : Int
deriving DecidableEq

def PurchaseWriteEntry.row (entry : PurchaseWriteEntry) : PgPurchase :=
  ⟨.ofText entry.saleId, entry.email, entry.reservedAt * 1000⟩

/-- `countBySale`: the rows actually inserted, counted by sale. -/
def countBySale (inserted : List PgPurchase) : List (Uuid × Nat) := tally (inserted.map (·.saleId))

/-- The loop over `countBySale`: one guarded decrement for each sale. -/
def decrementAll (db : Db) : List (Uuid × Nat) → Except JsError Db
  | [] => .ok db
  | (id, n) :: counts =>
    match decrementStock db id n with
    | some db => decrementAll db counts
    | none => .error (.oversold id n)

def writePurchaseBatchTx (entries : List PurchaseWriteEntry) (db : Db) : Except JsError (Nat × Db) := do
  let (inserted, db) ← insertOnConflictDoNothing db (entries.map (·.row))
  let db ← decrementAll db (countBySale inserted)
  .ok (inserted.length, db)

/-- The number of rows written, or the error that rolled the batch back. An
empty batch opens no transaction. -/
def writePurchaseBatch (fate : TxFate) (entries : List PurchaseWriteEntry) (db : Db) : Except JsError Nat × Db :=
  if entries = [] then (.ok 0, db) else transaction fate (writePurchaseBatchTx entries) db

/-! ## What a writer does to the database -/

/-- How many of `rows` are purchases of `id`. -/
def unitsOf (rows : List PgPurchase) (id : Uuid) : Nat := rows.countP (·.saleId = id)

/-- `db'` is `db` with the purchases `new` sold: each takes one unit from its
own sale, no buyer gets two, and no sale sells more than it had. -/
structure Sold (db db' : Db) (new : List PgPurchase) : Prop where
  purchases : db'.purchases = db.purchases ++ new
  sales : db'.sales = db.sales.map fun s => s.take (unitsOf new s.id)
  once : (new.map (·.key)).Nodup
  fresh : ∀ r ∈ new, r.key ∉ db.purchases.map (·.key)
  absorbs : ∀ s ∈ db.sales, (unitsOf new s.id : Int) ≤ s.remainingStock
  known : ∀ r ∈ new, ∃ s ∈ db.sales, s.id = r.saleId

theorem Db.Schema.sold_nothing {db : Db} (hs : db.Schema) : Sold db db [] where
  purchases := by simp
  sales := by simp [unitsOf]
  once := by simp
  fresh := by simp
  absorbs s h := by simpa [unitsOf] using hs.sales_remaining_stock_check s h
  known := by simp

/-! ### The guarded decrement -/

theorem decrementStock_some {db db' : Db} (hs : (db.sales.map (·.id)).Nodup) {id : Uuid} {n : Nat}
    (h : decrementStock db id n = some db') :
    (∃ s ∈ db.sales, s.id = id ∧ (n : Int) ≤ s.remainingStock) ∧ db'.purchases = db.purchases ∧
      db'.sales = db.sales.map fun s => if s.id = id then s.take n else s := by
  unfold decrementStock at h
  split at h
  · rename_i hany
    obtain ⟨s, hm, hg⟩ := List.any_eq_true.1 hany
    simp only [Bool.and_eq_true, decide_eq_true_eq] at hg
    obtain rfl := Option.some.inj h
    refine ⟨⟨s, hm, hg.1, hg.2⟩, rfl, List.map_congr_left fun t ht => ?_⟩
    by_cases hid : t.id = id
    · have : t = s := List.inj_on_of_nodup_map hs ht hm (hid.trans hg.1.symm)
      subst this
      simp [hg]
    · simp [hid]
  · cases h

theorem decrementStock_none {db : Db} {id : Uuid} {n : Nat} (h : decrementStock db id n = none) :
    ∀ s ∈ db.sales, s.id = id → s.remainingStock < n := by
  unfold decrementStock at h
  split at h
  · cases h
  · rename_i hany
    intro s hm hid
    simp only [Bool.not_eq_true, List.any_eq_false, Bool.and_eq_true, decide_eq_true_eq, not_and, not_le] at hany
    exact hany s hm hid

theorem map_ids_nodup {l : List PgSale} (h : (l.map (·.id)).Nodup) {f : PgSale → PgSale}
    (hf : ∀ s, (f s).id = s.id) : ((l.map f).map (·.id)).Nodup := by
  rw [List.map_map]
  simpa [Function.comp_def, hf] using h

/-- What a list of decrements takes from one sale. -/
def taken (counts : List (Uuid × Nat)) (id : Uuid) : Nat := ((counts.find? (·.1 = id)).map (·.2)).getD 0

theorem taken_cons (p : Uuid × Nat) (counts : List (Uuid × Nat)) (id : Uuid) :
    taken (p :: counts) id = if p.1 = id then p.2 else taken counts id := by
  unfold taken
  by_cases h : p.1 = id <;> simp [h]

theorem taken_absent {counts : List (Uuid × Nat)} {id : Uuid} (h : id ∉ counts.map (·.1)) : taken counts id = 0 := by
  have : counts.find? (·.1 = id) = none := by
    rw [List.find?_eq_none]
    intro p hp he
    exact h (List.mem_map.2 ⟨p, hp, by simpa using he⟩)
  simp [taken, this]

theorem taken_mem {counts : List (Uuid × Nat)} (hk : (counts.map (·.1)).Nodup) {id : Uuid} {n : Nat}
    (h : (id, n) ∈ counts) : taken counts id = n := by
  induction counts with
  | nil => cases h
  | cons p counts ih =>
    simp only [List.map_cons, List.nodup_cons] at hk
    rw [taken_cons]
    rcases List.mem_cons.1 h with rfl | h
    · simp
    · have hne : p.1 ≠ id := fun he => hk.1 (List.mem_map.2 ⟨_, h, he.symm⟩)
      rw [if_neg hne, ih hk.2 h]

/-- The decrement of one sale leaves the rows of the others alone. -/
theorem decrementStock_other {db db' : Db} (hs : (db.sales.map (·.id)).Nodup) {id : Uuid} {n : Nat}
    (h : decrementStock db id n = some db') {s : PgSale} (hne : s.id ≠ id) : s ∈ db'.sales ↔ s ∈ db.sales := by
  obtain ⟨-, -, hsales⟩ := decrementStock_some hs h
  rw [hsales, List.mem_map]
  constructor
  · rintro ⟨t, ht, rfl⟩
    split at hne
    · exact absurd (by assumption) hne
    · rwa [if_neg (by assumption)]
  · exact fun hm => ⟨s, hm, if_neg hne⟩

theorem decrementStock_pkey {db db' : Db} (hs : (db.sales.map (·.id)).Nodup) {id : Uuid} {n : Nat}
    (h : decrementStock db id n = some db') : (db'.sales.map (·.id)).Nodup := by
  rw [(decrementStock_some hs h).2.2]
  exact map_ids_nodup hs fun s => by split <;> rfl

/-- The loop ends well when every sale absorbs its count. -/
theorem decrementAll_ok {db db' : Db} (hs : (db.sales.map (·.id)).Nodup) {counts : List (Uuid × Nat)}
    (hk : (counts.map (·.1)).Nodup) (h : decrementAll db counts = .ok db') :
    db'.purchases = db.purchases ∧ db'.sales = db.sales.map (fun s => s.take (taken counts s.id)) ∧
      ∀ p ∈ counts, ∃ s ∈ db.sales, s.id = p.1 ∧ (p.2 : Int) ≤ s.remainingStock := by
  induction counts generalizing db with
  | nil =>
    obtain rfl := Except.ok.inj h
    simp [taken]
  | cons p counts ih =>
    obtain ⟨id, n⟩ := p
    simp only [List.map_cons, List.nodup_cons] at hk
    simp only [decrementAll] at h
    cases hd : decrementStock db id n with
    | none => simp [hd] at h
    | some db₁ =>
      simp only [hd] at h
      obtain ⟨hmem, hp, hsales⟩ := decrementStock_some hs hd
      obtain ⟨hp₁, hsales₁, hall⟩ := ih (decrementStock_pkey hs hd) hk.2 h
      refine ⟨hp₁.trans hp, ?_, ?_⟩
      · rw [hsales₁, hsales, List.map_map]
        refine List.map_congr_left fun s _ => ?_
        simp only [Function.comp, taken_cons]
        -- The head of the loop takes from one sale, which is not in the rest.
        by_cases hid : s.id = id
        · simp [hid, taken_absent hk.1]
        · simp [hid, Ne.symm hid]
      · intro q hq
        rcases List.mem_cons.1 hq with rfl | hq
        · exact hmem
        · obtain ⟨s, hm, hid, hle⟩ := hall q hq
          have hne : s.id ≠ id := fun he => hk.1 (List.mem_map.2 ⟨q, hq, hid.symm.trans he⟩)
          exact ⟨s, (decrementStock_other hs hd hne).1 hm, hid, hle⟩

/-- The loop stops at a sale that cannot absorb its count. -/
theorem decrementAll_error {db : Db} {e : JsError} (hs : (db.sales.map (·.id)).Nodup)
    {counts : List (Uuid × Nat)} (hk : (counts.map (·.1)).Nodup) (h : decrementAll db counts = .error e) :
    ∃ id n, (id, n) ∈ counts ∧ e = .oversold id n ∧ ∀ s ∈ db.sales, s.id = id → s.remainingStock < n := by
  induction counts generalizing db with
  | nil => cases h
  | cons p counts ih =>
    obtain ⟨id, n⟩ := p
    simp only [List.map_cons, List.nodup_cons] at hk
    simp only [decrementAll] at h
    cases hd : decrementStock db id n with
    | none =>
      simp only [hd, Except.error.injEq] at h
      exact ⟨id, n, List.mem_cons_self, h.symm, decrementStock_none hd⟩
    | some db₁ =>
      simp only [hd] at h
      obtain ⟨id', n', hm, he, hlt⟩ := ih (decrementStock_pkey hs hd) hk.2 h
      have hne : id' ≠ id := fun heq => hk.1 (List.mem_map.2 ⟨_, hm, heq⟩)
      refine ⟨id', n', List.mem_cons_of_mem _ hm, he, fun s hs' hid => hlt s ?_ hid⟩
      exact (decrementStock_other hs hd (hid ▸ hne)).2 hs'

/-! ### Counting the inserted rows -/

theorem unitsOf_eq_count (rows : List PgPurchase) (id : Uuid) :
    unitsOf rows id = (rows.map (·.saleId)).count id := by
  rw [unitsOf, List.count, List.countP_map]
  congr 1

theorem countBySale_keys_nodup (rows : List PgPurchase) : ((countBySale rows).map (·.1)).Nodup :=
  tally_keys_nodup _

theorem mem_countBySale {rows : List PgPurchase} {id : Uuid} {n : Nat} :
    (id, n) ∈ countBySale rows ↔ n = unitsOf rows id ∧ 0 < n := by
  rw [countBySale, mem_tally, unitsOf_eq_count]

theorem taken_countBySale (rows : List PgPurchase) (id : Uuid) : taken (countBySale rows) id = unitsOf rows id := by
  rcases Nat.eq_zero_or_pos (unitsOf rows id) with h | h
  · rw [h, taken_absent]
    rintro hm
    obtain ⟨⟨_, n⟩, hp, rfl⟩ := List.mem_map.1 hm
    obtain ⟨rfl, hpos⟩ := mem_countBySale.1 hp
    exact Nat.lt_irrefl _ (h ▸ hpos)
  · exact taken_mem (countBySale_keys_nodup _) (mem_countBySale.2 ⟨rfl, h⟩)

theorem unitsOf_pos {rows : List PgPurchase} {r : PgPurchase} (h : r ∈ rows) : 0 < unitsOf rows r.saleId :=
  List.countP_pos_iff.2 ⟨r, h, by simp⟩

/-! ### The inserts -/

theorem insertPurchase_ok {db db' : Db} {row : PgPurchase} (h : insertPurchase db row = .ok db') :
    outsideSalePeriod db row = false ∧ row.key ∉ db.purchases.map (·.key) ∧ (db.sale row.saleId).isSome ∧
      db' = { db with purchases := db.purchases ++ [row] } := by
  unfold insertPurchase at h
  split at h
  · cases h
  · split at h
    · cases h
    · split at h
      · cases h
      · rename_i ho hk hs
        exact ⟨by simpa using ho, hk, by simpa [Option.isSome_iff_ne_none] using hs, (Except.ok.inj h).symm⟩

/-- A multi-row insert raises exactly when some row is outside its sale's
period; otherwise it adds the rows with new keys. -/
theorem foldlM_insertRow (db : Db) (rows acc : List PgPurchase) :
    rows.foldlM (insertRow db) acc =
      if rows.any (outsideSalePeriod db) then .error outsideSaleWindow
      else .ok (rows.foldl (addNew PgPurchase.key db.purchases) acc) := by
  induction rows generalizing acc with
  | nil => rfl
  | cons r rows ih =>
    rw [List.foldlM_cons, insertRow]
    by_cases hr : outsideSalePeriod db r = true
    · simp [hr, bind, Except.bind]
    · simp only [hr, Bool.false_eq_true, if_false, bind, Except.bind, ih, List.any_cons, Bool.false_or,
        List.foldl_cons]

theorem insertOnConflictDoNothing_eq (db : Db) (rows : List PgPurchase) :
    insertOnConflictDoNothing db rows =
      if rows.any (outsideSalePeriod db) then .error outsideSaleWindow
      else if (newRows PgPurchase.key db.purchases rows).all fun r => (db.sale r.saleId).isSome then
        .ok (newRows PgPurchase.key db.purchases rows,
          { db with purchases := db.purchases ++ newRows PgPurchase.key db.purchases rows })
      else .error foreignKeyViolation := by
  unfold insertOnConflictDoNothing
  rw [foldlM_insertRow]
  split <;> rfl

/-! ### What each writer does -/

theorem writePurchaseTx_sold {db db' : Db} {u : Unit} (hs : db.Schema) {dbNow : Int} {saleId email : String}
    (h : writePurchaseTx dbNow saleId email db = .ok (u, db')) :
    Sold db db' [purchaseRow dbNow saleId email] := by
  unfold writePurchaseTx at h
  cases hi : insertPurchase db (purchaseRow dbNow saleId email) with
  | error e => simp [hi, bind, Except.bind] at h
  | ok db₁ =>
    obtain ⟨-, hk, -, rfl⟩ := insertPurchase_ok hi
    simp only [hi, bind, Except.bind] at h
    split at h
    · rename_i db₂ hd
      obtain ⟨-, rfl⟩ := Prod.mk.inj (Except.ok.inj h)
      obtain ⟨⟨s, hm, hid, hle⟩, hp, hsales⟩ := decrementStock_some (by exact hs.sales_pkey) hd
      -- The one row counts for its own sale only.
      have hunits : ∀ t : PgSale, unitsOf [purchaseRow dbNow saleId email] t.id =
          if t.id = Uuid.ofText saleId then 1 else 0 := by
        intro t
        simp [unitsOf, purchaseRow, List.countP_cons, eq_comm]
      refine ⟨hp, ?_, by simp, by simpa using hk, ?_, ?_⟩
      · rw [hsales]
        refine List.map_congr_left fun t _ => ?_
        rw [hunits]
        split <;> simp
      · intro t ht
        rw [hunits]
        split
        · rename_i htid
          have : t = s := List.inj_on_of_nodup_map hs.sales_pkey ht hm (htid.trans hid.symm)
          subst this
          exact hle
        · simpa using hs.sales_remaining_stock_check t ht
      · intro r hr
        rw [List.mem_singleton.1 hr]
        exact ⟨s, hm, hid⟩
    · cases h

theorem writePurchaseBatchTx_sold {db db' : Db} {written : Nat} (hs : db.Schema)
    {entries : List PurchaseWriteEntry} (h : writePurchaseBatchTx entries db = .ok (written, db')) :
    Sold db db' (newRows PgPurchase.key db.purchases (entries.map (·.row))) ∧
      written = (newRows PgPurchase.key db.purchases (entries.map (·.row))).length := by
  unfold writePurchaseBatchTx at h
  rw [insertOnConflictDoNothing_eq] at h
  split at h
  · cases h
  · split at h
    · rename_i hknown
      set new := newRows PgPurchase.key db.purchases (entries.map (·.row)) with hnew
      simp only [bind, Except.bind] at h
      cases hd : decrementAll { db with purchases := db.purchases ++ new } (countBySale new) with
      | error e => simp [hd] at h
      | ok db₂ =>
        simp only [hd, Except.ok.injEq, Prod.mk.injEq] at h
        obtain ⟨rfl, rfl⟩ := h
        obtain ⟨hp, hsales, hall⟩ := decrementAll_ok (by exact hs.sales_pkey) (countBySale_keys_nodup _) hd
        obtain ⟨honce, hfresh⟩ := newRows_fresh PgPurchase.key db.purchases (entries.map (·.row))
        refine ⟨⟨hp, ?_, honce, hfresh, ?_, ?_⟩, rfl⟩
        · rw [hsales]
          exact List.map_congr_left fun s _ => by rw [taken_countBySale]
        · intro s hm
          -- A sale without new rows is not in the loop: its stock is as the schema has it.
          rcases Nat.eq_zero_or_pos (unitsOf new s.id) with h0 | h0
          · rw [h0]
            simpa using hs.sales_remaining_stock_check s hm
          · obtain ⟨t, ht, hid, hle⟩ := hall _ (mem_countBySale.2 ⟨rfl, h0⟩)
            have : t = s := List.inj_on_of_nodup_map hs.sales_pkey ht hm hid
            exact this ▸ hle
        · intro r hr
          have := List.all_eq_true.1 hknown r hr
          obtain ⟨s, hsome⟩ := Option.isSome_iff_exists.1 this
          exact ⟨s, Db.sale_mem hsome⟩
    · cases h

/-- A single write sells its one row, or nothing. -/
theorem writePurchase_sold {db : Db} (hs : db.Schema) (fate : TxFate) (dbNow : Int) (saleId email : String) :
    Sold db (writePurchase fate dbNow saleId email db).2 [purchaseRow dbNow saleId email] ∨
      (writePurchase fate dbNow saleId email db).2 = db := by
  unfold writePurchase transaction
  cases hb : writePurchaseTx dbNow saleId email db with
  | error e => cases fate <;> simp
  | ok p =>
    obtain ⟨u, db'⟩ := p
    have := writePurchaseTx_sold hs hb
    cases fate <;> simp [this]

/-- A batch sells the rows it inserted, or nothing. -/
theorem writePurchaseBatch_sold {db : Db} (hs : db.Schema) (fate : TxFate) (entries : List PurchaseWriteEntry) :
    Sold db (writePurchaseBatch fate entries db).2 (newRows PgPurchase.key db.purchases (entries.map (·.row))) ∨
      (writePurchaseBatch fate entries db).2 = db := by
  unfold writePurchaseBatch transaction
  split
  · exact .inr rfl
  · cases hb : writePurchaseBatchTx entries db with
    | error e => cases fate <;> simp
    | ok p =>
      obtain ⟨written, db'⟩ := p
      have := (writePurchaseBatchTx_sold hs hb).1
      cases fate <;> simp [this]

/-! ### What a single write answers -/

/-- The database after one purchase. -/
def Db.sell (db : Db) (row : PgPurchase) : Db where
  sales := db.sales.map fun s => if s.id = row.saleId then s.take 1 else s
  purchases := db.purchases ++ [row]

theorem decrementStock_eq {db : Db} (hs : (db.sales.map (·.id)).Nodup) {id : Uuid} {s : PgSale}
    (h : db.sale id = some s) (n : Nat) :
    decrementStock db id n = if (n : Int) ≤ s.remainingStock then
      some { db with sales := db.sales.map fun t => if t.id = id then t.take n else t } else none := by
  obtain ⟨hm, hid⟩ := Db.sale_mem h
  cases hd : decrementStock db id n with
  | none =>
    have := decrementStock_none hd s hm hid
    rw [if_neg (by omega)]
  | some db' =>
    obtain ⟨⟨t, ht, htid, hle⟩, hp, hsales⟩ := decrementStock_some hs hd
    have : t = s := List.inj_on_of_nodup_map hs ht hm (htid.trans hid.symm)
    subst this
    rw [if_pos hle]
    cases db'
    simp_all

/-- The order in which a single write is refused: the window, the buyer, the
stock. A sale that does not exist has no window and no buyers. -/
theorem writePurchaseTx_eq {db : Db} (hs : db.Schema) (dbNow : Int) (saleId email : String) :
    writePurchaseTx dbNow saleId email db =
      match db.sale (.ofText saleId) with
      | none => .error foreignKeyViolation
      | some s =>
        if dbNow < s.startsAt ∨ s.endsAt < dbNow then .error outsideSaleWindow
        else if normalizeEmail email ∈ db.buyers (.ofText saleId) then .error uniqueViolation
        else if s.remainingStock ≤ 0 then .error .soldOut
        else .ok ((), db.sell (purchaseRow dbNow saleId email)) := by
  have hkey : (purchaseRow dbNow saleId email).key ∈ db.purchases.map (·.key) ↔
      normalizeEmail email ∈ db.buyers (.ofText saleId) := Db.mem_buyers_iff_key.symm
  have hid : (purchaseRow dbNow saleId email).saleId = .ofText saleId := rfl
  have hat : (purchaseRow dbNow saleId email).purchasedAt = dbNow := rfl
  cases hsale : db.sale (.ofText saleId) with
  | none =>
    -- No sale, so no rows of it either: only the foreign key is left to fail.
    have hb : normalizeEmail email ∉ db.buyers (.ofText saleId) := by
      intro hb
      obtain ⟨r, hr, hrid, -⟩ := Db.mem_buyers.1 hb
      obtain ⟨s, hsm, hsid⟩ := hs.purchases_sale_id_fk r hr
      exact Db.sale_eq_none.1 hsale s hsm (hsid.trans hrid)
    simp [writePurchaseTx, insertPurchase, outsideSalePeriod, hid, hsale, hkey, hb, bind, Except.bind]
  | some s =>
    by_cases hw : dbNow < s.startsAt ∨ s.endsAt < dbNow
    · simp [writePurchaseTx, insertPurchase, outsideSalePeriod, hid, hat, hsale, hw, bind, Except.bind]
    · by_cases hb : normalizeEmail email ∈ db.buyers (.ofText saleId)
      · simp [writePurchaseTx, insertPurchase, outsideSalePeriod, hid, hat, hsale, hw, hkey, hb, bind, Except.bind]
      · -- The row is in; what is left is the guard of the update.
        have hd := @decrementStock_eq { db with purchases := db.purchases ++ [purchaseRow dbNow saleId email] }
          hs.sales_pkey (.ofText saleId) s hsale 1
        by_cases hz : s.remainingStock ≤ 0
        · have hle : ¬ (1 : Int) ≤ s.remainingStock := by omega
          simp [writePurchaseTx, insertPurchase, outsideSalePeriod, hid, hat, hsale, hw, hkey, hb, bind, Except.bind,
            hd, hz, hle]
        · have hle : (1 : Int) ≤ s.remainingStock := by omega
          simp [writePurchaseTx, insertPurchase, outsideSalePeriod, hid, hat, hsale, hw, hkey, hb, bind, Except.bind,
            hd, hz, hle, Db.sell]

/-- A purchase that nothing refuses is a sale of one unit. -/
theorem Db.Schema.sell {db : Db} (hs : db.Schema) {s : PgSale} {dbNow : Int} {saleId : String} (email : String)
    (hsale : db.sale (.ofText saleId) = some s) (hin : ¬ (dbNow < s.startsAt ∨ s.endsAt < dbNow))
    (hb : normalizeEmail email ∉ db.buyers (.ofText saleId)) (hpos : ¬ s.remainingStock ≤ 0) :
    Sold db (db.sell (purchaseRow dbNow saleId email)) [purchaseRow dbNow saleId email] := by
  refine writePurchaseTx_sold hs (u := ()) ?_
  rw [writePurchaseTx_eq hs, hsale]
  simp only [hin, hb, hpos, if_false]

@[simp] theorem writePurchaseCatch_foreignKey :
    writePurchaseCatch foreignKeyViolation = .error foreignKeyViolation := rfl
@[simp] theorem writePurchaseCatch_outside : writePurchaseCatch outsideSaleWindow = .ok SALE_NOT_ACTIVE_RESULT := rfl
@[simp] theorem writePurchaseCatch_unique : writePurchaseCatch uniqueViolation = .ok ALREADY_PURCHASED_RESULT := rfl
@[simp] theorem writePurchaseCatch_soldOut : writePurchaseCatch .soldOut = .ok SOLD_OUT_RESULT := rfl
@[simp] theorem writePurchaseCatch_refused :
    writePurchaseCatch connectionRefused = .error connectionRefused := rfl
@[simp] theorem writePurchaseCatch_unreachable : writePurchaseCatch unreachable = .error unreachable := rfl

theorem writePurchase_of_error {db : Db} {e : JsError} {dbNow : Int} {saleId email : String}
    (h : writePurchaseTx dbNow saleId email db = .error e) (fate : TxFate) :
    writePurchase fate dbNow saleId email db =
      (if fate = .unreachable then .error connectionRefused else writePurchaseCatch e, db) := by
  cases fate <;> simp [writePurchase, transaction, h]

theorem writePurchase_of_ok {db db' : Db} {dbNow : Int} {saleId email : String}
    (h : writePurchaseTx dbNow saleId email db = .ok ((), db')) (fate : TxFate) :
    writePurchase fate dbNow saleId email db =
      match fate with
      | .runs => (.ok SUCCESS_RESULT, db')
      | .replyLost => (.error unreachable, db')
      | .unreachable => (.error connectionRefused, db) := by
  cases fate <;> simp [writePurchase, transaction, h]

/-- A write that runs its course answers with what refused it. -/
theorem writePurchase_runs {db : Db} (hs : db.Schema) (dbNow : Int) (saleId email : String) :
    writePurchase .runs dbNow saleId email db =
      match db.sale (.ofText saleId) with
      | none => (.error foreignKeyViolation, db)
      | some s =>
        if dbNow < s.startsAt ∨ s.endsAt < dbNow then (.ok SALE_NOT_ACTIVE_RESULT, db)
        else if normalizeEmail email ∈ db.buyers (.ofText saleId) then (.ok ALREADY_PURCHASED_RESULT, db)
        else if s.remainingStock ≤ 0 then (.ok SOLD_OUT_RESULT, db)
        else (.ok SUCCESS_RESULT, db.sell (purchaseRow dbNow saleId email)) := by
  have htx := writePurchaseTx_eq hs dbNow saleId email
  cases hsale : db.sale (.ofText saleId) with
  | none =>
    rw [hsale] at htx
    simp [writePurchase_of_error htx]
  | some s =>
    rw [hsale] at htx
    simp only [] at htx ⊢
    split_ifs at htx ⊢
    · simp [writePurchase_of_error htx]
    · simp [writePurchase_of_error htx]
    · simp [writePurchase_of_error htx]
    · simp [writePurchase_of_ok htx]

/-- The errors that refuse a single write; a conflict is a purchase the buyer
already has. -/
theorem writePurchaseTx_error {db : Db} (hs : db.Schema) {dbNow : Int} {saleId email : String} {e : JsError}
    (h : writePurchaseTx dbNow saleId email db = .error e) :
    (e = uniqueViolation ∧ normalizeEmail email ∈ db.buyers (.ofText saleId)) ∨
      e = foreignKeyViolation ∨ e = outsideSaleWindow ∨ e = .soldOut := by
  rw [writePurchaseTx_eq hs] at h
  cases hsale : db.sale (.ofText saleId) with
  | none =>
    rw [hsale] at h
    exact .inr (.inl (Except.error.inj h).symm)
  | some s =>
    rw [hsale] at h
    simp only [] at h
    split_ifs at h with _ hb
    · exact .inr (.inr (.inl (Except.error.inj h).symm))
    · exact .inl ⟨(Except.error.inj h).symm, hb⟩
    · exact .inr (.inr (.inr (Except.error.inj h).symm))

/-- Whatever its fate, a write answers success only if it committed its row,
and "already purchased" only if the buyer has one. -/
theorem writePurchase_answer {db : Db} (hs : db.Schema) {fate : TxFate} {dbNow : Int} {saleId email : String}
    (h : (writePurchase fate dbNow saleId email db).1 = .ok SUCCESS_RESULT ∨
      (writePurchase fate dbNow saleId email db).1 = .ok ALREADY_PURCHASED_RESULT) :
    normalizeEmail email ∈ (writePurchase fate dbNow saleId email db).2.buyers (.ofText saleId) := by
  cases htx : writePurchaseTx dbNow saleId email db with
  | ok p =>
    obtain ⟨u, db'⟩ := p
    have hrow : normalizeEmail email ∈ db'.buyers (.ofText saleId) := by
      have hsold := writePurchaseTx_sold hs htx
      refine Db.mem_buyers.2 ⟨purchaseRow dbNow saleId email, ?_, rfl, rfl⟩
      simp [hsold.purchases]
    rw [writePurchase_of_ok htx] at h ⊢
    cases fate with
    | runs => exact hrow
    | replyLost => exact hrow
    | unreachable => simp at h
  | error e =>
    rw [writePurchase_of_error htx] at h ⊢
    rcases writePurchaseTx_error hs htx with ⟨-, hb⟩ | rfl | rfl | rfl
    · exact hb
    · cases fate <;> simp at h
    · cases fate <;> simp [SALE_NOT_ACTIVE_RESULT, SUCCESS_RESULT, ALREADY_PURCHASED_RESULT] at h
    · cases fate <;> simp [SOLD_OUT_RESULT, SUCCESS_RESULT, ALREADY_PURCHASED_RESULT] at h

/-- A single write is refused for lack of stock only when there is none. -/
theorem writePurchaseTx_soldOut {db : Db} (hs : db.Schema) {dbNow : Int} {saleId email : String}
    (h : writePurchaseTx dbNow saleId email db = .error .soldOut) :
    ∃ s, db.sale (.ofText saleId) = some s ∧ normalizeEmail email ∉ db.buyers (.ofText saleId) ∧
      s.remainingStock ≤ 0 := by
  rw [writePurchaseTx_eq hs] at h
  cases hsale : db.sale (.ofText saleId) with
  | none =>
    rw [hsale] at h
    cases h
  | some s =>
    rw [hsale] at h
    simp only [] at h
    split_ifs at h with _ hb hz
    · cases h
    · cases h
    · exact ⟨s, rfl, hb, hz⟩

/-- A batch cannot absorb a decrement only when a sale has fewer units left
than the batch inserted rows for it. -/
theorem writePurchaseBatch_oversold {db : Db} (hs : db.Schema) {fate : TxFate} {entries : List PurchaseWriteEntry}
    {id : Uuid} {n : Nat} (h : (writePurchaseBatch fate entries db).1 = .error (.oversold id n)) :
    n = unitsOf (newRows PgPurchase.key db.purchases (entries.map (·.row))) id ∧
      ∀ s ∈ db.sales, s.id = id → s.remainingStock < n := by
  have htx : writePurchaseBatchTx entries db = .error (.oversold id n) := by
    unfold writePurchaseBatch transaction at h
    split at h
    · cases h
    · cases hb : writePurchaseBatchTx entries db with
      | error e => cases fate <;> simp_all [connectionRefused]
      | ok p => cases fate <;> simp_all [unreachable, connectionRefused]
  unfold writePurchaseBatchTx at htx
  rw [insertOnConflictDoNothing_eq] at htx
  split at htx
  · simp [bind, Except.bind, outsideSaleWindow] at htx
  · split at htx
    · set new := newRows PgPurchase.key db.purchases (entries.map (·.row))
      simp only [bind, Except.bind] at htx
      cases hd : decrementAll { db with purchases := db.purchases ++ new } (countBySale new) with
      | ok db₂ => simp [hd] at htx
      | error e =>
        simp only [hd, Except.error.injEq] at htx
        obtain ⟨id', n', hm, rfl, hlt⟩ := decrementAll_error (by exact hs.sales_pkey) (countBySale_keys_nodup _) hd
        obtain ⟨rfl, rfl⟩ := JsError.oversold.inj htx
        exact ⟨(mem_countBySale.1 hm).1, hlt⟩
    · simp [bind, Except.bind, foreignKeyViolation] at htx

/-- A write either changes nothing, and then does not answer success, or sells
its one row to a new buyer of a sale with stock. -/
theorem writePurchase_commits {db : Db} (hs : db.Schema) (fate : TxFate) (dbNow : Int) (saleId email : String) :
    ((writePurchase fate dbNow saleId email db).2 = db ∧
        ∀ r, (writePurchase fate dbNow saleId email db).1 = .ok r → r.status ≠ .success) ∨
      (Sold db (writePurchase fate dbNow saleId email db).2 [purchaseRow dbNow saleId email] ∧ fate ≠ .unreachable ∧
        outsideSalePeriod db (purchaseRow dbNow saleId email) = false ∧
        ∃ s, db.sale (.ofText saleId) = some s ∧ 0 < s.remainingStock) := by
  cases htx : writePurchaseTx dbNow saleId email db with
  | error e =>
    left
    rw [writePurchase_of_error htx]
    refine ⟨rfl, ?_⟩
    -- The body threw, so nothing was committed.
    rcases writePurchaseTx_error hs htx with ⟨rfl, -⟩ | rfl | rfl | rfl
    · cases fate <;> simp [ALREADY_PURCHASED_RESULT]
    · cases fate <;> simp
    · cases fate <;> simp [SALE_NOT_ACTIVE_RESULT]
    · cases fate <;> simp [SOLD_OUT_RESULT]
  | ok p =>
    obtain ⟨u, db'⟩ := p
    have hsold := writePurchaseTx_sold hs htx
    have hin : outsideSalePeriod db (purchaseRow dbNow saleId email) = false := by
      unfold writePurchaseTx at htx
      cases hi : insertPurchase db (purchaseRow dbNow saleId email) with
      | error e => simp [hi, bind, Except.bind] at htx
      | ok db₁ => exact (insertPurchase_ok hi).1
    have hstock : ∃ s, db.sale (.ofText saleId) = some s ∧ 0 < s.remainingStock := by
      obtain ⟨s, hm, hid⟩ := hsold.known _ (List.mem_singleton_self _)
      have hpos := hsold.absorbs s hm
      have hunits := unitsOf_pos (List.mem_singleton_self (purchaseRow dbNow saleId email))
      rw [← hid] at hunits
      refine ⟨s, ?_, by omega⟩
      rw [show Uuid.ofText saleId = s.id from hid.symm]
      exact hs.sale_of_mem hm
    rw [writePurchase_of_ok htx]
    cases fate with
    | runs => exact .inr ⟨hsold, by simp, hin, hstock⟩
    | replyLost => exact .inr ⟨hsold, by simp, hin, hstock⟩
    | unreachable => exact .inl ⟨rfl, by simp⟩

end FlashSale
