import FlashSale.Writers
/-!
# The ledger

What a sold purchase does to the numbers the load test verifies: each sale's
counter, its rows and its buyers. A writer keeps the ledger, so any serial
order of writers does.
-/

namespace FlashSale

/-! ## One sale after a writer -/

/-- The buyers of `id` among `new`, by case-folded email. -/
def buyersOf (new : List PgPurchase) (id : Uuid) : Finset String :=
  ((new.filter (·.saleId = id)).map (normalizeEmail ·.email)).toFinset

theorem mem_buyersOf {new : List PgPurchase} {id : Uuid} {e : String} :
    e ∈ buyersOf new id ↔ ∃ r ∈ new, r.saleId = id ∧ normalizeEmail r.email = e := by
  simp [buyersOf, and_assoc]

@[simp] theorem buyersOf_nil (id : Uuid) : buyersOf [] id = ∅ := rfl
@[simp] theorem unitsOf_nil (id : Uuid) : unitsOf [] id = 0 := rfl

/-- Buyers of rows with new keys are new buyers, each of one row. -/
theorem buyersOf_disjoint {db : Db} {new : List PgPurchase} (h : ∀ r ∈ new, r.key ∉ db.purchases.map (·.key))
    (id : Uuid) : Disjoint (buyersOf new id) (db.buyers id) := by
  rw [Finset.disjoint_left]
  rintro e he hb
  obtain ⟨r, hr, rfl, rfl⟩ := mem_buyersOf.1 he
  exact h r hr (Db.mem_buyers_iff_key.1 hb)

theorem card_buyersOf {new : List PgPurchase} (h : (new.map (·.key)).Nodup) (id : Uuid) :
    (buyersOf new id).card = unitsOf new id := by
  unfold buyersOf
  rw [List.toFinset_card_of_nodup, List.length_map, ← List.countP_eq_length_filter]
  · rfl
  · apply List.Nodup.of_map (fun e => (id, e))
    rw [List.map_map]
    have he : (new.filter (·.saleId = id)).map ((fun e => (id, e)) ∘ (normalizeEmail ·.email)) =
        (new.filter (·.saleId = id)).map (·.key) := by
      refine List.map_congr_left fun r hr => ?_
      have : r.saleId = id := by simpa using (List.mem_filter.1 hr).2
      simp [PgPurchase.key, this]
    rw [he]
    exact h.sublist (List.filter_sublist.map _)

section
variable {db db' : Db} {new : List PgPurchase}

theorem Sold.sale (h : Sold db db' new) (id : Uuid) :
    db'.sale id = (db.sale id).map (PgSale.take (unitsOf new id)) := by
  unfold Db.sale
  rw [h.sales, List.find?_map]
  change Option.map _ (db.sales.find? (·.id = id)) = _
  cases hf : db.sales.find? (·.id = id) with
  | none => rfl
  | some s =>
    have : s.id = id := by simpa using List.find?_some hf
    simp [this]

theorem Sold.buyers (h : Sold db db' new) (id : Uuid) : db'.buyers id = db.buyers id ∪ buyersOf new id := by
  simp [Db.buyers, Db.purchasesOf, buyersOf, h.purchases, List.filter_append, List.toFinset_append]

theorem Sold.disjoint (h : Sold db db' new) (id : Uuid) : Disjoint (buyersOf new id) (db.buyers id) :=
  buyersOf_disjoint h.fresh id

theorem Sold.card_buyersOf (h : Sold db db' new) (id : Uuid) : (buyersOf new id).card = unitsOf new id :=
  FlashSale.card_buyersOf h.once id

theorem Sold.purchasesOf (h : Sold db db' new) (id : Uuid) :
    (db'.purchasesOf id).length = (db.purchasesOf id).length + unitsOf new id := by
  simp [Db.purchasesOf, h.purchases, List.filter_append, unitsOf, List.countP_eq_length_filter]

/-- A sale that none of the new rows is of stays as it was. -/
theorem Sold.sale_other (h : Sold db db' new) {id : Uuid} (hid : unitsOf new id = 0) : db'.sale id = db.sale id := by
  rw [h.sale, hid]
  cases db.sale id <;> simp

theorem Sold.absorbs_sale (h : Sold db db' new) {id : Uuid} {s : PgSale} (hs : db.sale id = some s) :
    (unitsOf new id : Int) ≤ s.remainingStock := by
  obtain ⟨hm, rfl⟩ := Db.sale_mem hs
  exact h.absorbs s hm

theorem Sold.mem_sales (h : Sold db db' new) {s' : PgSale} (hs' : s' ∈ db'.sales) :
    ∃ s ∈ db.sales, s' = s.take (unitsOf new s.id) := by
  rw [h.sales, List.mem_map] at hs'
  obtain ⟨s, hs, rfl⟩ := hs'
  exact ⟨s, hs, rfl⟩

/-- A writer keeps every constraint of the schema. -/
theorem Sold.schema (h : Sold db db' new) (hs : db.Schema) : db'.Schema where
  sales_pkey := by
    rw [h.sales]
    exact map_ids_nodup hs.sales_pkey fun _ => rfl
  purchases_one_per_user_per_sale := by
    rw [h.purchases, List.map_append, List.nodup_append]
    refine ⟨hs.purchases_one_per_user_per_sale, h.once, ?_⟩
    -- Old keys are apart by the old constraint, the new ones once, and new.
    rintro k hk _ hk' rfl
    obtain ⟨r, hr, rfl⟩ := List.mem_map.1 hk'
    exact h.fresh r hr hk
  purchases_sale_id_fk r hr := by
    have : ∃ s ∈ db.sales, s.id = r.saleId := by
      rw [h.purchases] at hr
      rcases List.mem_append.1 hr with hr | hr
      · exact hs.purchases_sale_id_fk r hr
      · exact h.known r hr
    obtain ⟨s, hm, hid⟩ := this
    exact ⟨s.take (unitsOf new s.id), by rw [h.sales]; exact List.mem_map_of_mem hm, hid⟩
  sales_total_stock_check s' hs' := by
    obtain ⟨s, hm, rfl⟩ := h.mem_sales hs'
    exact hs.sales_total_stock_check s hm
  sales_remaining_stock_check s' hs' := by
    obtain ⟨s, hm, rfl⟩ := h.mem_sales hs'
    have := h.absorbs s hm
    simp only [PgSale.take_remainingStock]
    omega
  sales_end_after_start s' hs' := by
    obtain ⟨s, hm, rfl⟩ := h.mem_sales hs'
    exact hs.sales_end_after_start s hm
  sales_remaining_lte_total s' hs' := by
    obtain ⟨s, hm, rfl⟩ := h.mem_sales hs'
    have := hs.sales_remaining_lte_total s hm
    simp only [PgSale.take_remainingStock, PgSale.take_totalStock]
    omega

end

/-! ## The ledger -/

/-- What `verify` (packages/load-test) checks, for every sale: the counter is
within its bounds, the units gone are the purchases, and no buyer has two. -/
structure Ledger (db : Db) : Prop where
  bounds : ∀ s ∈ db.sales, 0 ≤ s.remainingStock ∧ s.remainingStock ≤ s.totalStock
  exact : ∀ s ∈ db.sales, s.totalStock - s.remainingStock = (db.purchasesOf s.id).length
  no_duplicates : (db.purchases.map (·.key)).Nodup

theorem Sold.ledger {db db' : Db} {new : List PgPurchase} (h : Sold db db' new) (hl : Ledger db) : Ledger db' where
  bounds s' hs' := by
    obtain ⟨s, hm, rfl⟩ := h.mem_sales hs'
    have := h.absorbs s hm
    have := hl.bounds s hm
    simp only [PgSale.take_remainingStock, PgSale.take_totalStock]
    omega
  exact s' hs' := by
    obtain ⟨s, hm, rfl⟩ := h.mem_sales hs'
    have := hl.exact s hm
    have := h.purchasesOf s.id
    simp only [PgSale.take_remainingStock, PgSale.take_totalStock, PgSale.take_id]
    omega
  no_duplicates := by
    rw [h.purchases, List.map_append, List.nodup_append]
    refine ⟨hl.no_duplicates, h.once, ?_⟩
    rintro k hk _ hk' rfl
    obtain ⟨r, hr, rfl⟩ := List.mem_map.1 hk'
    exact h.fresh r hr hk

/-! ## Writers in a serial order -/

/-- One call of a writer, with what its environment decides. -/
inductive Call where
  | writePurchase (dbNow : Int) (saleId email : String)
  | writePurchaseBatch (entries : List PurchaseWriteEntry)
deriving DecidableEq

/-- The database after the call, when nothing cuts it off. -/
def Call.run (db : Db) : Call → Db
  | .writePurchase dbNow saleId email => (FlashSale.writePurchase .runs dbNow saleId email db).2
  | .writePurchaseBatch entries => (FlashSale.writePurchaseBatch .runs entries db).2

/-- The sales a call names. -/
def Call.saleIds : Call → List Uuid
  | .writePurchase _ saleId _ => [.ofText saleId]
  | .writePurchaseBatch entries => entries.map fun entry => .ofText entry.saleId

/-- A call sells of the sales that it names. -/
theorem Call.run_sold {db : Db} (hs : db.Schema) (c : Call) :
    ∃ new, Sold db (c.run db) new ∧ ∀ r ∈ new, r.saleId ∈ c.saleIds := by
  cases c with
  | writePurchase dbNow saleId email =>
    rcases writePurchase_sold hs .runs dbNow saleId email with h | h
    · exact ⟨_, h, by simp [purchaseRow, Call.saleIds]⟩
    · exact ⟨[], by rw [Call.run, h]; exact hs.sold_nothing, by simp⟩
  | writePurchaseBatch entries =>
    rcases writePurchaseBatch_sold hs .runs entries with h | h
    · refine ⟨_, h, fun r hr => ?_⟩
      obtain ⟨entry, hm, rfl⟩ := List.mem_map.1 (Lib.Keyed.newRows_subset PgPurchase.key db.purchases _ hr)
      exact List.mem_map.2 ⟨entry, hm, rfl⟩
    · exact ⟨[], by rw [Call.run, h]; exact hs.sold_nothing, by simp⟩

/-! ## What a call does not see -/

/-- The database without some sales and their purchases. -/
def Db.less (db : Db) (ids : List Uuid) : Db where
  sales := db.sales.filter (·.id ∉ ids)
  purchases := db.purchases.filter (·.saleId ∉ ids)

section
variable {db : Db} {ids : List Uuid} {id : Uuid} {row : PgPurchase}

theorem Db.less_sale (h : id ∉ ids) : (db.less ids).sale id = db.sale id := by
  unfold Db.sale Db.less
  rw [List.find?_filter]
  congr 1
  funext s
  by_cases hs : s.id = id <;> simp [hs, h]

theorem Db.less_key (h : row.saleId ∉ ids) :
    row.key ∈ (db.less ids).purchases.map (·.key) ↔ row.key ∈ db.purchases.map (·.key) := by
  simp only [Db.less, List.mem_map, List.mem_filter, decide_eq_true_eq]
  constructor
  · rintro ⟨r, ⟨hr, -⟩, hkey⟩
    exact ⟨r, hr, hkey⟩
  · rintro ⟨r, hr, hkey⟩
    have hsale : r.saleId = row.saleId := congrArg Prod.fst hkey
    exact ⟨r, ⟨hr, by rwa [hsale]⟩, hkey⟩

theorem outsideSalePeriod_less (h : row.saleId ∉ ids) :
    outsideSalePeriod (db.less ids) row = outsideSalePeriod db row := by
  simp only [outsideSalePeriod, Db.less_sale h]

theorem Db.less_insert (rows : List PgPurchase) (h : ∀ r ∈ rows, r.saleId ∉ ids) :
    { db.less ids with purchases := (db.less ids).purchases ++ rows } =
      Db.less { db with purchases := db.purchases ++ rows } ids := by
  have hrows : rows.filter (·.saleId ∉ ids) = rows := List.filter_eq_self.2 fun r hr => by simpa using h r hr
  simp only [Db.less, List.filter_append, hrows]

theorem insertPurchase_less (h : row.saleId ∉ ids) :
    insertPurchase (db.less ids) row = (insertPurchase db row).map (·.less ids) := by
  simp only [insertPurchase, outsideSalePeriod_less h, Db.less_key h, Db.less_sale h,
    Db.less_insert [row] (by simpa using h)]
  split_ifs <;> rfl

theorem newRows_less {rows : List PgPurchase} (h : ∀ r ∈ rows, r.saleId ∉ ids) :
    Lib.Keyed.newRows PgPurchase.key (db.less ids).purchases rows =
      Lib.Keyed.newRows PgPurchase.key db.purchases rows := by
  induction rows using List.reverseRecOn with
  | nil => rfl
  | append_singleton rows r ih =>
    rw [Lib.Keyed.newRows_concat, Lib.Keyed.newRows_concat, ih fun r' hr' => h r' (List.mem_append_left _ hr')]
    exact Lib.Keyed.addNew_congr PgPurchase.key (Db.less_key (h r (by simp)))

theorem decrementStock_less (h : id ∉ ids) (n : Nat) :
    decrementStock (db.less ids) id n = (decrementStock db id n).map (·.less ids) := by
  have hany : (db.less ids).sales.any (fun s => s.id = id && (n : Int) ≤ s.remainingStock) =
      db.sales.any fun s => s.id = id && (n : Int) ≤ s.remainingStock := by
    rw [Db.less, List.any_filter]
    congr 1
    funext s
    by_cases hs : s.id = id <;> simp [hs, h]
  unfold decrementStock
  rw [hany]
  split_ifs
  · simp only [Db.less, Option.map_some, List.filter_map]
    congr 3
    refine List.filter_congr fun s _ => ?_
    simp only [Function.comp]
    split_ifs <;> rfl
  · rfl

theorem decrementAll_less {counts : List (Uuid × Nat)} (h : ∀ p ∈ counts, p.1 ∉ ids) :
    decrementAll (db.less ids) counts = (decrementAll db counts).map (·.less ids) := by
  induction counts generalizing db with
  | nil => rfl
  | cons p counts ih =>
    obtain ⟨id, n⟩ := p
    have hid : id ∉ ids := h (id, n) (List.mem_cons_self ..)
    simp only [decrementAll, decrementStock_less hid]
    cases decrementStock db id n with
    | none => rfl
    | some db => exact ih fun p hp => h p (List.mem_cons_of_mem _ hp)

theorem writePurchaseTx_less (dbNow : Int) {saleId : String} (h : .ofText saleId ∉ ids) (email : String) :
    writePurchaseTx dbNow saleId email (db.less ids) =
      (writePurchaseTx dbNow saleId email db).map fun p => (p.1, p.2.less ids) := by
  unfold writePurchaseTx
  rw [insertPurchase_less (show (purchaseRow dbNow saleId email).saleId ∉ ids from h)]
  cases insertPurchase db (purchaseRow dbNow saleId email) with
  | error e => rfl
  | ok db =>
    simp only [Except.map, bind, Except.bind, decrementStock_less h]
    cases decrementStock db (.ofText saleId) 1 <;> rfl

theorem writePurchaseBatchTx_less {entries : List PurchaseWriteEntry} (h : ∀ e ∈ entries, .ofText e.saleId ∉ ids) :
    writePurchaseBatchTx entries (db.less ids) =
      (writePurchaseBatchTx entries db).map fun p => (p.1, p.2.less ids) := by
  have hrows : ∀ r ∈ entries.map (·.row), r.saleId ∉ ids := by
    intro r hr
    obtain ⟨e, he, rfl⟩ := List.mem_map.1 hr
    exact h e he
  have houtside : (entries.map (·.row)).any (outsideSalePeriod (db.less ids)) =
      (entries.map (·.row)).any (outsideSalePeriod db) := by
    rw [Bool.eq_iff_iff, List.any_eq_true, List.any_eq_true]
    exact exists_congr fun r => and_congr_right fun hr => by rw [outsideSalePeriod_less (hrows r hr)]
  unfold writePurchaseBatchTx
  rw [insertOnConflictDoNothing_eq, insertOnConflictDoNothing_eq, newRows_less hrows, houtside]
  -- The rows it adds, whichever database it reads.
  generalize hnew : Lib.Keyed.newRows PgPurchase.key db.purchases (entries.map (·.row)) = new
  have hsales : ∀ r ∈ new, r.saleId ∉ ids := fun r hr =>
    hrows r (Lib.Keyed.newRows_subset PgPurchase.key db.purchases _ (hnew ▸ hr))
  have hknown : (new.all fun r => ((db.less ids).sale r.saleId).isSome) =
      new.all fun r => (db.sale r.saleId).isSome := by
    rw [Bool.eq_iff_iff, List.all_eq_true, List.all_eq_true]
    exact forall₂_congr fun r hr => by rw [Db.less_sale (hsales r hr)]
  have hcounts : ∀ p ∈ countBySale new, p.1 ∉ ids := by
    rintro ⟨id, n⟩ hp
    obtain ⟨rfl, hpos⟩ := mem_countBySale.1 hp
    obtain ⟨r, hr, hid⟩ := List.countP_pos_iff.1 hpos
    exact of_decide_eq_true hid ▸ hsales r hr
  rw [hknown, Db.less_insert new hsales]
  split_ifs
  · rfl
  · simp only [bind, Except.bind, decrementAll_less hcounts]
    cases decrementAll { db with purchases := db.purchases ++ new } (countBySale new) <;> rfl
  · rfl

/-- A call does on the sales it names what it would do with no other there. -/
theorem Call.run_less {c : Call} (h : ∀ id ∈ c.saleIds, id ∉ ids) : c.run (db.less ids) = (c.run db).less ids := by
  have htx : ∀ {α : Type} {f : Db → Except JsError (α × Db)},
      f (db.less ids) = (f db).map (fun p => (p.1, p.2.less ids)) →
        (transaction .runs f (db.less ids)).2 = (transaction .runs f db).2.less ids := by
    intro α f hf
    simp only [transaction, hf]
    cases f db <;> rfl
  cases c with
  | writePurchase dbNow saleId email =>
    have h := htx (writePurchaseTx_less dbNow (h (.ofText saleId) (List.mem_singleton_self _)) email)
    have hdb : ∀ db, (FlashSale.writePurchase .runs dbNow saleId email db).2 =
        (transaction .runs (writePurchaseTx dbNow saleId email) db).2 := by
      intro db
      unfold FlashSale.writePurchase
      split <;> simp_all
    rw [Call.run, Call.run, hdb, hdb, h]
  | writePurchaseBatch entries =>
    have h := htx (writePurchaseBatchTx_less fun e he => h (.ofText e.saleId) (List.mem_map.2 ⟨e, he, rfl⟩))
    simp only [Call.run, FlashSale.writePurchaseBatch]
    split
    · rfl
    · exact h

end

/-- Calls one after the other keep the schema and the ledger. -/
theorem serial_ledger {db : Db} (hs : db.Schema) (hl : Ledger db) (calls : List Call) :
    (calls.foldl Call.run db).Schema ∧ Ledger (calls.foldl Call.run db) := by
  induction calls generalizing db with
  | nil => exact ⟨hs, hl⟩
  | cons c calls ih =>
    obtain ⟨new, h, -⟩ := c.run_sold hs
    exact ih (h.schema hs) (h.ledger hl)

/-! ## A database to run things on -/

def demoId : Uuid := .ofText "aaaaaaaa-aaaa-4aaa-8aaa-aaaaaaaaaaaa"

/-- One sale of `stock` units, open for its first second, with no buyers. -/
def demoDb (stock : Nat) : Db := ⟨[⟨demoId, stock, stock, 0, 1000000, none⟩], []⟩

theorem demoDb_schema (stock : Nat) : (demoDb stock).Schema := by
  constructor <;> simp [demoDb]

theorem demoDb_ledger (stock : Nat) : Ledger (demoDb stock) := by
  constructor <;> simp [demoDb, Db.purchasesOf]

end FlashSale
