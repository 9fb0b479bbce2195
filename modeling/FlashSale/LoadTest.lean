import FlashSale.Listing
import FlashSale.Transactions
/-!
# The load test's sale

packages/load-test/scripts: `deleteLoadTestRows` and `createLoadTestSale`
(load-sale.ts) prepare a sale of a tagged product, and `verify` (verify.ts)
compares its counter with its purchases after the run. They work on the tables
with all the columns a product and its sale are made of; the writers see the
`Db` of it.
-/

namespace FlashSale

/-! ## The tables -/

structure Tables where
  products : List PgProduct
  sales : List ListedSale
  purchases : List PgPurchase
deriving DecidableEq

/-- What the writers see. -/
def Tables.db (t : Tables) : Db := ⟨t.sales.map (·.toPgSale), t.purchases⟩

/-- What the listing reads. -/
def Tables.catalog (t : Tables) : Catalog := ⟨t.sales, t.products⟩

structure Tables.Schema (t : Tables) : Prop where
  db : t.db.Schema
  catalog : t.catalog.Schema

/-- `23001`: an `ON DELETE RESTRICT` key still refers to the row. -/
def restrictViolation : JsError := .query (.coded "23001")
/-- `23514`: a row fails one of its table's checks. -/
def checkViolation : JsError := .query (.coded "23514")

/-- `select id from sales where product_id = $1`. -/
def Tables.saleIds (t : Tables) (productId : Uuid) : List Uuid :=
  (t.sales.filter (·.productId = productId)).map (·.id)

/-- `delete from purchases where sale_id = $1`. -/
def Tables.deletePurchases (t : Tables) (saleId : Uuid) : Tables :=
  { t with purchases := t.purchases.filter (·.saleId ≠ saleId) }

/-- `delete from sales where product_id = $1`. -/
def Tables.deleteSales (t : Tables) (productId : Uuid) : Except JsError Tables :=
  if t.purchases.any fun r => r.saleId ∈ t.saleIds productId then .error restrictViolation
  else .ok { t with sales := t.sales.filter (·.productId ≠ productId) }

/-- `delete from products where id = $1`. -/
def Tables.deleteProduct (t : Tables) (id : Uuid) : Except JsError Tables :=
  if t.sales.any (·.productId = id) then .error restrictViolation
  else .ok { t with products := t.products.filter (·.id ≠ id) }

/-- `insert into products values (...)`. -/
def Tables.insertProduct (t : Tables) (p : PgProduct) : Except JsError Tables :=
  if p.id ∈ t.products.map (·.id) then .error uniqueViolation
  else .ok { t with products := t.products ++ [p] }

/-- `insert into sales values (...)`. -/
def Tables.insertSale (t : Tables) (s : ListedSale) : Except JsError Tables :=
  if s.totalStock < 0 ∨ s.remainingStock < 0 ∨ s.endsAt ≤ s.startsAt ∨ s.totalStock < s.remainingStock then
    .error checkViolation
  else if s.id ∈ t.sales.map (·.id) then .error uniqueViolation
  else if s.productId ∈ t.products.map (·.id) then .ok { t with sales := t.sales ++ [s] }
  else .error foreignKeyViolation

/-! ## `load-sale.ts` -/

def LOAD_TEST_PRODUCT_NAME : String := "[load-test] Flash Sale Target"
def HOUR_MS : Int := 60 * 60 * 1000
def DAY_MS : Int := 24 * HOUR_MS

def PgProduct.Tagged (p : PgProduct) : Prop := p.name = LOAD_TEST_PRODUCT_NAME

instance (p : PgProduct) : Decidable p.Tagged := inferInstanceAs (Decidable (_ = _))

/-- The first tagged row of the scan. -/
def findLoadTestProduct (t : Tables) : Option PgProduct := t.products.find? (·.Tagged)

/-- `deleteLoadTestRows`, with nobody else at the tables. -/
def deleteLoadTestRows (t : Tables) : Except JsError (List Uuid) × Tables :=
  match findLoadTestProduct t with
  | none => (.ok [], t)
  | some product =>
    let saleIds := t.saleIds product.id
    let t := saleIds.foldl Tables.deletePurchases t
    match t.deleteSales product.id with
    | .error e => (.error e, t)
    | .ok t =>
      match t.deleteProduct product.id with
      | .error e => (.error e, t)
      | .ok t => (.ok saleIds, t)

def loadTestProduct (id : Uuid) : PgProduct where
  id := id
  name := LOAD_TEST_PRODUCT_NAME
  description := some "Created by @workspace/load-test — tagged and removed by scripts/cleanup.ts after each run."
  imageUrl := none
  price := "1.00"

def loadTestSale (id productId : Uuid) (totalStock now : Int) : ListedSale where
  id := id
  productId := productId
  totalStock := totalStock
  remainingStock := totalStock
  salePrice := "1.00"
  startsAt := (now - HOUR_MS) * 1000
  endsAt := (now + DAY_MS) * 1000
  cancelledAt := none

/-- `createLoadTestSale`; `productId` and `saleId` are what `gen_random_uuid()`
gives the two rows. A stock is any integer here; the columns are int4, and an
insert of a greater one throws. -/
def createLoadTestSale (productId saleId : Uuid) (totalStock now : Int) (t : Tables) :
    Except JsError ListedSale × Tables :=
  match deleteLoadTestRows t with
  | (.error e, t) => (.error e, t)
  | (.ok _, t) =>
    match t.insertProduct (loadTestProduct productId) with
    | .error e => (.error e, t)
    | .ok t =>
      match t.insertSale (loadTestSale saleId productId totalStock now) with
      | .error e => (.error e, t)
      | .ok t => (.ok (loadTestSale saleId productId totalStock now), t)

/-! ## `verify.ts` -/

structure VerifyCheck where
  name : String
  passed : Bool
  detail : String
deriving DecidableEq

structure VerifyResult where
  ok : Bool
  checks : List VerifyCheck
deriving DecidableEq

def neverNegative (sale : PgSale) : VerifyCheck where
  name := "remaining_stock is never negative"
  passed := 0 ≤ sale.remainingStock
  detail := s!"remaining_stock = {sale.remainingStock}"

def decrementMatches (sale : PgSale) (purchaseRows : List PgPurchase) : VerifyCheck where
  name := "stock decrement matches purchase count (no phantom decrements)"
  passed := sale.totalStock - sale.remainingStock = purchaseRows.length
  detail := s!"total_stock({sale.totalStock}) - remaining_stock({sale.remainingStock}) = {sale.totalStock - sale.remainingStock}, purchases = {purchaseRows.length}"

/-- The emails are compared as they were spelled. -/
def noDuplicates (purchaseRows : List PgPurchase) : VerifyCheck where
  name := "no duplicate purchases (one email, one purchase)"
  passed := (purchaseRows.map (·.email)).toFinset.card = purchaseRows.length
  detail := s!"{purchaseRows.length} purchases, {(purchaseRows.map (·.email)).toFinset.card} distinct emails"

def soldExactly (sale : PgSale) (purchaseRows : List PgPurchase) : VerifyCheck where
  name := "a sold-out sale sold exactly total_stock units, not more"
  passed := purchaseRows.length = sale.totalStock
  detail := s!"purchases = {purchaseRows.length}, total_stock = {sale.totalStock}"

/-- `verify`, on the snapshot its transaction reads. -/
def verify (db : Db) (saleId : String) : Except String VerifyResult :=
  let purchaseRows := db.purchasesOf (.ofText saleId)
  match db.sale (.ofText saleId) with
  | none => .error s!"Sale {saleId} not found — did scripts/prepare.ts run for this test?"
  | some sale =>
    let checks := [neverNegative sale, decrementMatches sale purchaseRows, noDuplicates purchaseRows] ++
      if sale.remainingStock = 0 then [soldExactly sale purchaseRows] else []
    .ok ⟨checks.all (·.passed), checks⟩

/-! ## What `verify` can find -/

/-- The counter has lost one unit for each purchase of the sale. -/
def Db.ExactAt (db : Db) (id : Uuid) : Prop :=
  ∀ s, db.sale id = some s → s.totalStock - s.remainingStock = (db.purchasesOf id).length

theorem Db.Schema.emails_nodup {db : Db} (hs : db.Schema) (id : Uuid) : ((db.purchasesOf id).map (·.email)).Nodup := by
  have hkeys : ((db.purchasesOf id).map (·.key)).Nodup :=
    hs.purchases_one_per_user_per_sale.sublist (List.filter_sublist.map _)
  have hmap : (db.purchasesOf id).map (·.key) =
      ((db.purchasesOf id).map (·.email)).map fun email => (id, normalizeEmail email) := by
    rw [List.map_map]
    refine List.map_congr_left fun r hr => ?_
    have : r.saleId = id := by simpa using (List.mem_filter.1 hr).2
    simp [PgPurchase.key, this]
  rw [hmap] at hkeys
  exact hkeys.of_map _

theorem verify_none {db : Db} {saleId : String} (h : db.sale (.ofText saleId) = none) :
    verify db saleId = .error s!"Sale {saleId} not found — did scripts/prepare.ts run for this test?" := by
  simp only [verify, h]

/-- The constraints leave `verify` one thing to find: a counter that is not
exact. -/
theorem Db.Schema.verify_some {db : Db} (hs : db.Schema) {saleId : String} {s : PgSale}
    (h : db.sale (.ofText saleId) = some s) :
    ∃ r, verify db saleId = .ok r ∧ (r.ok = true ↔ db.ExactAt (.ofText saleId)) ∧
      (r.ok = true ↔ ∀ check ∈ r.checks, check.passed = true) ∧
      (r.checks.length = 4 ↔ s.remainingStock = 0) := by
  have hnonneg := hs.sales_remaining_stock_check s (Db.sale_mem h).1
  have hemails : (((db.purchasesOf (.ofText saleId)).map (·.email)).toFinset.card) =
      (db.purchasesOf (.ofText saleId)).length := by
    rw [List.toFinset_card_of_nodup (hs.emails_nodup _), List.length_map]
  have hexact : db.ExactAt (.ofText saleId) ↔
      s.totalStock - s.remainingStock = (db.purchasesOf (.ofText saleId)).length := by
    simp [Db.ExactAt, h]
  refine ⟨_, by simp only [verify, h]; rfl, ?_, by simp, ?_⟩
  · rw [hexact]
    by_cases hzero : s.remainingStock = 0
    · simp [neverNegative, decrementMatches, noDuplicates, soldExactly, hemails, hzero]
      omega
    · simp [neverNegative, decrementMatches, noDuplicates, hemails, hnonneg, hzero]
  · by_cases hzero : s.remainingStock = 0 <;> simp [hzero]

/-! ## A run of the writers -/

theorem Sold.exactAt_iff {db db' : Db} {new : List PgPurchase} (h : Sold db db' new) (id : Uuid) :
    db'.ExactAt id ↔ db.ExactAt id := by
  unfold Db.ExactAt
  rw [h.sale, h.purchasesOf]
  cases db.sale id with
  | none => simp
  | some s =>
    simp only [Option.map_some, Option.some.injEq, forall_eq', PgSale.take_totalStock, PgSale.take_remainingStock,
      Int.natCast_add]
    omega

/-- Writers neither make a counter inexact nor repair one. -/
theorem serial_exactAt {db : Db} (hs : db.Schema) (calls : List Call) (id : Uuid) :
    (calls.foldl Call.run db).Schema ∧ ((calls.foldl Call.run db).ExactAt id ↔ db.ExactAt id) ∧
      ((calls.foldl Call.run db).sale id).map (·.totalStock) = (db.sale id).map (·.totalStock) := by
  induction calls generalizing db with
  | nil => exact ⟨hs, Iff.rfl, rfl⟩
  | cons c calls ih =>
    obtain ⟨new, h, -⟩ := c.run_sold hs
    obtain ⟨hschema, hexact, htotal⟩ := ih (h.schema hs)
    refine ⟨hschema, hexact.trans (h.exactAt_iff id), htotal.trans ?_⟩
    rw [h.sale, Option.map_map]
    rfl

/-- One purchase that nobody else's transaction overlaps. -/
theorem writes_alone (db : Db) (dbNow : Int) (saleId email : String)
    (hinside : outsideSalePeriod db (purchaseRow dbNow saleId email) = false)
    (hnew : (purchaseRow dbNow saleId email).key ∉ db.purchases.map (·.key))
    (hstock : ∃ s ∈ db.sales, s.id = Uuid.ofText saleId ∧ ((1 : Nat) : Int) ≤ s.remainingStock) :
    ∃ S, Relation.ReflTransGen Server.Step (Server.idle db) S ∧
      S.db.purchases = db.purchases ++ [purchaseRow dbNow saleId email] := by
  have hknown : (db.sale (.ofText saleId)).isSome := by
    obtain ⟨s, hm, hid, -⟩ := hstock
    rw [Option.isSome_iff_ne_none]
    exact fun hnone => Db.sale_eq_none.1 hnone s hm hid
  refine ⟨_, .head (.begin (i := 0) (.writePurchase dbNow saleId email) rfl) <|
    .head (.insert (i := 0) rfl rfl hinside ?_ (by simpa [Session.start, Server.put, Server.idle] using hnew)) <|
    .head (.endInsert (i := 0) rfl rfl rfl
      (by simpa [Session.start, purchaseRow, Server.put, Server.idle] using hknown)) <|
    .head (.decrement (i := 0) rfl rfl ?_ hstock) <|
    .single (.commit (i := 0) rfl rfl), rfl⟩
  all_goals
    rintro (_ | j) τ hj hτ
    · exact absurd rfl hj
    · cases hτ

/-- However the writers interleave, `verify` comes to the verdict it would have
come to before they started. -/
theorem verify_verdict {db : Db} {S : Server} (hs : db.Schema)
    (h : Relation.ReflTransGen Server.Step (Server.idle db) S) (saleId : String) :
    (verify S.db saleId).map (·.ok) = (verify db saleId).map (·.ok) := by
  obtain ⟨-, calls, hdb⟩ := serializable hs h
  obtain ⟨hschema, hexact, htotal⟩ := serial_exactAt hs calls (.ofText saleId)
  rw [← hdb] at hschema hexact htotal
  cases hsale : db.sale (.ofText saleId) with
  | none =>
    rw [hsale, Option.map_none, Option.map_eq_none_iff] at htotal
    rw [verify_none hsale, verify_none htotal]
  | some s =>
    rw [hsale, Option.map_some, Option.map_eq_some_iff] at htotal
    obtain ⟨s', hsale', -⟩ := htotal
    obtain ⟨r, hr, hok, -⟩ := hs.verify_some hsale
    obtain ⟨r', hr', hok', -⟩ := hschema.verify_some hsale'
    have : r'.ok = r.ok := by
      rw [Bool.eq_iff_iff, hok', hok]
      exact hexact
    simp [hr, hr', Except.map, this]

/-- A sale whose counter is one unit short fails before and after a purchase. -/
theorem verify_verdict_demo :
    ∃ S, Relation.ReflTransGen Server.Step (Server.idle ⟨[⟨demoId, 3, 2, 0, 1000000, none⟩], []⟩) S ∧
      S.db.purchases = [purchaseRow 7000 demoId.text "ann@example.com"] ∧
      (verify S.db demoId.text).map (·.ok) = .ok false := by
  obtain ⟨S, hrun, hrows⟩ := writes_alone ⟨[⟨demoId, 3, 2, 0, 1000000, none⟩], []⟩ 7000 demoId.text "ann@example.com"
    (by decide +kernel) (by decide +kernel) (by decide +kernel)
  refine ⟨S, hrun, by simpa using hrows, ?_⟩
  rw [verify_verdict (by constructor <;> simp) hrun]
  decide +kernel

/-! ## Statements and the schema -/

theorem nodup_map_concat {α β : Type} {f : α → β} {l : List α} {a : α} (h : (l.map f).Nodup) (ha : f a ∉ l.map f) :
    ((l ++ [a]).map f).Nodup := by
  rw [List.map_append, List.map_singleton, ← List.concat_eq_append]
  exact h.concat ha

section
variable {t t' : Tables}

theorem Tables.mem_saleIds {productId id : Uuid} :
    id ∈ t.saleIds productId ↔ ∃ s ∈ t.sales, s.productId = productId ∧ s.id = id := by
  simp [Tables.saleIds, and_assoc]

/-- Purchases, sales and products may go, as long as what stays has what it
refers to. -/
theorem Tables.Schema.shrink (hs : t.Schema) (hproducts : t'.products.Sublist t.products)
    (hsales : t'.sales.Sublist t.sales) (hpurchases : t'.purchases.Sublist t.purchases)
    (hsale : ∀ r ∈ t'.purchases, ∃ s ∈ t'.sales, s.id = r.saleId)
    (hproduct : ∀ s ∈ t'.sales, ∃ p ∈ t'.products, p.id = s.productId) : t'.Schema where
  db := {
    sales_pkey := hs.db.sales_pkey.sublist ((hsales.map _).map _)
    purchases_one_per_user_per_sale := hs.db.purchases_one_per_user_per_sale.sublist (hpurchases.map _)
    purchases_sale_id_fk r hr := by
      obtain ⟨s, hm, hid⟩ := hsale r hr
      exact ⟨s.toPgSale, List.mem_map_of_mem hm, hid⟩
    sales_total_stock_check s hm := hs.db.sales_total_stock_check s ((hsales.map _).subset hm)
    sales_remaining_stock_check s hm := hs.db.sales_remaining_stock_check s ((hsales.map _).subset hm)
    sales_end_after_start s hm := hs.db.sales_end_after_start s ((hsales.map _).subset hm)
    sales_remaining_lte_total s hm := hs.db.sales_remaining_lte_total s ((hsales.map _).subset hm) }
  catalog := {
    products_pkey := hs.catalog.products_pkey.sublist (hproducts.map _)
    sales_pkey := hs.catalog.sales_pkey.sublist (hsales.map _)
    sales_product_id_fk := hproduct
    sales_total_stock_check s hm := hs.catalog.sales_total_stock_check s (hsales.subset hm)
    sales_remaining_stock_check s hm := hs.catalog.sales_remaining_stock_check s (hsales.subset hm)
    sales_end_after_start s hm := hs.catalog.sales_end_after_start s (hsales.subset hm)
    sales_remaining_lte_total s hm := hs.catalog.sales_remaining_lte_total s (hsales.subset hm) }

theorem Tables.Schema.sale_of_purchase (hs : t.Schema) {r : PgPurchase} (hr : r ∈ t.purchases) :
    ∃ s ∈ t.sales, s.id = r.saleId := by
  obtain ⟨s, hm, hid⟩ := hs.db.purchases_sale_id_fk r hr
  obtain ⟨l, hl, rfl⟩ := List.mem_map.1 hm
  exact ⟨l, hl, hid⟩

theorem Tables.Schema.deletePurchases (hs : t.Schema) (saleId : Uuid) : (t.deletePurchases saleId).Schema :=
  hs.shrink (.refl _) (.refl _) List.filter_sublist
    (fun _ hr => hs.sale_of_purchase (List.mem_filter.1 hr).1) hs.catalog.sales_product_id_fk

/-- A sale goes when no purchase of it is left. -/
theorem Tables.Schema.deleteSales (hs : t.Schema) {productId : Uuid} (h : t.deleteSales productId = .ok t') :
    t'.Schema ∧ t'.products = t.products ∧ t'.purchases = t.purchases ∧
      t'.sales = t.sales.filter (·.productId ≠ productId) ∧ ∀ r ∈ t.purchases, r.saleId ∉ t.saleIds productId := by
  unfold Tables.deleteSales at h
  split at h
  · cases h
  · rename_i hnone
    obtain rfl := Except.ok.inj h
    have hkept : ∀ r ∈ t.purchases, r.saleId ∉ t.saleIds productId := by simpa using hnone
    refine ⟨hs.shrink (.refl _) List.filter_sublist (.refl _) (fun r hr => ?_)
      (fun s hm => hs.catalog.sales_product_id_fk s (List.mem_filter.1 hm).1), rfl, rfl, rfl, hkept⟩
    obtain ⟨s, hm, hid⟩ := hs.sale_of_purchase hr
    have hother : s.productId ≠ productId := fun he => hkept r hr (Tables.mem_saleIds.2 ⟨s, hm, he, hid⟩)
    exact ⟨s, List.mem_filter.2 ⟨hm, by simpa using hother⟩, hid⟩

theorem Tables.Schema.deleteProduct (hs : t.Schema) {id : Uuid} (h : t.deleteProduct id = .ok t') :
    t'.Schema ∧ t'.sales = t.sales ∧ t'.purchases = t.purchases ∧ t'.products = t.products.filter (·.id ≠ id) ∧
      ∀ s ∈ t.sales, s.productId ≠ id := by
  unfold Tables.deleteProduct at h
  split at h
  · cases h
  · rename_i hnone
    obtain rfl := Except.ok.inj h
    have hkept : ∀ s ∈ t.sales, s.productId ≠ id := by simpa using hnone
    refine ⟨hs.shrink List.filter_sublist (.refl _) (.refl _) (fun _ => hs.sale_of_purchase) (fun s hm => ?_),
      rfl, rfl, rfl, hkept⟩
    obtain ⟨p, hp, hid⟩ := hs.catalog.sales_product_id_fk s hm
    exact ⟨p, List.mem_filter.2 ⟨hp, by simpa [hid] using hkept s hm⟩, hid⟩

theorem Tables.Schema.insertProduct (hs : t.Schema) {p : PgProduct} (h : t.insertProduct p = .ok t') :
    t'.Schema ∧ t'.sales = t.sales ∧ t'.purchases = t.purchases ∧ t'.products = t.products ++ [p] := by
  unfold Tables.insertProduct at h
  split at h
  · cases h
  · rename_i hnew
    obtain rfl := Except.ok.inj h
    refine ⟨⟨hs.db, { hs.catalog with products_pkey := ?_, sales_product_id_fk := fun s hm => ?_ }⟩, rfl, rfl, rfl⟩
    · exact nodup_map_concat hs.catalog.products_pkey hnew
    · obtain ⟨q, hq, hid⟩ := hs.catalog.sales_product_id_fk s hm
      exact ⟨q, List.mem_append_left _ hq, hid⟩

theorem Tables.Schema.insertSale (hs : t.Schema) {s : ListedSale} (h : t.insertSale s = .ok t') :
    t'.Schema ∧ t'.sales = t.sales ++ [s] ∧ t'.purchases = t.purchases ∧ t'.products = t.products ∧
      s.id ∉ t.sales.map (·.id) := by
  unfold Tables.insertSale at h
  split at h
  · cases h
  · rename_i hchecks
    split at h
    · cases h
    · rename_i hnew
      split at h
      · rename_i hproduct
        obtain rfl := Except.ok.inj h
        have hids : ((t.sales ++ [s]).map (·.id)).Nodup := nodup_map_concat hs.catalog.sales_pkey hnew
        have hlisted : ∀ r ∈ t.sales ++ [s], 0 ≤ r.totalStock ∧ 0 ≤ r.remainingStock ∧ r.startsAt < r.endsAt ∧
            r.remainingStock ≤ r.totalStock := by
          intro r hr
          rcases List.mem_append.1 hr with hr | hr
          · exact ⟨hs.catalog.sales_total_stock_check r hr, hs.catalog.sales_remaining_stock_check r hr,
              hs.catalog.sales_end_after_start r hr, hs.catalog.sales_remaining_lte_total r hr⟩
          · obtain rfl := List.mem_singleton.1 hr
            omega
        have hrows : ∀ r ∈ (t.sales ++ [s]).map (·.toPgSale), 0 ≤ r.totalStock ∧ 0 ≤ r.remainingStock ∧
            r.startsAt < r.endsAt ∧ r.remainingStock ≤ r.totalStock := by
          intro r hr
          obtain ⟨l, hl, rfl⟩ := List.mem_map.1 hr
          exact hlisted l hl
        refine ⟨⟨⟨by rw [Tables.db, List.map_map]; exact hids, hs.db.purchases_one_per_user_per_sale,
          fun r hr => ?_, fun r hr => (hrows r hr).1, fun r hr => (hrows r hr).2.1, fun r hr => (hrows r hr).2.2.1,
          fun r hr => (hrows r hr).2.2.2⟩, ⟨hs.catalog.products_pkey, hids, fun r hr => ?_,
          fun r hr => (hlisted r hr).1, fun r hr => (hlisted r hr).2.1, fun r hr => (hlisted r hr).2.2.1,
          fun r hr => (hlisted r hr).2.2.2⟩⟩, rfl, rfl, rfl, hnew⟩
        · obtain ⟨l, hl, hid⟩ := hs.sale_of_purchase hr
          exact ⟨l.toPgSale, List.mem_map_of_mem (List.mem_append_left _ hl), hid⟩
        · rcases List.mem_append.1 hr with hr | hr
          · exact hs.catalog.sales_product_id_fk r hr
          · obtain rfl := List.mem_singleton.1 hr
            exact List.mem_map.1 hproduct
      · cases h

/-! ## A clean slate -/

/-- The tables without a product, its sales and their purchases. -/
def Tables.without (t : Tables) (id : Uuid) : Tables where
  products := t.products.filter (·.id ≠ id)
  sales := t.sales.filter (·.productId ≠ id)
  purchases := t.purchases.filter (·.saleId ∉ t.saleIds id)

theorem Tables.foldl_deletePurchases (ids : List Uuid) (t : Tables) :
    ids.foldl Tables.deletePurchases t = { t with purchases := t.purchases.filter (·.saleId ∉ ids) } := by
  induction ids generalizing t with
  | nil => simp
  | cons id ids ih =>
    rw [List.foldl_cons, ih]
    simp only [Tables.deletePurchases, List.filter_filter]
    congr 2
    funext r
    simp [not_or, Bool.and_comm]

theorem Tables.Schema.without (hs : t.Schema) (id : Uuid) : (t.without id).Schema := by
  refine hs.shrink List.filter_sublist List.filter_sublist List.filter_sublist (fun r hr => ?_) fun s hm => ?_
  · obtain ⟨hr, hother⟩ := List.mem_filter.1 hr
    obtain ⟨s, hm, hid⟩ := hs.sale_of_purchase hr
    have hsale : s.productId ≠ id := fun he => by
      simp [Tables.mem_saleIds] at hother
      exact hother s hm he hid
    exact ⟨s, List.mem_filter.2 ⟨hm, by simpa using hsale⟩, hid⟩
  · obtain ⟨hm, hother⟩ := List.mem_filter.1 hm
    obtain ⟨p, hp, hid⟩ := hs.catalog.sales_product_id_fk s hm
    exact ⟨p, List.mem_filter.2 ⟨hp, by simpa [hid] using hother⟩, hid⟩

/-- With nobody else at the tables no statement is refused. -/
theorem deleteLoadTestRows_some {p : PgProduct} (h : findLoadTestProduct t = some p) :
    deleteLoadTestRows t = (.ok (t.saleIds p.id), t.without p.id) := by
  have hsales : Tables.deleteSales ((t.saleIds p.id).foldl Tables.deletePurchases t) p.id =
      .ok { t with sales := t.sales.filter (·.productId ≠ p.id),
                   purchases := t.purchases.filter (·.saleId ∉ t.saleIds p.id) } := by
    rw [Tables.foldl_deletePurchases, Tables.deleteSales, if_neg]
    simp only [List.any_eq_true, List.mem_filter, decide_eq_true_eq, not_exists, not_and]
    rintro r ⟨-, hr⟩
    exact hr
  have hproduct : Tables.deleteProduct { t with
      sales := t.sales.filter (·.productId ≠ p.id)
      purchases := t.purchases.filter (·.saleId ∉ t.saleIds p.id) } p.id = .ok (t.without p.id) := by
    rw [Tables.deleteProduct, if_neg]
    · rfl
    · simp
  simp only [deleteLoadTestRows, h, hsales, hproduct]

theorem deleteLoadTestRows_schema (hs : t.Schema) : (deleteLoadTestRows t).2.Schema := by
  cases h : findLoadTestProduct t with
  | none =>
    simp only [deleteLoadTestRows, h]
    exact hs
  | some p =>
    rw [deleteLoadTestRows_some h]
    exact hs.without p.id

/-- The new sale is on sale with all its stock, and nobody has bought of it. -/
theorem createLoadTestSale_ok {productId saleId : Uuid} {totalStock now : Int} {s : ListedSale} (hs : t.Schema)
    (h : createLoadTestSale productId saleId totalStock now t = (.ok s, t')) :
    s = loadTestSale saleId productId totalStock now ∧ t'.Schema ∧
      t'.products = (deleteLoadTestRows t).2.products ++ [loadTestProduct productId] ∧
      t'.sales = (deleteLoadTestRows t).2.sales ++ [s] ∧ t'.purchases = (deleteLoadTestRows t).2.purchases ∧
      t'.db.sale saleId = some s.toPgSale ∧ t'.db.purchasesOf saleId = [] := by
  have hclean := deleteLoadTestRows_schema hs
  unfold createLoadTestSale at h
  split at h
  · cases h
  · rename_i hdelete
    rw [hdelete] at hclean ⊢
    split at h
    · cases h
    · rename_i hinsert
      obtain ⟨hproduct, hsales, hpurchases, hproducts⟩ := hclean.insertProduct hinsert
      split at h
      · cases h
      · rename_i hinsert
        obtain ⟨hschema, hsales', hpurchases', hproducts', hnew⟩ := hproduct.insertSale hinsert
        obtain ⟨hs', ht'⟩ := Prod.mk.inj h
        obtain rfl := Except.ok.inj hs'
        subst ht'
        refine ⟨rfl, hschema, by rw [hproducts', hproducts], by rw [hsales', hsales], by rw [hpurchases', hpurchases],
          ?_, ?_⟩
        · refine hschema.db.sale_of_mem (s := (loadTestSale saleId productId totalStock now).toPgSale) ?_
          exact List.mem_map_of_mem (by rw [hsales']; simp)
        · -- A purchase of it would refer to a sale that was not there.
          refine List.filter_eq_nil_iff.2 fun r hr hid => ?_
          rw [Tables.db, hpurchases'] at hr
          obtain ⟨l, hl, hlid⟩ := hproduct.sale_of_purchase hr
          refine hnew (List.mem_map.2 ⟨l, hl, ?_⟩)
          rw [hlid]
          exact of_decide_eq_true hid

end

/-! ## Main theorem -/

/-- A sale that `createLoadTestSale` made passes `verify` whenever it is asked,
however the writers interleave, and the check of a sold-out sale is made just
when its stock is all bought. -/
theorem verify_passes {t t' : Tables} {productId saleId : Uuid} {totalStock now : Int} {s : ListedSale} {S : Server}
    (hs : t.Schema) (hcreate : createLoadTestSale productId saleId totalStock now t = (.ok s, t'))
    (h : Relation.ReflTransGen Server.Step (Server.idle t'.db) S) :
    ∃ r, verify S.db saleId.text = .ok r ∧ r.ok = true ∧ (∀ check ∈ r.checks, check.passed = true) ∧
      (r.checks.length = 4 ↔ ((S.db.buyers saleId).card : Int) = totalStock) := by
  obtain ⟨rfl, ht', -, -, -, hsale, hnone⟩ := createLoadTestSale_ok hs hcreate
  obtain ⟨-, calls, hdb⟩ := serializable ht'.db h
  obtain ⟨hschema, hexact, htotal⟩ := serial_exactAt ht'.db calls saleId
  rw [← hdb] at hschema hexact htotal
  rw [hsale, Option.map_some, Option.map_eq_some_iff] at htotal
  obtain ⟨s', hsale', hstock⟩ := htotal
  have hstart : t'.db.ExactAt saleId := by
    intro s hs
    rw [hsale] at hs
    obtain rfl := Option.some.inj hs
    simp [hnone, loadTestSale]
  have hat : S.db.ExactAt saleId := hexact.2 hstart
  have hread : S.db.sale (.ofText saleId.text) = some s' := by rw [Uuid.ofText_text, hsale']
  obtain ⟨r, hr, hok, hall, hfour⟩ := hschema.verify_some hread
  rw [Uuid.ofText_text] at hok
  have hpassed := hok.2 hat
  refine ⟨r, hr, hpassed, hall.1 hpassed, hfour.trans ?_⟩
  have hcount := hat s' hsale'
  rw [hschema.card_buyers]
  simp only [loadTestSale] at hstock
  omega

/-- The single unit of a prepared sale is bought: `verify` makes all four
checks. -/
theorem verify_passes_demo :
    ∃ t', createLoadTestSale (.ofText "p") demoId 1 3600000 ⟨[], [], []⟩ =
        (.ok (loadTestSale demoId (.ofText "p") 1 3600000), t') ∧
      ∃ S, Relation.ReflTransGen Server.Step (Server.idle t'.db) S ∧
        ∃ r, verify S.db demoId.text = .ok r ∧ r.ok = true ∧ r.checks.length = 4 := by
  refine ⟨_, rfl, ?_⟩
  have hempty : Tables.Schema ⟨[], [], []⟩ :=
    ⟨by constructor <;> simp [Tables.db], by constructor <;> simp [Tables.catalog]⟩
  have hcreate : createLoadTestSale (.ofText "p") demoId 1 3600000 ⟨[], [], []⟩ =
      (.ok (loadTestSale demoId (.ofText "p") 1 3600000), _) := rfl
  obtain ⟨S, hrun, hrows⟩ := writes_alone ⟨[(loadTestSale demoId (.ofText "p") 1 3600000).toPgSale], []⟩ 7000
    demoId.text "ann@example.com" (by decide +kernel) (by decide +kernel) (by decide +kernel)
  obtain ⟨r, hr, hok, -, hfour⟩ := verify_passes hempty hcreate hrun
  refine ⟨S, hrun, r, hr, hok, hfour.2 ?_⟩
  simp only [Db.buyers, Db.purchasesOf, hrows]
  decide +kernel

end FlashSale
