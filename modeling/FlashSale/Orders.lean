import FlashSale.AtRest
import FlashSale.Broker
import FlashSale.LoadTest
/-!
# A buyer's purchases

`PurchasesService.findByEmail` (apps/api/src/purchases): what `GET /purchases`
lists, a join of the three tables. The writers' tables change beneath it; the
products and the other columns of the sales stay.
-/

namespace FlashSale
open Lib.Keyed Lib.Runs

/-! ## `findByEmail` -/

structure PurchaseRecord where
  id : String
  saleId : String
  product : Product
  email : String
  price : String
  purchasedAt : String
deriving DecidableEq

def PgProduct.product (p : PgProduct) : Product := ⟨p.id.text, p.name, p.description, p.imageUrl, p.price⟩

/-- The rows that the query selects, as the join finds them. The column
`email` is `citext`. -/
def Tables.selectByEmail (t : Tables) (email : String) : List (PgPurchase × ListedSale × PgProduct) :=
  (t.purchases.filter fun r => citextLower r.email = citextLower email).flatMap fun r =>
    (t.sales.filter (·.id = r.saleId)).flatMap fun s =>
      (t.products.filter (·.id = s.productId)).map fun p => (r, s, p)

/-- `order by purchased_at desc`. Postgres leaves the order of equal instants
open; here they stay as they were found. -/
def newestFirst (a b : PgPurchase × ListedSale × PgProduct) : Bool := b.1.purchasedAt ≤ a.1.purchasedAt

section
variable (rowId : PgPurchase → Uuid)

/-- `rowId r` is the `purchases.id` that `gen_random_uuid()` gave the row `r`. -/
def mapRowToRecord (row : PgPurchase × ListedSale × PgProduct) : PurchaseRecord where
  id := (rowId row.1).text
  saleId := row.1.saleId.text
  product := row.2.2.product
  email := row.1.email
  price := row.2.1.salePrice
  purchasedAt := toISOString (row.1.purchasedAt / 1000)

def Tables.findByEmail (t : Tables) (email : String) : List PurchaseRecord :=
  ((t.selectByEmail email).mergeSort newestFirst).map (mapRowToRecord rowId)

end

/-! ## What the join selects -/

section
variable {t : Tables} {email : String} {rowId : PgPurchase → Uuid}

theorem mem_selectByEmail {r : PgPurchase} {s : ListedSale} {p : PgProduct} :
    (r, s, p) ∈ t.selectByEmail email ↔ r ∈ t.purchases ∧ normalizeEmail r.email = normalizeEmail email ∧
      s ∈ t.sales ∧ s.id = r.saleId ∧ p ∈ t.products ∧ p.id = s.productId := by
  simp only [Tables.selectByEmail, List.mem_flatMap, List.mem_map, List.mem_filter, decide_eq_true_eq]
  constructor
  · rintro ⟨r', ⟨hr, he⟩, s', ⟨hs, hid⟩, p', ⟨hp, hpid⟩, heq⟩
    cases heq
    exact ⟨hr, he, hs, hid, hp, hpid⟩
  · rintro ⟨hr, he, hs, hid, hp, hpid⟩
    exact ⟨r, ⟨hr, he⟩, s, ⟨hs, hid⟩, p, ⟨hp, hpid⟩, rfl⟩

/-- Each purchase has one sale, and that one product. -/
theorem Tables.Schema.selectByEmail_rows (hs : t.Schema) (email : String) :
    (t.selectByEmail email).map (·.1) =
      t.purchases.filter fun r => normalizeEmail r.email = normalizeEmail email := by
  have hone : ∀ r ∈ t.purchases, ∃ s p, t.sales.filter (·.id = r.saleId) = [s] ∧
      t.products.filter (·.id = s.productId) = [p] := by
    intro r hr
    obtain ⟨s, hm, hid⟩ := hs.sale_of_purchase hr
    obtain ⟨p, hp, hpid⟩ := hs.catalog.sales_product_id_fk s hm
    refine ⟨s, p, ?_, ?_⟩
    · rw [← hid]
      exact filter_key_eq (·.id) hs.catalog.sales_pkey hm
    · rw [← hpid]
      exact filter_key_eq (·.id) hs.catalog.products_pkey hp
  change List.map _ (List.flatMap _ (t.purchases.filter fun r => normalizeEmail r.email = normalizeEmail email)) = _
  have hmine : ∀ r ∈ t.purchases.filter fun r => normalizeEmail r.email = normalizeEmail email,
      ∃ s p, t.sales.filter (·.id = r.saleId) = [s] ∧ t.products.filter (·.id = s.productId) = [p] :=
    fun r hr => hone r (List.mem_filter.1 hr).1
  generalize (t.purchases.filter fun r => normalizeEmail r.email = normalizeEmail email) = rows at hmine ⊢
  induction rows with
  | nil => rfl
  | cons r rows ih =>
    obtain ⟨s, p, hsale, hproduct⟩ := hmine r List.mem_cons_self
    rw [List.flatMap_cons, List.map_append, ih fun r' hr => hmine r' (List.mem_cons_of_mem _ hr), hsale,
      List.flatMap_singleton, hproduct]
    rfl

theorem newestFirst_pairwise (rows : List (PgPurchase × ListedSale × PgProduct)) :
    (rows.mergeSort newestFirst).Pairwise fun a b => b.1.purchasedAt ≤ a.1.purchasedAt := by
  have hsorted : (rows.mergeSort newestFirst).Pairwise (newestFirst · · = true) := by
    apply List.pairwise_mergeSort
    · intro a b c hab hbc
      simp only [newestFirst, decide_eq_true_eq] at *
      omega
    · intro a b
      simp only [newestFirst, Bool.or_eq_true, decide_eq_true_eq]
      omega
  exact hsorted.imp fun h => of_decide_eq_true h

theorem mem_findByEmail {record : PurchaseRecord} :
    record ∈ t.findByEmail rowId email ↔ ∃ r ∈ t.purchases, normalizeEmail r.email = normalizeEmail email ∧
      ∃ s ∈ t.sales, s.id = r.saleId ∧ ∃ p ∈ t.products, p.id = s.productId ∧
        record = mapRowToRecord rowId (r, s, p) := by
  simp only [Tables.findByEmail, List.mem_map, List.mem_mergeSort]
  constructor
  · rintro ⟨⟨r, s, p⟩, hrow, rfl⟩
    obtain ⟨hr, he, hs, hid, hp, hpid⟩ := mem_selectByEmail.1 hrow
    exact ⟨r, hr, he, s, hs, hid, p, hp, hpid, rfl⟩
  · rintro ⟨r, hr, he, s, hs, hid, p, hp, hpid, rfl⟩
    exact ⟨(r, s, p), mem_selectByEmail.2 ⟨hr, he, hs, hid, hp, hpid⟩, rfl⟩

/-- The spelling of the email makes no difference. -/
theorem findByEmail_spelling {email' : String} (h : normalizeEmail email' = normalizeEmail email) :
    t.findByEmail rowId email' = t.findByEmail rowId email := by
  have hsame : citextLower email' = citextLower email := h
  simp only [Tables.findByEmail, Tables.selectByEmail, hsame]

/-- The buyer's rows, sorted, are what is listed. -/
theorem Tables.Schema.findByEmail_rows (hs : t.Schema) (rowId : PgPurchase → Uuid) (email : String) :
    ∃ rows : List PgPurchase,
      rows.Perm (t.purchases.filter fun r => normalizeEmail r.email = normalizeEmail email) ∧
      rows.Pairwise (fun a b => b.purchasedAt ≤ a.purchasedAt) ∧
      (t.findByEmail rowId email).map (fun record => (record.id, record.saleId, record.email, record.purchasedAt)) =
        rows.map fun r => ((rowId r).text, r.saleId.text, r.email, toISOString (r.purchasedAt / 1000)) := by
  refine ⟨((t.selectByEmail email).mergeSort newestFirst).map (·.1), ?_, ?_, ?_⟩
  · rw [← hs.selectByEmail_rows]
    exact (List.mergeSort_perm _ _).map _
  · exact List.pairwise_map.2 (newestFirst_pairwise _)
  · rw [Tables.findByEmail, List.map_map, List.map_map]
    rfl

theorem Tables.Schema.findByEmail_nodup (hs : t.Schema) (rowId : PgPurchase → Uuid) (email : String) :
    ((t.findByEmail rowId email).map (·.saleId)).Nodup := by
  obtain ⟨rows, hperm, -, hrows⟩ := hs.findByEmail_rows rowId email
  have hids : (t.findByEmail rowId email).map (·.saleId) = (rows.map (·.saleId)).map (·.text) := by
    have h := congrArg (List.map fun x : String × String × String × String => x.2.1) hrows
    rw [List.map_map, List.map_map] at h
    rw [List.map_map]
    exact h
  rw [hids]
  refine List.Nodup.map (fun _ _ => Uuid.ext') ?_
  rw [(hperm.map _).nodup_iff]
  -- One key for each row, and all of them with the same email.
  have hkeys : ((t.purchases.filter fun r => normalizeEmail r.email = normalizeEmail email).map (·.key)).Nodup :=
    hs.db.purchases_one_per_user_per_sale.sublist (List.filter_sublist.map _)
  have hmap : (t.purchases.filter fun r => normalizeEmail r.email = normalizeEmail email).map (·.key) =
      ((t.purchases.filter fun r => normalizeEmail r.email = normalizeEmail email).map (·.saleId)).map
        fun id => (id, normalizeEmail email) := by
    rw [List.map_map]
    refine List.map_congr_left fun r hr => ?_
    have he : normalizeEmail r.email = normalizeEmail email := by simpa using (List.mem_filter.1 hr).2
    simp [PgPurchase.key, he]
  rw [hmap] at hkeys
  exact hkeys.of_map _

theorem Tables.Schema.mem_findByEmail_saleId (hs : t.Schema) (rowId : PgPurchase → Uuid) (email : String)
    {u : Uuid} :
    u.text ∈ (t.findByEmail rowId email).map (·.saleId) ↔ normalizeEmail email ∈ t.db.buyers u := by
  rw [List.mem_map, Db.mem_buyers]
  constructor
  · rintro ⟨record, hmem, hid⟩
    obtain ⟨r, hr, he, s, -, -, p, -, -, rfl⟩ := mem_findByEmail.1 hmem
    exact ⟨r, hr, Uuid.ext' hid, he⟩
  · rintro ⟨r, hr, rfl, he⟩
    obtain ⟨s, hm, hid⟩ := hs.sale_of_purchase hr
    obtain ⟨p, hp, hpid⟩ := hs.catalog.sales_product_id_fk s hm
    exact ⟨_, mem_findByEmail.2 ⟨r, hr, he, s, hm, hid, p, hp, hpid, rfl⟩, rfl⟩

end

/-! ## The tables as the writers change them -/

/-- The tables once the writers' part of them is `db`. -/
def Tables.at (t : Tables) (db : Db) : Tables where
  products := t.products
  sales := List.zipWith (fun listed sale => { listed with toPgSale := sale }) t.sales db.sales
  purchases := db.purchases

theorem PgSale.take_take (s : PgSale) (m n : Nat) : (s.take m).take n = s.take (m + n) := by
  simp only [PgSale.take, PgSale.mk.injEq, true_and, and_true]
  omega

theorem unitsOf_append (new new' : List PgPurchase) (id : Uuid) :
    unitsOf (new ++ new') id = unitsOf new id + unitsOf new' id :=
  List.countP_append

theorem Sold.trans {db db' db'' : Db} {new new' : List PgPurchase} (h : Sold db db' new) (h' : Sold db' db'' new') :
    Sold db db'' (new ++ new') where
  purchases := by rw [h'.purchases, h.purchases, List.append_assoc]
  sales := by
    rw [h'.sales, h.sales, List.map_map]
    refine List.map_congr_left fun s _ => ?_
    rw [unitsOf_append, ← PgSale.take_take]
    rfl
  once := by
    rw [List.map_append]
    refine List.nodup_append'.2 ⟨h.once, h'.once, fun k hk hk' => ?_⟩
    obtain ⟨r, hr, rfl⟩ := List.mem_map.1 hk'
    apply h'.fresh r hr
    rw [h.purchases, List.map_append]
    exact List.mem_append_right _ hk
  fresh r hr hold := by
    rcases List.mem_append.1 hr with hr | hr
    · exact h.fresh r hr hold
    · apply h'.fresh r hr
      rw [h.purchases, List.map_append]
      exact List.mem_append_left _ hold
  absorbs s hm := by
    have hm' : s.take (unitsOf new s.id) ∈ db'.sales := by
      rw [h.sales]
      exact List.mem_map_of_mem hm
    have hleft := h'.absorbs _ hm'
    rw [unitsOf_append]
    simp only [PgSale.take] at hleft
    omega
  known r hr := by
    rcases List.mem_append.1 hr with hr | hr
    · exact h.known r hr
    · obtain ⟨s', hm', hid⟩ := h'.known r hr
      rw [h.sales] at hm'
      obtain ⟨s, hm, rfl⟩ := List.mem_map.1 hm'
      exact ⟨s, hm, hid⟩

/-- Writers have sold some purchases. -/
def Db.Extends (db db' : Db) : Prop := ∃ new, Sold db db' new

theorem Db.Schema.extends_refl {db : Db} (hs : db.Schema) : db.Extends db := ⟨[], hs.sold_nothing⟩

theorem Db.Extends.trans {db db' db'' : Db} (h : db.Extends db') (h' : db'.Extends db'') : db.Extends db'' := by
  obtain ⟨new, hnew⟩ := h
  obtain ⟨new', hnew'⟩ := h'
  exact ⟨new ++ new', hnew.trans hnew'⟩

theorem Db.Schema.extends {db : Db} (hs : db.Schema) (calls : List Call) :
    db.Extends (calls.foldl Call.run db) := by
  induction calls generalizing db with
  | nil => exact hs.extends_refl
  | cons c calls ih =>
    obtain ⟨new, h, -⟩ := c.run_sold hs
    exact .trans ⟨new, h⟩ (ih (h.schema hs))

theorem Server.Inv.extends {S₀ S : Server} (h : S₀.Inv) (hrun : Relation.ReflTransGen Server.Step S₀ S) :
    S₀.db.Extends S.db := by
  obtain ⟨-, calls, hdb⟩ := h.serial hrun
  rw [hdb]
  exact h.schema.extends calls

section
variable {t : Tables} {db : Db} {new : List PgPurchase}

/-- A listed sale with `n` units less. -/
def ListedSale.spend (s : ListedSale) (n : Nat) : ListedSale := { s with toPgSale := s.take n }

theorem Tables.at_sales (h : Sold t.db db new) :
    (t.at db).sales = t.sales.map (fun s => s.spend (unitsOf new s.id)) := by
  rw [Tables.at, h.sales, Tables.db]
  simp [List.zipWith_map_right, List.zipWith_self, ListedSale.spend]

theorem Tables.at_db (h : Sold t.db db new) : (t.at db).db = db := by
  have hsales : (t.at db).sales.map (·.toPgSale) = db.sales := by
    rw [Tables.at_sales h, h.sales, Tables.db, List.map_map, List.map_map]
    rfl
  rw [Tables.db, hsales]
  rfl

/-- A sale keeps everything but its stock. -/
theorem Tables.mem_at_sales (h : Sold t.db db new) {s : ListedSale} (hm : s ∈ (t.at db).sales) :
    ∃ s₀ ∈ t.sales, s = s₀.spend (unitsOf new s₀.id) := by
  rw [Tables.at_sales h] at hm
  obtain ⟨s₀, hm₀, rfl⟩ := List.mem_map.1 hm
  exact ⟨s₀, hm₀, rfl⟩

theorem Tables.spend_mem_at (h : Sold t.db db new) {s : ListedSale} (hm : s ∈ t.sales) :
    s.spend (unitsOf new s.id) ∈ (t.at db).sales := by
  rw [Tables.at_sales h]
  exact List.mem_map_of_mem hm

theorem Tables.Schema.at (hs : t.Schema) (h : Sold t.db db new) : (t.at db).Schema := by
  have hsame := Tables.at_db h
  have hdb := h.schema hs.db
  have hrow : ∀ s ∈ (t.at db).sales, s.toPgSale ∈ db.sales := fun s hm => by
    rw [← hsame]
    exact List.mem_map_of_mem hm
  refine ⟨by rw [hsame]; exact hdb, hs.catalog.products_pkey, ?_, fun s hm => ?_,
    fun s hm => hdb.sales_total_stock_check _ (hrow s hm), fun s hm => hdb.sales_remaining_stock_check _ (hrow s hm),
    fun s hm => hdb.sales_end_after_start _ (hrow s hm), fun s hm => hdb.sales_remaining_lte_total _ (hrow s hm)⟩
  · change ((t.at db).sales.map (·.id)).Nodup
    rw [Tables.at_sales h, List.map_map]
    exact hs.catalog.sales_pkey
  · obtain ⟨s₀, hm₀, rfl⟩ := Tables.mem_at_sales h hm
    exact hs.catalog.sales_product_id_fk s₀ hm₀

/-- A record shows the sale's price and product as they were before the
writers came. -/
theorem Tables.record_columns (h : Sold t.db db new) {rowId : PgPurchase → Uuid} {email : String}
    {record : PurchaseRecord} (hmem : record ∈ (t.at db).findByEmail rowId email) :
    ∃ s ∈ t.sales, s.id.text = record.saleId ∧ record.price = s.salePrice ∧
      ∃ p ∈ t.products, p.id = s.productId ∧ record.product = p.product := by
  obtain ⟨r, -, -, s, hm, hid, p, hp, hpid, rfl⟩ := mem_findByEmail.1 hmem
  obtain ⟨s₀, hm₀, rfl⟩ := Tables.mem_at_sales h hm
  exact ⟨s₀, hm₀, congrArg Uuid.text hid, rfl, p, hp, hpid, rfl⟩

/-- What was listed stays listed, unchanged. -/
theorem Tables.record_stays (h : Sold t.db db new) {db' : Db} {new' : List PgPurchase} (h' : Sold db db' new')
    {rowId : PgPurchase → Uuid} {email : String} {record : PurchaseRecord}
    (hmem : record ∈ (t.at db).findByEmail rowId email) : record ∈ (t.at db').findByEmail rowId email := by
  obtain ⟨r, hr, he, s, hm, hid, p, hp, hpid, rfl⟩ := mem_findByEmail.1 hmem
  obtain ⟨s₀, hm₀, rfl⟩ := Tables.mem_at_sales h hm
  have hr' : r ∈ (t.at db').purchases := by
    change r ∈ db'.purchases
    rw [h'.purchases]
    exact List.mem_append_left _ hr
  exact mem_findByEmail.2 ⟨r, hr', he, _, Tables.spend_mem_at (h.trans h') hm₀, hid, p, hp, hpid, rfl⟩

end

/-! ## Main theorems -/

/-- However the writers interleave, a buyer's listing is that of their rows,
newest first, each sale once and in any spelling of the email; it shows the
price and the product of the sale, and what it showed at any moment it keeps
showing. -/
theorem findByEmail_lists {t : Tables} {S : Server} (hs : t.Schema)
    (h : Relation.ReflTransGen Server.Step (Server.idle t.db) S) (rowId : PgPurchase → Uuid) (email : String) :
    (∃ rows : List PgPurchase,
      rows.Perm (S.db.purchases.filter fun r => normalizeEmail r.email = normalizeEmail email) ∧
      rows.Pairwise (fun a b => b.purchasedAt ≤ a.purchasedAt) ∧
      ((t.at S.db).findByEmail rowId email).map
          (fun record => (record.id, record.saleId, record.email, record.purchasedAt)) =
        rows.map fun r => ((rowId r).text, r.saleId.text, r.email, toISOString (r.purchasedAt / 1000))) ∧
    (((t.at S.db).findByEmail rowId email).map (·.saleId)).Nodup ∧
    (∀ u : Uuid, u.text ∈ ((t.at S.db).findByEmail rowId email).map (·.saleId) ↔
      normalizeEmail email ∈ S.db.buyers u) ∧
    (∀ record ∈ (t.at S.db).findByEmail rowId email, ∃ s ∈ t.sales, s.id.text = record.saleId ∧
      record.price = s.salePrice ∧ ∃ p ∈ t.products, p.id = s.productId ∧ record.product = p.product) ∧
    (∀ S₀, Relation.ReflTransGen Server.Step (Server.idle t.db) S₀ → Relation.ReflTransGen Server.Step S₀ S →
      ∀ record ∈ (t.at S₀.db).findByEmail rowId email, record ∈ (t.at S.db).findByEmail rowId email) ∧
    ∀ email', normalizeEmail email' = normalizeEmail email →
      (t.at S.db).findByEmail rowId email' = (t.at S.db).findByEmail rowId email := by
  have hidle := Server.Inv.idle hs.db
  obtain ⟨new, hsold⟩ := hidle.extends h
  have hschema := hs.at hsold
  have hsame := Tables.at_db hsold
  refine ⟨hschema.findByEmail_rows rowId email, hschema.findByEmail_nodup rowId email, fun u => ?_,
    fun _ => Tables.record_columns hsold, fun S₀ h₀ h₁ record => ?_, fun email' he => findByEmail_spelling he⟩
  · rw [hschema.mem_findByEmail_saleId, hsame]
  · obtain ⟨new₀, hsold₀⟩ := hidle.extends h₀
    obtain ⟨new₁, hsold₁⟩ := (hidle.serial h₀).1.extends h₁
    exact Tables.record_stays hsold₀ hsold₁

/-- A lamp is on sale. -/
def demoTables (stock : Nat) : Tables where
  products := [⟨.ofText "p", "Lamp", none, none, "25.00"⟩]
  sales := (demoDb stock).sales.map fun s => ⟨s, .ofText "p", "10.00"⟩
  purchases := []

theorem demoTables_schema (stock : Nat) : (demoTables stock).Schema where
  db := demoDb_schema stock
  catalog := by constructor <;> simp [Tables.catalog, demoTables, demoDb]

theorem findByEmail_lists_demo :
    ∃ S, Relation.ReflTransGen Server.Step (Server.idle (demoTables 1).db) S ∧
      ∀ rowId, demoId.text ∈ (((demoTables 1).at S.db).findByEmail rowId "ANN@example.com").map (·.saleId) := by
  obtain ⟨S, hrun, hrows⟩ := writes_alone (demoTables 1).db 7000 demoId.text "ann@example.com" (by decide +kernel)
    (by decide +kernel) (by decide +kernel)
  refine ⟨S, hrun, fun rowId => ?_⟩
  obtain ⟨-, -, hlisted, -⟩ := findByEmail_lists (demoTables_schema 1) hrun rowId "ANN@example.com"
  rw [hlisted, Db.buyers, Db.purchasesOf, hrows]
  decide +kernel

section
variable {batchSize maxAttempts prefetch : Nat} {D D' : Deployment String}

/-- Whatever step the deployment takes, purchases are sold, or none. -/
theorem Deployment.Ok.step_extends (hok : D.Ok PurchaseWriteEntry.content (drainPurchaseWrites batchSize maxAttempts))
    {a : DeploymentAction String}
    (h : D.Step PurchaseWriteEntry.content (drainPurchaseWrites batchSize maxAttempts) prefetch a D') :
    D.db.Extends D'.db := by
  have hsystem : (D.system (drainPurchaseWrites batchSize maxAttempts)).Ok :=
    ⟨hok.front.schema, hok.front.printed, hok.front.rows, hok.front.reading⟩
  rcases hok.step_system (drainPurchaseWrites_parse batchSize maxAttempts) h with
    hsame | ⟨b, -, hb⟩ | ⟨entries, fate, hb⟩
  · have hdb : D'.db = D.db := congrArg System.db hsame
    rw [hdb]
    exact hok.front.schema.extends_refl
  · exact (step_frame hsystem hb).1
  · exact (step_frame hsystem hb).1

theorem Deployment.Ok.deploys {ok : Deployment String → DeploymentAction String → Prop}
    (hok : D.Ok PurchaseWriteEntry.content (drainPurchaseWrites batchSize maxAttempts))
    (h : Deploys batchSize maxAttempts prefetch ok D D') :
    D'.Ok PurchaseWriteEntry.content (drainPurchaseWrites batchSize maxAttempts) ∧ D.db.Extends D'.db := by
  induction h with
  | refl => exact ⟨hok, hok.front.schema.extends_refl⟩
  | tail a _ _ hstep ih =>
    obtain ⟨hok', hextends⟩ := ih
    have hs := Deployment.Step.of_step hstep
    exact ⟨hok'.step hs, hextends.trans (hok'.step_extends hs)⟩

/-- Over the whole run: who was told of success has a row or a message. -/
theorem Deployment.told (hstart : D.Starts PurchaseWriteEntry.content) (hanswers : D.answers = [])
    (h : Deploys batchSize maxAttempts prefetch (fun _ _ => True) D D') (u : Uuid) :
    ((D'.system (drainPurchaseWrites batchSize maxAttempts)).books u).told ⊆
      ((D'.system (drainPurchaseWrites batchSize maxAttempts)).books u).held := by
  have hfront : Deploys batchSize maxAttempts prefetch
      (FrontOnly (drainPurchaseWrites batchSize maxAttempts) fun _ _ => True) D D' :=
    h.imp fun _ a _ => by cases a <;> trivial
  obtain ⟨-, hrun⟩ := Deployment.simulates hstart (drainPurchaseWrites_parse batchSize maxAttempts)
    (fun _ _ _ _ => trivial) hfront
  have hsystem : (D.system (drainPurchaseWrites batchSize maxAttempts)).Ok :=
    ⟨hstart.ok.schema, hstart.ok.printed, hstart.ok.rows, hstart.ok.reading⟩
  have hnobody : ((D.system (drainPurchaseWrites batchSize maxAttempts)).books u).told = ∅ := by
    simp [System.books, Deployment.system, Deployment.front, hanswers, toldOf]
  obtain ⟨-, htold⟩ := hrun.inv (I := fun S => S.Ok ∧ (S.books u).told ⊆ (S.books u).held)
    ⟨hsystem, by rw [hnobody]; exact Finset.empty_subset _⟩ fun S a S' hinv _ hstep =>
      ⟨hinv.1.step hstep, (step_moves hinv.1 hstep u).told_held hinv.2⟩
  exact htold

/-- Whatever fails on the way, who was told of success finds the purchase in
the listing, once and at the sale's price, unless its message is still in a write
buffer or with the broker, was dead-lettered, or was lost with its connection. -/
theorem success_listed {t : Tables} (ht : t.Schema) (hdb : t.db = D.db)
    (hstart : D.Starts PurchaseWriteEntry.content) (hanswers : D.answers = [])
    (h : Deploys batchSize maxAttempts prefetch (fun _ _ => True) D D') (rowId : PgPurchase → Uuid)
    {answer : Answer} (hanswer : answer ∈ D'.answers) (hsuccess : answer.isSuccess = true) {email : String}
    (he : normalizeEmail email = normalizeEmail answer.email) :
    (∃ record ∈ (t.at D'.db).findByEmail rowId email, record.saleId = (Uuid.ofText answer.saleId).text ∧
      (∀ record' ∈ (t.at D'.db).findByEmail rowId email, record'.saleId = record.saleId → record' = record) ∧
      ∃ s ∈ t.sales, s.id = .ofText answer.saleId ∧ record.price = s.salePrice ∧
        ∃ p ∈ t.products, p.id = s.productId ∧ record.product = p.product) ∨
    ∃ m : PurchaseWriteEntry, (D'.Carries m.content ∨ m.content ∈ D'.discarded) ∧
      Uuid.ofText m.saleId = .ofText answer.saleId ∧ normalizeEmail m.email = normalizeEmail answer.email := by
  have hok := Deployment.ok_of_deploys hstart h
  obtain ⟨-, new, hsold⟩ := hstart.deployment_ok.deploys h
  rw [← hdb] at hsold
  have hschema := ht.at hsold
  have hmem : normalizeEmail answer.email ∈
      ((D'.system (drainPurchaseWrites batchSize maxAttempts)).books (.ofText answer.saleId)).told := by
    refine List.mem_toFinset.2 (List.mem_map.2 ⟨answer, List.mem_filter.2 ⟨hanswer, ?_⟩, rfl⟩)
    simp [hsuccess]
  have hlisted : normalizeEmail answer.email ∈ D'.db.buyers (.ofText answer.saleId) →
      ∃ record ∈ (t.at D'.db).findByEmail rowId email, record.saleId = (Uuid.ofText answer.saleId).text ∧
        (∀ record' ∈ (t.at D'.db).findByEmail rowId email, record'.saleId = record.saleId → record' = record) ∧
        ∃ s ∈ t.sales, s.id = .ofText answer.saleId ∧ record.price = s.salePrice ∧
          ∃ p ∈ t.products, p.id = s.productId ∧ record.product = p.product := by
    intro hrow
    rw [← he, ← Tables.at_db hsold] at hrow
    obtain ⟨record, hrecord, hid⟩ := List.mem_map.1 ((hschema.mem_findByEmail_saleId rowId email).2 hrow)
    obtain ⟨s, hs, hsid, hprice, p, hp, hpid, hproduct⟩ := Tables.record_columns hsold hrecord
    refine ⟨record, hrecord, hid, fun record' hrecord' hsame => ?_, s, hs, Uuid.ext' (hsid.trans hid), hprice, p, hp,
      hpid, hproduct⟩
    exact List.inj_on_of_nodup_map (hschema.findByEmail_nodup rowId email) hrecord' hrecord hsame
  rcases hok.held_placed (Deployment.told hstart hanswers h _ hmem) with hrow | hmessage
  · exact .inl (hlisted hrow)
  · exact .inr hmessage

end

/-- Once the broker is empty, the buyer who was told of success sees the lamp. -/
theorem success_listed_demo :
    ∃ D' : Deployment String, ∀ rowId, ∃ record ∈ ((demoTables 5).at D'.db).findByEmail rowId "ANN@example.com",
      record.saleId = demoId.text ∧ record.price = "10.00" := by
  have hrun : ∃ D', Deploys 2 1 500 (fun _ _ => True) (demoDeployment 5) D' ∧
      (D'.answers.any fun a => a.saleId = demoId.text ∧ a.email = "ann@example.com" ∧ a.isSuccess) = true ∧
      (D'.buffered ++ (D'.held ++ D'.ready) = []) ∧
      ∀ m ∈ (D'.dead ++ D'.discarded).filterMap (drainPurchaseWrites 2 1).parse,
        normalizeEmail m.email ≠ "ann@example.com" :=
    Steps.exists_of_run demoAtRest (by decide +kernel)
  obtain ⟨D', hrun, hanswers, hbroker, hlost⟩ := hrun
  refine ⟨D', fun rowId => ?_⟩
  obtain ⟨answer, hanswer, htold⟩ := List.any_eq_true.1 hanswers
  obtain ⟨hsale, hemail, hsuccess⟩ := of_decide_eq_true htold
  have he : normalizeEmail "ANN@example.com" = normalizeEmail answer.email := by
    rw [hemail]
    decide +kernel
  rcases success_listed (demoTables_schema 5) rfl (demoDeployment_starts 5) rfl hrun rowId hanswer hsuccess he with
    ⟨record, hrecord, hid, -, s, hs, -, hprice, -⟩ | ⟨m, hplace, -, hm⟩
  · refine ⟨record, hrecord, by rw [hid, hsale, Uuid.ofText_text], hprice.trans ?_⟩
    obtain rfl := List.mem_singleton.1 hs
    rfl
  · obtain ⟨hbuffered, hbroker⟩ := List.append_eq_nil_iff.1 hbroker
    have hplace : m.content ∈ D'.dead ++ D'.discarded := by
      simpa only [Deployment.Carries, hbuffered, hbroker, List.not_mem_nil, false_or, List.mem_append] using hplace
    refine absurd (hm.trans ?_) (hlost m (List.mem_filterMap.2 ⟨_, hplace, drainPurchaseWrites_parse 2 1 m⟩))
    rw [hemail]
    decide +kernel

end FlashSale
