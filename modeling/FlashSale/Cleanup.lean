import FlashSale.Lib.Runs
import FlashSale.LoadTest
/-!
# Removing the load test's rows

`deleteLoadTestRows` is no transaction. Purchases can be written between its
statements, a statement can fail or go through unheard, and the script can die
anywhere and be started again. Each statement, and each writer's transaction,
is one step.
-/

namespace FlashSale
open Lib.Runs

/-! ## The script, statement by statement -/

/-- Where a run of `deleteLoadTestRows` is. -/
inductive Cleanup where
  | findProduct
  | findSales (productId : Uuid)
  /-- The loop; with nothing to do it goes on to the sales. -/
  | deletePurchases (productId : Uuid) (saleIds todo : List Uuid)
  | deleteProduct (productId : Uuid) (saleIds : List Uuid)
  | returned (saleIds : List Uuid)
  | threw (error : JsError)
deriving DecidableEq

/-- Its next statement. -/
def Cleanup.statement (t : Tables) : Cleanup → Option (Cleanup × Tables)
  | .findProduct =>
    match findLoadTestProduct t with
    | none => some (.returned [], t)
    | some product => some (.findSales product.id, t)
  | .findSales productId => some (.deletePurchases productId (t.saleIds productId) (t.saleIds productId), t)
  | .deletePurchases productId saleIds (id :: todo) =>
    some (.deletePurchases productId saleIds todo, t.deletePurchases id)
  | .deletePurchases productId saleIds [] =>
    match t.deleteSales productId with
    | .error e => some (.threw e, t)
    | .ok t => some (.deleteProduct productId saleIds, t)
  | .deleteProduct productId saleIds =>
    match t.deleteProduct productId with
    | .error e => some (.threw e, t)
    | .ok t => some (.returned saleIds, t)
  | .returned _ | .threw _ => none

/-- The tables after a writer's call. -/
def Tables.write (t : Tables) (c : Call) : Tables where
  products := t.products
  sales := List.zipWith (fun listed sale => { listed with toPgSale := sale }) t.sales (c.run t.db).sales
  purchases := (c.run t.db).purchases

structure Cleaning where
  cleanup : Cleanup
  tables : Tables
  /-- The calls that were written since the first start, oldest first. -/
  writes : List Call
deriving DecidableEq

inductive CleaningAction where
  /-- The script's next statement, and what becomes of it. -/
  | statement (fate : TxFate)
  | write (c : Call)
  /-- The script is started again; the run there was is dead. -/
  | start
deriving DecidableEq

def Cleaning.step (S : Cleaning) : CleaningAction → Option Cleaning
  | .statement fate =>
    match S.cleanup.statement S.tables with
    | none => none
    | some (cleanup, tables) =>
      match fate with
      | .runs => some { S with cleanup := cleanup, tables := tables }
      | .unreachable => some { S with cleanup := .threw unreachable }
      | .replyLost => some { S with cleanup := .threw unreachable, tables := tables }
  | .write c => some { S with tables := S.tables.write c, writes := S.writes ++ [c] }
  | .start => some { S with cleanup := .findProduct }

/-- Nobody buys of a tagged product's sales, as they were at first. -/
def CleaningAction.quiet (t₀ : Tables) : CleaningAction → Bool
  | .write c => t₀.products.all fun p => ¬ p.Tagged || c.saleIds.all (· ∉ t₀.saleIds p.id)
  | _ => true

/-! ## Writers on the full tables -/

section
variable {t t' : Tables}

/-- A writer's call sells from the listed sales that it names, and touches
nothing else. -/
theorem Tables.Schema.write_sold (hs : t.Schema) (c : Call) :
    ∃ new, Sold t.db (t.write c).db new ∧ (t.write c).purchases = t.purchases ++ new ∧
      (t.write c).sales = t.sales.map (fun s => { s with toPgSale := s.take (unitsOf new s.id) }) ∧
      ∀ r ∈ new, r.saleId ∈ c.saleIds := by
  obtain ⟨new, h, hnamed⟩ := c.run_sold hs.db
  have hsales : (t.write c).sales = t.sales.map fun s => { s with toPgSale := s.take (unitsOf new s.id) } := by
    rw [Tables.write, h.sales, Tables.db]
    simp [List.zipWith_map_right, List.zipWith_self]
  have hdb : (t.write c).db = c.run t.db := by
    have : (t.write c).sales.map (·.toPgSale) = (c.run t.db).sales := by
      rw [hsales, h.sales, Tables.db, List.map_map, List.map_map]
      rfl
    rw [Tables.db, this]
    rfl
  exact ⟨new, by rw [hdb]; exact h, h.purchases, hsales, hnamed⟩

theorem Tables.Schema.write (hs : t.Schema) (c : Call) : (t.write c).Schema := by
  obtain ⟨new, h, hpurchases, hsales, -⟩ := hs.write_sold c
  have hdb := h.schema hs.db
  have hrow : ∀ s ∈ (t.write c).sales, s.toPgSale ∈ (t.write c).db.sales := fun s hm => List.mem_map_of_mem hm
  refine ⟨hdb, hs.catalog.products_pkey, ?_, fun s hm => ?_, fun s hm => hdb.sales_total_stock_check _ (hrow s hm),
    fun s hm => hdb.sales_remaining_stock_check _ (hrow s hm), fun s hm => hdb.sales_end_after_start _ (hrow s hm),
    fun s hm => hdb.sales_remaining_lte_total _ (hrow s hm)⟩
  · rw [Tables.catalog, hsales, List.map_map]
    exact hs.catalog.sales_pkey
  · rw [Tables.catalog, hsales] at hm
    obtain ⟨l, hl, rfl⟩ := List.mem_map.1 hm
    exact hs.catalog.sales_product_id_fk l hl

theorem Tables.Schema.write_saleIds (hs : t.Schema) (c : Call) (productId : Uuid) :
    (t.write c).saleIds productId = t.saleIds productId := by
  obtain ⟨new, -, -, hsales, -⟩ := hs.write_sold c
  rw [Tables.saleIds, hsales, List.filter_map, List.map_map]
  rfl

/-! ## What is not the load test's -/

/-- A tagged product's id. -/
def Tables.TaggedId (t : Tables) (id : Uuid) : Prop := ∃ p ∈ t.products, p.Tagged ∧ p.id = id

/-- `t` is `t₀` less rows of tagged products, and with what has been bought
since: of every other sale a unit is gone for each new purchase. -/
structure Tables.Spared (t₀ t : Tables) : Prop where
  schema : t.Schema
  tagged : ∀ id, t.TaggedId id → t₀.TaggedId id
  products : t.products.filter (¬ ·.Tagged) = t₀.products.filter (¬ ·.Tagged)
  sales : ∀ s ∈ t₀.sales, ¬ t₀.TaggedId s.productId → ∃ new : List PgPurchase,
    { s with toPgSale := s.take new.length } ∈ t.sales ∧ t.db.purchasesOf s.id = t₀.db.purchasesOf s.id ++ new

variable {t₀ : Tables}

theorem Tables.Spared.refl (hs : t.Schema) : t.Spared t where
  schema := hs
  tagged _ h := h
  products := rfl
  sales s hm _ := ⟨[], by simpa using hm, by simp⟩

theorem Tables.Spared.deletePurchases (h : t₀.Spared t) {productId id : Uuid} (hp : t₀.TaggedId productId)
    (hid : id ∈ t.saleIds productId) : t₀.Spared (t.deletePurchases id) where
  schema := h.schema.deletePurchases id
  tagged := h.tagged
  products := h.products
  sales s hm hother := by
    obtain ⟨new, hs, hrows⟩ := h.sales s hm hother
    refine ⟨new, hs, ?_⟩
    have hne : s.id ≠ id := by
      rintro rfl
      obtain ⟨l, hl, hproduct, hid⟩ := Tables.mem_saleIds.1 hid
      have := List.inj_on_of_nodup_map h.schema.catalog.sales_pkey hl hs hid
      rw [this] at hproduct
      exact hother (hproduct ▸ hp)
    have hkept : (t.deletePurchases id).db.purchasesOf s.id = t.db.purchasesOf s.id := by
      simp only [Db.purchasesOf, Tables.db, Tables.deletePurchases, List.filter_filter]
      refine List.filter_congr fun r _ => ?_
      by_cases hr : r.saleId = s.id <;> simp [hr, hne]
    rw [hkept, hrows]

theorem Tables.Spared.deleteSales (h : t₀.Spared t) {productId : Uuid} (hp : t₀.TaggedId productId)
    (hdelete : t.deleteSales productId = .ok t') : t₀.Spared t' := by
  obtain ⟨hschema, hproducts, hpurchases, hsales, -⟩ := h.schema.deleteSales hdelete
  refine ⟨hschema, fun id hid => h.tagged id ?_, by rw [hproducts, h.products], fun s hm hother => ?_⟩
  · rwa [Tables.TaggedId, hproducts] at hid
  · obtain ⟨new, hs, hrows⟩ := h.sales s hm hother
    refine ⟨new, ?_, ?_⟩
    · rw [hsales]
      refine List.mem_filter.2 ⟨hs, ?_⟩
      have : s.productId ≠ productId := fun he => hother (he ▸ hp)
      simpa using this
    · rw [← hrows]
      simp only [Db.purchasesOf, Tables.db, hpurchases]

theorem Tables.Spared.deleteProduct (hs₀ : t₀.Schema) (h : t₀.Spared t) {id : Uuid} (hp : t₀.TaggedId id)
    (hdelete : t.deleteProduct id = .ok t') : t₀.Spared t' := by
  obtain ⟨hschema, hsales, hpurchases, hproducts, -⟩ := h.schema.deleteProduct hdelete
  refine ⟨hschema, fun id hid => h.tagged id ?_, ?_, fun s hm hother => ?_⟩
  · obtain ⟨p, hm, hid⟩ := hid
    rw [hproducts] at hm
    exact ⟨p, (List.mem_filter.1 hm).1, hid⟩
  · rw [hproducts, List.filter_filter, ← h.products]
    refine List.filter_congr fun p hm => ?_
    by_cases htag : p.Tagged
    · simp [htag]
    · -- Another product of that id would be the tagged one.
      have hm₀ : p ∈ t₀.products.filter (¬ ·.Tagged) := by
        rw [← h.products]
        exact List.mem_filter.2 ⟨hm, by simpa using htag⟩
      obtain ⟨q, hq, hqtag, rfl⟩ := hp
      have hne : p.id ≠ q.id := fun he => by
        rw [List.inj_on_of_nodup_map hs₀.catalog.products_pkey (List.mem_filter.1 hm₀).1 hq he] at htag
        exact htag hqtag
      simp [htag, hne]
  · obtain ⟨new, hm', hrows⟩ := h.sales s hm hother
    refine ⟨new, by rwa [hsales], ?_⟩
    rw [← hrows]
    simp only [Db.purchasesOf, Tables.db, hpurchases]

theorem Tables.Spared.write (h : t₀.Spared t) (c : Call) : t₀.Spared (t.write c) := by
  obtain ⟨sold, hsold, hpurchases, hsales, -⟩ := h.schema.write_sold c
  refine ⟨h.schema.write c, h.tagged, h.products, fun s hm hother => ?_⟩
  obtain ⟨new, hs, hrows⟩ := h.sales s hm hother
  refine ⟨new ++ sold.filter (·.saleId = s.id), ?_, ?_⟩
  · rw [hsales]
    have hunits : (sold.filter (·.saleId = s.id)).length = unitsOf sold s.id := List.countP_eq_length_filter.symm
    refine List.mem_map.2 ⟨_, hs, ?_⟩
    rw [List.length_append, hunits]
    simp only [PgSale.take, Int.natCast_add]
    congr 2
    omega
  · rw [← List.append_assoc, ← hrows]
    simp only [Db.purchasesOf, Tables.db, hpurchases, List.filter_append]

end

/-! ## What the script knows -/

/-- What holds of the tables where a run of the script is. -/
def Cleanup.At (t₀ t : Tables) : Cleanup → Prop
  | .findProduct => True
  | .findSales productId => t₀.TaggedId productId
  | .deletePurchases productId saleIds todo =>
    t₀.TaggedId productId ∧ saleIds = t.saleIds productId ∧ todo ⊆ saleIds
  | .deleteProduct productId saleIds => t₀.TaggedId productId ∧ ∀ id ∈ saleIds, id ∉ t.sales.map (·.id)
  | .returned saleIds => ∀ id ∈ saleIds, id ∉ t.sales.map (·.id)
  | .threw e => e = unreachable ∨ e = restrictViolation

section
variable {t₀ t t' : Tables} {cleanup next : Cleanup}

theorem findLoadTestProduct_some {p : PgProduct} (h : findLoadTestProduct t = some p) : p ∈ t.products ∧ p.Tagged := by
  unfold findLoadTestProduct at h
  exact ⟨List.mem_of_find?_eq_some h, by simpa using List.find?_some h⟩

/-- One statement, with writers about. -/
theorem Cleanup.At.statement (hs₀ : t₀.Schema) (h : t₀.Spared t) (hat : cleanup.At t₀ t)
    (hstep : cleanup.statement t = some (next, t')) : t₀.Spared t' ∧ next.At t₀ t' := by
  cases cleanup with
  | findProduct =>
    simp only [Cleanup.statement] at hstep
    split at hstep
    · cases hstep
      exact ⟨h, by simp [Cleanup.At]⟩
    · rename_i p hfind
      cases hstep
      obtain ⟨hm, htag⟩ := findLoadTestProduct_some hfind
      exact ⟨h, h.tagged p.id ⟨p, hm, htag, rfl⟩⟩
  | findSales productId =>
    cases hstep
    exact ⟨h, hat, rfl, List.Subset.refl _⟩
  | deletePurchases productId saleIds todo =>
    obtain ⟨htag, rfl, hsub⟩ := hat
    cases todo with
    | nil =>
      simp only [Cleanup.statement] at hstep
      split at hstep
      · rename_i e hdelete
        cases hstep
        refine ⟨h, .inr ?_⟩
        unfold Tables.deleteSales at hdelete
        split at hdelete
        · exact (Except.error.inj hdelete).symm
        · cases hdelete
      · rename_i t' hdelete
        cases hstep
        refine ⟨h.deleteSales htag hdelete, htag, fun id hid hm => ?_⟩
        obtain ⟨s', hs', rfl⟩ := List.mem_map.1 hm
        rw [(h.schema.deleteSales hdelete).2.2.2.1] at hs'
        obtain ⟨hs', hother⟩ := List.mem_filter.1 hs'
        obtain ⟨s, hm, hproduct, hid⟩ := Tables.mem_saleIds.1 hid
        rw [← List.inj_on_of_nodup_map h.schema.catalog.sales_pkey hm hs' hid] at hother
        exact (of_decide_eq_true hother) hproduct
    | cons id todo =>
      cases hstep
      have hid := hsub (List.mem_cons_self ..)
      exact ⟨h.deletePurchases htag hid, htag, rfl, fun _ hm => hsub (List.mem_cons_of_mem _ hm)⟩
  | deleteProduct productId saleIds =>
    obtain ⟨htag, hgone⟩ := hat
    simp only [Cleanup.statement] at hstep
    split at hstep
    · rename_i e hdelete
      cases hstep
      refine ⟨h, .inr ?_⟩
      unfold Tables.deleteProduct at hdelete
      split at hdelete
      · exact (Except.error.inj hdelete).symm
      · cases hdelete
    · rename_i t' hdelete
      cases hstep
      refine ⟨h.deleteProduct hs₀ htag hdelete, fun id hid => ?_⟩
      rw [(h.schema.deleteProduct hdelete).2.1]
      exact hgone id hid
  | returned saleIds => cases hstep
  | threw e => cases hstep

theorem Cleanup.At.write (hs : t.Schema) (hat : cleanup.At t₀ t) (c : Call) : cleanup.At t₀ (t.write c) := by
  have hids : (t.write c).sales.map (·.id) = t.sales.map (·.id) := by
    obtain ⟨new, -, -, hsales, -⟩ := hs.write_sold c
    rw [hsales, List.map_map]
    rfl
  cases cleanup with
  | findProduct => trivial
  | findSales productId => exact hat
  | deletePurchases productId saleIds todo =>
    obtain ⟨htag, hsales, hsub⟩ := hat
    exact ⟨htag, by rw [hsales, hs.write_saleIds], hsub⟩
  | deleteProduct productId saleIds => exact ⟨hat.1, by rw [hids]; exact hat.2⟩
  | returned saleIds =>
    show ∀ id ∈ saleIds, _
    rw [hids]
    exact hat
  | threw e => exact hat

end

/-- The invariant of a script that starts on `t₀`. -/
structure Cleaning.Ok (t₀ : Tables) (S : Cleaning) : Prop where
  spared : t₀.Spared S.tables
  place : S.cleanup.At t₀ S.tables

theorem Cleaning.Ok.step {t₀ : Tables} {S S' : Cleaning} {a : CleaningAction} (hs₀ : t₀.Schema) (h : S.Ok t₀)
    (hstep : S.step a = some S') : S'.Ok t₀ := by
  cases a with
  | statement fate =>
    simp only [Cleaning.step] at hstep
    split at hstep
    · cases hstep
    · rename_i next tables hstatement
      obtain ⟨hspared, hat⟩ := h.place.statement hs₀ h.spared hstatement
      cases fate with
      | runs =>
        cases hstep
        exact ⟨hspared, hat⟩
      | unreachable =>
        cases hstep
        exact ⟨h.spared, .inl rfl⟩
      | replyLost =>
        cases hstep
        exact ⟨hspared, .inl rfl⟩
  | write c =>
    cases hstep
    exact ⟨h.spared.write c, h.place.write h.spared.schema c⟩
  | start =>
    cases hstep
    exact ⟨h.spared, trivial⟩

/-! ## Nobody buys of the load test -/

/-- What `createLoadTestSale` leaves, and needs: no two tagged products. -/
def Tables.OneTagged (t : Tables) : Prop := ∀ p ∈ t.products, ∀ q ∈ t.products, p.Tagged → q.Tagged → p = q

/-- What the script has done where it is, when nobody buys of the load test:
`t₀` is what the tables would be without it. -/
def Cleanup.Alone (t₀ t : Tables) : Cleanup → Prop
  | .findProduct => True
  | .findSales productId => ∃ p, findLoadTestProduct t = some p ∧ p.id = productId
  | .deletePurchases productId saleIds todo => (∃ p, findLoadTestProduct t = some p ∧ p.id = productId) ∧
    saleIds = t.saleIds productId ∧ todo ⊆ saleIds ∧ ∀ r ∈ t.purchases, r.saleId ∈ saleIds → r.saleId ∈ todo
  | .deleteProduct productId _ => (∃ p, findLoadTestProduct t = some p ∧ p.id = productId) ∧
    t.saleIds productId = []
  | .returned _ => t = (deleteLoadTestRows t₀).2
  | .threw e => e = unreachable

section
variable {t t' : Tables}

theorem cleaned_none (h : findLoadTestProduct t = none) : deleteLoadTestRows t = (.ok [], t) := by
  simp only [deleteLoadTestRows, h]

theorem Tables.without_deletePurchases {productId id : Uuid} (hid : id ∈ t.saleIds productId) :
    (t.deletePurchases id).without productId = t.without productId := by
  have hids : (t.deletePurchases id).saleIds productId = t.saleIds productId := rfl
  simp only [Tables.without, hids]
  simp only [Tables.deletePurchases, List.filter_filter]
  congr 1
  refine List.filter_congr fun r _ => ?_
  by_cases hr : r.saleId = id
  · simp [hr, hid]
  · simp [hr]

theorem Tables.saleIds_nil {productId : Uuid} (h : t.saleIds productId = []) :
    ∀ s ∈ t.sales, s.productId ≠ productId := fun s hm he => by
  have : s.id ∈ t.saleIds productId := Tables.mem_saleIds.2 ⟨s, hm, he, rfl⟩
  simp [h] at this

/-- With no sale left, all that is to go is the product. -/
theorem Tables.without_eq {productId : Uuid} (h : t.saleIds productId = []) :
    t.without productId = { t with products := t.products.filter (·.id ≠ productId) } := by
  have hsales : t.sales.filter (·.productId ≠ productId) = t.sales :=
    List.filter_eq_self.2 fun s hm => by simpa using Tables.saleIds_nil h s hm
  have hpurchases : t.purchases.filter (·.saleId ∉ t.saleIds productId) = t.purchases :=
    List.filter_eq_self.2 fun r _ => by simp [h]
  rw [Tables.without, hsales, hpurchases]

/-- One statement, with nobody else about: it goes on towards the same tables. -/
theorem Cleanup.Alone.statement {t₀ : Tables} {cleanup next : Cleanup} (hone : t.OneTagged)
    (hclean : (deleteLoadTestRows t).2 = (deleteLoadTestRows t₀).2) (hat : cleanup.Alone t₀ t)
    (hstep : cleanup.statement t = some (next, t')) :
    t'.products.Sublist t.products ∧ t'.sales.Sublist t.sales ∧
      (deleteLoadTestRows t').2 = (deleteLoadTestRows t₀).2 ∧ next.Alone t₀ t' := by
  cases cleanup with
  | findProduct =>
    simp only [Cleanup.statement] at hstep
    split at hstep
    · rename_i hnone
      cases hstep
      rw [cleaned_none hnone] at hclean
      exact ⟨.refl _, .refl _, by rw [cleaned_none hnone, ← hclean], hclean⟩
    · rename_i p hfind
      cases hstep
      exact ⟨.refl _, .refl _, hclean, p, hfind, rfl⟩
  | findSales productId =>
    cases hstep
    exact ⟨.refl _, .refl _, hclean, hat, rfl, List.Subset.refl _, fun _ _ hid => hid⟩
  | deletePurchases productId saleIds todo =>
    obtain ⟨⟨p, hfind, rfl⟩, rfl, hsub, hleft⟩ := hat
    rw [deleteLoadTestRows_some hfind] at hclean
    cases todo with
    | nil =>
      have hnone : ∀ r ∈ t.purchases, r.saleId ∉ t.saleIds p.id := fun r hr hid => by
        have := hleft r hr hid
        cases this
      have hdelete : t.deleteSales p.id = .ok { t with sales := t.sales.filter (·.productId ≠ p.id) } := by
        rw [Tables.deleteSales, if_neg]
        simpa using hnone
      simp only [Cleanup.statement, hdelete] at hstep
      cases hstep
      have hfind' : findLoadTestProduct { t with sales := t.sales.filter (·.productId ≠ p.id) } = some p := hfind
      have hids : Tables.saleIds { t with sales := t.sales.filter (·.productId ≠ p.id) } p.id = [] := by
        simp [Tables.saleIds]
      have hpurchases : t.purchases.filter (·.saleId ∉ t.saleIds p.id) = t.purchases :=
        List.filter_eq_self.2 fun r hr => by simpa using hnone r hr
      refine ⟨.refl _, List.filter_sublist, ?_, ⟨p, hfind', rfl⟩, hids⟩
      rw [deleteLoadTestRows_some hfind', ← hclean]
      show Tables.without _ p.id = t.without p.id
      rw [Tables.without_eq hids, Tables.without, hpurchases]
    | cons id todo =>
      cases hstep
      have hfind' : findLoadTestProduct (t.deletePurchases id) = some p := hfind
      refine ⟨.refl _, .refl _, ?_, ⟨p, hfind', rfl⟩, rfl, fun _ hm => hsub (List.mem_cons_of_mem _ hm),
        fun r hr hid => ?_⟩
      · rw [deleteLoadTestRows_some hfind', Tables.without_deletePurchases (hsub (List.mem_cons_self ..)), ← hclean]
      · obtain ⟨hr, hne⟩ := List.mem_filter.1 hr
        exact (List.mem_cons.1 (hleft r hr hid)).resolve_left (of_decide_eq_true hne)
  | deleteProduct productId saleIds =>
    obtain ⟨⟨p, hfind, rfl⟩, hids⟩ := hat
    have hdelete : t.deleteProduct p.id = .ok (t.without p.id) := by
      rw [Tables.without_eq hids, Tables.deleteProduct, if_neg]
      simpa using Tables.saleIds_nil hids
    simp only [Cleanup.statement, hdelete] at hstep
    cases hstep
    rw [deleteLoadTestRows_some hfind] at hclean
    have hnone : findLoadTestProduct (t.without p.id) = none := by
      refine List.find?_eq_none.2 fun q hq htag => ?_
      obtain ⟨hq, hne⟩ := List.mem_filter.1 hq
      obtain ⟨hp, hptag⟩ := findLoadTestProduct_some hfind
      rw [hone q hq p hp (of_decide_eq_true htag) hptag] at hne
      exact (of_decide_eq_true hne) rfl
    exact ⟨List.filter_sublist, List.filter_sublist, by rw [cleaned_none hnone, ← hclean], hclean⟩
  | returned saleIds => cases hstep
  | threw e => cases hstep

/-- Left alone, the script deletes what `deleteLoadTestRows` deletes, and
returns. -/
theorem Cleaning.alone (t : Tables) (writes : List Call) :
    ∃ saleIds, (deleteLoadTestRows t).1 = .ok saleIds ∧
      Steps Cleaning.step (fun _ a => a = .statement .runs) ⟨.findProduct, t, writes⟩
        ⟨.returned saleIds, (deleteLoadTestRows t).2, writes⟩ := by
  cases hfind : findLoadTestProduct t with
  | none =>
    rw [cleaned_none hfind]
    exact ⟨[], rfl, .tail _ .refl rfl (by simp [Cleaning.step, Cleanup.statement, hfind])⟩
  | some p =>
    rw [deleteLoadTestRows_some hfind]
    have hloop : ∀ (todo : List Uuid) (u : Tables), Steps Cleaning.step (fun _ a => a = .statement .runs)
        ⟨.deletePurchases p.id (t.saleIds p.id) todo, u, writes⟩
        ⟨.deletePurchases p.id (t.saleIds p.id) [], todo.foldl Tables.deletePurchases u, writes⟩ := by
      intro todo
      induction todo with
      | nil => exact fun _ => .refl
      | cons id todo ih => exact fun u => .head rfl rfl (ih (u.deletePurchases id))
    have hdelete := deleteLoadTestRows_some hfind
    simp only [deleteLoadTestRows, hfind] at hdelete
    split at hdelete
    · cases hdelete
    · rename_i u hsales
      split at hdelete
      · cases hdelete
      · rename_i v hproduct
        obtain ⟨-, rfl⟩ := Prod.mk.inj hdelete
        refine ⟨t.saleIds p.id, rfl, ?_⟩
        refine .head (u := ⟨.findSales p.id, t, writes⟩) rfl (by simp [Cleaning.step, Cleanup.statement, hfind]) ?_
        refine .head (u := ⟨.deletePurchases p.id (t.saleIds p.id) (t.saleIds p.id), t, writes⟩) rfl rfl ?_
        refine (hloop _ t).trans ?_
        refine .head (u := ⟨.deleteProduct p.id (t.saleIds p.id), u, writes⟩) rfl
          (by simp [Cleaning.step, Cleanup.statement, hsales]) ?_
        exact .tail _ .refl rfl (by simp [Cleaning.step, Cleanup.statement, hproduct])

end

/-! ### Writers of other sales -/

section
variable {t t₀ : Tables} {c : Call}

theorem Tables.Schema.without_db (hs : t.Schema) (productId : Uuid) :
    (t.without productId).db = t.db.less (t.saleIds productId) := by
  have hsales : (t.sales.filter (·.productId ≠ productId)).map (·.toPgSale) =
      (t.sales.map (·.toPgSale)).filter (·.id ∉ t.saleIds productId) := by
    rw [List.filter_map]
    congr 1
    refine List.filter_congr fun s hm => ?_
    have hiff : s.id ∈ t.saleIds productId ↔ s.productId = productId := by
      refine ⟨fun hid => ?_, fun hp => Tables.mem_saleIds.2 ⟨s, hm, hp, rfl⟩⟩
      obtain ⟨s', hm', hp, hid⟩ := Tables.mem_saleIds.1 hid
      rwa [List.inj_on_of_nodup_map hs.catalog.sales_pkey hm' hm hid] at hp
    simp [hiff]
  simp only [Tables.db, Tables.without, Db.less, hsales]

/-- Other sales are bought of as if the load test's were not there. -/
theorem Tables.Schema.write_without (hs : t.Schema) {productId : Uuid}
    (h : ∀ id ∈ c.saleIds, id ∉ t.saleIds productId) :
    (t.write c).without productId = (t.without productId).write c := by
  obtain ⟨new, -, hpurchases, hsales, -⟩ := hs.write_sold c
  obtain ⟨new', -, hpurchases', hsales', -⟩ := (hs.without productId).write_sold c
  have hrows : ((t.without productId).write c).purchases = ((t.write c).without productId).purchases := by
    simp only [Tables.write, hs.without_db, Call.run_less h]
    simp only [Tables.without, Db.less, ← hs.write_saleIds c productId]
    rfl
  have hnew : new' = new.filter (·.saleId ∉ t.saleIds productId) := by
    rw [hpurchases'] at hrows
    simp only [Tables.without, hs.write_saleIds, hpurchases, List.filter_append] at hrows
    exact List.append_cancel_left hrows
  have hlisted : ((t.without productId).write c).sales = ((t.write c).without productId).sales := by
    rw [hsales']
    simp only [Tables.without, hsales, List.filter_map, Function.comp_def]
    refine List.map_congr_left fun s hm => ?_
    obtain ⟨hm, hp⟩ := List.mem_filter.1 hm
    have hid : s.id ∉ t.saleIds productId := fun hid => by
      obtain ⟨s', hm', hp', hid⟩ := Tables.mem_saleIds.1 hid
      rw [List.inj_on_of_nodup_map hs.catalog.sales_pkey hm' hm hid] at hp'
      exact (of_decide_eq_true hp) hp'
    have hunits : unitsOf new' s.id = unitsOf new s.id := by
      rw [hnew, unitsOf, unitsOf, List.countP_filter]
      refine List.countP_congr fun r _ => ?_
      by_cases hr : r.saleId = s.id <;> simp [hr, hid]
    rw [hunits]
  cases hw : (t.without productId).write c with
  | mk products sales purchases =>
    rw [hw] at hrows hlisted
    obtain rfl : products = t.products.filter (·.id ≠ productId) := (congrArg Tables.products hw).symm
    dsimp only at hrows hlisted
    rw [hrows, hlisted]
    rfl

theorem deleteLoadTestRows_write (hs : t.Schema)
    (h : ∀ p, findLoadTestProduct t = some p → ∀ id ∈ c.saleIds, id ∉ t.saleIds p.id) :
    (deleteLoadTestRows (t.write c)).2 = (deleteLoadTestRows t).2.write c := by
  have hsame : findLoadTestProduct (t.write c) = findLoadTestProduct t := rfl
  cases hfind : findLoadTestProduct t with
  | none => rw [cleaned_none hfind, cleaned_none (hsame.trans hfind)]
  | some p =>
    rw [deleteLoadTestRows_some hfind, deleteLoadTestRows_some (hsame.trans hfind)]
    exact hs.write_without (h p hfind)

/-- The script goes on as it did before the call. -/
theorem Cleanup.Alone.write {cleanup : Cleanup} (hs : t.Schema) (hs₀ : t₀.Schema)
    (h : ∀ p, findLoadTestProduct t = some p → ∀ id ∈ c.saleIds, id ∉ t.saleIds p.id)
    (h₀ : ∀ p, findLoadTestProduct t₀ = some p → ∀ id ∈ c.saleIds, id ∉ t₀.saleIds p.id)
    (hat : cleanup.Alone t₀ t) : cleanup.Alone (t₀.write c) (t.write c) := by
  cases cleanup with
  | findProduct => trivial
  | findSales productId => exact hat
  | deletePurchases productId saleIds todo =>
    obtain ⟨⟨p, hfind, rfl⟩, rfl, hsub, hleft⟩ := hat
    obtain ⟨new, -, hpurchases, -, hnamed⟩ := hs.write_sold c
    refine ⟨⟨p, hfind, rfl⟩, (hs.write_saleIds c p.id).symm, hsub, fun r hr hid => ?_⟩
    rw [hpurchases] at hr
    rcases List.mem_append.1 hr with hr | hr
    · exact hleft r hr hid
    · exact absurd hid (h p hfind _ (hnamed r hr))
  | deleteProduct productId saleIds => exact ⟨hat.1, (hs.write_saleIds c productId).trans hat.2⟩
  | returned saleIds =>
    show t.write c = _
    rw [deleteLoadTestRows_write hs₀ h₀, show t = (deleteLoadTestRows t₀).2 from hat]
  | threw e => exact hat

/-- Calls leave the products, and what sales there are of each. -/
theorem Tables.Schema.writes (hs : t.Schema) (calls : List Call) :
    (calls.foldl Tables.write t).Schema ∧ (calls.foldl Tables.write t).products = t.products ∧
      ∀ id, (calls.foldl Tables.write t).saleIds id = t.saleIds id := by
  induction calls generalizing t with
  | nil => exact ⟨hs, rfl, fun _ => rfl⟩
  | cons c calls ih =>
    obtain ⟨hschema, hproducts, hids⟩ := ih (hs.write c)
    exact ⟨hschema, hproducts, fun id => (hids id).trans (hs.write_saleIds c id)⟩

end

/-- The invariant of a script started on `t₀` while nobody buys of the load
test: whatever became of it, what is left for it to do comes to what one
undisturbed run would leave. -/
structure Cleaning.Quiet (t₀ : Tables) (S : Cleaning) : Prop where
  ok : S.Ok t₀
  one : S.tables.OneTagged
  products : S.tables.products ⊆ t₀.products
  saleIds : ∀ id, S.tables.saleIds id ⊆ t₀.saleIds id
  clean : (deleteLoadTestRows S.tables).2 = (deleteLoadTestRows (S.writes.foldl Tables.write t₀)).2
  place : S.cleanup.Alone (S.writes.foldl Tables.write t₀) S.tables

/-- A purchase of other sales commutes with what is left to do. -/
theorem Cleaning.Quiet.write {t₀ : Tables} {S : Cleaning} {c : Call} (hs₀ : t₀.Schema) (h : S.Quiet t₀)
    (hquiet : ∀ p ∈ t₀.products, p.Tagged → ∀ id ∈ c.saleIds, id ∉ t₀.saleIds p.id) :
    Cleaning.Quiet t₀ ⟨S.cleanup, S.tables.write c, S.writes ++ [c]⟩ := by
  obtain ⟨hbase, hbaseproducts, hbaseids⟩ := hs₀.writes S.writes
  have hothers : ∀ p, findLoadTestProduct S.tables = some p → ∀ id ∈ c.saleIds, id ∉ S.tables.saleIds p.id :=
    fun p hfind id hid hm =>
      have hp := findLoadTestProduct_some hfind
      hquiet p (h.products hp.1) hp.2 id hid (h.saleIds p.id hm)
  have hothers₀ : ∀ p, findLoadTestProduct (S.writes.foldl Tables.write t₀) = some p → ∀ id ∈ c.saleIds,
      id ∉ (S.writes.foldl Tables.write t₀).saleIds p.id := by
    intro p hfind id hid
    obtain ⟨hp, htag⟩ := findLoadTestProduct_some hfind
    rw [hbaseids]
    exact hquiet p (hbaseproducts ▸ hp) htag id hid
  refine ⟨⟨h.ok.spared.write c, h.ok.place.write h.ok.spared.schema c⟩, h.one, h.products, fun id => ?_, ?_, ?_⟩
  · rw [h.ok.spared.schema.write_saleIds]
    exact h.saleIds id
  · rw [List.foldl_concat, deleteLoadTestRows_write h.ok.spared.schema hothers, h.clean,
      deleteLoadTestRows_write hbase hothers₀]
  · rw [List.foldl_concat]
    exact h.place.write h.ok.spared.schema hbase hothers hothers₀

theorem Cleaning.Quiet.step {t₀ : Tables} {S S' : Cleaning} {a : CleaningAction} (hs₀ : t₀.Schema) (h : S.Quiet t₀)
    (hquiet : a.quiet t₀ = true) (hstep : S.step a = some S') : S'.Quiet t₀ := by
  have hok := h.ok.step hs₀ hstep
  cases a with
  | statement fate =>
    simp only [Cleaning.step] at hstep
    split at hstep
    · cases hstep
    · rename_i next tables hstatement
      obtain ⟨hproducts, hsales, hclean, hat⟩ := h.place.statement h.one h.clean hstatement
      have hone : tables.OneTagged := fun p hp q hq => h.one p (hproducts.subset hp) q (hproducts.subset hq)
      have hids : ∀ id, tables.saleIds id ⊆ t₀.saleIds id := fun id =>
        List.Subset.trans ((hsales.filter _).map _).subset (h.saleIds id)
      cases fate with
      | runs =>
        cases hstep
        exact ⟨hok, hone, List.Subset.trans hproducts.subset h.products, hids, hclean, hat⟩
      | unreachable =>
        cases hstep
        exact ⟨hok, h.one, h.products, h.saleIds, h.clean, rfl⟩
      | replyLost =>
        cases hstep
        exact ⟨hok, hone, List.Subset.trans hproducts.subset h.products, hids, hclean, rfl⟩
  | write c =>
    cases hstep
    refine h.write hs₀ ?_
    simpa [CleaningAction.quiet, or_iff_not_imp_left] using hquiet
  | start =>
    cases hstep
    exact ⟨hok, h.one, h.products, h.saleIds, h.clean, trivial⟩

/-! ## Main theorems -/

/-- With purchases written between its statements, and however often it fails
and is started again, the script takes nothing that is not the load test's:
other sales lose only the units of new purchases. Sales it returns are gone,
with their purchases. -/
theorem cleanup_spares_others {t₀ : Tables} {S : Cleaning} (hs : t₀.Schema)
    (h : Steps Cleaning.step (fun _ _ => True) ⟨.findProduct, t₀, []⟩ S) :
    S.tables.Schema ∧ S.tables.products.filter (¬ ·.Tagged) = t₀.products.filter (¬ ·.Tagged) ∧
    (∀ s ∈ t₀.sales, ¬ t₀.TaggedId s.productId → ∃ new : List PgPurchase,
      { s with toPgSale := s.take new.length } ∈ S.tables.sales ∧
      S.tables.db.purchasesOf s.id = t₀.db.purchasesOf s.id ++ new) ∧
    ∀ saleIds, S.cleanup = .returned saleIds → ∀ id ∈ saleIds,
      S.tables.db.sale id = none ∧ S.tables.db.purchasesOf id = [] := by
  have hok : S.Ok t₀ := h.inv ⟨.refl hs, trivial⟩ fun _ _ _ hok _ hstep => hok.step hs hstep
  refine ⟨hok.spared.schema, hok.spared.products, hok.spared.sales, fun saleIds hreturned id hid => ?_⟩
  have hgone : id ∉ S.tables.sales.map (·.id) := by
    have hat := hok.place
    rw [hreturned] at hat
    exact hat id hid
  refine ⟨Db.sale_eq_none.2 fun s hm he => hgone ?_, List.filter_eq_nil_iff.2 fun r hr he => hgone ?_⟩
  · obtain ⟨l, hl, rfl⟩ := List.mem_map.1 hm
    exact List.mem_map.2 ⟨l, hl, he⟩
  · obtain ⟨l, hl, hlid⟩ := hok.spared.schema.sale_of_purchase hr
    exact List.mem_map.2 ⟨l, hl, hlid.trans (of_decide_eq_true he)⟩

/-- A sale of the tagged product, bought of once, beside a sale of another. -/
def testedTables : Tables where
  products := [loadTestProduct (.ofText "p"), ⟨.ofText "q", "Shoes", none, none, "80.00"⟩]
  sales := [loadTestSale demoId (.ofText "p") 2 3600000, ⟨⟨.ofText "s", 5, 5, 0, 1000000, none⟩, .ofText "q", "40.00"⟩]
  purchases := []

theorem testedTables_schema : testedTables.Schema := by
  constructor <;> constructor <;> decide +kernel

/-- A purchase is written behind the loop: the deletion of the sales is
refused. A second run gets through, and leaves the other sale's purchase. -/
theorem cleanup_spares_others_demo :
    ∃ S, Steps Cleaning.step (fun _ _ => True) ⟨.findProduct, testedTables, []⟩ S ∧ S.cleanup = .returned [demoId] ∧
      S.tables.purchases = [⟨.ofText "s", "bob@example.com", 7000⟩] ∧
      S.tables.db.sale demoId = none ∧ S.tables.db.purchasesOf demoId = [] := by
  have hrun : ∃ S, Steps Cleaning.step (fun _ _ => True) ⟨.findProduct, testedTables, []⟩ S ∧
      S.cleanup = .returned [demoId] ∧ S.tables.purchases = [⟨.ofText "s", "bob@example.com", 7000⟩] :=
    Steps.exists_of_run
      [.statement .runs, .statement .runs, .statement .runs, .write (.writePurchase 7000 demoId.text "ann@example.com"),
        .statement .runs, .write (.writePurchase 7000 "s" "bob@example.com"), .start, .statement .runs,
        .statement .runs, .statement .runs, .statement .runs, .statement .runs] (by decide +kernel)
  obtain ⟨S, hrun, hreturned, hrows⟩ := hrun
  obtain ⟨-, -, -, hgone⟩ := cleanup_spares_others testedTables_schema hrun
  exact ⟨S, hrun, hreturned, hrows, hgone _ hreturned demoId (List.mem_singleton_self _)⟩

/-- When nobody buys of the tagged product, a script cut off anywhere has lost
nothing: run again, it leaves the tables that one undisturbed run would have
left, with the same purchases of other sales, and so does the next
`createLoadTestSale`. -/
theorem cleanup_recovers {t₀ : Tables} {S : Cleaning} (hs : t₀.Schema) (hone : t₀.OneTagged)
    (h : Steps Cleaning.step (fun _ a => a.quiet t₀ = true) ⟨.findProduct, t₀, []⟩ S) :
    (∀ e, S.cleanup = .threw e → e = unreachable) ∧
    (∀ saleIds, S.cleanup = .returned saleIds →
      S.tables = (deleteLoadTestRows (S.writes.foldl Tables.write t₀)).2) ∧
    (∃ saleIds, Steps Cleaning.step (fun _ a => a = .statement .runs) ⟨.findProduct, S.tables, S.writes⟩
      ⟨.returned saleIds, (deleteLoadTestRows (S.writes.foldl Tables.write t₀)).2, S.writes⟩) ∧
    ∀ productId saleId totalStock now, createLoadTestSale productId saleId totalStock now S.tables =
      createLoadTestSale productId saleId totalStock now (S.writes.foldl Tables.write t₀) := by
  have hquiet : S.Quiet t₀ := h.inv
    ⟨⟨.refl hs, trivial⟩, hone, List.Subset.refl _, fun _ => List.Subset.refl _, rfl, trivial⟩
    fun _ _ _ hinv ha hstep => hinv.step hs ha hstep
  have hat := hquiet.place
  have hclean := hquiet.clean
  obtain ⟨saleIds, hok, halone⟩ := Cleaning.alone S.tables S.writes
  obtain ⟨saleIds₀, hok₀, -⟩ := Cleaning.alone (S.writes.foldl Tables.write t₀) []
  refine ⟨fun e he => ?_, fun ids hreturned => ?_, ⟨saleIds, by rwa [← hclean]⟩,
    fun productId saleId totalStock now => ?_⟩
  · rw [he] at hat
    exact hat
  · rw [hreturned] at hat
    exact hat
  · have hdelete : deleteLoadTestRows S.tables =
        (.ok saleIds, (deleteLoadTestRows (S.writes.foldl Tables.write t₀)).2) := Prod.ext hok hclean
    have hdelete₀ : deleteLoadTestRows (S.writes.foldl Tables.write t₀) =
        (.ok saleIds₀, (deleteLoadTestRows (S.writes.foldl Tables.write t₀)).2) := Prod.ext hok₀ rfl
    simp only [createLoadTestSale, hdelete]
    rw [hdelete₀]

/-- The script dies with its sale deleted and its product left, and the other
sale is bought of before and after. -/
theorem cleanup_recovers_demo :
    ∃ S, Steps Cleaning.step (fun _ a => a.quiet testedTables = true) ⟨.findProduct, testedTables, []⟩ S ∧
      S.cleanup = .threw unreachable ∧ S.tables.sales.length = 1 ∧ S.tables.products.length = 2 ∧
      S.tables.purchases.length = 2 ∧
      ∃ saleIds, Steps Cleaning.step (fun _ a => a = .statement .runs) ⟨.findProduct, S.tables, S.writes⟩
        ⟨.returned saleIds, (deleteLoadTestRows (S.writes.foldl Tables.write testedTables)).2, S.writes⟩ := by
  have hone : testedTables.OneTagged := by unfold Tables.OneTagged; decide +kernel
  have hrun : ∃ S, Steps Cleaning.step (fun _ a => a.quiet testedTables = true) ⟨.findProduct, testedTables, []⟩ S ∧
      S.cleanup = .threw unreachable ∧ S.tables.sales.length = 1 ∧ S.tables.products.length = 2 ∧
      S.tables.purchases.length = 2 :=
    Steps.exists_of_run [.statement .runs, .write (.writePurchase 7000 "s" "ann@example.com"), .statement .runs,
      .statement .runs, .statement .replyLost, .write (.writePurchaseBatch [⟨"s", "bob@example.com", 7⟩])]
      (by decide +kernel)
  obtain ⟨S, hrun, hthrew, hsales, hproducts, hpurchases⟩ := hrun
  exact ⟨S, hrun, hthrew, hsales, hproducts, hpurchases, (cleanup_recovers testedTables_schema hone hrun).2.2.1⟩

end FlashSale
