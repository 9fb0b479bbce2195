import FlashSale.Orders
import FlashSale.Purchases
/-!
# The listing over time

`SalesService.findAll` and `findById` while writers sell and the clock runs. A
sale's phase and status only move on, and its stock falls by what was recorded.
`findById` shows a row that may be older than the listing; the two differ in
what was sold since.
-/

namespace FlashSale
open Lib.Keyed Lib.Runs

/-! ## `findById` -/

/-- The row that `findRowById` selects. -/
def Catalog.findRowById (c : Catalog) (id : String) : Option ListedRow := (c.select (·.id = .ofText id)).head?

/-- `findById` at `now`, on the row that `findRowById` returned. -/
def findById (found : Option ListedRow) (now : Int) : Except JsError Sale :=
  match found with
  | none => .error SALE_NOT_FOUND
  | some row => if row.cancelledAt.isNone then .ok (mapRowToSale row now) else .error SALE_NOT_FOUND

/-! ## The order of the phases -/

/-- How far on a sale is. -/
def SalePhase.rank : SalePhase → Nat
  | .upcoming => 0
  | .active => 1
  | .sold_out => 2
  | .ended => 3

def SaleStatus.rank : SaleStatus → Nat
  | .upcoming => 0
  | .active => 1
  | .past => 2

theorem SalePhase.status_rank {p q : SalePhase} (h : p.rank ≤ q.rank) : p.status.rank ≤ q.status.rank := by
  cases p <;> cases q <;> first | decide | simp [SalePhase.rank] at h

section
variable {row : SaleRow} {left now now' : Int}

/-- Time passes and units are sold: the phase never goes back. -/
theorem derivePhase_rank (hleft : left ≤ row.remainingStock) (hnow : now ≤ now') :
    (derivePhase row now).rank ≤ (derivePhase { row with remainingStock := left } now').rank := by
  unfold derivePhase
  dsimp only
  split_ifs <;> simp only [SalePhase.rank] <;> omega

/-- At one instant, what was sold can only make the phase `sold_out`. -/
theorem derivePhase_left (hleft : left ≤ row.remainingStock) :
    derivePhase { row with remainingStock := left } now = derivePhase row now ∨
      derivePhase row now = .active ∧ derivePhase { row with remainingStock := left } now = .sold_out := by
  unfold derivePhase
  dsimp only
  split_ifs <;> first | exact .inl rfl | exact .inr ⟨rfl, rfl⟩ | omega

end

/-! ## A sale and its row -/

section
variable {c : Catalog} {t : Tables} {s : ListedSale} {p : PgProduct} {db : Db} {new : List PgPurchase} {now now' : Int}

/-- What a sale is shown as once `n` more are sold, in the fields that may change. -/
theorem mapRowToSale_spend (s : ListedSale) (p : PgProduct) (n : Nat) (now now' : Int) :
    mapRowToSale ((s.spend n).toListedRow p) now' =
      { mapRowToSale (s.toListedRow p) now with
        phase := derivePhase { s.toRow with remainingStock := s.remainingStock - n } now'
        remainingStock := s.remainingStock - n
        serverTime := toISOString now' } := rfl

theorem Catalog.select_eq (c : Catalog) (condition : ListedSale → Bool) :
    c.select condition =
      (c.sales.filter condition).flatMap fun s => (c.products.filter (·.id = s.productId)).map s.toListedRow := by
  unfold Catalog.select
  induction c.sales with
  | nil => rfl
  | cons s sales ih =>
    rw [List.flatMap_cons, ih, List.filter_cons]
    split
    · rw [List.flatMap_cons]
    · rfl

/-- A row is found by its id, however that is spelled. -/
theorem Catalog.Schema.findRowById_eq (hs : c.Schema) (hm : s ∈ c.sales) (hp : p ∈ c.products)
    (hid : p.id = s.productId) {id : String} (hsale : s.id = .ofText id) :
    c.findRowById id = some (s.toListedRow p) := by
  have hproduct := filter_key_eq (·.id) hs.products_pkey hp
  rw [hid] at hproduct
  rw [Catalog.findRowById, Catalog.select_eq, ← hsale, filter_key_eq (·.id) hs.sales_pkey hm, List.flatMap_singleton,
    hproduct]
  rfl

theorem Catalog.findRowById_eq_none {id : String} (h : ∀ s ∈ c.sales, s.id ≠ .ofText id) : c.findRowById id = none := by
  have hnone : c.select (·.id = .ofText id) = [] := by
    refine List.flatMap_eq_nil_iff.2 fun s hm => ?_
    rw [if_neg (by simpa using h s hm)]
  rw [Catalog.findRowById, hnone]
  rfl

end

/-- The last unit is sold, and its row is written. -/
def demoLastUnit : List (DeploymentAction String) :=
  [.act (.attempt 0 demoId.text "ann@example.com" 5 .answered), .act (.publish 0 true), .take 0, .connect,
    .deliver 0, .work 0 .timer, .work 0 .flush, .write 0 .runs]

theorem exists_lastUnit :
    ∃ D', Deploys 2 1 500 (fun _ _ => True) (demoDeployment 1) D' ∧ (D'.db.purchasesOf demoId).length = 1 :=
  Steps.exists_of_run demoLastUnit (by decide +kernel)

/-! ## Main theorems -/

section
variable {batchSize maxAttempts prefetch : Nat} {D D₁ D₂ : Deployment String} {t : Tables} {now now' : Int}

/-- A sale that is listed stays listed. Its phase and its status never go back,
its stock falls by the purchases that were recorded, and the rest of it stays. -/
theorem sales_only_advance (ht : t.Schema) (hdb : t.db = D₁.db)
    (hstart : D.Starts PurchaseWriteEntry.content) (h : Deploys batchSize maxAttempts prefetch (fun _ _ => True) D D₁)
    (h' : Deploys batchSize maxAttempts prefetch (fun _ _ => True) D₁ D₂) (hnow : now ≤ now') {status : SaleStatus}
    {sale : Sale} (hlisted : sale ∈ t.catalog.findAll (some status) now) :
    ∃ sale' ∈ (t.at D₂.db).catalog.findAll none now', ∃ sold : Nat,
      sale' = { sale with phase := sale'.phase, remainingStock := sale.remainingStock - sold,
                          serverTime := toISOString now' } ∧
      (D₂.db.purchasesOf (.ofText sale.id)).length = (D₁.db.purchasesOf (.ofText sale.id)).length + sold ∧
      sale.phase.rank ≤ sale'.phase.rank ∧
      ∃ status', status.rank ≤ status'.rank ∧
        ∀ other, sale' ∈ (t.at D₂.db).catalog.findAll (some other) now' ↔ other = status' := by
  obtain ⟨-, new, hsold⟩ := (Deployment.ok_of_deploys hstart h).deploys h'
  rw [← hdb] at hsold
  have hschema := ht.at hsold
  obtain ⟨s, hm, hcancel, hcond, p, hp, hid, rfl⟩ := mem_findAll.1 hlisted
  have hm' := Tables.spend_mem_at hsold hm
  have hleft : s.remainingStock - (unitsOf new s.id : Int) ≤ s.remainingStock :=
    Int.sub_le_self _ (Int.natCast_nonneg _)
  have hrank : (derivePhase s.toRow now).rank ≤ (derivePhase (s.spend (unitsOf new s.id)).toRow now').rank :=
    derivePhase_rank hleft hnow
  -- The query compares microseconds, so the status has an order of its own.
  have hexact : (derivePhase s.exactRow (now * 1000)).rank ≤
      (derivePhase (s.spend (unitsOf new s.id)).exactRow (now' * 1000)).rank :=
    derivePhase_rank hleft (by omega)
  have hstatus : (derivePhase s.exactRow (now * 1000)).status = status :=
    (statusCondition_iff (ht.catalog.sales_end_after_start s hm)
      (ht.catalog.sales_remaining_stock_check s hm) status).1 hcond
  have hrow (other : Option SaleStatus) :
      mapRowToSale ((s.spend (unitsOf new s.id)).toListedRow p) now' ∈ (t.at D₂.db).catalog.findAll other now' ↔
        s.cancelledAt = none ∧ statusCondition (s.spend (unitsOf new s.id)) now' other = true :=
    hschema.catalog.mem_findAll_row hm' hp hid
  refine ⟨_, (hrow none).2 ⟨hcancel, rfl⟩, unitsOf new s.id, mapRowToSale_spend s p _ now now', ?_, hrank, _,
    hstatus ▸ SalePhase.status_rank hexact, fun other => ?_⟩
  · have hsame : Uuid.ofText (mapRowToSale (s.toListedRow p) now).id = s.id := Uuid.ofText_text s.id
    rw [hsame, ← hdb]
    exact hsold.purchasesOf s.id
  · rw [hrow, and_iff_right hcancel, @eq_comm _ other]
    exact statusCondition_iff (hschema.catalog.sales_end_after_start _ hm')
      (hschema.catalog.sales_remaining_stock_check _ hm') other

/-- Listed as `active` before the last unit was sold, as `past` after it. -/
theorem sales_only_advance_demo :
    ∃ D' : Deployment String, ∃ sale' ∈ ((demoTables 1).at D'.db).catalog.findAll none 20, sale'.remainingStock = 0 ∧
      ∃ status', SaleStatus.active.rank ≤ status'.rank ∧
        sale' ∈ ((demoTables 1).at D'.db).catalog.findAll (some status') 20 := by
  obtain ⟨D', hrun, hrows⟩ := exists_lastUnit
  have hlisted : ∃ sale ∈ (demoTables 1).catalog.findAll (some .active) 10,
      sale.remainingStock = 1 ∧ sale.id = demoId.text := by decide +kernel
  obtain ⟨sale, hlisted, hleft, hid⟩ := hlisted
  have hnow : (10 : Int) ≤ 20 := by decide
  obtain ⟨sale', hlisted', sold, hsale', hsold, -, status', hrank, hone⟩ :=
    sales_only_advance (demoTables_schema 1) rfl (demoDeployment_starts 1) .refl hrun hnow hlisted
  rw [hid, Uuid.ofText_text, hrows] at hsold
  have hnone : ((demoDeployment 1).db.purchasesOf demoId).length = 0 := rfl
  rw [hnone] at hsold
  refine ⟨D', sale', hlisted', ?_, status', hrank, (hone status').2 rfl⟩
  rw [hsale']
  change sale.remainingStock - (sold : Int) = 0
  omega

/-- `GET /sales/:id` on a row of an earlier table, by an id in any case, against
the listing of now. One says that there is no sale where the other has none;
otherwise they differ in the units sold since, and in that the listing may
already say `sold_out`. -/
theorem findById_listed (ht : t.Schema) (hdb : t.db = D₁.db) (hstart : D.Starts PurchaseWriteEntry.content)
    (h : Deploys batchSize maxAttempts prefetch (fun _ _ => True) D D₁)
    (h' : Deploys batchSize maxAttempts prefetch (fun _ _ => True) D₁ D₂) (id : String) (now : Int) :
    (findById (t.catalog.findRowById id) now = .error SALE_NOT_FOUND ∧
        ∀ listed ∈ (t.at D₂.db).catalog.findAll none now, listed.id ≠ (Uuid.ofText id).text) ∨
      ∃ sale, findById (t.catalog.findRowById id) now = .ok sale ∧ sale.id = (Uuid.ofText id).text ∧
        ∃ listed ∈ (t.at D₂.db).catalog.findAll none now, ∃ sold : Nat,
          listed = { sale with phase := listed.phase, remainingStock := sale.remainingStock - sold } ∧
          (D₂.db.purchasesOf (.ofText id)).length = (D₁.db.purchasesOf (.ofText id)).length + sold ∧
          (listed.phase = sale.phase ∨ sale.phase = .active ∧ listed.phase = .sold_out) := by
  obtain ⟨-, new, hsold⟩ := (Deployment.ok_of_deploys hstart h).deploys h'
  rw [← hdb] at hsold
  have hschema := ht.at hsold
  by_cases hfound : ∃ s ∈ t.sales, s.id = .ofText id
  · obtain ⟨s, hm, hsale⟩ := hfound
    obtain ⟨p, hp, hid⟩ := ht.catalog.sales_product_id_fk s hm
    have hm' := Tables.spend_mem_at hsold hm
    rw [ht.catalog.findRowById_eq hm hp hid hsale]
    cases hcancel : s.cancelledAt with
    | some at_ =>
      refine .inl ⟨by simp [findById, ListedSale.toListedRow, PgSale.toRow, hcancel], fun listed hlisted hsame => ?_⟩
      obtain ⟨s', hs', hnone, -, p', -, -, rfl⟩ := mem_findAll.1 hlisted
      have hkey : s'.id = (s.spend (unitsOf new s.id)).id :=
        Uuid.ext' (hsame.trans (congrArg Uuid.text hsale.symm))
      have heq : s' = s.spend (unitsOf new s.id) := List.inj_on_of_nodup_map hschema.catalog.sales_pkey hs' hm' hkey
      rw [heq] at hnone
      exact absurd (hcancel.symm.trans hnone) (by simp)
    | none =>
      have hlisted : mapRowToSale ((s.spend (unitsOf new s.id)).toListedRow p) now ∈
          (t.at D₂.db).catalog.findAll none now :=
        (hschema.catalog.mem_findAll_row hm' hp hid).2 ⟨hcancel, rfl⟩
      refine .inr ⟨mapRowToSale (s.toListedRow p) now, ?_, congrArg Uuid.text hsale, _, hlisted, unitsOf new s.id,
        mapRowToSale_spend s p _ now now, ?_, ?_⟩
      · simp [findById, ListedSale.toListedRow, PgSale.toRow, hcancel]
      · rw [← hdb, ← hsale]
        exact hsold.purchasesOf s.id
      · have hleft : s.remainingStock - (unitsOf new s.id : Int) ≤ s.toRow.remainingStock :=
          Int.sub_le_self _ (Int.natCast_nonneg _)
        exact derivePhase_left hleft
  · push Not at hfound
    refine .inl ⟨by rw [Catalog.findRowById_eq_none hfound]; rfl, fun listed hlisted hsame => ?_⟩
    obtain ⟨s', hs', -, -, p', -, -, rfl⟩ := mem_findAll.1 hlisted
    obtain ⟨s, hm, rfl⟩ := Tables.mem_at_sales hsold hs'
    exact hfound s hm (Uuid.ext' hsame)

end

/-- The row was cached before the last unit was sold. -/
theorem findById_listed_demo :
    ∃ D' : Deployment String, ∃ sale, findById ((demoTables 1).catalog.findRowById demoId.text) 20 = .ok sale ∧
      sale.remainingStock = 1 ∧
      ∃ listed ∈ ((demoTables 1).at D'.db).catalog.findAll none 20, listed.remainingStock = 0 := by
  obtain ⟨D', hrun, hrows⟩ := exists_lastUnit
  have hfound : ∃ sale, findById ((demoTables 1).catalog.findRowById demoId.text) 20 = .ok sale ∧
      sale.remainingStock = 1 := ⟨_, rfl, rfl⟩
  obtain ⟨sale, hfound, hleft⟩ := hfound
  rcases findById_listed (demoTables_schema 1) rfl (demoDeployment_starts 1) .refl hrun demoId.text 20 with
    ⟨herror, -⟩ | ⟨sale', hfound', -, listed, hlisted, sold, hsame, hsold, -⟩
  · rw [herror] at hfound
    cases hfound
  · obtain rfl : sale = sale' := Except.ok.inj (hfound.symm.trans hfound')
    rw [Uuid.ofText_text, hrows] at hsold
    have hnone : ((demoDeployment 1).db.purchasesOf demoId).length = 0 := rfl
    rw [hnone] at hsold
    refine ⟨D', sale, hfound, hleft, listed, hlisted, ?_⟩
    rw [hsame]
    change sale.remainingStock - (sold : Int) = 0
    omega

end FlashSale
