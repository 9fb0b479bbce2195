import FlashSale.Sales
/-!
# The sale listing

`SalesService.findAll`, `derivePhase` and `mapRowToSale` (apps/api/src/sales).
The same classification is made three times: in the conditions of the query,
on microseconds, and in `derivePhase` and `isSaleOpen`, on the milliseconds of
the row that was read.
-/

namespace FlashSale
open Lib.Keyed

/-! ## The tables that are read -/

/-- A row of `products`. -/
structure PgProduct where
  id : Uuid
  name : String
  description : Option String
  imageUrl : Option String
  price : String
deriving DecidableEq

/-- A row of `sales` with the columns that only the listing reads. -/
structure ListedSale extends PgSale where
  productId : Uuid
  salePrice : String
deriving DecidableEq

structure Catalog where
  sales : List ListedSale
  products : List PgProduct

/-- The keys and checks of both tables. -/
structure Catalog.Schema (c : Catalog) : Prop where
  products_pkey : (c.products.map (·.id)).Nodup
  sales_pkey : (c.sales.map (·.id)).Nodup
  sales_product_id_fk : ∀ s ∈ c.sales, ∃ p ∈ c.products, p.id = s.productId
  sales_total_stock_check : ∀ s ∈ c.sales, 0 ≤ s.totalStock
  sales_remaining_stock_check : ∀ s ∈ c.sales, 0 ≤ s.remainingStock
  sales_end_after_start : ∀ s ∈ c.sales, s.startsAt < s.endsAt
  sales_remaining_lte_total : ∀ s ∈ c.sales, s.remainingStock ≤ s.totalStock

/-! ## Rows and sales -/

/-- What `SALE_COLUMNS` selects of a sale and its product. -/
structure ListedRow extends SaleRow where
  salePrice : String
  productId : String
  productName : String
  productDescription : Option String
  productImageUrl : Option String
  productPrice : String
deriving DecidableEq

def ListedSale.toListedRow (s : ListedSale) (p : PgProduct) : ListedRow where
  toSaleRow := s.toRow
  salePrice := s.salePrice
  productId := p.id.text
  productName := p.name
  productDescription := p.description
  productImageUrl := p.imageUrl
  productPrice := p.price

inductive SalePhase where
  | upcoming
  | active
  | ended
  | sold_out
deriving DecidableEq

structure Product where
  id : String
  name : String
  description : Option String
  imageUrl : Option String
  price : String
deriving DecidableEq

structure Sale where
  id : String
  product : Product
  phase : SalePhase
  salePrice : String
  totalStock : Int
  remainingStock : Int
  startsAt : String
  endsAt : String
  serverTime : String
deriving DecidableEq

/-- `n` in decimal, with zeros in front up to `width` digits. -/
def padStart (width n : Nat) : String :=
  let digits := toString n
  String.ofList (List.replicate (width - digits.length) '0') ++ digits

/-- `Date.prototype.toISOString` of a time in milliseconds. Years start in
March here, so that the leap day is a year's last. -/
def toISOString (time : Int) : String :=
  let day := time / 86400000 + 719468
  let ms := (time % 86400000).toNat
  let era := day / 146097
  let dayOfEra := (day % 146097).toNat
  let yearOfEra := (dayOfEra - dayOfEra / 1460 + dayOfEra / 36524 - dayOfEra / 146096) / 365
  let dayOfYear := dayOfEra - (365 * yearOfEra + yearOfEra / 4 - yearOfEra / 100)
  let march := (5 * dayOfYear + 2) / 153
  let month := if march < 10 then march + 3 else march - 9
  let year := era * 400 + yearOfEra + if month ≤ 2 then 1 else 0
  let sign := if year < 0 then "-" else if 9999 < year then "+" else ""
  sign ++ padStart (if sign = "" then 4 else 6) year.natAbs ++ "-" ++ padStart 2 month ++ "-" ++
    padStart 2 (dayOfYear - (153 * march + 2) / 5 + 1) ++ "T" ++ padStart 2 (ms / 3600000) ++ ":" ++
    padStart 2 (ms / 60000 % 60) ++ ":" ++ padStart 2 (ms / 1000 % 60) ++ "." ++ padStart 3 (ms % 1000) ++ "Z"

example : toISOString 1709210096789 = "2024-02-29T12:34:56.789Z" := by decide +kernel

def derivePhase (row : SaleRow) (now : Int) : SalePhase :=
  if now < row.startsAt then .upcoming
  else if row.endsAt ≤ now then .ended
  else if row.remainingStock ≤ 0 then .sold_out
  else .active

def mapRowToSale (row : ListedRow) (now : Int) : Sale where
  id := row.id
  product := ⟨row.productId, row.productName, row.productDescription, row.productImageUrl, row.productPrice⟩
  phase := derivePhase row.toSaleRow now
  salePrice := row.salePrice
  totalStock := row.totalStock
  remainingStock := row.remainingStock
  startsAt := toISOString row.startsAt
  endsAt := toISOString row.endsAt
  serverTime := toISOString now

/-! ## `findAll` -/

/-- What `status` may be. -/
inductive SaleStatus where
  | active
  | upcoming
  | past
deriving DecidableEq

section
variable (s : ListedSale) (now : Int)

def isActive : Bool := s.startsAt ≤ now * 1000 && now * 1000 < s.endsAt && 0 < s.remainingStock

def isUpcoming : Bool := now * 1000 < s.startsAt

def isPast : Bool :=
  s.endsAt ≤ now * 1000 || (s.startsAt ≤ now * 1000 && now * 1000 < s.endsAt && s.remainingStock = 0)

def statusCondition (status : Option SaleStatus) : Bool :=
  match status with
  | some .active => isActive s now
  | some .upcoming => isUpcoming s now
  | some .past => isPast s now
  | none => true

end

/-- `select ... from sales inner join products ... where ...`. -/
def Catalog.select (c : Catalog) (condition : ListedSale → Bool) : List ListedRow :=
  c.sales.flatMap fun s =>
    if condition s then (c.products.filter (·.id = s.productId)).map s.toListedRow else []

/-- `findAll`, where `new Date()` is `now`. -/
def Catalog.findAll (c : Catalog) (status : Option SaleStatus) (now : Int) : List Sale :=
  (c.select fun s => s.cancelledAt.isNone && statusCondition s now status).map fun row => mapRowToSale row now

/-! ## The three classifications -/

section
variable {c : Catalog} {s : ListedSale} {p : PgProduct} {now : Int}

/-- The row as the query's conditions see it: its times are microseconds. -/
def ListedSale.exactRow (s : ListedSale) : SaleRow := { s.toRow with startsAt := s.startsAt, endsAt := s.endsAt }

theorem derivePhase_exactRow :
    derivePhase s.exactRow (now * 1000) =
      if now * 1000 < s.startsAt then .upcoming
      else if s.endsAt ≤ now * 1000 then .ended
      else if s.remainingStock ≤ 0 then .sold_out
      else .active := rfl

theorem derivePhase_toRow (hms : s.WholeMs) : derivePhase s.toRow now = derivePhase s.exactRow (now * 1000) := by
  obtain ⟨hstarts, hends⟩ := hms
  rw [derivePhase_exactRow]
  have hstarts' : now < s.startsAt / 1000 ↔ now * 1000 < s.startsAt := by omega
  have hends' : s.endsAt / 1000 ≤ now ↔ s.endsAt ≤ now * 1000 := by omega
  unfold derivePhase
  exact if_congr hstarts' rfl (if_congr hends' rfl rfl)

/-- The gate looks at the window and the cancellation only. -/
theorem isSaleOpen_iff_window (hms : s.WholeMs) :
    isSaleOpen s.toRow now = true ↔ s.cancelledAt = none ∧ s.startsAt ≤ now * 1000 ∧ now * 1000 < s.endsAt := by
  obtain ⟨hstarts, hends⟩ := hms
  have hstarts' : s.startsAt / 1000 ≤ now ↔ s.startsAt ≤ now * 1000 := by omega
  have hends' : now < s.endsAt / 1000 ↔ now * 1000 < s.endsAt := by omega
  rw [isSaleOpen, Bool.and_eq_true, Bool.and_eq_true, decide_eq_true_eq, decide_eq_true_eq, and_assoc,
    Option.isNone_iff_eq_none, ← hstarts', ← hends']
  exact and_congr_left' Option.map_eq_none_iff

theorem isSaleOpen_iff_phase (hms : s.WholeMs) :
    isSaleOpen s.toRow now = true ↔
      s.cancelledAt = none ∧ (derivePhase s.toRow now = .active ∨ derivePhase s.toRow now = .sold_out) := by
  rw [isSaleOpen_iff_window hms, derivePhase_toRow hms, derivePhase_exactRow]
  refine and_congr_right fun _ => ?_
  split_ifs <;> simp <;> omega

/-- Which status a phase is listed under. -/
def SalePhase.status : SalePhase → SaleStatus
  | .upcoming => .upcoming
  | .active => .active
  | .ended | .sold_out => .past

/-- A sale meets the condition of one status. -/
theorem statusCondition_iff (hlt : s.startsAt < s.endsAt) (hstock : 0 ≤ s.remainingStock) (status : SaleStatus) :
    statusCondition s now (some status) = true ↔ (derivePhase s.exactRow (now * 1000)).status = status := by
  rw [derivePhase_exactRow]
  cases status with
  | active =>
    simp only [statusCondition, isActive, Bool.and_eq_true, decide_eq_true_eq]
    split_ifs <;> simp [SalePhase.status] <;> omega
  | upcoming =>
    simp only [statusCondition, isUpcoming, decide_eq_true_eq]
    split_ifs <;> simp [SalePhase.status] <;> omega
  | past =>
    simp only [statusCondition, isPast, Bool.or_eq_true, Bool.and_eq_true, decide_eq_true_eq]
    split_ifs <;> simp [SalePhase.status] <;> omega

/-- A sale meets the condition of the status its phase is listed under, and of no other. -/
theorem statusCondition_iff_phase (hms : s.WholeMs) (hlt : s.startsAt < s.endsAt) (hstock : 0 ≤ s.remainingStock)
    (status : SaleStatus) :
    statusCondition s now (some status) = true ↔ (derivePhase s.toRow now).status = status := by
  rw [derivePhase_toRow hms, statusCondition_iff hlt hstock]

/-! ## What is listed -/

theorem mem_findAll {status : Option SaleStatus} {sale : Sale} :
    sale ∈ c.findAll status now ↔ ∃ s ∈ c.sales, s.cancelledAt = none ∧ statusCondition s now status = true ∧
      ∃ p ∈ c.products, p.id = s.productId ∧ mapRowToSale (s.toListedRow p) now = sale := by
  unfold Catalog.findAll Catalog.select
  simp only [List.mem_map, List.mem_flatMap]
  constructor
  · rintro ⟨row, ⟨s, hs, hrow⟩, rfl⟩
    split at hrow
    · rename_i hcond
      rw [Bool.and_eq_true, Option.isNone_iff_eq_none] at hcond
      obtain ⟨p, hp, rfl⟩ := List.mem_map.1 hrow
      obtain ⟨hp, hid⟩ := List.mem_filter.1 hp
      exact ⟨s, hs, hcond.1, hcond.2, p, hp, of_decide_eq_true hid, rfl⟩
    · cases hrow
  · rintro ⟨s, hs, hcancel, hcond, p, hp, hid, rfl⟩
    refine ⟨s.toListedRow p, ⟨s, hs, ?_⟩, rfl⟩
    rw [if_pos (by simp [hcancel, hcond])]
    exact List.mem_map_of_mem (List.mem_filter.2 ⟨hp, decide_eq_true hid⟩)

/-- A row is listed when its own columns say so. -/
theorem Catalog.Schema.mem_findAll_row (hs : c.Schema) (hm : s ∈ c.sales) (hp : p ∈ c.products)
    (hid : p.id = s.productId) {status : Option SaleStatus} :
    mapRowToSale (s.toListedRow p) now ∈ c.findAll status now ↔
      s.cancelledAt = none ∧ statusCondition s now status = true := by
  rw [mem_findAll]
  constructor
  · rintro ⟨s', hm', hcancel, hcond, p', -, -, hsale⟩
    have hsame : s'.id = s.id := Uuid.ext' (congrArg Sale.id hsale)
    obtain rfl := List.inj_on_of_nodup_map hs.sales_pkey hm' hm hsame
    exact ⟨hcancel, hcond⟩
  · rintro ⟨hcancel, hcond⟩
    exact ⟨s, hm, hcancel, hcond, p, hp, hid, rfl⟩

/-- The join finds the one product of each sale. -/
theorem Catalog.Schema.select_ids (hs : c.Schema) (condition : ListedSale → Bool) :
    (c.select condition).map (·.id) = (c.sales.filter condition).map (·.id.text) := by
  have hone : ∀ s ∈ c.sales, ∃ p, c.products.filter (·.id = s.productId) = [p] := by
    intro s hm
    obtain ⟨p, hp, hid⟩ := hs.sales_product_id_fk s hm
    refine ⟨p, ?_⟩
    rw [← hid]
    exact filter_key_eq (·.id) hs.products_pkey hp
  unfold Catalog.select
  generalize c.sales = sales at hone ⊢
  induction sales with
  | nil => rfl
  | cons s sales ih =>
    obtain ⟨p, hp⟩ := hone s List.mem_cons_self
    rw [List.flatMap_cons, List.map_append, ih fun s' hm => hone s' (List.mem_cons_of_mem _ hm), List.filter_cons]
    split
    · rw [hp]
      rfl
    · rfl

theorem Catalog.Schema.findAll_nodup (hs : c.Schema) (status : Option SaleStatus) :
    ((c.findAll status now).map (·.id)).Nodup := by
  have hids : (c.findAll status now).map (·.id) =
      (c.sales.filter fun s => s.cancelledAt.isNone && statusCondition s now status).map (·.id.text) := by
    rw [← hs.select_ids, Catalog.findAll, List.map_map]
    rfl
  have htexts : (c.sales.map (·.id.text)).Nodup := by
    have h := hs.sales_pkey.map fun (a b : Uuid) => Uuid.ext'
    rwa [List.map_map] at h
  rw [hids]
  exact htexts.sublist (List.filter_sublist.map _)

end

/-- Of the three listings each sale that is not cancelled is in exactly one, the
one of its phase, and in the unfiltered one. A purchase is let through while
the phase is `active` or `sold_out`. -/
theorem findAll_partitions {c : Catalog} (hs : c.Schema) (hms : ∀ s ∈ c.sales, s.WholeMs) (now : Int) :
    (∀ status, ((c.findAll status now).map (·.id)).Nodup) ∧
      ∀ s ∈ c.sales, ∃ p ∈ c.products, p.id = s.productId ∧
        let sale := mapRowToSale (s.toListedRow p) now
        (s.cancelledAt ≠ none → ∀ status, ∀ listed ∈ c.findAll status now, listed.id ≠ s.id.text) ∧
          (s.cancelledAt = none →
            sale ∈ c.findAll none now ∧ (∃! status, sale ∈ c.findAll (some status) now) ∧
              (sale.phase = .active ↔ sale ∈ c.findAll (some .active) now) ∧
              (sale.phase = .upcoming ↔ sale ∈ c.findAll (some .upcoming) now) ∧
              (sale.phase = .ended ∨ sale.phase = .sold_out ↔ sale ∈ c.findAll (some .past) now)) ∧
          (isSaleOpen s.toRow now = true ↔
            s.cancelledAt = none ∧ (sale.phase = .active ∨ sale.phase = .sold_out)) := by
  refine ⟨hs.findAll_nodup, fun s hm => ?_⟩
  obtain ⟨p, hp, hid⟩ := hs.sales_product_id_fk s hm
  refine ⟨p, hp, hid, ?_, ?_, isSaleOpen_iff_phase (hms s hm)⟩
  · intro hcancel status listed hlisted hsame
    obtain ⟨s', hm', hnone, -, p', -, -, rfl⟩ := mem_findAll.1 hlisted
    obtain rfl := List.inj_on_of_nodup_map hs.sales_pkey hm' hm (Uuid.ext' hsame)
    exact hcancel hnone
  · intro hcancel
    have hlisted : ∀ status, mapRowToSale (s.toListedRow p) now ∈ c.findAll (some status) now ↔
        (derivePhase s.toRow now).status = status := by
      intro status
      rw [hs.mem_findAll_row hm hp hid, and_iff_right hcancel]
      exact statusCondition_iff_phase (hms s hm) (hs.sales_end_after_start s hm)
        (hs.sales_remaining_stock_check s hm) status
    refine ⟨(hs.mem_findAll_row hm hp hid).2 ⟨hcancel, rfl⟩, ?_, ?_, ?_, ?_⟩
    · refine ⟨_, (hlisted _).2 rfl, fun status hin => ((hlisted status).1 hin).symm⟩
    all_goals
      rw [hlisted]
      unfold mapRowToSale ListedSale.toListedRow
      cases derivePhase s.toRow now <;> simp [SalePhase.status]

/-- A sale that ends at 2000 ms, when another starts, and one that was cancelled. -/
def endingCatalog : Catalog where
  sales :=
    [{ id := .ofText "a", totalStock := 5, remainingStock := 2, startsAt := 1000000, endsAt := 2000000,
       cancelledAt := none, productId := .ofText "p", salePrice := "10.00" },
     { id := .ofText "b", totalStock := 5, remainingStock := 0, startsAt := 2000000, endsAt := 3000000,
       cancelledAt := none, productId := .ofText "p", salePrice := "10.00" },
     { id := .ofText "c", totalStock := 5, remainingStock := 5, startsAt := 1000000, endsAt := 3000000,
       cancelledAt := some 1500000, productId := .ofText "p", salePrice := "10.00" }]
  products := [⟨.ofText "p", "Lamp", none, none, "25.00"⟩]

theorem endingCatalog_schema : endingCatalog.Schema := by
  constructor <;> decide +kernel

theorem findAll_partitions_ending :
    ∃ s ∈ endingCatalog.sales, ∃ p ∈ endingCatalog.products, s.id.text = "b" ∧
      let sale := mapRowToSale (s.toListedRow p) 2000
      sale.phase = .sold_out ∧ (∃! status, sale ∈ endingCatalog.findAll (some status) 2000) ∧
        sale ∈ endingCatalog.findAll (some .past) 2000 ∧ isSaleOpen s.toRow 2000 = true := by
  have hms : ∀ s ∈ endingCatalog.sales, s.WholeMs := by
    have hall : ∀ s ∈ endingCatalog.sales,
        s.startsAt / 1000 * 1000 = s.startsAt ∧ s.endsAt / 1000 * 1000 = s.endsAt := by decide +kernel
    exact fun s hm => ⟨(hall s hm).1, (hall s hm).2⟩
  have hparts := (findAll_partitions endingCatalog_schema hms 2000).2
  have hlast : ∃ s ∈ endingCatalog.sales, s.id.text = "b" ∧ s.cancelledAt = none ∧
      derivePhase s.toRow 2000 = .sold_out := by decide +kernel
  obtain ⟨s, hm, hid, hcancel, hphase⟩ := hlast
  obtain ⟨p, hp, -, -, hlisted, hopen⟩ := hparts s hm
  obtain ⟨-, hone, -, -, hpast⟩ := hlisted hcancel
  exact ⟨s, hm, p, hp, hid, hphase, hone, hpast.1 (.inr hphase), hopen.2 ⟨hcancel, .inr hphase⟩⟩

end FlashSale
