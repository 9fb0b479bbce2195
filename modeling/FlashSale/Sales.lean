import FlashSale.Postgres
/-!
# Sale rows as the api reads them

`SalesService.findRowById` and `isSaleOpen` (apps/api/src/sales). A row is
cached for a second under the id as it was spelled; the cache is the api
process's own, and an entry may be gone at any later lookup. A sale always has
a product, so the join that reads a row drops none.
-/

namespace FlashSale

/-- A row as a JavaScript object: its times are milliseconds. -/
structure SaleRow where
  id : String
  totalStock : Int
  remainingStock : Int
  startsAt : Int
  endsAt : Int
  cancelledAt : Option Int
deriving DecidableEq

/-- What the driver makes of a row: `Date` drops the microseconds. -/
def PgSale.toRow (s : PgSale) : SaleRow where
  id := s.id.text
  totalStock := s.totalStock
  remainingStock := s.remainingStock
  startsAt := s.startsAt / 1000
  endsAt := s.endsAt / 1000
  cancelledAt := s.cancelledAt.map (· / 1000)

/-- The sale's timestamps are whole milliseconds. -/
structure PgSale.WholeMs (s : PgSale) : Prop where
  startsAt : s.startsAt / 1000 * 1000 = s.startsAt
  endsAt : s.endsAt / 1000 * 1000 = s.endsAt

/-- The gate a purchase attempt cares about. It ignores stock. -/
def isSaleOpen (row : SaleRow) (now : Int) : Bool :=
  row.cancelledAt.isNone && row.startsAt ≤ now && now < row.endsAt

/-! ## The cache -/

/-- By the id in `sale:<id>`. -/
abbrev Cache := String → Option SaleRow

/-- `findRowById`. A miss is never cached; `pgUp` is whether the query gets an
answer. -/
def findRowById (pgUp : Bool) (db : Db) (cache : Cache) (id : String) : Except JsError (Option SaleRow) × Cache :=
  match cache id with
  | some cached => (.ok (some cached), cache)
  | none =>
    if pgUp then
      match (db.sale (.ofText id)).map PgSale.toRow with
      | some row => (.ok (some row), Function.update cache id (some row))
      | none => (.ok none, cache)
    else (.error unreachable, cache)

/-- Cached rows agree with the table on what `isSaleOpen` reads. Stock may lag. -/
def Cache.Coherent (cache : Cache) (db : Db) : Prop :=
  ∀ id cached, cache id = some cached → ∃ s, db.sale (.ofText id) = some s ∧
    cached.startsAt = s.toRow.startsAt ∧ cached.endsAt = s.toRow.endsAt ∧
      cached.cancelledAt.isNone = s.toRow.cancelledAt.isNone

theorem isSaleOpen_congr {a b : SaleRow} (now : Int) (hs : a.startsAt = b.startsAt) (he : a.endsAt = b.endsAt)
    (hc : a.cancelledAt.isNone = b.cancelledAt.isNone) : isSaleOpen a now = isSaleOpen b now := by
  unfold isSaleOpen
  rw [hs, he, hc]

/-- With a coherent cache a lookup finds the sale Postgres has, if any, up to
its stock. -/
theorem findRowById_coherent {db : Db} {cache : Cache} (hc : cache.Coherent db) (id : String) :
    (∃ row s, (findRowById true db cache id).1 = .ok (some row) ∧ db.sale (.ofText id) = some s ∧
        ∀ now, isSaleOpen row now = isSaleOpen s.toRow now) ∨
      ((findRowById true db cache id).1 = .ok none ∧ db.sale (.ofText id) = none) := by
  unfold findRowById
  cases hcache : cache id with
  | some cached =>
    obtain ⟨s, hs, h1, h2, h3⟩ := hc id cached hcache
    exact .inl ⟨cached, s, rfl, hs, fun now => isSaleOpen_congr now h1 h2 h3⟩
  | none =>
    cases hs : db.sale (.ofText id) with
    | none => exact .inr ⟨by simp, rfl⟩
    | some s => exact .inl ⟨s.toRow, s, by simp, rfl, fun _ => rfl⟩

theorem findRowById_cache {db : Db} {cache : Cache} (hc : cache.Coherent db) (pgUp : Bool) (id : String) :
    (findRowById pgUp db cache id).2.Coherent db := by
  unfold findRowById
  cases hcache : cache id with
  | some cached => exact hc
  | none =>
    cases pgUp with
    | false => exact hc
    | true =>
      cases hs : db.sale (.ofText id) with
      | none => simpa using hc
      | some s =>
        intro id' cached h
        by_cases he : id' = id
        · subst he
          obtain rfl : s.toRow = cached := by simpa using h
          exact ⟨s, hs, rfl, rfl, rfl⟩
        · exact hc id' cached (by simpa [he] using h)

/-- An entry that expires leaves the cache coherent. -/
theorem Cache.Coherent.expire {db : Db} {cache : Cache} (hc : cache.Coherent db) (id : String) :
    Cache.Coherent (Function.update cache id none) db := by
  intro id' cached h
  by_cases he : id' = id
  · simp [he] at h
  · exact hc id' cached (by simpa [he] using h)

end FlashSale
