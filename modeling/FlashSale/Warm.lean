import Mathlib.Data.Finset.Preimage
import Mathlib.Data.Fintype.EquivFin
import FlashSale.Agreement
/-!
# The warm script

`redis:warm` (packages/redis/src/scripts/warm.ts) reads the sales that are
neither cancelled nor over, and loads each into Redis. It visits no other
sale, so what it leaves behind in Redis for the rest is whatever was there.
-/

namespace FlashSale
open Lib.Runs

/-! ## The script, run alone -/

/-- `where cancelled_at is null and ends_at > now`. -/
def warmSelects (now : Int) (s : PgSale) : Bool := s.cancelledAt.isNone && now * 1000 < s.endsAt

def Db.warmRows (db : Db) (now : Int) : List SaleRow := (db.sales.filter (warmSelects now)).map PgSale.toRow

/-- One turn of the script's loop. -/
def warmSale (db : Db) (redis : Redis) (row : SaleRow) : Redis :=
  syncSale redis row.toSync (db.buyerEmails (.ofText row.id))

/-- The script started at `now`, with nothing else running. -/
def warm (now : Int) (db : Db) (redis : Redis) : Redis := (db.warmRows now).foldl (warmSale db) redis

@[simp] theorem warmSale_toRow (db : Db) (redis : Redis) (s : PgSale) :
    warmSale db redis s.toRow = Function.update redis s.id.text (warmedKeys db s) := by
  simp [warmSale, syncSale, warmedKeys, PgSale.toRow, SaleRow.toSync]

/-- Loading a list of sales touches the keys of those sales only, and leaves
each of them its own. -/
theorem foldl_warmSale (db : Db) (redis : Redis) (rows : List PgSale) (id : String) :
    (∀ s ∈ rows, s.id.text ≠ id) ∧ (rows.map PgSale.toRow).foldl (warmSale db) redis id = redis id ∨
      ∃ s ∈ rows, s.id.text = id ∧ (rows.map PgSale.toRow).foldl (warmSale db) redis id = warmedKeys db s := by
  induction rows using List.reverseRecOn with
  | nil => exact .inl ⟨by simp, rfl⟩
  | append_singleton rows s ih =>
    rw [List.map_append, List.foldl_append, List.map_singleton, List.foldl_cons, List.foldl_nil, warmSale_toRow]
    by_cases hid : s.id.text = id
    · exact .inr ⟨s, by simp, hid, by simp [hid]⟩
    · rw [Function.update_of_ne (Ne.symm hid)]
      rcases ih with ⟨hne, he⟩ | ⟨t, ht, htid, he⟩
      · refine .inl ⟨fun t ht => ?_, he⟩
        rcases List.mem_append.1 ht with ht | ht
        · exact hne t ht
        · exact List.mem_singleton.1 ht ▸ hid
      · exact .inr ⟨t, List.mem_append_left _ ht, htid, he⟩

/-- The script has no row of this id to visit. -/
def Unvisited (db : Db) (now : Int) (id : String) : Prop := ∀ s ∈ db.sales, warmSelects now s → s.id.text ≠ id

theorem warm_unvisited {db : Db} {now : Int} {id : String} (h : Unvisited db now id) (redis : Redis) :
    warm now db redis id = redis id := by
  rcases foldl_warmSale db redis (db.sales.filter (warmSelects now)) id with ⟨-, he⟩ | ⟨s, hs, hid, -⟩
  · exact he
  · obtain ⟨hm, hsel⟩ := List.mem_filter.1 hs
    exact absurd hid (h s hm hsel)

theorem warm_visited {db : Db} {now : Int} {id : String} (h : ¬ Unvisited db now id) (redis : Redis) :
    ∃ s ∈ db.sales, warmSelects now s ∧ s.id.text = id ∧ warm now db redis id = warmedKeys db s := by
  rcases foldl_warmSale db redis (db.sales.filter (warmSelects now)) id with ⟨hne, -⟩ | ⟨s, hs, hid, he⟩
  · exact absurd (fun s hm hsel => hne s (List.mem_filter.2 ⟨hm, hsel⟩)) h
  · obtain ⟨hm, hsel⟩ := List.mem_filter.1 hs
    exact ⟨s, hm, hsel, hid, he⟩

/-! ## What earlier runs left -/

/-- A Redis that earlier warms, of whatever the database then held, and
reservations and flushes since have left. -/
inductive Redis.Left : Redis → Prop
  | cold : Left fun _ => .none
  | warm {redis} (now : Int) (db : Db) : Left redis → Left (warm now db redis)
  | reserve {redis} (saleId email : String) (now : Int) : Left redis → Left (reservePurchase redis saleId email now).2
  | flush {redis} (keys : List (String × KeyKind)) : Left redis → Left (delKeys redis keys)

theorem Redis.Printed.warm {redis : Redis} (h : redis.Printed) (now : Int) (db : Db) :
    Redis.Printed (FlashSale.warm now db redis) := by
  intro id hid
  by_cases hv : Unvisited db now id
  · rw [warm_unvisited hv] at hid
    exact h id hid
  · obtain ⟨s, -, -, rfl, -⟩ := warm_visited hv redis
    exact s.id.printed

theorem Redis.Left.printed {redis : Redis} (h : redis.Left) : redis.Printed := by
  induction h with
  | cold => exact fun _ hne => absurd rfl hne
  | warm now db _ ih => exact ih.warm now db
  | reserve saleId email now _ ih => exact ih.reserve saleId email now
  | flush keys _ ih => exact ih.del keys

/-! ## What the gate admits after a warm -/

/-- The keys reserve at `now` for a buyer they do not hold: they are those of a
sale that is then open, with stock. -/
def SaleKeys.Sells (k : SaleKeys) (now : Int) : Prop := k.Open now ∧ ∃ stock, k.Stocks stock ∧ 0 < stock

/-- The keys can still reserve at some instant from `t` on. -/
def SaleKeys.LiveFrom (k : SaleKeys) (t : Int) : Prop := ∃ now, t ≤ now ∧ k.Sells now

theorem SaleKeys.sells_of_reserved {email : String} {now : Int} {k : SaleKeys}
    (h : (reserveScript email now k).1 = .reserved) : k.Sells now := by
  obtain ⟨stock, ho, -, hs, hpos, -⟩ := reserveScript_reserved h
  exact ⟨ho, stock, hs, hpos⟩

/-- There is always a buyer the sale has not recorded. -/
theorem exists_new_buyer (buyers : Finset String) : ∃ email, normalizeEmail email ∉ buyers := by
  let buyer (n : Nat) : String := String.ofList (List.replicate (n + 1) 'a' ++ "@example.com".toList)
  have hnorm : ∀ n, normalizeEmail (buyer n) = buyer n := by
    intro n
    simp only [buyer, normalizeEmail, toLowerCase, String.toList_ofList, List.map_append, List.map_replicate]
    rfl
  have hinj : Function.Injective buyer := by
    intro m n h
    have := congrArg (fun s => s.toList.length) h
    simpa [buyer] using this
  obtain ⟨n, hn⟩ := Infinite.exists_notMem_finset (buyers.preimage buyer hinj.injOn)
  exact ⟨buyer n, by rw [hnorm]; simpa using hn⟩

theorem SaleKeys.Sells.reserves {email : String} {now : Int} {k : SaleKeys} (h : k.Sells now)
    (hb : email ∉ k.saleBuyers) : (reserveScript email now k).1 = .reserved := by
  obtain ⟨⟨-, m, startsAt, endsAt, hm, hc, h1, h2, h3, h4⟩, stock, hs, hpos⟩ := h
  obtain ⟨saleStock, hstock, hn⟩ := Option.bind_eq_some_iff.1 hs
  have hwin : ¬ (now < startsAt ∨ endsAt ≤ now) := by omega
  have hle : ¬ stock ≤ 0 := by omega
  simp only [reserveScript, hstock, hm, hc, h1, h2, hwin, hb, hn, hle, if_false]

/-- After a warm, an id the script visited has keys in sync with its row. -/
theorem warm_inSync {db : Db} (hs : db.Schema) {t : Int} {id : String} (h : ¬ Unvisited db t id) (redis : Redis) :
    InSync (warm t db redis id) db (.ofText id) := by
  obtain ⟨s, hm, -, rfl, he⟩ := warm_visited h redis
  exact ⟨s, by rw [Uuid.ofText_text]; exact hs.sale_of_mem hm, he⟩

/-- The answer comes from the row that is read: the cached one if there is
one, the table's otherwise. -/
theorem recordPurchase_read (a : Attempt) (saleId : String) (w : World) :
    (recordPurchase a.env saleId a.email w).1 =
      match (w.cache saleId).or ((w.db.sale (.ofText saleId)).map PgSale.toRow) with
      | none => .error SALE_NOT_FOUND
      | some row =>
        if isSaleOpen row a.now then (writePurchase .runs (a.now * 1000) saleId a.email w.db).1
        else .ok SALE_NOT_ACTIVE_RESULT := by
  have hread : (recordPurchase a.env saleId a.email w).1 = match (findRowById true w.db w.cache saleId).1 with
      | .error e => .error e
      | .ok none => .error SALE_NOT_FOUND
      | .ok (some row) =>
        if isSaleOpen row a.now then (writePurchase .runs (a.now * 1000) saleId a.email w.db).1
        else .ok SALE_NOT_ACTIVE_RESULT := by
    unfold recordPurchase
    rw [show a.env.pgUp = true from rfl]
    rcases findRowById true w.db w.cache saleId with ⟨_ | _ | row, cache⟩
    · rfl
    · rfl
    · simp only [show a.env.lookupNow = a.now from rfl]
      split <;> rfl
  rw [hread, findRowById]
  cases w.cache saleId with
  | some cached => rfl
  | none => cases w.db.sale (.ofText saleId) <;> rfl

/-- An attempt that finds no cached row, on any database, is one with nothing
cached at all. -/
theorem postgres_expired (a : Attempt) (saleId : String) (w : World) (h : a.expired = true ∨ w.cache saleId = none) :
    (a.postgres saleId w).1 = (recordPurchase a.env saleId a.email { w with cache := fun _ => none }).1 := by
  rw [Attempt.postgres, recordPurchase_read, recordPurchase_read]
  by_cases hexpired : a.expired = true
  · simp only [hexpired, if_true, Function.update_self]
  · rw [if_neg hexpired, h.resolve_left hexpired]

/-- With no cached row, `recordPurchase` succeeds only for a sale that a warm up
to then visits. -/
theorem postgres_visited {saleId : String} {w : World} (hms : ∀ s ∈ w.db.sales, s.WholeMs)
    (hid : toLowerCase saleId = saleId) {a : Attempt} {t : Int} (ht : t ≤ a.now) (hexpired : a.expired = true)
    (h : (a.postgres saleId w).1 = .ok SUCCESS_RESULT) : ¬ Unvisited w.db t saleId := by
  rw [postgres_expired a saleId w (.inl hexpired), recordPurchase_read] at h
  cases hsale : w.db.sale (.ofText saleId) with
  | none =>
    -- No row, so nothing is sold.
    simp [hsale] at h
  | some s =>
    obtain ⟨hm, hsid⟩ := Db.sale_mem hsale
    simp only [hsale, Option.map_some, Option.none_or] at h
    -- A sale that sells is open now, so the script at `t ≤ now` selected it.
    have ho : isSaleOpen s.toRow a.now = true := by
      by_contra hno
      rw [if_neg hno] at h
      exact absurd h (by decide)
    intro hv
    refine hv s hm ?_ (by rw [hsid]; exact hid)
    have := (isSaleOpen_toRow s a.now).1 ho
    have := (hms s hm).endsAt
    simp only [warmSelects, Bool.and_eq_true, decide_eq_true_eq]
    refine ⟨?_, by omega⟩
    cases hcan : s.cancelledAt <;> simp_all

/-- Where the keys of a sale are in sync with its row, an attempt they reserve
for succeeds in Postgres exactly when the row it reads there is open. -/
theorem postgres_reserved {saleId : String} {w : World} {keys : SaleKeys} (hs : w.db.Schema)
    (hms : ∀ s ∈ w.db.sales, s.WholeMs) (hsync : InSync keys w.db (.ofText saleId)) {a : Attempt}
    (hcode : (a.gate keys).1 = .reserved) :
    (a.postgres saleId w).1 = .ok SUCCESS_RESULT ↔
      ∀ cached, w.cache saleId = some cached → a.expired = false → isSaleOpen cached a.now = true := by
  -- With nothing cached, the two agree; and then the row that was read is open.
  have halike : Alike saleId keys { w with cache := fun _ => none } :=
    ⟨hs, fun s hsale => hms s (Db.sale_mem hsale).1, fun _ _ h => (nomatch h), hsync⟩
  have hcold := (attempt_agrees halike { a with expired := false }).1
  rw [show (Attempt.gate keys { a with expired := false }).1 = .reserved from hcode] at hcold
  have hcold : (recordPurchase a.env saleId a.email { w with cache := fun _ => none }).1 = .ok SUCCESS_RESULT :=
    (Option.some.inj hcold).symm
  by_cases hexpired : a.expired = true ∨ w.cache saleId = none
  · rw [postgres_expired a saleId w hexpired]
    refine iff_of_true hcold fun cached hcached hno => ?_
    rcases hexpired with he | he
    · rw [he] at hno
      cases hno
    · rw [he] at hcached
      cases hcached
  · obtain ⟨hexpired, hcached⟩ := not_or.1 hexpired
    obtain ⟨cached, hcached⟩ := Option.ne_none_iff_exists'.1 hcached
    rw [Bool.not_eq_true] at hexpired
    obtain ⟨s, hsale, -⟩ := hsync
    have hwrite : (writePurchase .runs (a.now * 1000) saleId a.email w.db).1 = .ok SUCCESS_RESULT := by
      rw [recordPurchase_read] at hcold
      simp only [hsale, Option.map_some, Option.none_or] at hcold
      split at hcold
      · exact hcold
      · exact absurd hcold (by decide)
    rw [Attempt.postgres, recordPurchase_read, if_neg (by simp [hexpired]), hcached]
    simp only [Option.some_or, hwrite, Option.some.injEq, forall_eq', hexpired, forall_const]
    cases isSaleOpen cached a.now <;> decide

/-- After a warm at `t`, whoever the gate admits, Postgres would have admitted
at the same instant, exactly when no sale that the script does not visit has
keys left that can still reserve, and no process still has a row cached that is
not open when the keys reserve. A cached row is found up to `expiresAt`, and not
by every process. -/
theorem warm_admits_iff {w : World} (hleft : w.redis.Left) (hs : w.db.Schema) (hms : ∀ s ∈ w.db.sales, s.WholeMs)
    (expiresAt : String → Int) (t : Int) :
    (∀ saleId (a : Attempt), t ≤ a.now → (expiresAt saleId ≤ a.now → a.expired = true) →
        (reservePurchase (warm t w.db w.redis) saleId a.email a.now).1 = .reserved →
        (a.postgres saleId { w with redis := warm t w.db w.redis }).1 = .ok SUCCESS_RESULT) ↔
      (∀ saleId, Unvisited w.db t saleId → ¬ (w.redis saleId).LiveFrom t) ∧
      ∀ saleId cached, w.cache saleId = some cached → ∀ now, t ≤ now → now < expiresAt saleId →
        (warm t w.db w.redis saleId).Sells now → isSaleOpen cached now = true := by
  constructor
  · intro h
    have hvisited : ∀ saleId, Unvisited w.db t saleId → ¬ (w.redis saleId).LiveFrom t := by
      rintro saleId hv ⟨now, ht, hsells⟩
      obtain ⟨email, hb⟩ := exists_new_buyer (w.redis saleId).saleBuyers
      have hid : toLowerCase saleId = saleId := by
        refine hleft.printed saleId fun hnone => ?_
        rw [hnone] at hsells
        exact absurd hsells.1.warmed (by simp [SaleKeys.none])
      have hsucc := h saleId ⟨email, now, true⟩ ht (fun _ => rfl)
        (by rw [reservePurchase_code, warm_unvisited hv]; exact hsells.reserves hb)
      exact postgres_visited (w := { w with redis := warm t w.db w.redis }) hms hid ht rfl hsucc hv
    refine ⟨hvisited, fun saleId cached hcached now ht hfound hsells => ?_⟩
    have hv : ¬ Unvisited w.db t saleId := fun hv =>
      hvisited saleId hv ⟨now, ht, by rw [warm_unvisited hv] at hsells; exact hsells⟩
    obtain ⟨email, hb⟩ := exists_new_buyer (warm t w.db w.redis saleId).saleBuyers
    have hcode := hsells.reserves hb
    have hsucc := h saleId ⟨email, now, false⟩ ht (fun he => absurd hfound (Int.not_lt.2 he))
      (by rw [reservePurchase_code]; exact hcode)
    exact (postgres_reserved (w := { w with redis := warm t w.db w.redis }) (a := ⟨email, now, false⟩) hs hms
      (warm_inSync hs hv _) hcode).1 hsucc cached hcached rfl
  · rintro ⟨hvisited, hcached⟩ saleId a ht hfound hcode
    rw [reservePurchase_code] at hcode
    have hsells := SaleKeys.sells_of_reserved hcode
    have hv : ¬ Unvisited w.db t saleId := fun hv =>
      hvisited saleId hv ⟨a.now, ht, by rw [warm_unvisited hv] at hsells; exact hsells⟩
    refine (postgres_reserved (w := { w with redis := warm t w.db w.redis }) hs hms (warm_inSync hs hv _) hcode).2
      fun cached hc hexpired => hcached saleId cached hc a.now ht ?_ hsells
    refine Int.not_le.1 fun he => ?_
    rw [hfound he] at hexpired
    cases hexpired

/-- The demo sale, warmed, and since then edited to `cancelledAt`. -/
def warmedWorld (cancelledAt : Option Int) : World where
  redis := warm 0 (demoDb 1) fun _ => .none
  queue := []
  db := ⟨[⟨demoId, 1, 1, 0, 1000000, cancelledAt⟩], []⟩
  cache := fun _ => none

/-- A row cached while the sale had another window, but one that is open too. -/
def cachedRow : SaleRow := { (PgSale.toRow ⟨demoId, 1, 1, 0, 1000000, none⟩) with startsAt := -7 }

theorem warm_admits_demo :
    let w := { warmedWorld none with cache := fun _ => some cachedRow }
    (reservePurchase (warm 5 w.db w.redis) demoId.text "ann@example.com" 6).1 = .reserved ∧
      (Attempt.postgres demoId.text { w with redis := warm 5 w.db w.redis } ⟨"ann@example.com", 6, false⟩).1 =
        .ok SUCCESS_RESULT := by
  have hreserved : (reservePurchase (warm 5 (warmedWorld none).db (warmedWorld none).redis) demoId.text
      "ann@example.com" 6).1 = .reserved := by decide
  refine ⟨hreserved, (warm_admits_iff (w := { warmedWorld none with cache := fun _ => some cachedRow })
    (.warm 0 _ .cold) (demoDb_schema 1) ?_ (fun _ => 1000) 5).2 ⟨?_, ?_⟩ demoId.text ⟨"ann@example.com", 6, false⟩
    (by decide) (by decide) hreserved⟩
  · simp only [warmedWorld, List.mem_singleton]
    rintro s rfl
    exact ⟨rfl, rfl⟩
  · rintro id hv ⟨now, -, ho, -⟩
    have hne := hv _ (List.mem_singleton_self _) (by decide)
    have hcold : (warmedWorld none).redis id = .none := by
      refine warm_unvisited (fun s hs _ => ?_) _
      exact List.mem_singleton.1 hs ▸ hne
    have hwarmed := ho.warmed
    rw [show World.redis { warmedWorld none with cache := fun _ => some cachedRow } id = .none from hcold] at hwarmed
    exact absurd hwarmed (by simp [SaleKeys.none])
  · intro id cached hcached now ht hexpires _
    obtain rfl := Option.some.inj hcached
    simp [isSaleOpen, cachedRow, PgSale.toRow]
    omega

/-- A warm does not visit a cancelled sale, so the keys an earlier warm left go
on admitting buyers whom Postgres refuses. -/
theorem warm_admits_cancelled :
    let w := warmedWorld (some 5000)
    w.redis.Left ∧ (reservePurchase (warm 5 w.db w.redis) demoId.text "ann@example.com" 6).1 = .reserved ∧
      (recordPurchase (Attempt.env ⟨"ann@example.com", 6, false⟩) demoId.text "ann@example.com"
        { w with redis := warm 5 w.db w.redis }).1 = .ok SALE_NOT_ACTIVE_RESULT :=
  ⟨.warm 0 _ .cold, by decide, by decide⟩

end FlashSale
