import FlashSale.Purchases
/-!
# One sale, two spellings

`UuidParamSchema` accepts an id in upper or lower case and passes it on as it
was spelled. Postgres compares ids as uuids. Redis keys, and the row cache,
compare them as text, and only the spelling Postgres prints is ever loaded.
-/

namespace FlashSale

/-! ## The same outcome -/

/-- A message under the spelling Postgres prints. -/
def PurchaseWriteEntry.printed (m : PurchaseWriteEntry) : PurchaseWriteEntry :=
  { m with saleId := toLowerCase m.saleId }

/-- The same answer, and the same stores up to the spelling of the id. Keys
stand under printed ids only, so for Redis that is equality. -/
structure SameOutcome (r r' : Except JsError PurchaseResult × World) : Prop where
  result : r.1 = r'.1
  redis : r.2.redis = r'.2.redis
  queue : r.2.queue.map PurchaseWriteEntry.printed = r'.2.queue.map PurchaseWriteEntry.printed
  db : r.2.db = r'.2.db

theorem SameOutcome.symm {r r' : Except JsError PurchaseResult × World} (h : SameOutcome r r') : SameOutcome r' r :=
  ⟨h.result.symm, h.redis.symm, h.queue.symm, h.db.symm⟩

/-- The script does not answer `not_warmed` on these keys. -/
def SaleKeys.Warmed (k : SaleKeys) : Prop := k.saleStock.isSome ∧ k.saleMeta.isSome

/-- Under both spellings the cache has no row, or rows that open and close
alike. -/
def CachedAlike (cache : Cache) (a b : String) : Prop :=
  (cache a = none ∧ cache b = none) ∨
    ∃ r r', cache a = some r ∧ cache b = some r' ∧ ∀ now, isSaleOpen r now = isSaleOpen r' now

/-- The cache has a row for the id, of a sale that is never open. -/
def CachedShut (cache : Cache) (id : String) : Prop := ∃ r, cache id = some r ∧ ∀ now, isSaleOpen r now = false

/-! ## The Postgres-only flow -/

theorem writePurchase_spelling {a b : String} (h : Uuid.ofText a = .ofText b) (fate : TxFate) (dbNow : Int)
    (email : String) : writePurchase fate dbNow a email = writePurchase fate dbNow b email := by
  have htx : writePurchaseTx dbNow a email = writePurchaseTx dbNow b email := by
    funext db
    simp only [writePurchaseTx, purchaseRow, h]
  funext db
  simp only [writePurchase, htx]

theorem recordPurchase_shut {w : World} {id : String} (h : CachedShut w.cache id) (env : Env) (email : String) :
    recordPurchase env id email w = (.ok SALE_NOT_ACTIVE_RESULT, w) := by
  obtain ⟨r, hr, hshut⟩ := h
  simp [recordPurchase, findRowById, hr, hshut]

/-- Postgres alone does not tell spellings apart, except through the cache. -/
theorem recordPurchase_spelling {w : World} {a b : String} (h : Uuid.ofText a = .ofText b)
    (hc : CachedAlike w.cache a b) (env : Env) (email : String) :
    (recordPurchase env a email w).1 = (recordPurchase env b email w).1 ∧
      (recordPurchase env a email w).2.db = (recordPurchase env b email w).2.db := by
  have hw := writePurchase_spelling h env.fate env.dbNow email
  rcases hc with ⟨ha, hb⟩ | ⟨r, r', ha, hb, hopen⟩
  · cases hup : env.pgUp with
    | false => simp [recordPurchase, findRowById, ha, hb, hup]
    | true =>
      cases hs : w.db.sale (.ofText b) with
      | none => simp [recordPurchase, findRowById, ha, hb, hup, h, hs]
      | some s =>
        simp only [recordPurchase, findRowById, ha, hb, hup, h, hs, World.writePurchase, hw, Option.map_some, if_true]
        split <;> exact ⟨rfl, rfl⟩
  · simp [recordPurchase, findRowById, ha, hb, World.writePurchase, hw, hopen]

/-- A write that runs its course does not answer that Postgres is unreachable. -/
theorem writePurchase_reached {db : Db} (hs : db.Schema) (dbNow : Int) (saleId email : String) :
    (writePurchase .runs dbNow saleId email db).1 ≠ .error unreachable := by
  rw [writePurchase_runs hs]
  cases db.sale (.ofText saleId) with
  | none => simp [foreignKeyViolation, unreachable, connectionRefused]
  | some s =>
    simp only []
    split_ifs <;> simp

/-- With the row query down, and no row cached, the flow fails. -/
theorem recordPurchase_down {w : World} {env : Env} {id : String} (h : w.cache id = none) (hup : env.pgUp = false)
    (email : String) : (recordPurchase env id email w).1 = .error unreachable := by
  simp [recordPurchase, findRowById, h, hup]

/-! ## The whole call -/

theorem purchase_fallback {env : Env} {id email : String} {w : World}
    (h : (reserve env.link w.redis id email env.now).1 = none ∨
      (reserve env.link w.redis id email env.now).1 = some .not_warmed)
    (hk : (reserve env.link w.redis id email env.now).2 = w.redis) :
    purchase env id email w = recordPurchase env id email w := by
  unfold purchase
  rcases hr : reserve env.link w.redis id email env.now with ⟨code, redis⟩
  rw [hr] at h hk
  obtain rfl : redis = w.redis := hk
  rcases h with h | h <;> obtain rfl : code = _ := h <;> rfl

theorem purchase_notReady {env : Env} (h : env.link = .notReady) (id email : String) (w : World) :
    purchase env id email w = recordPurchase env id email w :=
  purchase_fallback (by simp [h, reserve]) (by simp [h, reserve])

/-- On keys that are not warmed the call is the Postgres-only flow. -/
theorem purchase_unwarmed {w : World} {id : String} (h : ¬ (w.redis id).Warmed) (env : Env) (email : String) :
    purchase env id email w = recordPurchase env id email w := by
  have hcode : (reservePurchase w.redis id email env.now).1 = .not_warmed := by
    rw [reservePurchase_code, reserveScript_not_warmed]
    simpa [SaleKeys.Warmed, or_iff_not_imp_left, Option.isSome_iff_ne_none] using h
  have hkept := reservePurchase_kept (by rw [hcode]; simp : (reservePurchase w.redis id email env.now).1 ≠ .reserved)
  cases hl : env.link <;> refine purchase_fallback ?_ ?_ <;> simp [hl, reserve, hcode, hkept]

/-- On keys that never open, and with a cached row that never opens, the buyer
is told that the sale is not active. -/
theorem purchase_shut {w : World} {id : String} (hk : ∀ now, ¬ (w.redis id).Open now) (hc : CachedShut w.cache id)
    (env : Env) (email : String) : purchase env id email w = (.ok SALE_NOT_ACTIVE_RESULT, w) := by
  have hshut : (reservePurchase w.redis id email env.now).1 = .not_warmed ∨
      (reservePurchase w.redis id email env.now).1 = .sale_not_active := by
    have hopen := reserveScript_open (normalizeEmail email) env.now (w.redis id)
    rw [reservePurchase_code]
    by_contra hno
    rw [not_or] at hno
    exact hk env.now (hopen.2 hno)
  have hkept : (reservePurchase w.redis id email env.now).2 = w.redis :=
    reservePurchase_kept (by rcases hshut with h | h <;> simp [h])
  have hredis : (reserve env.link w.redis id email env.now).2 = w.redis := by
    rw [reserve_redis, hkept, ite_self]
  have hcode := reserve_code env.link w.redis id email env.now
  rw [if_neg (by rcases hshut with h | h <;> simp [h] : ¬ (env.link = .resent ∧ _))] at hcode
  by_cases hans : env.link.heard ∧ (reservePurchase w.redis id email env.now).1 = .sale_not_active
  · simp only [hans.1, hans.2, not_true_eq_false, if_false] at hcode
    unfold purchase
    rcases hr : reserve env.link w.redis id email env.now with ⟨code, redis⟩
    rw [hr] at hcode hredis
    obtain rfl : code = some .sale_not_active := hcode
    obtain rfl : redis = w.redis := hredis
    rfl
  · rw [purchase_fallback _ hredis, recordPurchase_shut hc]
    rw [hcode]
    split
    · exact .inl rfl
    · exact .inr (congrArg some (hshut.resolve_right fun h => hans ⟨by simp_all, h⟩))

/-- With warmed keys, a script that answers and a broker that takes messages,
the call does not throw. -/
theorem purchase_answered {w : World} {id : String} (h : (w.redis id).Warmed) {env : Env} (hl : env.link = .answered)
    (hq : env.queued = true) (email : String) :
    ∃ r, (purchase env id email w).1 = .ok r ∧
      (r = SALE_NOT_ACTIVE_RESULT → ¬ (w.redis id).Open env.now) := by
  have hcode : (reservePurchase w.redis id email env.now).1 ≠ .not_warmed := by
    rw [reservePurchase_code, Ne, reserveScript_not_warmed]
    rintro (h' | h') <;> simp [SaleKeys.Warmed, h'] at h
  have hopen := reserveScript_open (normalizeEmail email) env.now (w.redis id)
  rw [← reservePurchase_code] at hopen
  unfold purchase
  simp only [hl, reserve, hq, if_true]
  cases hc : (reservePurchase w.redis id email env.now).1 with
  | not_warmed => exact absurd hc hcode
  | sale_not_active => exact ⟨_, rfl, fun _ ho => (hopen.1 ho).2 hc⟩
  | _ => exact ⟨_, rfl, fun he => absurd he (by decide)⟩

/-! ## When two spellings agree -/

section
variable {w : World} {a b : String}

/-- Calls that agree whatever their email and environment see rows alike. -/
theorem cachedAlike_of_same (hs : w.db.Schema)
    (h : ∀ env email, SameOutcome (purchase env a email w) (purchase env b email w)) : CachedAlike w.cache a b := by
  -- Keep Redis out of it: with no connection both calls are the Postgres-only flow.
  have hrec (env : Env) (hl : env.link = .notReady) (email : String) :
      (recordPurchase env a email w).1 = (recordPurchase env b email w).1 := by
    have := (h env email).result
    rwa [purchase_notReady hl, purchase_notReady hl] at this
  have hfound (id : String) (r : SaleRow) (hr : w.cache id = some r) (email : String) :
      (recordPurchase ⟨0, .notReady, false, false, 0, 0, .runs⟩ id email w).1 ≠ .error unreachable := by
    simp only [recordPurchase, findRowById, hr]
    split
    · exact writePurchase_reached hs 0 id email
    · simp
  cases ha : w.cache a with
  | none =>
    cases hb : w.cache b with
    | none => exact .inl ⟨ha, hb⟩
    | some r =>
      refine absurd ?_ (hfound b r hb "")
      rw [← hrec _ rfl, recordPurchase_down ha rfl]
  | some r =>
    cases hb : w.cache b with
    | none =>
      refine absurd ?_ (hfound a r ha "")
      rw [hrec _ rfl, recordPurchase_down hb rfl]
    | some r' =>
      refine .inr ⟨r, r', ha, hb, fun now => ?_⟩
      have := hrec ⟨0, .notReady, false, false, now, 0, .unreachable⟩ rfl ""
      simp only [recordPurchase, findRowById, ha, hb, World.writePurchase, writePurchase, transaction] at this
      cases hr : isSaleOpen r now <;> cases hr' : isSaleOpen r' now <;> simp_all

/-- If one spelling's keys are warmed and the other's are not, calls agree only
on a sale that both know never to be open. -/
theorem shut_of_same (hs : w.db.Schema) (ha : (w.redis a).Warmed) (hb : ¬ (w.redis b).Warmed)
    (h : ∀ env email, SameOutcome (purchase env a email w) (purchase env b email w)) :
    CachedShut w.cache a ∧ CachedShut w.cache b ∧ ∀ now, ¬ (w.redis a).Open now := by
  have hres (env : Env) (hl : env.link = .answered) (hq : env.queued = true) :
      ∃ r, (recordPurchase env b "" w).1 = .ok r ∧ (r = SALE_NOT_ACTIVE_RESULT → ¬ (w.redis a).Open env.now) := by
    obtain ⟨r, hr, hopen⟩ := purchase_answered ha hl hq ""
    have := (h env "").result
    rw [purchase_unwarmed hb, hr] at this
    exact ⟨r, this.symm, hopen⟩
  rcases cachedAlike_of_same hs h with ⟨-, hcb⟩ | ⟨r, r', hra, hrb, halike⟩
  · obtain ⟨r, hr, -⟩ := hres ⟨0, .answered, true, false, 0, 0, .runs⟩ rfl rfl
    rw [recordPurchase_down hcb rfl] at hr
    cases hr
  · have hshut : ∀ now, isSaleOpen r' now = false := by
      intro now
      obtain ⟨_, hr, -⟩ := hres ⟨0, .answered, true, false, now, 0, .unreachable⟩ rfl rfl
      by_contra hopen
      rw [Bool.not_eq_false] at hopen
      simp [recordPurchase, findRowById, hrb, hopen, World.writePurchase, writePurchase, transaction] at hr
    have hcb : CachedShut w.cache b := ⟨r', hrb, hshut⟩
    refine ⟨⟨r, hra, fun now => by rw [halike, hshut]⟩, hcb, fun now => ?_⟩
    obtain ⟨_, hr, hopen⟩ := hres ⟨now, .answered, true, false, 0, 0, .runs⟩ rfl rfl
    rw [recordPurchase_shut hcb] at hr
    exact hopen (Except.ok.inj hr).symm

end

/-- Two spellings of a sale's id agree, for every buyer and whatever becomes of
each round trip, exactly when they are one spelling; or the cache knows both
alike and neither has warmed keys; or the cache and the keys of both know the
sale never to be open. -/
theorem spellings_agree_iff {w : World} (hp : w.redis.Printed) (hs : w.db.Schema) {a b : String}
    (h : Uuid.ofText a = .ofText b) :
    (∀ env email, SameOutcome (purchase env a email w) (purchase env b email w)) ↔
      a = b ∨ (CachedAlike w.cache a b ∧ ¬ (w.redis a).Warmed ∧ ¬ (w.redis b).Warmed) ∨
        (CachedShut w.cache a ∧ CachedShut w.cache b ∧ ∀ now, ¬ (w.redis a).Open now ∧ ¬ (w.redis b).Open now) := by
  have hunopen {id : String} (hw : ¬ (w.redis id).Warmed) (now : Int) : ¬ (w.redis id).Open now := by
    rintro ⟨hst, m, _, _, hm, -⟩
    exact hw ⟨hst, by simp [hm]⟩
  constructor
  · intro hsame
    by_cases hab : a = b
    · exact .inl hab
    -- Only the printed spelling can have keys.
    have hone : ¬ (w.redis a).Warmed ∨ ¬ (w.redis b).Warmed := by
      by_contra hboth
      rw [not_or, not_not, not_not] at hboth
      have hpa := hp a fun hn => by simp [hn, SaleKeys.none, SaleKeys.Warmed] at hboth
      have hpb := hp b fun hn => by simp [hn, SaleKeys.none, SaleKeys.Warmed] at hboth
      exact hab (by rw [← hpa, ← hpb]; exact congrArg Uuid.text h)
    by_cases ha : (w.redis a).Warmed
    · have hb := hone.resolve_left (not_not.2 ha)
      obtain ⟨h1, h2, h3⟩ := shut_of_same hs ha hb hsame
      exact .inr (.inr ⟨h1, h2, fun now => ⟨h3 now, hunopen hb now⟩⟩)
    by_cases hb : (w.redis b).Warmed
    · obtain ⟨h1, h2, h3⟩ := shut_of_same hs hb ha fun env email => (hsame env email).symm
      exact .inr (.inr ⟨h2, h1, fun now => ⟨hunopen ha now, h3 now⟩⟩)
    · exact .inr (.inl ⟨cachedAlike_of_same hs hsame, ha, hb⟩)
  · rintro (rfl | ⟨hc, ha, hb⟩ | ⟨ha, hb, hk⟩) env email
    · exact ⟨rfl, rfl, rfl, rfl⟩
    · rw [purchase_unwarmed ha, purchase_unwarmed hb]
      obtain ⟨hr, hdb⟩ := recordPurchase_spelling h hc env email
      exact ⟨hr, by simp, by simp, hdb⟩
    · rw [purchase_shut (fun now => (hk now).1) ha, purchase_shut (fun now => (hk now).2) hb]
      exact ⟨rfl, rfl, rfl, rfl⟩

/-- The demo sale's id, in upper case. -/
def demoUpper : String := "AAAAAAAA-AAAA-4AAA-8AAA-AAAAAAAAAAAA"

/-- A call for which everything works. -/
def demoHealthy : Env where
  now := 5
  link := .answered
  queued := true
  pgUp := true
  lookupNow := 5
  dbNow := 5000
  fate := .runs

theorem spellings_agree_demo :
    SameOutcome (purchase demoHealthy demoId.text "ann@example.com" { demoWorld with redis := fun _ => .none })
      (purchase demoHealthy demoUpper "ann@example.com" { demoWorld with redis := fun _ => .none }) :=
  (spellings_agree_iff (w := { demoWorld with redis := fun _ => .none }) (fun _ h => absurd rfl h) (demoDb_schema 1)
    (by decide +kernel)).2 (.inr (.inl ⟨.inl ⟨rfl, rfl⟩, by simp [SaleKeys.Warmed, SaleKeys.none],
      by simp [SaleKeys.Warmed, SaleKeys.none]⟩)) demoHealthy "ann@example.com"

/-- The api accepts both spellings of a warmed sale's id. One goes through the
gate. The other passes it by, and takes Postgres's only unit while Redis still
offers it. -/
theorem upper_case_bypasses_gate :
    let lower := purchase demoHealthy demoId.text "ann@example.com" demoWorld
    let upper := purchase demoHealthy demoUpper "ann@example.com" demoWorld
    uuidParamAccepts demoId.text = true ∧ uuidParamAccepts demoUpper = true ∧ Uuid.ofText demoUpper = demoId ∧
      lower.1 = .ok SUCCESS_RESULT ∧ lower.2.queue.length = 1 ∧ lower.2.db.buyers demoId = ∅ ∧
      (lower.2.redis demoId.text).saleStock = some (.num 0) ∧
      upper.1 = .ok SUCCESS_RESULT ∧ upper.2.queue = [] ∧ upper.2.db.buyers demoId = {"ann@example.com"} ∧
      (upper.2.redis demoId.text).saleStock = some (.num 1) := by
  decide +kernel

end FlashSale
