import FlashSale.Stores
import FlashSale.Books
/-!
# How the books move

Every step of the system is a move of one sale's books, handler by handler.
-/

namespace FlashSale
open Lib.Keyed

theorem callersOf_singleton (p : Pending) (u : Uuid) (gated : Bool) :
    callersOf [p] u gated =
      if Uuid.ofText p.saleId = u ∧ p.stage.gated = gated then {normalizeEmail p.email} else ∅ := by
  by_cases h : Uuid.ofText p.saleId = u ∧ p.stage.gated = gated
  · simp [callersOf, h]
  · simp only [callersOf, h, if_false, List.filter_cons, decide_false, Bool.false_eq_true, List.filter_nil]
    rfl

theorem Uuid.text_ne {u : Uuid} {id : String} (h : Uuid.ofText id ≠ u) : u.text ≠ id := by
  rintro rfl
  exact h (Uuid.ofText_text u)

/-- What a reservation does to Redis: nothing, or it reserves under the id as
Postgres prints it; and it answers `reserved` only then. -/
theorem reserve_cases {redis : Redis} (hp : redis.Printed) (link : Link) (saleId email : String) (now : Int) :
    ((reserve link redis saleId email now).2 = redis ∧ (reserve link redis saleId email now).1 ≠ some .reserved) ∨
      (toLowerCase saleId = saleId ∧ ((reserve link redis saleId email now).1 = some .reserved ∨
          (link = .replyLost ∧ (reserve link redis saleId email now).1 = none) ∨
          (link = .resent ∧ (reservePurchase redis saleId email now).1 = .reserved ∧
            (reserve link redis saleId email now).1 = some .already_purchased)) ∧
        ∃ stock, (redis saleId).Open now ∧ normalizeEmail email ∉ (redis saleId).saleBuyers ∧
          (redis saleId).Stocks stock ∧ 0 < stock ∧ (reserve link redis saleId email now).2 =
            Function.update redis saleId ((redis saleId).spend stock (normalizeEmail email))) := by
  have hredis := reserve_redis link redis saleId email now
  have hcode := reserve_code link redis saleId email now
  by_cases hreserved : (reservePurchase redis saleId email now).1 = .reserved
  · obtain ⟨stock, ho, hb, hs, hpos, hk⟩ := reserveScript_reserved hreserved
    -- Only ids as Postgres prints them have keys to reserve from.
    have hid : toLowerCase saleId = saleId := by
      apply hp
      intro hnone
      have := ho.warmed
      rw [hnone] at this
      simp [SaleKeys.none] at this
    have hspent : (reservePurchase redis saleId email now).2 =
        Function.update redis saleId ((redis saleId).spend stock (normalizeEmail email)) := by
      rw [reservePurchase_redis, hk]
    cases link with
    | notReady => exact .inl ⟨rfl, by simp [reserve]⟩
    | failed => exact .inl ⟨rfl, by simp [reserve]⟩
    | replyLost => exact .inr ⟨hid, .inr (.inl ⟨rfl, rfl⟩), stock, ho, hb, hs, hpos, hspent⟩
    | answered => exact .inr ⟨hid, .inl (congrArg some hreserved), stock, ho, hb, hs, hpos, hspent⟩
    | resent =>
      rw [hreserved] at hcode
      exact .inr ⟨hid, .inr (.inr ⟨rfl, hreserved, hcode⟩), stock, ho, hb, hs, hpos, hredis.trans hspent⟩
  · left
    rw [hredis, hcode, reservePurchase_kept hreserved, ite_self]
    refine ⟨rfl, ?_⟩
    split_ifs <;> simp [hreserved]

theorem attempt_moves {u : Uuid} {S : System} (hp : S.redis.Printed) (replica : Nat) (saleId email : String)
    (now : Int) (link : Link) :
    Moves u S (.attempt replica saleId email now link)
      ((stepAttempt S replica saleId email now link).books u) := by
  have hrefers (hu : Uuid.ofText saleId = u) (hnone : (reserve link S.redis saleId email now).1 = none ∨
      (reserve link S.redis saleId email now).1 = some .not_warmed) :
      refers u S (.attempt replica saleId email now link) = true := by
    rw [reserve_code] at hnone
    cases hheard : link.heard with
    | false => simp [refers, hu, hheard]
    | true =>
      simp only [hheard, not_true_eq_false, if_false] at hnone
      split_ifs at hnone <;> simp_all [refers]
  rcases stepAttempt_cases S replica saleId email now link with ⟨hcode, hstep⟩ | ⟨hcode, hstep⟩ |
    ⟨hnone, hcode, result, hresult, hstep⟩
  · -- It reserved, and has a message to publish.
    rw [hstep]
    rcases reserve_cases hp link saleId email now with ⟨-, hne⟩ | ⟨hid, -, stock, ho, hb, hs, hpos, hredis⟩
    · exact absurd hcode hne
    rw [hredis]
    by_cases hu : Uuid.ofText saleId = u
    · obtain rfl : u.text = saleId := by rw [← hu]; exact hid
      have := Moves.reserve (u := u) (a := .attempt replica u.text email now link) (S := S) _ _ now ho hb hs hpos
      simpa [System.books, callersOf_append, callersOf_singleton, Stage.gated, Finset.union_comm] using this
    · have hne := Uuid.text_ne hu
      have := Moves.still u S (.attempt replica saleId email now link)
      simpa [System.books, callersOf_append, callersOf_singleton, hu, hne] using this
  · -- Postgres is to decide. The script may still have reserved.
    rw [hstep]
    rcases reserve_cases hp link saleId email now with ⟨hredis, -⟩ | ⟨hid, -, stock, ho, hb, hs, hpos, hredis⟩
    · rw [hredis]
      by_cases hu : Uuid.ofText saleId = u
      · have := Moves.refer (normalizeEmail email) (hrefers hu hcode)
        simpa [System.books, callersOf_append, callersOf_singleton, Stage.gated, hu, Finset.union_comm] using this
      · have := Moves.still u S (.attempt replica saleId email now link)
        simpa [System.books, callersOf_append, callersOf_singleton, hu] using this
    · rw [hredis]
      by_cases hu : Uuid.ofText saleId = u
      · obtain rfl : u.text = saleId := by rw [← hu]; exact hid
        have := Moves.reserveLost _ _ now (hrefers hu hcode) ho hb hs hpos
        simpa [System.books, callersOf_append, callersOf_singleton, Stage.gated, Finset.union_comm] using this
      · have hne := Uuid.text_ne hu
        have := Moves.still u S (.attempt replica saleId email now link)
        simpa [System.books, callersOf_append, callersOf_singleton, hu, hne] using this
  · -- The script refused it.
    rw [hstep]
    have href : (⟨saleId, email, .ok result⟩ : Answer).isSuccess = false := by simpa [Answer.isSuccess] using hresult
    rcases reserve_cases hp link saleId email now with ⟨hredis, -⟩ |
      ⟨hid, hcode' | ⟨-, hcode'⟩ | ⟨hlink, hreserved, -⟩, stock, ho, hb, hs, hpos, hredis⟩
    · have := Moves.still u S (.attempt replica saleId email now link)
      simpa [System.books, hredis, toldOf_append, toldOf_refused href] using this
    · exact absurd hcode' hcode
    · exact absurd hcode' hnone
    · -- It reserved, and was sent again.
      rw [hredis]
      by_cases hu : Uuid.ofText saleId = u
      · obtain rfl : u.text = saleId := by rw [← hu]; exact hid
        have := Moves.resend (u := u) (a := .attempt replica u.text email now link) _ _ now
          (by simp [resends, hlink, hreserved]) ho hb hs hpos
        simpa [System.books, toldOf_append, toldOf_refused href] using this
      · have hne := Uuid.text_ne hu
        have := Moves.still u S (.attempt replica saleId email now link)
        simpa [System.books, toldOf_append, toldOf_refused href, hne] using this

theorem finish_books (S : System) (i : Nat) (p : Pending) {result : Except JsError PurchaseResult}
    (h : (p.answer result).isSuccess = false) (u : Uuid) :
    (S.finish i p result).books u = { S.books u with
      owed := callersOf (S.pending.eraseIdx i) u true, fallback := callersOf (S.pending.eraseIdx i) u false } := by
  simp [System.books, System.finish, toldOf_append, toldOf_refused h]

/-- A call that ends without success. -/
theorem finish_moves {S : System} {i : Nat} {p : Pending} {result : Except JsError PurchaseResult}
    (h : (p.answer result).isSuccess = false) (u : Uuid) (a : Action) :
    Moves u S a ((S.finish i p result).books u) := by
  rw [finish_books S i p h]
  exact .quiet (callersOf_eraseIdx _ _ _ _) (callersOf_eraseIdx _ _ _ _)

/-- A call that goes on. -/
theorem goOn_moves {S : System} {i : Nat} {p : Pending} (hi : S.pending[i]? = some p) {stage : Stage}
    (hstage : stage.gated = p.stage.gated) (u : Uuid) (a : Action) : Moves u S a ((S.goOn i p stage).books u) :=
  .quiet (callersOf_set hi hstage u true) (callersOf_set hi hstage u false)

theorem mem_owed {S : System} {i : Nat} {p : Pending} (hi : S.pending[i]? = some p) :
    normalizeEmail p.email ∈ callersOf S.pending (.ofText p.saleId) p.stage.gated :=
  mem_callersOf.2 ⟨p, List.mem_of_getElem? hi, rfl, rfl, rfl⟩

/-- The end of a call leaves the other side's callers alone. -/
theorem callersOf_eraseIdx_other {ps : List Pending} {i : Nat} {p : Pending} (hi : ps[i]? = some p) {gated : Bool}
    (hg : p.stage.gated ≠ gated) (u : Uuid) : callersOf (ps.eraseIdx i) u gated = callersOf ps u gated := by
  apply Finset.Subset.antisymm (callersOf_eraseIdx ps i u gated)
  intro b hb
  obtain ⟨q, hq, hu, hs, he⟩ := mem_callersOf.1 hb
  obtain ⟨hlt, rfl⟩ := List.getElem?_eq_some_iff.1 hi
  have hperm := List.getElem_cons_eraseIdx_perm hlt
  rcases List.mem_cons.1 (hperm.symm.subset hq) with rfl | hq
  · exact absurd hs hg
  · exact mem_callersOf.2 ⟨q, hq, hu, hs, he⟩

theorem publish_moves {S : System} {i : Nat} {p : Pending} (hi : S.pending[i]? = some p) (hstage : p.stage = .publish)
    (queued : Bool) (u : Uuid) (a : Action) : Moves u S a ((stepPublish S i p queued).books u) := by
  have hgated : p.stage.gated = true := by rw [hstage]; rfl
  unfold stepPublish
  cases queued with
  | false => exact goOn_moves hi (by rw [hgated]; rfl) u a
  | true =>
    by_cases hu : Uuid.ofText p.saleId = u
    · have howed := mem_owed hi
      rw [hu, hgated] at howed
      have := Moves.publish (a := a) _ howed (callersOf_eraseIdx S.pending i u true)
      have hother := callersOf_eraseIdx_other hi (by simp [hgated] : p.stage.gated ≠ false) u
      have hmail : mailOf [p.message] u = {normalizeEmail p.email} := by simp [mailOf, Pending.message, hu]
      have htold : toldOf [p.answer (.ok SUCCESS_RESULT)] u = {normalizeEmail p.email} := by
        simp [toldOf, Pending.answer, Answer.isSuccess, SUCCESS_RESULT, hu]
      simpa [System.books, System.finish, mailOf_append, toldOf_append, hmail, htold, hother, Finset.union_comm]
        using this
    · have := Moves.quiet (a := a) (callersOf_eraseIdx S.pending i u true) (callersOf_eraseIdx S.pending i u false)
      have hmail : mailOf [p.message] u = ∅ := by simp [mailOf, Pending.message, hu]
      have htold := toldOf_other (a := p.answer (.ok SUCCESS_RESULT)) hu
      simpa [System.books, System.finish, mailOf_append, toldOf_append, hmail, htold] using this

theorem lookup_moves {S : System} {i : Nat} {p : Pending} (hi : S.pending[i]? = some p) (hstage : p.stage = .lookup)
    (pgUp : Bool) (now : Int) (u : Uuid) (a : Action) : Moves u S a ((stepLookup S i p pgUp now).books u) := by
  unfold stepLookup
  rcases findRowById pgUp S.db (S.caches p.replica) p.saleId with ⟨_ | _ | row, cache⟩
  · exact finish_moves (S := { S with caches := _ }) rfl u a
  · exact finish_moves (S := { S with caches := _ }) rfl u a
  · dsimp only
    split
    · exact goOn_moves (S := { S with caches := _ }) hi (by rw [hstage]; rfl) u a
    · exact finish_moves (S := { S with caches := _ }) rfl u a

theorem unitsOf_singleton (r : PgPurchase) (u : Uuid) : unitsOf [r] u = if r.saleId = u then 1 else 0 := by
  simp [unitsOf, List.countP_cons]

theorem buyersOf_singleton (r : PgPurchase) (u : Uuid) :
    buyersOf [r] u = if r.saleId = u then {normalizeEmail r.email} else ∅ := by
  by_cases h : r.saleId = u <;> simp [buyersOf, h]

theorem toldOf_answer (p : Pending) (result : Except JsError PurchaseResult) :
    toldOf [p.answer result] (.ofText p.saleId) ⊆ {normalizeEmail p.email} := by
  intro b hb
  obtain ⟨a, ha, rfl⟩ := List.mem_map.1 (List.mem_toFinset.1 hb)
  obtain rfl := List.mem_singleton.1 (List.mem_filter.1 ha).1
  exact Finset.mem_singleton_self _

/-- The books of the sale when a call has written its row. -/
theorem written_books {S : System} {i : Nat} {p : Pending} {db : Db} {dbNow : Int}
    (hsold : Sold S.db db [purchaseRow dbNow p.saleId p.email]) (result : Except JsError PurchaseResult) :
    System.books { S.finish i p result with db } (.ofText p.saleId) =
      { S.books (.ofText p.saleId) with
        sale := (S.db.sale (.ofText p.saleId)).map (·.take 1)
        settled := insert (normalizeEmail p.email) (S.db.buyers (.ofText p.saleId))
        owed := callersOf (S.pending.eraseIdx i) (.ofText p.saleId) true
        fallback := callersOf (S.pending.eraseIdx i) (.ofText p.saleId) false
        told := toldOf S.answers (.ofText p.saleId) ∪ toldOf [p.answer result] (.ofText p.saleId) } := by
  have hunits : unitsOf [purchaseRow dbNow p.saleId p.email] (.ofText p.saleId) = 1 := by
    simp [unitsOf_singleton, purchaseRow]
  have hbuyers : buyersOf [purchaseRow dbNow p.saleId p.email] (.ofText p.saleId) = {normalizeEmail p.email} := by
    simp [buyersOf_singleton, purchaseRow]
  simp [System.books, System.finish, hsold.sale, hsold.buyers, hunits, hbuyers, toldOf_append, Finset.union_comm]

/-- A call writes its row: its buyer, who was new, held a reservation or did not. -/
theorem written_moves {S : System} {i : Nat} {p : Pending} (hi : S.pending[i]? = some p)
    (hstage : p.stage = .write ∨ p.stage = .record) {db : Db} {dbNow : Int} {fate : TxFate}
    (hsold : Sold S.db db [purchaseRow dbNow p.saleId p.email]) (hfate : fate ≠ .unreachable)
    (hin : outsideSalePeriod S.db (purchaseRow dbNow p.saleId p.email) = false) {s : PgSale}
    (hsale : S.db.sale (.ofText p.saleId) = some s) (hpos : 0 < s.remainingStock)
    (result : Except JsError PurchaseResult) :
    Moves (.ofText p.saleId) S (.write i dbNow fate)
      (System.books { S.finish i p result with db } (.ofText p.saleId)) := by
  have hnew : normalizeEmail p.email ∉ S.db.buyers (.ofText p.saleId) := by
    have := hsold.disjoint (.ofText p.saleId)
    simpa [buyersOf_singleton, purchaseRow] using this
  have htold : toldOf S.answers (.ofText p.saleId) ∪ toldOf [p.answer result] (.ofText p.saleId) ⊆
      insert (normalizeEmail p.email) (toldOf S.answers (.ofText p.saleId)) := by
    apply Finset.union_subset (Finset.subset_insert _ _)
    exact (toldOf_answer p result).trans (Finset.singleton_subset_iff.2 (Finset.mem_insert_self _ _))
  have hcaller := mem_owed hi
  rw [written_books hsold]
  rcases hstage with hstage | hstage
  · rw [callersOf_eraseIdx_other hi (by simp [hstage, Stage.gated] : p.stage.gated ≠ false)]
    rw [hstage] at hcaller
    refine .write _ hcaller (callersOf_eraseIdx _ _ _ _) hnew ?_ Finset.subset_union_left htold
    intro s' hs'
    obtain rfl := Option.some.inj (hsale.symm.trans hs')
    exact hpos
  · have htakes : taker (.ofText p.saleId) S (.write i dbNow fate) = some (normalizeEmail p.email) := by
      simp [taker, hi, hsale, hstage, hfate, hin, hnew, hpos]
    rw [callersOf_eraseIdx_other hi (by simp [hstage, Stage.gated] : p.stage.gated ≠ true)]
    rw [hstage] at hcaller
    exact .record _ htakes hcaller (callersOf_eraseIdx _ _ _ _) Finset.subset_union_left htold

theorem write_moves {S : System} (hs : S.db.Schema) {i : Nat} {p : Pending} (hi : S.pending[i]? = some p)
    (hstage : p.stage = .write ∨ p.stage = .record) (dbNow : Int) (fate : TxFate) (u : Uuid) :
    Moves u S (.write i dbNow fate) ((stepWrite S i p dbNow fate).books u) := by
  unfold stepWrite
  cases hw : writePurchase fate dbNow p.saleId p.email S.db with
  | mk result db =>
    have hcommits := writePurchase_commits hs fate dbNow p.saleId p.email
    rw [hw] at hcommits
    dsimp only at hcommits ⊢
    rcases hcommits with ⟨rfl, hres⟩ | ⟨hsold, hfate, hin, s, hsale, hpos⟩
    · -- Nothing is written, and the call is told so.
      apply finish_moves (S := S)
      unfold Answer.isSuccess Pending.answer
      cases result with
      | error e => rfl
      | ok r => simpa using hres r rfl
    · by_cases hu : Uuid.ofText p.saleId = u
      · subst hu
        exact written_moves hi hstage hsold hfate hin hsale hpos result
      · -- The row is of another sale.
        have hunits : unitsOf [purchaseRow dbNow p.saleId p.email] u = 0 := by
          simp [unitsOf_singleton, purchaseRow, hu]
        have hbuyers : buyersOf [purchaseRow dbNow p.saleId p.email] u = ∅ := by
          simp [buyersOf_singleton, purchaseRow, hu]
        have htold := toldOf_other (a := p.answer result) hu
        have := Moves.quiet (a := .write i dbNow fate) (callersOf_eraseIdx S.pending i u true)
          (callersOf_eraseIdx S.pending i u false)
        simpa [System.books, System.finish, hsold.sale_other hunits, hsold.buyers, hbuyers, toldOf_append, htold]
          using this

/-- A batch writes rows of buyers among its entries, and if it succeeds each of
its entries has a row. -/
theorem writePurchaseBatch_buyers {db : Db} (hs : db.Schema) (fate : TxFate) (entries : List PurchaseWriteEntry) :
    ∃ new, Sold db (writePurchaseBatch fate entries db).2 new ∧ (∀ u, buyersOf new u ⊆ mailOf entries u) ∧
      ∀ n, (writePurchaseBatch fate entries db).1 = .ok n →
        ∀ u, mailOf entries u ⊆ (writePurchaseBatch fate entries db).2.buyers u := by
  have hsub : ∀ u, buyersOf (newRows PgPurchase.key db.purchases (entries.map (·.row))) u ⊆ mailOf entries u := by
    intro u b hb
    obtain ⟨r, hr, hid, he⟩ := mem_buyersOf.1 hb
    obtain ⟨m, hm, rfl⟩ := List.mem_map.1 (newRows_subset _ _ _ hr)
    exact mem_mailOf.2 ⟨m, hm, hid, he⟩
  by_cases hnil : entries = []
  · refine ⟨[], ?_, by simp, ?_⟩
    · simpa [writePurchaseBatch, hnil] using hs.sold_nothing
    · intro n _ u
      simp [mailOf, hnil]
  cases htx : writePurchaseBatchTx entries db with
  | error e =>
    have hb : writePurchaseBatch fate entries db =
        (.error (if fate = .unreachable then connectionRefused else e), db) := by
      cases fate <;> simp [writePurchaseBatch, transaction, hnil, htx]
    rw [hb]
    exact ⟨[], hs.sold_nothing, by simp, by simp⟩
  | ok p =>
    obtain ⟨written, db'⟩ := p
    obtain ⟨hsold, -⟩ := writePurchaseBatchTx_sold hs htx
    have hrows : ∀ u, mailOf entries u ⊆ db'.buyers u := by
      intro u b hb
      obtain ⟨m, hm, rfl, rfl⟩ := mem_mailOf.1 hb
      rw [show Uuid.ofText m.saleId = m.row.saleId from rfl, show m.email = m.row.email from rfl,
        Db.mem_buyers_iff_key, hsold.purchases, List.map_append, List.mem_append]
      exact key_mem_newRows PgPurchase.key db.purchases _ (List.mem_map_of_mem hm)
    cases fate with
    | runs =>
      have hb : writePurchaseBatch .runs entries db = (.ok written, db') := by
        simp [writePurchaseBatch, transaction, hnil, htx]
      rw [hb]
      exact ⟨_, hsold, hsub, fun _ _ => hrows⟩
    | replyLost =>
      have hb : writePurchaseBatch .replyLost entries db = (.error unreachable, db') := by
        simp [writePurchaseBatch, transaction, hnil, htx]
      rw [hb]
      exact ⟨_, hsold, hsub, by simp⟩
    | unreachable =>
      have hb : writePurchaseBatch .unreachable entries db = (.error connectionRefused, db) := by
        simp [writePurchaseBatch, transaction, hnil]
      rw [hb]
      exact ⟨[], hs.sold_nothing, by simp, by simp⟩

theorem drain_moves {S : System} (hs : S.db.Schema) {entries : List PurchaseWriteEntry} (h : entries ⊆ S.queue)
    (fate : TxFate) (settled : Bool) (u : Uuid) (a : Action) :
    Moves u S a ((stepDrain S entries fate settled).books u) := by
  obtain ⟨new, hsold, hsub, hrows⟩ := writePurchaseBatch_buyers hs fate entries
  have hqueue : mailOf (S.queue.diff entries) u ⊆ mailOf S.queue u := mailOf_subset (List.diff_subset _ _) u
  have hlost := mailOf_diff S.queue entries u
  have hentries := mailOf_subset h u
  have hfits : ∀ s, S.db.sale u = some s → ((buyersOf new u).card : Int) ≤ s.remainingStock := by
    intro s hsale
    rw [hsold.card_buyersOf]
    exact hsold.absorbs_sale hsale
  unfold stepDrain
  cases hb : writePurchaseBatch fate entries S.db with
  | mk written db =>
    rw [hb] at hsold hrows
    have hbooks (queue dead : Finset String) (hq : queue ⊆ mailOf S.queue u) (hd : mailOf S.dead u ⊆ dead)
        (hd' : dead ⊆ mailOf S.dead u ∪ mailOf S.queue u)
        (hkept : mailOf S.queue u ⊆ queue ∪ dead ∪ (S.db.buyers u ∪ buyersOf new u)) :
        Moves u S a { S.books u with sale := db.sale u, settled := db.buyers u, queued := queue, dead } := by
      have := Moves.drain (u := u) (S := S) (a := a) (buyersOf new u) ((hsub u).trans hentries) (hsold.disjoint u)
        hfits hq hd hd' hkept
      simpa [System.books, hsold.sale, hsold.buyers, hsold.card_buyersOf] using this
    cases written with
    | ok n =>
      -- Written and acknowledged: every entry has its row.
      cases settled with
      | true =>
        apply hbooks (mailOf (S.queue.diff entries) u) (mailOf S.dead u) hqueue subset_rfl Finset.subset_union_left
        intro b hmem
        rcases Finset.mem_union.1 (hlost hmem) with hq | he
        · simp [hq]
        · have := hrows n rfl u he
          rw [hsold.buyers] at this
          exact Finset.mem_union_right _ this
      | false =>
        apply hbooks (mailOf S.queue u) (mailOf S.dead u) subset_rfl subset_rfl Finset.subset_union_left
        intro b hmem
        simp [hmem]
    | error e =>
      -- Given up, or kept for another try.
      cases settled with
      | true =>
        have := hbooks (mailOf (S.queue.diff entries) u) (mailOf S.dead u ∪ mailOf entries u) hqueue
          Finset.subset_union_left (Finset.union_subset_union_right hentries) (by
            intro b hmem
            have := hlost hmem
            simp only [Finset.mem_union] at this ⊢
            tauto)
        simpa [System.books, mailOf_append] using this
      | false =>
        apply hbooks (mailOf S.queue u) (mailOf S.dead u) subset_rfl subset_rfl Finset.subset_union_left
        intro b hmem
        simp [hmem]

/-- Whatever happens in the system, the sale's books stay or move in one of the
ways above. -/
theorem step_moves {S S' : System} {a : Action} (hok : S.Ok) (h : step S a = some S') (u : Uuid) :
    Moves u S a (S'.books u) := by
  cases Step.of_step h with
  | attempt => exact attempt_moves hok.printed _ _ _ _ _
  | publish hi hstage => exact publish_moves hi hstage _ u _
  | lookup hi hstage => exact lookup_moves hi hstage _ _ u _
  | write hi hstage => exact write_moves hok.schema hi hstage _ _ u
  | drain hsub => exact drain_moves hok.schema hsub _ _ u _
  | expire | warmRows | warmBuyers => exact .still u S _
  | @flush keys =>
    by_cases hd : deletes u (.flush keys) = true
    · exact .delete hd (delKeys_remains S.redis keys u.text)
    · have hkeys : delKeys S.redis keys u.text = S.redis u.text := by
        apply delKeys_other
        intro key hkey he
        exact hd (List.any_eq_true.2 ⟨key, hkey, by simpa using he⟩)
      have := Moves.still u S (.flush keys)
      simpa [System.books, hkeys] using this
  | @warmSync row buyers hreading =>
    by_cases hid : row.id = u.text
    · exact .sync (by simp [syncs, hreading, hid])
    · have hkeys : syncSale S.redis row.toSync buyers u.text = S.redis u.text :=
        Function.update_of_ne (Ne.symm hid) _ _
      have := Moves.still u S .warmSync
      simpa [System.books, hkeys] using this

end FlashSale
