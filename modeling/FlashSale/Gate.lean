import FlashSale.Moves
import FlashSale.Lib.Escrow
/-!
# While the script decides

As long as every attempt for a sale is decided by the script, and nobody
deletes or reloads its keys, the books of the sale balance: what Redis may
still promise and what it has promised without a row yet add up to what
Postgres has left. So Postgres can absorb every promise, and every buyer told
of success has a row or a message.
-/

namespace FlashSale
open Lib.Escrow Lib.Keyed Lib.Runs

/-! ## The runs -/

/-- A sale just loaded from Postgres, with nothing of it under way. -/
structure Loaded (u : Uuid) (S : System) : Prop where
  ok : S.Ok
  warmed : ∃ s, S.db.sale u = some s ∧ S.redis u.text = warmedKeys S.db s
  queued : (S.books u).queued = ∅
  dead : (S.books u).dead = ∅
  owed : (S.books u).owed = ∅
  fallback : (S.books u).fallback = ∅
  told : (S.books u).told = ∅

/-- The step leaves the sale to the script: no null and no `not_warmed`, no
flush and no warm of it. -/
def Decided (u : Uuid) (S : System) (a : Action) : Prop :=
  refers u S a = false ∧ deletes u a = false ∧ syncs u S a = false

instance (u : Uuid) (S : System) (a : Action) : Decidable (Decided u S a) := inferInstanceAs (Decidable (_ ∧ _ ∧ _))

/-! ## The invariant -/

structure Balances (B : Books) : Prop where
  account : ∃ s stock, B.sale = some s ∧ B.keys.Stocks stock ∧
    Balanced ⟨stock, B.keys.saleBuyers, s.remainingStock, B.settled⟩
  queued : B.queued ⊆ B.keys.saleBuyers
  dead : B.dead ⊆ B.keys.saleBuyers
  owed : B.owed ⊆ B.keys.saleBuyers
  fallback : B.fallback = ∅
  durable : B.told ⊆ B.settled ∪ B.queued ∪ B.dead

theorem Loaded.balances {u : Uuid} {S : System} (h : Loaded u S) : Balances (S.books u) where
  account := by
    obtain ⟨s, hs, hkeys⟩ := h.warmed
    obtain ⟨hm, rfl⟩ := Db.sale_mem hs
    refine ⟨s, s.remainingStock, hs, ?_, ?_⟩
    · change (S.redis s.id.text).Stocks _
      rw [hkeys]
      rfl
    · have hbuyers : (S.books s.id).keys.saleBuyers = S.db.buyers s.id := by
        change (S.redis s.id.text).saleBuyers = _
        rw [hkeys, warmedKeys_buyers]
      rw [hbuyers]
      exact balanced_open (h.ok.schema.sales_remaining_stock_check s hm) _
  queued := by simp [h.queued]
  dead := by simp [h.dead]
  owed := by simp [h.owed]
  fallback := h.fallback
  durable := by simp [h.told]

@[simp] theorem SaleKeys.spend_stocks (k : SaleKeys) (stock : Int) (email : String) :
    (k.spend stock email).Stocks (stock - 1) := rfl
@[simp] theorem SaleKeys.spend_saleBuyers (k : SaleKeys) (stock : Int) (email : String) :
    (k.spend stock email).saleBuyers = insert email k.saleBuyers := rfl

/-- Every move the script decides keeps the balance. -/
theorem Balances.moves {u : Uuid} {S : System} {a : Action} {B : Books} (h : Balances (S.books u))
    (hd : Decided u S a) (hm : Moves u S a B) : Balances B := by
  obtain ⟨hrefers, hdeletes, hsyncs⟩ := hd
  obtain ⟨s, stock, hsale, hstock, hbal⟩ := h.account
  cases hm with
  | quiet howed hfallback =>
    exact ⟨h.account, h.queued, h.dead, howed.trans h.owed, Finset.subset_empty.1 (h.fallback ▸ hfallback), h.durable⟩
  | refer b hr => simp [hrefers] at hr
  | reserve b stock' now ho hb hs hpos =>
    -- A unit moves from the stock to the buyers without a row.
    obtain rfl : stock = stock' := Option.some.inj (hstock.symm.trans hs)
    have hsub := Finset.subset_insert b (S.books u).keys.saleBuyers
    refine ⟨⟨s, stock - 1, hsale, rfl, hbal.reserve hb hpos⟩, h.queued.trans hsub, h.dead.trans hsub, ?_, h.fallback,
      h.durable⟩
    exact Finset.insert_subset_insert _ h.owed
  | reserveLost b stock' now hr => simp [hrefers] at hr
  | resend b stock' now _ ho hb hs hpos =>
    -- So it does if nobody has the reservation.
    obtain rfl : stock = stock' := Option.some.inj (hstock.symm.trans hs)
    have hsub := Finset.subset_insert b (S.books u).keys.saleBuyers
    exact ⟨⟨s, stock - 1, hsale, rfl, hbal.reserve hb hpos⟩, h.queued.trans hsub, h.dead.trans hsub,
      h.owed.trans hsub, h.fallback, h.durable⟩
  | publish b hb howed =>
    refine ⟨h.account, Finset.insert_subset (h.owed hb) h.queued, h.dead, howed.trans h.owed, h.fallback, ?_⟩
    intro c hc
    rcases Finset.mem_insert.1 hc with rfl | hc
    · simp
    · have := h.durable hc
      simp only [Finset.mem_union, Finset.mem_insert] at this ⊢
      tauto
  | write b hb howed hnew hpos htold htold' =>
    -- The buyer was counted already, and has a row now.
    refine ⟨⟨s.take 1, stock, by simp [hsale], hstock, ?_⟩, h.queued, h.dead, howed.trans h.owed, h.fallback, ?_⟩
    · have := hbal.settle (t := {b}) (Finset.singleton_subset_iff.2 (h.owed hb))
        (Finset.disjoint_singleton_left.2 hnew)
      simpa [Account.settle, Finset.union_comm] using this
    · intro c hc
      rcases Finset.mem_insert.1 (htold' hc) with rfl | hc
      · simp
      · have := h.durable hc
        simp only [Finset.mem_union, Finset.mem_insert] at this ⊢
        tauto
  | record b _ hb => simp [h.fallback] at hb
  | drain t ht hdisj _ hqueued hmore hdead hkept =>
    -- As for one row: the rows are of buyers that Redis has.
    refine ⟨⟨s.take t.card, stock, by simp [hsale], hstock, hbal.settle (ht.trans h.queued) hdisj⟩,
      hqueued.trans h.queued, hdead.trans (Finset.union_subset h.dead h.queued), h.owed, h.fallback, ?_⟩
    intro c hc
    have := h.durable hc
    simp only [Finset.mem_union] at this ⊢
    rcases this with (hs | hq) | hd'
    · exact .inl (.inl (.inl hs))
    · have := hkept hq
      simp only [Finset.mem_union] at this
      tauto
    · exact .inr (hmore hd')
  | delete hr => simp [hdeletes] at hr
  | sync hr => simp [hsyncs] at hr

/-! ## What the balance gives -/

section
variable {u : Uuid} {S : System}

/-- Postgres absorbs whatever batch is made of messages the broker holds. -/
theorem Balances.no_oversold (hb : Balances (S.books u)) (hs : S.db.Schema) {entries : List PurchaseWriteEntry}
    (h : entries ⊆ S.queue) (fate : TxFate) (n : Nat) :
    (writePurchaseBatch fate entries S.db).1 ≠ .error (.oversold u n) := by
  intro hover
  obtain ⟨hn, hlt⟩ := writePurchaseBatch_oversold hs hover
  obtain ⟨s, stock, hsale, -, hbal⟩ := hb.account
  obtain ⟨hm, hid⟩ := Db.sale_mem hsale
  obtain ⟨honce, hfresh⟩ := newRows_fresh PgPurchase.key S.db.purchases (entries.map (·.row))
  have hsub : buyersOf (newRows PgPurchase.key S.db.purchases (entries.map (·.row))) u ⊆
      (S.books u).keys.saleBuyers := by
    intro b hmem
    apply hb.queued
    obtain ⟨r, hr, hru, he⟩ := mem_buyersOf.1 hmem
    obtain ⟨m, hmm, rfl⟩ := List.mem_map.1 (newRows_subset _ _ _ hr)
    exact mem_mailOf.2 ⟨m, h hmm, hru, he⟩
  have habsorbs := hbal.absorbs hsub (buyersOf_disjoint hfresh u)
  rw [card_buyersOf honce, ← hn] at habsorbs
  have := hlt s hm hid
  have : (n : Int) ≤ s.remainingStock := habsorbs
  omega

/-- A call that writes directly finds a unit. -/
theorem Balances.no_soldOut (hb : Balances (S.books u)) (hs : S.db.Schema) {p : Pending} (hp : p ∈ S.pending)
    (hu : Uuid.ofText p.saleId = u) (dbNow : Int) : writePurchaseTx dbNow p.saleId p.email S.db ≠ .error .soldOut := by
  intro hsold
  obtain ⟨s', hsale', hnew, hz⟩ := writePurchaseTx_soldOut hs hsold
  obtain ⟨s, stock, hsale, -, hbal⟩ := hb.account
  rw [hu] at hsale' hnew
  obtain rfl : s = s' := Option.some.inj (hsale.symm.trans hsale')
  have hcaller : normalizeEmail p.email ∈ callersOf S.pending u p.stage.gated :=
    mem_callersOf.2 ⟨p, hp, hu, rfl, rfl⟩
  cases hg : p.stage.gated with
  | true =>
    rw [hg] at hcaller
    have := hbal.absorbs (t := {normalizeEmail p.email}) (Finset.singleton_subset_iff.2 (hb.owed hcaller))
      (Finset.disjoint_singleton_left.2 hnew)
    have : ((1 : Nat) : Int) ≤ s.remainingStock := by simpa using this
    omega
  | false =>
    -- No call of this sale is on the Postgres-only path.
    rw [hg] at hcaller
    have hnone : callersOf S.pending u false = ∅ := hb.fallback
    simp [hnone] at hcaller

/-- Whoever was answered success has a row, or a message. -/
theorem Balances.answered (hb : Balances (S.books u)) {answer : Answer} (hmem : answer ∈ S.answers)
    (hu : Uuid.ofText answer.saleId = u) (hsucc : answer.isSuccess) :
    normalizeEmail answer.email ∈ S.db.buyers u ∨ ∃ m ∈ S.queue ++ S.dead, Uuid.ofText m.saleId = u ∧
      normalizeEmail m.email = normalizeEmail answer.email := by
  have htold : normalizeEmail answer.email ∈ toldOf S.answers u := by
    simp only [toldOf, List.mem_toFinset, List.mem_map, List.mem_filter, decide_eq_true_eq]
    exact ⟨answer, ⟨hmem, hu, hsucc⟩, rfl⟩
  have hcases := hb.durable htold
  simp only [Finset.mem_union] at hcases
  rcases hcases with (hrow | hq) | hdead
  · exact .inl hrow
  · obtain ⟨m, hm, h⟩ := mem_mailOf.1 hq
    exact .inr ⟨m, List.mem_append_left _ hm, h⟩
  · obtain ⟨m, hm, h⟩ := mem_mailOf.1 hdead
    exact .inr ⟨m, List.mem_append_right _ hm, h⟩

end

/-- What holds in every state of a run that leaves the sale to the script. -/
theorem gate_inv {u : Uuid} {S S' : System} (hl : Loaded u S) (h : Steps step (Decided u) S S') :
    S'.Ok ∧ Balances (S'.books u) :=
  h.inv (I := fun S => S.Ok ∧ Balances (S.books u)) ⟨hl.ok, hl.balances⟩ fun _ _ _ hinv hd hstep =>
    ⟨hinv.1.step hstep, hinv.2.moves hd (step_moves hinv.1 hstep u)⟩

/-! ## Main theorem -/

/-- Redis never promises a unit that Postgres cannot absorb. -/
theorem gate_never_overpromises {u : Uuid} {S S' : System} (hl : Loaded u S) (h : Steps step (Decided u) S S') :
    S'.db.buyers u ⊆ (S'.redis u.text).saleBuyers ∧
    (∃ s stock, S'.db.sale u = some s ∧ (S'.redis u.text).Stocks stock ∧
      stock + (((S'.redis u.text).saleBuyers \ S'.db.buyers u).card : Int) = s.remainingStock) ∧
    (∀ entries ⊆ S'.queue, ∀ fate n, (writePurchaseBatch fate entries S'.db).1 ≠ .error (.oversold u n)) ∧
    (∀ p ∈ S'.pending, Uuid.ofText p.saleId = u → ∀ dbNow,
      writePurchaseTx dbNow p.saleId p.email S'.db ≠ .error .soldOut) ∧
    (∀ answer ∈ S'.answers, Uuid.ofText answer.saleId = u → answer.isSuccess →
      normalizeEmail answer.email ∈ S'.db.buyers u ∨ ∃ m ∈ S'.queue ++ S'.dead, Uuid.ofText m.saleId = u ∧
        normalizeEmail m.email = normalizeEmail answer.email) := by
  obtain ⟨hok, hb⟩ := gate_inv hl h
  obtain ⟨s, stock, hsale, hstock, hbal⟩ := hb.account
  refine ⟨hbal.recorded, ⟨s, stock, hsale, hstock, hbal.balance⟩, ?_, ?_, ?_⟩
  · intro entries hsub fate n
    exact hb.no_oversold hok.schema hsub fate n
  · intro p hp hu dbNow
    exact hb.no_soldOut hok.schema hp hu dbNow
  · intro answer hmem hu hsucc
    exact hb.answered hmem hu hsucc

/-! ## A system to run things on -/

/-- The demo sale, warmed, before anything happens. -/
def demoSystem (stock : Nat) : System where
  redis := warm 0 (demoDb stock) fun _ => .none
  db := demoDb stock
  caches := fun _ _ => none
  queue := []
  dead := []
  pending := []
  answers := []
  warm := .idle

theorem demoSystem_loaded (stock : Nat) : Loaded demoId (demoSystem stock) where
  ok := ⟨demoDb_schema stock, (Redis.Left.cold.warm 0 _).printed, by simp [demoSystem, WarmScript.idle], by
    simp [demoSystem, WarmScript.idle]⟩
  warmed := by
    have hv : ¬ Unvisited (demoDb stock) 0 demoId.text := by
      intro h
      exact h ⟨demoId, stock, stock, 0, 1000000, none⟩ (by simp [demoDb]) rfl rfl
    obtain ⟨s, hm, -, -, he⟩ := warm_visited hv fun _ => .none
    obtain rfl : s = ⟨demoId, stock, stock, 0, 1000000, none⟩ := by simpa [demoDb] using hm
    exact ⟨_, by simp [demoSystem, demoDb, Db.sale], he⟩
  queued := rfl
  dead := rfl
  owed := rfl
  fallback := rfl
  told := rfl

/-- Ann's message is written on the second try, twice over; Bob's call finds no
broker and writes its row itself. -/
def demoRun : List Action :=
  let ann : PurchaseWriteEntry := ⟨demoId.text, "ann@example.com", 5⟩
  [.attempt 0 demoId.text "ann@example.com" 5 .answered, .publish 0 true,
    .attempt 1 demoId.text "Bob@example.com" 6 .answered, .publish 0 false, .drain [ann] .replyLost false,
    .write 0 7000 .runs, .drain [ann, ann] .runs false, .drain [ann] .runs true]

theorem gate_never_overpromises_demo :
    ∃ S', Steps step (Decided demoId) (demoSystem 2) S' ∧
      toldOf S'.answers demoId = {"ann@example.com", "bob@example.com"} ∧
      S'.db.buyers demoId ⊆ (S'.redis demoId.text).saleBuyers ∧
      ∀ entries ⊆ S'.queue, ∀ fate n, (writePurchaseBatch fate entries S'.db).1 ≠ .error (.oversold demoId n) := by
  obtain ⟨S', hrun, htold⟩ : ∃ S', Steps step (Decided demoId) (demoSystem 2) S' ∧
      toldOf S'.answers demoId = {"ann@example.com", "bob@example.com"} :=
    Steps.exists_of_run demoRun (by decide +kernel)
  have hgate := gate_never_overpromises (demoSystem_loaded 2) hrun
  exact ⟨S', hrun, htold, hgate.1, hgate.2.2.1⟩

end FlashSale
