import FlashSale.Gate
/-!
# With the Postgres-only path

A call on the Postgres-only path is checked against `remaining_stock` alone.
It does not see the units that Redis still offers, nor those it has promised
to buyers whose rows are not written yet. A row it writes on top of these is
one success too many in the end; a run in which it writes none such never
answers more successes than the sale has units.
-/

namespace FlashSale
open Lib.Escrow Lib.Runs

/-! ## Units that are spoken for -/

/-- The units the script can still hand out. -/
def liveStock (k : SaleKeys) : Nat :=
  match k.saleStock.bind tonumber, k.saleMeta with
  | some stock, some _ => stock.toNat
  | _, _ => 0

/-- The buyers told of success, or who hold a reservation not yet written. -/
def Books.promised (B : Books) : Finset String := B.told ∪ B.queued ∪ B.owed

/-- The step does not load the sale's keys, and if it writes a row for a new
buyer on the Postgres-only path, then Postgres has more units than Redis still
offers and has promised to others. `start` are the buyers the run started
with; a row they had is not what a promise made since is waiting for. -/
def Spares (u : Uuid) (start : Finset String) (S : System) (a : Action) : Prop :=
  syncs u S a = false ∧ ∀ b ∈ taker u S a, ∀ s ∈ S.db.sale u,
    (liveStock (S.redis u.text) + (((S.books u).promised \ (S.db.buyers u \ start)).erase b).card : Int) <
      s.remainingStock

instance (u : Uuid) (start : Finset String) (S : System) (a : Action) : Decidable (Spares u start S a) :=
  inferInstanceAs (Decidable (_ ∧ _))

theorem liveStock_eq {k : SaleKeys} {now stock : Int} (ho : k.Open now) (hs : k.Stocks stock) :
    liveStock k = stock.toNat := by
  obtain ⟨-, m, -, -, hm, -⟩ := ho
  unfold liveStock
  rw [hs, hm]

theorem liveStock_spend {k : SaleKeys} {now stock : Int} (ho : k.Open now) (email : String) :
    liveStock (k.spend stock email) = (stock - 1).toNat := by
  obtain ⟨-, m, -, -, hm, -⟩ := ho
  simp [liveStock, SaleKeys.spend, hm, tonumber]

theorem liveStock_remains {k' k : SaleKeys} (h : k'.Remains k) : liveStock k' ≤ liveStock k := by
  unfold liveStock
  rcases h.saleStock with hs | hs
  · simp [hs]
  · rcases h.saleMeta with hm | hm
    · simp [hm]
    · rw [hs, hm]

/-! ## The invariant -/

structure Solvent (start : Finset String) (total : Int) (B : Books) : Prop where
  begun : start ⊆ B.settled
  covered : ∃ s, B.sale = some s ∧ s.totalStock = total ∧ total - s.remainingStock = B.settled.card ∧
    Covered B.promised (B.settled \ start) (s.remainingStock - liveStock B.keys)

theorem Loaded.solvent {u : Uuid} {S : System} (h : Loaded u S) (hl : Ledger S.db) {s : PgSale}
    (hs : S.db.sale u = some s) : Solvent (S.db.buyers u) s.totalStock (S.books u) where
  begun := subset_rfl
  covered := by
    obtain ⟨s', hs', hkeys⟩ := h.warmed
    obtain rfl : s = s' := Option.some.inj (hs.symm.trans hs')
    obtain ⟨hm, rfl⟩ := Db.sale_mem hs
    have hexact := hl.exact s hm
    have hnonneg := h.ok.schema.sales_remaining_stock_check s hm
    have hlive : liveStock (S.books s.id).keys = s.remainingStock.toNat := by
      change liveStock (S.redis s.id.text) = _
      rw [hkeys]
      rfl
    refine ⟨s, hs, rfl, ?_, ?_⟩
    · rw [hexact, ← h.ok.schema.card_buyers]
      rfl
    · rw [hlive]
      simp only [Covered, Books.promised, h.told, h.queued, h.owed, Finset.empty_union, Finset.empty_sdiff,
        Finset.card_empty]
      omega

/-- A row for a buyer who is new is new since the start as well. -/
theorem sdiff_start {start settled t : Finset String} (hstart : start ⊆ settled) (hd : Disjoint t settled) :
    (settled ∪ t) \ start = settled \ start ∪ t := by
  rw [Finset.union_sdiff_distrib, (hd.mono_right hstart).sdiff_eq_left]

/-- Writing rows for buyers who were promised a unit. -/
theorem Solvent.settle {start : Finset String} {total : Int} {B B' : Books} (h : Solvent start total B)
    {t : Finset String} (ht : t ⊆ B.promised) (hd : Disjoint t B.settled)
    (hsale : B'.sale = B.sale.map (·.take t.card)) (hsettled : B'.settled = B.settled ∪ t) (hkeys : B'.keys = B.keys)
    (hpromised : B'.promised ⊆ B.promised) : Solvent start total B' := by
  obtain ⟨s, hs, htotal, hexact, hcov⟩ := h.covered
  have hcard := Finset.card_union_of_disjoint hd.symm
  refine ⟨hsettled ▸ h.begun.trans Finset.subset_union_left, s.take t.card, by rw [hsale, hs]; rfl, htotal, ?_, ?_⟩
  · rw [hsettled, hcard, PgSale.take_remainingStock]
    push_cast
    omega
  · have hd' : Disjoint t (B.settled \ start) := hd.mono_right Finset.sdiff_subset
    have := hcov.settle ht hd'
    rw [hsettled, hkeys, sdiff_start h.begun hd, PgSale.take_remainingStock]
    refine Covered.mono ?_ (Finset.sdiff_subset_sdiff hpromised subset_rfl)
    unfold Covered at this ⊢
    omega

/-- No more on offer, and no more promised. -/
theorem Solvent.ease {start : Finset String} {total : Int} {B B' : Books} (h : Solvent start total B)
    (hsale : B'.sale = B.sale) (hsettled : B'.settled = B.settled) (hlive : liveStock B'.keys ≤ liveStock B.keys)
    (hpromised : B'.promised ⊆ B.promised) : Solvent start total B' := by
  obtain ⟨s, hs, htotal, hexact, hcov⟩ := h.covered
  refine ⟨hsettled ▸ h.begun, s, hsale.trans hs, htotal, hsettled ▸ hexact, ?_⟩
  rw [hsettled]
  refine Covered.mono ?_ (Finset.sdiff_subset_sdiff hpromised subset_rfl)
  unfold Covered at hcov ⊢
  omega

/-- A unit on offer becomes a promise. -/
theorem Solvent.reserve {start : Finset String} {total : Int} {B B' : Books} (h : Solvent start total B) {b : String}
    (hsale : B'.sale = B.sale) (hsettled : B'.settled = B.settled) (hlive : liveStock B'.keys + 1 ≤ liveStock B.keys)
    (hpromised : B'.promised ⊆ insert b B.promised) : Solvent start total B' := by
  obtain ⟨s, hs, htotal, hexact, hcov⟩ := h.covered
  refine ⟨hsettled ▸ h.begun, s, hsale.trans hs, htotal, hsettled ▸ hexact, ?_⟩
  rw [hsettled]
  refine Covered.mono (Covered.promise ?_) (Finset.sdiff_subset_sdiff hpromised subset_rfl)
  have hle := Finset.card_erase_le (s := B.promised \ (B.settled \ start)) (a := b)
  unfold Covered at hcov
  omega

/-- A row is written for `b` on the Postgres-only path, with a unit to spare. -/
theorem Solvent.record {start : Finset String} {total : Int} {B B' : Books} (h : Solvent start total B) {b : String}
    (hnew : b ∉ B.settled) (hspare : ∀ s, B.sale = some s →
      (liveStock B.keys + ((B.promised \ (B.settled \ start)).erase b).card : Int) < s.remainingStock)
    (hsale : B'.sale = B.sale.map (·.take 1)) (hsettled : B'.settled = insert b B.settled) (hkeys : B'.keys = B.keys)
    (hpromised : B'.promised ⊆ insert b B.promised) : Solvent start total B' := by
  obtain ⟨s, hs, htotal, hexact, hcov⟩ := h.covered
  have hlt := hspare s hs
  have hset : insert b B.settled \ start = insert b (B.settled \ start) :=
    Finset.insert_sdiff_of_notMem _ fun hb => hnew (h.begun hb)
  refine ⟨hsettled ▸ h.begun.trans (Finset.subset_insert _ _), s.take 1, by rw [hsale, hs]; rfl, htotal, ?_, ?_⟩
  · rw [hsettled, Finset.card_insert_of_notMem hnew, PgSale.take_remainingStock]
    push_cast
    omega
  · rw [hsettled, hset, hkeys, PgSale.take_remainingStock]
    have hspent : Covered B.promised (insert b (B.settled \ start)) (s.remainingStock - liveStock B.keys - 1) :=
      Covered.spend (by omega)
    have hleft : Covered B.promised (insert b (B.settled \ start))
        (s.remainingStock - (1 : Nat) - liveStock B.keys) := by
      unfold Covered at hspent ⊢
      omega
    apply hleft.mono
    intro c hc
    obtain ⟨hcp, hcs⟩ := Finset.mem_sdiff.1 hc
    have hcb : c ≠ b := fun he => hcs (he ▸ Finset.mem_insert_self _ _)
    exact Finset.mem_sdiff.2 ⟨(Finset.mem_insert.1 (hpromised hcp)).resolve_left hcb, hcs⟩

theorem liveStock_spend_succ {k : SaleKeys} {now stock : Int} (ho : k.Open now) (hs : k.Stocks stock) (hpos : 0 < stock)
    (email : String) : liveStock (k.spend stock email) + 1 = liveStock k := by
  rw [liveStock_eq ho hs, liveStock_spend ho]
  omega

/-- Every allowed move keeps the sale solvent. -/
theorem Solvent.moves {u : Uuid} {S : System} {a : Action} {B : Books} {start : Finset String} {total : Int}
    (h : Solvent start total (S.books u)) (ha : Spares u start S a) (hm : Moves u S a B) :
    Solvent start total B := by
  obtain ⟨hsyncs, hspares⟩ := ha
  cases hm with
  | quiet howed hfallback => exact h.ease rfl rfl le_rfl (Finset.union_subset_union subset_rfl howed)
  | refer b hr => exact h.ease rfl rfl le_rfl subset_rfl
  | reserve b stock now ho hb hs hpos =>
    refine h.reserve (b := b) rfl rfl (liveStock_spend_succ ho hs hpos b).le fun c hc => ?_
    simp only [Books.promised, Finset.mem_union, Finset.mem_insert] at hc ⊢
    tauto
  | reserveLost b stock now _ ho hb hs hpos | resend b stock now _ ho hb hs hpos =>
    -- The unit is off offer, and nobody is promised it.
    exact h.ease rfl rfl (Nat.le_of_succ_le (liveStock_spend_succ ho hs hpos b).le) subset_rfl
  | publish b hb howed =>
    refine h.ease rfl rfl le_rfl fun c hc => ?_
    simp only [Books.promised, Finset.mem_union, Finset.mem_insert] at hc ⊢
    rcases hc with ((rfl | hc) | (rfl | hc)) | hc
    · exact .inr hb
    · exact .inl (.inl hc)
    · exact .inr hb
    · exact .inl (.inr hc)
    · exact .inr (howed hc)
  | write b hb howed hnew hpos htold htold' =>
    apply h.settle (t := {b}) _ (Finset.disjoint_singleton_left.2 hnew)
    · simp
    · simp [Finset.union_comm]
    · rfl
    · intro c hc
      simp only [Books.promised, Finset.mem_union] at hc ⊢
      rcases hc with (hc | hc) | hc
      · rcases Finset.mem_insert.1 (htold' hc) with rfl | hc
        · exact .inr hb
        · exact .inl (.inl hc)
      · exact .inl (.inr hc)
      · exact .inr (howed hc)
    · simp [Books.promised, hb]
  | record b htakes hb hfallback htold htold' =>
    refine h.record (taker_new htakes) (hspares b htakes) rfl rfl rfl fun c hc => ?_
    simp only [Books.promised, Finset.mem_union, Finset.mem_insert] at hc ⊢
    rcases hc with (hc | hc) | hc
    · have := Finset.mem_insert.1 (htold' hc)
      tauto
    · tauto
    · tauto
  | drain t ht hdisj hfits hqueued hmore hdead hkept =>
    apply h.settle (t := t) _ hdisj
    · rfl
    · rfl
    · rfl
    · intro c hc
      simp only [Books.promised, Finset.mem_union] at hc ⊢
      rcases hc with (hc | hc) | hc
      · exact .inl (.inl hc)
      · exact .inl (.inr (hqueued hc))
      · exact .inr hc
    · intro c hc
      simp only [Books.promised, Finset.mem_union]
      exact .inl (.inr (ht hc))
  | delete hr hk => exact h.ease rfl rfl (liveStock_remains hk) subset_rfl
  | sync hr => simp [hsyncs] at hr

/-! ## Main theorem -/

/-- What holds in every state of a run whose every step is allowed. -/
theorem solvent_inv {u : Uuid} {S S' : System} (hl : Loaded u S) (hledger : Ledger S.db) {s : PgSale}
    (hs : S.db.sale u = some s) (h : Steps step (Spares u (S.db.buyers u)) S S') :
    S'.Ok ∧ Solvent (S.db.buyers u) s.totalStock (S'.books u) :=
  h.inv (I := fun S' => S'.Ok ∧ Solvent (S.db.buyers u) s.totalStock (S'.books u))
    ⟨hl.ok, hl.solvent hledger hs⟩ fun _ _ _ hinv ha hstep =>
      ⟨hinv.1.step hstep, hinv.2.moves ha (step_moves hinv.1 hstep u)⟩

/-- As long as the Postgres-only path writes no row on units that are spoken
for, the buyers ever answered success, with the rows the sale started with, fit
in its stock. -/
theorem successes_within_stock {u : Uuid} {S S' : System} (hl : Loaded u S) (hledger : Ledger S.db)
    (h : Steps step (Spares u (S.db.buyers u)) S S') :
    ∀ s, S.db.sale u = some s →
      ((toldOf S'.answers u).card + (S.db.purchasesOf u).length : Int) ≤ s.totalStock := by
  intro s hs
  obtain ⟨-, hbegun, s', hs', htotal, hexact, hcov⟩ := solvent_inv hl hledger hs h
  have hbound := hcov.bound (Finset.empty_subset _) (Finset.disjoint_empty_right _)
  have hstart := Finset.card_sdiff_add_card_eq_card hbegun
  have htold : (toldOf S'.answers u).card ≤ (S'.books u).promised.card := by
    apply Finset.card_le_card
    intro b hb
    simp only [Books.promised, Finset.mem_union]
    exact .inl (.inl hb)
  rw [← hl.ok.schema.card_buyers]
  simp only [Finset.card_empty] at hbound
  omega

/-- Ann goes through the gate. Redis is flushed; Bob goes through Postgres,
which has a unit for him beside Ann's. -/
theorem successes_within_stock_demo :
    ∃ S', Steps step (Spares demoId ∅) (demoSystem 2) S' ∧
      toldOf S'.answers demoId = {"ann@example.com", "bob@example.com"} ∧
      ((toldOf S'.answers demoId).card + 0 : Int) ≤ 2 := by
  obtain ⟨S', hrun, htold⟩ : ∃ S', Steps step (Spares demoId ∅) (demoSystem 2) S' ∧
      toldOf S'.answers demoId = {"ann@example.com", "bob@example.com"} :=
    Steps.exists_of_run [.attempt 0 demoId.text "ann@example.com" 5 .answered, .publish 0 true,
      .flush [(demoId.text, .saleStock), (demoId.text, .saleMeta), (demoId.text, .saleBuyers)],
      .attempt 0 demoId.text "bob@example.com" 6 .answered, .lookup 0 true 6, .write 0 6000 .runs] (by decide +kernel)
  exact ⟨S', hrun, htold, successes_within_stock (demoSystem_loaded 2) (demoDb_ledger 2) hrun
    ⟨demoId, 2, 2, 0, 1000000, none⟩ (by decide +kernel)⟩

/-- The only unit, twice: Ann is told of success by the gate, and before the
worker writes her row Redis is flushed and Bob is told of success by Postgres. -/
theorem flush_oversells :
    Loaded demoId (demoSystem 1) ∧ Ledger (demoSystem 1).db ∧
      ∃ S', Steps step (fun S a => syncs demoId S a = false) (demoSystem 1) S' ∧
        toldOf S'.answers demoId = {"ann@example.com", "bob@example.com"} ∧
        (S'.db.sale demoId).map (·.totalStock) = some 1 :=
  ⟨demoSystem_loaded 1, demoDb_ledger 1,
    Steps.exists_of_run [.attempt 0 demoId.text "ann@example.com" 5 .answered, .publish 0 true,
      .flush [(demoId.text, .saleStock), (demoId.text, .saleMeta), (demoId.text, .saleBuyers)],
      .attempt 0 demoId.text "bob@example.com" 6 .answered, .lookup 0 true 6, .write 0 6000 .runs] (by decide +kernel)⟩

end FlashSale
