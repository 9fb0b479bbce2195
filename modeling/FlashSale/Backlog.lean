import FlashSale.Gate
/-!
# Warming a live sale

The warm script reads a sale's row and its buyers at two moments, and then
overwrites the sale's keys with what it read. It cannot see the queue. What it
loads is right exactly when nothing was committed for the sale since its row
was read and no message of the sale waits for its row.
-/

namespace FlashSale
open Lib.Runs

/-! ## What the script has read -/

/-- The row is what the script read of a sale that still exists, and has sold
since if anything. -/
def ReadOf (db : Db) (row : SaleRow) : Prop :=
  ∃ s, db.sale (.ofText row.id) = some s ∧ s.totalStock = row.totalStock ∧ s.remainingStock ≤ row.remainingStock

/-- The buyers an email list names. -/
def namesOf (emails : List String) : Finset String := (emails.map normalizeEmail).toFinset

structure Readings (S : System) : Prop where
  rows : ∀ row ∈ S.warm.rows, ReadOf S.db row
  reading : ∀ row emails, S.warm.reading = some (row, emails) → ReadOf S.db row ∧
    namesOf emails ⊆ S.db.buyers (.ofText row.id) ∧ row.totalStock - row.remainingStock ≤ (namesOf emails).card

theorem namesOf_buyerEmails (db : Db) (id : Uuid) : namesOf (db.buyerEmails id) = db.buyers id := by
  simp [namesOf, Db.buyerEmails, Db.buyers, List.map_map, Function.comp_def]

theorem ReadOf.sold {db db' : Db} {new : List PgPurchase} {row : SaleRow} (h : ReadOf db row)
    (hsold : Sold db db' new) : ReadOf db' row := by
  obtain ⟨s, hs, htotal, hle⟩ := h
  refine ⟨s.take _, by rw [hsold.sale, hs]; rfl, htotal, ?_⟩
  simp only [PgSale.take_remainingStock]
  omega

theorem ReadOf.now {db : Db} (hs : db.Schema) {now : Int} {row : SaleRow} (h : row ∈ db.warmRows now) :
    ReadOf db row := by
  obtain ⟨s, hm, rfl⟩ := List.mem_map.1 h
  refine ⟨s, ?_, rfl, le_rfl⟩
  change db.sale (.ofText s.id.text) = some s
  rw [Uuid.ofText_text]
  exact hs.sale_of_mem (List.mem_filter.1 hm).1

/-- A sale has a buyer for each unit gone. -/
theorem card_buyers_eq {db : Db} (hs : db.Schema) (hl : Ledger db) {id : Uuid} {s : PgSale} (h : db.sale id = some s) :
    s.totalStock - s.remainingStock = (db.buyers id).card := by
  obtain ⟨hm, rfl⟩ := Db.sale_mem h
  rw [hs.card_buyers]
  exact hl.exact s hm

/-- Every step keeps what the script has read true in this sense. -/
theorem Readings.step {S S' : System} {a : Action} (h : Readings S) (hok : S.Ok) (hl : Ledger S.db)
    (hstep : FlashSale.step S a = some S') : Readings S' := by
  obtain ⟨⟨new, hsold⟩, -, hwarm⟩ := step_frame hok hstep
  have hschema := hsold.schema hok.schema
  have hread : ∀ row emails, S.warm.reading = some (row, emails) → ReadOf S'.db row ∧
      namesOf emails ⊆ S'.db.buyers (.ofText row.id) ∧ row.totalStock - row.remainingStock ≤ (namesOf emails).card := by
    intro row emails hr
    obtain ⟨h1, h2, h3⟩ := h.reading row emails hr
    refine ⟨h1.sold hsold, h2.trans ?_, h3⟩
    rw [hsold.buyers]
    exact Finset.subset_union_left
  -- What was read stays read: sales only lower the stock and add buyers.
  constructor
  · intro row hrow
    rcases hwarm with he | ⟨now, he⟩ | ⟨row', he, -⟩ | he
    · exact (h.rows row (he ▸ hrow)).sold hsold
    · rw [he] at hrow
      exact .now hschema hrow
    · exact (h.rows row (by rw [he]; exact List.mem_cons_of_mem _ hrow)).sold hsold
    · exact (h.rows row (by rwa [he] at hrow)).sold hsold
  · intro row emails hreading
    rcases hwarm with he | ⟨now, he⟩ | ⟨row', he, he'⟩ | he
    · exact hread row emails (he ▸ hreading)
    · simp [he] at hreading
    · -- The buyers were read just now.
      obtain ⟨rfl, rfl⟩ := Prod.mk.inj (Option.some.inj (he'.symm.trans hreading))
      have hrow := (h.rows row' (by rw [he]; exact List.mem_cons_self)).sold hsold
      refine ⟨hrow, by rw [namesOf_buyerEmails], ?_⟩
      obtain ⟨s, hs, htotal, hle⟩ := hrow
      have := card_buyers_eq hschema (hsold.ledger hl) hs
      rw [namesOf_buyerEmails]
      omega
    · simp [he] at hreading

/-! ## Right after a sync -/

/-- Redis offers no unit that Postgres needs for a message it has yet to write,
and records everyone with a row or a message. -/
def SyncSafe (u : Uuid) (S : System) : Prop :=
  (∃ s stock, S.db.sale u = some s ∧ (S.redis u.text).Stocks stock ∧
    stock + ((mailOf S.queue u \ S.db.buyers u).card : Int) ≤ s.remainingStock) ∧
  S.db.buyers u ∪ mailOf S.queue u ⊆ (S.redis u.text).saleBuyers

theorem reaches_inv {S S' : System} (hok : S.Ok) (hl : Ledger S.db) (hidle : S.warm = .idle) (h : Reaches S S') :
    S'.Ok ∧ Ledger S'.db ∧ Readings S' := by
  refine h.inv (I := fun S' => S'.Ok ∧ Ledger S'.db ∧ Readings S') ⟨hok, hl, ?_⟩ ?_
  · constructor <;> simp [hidle, WarmScript.idle]
  · rintro S a S' ⟨hok, hl, hr⟩ - hstep
    obtain ⟨⟨new, hsold⟩, -, -⟩ := step_frame hok hstep
    exact ⟨hok.step hstep, hsold.ledger hl, hr.step hok hl hstep⟩

/-- In any state the system can reach, a sync leaves the sale's keys right
exactly when nothing was sold since its row was read and no message of it
waits for its row. -/
theorem sync_safe_iff {S₀ S S' : System} (hok : S₀.Ok) (hl : Ledger S₀.db) (hidle : S₀.warm = .idle)
    (h : Reaches S₀ S) {row : SaleRow} {emails : List String} (hr : S.warm.reading = some (row, emails))
    (hstep : step S .warmSync = some S') :
    SyncSafe (.ofText row.id) S' ↔
      (∀ s, S.db.sale (.ofText row.id) = some s → s.remainingStock = row.remainingStock) ∧
        mailOf S.queue (.ofText row.id) ⊆ S.db.buyers (.ofText row.id) := by
  obtain ⟨hok, hl, hreadings⟩ := reaches_inv hok hl hidle h
  obtain ⟨⟨s, hs, htotal, hle⟩, hnames, hcard⟩ := hreadings.reading row emails hr
  have hexact := card_buyers_eq hok.schema hl hs
  have hid : (Uuid.ofText row.id).text = row.id := hok.reading row emails hr
  simp only [step, hr] at hstep
  obtain rfl := Option.some.inj hstep
  have hkeys : syncSale S.redis row.toSync emails row.id = syncedKeys row.toSync emails :=
    Function.update_self _ _ _
  have hbuyers : (syncedKeys row.toSync emails).saleBuyers = namesOf emails := rfl
  unfold SyncSafe
  simp only [hid, hkeys, hbuyers]
  constructor
  · rintro ⟨⟨s', stock, hs', hstock, hfits⟩, -⟩
    obtain rfl : s = s' := Option.some.inj (hs.symm.trans hs')
    obtain rfl : row.remainingStock = stock := Option.some.inj hstock
    refine ⟨fun s' hs' => ?_, ?_⟩
    · obtain rfl : s = s' := Option.some.inj (hs.symm.trans hs')
      omega
    · rw [← Finset.sdiff_eq_empty_iff_subset, ← Finset.card_eq_zero]
      omega
  · rintro ⟨hsame, hmail⟩
    have hrem := hsame s hs
    have hall : namesOf emails = S.db.buyers (.ofText row.id) := by
      apply Finset.eq_of_subset_of_card_le hnames
      omega
    refine ⟨⟨s, row.remainingStock, hs, rfl, ?_⟩, ?_⟩
    · rw [Finset.sdiff_eq_empty_iff_subset.2 hmail, Finset.card_empty]
      omega
    · rw [hall]
      exact Finset.union_subset subset_rfl hmail

/-- Ann's row is written before the script starts: the sync is right. -/
theorem sync_safe_demo :
    ∃ S S', Reaches (demoSystem 2) S ∧ step S .warmSync = some S' ∧ S'.db.buyers demoId = {"ann@example.com"} ∧
      SyncSafe demoId S' := by
  obtain ⟨S, hrun, hstep, hreading, hmail⟩ : ∃ S, Reaches (demoSystem 2) S ∧
      (step S .warmSync).any (fun S' => S'.db.buyers demoId = {"ann@example.com"}) = true ∧
      S.warm.reading = some (⟨demoId.text, 2, 1, 0, 1000, none⟩, ["ann@example.com"]) ∧
      (∀ s ∈ S.db.sale demoId, s.remainingStock = 1) ∧ mailOf S.queue demoId ⊆ S.db.buyers demoId :=
    Steps.exists_of_run [.attempt 0 demoId.text "ann@example.com" 5 .answered, .publish 0 true,
      .drain [⟨demoId.text, "ann@example.com", 5⟩] .runs true, .warmRows 6, .warmBuyers] (by decide +kernel)
  cases hs : step S .warmSync with
  | none => simp [hs] at hstep
  | some S' =>
    refine ⟨S, S', hrun, hs, by simpa [hs] using hstep, ?_⟩
    have := (sync_safe_iff (demoSystem_loaded 2).ok (demoDb_ledger 2) rfl hrun hreading hs).2
    rw [Uuid.ofText_text] at this
    exact this hmail

/-- Ann's message is still queued when the script runs: it offers her unit, the
only one, again, and forgets her. -/
theorem warm_reoffers_queued_unit :
    ∃ S S', Reaches (demoSystem 1) S ∧ step S .warmSync = some S' ∧
      (S'.redis demoId.text).saleStock = some (.num 1) ∧ (S'.db.sale demoId).map (·.remainingStock) = some 1 ∧
      mailOf S'.queue demoId = {"ann@example.com"} ∧ ¬ SyncSafe demoId S' := by
  obtain ⟨S, hrun, hstep⟩ : ∃ S, Reaches (demoSystem 1) S ∧
      (step S .warmSync).any (fun S' => (S'.redis demoId.text).saleStock = some (.num 1) ∧
        (S'.db.sale demoId).map (·.remainingStock) = some 1 ∧ mailOf S'.queue demoId = {"ann@example.com"} ∧
        (S'.redis demoId.text).saleBuyers = ∅) = true :=
    Steps.exists_of_run [.attempt 0 demoId.text "ann@example.com" 5 .answered, .publish 0 true, .warmRows 6,
      .warmBuyers] (by decide +kernel)
  cases hs : step S .warmSync with
  | none => simp [hs] at hstep
  | some S' =>
    obtain ⟨hstock, hrem, hmail, hbuyers⟩ := by simpa [hs] using hstep
    refine ⟨S, S', hrun, hs, hstock, by simpa using hrem, hmail, fun hsafe => ?_⟩
    have := hsafe.2
    rw [hmail, hbuyers] at this
    simp at this

end FlashSale
