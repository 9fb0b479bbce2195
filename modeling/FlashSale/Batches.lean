import Mathlib.Algebra.GroupWithZero.Nat
import FlashSale.Ledger
import FlashSale.Lib.Runs
/-!
# Batches

When a batch commits, and what it leaves. The order of its entries, their
repeats and the way they are split into batches do not matter: a batch that
commits commits in every such form, to the same ledger, and so do its entries
one by one. What carries this is `Grown`: a database some of the batch's pairs
are already in has fewer units, but also fewer pairs to come.
-/

namespace FlashSale
open Lib.Keyed Lib.Runs

/-! ## Pairs -/

/-- The pairs of sale and case-folded buyer that `purchases` holds. -/
def Db.pairs (db : Db) : Finset (Uuid × String) := (db.purchases.map (·.key)).toFinset

def pairsOf (entries : List PurchaseWriteEntry) : Finset (Uuid × String) := (entries.map (·.row.key)).toFinset

/-- The pairs of `entries` that `purchases` does not hold yet. -/
def newPairs (db : Db) (entries : List PurchaseWriteEntry) : Finset (Uuid × String) := pairsOf entries \ db.pairs

def ofSale (pairs : Finset (Uuid × String)) (id : Uuid) : Finset (Uuid × String) := pairs.filter (·.1 = id)

theorem Db.mem_pairs {db : Db} {k : Uuid × String} : k ∈ db.pairs ↔ k ∈ db.purchases.map (·.key) := List.mem_toFinset

theorem mem_pairsOf {entries : List PurchaseWriteEntry} {k : Uuid × String} :
    k ∈ pairsOf entries ↔ ∃ e ∈ entries, e.row.key = k := by
  simp [pairsOf]

theorem pairsOf_append (a b : List PurchaseWriteEntry) : pairsOf (a ++ b) = pairsOf a ∪ pairsOf b := by
  simp [pairsOf, List.toFinset_append]

theorem pairsOf_congr {a b : List PurchaseWriteEntry} (h : ∀ e, e ∈ a ↔ e ∈ b) : pairsOf a = pairsOf b := by
  ext k
  simp only [mem_pairsOf, h]

/-- The keys of the rows a batch inserts are its new pairs. -/
theorem newRows_pairs (db : Db) (entries : List PurchaseWriteEntry) :
    ((newRows PgPurchase.key db.purchases (entries.map (·.row))).map (·.key)).toFinset = newPairs db entries := by
  obtain ⟨-, hfresh⟩ := newRows_fresh PgPurchase.key db.purchases (entries.map (·.row))
  ext k
  rw [List.mem_toFinset, newPairs, Finset.mem_sdiff, mem_pairsOf, Db.mem_pairs]
  constructor
  · intro hk
    obtain ⟨r, hr, rfl⟩ := List.mem_map.1 hk
    obtain ⟨e, he, rfl⟩ := List.mem_map.1 (newRows_subset PgPurchase.key db.purchases _ hr)
    exact ⟨⟨e, he, rfl⟩, hfresh _ hr⟩
  · rintro ⟨⟨e, he, rfl⟩, hk⟩
    exact (key_mem_newRows PgPurchase.key db.purchases _ (List.mem_map_of_mem he)).resolve_left hk

/-- Rows with different keys are as many as their pairs, sale by sale. -/
theorem card_ofSale {rows : List PgPurchase} (h : (rows.map (·.key)).Nodup) (id : Uuid) :
    (ofSale (rows.map (·.key)).toFinset id).card = unitsOf rows id := by
  induction rows with
  | nil => rfl
  | cons r rows ih =>
    obtain ⟨hr, hrows⟩ := List.nodup_cons.1 h
    have hnew : r.key ∉ ofSale (rows.map (·.key)).toFinset id := by
      intro hm
      exact hr (List.mem_toFinset.1 (Finset.mem_filter.1 hm).1)
    have hid : r.key.1 = r.saleId := rfl
    unfold ofSale at ih hnew ⊢
    rw [unitsOf, List.countP_cons, ← unitsOf, ← ih hrows, List.map_cons, List.toFinset_cons, Finset.filter_insert]
    by_cases he : r.saleId = id
    · rw [if_pos (hid.trans he), Finset.card_insert_of_notMem hnew]
      simp [he]
    · rw [if_neg (by rwa [hid])]
      simp [he]

theorem ofSale_mono {a b : Finset (Uuid × String)} (h : a ⊆ b) (id : Uuid) : ofSale a id ⊆ ofSale b id :=
  Finset.filter_subset_filter _ h

/-! ## When a batch is refused -/

/-- An entry's sale does not exist, an entry is outside its sale's window, or a
sale has fewer units left than the batch has new pairs for it. -/
def Refused (db : Db) (entries : List PurchaseWriteEntry) : Prop :=
  (∃ e ∈ entries, ∀ s ∈ db.sales, s.id ≠ .ofText e.saleId) ∨
  (∃ e ∈ entries, ∃ s ∈ db.sales, s.id = .ofText e.saleId ∧
    (e.reservedAt * 1000 < s.startsAt ∨ s.endsAt < e.reservedAt * 1000)) ∨
  ∃ s ∈ db.sales, s.remainingStock < (ofSale (newPairs db entries) s.id).card

theorem outsideSalePeriod_iff {db : Db} (hs : db.Schema) {row : PgPurchase} :
    outsideSalePeriod db row = true ↔
      ∃ s ∈ db.sales, s.id = row.saleId ∧ (row.purchasedAt < s.startsAt ∨ s.endsAt < row.purchasedAt) := by
  unfold outsideSalePeriod
  constructor
  · intro h
    cases hsale : db.sale row.saleId with
    | none => simp [hsale] at h
    | some s =>
      obtain ⟨hm, hid⟩ := Db.sale_mem hsale
      exact ⟨s, hm, hid, by simpa [hsale] using h⟩
  · rintro ⟨s, hm, hid, h⟩
    have hsale := hs.sale_of_mem hm
    rw [hid] at hsale
    simpa [hsale] using h

/-- A batch that throws was refused. -/
theorem writePurchaseBatchTx_refused {db : Db} (hs : db.Schema) {entries : List PurchaseWriteEntry} {e : JsError}
    (h : writePurchaseBatchTx entries db = .error e) : Refused db entries := by
  unfold writePurchaseBatchTx at h
  rw [insertOnConflictDoNothing_eq] at h
  split at h
  · rename_i hany
    -- The trigger raised for some row, inserted or not.
    obtain ⟨row, hrow, hout⟩ := List.any_eq_true.1 hany
    obtain ⟨entry, hentry, rfl⟩ := List.mem_map.1 hrow
    exact .inr (.inl ⟨entry, hentry, (outsideSalePeriod_iff hs).1 hout⟩)
  · split at h
    · set new := newRows PgPurchase.key db.purchases (entries.map (·.row)) with hnew
      simp only [bind, Except.bind] at h
      cases hd : decrementAll { db with purchases := db.purchases ++ new } (countBySale new) with
      | ok db₂ => simp [hd] at h
      | error e' =>
        obtain ⟨id, n, hm, -, hlt⟩ := decrementAll_error (by exact hs.sales_pkey) (countBySale_keys_nodup _) hd
        obtain ⟨rfl, hpos⟩ := mem_countBySale.1 hm
        have hcard := card_ofSale (newRows_fresh PgPurchase.key db.purchases (entries.map (·.row))).1 id
        rw [newRows_pairs, ← hnew] at hcard
        -- The sale of the count that failed is one of the table's: the foreign key held.
        rename_i hknown
        obtain ⟨r, hr, hid⟩ := List.countP_pos_iff.1 hpos
        obtain ⟨s, hsale⟩ := Option.isSome_iff_exists.1 (List.all_eq_true.1 hknown r hr)
        obtain ⟨hms, hsid⟩ := Db.sale_mem hsale
        have hsid : s.id = id := hsid.trans (by simpa using hid)
        refine .inr (.inr ⟨s, hms, ?_⟩)
        rw [hsid, hcard]
        exact hlt s hms hsid
    · rename_i hknown
      -- The foreign key failed for an inserted row.
      simp only [List.all_eq_true, not_forall] at hknown
      obtain ⟨r, hr, hnone⟩ := hknown
      obtain ⟨entry, hentry, rfl⟩ := List.mem_map.1 (newRows_subset PgPurchase.key db.purchases _ hr)
      refine .inl ⟨entry, hentry, Db.sale_eq_none.1 ?_⟩
      simpa [PurchaseWriteEntry.row] using hnone

/-- A batch that commits was not refused. -/
theorem writePurchaseBatchTx_not_refused {db db' : Db} (hs : db.Schema) {entries : List PurchaseWriteEntry} {n : Nat}
    (h : writePurchaseBatchTx entries db = .ok (n, db')) : ¬ Refused db entries := by
  obtain ⟨hsold, -⟩ := writePurchaseBatchTx_sold hs h
  have hin : ∀ e ∈ entries, outsideSalePeriod db e.row = false := by
    intro e he
    unfold writePurchaseBatchTx at h
    rw [insertOnConflictDoNothing_eq] at h
    split at h
    · simp [bind, Except.bind] at h
    · rename_i hany
      simp only [Bool.not_eq_true, List.any_eq_false] at hany
      simpa using hany _ (List.mem_map_of_mem he)
  rintro (⟨e, he, hnone⟩ | ⟨e, he, s, hm, hid, hout⟩ | ⟨s, hm, hlt⟩)
  · -- The entry's pair is in the table or was inserted: its sale is known either way.
    have hrow : e.row ∈ entries.map (·.row) := List.mem_map_of_mem he
    rcases key_mem_newRows PgPurchase.key db.purchases _ hrow with hk | hk
    · obtain ⟨r, hr, hkey⟩ := List.mem_map.1 hk
      obtain ⟨s, hm, hid⟩ := hs.purchases_sale_id_fk r hr
      exact hnone s hm (hid.trans (congrArg Prod.fst hkey))
    · obtain ⟨r, hr, hkey⟩ := List.mem_map.1 hk
      obtain ⟨s, hm, hid⟩ := hsold.known r hr
      exact hnone s hm (hid.trans (congrArg Prod.fst hkey))
  · have hrow : outsideSalePeriod db e.row = true := (outsideSalePeriod_iff hs).2 ⟨s, hm, hid, hout⟩
    rw [hin e he] at hrow
    cases hrow
  · have habs := hsold.absorbs s hm
    rw [← card_ofSale hsold.once, newRows_pairs] at habs
    omega

/-- A batch commits, with the count of its new pairs, unless it is refused. -/
theorem writePurchaseBatch_commits {db : Db} (hs : db.Schema) {entries : List PurchaseWriteEntry}
    (h : ¬ Refused db entries) :
    ∃ db', writePurchaseBatch .runs entries db = (.ok (newPairs db entries).card, db') ∧
      Sold db db' (newRows PgPurchase.key db.purchases (entries.map (·.row))) := by
  unfold writePurchaseBatch
  by_cases hnil : entries = []
  · subst hnil
    exact ⟨db, by simp [newPairs, pairsOf], by simpa using hs.sold_nothing⟩
  · rw [if_neg hnil]
    cases htx : writePurchaseBatchTx entries db with
    | error e => exact absurd (writePurchaseBatchTx_refused hs htx) h
    | ok p =>
      obtain ⟨n, db'⟩ := p
      obtain ⟨hsold, rfl⟩ := writePurchaseBatchTx_sold hs htx
      refine ⟨db', ?_, hsold⟩
      have hcard : (newPairs db entries).card =
          (newRows PgPurchase.key db.purchases (entries.map (·.row))).length := by
        rw [← newRows_pairs, List.toFinset_card_of_nodup hsold.once, List.length_map]
      simp [transaction, htx, hcard]

theorem writePurchaseBatch_throws {db : Db} (hs : db.Schema) {entries : List PurchaseWriteEntry}
    (h : Refused db entries) : ∃ e, writePurchaseBatch .runs entries db = (.error e, db) := by
  unfold writePurchaseBatch
  by_cases hnil : entries = []
  · subst hnil
    exfalso
    rcases h with ⟨e, he, -⟩ | ⟨e, he, -⟩ | ⟨s, hm, hlt⟩
    · cases he
    · cases he
    · have := hs.sales_remaining_stock_check s hm
      simp [newPairs, pairsOf, ofSale] at hlt
      omega
  · rw [if_neg hnil]
    cases htx : writePurchaseBatchTx entries db with
    | error e => exact ⟨e, by simp [transaction, htx]⟩
    | ok p => exact absurd h (writePurchaseBatchTx_not_refused hs htx)

/-- A batch throws exactly when it is refused, and then changes nothing;
otherwise it adds its new pairs, each once, takes one unit for each from its
sale, leaves the other sales alone and returns how many there were. -/
theorem writePurchaseBatch_exact {db : Db} (hs : db.Schema) (entries : List PurchaseWriteEntry) :
    ((∃ e, (writePurchaseBatch .runs entries db).1 = .error e) ↔ Refused db entries) ∧
    (∀ e, (writePurchaseBatch .runs entries db).1 = .error e → (writePurchaseBatch .runs entries db).2 = db) ∧
    ∀ n, (writePurchaseBatch .runs entries db).1 = .ok n →
      (∃ rows, (writePurchaseBatch .runs entries db).2.purchases = db.purchases ++ rows ∧
        (rows.map (·.key)).Nodup ∧ (rows.map (·.key)).toFinset = newPairs db entries) ∧
      (writePurchaseBatch .runs entries db).2.sales =
        db.sales.map (fun s => s.take (ofSale (newPairs db entries) s.id).card) ∧
      (∀ s ∈ db.sales, ofSale (newPairs db entries) s.id = ∅ → s ∈ (writePurchaseBatch .runs entries db).2.sales) ∧
      n = (newPairs db entries).card := by
  by_cases hr : Refused db entries
  · obtain ⟨e, he⟩ := writePurchaseBatch_throws hs hr
    simp [he, hr]
  · obtain ⟨db', hdb', hsold⟩ := writePurchaseBatch_commits hs hr
    have hsales : db'.sales = db.sales.map (fun s => s.take (ofSale (newPairs db entries) s.id).card) := by
      rw [hsold.sales]
      refine List.map_congr_left fun s _ => ?_
      rw [← card_ofSale hsold.once, newRows_pairs]
    rw [hdb']
    refine ⟨by simp [hr], by simp, ?_⟩
    rintro n hn
    obtain rfl := Except.ok.inj hn
    refine ⟨⟨_, hsold.purchases, hsold.once, newRows_pairs db entries⟩, hsales, ?_, rfl⟩
    intro s hm hempty
    rw [hsales]
    exact List.mem_map.2 ⟨s, hm, by simp [hempty]⟩

/-- Two spellings of one buyer, and a second buyer. -/
def demoEntries : List PurchaseWriteEntry :=
  [⟨demoId.text, "Ann@x.io", 0⟩, ⟨demoId.text, "bob@x.io", 1000⟩, ⟨demoId.text, "ann@x.io", 5⟩]

theorem demoEntries_written : (writePurchaseBatch .runs demoEntries (demoDb 5)).1 = .ok 2 := by decide +kernel

theorem writePurchaseBatch_exact_demo : 2 = (newPairs (demoDb 5) demoEntries).card :=
  ((writePurchaseBatch_exact (demoDb_schema 5) demoEntries).2.2 2 demoEntries_written).2.2.2

/-! ## Some of the pairs at a time -/

/-- `db'` is `db` with more pairs, each of which took one unit from its sale. -/
structure Grown (db db' : Db) : Prop where
  schema : db'.Schema
  pairs : db.pairs ⊆ db'.pairs
  sales : db'.sales = db.sales.map fun s => s.take (ofSale (db'.pairs \ db.pairs) s.id).card

theorem Db.Schema.grown {db : Db} (hs : db.Schema) : Grown db db where
  schema := hs
  pairs := Finset.Subset.refl _
  sales := by simp [ofSale]

theorem Sold.pairs {db db' : Db} {new : List PgPurchase} (h : Sold db db' new) :
    db'.pairs = db.pairs ∪ (new.map (·.key)).toFinset := by
  simp [Db.pairs, h.purchases, List.toFinset_append]

theorem Sold.pairs_sdiff {db db' : Db} {new : List PgPurchase} (h : Sold db db' new) :
    db'.pairs \ db.pairs = (new.map (·.key)).toFinset := by
  rw [h.pairs]
  refine Finset.union_sdiff_cancel_left (Finset.disjoint_left.2 fun k hk hn => ?_)
  obtain ⟨r, hr, rfl⟩ := List.mem_map.1 (List.mem_toFinset.1 hn)
  exact h.fresh r hr (Db.mem_pairs.1 hk)

theorem Sold.grown {db db' : Db} {new : List PgPurchase} (h : Sold db db' new) (hs : db.Schema) : Grown db db' where
  schema := h.schema hs
  pairs := by
    rw [h.pairs]
    exact Finset.subset_union_left
  sales := by
    rw [h.sales]
    refine List.map_congr_left fun s _ => ?_
    rw [h.pairs_sdiff, card_ofSale h.once]

/-- The new pairs of two stretches are apart, so what they take adds up. -/
theorem card_ofSale_trans {a b c : Finset (Uuid × String)} (hab : a ⊆ b) (hbc : b ⊆ c) (id : Uuid) :
    (ofSale (c \ a) id).card = (ofSale (b \ a) id).card + (ofSale (c \ b) id).card := by
  have hsplit : c \ a = (b \ a) ∪ (c \ b) := by
    ext k
    simp only [Finset.mem_union, Finset.mem_sdiff]
    constructor
    · rintro ⟨hc, ha⟩
      by_cases hb : k ∈ b
      · exact .inl ⟨hb, ha⟩
      · exact .inr ⟨hc, hb⟩
    · rintro (⟨hb, ha⟩ | ⟨hc, hb⟩)
      · exact ⟨hbc hb, ha⟩
      · exact ⟨hc, fun ha => hb (hab ha)⟩
  have hdis : Disjoint (ofSale (b \ a) id) (ofSale (c \ b) id) := by
    refine Finset.disjoint_filter_filter (Finset.disjoint_left.2 fun k hk hk' => ?_)
    exact (Finset.mem_sdiff.1 hk').2 (Finset.mem_sdiff.1 hk).1
  rw [← Finset.card_union_of_disjoint hdis, hsplit, ofSale, Finset.filter_union, ofSale, ofSale]

theorem Grown.trans {a b c : Db} (hab : Grown a b) (hbc : Grown b c) : Grown a c where
  schema := hbc.schema
  pairs := hab.pairs.trans hbc.pairs
  sales := by
    rw [hbc.sales, hab.sales, List.map_map]
    refine List.map_congr_left fun s _ => ?_
    simp only [Function.comp, PgSale.take, card_ofSale_trans hab.pairs hbc.pairs s.id, PgSale.mk.injEq, true_and,
      and_true, Int.natCast_add]
    omega

/-- The number of units and the windows a sale has after some pairs. -/
theorem Grown.mem_sales {db d : Db} (h : Grown db d) {s : PgSale} (hs : s ∈ d.sales) :
    ∃ s₀ ∈ db.sales, s = s₀.take (ofSale (d.pairs \ db.pairs) s₀.id).card := by
  rw [h.sales] at hs
  obtain ⟨s₀, hm, rfl⟩ := List.mem_map.1 hs
  exact ⟨s₀, hm, rfl⟩

/-- What a batch may do it may still do when some of its own pairs, and no
others, came first; and so may any part of it. -/
theorem Grown.not_refused {db d : Db} (h : Grown db d) {all part : List PurchaseWriteEntry}
    (hall : ¬ Refused db all) (hd : d.pairs ⊆ db.pairs ∪ pairsOf all) (hpart : part ⊆ all) : ¬ Refused d part := by
  rintro (⟨e, he, hnone⟩ | ⟨e, he, s, hm, hid, hout⟩ | ⟨s, hm, hlt⟩)
  · refine hall (.inl ⟨e, hpart he, fun s hm => ?_⟩)
    exact hnone (s.take _) (by rw [h.sales]; exact List.mem_map_of_mem hm)
  · obtain ⟨s₀, hm₀, rfl⟩ := h.mem_sales hm
    exact hall (.inr (.inl ⟨e, hpart he, s₀, hm₀, hid, hout⟩))
  · obtain ⟨s₀, hm₀, rfl⟩ := h.mem_sales hm
    refine hall (.inr (.inr ⟨s₀, hm₀, ?_⟩))
    simp only [PgSale.take_remainingStock, PgSale.take_id] at hlt
    -- The pairs that came first and the part's new ones are all among the batch's new ones.
    have hsub : newPairs d part ⊆ (db.pairs ∪ pairsOf all) \ d.pairs := by
      intro k hk
      obtain ⟨hk, hnew⟩ := Finset.mem_sdiff.1 hk
      obtain ⟨e, he, rfl⟩ := mem_pairsOf.1 hk
      exact Finset.mem_sdiff.2 ⟨Finset.mem_union_right _ (mem_pairsOf.2 ⟨e, hpart he, rfl⟩), hnew⟩
    have hcard := card_ofSale_trans h.pairs hd s₀.id
    rw [Finset.union_sdiff_left] at hcard
    have hle := Finset.card_le_card (ofSale_mono hsub s₀.id)
    change _ < ((ofSale (pairsOf all \ db.pairs) s₀.id).card : Int)
    omega

/-- Databases grown by the same pairs have the same sales. -/
theorem Grown.sales_eq {db d d' : Db} (h : Grown db d) (h' : Grown db d') (hp : d.pairs = d'.pairs) :
    d.sales = d'.sales := by
  rw [h.sales, h'.sales, hp]

/-! ## Batch after batch -/

/-- Calls of `writePurchaseBatch`, one after the other. -/
def writeBatches (batches : List (List PurchaseWriteEntry)) (db : Db) : List (Except JsError Nat) × Db :=
  answers (fun db entries => writePurchaseBatch .runs entries db) db batches

/-- Calls of `writePurchase`, each with the database clock it runs at. -/
def writeEach (calls : List (Int × PurchaseWriteEntry)) (db : Db) : List (Except JsError PurchaseResult) × Db :=
  answers (fun db c => writePurchase .runs c.1 c.2.saleId c.2.email db) db calls

/-- A batch of entries of `all`, written where only pairs of `all` came first. -/
theorem Grown.writePurchaseBatch {db d : Db} (h : Grown db d) {all part : List PurchaseWriteEntry}
    (hall : ¬ Refused db all) (hd : d.pairs ⊆ db.pairs ∪ pairsOf all) (hpart : part ⊆ all) :
    ∃ d', writePurchaseBatch .runs part d = (.ok (newPairs d part).card, d') ∧ Grown db d' ∧
      d'.pairs = d.pairs ∪ pairsOf part := by
  obtain ⟨d', hd', hsold⟩ := writePurchaseBatch_commits h.schema (h.not_refused hall hd hpart)
  refine ⟨d', hd', h.trans (hsold.grown h.schema), ?_⟩
  rw [hsold.pairs, newRows_pairs, newPairs, Finset.union_sdiff_self_eq_union]

theorem pairsOf_subset {part all : List PurchaseWriteEntry} (h : part ⊆ all) : pairsOf part ⊆ pairsOf all := by
  intro k hk
  obtain ⟨e, he, rfl⟩ := mem_pairsOf.1 hk
  exact mem_pairsOf.2 ⟨e, h he, rfl⟩

/-- Batches of entries of `all` commit one after the other; together they add
the pairs of their entries and count each new one once. -/
theorem Grown.writeBatches {db d : Db} (h : Grown db d) {all : List PurchaseWriteEntry} (hall : ¬ Refused db all)
    (hd : d.pairs ⊆ db.pairs ∪ pairsOf all) {batches : List (List PurchaseWriteEntry)}
    (hpart : batches.flatten ⊆ all) :
    ∃ counts : List Nat, (writeBatches batches d).1 = counts.map .ok ∧
      counts.sum = (newPairs d batches.flatten).card ∧ Grown db (writeBatches batches d).2 ∧
      (writeBatches batches d).2.pairs = d.pairs ∪ pairsOf batches.flatten := by
  induction batches generalizing d with
  | nil => exact ⟨[], rfl, by simp [newPairs, pairsOf], h, by simp [FlashSale.writeBatches, answers, pairsOf]⟩
  | cons part batches ih =>
    rw [List.flatten_cons, List.append_subset] at hpart
    obtain ⟨d', hd', hgrown, hpairs⟩ := h.writePurchaseBatch hall hd hpart.1
    have hsub : d'.pairs ⊆ db.pairs ∪ pairsOf all := by
      rw [hpairs]
      exact Finset.union_subset hd ((pairsOf_subset hpart.1).trans Finset.subset_union_right)
    obtain ⟨counts, hcounts, hsum, hend, hpairs'⟩ := ih hgrown hsub hpart.2
    have hstep : FlashSale.writeBatches (part :: batches) d =
        (.ok (newPairs d part).card :: (FlashSale.writeBatches batches d').1,
          (FlashSale.writeBatches batches d').2) := by
      simp only [FlashSale.writeBatches, answers, hd']
    rw [hstep, List.flatten_cons, pairsOf_append]
    refine ⟨(newPairs d part).card :: counts, by simp [hcounts], ?_, hend, ?_⟩
    · -- The later batches' new pairs are those of the whole list that the first did not add.
      have hdis : Disjoint (newPairs d part) (newPairs d' batches.flatten) := by
        refine Finset.disjoint_left.2 fun k hk hk' => (Finset.mem_sdiff.1 hk').2 ?_
        rw [hpairs]
        exact Finset.mem_union_right _ (Finset.mem_sdiff.1 hk).1
      rw [List.sum_cons, hsum, ← Finset.card_union_of_disjoint hdis]
      congr 1
      ext k
      simp only [newPairs, hpairs, pairsOf_append, Finset.mem_union, Finset.mem_sdiff]
      tauto
    · rw [hpairs', hpairs, Finset.union_assoc]

/-! ## One entry at a time -/

theorem mem_pairs_iff_buyer {db : Db} {e : PurchaseWriteEntry} :
    e.row.key ∈ db.pairs ↔ normalizeEmail e.email ∈ db.buyers (.ofText e.saleId) := by
  rw [Db.mem_pairs, Db.mem_buyers_iff_key]
  rfl

/-- A single write of an entry of `all`, where only pairs of `all` came first,
with the database's clock inside the sale's window. -/
theorem Grown.writePurchase {db d : Db} (h : Grown db d) {all : List PurchaseWriteEntry} (hall : ¬ Refused db all)
    (hd : d.pairs ⊆ db.pairs ∪ pairsOf all) {e : PurchaseWriteEntry} (he : e ∈ all) {dbNow : Int}
    (hnow : ∀ s ∈ db.sales, s.id = .ofText e.saleId → s.startsAt ≤ dbNow ∧ dbNow ≤ s.endsAt) :
    ∃ d', writePurchase .runs dbNow e.saleId e.email d =
        (.ok (if e.row.key ∈ d.pairs then ALREADY_PURCHASED_RESULT else SUCCESS_RESULT), d') ∧
      Grown db d' ∧ d'.pairs = insert e.row.key d.pairs := by
  have hok : ¬ Refused d [e] := h.not_refused hall hd (by simpa using he)
  -- The entry's sale is there, and its window is the one it always had.
  obtain ⟨s, hm, hid⟩ : ∃ s ∈ d.sales, s.id = .ofText e.saleId := by
    by_contra hno
    exact hok (.inl ⟨e, List.mem_singleton_self e, fun s hm hid => hno ⟨s, hm, hid⟩⟩)
  obtain ⟨s₀, hm₀, hs₀⟩ := h.mem_sales hm
  have hin : ¬ (dbNow < s.startsAt ∨ s.endsAt < dbNow) := by
    have := hnow s₀ hm₀ (by rw [← hid, hs₀]; rfl)
    rw [hs₀]
    simp only [PgSale.take_startsAt, PgSale.take_endsAt]
    omega
  have hsale : d.sale (.ofText e.saleId) = some s := hid ▸ h.schema.sale_of_mem hm
  have hruns := writePurchase_runs h.schema dbNow e.saleId e.email
  rw [hsale] at hruns
  simp only [hin, if_false, ← mem_pairs_iff_buyer] at hruns
  by_cases hk : e.row.key ∈ d.pairs
  · refine ⟨d, ?_, h, (Finset.insert_eq_of_mem hk).symm⟩
    rw [hruns, if_pos hk, if_pos hk]
  · -- A new pair of the batch: its sale still has the unit for it.
    have hpos : ¬ s.remainingStock ≤ 0 := by
      intro hz
      refine hok (.inr (.inr ⟨s, hm, ?_⟩))
      have hmem : e.row.key ∈ ofSale (newPairs d [e]) s.id := by
        refine Finset.mem_filter.2 ⟨Finset.mem_sdiff.2 ⟨mem_pairsOf.2 ⟨e, List.mem_singleton_self e, rfl⟩, hk⟩, ?_⟩
        exact hid.symm
      have := Finset.card_pos.2 ⟨_, hmem⟩
      omega
    have hsold := h.schema.sell e.email hsale hin (fun hb => hk (mem_pairs_iff_buyer.2 hb)) hpos
    refine ⟨_, ?_, h.trans (hsold.grown h.schema), ?_⟩
    · rw [hruns, if_neg hk, if_neg hk, if_neg hpos]
    · rw [hsold.pairs, Finset.union_comm]
      rfl

/-- Single writes of entries of `all`: each new pair answers success the first
time and "already purchased" from then on. -/
theorem Grown.writeEach {db d : Db} (h : Grown db d) {all : List PurchaseWriteEntry} (hall : ¬ Refused db all)
    (hd : d.pairs ⊆ db.pairs ∪ pairsOf all) {calls : List (Int × PurchaseWriteEntry)}
    (hpart : calls.map (·.2) ⊆ all)
    (hnow : ∀ c ∈ calls, ∀ s ∈ db.sales, s.id = .ofText c.2.saleId → s.startsAt ≤ c.1 ∧ c.1 ≤ s.endsAt) :
    Grown db (writeEach calls d).2 ∧ (writeEach calls d).2.pairs = d.pairs ∪ pairsOf (calls.map (·.2)) := by
  induction calls generalizing d with
  | nil => exact ⟨h, by simp [FlashSale.writeEach, answers, pairsOf]⟩
  | cons c calls ih =>
    rw [List.map_cons, List.cons_subset] at hpart
    obtain ⟨d', hd', hgrown, hpairs⟩ := h.writePurchase hall hd hpart.1 (hnow c List.mem_cons_self)
    have hsub : d'.pairs ⊆ db.pairs ∪ pairsOf all := by
      rw [hpairs]
      refine Finset.insert_subset (Finset.mem_union_right _ (mem_pairsOf.2 ⟨c.2, hpart.1, rfl⟩)) hd
    obtain ⟨hend, hpairs'⟩ := ih hgrown hsub hpart.2 fun c' hc' => hnow c' (List.mem_cons_of_mem _ hc')
    have hstep : (FlashSale.writeEach (c :: calls) d).2 = (FlashSale.writeEach calls d').2 := by
      simp only [FlashSale.writeEach, answers, hd']
    rw [hstep]
    refine ⟨hend, ?_⟩
    rw [hpairs', hpairs, List.map_cons, pairsOf, pairsOf, List.map_cons, List.toFinset_cons, Finset.insert_union,
      Finset.union_insert]

/-- What a batch that commits leaves does not depend on how it is written: any
batches made of its entries, in any order and with any repeats, commit, count
as many rows between them and leave the same pairs and the same sales; so do
single writes of its entries, of which the first of each new pair answers
success and every other "already purchased". -/
theorem writePurchaseBatch_transparent {db db' : Db} (hs : db.Schema) {entries : List PurchaseWriteEntry} {n : Nat}
    (h : writePurchaseBatch .runs entries db = (.ok n, db')) :
    (∀ batches : List (List PurchaseWriteEntry), (∀ e, e ∈ batches.flatten ↔ e ∈ entries) →
      ∃ counts : List Nat, (writeBatches batches db).1 = counts.map .ok ∧ counts.sum = n ∧
        (writeBatches batches db).2.pairs = db'.pairs ∧ (writeBatches batches db).2.sales = db'.sales) ∧
    ∀ calls : List (Int × PurchaseWriteEntry), (∀ e, e ∈ calls.map (·.2) ↔ e ∈ entries) →
      (∀ c ∈ calls, ∀ s ∈ db.sales, s.id = .ofText c.2.saleId → s.startsAt ≤ c.1 ∧ c.1 ≤ s.endsAt) →
      (∀ before c after, calls = before ++ c :: after →
        (writeEach calls db).1[before.length]? = some (.ok
          (if c.2.row.key ∈ db.pairs ∪ pairsOf (before.map (·.2)) then ALREADY_PURCHASED_RESULT
          else SUCCESS_RESULT))) ∧
        (writeEach calls db).2.pairs = db'.pairs ∧ (writeEach calls db).2.sales = db'.sales := by
  have hall : ¬ Refused db entries := by
    intro hr
    obtain ⟨e, he⟩ := writePurchaseBatch_throws hs hr
    rw [he] at h
    cases (Prod.mk.inj h).1
  have hd : db.pairs ⊆ db.pairs ∪ pairsOf entries := Finset.subset_union_left
  obtain ⟨d', hd', hgrown, hpairs⟩ := hs.grown.writePurchaseBatch hall hd (List.Subset.refl entries)
  rw [hd'] at h
  obtain ⟨hn, rfl⟩ := Prod.mk.inj h
  obtain rfl := Except.ok.inj hn
  constructor
  · intro batches hmem
    have hpart : batches.flatten ⊆ entries := fun e he => (hmem e).1 he
    obtain ⟨counts, hcounts, hsum, hend, hpairs'⟩ := hs.grown.writeBatches hall hd hpart
    have hsame : (writeBatches batches db).2.pairs = d'.pairs := by rw [hpairs', hpairs, pairsOf_congr hmem]
    refine ⟨counts, hcounts, ?_, hsame, hend.sales_eq hgrown hsame⟩
    rw [hsum, newPairs, newPairs, pairsOf_congr hmem]
  · intro calls hmem hnow
    have hpart : calls.map (·.2) ⊆ entries := fun e he => (hmem e).1 he
    obtain ⟨hend, hpairs'⟩ := hs.grown.writeEach hall hd hpart hnow
    have hsame : (writeEach calls db).2.pairs = d'.pairs := by rw [hpairs', hpairs, pairsOf_congr hmem]
    refine ⟨?_, hsame, hend.sales_eq hgrown hsame⟩
    rintro before c after rfl
    -- The answer is that of one write after the calls before it.
    rw [List.map_append, List.map_cons, List.append_subset, List.cons_subset] at hpart
    obtain ⟨hmid, hpre⟩ := hs.grown.writeEach hall hd hpart.1 fun c' hc' => hnow c' (List.mem_append_left _ hc')
    have hle : (writeEach before db).2.pairs ⊆ db.pairs ∪ pairsOf entries := by
      rw [hpre]
      exact Finset.union_subset hd ((pairsOf_subset hpart.1).trans Finset.subset_union_right)
    obtain ⟨d₁, hd₁, -⟩ := hmid.writePurchase hall hle hpart.2.1 (hnow c (by simp))
    rw [hpre] at hd₁
    rw [writeEach, answers_get]
    exact congrArg (fun r => some r.1) hd₁

/-- The demo batch delivered a second time, and before that one by one, last
entry first; and single writes in that order, of which the last is the first
buyer's again. -/
theorem writePurchaseBatch_transparent_demo :
    (∃ counts : List Nat, (writeBatches (demoEntries.reverse.map ([·]) ++ [demoEntries]) (demoDb 5)).1 =
      counts.map .ok ∧ counts.sum = 2) ∧
    (writeEach (demoEntries.reverse.map (7, ·)) (demoDb 5)).1[2]? = some (.ok ALREADY_PURCHASED_RESULT) ∧
    (writeEach (demoEntries.reverse.map (7, ·)) (demoDb 5)).2.sales =
      (writePurchaseBatch .runs demoEntries (demoDb 5)).2.sales := by
  have hrun : writePurchaseBatch .runs demoEntries (demoDb 5) =
      (.ok 2, (writePurchaseBatch .runs demoEntries (demoDb 5)).2) := by
    rw [← demoEntries_written]
  constructor
  · have hmem : ∀ e, e ∈ (demoEntries.reverse.map ([·]) ++ [demoEntries]).flatten ↔ e ∈ demoEntries := by
      intro e
      simp
    obtain ⟨counts, hcounts, hsum, -⟩ := (writePurchaseBatch_transparent (demoDb_schema 5) hrun).1 _ hmem
    exact ⟨counts, hcounts, hsum⟩
  · have hmem : ∀ e, e ∈ (demoEntries.reverse.map ((7 : Int), ·)).map (·.2) ↔ e ∈ demoEntries := by
      intro e
      simp
    have hnow : ∀ c ∈ demoEntries.reverse.map ((7 : Int), ·), ∀ s ∈ (demoDb 5).sales,
        s.id = .ofText c.2.saleId → s.startsAt ≤ c.1 ∧ c.1 ≤ s.endsAt := by decide +kernel
    obtain ⟨hanswer, -, hsales⟩ := (writePurchaseBatch_transparent (demoDb_schema 5) hrun).2 _ hmem hnow
    refine ⟨(hanswer [(7, ⟨demoId.text, "ann@x.io", 5⟩), (7, ⟨demoId.text, "bob@x.io", 1000⟩)]
      (7, ⟨demoId.text, "Ann@x.io", 0⟩) [] rfl).trans ?_, hsales⟩
    rw [if_pos (by decide +kernel)]

end FlashSale
