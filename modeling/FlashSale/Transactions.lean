import Mathlib.Logic.Relation
import FlashSale.Ledger
/-!
# Transactions that interleave

The writers run concurrently. A transaction inserts its rows one by one and
then decrements its sales one by one; until it commits only it sees them, and
Postgres makes others wait for the index keys it inserted and the sales rows it
updated. We prove that whatever the interleaving, the committed database is the
one that the committed calls produce one after the other, in commit order.
-/

namespace FlashSale
open Lib.Keyed

/-! ## Sessions -/

/-- The rows a call inserts. -/
def Call.rows : Call → List PgPurchase
  | .writePurchase dbNow saleId email => [purchaseRow dbNow saleId email]
  | .writePurchaseBatch entries => entries.map (·.row)

/-- The decrements a call makes once it has inserted `inserted`. -/
def Call.decrements (inserted : List PgPurchase) : Call → List (Uuid × Nat)
  | .writePurchase _ saleId _ => [(.ofText saleId, 1)]
  | .writePurchaseBatch _ => countBySale inserted

/-- Whether the insert says `on conflict do nothing`. -/
def Call.skipsConflicts : Call → Bool
  | .writePurchase .. => false
  | .writePurchaseBatch _ => true

/-- A transaction under way. -/
structure Session where
  call : Call
  /-- Rows of the insert it is past, and rows it has yet to reach. -/
  done : List PgPurchase
  todo : List PgPurchase
  /-- Its own rows; it holds their keys in the unique index. -/
  inserted : List PgPurchase
  /-- `none` during the insert, then the decrements it has yet to make. -/
  owed : Option (List (Uuid × Nat))
  /-- Decrements made; it holds these sales rows. -/
  taken : List (Uuid × Nat)

def Session.start (c : Call) : Session := ⟨c, [], c.rows, [], none, []⟩

/-- What the transaction's commit makes of the committed database. -/
def Session.applied (σ : Session) (db : Db) : Db where
  sales := db.sales.map fun s => s.take (FlashSale.taken σ.taken s.id)
  purchases := db.purchases ++ σ.inserted

/-- The committed database and the transactions under way. -/
structure Server where
  db : Db
  sessions : Nat → Option Session

def Server.put (S : Server) (i : Nat) (σ : Option Session) : Server :=
  { S with sessions := Function.update S.sessions i σ }

/-- No other transaction holds the index key. -/
def Server.KeyFree (S : Server) (i : Nat) (k : Uuid × String) : Prop :=
  ∀ j τ, j ≠ i → S.sessions j = some τ → k ∉ τ.inserted.map (·.key)

/-- No other transaction holds the sales row. -/
def Server.RowFree (S : Server) (i : Nat) (id : Uuid) : Prop :=
  ∀ j τ, j ≠ i → S.sessions j = some τ → id ∉ τ.taken.map (·.1)

/-- One step of one transaction. A statement that has to wait has no step; one
that throws, a deadlock or a lost connection ends in `rollback`. -/
inductive Server.Step : Server → Server → Prop
  | begin {S i} (c : Call) : S.sessions i = none → Step S (S.put i (some (.start c)))
  | insert {S i σ r rest} : S.sessions i = some σ → σ.todo = r :: rest → outsideSalePeriod S.db r = false →
      S.KeyFree i r.key → r.key ∉ (S.db.purchases ++ σ.inserted).map (·.key) →
      Step S (S.put i (some { σ with done := σ.done ++ [r], todo := rest, inserted := σ.inserted ++ [r] }))
  | skip {S i σ r rest} : S.sessions i = some σ → σ.todo = r :: rest → outsideSalePeriod S.db r = false →
      σ.call.skipsConflicts → r.key ∈ (S.db.purchases ++ σ.inserted).map (·.key) →
      Step S (S.put i (some { σ with done := σ.done ++ [r], todo := rest }))
  | endInsert {S i σ} : S.sessions i = some σ → σ.todo = [] → σ.owed = none →
      (∀ r ∈ σ.inserted, (S.db.sale r.saleId).isSome) →
      Step S (S.put i (some { σ with owed := some (σ.call.decrements σ.inserted) }))
  | decrement {S i σ id rest} {n : Nat} : S.sessions i = some σ → σ.owed = some ((id, n) :: rest) → S.RowFree i id →
      (∃ s ∈ S.db.sales, s.id = id ∧ (n : Int) ≤ s.remainingStock) →
      Step S (S.put i (some { σ with owed := some rest, taken := σ.taken ++ [(id, n)] }))
  | commit {S i σ} : S.sessions i = some σ → σ.owed = some [] →
      Step S { (S.put i none) with db := σ.applied S.db }
  | rollback {S i} : (S.sessions i).isSome → Step S (S.put i none)

/-- A server with no transaction under way. -/
def Server.idle (db : Db) : Server := ⟨db, fun _ => none⟩

/-! ## What a transaction knows -/

/-- What a transaction has done so far is what its call does on the committed
database. -/
structure Session.Ok (db : Db) (σ : Session) : Prop where
  rows : σ.done ++ σ.todo = σ.call.rows
  inside : ∀ r ∈ σ.done, outsideSalePeriod db r = false
  inserted : σ.inserted = newRows PgPurchase.key db.purchases σ.done
  all : σ.call.skipsConflicts = false → σ.inserted = σ.done
  early : σ.owed = none → σ.taken = []
  owed : ∀ cs, σ.owed = some cs → σ.todo = [] ∧ (∀ r ∈ σ.inserted, (db.sale r.saleId).isSome) ∧
    σ.taken ++ cs = σ.call.decrements σ.inserted
  taken : ∀ p ∈ σ.taken, ∃ s ∈ db.sales, s.id = p.1 ∧ (p.2 : Int) ≤ s.remainingStock

/-- Two transactions hold no key and no row in common. -/
structure Session.Apart (σ τ : Session) : Prop where
  keys : ∀ r ∈ σ.inserted, r.key ∉ τ.inserted.map (·.key)
  rows : ∀ p ∈ σ.taken, p.1 ∉ τ.taken.map (·.1)

structure Server.Inv (S : Server) : Prop where
  schema : S.db.Schema
  ok : ∀ i σ, S.sessions i = some σ → σ.Ok S.db
  apart : ∀ i j σ τ, i ≠ j → S.sessions i = some σ → S.sessions j = some τ → σ.Apart τ

theorem Session.Ok.start (db : Db) (c : Call) : (Session.start c).Ok db where
  rows := by simp [Session.start]
  inside := by simp [Session.start]
  inserted := by simp [Session.start]
  all := by simp [Session.start]
  early := by simp [Session.start]
  owed := by simp [Session.start]
  taken := by simp [Session.start]

/-! ## A commit is its call -/

theorem decrementAll_of_absorbs {db : Db} (hs : (db.sales.map (·.id)).Nodup) {counts : List (Uuid × Nat)}
    (hk : (counts.map (·.1)).Nodup)
    (h : ∀ p ∈ counts, ∃ s ∈ db.sales, s.id = p.1 ∧ (p.2 : Int) ≤ s.remainingStock) :
    decrementAll db counts = .ok { db with sales := db.sales.map fun s => s.take (taken counts s.id) } := by
  cases hd : decrementAll db counts with
  | ok db' =>
    obtain ⟨hp, hsales, -⟩ := decrementAll_ok hs hk hd
    cases db'
    simp_all
  | error e =>
    obtain ⟨id, n, hm, -, hlt⟩ := decrementAll_error hs hk hd
    obtain ⟨s, hsm, hid, hle⟩ := h _ hm
    have := hlt s hsm hid
    omega

theorem decrementStock_of_decrementAll {db db' : Db} {id : Uuid} {n : Nat}
    (h : decrementAll db [(id, n)] = .ok db') : decrementStock db id n = some db' := by
  simp only [decrementAll] at h
  split at h
  · rename_i hd
    rw [hd, Except.ok.inj h]
  · cases h

/-- A transaction that has made its last decrement commits what its call, run
alone on the committed database, would write. -/
theorem Session.Ok.commit {db : Db} {σ : Session} (h : σ.Ok db) (hs : db.Schema) (ho : σ.owed = some []) :
    σ.applied db = σ.call.run db := by
  obtain ⟨htodo, hknown, hdec⟩ := h.owed _ ho
  have hdone : σ.done = σ.call.rows := by simpa [htodo] using h.rows
  rw [List.append_nil] at hdec
  obtain ⟨call, done, todo, inserted, owed, taken⟩ := σ
  cases call with
  | writePurchase dbNow saleId email =>
    simp only [Call.rows] at hdone
    have hins : inserted = [purchaseRow dbNow saleId email] := (h.all rfl).trans hdone
    subst hins
    simp only [Call.decrements] at hdec
    subst hdec
    -- A single write skips nothing, so its row is in and its key was new.
    have hfresh : (purchaseRow dbNow saleId email).key ∉ db.purchases.map (·.key) := by
      have := h.inserted
      rw [hdone] at this
      exact (newRows_fresh PgPurchase.key db.purchases [purchaseRow dbNow saleId email]).2 _ (by rw [← this]; simp)
    have hins : insertPurchase db (purchaseRow dbNow saleId email) =
        .ok { db with purchases := db.purchases ++ [purchaseRow dbNow saleId email] } := by
      have hin := h.inside _ (by rw [hdone]; exact List.mem_singleton_self _)
      have hkn := hknown _ (List.mem_singleton_self _)
      simp [insertPurchase, hin, hfresh, Option.isSome_iff_ne_none.1 hkn]
    have hd := @decrementAll_of_absorbs { db with purchases := db.purchases ++ [purchaseRow dbNow saleId email] }
      hs.sales_pkey [(Uuid.ofText saleId, 1)] (by simp) h.taken
    have hd' := decrementStock_of_decrementAll hd
    simp only [Call.run, FlashSale.writePurchase, transaction, writePurchaseTx, hins, bind, Except.bind, hd']
    rfl
  | writePurchaseBatch entries =>
    simp only [Call.rows] at hdone
    have hins := h.inserted
    simp only at hins
    rw [hdone] at hins
    simp only [Call.decrements] at hdec
    subst hdec
    -- An empty batch writes nothing and runs no transaction.
    by_cases he : entries = []
    · subst he
      simp only [List.map_nil, newRows_nil] at hins
      subst hins
      simp [Call.run, FlashSale.writePurchaseBatch, Session.applied, countBySale, tally, FlashSale.taken]
    · have hin : (entries.map (·.row)).any (outsideSalePeriod db) = false := by
        rw [List.any_eq_false]
        intro r hr
        simpa using h.inside r (by rw [hdone]; exact hr)
      have hall : inserted.all (fun r => (db.sale r.saleId).isSome) = true := List.all_eq_true.2 hknown
      have hd := @decrementAll_of_absorbs { db with purchases := db.purchases ++ inserted }
        hs.sales_pkey _ (countBySale_keys_nodup inserted) h.taken
      simp only [Call.run, FlashSale.writePurchaseBatch, he, if_false, transaction, writePurchaseBatchTx,
        insertOnConflictDoNothing_eq, ← hins, hin, Bool.false_eq_true, hall, if_true, bind, Except.bind, hd]
      rfl

/-- The decrements a call owes are the units of the rows it inserted. -/
theorem Session.Ok.taken_eq {db : Db} {σ : Session} (h : σ.Ok db) (ho : σ.owed = some []) (id : Uuid) :
    FlashSale.taken σ.taken id = unitsOf σ.inserted id := by
  obtain ⟨htodo, -, hdec⟩ := h.owed _ ho
  rw [List.append_nil] at hdec
  rw [hdec]
  cases hc : σ.call with
  | writePurchaseBatch entries => exact taken_countBySale _ _
  | writePurchase dbNow saleId email =>
    have hdone : σ.done = σ.call.rows := by simpa [htodo] using h.rows
    have hins : σ.inserted = [purchaseRow dbNow saleId email] := by
      rw [h.all (by rw [hc]; rfl), hdone, hc]
      rfl
    rw [hins]
    by_cases he : Uuid.ofText saleId = id <;>
      simp [Call.decrements, FlashSale.taken, unitsOf, purchaseRow, he]

/-- What a commit does is a sale of the rows it inserted. -/
theorem Session.Ok.sold {db : Db} {σ : Session} (h : σ.Ok db) (hs : db.Schema) (ho : σ.owed = some []) :
    Sold db (σ.applied db) σ.inserted := by
  obtain ⟨-, hknown, hdec⟩ := h.owed _ ho
  have hfresh := newRows_fresh PgPurchase.key db.purchases σ.done
  rw [← h.inserted] at hfresh
  refine ⟨rfl, ?_, hfresh.1, hfresh.2, ?_, ?_⟩
  · exact List.map_congr_left fun s _ => by rw [h.taken_eq ho]
  · intro s hm
    rcases Nat.eq_zero_or_pos (unitsOf σ.inserted s.id) with h0 | h0
    · simpa [h0] using hs.sales_remaining_stock_check s hm
    · rw [← h.taken_eq ho] at h0 ⊢
      unfold FlashSale.taken at h0 ⊢
      cases hf : σ.taken.find? (·.1 = s.id) with
      | none => simp [hf] at h0
      | some p =>
        have hid : p.1 = s.id := by simpa using List.find?_some hf
        obtain ⟨t, ht, htid, hle⟩ := h.taken p (List.mem_of_find?_eq_some hf)
        have : t = s := List.inj_on_of_nodup_map hs.sales_pkey ht hm (htid.trans hid)
        simpa [this] using hle
  · intro r hr
    obtain ⟨s, hsome⟩ := Option.isSome_iff_exists.1 (hknown r hr)
    exact ⟨s, Db.sale_mem hsome⟩

/-! ## Other transactions do not notice -/

theorem Sold.outsideSalePeriod {db db' : Db} {new : List PgPurchase} (h : Sold db db' new) (r : PgPurchase) :
    outsideSalePeriod db' r = outsideSalePeriod db r := by
  unfold FlashSale.outsideSalePeriod
  rw [h.sale]
  cases db.sale r.saleId <;> rfl

/-- A commit under other keys and other sales rows leaves what a transaction
has done as it was. -/
theorem Session.Ok.transfer {db db' : Db} {new : List PgPurchase} {τ : Session} (h : τ.Ok db) (hsold : Sold db db' new)
    (hkeys : ∀ r ∈ τ.inserted, r.key ∉ new.map (·.key)) (hrows : ∀ p ∈ τ.taken, unitsOf new p.1 = 0) :
    τ.Ok db' where
  rows := h.rows
  inside r hr := by rw [hsold.outsideSalePeriod]; exact h.inside r hr
  inserted := by
    rw [hsold.purchases, newRows_stable PgPurchase.key db.purchases new τ.done]
    · exact h.inserted
    · rw [← h.inserted]
      exact hkeys
  all := h.all
  early := h.early
  owed cs hcs := by
    obtain ⟨h1, h2, h3⟩ := h.owed cs hcs
    exact ⟨h1, fun r hr => by rw [hsold.sale, Option.isSome_map]; exact h2 r hr, h3⟩
  taken p hp := by
    obtain ⟨s, hm, hid, hle⟩ := h.taken p hp
    refine ⟨s, ?_, hid, hle⟩
    rw [hsold.sales, List.mem_map]
    exact ⟨s, hm, by rw [hid, hrows p hp, PgSale.take_zero]⟩

theorem Session.Apart.start_left (c : Call) (τ : Session) : (Session.start c).Apart τ where
  keys := by simp [Session.start]
  rows := by simp [Session.start]

theorem Session.Apart.symm {σ τ : Session} (h : σ.Apart τ) : τ.Apart σ where
  keys r hr hm := by
    obtain ⟨q, hq, he⟩ := List.mem_map.1 hm
    exact h.keys q hq (he ▸ List.mem_map_of_mem hr)
  rows p hp hm := by
    obtain ⟨q, hq, he⟩ := List.mem_map.1 hm
    exact h.rows q hq (he ▸ List.mem_map_of_mem hp)

theorem Session.Apart.of_eq {σ σ' τ : Session} (h : σ.Apart τ) (hi : σ'.inserted = σ.inserted)
    (ht : σ'.taken = σ.taken) : σ'.Apart τ where
  keys := hi ▸ h.keys
  rows := ht ▸ h.rows

/-! ## Its own steps -/

section
variable {db : Db} {σ τ : Session}

/-- The row is new to the committed table and to the transaction. -/
theorem Session.Ok.insert (h : σ.Ok db) {r : PgPurchase} {rest : List PgPurchase} (ht : σ.todo = r :: rest)
    (hin : outsideSalePeriod db r = false) (hk : r.key ∉ (db.purchases ++ σ.inserted).map (·.key)) :
    Session.Ok db { σ with done := σ.done ++ [r], todo := rest, inserted := σ.inserted ++ [r] } where
  rows := by simpa [ht] using h.rows
  inside := by
    intro q hq
    rcases List.mem_append.1 hq with hq | hq
    · exact h.inside q hq
    · rw [List.mem_singleton.1 hq]
      exact hin
  inserted := by rw [newRows_concat, ← h.inserted, addNew, if_neg hk]
  all := by
    intro hc
    simp [h.all hc]
  early := h.early
  owed := by
    intro cs hcs
    simpa [ht] using (h.owed cs hcs).1
  taken := h.taken

theorem Session.Ok.skip (h : σ.Ok db) {r : PgPurchase} {rest : List PgPurchase} (ht : σ.todo = r :: rest)
    (hin : outsideSalePeriod db r = false) (hskip : σ.call.skipsConflicts = true)
    (hk : r.key ∈ (db.purchases ++ σ.inserted).map (·.key)) :
    Session.Ok db { σ with done := σ.done ++ [r], todo := rest } where
  rows := by simpa [ht] using h.rows
  inside := by
    intro q hq
    rcases List.mem_append.1 hq with hq | hq
    · exact h.inside q hq
    · rw [List.mem_singleton.1 hq]
      exact hin
  inserted := by rw [newRows_concat, ← h.inserted, addNew, if_pos hk]
  all := by
    intro hc
    simp [hskip] at hc
  early := h.early
  owed := by
    intro cs hcs
    simpa [ht] using (h.owed cs hcs).1
  taken := h.taken

/-- The insert is over, and the foreign keys are in order. -/
theorem Session.Ok.endInsert (h : σ.Ok db) (ht : σ.todo = []) (ho : σ.owed = none)
    (hknown : ∀ r ∈ σ.inserted, (db.sale r.saleId).isSome) :
    Session.Ok db { σ with owed := some (σ.call.decrements σ.inserted) } where
  rows := h.rows
  inside := h.inside
  inserted := h.inserted
  all := h.all
  early := by simp
  owed := by
    intro cs hcs
    obtain rfl := Option.some.inj hcs
    exact ⟨ht, hknown, by simp [h.early ho]⟩
  taken := h.taken

theorem Session.Ok.decrement (h : σ.Ok db) {id : Uuid} {n : Nat} {rest : List (Uuid × Nat)}
    (ho : σ.owed = some ((id, n) :: rest)) (habs : ∃ s ∈ db.sales, s.id = id ∧ (n : Int) ≤ s.remainingStock) :
    Session.Ok db { σ with owed := some rest, taken := σ.taken ++ [(id, n)] } where
  rows := h.rows
  inside := h.inside
  inserted := h.inserted
  all := h.all
  early := by simp
  owed := by
    intro cs hcs
    obtain rfl := Option.some.inj hcs
    obtain ⟨htodo, hknown, hdec⟩ := h.owed _ ho
    exact ⟨htodo, hknown, by simpa using hdec⟩
  taken := by
    intro p hp
    rcases List.mem_append.1 hp with hp | hp
    · exact h.taken p hp
    · rw [List.mem_singleton.1 hp]
      exact habs

theorem Session.Apart.insert (h : σ.Apart τ) {r : PgPurchase} (hfree : r.key ∉ τ.inserted.map (·.key))
    {done todo : List PgPurchase} :
    Session.Apart { σ with done, todo, inserted := σ.inserted ++ [r] } τ where
  keys := by
    intro q hq
    rcases List.mem_append.1 hq with hq | hq
    · exact h.keys q hq
    · rw [List.mem_singleton.1 hq]
      exact hfree
  rows := h.rows

theorem Session.Apart.decrement (h : σ.Apart τ) {id : Uuid} {n : Nat} (hfree : id ∉ τ.taken.map (·.1))
    {owed : Option (List (Uuid × Nat))} : Session.Apart { σ with owed, taken := σ.taken ++ [(id, n)] } τ where
  keys := h.keys
  rows := by
    intro p hp
    rcases List.mem_append.1 hp with hp | hp
    · exact h.rows p hp
    · rw [List.mem_singleton.1 hp]
      exact hfree

end

/-! ## The invariant -/

@[simp] theorem Server.put_db (S : Server) (i : Nat) (σ : Option Session) : (S.put i σ).db = S.db := rfl

theorem Server.put_sessions (S : Server) (i j : Nat) (σ : Option Session) :
    (S.put i σ).sessions j = if j = i then σ else S.sessions j := by
  simp [Server.put, Function.update_apply]

/-- Changing one transaction keeps the invariant if its new state is right and
apart from the others. -/
theorem Server.Inv.put {S : Server} (h : S.Inv) {i : Nat} {σ : Session} (hok : σ.Ok S.db)
    (hapart : ∀ j τ, j ≠ i → S.sessions j = some τ → σ.Apart τ) : (S.put i (some σ)).Inv where
  schema := h.schema
  ok j τ hj := by
    rw [put_sessions] at hj
    split at hj
    · exact Option.some.inj hj ▸ hok
    · exact h.ok j τ hj
  apart j k τ υ hjk hj hk := by
    rw [put_sessions] at hj hk
    split at hj <;> split at hk
    · exact absurd (by simp_all) hjk
    · exact Option.some.inj hj ▸ hapart k υ (by assumption) hk
    · exact (Option.some.inj hk ▸ hapart j τ (by assumption) hj).symm
    · exact h.apart j k τ υ hjk hj hk

theorem Server.Inv.drop {S : Server} (h : S.Inv) (i : Nat) : (S.put i none).Inv where
  schema := h.schema
  ok j τ hj := by
    rw [put_sessions] at hj
    split at hj
    · cases hj
    · exact h.ok j τ hj
  apart j k τ υ hjk hj hk := by
    rw [put_sessions] at hj hk
    split at hj <;> split at hk <;> first | cases hj | cases hk | exact h.apart j k τ υ hjk hj hk

theorem Server.Inv.commit {S : Server} (h : S.Inv) {i : Nat} {σ : Session} (hi : S.sessions i = some σ)
    (ho : σ.owed = some []) : Server.Inv { (S.put i none) with db := σ.applied S.db } := by
  have hok := h.ok i σ hi
  have hsold := hok.sold h.schema ho
  have hdrop := h.drop i
  refine ⟨hsold.schema h.schema, ?_, hdrop.apart⟩
  intro j τ hj
  have hne : j ≠ i := by
    rintro rfl
    simp [Server.put] at hj
  have hj' : S.sessions j = some τ := by simpa [Server.put, hne] using hj
  have hapart := h.apart j i τ σ hne hj' hi
  refine (h.ok j τ hj').transfer hsold hapart.keys fun p hp => ?_
  rw [← hok.taken_eq ho, taken_absent (hapart.rows p hp)]

/-- Every step of every transaction keeps the invariant. -/
theorem Server.Step.inv {S S' : Server} (hstep : S.Step S') (h : S.Inv) : S'.Inv := by
  cases hstep with
  | begin c _ => exact h.put (.start _ c) fun j τ _ _ => .start_left c τ
  | @insert i σ r rest hi ht hin hfree hk =>
    apply h.put ((h.ok i σ hi).insert ht hin hk)
    intro j τ hj hτ
    exact (h.apart i j σ τ (Ne.symm hj) hi hτ).insert (hfree j τ hj hτ)
  | @skip i σ r rest hi ht hin hskip hk =>
    apply h.put ((h.ok i σ hi).skip ht hin hskip hk)
    intro j τ hj hτ
    exact (h.apart i j σ τ (Ne.symm hj) hi hτ).of_eq rfl rfl
  | @endInsert i σ hi ht ho hknown =>
    apply h.put ((h.ok i σ hi).endInsert ht ho hknown)
    intro j τ hj hτ
    exact (h.apart i j σ τ (Ne.symm hj) hi hτ).of_eq rfl rfl
  | @decrement i σ id rest n hi ho hfree habs =>
    apply h.put ((h.ok i σ hi).decrement ho habs)
    intro j τ hj hτ
    exact (h.apart i j σ τ (Ne.symm hj) hi hτ).decrement (hfree j τ hj hτ)
  | commit hi ho => exact h.commit hi ho
  | rollback _ => exact h.drop _

theorem Server.Inv.idle {db : Db} (hs : db.Schema) : (Server.idle db).Inv where
  schema := hs
  ok := by simp [Server.idle]
  apart := by simp [Server.idle]

/-! ## Main theorems -/

/-- Interleaved transactions are serializable: the committed database is what
the calls committed since write one after the other. -/
theorem Server.Inv.serial {S₀ S : Server} (hinv₀ : S₀.Inv) (h : Relation.ReflTransGen Server.Step S₀ S) :
    S.Inv ∧ ∃ calls : List Call, S.db = calls.foldl Call.run S₀.db := by
  induction h with
  | refl => exact ⟨hinv₀, [], rfl⟩
  | tail _ hstep ih =>
    obtain ⟨hinv, calls, hdb⟩ := ih
    refine ⟨hstep.inv hinv, ?_⟩
    cases hstep with
    | @commit i σ hi ho =>
      refine ⟨calls ++ [σ.call], ?_⟩
      rw [List.foldl_concat, ← hdb]
      exact (hinv.ok i σ hi).commit hinv.schema ho
    | _ => exact ⟨calls, hdb⟩

theorem serializable {db : Db} {S : Server} (hs : db.Schema)
    (h : Relation.ReflTransGen Server.Step (Server.idle db) S) :
    S.Inv ∧ ∃ calls : List Call, S.db = calls.foldl Call.run db :=
  (Server.Inv.idle hs).serial h

/-- Whatever the writers do, and however their transactions interleave, every
sale's ledger stays exact. -/
theorem interleaved_ledger {db : Db} {S : Server} (hs : db.Schema) (hl : Ledger db)
    (h : Relation.ReflTransGen Server.Step (Server.idle db) S) : Ledger S.db := by
  obtain ⟨-, calls, hdb⟩ := serializable hs h
  rw [hdb]
  exact (serial_ledger hs hl calls).2

/-- Two transactions at once: a single write and a batch that was delivered
with a duplicate. The batch waits for the sales row until the other commits. -/
theorem interleaved_ledger_demo :
    ∃ S, Relation.ReflTransGen Server.Step (Server.idle (demoDb 2)) S ∧
      (S.db.purchases.map (·.email)) = ["ann@example.com", "bob@example.com"] ∧ Ledger S.db := by
  have h : ∃ S, Relation.ReflTransGen Server.Step (Server.idle (demoDb 2)) S ∧
      (S.db.purchases.map (·.email)) = ["ann@example.com", "bob@example.com"] := by
    refine ⟨_, .head (.begin (i := 0) (.writePurchase 7000 demoId.text "ann@example.com") rfl) <|
      .head (.begin (i := 1) (.writePurchaseBatch
        [⟨demoId.text, "bob@example.com", 5⟩, ⟨demoId.text, "Bob@example.com", 6⟩]) rfl) <|
      .head (.insert (i := 0) rfl rfl (by decide +kernel) ?_ (by decide +kernel)) <|
      .head (.insert (i := 1) rfl rfl (by decide +kernel) ?_ (by decide +kernel)) <|
      .head (.skip (i := 1) rfl rfl (by decide +kernel) rfl (by decide +kernel)) <|
      .head (.endInsert (i := 1) rfl rfl rfl (by decide +kernel)) <|
      .head (.endInsert (i := 0) rfl rfl rfl (by decide +kernel)) <|
      .head (.decrement (i := 0) rfl rfl ?_ (by decide +kernel)) <|
      .head (.commit (i := 0) rfl rfl) <|
      .head (.decrement (i := 1) rfl rfl ?_ (by decide +kernel)) <|
      .single (.commit (i := 1) rfl rfl), by decide +kernel⟩
    all_goals
      rintro (_ | _ | j) τ hj hτ <;> first
        | exact absurd rfl hj
        | (obtain rfl := Option.some.inj hτ; decide +kernel)
        | cases hτ
  obtain ⟨S, hrun, hrows⟩ := h
  exact ⟨S, hrun, hrows, interleaved_ledger (demoDb_schema 2) (demoDb_ledger 2) hrun⟩

end FlashSale
