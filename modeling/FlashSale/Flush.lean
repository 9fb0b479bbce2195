import FlashSale.Outage
/-!
# Flushing while the gate is open

`flushSaleKeys` (packages/redis/src/sync.ts) scans for the sale keys and
deletes them a page at a time, and the api keeps asking the script meanwhile.
A page can hold a sale's buyers without its stock and meta keys, and the script
asks for those two only. `Flush` runs next to a Redis that nothing was deleted
from, which says what the script would have answered.
-/

namespace FlashSale
open Lib.Runs

/-! ## The loop -/

structure Flush where
  redis : Redis
  /-- The keys that were there when the flush began and that no page has had yet. -/
  owed : List (String × KeyKind)
  /-- The page that was scanned and is not deleted yet. -/
  page : Option (List (String × KeyKind))
  /-- `cursor !== "0"`. -/
  more : Bool
  deleted : Nat
  /-- Redis, had nothing been deleted. -/
  kept : Redis
  /-- By sale, the buyers it had when the flush began and the emails it has
  granted since; a sync starts the sale anew. -/
  known : String → Finset String

inductive FlushAction where
  /-- `scan` answers a page; a cursor of "0" makes it the last. -/
  | scan (keys : List (String × KeyKind)) (last : Bool)
  | del
  | reserve (saleId email : String) (now : Int)
  | sync (sale : SyncSaleInput) (buyers : List String)
deriving DecidableEq

def Redis.has (redis : Redis) (key : String × KeyKind) : Bool := (redis key.1).has key.2

/-- `del` answers how many of its keys there were. -/
def delCount (redis : Redis) (keys : List (String × KeyKind)) : Nat := (keys.dedup.filter redis.has).length

/-- A flush of `keys`, before its first scan. -/
def Flush.start (redis : Redis) (keys : List (String × KeyKind)) : Flush where
  redis := redis
  owed := keys
  page := none
  more := true
  deleted := 0
  kept := redis
  known id := (redis id).saleBuyers

/-- A page holds keys that are there, in any order and maybe twice. Every key
that is there from the first scan to the last is in some page. -/
def Flush.scans (F : Flush) (keys : List (String × KeyKind)) (last : Bool) : Bool :=
  F.page.isNone && F.more && keys.all F.redis.has && (!last || F.owed.all fun key => key ∈ keys || !F.redis.has key)

def Flush.step (F : Flush) : FlushAction → Option Flush
  | .scan keys last =>
    if F.scans keys last then
      some { F with
        owed := F.owed.filter (· ∉ keys)
        page := if keys = [] then none else some keys
        more := !last }
    else none
  | .del =>
    F.page.map fun keys =>
      { F with redis := delKeys F.redis keys, page := none, deleted := F.deleted + delCount F.redis keys }
  | .reserve saleId email now =>
    let (code, redis) := reservePurchase F.redis saleId email now
    if code = .reserved then
      some { F with
        redis := redis
        kept := (reservePurchase F.kept saleId email now).2
        known := Function.update F.known saleId (insert (normalizeEmail email) (F.known saleId)) }
    else some { F with redis := redis }
  | .sync sale buyers =>
    some { F with
      redis := syncSale F.redis sale buyers
      kept := syncSale F.kept sale buyers
      known := Function.update F.known sale.id ∅ }

/-- A page that takes a sale's buyers takes its stock or its meta key with
them, unless no attempt gets through anyway: one of these went before, or the
sale is cancelled or has no window. -/
def Flush.Covers (F : Flush) (keys : List (String × KeyKind)) : Prop :=
  ∀ id, (id, .saleBuyers) ∈ keys → (F.redis id).saleBuyers ≠ ∅ →
    (id, .saleStock) ∈ keys ∨ (id, .saleMeta) ∈ keys ∨ ∀ now, ¬ (F.redis id).Open now

/-- Every page deleted is one that covers its buyers. -/
def Flush.Careful (F : Flush) (a : FlushAction) : Prop := a = .del → ∀ keys, F.page = some keys → F.Covers keys

/-! ## What is left of one sale -/

/-- `k` is what deletions left of `kept`: its buyers are the same, unless no
attempt gets as far as to ask for them. -/
structure SaleKeys.Left (k kept : SaleKeys) : Prop where
  saleStock : k.saleStock = .none ∨ k.saleStock = kept.saleStock
  saleMeta : k.saleMeta = .none ∨ k.saleMeta = kept.saleMeta
  saleBuyers : k.saleBuyers = kept.saleBuyers ∨ ∀ now, ¬ k.Open now

theorem SaleKeys.Left.refl (k : SaleKeys) : k.Left k := ⟨.inr rfl, .inr rfl, .inl rfl⟩

/-- Keys that let an attempt through have lost nothing. -/
theorem SaleKeys.Left.eq_of_open {k kept : SaleKeys} (h : k.Left kept) {now : Int} (ho : k.Open now) : k = kept := by
  obtain ⟨m, -, -, hm, -⟩ := ho.within
  have hstock : k.saleStock = kept.saleStock := by
    rcases h.saleStock with hs | hs
    · have := ho.warmed
      simp [hs] at this
    · exact hs
  have hmeta : k.saleMeta = kept.saleMeta := by
    rcases h.saleMeta with hs | hs
    · simp [hs] at hm
    · exact hs
  have hbuyers : k.saleBuyers = kept.saleBuyers := h.saleBuyers.resolve_right fun hno => hno now ho
  exact SaleKeys.ext hstock hmeta hbuyers

/-- Whether an attempt gets through does not depend on the buyers. -/
theorem SaleKeys.Open.congr {k k' : SaleKeys} {now : Int} (ho : k.Open now) (hs : k'.saleStock = k.saleStock)
    (hm : k'.saleMeta = k.saleMeta) : k'.Open now := ⟨hs ▸ ho.warmed, hm ▸ ho.within⟩

/-- The script answers `not_warmed`, or what it would have answered. -/
theorem SaleKeys.Left.code {k kept : SaleKeys} (h : k.Left kept) (email : String) (now : Int) :
    (reserveScript email now k).1 = .not_warmed ∨
      (reserveScript email now k).1 = (reserveScript email now kept).1 := by
  by_cases ho : k.Open now
  · exact .inr (by rw [h.eq_of_open ho])
  · by_cases hw : (reserveScript email now k).1 = .not_warmed
    · exact .inl hw
    · right
      -- Both keys are there, so they are the kept ones: neither side lets the attempt through.
      have hwarm := reserveScript_not_warmed.not.1 hw
      rw [not_or] at hwarm
      have hs := h.saleStock.resolve_left hwarm.1
      have hm := h.saleMeta.resolve_left hwarm.2
      have hw' : (reserveScript email now kept).1 ≠ .not_warmed := by
        rw [ne_eq, reserveScript_not_warmed, ← hs, ← hm, not_or]
        exact hwarm
      have ho' : ¬ kept.Open now := fun ho' => ho (ho'.congr hs hm)
      have hclosed := (reserveScript_open email now k).not.1 ho
      have hclosed' := (reserveScript_open email now kept).not.1 ho'
      rw [not_and, not_not] at hclosed hclosed'
      rw [hclosed hw, hclosed' hw']

theorem SaleKeys.Remains.open {k' k : SaleKeys} (h : k'.Remains k) {now : Int} (ho : k'.Open now) : k.Open now := by
  obtain ⟨m, -, -, hm, -⟩ := ho.within
  refine ho.congr (h.saleStock.resolve_left fun hs => ?_).symm (h.saleMeta.resolve_left fun hs => ?_).symm
  · have := ho.warmed
    simp [hs] at this
  · simp [hs] at hm

theorem delKeys_eq (redis : Redis) (keys : List (String × KeyKind)) (id : String) :
    delKeys redis keys id = {
      saleStock := if (id, .saleStock) ∈ keys then .none else (redis id).saleStock
      saleMeta := if (id, .saleMeta) ∈ keys then .none else (redis id).saleMeta
      saleBuyers := if (id, .saleBuyers) ∈ keys then ∅ else (redis id).saleBuyers } := by
  induction keys generalizing redis with
  | nil => rfl
  | cons key keys ih =>
    obtain ⟨id', kind⟩ := key
    rw [delKeys, ih]
    by_cases hid : id = id'
    · subst hid
      cases kind <;> simp [SaleKeys.del]
    · simp [hid]

/-- Only a recorded buyer is told so. -/
theorem reserveScript_already {email : String} {now : Int} {k : SaleKeys}
    (h : (reserveScript email now k).1 = .already_purchased) : email ∈ k.saleBuyers := by
  by_contra hb
  have ho : k.Open now := (reserveScript_open email now k).2 (by simp [h])
  obtain ⟨hw, m, startsAt, endsAt, hm, hc, h1, h2, h3, h4⟩ := ho
  obtain ⟨stock, hstock⟩ := Option.isSome_iff_exists.1 hw
  have hwin : ¬ (now < startsAt ∨ endsAt ≤ now) := by omega
  simp only [reserveScript, hstock, hm, hc, h1, h2, hwin, hb, if_false] at h
  split at h
  · split at h <;> cases h
  · cases h

/-- What a page leaves of a sale, when it covers its buyers. -/
theorem Flush.Covers.left {F : Flush} {keys : List (String × KeyKind)} (hc : F.Covers keys) {id : String}
    {kept : SaleKeys} (h : (F.redis id).Left kept) : (delKeys F.redis keys id).Left kept := by
  have hr := delKeys_remains F.redis keys id
  refine ⟨?_, ?_, ?_⟩
  · rcases hr.saleStock with hs | hs
    · exact .inl hs
    · exact hs ▸ h.saleStock
  · rcases hr.saleMeta with hm | hm
    · exact .inl hm
    · exact hm ▸ h.saleMeta
  · rcases h.saleBuyers with hb | hno
    · by_cases hin : (id, KeyKind.saleBuyers) ∈ keys
      · by_cases hempty : (F.redis id).saleBuyers = ∅
        · left
          simp only [delKeys_eq, if_pos hin, ← hb, hempty]
        · right
          intro now ho
          rcases hc id hin hempty with hs | hm | hno
          · have := ho.warmed
            simp [delKeys_eq, hs] at this
          · obtain ⟨m, -, -, hmeta, -⟩ := ho.within
            simp [delKeys_eq, hm] at hmeta
          · exact hno now (hr.open ho)
      · left
        simp only [delKeys_eq, if_neg hin, hb]
    · exact .inr fun now ho => hno now (hr.open ho)

/-! ## A careful flush -/

structure Flush.Sound (F : Flush) : Prop where
  left : ∀ id, (F.redis id).Left (F.kept id)
  known : ∀ id, F.known id ⊆ (F.kept id).saleBuyers

theorem Flush.start_sound (redis : Redis) (keys : List (String × KeyKind)) : (Flush.start redis keys).Sound where
  left _ := .refl _
  known _ := Finset.Subset.refl _

/-- An attempt that is granted finds keys that lost nothing, and leaves such. -/
theorem Flush.Sound.granted {F : Flush} (h : F.Sound) {saleId email : String} {now : Int}
    (hcode : (reservePurchase F.redis saleId email now).1 = .reserved) :
    (reservePurchase F.redis saleId email now).2 saleId = (reservePurchase F.kept saleId email now).2 saleId ∧
      ((reservePurchase F.kept saleId email now).2 saleId).saleBuyers =
        insert (normalizeEmail email) (F.kept saleId).saleBuyers := by
  obtain ⟨stock, ho, -, -, -, hkeys⟩ := reserveScript_reserved hcode
  have hsame := (h.left saleId).eq_of_open ho
  rw [reservePurchase_self, reservePurchase_self, ← hsame]
  exact ⟨rfl, by rw [hkeys]; rfl⟩

theorem Flush.Sound.step {F F' : Flush} {a : FlushAction} (h : F.Sound) (hok : F.Careful a)
    (hstep : F.step a = some F') : F'.Sound := by
  cases a with
  | scan keys last =>
    simp only [Flush.step] at hstep
    split at hstep
    · obtain rfl := Option.some.inj hstep
      exact ⟨h.left, h.known⟩
    · cases hstep
  | del =>
    obtain ⟨keys, hpage, rfl⟩ := Option.map_eq_some_iff.1 hstep
    exact ⟨fun id => (hok rfl keys hpage).left (h.left id), h.known⟩
  | reserve saleId email now =>
    simp only [Flush.step] at hstep
    split at hstep
    · rename_i hcode
      obtain rfl := Option.some.inj hstep
      obtain ⟨hsame, hbuyers⟩ := h.granted hcode
      constructor
      · intro id
        by_cases hid : id = saleId
        · subst hid
          simp only [hsame]
          exact .refl _
        · simpa only [reservePurchase_other _ _ _ hid] using h.left id
      · intro id
        by_cases hid : id = saleId
        · subst hid
          simp only [Function.update_self, hbuyers]
          exact Finset.insert_subset_insert _ (h.known id)
        · simpa only [Function.update_of_ne hid, reservePurchase_other _ _ _ hid] using h.known id
    · rename_i hcode
      obtain rfl := Option.some.inj hstep
      rw [reservePurchase_kept hcode]
      exact ⟨h.left, h.known⟩
  | sync sale buyers =>
    obtain rfl := Option.some.inj hstep
    constructor
    · intro id
      by_cases hid : id = sale.id
      · subst hid
        simpa [syncSale] using SaleKeys.Left.refl _
      · simpa [syncSale, hid] using h.left id
    · intro id
      by_cases hid : id = sale.id
      · subst hid
        simp
      · simpa [syncSale, hid] using h.known id

/-- A page that does not cover its buyers makes the script ask a recorded buyer
in: someone who had purchased is answered otherwise. -/
theorem Flush.Sound.uncovered {F : Flush} (h : F.Sound) {keys : List (String × KeyKind)} (hc : ¬ F.Covers keys) :
    ∃ id email now, (reserveScript email now (F.kept id)).1 = .already_purchased ∧
      (reserveScript email now (delKeys F.redis keys id)).1 ≠ .not_warmed ∧
      (reserveScript email now (delKeys F.redis keys id)).1 ≠ .already_purchased := by
  simp only [Flush.Covers, not_forall, not_or, not_not] at hc
  obtain ⟨id, hin, hne, hs, hm, now, ho₀⟩ := hc
  obtain ⟨email, hmem⟩ := Finset.nonempty_iff_ne_empty.2 hne
  -- Stock and meta are left, so whoever got through still does.
  have ho : (delKeys F.redis keys id).Open now := ho₀.congr (by simp [delKeys_eq, hs]) (by simp [delKeys_eq, hm])
  refine ⟨id, email, now, ?_, ((reserveScript_open email now _).1 ho).1, ?_⟩
  · rw [← (h.left id).eq_of_open ho₀, reserveScript_recorded ho₀ hmem]
  · intro hcode
    have hstill := reserveScript_already hcode
    simp [delKeys_eq, hin] at hstill

/-- In every careful flush no buyer is forgotten: an email the sale had, or
granted since, is not granted again, and every answer is `not_warmed` or the
one it would have been. A page that is not careful makes some answer neither. -/
theorem flush_remembers {redis : Redis} {keys : List (String × KeyKind)} {F : Flush}
    (h : Steps Flush.step Flush.Careful (.start redis keys) F) :
    (∀ id email now, email ∈ F.known id → (reserveScript email now (F.redis id)).1 ≠ .reserved) ∧
    (∀ id email now, (reserveScript email now (F.redis id)).1 = .not_warmed ∨
      (reserveScript email now (F.redis id)).1 = (reserveScript email now (F.kept id)).1) ∧
    ∀ page, F.page = some page → ¬ F.Covers page →
      ∃ F', F.step .del = some F' ∧ ∃ id email now,
        (reserveScript email now (F'.kept id)).1 = .already_purchased ∧
        (reserveScript email now (F'.redis id)).1 ≠ .not_warmed ∧
        (reserveScript email now (F'.redis id)).1 ≠ (reserveScript email now (F'.kept id)).1 := by
  have hsound : F.Sound := h.inv (Flush.start_sound redis keys) fun _ _ _ hs hok hstep => hs.step hok hstep
  refine ⟨?_, fun id email now => (hsound.left id).code email now, ?_⟩
  · intro id email now hknown hcode
    obtain ⟨_, ho, hb, -⟩ := reserveScript_reserved hcode
    rw [(hsound.left id).eq_of_open ho] at hb
    exact hb (hsound.known id hknown)
  · intro page hpage hc
    obtain ⟨id, email, now, hkept, hwarm, hne⟩ := hsound.uncovered hc
    refine ⟨{ F with
      redis := delKeys F.redis page
      page := none
      deleted := F.deleted + delCount F.redis page }, ?_, id, email, now, hkept, hwarm, ?_⟩
    · simp only [Flush.step, hpage, Option.map_some]
    · simpa only [hkept] using hne

/-! ## A page of buyers -/

/-- A sale of two units in its first second; Ann has bought one before. -/
def flushedRedis : Redis := syncSale (fun _ => .none) ⟨"s", 1, 0, 1000, none⟩ ["ann@x.io"]

def flushedKeys : List (String × KeyKind) := [("s", .saleStock), ("s", .saleMeta), ("s", .saleBuyers)]

/-- After a scan that had all of them in one page. -/
def flushedScanned : Flush :=
  { Flush.start flushedRedis flushedKeys with owed := [], page := some flushedKeys, more := false }

theorem flushedScanned_careful : flushedScanned.Careful .del := by
  rintro - _ ⟨⟩ id hin -
  obtain rfl : id = "s" := by simpa [flushedKeys] using hin
  exact .inl (by simp [flushedKeys])

/-- Scanned in one page, the sale's keys go together. -/
theorem flush_remembers_onePage :
    ∃ F, Steps Flush.step Flush.Careful (.start flushedRedis flushedKeys) F ∧ F.deleted = 3 ∧
      "ann@x.io" ∈ F.known "s" ∧ (reserveScript "ann@x.io" 5 (F.redis "s")).1 ≠ .reserved := by
  have hscans : (Flush.start flushedRedis flushedKeys).scans flushedKeys true = true := by decide +kernel
  have hscan : Flush.step (.start flushedRedis flushedKeys) (.scan flushedKeys true) = some flushedScanned := by
    rw [Flush.step, if_pos hscans]
    rfl
  have h₁ : Steps Flush.step Flush.Careful (.start flushedRedis flushedKeys) flushedScanned :=
    .tail (.scan flushedKeys true) .refl (by intro ha; cases ha) hscan
  have h₂ := h₁.tail .del flushedScanned_careful rfl
  have hknown : "ann@x.io" ∈ flushedScanned.known "s" := by decide +kernel
  exact ⟨_, h₂, by decide +kernel, hknown, (flush_remembers h₂).1 "s" "ann@x.io" 5 hknown⟩

/-- Scanned in two pages, the buyers first, they do not: between the two Ann,
whose purchase the sale had when the flush began, is granted the other unit. -/
theorem flush_forgets :
    ∃ F, Steps Flush.step (fun _ _ => True) (.start flushedRedis flushedKeys) F ∧ "ann@x.io" ∈ F.known "s" ∧
      (reservePurchase flushedRedis "s" "ann@x.io" 5).1 = .already_purchased ∧
      (reservePurchase F.redis "s" "ann@x.io" 5).1 = .reserved :=
  Steps.exists_of_run [.scan [("s", .saleBuyers)] false, .del] (by decide +kernel)

end FlashSale
