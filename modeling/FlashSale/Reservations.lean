import FlashSale.Redis
import FlashSale.Lib.Runs
/-!
# The gate's accounts

Redis runs the reservation scripts one at a time, so all the api hosts
together make one sequence of them, with clocks that need not agree. After any
sequence the keys of a loaded sale are those of the same sale loaded with less
stock and more buyers (`reserveAll_keys`); every fact about the gate's answers
is read off `reserveScript_synced` from there.
-/

namespace FlashSale
open Lib.Runs

structure ReservePurchaseParams where
  saleId : String
  email : String
  now : Int
deriving DecidableEq

/-- Attempts one after the other: the gate's answers, and what they leave. -/
def reserveAll (redis : Redis) (attempts : List ReservePurchaseParams) : List ReservationCode × Redis :=
  answers (fun redis p => reservePurchase redis p.saleId p.email p.now) redis attempts

/-- The case-folded email of an attempt that was answered `reserved` for `id`. -/
def grantedEmail (id : String) (p : ReservePurchaseParams × ReservationCode) : Option String :=
  if p.1.saleId = id ∧ p.2 = .reserved then some (normalizeEmail p.1.email) else none

/-- The emails answered `reserved` for `id`, case-folded, in order. -/
def granted (id : String) (redis : Redis) (attempts : List ReservePurchaseParams) : List String :=
  (attempts.zip (reserveAll redis attempts).1).filterMap (grantedEmail id)

/-! ## One more attempt -/

@[simp] theorem granted_nil (id : String) (redis : Redis) : granted id redis [] = [] := rfl

theorem reserveAll_concat (redis : Redis) (attempts : List ReservePurchaseParams) (p : ReservePurchaseParams) :
    (reserveAll redis (attempts ++ [p])).2 =
      (reservePurchase (reserveAll redis attempts).2 p.saleId p.email p.now).2 := by
  rw [reserveAll, answers_append]
  rfl

theorem reserveAll_append (redis : Redis) (attempts more : List ReservePurchaseParams) :
    (reserveAll redis (attempts ++ more)).2 = (reserveAll (reserveAll redis attempts).2 more).2 := by
  rw [reserveAll, answers_append]
  rfl

theorem granted_concat (id : String) (redis : Redis) (attempts : List ReservePurchaseParams)
    (p : ReservePurchaseParams) :
    granted id redis (attempts ++ [p]) = granted id redis attempts ++
      (grantedEmail id (p, (reservePurchase (reserveAll redis attempts).2 p.saleId p.email p.now).1)).toList := by
  rw [granted, reserveAll, answers_append, List.zip_append (by rw [answers_length]), List.filterMap_append]
  congr 1

/-! ## The keys of a loaded sale -/

@[simp] theorem normalizeEmail_idem (email : String) : normalizeEmail (normalizeEmail email) = normalizeEmail email :=
  toLowerCase_idem email

/-- A reservation leaves the keys of a sale with one unit less and one buyer more. -/
theorem syncedKeys_spend (sale : SyncSaleInput) (buyers : List String) (email : String) :
    (syncedKeys sale buyers).spend sale.remainingStock (normalizeEmail email) =
      syncedKeys { sale with remainingStock := sale.remainingStock - 1 } (buyers ++ [normalizeEmail email]) := by
  simp [SaleKeys.spend, syncedKeys, List.toFinset_append]

/-- The sale as the gate has it once `n` of its units are promised. -/
def SyncSaleInput.less (sale : SyncSaleInput) (n : Nat) : SyncSaleInput :=
  { sale with remainingStock := sale.remainingStock - n }

/-- After any attempts, the keys of a sale that was loaded with some stock and
buyers are those of that sale less the units granted, with the emails granted. -/
theorem reserveAll_keys (redis : Redis) (sale : SyncSaleInput) (buyers : List String)
    (attempts : List ReservePurchaseParams) :
    (reserveAll (syncSale redis sale buyers) attempts).2 sale.id =
      syncedKeys (sale.less (granted sale.id (syncSale redis sale buyers) attempts).length)
        (buyers ++ granted sale.id (syncSale redis sale buyers) attempts) := by
  induction attempts using List.reverseRecOn with
  | nil => simp [reserveAll, answers, syncSale, SyncSaleInput.less]
  | append_singleton attempts p ih =>
    rw [reserveAll_concat, granted_concat]
    set before := (reserveAll (syncSale redis sale buyers) attempts).2
    set g := granted sale.id (syncSale redis sale buyers) attempts
    by_cases hid : p.saleId = sale.id
    · rw [hid, reservePurchase_self, reservePurchase_code, ih]
      by_cases hcode : (reserveScript (normalizeEmail p.email) p.now
          (syncedKeys (sale.less g.length) (buyers ++ g))).1 = .reserved
      · obtain ⟨stock, -, -, hstock, -, hkeys⟩ := reserveScript_reserved hcode
        obtain rfl : (sale.less g.length).remainingStock = stock := by
          simpa [SaleKeys.Stocks, syncedKeys, tonumber] using hstock
        rw [hkeys, syncedKeys_spend]
        have hless : ({ sale.less g.length with
            remainingStock := (sale.less g.length).remainingStock - 1 } : SyncSaleInput) =
              sale.less (g.length + 1) := by
          simp only [SyncSaleInput.less, SyncSaleInput.mk.injEq, true_and, and_true]
          omega
        simp [grantedEmail, hid, hcode, hless]
      · rw [reserveScript_kept hcode]
        simp [grantedEmail, hid, hcode]
    · rw [reservePurchase_other _ _ _ (Ne.symm hid), ih]
      simp [grantedEmail, hid]

theorem reserveScript_synced_code (email : String) (now : Int) (sale : SyncSaleInput) (buyers : List String) :
    (reserveScript email now (syncedKeys sale buyers)).1 =
      if sale.cancelledAt.isSome ∨ now < sale.startsAt ∨ sale.endsAt ≤ now then .sale_not_active
      else if email ∈ buyers.map normalizeEmail then .already_purchased
      else if sale.remainingStock ≤ 0 then .sold_out
      else .reserved := by
  have hmem : email ∈ (syncedKeys sale buyers).saleBuyers ↔ email ∈ buyers.map normalizeEmail := List.mem_toFinset
  rw [reserveScript_synced]
  simp only [hmem]
  split_ifs <;> rfl

/-- What one more attempt for the sale is answered, in the order the script checks. -/
theorem reserve_after (redis : Redis) (sale : SyncSaleInput) (buyers : List String)
    (attempts : List ReservePurchaseParams) (email : String) (now : Int) :
    (reservePurchase (reserveAll (syncSale redis sale buyers) attempts).2 sale.id email now).1 =
      if sale.cancelledAt.isSome ∨ now < sale.startsAt ∨ sale.endsAt ≤ now then .sale_not_active
      else if normalizeEmail email ∈
          (buyers ++ granted sale.id (syncSale redis sale buyers) attempts).map normalizeEmail
        then .already_purchased
      else if sale.remainingStock ≤ (granted sale.id (syncSale redis sale buyers) attempts).length then .sold_out
      else .reserved := by
  have hstock : ∀ n : Nat, (sale.less n).remainingStock ≤ 0 ↔ sale.remainingStock ≤ n := by
    intro n
    simp only [SyncSaleInput.less]
    omega
  rw [reservePurchase_code, reserveAll_keys, reserveScript_synced_code]
  simp only [hstock]
  rfl

/-- The emails granted are apart, from each other and from the loaded buyers,
and no more than the stock. -/
theorem granted_spec (redis : Redis) {sale : SyncSaleInput} (hstock : 0 ≤ sale.remainingStock) (buyers : List String)
    (attempts : List ReservePurchaseParams) :
    (granted sale.id (syncSale redis sale buyers) attempts).Nodup ∧
    (∀ e ∈ granted sale.id (syncSale redis sale buyers) attempts, e ∉ buyers.map normalizeEmail) ∧
    ((granted sale.id (syncSale redis sale buyers) attempts).length : Int) ≤ sale.remainingStock ∧
    ∀ e ∈ granted sale.id (syncSale redis sale buyers) attempts, normalizeEmail e = e := by
  induction attempts using List.reverseRecOn with
  | nil => simpa using hstock
  | append_singleton attempts p ih =>
    rw [granted_concat]
    set g := granted sale.id (syncSale redis sale buyers) attempts with hg
    obtain ⟨hnodup, hapart, hle, hfold⟩ := ih
    by_cases hp : p.saleId = sale.id ∧
        (reservePurchase (reserveAll (syncSale redis sale buyers) attempts).2 p.saleId p.email p.now).1 = .reserved
    · obtain ⟨hid, hcode⟩ := hp
      have hnext := reserve_after redis sale buyers attempts p.email p.now
      rw [← hid, hcode] at hnext
      -- Reserved: the last branch of the script, past the buyers and the stock.
      rw [hid, ← hg] at hnext
      split_ifs at hnext with _ hb hz
      have hb' : normalizeEmail p.email ∉ buyers.map normalizeEmail ∧ normalizeEmail p.email ∉ g := by
        rw [List.map_append, List.mem_append, not_or] at hb
        exact ⟨hb.1, fun hm => hb.2 (List.mem_map.2 ⟨_, hm, normalizeEmail_idem _⟩)⟩
      have hgranted : grantedEmail sale.id (p, ReservationCode.reserved) = some (normalizeEmail p.email) := by
        simp [grantedEmail, hid]
      rw [hcode, hgranted, Option.toList_some]
      refine ⟨?_, ?_, ?_, ?_⟩
      · refine List.nodup_append.2 ⟨hnodup, by simp, ?_⟩
        rintro a ha _ hb rfl
        exact hb'.2 (List.mem_singleton.1 hb ▸ ha)
      · intro e he
        rcases List.mem_append.1 he with he | he
        · exact hapart e he
        · exact List.mem_singleton.1 he ▸ hb'.1
      · simp only [List.length_append, List.length_singleton]
        omega
      · intro e he
        rcases List.mem_append.1 he with he | he
        · exact hfold e he
        · rw [List.mem_singleton.1 he, normalizeEmail_idem]
    · have hno : grantedEmail sale.id (p, (reservePurchase (reserveAll (syncSale redis sale buyers) attempts).2
          p.saleId p.email p.now).1) = none := if_neg hp
      rw [hno, Option.toList_none, List.append_nil]
      exact ⟨hnodup, hapart, hle, hfold⟩

/-- Later attempts only add to what was granted. -/
theorem granted_mono (id : String) (redis : Redis) (attempts more : List ReservePurchaseParams) :
    granted id redis attempts <+: granted id redis (attempts ++ more) := by
  induction more using List.reverseRecOn with
  | nil => simp
  | append_singleton more p ih =>
    rw [← List.append_assoc, granted_concat]
    exact ih.trans (List.prefix_append _ _)

/-- The gate keeps its accounts over any sequence of attempts, from any
hosts: stock and buyers are what was loaded less, and with, what was granted;
nobody is granted twice or in a sale that is closed; `sold_out` means that the
loaded stock is granted, and is final; and only a grant writes. -/
theorem reservations_account (redis : Redis) {sale : SyncSaleInput} (hstock : 0 ≤ sale.remainingStock)
    (buyers : List String) (attempts : List ReservePurchaseParams) :
    let start := syncSale redis sale buyers
    let g := granted sale.id start attempts
    let after := (reserveAll start attempts).2
    (after sale.id).saleStock = some (.num (sale.remainingStock - g.length)) ∧
    0 ≤ sale.remainingStock - g.length ∧
    (after sale.id).saleBuyers = (buyers.map normalizeEmail).toFinset ∪ g.toFinset ∧
    g.Nodup ∧ (∀ e ∈ g, e ∉ buyers.map normalizeEmail) ∧
    ∀ email instant,
      ((reservePurchase after sale.id email instant).1 = .reserved →
        sale.cancelledAt = none ∧ sale.startsAt ≤ instant ∧ instant < sale.endsAt) ∧
      ((reservePurchase after sale.id email instant).1 = .sold_out →
        g.length = sale.remainingStock ∧
        ∀ more later instant',
          (reservePurchase (reserveAll after more).2 sale.id later instant').1 ≠ .reserved) ∧
      (reservePurchase after sale.id email instant).1 ≠ .not_warmed ∧
      ((reservePurchase after sale.id email instant).1 ≠ .reserved →
        (reservePurchase after sale.id email instant).2 = after) := by
  intro start g after
  obtain ⟨hnodup, hapart, (hle : (g.length : Int) ≤ sale.remainingStock), hfold⟩ :=
    granted_spec redis hstock buyers attempts
  have hkeys : after sale.id = syncedKeys (sale.less g.length) (buyers ++ g) :=
    reserveAll_keys redis sale buyers attempts
  have hfolded : g.map normalizeEmail = g := by
    conv_rhs => rw [← List.map_id g]
    exact List.map_congr_left hfold
  refine ⟨?_, by omega, ?_, hnodup, hapart, fun email instant => ⟨?_, ?_, ?_, reservePurchase_kept⟩⟩
  · rw [hkeys]
    rfl
  · rw [hkeys]
    simp only [syncedKeys, List.map_append, List.toFinset_append, hfolded]
  · intro hres
    rw [reserve_after] at hres
    split_ifs at hres with hclosed
    rw [not_or, not_or] at hclosed
    exact ⟨by simpa using hclosed.1, by omega, by omega⟩
  · intro hsold
    rw [reserve_after] at hsold
    split_ifs at hsold with _ _ hz
    have hall : (g.length : Int) = sale.remainingStock := Int.le_antisymm hle hz
    refine ⟨hall, fun more later instant' hres => ?_⟩
    -- What was granted stays granted, so there is never a unit for a later attempt.
    rw [← reserveAll_append, reserve_after] at hres
    split_ifs at hres with _ _ hleft
    have hmore : g.length ≤ (granted sale.id (syncSale redis sale buyers) (attempts ++ more)).length :=
      (granted_mono sale.id start attempts more).length_le
    omega
  · rw [reserve_after]
    split_ifs <;> simp

/-- A sale of one unit, which Ann has one of already. Bob gets the unit. -/
def lastUnit : SyncSaleInput := ⟨"s", 1, 0, 1000, none⟩

def lastUnitAttempts : List ReservePurchaseParams := [⟨"s", "ANN@x.io", 5⟩, ⟨"s", "Bob@x.io", 3⟩, ⟨"s", "bob@x.io", 4⟩]

theorem reservations_account_lastUnit :
    ((reserveAll (syncSale (fun _ => .none) lastUnit ["Ann@x.io"]) lastUnitAttempts).2 "s").saleStock =
      some (.num (1 - ["bob@x.io"].length)) := by
  have hgranted : granted "s" (syncSale (fun _ => .none) lastUnit ["Ann@x.io"]) lastUnitAttempts = ["bob@x.io"] := by
    decide +kernel
  have h := (reservations_account (fun _ => .none) (show 0 ≤ lastUnit.remainingStock by decide) ["Ann@x.io"]
    lastUnitAttempts).1
  rw [← hgranted]
  exact h

end FlashSale
