import Mathlib.Data.Finset.Image
import Mathlib.Logic.Function.Basic
import FlashSale.Text
/-!
# The Redis side

A sale has three keys, `flashsale:sale:<id>:stock`, `:meta` and `:buyers`, and
`<id>` is the id as it was spelled. The reservation script reads all three and
is the only writer apart from `syncSale` and `flushSaleKeys`.
-/

namespace FlashSale

/-- A Redis string. A decimal numeral is kept as the number it denotes. -/
inductive RedisString where
  | num (n : Int)
  | text (s : String)
deriving DecidableEq

/-- Lua's `tonumber`. -/
def tonumber : RedisString → Option Int
  | .num n => some n
  | .text _ => none

/-- The hash at `:meta`; a field that was never set reads as nil. -/
structure SaleMeta where
  startsAt : Option RedisString
  endsAt : Option RedisString
  cancelled : Option RedisString
deriving DecidableEq

/-- The three keys of one sale. A set that has no members does not exist. -/
@[ext] structure SaleKeys where
  saleStock : Option RedisString
  saleMeta : Option SaleMeta
  saleBuyers : Finset String
deriving DecidableEq

/-- The keys of a sale that was never warmed, or was flushed. -/
def SaleKeys.none : SaleKeys := ⟨.none, .none, ∅⟩

/-- Every sale's keys, by the id in the key names. -/
abbrev Redis := String → SaleKeys

/-! ## The reservation script -/

inductive ReservationCode where
  | reserved
  | sold_out
  | already_purchased
  | sale_not_active
  | not_warmed
deriving DecidableEq

/-- `reserve-purchase.lua`, on the keys of one sale. `email` is normalized and
`now` is `String(Date.now())`, so `tonumber` of it is never nil. -/
def reserveScript (email : String) (now : Int) (k : SaleKeys) : ReservationCode × SaleKeys :=
  match k.saleStock, k.saleMeta with
  | some saleStock, some saleMeta =>
    if saleMeta.cancelled = some (.num 1) then (.sale_not_active, k)
    else
      match saleMeta.startsAt.bind tonumber, saleMeta.endsAt.bind tonumber with
      | some startsAt, some endsAt =>
        if now < startsAt ∨ endsAt ≤ now then (.sale_not_active, k)
        else if email ∈ k.saleBuyers then (.already_purchased, k)
        else
          match tonumber saleStock with
          | some stock =>
            if stock ≤ 0 then (.sold_out, k)
            else (.reserved, { k with saleStock := some (.num (stock - 1)), saleBuyers := insert email k.saleBuyers })
          | .none => (.sold_out, k)
      | _, _ => (.sale_not_active, k)
  | _, _ => (.not_warmed, k)

/-- `reservePurchase`: the script on the sale's keys. -/
def reservePurchase (redis : Redis) (saleId email : String) (now : Int) : ReservationCode × Redis :=
  let (code, keys) := reserveScript (normalizeEmail email) now (redis saleId)
  (code, Function.update redis saleId keys)

/-! ## Loading and wiping a sale -/

/-- What `syncSale` is given of a sale; times are milliseconds. -/
structure SyncSaleInput where
  id : String
  remainingStock : Int
  startsAt : Int
  endsAt : Int
  cancelledAt : Option Int
deriving DecidableEq

/-- The keys `syncSale` leaves for a sale. -/
def syncedKeys (sale : SyncSaleInput) (buyerEmails : List String) : SaleKeys where
  saleStock := some (.num sale.remainingStock)
  saleMeta := some {
    startsAt := some (.num sale.startsAt)
    endsAt := some (.num sale.endsAt)
    cancelled := some (.num (if sale.cancelledAt.isSome then 1 else 0)) }
  saleBuyers := (buyerEmails.map normalizeEmail).toFinset

/-- `syncSale`: replaces the sale's keys in one MULTI, and never merges. -/
def syncSale (redis : Redis) (sale : SyncSaleInput) (buyerEmails : List String) : Redis :=
  Function.update redis sale.id (syncedKeys sale buyerEmails)

/-- Which of a sale's keys. -/
inductive KeyKind where
  | saleStock
  | saleMeta
  | saleBuyers
deriving DecidableEq

def SaleKeys.del (k : SaleKeys) : KeyKind → SaleKeys
  | .saleStock => { k with saleStock := .none }
  | .saleMeta => { k with saleMeta := .none }
  | .saleBuyers => { k with saleBuyers := ∅ }

/-- `redis.del(...keys)`, on one page of the scan in `flushSaleKeys`. A page can
hold some of a sale's keys and not the others. -/
def delKeys (redis : Redis) : List (String × KeyKind) → Redis
  | [] => redis
  | (id, kind) :: keys => delKeys (Function.update redis id ((redis id).del kind)) keys

/-! ## What the script can do -/

/-- The sale's keys let the attempt through the window check. -/
structure SaleKeys.Open (k : SaleKeys) (now : Int) : Prop where
  warmed : k.saleStock.isSome
  within : ∃ m startsAt endsAt, k.saleMeta = some m ∧ m.cancelled ≠ some (.num 1) ∧
    m.startsAt.bind tonumber = some startsAt ∧ m.endsAt.bind tonumber = some endsAt ∧
    startsAt ≤ now ∧ now < endsAt

/-- `stock` units are on offer. -/
def SaleKeys.Stocks (k : SaleKeys) (stock : Int) : Prop := k.saleStock.bind tonumber = some stock

/-- The keys after a reservation. -/
def SaleKeys.spend (k : SaleKeys) (stock : Int) (email : String) : SaleKeys :=
  { k with saleStock := some (.num (stock - 1)), saleBuyers := insert email k.saleBuyers }

theorem SaleKeys.Open.spend {k : SaleKeys} {now : Int} (h : k.Open now) (stock : Int) (email : String) :
    (k.spend stock email).Open now := ⟨rfl, h.within⟩

/-- Either the script reserves, in an open sale, for a new buyer, from stock it
has, or it leaves the keys alone. -/
theorem reserveScript_cases (email : String) (now : Int) (k : SaleKeys) :
    (∃ stock, k.Open now ∧ email ∉ k.saleBuyers ∧ k.Stocks stock ∧ 0 < stock ∧
      reserveScript email now k = (.reserved, k.spend stock email)) ∨
    ((reserveScript email now k).1 ≠ .reserved ∧ (reserveScript email now k).2 = k) := by
  unfold reserveScript
  split
  · rename_i saleStock saleMeta hs hm
    split
    · exact .inr ⟨by simp, rfl⟩
    · rename_i hc
      split
      · rename_i startsAt endsAt h1 h2
        split
        · exact .inr ⟨by simp, rfl⟩
        · rename_i hw
          split
          · exact .inr ⟨by simp, rfl⟩
          · rename_i hb
            split
            · rename_i stock hn
              split
              · exact .inr ⟨by simp, rfl⟩
              · refine .inl ⟨stock, ⟨by simp [hs], _, _, _, hm, hc, h1, h2, by omega, by omega⟩, hb, ?_, by omega, rfl⟩
                simp [SaleKeys.Stocks, hs, hn]
            · exact .inr ⟨by simp, rfl⟩
      · exact .inr ⟨by simp, rfl⟩
  · exact .inr ⟨by simp, rfl⟩

theorem reserveScript_reserved {email : String} {now : Int} {k : SaleKeys}
    (h : (reserveScript email now k).1 = .reserved) :
    ∃ stock, k.Open now ∧ email ∉ k.saleBuyers ∧ k.Stocks stock ∧ 0 < stock ∧
      (reserveScript email now k).2 = k.spend stock email := by
  rcases reserveScript_cases email now k with ⟨stock, ho, hb, hs, hpos, he⟩ | ⟨hne, -⟩
  · exact ⟨stock, ho, hb, hs, hpos, by rw [he]⟩
  · exact absurd h hne

theorem reserveScript_kept {email : String} {now : Int} {k : SaleKeys}
    (h : (reserveScript email now k).1 ≠ .reserved) : (reserveScript email now k).2 = k := by
  rcases reserveScript_cases email now k with ⟨_, -, -, -, -, he⟩ | ⟨-, hk⟩
  · exact absurd (by rw [he]) h
  · exact hk

/-- A buyer the sale has recorded is told so for as long as it is open. -/
theorem reserveScript_recorded {email : String} {now : Int} {k : SaleKeys} (ho : k.Open now)
    (hb : email ∈ k.saleBuyers) : reserveScript email now k = (.already_purchased, k) := by
  obtain ⟨hw, m, startsAt, endsAt, hm, hc, h1, h2, h3, h4⟩ := ho
  obtain ⟨stock, hstock⟩ := Option.isSome_iff_exists.1 hw
  have hwin : ¬ (now < startsAt ∨ endsAt ≤ now) := by omega
  simp only [reserveScript, hstock, hm, hc, h1, h2, hwin, hb, if_true, if_false]

/-- The script's answers on the keys of a warmed sale, in the order it checks. -/
theorem reserveScript_synced (email : String) (now : Int) (sale : SyncSaleInput) (buyers : List String) :
    reserveScript email now (syncedKeys sale buyers) =
      if sale.cancelledAt.isSome ∨ now < sale.startsAt ∨ sale.endsAt ≤ now then
        (.sale_not_active, syncedKeys sale buyers)
      else if email ∈ (syncedKeys sale buyers).saleBuyers then (.already_purchased, syncedKeys sale buyers)
      else if sale.remainingStock ≤ 0 then (.sold_out, syncedKeys sale buyers)
      else (.reserved, (syncedKeys sale buyers).spend sale.remainingStock email) := by
  by_cases hc : sale.cancelledAt.isSome
  · simp [reserveScript, syncedKeys, hc]
  · by_cases hw : now < sale.startsAt ∨ sale.endsAt ≤ now <;>
      simp [reserveScript, syncedKeys, hc, hw, tonumber, SaleKeys.spend]

/-- The script answers `not_warmed` exactly when the stock or the meta key is
missing. -/
theorem reserveScript_not_warmed {email : String} {now : Int} {k : SaleKeys} :
    (reserveScript email now k).1 = .not_warmed ↔ k.saleStock = none ∨ k.saleMeta = none := by
  obtain ⟨saleStock, saleMeta, saleBuyers⟩ := k
  cases saleStock with
  | none => simp [reserveScript]
  | some s =>
    cases saleMeta with
    | none => simp [reserveScript]
    | some m =>
      simp only [reserveScript, reduceCtorEq, or_self, iff_false]
      repeat' (first | split | simp)

/-- The script gets past the window check exactly on keys that are open. -/
theorem reserveScript_open (email : String) (now : Int) (k : SaleKeys) :
    k.Open now ↔ (reserveScript email now k).1 ≠ .not_warmed ∧ (reserveScript email now k).1 ≠ .sale_not_active := by
  constructor
  · rintro ⟨hw, m, startsAt, endsAt, hm, hc, h1, h2, h3, h4⟩
    obtain ⟨stock, hstock⟩ := Option.isSome_iff_exists.1 hw
    have hwin : ¬ (now < startsAt ∨ endsAt ≤ now) := by omega
    simp only [reserveScript, hstock, hm, hc, h1, h2, hwin, if_false]
    split_ifs
    · simp
    · split
      · split_ifs <;> simp
      · simp
  · intro h
    unfold reserveScript at h
    split at h
    · rename_i saleStock saleMeta hs hm
      split at h
      · simp at h
      · rename_i hc
        split at h
        · rename_i startsAt endsAt h1 h2
          split at h
          · simp at h
          · exact ⟨by simp [hs], saleMeta, startsAt, endsAt, hm, hc, h1, h2, by omega, by omega⟩
        · simp at h
    · simp at h

@[simp] theorem reserveScript_none (email : String) (now : Int) :
    reserveScript email now .none = (.not_warmed, .none) := rfl

theorem reservePurchase_code (redis : Redis) (saleId email : String) (now : Int) :
    (reservePurchase redis saleId email now).1 = (reserveScript (normalizeEmail email) now (redis saleId)).1 := rfl

theorem reservePurchase_redis (redis : Redis) (saleId email : String) (now : Int) :
    (reservePurchase redis saleId email now).2 =
      Function.update redis saleId (reserveScript (normalizeEmail email) now (redis saleId)).2 := rfl

theorem reservePurchase_self (redis : Redis) (saleId email : String) (now : Int) :
    (reservePurchase redis saleId email now).2 saleId =
      (reserveScript (normalizeEmail email) now (redis saleId)).2 := by
  simp [reservePurchase]

theorem reservePurchase_other (redis : Redis) {saleId id : String} (email : String) (now : Int) (h : id ≠ saleId) :
    (reservePurchase redis saleId email now).2 id = redis id := by
  simp [reservePurchase, h]

theorem reservePurchase_kept {redis : Redis} {saleId email : String} {now : Int}
    (h : (reservePurchase redis saleId email now).1 ≠ .reserved) :
    (reservePurchase redis saleId email now).2 = redis := by
  rw [reservePurchase_redis, reserveScript_kept h, Function.update_eq_self]

/-- The script run twice in a row: the second run changes nothing, and finds
the buyer that the first recorded. -/
theorem reservePurchase_again (redis : Redis) (saleId email : String) (now : Int) :
    reservePurchase (reservePurchase redis saleId email now).2 saleId email now =
      (if (reservePurchase redis saleId email now).1 = .reserved then .already_purchased
        else (reservePurchase redis saleId email now).1, (reservePurchase redis saleId email now).2) := by
  split
  · rename_i hcode
    obtain ⟨stock, ho, -, -, -, hk⟩ := reserveScript_reserved hcode
    have hagain := reserveScript_recorded (ho.spend stock (normalizeEmail email)) (Finset.mem_insert_self _ _)
    rw [← hk, ← reservePurchase_self] at hagain
    rw [reservePurchase, hagain]
    exact Prod.ext rfl (Function.update_eq_self _ _)
  · rename_i hcode
    rw [reservePurchase_kept hcode]
    exact Prod.ext rfl (reservePurchase_kept hcode)

/-! ## What deleting leaves -/

/-- `k'` is what is left of `k` after some of its keys were deleted. -/
structure SaleKeys.Remains (k' k : SaleKeys) : Prop where
  saleStock : k'.saleStock = .none ∨ k'.saleStock = k.saleStock
  saleMeta : k'.saleMeta = .none ∨ k'.saleMeta = k.saleMeta
  saleBuyers : k'.saleBuyers = ∅ ∨ k'.saleBuyers = k.saleBuyers

theorem SaleKeys.Remains.refl (k : SaleKeys) : k.Remains k := ⟨.inr rfl, .inr rfl, .inr rfl⟩

theorem SaleKeys.Remains.del {k' k : SaleKeys} (h : k'.Remains k) (kind : KeyKind) : (k'.del kind).Remains k := by
  cases kind with
  | saleStock => exact ⟨.inl rfl, h.saleMeta, h.saleBuyers⟩
  | saleMeta => exact ⟨h.saleStock, .inl rfl, h.saleBuyers⟩
  | saleBuyers => exact ⟨h.saleStock, h.saleMeta, .inl rfl⟩

theorem delKeys_remains (redis : Redis) (keys : List (String × KeyKind)) (id : String) :
    (delKeys redis keys id).Remains (redis id) := by
  suffices h : ∀ redis₀ : Redis, (redis id).Remains (redis₀ id) → (delKeys redis keys id).Remains (redis₀ id) from
    h redis (.refl _)
  induction keys generalizing redis with
  | nil => exact fun _ h => h
  | cons key keys ih =>
    obtain ⟨id', kind⟩ := key
    intro redis₀ h
    apply ih
    by_cases he : id = id'
    · subst he
      simpa using h.del kind
    · simpa [he] using h

theorem delKeys_other {redis : Redis} {keys : List (String × KeyKind)} {id : String} (h : ∀ key ∈ keys, key.1 ≠ id) :
    delKeys redis keys id = redis id := by
  induction keys generalizing redis with
  | nil => rfl
  | cons key keys ih =>
    obtain ⟨id', kind⟩ := key
    have hne : id' ≠ id := h (id', kind) List.mem_cons_self
    rw [delKeys, ih fun k hk => h k (List.mem_cons_of_mem _ hk), Function.update_of_ne (Ne.symm hne)]

/-! ## Ids that have keys -/

/-- Keys stand only under ids as Postgres prints them. -/
def Redis.Printed (redis : Redis) : Prop := ∀ id, redis id ≠ .none → toLowerCase id = id

theorem Redis.Printed.update {redis : Redis} (h : redis.Printed) {id : String} {k : SaleKeys}
    (hk : k ≠ .none → toLowerCase id = id) : Redis.Printed (Function.update redis id k) := by
  intro i hi
  by_cases he : i = id
  · subst he
    exact hk (by simpa using hi)
  · exact h i (by simpa [he] using hi)

/-- The script writes only to keys that exist. -/
theorem Redis.Printed.reserve {redis : Redis} (h : redis.Printed) (saleId email : String) (now : Int) :
    Redis.Printed (reservePurchase redis saleId email now).2 := by
  rw [reservePurchase_redis]
  refine h.update fun hk => h saleId fun hnone => hk ?_
  rw [hnone, reserveScript_none]

theorem SaleKeys.del_none (kind : KeyKind) : SaleKeys.none.del kind = .none := by cases kind <;> rfl

theorem Redis.Printed.del {redis : Redis} (h : redis.Printed) (keys : List (String × KeyKind)) :
    Redis.Printed (delKeys redis keys) := by
  induction keys generalizing redis with
  | nil => exact h
  | cons key keys ih =>
    obtain ⟨id, kind⟩ := key
    apply ih
    apply h.update
    intro hk
    apply h id
    intro hnone
    rw [hnone, SaleKeys.del_none] at hk
    exact hk rfl

theorem Redis.Printed.sync {redis : Redis} (h : redis.Printed) (sale : SyncSaleInput)
    (hid : toLowerCase sale.id = sale.id) (buyers : List String) : Redis.Printed (syncSale redis sale buyers) :=
  h.update fun _ => hid

end FlashSale
