import FlashSale.Gate
/-!
# Redis outages

What an api process does when its Redis connection comes and goes
(apps/api/src/redis/redis.provider.ts). Each process keeps one flag, raised by
`close`; the next `ready` lowers it and starts a sweep that deletes every sale
key, page by page, while attempts go on. Keys that Postgres-only purchases
have passed by are stale until some process wipes them.
-/

namespace FlashSale
open Lib.Runs

/-! ## Processes -/

/-- A set of keys, by sale id and kind. -/
abbrev KeySet := String → KeyKind → Bool

def SaleKeys.has (k : SaleKeys) : KeyKind → Bool
  | .saleStock => k.saleStock.isSome
  | .saleMeta => k.saleMeta.isSome
  | .saleBuyers => !decide (k.saleBuyers = ∅)

/-- An api process. -/
structure Replica where
  /-- `redis.status === "ready"`. -/
  ready : Bool
  wasDown : Bool
  /-- For each sweep under way, the keys it has yet to delete of those that
  were there when it began; the scan returns each of these at some point. -/
  sweeps : List KeySet

/-- A process that has just started. -/
def Replica.fresh : Replica := ⟨false, false, []⟩

structure Cluster where
  sys : System
  replicas : List Replica
  /-- Whether a row was committed on the Postgres-only path while the sale had
  keys that do not record its buyer, and the keys were not replaced since. -/
  missed : Uuid → Bool
  /-- Whether the script has since reserved from such keys. -/
  misled : Uuid → Bool

inductive Event where
  | close (r : Nat)
  | ready (r : Nat)
  /-- Sweep `i` of process `r` deletes a page of keys. -/
  | page (r i : Nat) (keys : List (String × KeyKind))
  /-- Sweep `i` of process `r` deletes its last page. -/
  | lastPage (r i : Nat)
  | sweepFails (r i : Nat)
  | restart (r : Nat)
  | act (a : Action)
deriving DecidableEq

/-! ## Steps -/

/-- A row is committed on the Postgres-only path for a buyer whom the sale's
keys, which are there, do not record. -/
def misses (u : Uuid) (S : System) (a : Action) : Bool :=
  S.redis u.text ≠ .none && (taker u S a).any (· ∉ (S.redis u.text).saleBuyers)

/-- The script runs on the keys of `u`. -/
def asks (u : Uuid) : Action → Bool
  | .attempt _ saleId _ _ link => saleId = u.text && link.executes
  | _ => false

/-- The script reserves from the keys of `u`. -/
def reserves (u : Uuid) (S : System) : Action → Bool
  | .attempt _ saleId email now link =>
    saleId = u.text && link.executes && (reservePurchase S.redis saleId email now).1 = .reserved
  | _ => false

/-- An attempt finds the connection of its own process as it is; once sent, its
command may fail, run after the connection closed, or be sent again. -/
def Cluster.linked (C : Cluster) : Action → Bool
  | .attempt replica _ _ _ link =>
    match C.replicas[replica]? with
    | some rep =>
      match link with
      | .notReady => !rep.ready
      | .answered => rep.ready
      | .failed | .replyLost | .resent => true
    | none => false
  | _ => true

def Cluster.put (C : Cluster) (r : Nat) (rep : Replica) : Cluster := { C with replicas := C.replicas.set r rep }

/-- Every key there is. -/
def present (redis : Redis) : KeySet := fun id kind => (redis id).has kind

/-- The keys of `left` that are still there as they were. -/
def KeySet.still (left kept : KeySet) : KeySet := fun id kind => left id kind && kept id kind

def Replica.still (rep : Replica) (kept : KeySet) : Replica := { rep with sweeps := rep.sweeps.map (·.still kept) }

/-- What is left of a sale's keys when `gone` are deleted. -/
def SaleKeys.without (k : SaleKeys) (gone : KeyKind → Bool) : SaleKeys where
  saleStock := if gone .saleStock then .none else k.saleStock
  saleMeta := if gone .saleMeta then .none else k.saleMeta
  saleBuyers := if gone .saleBuyers then ∅ else k.saleBuyers

/-- The system moves on, and of its keys those of `kept` stay as they were. A
scan need not return a key that went, even when it comes back. -/
def Cluster.next (C : Cluster) (sys : System) (kept : KeySet) : Cluster :=
  { C with sys, replicas := C.replicas.map (·.still kept) }

def Cluster.setRedis (C : Cluster) (redis : Redis) : Cluster := C.next { C.sys with redis } (present redis)

/-- The keys that `a` leaves there, and does not replace. -/
def spared (S S' : System) (a : Action) : KeySet :=
  fun id kind => present S'.redis id kind && !syncs (.ofText id) S a

def cstep (C : Cluster) : Event → Option Cluster
  | .close r => C.replicas[r]?.map fun rep => C.put r { rep with ready := false, wasDown := true }
  | .ready r => C.replicas[r]?.map fun rep =>
    if rep.wasDown then C.put r ⟨true, false, rep.sweeps ++ [present C.sys.redis]⟩
    else C.put r { rep with ready := true }
  | .page r i keys =>
    match C.replicas[r]? with
    | some rep => rep.sweeps[i]?.map fun _ => C.setRedis (delKeys C.sys.redis keys)
    | none => none
  | .lastPage r i =>
    match C.replicas[r]? with
    | some rep => rep.sweeps[i]?.map fun left =>
      (C.put r { rep with sweeps := rep.sweeps.eraseIdx i }).setRedis fun id => (C.sys.redis id).without (left id)
    | none => none
  | .sweepFails r i => C.replicas[r]?.map fun rep => C.put r { rep with sweeps := rep.sweeps.eraseIdx i }
  | .restart r => C.replicas[r]?.map fun _ => C.put r .fresh
  | .act a =>
    if C.linked a then (step C.sys a).map fun sys =>
      { C.next sys (spared C.sys sys a) with
        missed := fun u => misses u C.sys a || (C.missed u && !syncs u C.sys a)
        misled := fun u => C.misled u || (C.missed u && reserves u C.sys a) }
    else none

/-! ## When a wipe is due -/

/-- The sweep has yet to delete every key that the sale has. -/
def covers (left : KeySet) (k : SaleKeys) (id : String) : Bool :=
  [KeyKind.saleStock, .saleMeta, .saleBuyers].all fun kind => !k.has kind || left id kind

/-- The process will wipe the sale: at its next `ready`, or in a sweep. -/
def Replica.owes (rep : Replica) (k : SaleKeys) (id : String) : Bool :=
  rep.wasDown || rep.sweeps.any (covers · k id)

/-- The sale has keys, and some process is to wipe them. -/
def Cluster.wipeDue (C : Cluster) (u : Uuid) : Bool :=
  C.sys.redis u.text ≠ .none && C.replicas.any (·.owes (C.sys.redis u.text) u.text)

/-- The event leaves the wiping of stale keys to be done, and done first: a row
passes the keys by only when their wipe is due; the script does not run on
keys whose wipe is due; and no restart or failed sweep forgets a wipe. -/
def Heeds (u : Uuid) (C : Cluster) : Event → Prop
  | .act a => (misses u C.sys a → C.wipeDue u) ∧ (asks u a → ¬ C.wipeDue u)
  | .restart r => C.wipeDue u → (C.put r .fresh).wipeDue u
  | .sweepFails r i => ∀ rep ∈ C.replicas[r]?, C.wipeDue u →
    (C.put r { rep with sweeps := rep.sweeps.eraseIdx i }).wipeDue u
  | _ => True

instance (u : Uuid) (C : Cluster) : (e : Event) → Decidable (Heeds u C e)
  | .act _ => inferInstanceAs (Decidable ((_ → _) ∧ (_ → ¬ _)))
  | .restart _ => inferInstanceAs (Decidable (_ → _))
  | .sweepFails r _ => inferInstanceAs (Decidable (∀ rep ∈ C.replicas[r]?, _ → _))
  | .close _ | .ready _ | .page .. | .lastPage .. => inferInstanceAs (Decidable True)

/-! ## Keys that go -/

theorem SaleKeys.has_none (kind : KeyKind) : SaleKeys.none.has kind = false := by
  cases kind <;> simp [SaleKeys.none, SaleKeys.has]

theorem SaleKeys.eq_none {k : SaleKeys} (h : ∀ kind, k.has kind = false) : k = .none := by
  have h1 := h .saleStock
  have h2 := h .saleMeta
  have h3 := h .saleBuyers
  simp only [SaleKeys.has, Option.isSome_eq_false_iff, Option.isNone_iff_eq_none, Bool.not_eq_false',
    decide_eq_true_eq] at h1 h2 h3
  exact SaleKeys.ext h1 h2 h3

theorem covers_iff {left : KeySet} {k : SaleKeys} {id : String} :
    covers left k id = true ↔ ∀ kind, k.has kind = true → left id kind = true := by
  constructor
  · intro h kind hk
    have := List.all_eq_true.1 h kind (by cases kind <;> simp)
    simpa [hk] using this
  · intro h
    apply List.all_eq_true.2
    intro kind _
    cases hk : k.has kind <;> simp [h kind, hk]

/-- A process owes no less when there are fewer keys, and those as they were. -/
theorem Replica.owes_still {rep : Replica} {k k' : SaleKeys} {id : String} {kept : KeySet}
    (hk : ∀ kind, k'.has kind → k.has kind ∧ kept id kind) (h : rep.owes k id = true) :
    (rep.still kept).owes k' id = true := by
  simp only [Replica.owes, Bool.or_eq_true, List.any_eq_true] at h ⊢
  rcases h with h | ⟨left, hl, hc⟩
  · exact .inl h
  · refine .inr ⟨left.still kept, List.mem_map_of_mem hl, covers_iff.2 fun kind hkind => ?_⟩
    obtain ⟨hold, hkept⟩ := hk kind hkind
    simp [KeySet.still, covers_iff.1 hc kind hold, hkept]

/-- When a sweep ends, what it owed is all that is no longer owed. -/
theorem Replica.owes_eraseIdx {rep : Replica} {k : SaleKeys} {id : String} {i : Nat} {left : KeySet}
    (hi : rep.sweeps[i]? = some left) (h : rep.owes k id = true) (hc : covers left k id = false) :
    Replica.owes { rep with sweeps := rep.sweeps.eraseIdx i } k id = true := by
  simp only [Replica.owes, Bool.or_eq_true, List.any_eq_true] at h ⊢
  rcases h with h | ⟨left', hl, hc'⟩
  · exact .inl h
  · obtain ⟨hlt, rfl⟩ := List.getElem?_eq_some_iff.1 hi
    rcases List.mem_cons.1 ((List.getElem_cons_eraseIdx_perm hlt).symm.subset hl) with rfl | hl
    · rw [hc] at hc'
      cases hc'
    · exact .inr ⟨left', hl, hc'⟩

theorem SaleKeys.has_del (k : SaleKeys) (kind kind' : KeyKind) :
    (k.del kind').has kind = (k.has kind && kind ≠ kind') := by
  cases kind <;> cases kind' <;> simp [SaleKeys.del, SaleKeys.has] <;> rfl

theorem delKeys_has (redis : Redis) (keys : List (String × KeyKind)) (id : String) (kind : KeyKind) :
    (delKeys redis keys id).has kind = ((redis id).has kind && (id, kind) ∉ keys) := by
  induction keys generalizing redis with
  | nil => simp [delKeys]
  | cons key keys ih =>
    obtain ⟨id', kind'⟩ := key
    rw [delKeys, ih]
    by_cases hid : id = id'
    · subst hid
      by_cases hkind : kind = kind' <;> simp [SaleKeys.has_del, hkind]
    · simp [hid]

theorem SaleKeys.has_without (k : SaleKeys) (gone : KeyKind → Bool) (kind : KeyKind) :
    (k.without gone).has kind = (k.has kind && !gone kind) := by
  cases kind
  · cases hg : gone .saleStock <;> simp [SaleKeys.without, SaleKeys.has, hg]
  · cases hg : gone .saleMeta <;> simp [SaleKeys.without, SaleKeys.has, hg]
  · cases hg : gone .saleBuyers <;> simp [SaleKeys.without, SaleKeys.has, hg]

theorem SaleKeys.Remains.has {k' k : SaleKeys} (h : k'.Remains k) (kind : KeyKind) (hk : k'.has kind = true) :
    k.has kind = true := by
  cases kind with
  | saleStock => rcases h.saleStock with he | he <;> simp_all [SaleKeys.has]
  | saleMeta => rcases h.saleMeta with he | he <;> simp_all [SaleKeys.has]
  | saleBuyers => rcases h.saleBuyers with he | he <;> simp_all [SaleKeys.has]

/-! ## What a step of the system does to the keys -/

/-- The keys of `u` change when the script reserves from them, when some are
deleted and when they are loaded, and at no other step. -/
theorem step_keys {S S' : System} {a : Action} (h : step S a = some S') (u : Uuid) :
    S'.redis u.text = S.redis u.text ∨ (asks u a = true ∧ S.redis u.text ≠ .none) ∨
      (S'.redis u.text).Remains (S.redis u.text) ∨ syncs u S a = true := by
  cases Step.of_step h with
  | @attempt replica saleId email now link =>
    rw [(stepAttempt_frame S replica saleId email now link).2.2.2, reserve_redis]
    split
    · rename_i hx
      by_cases hid : saleId = u.text
      · subst hid
        rw [reservePurchase_self]
        rcases reserveScript_cases (normalizeEmail email) now (S.redis u.text) with ⟨_, ho, -⟩ | ⟨-, hk⟩
        · refine .inr (.inl ⟨by simp [asks, hx], ?_⟩)
          intro hnone
          have := ho.warmed
          rw [hnone] at this
          simp [SaleKeys.none] at this
        · exact .inl hk
      · exact .inl (reservePurchase_other _ _ _ (Ne.symm hid))
    · exact .inl rfl
  | @publish i queued p hi hstage => cases queued <;> exact .inl rfl
  | @lookup i pgUp now p hi hstage => exact .inl (congrFun (stepLookup_frame S i p pgUp now).2.2.2 _)
  | @drain entries fate settled hsub => exact .inl (congrFun (stepDrain_frame S entries fate settled).2.1 _)
  | write | expire | warmRows | warmBuyers => exact .inl rfl
  | flush => exact .inr (.inr (.inl (delKeys_remains S.redis _ u.text)))
  | @warmSync row buyers hreading =>
    by_cases hid : row.id = u.text
    · exact .inr (.inr (.inr (by simp [syncs, hreading, hid])))
    · exact .inl (Function.update_of_ne (Ne.symm hid) _ _)

/-- The script reserves only from keys that are there, and only if it runs. -/
theorem reserves_asks {u : Uuid} {S : System} {a : Action} (h : reserves u S a = true) :
    asks u a = true ∧ S.redis u.text ≠ .none := by
  cases a with
  | attempt replica saleId email now link =>
    simp only [reserves, Bool.and_eq_true, decide_eq_true_eq] at h
    obtain ⟨⟨rfl, hx⟩, hcode⟩ := h
    refine ⟨by simp [asks, hx], fun hnone => ?_⟩
    rw [reservePurchase_code, hnone, reserveScript_none] at hcode
    cases hcode
  | _ => simp [reserves] at h

/-! ## The invariant -/

structure Cluster.Inv (u : Uuid) (C : Cluster) : Prop where
  /-- Stale keys are due to be wiped. -/
  due : C.missed u = true → C.sys.redis u.text ≠ .none → C.wipeDue u = true
  misled : C.misled u = false

theorem wipeDue_iff {C : Cluster} {u : Uuid} :
    C.wipeDue u = true ↔
      C.sys.redis u.text ≠ .none ∧ ∃ rep ∈ C.replicas, rep.owes (C.sys.redis u.text) u.text = true := by
  simp [Cluster.wipeDue]

/-- Replacing a process by one that owes no less keeps a wipe due. -/
theorem wipeDue_put {C : Cluster} {u : Uuid} {r : Nat} {old new : Replica} (hr : C.replicas[r]? = some old)
    (hnew : old.owes (C.sys.redis u.text) u.text = true → new.owes (C.sys.redis u.text) u.text = true)
    (h : C.wipeDue u = true) : (C.put r new).wipeDue u = true := by
  obtain ⟨hsome, rep, hmem, howes⟩ := wipeDue_iff.1 h
  refine wipeDue_iff.2 ⟨hsome, ?_⟩
  obtain ⟨j, hj⟩ := List.mem_iff_getElem?.1 hmem
  obtain ⟨hlt, -⟩ := List.getElem?_eq_some_iff.1 hj
  by_cases hjr : j = r
  · subst hjr
    obtain rfl := Option.some.inj (hr.symm.trans hj)
    exact ⟨new, List.mem_iff_getElem?.2 ⟨j, List.getElem?_set_self hlt⟩, hnew howes⟩
  · refine ⟨rep, List.mem_iff_getElem?.2 ⟨j, ?_⟩, howes⟩
    exact (List.getElem?_set_ne (Ne.symm hjr)).trans hj

/-- A wipe stays due while there are keys, each of them as it was. -/
theorem wipeDue_next {C : Cluster} {u : Uuid} {sys : System} {kept : KeySet}
    (hk : ∀ kind, (sys.redis u.text).has kind → (C.sys.redis u.text).has kind ∧ kept u.text kind)
    (hsome : sys.redis u.text ≠ .none) (h : C.wipeDue u = true) : (C.next sys kept).wipeDue u = true := by
  obtain ⟨-, rep, hmem, howes⟩ := wipeDue_iff.1 h
  exact wipeDue_iff.2 ⟨hsome, rep.still kept, List.mem_map_of_mem hmem, Replica.owes_still hk howes⟩

/-- A change of one process alone keeps the invariant if it forgets no wipe. -/
theorem Cluster.Inv.put {u : Uuid} {C : Cluster} (h : C.Inv u) {r : Nat} {rep : Replica}
    (hw : C.wipeDue u = true → (C.put r rep).wipeDue u = true) : (C.put r rep).Inv u where
  due hm hn := hw (h.due hm hn)
  misled := h.misled

theorem some_of_has {k k' : SaleKeys} (hk : ∀ kind, k'.has kind → k.has kind) (h : k' ≠ .none) : k ≠ .none := by
  rintro rfl
  apply h
  apply SaleKeys.eq_none
  intro kind
  cases hkind : k'.has kind with
  | false => rfl
  | true => rw [← SaleKeys.has_none kind]; exact (hk kind hkind).symm

/-- Deleting keys keeps the invariant. -/
theorem Cluster.Inv.setRedis {u : Uuid} {C : Cluster} (h : C.Inv u) {redis : Redis}
    (hk : ∀ kind, (redis u.text).has kind → (C.sys.redis u.text).has kind) : (C.setRedis redis).Inv u where
  due hm hn := wipeDue_next (fun kind hkind => ⟨hk kind hkind, hkind⟩) hn (h.due hm (some_of_has hk hn))
  misled := h.misled

theorem Cluster.Inv.close {u : Uuid} {C : Cluster} (h : C.Inv u) {r : Nat} {rep : Replica}
    (hr : C.replicas[r]? = some rep) : (C.put r { rep with ready := false, wasDown := true }).Inv u := by
  apply h.put
  apply wipeDue_put hr
  intro _
  simp [Replica.owes]

theorem Cluster.Inv.ready {u : Uuid} {C : Cluster} (h : C.Inv u) {r : Nat} {rep : Replica}
    (hr : C.replicas[r]? = some rep) :
    Cluster.Inv u (if rep.wasDown then C.put r ⟨true, false, rep.sweeps ++ [present C.sys.redis]⟩
      else C.put r { rep with ready := true }) := by
  split
  · -- The flag is lowered, and a sweep of all keys begins.
    apply h.put
    apply wipeDue_put hr
    intro _
    have hcovers : covers (present C.sys.redis) (C.sys.redis u.text) u.text = true := covers_iff.2 fun _ hkind => hkind
    simp [Replica.owes, hcovers]
  · apply h.put
    exact wipeDue_put hr id

theorem Cluster.Inv.lastPage {u : Uuid} {C : Cluster} (h : C.Inv u) {r i : Nat} {rep : Replica} {left : KeySet}
    (hr : C.replicas[r]? = some rep) (hi : rep.sweeps[i]? = some left) :
    ((C.put r { rep with sweeps := rep.sweeps.eraseIdx i }).setRedis fun id =>
      (C.sys.redis id).without (left id)).Inv u := by
  cases hc : covers left (C.sys.redis u.text) u.text with
  | true =>
    -- This sweep owed the wipe, and it is done.
    have hgone : (C.sys.redis u.text).without (left u.text) = .none := by
      apply SaleKeys.eq_none
      intro kind
      rw [SaleKeys.has_without]
      cases hkind : (C.sys.redis u.text).has kind with
      | false => rfl
      | true => simp [covers_iff.1 hc kind hkind]
    exact ⟨fun _ hn => absurd hgone hn, h.misled⟩
  | false =>
    apply Cluster.Inv.setRedis
    · apply h.put
      exact wipeDue_put hr fun howes => Replica.owes_eraseIdx hi howes hc
    · intro kind hkind
      rw [SaleKeys.has_without] at hkind
      exact (Bool.and_eq_true _ _ ▸ hkind).1

theorem misses_syncs {u : Uuid} {S : System} {a : Action} (h : syncs u S a = true) : misses u S a = false := by
  cases a with
  | warmSync => simp [misses, taker]
  | _ => simp [syncs] at h

/-- Where no wipe is due, or the script does not run, a step leaves the keys of
`u` there as they were, or loads them. -/
theorem step_spares {S S' : System} {a : Action} (h : step S a = some S') {u : Uuid} (hasks : asks u a = false)
    (hsyncs : syncs u S a = false) (kind : KeyKind) (hkind : (S'.redis u.text).has kind = true) :
    (S.redis u.text).has kind = true ∧ spared S S' a u.text kind = true := by
  constructor
  · rcases step_keys h u with he | ⟨hx, -⟩ | hk | hs
    · rwa [he] at hkind
    · rw [hasks] at hx
      cases hx
    · exact hk.has kind hkind
    · rw [hsyncs] at hs
      cases hs
  · simp [spared, present, hkind, Uuid.ofText_text, hsyncs]

theorem Cluster.Inv.act {u : Uuid} {C : Cluster} (h : C.Inv u) {a : Action} (hheeds : Heeds u C (.act a))
    {sys : System} (hstep : step C.sys a = some sys) :
    Cluster.Inv u { C.next sys (spared C.sys sys a) with
      missed := fun u => misses u C.sys a || (C.missed u && !syncs u C.sys a)
      misled := fun u => C.misled u || (C.missed u && reserves u C.sys a) } where
  due hm hn := by
    change sys.redis u.text ≠ .none at hn
    simp only [Bool.or_eq_true, Bool.and_eq_true, Bool.not_eq_true'] at hm
    have hsyncs : syncs u C.sys a = false := by
      cases hs : syncs u C.sys a with
      | false => rfl
      | true => simp [misses_syncs hs, hs] at hm
    have hdue : C.wipeDue u = true := by
      rcases hm with hmisses | ⟨hmissed, -⟩
      · exact hheeds.1 hmisses
      · apply h.due hmissed
        rcases step_keys hstep u with he | ⟨-, hsome⟩ | hk | hs
        · rwa [he] at hn
        · exact hsome
        · exact some_of_has hk.has hn
        · rw [hsyncs] at hs
          cases hs
    have hasks : asks u a = false := Bool.eq_false_iff.2 fun hx => hheeds.2 hx hdue
    exact wipeDue_next (step_spares hstep hasks hsyncs) hn hdue
  misled := by
    simp only [h.misled, Bool.false_or, Bool.and_eq_false_iff]
    by_contra! hboth
    obtain ⟨hmissed, hres⟩ := hboth
    obtain ⟨hx, hsome⟩ := reserves_asks (Bool.eq_true_of_not_eq_false hres)
    exact hheeds.2 hx (h.due (Bool.eq_true_of_not_eq_false hmissed) hsome)

/-- Every event that heeds the wipes keeps the invariant. -/
theorem Cluster.Inv.step {u : Uuid} {C C' : Cluster} {e : Event} (h : C.Inv u) (hheeds : Heeds u C e)
    (hstep : cstep C e = some C') : C'.Inv u := by
  cases e with
  | close r =>
    obtain ⟨rep, hr, rfl⟩ := Option.map_eq_some_iff.1 hstep
    exact h.close hr
  | ready r =>
    obtain ⟨rep, hr, rfl⟩ := Option.map_eq_some_iff.1 hstep
    exact h.ready hr
  | page r i keys =>
    simp only [cstep] at hstep
    split at hstep
    · obtain ⟨_, -, rfl⟩ := Option.map_eq_some_iff.1 hstep
      apply h.setRedis
      intro kind hkind
      rw [delKeys_has] at hkind
      exact (Bool.and_eq_true _ _ ▸ hkind).1
    · cases hstep
  | lastPage r i =>
    simp only [cstep] at hstep
    split at hstep
    · rename_i rep hr
      obtain ⟨left, hi, rfl⟩ := Option.map_eq_some_iff.1 hstep
      exact h.lastPage hr hi
    · cases hstep
  | sweepFails r i =>
    obtain ⟨rep, hr, rfl⟩ := Option.map_eq_some_iff.1 hstep
    exact h.put (hheeds rep hr)
  | restart r =>
    obtain ⟨rep, hr, rfl⟩ := Option.map_eq_some_iff.1 hstep
    exact h.put hheeds
  | act a =>
    simp only [cstep] at hstep
    split at hstep
    · obtain ⟨sys, hs, rfl⟩ := Option.map_eq_some_iff.1 hstep
      exact h.act hheeds hs
    · cases hstep

/-! ## Main theorem -/

/-- In a run that heeds the wipes the script never reserves from stale keys. -/
theorem stale_keys_never_reserve {u : Uuid} {C C' : Cluster} (hmissed : C.missed u = false)
    (hmisled : C.misled u = false) (h : Steps cstep (Heeds u) C C') : C'.misled u = false := by
  have h0 : C.Inv u := ⟨fun hm => absurd (hmissed.symm.trans hm) Bool.false_ne_true, hmisled⟩
  exact (h.inv (I := Cluster.Inv u) h0 fun _ _ _ hI hheeds hstep => hI.step hheeds hstep).misled

/-! ## Runs -/

/-- Two units, and the processes connected. -/
def demoCluster (replicas : Nat) : Cluster :=
  ⟨demoSystem 2, .replicate replicas ⟨true, false, []⟩, fun _ => false, fun _ => false⟩

/-- Bob buys from Postgres during an outage; Redis comes back and is swept; Ann
is then sent to Postgres as well. -/
theorem stale_keys_never_reserve_demo : ∃ C, Steps cstep (Heeds demoId) (demoCluster 1) C ∧
    C.missed demoId = true ∧ C.sys.redis demoId.text = .none ∧ C.misled demoId = false := by
  obtain ⟨C, hrun, hmissed, hnone⟩ : ∃ C, Steps cstep (Heeds demoId) (demoCluster 1) C ∧
      C.missed demoId = true ∧ C.sys.redis demoId.text = .none :=
    Steps.exists_of_run
      [.close 0, .act (.attempt 0 demoId.text "bob@example.com" 5 .notReady), .act (.lookup 0 true 6),
        .act (.write 0 7000 .runs), .ready 0, .lastPage 0 0,
        .act (.attempt 0 demoId.text "ann@example.com" 9 .answered)]
      (by decide +kernel)
  exact ⟨C, hrun, hmissed, hnone, stale_keys_never_reserve rfl rfl hrun⟩

/-- A command fails though the connection stays, so no wipe is due: Bob buys
from Postgres, and the script then reserves for Ann from the keys he passed. -/
theorem failed_command_leaves_stale_keys : ∃ C, Steps cstep (fun _ _ => True) (demoCluster 1) C ∧
    C.misled demoId = true :=
  Steps.exists_of_run
    [.act (.attempt 0 demoId.text "bob@example.com" 5 .failed), .act (.lookup 0 true 6),
      .act (.write 0 7000 .runs), .act (.attempt 0 demoId.text "ann@example.com" 9 .answered)]
    (by decide +kernel)

end FlashSale
