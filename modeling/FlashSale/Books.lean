import FlashSale.System
/-!
# One sale's books

What the system holds of one sale: its keys, its row and buyers, the buyers
with a message, those with a call under way, those told they succeeded.
`Moves` lists the ways a step can change these; the invariants of a sale are
case analyses over it.
-/

namespace FlashSale

/-! ## The books -/

/-- The buyers of `u` among some messages. -/
def mailOf (ms : List PurchaseWriteEntry) (u : Uuid) : Finset String :=
  ((ms.filter (Uuid.ofText ·.saleId = u)).map (normalizeEmail ·.email)).toFinset

/-- Whether the call holds a reservation. -/
def Stage.gated : Stage → Bool
  | .publish | .write => true
  | .lookup | .record => false

/-- The buyers of `u` with a call under way that holds a reservation, or with
one that does not. -/
def callersOf (ps : List Pending) (u : Uuid) (gated : Bool) : Finset String :=
  ((ps.filter fun p => Uuid.ofText p.saleId = u ∧ p.stage.gated = gated).map (normalizeEmail ·.email)).toFinset

def Answer.isSuccess (a : Answer) : Bool :=
  match a.result with
  | .ok r => r.status = .success
  | .error _ => false

/-- The buyers of `u` who have been answered success. -/
def toldOf (answers : List Answer) (u : Uuid) : Finset String :=
  ((answers.filter fun a => Uuid.ofText a.saleId = u ∧ a.isSuccess).map (normalizeEmail ·.email)).toFinset

structure Books where
  keys : SaleKeys
  sale : Option PgSale
  settled : Finset String
  queued : Finset String
  dead : Finset String
  owed : Finset String
  fallback : Finset String
  told : Finset String

def System.books (S : System) (u : Uuid) : Books where
  keys := S.redis u.text
  sale := S.db.sale u
  settled := S.db.buyers u
  queued := mailOf S.queue u
  dead := mailOf S.dead u
  owed := callersOf S.pending u true
  fallback := callersOf S.pending u false
  told := toldOf S.answers u

/-! ### What changes them -/

theorem mem_mailOf {ms : List PurchaseWriteEntry} {u : Uuid} {b : String} :
    b ∈ mailOf ms u ↔ ∃ m ∈ ms, Uuid.ofText m.saleId = u ∧ normalizeEmail m.email = b := by
  simp [mailOf, and_assoc]

theorem mailOf_subset {ms ms' : List PurchaseWriteEntry} (h : ms ⊆ ms') (u : Uuid) : mailOf ms u ⊆ mailOf ms' u := by
  intro b hb
  obtain ⟨m, hm, hu, he⟩ := mem_mailOf.1 hb
  exact mem_mailOf.2 ⟨m, h hm, hu, he⟩

theorem mailOf_append (ms ms' : List PurchaseWriteEntry) (u : Uuid) :
    mailOf (ms ++ ms') u = mailOf ms u ∪ mailOf ms' u := by
  simp [mailOf, List.filter_append, List.toFinset_append]

theorem mailOf_diff (ms ms' : List PurchaseWriteEntry) (u : Uuid) :
    mailOf ms u ⊆ mailOf (ms.diff ms') u ∪ mailOf ms' u := by
  intro b hb
  obtain ⟨m, hm, hu, he⟩ := mem_mailOf.1 hb
  rw [Finset.mem_union]
  by_cases hm' : m ∈ ms'
  · exact .inr (mem_mailOf.2 ⟨m, hm', hu, he⟩)
  · exact .inl (mem_mailOf.2 ⟨m, List.mem_diff_of_mem hm hm', hu, he⟩)

theorem mem_callersOf {ps : List Pending} {u : Uuid} {gated : Bool} {b : String} :
    b ∈ callersOf ps u gated ↔
      ∃ p ∈ ps, Uuid.ofText p.saleId = u ∧ p.stage.gated = gated ∧ normalizeEmail p.email = b := by
  simp [callersOf, and_assoc]

theorem callersOf_append (ps ps' : List Pending) (u : Uuid) (gated : Bool) :
    callersOf (ps ++ ps') u gated = callersOf ps u gated ∪ callersOf ps' u gated := by
  simp [callersOf, List.filter_append, List.toFinset_append]

theorem callersOf_eraseIdx (ps : List Pending) (i : Nat) (u : Uuid) (gated : Bool) :
    callersOf (ps.eraseIdx i) u gated ⊆ callersOf ps u gated := by
  intro b hb
  obtain ⟨p, hp, h⟩ := mem_callersOf.1 hb
  exact mem_callersOf.2 ⟨p, (List.eraseIdx_sublist ps i).subset hp, h⟩

/-- A call that goes on keeps its side. -/
theorem callersOf_set {ps : List Pending} {i : Nat} {p : Pending} (hi : ps[i]? = some p) {stage : Stage}
    (hs : stage.gated = p.stage.gated) (u : Uuid) (gated : Bool) :
    callersOf (ps.set i { p with stage }) u gated ⊆ callersOf ps u gated := by
  intro b hb
  obtain ⟨q, hq, h⟩ := mem_callersOf.1 hb
  rcases List.mem_or_eq_of_mem_set hq with hq | rfl
  · exact mem_callersOf.2 ⟨q, hq, h⟩
  · exact mem_callersOf.2 ⟨p, List.mem_of_getElem? hi, h.1, hs ▸ h.2.1, h.2.2⟩

theorem toldOf_append (as as' : List Answer) (u : Uuid) : toldOf (as ++ as') u = toldOf as u ∪ toldOf as' u := by
  simp [toldOf, List.filter_append, List.toFinset_append]

theorem toldOf_refused {a : Answer} (h : a.isSuccess = false) (u : Uuid) : toldOf [a] u = ∅ := by
  simp [toldOf, h]

theorem toldOf_other {a : Answer} {u : Uuid} (h : Uuid.ofText a.saleId ≠ u) : toldOf [a] u = ∅ := by
  simp [toldOf, h]

/-! ## How they move -/

/-- The action starts a call for `u` that the script does not decide: it gets
no answer, or `not_warmed`. -/
def refers (u : Uuid) (S : System) : Action → Bool
  | .attempt _ saleId email now link =>
    Uuid.ofText saleId = u && (!link.heard || (reservePurchase S.redis saleId email now).1 = .not_warmed)
  | _ => false

/-- The action starts a call for `u` that reserves and never hears of it: its
command is sent again, and finds the buyer recorded. -/
def resends (u : Uuid) (S : System) : Action → Bool
  | .attempt _ saleId email now link =>
    Uuid.ofText saleId = u && link = .resent && (reservePurchase S.redis saleId email now).1 = .reserved
  | _ => false

/-- The action deletes a key of `u`. -/
def deletes (u : Uuid) : Action → Bool
  | .flush keys => keys.any (·.1 = u.text)
  | _ => false

/-- The action loads the keys of `u`. -/
def syncs (u : Uuid) (S : System) : Action → Bool
  | .warmSync =>
    match S.warm.reading with
    | some (row, _) => row.id = u.text
    | none => false
  | _ => false

/-- The new buyer of `u` for whom the action writes a row on the Postgres-only
path, if it does and Postgres has a unit. -/
def taker (u : Uuid) (S : System) : Action → Option String
  | .write i dbNow fate =>
    match S.pending[i]?, S.db.sale u with
    | some p, some s =>
      if p.stage = .record ∧ Uuid.ofText p.saleId = u ∧ fate ≠ .unreachable ∧
          outsideSalePeriod S.db (purchaseRow dbNow p.saleId p.email) = false ∧
          normalizeEmail p.email ∉ S.db.buyers u ∧ 0 < s.remainingStock then
        some (normalizeEmail p.email)
      else none
    | _, _ => none
  | _ => none

theorem taker_new {u : Uuid} {S : System} {a : Action} {b : String} (h : taker u S a = some b) :
    b ∉ S.db.buyers u := by
  unfold taker at h
  split at h
  · split at h
    · split at h
      · rename_i hif
        obtain rfl := Option.some.inj h
        exact hif.2.2.2.2.1
      · cases h
    · cases h
  · cases h

/-- What one step can make of the books of `u`. -/
inductive Moves (u : Uuid) (S : System) (a : Action) : Books → Prop
  /-- Calls end or go on, and nothing else. -/
  | quiet {owed fallback : Finset String} : owed ⊆ (S.books u).owed → fallback ⊆ (S.books u).fallback →
      Moves u S a { S.books u with owed, fallback }
  /-- A call is referred to Postgres. -/
  | refer (b : String) : refers u S a → Moves u S a { S.books u with fallback := insert b (S.books u).fallback }
  /-- The script reserves for `b`. -/
  | reserve (b : String) (stock now : Int) : (S.books u).keys.Open now → b ∉ (S.books u).keys.saleBuyers →
      (S.books u).keys.Stocks stock → 0 < stock →
      Moves u S a { S.books u with keys := (S.books u).keys.spend stock b, owed := insert b (S.books u).owed }
  /-- The script reserves for `b`, and the call does not hear of it. -/
  | reserveLost (b : String) (stock now : Int) : refers u S a → (S.books u).keys.Open now →
      b ∉ (S.books u).keys.saleBuyers → (S.books u).keys.Stocks stock → 0 < stock →
      Moves u S a { S.books u with keys := (S.books u).keys.spend stock b, fallback := insert b (S.books u).fallback }
  /-- The script reserves for `b`, and the call is told that `b` has a purchase. -/
  | resend (b : String) (stock now : Int) : resends u S a → (S.books u).keys.Open now →
      b ∉ (S.books u).keys.saleBuyers → (S.books u).keys.Stocks stock → 0 < stock →
      Moves u S a { S.books u with keys := (S.books u).keys.spend stock b }
  /-- The message of `b` is queued, and `b` told of success. -/
  | publish (b : String) {owed : Finset String} : b ∈ (S.books u).owed → owed ⊆ (S.books u).owed →
      Moves u S a { S.books u with
        queued := insert b (S.books u).queued, told := insert b (S.books u).told, owed }
  /-- The row of `b`, who holds a reservation, is written directly. -/
  | write (b : String) {owed told : Finset String} : b ∈ (S.books u).owed → owed ⊆ (S.books u).owed →
      b ∉ (S.books u).settled → (∀ s, (S.books u).sale = some s → 0 < s.remainingStock) →
      (S.books u).told ⊆ told → told ⊆ insert b (S.books u).told →
      Moves u S a { S.books u with
        sale := (S.books u).sale.map (·.take 1), settled := insert b (S.books u).settled, owed, told }
  /-- The row of `b` is written on the Postgres-only path. -/
  | record (b : String) {fallback told : Finset String} : taker u S a = some b → b ∈ (S.books u).fallback →
      fallback ⊆ (S.books u).fallback → (S.books u).told ⊆ told → told ⊆ insert b (S.books u).told →
      Moves u S a { S.books u with
        sale := (S.books u).sale.map (·.take 1), settled := insert b (S.books u).settled, fallback, told }
  /-- The worker writes the rows of `t`, and settles messages it has written
  or given up. -/
  | drain (t : Finset String) {queued dead : Finset String} : t ⊆ (S.books u).queued →
      Disjoint t (S.books u).settled → (∀ s, (S.books u).sale = some s → (t.card : Int) ≤ s.remainingStock) →
      queued ⊆ (S.books u).queued → (S.books u).dead ⊆ dead → dead ⊆ (S.books u).dead ∪ (S.books u).queued →
      (S.books u).queued ⊆ queued ∪ dead ∪ ((S.books u).settled ∪ t) →
      Moves u S a { S.books u with
        sale := (S.books u).sale.map (·.take t.card), settled := (S.books u).settled ∪ t, queued, dead }
  /-- Some of its keys are deleted. -/
  | delete {keys : SaleKeys} : deletes u a → keys.Remains (S.books u).keys → Moves u S a { S.books u with keys }
  /-- Its keys are loaded. -/
  | sync {keys : SaleKeys} : syncs u S a → Moves u S a { S.books u with keys }

theorem Moves.still (u : Uuid) (S : System) (a : Action) : Moves u S a (S.books u) :=
  .quiet subset_rfl subset_rfl

end FlashSale
