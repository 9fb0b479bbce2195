import FlashSale.Sales
import FlashSale.Ledger
import FlashSale.Lib.Runs
/-!
# Lookups that overlap

Calls to `SalesService.findRowById` on one api process, one await at a time:
the cache is read, the row is selected, the row is cached, the call returns.
The table moves forward meanwhile. A row that is cached after its select may be
older than what another call has returned since, and the cache then serves it.
-/

namespace FlashSale
open Lib.Runs

/-! ## The calls -/

def SALE_CACHE_TTL_MS : Nat := 1000

/-- The await a call is at. -/
inductive LookupStage where
  | get
  | select
  | set (row : SaleRow)
  | done (row : Option SaleRow)
deriving DecidableEq

/-- What the call is about to answer, once it knows. -/
def LookupStage.answer? : LookupStage → Option (Option SaleRow)
  | .get | .select => none
  | .set row => some (some row)
  | .done row => some row

structure LookupCall where
  id : String
  /-- How many calls had returned when this one began. -/
  since : Nat
  stage : LookupStage
deriving DecidableEq

/-- A call that is over, and the row it returned. -/
structure ReturnedRow where
  id : String
  since : Nat
  row : Option SaleRow
deriving DecidableEq

def LookupCall.returns (call : LookupCall) (row : Option SaleRow) : ReturnedRow := ⟨call.id, call.since, row⟩

/-- What `cache.set` stores under `sale:<id>`, and until when. -/
structure CacheEntry where
  id : String
  row : SaleRow
  expires : Nat
deriving DecidableEq

structure Lookups where
  db : Db
  cache : List CacheEntry
  now : Nat
  calls : List LookupCall
  returned : List ReturnedRow

inductive LookupAction where
  | begin (id : String)
  /-- Call `k` takes the step it is at. -/
  | advance (k : Nat)
  /-- The select of call `k` fails, and the call throws. -/
  | rejects (k : Nat)
  | write (db : Db)
  | elapse (ms : Nat)

/-- Sales stay, stock only goes down and a cancellation is final. -/
def Db.forward (db db' : Db) : Bool :=
  db.sales.all fun s => (db'.sale s.id).any fun s' =>
    s'.remainingStock ≤ s.remainingStock && (s.cancelledAt.isNone || s'.cancelledAt = s.cancelledAt)

/-- What the select finds. -/
def Db.row (db : Db) (id : String) : Option SaleRow := (db.sale (.ofText id)).map PgSale.toRow

namespace Lookups

def start (db : Db) : Lookups := ⟨db, [], 0, [], []⟩

/-- What `cache.get` finds. -/
def cached (l : Lookups) : Cache := fun id =>
  ((l.cache.find? (·.id = id)).filter fun entry => l.now ≤ entry.expires).map (·.row)

def moves (l : Lookups) (k : Nat) (call : LookupCall) (stage : LookupStage) : Lookups :=
  { l with calls := l.calls.set k { call with stage := stage } }

/-- `cache.set(saleCacheKey(id), row, SALE_CACHE_TTL_MS)`. It hides what was
stored under the id before. -/
def caches (l : Lookups) (id : String) (row : SaleRow) : Lookups :=
  { l with cache := ⟨id, row, l.now + SALE_CACHE_TTL_MS⟩ :: l.cache }

def advance (l : Lookups) (k : Nat) (call : LookupCall) : Lookups :=
  match call.stage with
  | .get =>
    match l.cached call.id with
    | some row => l.moves k call (.done (some row))
    | none => l.moves k call .select
  | .select =>
    match l.db.row call.id with
    | some row => l.moves k call (.set row)
    | none => l.moves k call (.done none)
  | .set row => (l.moves k call (.done (some row))).caches call.id row
  | .done row =>
    { l with calls := l.calls.eraseIdx k, returned := l.returned ++ [call.returns row] }

def step (l : Lookups) : LookupAction → Option Lookups
  | .begin id => some { l with calls := l.calls ++ [⟨id, l.returned.length, .get⟩] }
  | .advance k => (l.calls[k]?).map (l.advance k)
  | .rejects k =>
    if (l.calls[k]?).any (·.stage = .select) then some { l with calls := l.calls.eraseIdx k } else none
  | .write db => if l.db.forward db then some { l with db := db } else none
  | .elapse ms => some { l with now := l.now + ms }

end Lookups

/-! ## Older and newer rows -/

/-- `row` does not contradict `first`, which was read before. -/
def SaleRow.Follows (row first : SaleRow) : Prop :=
  row.remainingStock ≤ first.remainingStock ∧ (first.cancelledAt ≠ none → row.cancelledAt ≠ none)

/-- The same of two answers. A sale that was found is found again. -/
def AnswerFollows (answer first : Option SaleRow) : Prop :=
  ∀ row, first = some row → ∃ row', answer = some row' ∧ row'.Follows row

/-- As an answer for `id`, `answer` contradicts none of `returned`. -/
def NewerThan (returned : List ReturnedRow) (id : String) (answer : Option SaleRow) : Prop :=
  ∀ r ∈ returned, Uuid.ofText r.id = Uuid.ofText id → AnswerFollows answer r.row

/-- No call contradicts a call for the same sale that had returned when it
began. -/
def Lookups.NeverBackwards (l : Lookups) : Prop :=
  ∀ r ∈ l.returned, NewerThan (l.returned.take r.since) r.id r.row

/-- A row is cached while nothing newer has been returned, and is returned while
nothing older is cached under any spelling of its id. -/
def Lookups.FreshAt (l : Lookups) (id : String) : LookupStage → Prop
  | .set row => NewerThan l.returned id (some row)
  | .done (some row) => ∀ entry ∈ l.cache, Uuid.ofText entry.id = Uuid.ofText id →
      ∀ cached ∈ l.cached entry.id, cached.Follows row
  | _ => True

def Lookups.Fresh (l : Lookups) : LookupAction → Prop
  | .advance k => ∀ call ∈ l.calls[k]?, l.FreshAt call.id call.stage
  | _ => True

instance (row first : SaleRow) : Decidable (row.Follows first) := inferInstanceAs (Decidable (_ ∧ _))

instance (answer first : Option SaleRow) : Decidable (AnswerFollows answer first) :=
  match answer, first with
  | _, none => isTrue fun _ h => by cases h
  | none, some _ => isFalse fun h => by simpa using h _ rfl
  | some later, some earlier => decidable_of_iff (later.Follows earlier) (by simp [AnswerFollows])

instance (returned : List ReturnedRow) (id : String) (answer : Option SaleRow) :
    Decidable (NewerThan returned id answer) :=
  inferInstanceAs (Decidable (∀ r ∈ returned, _ → _))

instance (l : Lookups) : Decidable l.NeverBackwards := inferInstanceAs (Decidable (∀ r ∈ l.returned, _))

instance (l : Lookups) (id : String) : (stage : LookupStage) → Decidable (l.FreshAt id stage)
  | .set row => inferInstanceAs (Decidable (NewerThan l.returned id (some row)))
  | .done (some row) => inferInstanceAs
    (Decidable (∀ entry ∈ l.cache, _ → ∀ cached ∈ l.cached entry.id, cached.Follows row))
  | .get | .select | .done none => inferInstanceAs (Decidable True)

instance (l : Lookups) : (a : LookupAction) → Decidable (l.Fresh a)
  | .advance k => inferInstanceAs (Decidable (∀ call ∈ l.calls[k]?, _))
  | .begin _ | .rejects _ | .write _ | .elapse _ => inferInstanceAs (Decidable True)

theorem SaleRow.Follows.refl (row : SaleRow) : row.Follows row := ⟨le_refl _, fun hcancel => hcancel⟩

theorem SaleRow.Follows.trans {a b c : SaleRow} (h : a.Follows b) (h' : b.Follows c) : a.Follows c :=
  ⟨h.1.trans h'.1, fun hc => h.2 (h'.2 hc)⟩

theorem AnswerFollows.refl (answer : Option SaleRow) : AnswerFollows answer answer :=
  fun row hrow => ⟨row, hrow, .refl row⟩

theorem AnswerFollows.trans {a b c : Option SaleRow} (h : AnswerFollows a b) (h' : AnswerFollows b c) :
    AnswerFollows a c := by
  intro row hrow
  obtain ⟨row', hrow', hfollows⟩ := h' row hrow
  obtain ⟨row'', hrow'', hfollows'⟩ := h row' hrow'
  exact ⟨row'', hrow'', hfollows'.trans hfollows⟩

theorem NewerThan.trans {returned : List ReturnedRow} {id : String} {a b : Option SaleRow}
    (h : NewerThan returned id b) (hab : AnswerFollows a b) : NewerThan returned id a :=
  fun r hr hsame => hab.trans (h r hr hsame)

theorem NewerThan.subset {returned returned' : List ReturnedRow} {id : String} {a : Option SaleRow}
    (h : NewerThan returned id a) (hsub : returned' ⊆ returned) : NewerThan returned' id a :=
  fun r hr hsame => h r (hsub hr) hsame

theorem newerThan_append {returned : List ReturnedRow} {r : ReturnedRow} {id : String} {a : Option SaleRow} :
    NewerThan (returned ++ [r]) id a ↔
      NewerThan returned id a ∧ (Uuid.ofText r.id = Uuid.ofText id → AnswerFollows a r.row) := by
  simp only [NewerThan, List.mem_append, List.mem_singleton, or_imp, forall_and, forall_eq]

theorem Db.row_congr {db : Db} {id id' : String} (h : Uuid.ofText id = Uuid.ofText id') : db.row id = db.row id' := by
  rw [Db.row, Db.row, h]

/-- A row that is read later follows one that was read earlier. -/
theorem Db.row_forward {db db' : Db} (h : db.forward db' = true) (id : String) :
    AnswerFollows (db'.row id) (db.row id) := by
  intro row hrow
  obtain ⟨s, hs, rfl⟩ := Option.map_eq_some_iff.1 hrow
  have hm := List.mem_of_find?_eq_some hs
  have hid : s.id = Uuid.ofText id := by simpa using List.find?_some hs
  obtain ⟨s', hs', hle⟩ := (Option.any_eq_true ..).1 (List.all_eq_true.1 h s hm)
  rw [hid] at hs'
  refine ⟨s'.toRow, by rw [Db.row, hs']; rfl, ?_⟩
  simp only [Bool.and_eq_true, Bool.or_eq_true, decide_eq_true_eq, Option.isNone_iff_eq_none] at hle
  refine ⟨hle.1, fun hcancel => ?_⟩
  rcases hle.2 with hnone | hsame
  · simp [PgSale.toRow, hnone] at hcancel
  · simpa [PgSale.toRow, hsame] using hcancel

/-! ## What a step does -/

namespace Lookups

inductive Step (l : Lookups) : LookupAction → Lookups → Prop
  | begin (id : String) : l.Step (.begin id) { l with calls := l.calls ++ [⟨id, l.returned.length, .get⟩] }
  | hit {k : Nat} {call : LookupCall} {row : SaleRow} (hk : l.calls[k]? = some call) (hget : call.stage = .get)
      (hrow : l.cached call.id = some row) : l.Step (.advance k) (l.moves k call (.done (some row)))
  | miss {k : Nat} {call : LookupCall} (hk : l.calls[k]? = some call) (hget : call.stage = .get) :
      l.Step (.advance k) (l.moves k call .select)
  | selected {k : Nat} {call : LookupCall} {row : SaleRow} (hk : l.calls[k]? = some call)
      (hselect : call.stage = .select) (hrow : l.db.row call.id = some row) :
      l.Step (.advance k) (l.moves k call (.set row))
  | notFound {k : Nat} {call : LookupCall} (hk : l.calls[k]? = some call) (hselect : call.stage = .select)
      (hrow : l.db.row call.id = none) : l.Step (.advance k) (l.moves k call (.done none))
  | set {k : Nat} {call : LookupCall} {row : SaleRow} (hk : l.calls[k]? = some call) (hset : call.stage = .set row) :
      l.Step (.advance k) ((l.moves k call (.done (some row))).caches call.id row)
  | returns {k : Nat} {call : LookupCall} {row : Option SaleRow} (hk : l.calls[k]? = some call)
      (hdone : call.stage = .done row) :
      l.Step (.advance k)
        { l with calls := l.calls.eraseIdx k, returned := l.returned ++ [call.returns row] }
  | rejects {k : Nat} : l.Step (.rejects k) { l with calls := l.calls.eraseIdx k }
  | write {db : Db} (h : l.db.forward db = true) : l.Step (.write db) { l with db := db }
  | elapse (ms : Nat) : l.Step (.elapse ms) { l with now := l.now + ms }

theorem Step.of_step {l l' : Lookups} {a : LookupAction} (h : l.step a = some l') : l.Step a l' := by
  cases a with
  | begin id =>
    obtain rfl := Option.some.inj h
    exact .begin id
  | advance k =>
    obtain ⟨call, hk, rfl⟩ := Option.map_eq_some_iff.1 h
    unfold advance
    cases hstage : call.stage with
    | get =>
      cases hrow : l.cached call.id with
      | some row => exact .hit hk hstage hrow
      | none => exact .miss hk hstage
    | select =>
      cases hrow : l.db.row call.id with
      | some row => exact .selected hk hstage hrow
      | none => exact .notFound hk hstage hrow
    | set row => exact .set hk hstage
    | done row => exact .returns hk hstage
  | rejects k =>
    simp only [step] at h
    split at h
    · obtain rfl := Option.some.inj h
      exact .rejects
    · cases h
  | write db =>
    simp only [step] at h
    split at h
    · obtain rfl := Option.some.inj h
      exact .write ‹_›
    · cases h
  | elapse ms =>
    obtain rfl := Option.some.inj h
    exact .elapse ms

/-! ## What `cache.get` finds -/

section
variable {l : Lookups}

theorem cached_eq_some {id : String} {row : SaleRow} :
    l.cached id = some row ↔
      ∃ entry, l.cache.find? (·.id = id) = some entry ∧ l.now ≤ entry.expires ∧ entry.row = row := by
  unfold cached
  simp only [Option.map_eq_some_iff, Option.filter_eq_some_iff, decide_eq_true_eq, and_assoc]

/-- What is found under an id was stored under it. -/
theorem exists_entry {id : String} {row : SaleRow} (h : l.cached id = some row) : ∃ entry ∈ l.cache, entry.id = id := by
  obtain ⟨entry, hfind, -⟩ := cached_eq_some.1 h
  exact ⟨entry, List.mem_of_find?_eq_some hfind, by simpa using List.find?_some hfind⟩

/-- An entry that was just set is found, and the others are as before. -/
theorem caches_cached {id id' : String} {row : SaleRow} :
    (l.caches id row).cached id' = if id' = id then some row else l.cached id' := by
  unfold cached caches
  by_cases hid : id' = id
  · subst hid
    simp [Option.filter]
  · rw [List.find?_cons_of_neg (by simpa using Ne.symm hid), if_neg hid]

theorem of_caches {id id' : String} {row cached : SaleRow} (h : (l.caches id row).cached id' = some cached) :
    id' = id ∧ cached = row ∨ l.cached id' = some cached := by
  rw [caches_cached] at h
  split at h
  · rename_i hid
    exact .inl ⟨hid, (Option.some.inj h).symm⟩
  · exact .inr h

/-- Time only empties the cache. -/
theorem cached_elapse {ms : Nat} {id : String} {row : SaleRow}
    (h : { l with now := l.now + ms }.cached id = some row) : l.cached id = some row := by
  obtain ⟨entry, hfind, hle, hrow⟩ := cached_eq_some.1 h
  exact cached_eq_some.2 ⟨entry, hfind, Nat.le_of_add_right_le hle, hrow⟩

end

/-! ## The invariant -/

/-- The table is ahead of `answer`, and `answer` contradicts no call that had
returned when this one began. -/
structure Answers (db : Db) (returned : List ReturnedRow) (call : LookupCall) (answer : Option SaleRow) : Prop where
  behind : AnswerFollows (db.row call.id) answer
  newer : NewerThan (returned.take call.since) call.id answer

/-- The table is ahead of everything that was read from it, and the cache of
everything that was returned. -/
structure Forward (l : Lookups) : Prop where
  db_newest : ∀ id, NewerThan l.returned id (l.db.row id)
  cached_behind : ∀ id row, l.cached id = some row → AnswerFollows (l.db.row id) (some row)
  cached_newest : ∀ id row, l.cached id = some row → NewerThan l.returned id (some row)
  call_since : ∀ call ∈ l.calls, call.since ≤ l.returned.length
  call_answers : ∀ call ∈ l.calls, ∀ answer, call.stage.answer? = some answer → Answers l.db l.returned call answer
  returned_since : ∀ r ∈ l.returned, r.since ≤ l.returned.length
  never_backwards : l.NeverBackwards

section
variable {l l' : Lookups} {k : Nat} {call : LookupCall}

theorem start_forward (db : Db) : (start db).Forward := by
  constructor <;> simp [start, NewerThan, NeverBackwards, cached]

/-- A call may move on to any stage whose answer is sound. -/
theorem Forward.moves (h : l.Forward) (hk : l.calls[k]? = some call) {stage : LookupStage}
    (hstage : ∀ answer, stage.answer? = some answer → Answers l.db l.returned call answer) :
    (l.moves k call stage).Forward := by
  have hm := List.mem_of_getElem? hk
  refine { h with call_since := ?_, call_answers := ?_ }
  · intro call' hm'
    rcases List.mem_or_eq_of_mem_set hm' with hm' | rfl
    · exact h.call_since call' hm'
    · exact h.call_since call hm
  · intro call' hm' answer hanswer
    rcases List.mem_or_eq_of_mem_set hm' with hm' | rfl
    · exact h.call_answers call' hm' answer hanswer
    · exact ⟨(hstage answer hanswer).behind, (hstage answer hanswer).newer⟩

/-- A call answers what the table has now. -/
theorem Forward.answers_row (h : l.Forward) : Answers l.db l.returned call (l.db.row call.id) where
  behind := .refl _
  newer := (h.db_newest call.id).subset (List.take_subset _ _)

/-- Without a call the others are as sound as before. -/
theorem Forward.eraseIdx (h : l.Forward) (k : Nat) : { l with calls := l.calls.eraseIdx k }.Forward := by
  refine { h with call_since := ?_, call_answers := ?_ }
  · exact fun call' hm' => h.call_since call' (List.mem_of_mem_eraseIdx hm')
  · exact fun call' hm' => h.call_answers call' (List.mem_of_mem_eraseIdx hm')

/-- A call returns once the cache has nothing older. -/
theorem Forward.returns (h : l.Forward) (hm : call ∈ l.calls) {row : Option SaleRow}
    (hsound : Answers l.db l.returned call row)
    (hcached : ∀ first, row = some first → ∀ id cached, l.cached id = some cached →
      Uuid.ofText id = Uuid.ofText call.id → cached.Follows first) :
    { l with returned := l.returned ++ [call.returns row] }.Forward := by
  have htake : ∀ n ≤ l.returned.length, (l.returned ++ [call.returns row]).take n = l.returned.take n :=
    fun n hn => List.take_append_of_le_length hn
  refine ⟨?_, h.cached_behind, ?_, ?_, ?_, ?_, ?_⟩
  · intro id
    refine newerThan_append.2 ⟨h.db_newest id, fun hsame => ?_⟩
    rw [Db.row_congr hsame.symm]
    exact hsound.behind
  · intro id cached hc
    refine newerThan_append.2 ⟨h.cached_newest id cached hc, fun hsame first hfirst => ?_⟩
    exact ⟨cached, rfl, hcached first hfirst id cached hc hsame.symm⟩
  · intro call' hm'
    have := h.call_since call' hm'
    simp only [List.length_append]
    omega
  · intro call' hm' answer hanswer
    have hsound' := h.call_answers call' hm' answer hanswer
    refine ⟨hsound'.behind, ?_⟩
    simp only [htake _ (h.call_since call' hm')]
    exact hsound'.newer
  · intro r hr
    refine Nat.le_trans ?_ (List.length_append ▸ Nat.le_add_right _ _)
    rcases List.mem_append.1 hr with hr | hr
    · exact h.returned_since r hr
    · rw [List.mem_singleton.1 hr]
      exact h.call_since call hm
  · intro r hr
    rcases List.mem_append.1 hr with hr | hr
    · simp only [htake _ (h.returned_since r hr)]
      exact h.never_backwards r hr
    · rw [List.mem_singleton.1 hr]
      show NewerThan ((l.returned ++ [call.returns row]).take call.since) call.id row
      rw [htake _ (h.call_since call hm)]
      exact hsound.newer

theorem Forward.step {a : LookupAction} (h : l.Forward) (hfresh : l.Fresh a) (hstep : l.Step a l') : l'.Forward := by
  cases hstep with
  | begin id =>
    refine { h with call_since := ?_, call_answers := ?_ }
    · intro call hm
      rcases List.mem_append.1 hm with hm | hm
      · exact h.call_since call hm
      · rw [List.mem_singleton.1 hm]
    · intro call hm answer hanswer
      rcases List.mem_append.1 hm with hm | hm
      · exact h.call_answers call hm answer hanswer
      · rw [List.mem_singleton.1 hm] at hanswer
        cases hanswer
  | @hit k call row hk hget hrow =>
    refine h.moves hk fun answer hanswer => ?_
    obtain rfl := Option.some.inj hanswer
    exact ⟨h.cached_behind _ row hrow, (h.cached_newest _ row hrow).subset (List.take_subset _ _)⟩
  | miss hk => exact h.moves hk fun answer hanswer => by cases hanswer
  | @selected k call row hk hselect hrow =>
    refine h.moves hk fun answer hanswer => ?_
    obtain rfl := Option.some.inj hanswer
    exact hrow ▸ h.answers_row
  | @notFound k call hk hselect hrow =>
    refine h.moves hk fun answer hanswer => ?_
    obtain rfl := Option.some.inj hanswer
    exact hrow ▸ h.answers_row
  | @set k call row hk hset =>
    have hsound := h.call_answers call (List.mem_of_getElem? hk) (some row) (by rw [hset]; rfl)
    have hmoved : (l.moves k call (.done (some row))).Forward := h.moves hk fun answer hanswer => by
      obtain rfl := Option.some.inj hanswer
      exact hsound
    have hnewest := hfresh call hk
    rw [hset] at hnewest
    -- The entry that is set is this row, which is as new as what was returned.
    refine { hmoved with cached_behind := ?_, cached_newest := ?_ }
    · intro id cached hc
      rcases of_caches hc with ⟨rfl, rfl⟩ | hc
      · exact hsound.behind
      · exact hmoved.cached_behind id cached hc
    · intro id cached hc
      rcases of_caches hc with ⟨rfl, rfl⟩ | hc
      · exact hnewest
      · exact hmoved.cached_newest id cached hc
  | @returns k call row hk hdone =>
    have hm := List.mem_of_getElem? hk
    have hsound := h.call_answers call hm row (by rw [hdone]; rfl)
    refine (h.returns hm hsound ?_).eraseIdx k
    rintro first rfl id cached hc hsame
    have hcached := hfresh call hk
    rw [hdone] at hcached
    obtain ⟨entry, hm, rfl⟩ := exists_entry hc
    exact hcached entry hm hsame cached hc
  | @rejects k => exact h.eraseIdx k
  | @write db hforward =>
    have hahead := Db.row_forward hforward
    refine { h with db_newest := ?_, cached_behind := ?_, call_answers := ?_ }
    · exact fun id => (h.db_newest id).trans (hahead id)
    · exact fun id cached hc => (hahead id).trans (h.cached_behind id cached hc)
    · intro call hm answer hanswer
      have hsound := h.call_answers call hm answer hanswer
      exact ⟨(hahead call.id).trans hsound.behind, hsound.newer⟩
  | elapse ms =>
    refine { h with cached_behind := ?_, cached_newest := ?_ }
    · exact fun id cached hc => h.cached_behind id cached (cached_elapse hc)
    · exact fun id cached hc => h.cached_newest id cached (cached_elapse hc)

/-! ## A call alone -/

/-- With `call` as the call that began last. -/
def plus (l : Lookups) (call : LookupCall) : Lookups := { l with calls := l.calls ++ [call] }

theorem step_plus (l : Lookups) (call : LookupCall) :
    (l.plus call).step (.advance l.calls.length) = some ((l.plus call).advance l.calls.length call) := by
  simp only [step, plus, List.getElem?_concat_length, Option.map_some]

theorem moves_plus (l : Lookups) (call : LookupCall) (stage : LookupStage) :
    (l.plus call).moves l.calls.length call stage = l.plus { call with stage := stage } := by
  simp [moves, plus]

theorem step_get (l : Lookups) (id : String) (since : Nat) :
    (l.plus ⟨id, since, .get⟩).step (.advance l.calls.length) =
      some (l.plus ⟨id, since, (l.cached id).elim .select fun row => .done (some row)⟩) := by
  have hcached : (l.plus ⟨id, since, .get⟩).cached id = l.cached id := rfl
  rw [step_plus, advance]
  simp only [hcached]
  cases l.cached id <;> exact congrArg some (moves_plus ..)

theorem step_select (l : Lookups) (id : String) (since : Nat) :
    (l.plus ⟨id, since, .select⟩).step (.advance l.calls.length) =
      some (l.plus ⟨id, since, (l.db.row id).elim (.done none) .set⟩) := by
  have hrow : (l.plus ⟨id, since, .select⟩).db.row id = l.db.row id := rfl
  rw [step_plus, advance]
  simp only [hrow]
  cases l.db.row id <;> exact congrArg some (moves_plus ..)

theorem step_set (l : Lookups) (id : String) (since : Nat) (row : SaleRow) :
    (l.plus ⟨id, since, .set row⟩).step (.advance l.calls.length) =
      some ((l.caches id row).plus ⟨id, since, .done (some row)⟩) := by
  rw [step_plus, advance]
  simp only [moves_plus]
  rfl

theorem step_done (l : Lookups) (id : String) (since : Nat) (row : Option SaleRow) :
    (l.plus ⟨id, since, .done row⟩).step (.advance l.calls.length) =
      some { l with returned := l.returned ++ [⟨id, since, row⟩] } := by
  rw [step_plus, advance]
  simp [plus, LookupCall.returns, List.eraseIdx_append_of_length_le]

/-- A call that runs while no other step is taken is `findRowById`. -/
theorem call_alone (l : Lookups) (id : String) :
    ∃ l' row, Steps step (fun _ _ => True) l l' ∧ findRowById true l.db l.cached id = (.ok row, l'.cached) ∧
      l'.returned = l.returned ++ [⟨id, l.returned.length, row⟩] := by
  have hbegin : Steps step (fun _ _ => True) l (l.plus ⟨id, l.returned.length, .get⟩) :=
    .tail (.begin id) .refl trivial rfl
  have hget := hbegin.tail _ trivial (step_get ..)
  cases hc : l.cached id with
  | some row =>
    rw [hc] at hget
    refine ⟨_, some row, hget.tail _ trivial (step_done ..), ?_, rfl⟩
    simp only [findRowById, hc]
    rfl
  | none =>
    rw [hc] at hget
    have hselect := hget.tail _ trivial (step_select ..)
    cases hrow : l.db.row id with
    | some row =>
      rw [hrow] at hselect
      have hset := hselect.tail _ trivial (step_set ..)
      refine ⟨_, some row, hset.tail _ trivial (step_done (l.caches id row) ..), ?_, rfl⟩
      have hfind : (l.db.sale (.ofText id)).map PgSale.toRow = some row := hrow
      simp only [findRowById, hc, hfind, if_true, Prod.mk.injEq, true_and]
      funext id'
      rw [Function.update_apply]
      exact (caches_cached (l := l)).symm
    | none =>
      rw [hrow] at hselect
      refine ⟨_, none, hselect.tail _ trivial (step_done ..), ?_, rfl⟩
      have hfind : (l.db.sale (.ofText id)).map PgSale.toRow = none := hrow
      simp only [findRowById, hc, hfind, if_true]
      rfl

/-- A call that begins now would hit `cached` and contradict `r`. -/
theorem contradicts {id : String} {cached first : SaleRow} {r : ReturnedRow} (hc : l.cached id = some cached)
    (hr : r ∈ l.returned) (hsame : Uuid.ofText r.id = Uuid.ofText id) (hfirst : r.row = some first)
    (hstale : ¬ cached.Follows first) : ∃ l', Steps step (fun _ _ => True) l l' ∧ ¬ l'.NeverBackwards := by
  obtain ⟨l', row, hsteps, hfind, hreturned⟩ := call_alone l id
  refine ⟨l', hsteps, fun hnever => ?_⟩
  have hrow : row = some cached := by
    simp only [findRowById, hc, Prod.mk.injEq, Except.ok.injEq] at hfind
    exact hfind.1.symm
  have hlast := hnever ⟨id, l.returned.length, row⟩
  rw [hreturned, List.take_left] at hlast
  obtain ⟨row', hrow', hfollows⟩ := hlast (List.mem_append_right _ (List.mem_singleton_self _)) r hr hsame first hfirst
  obtain rfl := Option.some.inj (hrow.symm.trans hrow')
  exact hstale hfollows

/-- After a step that is not fresh, the next hit contradicts a returned row. -/
theorem contradicts_of_stale {a : LookupAction} (hstep : l.step a = some l') (hstale : ¬ l.Fresh a) :
    ∃ l'', Steps step (fun _ _ => True) l' l'' ∧ ¬ l''.NeverBackwards := by
  cases a with
  | advance k =>
    simp only [Fresh, not_forall] at hstale
    obtain ⟨call, hk, hbad⟩ := hstale
    rw [Option.mem_def] at hk
    simp only [step, hk, Option.map_some, Option.some.injEq] at hstep
    subst hstep
    unfold advance
    cases hstage : call.stage with
    | set row =>
      -- The row that is cached now is older than one that was returned.
      rw [hstage] at hbad
      simp only [FreshAt, NewerThan, not_forall] at hbad
      obtain ⟨r, hr, hsame, hfollows⟩ := hbad
      simp only [AnswerFollows, not_forall] at hfollows
      obtain ⟨first, hfirst, hfollows⟩ := hfollows
      have hcached : ((l.moves k call (.done (some row))).caches call.id row).cached call.id = some row := by
        rw [caches_cached, if_pos rfl]
      exact contradicts hcached hr hsame hfirst fun h => hfollows ⟨row, rfl, h⟩
    | done answer =>
      cases answer with
      | none =>
        rw [hstage] at hbad
        exact absurd trivial hbad
      | some row =>
        -- The row that is returned now is newer than one that is cached.
        rw [hstage] at hbad
        simp only [FreshAt, not_forall] at hbad
        obtain ⟨entry, -, hsame, cached, hc, hfollows⟩ := hbad
        exact contradicts (r := call.returns (some row)) hc (List.mem_append_right _ (List.mem_singleton_self _))
          hsame.symm rfl hfollows
    | _ =>
      rw [hstage] at hbad
      exact absurd trivial hbad
  | _ => exact absurd trivial hstale

end

end Lookups

/-- While every row is cached before a newer one is returned, and returned
while no older one is cached under another spelling, no call contradicts an
earlier one; a step that breaks this lets the next call do so. -/
theorem lookups_never_backwards {db : Db} {l : Lookups} (h : Steps Lookups.step Lookups.Fresh (.start db) l) :
    l.NeverBackwards ∧ ∀ a l', l.step a = some l' → ¬ l.Fresh a →
      ∃ l'', Steps Lookups.step (fun _ _ => True) l' l'' ∧ ¬ l''.NeverBackwards := by
  have hforward : l.Forward := h.inv (Lookups.start_forward db) fun _ _ _ hI hfresh hstep =>
    hI.step hfresh (.of_step hstep)
  exact ⟨hforward.never_backwards, fun a l' hstep hstale => Lookups.contradicts_of_stale hstep hstale⟩

/-- The one sale of `demoDb 5` after a purchase. -/
def soldDb : Db := ⟨[⟨demoId, 5, 4, 0, 1000000, none⟩], []⟩

/-- Two calls with a purchase between them, the second after the entry is gone. -/
theorem lookups_never_backwards_after_ttl :
    ∃ l : Lookups, l.returned.map (·.row.map (·.remainingStock)) = [some 5, some 4] ∧ l.NeverBackwards := by
  have hrun : ∃ l, Steps Lookups.step Lookups.Fresh (.start (demoDb 5)) l ∧
      l.returned.map (·.row.map (·.remainingStock)) = [some 5, some 4] :=
    Steps.exists_of_run
      [.begin demoId.text, .advance 0, .advance 0, .advance 0, .advance 0, .write soldDb, .elapse 1001,
        .begin demoId.text, .advance 0, .advance 0, .advance 0, .advance 0] (by decide +kernel)
  obtain ⟨l, h, hreturned⟩ := hrun
  exact ⟨l, hreturned, (lookups_never_backwards h).1⟩

/-- The first call selects five units, and one is bought. The second call
misses too, caches four and returns them; then the first caches its five, and
the third hits them. -/
theorem overtaken_miss_goes_backwards :
    ∃ l, Steps Lookups.step (fun _ _ => True) (.start (demoDb 5)) l ∧ ¬ l.NeverBackwards :=
  Steps.exists_of_run
    [.begin demoId.text, .advance 0, .advance 0, .write soldDb,
      .begin demoId.text, .advance 1, .advance 1, .advance 1, .advance 1,
      .advance 0, .begin demoId.text, .advance 1, .advance 1] (by decide +kernel)

end FlashSale
