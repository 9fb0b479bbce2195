import FlashSale.Lookups
import FlashSale.Phases
/-!
# How stale a lookup can be

A row that `findRowById` returns need not be the newest that was returned, but
it was in the table lately: no longer ago than the cache keeps it and the call
took over its awaits. The tables there were are kept beside the lookups, and
when each call last got on. So a cancellation reaches the callers,
`PurchasesService.recordPurchase` and `SalesService.findById`, in that time.
-/

namespace FlashSale
open Lib.Runs

/-! ## The lookups, watched -/

/-- A table that was replaced. -/
structure Replaced where
  time : Nat
  old : Db
  new : Db

structure Watched where
  lookups : Lookups
  /-- When each call last got on. -/
  since : List Nat
  past : List Replaced

def LookupStage.isDone : LookupStage → Bool
  | .done _ => true
  | _ => false

namespace Watched

def start (db : Db) : Watched := ⟨.start db, [], []⟩

def stamps (w : Watched) : LookupAction → List Nat
  | .begin _ => w.since ++ [w.lookups.now]
  | .advance k =>
    if (w.lookups.calls[k]?).any (·.stage.isDone) then w.since.eraseIdx k else w.since.set k w.lookups.now
  | .rejects k => w.since.eraseIdx k
  | .write _ | .elapse _ => w.since

def replaced (w : Watched) : LookupAction → List Replaced
  | .write db => w.past ++ [⟨w.lookups.now, w.lookups.db, db⟩]
  | _ => w.past

def step (w : Watched) (a : LookupAction) : Option Watched :=
  (w.lookups.step a).map fun l => ⟨l, w.stamps a, w.replaced a⟩

end Watched

/-- Once a call has its row, it takes `delay` at most to each of its steps. -/
def Watched.Prompt (delay : Nat) (w : Watched) : LookupAction → Prop
  | .advance k => ∀ call ∈ w.lookups.calls[k]?, ∀ t ∈ w.since[k]?, call.stage.answer?.isSome →
    w.lookups.now ≤ t + delay
  | _ => True

instance (delay : Nat) (w : Watched) : (a : LookupAction) → Decidable (w.Prompt delay a)
  | .advance k => inferInstanceAs (Decidable (∀ call ∈ w.lookups.calls[k]?, ∀ t ∈ w.since[k]?, _ → _))
  | .begin _ | .rejects _ | .write _ | .elapse _ => inferInstanceAs (Decidable True)

/-! ## Rows of late -/

section
variable {past : List Replaced} {db : Db} {id : String} {row : SaleRow} {τ t delay now : Nat}

/-- The row was the table's at some moment since `τ`. -/
def Lately (past : List Replaced) (db : Db) (τ : Nat) (id : String) (row : SaleRow) : Prop :=
  db.row id = some row ∨ ∃ p ∈ past, τ ≤ p.time ∧ p.old.row id = some row

theorem Lately.mono (h : Lately past db τ id row) (ht : t ≤ τ) : Lately past db t id row := by
  rcases h with hnow | ⟨p, hp, hle, hrow⟩
  · exact .inl hnow
  · exact .inr ⟨p, hp, ht.trans hle, hrow⟩

/-- A table that is replaced is one of those there were. -/
theorem Lately.write (h : Lately past db τ id row) (hτ : τ ≤ now) (db' : Db) :
    Lately (past ++ [⟨now, db, db'⟩]) db' τ id row := by
  rcases h with hnow | ⟨p, hp, hle, hrow⟩
  · exact .inr ⟨⟨now, db, db'⟩, List.mem_append_right _ (List.mem_singleton_self _), hτ, hnow⟩
  · exact .inr ⟨p, List.mem_append_left _ hp, hle, hrow⟩

/-- What is known of the row that a call has, if it last got on at `t`. -/
def Tracks (past : List Replaced) (db : Db) (delay : Nat) (id : String) (t : Nat) : LookupStage → Prop
  | .set row => Lately past db t id row
  | .done (some row) => Lately past db (t - (SALE_CACHE_TTL_MS + delay)) id row
  | _ => True

theorem Tracks.write {stage : LookupStage} (h : Tracks past db delay id t stage) (ht : t ≤ now) (db' : Db) :
    Tracks (past ++ [⟨now, db, db'⟩]) db' delay id t stage := by
  cases stage with
  | set row => exact Lately.write h ht db'
  | done answer =>
    cases answer with
    | some row => exact Lately.write h ((Nat.sub_le _ _).trans ht) db'
    | none => trivial
  | _ => trivial

end

/-- The tables that were there only moved forward. -/
structure Ordered (past : List Replaced) (db : Db) (now : Nat) : Prop where
  among : past.Pairwise fun p q => p.time ≤ q.time ∧ ∀ id, AnswerFollows (q.old.row id) (p.new.row id)
  behind : ∀ p ∈ past, p.time ≤ now ∧ ∀ id, AnswerFollows (db.row id) (p.new.row id)

structure Watched.Tracked (delay : Nat) (w : Watched) : Prop where
  stamped : w.since.length = w.lookups.calls.length
  stamps : ∀ t ∈ w.since, t ≤ w.lookups.now
  cache : ∀ entry ∈ w.lookups.cache, entry.expires ≤ w.lookups.now + SALE_CACHE_TTL_MS ∧
    Lately w.past w.lookups.db (entry.expires - (SALE_CACHE_TTL_MS + delay)) entry.id entry.row
  calls : ∀ (k : Nat) (call : LookupCall) (t : Nat), w.lookups.calls[k]? = some call → w.since[k]? = some t →
    Tracks w.past w.lookups.db delay call.id t call.stage
  ordered : Ordered w.past w.lookups.db w.lookups.now

theorem Watched.start_tracked (delay : Nat) (db : Db) : (Watched.start db).Tracked delay where
  stamped := rfl
  stamps := by simp [Watched.start]
  cache := by simp [Watched.start, Lookups.start]
  calls := by simp [Watched.start, Lookups.start]
  ordered := ⟨List.Pairwise.nil, by simp [Watched.start]⟩

section
variable {delay : Nat} {w w' : Watched} {k : Nat} {call : LookupCall}

theorem Watched.Tracked.moved (h : w.Tracked delay) (hk : w.lookups.calls[k]? = some call) {stage : LookupStage}
    (hstage : Tracks w.past w.lookups.db delay call.id w.lookups.now stage) :
    ∀ (j : Nat) (c : LookupCall) (t : Nat), (w.lookups.calls.set k { call with stage })[j]? = some c →
      (w.since.set k w.lookups.now)[j]? = some t → Tracks w.past w.lookups.db delay c.id t c.stage := by
  intro j c t hc ht
  by_cases hj : k = j
  · subst hj
    rw [List.getElem?_set_self (List.getElem?_eq_some_iff.1 hk).1] at hc
    obtain rfl := Option.some.inj hc
    have hlt : k < w.since.length := h.stamped ▸ (List.getElem?_eq_some_iff.1 hk).1
    rw [List.getElem?_set_self hlt] at ht
    obtain rfl := Option.some.inj ht
    exact hstage
  · rw [List.getElem?_set_ne hj] at hc ht
    exact h.calls j c t hc ht

theorem Watched.Tracked.erased (h : w.Tracked delay) (k : Nat) :
    ∀ (j : Nat) (c : LookupCall) (t : Nat), (w.lookups.calls.eraseIdx k)[j]? = some c →
      (w.since.eraseIdx k)[j]? = some t → Tracks w.past w.lookups.db delay c.id t c.stage := by
  intro j c t hc ht
  rw [List.getElem?_eraseIdx] at hc ht
  split_ifs at hc ht
  · exact h.calls j c t hc ht
  · exact h.calls (j + 1) c t hc ht

theorem Watched.Tracked.stamps_set (h : w.Tracked delay) (k : Nat) :
    ∀ t ∈ w.since.set k w.lookups.now, t ≤ w.lookups.now := by
  intro t ht
  rcases List.mem_or_eq_of_mem_set ht with ht | rfl
  · exact h.stamps t ht
  · exact le_refl _

/-- A call that moves on within the lookups. -/
theorem Watched.Tracked.moves (h : w.Tracked delay) (hk : w.lookups.calls[k]? = some call) {stage : LookupStage}
    (hstage : Tracks w.past w.lookups.db delay call.id w.lookups.now stage) :
    Watched.Tracked delay ⟨w.lookups.moves k call stage, w.since.set k w.lookups.now, w.past⟩ where
  stamped := by simpa [Lookups.moves] using h.stamped
  stamps := h.stamps_set k
  cache := h.cache
  calls := h.moved hk hstage
  ordered := h.ordered

theorem Watched.Tracked.step (h : w.Tracked delay) {a : LookupAction} (hprompt : w.Prompt delay a)
    (hstep : w.step a = some w') : w'.Tracked delay := by
  obtain ⟨l, hl, rfl⟩ := Option.map_eq_some_iff.1 hstep
  have hset {k : Nat} {call : LookupCall} (hk : w.lookups.calls[k]? = some call) (hgoes : call.stage.isDone = false) :
      w.stamps (.advance k) = w.since.set k w.lookups.now := by
    simp [Watched.stamps, hk, hgoes]
  cases Lookups.Step.of_step hl with
  | begin id =>
    refine ⟨by simp [Watched.stamps, h.stamped], fun t ht => ?_, h.cache, fun j c t hc ht => ?_, h.ordered⟩
    · rcases List.mem_append.1 ht with ht | ht
      · exact h.stamps t ht
      · exact (List.mem_singleton.1 ht).le
    · simp only [Watched.stamps, List.getElem?_append, h.stamped] at hc ht
      split_ifs at hc ht
      · exact h.calls j c t hc ht
      · obtain rfl := List.mem_singleton.1 (List.mem_of_getElem? hc)
        trivial
  | @hit k call row hk hget hrow =>
    obtain ⟨entry, hfind, hlive, rfl⟩ := Lookups.cached_eq_some.1 hrow
    have hid : entry.id = call.id := by simpa using List.find?_some hfind
    obtain ⟨-, hentry⟩ := h.cache entry (List.mem_of_find?_eq_some hfind)
    rw [hset hk (by rw [hget]; rfl)]
    apply h.moves hk
    rw [← hid]
    exact hentry.mono (Nat.sub_le_sub_right hlive _)
  | @miss k call hk hget =>
    rw [hset hk (by rw [hget]; rfl)]
    exact h.moves hk trivial
  | @selected k call row hk hselect hrow =>
    rw [hset hk (by rw [hselect]; rfl)]
    exact h.moves hk (.inl hrow)
  | @notFound k call hk hselect hrow =>
    rw [hset hk (by rw [hselect]; rfl)]
    exact h.moves hk trivial
  | @set k call row hk hstage =>
    have hlt : k < w.since.length := h.stamped ▸ (List.getElem?_eq_some_iff.1 hk).1
    have ht := List.getElem?_eq_getElem hlt
    have hrow := h.calls k call _ hk ht
    rw [hstage] at hrow
    have hsoon : w.lookups.now ≤ w.since[k] + delay := hprompt call hk _ ht (by rw [hstage]; rfl)
    rw [hset hk (by rw [hstage]; rfl)]
    have hmoves : Tracks w.past w.lookups.db delay call.id w.lookups.now (.done (some row)) :=
      Lately.mono hrow (by omega)
    refine { h.moves hk hmoves with cache := fun entry hentry => ?_ }
    rcases List.mem_cons.1 hentry with rfl | hentry
    · refine ⟨le_refl _, Lately.mono hrow ?_⟩
      change w.lookups.now + SALE_CACHE_TTL_MS - (SALE_CACHE_TTL_MS + delay) ≤ _
      omega
    · exact h.cache entry hentry
  | @returns k call row hk hdone =>
    have herase : w.stamps (.advance k) = w.since.eraseIdx k := by
      simp [Watched.stamps, hk, hdone, LookupStage.isDone]
    have hlt : k < w.since.length := h.stamped ▸ (List.getElem?_eq_some_iff.1 hk).1
    rw [herase]
    refine ⟨?_, fun t ht => h.stamps t (List.mem_of_mem_eraseIdx ht), h.cache, h.erased k, h.ordered⟩
    simp only [List.length_eraseIdx, h.stamped]
  | @rejects k =>
    refine ⟨?_, fun t ht => h.stamps t (List.mem_of_mem_eraseIdx ht), h.cache, h.erased k, h.ordered⟩
    simp only [Watched.stamps, List.length_eraseIdx, h.stamped]
  | @write db hforward =>
    refine ⟨h.stamped, h.stamps, fun entry hentry => ?_, fun j c t hc ht => ?_, ?_, fun p hp => ?_⟩
    · obtain ⟨hexpires, hrow⟩ := h.cache entry hentry
      exact ⟨hexpires, hrow.write (by omega) db⟩
    · exact (h.calls j c t hc ht).write (h.stamps t (List.mem_of_getElem? ht)) db
    · refine List.pairwise_append.2 ⟨h.ordered.among, List.pairwise_singleton _ _, fun p hp q hq => ?_⟩
      obtain rfl := List.mem_singleton.1 hq
      exact h.ordered.behind p hp
    · rcases List.mem_append.1 hp with hp | hp
      · obtain ⟨hle, hfollows⟩ := h.ordered.behind p hp
        exact ⟨hle, fun id => (Db.row_forward hforward id).trans (hfollows id)⟩
      · obtain rfl := List.mem_singleton.1 hp
        exact ⟨le_refl _, fun id => .refl _⟩
  | elapse ms =>
    refine ⟨h.stamped, fun t ht => ?_, fun entry hentry => ?_, h.calls, h.ordered.among, fun p hp => ?_⟩
    · exact (h.stamps t ht).trans (Nat.le_add_right _ _)
    · obtain ⟨hexpires, hrow⟩ := h.cache entry hentry
      refine ⟨hexpires.trans ?_, hrow⟩
      change w.lookups.now + SALE_CACHE_TTL_MS ≤ w.lookups.now + ms + SALE_CACHE_TTL_MS
      omega
    · obtain ⟨hle, hfollows⟩ := h.ordered.behind p hp
      exact ⟨hle.trans (Nat.le_add_right _ _), hfollows⟩

/-! ## Main theorem -/

/-- A table that was there after another had come follows that one. -/
theorem Ordered.follows {past : List Replaced} {db : Db} {now : Nat} (h : Ordered past db now) {p q : Replaced}
    (hp : p ∈ past) (hq : q ∈ past) (hlt : p.time < q.time) (id : String) :
    AnswerFollows (q.old.row id) (p.new.row id) := by
  obtain ⟨i, hi, rfl⟩ := List.getElem_of_mem hp
  obtain ⟨j, hj, rfl⟩ := List.getElem_of_mem hq
  have hpairs := List.pairwise_iff_getElem.1 h.among
  rcases Nat.lt_trichotomy i j with hij | rfl | hij
  · exact (hpairs i j hi hj hij).2 id
  · exact absurd hlt (Nat.lt_irrefl _)
  · exact absurd (hpairs j i hj hi hij).1 (Nat.not_le.2 hlt)

/-- Where no call takes more than `delay` ms to cache and to return the row it
has: a row that is returned was in the table within the time that the cache
keeps a row and two delays. So once a cancellation is older than that, no call
lets a purchase through, and the sale is not found. -/
theorem cancellation_takes_effect {db : Db} {row : SaleRow}
    (h : Steps Watched.step (Watched.Prompt delay) (Watched.start db) w) (hk : w.lookups.calls[k]? = some call)
    (hdone : call.stage = .done (some row)) (hprompt : w.Prompt delay (.advance k)) :
    Lately w.past w.lookups.db (w.lookups.now - (SALE_CACHE_TTL_MS + 2 * delay)) call.id row ∧
    ∀ p ∈ w.past, p.time + (SALE_CACHE_TTL_MS + 2 * delay) < w.lookups.now →
      ∀ first, p.new.row call.id = some first → first.cancelledAt ≠ none →
        (∀ instant, isSaleOpen row instant = false) ∧
        ∀ listed : ListedRow, listed.toSaleRow = row →
          ∀ instant, findById (some listed) instant = .error SALE_NOT_FOUND := by
  have htracked := h.inv (Watched.start_tracked delay db) fun _ _ _ hI hp hstep => hI.step hp hstep
  have hlt : k < w.since.length := htracked.stamped ▸ (List.getElem?_eq_some_iff.1 hk).1
  have ht := List.getElem?_eq_getElem hlt
  have hsoon : w.lookups.now ≤ w.since[k] + delay := hprompt call hk _ ht (by rw [hdone]; rfl)
  have hrow := htracked.calls k call _ hk ht
  rw [hdone] at hrow
  have hlately : Lately w.past w.lookups.db (w.lookups.now - (SALE_CACHE_TTL_MS + 2 * delay)) call.id row :=
    Lately.mono hrow (by omega)
  refine ⟨hlately, fun p hp hold first hfirst hcancelled => ?_⟩
  have hfollows : AnswerFollows (some row) (p.new.row call.id) := by
    rcases hlately with hnow | ⟨q, hq, hle, hrow'⟩
    · rw [← hnow]
      exact (htracked.ordered.behind p hp).2 call.id
    · rw [← hrow']
      apply htracked.ordered.follows hp hq
      omega
  obtain ⟨row', hrow', -, hstays⟩ := hfollows first hfirst
  obtain rfl := Option.some.inj hrow'
  have hnone : row.cancelledAt.isNone = false := by
    rw [Option.isNone_eq_false_iff, Option.isSome_iff_ne_none]
    exact hstays hcancelled
  refine ⟨fun instant => by simp [isSaleOpen, hnone], fun listed hlisted instant => ?_⟩
  subst hlisted
  simp [findById, hnone]

end

/-- The one sale of `demoDb 5`, cancelled. -/
def cancelledDb : Db := ⟨[⟨demoId, 5, 5, 0, 1000000, some 400000⟩], []⟩

/-- The sale is cancelled while a call has its row: the call caches the row and
returns it, and so does one more. A call 1012 ms later finds the sale
cancelled. -/
theorem cancellation_takes_effect_demo :
    ∃ w, Steps Watched.step (Watched.Prompt 5) (Watched.start (demoDb 5)) w ∧
      w.lookups.returned.map (·.row.map (·.cancelledAt)) = [some none, some none] ∧
      ∃ row, (w.lookups.calls.map (·.stage)) = [.done (some row)] ∧ isSaleOpen row 900 = false := by
  have hrun : ∃ w, Steps Watched.step (Watched.Prompt 5) (Watched.start (demoDb 5)) w ∧
      w.lookups.returned.map (·.row.map (·.cancelledAt)) = [some none, some none] ∧
      w.lookups.calls = [⟨demoId.text, 2, .done (some ⟨demoId.text, 5, 5, 0, 1000, some 400⟩)⟩] ∧
      w.since = [1015] ∧ w.lookups.now = 1015 ∧ w.past.map (·.time) = [0] ∧
      w.past.map (·.new) = [cancelledDb] :=
    Steps.exists_of_run
      [.begin demoId.text, .advance 0, .advance 0, .write cancelledDb, .elapse 3, .advance 0, .advance 0, .elapse 900,
        .begin demoId.text, .advance 0, .advance 0, .elapse 112, .begin demoId.text, .advance 0, .advance 0, .advance 0]
      (by decide +kernel)
  obtain ⟨w, hrun, hreturned, hcalls, hsince, hnow, htimes, hnew⟩ := hrun
  obtain ⟨p, hpast, hnew⟩ := List.map_eq_singleton_iff.1 hnew
  have hp : p ∈ w.past := hpast ▸ List.mem_singleton_self p
  have htime : p.time = 0 := by simpa [hpast] using htimes
  have hcall : w.lookups.calls[0]? = some ⟨demoId.text, 2, .done (some ⟨demoId.text, 5, 5, 0, 1000, some 400⟩)⟩ := by
    rw [hcalls]
    rfl
  have hprompt : w.Prompt 5 (.advance 0) := by
    intro call _ t ht _
    rw [hsince] at ht
    obtain rfl := Option.some.inj ht
    rw [hnow]
    decide
  have hold : p.time + (SALE_CACHE_TTL_MS + 2 * 5) < w.lookups.now := by
    rw [htime, hnow]
    decide
  have hrow : p.new.row demoId.text = some ⟨demoId.text, 5, 5, 0, 1000, some 400⟩ := by
    rw [hnew]
    decide +kernel
  have heffect := (cancellation_takes_effect hrun hcall rfl hprompt).2 p hp hold _ hrow (by simp)
  refine ⟨w, hrun, hreturned, _, ?_, heffect.1 900⟩
  rw [hcalls]
  rfl

end FlashSale
