import Mathlib.Data.List.Nodup
import FlashSale.Progress
/-!
# Messages that do not parse

A flush parses its batch outside of its try block. One message that is not JSON
therefore rejects the chain, and for good: its batch and all that comes after
it stay unsettled, and `stop()` rejects (`rejected_forever`). As long as every
message parses none of this happens, and `unharmed_iff` says that nothing less
will do.
-/

namespace FlashSale
open Lib.Runs Lib.Fair

section
variable {β ε : Type} {o : DrainOptions β ε}

/-- `msg` was in a batch that `writeBatch` was called with. -/
def Drain.Handed (o : DrainOptions β ε) (d : Drain β ε) (msg : Delivery β) : Prop :=
  ∃ c ∈ d.calls, ∃ batch, d.batches[c.batch]? = some batch ∧ batch.mapM (o.parse ·.content) = some c.entries ∧
    msg ∈ batch

/-- No message harms another, or the shutdown. -/
structure DrainTrace.Unharmed (t : DrainTrace o) : Prop where
  written : ∀ n, ∀ msg ∈ (t.state n).accepted, (o.parse msg.content).isSome → ∃ m, n ≤ m ∧
    (t.state m).Handed o msg ∧ (msg.tag ∈ (t.state m).acked ∨ msg.tag ∈ (t.state m).nacked)
  malformed : ∀ n, ∀ msg ∈ (t.state n).accepted, o.parse msg.content = none → ∃ m, n ≤ m ∧
    msg.tag ∈ (t.state m).nacked
  stops : ∀ n k, k < (t.state n).stops.length → ∃ m, n ≤ m ∧ ∃ j, (t.state m).stops[k]? = some (.resolved j)
  unrejected : ∀ n, Stopping.rejected ∉ (t.state n).stops

variable {d d' : Drain β ε}

/-! ## Where one does not -/

/-- With the chain rejected no step settles anything. -/
theorem Drain.Tidy.rejected_step (h : d.Tidy) (hr : d.rejected = true) {a : DrainAction β} (hstep : d.Step o a d') :
    d'.rejected = true ∧ d'.calls = d.calls ∧ d'.acked = d.acked ∧ d'.nacked = d.nacked := by
  have hidle := h.rejected hr
  cases hstep with
  | flushNothing _ hf _ _ | flushThrows _ hf _ _ _ | flushGivesUp _ hf _ _ _ _ | flushWrites _ hf _ _ _ _ =>
    rw [hr] at hf
    cases hf
  | writeResolves hf _ | writeRetries hf _ _ | writeGivesUp hf _ _ | wake hf _ =>
    rw [hidle] at hf
    cases hf
  | ignored _ | kept _ _ | deliverNull | timer _ | stop | cancelled _ | stopResolves _ _ | stopRejects _ _ _ =>
    exact ⟨hr, rfl, rfl, rfl⟩

/-- Once a message did not parse nothing is written or settled any more, and no
call of `stop()` resolves. -/
theorem rejected_forever (h : Steps (Drain.step o) (fun _ _ => True) (Drain.start β ε) d) (hr : d.rejected = true)
    (h' : Steps (Drain.step o) (fun _ _ => True) d d') :
    d'.calls = d.calls ∧ d'.acked = d.acked ∧ d'.nacked = d.nacked ∧
      ∀ (k n : Nat), d'.stops[k]? ≠ some (.resolved n) := by
  obtain ⟨ht, hr', hcalls, hacked, hnacked⟩ := h'.inv (I := fun d' => d'.Tidy ∧ d'.rejected = true ∧
      d'.calls = d.calls ∧ d'.acked = d.acked ∧ d'.nacked = d.nacked) ⟨Drain.tidy h, hr, rfl, rfl, rfl⟩
    fun _ _ _ ⟨ht, hr, hcalls, hacked, hnacked⟩ _ hstep => by
      obtain ⟨hr', hcalls', hacked', hnacked'⟩ := ht.rejected_step hr (.of_step hstep)
      exact ⟨ht.step (.of_step hstep), hr', hcalls'.trans hcalls, hacked'.trans hacked, hnacked'.trans hnacked⟩
  refine ⟨hcalls, hacked, hnacked, fun k n hk => ?_⟩
  exact absurd ((ht.quiet hk).rejected.symm.trans hr') (by simp)

/-! ## The exact condition -/

/-- A finished batch was handed over, if any attempt was to be made. -/
theorem Drain.Logged.handed {done : List (FinishedBatch β ε)} {taken : List (List (Delivery β))}
    (h : d.Logged o done taken) (hmax : 0 < o.maxAttempts) {b : FinishedBatch β ε} (hb : b ∈ done) {msg : Delivery β}
    (hmsg : msg ∈ b.deliveries) : d.Handed o msg := by
  obtain ⟨i, hi⟩ := List.getElem?_of_mem hb
  obtain ⟨hbatch, hcalls, -⟩ := h.getElem? hi
  have hok := h.ok b hb
  have hne : b.calls i ≠ [] := by
    intro hnil
    have hattempts := hok.attempts
    cases hw : b.written with
    | true => simp [FinishedBatch.calls, hw] at hnil
    | false =>
      simp only [FinishedBatch.calls, rejectedCalls, hw, Bool.false_eq_true, if_false, List.append_nil,
        List.replicate_eq_nil_iff] at hnil hattempts
      omega
  obtain ⟨c, hc⟩ := List.exists_mem_of_ne_nil _ hne
  obtain ⟨rfl, hentries⟩ := FinishedBatch.mem_calls hc
  rw [← hcalls] at hc
  exact ⟨c, (List.mem_filter.1 hc).1, b.deliveries, hbatch, hentries ▸ hok.parsed, hmsg⟩

/-- A delivery that was kept is settled only with a batch that parses. -/
theorem Drain.Logged.settled_parses {done : List (FinishedBatch β ε)} {taken : List (List (Delivery β))}
    (h : d.Logged o done taken) {msg : Delivery β} (hmsg : msg ∈ d.accepted)
    (ht : msg.tag ∈ d.acked ∨ msg.tag ∈ d.nacked) : (o.parse msg.content).isSome := by
  obtain ⟨b, hb, ht⟩ := List.mem_flatMap.1 ((h.settled msg.tag).1 ht)
  obtain ⟨msg', hmsg', htag⟩ := List.mem_map.1 ht
  have haccepted : msg' ∈ d.accepted := by
    rw [← h.accepted, h.batches]
    simp only [List.flatten_append, List.mem_append, List.mem_flatten, List.mem_map]
    exact .inl (.inl ⟨b.deliveries, ⟨b, hb, rfl⟩, hmsg'⟩)
  have hnodup : (tagsOf d.accepted).Nodup := h.tags ▸ List.nodup_range
  obtain rfl := List.inj_on_of_nodup_map hnodup haccepted hmsg htag
  have hsome : (b.deliveries.mapM (o.parse ·.content)).isSome := by simp [(h.ok b hb).parsed]
  exact isSome_mapM.1 hsome msg' hmsg'

theorem DrainTrace.Unharmed.parses {t : DrainTrace o} (h : t.Unharmed) (n : Nat) {msg : Delivery β}
    (hmsg : msg ∈ (t.state n).accepted) : (o.parse msg.content).isSome ∧ 0 < o.maxAttempts := by
  have hsome : (o.parse msg.content).isSome := by
    by_contra hnone
    obtain ⟨m, hm, hnacked⟩ := h.malformed n msg hmsg (by simpa using hnone)
    obtain ⟨done, taken, hl⟩ := Drain.logged (t.steps m)
    exact hnone (hl.settled_parses ((t.grown hm).accepted hmsg) (.inr hnacked))
  refine ⟨hsome, ?_⟩
  -- A call was made for it, and there are at most `maxAttempts`.
  obtain ⟨m, -, ⟨c, hc, -⟩, -⟩ := h.written n msg hmsg hsome
  obtain ⟨done, taken, hl⟩ := Drain.logged (t.steps m)
  have hpos : 0 < ((t.state m).calls.filter (·.batch = c.batch)).length :=
    List.length_pos_of_mem (List.mem_filter.2 ⟨hc, by simp⟩)
  exact Nat.lt_of_lt_of_le (Nat.lt_of_lt_of_le hpos (Nat.le_add_right _ _)) (hl.attempts_le c.batch)

/-- In a run in which all that comes due happens, no message harms another if
and only if every message that is kept parses, and an attempt is made at all. -/
theorem unharmed_iff (t : DrainTrace o) (hfair : t.Fair) :
    t.Unharmed ↔ ∀ n, ∀ msg ∈ (t.state n).accepted, (o.parse msg.content).isSome ∧ 0 < o.maxAttempts := by
  refine ⟨fun h n msg hmsg => h.parses n hmsg, fun h => ?_⟩
  have hparses : ∀ n, ∀ msg ∈ (t.state n).accepted, (o.parse msg.content).isSome :=
    fun n msg hmsg => (h n msg hmsg).1
  constructor
  · intro n msg hmsg _
    obtain ⟨m, hm, done, taken, hl, b, hb, hmem⟩ := DrainTrace.settles hfair hparses hmsg
    exact ⟨m, hm, hl.handed (h n msg hmsg).2 hb hmem,
      (hl.settled msg.tag).2 (List.mem_flatMap.2 ⟨b, hb, List.mem_map_of_mem hmem⟩)⟩
  · intro n msg hmsg hnone
    have hsome := hparses n msg hmsg
    rw [hnone] at hsome
    cases hsome
  · intro n k hk
    exact DrainTrace.resolves hfair hparses hk
  · intro n hmem
    have hsound := DrainTrace.sound hparses n
    exact absurd (hsound.unrejected.symm.trans (hsound.tidy.stops _ hmem)) (by simp)

/-! ### Two runs -/

/-- Nothing comes due any more. -/
theorem Drain.rests (htimer : d.flushTimer = false) (hflushing : d.flushing = none)
    (hchain : d.rejected = true ∨ d.chained ≤ d.finished)
    (hstops : ∀ s ∈ d.stops, s = .rejected ∨ ∃ n, s = .resolved n) (c : DrainTask) :
    ¬ Enabled (Drain.step o) (·.task = some c) d := by
  rintro ⟨a, hA, hsome⟩
  obtain ⟨d', hstep⟩ := Option.isSome_iff_exists.1 hsome
  have hstop : ∀ k : Nat, d.stops[k]? ≠ some .cancelling ∧ ∀ n, d.stops[k]? ≠ some (.awaiting n) := by
    intro k
    constructor
    · intro hk
      simpa using hstops _ (List.mem_of_getElem? hk)
    · intro n hk
      simpa using hstops _ (List.mem_of_getElem? hk)
  cases Drain.Step.of_step hstep with
  | timer ht =>
    rw [htimer] at ht
    cases ht
  | flushNothing _ hr hlt _ | flushThrows _ hr hlt _ _ | flushGivesUp _ hr hlt _ _ _ | flushWrites _ hr hlt _ _ _ =>
    rcases hchain with hr' | hle
    · rw [hr] at hr'
      cases hr'
    · exact absurd hlt (Nat.not_lt.2 hle)
  | writeResolves hf _ | writeRetries hf _ _ | writeGivesUp hf _ _ | wake hf _ =>
    rw [hflushing] at hf
    cases hf
  | cancelled hk => exact (hstop _).1 hk
  | stopResolves hk _ | stopRejects hk _ _ => exact (hstop _).2 _ hk
  | ignored _ | kept _ _ | deliverNull | stop => cases hA

end

/-- A loop that batches by two, and knows that one of these texts is JSON. -/
def brackets : DrainOptions String Unit := ⟨fun content => if content = "[]" then some () else none, 2, 2⟩

def wellFormedRun : List (DrainAction String) :=
  [.deliver "[]", .timer, .flush, .writeRejects, .wake, .writeResolves, .stop, .cancelled 0, .flush, .stopResolves 0]

theorem unharmed_iff_wellFormed :
    ∃ t : DrainTrace brackets, (t.state 10).accepted = [⟨0, "[]"⟩] ∧ (t.state 10).stops ≠ [] ∧ t.Unharmed := by
  obtain ⟨d, h, haccepted, hstops, htimer, hflushing, hchain⟩ : ∃ d, run (Drain.step brackets) (fun _ _ => True)
      (Drain.start String Unit) wellFormedRun = some d ∧ d.accepted = [⟨0, "[]"⟩] ∧ d.stops = [.resolved 2] ∧
      d.flushTimer = false ∧ d.flushing = none ∧ d.chained ≤ d.finished := exists_run (by decide +kernel)
  have hend : (Trace.ofRun wellFormedRun h).state 10 = d := Trace.ofRun_end h
  refine ⟨Trace.ofRun wellFormedRun h, by rw [hend, haccepted], by simp [hend, hstops], ?_⟩
  refine (unharmed_iff _ fun c => ?_).2 fun n msg hmsg => ⟨?_, by decide⟩
  · exact Trace.ofRun_fair h (Drain.rests htimer hflushing (.inr hchain) (by simp [hstops]) c)
  · exact Trace.ofRun_forall h (p := fun d => ∀ msg ∈ d.accepted, (brackets.parse msg.content).isSome)
      (by decide +kernel) n msg hmsg

def malformedRun : List (DrainAction String) :=
  [.deliver "[]", .deliver "[", .flush, .deliver "[]", .timer, .stop, .cancelled 0, .stopRejects 0]

/-- A message that does not parse comes second in a batch of two. Neither is
ever settled, nor is the one after them, and `stop()` rejects. -/
theorem malformed_wedges :
    ∃ t : DrainTrace brackets, t.Fair ∧ (t.state 8).accepted = [⟨0, "[]"⟩, ⟨1, "["⟩, ⟨2, "[]"⟩] ∧
      (t.state 8).stops = [.rejected] ∧
      (∀ n, (t.state n).calls = [] ∧ (t.state n).acked = [] ∧ (t.state n).nacked = []) ∧ ¬ t.Unharmed := by
  obtain ⟨d, h, haccepted, hstops, htimer, hflushing, hr⟩ : ∃ d, run (Drain.step brackets) (fun _ _ => True)
      (Drain.start String Unit) malformedRun = some d ∧ d.accepted = [⟨0, "[]"⟩, ⟨1, "["⟩, ⟨2, "[]"⟩] ∧
      d.stops = [.rejected] ∧ d.flushTimer = false ∧ d.flushing = none ∧ d.rejected = true :=
    exists_run (by decide +kernel)
  have hend : (Trace.ofRun malformedRun h).state 8 = d := Trace.ofRun_end h
  have haccepted' : ((Trace.ofRun malformedRun h).state 8).accepted = [⟨0, "[]"⟩, ⟨1, "["⟩, ⟨2, "[]"⟩] := by
    rw [hend, haccepted]
  refine ⟨Trace.ofRun malformedRun h, fun c => ?_, haccepted', by rw [hend, hstops], ?_, fun hunharmed => ?_⟩
  · exact Trace.ofRun_fair h (Drain.rests htimer hflushing (.inl hr) (by simp [hstops]) c)
  · exact Trace.ofRun_forall h (p := fun d => d.calls = [] ∧ d.acked = [] ∧ d.nacked = []) (by decide +kernel)
  · have hmem : (⟨1, "["⟩ : Delivery String) ∈ ((Trace.ofRun malformedRun h).state 8).accepted := by simp [haccepted']
    exact absurd (hunharmed.parses 8 hmem).1 (by decide)

end FlashSale
