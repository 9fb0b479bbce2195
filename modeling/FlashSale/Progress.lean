import FlashSale.Lib.Fair
import FlashSale.Shutdown
/-!
# Progress of the drain

What must happen, in every run in which what comes due does: a flush that is
chained comes to its end (`DrainTrace.finishes`), a delivery is taken and
settled (`DrainTrace.settles`), and a call of `stop()` resolves
(`DrainTrace.resolves`). All of it as long as every message parses.
-/

namespace FlashSale
open Lib.Runs Lib.Fair

/-! ## What comes due -/

/-- What the loop waits for: the window's timer, the next flush's turn, the end
of a call of `writeBatch` or of a sleep, of a cancel, and of the flush that call
`k` of `stop()` awaits. -/
inductive DrainTask where
  | timer
  | flush
  | writeBatch
  | sleep
  | cancel (k : Nat)
  | stop (k : Nat)

/-- What an action brings to its end. Deliveries and calls of `stop()` come
from outside, if they come. -/
def DrainAction.task {β : Type} : DrainAction β → Option DrainTask
  | .deliver _ | .deliverNull | .stop => none
  | .timer => some .timer
  | .flush => some .flush
  | .writeResolves | .writeRejects => some .writeBatch
  | .wake => some .sleep
  | .cancelled k => some (.cancel k)
  | .stopResolves k | .stopRejects k => some (.stop k)

abbrev DrainTrace {β ε : Type} (o : DrainOptions β ε) := Trace (Drain.step o) (Drain.start β ε)

section
variable {β ε : Type} {o : DrainOptions β ε}

/-- Whatever comes due happens at some moment. -/
def DrainTrace.Fair (t : DrainTrace o) : Prop := ∀ c, t.FairTo (·.task = some c)

variable {d d' : Drain β ε}

theorem isSome_mapM {α : Type} {f : α → Option ε} {l : List α} :
    (l.mapM f).isSome ↔ ∀ x ∈ l, (f x).isSome := by
  induction l with
  | nil => simp
  | cons x l ih =>
    rw [List.mapM_cons, List.forall_mem_cons, ← ih]
    cases f x <;> cases l.mapM f <;> simp

/-! ## Where every message parses -/

/-- The loop's state between two steps, if every message kept so far parses. -/
structure Drain.Sound (o : DrainOptions β ε) (d : Drain β ε) : Prop where
  logged : ∃ done taken, d.Logged o done taken
  tidy : d.Tidy
  parses : ∀ msg ∈ d.accepted, (o.parse msg.content).isSome

theorem Drain.Sound.parses_pending (h : d.Sound o) : (d.pending.mapM (o.parse ·.content)).isSome := by
  obtain ⟨done, taken, hl⟩ := h.logged
  refine isSome_mapM.2 fun msg hmsg => h.parses msg ?_
  rw [← hl.accepted]
  exact List.mem_append_right _ hmsg

theorem Drain.Sound.unrejected (h : d.Sound o) : d.rejected = false := by
  obtain ⟨done, taken, hl⟩ := h.logged
  by_contra hr
  obtain ⟨batch, rfl, -, hnone⟩ := hl.rejected (by simpa using hr)
  have hsome : (batch.mapM (o.parse ·.content)).isSome := by
    refine isSome_mapM.2 fun msg hmsg => h.parses msg ?_
    rw [← hl.accepted, hl.batches]
    simp [hmsg]
  rw [hnone] at hsome
  cases hsome

/-- What only grows. -/
structure Drain.Grown (d d' : Drain β ε) : Prop where
  chained : d.chained ≤ d'.chained
  finished : d.finished ≤ d'.finished
  accepted : d.accepted ⊆ d'.accepted
  stops : d.stops.length ≤ d'.stops.length

theorem Drain.Grown.refl (d : Drain β ε) : d.Grown d :=
  ⟨Nat.le_refl _, Nat.le_refl _, List.Subset.refl _, Nat.le_refl _⟩

theorem Drain.Grown.trans {d'' : Drain β ε} (h : d.Grown d') (h' : d'.Grown d'') : d.Grown d'' :=
  ⟨Nat.le_trans h.chained h'.chained, Nat.le_trans h.finished h'.finished,
    List.Subset.trans h.accepted h'.accepted, Nat.le_trans h.stops h'.stops⟩

theorem Drain.Step.grown {a : DrainAction β} (h : d.Step o a d') : d.Grown d' := by
  cases h with
  | kept _ hc =>
    refine { Drain.Grown.refl d with chained := ?_, accepted := List.subset_append_left _ _ }
    rcases hc with ⟨-, rfl⟩ | ⟨-, rfl⟩
    · exact Nat.le_refl _
    · exact Nat.le_succ _
  | @writeResolves f _ _ =>
    obtain ⟨acked, heq⟩ := d.writeResolves_eq f
    rw [heq]
    exact { Drain.Grown.refl d with finished := Nat.le_succ _ }
  | timer _ => exact { Drain.Grown.refl d with chained := Nat.le_succ _ }
  | cancelled _ => exact { Drain.Grown.refl d with chained := Nat.le_succ _, stops := by simp }
  | stop | stopResolves _ _ | stopRejects _ _ _ => exact { Drain.Grown.refl d with stops := by simp }
  | flushNothing _ _ _ _ | flushGivesUp _ _ _ _ _ _ | writeGivesUp _ _ _ =>
    exact { Drain.Grown.refl d with finished := Nat.le_succ _ }
  | ignored _ | deliverNull | flushThrows _ _ _ _ _ | flushWrites _ _ _ _ _ _ | writeRetries _ _ _ | wake _ _ =>
    exact { Drain.Grown.refl d with }

/-- A call of `stop()` that has chained its flush awaits it, or is resolved. -/
theorem Drain.Step.awaits {a : DrainAction β} (h : d.Step o a d') (hr : d.rejected = false) {k n : Nat}
    (hk : d.stops[k]? = some (.awaiting n) ∨ d.stops[k]? = some (.resolved n)) :
    d'.stops[k]? = some (.awaiting n) ∨ d'.stops[k]? = some (.resolved n) := by
  have hlt : k < d.stops.length := by
    rcases hk with hk | hk
    · exact (List.getElem?_eq_some_iff.1 hk).1
    · exact (List.getElem?_eq_some_iff.1 hk).1
  cases h with
  | stop => simpa [List.getElem?_append_left hlt] using hk
  | @cancelled j hj =>
    have hjk : j ≠ k := by
      rintro rfl
      simp [hj] at hk
    simpa [List.getElem?_set_ne hjk] using hk
  | @stopResolves j n' hj _ =>
    by_cases hjk : j = k
    · subst hjk
      obtain rfl : n' = n := by simpa [hj] using hk
      simp [List.getElem?_set_self hlt]
    · simpa [List.getElem?_set_ne hjk] using hk
  | stopRejects _ hr' _ =>
    rw [hr] at hr'
    cases hr'
  | @writeResolves f _ _ =>
    obtain ⟨acked, heq⟩ := d.writeResolves_eq f
    rw [heq]
    exact hk
  | ignored _ | kept _ _ | deliverNull | timer _ | flushNothing _ _ _ _ | flushThrows _ _ _ _ _
  | flushGivesUp _ _ _ _ _ _ | flushWrites _ _ _ _ _ _ | writeRetries _ _ _ | writeGivesUp _ _ _ | wake _ _ =>
    exact hk

/-- A call of `stop()` whose cancel has resolved awaits a flush that is chained. -/
theorem Drain.Sound.awaited (h : d.Sound o) {k : Nat} (hlt : k < d.stops.length)
    (hk : d.stops[k]? ≠ some .cancelling) :
    ∃ j, (d.stops[k]? = some (.awaiting j) ∨ d.stops[k]? = some (.resolved j)) ∧ j ≤ d.chained := by
  have hstops := h.tidy.stops _ (List.getElem_mem hlt)
  rw [List.getElem?_eq_getElem hlt] at hk ⊢
  cases hs : d.stops[k] with
  | cancelling => exact absurd (congrArg some hs) hk
  | awaiting j =>
    rw [hs] at hstops
    exact ⟨j, .inl rfl, hstops.chained⟩
  | resolved j =>
    rw [hs] at hstops
    exact ⟨j, .inr rfl, hstops.1.chained⟩
  | rejected =>
    rw [hs] at hstops
    exact absurd (h.unrejected.symm.trans hstops) (by simp)

/-! ### The chain goes on -/

/-- What the chain waits for. -/
def Drain.due (d : Drain β ε) : DrainTask :=
  match d.flushing with
  | none => .flush
  | some f =>
    match f.awaits with
    | .writeBatch => .writeBatch
    | .sleep => .sleep

/-- How far the end of the flush that runs, or is next, is at most. -/
def Drain.ahead (o : DrainOptions β ε) (d : Drain β ε) : Nat :=
  match d.flushing with
  | none => 2 * o.maxAttempts
  | some f =>
    match f.awaits with
    | .writeBatch => 2 * (o.maxAttempts - f.attempt) + 1
    | .sleep => 2 * (o.maxAttempts - f.attempt)

theorem Drain.due_cases (d : Drain β ε) : d.due = .flush ∨ d.due = .writeBatch ∨ d.due = .sleep := by
  unfold Drain.due
  split
  · exact .inl rfl
  · split
    · exact .inr (.inl rfl)
    · exact .inr (.inr rfl)

theorem Drain.Sound.due_enabled (h : d.Sound o) (hlt : d.finished < d.chained) :
    Enabled (Drain.step o) (·.task = some d.due) d := by
  unfold Drain.due
  cases hf : d.flushing with
  | none => exact ⟨.flush, rfl, by simp [Drain.step, hf, h.unrejected, hlt]⟩
  | some f =>
    cases hw : f.awaits with
    | writeBatch => exact ⟨.writeResolves, by simp [DrainAction.task, hw], by simp [Drain.step, hf, hw]⟩
    | sleep => exact ⟨.wake, by simp [DrainAction.task, hw], by simp [Drain.step, hf, hw]⟩

/-- A step ends the flush that is due, or brings its end closer, or has nothing
to do with it. -/
theorem Drain.Step.advances {a : DrainAction β} (hstep : d.Step o a d') (h : d.Sound o) :
    (d'.finished = d.finished + 1 ∧ d'.flushing = none) ∨ (d'.finished = d.finished ∧ d'.ahead o < d.ahead o) ∨
    (d'.finished = d.finished ∧ d'.flushing = d.flushing ∧ a.task ≠ some d.due) := by
  obtain ⟨done, taken, hl⟩ := h.logged
  cases hstep with
  | flushNothing _ _ _ _ => exact .inl ⟨rfl, rfl⟩
  | flushThrows _ _ _ _ hnone =>
    have hsome := h.parses_pending
    rw [hnone] at hsome
    cases hsome
  | flushGivesUp _ _ _ _ _ _ => exact .inl ⟨rfl, rfl⟩
  | flushWrites hf _ _ _ _ hmax =>
    refine .inr (.inl ⟨rfl, ?_⟩)
    simp only [Drain.ahead, hf]
    omega
  | @writeResolves f _ _ =>
    obtain ⟨acked, heq⟩ := d.writeResolves_eq f
    rw [heq]
    exact .inl ⟨rfl, rfl⟩
  | writeRetries hf hw _ =>
    refine .inr (.inl ⟨rfl, ?_⟩)
    simp only [Drain.ahead, hf, hw]
    exact Nat.lt_succ_self _
  | writeGivesUp _ _ _ => exact .inl ⟨rfl, rfl⟩
  | wake hf hw =>
    have hlt := (hl.flushing _ hf).1.sleeps hw
    refine .inr (.inl ⟨rfl, ?_⟩)
    simp only [Drain.ahead, hf, hw]
    omega
  | ignored _ | kept _ _ | deliverNull | timer _ | stop | cancelled _ | stopResolves _ _ | stopRejects _ _ _ =>
    refine .inr (.inr ⟨rfl, rfl, ?_⟩)
    rcases d.due_cases with hdue | hdue | hdue <;> simp [hdue, DrainAction.task]

/-! ### A delivery is taken -/

/-- Flush `n` or one before it has taken `msg` or will. -/
structure Drain.Takes (d : Drain β ε) (msg : Delivery β) (n : Nat) : Prop where
  pending : msg ∈ d.pending → d.started < n
  flushing : ∀ f, d.flushing = some f → msg ∈ f.batch → d.started ≤ n

theorem Drain.Takes.congr {msg : Delivery β} {n : Nat} (h : d.Takes msg n)
    (hpending : msg ∈ d'.pending → msg ∈ d.pending) (hstarted : d'.started = d.started)
    (hflushing : ∀ f, d'.flushing = some f → ∃ f', d.flushing = some f' ∧ f'.batch = f.batch) : d'.Takes msg n where
  pending hp := hstarted ▸ h.pending (hpending hp)
  flushing f hf hmem := by
    obtain ⟨f', hf', hbatch⟩ := hflushing f hf
    exact hstarted ▸ h.flushing f' hf' (hbatch ▸ hmem)

theorem Drain.Takes.of_idle (hpending : d.pending = []) (hflushing : d.flushing = none) (msg : Delivery β) (n : Nat) :
    d.Takes msg n := by
  constructor
  · simp [hpending]
  · simp [hflushing]

/-- A delivery gets the next tag. -/
theorem Drain.Logged.ne_next {done : List (FinishedBatch β ε)} {taken : List (List (Delivery β))}
    (h : d.Logged o done taken) (hs : d.stopped = false) {msg : Delivery β} (hmsg : msg ∈ d.accepted) (content : β) :
    msg ≠ ⟨d.delivered, content⟩ := by
  rintro rfl
  have hmem : d.delivered ∈ tagsOf d.accepted := List.mem_map_of_mem hmsg
  rw [h.tags, h.consuming hs] at hmem
  exact absurd (List.mem_range.1 hmem) (Nat.lt_irrefl _)

theorem Drain.Step.takes {a : DrainAction β} (hstep : d.Step o a d') (h : d.Sound o) {msg : Delivery β} {n : Nat}
    (hmsg : msg ∈ d.accepted) (ht : d.Takes msg n) : d'.Takes msg n := by
  obtain ⟨done, taken, hl⟩ := h.logged
  have hr := h.unrejected
  cases hstep with
  | kept hs _ =>
    refine ht.congr (fun hp => ?_) rfl fun f hf => ⟨f, hf, rfl⟩
    exact (List.mem_append.1 hp).resolve_right fun hnew => hl.ne_next hs hmsg _ (List.mem_singleton.1 hnew)
  | flushNothing _ _ _ hp => exact .of_idle (d := d.finish) hp rfl msg n
  | flushThrows _ _ _ _ hnone =>
    have hsome := h.parses_pending
    rw [hnone] at hsome
    cases hsome
  | flushGivesUp _ _ _ _ _ _ => exact .of_idle rfl rfl msg n
  | flushWrites hf _ _ _ _ _ =>
    refine ⟨fun hp => absurd hp List.not_mem_nil, fun f hf' hmem => ?_⟩
    obtain rfl := Option.some.inj hf'
    have hlt := ht.pending hmem
    simpa [Drain.started, hf, hr] using Nat.succ_le_of_lt hlt
  | @writeResolves f hf _ =>
    obtain ⟨acked, heq⟩ := d.writeResolves_eq f
    rw [heq]
    exact ht.congr id (by simp [Drain.started, Drain.finish, hf, hr]) fun f hf => by cases hf
  | writeGivesUp hf _ _ =>
    exact ht.congr id (by simp [Drain.started, Drain.deadLetter, Drain.finish, hf, hr]) fun f hf => by cases hf
  | writeRetries hf _ _ | wake hf _ =>
    refine ht.congr id (by simp [Drain.started, hf]) fun f hf' => ⟨_, hf, ?_⟩
    obtain rfl := Option.some.inj hf'
    rfl
  | ignored _ | deliverNull | timer _ | stop | cancelled _ | stopResolves _ _ | stopRejects _ _ _ =>
    exact ht.congr id rfl fun f hf => ⟨f, hf, rfl⟩

/-- Once flush `n` has ended, what it was to take is in a finished batch. -/
theorem Drain.Takes.done {done : List (FinishedBatch β ε)} {taken : List (List (Delivery β))} {msg : Delivery β}
    {n : Nat} (ht : d.Takes msg n) (hl : d.Logged o done taken) (hr : d.rejected = false) (hmsg : msg ∈ d.accepted)
    (hn : n ≤ d.finished) : ∃ b ∈ done, msg ∈ b.deliveries := by
  refine hl.mem_done hmsg (fun hp => ?_) (fun f hf hmem => ?_) hr
  · have hlt := ht.pending hp
    have hle : d.finished ≤ d.started := Nat.le_add_right _ _
    omega
  · have hle := ht.flushing f hf hmem
    have hstarted : d.started = d.finished + 1 := by simp [Drain.started, hf]
    omega

section
variable {t : DrainTrace o} (hfair : t.Fair) (hparses : ∀ n, ∀ msg ∈ (t.state n).accepted, (o.parse msg.content).isSome)

theorem DrainTrace.grown (t : DrainTrace o) {n m : Nat} (hnm : n ≤ m) : (t.state n).Grown (t.state m) :=
  t.keeps (I := (t.state n).Grown) (fun _ _ _ h hstep => h.trans (Drain.Step.of_step hstep).grown) hnm (.refl _)

include hparses

theorem DrainTrace.sound (n : Nat) : (t.state n).Sound o :=
  ⟨Drain.logged (t.steps n), Drain.tidy (t.steps n), hparses n⟩

include hfair

/-- A flush that is chained comes to its end. -/
theorem DrainTrace.finishes {n k : Nat} (hk : k ≤ (t.state n).chained) : ∃ m, n ≤ m ∧ k ≤ (t.state m).finished := by
  refine t.eventually hfair (I := fun d => d.Sound o ∧ k ≤ d.chained) (G := fun d => k ≤ d.finished)
    (fun d => (k - d.finished) * (2 * o.maxAttempts + 1) + d.ahead o) Drain.due ?_ ?_
    fun m hm => ⟨DrainTrace.sound hparses m, Nat.le_trans hk (t.grown hm).chained⟩
  · rintro d ⟨hd, hkd⟩ hlt
    exact hd.due_enabled (by omega)
  · rintro d a d' ⟨hd, _⟩ hlt hstep
    rcases (Drain.Step.of_step hstep).advances hd with ⟨hfin, hnone⟩ | ⟨hfin, hahead⟩ | ⟨hfin, hsame, hother⟩
    · refine .inr (.inl ?_)
      obtain ⟨r, rfl⟩ : ∃ r, k = d.finished + 1 + r := ⟨k - (d.finished + 1), by omega⟩
      have hr : d.finished + 1 + r - d.finished = r + 1 := by omega
      have hmul : (r + 1) * (2 * o.maxAttempts + 1) = r * (2 * o.maxAttempts + 1) + (2 * o.maxAttempts + 1) :=
        Nat.succ_mul _ _
      have hahead : d'.ahead o = 2 * o.maxAttempts := by rw [Drain.ahead, hnone]
      rw [hfin, Nat.add_sub_cancel_left, hr, hahead, hmul]
      omega
    · refine .inr (.inl ?_)
      rw [hfin]
      exact Nat.add_lt_add_left hahead _
    · refine .inr (.inr ⟨?_, ?_, hother⟩)
      · rw [hfin, Drain.ahead, hsame, Drain.ahead]
      · rw [Drain.due, hsame, Drain.due]

/-- The cancel of a call of `stop()` resolves. -/
theorem DrainTrace.cancels {n k : Nat} (hk : k < (t.state n).stops.length) :
    ∃ m, n ≤ m ∧ (t.state m).stops[k]? ≠ some .cancelling := by
  refine t.eventually_of (hfair (.cancel k)) (I := fun d => d.Sound o ∧ k < d.stops.length)
    (G := fun d => d.stops[k]? ≠ some .cancelling) ?_ ?_
    fun m hm => ⟨DrainTrace.sound hparses m, Nat.lt_of_lt_of_le hk (t.grown hm).stops⟩
  · intro d _ hG
    exact ⟨.cancelled k, rfl, by simp [Drain.step, not_not.1 hG]⟩
  · rintro d a d' ⟨_, hlt⟩ _ hA hstep
    cases Drain.Step.of_step hstep with
    | @cancelled j _ =>
      obtain rfl : j = k := by simpa [DrainAction.task] using hA
      simp [List.getElem?_set_self hlt]
    | _ => cases hA

/-- What a call of `stop()` awaits comes to its end, and the call resolves. -/
theorem DrainTrace.resolves {n k : Nat} (hk : k < (t.state n).stops.length) :
    ∃ m, n ≤ m ∧ ∃ j, (t.state m).stops[k]? = some (.resolved j) := by
  have hsound := DrainTrace.sound hparses
  obtain ⟨n₁, hn₁, hcancelled⟩ := DrainTrace.cancels hfair hparses hk
  obtain ⟨j, hj, hchained⟩ :=
    (hsound n₁).awaited (Nat.lt_of_lt_of_le hk (t.grown hn₁).stops) hcancelled
  obtain ⟨n₂, hn₂, hfinished⟩ := DrainTrace.finishes hfair hparses hchained
  have hawaits : ∀ m, n₁ ≤ m → (t.state m).stops[k]? = some (.awaiting j) ∨
      (t.state m).stops[k]? = some (.resolved j) := fun m hm =>
    t.keeps (I := fun d => d.stops[k]? = some (.awaiting j) ∨ d.stops[k]? = some (.resolved j))
      (fun m' a _ h hstep => (Drain.Step.of_step hstep).awaits (hsound m').unrejected h) hm hj
  obtain ⟨m, hm, hresolved⟩ : ∃ m, n₂ ≤ m ∧ (t.state m).stops[k]? = some (.resolved j) := by
    refine t.eventually_of (hfair (.stop k)) (G := fun d => d.stops[k]? = some (.resolved j))
      (I := fun d => d.Sound o ∧ j ≤ d.finished ∧ (d.stops[k]? = some (.awaiting j) ∨ d.stops[k]? = some (.resolved j)))
      ?_ ?_ fun m hm => ⟨hsound m, Nat.le_trans hfinished (t.grown hm).finished, hawaits m (Nat.le_trans hn₂ hm)⟩
    · rintro d ⟨_, hle, hd⟩ hG
      exact ⟨.stopResolves k, rfl, by simp [Drain.step, hd.resolve_right hG, hle]⟩
    · rintro d a d' ⟨hd, _, hk'⟩ hG hA hstep
      have hlt := (List.getElem?_eq_some_iff.1 (hk'.resolve_right hG)).1
      cases Drain.Step.of_step hstep with
      | @stopResolves i j' hj' _ =>
        obtain rfl : i = k := by simpa [DrainAction.task] using hA
        obtain rfl : j' = j := by simpa [hj'] using hk'
        simp [List.getElem?_set_self hlt]
      | stopRejects _ hr _ => exact absurd (hd.unrejected.symm.trans hr) (by simp)
      | _ => cases hA
  exact ⟨m, by omega, j, hresolved⟩

/-- A flush that will take a pending delivery comes to be chained. -/
theorem DrainTrace.takes (n : Nat) (msg : Delivery β) :
    ∃ m, n ≤ m ∧ (t.state m).Takes msg (t.state m).chained := by
  refine t.eventually_of (hfair .timer) (I := Drain.Sound o) (G := fun d => d.Takes msg d.chained) ?_ ?_
    fun m _ => DrainTrace.sound hparses m
  · intro d hd hG
    have hwaits : d.pending ≠ [] ∧ ¬ d.started < d.chained := by
      by_contra hno
      refine hG ⟨fun hp => ?_, fun _ _ _ => hd.tidy.started⟩
      by_contra hlt
      exact hno ⟨List.ne_nil_of_mem hp, hlt⟩
    have htimer := (hd.tidy.pending hwaits.1).resolve_right hwaits.2
    exact ⟨.timer, rfl, by simp [Drain.step, htimer]⟩
  · intro d a d' hd _ hA hstep
    have hstarted := hd.tidy.started
    cases Drain.Step.of_step hstep with
    | timer _ => exact ⟨fun _ => Nat.lt_succ_of_le hstarted, fun _ _ _ => Nat.le_succ_of_le hstarted⟩
    | _ => cases hA

/-- A delivery that was kept comes to be in a finished batch. -/
theorem DrainTrace.settles {n : Nat} {msg : Delivery β} (hmsg : msg ∈ (t.state n).accepted) :
    ∃ m, n ≤ m ∧ ∃ done taken, (t.state m).Logged o done taken ∧ ∃ b ∈ done, msg ∈ b.deliveries := by
  have hsound := DrainTrace.sound hparses
  obtain ⟨n₁, hn₁, htakes⟩ := DrainTrace.takes hfair hparses n msg
  obtain ⟨n₂, hn₂, hfinished⟩ := DrainTrace.finishes hfair hparses (Nat.le_refl (t.state n₁).chained)
  have hkept : msg ∈ (t.state n₂).accepted ∧ (t.state n₂).Takes msg (t.state n₁).chained := by
    refine t.keeps (I := fun d => msg ∈ d.accepted ∧ d.Takes msg (t.state n₁).chained) ?_ hn₂
      ⟨(t.grown hn₁).accepted hmsg, htakes⟩
    rintro m a _ ⟨hm, ht⟩ hstep
    have hstep := Drain.Step.of_step hstep
    exact ⟨hstep.grown.accepted hm, hstep.takes (hsound m) hm ht⟩
  obtain ⟨done, taken, hl⟩ := (hsound n₂).logged
  exact ⟨n₂, Nat.le_trans hn₁ hn₂, done, taken, hl, hkept.2.done hl (hsound n₂).unrejected hkept.1 hfinished⟩

end

end

end FlashSale
