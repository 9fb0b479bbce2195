import FlashSale.Settling
/-!
# Stopping the drain

What waits is never forgotten: a delivery that is pending has a timer or a
flush to come. `stop()` relies on it. From its cancel on nothing more is kept
and no timer is set, so the flush it chains takes whatever is left, and when
that flush is done there is nothing to do and never will be.
-/

namespace FlashSale
open Lib.Runs

section
variable {β ε : Type} {o : DrainOptions β ε} {d d' : Drain β ε}

/-- How many flushes of the chain have started. A flush that threw never ends. -/
def Drain.started (d : Drain β ε) : Nat := d.finished + if d.flushing.isSome || d.rejected then 1 else 0

/-- A call of `stop()` has chained flush `n`: what is pending is that flush's
or an earlier one's, and so is the flush that runs. -/
structure Drain.Drains (d : Drain β ε) (n : Nat) : Prop where
  chained : n ≤ d.chained
  timer : d.flushTimer = false
  pending : d.pending ≠ [] → d.started < n
  started : d.flushing.isSome = true ∨ d.rejected = true → d.started ≤ n

/-- What a call of `stop()` can rely on. -/
def Drain.Stops (d : Drain β ε) : Stopping → Prop
  | .cancelling => True
  | .awaiting n => d.Drains n
  | .resolved n => d.Drains n ∧ n ≤ d.finished
  | .rejected => d.rejected = true

/-- What holds of the timer, the list and the chain between any two steps. -/
structure Drain.Tidy (d : Drain β ε) : Prop where
  pending : d.pending ≠ [] → d.flushTimer = true ∨ d.started < d.chained
  started : d.started ≤ d.chained
  rejected : d.rejected = true → d.flushing = none
  stopped : d.stops ≠ [] → d.stopped = true
  stops : ∀ s ∈ d.stops, d.Stops s

theorem Drain.start_tidy : (Drain.start β ε).Tidy := by
  constructor <;> simp [Drain.start, Drain.started]

theorem Drain.Drains.congr {n : Nat} (h : d.Drains n) (hchained : d.chained ≤ d'.chained)
    (htimer : d'.flushTimer = d.flushTimer) (hpending : d'.pending = d.pending) (hfinished : d'.finished = d.finished)
    (hflushing : d'.flushing.isSome = d.flushing.isSome) (hrejected : d'.rejected = d.rejected) : d'.Drains n := by
  have hstarted : d'.started = d.started := by rw [Drain.started, Drain.started, hfinished, hflushing, hrejected]
  refine ⟨Nat.le_trans h.chained hchained, htimer ▸ h.timer, ?_, ?_⟩
  · rw [hpending, hstarted]
    exact h.pending
  · rw [hflushing, hrejected, hstarted]
    exact h.started

theorem Drain.Stops.imp {s : Stopping} (h : d.Stops s) (hdrains : ∀ n, d.Drains n → d'.Drains n)
    (hfinished : d.finished ≤ d'.finished) (hrejected : d.rejected = true → d'.rejected = true) : d'.Stops s := by
  cases s with
  | cancelling => trivial
  | awaiting n => exact hdrains n h
  | resolved n => exact ⟨hdrains n h.1, Nat.le_trans h.2 hfinished⟩
  | rejected => exact hrejected h

/-- A flush that starts, goes on or returns: it leaves the chain, the timer and
the calls of `stop()` alone, and what was pending it takes or leaves. -/
theorem Drain.Tidy.flush (h : d.Tidy) (hstops : d'.stops = d.stops) (hstopped : d'.stopped = d.stopped)
    (htimer : d'.flushTimer = d.flushTimer) (hchained : d'.chained = d.chained) (hfinished : d.finished ≤ d'.finished)
    (hpending : d'.pending ≠ [] → d.pending ≠ [] ∧ d'.started = d.started) (hstarted : d'.started ≤ d.chained)
    (hrejected : d'.rejected = true → d'.flushing = none) (hstays : d.rejected = true → d'.rejected = true)
    (hbusy : d'.flushing.isSome = true ∨ d'.rejected = true →
      (d.pending ≠ [] ∧ d'.started = d.started + 1) ∨
        ((d.flushing.isSome = true ∨ d.rejected = true) ∧ d'.started = d.started)) : d'.Tidy where
  pending hp := by
    obtain ⟨hp', hs⟩ := hpending hp
    rw [htimer, hs, hchained]
    exact h.pending hp'
  started := hchained ▸ hstarted
  rejected := hrejected
  stopped := by rw [hstops, hstopped]; exact h.stopped
  stops s hs := by
    refine (h.stops s (hstops ▸ hs)).imp (fun n hd => ?_) hfinished hstays
    refine ⟨hchained ▸ hd.chained, htimer ▸ hd.timer, fun hp => ?_, fun hb => ?_⟩
    · rw [(hpending hp).2]
      exact hd.pending (hpending hp).1
    · rcases hbusy hb with ⟨hp, hs⟩ | ⟨hb', hs⟩
      · have := hd.pending hp
        omega
      · rw [hs]
        exact hd.started hb'

/-- A flush that goes on, or a delivery that is ignored. -/
theorem Drain.Tidy.congr (h : d.Tidy) (hstops : d'.stops = d.stops) (hstopped : d'.stopped = d.stopped)
    (htimer : d'.flushTimer = d.flushTimer) (hchained : d'.chained = d.chained) (hfinished : d'.finished = d.finished)
    (hpending : d'.pending = d.pending) (hflushing : d'.flushing.isSome = d.flushing.isSome)
    (hrejected : d'.rejected = d.rejected) : d'.Tidy := by
  have hstarted : d'.started = d.started := by rw [Drain.started, Drain.started, hfinished, hflushing, hrejected]
  refine h.flush hstops hstopped htimer hchained (Nat.le_of_eq hfinished.symm)
    (fun hp => ⟨hpending ▸ hp, hstarted⟩) (hstarted ▸ h.started) (fun hr => ?_) ?_ fun hb => .inr ⟨?_, hstarted⟩
  · have hnone := h.rejected (hrejected ▸ hr)
    rw [hnone] at hflushing
    exact Option.isNone_iff_eq_none.1 (Option.isSome_eq_false_iff.1 hflushing)
  · rw [hrejected]
    exact id
  · rwa [hflushing, hrejected] at hb

/-- A flush that returns. -/
theorem Drain.Tidy.returns (h : d.Tidy) {f : Flushing β ε} (hf : d.flushing = some f) (hstops : d'.stops = d.stops)
    (hstopped : d'.stopped = d.stopped) (htimer : d'.flushTimer = d.flushTimer) (hchained : d'.chained = d.chained)
    (hfinished : d'.finished = d.finished + 1) (hpending : d'.pending = d.pending) (hflushing : d'.flushing = none)
    (hrejected : d'.rejected = d.rejected) : d'.Tidy := by
  have hr : d.rejected = false := by
    by_contra hr
    rw [h.rejected (by simpa using hr)] at hf
    cases hf
  have hstarted : d'.started = d.started := by simp [Drain.started, hfinished, hflushing, hrejected, hf, hr]
  refine h.flush hstops hstopped htimer hchained (by omega) (fun hp => ⟨hpending ▸ hp, hstarted⟩)
    (hstarted ▸ h.started) (fun _ => hflushing) ?_ ?_
  · rw [hrejected]
    exact id
  · simp [hflushing, hrejected, hr]

theorem Drain.Tidy.step (h : d.Tidy) {a : DrainAction β} (hstep : d.Step o a d') : d'.Tidy := by
  cases hstep with
  | ignored _ => exact h.congr rfl rfl rfl rfl rfl rfl rfl rfl
  | @kept content timer chained hs hc =>
    -- Nothing was stopped, so no call of `stop()` is there to drain.
    have hnil : d.stops = [] := by
      by_contra hne
      rw [h.stopped hne] at hs
      cases hs
    refine ⟨fun _ => ?_, ?_, h.rejected, h.stopped, ?_⟩
    · rcases hc with ⟨rfl, rfl⟩ | ⟨rfl, rfl⟩
      · exact .inl rfl
      · exact .inr (Nat.lt_succ_of_le h.started)
    · rcases hc with ⟨rfl, rfl⟩ | ⟨rfl, rfl⟩
      · exact h.started
      · exact Nat.le_succ_of_le h.started
    · intro s hmem
      simp [hnil] at hmem
  | deliverNull => exact h
  | timer ht =>
    refine { h with
      pending := fun _ => .inr (Nat.lt_succ_of_le h.started), started := Nat.le_succ_of_le h.started, stops := ?_ }
    refine fun s hs => (h.stops s hs).imp (fun n hd => ?_) (Nat.le_refl _) id
    have := hd.timer
    rw [ht] at this
    cases this
  | flushNothing hf hr hlt hp =>
    refine h.flush rfl rfl rfl rfl (Nat.le_succ _) (fun hp' => absurd hp hp') ?_ (fun _ => rfl) id ?_
    · simp only [Drain.started, Drain.finish, hr, Option.isSome_none, Bool.or_self, Bool.false_eq_true, if_false]
      exact hlt
    · simp [Drain.finish, hr]
  | flushThrows hf hr hlt hp hnone =>
    refine h.flush rfl rfl rfl rfl (Nat.le_refl _) (fun hp' => absurd rfl hp') ?_ (fun _ => hf) (fun _ => rfl) fun _ =>
      .inl ⟨hp, ?_⟩
    · simp only [Drain.started, Bool.or_true, if_true]
      exact hlt
    · simp [Drain.started, hf, hr]
  | @flushGivesUp entries hf hr hlt hp hparse hmax =>
    refine h.flush rfl rfl rfl rfl (Nat.le_succ _) (fun hp' => absurd rfl hp') ?_ (fun _ => rfl) id ?_
    · simp only [Drain.started, Drain.deadLetter, Drain.finish, hr, Option.isSome_none, Bool.or_self,
        Bool.false_eq_true, if_false]
      exact hlt
    · simp [Drain.deadLetter, Drain.finish, hr]
  | @flushWrites entries hf hr hlt hp hparse hmax =>
    refine h.flush rfl rfl rfl rfl (Nat.le_refl _) (fun hp' => absurd rfl hp') ?_ ?_ id fun _ => .inl ⟨hp, ?_⟩
    · simp only [Drain.started, Option.isSome_some, Bool.true_or, if_true]
      exact hlt
    · simp [hr]
    · simp [Drain.started, hf, hr]
  | @writeResolves f hf hw =>
    obtain ⟨acked, heq⟩ := d.writeResolves_eq f
    rw [heq]
    exact h.returns hf rfl rfl rfl rfl rfl rfl rfl rfl
  | @writeRetries f hf hw hlt => exact h.congr rfl rfl rfl rfl rfl rfl (by rw [hf]; rfl) rfl
  | @writeGivesUp f hf hw hge => exact h.returns hf rfl rfl rfl rfl rfl rfl rfl rfl
  | @wake f hf hw => exact h.congr rfl rfl rfl rfl rfl rfl (by rw [hf]; rfl) rfl
  | stop =>
    refine { h with stopped := fun _ => rfl, stops := fun s hs => ?_ }
    rcases List.mem_append.1 hs with hs | hs
    · exact (h.stops s hs).imp (fun n hd => hd.congr (Nat.le_refl _) rfl rfl rfl rfl rfl) (Nat.le_refl _) id
    · obtain rfl := List.mem_singleton.1 hs
      trivial
  | @cancelled k hk =>
    have hstarted := h.started
    refine { h with
      pending := fun _ => .inr (Nat.lt_succ_of_le hstarted)
      started := Nat.le_succ_of_le hstarted
      stopped := fun _ => h.stopped (List.ne_nil_of_mem (List.mem_of_getElem? hk))
      stops := fun s hs => ?_ }
    rcases List.mem_or_eq_of_mem_set hs with hs | rfl
    · refine (h.stops s hs).imp (fun n hd => ?_) (Nat.le_refl _) id
      exact hd.congr (Nat.le_succ _) hd.timer.symm rfl rfl rfl rfl
    -- The flush it chains is after all that have started.
    · exact ⟨Nat.le_refl _, rfl, fun _ => Nat.lt_succ_of_le hstarted, fun _ => Nat.le_succ_of_le hstarted⟩
  | @stopResolves k n hk hn =>
    refine { h with
      stopped := fun _ => h.stopped (List.ne_nil_of_mem (List.mem_of_getElem? hk))
      stops := fun s hs => ?_ }
    rcases List.mem_or_eq_of_mem_set hs with hs | rfl
    · exact (h.stops s hs).imp (fun n hd => hd.congr (Nat.le_refl _) rfl rfl rfl rfl rfl) (Nat.le_refl _) id
    · have hd : d.Drains n := h.stops _ (List.mem_of_getElem? hk)
      exact ⟨hd.congr (Nat.le_refl _) rfl rfl rfl rfl rfl, hn⟩
  | @stopRejects k n hk hr hlt =>
    refine { h with
      stopped := fun _ => h.stopped (List.ne_nil_of_mem (List.mem_of_getElem? hk))
      stops := fun s hs => ?_ }
    rcases List.mem_or_eq_of_mem_set hs with hs | rfl
    · exact (h.stops s hs).imp (fun n hd => hd.congr (Nat.le_refl _) rfl rfl rfl rfl rfl) (Nat.le_refl _) id
    · exact hr

/-! ## After a stop -/

/-- Nothing is pending, runs or will: what is delivered from here on is ignored. -/
structure Drain.Quiet (d : Drain β ε) : Prop where
  pending : d.pending = []
  flushing : d.flushing = none
  rejected : d.rejected = false
  timer : d.flushTimer = false
  stopped : d.stopped = true

/-- When a call of `stop()` resolves, the flush it chained and all before it are done. -/
theorem Drain.Tidy.quiet (h : d.Tidy) {k n : Nat} (hk : d.stops[k]? = some (.resolved n)) : d.Quiet := by
  obtain ⟨hd, hn⟩ : d.Stops (.resolved n) := h.stops _ (List.mem_of_getElem? hk)
  have hbusy : ¬ (d.flushing.isSome = true ∨ d.rejected = true) := by
    intro hb
    have hle := hd.started hb
    have hstarted : d.started = d.finished + 1 := by
      rw [Drain.started, if_pos (by simpa using hb)]
    omega
  rw [not_or] at hbusy
  have hstarted : d.finished ≤ d.started := Nat.le_add_right _ _
  refine ⟨?_, by simpa using hbusy.1, by simpa using hbusy.2, hd.timer,
    h.stopped (List.ne_nil_of_mem (List.mem_of_getElem? hk))⟩
  by_contra hp
  have := hd.pending hp
  omega

theorem Drain.Quiet.step (h : d.Quiet) {a : DrainAction β} (hstep : d.Step o a d') :
    d'.Quiet ∧ d'.calls = d.calls ∧ d'.accepted = d.accepted := by
  cases hstep with
  | ignored _ => exact ⟨{ h with }, rfl, rfl⟩
  | kept hs _ =>
    rw [h.stopped] at hs
    cases hs
  | deliverNull => exact ⟨h, rfl, rfl⟩
  | timer ht =>
    rw [h.timer] at ht
    cases ht
  | flushNothing _ _ _ _ => exact ⟨{ h with flushing := rfl }, rfl, rfl⟩
  | flushThrows _ _ _ hp _ => exact absurd h.pending hp
  | flushGivesUp _ _ _ hp _ _ => exact absurd h.pending hp
  | flushWrites _ _ _ hp _ _ => exact absurd h.pending hp
  | stop => exact ⟨{ h with stopped := rfl }, rfl, rfl⟩
  | cancelled _ => exact ⟨{ h with timer := rfl }, rfl, rfl⟩
  | stopResolves _ _ => exact ⟨{ h with }, rfl, rfl⟩
  | stopRejects _ _ _ => exact ⟨{ h with }, rfl, rfl⟩
  | writeResolves hf _ | writeRetries hf _ _ | writeGivesUp hf _ _ | wake hf _ =>
    rw [h.flushing] at hf
    cases hf

/-- A stopped and quiet loop stays so. -/
theorem Drain.Quiet.steps (h : d.Quiet) (hsteps : Steps (fun d a => Drain.step o d a) (fun _ _ => True) d d') :
    d'.Quiet ∧ d'.calls = d.calls ∧ d'.accepted = d.accepted :=
  hsteps.inv (I := fun d' => d'.Quiet ∧ d'.calls = d.calls ∧ d'.accepted = d.accepted) ⟨h, rfl, rfl⟩
    fun _ _ _ ⟨hq, hcalls, haccepted⟩ _ hstep => by
      obtain ⟨hq', hcalls', haccepted'⟩ := hq.step (.of_step hstep)
      exact ⟨hq', hcalls'.trans hcalls, haccepted'.trans haccepted⟩

theorem Drain.tidy (h : Steps (fun d a => Drain.step o d a) (fun _ _ => True) (Drain.start β ε) d) : d.Tidy :=
  h.inv (I := Drain.Tidy) Drain.start_tidy fun _ _ _ ht _ hstep => ht.step (.of_step hstep)

/-- A delivery that was kept, is not pending and not in the batch of a flush
that runs or threw, is in a finished batch. -/
theorem Drain.Logged.mem_done {done : List (FinishedBatch β ε)} {taken : List (List (Delivery β))}
    (h : d.Logged o done taken) {msg : Delivery β} (hmsg : msg ∈ d.accepted) (hpending : msg ∉ d.pending)
    (hflushing : ∀ f, d.flushing = some f → msg ∉ f.batch) (hrejected : d.rejected = false) :
    ∃ b ∈ done, msg ∈ b.deliveries := by
  rw [← h.accepted, h.batches, List.flatten_append] at hmsg
  have htaken : msg ∉ taken.flatten := by
    cases hf : d.flushing with
    | none => simp [h.idle hf hrejected]
    | some f =>
      rw [(h.flushing f hf).2.2.1]
      simpa using hflushing f hf
  have hdone := (List.mem_append.1 ((List.mem_append.1 hmsg).resolve_right hpending)).resolve_right htaken
  obtain ⟨batch, hbatch, hmsg⟩ := List.mem_flatten.1 hdone
  obtain ⟨b, hb, rfl⟩ := List.mem_map.1 hbatch
  exact ⟨b, hb, hmsg⟩

/-- A delivery that was kept is settled once nothing is pending and no flush is
under way; one that was ignored never is. -/
theorem Drain.Logged.all_settled {done : List (FinishedBatch β ε)} {taken : List (List (Delivery β))}
    (h : d.Logged o done taken) (hq : d.Quiet) : ∀ msg ∈ d.accepted, msg.tag ∈ d.acked ∨ msg.tag ∈ d.nacked := by
  intro msg hmsg
  obtain ⟨b, hb, hmsg⟩ := h.mem_done hmsg (by simp [hq.pending]) (by simp [hq.flushing]) hq.rejected
  exact (h.settled msg.tag).2 (List.mem_flatMap.2 ⟨b, hb, List.mem_map_of_mem hmsg⟩)

theorem Drain.Logged.ignored_unsettled {done : List (FinishedBatch β ε)} {taken : List (List (Delivery β))}
    (h : d.Logged o done taken) : ∀ msg ∈ d.ignored, msg.tag ∉ d.acked ∧ msg.tag ∉ d.nacked := by
  intro msg hmsg
  rw [← not_or, h.settled]
  intro hmem
  -- Settled tags are those of deliveries that were kept; an ignored one is later than all of these.
  have hrange : msg.tag ∈ List.range d.accepted.length := by
    rw [← h.tags_eq, List.append_assoc]
    exact List.mem_append_left _ hmem
  have := (h.ignored msg hmsg).1
  rw [List.mem_range] at hrange
  omega

/-- A delivery that is pending has a timer or a flush to come, at every moment.
And whenever `stop()` was called, when it resolves every delivery that was kept
is settled, no call of `writeBatch` is running and no timer is set, and none
ever will; deliveries that were ignored are never settled. -/
theorem drain_stops (h : Steps (fun d a => Drain.step o d a) (fun _ _ => True) (Drain.start β ε) d) :
    (d.pending ≠ [] → d.flushTimer = true ∨ d.started < d.chained) ∧
    (∀ msg ∈ d.ignored, msg.tag ∉ d.acked ∧ msg.tag ∉ d.nacked) ∧
    ∀ (k n : Nat), d.stops[k]? = some (.resolved n) →
      (∀ msg ∈ d.accepted, msg.tag ∈ d.acked ∨ msg.tag ∈ d.nacked) ∧ d.flushing = none ∧ d.flushTimer = false ∧
      ∀ d', Steps (fun d a => Drain.step o d a) (fun _ _ => True) d d' →
        d'.calls = d.calls ∧ d'.flushing = none ∧ d'.flushTimer = false ∧ d'.accepted = d.accepted := by
  obtain ⟨done, taken, hl⟩ := Drain.logged h
  have ht := Drain.tidy h
  refine ⟨ht.pending, hl.ignored_unsettled, fun k n hk => ?_⟩
  have hq := ht.quiet hk
  refine ⟨hl.all_settled hq, hq.flushing, hq.timer, fun d' hsteps => ?_⟩
  obtain ⟨hq', hcalls, haccepted⟩ := hq.steps hsteps
  exact ⟨hcalls, hq'.flushing, hq'.timer, haccepted⟩

end

/-- Stopped between two attempts, with a third delivery pending and a fourth
that comes too late. -/
def twosStop : List (DrainAction Nat) :=
  [.deliver 7, .deliver 8, .flush, .writeRejects, .deliver 9, .stop, .deliver 10, .wake, .cancelled 0, .writeResolves,
    .flush, .writeResolves, .stopResolves 0]

theorem drain_stops_twos :
    ∃ d, Steps (fun d a => Drain.step twos d a) (fun _ _ => True) (Drain.start Nat Nat) d ∧
      d.acked = [0, 1, 2] ∧ d.ignored = [⟨3, 10⟩] ∧ d.flushing = none ∧ d.flushTimer = false := by
  obtain ⟨d, h, hacked, hignored, hstop⟩ : ∃ d, Steps (fun d a => Drain.step twos d a) (fun _ _ => True)
      (Drain.start Nat Nat) d ∧ d.acked = [0, 1, 2] ∧ d.ignored = [⟨3, 10⟩] ∧ d.stops[0]? = some (.resolved 2) :=
    Steps.exists_of_run twosStop (by decide +kernel)
  obtain ⟨-, -, hresolved⟩ := drain_stops h
  obtain ⟨-, hflushing, htimer, -⟩ := hresolved 0 2 hstop
  exact ⟨d, h, hacked, hignored, hflushing, htimer⟩

end FlashSale
