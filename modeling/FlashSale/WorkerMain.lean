import FlashSale.Shutdown
/-!
# The worker's process

`main` (apps/worker/src/main.ts) around the drain loop: a signal stops the
loop, then closes the connection, then the pool, and exits. The handlers are
set before the loop is: a signal that comes while `drainPurchaseWrites` is
still awaited finds no handle, and waits for nothing.
-/

namespace FlashSale
open Lib.Runs

/-! ## The process -/

/-- What `shutdown` awaits. -/
inductive ShutdownStage where
  | stopping
  | closingQueue
  | endingPool
deriving DecidableEq

structure WorkerMain (β ε : Type) where
  drain : Drain β ε
  /-- `channel.consume` was sent: deliveries may come. -/
  consuming : Bool
  /-- `handle` is assigned. -/
  handle : Bool
  shuttingDown : Bool
  awaits : Option ShutdownStage
  channelOpen : Bool
  poolOpen : Bool
  exitCode : Option Nat
deriving DecidableEq

/-- Connected, with the handlers set. -/
def WorkerMain.start (β ε : Type) : WorkerMain β ε where
  drain := .start β ε
  consuming := false
  handle := false
  shuttingDown := false
  awaits := none
  channelOpen := true
  poolOpen := true
  exitCode := none

inductive MainAction (β : Type) where
  | consume
  /-- `drainPurchaseWrites` resolves. -/
  | handle
  /-- A step of the loop. -/
  | loop (a : DrainAction β)
  /-- SIGTERM or SIGINT. -/
  | signal
  /-- What `shutdown` awaits resolves. -/
  | resolves
  /-- The process dies: it is killed, or what `shutdown` awaits rejects. -/
  | dies
deriving DecidableEq

/-- Only `shutdown` calls `stop()`. -/
def DrainAction.isStop {β : Type} : DrainAction β → Bool
  | .stop => true
  | _ => false

section
variable {β ε : Type} (o : DrainOptions β ε)

/-- The first call of `shutdown` up to its first await. -/
def WorkerMain.shutdown (w : WorkerMain β ε) : WorkerMain β ε :=
  if w.shuttingDown then w
  else if w.handle then
    { w with
      shuttingDown := true, awaits := some .stopping
      drain := { w.drain with stopped := true, stops := w.drain.stops ++ [.cancelling] } }
  else { w with shuttingDown := true, awaits := some .closingQueue }

/-- `shutdown` goes on. -/
def WorkerMain.resolves (w : WorkerMain β ε) : Option (WorkerMain β ε) :=
  match w.awaits with
  | none => none
  | some .stopping =>
    match w.drain.stops with
    | [.resolved _] => some { w with awaits := some .closingQueue }
    | _ => none
  | some .closingQueue => some { w with channelOpen := false, awaits := some .endingPool }
  | some .endingPool => some { w with poolOpen := false, awaits := none, exitCode := some 0 }

def WorkerMain.step (w : WorkerMain β ε) (a : MainAction β) : Option (WorkerMain β ε) :=
  if w.exitCode.isSome then none
  else
    match a with
    | .consume => if w.channelOpen then some { w with consuming := true } else none
    | .handle => if w.consuming then some { w with handle := true } else none
    | .loop a =>
      if w.consuming ∧ w.channelOpen ∧ a.isStop = false then
        (w.drain.step o a).map fun drain => { w with drain }
      else none
    | .signal => some w.shutdown
    | .resolves => w.resolves
    | .dies => some { w with exitCode := some 1 }

end

/-! ## The order of things -/

section
variable {β ε : Type} {o : DrainOptions β ε} {w w' : WorkerMain β ε} {a : MainAction β}

/-- `stop()` is called once or never, and `shutdown` goes on once it has
resolved; then the channel closes, then the pool, then the process exits. -/
structure WorkerMain.Ok (o : DrainOptions β ε) (w : WorkerMain β ε) : Prop where
  reached : Steps (fun d a => Drain.step o d a) (fun _ _ => True) (Drain.start β ε) w.drain
  stops : w.drain.stops = [] ∧ w.awaits ≠ some .stopping ∨
    ∃ s, w.drain.stops = [s] ∧ w.shuttingDown = true ∧ (w.awaits = some .stopping ∨ ∃ n, s = .resolved n)
  waits : w.shuttingDown = false → w.awaits = none ∧ w.drain.stops = [] ∧ w.exitCode ≠ some 0
  channel : w.channelOpen = false ↔ w.awaits = some .endingPool ∨ w.poolOpen = false
  pool : w.poolOpen = false ↔ w.exitCode = some 0
  exited : w.exitCode = some 0 → w.awaits = none

theorem WorkerMain.start_ok : (WorkerMain.start β ε).Ok o where
  reached := .refl
  stops := .inl ⟨rfl, by simp [WorkerMain.start]⟩
  waits _ := ⟨rfl, rfl, by simp [WorkerMain.start]⟩
  channel := by simp [WorkerMain.start]
  pool := by simp [WorkerMain.start]
  exited := by simp [WorkerMain.start]

/-- A step of the loop other than `stop()` can only move a call of it on. -/
theorem Drain.Step.stops {d d' : Drain β ε} {a : DrainAction β} (h : d.Step o a d') (ha : a.isStop = false) :
    d'.stops = d.stops ∨ ∃ k s, d'.stops = d.stops.set k s ∧ ∀ n, d.stops[k]? ≠ some (.resolved n) := by
  cases h with
  | stop => cases ha
  | cancelled hk => exact .inr ⟨_, _, rfl, fun n hn => by rw [hk] at hn; cases hn⟩
  | stopResolves hk _ => exact .inr ⟨_, _, rfl, fun n hn => by rw [hk] at hn; cases hn⟩
  | stopRejects hk _ _ => exact .inr ⟨_, _, rfl, fun n hn => by rw [hk] at hn; cases hn⟩
  | @writeResolves f hf _ =>
    left
    unfold Drain.writeResolves
    split <;> rfl
  | _ => exact .inl rfl

theorem WorkerMain.Ok.loop (h : w.Ok o) {a : DrainAction β} {d : Drain β ε} (ha : a.isStop = false)
    (hstep : w.drain.step o a = some d) : WorkerMain.Ok o { w with drain := d } := by
  have hmoved := Drain.Step.stops (.of_step hstep) ha
  refine { h with reached := h.reached.tail a trivial hstep, stops := ?_, waits := fun hs => ?_ }
  · rcases hmoved with hsame | ⟨k, s', hset, hopen⟩
    · show d.stops = [] ∧ _ ∨ _
      rw [hsame]
      exact h.stops
    · rcases h.stops with ⟨hnone, hawaits⟩ | ⟨s, hone, hsignal, hawaits⟩
      · exact .inl ⟨by rw [hset, hnone]; rfl, hawaits⟩
      · cases k with
        | zero =>
          refine .inr ⟨s', by rw [hset, hone]; rfl, hsignal, hawaits.imp_right fun hresolved => ?_⟩
          obtain ⟨n, rfl⟩ := hresolved
          exact absurd (by rw [hone]; rfl) (hopen n)
        | succ k => exact .inr ⟨s, by rw [hset, hone]; rfl, hsignal, hawaits⟩
  · obtain ⟨hawaits, hnone, hexit⟩ := h.waits hs
    refine ⟨hawaits, ?_, hexit⟩
    rcases hmoved with hsame | ⟨k, s', hset, -⟩
    · exact hsame.trans hnone
    · exact hset.trans (by rw [hnone]; rfl)

theorem WorkerMain.Ok.shutdown (h : w.Ok o) (halive : w.exitCode = none) : w.shutdown.Ok o := by
  unfold WorkerMain.shutdown
  have hpool : w.poolOpen ≠ false := fun hp => by simp [h.pool.1 hp] at halive
  split
  · exact h
  · rename_i hfirst
    obtain ⟨hawaits, hnone, -⟩ := h.waits (by simpa using hfirst)
    have hchannel : w.channelOpen ≠ false := fun hc => by simpa [hawaits, hpool] using h.channel.1 hc
    split
    · refine ⟨h.reached.tail .stop trivial rfl, .inr ⟨.cancelling, by rw [hnone]; rfl, rfl, .inl rfl⟩, by simp, ?_,
        h.pool, by simp [halive]⟩
      simp [hchannel, hpool]
    · exact ⟨h.reached, .inl ⟨hnone, by simp⟩, by simp, by simp [hchannel, hpool], h.pool, by simp [halive]⟩

theorem WorkerMain.Ok.resolves (h : w.Ok o) (halive : w.exitCode = none) (hstep : w.resolves = some w') : w'.Ok o := by
  have hpool : w.poolOpen ≠ false := fun hp => by simp [h.pool.1 hp] at halive
  have hsignal (hawaits : w.awaits ≠ none) : w.shuttingDown = true := by
    by_contra hs
    exact hawaits (h.waits (by simpa using hs)).1
  unfold WorkerMain.resolves at hstep
  split at hstep
  · cases hstep
  · rename_i hawaits
    split at hstep
    · rename_i n hresolved
      obtain rfl := Option.some.inj hstep
      have hchannel : w.channelOpen ≠ false := fun hc => by simpa [hawaits, hpool] using h.channel.1 hc
      have hs := hsignal (by simp [hawaits])
      exact ⟨h.reached, .inr ⟨_, hresolved, hs, .inr ⟨n, rfl⟩⟩, by simp [hs], by simp [hchannel, hpool], h.pool,
        by simp [halive]⟩
    · cases hstep
  · rename_i hawaits
    obtain rfl := Option.some.inj hstep
    have hs := hsignal (by simp [hawaits])
    refine ⟨h.reached, ?_, by simp [hs], by simp, h.pool, by simp [halive]⟩
    rcases h.stops with ⟨hnone, -⟩ | ⟨s, hone, -, hresolved⟩
    · exact .inl ⟨hnone, by simp⟩
    · exact .inr ⟨s, hone, hs, .inr (hresolved.resolve_left (by simp [hawaits]))⟩
  · rename_i hawaits
    obtain rfl := Option.some.inj hstep
    have hs := hsignal (by simp [hawaits])
    have hchannel := h.channel.2 (.inl hawaits)
    refine ⟨h.reached, ?_, by simp [hs], by simp [hchannel], by simp, by simp⟩
    rcases h.stops with ⟨hnone, -⟩ | ⟨s, hone, -, hresolved⟩
    · exact .inl ⟨hnone, by simp⟩
    · exact .inr ⟨s, hone, hs, .inr (hresolved.resolve_left (by simp [hawaits]))⟩

theorem WorkerMain.Ok.step (h : w.Ok o) {a : MainAction β} (hstep : w.step o a = some w') : w'.Ok o := by
  unfold WorkerMain.step at hstep
  split at hstep
  · cases hstep
  · rename_i halive
    have halive : w.exitCode = none := by simpa using halive
    have hpool : w.poolOpen ≠ false := fun hp => by simp [h.pool.1 hp] at halive
    cases a with
    | consume =>
      simp only [] at hstep
      split at hstep
      · obtain rfl := Option.some.inj hstep
        exact { h with }
      · cases hstep
    | handle =>
      simp only [] at hstep
      split at hstep
      · obtain rfl := Option.some.inj hstep
        exact { h with }
      · cases hstep
    | loop a =>
      simp only [] at hstep
      split at hstep
      · rename_i hcan
        obtain ⟨d, hd, rfl⟩ := Option.map_eq_some_iff.1 hstep
        exact h.loop hcan.2.2 hd
      · cases hstep
    | signal =>
      obtain rfl := Option.some.inj hstep
      exact h.shutdown halive
    | resolves => exact h.resolves halive hstep
    | dies =>
      obtain rfl := Option.some.inj hstep
      refine { h with waits := fun hs => ?_, pool := by simp [hpool], exited := by simp }
      obtain ⟨hawaits, hnone, -⟩ := h.waits hs
      exact ⟨hawaits, hnone, by simp⟩

/-- With the handle there, a signal's `shutdown` calls `stop()`. -/
theorem WorkerMain.step_stops (hstep : w.step o a = some w') (hsignal : a = .signal → w.handle = true)
    (h : w.shuttingDown = true → w.drain.stops ≠ []) : w'.shuttingDown = true → w'.drain.stops ≠ [] := by
  unfold WorkerMain.step at hstep
  split at hstep
  · cases hstep
  · cases a with
    | consume | handle =>
      simp only [] at hstep
      split at hstep
      · obtain rfl := Option.some.inj hstep
        exact h
      · cases hstep
    | loop a =>
      simp only [] at hstep
      split at hstep
      · rename_i hcan
        obtain ⟨d, hd, rfl⟩ := Option.map_eq_some_iff.1 hstep
        intro hs
        rcases Drain.Step.stops (.of_step hd) hcan.2.2 with hsame | ⟨k, s, hset, -⟩
        · rw [hsame]
          exact h hs
        · rw [hset]
          simpa using h hs
      · cases hstep
    | signal =>
      obtain rfl := Option.some.inj hstep
      unfold WorkerMain.shutdown
      split
      · exact h
      · rw [if_pos (hsignal rfl)]
        simp
    | resolves =>
      simp only [WorkerMain.resolves] at hstep
      split at hstep
      · cases hstep
      · split at hstep
        · obtain rfl := Option.some.inj hstep
          exact h
        · cases hstep
      · obtain rfl := Option.some.inj hstep
        exact h
      · obtain rfl := Option.some.inj hstep
        exact h
    | dies =>
      obtain rfl := Option.some.inj hstep
      exact h

/-! ## Main theorem -/

/-- Signals, however many, that come once the loop is set up: `stop()` is called
once, nothing closes before every delivery that was kept is settled and no
write runs or will, the channel closes before the pool, and a clean exit has
closed both. -/
theorem worker_exits (h : Steps (fun w a => WorkerMain.step o w a) (fun w a => a = .signal → w.handle = true)
      (WorkerMain.start β ε) w) :
    w.drain.stops.length ≤ 1 ∧ (w.poolOpen = false → w.channelOpen = false) ∧
    (w.exitCode = some 0 → w.poolOpen = false) ∧
    (w.channelOpen = false → (∀ msg ∈ w.drain.accepted, msg.tag ∈ w.drain.acked ∨ msg.tag ∈ w.drain.nacked) ∧
      w.drain.flushing = none ∧ w.drain.flushTimer = false ∧
      ∀ d', Steps (fun d a => Drain.step o d a) (fun _ _ => True) w.drain d' →
        d'.calls = w.drain.calls ∧ d'.flushing = none ∧ d'.accepted = w.drain.accepted) := by
  obtain ⟨hok, hstopped⟩ := h.inv (I := fun w => w.Ok o ∧ (w.shuttingDown = true → w.drain.stops ≠ []))
    ⟨WorkerMain.start_ok, by simp [WorkerMain.start]⟩ fun w a w' hinv hsignal hstep =>
      ⟨hinv.1.step hstep, WorkerMain.step_stops hstep hsignal hinv.2⟩
  refine ⟨?_, fun hp => hok.channel.2 (.inr hp), hok.pool.2, fun hc => ?_⟩
  · rcases hok.stops with ⟨hnone, -⟩ | ⟨s, hone, -⟩
    · simp [hnone]
    · simp [hone]
  · have hended : w.awaits ≠ some .stopping := by
      rcases hok.channel.1 hc with hawaits | hp
      · simp [hawaits]
      · simp [hok.exited (hok.pool.1 hp)]
    have hs : w.shuttingDown = true := by
      by_contra hs
      obtain ⟨hawaits, -, hexit⟩ := hok.waits (by simpa using hs)
      rcases hok.channel.1 hc with hawaits' | hp
      · rw [hawaits] at hawaits'
        cases hawaits'
      · exact hexit (hok.pool.1 hp)
    rcases hok.stops with ⟨hnone, -⟩ | ⟨s, hone, -, hresolved⟩
    · exact absurd hnone (hstopped hs)
    · obtain ⟨n, rfl⟩ := hresolved.resolve_left hended
      obtain ⟨done, taken, hl⟩ := Drain.logged hok.reached
      have hq := (Drain.tidy hok.reached).quiet (k := 0) (n := n) (by rw [hone]; rfl)
      refine ⟨hl.all_settled hq, hq.flushing, hq.timer, fun d' hsteps => ?_⟩
      obtain ⟨hq', hcalls, haccepted⟩ := hq.steps hsteps
      exact ⟨hcalls, hq'.flushing, haccepted⟩

end

/-- Two signals with a message pending and another in a batch that fails once. -/
theorem worker_exits_demo :
    ∃ w, Steps (fun w a => WorkerMain.step twos w a) (fun w a => a = .signal → w.handle = true)
        (WorkerMain.start Nat Nat) w ∧ w.exitCode = some 0 ∧ w.drain.accepted = [⟨0, 7⟩, ⟨1, 8⟩, ⟨2, 9⟩] ∧
      ∀ msg ∈ w.drain.accepted, msg.tag ∈ w.drain.acked ∨ msg.tag ∈ w.drain.nacked := by
  have hrun : ∃ w, Steps (fun w a => WorkerMain.step twos w a) (fun w a => a = .signal → w.handle = true)
      (WorkerMain.start Nat Nat) w ∧ w.exitCode = some 0 ∧ w.drain.accepted = [⟨0, 7⟩, ⟨1, 8⟩, ⟨2, 9⟩] :=
    Steps.exists_of_run
      [.consume, .handle, .loop (.deliver 7), .loop (.deliver 8), .loop .flush, .loop .writeRejects,
        .loop (.deliver 9), .signal, .signal, .loop .wake, .loop (.cancelled 0), .loop .writeResolves, .loop .flush,
        .loop .writeResolves, .loop (.stopResolves 0), .resolves, .resolves, .resolves] (by decide +kernel)
  obtain ⟨w, h, hexit, haccepted⟩ := hrun
  obtain ⟨-, hpool, hclean, hsettled⟩ := worker_exits h
  exact ⟨w, h, hexit, haccepted, (hsettled (hpool (hclean hexit))).1⟩

/-- A signal that finds no handle waits for nothing: the process exits cleanly
with a batch half written, which the broker delivers again. -/
theorem early_signal_waits_for_nothing :
    ∃ w, Steps (fun w a => WorkerMain.step twos w a) (fun _ _ => True) (WorkerMain.start Nat Nat) w ∧
      w.exitCode = some 0 ∧ w.drain.flushing.isSome ∧ w.drain.acked = [] :=
  Steps.exists_of_run [.consume, .loop (.deliver 7), .loop (.deliver 8), .loop .flush, .signal, .resolves, .resolves]
    (by decide +kernel)

end FlashSale
