import FlashSale.Progress
/-!
# The drain barrier

`waitForQueueDrain` (packages/load-test/scripts/drain-queue.ts) polls the depth
of the queue until it is 0 twice, `SETTLE_MS` apart. The depth counts messages
that are ready, and the worker's prefetch takes them out of that count long
before it has written them.
-/

namespace FlashSale
open Lib.Runs

/-! ## `waitForQueueDrain` -/

def POLL_INTERVAL_MS : Nat := 250
def SETTLE_MS : Nat := 1500
def DEFAULT_TIMEOUT_MS : Int := 60000

structure DrainQueueResult where
  drainedMs : Nat
  timedOut : Bool
  finalDepth : Nat
deriving DecidableEq

/-- The call of `purchaseQueueDepth`: in the loop, after `SETTLE_MS`, or after
the loop. -/
inductive DepthCall where
  | depth
  | settledDepth
  | finalDepth
deriving DecidableEq

inductive WaitStage where
  | connecting
  /-- `checkQueue` was sent; the broker may have counted. -/
  | checking (call : DepthCall) (messageCount : Option Nat)
  /-- `sleep(SETTLE_MS)`, until then. -/
  | settling (wakeAt : Nat)
  /-- `sleep(POLL_INTERVAL_MS)`. -/
  | pausing (wakeAt : Nat)
  /-- The `finally` block. -/
  | closing (result : DrainQueueResult)
  | returned (result : DrainQueueResult)
  | threw
deriving DecidableEq

/-- A call of `waitForQueueDrain`. -/
structure Waiting where
  /-- How many messages had been published when it was called. -/
  before : Nat
  calledAt : Nat
  timeoutMs : Int
  start : Nat
  stage : WaitStage
deriving DecidableEq

inductive WaitEvent where
  | connected
  /-- The broker counts the ready messages for `checkQueue`. -/
  | counted
  /-- The count arrives. -/
  | replied
  | wakes
  | closed
  /-- What is awaited rejects. -/
  | rejects
deriving DecidableEq

/-- The condition of the `while`, and the depth that is asked for next. -/
def Waiting.loop (w : Waiting) (now : Nat) : WaitStage :=
  if (now : Int) - w.start < w.timeoutMs then .checking .depth none else .checking .finalDepth none

/-- What a depth leads to. -/
def Waiting.answered (w : Waiting) (now : Nat) (call : DepthCall) (depth : Nat) : WaitStage :=
  match call with
  | .depth => if depth = 0 then .settling (now + SETTLE_MS) else .pausing (now + POLL_INTERVAL_MS)
  | .settledDepth => if depth = 0 then .closing ⟨now - w.start, false, 0⟩ else .pausing (now + POLL_INTERVAL_MS)
  | .finalDepth => .closing ⟨now - w.start, true, depth⟩

def Waiting.step (w : Waiting) (now ready : Nat) : WaitEvent → Option Waiting
  | .connected =>
    if w.stage = .connecting then some { w with start := now, stage := { w with start := now }.loop now } else none
  | .counted =>
    match w.stage with
    | .checking call none => some { w with stage := .checking call (some ready) }
    | _ => none
  | .replied =>
    match w.stage with
    | .checking call (some depth) => some { w with stage := w.answered now call depth }
    | _ => none
  | .wakes =>
    match w.stage with
    | .settling wakeAt => if wakeAt ≤ now then some { w with stage := .checking .settledDepth none } else none
    | .pausing wakeAt => if wakeAt ≤ now then some { w with stage := w.loop now } else none
    | _ => none
  | .closed =>
    match w.stage with
    | .closing result => some { w with stage := .returned result }
    | _ => none
  | .rejects =>
    match w.stage with
    | .connecting | .checking _ _ | .closing _ => some { w with stage := .threw }
    | _ => none

def WaitStage.over : WaitStage → Bool
  | .returned _ | .threw => true
  | _ => false

/-! ## The queue and the worker -/

/-- The broker's queue, the worker and the load test. Message `i` is the `i`th
published, and the worker's delivery with tag `i`. -/
structure Barrier (β ε : Type) where
  drain : Drain β ε
  /-- The messages that are ready, oldest first. -/
  ready : List β
  now : Nat
  waiting : Option Waiting
  /-- When message `i` was delivered. -/
  deliveredAt : Nat → Nat

inductive BarrierAction (β : Type) where
  | publish (content : β)
  | deliver
  /-- A step of the drain loop that is not a delivery. -/
  | work (a : DrainAction β)
  | elapse (ms : Nat)
  | wait (timeoutMs : Int)
  | waiter (e : WaitEvent)

def DrainAction.isDelivery {β : Type} : DrainAction β → Bool
  | .deliver _ => true
  | _ => false

section
variable {β ε : Type}

/-- The deliveries that the broker has no answer for. -/
def Drain.unsettled (d : Drain β ε) : Nat := d.delivered - d.acked.length - d.nacked.length

def Drain.settles (d : Drain β ε) (t : Nat) : Bool := t ∈ d.acked ∨ t ∈ d.nacked

namespace Barrier

def start (β ε : Type) : Barrier β ε := ⟨Drain.start β ε, [], 0, none, fun _ => 0⟩

def published (s : Barrier β ε) : Nat := s.drain.delivered + s.ready.length

/-- A prefetch of 0 is no limit. -/
def step (o : DrainOptions β ε) (prefetch : Nat) (s : Barrier β ε) : BarrierAction β → Option (Barrier β ε)
  | .publish content => some { s with ready := s.ready ++ [content] }
  | .deliver =>
    match s.ready with
    | content :: ready =>
      if prefetch = 0 ∨ s.drain.unsettled < prefetch then
        some { s with
          drain := s.drain.deliver o content
          ready := ready
          deliveredAt := Function.update s.deliveredAt s.drain.delivered s.now }
      else none
    | [] => none
  | .work a => if a.isDelivery then none else (s.drain.step o a).map fun d => { s with drain := d }
  | .elapse ms => some { s with now := s.now + ms }
  | .wait timeoutMs =>
    if s.waiting.all (·.stage.over) then
      some { s with waiting := some ⟨s.published, s.now, timeoutMs, 0, .connecting⟩ }
    else none
  | .waiter e =>
    (s.waiting.bind fun w => w.step s.now s.ready.length e).map fun w => { s with waiting := some w }

/-- A barrier that did not time out came after all that was published before. -/
def Drained (s : Barrier β ε) : Prop :=
  ∀ w ∈ s.waiting, ∀ result, w.stage = .returned result → result.timedOut = false →
    ∀ t < w.before, s.drain.settles t = true

/-- `SETTLE_MS` after message `t` was delivered, or after the call if that came
later. -/
def due (s : Barrier β ε) (w : Waiting) (t : Nat) : Nat := max (s.deliveredAt t) w.calledAt + SETTLE_MS

/-- While a call runs, time does not pass so far that a message published before
it has been with the worker for `SETTLE_MS`. -/
def prompt (s : Barrier β ε) : BarrierAction β → Bool
  | .elapse ms => s.waiting.all fun w => w.stage.over || (List.range (min w.before s.drain.delivered)).all fun t =>
    s.drain.settles t || s.now + ms < s.due w t
  | _ => true

end Barrier

/-! ## What the worker has settled -/

variable {o : DrainOptions β ε} {d d' : Drain β ε} {done : List (FinishedBatch β ε)} {taken : List (List (Delivery β))}

theorem Drain.settles_iff {t : Nat} : d.settles t = true ↔ t ∈ d.acked ∨ t ∈ d.nacked := by
  simp [Drain.settles]

/-- Only a delivery is counted as delivered. -/
theorem Drain.Step.delivered_eq {a : DrainAction β} (hstep : d.Step o a d') :
    d'.delivered = d.delivered + if a.isDelivery then 1 else 0 := by
  cases hstep with
  | @writeResolves f _ _ =>
    obtain ⟨acked, heq⟩ := d.writeResolves_eq f
    rw [heq]
    rfl
  | _ => rfl

/-- What is settled stays settled. -/
theorem Drain.Step.settled {a : DrainAction β} (hstep : d.Step o a d') (hlog : d.Logged o done taken) {t : Nat}
    (h : d.settles t = true) : d'.settles t = true := by
  rw [Drain.settles_iff] at h ⊢
  cases hstep with
  | writeResolves hf =>
    rw [hlog.writeResolves hf]
    exact h.imp_left (List.mem_append_left _)
  | flushGivesUp | writeGivesUp => exact h.imp_right (List.mem_append_left _)
  | _ => exact h

/-! ## What an event does -/

inductive Waiting.Step (w : Waiting) (now ready : Nat) : WaitEvent → Waiting → Prop
  | connected : w.stage = .connecting →
      Step w now ready .connected { w with start := now, stage := { w with start := now }.loop now }
  | counted {call} : w.stage = .checking call none →
      Step w now ready .counted { w with stage := .checking call (some ready) }
  | replied {call depth} : w.stage = .checking call (some depth) →
      Step w now ready .replied { w with stage := w.answered now call depth }
  | settled {wakeAt} : w.stage = .settling wakeAt → wakeAt ≤ now →
      Step w now ready .wakes { w with stage := .checking .settledDepth none }
  | paused {wakeAt} : w.stage = .pausing wakeAt → wakeAt ≤ now →
      Step w now ready .wakes { w with stage := w.loop now }
  | closed {result} : w.stage = .closing result →
      Step w now ready .closed { w with stage := .returned result }
  | rejects : w.stage.over = false → Step w now ready .rejects { w with stage := .threw }

theorem Waiting.Step.of_step {w w' : Waiting} {now ready : Nat} {e : WaitEvent} (h : w.step now ready e = some w') :
    w.Step now ready e w' := by
  cases e with
  | connected =>
    simp only [Waiting.step] at h
    split at h
    · obtain rfl := Option.some.inj h
      exact .connected (by assumption)
    · cases h
  | counted =>
    simp only [Waiting.step] at h
    split at h
    · obtain rfl := Option.some.inj h
      exact .counted (by assumption)
    · cases h
  | replied =>
    simp only [Waiting.step] at h
    split at h
    · obtain rfl := Option.some.inj h
      exact .replied (by assumption)
    · cases h
  | wakes =>
    simp only [Waiting.step] at h
    split at h
    · split at h
      · obtain rfl := Option.some.inj h
        exact .settled (by assumption) (by assumption)
      · cases h
    · split at h
      · obtain rfl := Option.some.inj h
        exact .paused (by assumption) (by assumption)
      · cases h
    · cases h
  | closed =>
    simp only [Waiting.step] at h
    split at h
    · obtain rfl := Option.some.inj h
      exact .closed (by assumption)
    · cases h
  | rejects =>
    simp only [Waiting.step] at h
    split at h
    case h_4 => cases h
    all_goals
      rename_i hstage
      obtain rfl := Option.some.inj h
      exact .rejects (by rw [hstage]; rfl)

/-- No event of a call touches what was known when it was made, and none comes
after its end. -/
theorem Waiting.Step.frame {w w' : Waiting} {now ready : Nat} {e : WaitEvent} (h : w.Step now ready e w') :
    w'.before = w.before ∧ w'.calledAt = w.calledAt ∧ w.stage.over = false := by
  cases h with
  | rejects hover => exact ⟨rfl, rfl, hover⟩
  | connected hstage | counted hstage | replied hstage | settled hstage | paused hstage | closed hstage =>
    exact ⟨rfl, rfl, by rw [hstage]; rfl⟩

namespace Barrier

variable {prefetch : Nat} {s s' : Barrier β ε} {a : BarrierAction β}

inductive Step (o : DrainOptions β ε) (s : Barrier β ε) : BarrierAction β → Barrier β ε → Prop
  | publish (content : β) : Step o s (.publish content) { s with ready := s.ready ++ [content] }
  | deliver {content ready} : s.ready = content :: ready →
      s.drain.Step o (.deliver content) (s.drain.deliver o content) →
      Step o s .deliver
        { s with
          drain := s.drain.deliver o content
          ready := ready
          deliveredAt := Function.update s.deliveredAt s.drain.delivered s.now }
  | work {b d} : b.isDelivery = false → s.drain.Step o b d → Step o s (.work b) { s with drain := d }
  | elapse (ms : Nat) : Step o s (.elapse ms) { s with now := s.now + ms }
  | wait (timeoutMs : Int) :
      Step o s (.wait timeoutMs) { s with waiting := some ⟨s.published, s.now, timeoutMs, 0, .connecting⟩ }
  | waiter {e w w'} : s.waiting = some w → w.Step s.now s.ready.length e w' →
      Step o s (.waiter e) { s with waiting := some w' }

theorem Step.of_step (h : s.step o prefetch a = some s') : s.Step o a s' := by
  cases a with
  | publish content =>
    obtain rfl := Option.some.inj h
    exact .publish content
  | deliver =>
    simp only [Barrier.step] at h
    split at h
    · split at h
      · obtain rfl := Option.some.inj h
        exact .deliver (by assumption) (.of_step rfl)
      · cases h
    · cases h
  | work b =>
    simp only [Barrier.step] at h
    split at h
    · cases h
    · rename_i hb
      obtain ⟨d, hd, rfl⟩ := Option.map_eq_some_iff.1 h
      exact .work (by simpa using hb) (.of_step hd)
  | elapse ms =>
    obtain rfl := Option.some.inj h
    exact .elapse ms
  | wait timeoutMs =>
    simp only [Barrier.step] at h
    split at h
    · obtain rfl := Option.some.inj h
      exact .wait timeoutMs
    · cases h
  | waiter e =>
    obtain ⟨w', hw', rfl⟩ := Option.map_eq_some_iff.1 h
    obtain ⟨w, hw, hw'⟩ := Option.bind_eq_some_iff.1 hw'
    exact .waiter hw (.of_step hw')

/-! ## What a call knows -/

/-- All that was published before the call was delivered, and is due by then. -/
def Aged (s : Barrier β ε) (w : Waiting) (instant : Nat) : Prop :=
  w.before ≤ s.drain.delivered ∧ ∀ t < w.before, s.due w t ≤ instant

/-- A first count of 0 says that everything was delivered; `SETTLE_MS` later
everything is due; and what is due was settled. -/
def Known (s : Barrier β ε) (w : Waiting) : Prop :=
  match w.stage with
  | .checking .depth (some 0) => w.before ≤ s.drain.delivered
  | .settling wakeAt => s.Aged w wakeAt
  | .checking .settledDepth _ => s.Aged w s.now
  | .closing result | .returned result => result.timedOut = false → ∀ t < w.before, s.drain.settles t = true
  | _ => True

/-- It goes on being known while the worker and the queue move on. -/
theorem Known.mono {w : Waiting} (h : s.Known w) (hdelivered : s.drain.delivered ≤ s'.drain.delivered)
    (hdue : ∀ t < s.drain.delivered, s'.due w t = s.due w t) (hnow : s.now ≤ s'.now)
    (hsettled : ∀ t, s.drain.settles t = true → s'.drain.settles t = true) : s'.Known w := by
  have haged : ∀ {i j : Nat}, s.Aged w i → i ≤ j → s'.Aged w j := fun {i j} ha hle =>
    ⟨Nat.le_trans ha.1 hdelivered, fun t ht =>
      hdue t (Nat.lt_of_lt_of_le ht ha.1) ▸ Nat.le_trans (ha.2 t ht) hle⟩
  unfold Known at h ⊢
  split at h
  · exact Nat.le_trans h hdelivered
  · exact haged h (Nat.le_refl _)
  · exact haged h hnow
  · exact fun ht t hlt => hsettled t (h ht t hlt)
  · exact fun ht t hlt => hsettled t (h ht t hlt)
  · trivial

/-- Between any two steps. -/
structure Sound (o : DrainOptions β ε) (s : Barrier β ε) : Prop where
  logged : ∃ done taken, s.drain.Logged o done taken
  past : ∀ t, s.deliveredAt t ≤ s.now
  called : ∀ w ∈ s.waiting, w.calledAt ≤ s.now
  before : ∀ w ∈ s.waiting, w.before ≤ s.published
  undue : ∀ w ∈ s.waiting, w.stage.over = false → ∀ t < w.before, t < s.drain.delivered →
    s.drain.settles t = true ∨ s.now < s.due w t
  known : ∀ w ∈ s.waiting, s.Known w

theorem start_sound : (start β ε).Sound o where
  logged := ⟨[], [], Drain.start_logged⟩
  past _ := Nat.le_refl _
  called w hw := by cases hw
  before w hw := by cases hw
  undue w hw := by cases hw
  known w hw := by cases hw

theorem Sound.returned (h : s.Sound o) : s.Drained := by
  intro w hw result hstage htimedOut
  have hknown := h.known w hw
  rw [Known, hstage] at hknown
  exact hknown htimedOut

/-- While a call runs, what is due was settled. -/
theorem Sound.settled (h : s.Sound o) {w : Waiting} (hw : w ∈ s.waiting) (hover : w.stage.over = false)
    (ha : s.Aged w s.now) : ∀ t < w.before, s.drain.settles t = true := fun t ht =>
  (h.undue w hw hover t ht (Nat.lt_of_lt_of_le ht ha.1)).resolve_right (Nat.not_lt_of_le (ha.2 t ht))

theorem loop_known {w w' : Waiting} {now : Nat} (h : w'.stage = w.loop now) : s.Known w' := by
  unfold Waiting.loop at h
  split at h <;> rw [Known, h] <;> trivial

/-- A call comes to know what it knows by a count of 0 and a sleep. -/
theorem Sound.known_step (h : s.Sound o) {w w' : Waiting} {e : WaitEvent} (hw : w ∈ s.waiting)
    (hstep : w.Step s.now s.ready.length e w') : s.Known w' := by
  have hknown := h.known w hw
  cases hstep with
  | connected => exact loop_known rfl
  | @counted call hstage =>
    cases call with
    | depth =>
      -- Nothing is ready, so what was published was delivered.
      have hbefore := h.before w hw
      cases hready : s.ready.length with
      | zero =>
        rw [published, hready] at hbefore
        exact hbefore
      | succ n => trivial
    | settledDepth =>
      rw [Known, hstage] at hknown
      exact hknown
    | finalDepth => trivial
  | @replied call depth hstage =>
    cases call with
    | depth =>
      unfold Waiting.answered
      by_cases hzero : depth = 0
      · subst hzero
        rw [Known, hstage] at hknown
        simp only [if_true]
        refine ⟨hknown, fun t _ => Nat.add_le_add_right (Nat.max_le.2 ⟨h.past t, h.called w hw⟩) _⟩
      · simp only [hzero, if_false]
        trivial
    | settledDepth =>
      rw [Known, hstage] at hknown
      unfold Waiting.answered
      by_cases hzero : depth = 0
      · simp only [hzero, if_true]
        exact fun _ => h.settled (w := w) hw (by rw [hstage]; rfl) hknown
      · simp only [hzero, if_false]
        trivial
    | finalDepth => exact fun htimedOut => by cases htimedOut
  | settled hstage hle =>
    rw [Known, hstage] at hknown
    exact ⟨hknown.1, fun t ht => Nat.le_trans (hknown.2 t ht) hle⟩
  | paused => exact loop_known rfl
  | closed hstage =>
    rw [Known, hstage] at hknown
    exact hknown
  | rejects => trivial

/-- A delivery is due `SETTLE_MS` from now at the earliest. -/
theorem Sound.deliver (h : s.Sound o) {content : β} {ready : List β} (hready : s.ready = content :: ready)
    (hdrain : s.drain.Step o (.deliver content) (s.drain.deliver o content)) :
    Sound o { s with
      drain := s.drain.deliver o content
      ready := ready
      deliveredAt := Function.update s.deliveredAt s.drain.delivered s.now } := by
  obtain ⟨done, taken, hlog⟩ := h.logged
  have hdelivered : (s.drain.deliver o content).delivered = s.drain.delivered + 1 := hdrain.delivered_eq
  have hdue : ∀ w, ∀ t < s.drain.delivered,
      due { s with
        drain := s.drain.deliver o content, ready := ready
        deliveredAt := Function.update s.deliveredAt s.drain.delivered s.now } w t = s.due w t := by
    intro w t ht
    simp [due, Function.update_of_ne (Nat.ne_of_lt ht)]
  refine ⟨hlog.step hdrain, fun t => ?_, h.called, fun w hw => ?_, fun w hw hover t hbefore ht => ?_, fun w hw => ?_⟩
  · rcases eq_or_ne t s.drain.delivered with rfl | hne
    · simp
    · simpa [Function.update_of_ne hne] using h.past t
  · have := h.before w hw
    rw [published, hready, List.length_cons] at this
    simp only [published, hdelivered]
    omega
  · dsimp only at ht
    rw [hdelivered] at ht
    rcases Nat.lt_succ_iff_lt_or_eq.1 ht with ht | rfl
    · rw [hdue w t ht]
      exact (h.undue w hw hover t hbefore ht).imp_left (hdrain.settled hlog)
    · -- It was delivered just now.
      refine .inr ?_
      simp only [due, Function.update_self, SETTLE_MS]
      omega
  · exact (h.known w hw).mono (by simp [hdelivered]) (hdue w) (Nat.le_refl _) fun t => hdrain.settled hlog

theorem Sound.step (h : s.Sound o) (hprompt : s.prompt a = true) (hstep : s.Step o a s') : s'.Sound o := by
  obtain ⟨done, taken, hlog⟩ := h.logged
  cases hstep with
  | publish content =>
    refine { h with before := fun w hw => Nat.le_trans (h.before w hw) ?_ }
    simp [published, ← Nat.add_assoc]
  | deliver hready hdrain => exact h.deliver hready hdrain
  | @work b d hb hdrain =>
    have hdelivered : d.delivered = s.drain.delivered := by simpa [hb] using hdrain.delivered_eq
    refine ⟨hlog.step hdrain, h.past, h.called, fun w hw => ?_, fun w hw hover t hbefore ht => ?_, fun w hw => ?_⟩
    · simpa [published, hdelivered] using h.before w hw
    · exact (h.undue w hw hover t hbefore (hdelivered ▸ ht)).imp_left (hdrain.settled hlog)
    · exact (h.known w hw).mono (Nat.le_of_eq hdelivered.symm) (fun _ _ => rfl) (Nat.le_refl _)
        fun t => hdrain.settled hlog
  | elapse ms =>
    have hle := Nat.le_add_right s.now ms
    refine ⟨h.logged, fun t => Nat.le_trans (h.past t) hle, fun w hw => Nat.le_trans (h.called w hw) hle, h.before,
      fun w hw hover t hbefore ht => ?_, fun w hw => ?_⟩
    · have hall : ∀ w, s.waiting = some w → w.stage.over = true ∨ ∀ t < min w.before s.drain.delivered,
          s.drain.settles t = true ∨ s.now + ms < s.due w t := by
        simpa [prompt, Option.all_eq_true] using hprompt
      exact ((hall w hw).resolve_left (by simp [hover])) t (Nat.lt_min.2 ⟨hbefore, ht⟩)
    · exact (h.known w hw).mono (Nat.le_refl _) (fun _ _ => rfl) hle fun _ => id
  | wait timeoutMs =>
    refine { h with called := ?_, before := ?_, undue := ?_, known := ?_ }
    all_goals
      intro w hw
      obtain rfl := Option.some.inj hw
    · exact Nat.le_refl _
    · exact Nat.le_refl _
    · intro _ t _ _
      refine .inr ?_
      simp only [due, SETTLE_MS]
      omega
    · trivial
  | @waiter e w w' hw hstep =>
    obtain ⟨hbefore, hcalled, hover⟩ := hstep.frame
    refine { h with called := ?_, before := ?_, undue := ?_, known := ?_ }
    all_goals
      intro w'' hw''
      obtain rfl := Option.some.inj hw''
    · exact hcalled ▸ h.called w hw
    · exact hbefore ▸ h.before w hw
    · intro _ t ht hlt
      have := h.undue w hw hover t (hbefore ▸ ht) hlt
      simpa [due, hcalled] using this
    · exact h.known_step hw hstep

/-- A worker that goes on keeping one for `SETTLE_MS` lets a call return too
early. -/
theorem returns_early (hidle : s.waiting.all (·.stage.over) = true) (hready : s.ready = [])
    {t : Nat} (ht : t < s.drain.delivered) (hkept : s.drain.settles t = false) {timeoutMs : Int}
    (hpos : 0 < timeoutMs) :
    ∃ s', Steps (Barrier.step o prefetch)
      (fun _ a => a = .wait timeoutMs ∨ a = .elapse SETTLE_MS ∨ ∃ e, a = .waiter e) s s' ∧
      s'.now = s.now + SETTLE_MS ∧ ¬ s'.Drained := by
  -- The call, at each of its stages.
  let call (start : Nat) (stage : WaitStage) : Waiting := ⟨s.published, s.now, timeoutMs, start, stage⟩
  let asked (w : Waiting) : Barrier β ε := { s with waiting := some w }
  let later (w : Waiting) : Barrier β ε := { s with now := s.now + SETTLE_MS, waiting := some w }
  have hrun : Steps (Barrier.step o prefetch)
      (fun _ a => a = .wait timeoutMs ∨ a = .elapse SETTLE_MS ∨ ∃ e, a = .waiter e) s
      (later (call s.now (.returned ⟨s.now + SETTLE_MS - s.now, false, 0⟩))) := by
    refine .head (a := .wait timeoutMs) (.inl rfl) (if_pos hidle) ?_
    refine .head (a := .waiter .connected) (.inr (.inr ⟨_, rfl⟩))
      (u := asked (call s.now (.checking .depth none))) ?_ ?_
    · simp [Barrier.step, Waiting.step, asked, call, Waiting.loop, hpos]
    refine .head (a := .waiter .counted) (.inr (.inr ⟨_, rfl⟩))
      (u := asked (call s.now (.checking .depth (some 0)))) ?_ ?_
    · simp [Barrier.step, Waiting.step, asked, call, hready]
    refine .head (a := .waiter .replied) (.inr (.inr ⟨_, rfl⟩))
      (u := asked (call s.now (.settling (s.now + SETTLE_MS)))) ?_ ?_
    · simp [Barrier.step, Waiting.step, Waiting.answered, asked, call]
    refine .head (a := .elapse SETTLE_MS) (.inr (.inl rfl))
      (u := later (call s.now (.settling (s.now + SETTLE_MS)))) rfl ?_
    refine .head (a := .waiter .wakes) (.inr (.inr ⟨_, rfl⟩))
      (u := later (call s.now (.checking .settledDepth none))) ?_ ?_
    · simp [Barrier.step, Waiting.step, later, call]
    refine .head (a := .waiter .counted) (.inr (.inr ⟨_, rfl⟩))
      (u := later (call s.now (.checking .settledDepth (some 0)))) ?_ ?_
    · simp [Barrier.step, Waiting.step, later, call, hready]
    refine .head (a := .waiter .replied) (.inr (.inr ⟨_, rfl⟩))
      (u := later (call s.now (.closing ⟨s.now + SETTLE_MS - s.now, false, 0⟩))) ?_ ?_
    · simp [Barrier.step, Waiting.step, Waiting.answered, later, call]
    exact .head (a := .waiter .closed) (.inr (.inr ⟨_, rfl⟩)) rfl .refl
  refine ⟨_, hrun, rfl, fun hdrained => ?_⟩
  have hlt : t < s.published := Nat.lt_of_lt_of_le ht (Nat.le_add_right _ _)
  have hsettled : s.drain.settles t = true := hdrained _ rfl _ rfl rfl t hlt
  rw [hkept] at hsettled
  cases hsettled

end Barrier

end

/-- A barrier does its work in every run where, while a call is under way, no
message published before it is unsettled for `SETTLE_MS`, from its delivery or
from the call. A worker that keeps one for just that long lets a call return too
early. -/
theorem waitForQueueDrain_drained {β ε : Type} {o : DrainOptions β ε} {prefetch : Nat} {s : Barrier β ε}
    (h : Steps (Barrier.step o prefetch) (fun s a => s.prompt a = true) (.start β ε) s) :
    s.Drained ∧ (s.waiting.all (·.stage.over) = true → s.ready = [] →
      ∀ t < s.drain.delivered, s.drain.settles t = false → ∀ timeoutMs > 0, ∃ s', Steps (Barrier.step o prefetch)
        (fun _ a => a = .wait timeoutMs ∨ a = .elapse SETTLE_MS ∨ ∃ e, a = .waiter e) s s' ∧
        s'.now = s.now + SETTLE_MS ∧ ¬ s'.Drained) := by
  have hsound : s.Sound o := h.inv Barrier.start_sound fun _ _ _ hI hprompt hstep => hI.step hprompt (.of_step hstep)
  exact ⟨hsound.returned, fun hidle hready t ht hkept timeoutMs hpos =>
    Barrier.returns_early hidle hready ht hkept hpos⟩

/-- One message, with the defaults of the worker. -/
def oneMessage : List (BarrierAction Nat) :=
  [.publish 7, .deliver, .work .timer, .work .flush]

/-- A barrier whose first poll finds the queue empty. -/
def secondLook : List (BarrierAction Nat) :=
  [.wait DEFAULT_TIMEOUT_MS, .waiter .connected, .waiter .counted, .waiter .replied, .elapse SETTLE_MS, .waiter .wakes,
    .waiter .counted, .waiter .replied, .waiter .closed]

/-- `parse`, `DEFAULT_BATCH_SIZE` and `DEFAULT_MAX_ATTEMPTS`. -/
def workerOptions : DrainOptions Nat Nat := ⟨some, 200, 5⟩

def DEFAULT_PREFETCH : Nat := 500

/-- The queue is looked at while a write is under way, which is through before
the second look. -/
theorem waitForQueueDrain_drained_written :
    ∃ s : Barrier Nat Nat, s.waiting.map (·.stage) = some (.returned ⟨1500, false, 0⟩) ∧ s.drain.acked = [0] ∧
      s.Drained := by
  have hrun : ∃ s, Steps (Barrier.step workerOptions DEFAULT_PREFETCH) (fun s a => s.prompt a = true)
      (.start Nat Nat) s ∧ s.waiting.map (·.stage) = some (.returned ⟨1500, false, 0⟩) ∧ s.drain.acked = [0] :=
    Steps.exists_of_run (oneMessage ++ [.wait DEFAULT_TIMEOUT_MS, .waiter .connected, .waiter .counted,
      .waiter .replied, .elapse 1499, .work .writeResolves, .elapse 1, .waiter .wakes, .waiter .counted,
      .waiter .replied, .waiter .closed]) (by decide +kernel)
  obtain ⟨s, h, hreturned, hacked⟩ := hrun
  exact ⟨s, hreturned, hacked, (waitForQueueDrain_drained h).1⟩

/-- A write that takes `SETTLE_MS`. -/
theorem slow_write_passes_barrier :
    ∃ s : Barrier Nat Nat, Steps (Barrier.step workerOptions DEFAULT_PREFETCH) (fun _ _ => True) (.start Nat Nat) s ∧
      s.waiting.map (·.stage) = some (.returned ⟨1500, false, 0⟩) ∧ ¬ s.Drained := by
  have hrun : ∃ s, Steps (Barrier.step workerOptions DEFAULT_PREFETCH) (fun _ _ => True) (.start Nat Nat) s ∧
      s.waiting = some ⟨1, 0, 60000, 0, .returned ⟨1500, false, 0⟩⟩ ∧ s.drain.settles 0 = false :=
    Steps.exists_of_run (oneMessage ++ secondLook) (by decide +kernel)
  obtain ⟨s, h, hwaiting, hkept⟩ := hrun
  refine ⟨s, h, by rw [hwaiting]; rfl, fun hdrained => ?_⟩
  have hsettled := hdrained _ hwaiting _ rfl rfl 0 Nat.zero_lt_one
  rw [hkept] at hsettled
  cases hsettled

end FlashSale
