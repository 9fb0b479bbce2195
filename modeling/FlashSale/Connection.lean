import Mathlib.Algebra.Group.Nat.Defs
import FlashSale.Lib.Runs
/-!
# The broker connection manager

`createQueueConnection` (packages/queue/src/connection.ts): what its variables
are after any connect outcomes, timer firings and broker events. `connectOnce`
suspends three times, so an attempt is in one of three stages; a connection it
opened is an entry of `opened` from then on, whatever becomes of it.
-/

namespace FlashSale
open Lib.Runs

inductive ConnectionStatus where
  | up
  /-- It emitted 'error'; its 'close' is still to come. -/
  | failed
  | down
deriving DecidableEq

/-- A connection `amqplib.connect` resolved with, and its one channel. -/
structure ChannelModel where
  status : ConnectionStatus
  channelOpen : Bool
  /-- Whether `onDown` is registered for its two events. -/
  listened : Bool
deriving DecidableEq

/-- What a `connectOnce` in progress awaits. -/
inductive ConnectStage where
  | connect
  | createChannel (connection : Nat)
  | assertTopology (connection : Nat)
deriving DecidableEq

/-- The connection an attempt has opened so far. -/
def ConnectStage.connection? : ConnectStage → Option Nat
  | .connect => none
  | .createChannel c => some c
  | .assertTopology c => some c

/-- The variables of one `createQueueConnection`, and what it has set going.
Connections go by their place in `opened`; a channel by its connection's. -/
structure QueueConnection where
  channel : Option Nat
  connection : Option Nat
  closed : Bool
  attempt : Nat
  /-- The delays of the reconnect timers that are pending. -/
  timers : List Nat
  attempts : List ConnectStage
  opened : List ChannelModel
deriving DecidableEq

def RECONNECT_BASE_DELAY_MS : Nat := 500
def RECONNECT_MAX_DELAY_MS : Nat := 10000

def QueueConnection.scheduleReconnect (q : QueueConnection) : QueueConnection :=
  if q.closed then q
  else { q with
    attempt := q.attempt + 1
    timers := q.timers ++ [min (RECONNECT_BASE_DELAY_MS * 2 ^ q.attempt) RECONNECT_MAX_DELAY_MS] }

/-- `connectOnce`, up to its first await. -/
def QueueConnection.connectOnce (q : QueueConnection) : QueueConnection :=
  if q.closed then q else { q with attempts := q.attempts ++ [.connect] }

/-- The handler of connection `c`. -/
def QueueConnection.onDown (q : QueueConnection) (c : Nat) : QueueConnection :=
  (if q.connection = some c then { q with connection := none, channel := none } else q).scheduleReconnect

def createQueueConnection : QueueConnection :=
  QueueConnection.connectOnce ⟨none, none, false, 0, [], [], []⟩

inductive ConnectionEvent where
  /-- An await of attempt `i` resolves. -/
  | connected (i : Nat)
  | channelCreated (i : Nat)
  | topologyAsserted (i : Nat)
  /-- The await of attempt `i` rejects; the connection it opened may be up. -/
  | attemptFails (i : Nat)
  /-- Connection `c` emits 'error', or 'close'. -/
  | error (c : Nat)
  | close (c : Nat)
  /-- The channel of `c` closes, and `c` stays up. A channel the broker closes
  takes its connection along, as nobody listens to its 'error'; this is for a
  client that leaves the connection up. -/
  | channelCloses (c : Nat)
  | timer (j : Nat)
  /-- The owner calls `close()`. -/
  | closeCalled
deriving DecidableEq

/-- Connection `c` goes down, or on its way down: its channel is gone, and
whoever listens is told. -/
def QueueConnection.goes (q : QueueConnection) (c : Nat) (m : ChannelModel) (status : ConnectionStatus) :
    QueueConnection :=
  let q' := { q with opened := q.opened.set c { m with status := status, channelOpen := false } }
  if m.listened then q'.onDown c else q'

/-- The reply that `assertTopology` waits for may have been read just before
its connection went down, so the last await asks nothing of the connection.
Assumed is that the process outlives what it hears: an 'error' that nobody
listens to ends a Node process, and here it is one more event, so this has
every run of the process and more. -/
def QueueConnection.step (q : QueueConnection) : ConnectionEvent → Option QueueConnection
  | .connected i =>
    if q.attempts[i]? = some .connect then
      some { q with
        opened := q.opened ++ [⟨.up, false, false⟩]
        attempts := q.attempts.set i (.createChannel q.opened.length) }
    else none
  | .channelCreated i =>
    match q.attempts[i]? with
    | some (.createChannel c) =>
      match q.opened[c]? with
      | some m =>
        if m.status = .up then
          some { q with
            opened := q.opened.set c { m with channelOpen := true }
            attempts := q.attempts.set i (.assertTopology c) }
        else none
      | none => none
    | _ => none
  | .topologyAsserted i =>
    match q.attempts[i]? with
    | some (.assertTopology c) =>
      (q.opened[c]?).map fun m =>
        { q with
          attempt := 0
          connection := some c
          channel := some c
          opened := q.opened.set c { m with listened := true }
          attempts := q.attempts.eraseIdx i }
    | _ => none
  | .attemptFails i =>
    if i < q.attempts.length then some { q with attempts := q.attempts.eraseIdx i }.scheduleReconnect else none
  | .error c =>
    match q.opened[c]? with
    | some m => if m.status = .up then some (q.goes c m .failed) else none
    | none => none
  | .close c =>
    match q.opened[c]? with
    | some m => if m.status = .down then none else some (q.goes c m .down)
    | none => none
  | .channelCloses c =>
    match q.opened[c]? with
    | some m =>
      if m.status = .up ∧ m.channelOpen then
        some { q with opened := q.opened.set c { m with channelOpen := false } }
      else none
    | none => none
  | .timer j =>
    if j < q.timers.length then some { q with timers := q.timers.eraseIdx j }.connectOnce else none
  | .closeCalled => some { q with closed := true, channel := none, connection := none }

/-- `getChannel`. -/
def QueueConnection.getChannel (q : QueueConnection) : Option Nat := q.channel

/-! ## What an event does -/

inductive QueueConnection.Step (q : QueueConnection) : ConnectionEvent → QueueConnection → Prop
  | connected {i} : q.attempts[i]? = some .connect → Step q (.connected i)
      { q with
        opened := q.opened ++ [⟨.up, false, false⟩]
        attempts := q.attempts.set i (.createChannel q.opened.length) }
  | channelCreated {i c m} : q.attempts[i]? = some (.createChannel c) → q.opened[c]? = some m → m.status = .up →
      Step q (.channelCreated i)
        { q with
          opened := q.opened.set c { m with channelOpen := true }
          attempts := q.attempts.set i (.assertTopology c) }
  | topologyAsserted {i c m} : q.attempts[i]? = some (.assertTopology c) → q.opened[c]? = some m →
      Step q (.topologyAsserted i)
        { q with
          attempt := 0
          connection := some c
          channel := some c
          opened := q.opened.set c { m with listened := true }
          attempts := q.attempts.eraseIdx i }
  | attemptFails {i a} : q.attempts[i]? = some a →
      Step q (.attemptFails i) { q with attempts := q.attempts.eraseIdx i }.scheduleReconnect
  | error {c m} : q.opened[c]? = some m → m.status = .up → Step q (.error c) (q.goes c m .failed)
  | close {c m} : q.opened[c]? = some m → m.status ≠ .down → Step q (.close c) (q.goes c m .down)
  | channelCloses {c m} : q.opened[c]? = some m → m.status = .up → m.channelOpen = true →
      Step q (.channelCloses c) { q with opened := q.opened.set c { m with channelOpen := false } }
  | timer {j} : j < q.timers.length → Step q (.timer j) { q with timers := q.timers.eraseIdx j }.connectOnce
  | closeCalled : Step q .closeCalled { q with closed := true, channel := none, connection := none }

theorem QueueConnection.Step.of_step {q q' : QueueConnection} {e : ConnectionEvent} (h : q.step e = some q') :
    q.Step e q' := by
  cases e with
  | connected i =>
    simp only [QueueConnection.step] at h
    split at h
    · obtain rfl := Option.some.inj h
      exact .connected (by assumption)
    · cases h
  | channelCreated i =>
    simp only [QueueConnection.step] at h
    split at h
    · split at h
      · split at h
        · obtain rfl := Option.some.inj h
          exact .channelCreated (by assumption) (by assumption) (by assumption)
        · cases h
      · cases h
    · cases h
  | topologyAsserted i =>
    simp only [QueueConnection.step] at h
    split at h
    · obtain ⟨m, hm, rfl⟩ := Option.map_eq_some_iff.1 h
      exact .topologyAsserted (by assumption) hm
    · cases h
  | attemptFails i =>
    simp only [QueueConnection.step] at h
    split at h
    · obtain rfl := Option.some.inj h
      exact .attemptFails (List.getElem?_eq_getElem (by assumption))
    · cases h
  | error c =>
    simp only [QueueConnection.step] at h
    split at h
    · split at h
      · obtain rfl := Option.some.inj h
        exact .error (by assumption) (by assumption)
      · cases h
    · cases h
  | close c =>
    simp only [QueueConnection.step] at h
    split at h
    · split at h
      · cases h
      · obtain rfl := Option.some.inj h
        exact .close (by assumption) (by assumption)
    · cases h
  | channelCloses c =>
    simp only [QueueConnection.step] at h
    split at h
    · split at h
      · rename_i hm
        obtain rfl := Option.some.inj h
        exact .channelCloses (by assumption) hm.1 hm.2
      · cases h
    · cases h
  | timer j =>
    simp only [QueueConnection.step] at h
    split at h
    · obtain rfl := Option.some.inj h
      exact .timer (by assumption)
    · cases h
  | closeCalled =>
    obtain rfl := Option.some.inj h
    exact .closeCalled

section
variable {q q' : QueueConnection}

theorem QueueConnection.scheduleReconnect_open (h : q.closed = false) :
    q.scheduleReconnect = { q with
      attempt := q.attempt + 1
      timers := q.timers ++ [min (RECONNECT_BASE_DELAY_MS * 2 ^ q.attempt) RECONNECT_MAX_DELAY_MS] } := by
  simp [QueueConnection.scheduleReconnect, h]

theorem QueueConnection.connectOnce_open (h : q.closed = false) :
    q.connectOnce = { q with attempts := q.attempts ++ [.connect] } := by
  simp [QueueConnection.connectOnce, h]

@[simp] theorem QueueConnection.scheduleReconnect_closed : q.scheduleReconnect.closed = q.closed := by
  unfold QueueConnection.scheduleReconnect
  split <;> rfl

@[simp] theorem QueueConnection.scheduleReconnect_attempts : q.scheduleReconnect.attempts = q.attempts := by
  unfold QueueConnection.scheduleReconnect
  split <;> rfl

@[simp] theorem QueueConnection.scheduleReconnect_opened : q.scheduleReconnect.opened = q.opened := by
  unfold QueueConnection.scheduleReconnect
  split <;> rfl

@[simp] theorem QueueConnection.scheduleReconnect_connection : q.scheduleReconnect.connection = q.connection := by
  unfold QueueConnection.scheduleReconnect
  split <;> rfl

@[simp] theorem QueueConnection.scheduleReconnect_channel : q.scheduleReconnect.channel = q.channel := by
  unfold QueueConnection.scheduleReconnect
  split <;> rfl

@[simp] theorem QueueConnection.onDown_closed (c : Nat) : (q.onDown c).closed = q.closed := by
  unfold QueueConnection.onDown
  split <;> simp

@[simp] theorem QueueConnection.onDown_attempts (c : Nat) : (q.onDown c).attempts = q.attempts := by
  unfold QueueConnection.onDown
  split <;> simp

@[simp] theorem QueueConnection.onDown_opened (c : Nat) : (q.onDown c).opened = q.opened := by
  unfold QueueConnection.onDown
  split <;> simp

/-- A handler that is called sets one more timer. -/
theorem QueueConnection.onDown_timers (h : q.closed = false) (c : Nat) :
    (q.onDown c).timers.length = q.timers.length + 1 := by
  unfold QueueConnection.onDown
  split <;> rw [QueueConnection.scheduleReconnect_open (by exact h)] <;> simp

@[simp] theorem QueueConnection.goes_closed (c : Nat) (m : ChannelModel) (status : ConnectionStatus) :
    (q.goes c m status).closed = q.closed := by
  unfold QueueConnection.goes
  split <;> simp

theorem QueueConnection.goes_heard {m : ChannelModel} (h : m.listened = true) (c : Nat) (status : ConnectionStatus) :
    q.goes c m status =
      QueueConnection.onDown { q with opened := q.opened.set c { m with status := status, channelOpen := false } } c :=
  if_pos h

theorem QueueConnection.goes_unheard {m : ChannelModel} (h : ¬ m.listened = true) (c : Nat)
    (status : ConnectionStatus) :
    q.goes c m status = { q with opened := q.opened.set c { m with status := status, channelOpen := false } } :=
  if_neg h

/-- Nothing reopens what `close()` closed. -/
theorem QueueConnection.Step.closed {e : ConnectionEvent} (h : q.Step e q') (hq' : q'.closed = false) :
    q.closed = false := by
  cases h with
  | timer =>
    unfold QueueConnection.connectOnce at hq'
    split at hq' <;> exact hq'
  | closeCalled => cases hq'
  | _ => simpa using hq'

theorem QueueConnection.opened_set {c : Nat} {m : ChannelModel} (h : q.opened[c]? = some m) (m' : ChannelModel)
    (c' : Nat) : (q.opened.set c m')[c']? = if c' = c then some m' else q.opened[c']? := by
  obtain ⟨hlt, -⟩ := List.getElem?_eq_some_iff.1 h
  rw [List.getElem?_set]
  by_cases hc : c = c'
  · subst hc
    simp [hlt]
  · simp [hc, Ne.symm hc]

end

namespace QueueConnection

section
variable {q q' : QueueConnection} {e : ConnectionEvent}

@[simp] theorem connectOnce_opened : q.connectOnce.opened = q.opened := by
  unfold connectOnce
  split <;> rfl

theorem scheduleReconnect_shut (h : q.closed = true) : q.scheduleReconnect = q := if_pos h

theorem connectOnce_shut (h : q.closed = true) : q.connectOnce = q := if_pos h

theorem Step.shut (hstep : q.Step e q') (h : q.closed = true) : q'.closed = true := by
  cases hq' : q'.closed with
  | true => rfl
  | false =>
    rw [hstep.closed hq'] at h
    cases h

theorem goes_opened (c : Nat) (m : ChannelModel) (status : ConnectionStatus) :
    (q.goes c m status).opened = q.opened.set c { m with status := status, channelOpen := false } := by
  unfold goes
  split <;> simp

theorem goes_attempts (c : Nat) (m : ChannelModel) (status : ConnectionStatus) :
    (q.goes c m status).attempts = q.attempts := by
  unfold goes
  split <;> simp

theorem Step.opened_length (hstep : q.Step e q') : q.opened.length ≤ q'.opened.length := by
  cases hstep with
  | timer =>
    unfold connectOnce
    split <;> exact Nat.le_refl _
  | error | close => simp [goes_opened]
  | _ => simp

theorem Step.attempts_shut (hstep : q.Step e q') (h : q.closed = true) : q'.attempts.length ≤ q.attempts.length := by
  cases hstep with
  | timer => exact Nat.le_of_eq (congrArg (·.attempts.length) (connectOnce_shut (by exact h)))
  | topologyAsserted => exact List.length_eraseIdx_le _ _
  | attemptFails =>
    rw [scheduleReconnect_attempts]
    exact List.length_eraseIdx_le _ _
  | error | close => exact Nat.le_of_eq (congrArg List.length (goes_attempts ..))
  | _ => simp

theorem Step.of_closeCalled (h : q.Step .closeCalled q') :
    q' = { q with closed := true, channel := none, connection := none } := by
  cases h
  rfl

/-- Nothing but `close()` closes. -/
theorem Step.closed_eq (hstep : q.Step e q') (he : e ≠ .closeCalled) : q'.closed = q.closed := by
  cases hstep with
  | timer =>
    unfold connectOnce
    split <;> rfl
  | closeCalled => exact absurd rfl he
  | error | close => exact goes_closed ..
  | _ => simp

end

end QueueConnection

end FlashSale
