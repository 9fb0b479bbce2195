import FlashSale.Lib.Fair
import FlashSale.Reconnect
/-!
# Closing for good

`close()` of `createQueueConnection` closes the connection it knows. It does
not know a connection that an attempt is setting up, or one that was left
behind; and an attempt that resolves later does not look at `closed` again.
-/

namespace FlashSale
open Lib.Runs Lib.Fair

/-- A connection manager and the connections that were told to close. -/
structure Closing where
  q : QueueConnection
  told : List Nat
deriving DecidableEq

inductive ClosingAction where
  | event (e : ConnectionEvent)
  /-- Connection `c`, which failed or was told to close, is closed. -/
  | closes (c : Nat)
deriving DecidableEq

/-- The connection that an event of the manager tells to close. -/
def QueueConnection.tells (q : QueueConnection) : ConnectionEvent → List Nat
  | .closeCalled => q.connection.toList
  | _ => []

namespace Closing

def start : Closing := ⟨createQueueConnection, []⟩

def hasFailed (s : Closing) (c : Nat) : Bool := (s.q.opened[c]?).any (·.status = .failed)

def step (s : Closing) : ClosingAction → Option Closing
  | .event e => (s.q.step e).map fun q => ⟨q, s.told ++ s.q.tells e⟩
  | .closes c => if c ∈ s.told ∨ s.hasFailed c then (s.q.step (.close c)).map fun q => ⟨q, s.told⟩ else none

/-- Every connection that is up when `close()` is called is the current one or
was told already, and no connect and no topology comes through after that. -/
def clean (s : Closing) : ClosingAction → Bool
  | .event .closeCalled =>
    (List.range s.q.opened.length).all fun c => !s.q.isUp c || s.q.connection = some c || c ∈ s.told
  | .event (.connected _) | .event (.topologyAsserted _) => !s.q.closed
  | _ => true

/-- What `close()` leaves behind: no channel, and no connection that was not
told. -/
structure Closed (s : Closing) : Prop where
  channel : s.q.channel = none
  connection : s.q.connection = none
  told : ∀ c, s.q.isUp c = true → c ∈ s.told

/-- What was told, and what is current, are places in `opened`. -/
structure Known (s : Closing) : Prop where
  told : ∀ c ∈ s.told, c < s.q.opened.length
  connection : ∀ c, s.q.connection = some c → c < s.q.opened.length

end Closing

/-- From `close()` on there is no channel, no attempt starts, and every
connection that was opened comes to be closed. -/
structure Final (t : Trace Closing.step Closing.start) : Prop where
  channel : ∀ n, (t.state n).q.closed = true → (t.state n).q.getChannel = none
  attempts : ∀ n, (t.state n).q.closed = true → (t.state (n + 1)).q.attempts.length ≤ (t.state n).q.attempts.length
  opened : ∀ n, (t.state n).q.closed = true → ∀ c < (t.state n).q.opened.length,
    ∃ m, n ≤ m ∧ ((t.state m).q.opened[c]?).map (·.status) = some .down

namespace QueueConnection

section
variable {q q' : QueueConnection} {e : ConnectionEvent}

/-! ## What stays after `close()` -/

theorem goes_connection (c : Nat) (m : ChannelModel) (status : ConnectionStatus) {c' : Nat}
    (h : (q.goes c m status).connection = some c') : q.connection = some c' := by
  unfold goes at h
  split at h
  · rw [onDown, scheduleReconnect_connection] at h
    split at h
    · cases h
    · exact h
  · exact h

/-- The current connection is one that was opened. -/
theorem Step.connection_known (hstep : q.Step e q') (hq : ∀ c, q.connection = some c → c < q.opened.length) {c : Nat}
    (hc : q'.connection = some c) : c < q'.opened.length := by
  refine Nat.lt_of_lt_of_le ?_ hstep.opened_length
  cases hstep with
  | topologyAsserted _ hm =>
    obtain rfl := Option.some.inj hc
    exact (List.getElem?_eq_some_iff.1 hm).1
  | attemptFails => exact hq c (by simpa using hc)
  | error | close => exact hq c (goes_connection _ _ _ hc)
  | timer =>
    unfold connectOnce at hc
    split at hc <;> exact hq c hc
  | closeCalled => cases hc
  | _ => exact hq c hc

/-- Whoever goes down takes no channel up. -/
theorem onDown_none (c : Nat) (hconnection : q.connection = none) (hchannel : q.channel = none) :
    (q.onDown c).connection = none ∧ (q.onDown c).channel = none := by
  unfold onDown
  rw [hconnection, if_neg (by simp), scheduleReconnect_connection, scheduleReconnect_channel]
  exact ⟨hconnection, hchannel⟩

theorem goes_none (c : Nat) (m : ChannelModel) (status : ConnectionStatus) (hconnection : q.connection = none)
    (hchannel : q.channel = none) :
    (q.goes c m status).connection = none ∧ (q.goes c m status).channel = none := by
  unfold goes
  split
  · exact onDown_none c hconnection hchannel
  · exact ⟨hconnection, hchannel⟩

/-- A change that raises no status takes no connection up. -/
theorem isUp_set {c c' : Nat} {m m' : ChannelModel} (hm : q.opened[c]? = some m)
    (hs : m'.status = .up → m.status = .up) {q' : QueueConnection} (hq' : q'.opened = q.opened.set c m')
    (h : q'.isUp c' = true) : q.isUp c' = true := by
  obtain ⟨m₀, hm₀, hs₀⟩ := isUp_iff.1 h
  rw [hq', opened_set hm] at hm₀
  split at hm₀
  · rename_i hc
    obtain rfl := Option.some.inj hm₀
    exact isUp_iff.2 ⟨m, hc ▸ hm, hs hs₀⟩
  · exact isUp_iff.2 ⟨m₀, hm₀, hs₀⟩

/-- After `close()` only a connect that resolves, or the end of an attempt,
brings a connection or a channel. -/
theorem Step.stays_shut (hstep : q.Step e q') (h : q.closed = true) (hconnection : q.connection = none)
    (hchannel : q.channel = none) (hconnected : ∀ i, e ≠ .connected i) (hasserted : ∀ i, e ≠ .topologyAsserted i) :
    q'.connection = none ∧ q'.channel = none ∧ ∀ c, q'.isUp c = true → q.isUp c = true := by
  cases hstep with
  | connected => exact absurd rfl (hconnected _)
  | topologyAsserted => exact absurd rfl (hasserted _)
  | channelCreated _ hm hs => exact ⟨hconnection, hchannel, fun c => isUp_set hm (fun _ => hs) rfl⟩
  | attemptFails =>
    rw [scheduleReconnect_shut (by exact h)]
    exact ⟨hconnection, hchannel, fun c hc => hc⟩
  | error hm hs =>
    obtain ⟨h₁, h₂⟩ := goes_none _ _ _ hconnection hchannel
    exact ⟨h₁, h₂, fun c => isUp_set hm (fun _ => hs) (goes_opened ..)⟩
  | close hm _ =>
    obtain ⟨h₁, h₂⟩ := goes_none _ _ _ hconnection hchannel
    exact ⟨h₁, h₂, fun c => isUp_set hm (fun hup => by cases hup) (goes_opened ..)⟩
  | channelCloses hm hs _ => exact ⟨hconnection, hchannel, fun c => isUp_set hm (fun _ => hs) rfl⟩
  | timer =>
    rw [connectOnce_shut (by exact h)]
    exact ⟨hconnection, hchannel, fun c hc => hc⟩
  | closeCalled => exact ⟨rfl, rfl, fun c hc => hc⟩

end

end QueueConnection

namespace Closing

section
variable {s s' : Closing} {a : ClosingAction}

/-- Each step is one of the manager's, with what `close()` tells. -/
theorem step_event (h : s.step a = some s') :
    ∃ e, s.q.Step e s'.q ∧ s'.told = s.told ++ s.q.tells e ∧
      (a = .event e ∨ ∃ c, a = .closes c ∧ e = .close c) := by
  cases a with
  | event e =>
    obtain ⟨q, hq, rfl⟩ := Option.map_eq_some_iff.1 h
    exact ⟨e, .of_step hq, rfl, .inl rfl⟩
  | closes c =>
    simp only [step] at h
    split at h
    · obtain ⟨q, hq, rfl⟩ := Option.map_eq_some_iff.1 h
      exact ⟨.close c, .of_step hq, (List.append_nil _).symm, .inr ⟨c, rfl, rfl⟩⟩
    · cases h

theorem clean_closeCalled : s.clean (.event .closeCalled) = true ↔
    ∀ c, s.q.isUp c = true → s.q.connection = some c ∨ c ∈ s.told := by
  simp only [clean, List.all_eq_true, List.mem_range, Bool.or_eq_true, Bool.not_eq_true', decide_eq_true_eq, or_assoc]
  constructor
  · intro h c hc
    obtain ⟨m, hm, -⟩ := QueueConnection.isUp_iff.1 hc
    obtain ⟨hlt, -⟩ := List.getElem?_eq_some_iff.1 hm
    exact (h c hlt).resolve_left (by simp [hc])
  · intro h c _
    cases hc : s.q.isUp c with
    | true => exact .inr (h c hc)
    | false => exact .inl rfl

theorem clean_late {e : ConnectionEvent} (hclean : s.clean (.event e) = true) (h : s.q.closed = true) :
    (∀ i, e ≠ .connected i) ∧ ∀ i, e ≠ .topologyAsserted i := by
  constructor
  · rintro i rfl
    simp [clean, h] at hclean
  · rintro i rfl
    simp [clean, h] at hclean

/-- What `close()` leaves behind stays so in every clean step. -/
theorem Closed.step (hI : s.q.closed = true → s.Closed) (hclean : s.clean a = true) (h : s.step a = some s') :
    s'.q.closed = true → s'.Closed := by
  intro hclosed
  obtain ⟨e, hstep, htold, ha⟩ := step_event h
  by_cases he : e = .closeCalled
  · subst he
    obtain rfl | ⟨c, -, hc⟩ := ha
    · have hq' := hstep.of_closeCalled
      refine ⟨by rw [hq'], by rw [hq'], fun c hc => ?_⟩
      have hup : s.q.isUp c = true := by
        rw [hq'] at hc
        exact hc
      rw [htold, List.mem_append]
      rcases clean_closeCalled.1 hclean c hup with hcurrent | hc
      · exact .inr (by simp [QueueConnection.tells, hcurrent])
      · exact .inl hc
    · cases hc
  · -- It was closed before, so nothing is brought.
    have hclosed' : s.q.closed = true := hstep.closed_eq he ▸ hclosed
    have hC := hI hclosed'
    have hlate : (∀ i, e ≠ .connected i) ∧ ∀ i, e ≠ .topologyAsserted i := by
      obtain rfl | ⟨c, -, rfl⟩ := ha
      · exact clean_late hclean hclosed'
      · exact ⟨fun _ hi => ConnectionEvent.noConfusion hi, fun _ hi => ConnectionEvent.noConfusion hi⟩
    obtain ⟨h₁, h₂, hup⟩ := hstep.stays_shut hclosed' hC.connection hC.channel hlate.1 hlate.2
    refine ⟨h₂, h₁, fun c hc => ?_⟩
    rw [htold]
    exact List.mem_append_left _ (hC.told c (hup c hc))

/-- A connection told to close, or that failed, can be closed. -/
theorem closes_enabled {c : Nat} (hC : s.Closed) (hc : c < s.q.opened.length)
    (hdown : (s.q.opened[c]?).map (·.status) ≠ some .down) : (s.step (.closes c)).isSome = true := by
  have hm := List.getElem?_eq_getElem hc
  rw [hm] at hdown
  have hmay : c ∈ s.told ∨ s.hasFailed c = true := by
    cases hs : (s.q.opened[c]).status with
    | up => exact .inl (hC.told c (QueueConnection.isUp_iff.2 ⟨_, hm, hs⟩))
    | failed => exact .inr (by simp [hasFailed, hm, hs])
    | down => simp [hs] at hdown
  have hne : (s.q.opened[c]).status ≠ .down := fun hs => hdown (by simp [hs])
  simp [step, hmay, QueueConnection.step, hm, hne]

theorem closes_down {c : Nat} (h : s.step (.closes c) = some s') :
    (s'.q.opened[c]?).map (·.status) = some .down := by
  obtain ⟨e, hstep, -, ha⟩ := step_event h
  obtain ha | ⟨c', ha, rfl⟩ := ha
  · cases ha
  · obtain rfl : c = c' := by simpa using ha
    generalize s'.q = q' at hstep ⊢
    cases hstep with
    | close hm _ =>
      rw [QueueConnection.goes_opened, QueueConnection.opened_set hm, if_pos rfl]
      rfl

end

end Closing

/-- Who is told to close was opened. -/
theorem Closing.Known.step {s s' : Closing} {a : ClosingAction} (hK : s.Known) (h : s.step a = some s') :
    s'.Known := by
  obtain ⟨e, hstep, htold, -⟩ := step_event h
  refine ⟨fun c hc => ?_, fun c hc => hstep.connection_known hK.connection hc⟩
  refine Nat.lt_of_lt_of_le ?_ hstep.opened_length
  rw [htold, List.mem_append] at hc
  rcases hc with hc | hc
  · exact hK.told c hc
  · unfold QueueConnection.tells at hc
    split at hc
    · exact hK.connection c (Option.mem_toList.1 hc)
    · cases hc

/-- A step that is not clean leaves a channel, or a connection that is not
told to close. -/
theorem Closing.leaves_open {s s' : Closing} {a : ClosingAction} (hK : s.Known) (h : s.step a = some s')
    (hbad : s.clean a = false) :
    s'.q.closed = true ∧ (s'.q.getChannel ≠ none ∨ ∃ c, s'.q.isUp c = true ∧ c ∉ s'.told) := by
  obtain ⟨e, hstep, htold, ha⟩ := step_event h
  obtain rfl | ⟨c, rfl, -⟩ := ha
  · cases e with
    | closeCalled =>
      have hq' := hstep.of_closeCalled
      have hno := mt clean_closeCalled.2 (ne_true_of_eq_false hbad)
      simp only [not_forall, not_or] at hno
      obtain ⟨c, hup, hcurrent, hc⟩ := hno
      refine ⟨by rw [hq'], .inr ⟨c, by rw [hq']; exact hup, ?_⟩⟩
      rw [htold, List.mem_append, not_or]
      exact ⟨hc, fun hin => hcurrent (Option.mem_toList.1 hin)⟩
    | connected i =>
      have hclosed : s.q.closed = true := by simpa [clean] using hbad
      refine ⟨hstep.shut hclosed, .inr ⟨s.q.opened.length, ?_, fun hin => ?_⟩⟩
      · generalize s'.q = q' at hstep ⊢
        cases hstep
        simp [QueueConnection.isUp]
      · have hsame : s'.told = s.told := htold.trans (List.append_nil _)
        exact Nat.lt_irrefl _ (hK.told _ (hsame ▸ hin))
    | topologyAsserted i =>
      have hclosed : s.q.closed = true := by simpa [clean] using hbad
      refine ⟨hstep.shut hclosed, .inl ?_⟩
      generalize s'.q = q' at hstep ⊢
      cases hstep
      simp [QueueConnection.getChannel]
    | _ => cases hbad
  · cases hbad

theorem start_known : Closing.start.Known := by
  constructor <;> simp [Closing.start, createQueueConnection, QueueConnection.connectOnce]

theorem start_closed : Closing.start.q.closed = true → Closing.start.Closed := by
  intro h
  cases h

/-- With a clean trace `close()` is final, if whoever failed or is told to close
comes to be closed; and any step that is not clean leaves something open. -/
theorem close_is_final (t : Trace Closing.step Closing.start) (hfair : ∀ c, t.FairTo (· = .closes c))
    (hclean : ∀ n a, t.action n = some a → (t.state n).clean a = true) :
    Final t ∧ ∀ n a s', (t.state n).step a = some s' → (t.state n).clean a = false →
      s'.q.closed = true ∧ (s'.q.getChannel ≠ none ∨ ∃ c, s'.q.isUp c = true ∧ c ∉ s'.told) := by
  have hclosed : ∀ n, (t.state n).q.closed = true → (t.state n).Closed := fun n =>
    (t.steps_of hclean n).inv start_closed fun _ _ _ hI hok hstep => Closing.Closed.step hI hok hstep
  have hknown : ∀ n, (t.state n).Known := fun n =>
    (t.steps n).inv start_known fun _ _ _ hI _ hstep => hI.step hstep
  refine ⟨⟨fun n hn => (hclosed n hn).channel, fun n hn => ?_, fun n hn c hc => ?_⟩,
    fun n a s' hstep hbad => Closing.leaves_open (hknown n) hstep hbad⟩
  · rcases t.next n with ⟨a, -, hstep⟩ | ⟨-, hidle⟩
    · obtain ⟨e, hstep, -⟩ := Closing.step_event hstep
      exact hstep.attempts_shut hn
    · exact Nat.le_of_eq (by rw [hidle])
  · -- Until it is closed it can be closed, because it failed or was told.
    have hstays : ∀ m, n ≤ m → (t.state m).Closed ∧ c < (t.state m).q.opened.length := by
      intro m hm
      have hkeeps : (t.state m).q.closed = true ∧ c < (t.state m).q.opened.length := by
        refine t.keeps (I := fun s => s.q.closed = true ∧ c < s.q.opened.length) ?_ hm ⟨hn, hc⟩
        intro k a _ hI hstep
        obtain ⟨e, hstep, -⟩ := Closing.step_event hstep
        exact ⟨hstep.shut hI.1, Nat.lt_of_lt_of_le hI.2 hstep.opened_length⟩
      exact ⟨hclosed m hkeeps.1, hkeeps.2⟩
    refine t.eventually_of (I := fun s => s.Closed ∧ c < s.q.opened.length)
      (G := fun s => (s.q.opened[c]?).map (·.status) = some .down) (hfair c)
      (fun s hs hopen => ⟨.closes c, rfl, ?_⟩) (fun s a s' _ _ ha hstep => ?_) hstays
    · exact Closing.closes_enabled hs.1 hs.2 hopen
    · rw [ha] at hstep
      exact Closing.closes_down hstep

/-- A run after which nothing is left to close is fair when it stops there. -/
theorem Closing.rests {s t : Closing} {as : List ClosingAction}
    (h : run Closing.step (fun _ _ => True) s as = some t)
    (hrest : ∀ c < t.q.opened.length, t.step (.closes c) = none) (c : Nat) :
    (Trace.ofRun as h).FairTo (· = .closes c) := by
  refine Trace.ofRun_fair h ?_
  rintro ⟨_, rfl, hsome⟩
  by_cases hc : c < t.q.opened.length
  · rw [hrest c hc] at hsome
    cases hsome
  · have hm : t.q.opened[c]? = none := List.getElem?_eq_none (Nat.le_of_not_lt hc)
    simp only [Closing.step, QueueConnection.step, hm] at hsome
    split at hsome <;> cases hsome

/-- A manager that is closed while it is connected, and its connection closes. -/
theorem close_is_final_connected :
    ∃ t : Trace Closing.step Closing.start, Final t ∧ ∃ n, (t.state n).q.closed = true ∧
      (t.state n).q.opened.map (·.status) = [.down] := by
  obtain ⟨s, h, hrest, hdown⟩ : ∃ s, run Closing.step (fun _ _ => True) .start
      (connects.map .event ++ [.event .closeCalled, .closes 0]) = some s ∧
        (∀ c < s.q.opened.length, s.step (.closes c) = none) ∧
          s.q.closed = true ∧ s.q.opened.map (·.status) = [.down] :=
    exists_run (by decide +kernel)
  have hok : ∃ s, run Closing.step (fun s a => s.clean a) .start
      (connects.map .event ++ [.event .closeCalled, .closes 0]) = some s ∧ s.q.closed = true :=
    exists_run (by decide +kernel)
  obtain ⟨_, hok, -⟩ := hok
  have hlast : (Trace.ofRun _ h).state 5 = s := Trace.ofRun_end h
  refine ⟨Trace.ofRun _ h, ?_, 5, ?_⟩
  · exact (close_is_final _ (Closing.rests h hrest) fun n a ha => play_ok hok ha).1
  · rw [hlast]
    exact hdown

/-- `close()` comes before the first connect resolves. The attempt goes on, and
its channel and its connection stay. -/
theorem late_connect_reopens :
    ∃ t : Trace Closing.step Closing.start, (∀ c, t.FairTo (· = .closes c)) ∧
      ∃ n, (t.state n).q.closed = true ∧ (t.state n).q.getChannel = some 0 ∧
        ∀ m, n ≤ m → (t.state m).q.isUp 0 = true := by
  obtain ⟨s, h, hrest, hopen⟩ : ∃ s, run Closing.step (fun _ _ => True) .start
      (.event .closeCalled :: connects.map .event) = some s ∧
        (∀ c < s.q.opened.length, s.step (.closes c) = none) ∧
          s.q.closed = true ∧ s.q.getChannel = some 0 ∧ s.q.isUp 0 = true :=
    exists_run (by decide +kernel)
  have hlast : ∀ m, 4 ≤ m → (Trace.ofRun _ h).state m = s := fun m hm => congrArg Prod.fst (play_rest h hm)
  refine ⟨Trace.ofRun _ h, Closing.rests h hrest, 4, ?_⟩
  rw [hlast 4 (Nat.le_refl _)]
  refine ⟨hopen.1, hopen.2.1, fun m hm => ?_⟩
  rw [hlast m hm]
  exact hopen.2.2

end FlashSale
