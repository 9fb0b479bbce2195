import Mathlib.Data.List.Nodup
import FlashSale.Connection
/-!
# One connection at most

What `createQueueConnection` has set going: timers, attempts and connections.
There is one of them as long as a connection that goes down is heard of once,
and an attempt that fails leaves no connection behind. A connection that fails
emits 'error' and then 'close', and is heard of twice.
-/

namespace FlashSale
open Lib.Runs

namespace QueueConnection

def isUp (q : QueueConnection) (c : Nat) : Bool := (q.opened[c]?).any (·.status = .up)

/-- The connections that are up and not an attempt's own. -/
def established (q : QueueConnection) : List Nat :=
  (List.range q.opened.length).filter fun c => q.isUp c && !q.attempts.any (·.connection? = some c)

/-- Reconnect timers pending, attempts in progress (each with the connection it
is setting up), and the other connections that are up. -/
def load (q : QueueConnection) : Nat :=
  q.timers.length + q.attempts.length + q.established.length

/-- No handler hears of one connection twice, and an attempt that fails has no
connection up. -/
def clean (q : QueueConnection) : ConnectionEvent → Bool
  | .close c => (q.opened[c]?).all fun m => m.status ≠ .failed || !m.listened
  | .attemptFails i => (q.attempts[i]?).all fun a => a.connection?.all fun c => !q.isUp c
  | _ => true

/-- There is one thing at most, and a connection that is up is either the one
that is listened to or the attempt's own. -/
structure Single (q : QueueConnection) : Prop where
  one : q.timers.length + q.attempts.length ≤ 1
  up : ∀ c m, q.opened[c]? = some m → m.status = .up →
    (q.timers = [] ∧ q.attempts = [] ∧ m.listened = true) ∨
      (q.attempts.map (·.connection?) = [some c] ∧ m.listened = false)
  unique : ∀ c c', q.isUp c = true → q.isUp c' = true → c = c'

theorem isUp_iff {q : QueueConnection} {c : Nat} :
    q.isUp c = true ↔ ∃ m, q.opened[c]? = some m ∧ m.status = .up := by
  simp [isUp, Option.any_eq_true]

section
variable {q q' : QueueConnection}

/-- The one attempt, when there is one. -/
theorem Single.attempt (h : q.Single) {i : Nat} {a : ConnectStage} (ha : q.attempts[i]? = some a) :
    i = 0 ∧ q.attempts = [a] ∧ q.timers = [] := by
  obtain ⟨hlt, hget⟩ := List.getElem?_eq_some_iff.1 ha
  have hone := h.one
  have hlen : q.attempts.length = 1 := by omega
  obtain ⟨b, hb⟩ := List.length_eq_one_iff.1 hlen
  have hi : i = 0 := by omega
  subst hi
  refine ⟨rfl, ?_, List.length_eq_zero_iff.1 (by omega)⟩
  simp only [hb] at hget ⊢
  rw [← hget]
  rfl

/-- While connections only go down or stay as they are, and neither timers nor
attempts come or go, there is still one thing at most. -/
theorem Single.shrink (h : q.Single) (ht : q'.timers = q.timers)
    (ha : q'.attempts.map (·.connection?) = q.attempts.map (·.connection?))
    (hup : ∀ (c : Nat) (m' : ChannelModel), q'.opened[c]? = some m' → m'.status = .up →
      ∃ m : ChannelModel, q.opened[c]? = some m ∧ m.status = .up ∧ m'.listened = m.listened) : q'.Single where
  one := by
    have := congrArg List.length ha
    simp only [List.length_map] at this
    rw [ht, this]
    exact h.one
  up c m' hm' hs' := by
    obtain ⟨m, hm, hs, hl⟩ := hup c m' hm' hs'
    have hnil : q'.attempts = [] ↔ q.attempts = [] := by rw [← List.map_eq_nil_iff, ha, List.map_eq_nil_iff]
    rw [ht, ha, hnil, hl]
    exact h.up c m hm hs
  unique c c' hc hc' := by
    have hback : ∀ c, q'.isUp c = true → q.isUp c = true := by
      intro c hc
      obtain ⟨m', hm', hs'⟩ := isUp_iff.1 hc
      obtain ⟨m, hm, hs, -⟩ := hup c m' hm' hs'
      exact isUp_iff.2 ⟨m, hm, hs⟩
    exact h.unique c c' (hback c hc) (hback c' hc')

/-- A channel that opens or closes leaves its connection as it is. -/
theorem set_channel {c : Nat} {m : ChannelModel} (hm : q.opened[c]? = some m) {channelOpen : Bool} {c' : Nat}
    {m' : ChannelModel} (hm' : (q.opened.set c { m with channelOpen := channelOpen })[c']? = some m')
    (hs' : m'.status = .up) :
    ∃ m₀ : ChannelModel, q.opened[c']? = some m₀ ∧ m₀.status = .up ∧ m'.listened = m₀.listened := by
  rw [opened_set hm] at hm'
  split at hm'
  · rename_i hc
    obtain rfl := Option.some.inj hm'
    exact ⟨m, hc ▸ hm, hs', rfl⟩
  · exact ⟨m', hm', hs', rfl⟩

/-- With a timer or an attempt and no connection up, there is one thing. -/
theorem Single.of_none_up (hone : q.timers.length + q.attempts.length ≤ 1)
    (hno : ∀ c, q.isUp c = false) : q.Single where
  one := hone
  up c m hm hs := by
    have := isUp_iff.2 ⟨m, hm, hs⟩
    rw [hno c] at this
    cases this
  unique c _ hc := by
    rw [hno c] at hc
    cases hc

/-- With no connection of its own yet, an attempt has none besides it. -/
theorem Single.none_up (h : q.Single) (hbusy : q.timers ≠ [] ∨ q.attempts ≠ [])
    (hown : ∀ c, q.isUp c = true → q.attempts.map (·.connection?) ≠ [some c]) (c : Nat) : q.isUp c = false := by
  by_contra hc
  rw [Bool.not_eq_false] at hc
  obtain ⟨m, hm, hs⟩ := isUp_iff.1 hc
  rcases h.up c m hm hs with ⟨ht, ha, -⟩ | ⟨ha, -⟩
  · exact hbusy.elim (fun hb => hb ht) (fun hb => hb ha)
  · exact hown c hc ha

/-- A connection that goes down for the first time, or unheard. -/
theorem Single.goes (h : q.Single) (hq : q.closed = false) {c : Nat} {m : ChannelModel}
    (hm : q.opened[c]? = some m) {status : ConnectionStatus} (hstatus : status ≠ .up)
    (hheard : m.listened = true → m.status = .up) : (q.goes c m status).Single := by
  have hset := opened_set hm { m with status := status, channelOpen := false }
  by_cases hl : m.listened = true
  · -- It was the one thing there was: now a timer is.
    have hs := hheard hl
    have hmine : q.timers = [] ∧ q.attempts = [] := by
      rcases h.up c m hm hs with ⟨ht, ha, -⟩ | ⟨-, hno⟩
      · exact ⟨ht, ha⟩
      · rw [hl] at hno
        cases hno
    rw [goes_heard hl]
    refine .of_none_up ?_ fun c' => ?_
    · rw [onDown_timers (by exact hq), onDown_attempts]
      simp [hmine.1, hmine.2]
    · by_contra hc'
      rw [Bool.not_eq_false] at hc'
      obtain ⟨m', hm', hs'⟩ := isUp_iff.1 hc'
      rw [onDown_opened, hset] at hm'
      split at hm'
      · obtain rfl := Option.some.inj hm'
        exact hstatus hs'
      · rename_i hne
        exact hne (h.unique c' c (isUp_iff.2 ⟨m', hm', hs'⟩) (isUp_iff.2 ⟨m, hm, hs⟩))
  · rw [goes_unheard hl]
    refine h.shrink rfl rfl fun c' m' hm' hs' => ?_
    rw [hset] at hm'
    split at hm'
    · obtain rfl := Option.some.inj hm'
      exact absurd hs' hstatus
    · exact ⟨m', hm', hs', rfl⟩

/-- Every clean step keeps one thing at most. -/
theorem Single.step {e : ConnectionEvent} (h : q.Single) (hq : q.closed = false) (hok : q.clean e = true)
    (hstep : q.Step e q') (hq' : q'.closed = false) : q'.Single := by
  cases hstep with
  | @connected i ha =>
    obtain ⟨rfl, hone, ht⟩ := h.attempt ha
    have hno := h.none_up (.inr (by simp [hone])) (by simp [hone, ConnectStage.connection?])
    -- The only connection that is up is the new one, the attempt's own.
    have hnew : ∀ (c : Nat) (m : ChannelModel), (q.opened ++ [⟨.up, false, false⟩])[c]? = some m → m.status = .up →
        c = q.opened.length ∧ m.listened = false := by
      intro c m hm hs
      rw [List.getElem?_append] at hm
      split at hm
      · have := isUp_iff.2 ⟨m, hm, hs⟩
        rw [hno c] at this
        cases this
      · obtain ⟨hlt, hget⟩ := List.getElem?_eq_some_iff.1 hm
        simp only [List.length_singleton] at hlt
        have hz : c - q.opened.length = 0 := by omega
        simp only [hz, List.getElem_cons_zero] at hget
        exact ⟨by omega, by rw [← hget]⟩
    refine ⟨by simp [hone, ht], ?_, ?_⟩
    · intro c m hm hs
      obtain ⟨rfl, hl⟩ := hnew c m hm hs
      exact .inr ⟨by simp [hone, ConnectStage.connection?], hl⟩
    · intro c c' hc hc'
      obtain ⟨m, hm, hs⟩ := isUp_iff.1 hc
      obtain ⟨m', hm', hs'⟩ := isUp_iff.1 hc'
      rw [(hnew c m hm hs).1, (hnew c' m' hm' hs').1]
  | @channelCreated i c m ha hm hs =>
    obtain ⟨rfl, hone, -⟩ := h.attempt ha
    exact h.shrink rfl (by simp [hone, ConnectStage.connection?]) fun c' m' hm' hs' => set_channel hm hm' hs'
  | @topologyAsserted i c m ha hm =>
    obtain ⟨rfl, hone, ht⟩ := h.attempt ha
    -- What is up besides the attempt's own connection would have kept the attempt away.
    have hown : ∀ c', q.isUp c' = true → c' = c := by
      intro c' hc'
      obtain ⟨m', hm', hs'⟩ := isUp_iff.1 hc'
      rcases h.up c' m' hm' hs' with ⟨-, hnil, -⟩ | ⟨hmap, -⟩
      · simp [hone] at hnil
      · simpa [hone, ConnectStage.connection?, eq_comm] using hmap
    have hback : ∀ (c' : Nat) (m' : ChannelModel), (q.opened.set c { m with listened := true })[c']? = some m' →
        m'.status = .up → c' = c ∧ m'.listened = true := by
      intro c' m' hm' hs'
      rw [opened_set hm] at hm'
      split at hm'
      · obtain rfl := Option.some.inj hm'
        exact ⟨by assumption, rfl⟩
      · exact absurd (hown c' (isUp_iff.2 ⟨m', hm', hs'⟩)) (by assumption)
    refine ⟨by simp [hone, ht], ?_, ?_⟩
    · intro c' m' hm' hs'
      exact .inl ⟨ht, by simp [hone], (hback c' m' hm' hs').2⟩
    · intro c₁ c₂ h₁ h₂
      obtain ⟨m₁, hm₁, hs₁⟩ := isUp_iff.1 h₁
      obtain ⟨m₂, hm₂, hs₂⟩ := isUp_iff.1 h₂
      rw [(hback c₁ m₁ hm₁ hs₁).1, (hback c₂ m₂ hm₂ hs₂).1]
  | @attemptFails i a ha =>
    obtain ⟨rfl, hone, ht⟩ := h.attempt ha
    have hno := h.none_up (.inr (by simp [hone])) fun c hc hmap => by
      have hac : a.connection? = some c := by simpa [hone] using hmap
      simp [clean, ha, hac, hc] at hok
    rw [scheduleReconnect_open (by exact hq)]
    exact .of_none_up (by simp [hone, ht]) hno
  | @error c m hm hs => exact h.goes hq hm (by simp) fun _ => hs
  | @close c m hm hs =>
    refine h.goes hq hm (by simp) fun hl => ?_
    -- A listener that was told of an error already is told again only in a step that is not clean.
    cases hst : m.status with
    | up => rfl
    | failed => simp [clean, hm, hst, hl] at hok
    | down => exact absurd hst hs
  | @channelCloses c m hm hs _ => exact h.shrink rfl rfl fun c' m' hm' hs' => set_channel hm hm' hs'
  | @timer j hj =>
    have hone := h.one
    have ha : q.attempts = [] := List.length_eq_zero_iff.1 (by omega)
    have hno := h.none_up (.inl (List.ne_nil_of_length_pos (by omega))) (by simp [ha])
    rw [connectOnce_open (by exact hq)]
    refine .of_none_up ?_ hno
    simp only [List.length_eraseIdx, hj, if_true, ha, List.nil_append, List.length_singleton]
    omega
  | closeCalled => cases hq'

theorem established_nodup (q : QueueConnection) : q.established.Nodup :=
  List.nodup_range.filter _

theorem mem_established {c : Nat} (h : c ∈ q.established) :
    q.isUp c = true ∧ ∀ a ∈ q.attempts, a.connection? ≠ some c := by
  simp only [established, List.mem_filter, Bool.and_eq_true, Bool.not_eq_true', List.any_eq_false,
    decide_eq_true_eq] at h
  exact h.2

theorem Single.load (h : q.Single) : q.load ≤ 1 := by
  have hone := h.one
  unfold QueueConnection.load
  cases hest : q.established with
  | nil => simpa using hone
  | cons c rest =>
    -- An established connection is not an attempt's, so there are neither timers nor attempts.
    have hmem : c ∈ q.established := by simp [hest]
    obtain ⟨hup, hown⟩ := mem_established hmem
    obtain ⟨m, hm, hs⟩ := isUp_iff.1 hup
    have hidle : q.timers = [] ∧ q.attempts = [] := by
      rcases h.up c m hm hs with ⟨ht, ha, -⟩ | ⟨hmap, -⟩
      · exact ⟨ht, ha⟩
      · obtain ⟨a, ha, hac⟩ := List.map_eq_singleton_iff.1 hmap
        exact absurd hac (hown a (by simp [ha]))
    have hrest : rest = [] := by
      cases rest with
      | nil => rfl
      | cons c' rest' =>
        have hnodup := q.established_nodup
        rw [hest] at hnodup
        obtain ⟨hup', -⟩ := mem_established (q := q) (c := c') (by simp [hest])
        exact absurd (h.unique c c' hup hup') (fun he => (List.nodup_cons.1 hnodup).1 (by simp [he]))
    simp [hidle.1, hidle.2, hrest]

end

end QueueConnection

theorem createQueueConnection_single : createQueueConnection.Single := by
  refine .of_none_up (by simp [createQueueConnection, QueueConnection.connectOnce]) fun c => ?_
  simp [createQueueConnection, QueueConnection.connectOnce, QueueConnection.isUp]

/-- As long as no connection fails with an 'error' before its 'close', and no
attempt leaves its connection behind, there is one timer, attempt or connection
at most. -/
theorem connection_single {q : QueueConnection}
    (h : Steps QueueConnection.step (fun q e => q.clean e) createQueueConnection q) (hq : q.closed = false) :
    q.load ≤ 1 := by
  have hinv : q.closed = false → q.Single :=
    h.inv (I := fun q => q.closed = false → q.Single) (fun _ => createQueueConnection_single)
      fun _ _ _ hI hok hstep hq' =>
        have hs := QueueConnection.Step.of_step hstep
        (hI (hs.closed hq')).step (hs.closed hq') hok hs hq'
  exact (hinv hq).load

/-- The events of one connect. -/
def connects : List ConnectionEvent := [.connected 0, .channelCreated 0, .topologyAsserted 0]

/-- A connection the broker closes leaves one timer. -/
theorem connection_single_close :
    ∃ q, Steps QueueConnection.step (fun q e => q.clean e) createQueueConnection q ∧ q.timers = [500] ∧ q.load ≤ 1 := by
  obtain ⟨q, h, hq, ht⟩ : ∃ q, Steps QueueConnection.step (fun q e => q.clean e) createQueueConnection q ∧
      q.closed = false ∧ q.timers = [500] := Steps.exists_of_run (connects ++ [.close 0]) (by decide +kernel)
  exact ⟨q, h, ht, connection_single h hq⟩

/-- One failure is two events and two timers, and when both have fired and
connected there are two connections. And an attempt that fails at its channel
leaves its connection up next to the timer. -/
theorem connection_multiplies :
    (∃ q, Steps QueueConnection.step (fun _ _ => True) createQueueConnection q ∧ q.closed = false ∧
      q.timers = [500, 1000] ∧ q.load = 2) ∧
    (∃ q, Steps QueueConnection.step (fun _ _ => True) createQueueConnection q ∧ q.closed = false ∧
      q.established = [1, 2] ∧ q.load = 2) ∧
    ∃ q, Steps QueueConnection.step (fun _ _ => True) createQueueConnection q ∧ q.closed = false ∧
      q.timers = [500] ∧ q.established = [0] :=
  ⟨Steps.exists_of_run (connects ++ [.error 0, .close 0]) (by decide +kernel),
    Steps.exists_of_run (connects ++ [.error 0, .close 0, .timer 0, .timer 0] ++ connects ++ connects)
      (by decide +kernel),
    Steps.exists_of_run [.connected 0, .attemptFails 0] (by decide +kernel)⟩

end FlashSale
