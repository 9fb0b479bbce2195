import FlashSale.Reconnect
/-!
# Usable or recovering

`getChannel` answers the channel of the last connection that was set up. That
channel is open, or a recovery is under way, as long as what `connectOnce`
takes over is still open: it listens to a connection only from then on. Nor
does anybody listen to channels.
-/

namespace FlashSale
open Lib.Runs

namespace QueueConnection

def usable (q : QueueConnection) (c : Nat) : Bool :=
  (q.opened[c]?).any fun m => m.status = .up && m.channelOpen

/-- `getChannel` answers null or an open channel of a connection that is up,
and without such a channel a recovery is under way. -/
structure Serves (q : QueueConnection) : Prop where
  usable : ∀ c, q.getChannel = some c → q.usable c = true
  recovering : (∀ c, q.getChannel = some c → q.usable c = false) → q.timers ≠ [] ∨ q.attempts ≠ []

/-- The current channel does not close under its connection, and what
`connectOnce` takes over is still open. -/
def keepsChannel (q : QueueConnection) : ConnectionEvent → Bool
  | .channelCloses c => q.channel ≠ some c
  | .topologyAsserted i => (q.attempts[i]?).all fun a => a.connection?.all q.usable
  | _ => true

/-- The current connection is up, with its channel, and is listened to; without
one a recovery is under way. -/
structure Serving (q : QueueConnection) : Prop where
  current : ∀ c, q.connection = some c →
    ∃ m, q.opened[c]? = some m ∧ m.status = .up ∧ m.channelOpen = true ∧ m.listened = true
  same : q.channel = q.connection
  recovering : q.connection = none → q.timers ≠ [] ∨ q.attempts ≠ []

section
variable {q q' : QueueConnection}

theorem usable_iff {c : Nat} :
    q.usable c = true ↔ ∃ m, q.opened[c]? = some m ∧ m.status = .up ∧ m.channelOpen = true := by
  simp [usable, Option.any_eq_true]

theorem Serving.serves (h : q.Serving) : q.Serves := by
  have husable : ∀ c, q.getChannel = some c → q.usable c = true := by
    intro c hc
    obtain ⟨m, hm, hs, ho, -⟩ := h.current c (h.same ▸ hc)
    exact usable_iff.2 ⟨m, hm, hs, ho⟩
  refine ⟨husable, fun hno => h.recovering ?_⟩
  cases hc : q.connection with
  | none => rfl
  | some c =>
    have hchannel : q.getChannel = some c := h.same.trans hc
    have := husable c hchannel
    rw [hno c hchannel] at this
    cases this

theorem onDown_current (c : Nat) :
    (q.onDown c).connection = (if q.connection = some c then none else q.connection) ∧
      (q.onDown c).channel = if q.connection = some c then none else q.channel := by
  unfold onDown
  split <;> simp

/-- Whatever connection goes down, the current one is still up or given up. -/
theorem Serving.goes (h : q.Serving) (hq : q.closed = false) {c : Nat} {m : ChannelModel}
    (hm : q.opened[c]? = some m) (status : ConnectionStatus) : (q.goes c m status).Serving := by
  have hset := opened_set hm { m with status := status, channelOpen := false }
  by_cases hl : m.listened = true
  · rw [goes_heard hl]
    obtain ⟨hconnection, hchannel⟩ := onDown_current (q :=
      { q with opened := q.opened.set c { m with status := status, channelOpen := false } }) c
    refine ⟨?_, ?_, fun _ => .inl (List.ne_nil_of_length_pos ?_)⟩
    · intro c' hc'
      rw [hconnection] at hc'
      split at hc'
      · cases hc'
      · rename_i hne
        have hcc : c' ≠ c := fun he => hne (he ▸ hc')
        rw [onDown_opened, hset, if_neg hcc]
        exact h.current c' hc'
    · rw [hconnection, hchannel]
      split
      · rfl
      · exact h.same
    · rw [onDown_timers (by exact hq)]
      omega
  · -- Nobody listens to it, so it is not the current one.
    rw [goes_unheard hl]
    refine ⟨fun c' hc' => ?_, h.same, h.recovering⟩
    obtain ⟨m', hm', hs', ho', hl'⟩ := h.current c' hc'
    have hcc : c' ≠ c := by
      rintro rfl
      rw [hm] at hm'
      obtain rfl := Option.some.inj hm'
      exact hl hl'
    exact ⟨m', by rw [hset, if_neg hcc, hm'], hs', ho', hl'⟩

theorem Serving.step {e : ConnectionEvent} (h : q.Serving) (hq : q.closed = false)
    (hok : q.keepsChannel e = true) (hstep : q.Step e q') (hq' : q'.closed = false) : q'.Serving := by
  cases hstep with
  | @connected i ha =>
    refine ⟨fun c hc => ?_, h.same, fun _ => .inr ?_⟩
    · obtain ⟨m, hm, hrest⟩ := h.current c hc
      obtain ⟨hlt, -⟩ := List.getElem?_eq_some_iff.1 hm
      exact ⟨m, by rw [List.getElem?_append_left hlt, hm], hrest⟩
    · obtain ⟨hlt, -⟩ := List.getElem?_eq_some_iff.1 ha
      exact List.ne_nil_of_length_pos (by rw [List.length_set]; omega)
  | @channelCreated i c m ha hm hs =>
    refine ⟨fun c' hc' => ?_, h.same, fun _ => .inr ?_⟩
    · obtain ⟨m', hm', hs', ho', hl'⟩ := h.current c' hc'
      rw [opened_set hm]
      by_cases hcc : c' = c
      · subst hcc
        rw [hm] at hm'
        obtain rfl := Option.some.inj hm'
        exact ⟨_, if_pos rfl, hs', rfl, hl'⟩
      · exact ⟨m', by rw [if_neg hcc, hm'], hs', ho', hl'⟩
    · obtain ⟨hlt, -⟩ := List.getElem?_eq_some_iff.1 ha
      exact List.ne_nil_of_length_pos (by rw [List.length_set]; omega)
  | @topologyAsserted i c m ha hm =>
    have husable : q.usable c = true := by
      simpa [keepsChannel, ha, ConnectStage.connection?] using hok
    obtain ⟨m', hm', hs, ho⟩ := usable_iff.1 husable
    rw [hm] at hm'
    obtain rfl := Option.some.inj hm'
    refine ⟨fun c' hc' => ?_, rfl, fun hnone => by cases hnone⟩
    obtain rfl := Option.some.inj hc'
    exact ⟨{ m with listened := true }, by rw [opened_set hm, if_pos rfl], hs, ho, rfl⟩
  | @attemptFails i a ha =>
    refine ⟨fun c hc => ?_, ?_, fun _ => .inl ?_⟩
    · simp only [scheduleReconnect_connection, scheduleReconnect_opened] at hc ⊢
      exact h.current c hc
    · simp only [scheduleReconnect_connection, scheduleReconnect_channel]
      exact h.same
    · rw [scheduleReconnect_open (by exact hq)]
      simp
  | @error c m hm hs => exact h.goes hq hm _
  | @close c m hm hs => exact h.goes hq hm _
  | @channelCloses c m hm hs ho =>
    have hne : q.channel ≠ some c := by simpa [keepsChannel] using hok
    refine ⟨fun c' hc' => ?_, h.same, h.recovering⟩
    have hcc : c' ≠ c := by
      rintro rfl
      exact hne (h.same.trans hc')
    rw [opened_set hm, if_neg hcc]
    exact h.current c' hc'
  | @timer j hj =>
    rw [connectOnce_open (by exact hq)]
    exact ⟨h.current, h.same, fun _ => .inr (by simp)⟩
  | closeCalled => cases hq'

/-- A step that loses the current channel, or takes a lost one over, leaves a
channel that nothing will replace. -/
theorem Step.stuck {e : ConnectionEvent} (hstep : q.Step e q') (hok : q.keepsChannel e = false) :
    ∃ c, q'.getChannel = some c ∧ q'.usable c = false := by
  cases hstep with
  | @topologyAsserted i c m ha hm =>
    have husable : q.usable c = false := by
      simpa [keepsChannel, ha, ConnectStage.connection?] using hok
    refine ⟨c, rfl, ?_⟩
    rw [usable, opened_set hm, if_pos rfl]
    rw [usable, hm] at husable
    exact husable
  | @channelCloses c m hm hs ho =>
    have hcurrent : q.channel = some c := by simpa [keepsChannel] using hok
    refine ⟨c, hcurrent, ?_⟩
    rw [usable, opened_set hm, if_pos rfl]
    simp
  | _ => simp [keepsChannel] at hok

end

end QueueConnection

theorem createQueueConnection_serving : createQueueConnection.Serving where
  current c hc := by simp [createQueueConnection, QueueConnection.connectOnce] at hc
  same := rfl
  recovering _ := .inr (by simp [createQueueConnection, QueueConnection.connectOnce])

/-- As long as no channel is lost while its connection stays up, or between the
last reply and its takeover, publishing has a channel or a recovery is under
way; and the step that loses one ends that. -/
theorem connection_serves {q : QueueConnection}
    (h : Steps QueueConnection.step (fun q e => q.keepsChannel e) createQueueConnection q) (hq : q.closed = false) :
    q.Serves ∧ ∀ e q', q.step e = some q' → q'.closed = false → (q'.Serves ↔ q.keepsChannel e = true) := by
  have hinv : q.closed = false → q.Serving :=
    h.inv (I := fun q => q.closed = false → q.Serving) (fun _ => createQueueConnection_serving)
      fun _ _ _ hI hok hstep hq' =>
        have hs := QueueConnection.Step.of_step hstep
        (hI (hs.closed hq')).step (hs.closed hq') hok hs hq'
  refine ⟨(hinv hq).serves, fun e q' hstep hq' => ⟨fun hserves => ?_, fun hok => ?_⟩⟩
  · by_contra hok
    rw [Bool.not_eq_true] at hok
    obtain ⟨c, hc, hno⟩ := (QueueConnection.Step.of_step hstep).stuck hok
    have := hserves.usable c hc
    rw [hno] at this
    cases this
  · exact ((hinv hq).step hq hok (.of_step hstep) hq').serves

theorem connection_serves_connects :
    ∃ q, Steps QueueConnection.step (fun q e => q.keepsChannel e) createQueueConnection q ∧ q.getChannel = some 0 ∧
      q.Serves := by
  obtain ⟨q, h, hq, hc⟩ : ∃ q, Steps QueueConnection.step (fun q e => q.keepsChannel e) createQueueConnection q ∧
      q.closed = false ∧ q.getChannel = some 0 := Steps.exists_of_run connects (by decide +kernel)
  exact ⟨q, h, hc, (connection_serves h hq).1⟩

/-- `connectOnce` takes over a connection that closed after the last reply of
`assertTopology`. Nobody heard that 'close', so `getChannel` answers the dead
channel, and nothing is under way to replace it. -/
theorem connection_stuck :
    ∃ q, Steps QueueConnection.step (fun _ _ => True) createQueueConnection q ∧ q.closed = false ∧
      q.getChannel = some 0 ∧ q.isUp 0 = false ∧ q.usable 0 = false ∧ q.timers = [] ∧ q.attempts = [] :=
  Steps.exists_of_run [.connected 0, .channelCreated 0, .close 0, .topologyAsserted 0] (by decide +kernel)

end FlashSale
