import Mathlib.Data.List.Perm.Basic
import FlashSale.Usable
import FlashSale.Writers
/-!
# Waiting for the drain

`publishPurchaseWrite` (packages/queue) waits for the channel's 'drain' when
`sendToQueue` reports back-pressure, and for nothing else. A closed channel
throws when it is sent to and never drains, so a call that waits on a channel
that closes waits for good.
-/

namespace FlashSale
open Lib.Runs

/-! ## The calls -/

/-- What `sendToQueue` answers: room left, none left, or that the channel is
closed. -/
inductive SendReply where
  | room
  | full
  | throws
deriving DecidableEq

inductive PublishStage where
  /-- For the 'drain' of channel `c`. -/
  | waiting (c : Nat)
  | resolved (queued : Bool)
deriving DecidableEq

/-- A call to `PurchaseQueueService.publish`. -/
structure PublishCall (μ : Type*) where
  message : μ
  stage : PublishStage

/-- A connection manager and the publishes on it. -/
structure Publishing (μ : Type*) where
  q : QueueConnection
  calls : List (PublishCall μ)

inductive PublishAction (μ : Type*) where
  | event (e : ConnectionEvent)
  | publish (message : μ) (reply : SendReply)
  /-- Channel `c` emits 'drain'. -/
  | drain (c : Nat)

/-- `publishPurchaseWrite` on channel `c`, inside the `try` of `publish`. -/
def publishPurchaseWrite (c : Nat) : SendReply → PublishStage
  | .room => .resolved true
  | .full => .waiting c
  | .throws => .resolved false

def PublishCall.drained {μ : Type*} (call : PublishCall μ) (c : Nat) : PublishCall μ :=
  if call.stage = .waiting c then { call with stage := .resolved true } else call

namespace Publishing

variable {μ : Type*}

def start : Publishing μ := ⟨createQueueConnection, []⟩

def step (s : Publishing μ) : PublishAction μ → Option (Publishing μ)
  | .event e => (s.q.step e).map fun q => { s with q := q }
  | .publish message reply =>
    match s.q.getChannel with
    | none => some { s with calls := s.calls ++ [⟨message, .resolved false⟩] }
    | some c =>
      if reply = .throws ∨ s.q.usable c then
        some { s with calls := s.calls ++ [⟨message, publishPurchaseWrite c reply⟩] }
      else none
  | .drain c => if s.q.usable c then some { s with calls := s.calls.map (·.drained c) } else none

/-- No call waits on a channel that is closed, or whose connection is. -/
def Free (s : Publishing μ) : Prop := ∀ call ∈ s.calls, ∀ c, call.stage = .waiting c → s.q.usable c = true

/-- Nobody waits on a channel that goes away. -/
def calm (s : Publishing μ) : PublishAction μ → Bool
  | .event (.error c) | .event (.close c) | .event (.channelCloses c) =>
    s.calls.all fun call => call.stage ≠ .waiting c
  | _ => true

end Publishing

/-! ## How a channel is lost -/

namespace QueueConnection

/-- The event takes channel `c` away. -/
def loses (c : Nat) (e : ConnectionEvent) : Prop := e = .error c ∨ e = .close c ∨ e = .channelCloses c

section
variable {q q' : QueueConnection} {e : ConnectionEvent} {c : Nat}

theorem usable_congr (h : q'.opened = q.opened) : q'.usable c = q.usable c := by
  unfold usable
  rw [h]

theorem usable_set {c' : Nat} {m m' : ChannelModel} (hm : q.opened[c']? = some m)
    (hq' : q'.opened = q.opened.set c' m') :
    q'.usable c = if c = c' then decide (m'.status = .up) && m'.channelOpen else q.usable c := by
  unfold usable
  rw [hq', opened_set hm]
  split <;> rfl

/-- A channel stays usable unless it is taken away. -/
theorem Step.keeps_usable (hstep : q.Step e q') (h : q.usable c = true) (he : ¬ loses c e) : q'.usable c = true := by
  obtain ⟨m₀, hm₀, hs₀, ho₀⟩ := usable_iff.1 h
  cases hstep with
  | connected =>
    obtain ⟨hlt, -⟩ := List.getElem?_eq_some_iff.1 hm₀
    exact usable_iff.2 ⟨m₀, by rw [List.getElem?_append_left hlt, hm₀], hs₀, ho₀⟩
  | channelCreated _ hm hs =>
    rw [usable_set hm rfl]
    split
    · simp [hs]
    · exact h
  | topologyAsserted _ hm =>
    rw [usable_set hm rfl]
    split
    · rename_i hc
      rw [← hc, hm₀] at hm
      obtain rfl := Option.some.inj hm
      simp [hs₀, ho₀]
    · exact h
  | attemptFails =>
    rw [usable_congr (scheduleReconnect_opened ..)]
    exact h
  | error hm =>
    rw [usable_set hm (goes_opened ..), if_neg fun hc => he (.inl (by rw [hc]))]
    exact h
  | close hm =>
    rw [usable_set hm (goes_opened ..), if_neg fun hc => he (.inr (.inl (by rw [hc])))]
    exact h
  | channelCloses hm =>
    rw [usable_set hm rfl, if_neg fun hc => he (.inr (.inr (by rw [hc])))]
    exact h
  | timer =>
    rw [usable_congr connectOnce_opened]
    exact h
  | closeCalled => exact h

/-- What is taken away is not usable. -/
theorem Step.loses_usable (hstep : q.Step e q') (he : loses c e) : q'.usable c = false := by
  rcases he with rfl | rfl | rfl
  · cases hstep with
    | error hm => simp [usable_set hm (goes_opened ..)]
  · cases hstep with
    | close hm => simp [usable_set hm (goes_opened ..)]
  · cases hstep with
    | channelCloses hm =>
      rw [usable_set hm rfl, if_pos rfl]
      exact Bool.and_false _

end

end QueueConnection

/-! ## A channel that is lost stays lost -/

namespace QueueConnection

/-- The connections that attempts are setting up. -/
def held (q : QueueConnection) : List Nat := q.attempts.filterMap (·.connection?)

/-- Connection `c` was opened, and no attempt has to do with it any more. -/
def apart (q : QueueConnection) (c : Nat) : Prop := c < q.opened.length ∧ c ∉ q.held

/-- Each connection is one attempt's at most, and the current one is none's. -/
structure Owned (q : QueueConnection) : Prop where
  nodup : q.held.Nodup
  known : ∀ c ∈ q.held, c < q.opened.length
  current : ∀ c, q.channel = some c → q.apart c

section
variable {q q' : QueueConnection} {e : ConnectionEvent} {c i : Nat} {a : ConnectStage}

theorem held_perm (ha : q.attempts[i]? = some a) :
    q.held.Perm (a.connection?.toList ++ { q with attempts := q.attempts.eraseIdx i }.held) := by
  obtain ⟨hlt, rfl⟩ := List.getElem?_eq_some_iff.1 ha
  have hperm := (List.getElem_cons_eraseIdx_perm hlt).symm.filterMap (·.connection?)
  rw [List.filterMap_cons] at hperm
  unfold held
  split at hperm <;> simp_all

theorem held_set_perm (ha : q.attempts[i]? = some a) (b : ConnectStage) :
    { q with attempts := q.attempts.set i b }.held.Perm
      (b.connection?.toList ++ { q with attempts := q.attempts.eraseIdx i }.held) := by
  obtain ⟨hlt, -⟩ := List.getElem?_eq_some_iff.1 ha
  have hperm := (List.set_perm_cons_eraseIdx hlt b).filterMap (·.connection?)
  rw [List.filterMap_cons] at hperm
  unfold held
  split at hperm <;> simp_all

/-- An attempt that ends leaves the others theirs. -/
theorem erase_subperm (ha : q.attempts[i]? = some a) :
    { q with attempts := q.attempts.eraseIdx i }.held.Subperm q.held :=
  ((List.sublist_append_right _ _).subperm).trans (held_perm ha).symm.subperm

theorem goes_channel (c : Nat) (m : ChannelModel) (status : ConnectionStatus) {c' : Nat}
    (h : (q.goes c m status).channel = some c') : q.channel = some c' := by
  unfold goes at h
  split at h
  · rw [onDown, scheduleReconnect_channel] at h
    split at h
    · cases h
    · exact h
  · exact h

/-- Where attempts only end, what was apart stays so. -/
theorem Owned.shrink (h : q.Owned) (hheld : q'.held.Subperm q.held) (hopened : q.opened.length ≤ q'.opened.length)
    (hcurrent : ∀ c, q'.channel = some c → q.channel = some c) :
    q'.Owned ∧ ∀ c, q.apart c → q'.apart c := by
  have hapart : ∀ c, q.apart c → q'.apart c := fun c hc =>
    ⟨Nat.lt_of_lt_of_le hc.1 hopened, fun hin => hc.2 (hheld.subset hin)⟩
  obtain ⟨l, hperm, hsub⟩ := hheld
  refine ⟨⟨hperm.nodup_iff.1 (h.nodup.sublist hsub), fun c hc => ?_, fun c hc => ?_⟩, hapart⟩
  · exact Nat.lt_of_lt_of_le (h.known c (hsub.subset (hperm.symm.subset hc))) hopened
  · exact hapart c (h.current c (hcurrent c hc))

/-- A new connection is one attempt's. -/
theorem Owned.grow (h : q.Owned) (hheld : q'.held.Perm (q.opened.length :: q.held))
    (hopened : q'.opened.length = q.opened.length + 1) (hcurrent : q'.channel = q.channel) :
    q'.Owned ∧ ∀ c, q.apart c → q'.apart c := by
  have hapart : ∀ c, q.apart c → q'.apart c := by
    intro c hc
    refine ⟨hopened ▸ Nat.lt_succ_of_lt hc.1, fun hin => ?_⟩
    exact (List.mem_cons.1 (hheld.subset hin)).elim (Nat.ne_of_lt hc.1) hc.2
  refine ⟨⟨?_, fun c hc => ?_, fun c hc => hapart c (h.current c (hcurrent ▸ hc))⟩, hapart⟩
  · refine hheld.nodup_iff.2 (List.nodup_cons.2 ⟨fun hin => ?_, h.nodup⟩)
    exact Nat.lt_irrefl _ (h.known _ hin)
  · rw [hopened]
    rcases List.mem_cons.1 (hheld.subset hc) with rfl | hc
    · exact Nat.lt_succ_self _
    · exact Nat.lt_succ_of_lt (h.known c hc)

theorem Owned.step (h : q.Owned) (hstep : q.Step e q') : q'.Owned ∧ ∀ c, q.apart c → q'.apart c := by
  cases hstep with
  | connected ha =>
    have hold := held_perm ha
    have hnew := held_set_perm ha (.createChannel q.opened.length)
    exact h.grow (hnew.trans (hold.symm.cons _)) (by simp) rfl
  | @channelCreated i c m ha hm hs =>
    have hperm := (held_set_perm ha (.assertTopology c)).trans (held_perm ha).symm
    exact h.shrink hperm.subperm (by simp) fun c hc => hc
  | @topologyAsserted i c m ha hm =>
    -- The attempt ends, and its connection is current and nobody's.
    have hold := held_perm ha
    have hends : { q with attempts := q.attempts.eraseIdx i }.Owned ∧
        ∀ c, q.apart c → { q with attempts := q.attempts.eraseIdx i }.apart c :=
      h.shrink (erase_subperm ha) (Nat.le_refl _) fun c hc => hc
    have hopened : (q.opened.set c { m with listened := true }).length = q.opened.length := List.length_set
    refine ⟨⟨hends.1.nodup, fun c' hc' => ?_, fun c' hc' => ?_⟩, fun c' hc' => ?_⟩
    · exact hopened.symm ▸ hends.1.known c' hc'
    · obtain rfl := Option.some.inj hc'
      refine ⟨hopened.symm ▸ (List.getElem?_eq_some_iff.1 hm).1, ?_⟩
      exact (List.nodup_cons.1 (hold.nodup_iff.1 h.nodup)).1
    · exact ⟨hopened.symm ▸ (hends.2 c' hc').1, (hends.2 c' hc').2⟩
  | @attemptFails i a ha =>
    refine h.shrink ?_ (by simp) fun c hc => by simpa using hc
    rw [held, scheduleReconnect_attempts]
    exact erase_subperm ha
  | error hm | close hm =>
    refine h.shrink ?_ ?_ fun c hc => goes_channel _ _ _ hc
    · rw [held, goes_attempts]
      exact List.Subperm.refl _
    · exact Nat.le_of_eq (by rw [goes_opened, List.length_set])
  | channelCloses => exact h.shrink (List.Subperm.refl _) (by simp) fun c hc => hc
  | timer =>
    unfold connectOnce
    split
    · exact h.shrink (List.Subperm.refl _) (Nat.le_refl _) fun c hc => hc
    · refine h.shrink ?_ (Nat.le_refl _) fun c hc => hc
      rw [held, List.filterMap_append]
      exact (List.append_nil q.held).symm ▸ List.Subperm.refl _
  | closeCalled => exact h.shrink (List.Subperm.refl _) (Nat.le_refl _) fun c hc => by cases hc

theorem Step.stays_lost (hstep : q.Step e q') (hapart : q.apart c) (h : q.usable c = false) :
    q'.usable c = false := by
  cases hstep with
  | connected =>
    unfold usable at h ⊢
    rw [List.getElem?_append_left hapart.1]
    exact h
  | @channelCreated i c' m ha hm hs =>
    have hne : c ≠ c' := by
      rintro rfl
      exact hapart.2 ((held_perm ha).symm.subset List.mem_cons_self)
    rw [usable_set hm rfl, if_neg hne]
    exact h
  | topologyAsserted _ hm =>
    rw [usable_set hm rfl]
    split
    · rename_i hc
      subst hc
      rw [usable, hm] at h
      exact h
    · exact h
  | attemptFails =>
    rw [usable_congr (scheduleReconnect_opened ..)]
    exact h
  | error hm | close hm =>
    rw [usable_set hm (goes_opened ..)]
    split
    · rfl
    · exact h
  | channelCloses hm =>
    rw [usable_set hm rfl]
    split
    · exact Bool.and_false _
    · exact h
  | timer =>
    rw [usable_congr connectOnce_opened]
    exact h
  | closeCalled => exact h

end

end QueueConnection

/-! ## Nobody waits -/

namespace Publishing

section
variable {μ : Type*} {s s' : Publishing μ} {a : PublishAction μ}

theorem calm_event {e : ConnectionEvent} :
    s.calm (.event e) = true ↔
      ∀ c, QueueConnection.loses c e → ∀ call ∈ s.calls, call.stage ≠ .waiting c := by
  unfold QueueConnection.loses
  cases e <;> simp [calm]

theorem publishPurchaseWrite_waiting {c c' : Nat} {reply : SendReply}
    (h : publishPurchaseWrite c reply = .waiting c') : reply = .full ∧ c = c' := by
  cases reply <;> simp_all [publishPurchaseWrite]

theorem drained_waiting {call : PublishCall μ} {c c' : Nat} (h : (call.drained c).stage = .waiting c') :
    call.stage = .waiting c' ∧ c' ≠ c := by
  unfold PublishCall.drained at h
  split at h
  · cases h
  · rename_i hne
    refine ⟨h, ?_⟩
    rintro rfl
    exact hne h

/-- What a step does: an event of the connection, a call that begins, and waits
only on a channel it could send to, or a drain. -/
theorem step_cases (hstep : s.step a = some s') :
    (∃ e q', a = .event e ∧ s.q.Step e q' ∧ s' = { s with q := q' }) ∨
      (∃ call : PublishCall μ, (∀ c, call.stage = .waiting c → s.q.getChannel = some c ∧ s.q.usable c = true) ∧
        s' = { s with calls := s.calls ++ [call] }) ∨
      ∃ c, s.q.usable c = true ∧ s' = { s with calls := s.calls.map (·.drained c) } := by
  cases a with
  | event e =>
    obtain ⟨q', hq', rfl⟩ := Option.map_eq_some_iff.1 hstep
    exact .inl ⟨e, q', rfl, .of_step hq', rfl⟩
  | publish message reply =>
    refine .inr (.inl ?_)
    simp only [Publishing.step] at hstep
    split at hstep
    · obtain rfl := Option.some.inj hstep
      exact ⟨⟨message, .resolved false⟩, (by intro c hwaits; cases hwaits), rfl⟩
    · split at hstep
      · rename_i c hchannel hsends
        obtain rfl := Option.some.inj hstep
        refine ⟨⟨message, publishPurchaseWrite c reply⟩, fun c' hwaits => ?_, rfl⟩
        obtain ⟨rfl, rfl⟩ := publishPurchaseWrite_waiting hwaits
        exact ⟨hchannel, hsends.resolve_left (by simp)⟩
      · cases hstep
  | drain c =>
    simp only [Publishing.step] at hstep
    split at hstep
    · obtain rfl := Option.some.inj hstep
      exact .inr (.inr ⟨c, by assumption, rfl⟩)
    · cases hstep

theorem Free.step (h : s.Free) (hcalm : s.calm a = true) (hstep : s.step a = some s') : s'.Free := by
  obtain ⟨e, q', rfl, hq', rfl⟩ | ⟨new, hnew, rfl⟩ | ⟨c, -, rfl⟩ := step_cases hstep
  · intro call hm c hwaits
    exact hq'.keeps_usable (h call hm c hwaits) fun hloses => calm_event.1 hcalm c hloses call hm hwaits
  · intro call hm c hwaits
    rcases List.mem_append.1 hm with hm | hm
    · exact h call hm c hwaits
    · rw [List.mem_singleton.1 hm] at hwaits
      exact (hnew c hwaits).2
  · intro call hm c' hwaits
    obtain ⟨call₀, hm₀, rfl⟩ := List.mem_map.1 hm
    exact h call₀ hm₀ c' (drained_waiting hwaits).1

/-- A channel that goes away with a call waiting on it leaves that call
behind. -/
theorem left_waiting (hcalm : s.calm a = false) (hstep : s.step a = some s') :
    ∃ (k c : Nat) (call : PublishCall μ),
      s'.calls[k]? = some call ∧ call.stage = .waiting c ∧ s'.q.usable c = false := by
  cases a with
  | event e =>
    have hno := mt calm_event.2 (ne_true_of_eq_false hcalm)
    simp only [not_forall, ne_eq, not_not] at hno
    obtain ⟨c, hloses, call, hm, hwaits⟩ := hno
    obtain ⟨q', hq', rfl⟩ := Option.map_eq_some_iff.1 hstep
    obtain ⟨k, hk⟩ := List.mem_iff_getElem?.1 hm
    exact ⟨k, c, call, hk, hwaits, (QueueConnection.Step.of_step hq').loses_usable hloses⟩
  | _ => cases hcalm

/-- Who waits does so on a channel that no attempt has to do with. -/
structure Known (s : Publishing μ) : Prop where
  owned : s.q.Owned
  waiting : ∀ call ∈ s.calls, ∀ c, call.stage = .waiting c → s.q.apart c

theorem start_known : (start : Publishing μ).Known where
  owned := by constructor <;> simp [start, createQueueConnection, QueueConnection.connectOnce,
    QueueConnection.held, ConnectStage.connection?]
  waiting call hm := by cases hm

theorem Known.step (h : s.Known) (hstep : s.step a = some s') : s'.Known := by
  obtain ⟨e, q', rfl, hq', rfl⟩ | ⟨new, hnew, rfl⟩ | ⟨c, -, rfl⟩ := step_cases hstep
  · obtain ⟨howned, hapart⟩ := h.owned.step hq'
    exact ⟨howned, fun call hm c hwaits => hapart c (h.waiting call hm c hwaits)⟩
  · refine ⟨h.owned, fun call hm c hwaits => ?_⟩
    rcases List.mem_append.1 hm with hm | hm
    · exact h.waiting call hm c hwaits
    · rw [List.mem_singleton.1 hm] at hwaits
      exact h.owned.current c (hnew c hwaits).1
  · refine ⟨h.owned, fun call hm c' hwaits => ?_⟩
    obtain ⟨call₀, hm₀, rfl⟩ := List.mem_map.1 hm
    exact h.waiting call₀ hm₀ c' (drained_waiting hwaits).1

/-- A call that waits on a lost channel waits on. -/
theorem waits_on (h : s.Known) (hstep : s.step a = some s') {k c : Nat} {call : PublishCall μ}
    (hk : s.calls[k]? = some call) (hwaits : call.stage = .waiting c) (hlost : s.q.usable c = false) :
    s'.calls[k]? = some call ∧ s'.q.usable c = false := by
  obtain ⟨e, q', rfl, hq', rfl⟩ | ⟨new, -, rfl⟩ | ⟨c', husable, rfl⟩ := step_cases hstep
  · exact ⟨hk, hq'.stays_lost (h.waiting call (List.mem_of_getElem? hk) c hwaits) hlost⟩
  · exact ⟨by rw [List.getElem?_append_left (List.getElem?_eq_some_iff.1 hk).1, hk], hlost⟩
  · -- Only a usable channel drains.
    refine ⟨?_, hlost⟩
    have hne : c ≠ c' := by
      rintro rfl
      rw [hlost] at husable
      cases husable
    rw [List.getElem?_map, hk, Option.map_some, PublishCall.drained, if_neg]
    rw [hwaits]
    exact fun hsame => hne (PublishStage.waiting.inj hsame)

theorem waits_forever (h : s.Known) {k c : Nat} {call : PublishCall μ} (hk : s.calls[k]? = some call)
    (hwaits : call.stage = .waiting c) (hlost : s.q.usable c = false)
    (hsteps : Steps Publishing.step (fun _ _ => True) s s') :
    s'.calls[k]? = some call ∧ s'.q.usable c = false := by
  have hinv := hsteps.inv (I := fun s => s.Known ∧ s.calls[k]? = some call ∧ s.q.usable c = false) ⟨h, hk, hlost⟩
    fun _ _ _ hI _ hstep => ⟨hI.1.step hstep, waits_on hI.1 hstep hI.2.1 hwaits hI.2.2⟩
  exact hinv.2

end

end Publishing

/-- While no channel goes away with a call waiting on it no call waits on one
that is gone; a step that takes one away leaves a call that waits for good. -/
theorem publish_never_hangs {μ : Type*} {s : Publishing μ}
    (h : Steps Publishing.step (fun s a => s.calm a = true) .start s) :
    s.Free ∧ ∀ a s', s.step a = some s' → (s'.Free ↔ s.calm a = true) ∧
      (s.calm a = false → ∃ (k c : Nat) (call : PublishCall μ), call.stage = .waiting c ∧
        ∀ s'', Steps Publishing.step (fun _ _ => True) s' s'' → s''.calls[k]? = some call) := by
  have hfree : s.Free := h.inv (fun call hm => by cases hm) fun _ _ _ hI hcalm hstep => hI.step hcalm hstep
  have hknown : s.Known := h.inv Publishing.start_known fun _ _ _ hI _ hstep => hI.step hstep
  refine ⟨hfree, fun a s' hstep => ⟨⟨fun hfree' => ?_, fun hcalm => hfree.step hcalm hstep⟩, fun hcalm => ?_⟩⟩
  · by_contra hcalm
    rw [Bool.not_eq_true] at hcalm
    obtain ⟨k, c, call, hk, hwaits, hlost⟩ := Publishing.left_waiting hcalm hstep
    have := hfree' call (List.mem_of_getElem? hk) c hwaits
    rw [hlost] at this
    cases this
  · obtain ⟨k, c, call, hk, hwaits, hlost⟩ := Publishing.left_waiting hcalm hstep
    exact ⟨k, c, call, hwaits, fun s'' hsteps =>
      (Publishing.waits_forever (hknown.step hstep) hk hwaits hlost hsteps).1⟩

def demoMessage : PurchaseWriteEntry := ⟨"aaaaaaaa-aaaa-4aaa-8aaa-aaaaaaaaaaaa", "buyer@example.com", 500⟩

/-- A publish that met back-pressure, and a drain before the channel closed. -/
theorem publish_never_hangs_drained :
    ∃ s : Publishing PurchaseWriteEntry, s.calls.map (·.stage) = [.resolved true] ∧ s.q.usable 0 = false ∧ s.Free := by
  have hrun : ∃ s : Publishing PurchaseWriteEntry, Steps Publishing.step (fun s a => s.calm a = true) .start s ∧
      s.calls.map (·.stage) = [.resolved true] ∧ s.q.usable 0 = false :=
    Steps.exists_of_run
      (connects.map .event ++ [.publish demoMessage .full, .drain 0, .event (.channelCloses 0)]) (by decide +kernel)
  obtain ⟨s, h, hresolved, hlost⟩ := hrun
  exact ⟨s, hresolved, hlost, (publish_never_hangs h).1⟩

/-- The channel closes while the publish waits for the drain: it waits in every
state from then on. -/
theorem lost_drain_hangs :
    ∃ s : Publishing PurchaseWriteEntry, Steps Publishing.step (fun _ _ => True) .start s ∧
      ∀ s', Steps Publishing.step (fun _ _ => True) s s' →
        s'.calls[0]? = some ⟨demoMessage, .waiting 0⟩ ∧ s'.q.usable 0 = false ∧ ¬ s'.Free := by
  have hrun : ∃ s : Publishing PurchaseWriteEntry, Steps Publishing.step (fun _ _ => True) .start s ∧
      s.calls.map (fun call => (call.message, call.stage)) = [(demoMessage, .waiting 0)] ∧ s.q.usable 0 = false :=
    Steps.exists_of_run
      (connects.map .event ++ [.publish demoMessage .full, .event (.channelCloses 0)]) (by decide +kernel)
  obtain ⟨s, h, hcalls, hlost⟩ := hrun
  have hknown : s.Known := h.inv Publishing.start_known fun _ _ _ hI _ hstep => hI.step hstep
  have hk : s.calls[0]? = some ⟨demoMessage, .waiting 0⟩ := by
    obtain ⟨call, hcall, hpair⟩ := List.map_eq_singleton_iff.1 hcalls
    obtain ⟨hmessage, hstage⟩ := Prod.mk.inj hpair
    rw [hcall, ← hmessage, ← hstage]
    rfl
  refine ⟨s, h, fun s' hsteps => ?_⟩
  obtain ⟨hk', hlost'⟩ := Publishing.waits_forever hknown hk rfl hlost hsteps
  refine ⟨hk', hlost', fun hfree => ?_⟩
  have := hfree _ (List.mem_of_getElem? hk') 0 rfl
  rw [hlost'] at this
  cases this

end FlashSale
