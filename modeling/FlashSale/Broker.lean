import FlashSale.Gate
/-!
# Broker outages

What lies between a call that publishes its message and the broker
(packages/queue/src/{connection,publish}.ts,
apps/api/src/purchases/purchases-queue.service.ts). `sendToQueue` puts the
message in the connection's write buffer and returns; the broker takes
messages out of it later, in order, and what is still there when the connection
dies is lost. A call whose `sendToQueue` returned true is over; one for which it
returned false waits for `drain`.
-/

namespace FlashSale
open Lib.Runs

/-! ## Connections -/

structure Conn where
  alive : Bool
  /-- The write buffer, oldest first. -/
  buffer : List PurchaseWriteEntry
  /-- How many messages the broker has taken from it. -/
  taken : Nat
deriving DecidableEq

/-- A call that has sent its message and not yet answered. -/
structure Sent where
  call : Pending
  conn : Nat
  /-- How many messages the broker must have taken from the connection to have
  taken all that its buffer held after the send. -/
  due : Nat
  /-- There was no `drain` since. -/
  waiting : Bool
deriving DecidableEq

structure Amqp where
  sys : System
  conns : Nat → Conn
  /-- How many connections were ever opened. -/
  opened : Nat
  /-- Each api process's `channel`. -/
  getChannel : Nat → Option Nat
  sent : List Sent

/-- No connection yet. -/
def Amqp.start (sys : System) : Amqp := ⟨sys, fun _ => ⟨false, [], 0⟩, 0, fun _ => none, []⟩

/-! ## Steps -/

inductive Frame where
  /-- `connectOnce` of process `r` gets through. -/
  | connected (r : Nat)
  /-- Connection `c` dies. -/
  | fails (c : Nat)
  /-- Process `r` hears that connection `c` died. -/
  | onDown (r c : Nat)
  /-- Call `i` publishes; `ok` is what `sendToQueue` returns. -/
  | send (i : Nat) (ok : Bool)
  /-- Call `i` publishes, and `sendToQueue` throws. -/
  | throws (i : Nat)
  /-- The broker takes the next message of connection `c`. -/
  | receives (c : Nat)
  | drain (c : Nat)
  /-- Call `k` of those that wait has heard `drain`, and answers. -/
  | answers (k : Nat)
  | act (a : Action)
deriving DecidableEq

/-- A message is written to connection `c`. If that died unnoticed, the message
goes nowhere. -/
def Amqp.sendToQueue (A : Amqp) (c : Nat) (m : PurchaseWriteEntry) : Amqp :=
  if (A.conns c).alive then
    { A with conns := Function.update A.conns c { A.conns c with buffer := (A.conns c).buffer ++ [m] } }
  else A

/-- `PurchaseQueueService.publish` for call `i` up to its `await`. Without a
channel the call writes its row itself; if `sendToQueue` returns true there is
nothing to wait for, and it answers. -/
def Amqp.publish (A : Amqp) (i : Nat) (p : Pending) (ok : Bool) : Amqp :=
  match A.getChannel p.replica with
  | none => { A with sys := A.sys.goOn i p .write }
  | some c =>
    let A' := A.sendToQueue c p.message
    if ok then { A' with sys := A.sys.finish i p (.ok SUCCESS_RESULT) }
    else { A' with
      sys := { A.sys with pending := A.sys.pending.eraseIdx i }
      sent := A.sent ++ [⟨p, c, (A.conns c).taken + (A.conns c).buffer.length + 1, true⟩] }

/-- One step. The step of `act` that hands a message over at once is replaced by
the steps in between. -/
def astep (A : Amqp) : Frame → Option Amqp
  | .connected r => some { A with
      conns := Function.update A.conns A.opened ⟨true, [], 0⟩
      opened := A.opened + 1
      getChannel := Function.update A.getChannel r (some A.opened) }
  | .fails c =>
    if (A.conns c).alive then
      some { A with conns := Function.update A.conns c { A.conns c with alive := false, buffer := [] } }
    else none
  | .onDown r c =>
    if (A.conns c).alive = false then some { A with
      getChannel := if A.getChannel r = some c then Function.update A.getChannel r none else A.getChannel }
    else none
  | .send i ok =>
    match A.sys.pending[i]? with
    | some p => if p.stage = .publish then some (A.publish i p ok) else none
    | none => none
  | .throws i =>
    match A.sys.pending[i]? with
    | some p => if p.stage = .publish then some { A with sys := A.sys.goOn i p .write } else none
    | none => none
  | .receives c =>
    match (A.conns c).buffer with
    | m :: rest => some { A with
        sys := { A.sys with queue := A.sys.queue ++ [m] }
        conns := Function.update A.conns c { A.conns c with buffer := rest, taken := (A.conns c).taken + 1 } }
    | [] => none
  | .drain c => some { A with sent := A.sent.map fun s => if s.conn = c then { s with waiting := false } else s }
  | .answers k =>
    match A.sent[k]? with
    | some s =>
      if s.waiting then none else some { A with
        sent := A.sent.eraseIdx k
        sys := { A.sys with answers := A.sys.answers ++ [s.call.answer (.ok SUCCESS_RESULT)] } }
    | none => none
  | .act (.publish ..) => none
  | .act a => (step A.sys a).map fun sys => { A with sys }

/-- No `sendToQueue` returns true, and a connection emits `drain` only after the
broker has read it up to where it had been written when the calls that wait sent
their messages. -/
def Confirmed (A : Amqp) : Frame → Prop
  | .send i ok => ok = true → ∀ p ∈ A.sys.pending[i]?, A.getChannel p.replica = none
  | .drain c => ∀ s ∈ A.sent, s.conn = c → s.waiting = true → s.due ≤ (A.conns c).taken
  | _ => True

instance (A : Amqp) : (f : Frame) → Decidable (Confirmed A f)
  | .send i ok => inferInstanceAs (Decidable (ok = true → ∀ p ∈ A.sys.pending[i]?, _))
  | .drain c => inferInstanceAs (Decidable (∀ s ∈ A.sent, s.conn = c → s.waiting = true → _))
  | .connected _ | .fails _ | .onDown .. | .throws _ | .receives _ | .answers _ | .act _ =>
    inferInstanceAs (Decidable True)

/-- Over a connection with nothing waiting, and with nothing in between, these
steps make up the one of `System`. -/
theorem publish_split {A : Amqp} {i c : Nat} {p : Pending} (hi : A.sys.pending[i]? = some p)
    (hstage : p.stage = .publish) (hchannel : A.getChannel p.replica = some c) (halive : (A.conns c).alive = true)
    (hbuffer : (A.conns c).buffer = []) :
    ∃ A', Steps astep (fun _ _ => True) A A' ∧ step A.sys (.publish i true) = some A'.sys := by
  have hsend : astep A (.send i true) = some (A.publish i p true) := by
    simp [astep, hi, hstage]
  have hreceives : astep (A.publish i p true) (.receives c) = some { A.publish i p true with
      sys := { (A.publish i p true).sys with queue := (A.publish i p true).sys.queue ++ [p.message] }
      conns := Function.update (A.publish i p true).conns c ⟨true, [], (A.conns c).taken + 1⟩ } := by
    simp [astep, Amqp.publish, hchannel, Amqp.sendToQueue, halive, hbuffer]
  refine ⟨_, .head trivial hsend (.tail (.receives c) .refl trivial hreceives), ?_⟩
  simp [step, hi, hstage, stepPublish, System.finish, Amqp.publish, hchannel]

/-! ## What is held for a buyer -/

/-- The buyers with a row, or with a message that the broker holds. -/
def Books.held (B : Books) : Finset String := B.settled ∪ B.queued ∪ B.dead

theorem Books.mem_held {B : Books} {b : String} : b ∈ B.held ↔ b ∈ B.settled ∨ b ∈ B.queued ∨ b ∈ B.dead := by
  simp [Books.held]

theorem Books.held_mono {B B' : Books} (hsettled : B.settled ⊆ B'.settled) (hqueued : B.queued ⊆ B'.queued)
    (hdead : B.dead ⊆ B'.dead) : B.held ⊆ B'.held :=
  Finset.union_subset_union (Finset.union_subset_union hsettled hqueued) hdead

/-- No move of the books drops a buyer who is held. -/
theorem Moves.held {u : Uuid} {S : System} {a : Action} {B : Books} (h : Moves u S a B) :
    (S.books u).held ⊆ B.held := by
  cases h with
  | quiet | refer | reserve | reserveLost | resend | delete | sync => exact subset_rfl
  | publish => exact Books.held_mono subset_rfl (Finset.subset_insert _ _) subset_rfl
  | write | record => exact Books.held_mono (Finset.subset_insert _ _) subset_rfl subset_rfl
  | drain t ht hdisj hstock hqueued hdead hdead' hcovered =>
    -- A message leaves the queue for the dead letters, or once it has its row.
    intro b hb
    rw [Books.mem_held] at hb ⊢
    rcases hb with hb | hb | hb
    · exact .inl (Finset.mem_union_left _ hb)
    · have := hcovered hb
      simp only [Finset.mem_union] at this ⊢
      tauto
    · exact .inr (.inr (hdead hb))

/-- A move tells a buyer of success only once the buyer is held. -/
theorem Moves.told_held {u : Uuid} {S : System} {a : Action} {B : Books} (h : Moves u S a B)
    (htold : (S.books u).told ⊆ (S.books u).held) : B.told ⊆ B.held := by
  have hkept := htold.trans h.held
  cases h with
  | quiet | refer | reserve | reserveLost | resend | delete | sync | drain => exact hkept
  | publish b =>
    apply Finset.insert_subset _ hkept
    exact Books.mem_held.2 (.inr (.inl (Finset.mem_insert_self _ _)))
  | write b _ _ _ _ _ htold' | record b _ _ _ _ htold' =>
    apply htold'.trans
    apply Finset.insert_subset _ hkept
    exact Books.mem_held.2 (.inl (Finset.mem_insert_self _ _))

/-! ## The invariant -/

/-- The buyer of a call is held. -/
def System.holds (S : System) (p : Pending) : Prop := normalizeEmail p.email ∈ (S.books (.ofText p.saleId)).held

/-- A call's message by the connection it was sent on: the broker took it with
those before it; or the call waits, and it has its place in the buffer, or the
connection died. -/
def Sent.Placed (s : Sent) (conn : Conn) (sys : System) : Prop :=
  (s.due ≤ conn.taken ∧ sys.holds s.call) ∨ s.waiting = true ∧
    ∃ ahead, s.due = conn.taken + ahead + 1 ∧ (conn.buffer[ahead]? = some s.call.message ∨ conn.alive = false)

structure Amqp.Inv (A : Amqp) : Prop where
  ok : A.sys.Ok
  told : ∀ u, (A.sys.books u).told ⊆ (A.sys.books u).held
  sent : ∀ s ∈ A.sent, s.conn < A.opened ∧ s.Placed (A.conns s.conn) A.sys
  channels : ∀ r c, A.getChannel r = some c → c < A.opened
  dead : ∀ c, (A.conns c).alive = false → (A.conns c).buffer = []

/-- A step of the system holds on to what it held. -/
theorem System.Ok.holds {S S' : System} {a : Action} (hok : S.Ok) (h : FlashSale.step S a = some S') {p : Pending}
    (hp : S.holds p) : S'.holds p :=
  (step_moves hok h _).held hp

theorem Sent.Placed.mono {s : Sent} {conn : Conn} {sys sys' : System} (h : s.Placed conn sys)
    (hholds : sys.holds s.call → sys'.holds s.call) : s.Placed conn sys' :=
  h.imp_left (·.imp_right hholds)

theorem Amqp.Inv.act {A : Amqp} (h : A.Inv) {a : Action} {sys : System} (hstep : step A.sys a = some sys) :
    Amqp.Inv { A with sys } where
  ok := h.ok.step hstep
  told u := (step_moves h.ok hstep u).told_held (h.told u)
  sent s hs := (h.sent s hs).imp_right (·.mono (h.ok.holds hstep))
  channels := h.channels
  dead := h.dead

/-- The calls under way do not count. -/
theorem Amqp.Inv.pending {A : Amqp} (h : A.Inv) (pending : List Pending) :
    Amqp.Inv { A with sys := { A.sys with pending } } where
  ok := ⟨h.ok.schema, h.ok.printed, h.ok.rows, h.ok.reading⟩
  told := h.told
  sent := h.sent
  channels := h.channels
  dead := h.dead

/-- One connection changes, and the messages sent on it keep their places. -/
theorem Amqp.Inv.update {A : Amqp} (h : A.Inv) {c : Nat} {conn : Conn}
    (hplaced : ∀ s : Sent, s.Placed (A.conns c) A.sys → s.Placed conn A.sys)
    (hdead : conn.alive = false → conn.buffer = []) :
    Amqp.Inv { A with conns := Function.update A.conns c conn } where
  ok := h.ok
  told := h.told
  sent s hs := by
    obtain ⟨hopened, hs⟩ := h.sent s hs
    refine ⟨hopened, ?_⟩
    by_cases hc : s.conn = c
    · rw [hc] at hs
      simpa [hc] using hplaced s hs
    · simpa [Function.update_of_ne hc] using hs
  channels := h.channels
  dead c' halive := by
    dsimp only at halive ⊢
    by_cases hc : c' = c
    · subst hc
      rw [Function.update_self] at halive ⊢
      exact hdead halive
    · rw [Function.update_of_ne hc] at halive ⊢
      exact h.dead c' halive

theorem Amqp.Inv.connected {A : Amqp} (h : A.Inv) (r : Nat) :
    Amqp.Inv { A with
      conns := Function.update A.conns A.opened ⟨true, [], 0⟩
      opened := A.opened + 1
      getChannel := Function.update A.getChannel r (some A.opened) } where
  ok := h.ok
  told := h.told
  sent s hs := by
    obtain ⟨hopened, hs⟩ := h.sent s hs
    refine ⟨Nat.lt_succ_of_lt hopened, ?_⟩
    simpa [Function.update_of_ne hopened.ne] using hs
  channels r' c hc := by
    dsimp only at hc ⊢
    rw [Function.update_apply] at hc
    split_ifs at hc
    · obtain rfl := Option.some.inj hc
      exact Nat.lt_succ_self _
    · exact Nat.lt_succ_of_lt (h.channels r' c hc)
  dead c halive := by
    dsimp only at halive ⊢
    by_cases hc : c = A.opened
    · simp [hc] at halive
    · rw [Function.update_of_ne hc] at halive ⊢
      exact h.dead c halive

/-- A message goes to the end of a buffer, or nowhere. -/
theorem Amqp.Inv.sendToQueue {A : Amqp} (h : A.Inv) (c : Nat) (m : PurchaseWriteEntry) :
    (A.sendToQueue c m).Inv := by
  unfold Amqp.sendToQueue
  split
  · rename_i halive
    refine h.update (fun s hs => hs.imp_right (.imp_right ?_)) fun hdead => by simp [halive] at hdead
    rintro ⟨ahead, hdue, hbuf | hdead⟩
    · refine ⟨ahead, hdue, .inl ?_⟩
      exact (List.getElem?_append_left (List.getElem?_eq_some_iff.1 hbuf).1).trans hbuf
    · simp [halive] at hdead
  · exact h

/-- A call waits whose message has just been written to its connection. -/
theorem Amqp.Inv.waits {A : Amqp} (h : A.Inv) (i : Nat) (p : Pending) {c : Nat} (hc : c < A.opened) :
    Amqp.Inv { A.sendToQueue c p.message with
      sys := { A.sys with pending := A.sys.pending.eraseIdx i }
      sent := A.sent ++ [⟨p, c, (A.conns c).taken + (A.conns c).buffer.length + 1, true⟩] } := by
  obtain ⟨-, -, hsent, hchannels, hdead⟩ := h.sendToQueue c p.message
  have hopened : (A.sendToQueue c p.message).opened = A.opened := by unfold Amqp.sendToQueue; split <;> rfl
  have hsys : (A.sendToQueue c p.message).sys = A.sys := by unfold Amqp.sendToQueue; split <;> rfl
  have hlist : (A.sendToQueue c p.message).sent = A.sent := by unfold Amqp.sendToQueue; split <;> rfl
  refine ⟨(h.pending _).ok, h.told, fun s hs => ?_, hchannels, hdead⟩
  rcases List.mem_append.1 hs with hs | hs
  · obtain ⟨hlt, hplaced⟩ := hsent s (hlist ▸ hs)
    exact ⟨hlt, hsys ▸ hplaced⟩
  · obtain rfl := List.mem_singleton.1 hs
    refine ⟨hopened ▸ hc, .inr ⟨rfl, (A.conns c).buffer.length, ?_⟩⟩
    dsimp only
    unfold Amqp.sendToQueue
    split
    · simp
    · rename_i hdead
      exact ⟨rfl, .inr (by simpa using hdead)⟩

/-- What was in the buffer of a connection that dies is lost. -/
theorem Amqp.Inv.fails {A : Amqp} (h : A.Inv) (c : Nat) :
    Amqp.Inv { A with conns := Function.update A.conns c { A.conns c with alive := false, buffer := [] } } := by
  refine h.update (fun s hs => hs.imp_right (.imp_right ?_)) fun _ => rfl
  rintro ⟨ahead, hdue, -⟩
  exact ⟨ahead, hdue, .inr rfl⟩

/-- The broker takes a message, and its buyer is held. -/
theorem Amqp.Inv.receives {A : Amqp} (h : A.Inv) {c : Nat} {m : PurchaseWriteEntry} {rest : List PurchaseWriteEntry}
    (hbuffer : (A.conns c).buffer = m :: rest) :
    Amqp.Inv { A with
      sys := { A.sys with queue := A.sys.queue ++ [m] }
      conns := Function.update A.conns c { A.conns c with buffer := rest, taken := (A.conns c).taken + 1 } } := by
  have hmono (u : Uuid) : (A.sys.books u).held ⊆ (System.books { A.sys with queue := A.sys.queue ++ [m] } u).held :=
    Books.held_mono subset_rfl (mailOf_subset (List.subset_append_left _ _) u) subset_rfl
  have hqueued : Amqp.Inv { A with sys := { A.sys with queue := A.sys.queue ++ [m] } } :=
    ⟨⟨h.ok.schema, h.ok.printed, h.ok.rows, h.ok.reading⟩, fun u => (h.told u).trans (hmono u),
      fun s hs => (h.sent s hs).imp_right (·.mono fun hheld => hmono _ hheld), h.channels, h.dead⟩
  refine hqueued.update (fun s hs => ?_) fun hdead => ?_
  · rcases hs with ⟨hdue, hheld⟩ | ⟨hwaits, ahead, hdue, hbuf | hdead⟩
    · exact .inl ⟨hdue.trans (Nat.le_succ _), hheld⟩
    · rw [hbuffer] at hbuf
      cases ahead with
      | zero =>
        -- It is the one that the broker took.
        obtain rfl := Option.some.inj hbuf
        refine .inl ⟨hdue.le, Books.mem_held.2 (.inr (.inl ?_))⟩
        exact mem_mailOf.2 ⟨_, List.mem_append_right _ List.mem_cons_self, rfl, rfl⟩
      | succ ahead =>
        refine .inr ⟨hwaits, ahead, hdue.trans ?_, .inl hbuf⟩
        dsimp only
        omega
    · rw [h.dead c hdead] at hbuffer
      cases hbuffer
  · rw [h.dead c hdead] at hbuffer
    cases hbuffer

/-- `drain` wakes calls, and the broker has taken the messages of these. -/
theorem Amqp.Inv.drain {A : Amqp} (h : A.Inv) {c : Nat}
    (hread : ∀ s ∈ A.sent, s.conn = c → s.waiting = true → s.due ≤ (A.conns c).taken) :
    Amqp.Inv { A with sent := A.sent.map fun s => if s.conn = c then { s with waiting := false } else s } where
  ok := h.ok
  told := h.told
  sent s hs := by
    obtain ⟨s', hs', rfl⟩ := List.mem_map.1 hs
    obtain ⟨hlt, hplaced⟩ := h.sent s' hs'
    split
    · rename_i hc
      refine ⟨hlt, .inl ?_⟩
      rcases hplaced with htaken | ⟨hwaits, ahead, hdue, -⟩
      · exact htaken
      · have hle := hread s' hs' hc hwaits
        rw [hc] at hdue
        omega
    · exact ⟨hlt, hplaced⟩
  channels := h.channels
  dead := h.dead

/-- A call that does not wait any more has its message with the broker. -/
theorem Amqp.Inv.answers {A : Amqp} (h : A.Inv) {k : Nat} {s : Sent} (hk : A.sent[k]? = some s)
    (hwoken : s.waiting = false) :
    Amqp.Inv { A with
      sent := A.sent.eraseIdx k
      sys := { A.sys with answers := A.sys.answers ++ [s.call.answer (.ok SUCCESS_RESULT)] } } where
  ok := ⟨h.ok.schema, h.ok.printed, h.ok.rows, h.ok.reading⟩
  told u := by
    have hheld : A.sys.holds s.call := by
      rcases (h.sent s (List.mem_of_getElem? hk)).2 with ⟨-, hheld⟩ | ⟨hwaits, -⟩
      · exact hheld
      · rw [hwoken] at hwaits
        cases hwaits
    change toldOf (A.sys.answers ++ [_]) u ⊆ _
    rw [toldOf_append]
    apply Finset.union_subset (h.told u)
    by_cases hu : Uuid.ofText s.call.saleId = u
    · subst hu
      have htold : toldOf [s.call.answer (.ok SUCCESS_RESULT)] (.ofText s.call.saleId) =
          {normalizeEmail s.call.email} := by
        simp [toldOf, Pending.answer, Answer.isSuccess, SUCCESS_RESULT]
      rw [htold]
      exact Finset.singleton_subset_iff.2 hheld
    · rw [toldOf_other (a := s.call.answer _) hu]
      exact Finset.empty_subset _
  sent t ht := h.sent t (List.eraseIdx_subset ht)
  channels := h.channels
  dead := h.dead

/-- Every step that meets the condition keeps the invariant. -/
theorem Amqp.Inv.step {A A' : Amqp} {f : Frame} (h : A.Inv) (hconfirmed : Confirmed A f) (hstep : astep A f = some A') :
    A'.Inv := by
  cases f with
  | connected r =>
    obtain rfl := Option.some.inj hstep
    exact h.connected r
  | fails c =>
    simp only [astep] at hstep
    split at hstep
    · obtain rfl := Option.some.inj hstep
      exact h.fails c
    · cases hstep
  | onDown r c =>
    simp only [astep] at hstep
    split at hstep
    · obtain rfl := Option.some.inj hstep
      refine ⟨h.ok, h.told, h.sent, fun r' c' hc' => ?_, h.dead⟩
      dsimp only at hc'
      split_ifs at hc'
      · rw [Function.update_apply] at hc'
        split_ifs at hc'
        exact h.channels r' c' hc'
      · exact h.channels r' c' hc'
    · cases hstep
  | send i ok =>
    simp only [astep] at hstep
    split at hstep
    · rename_i p hi
      split at hstep
      · obtain rfl := Option.some.inj hstep
        unfold Amqp.publish
        cases hchannel : A.getChannel p.replica with
        | none => exact h.pending _
        | some c =>
          cases ok with
          | true => simp [hconfirmed rfl p hi] at hchannel
          | false => exact h.waits i p (h.channels _ _ hchannel)
      · cases hstep
    · cases hstep
  | throws i =>
    simp only [astep] at hstep
    split at hstep
    · split at hstep
      · obtain rfl := Option.some.inj hstep
        exact h.pending _
      · cases hstep
    · cases hstep
  | receives c =>
    simp only [astep] at hstep
    split at hstep
    · rename_i hbuffer
      obtain rfl := Option.some.inj hstep
      exact h.receives hbuffer
    · cases hstep
  | drain c =>
    obtain rfl := Option.some.inj hstep
    exact h.drain hconfirmed
  | answers k =>
    simp only [astep] at hstep
    split at hstep
    · rename_i s hk
      split at hstep
      · cases hstep
      · rename_i hwoken
        obtain rfl := Option.some.inj hstep
        exact h.answers hk (by simpa using hwoken)
    · cases hstep
  | act a =>
    cases a with
    | publish => cases hstep
    | _ =>
      simp only [astep, Option.map_eq_some_iff] at hstep
      obtain ⟨sys, hs, rfl⟩ := hstep
      exact h.act hs

/-! ## Main theorem -/

/-- In a run where no `sendToQueue` returns true, and where `drain` comes after the
broker has read what had been written for the calls it wakes, every buyer told of
success has a row, or a message that the broker holds, whatever connections fail
and when. -/
theorem success_durable {S : System} (hok : S.Ok) (hanswers : S.answers = []) {A : Amqp}
    (h : Steps astep Confirmed (.start S) A) {u : Uuid} {b : String} (hb : b ∈ toldOf A.sys.answers u) :
    b ∈ A.sys.db.buyers u ∨ b ∈ mailOf A.sys.queue u ∨ b ∈ mailOf A.sys.dead u := by
  have h0 : (Amqp.start S).Inv := by
    refine ⟨hok, fun u => ?_, fun s hs => (List.not_mem_nil hs).elim, fun r c hc => ?_, fun c _ => rfl⟩
    · change toldOf S.answers u ⊆ _
      rw [hanswers]
      exact Finset.empty_subset _
    · cases hc
  exact Books.mem_held.1 ((h.inv h0 fun _ _ _ hI hconfirmed hstep => hI.step hconfirmed hstep).told u hb)

/-! ## Runs -/

/-- Ann's call waits for `drain` and answers after the broker took her message,
and the connection dies then; Bob's call finds no channel and writes its row. -/
theorem success_durable_demo : ∃ A, Steps astep Confirmed (.start (demoSystem 2)) A ∧
    toldOf A.sys.answers demoId = {"ann@example.com", "bob@example.com"} ∧
    ∀ b ∈ toldOf A.sys.answers demoId,
      b ∈ A.sys.db.buyers demoId ∨ b ∈ mailOf A.sys.queue demoId ∨ b ∈ mailOf A.sys.dead demoId := by
  obtain ⟨A, hrun, htold⟩ : ∃ A, Steps astep Confirmed (.start (demoSystem 2)) A ∧
      toldOf A.sys.answers demoId = {"ann@example.com", "bob@example.com"} :=
    Steps.exists_of_run
      [.connected 0, .act (.attempt 0 demoId.text "ann@example.com" 5 .answered), .send 0 false, .receives 0,
        .drain 0, .answers 0, .fails 0, .onDown 0 0,
        .act (.attempt 0 demoId.text "bob@example.com" 6 .answered), .send 0 true, .act (.write 0 7000 .runs)]
      (by decide +kernel)
  exact ⟨A, hrun, htold, fun _ hb => success_durable (demoSystem_loaded 2).ok rfl hrun hb⟩

/-- Ann is told of success while her message is in the write buffer; the
connection dies, and nothing is left of her purchase but her spent unit. -/
theorem success_lost_with_connection : ∃ A, Steps astep (fun _ _ => True) (.start (demoSystem 2)) A ∧
    toldOf A.sys.answers demoId = {"ann@example.com"} ∧ A.sys.db.buyers demoId = ∅ ∧
    mailOf A.sys.queue demoId = ∅ ∧ mailOf A.sys.dead demoId = ∅ ∧ A.sys.pending = [] ∧ A.sent = [] ∧
    "ann@example.com" ∈ (A.sys.redis demoId.text).saleBuyers := by
  refine Steps.exists_of_run
    [.connected 0, .act (.attempt 0 demoId.text "ann@example.com" 5 .answered), .send 0 true, .fails 0]
    (by decide +kernel)

end FlashSale
