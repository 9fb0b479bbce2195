import FlashSale.Drain
/-!
# How deliveries are settled

The log of a drain is the log of a list of finished batches, and of the one
batch that is not finished yet (`Drain.Logged`). A batch is finished by one
resolved call after fewer than `maxAttempts` rejected ones, or by `maxAttempts`
rejected ones; the rest of what the loop promises is read off that list.
-/

namespace FlashSale
open Lib.Runs

/-! ## The log, batch by batch -/

/-- A batch whose flush has returned: its calls, and how it was settled. -/
structure FinishedBatch (β ε : Type) where
  deliveries : List (Delivery β)
  entries : List ε
  rejections : Nat
  /-- Whether a last call resolved after the rejections. -/
  written : Bool

section
variable {β ε : Type}

def tagsOf (batch : List (Delivery β)) : List Nat := batch.map (·.tag)

def rejectedCalls (number : Nat) (entries : List ε) (n : Nat) : List (WriteCall ε) :=
  List.replicate n ⟨number, entries, false⟩

def FinishedBatch.calls (b : FinishedBatch β ε) (number : Nat) : List (WriteCall ε) :=
  rejectedCalls number b.entries b.rejections ++ if b.written then [⟨number, b.entries, true⟩] else []

/-- The calls of batches that are numbered from `number` on. -/
def callsFrom (number : Nat) : List (FinishedBatch β ε) → List (WriteCall ε)
  | [] => []
  | b :: done => b.calls number ++ callsFrom (number + 1) done

theorem callsFrom_concat (number : Nat) (done : List (FinishedBatch β ε)) (b : FinishedBatch β ε) :
    callsFrom number (done ++ [b]) = callsFrom number done ++ b.calls (number + done.length) := by
  induction done generalizing number with
  | nil => simp [callsFrom]
  | cons a done ih =>
    rw [List.cons_append, callsFrom, callsFrom, ih, List.append_assoc, List.length_cons]
    congr 3
    omega

theorem FinishedBatch.mem_calls {b : FinishedBatch β ε} {number : Nat} {c : WriteCall ε} (h : c ∈ b.calls number) :
    c.batch = number ∧ c.entries = b.entries := by
  rcases List.mem_append.1 h with h | h
  · obtain ⟨-, rfl⟩ := List.mem_replicate.1 h
    exact ⟨rfl, rfl⟩
  · split at h
    · obtain rfl := List.mem_singleton.1 h
      exact ⟨rfl, rfl⟩
    · cases h

theorem mem_callsFrom {number : Nat} {done : List (FinishedBatch β ε)} {c : WriteCall ε}
    (h : c ∈ callsFrom number done) : number ≤ c.batch := by
  induction done generalizing number with
  | nil => cases h
  | cons b done ih =>
    rcases List.mem_append.1 h with h | h
    · exact Nat.le_of_eq (FinishedBatch.mem_calls h).1.symm
    · exact Nat.le_of_succ_le (ih h)

/-- The calls for one of the batches. -/
theorem callsFrom_filter (number : Nat) (done : List (FinishedBatch β ε)) (i : Nat) :
    (callsFrom number done).filter (·.batch = number + i) =
      match done[i]? with
      | some b => b.calls (number + i)
      | none => [] := by
  induction done generalizing number i with
  | nil => rfl
  | cons b done ih =>
    rw [callsFrom, List.filter_append]
    cases i with
    | zero =>
      have hself : (b.calls number).filter (·.batch = number + 0) = b.calls number :=
        List.filter_eq_self.2 fun c hc => by simp [(FinishedBatch.mem_calls hc).1]
      have hrest : (callsFrom (number + 1) done).filter (·.batch = number + 0) = [] := by
        refine List.filter_eq_nil_iff.2 fun c hc => ?_
        have := mem_callsFrom hc
        simp only [decide_eq_true_eq]
        omega
      rw [hself, hrest]
      simp
    | succ i =>
      have hself : (b.calls number).filter (·.batch = number + (i + 1)) = [] := by
        refine List.filter_eq_nil_iff.2 fun c hc => ?_
        rw [(FinishedBatch.mem_calls hc).1]
        simp
      have hshift : number + (i + 1) = number + 1 + i := by omega
      rw [hself, hshift, ih]
      simp

/-- A batch is finished as the source finishes one. -/
structure FinishedBatch.Ok (o : DrainOptions β ε) (b : FinishedBatch β ε) : Prop where
  nonempty : b.deliveries ≠ []
  parsed : b.deliveries.mapM (o.parse ·.content) = some b.entries
  attempts : if b.written then b.rejections < o.maxAttempts else b.rejections = o.maxAttempts

/-- The calls of a flush that were rejected so far. -/
def Flushing.rejections (f : Flushing β ε) : Nat :=
  match f.awaits with
  | .writeBatch => f.attempt - 1
  | .sleep => f.attempt

def Drain.openCalls (d : Drain β ε) : List (WriteCall ε) :=
  match d.flushing with
  | some f => rejectedCalls f.number f.entries f.rejections
  | none => []

/-- A flush inside its retry loop is at an attempt it has. -/
structure Flushing.Ok (o : DrainOptions β ε) (f : Flushing β ε) : Prop where
  nonempty : f.batch ≠ []
  parsed : f.batch.mapM (o.parse ·.content) = some f.entries
  pos : 1 ≤ f.attempt
  le : f.attempt ≤ o.maxAttempts
  sleeps : f.awaits = .sleep → f.attempt < o.maxAttempts

/-- The log is that of the batches `done`, and of `taken`, the batch that was
taken last and is not finished, if there is one. -/
structure Drain.Logged (o : DrainOptions β ε) (d : Drain β ε) (done : List (FinishedBatch β ε))
    (taken : List (List (Delivery β))) : Prop where
  ok : ∀ b ∈ done, b.Ok o
  batches : d.batches = done.map (·.deliveries) ++ taken
  accepted : d.batches.flatten ++ d.pending = d.accepted
  tags : tagsOf d.accepted = List.range d.accepted.length
  calls : d.calls = callsFrom 0 done ++ d.openCalls
  acked : d.acked = (done.filter (·.written)).flatMap (tagsOf ·.deliveries)
  nacked : d.nacked = (done.filter (!·.written)).flatMap (tagsOf ·.deliveries)
  deadLettered : d.deadLettered = (done.filter (!·.written)).map (·.entries)
  idle : d.flushing = none → d.rejected = false → taken = []
  flushing : ∀ f, d.flushing = some f → f.Ok o ∧ f.number = done.length ∧ taken = [f.batch] ∧ d.rejected = false
  rejected : d.rejected = true → ∃ b, taken = [b] ∧ b ≠ [] ∧ b.mapM (o.parse ·.content) = none
  delivered : d.accepted.length ≤ d.delivered
  consuming : d.stopped = false → d.delivered = d.accepted.length
  ignored : ∀ msg ∈ d.ignored, d.accepted.length ≤ msg.tag ∧ d.stopped = true

/-! ### What an ack settles -/

theorem range_of_prefix {l : List Nat} {n : Nat} (h : l <+: List.range n) : l = List.range l.length := by
  have hlen := h.length_le
  rw [List.length_range] at hlen
  conv_lhs => rw [List.prefix_iff_eq_take.1 h, List.take_range, Nat.min_eq_left hlen]

/-- Numbers in order from 0: what comes up to the end of `b` and not in `a` is `b`. -/
theorem range_filter_notMem {a b c : List Nat} {n t : Nat} (h : a ++ b ++ c = List.range n)
    (hlast : b.getLast? = some t) : (List.range (t + 1)).filter (· ∉ a) = b := by
  obtain ⟨b', rfl⟩ := List.getLast?_eq_some_iff.1 hlast
  have hab := range_of_prefix (n := n) ⟨c, h⟩
  have ht : t + 1 = (a ++ (b' ++ [t])).length := by
    have hget := congrArg List.getLast? hab
    rw [← List.append_assoc, List.getLast?_concat, List.getLast?_range] at hget
    simp only [List.length_append, List.length_singleton] at hget ⊢
    split at hget
    · cases hget
    · have := Option.some.inj hget
      omega
  rw [ht, ← hab, List.filter_append]
  have hnodup : (a ++ (b' ++ [t])).Nodup := hab ▸ List.nodup_range
  obtain ⟨-, -, hdis⟩ := List.nodup_append.1 hnodup
  rw [List.filter_eq_nil_iff.2 (by simp), List.nil_append, List.filter_eq_self]
  intro x hx
  simp only [decide_eq_true_eq]
  exact fun ha => hdis x ha x hx rfl

variable {o : DrainOptions β ε} {d d' : Drain β ε} {done : List (FinishedBatch β ε)} {taken : List (List (Delivery β))}

/-- The settled deliveries are those of the finished batches. -/
theorem Drain.Logged.settled (h : d.Logged o done taken) (t : Nat) :
    t ∈ d.acked ∨ t ∈ d.nacked ↔ t ∈ done.flatMap (tagsOf ·.deliveries) := by
  rw [h.acked, h.nacked]
  simp only [List.mem_flatMap, List.mem_filter]
  constructor
  · rintro (⟨b, ⟨hb, -⟩, ht⟩ | ⟨b, ⟨hb, -⟩, ht⟩)
    · exact ⟨b, hb, ht⟩
    · exact ⟨b, hb, ht⟩
  · rintro ⟨b, hb, ht⟩
    cases hw : b.written with
    | true => exact .inl ⟨b, ⟨hb, hw⟩, ht⟩
    | false => exact .inr ⟨b, ⟨hb, by simp [hw]⟩, ht⟩

theorem Drain.Logged.tags_eq (h : d.Logged o done taken) :
    done.flatMap (tagsOf ·.deliveries) ++ taken.flatMap tagsOf ++ tagsOf d.pending =
      List.range d.accepted.length := by
  rw [← h.tags, ← h.accepted, h.batches]
  simp [tagsOf, List.flatMap_def, List.map_flatten, List.map_map, Function.comp_def]
  rfl

/-- An ack of the last delivery of the batch settles that batch. -/
theorem Drain.Logged.ackUpTo (h : d.Logged o done taken) {f : Flushing β ε} (hf : d.flushing = some f)
    {msg : Delivery β} (hlast : f.batch.getLast? = some msg) :
    (List.range (msg.tag + 1)).filter (fun t => t ∉ d.acked ∧ t ∉ d.nacked) = tagsOf f.batch := by
  obtain ⟨-, -, htaken, -⟩ := h.flushing f hf
  have htags := h.tags_eq
  rw [htaken, List.flatMap_singleton] at htags
  have hlast' : (tagsOf f.batch).getLast? = some msg.tag := by simp [tagsOf, hlast]
  rw [← range_filter_notMem htags hlast']
  refine List.filter_congr fun t _ => ?_
  rw [decide_eq_decide, ← not_or, h.settled]

theorem Drain.Logged.writeResolves (h : d.Logged o done taken) {f : Flushing β ε} (hf : d.flushing = some f) :
    d.writeResolves f = Drain.finish
      { d with calls := d.calls ++ [⟨f.number, f.entries, true⟩], acked := d.acked ++ tagsOf f.batch } := by
  obtain ⟨hok, -⟩ := h.flushing f hf
  have hlast := List.getLast?_eq_some_getLast hok.nonempty
  simp only [Drain.writeResolves, hlast, Drain.ackUpTo, h.ackUpTo hf hlast]

/-! ### Every step keeps the log -/

theorem Drain.start_logged : (Drain.start β ε).Logged o [] [] := by
  constructor <;> simp [Drain.start, tagsOf, callsFrom, Drain.openCalls]

/-- One more rejection. -/
theorem rejectedCalls_succ {number n : Nat} {entries : List ε} (hn : 1 ≤ n) :
    rejectedCalls number entries (n - 1) ++ [⟨number, entries, false⟩] = rejectedCalls number entries n := by
  obtain ⟨m, rfl⟩ : ∃ m, n = m + 1 := ⟨n - 1, by omega⟩
  rw [rejectedCalls, rejectedCalls, Nat.add_sub_cancel, List.replicate_succ']

/-- A batch that was taken and is finished goes from `taken` to `done`. -/
theorem Drain.Logged.finish (h : d.Logged o done taken) {b : FinishedBatch β ε} (hb : b.Ok o)
    (hbatches : d'.batches = done.map (·.deliveries) ++ [b.deliveries])
    (haccepted : d'.accepted = d.accepted) (hsplit : d'.batches.flatten ++ d'.pending = d.accepted)
    (hcalls : d'.calls = callsFrom 0 done ++ b.calls done.length)
    (hacked : d'.acked = d.acked ++ if b.written then tagsOf b.deliveries else [])
    (hnacked : d'.nacked = d.nacked ++ if b.written then [] else tagsOf b.deliveries)
    (hdead : d'.deadLettered = d.deadLettered ++ if b.written then [] else [b.entries])
    (hflushing : d'.flushing = none) (hrejected : d'.rejected = false)
    (hdelivered : d'.delivered = d.delivered) (hstopped : d'.stopped = d.stopped) (hignored : d'.ignored = d.ignored) :
    d'.Logged o (done ++ [b]) [] where
  ok a ha := by
    rcases List.mem_append.1 ha with ha | ha
    · exact h.ok a ha
    · exact List.mem_singleton.1 ha ▸ hb
  batches := by simp [hbatches]
  accepted := by rw [hsplit, haccepted]
  tags := by rw [haccepted, h.tags]
  calls := by
    rw [hcalls, callsFrom_concat, Nat.zero_add]
    simp [Drain.openCalls, hflushing]
  acked := by cases hw : b.written <;> simp [hacked, h.acked, hw, List.filter_append]
  nacked := by cases hw : b.written <;> simp [hnacked, h.nacked, hw, List.filter_append]
  deadLettered := by cases hw : b.written <;> simp [hdead, h.deadLettered, hw, List.filter_append]
  idle _ _ := rfl
  flushing f hf := by rw [hflushing] at hf; cases hf
  rejected hr := by rw [hrejected] at hr; cases hr
  delivered := by rw [haccepted, hdelivered]; exact h.delivered
  consuming := by rw [haccepted, hdelivered, hstopped]; exact h.consuming
  ignored := by rw [haccepted, hstopped, hignored]; exact h.ignored

theorem Drain.Logged.calls_open (h : d.Logged o done taken) {f : Flushing β ε} (hf : d.flushing = some f) :
    d.calls = callsFrom 0 done ++ rejectedCalls f.number f.entries f.rejections := by
  have hcalls := h.calls
  rwa [Drain.openCalls, hf] at hcalls

/-- A flush that goes on keeps its batch. -/
theorem Drain.Logged.goesOn (h : d.Logged o done taken) {f f' : Flushing β ε} (hf : d.flushing = some f)
    (hok : f'.Ok o) (hnumber : f'.number = f.number) (hbatch : f'.batch = f.batch) {calls : List (WriteCall ε)}
    (hcalls : calls = callsFrom 0 done ++ rejectedCalls f'.number f'.entries f'.rejections) :
    Drain.Logged o { d with calls := calls, flushing := some f' } done taken := by
  obtain ⟨-, hn, htaken, hr⟩ := h.flushing f hf
  refine { h with calls := hcalls, idle := ?_, flushing := ?_ }
  · intro hf'
    cases hf'
  · intro f₀ hf₀
    obtain rfl := Option.some.inj hf₀
    exact ⟨hok, hnumber.trans hn, by rw [hbatch, htaken], hr⟩

theorem Drain.Logged.step (h : d.Logged o done taken) {a : DrainAction β} (hstep : d.Step o a d') :
    ∃ done' taken', d'.Logged o done' taken' := by
  cases hstep with
  | @ignored content hs =>
    refine ⟨done, taken, { h with delivered := ?_, consuming := ?_, ignored := ?_ }⟩
    · exact Nat.le_succ_of_le h.delivered
    · intro hs'
      rw [show d.stopped = true from hs] at hs'
      cases hs'
    · intro msg hm
      rcases List.mem_append.1 hm with hm | hm
      · exact h.ignored msg hm
      · rw [List.mem_singleton.1 hm]
        exact ⟨h.delivered, hs⟩
  | @kept content timer chained hs _ =>
    have hd := h.consuming hs
    refine ⟨done, taken, { h with accepted := ?_, tags := ?_, delivered := ?_, consuming := ?_, ignored := ?_ }⟩
    · simp only [← h.accepted, List.append_assoc]
    · simp only [tagsOf, List.map_append, List.length_append, List.length_singleton, List.range_succ]
      rw [← tagsOf, h.tags, hd]
      rfl
    · simp only [List.length_append, List.length_singleton]
      omega
    · intro _
      simp only [List.length_append, List.length_singleton]
      omega
    · intro msg hm
      have := (h.ignored msg hm).2
      rw [hs] at this
      cases this
  | deliverNull => exact ⟨done, taken, h⟩
  | timer _ => exact ⟨done, taken, { h with }⟩
  | flushNothing hf _ _ _ =>
    refine ⟨done, taken, { h with calls := ?_, idle := fun _ => h.idle hf, flushing := ?_ }⟩
    · simpa [Drain.openCalls, Drain.finish, hf] using h.calls
    · intro f hf'
      cases hf'
  | flushThrows hf hr _ hp hnone =>
    have htaken := h.idle hf hr
    refine ⟨done, [d.pending], { h with
      batches := ?_, accepted := ?_, idle := ?_, flushing := ?_, rejected := ?_ }⟩
    · simp [h.batches, htaken]
    · simp [← h.accepted]
    · intro _ hr'
      cases hr'
    · intro f hf'
      rw [show d.flushing = some f from hf'] at hf
      cases hf
    · exact fun _ => ⟨d.pending, rfl, hp, hnone⟩
  | @flushGivesUp entries hf hr _ hp hparse hmax =>
    have htaken := h.idle hf hr
    have hb : FinishedBatch.Ok o ⟨d.pending, entries, 0, false⟩ := ⟨hp, hparse, by simp [hmax]⟩
    refine ⟨_, [], h.finish hb ?_ rfl ?_ ?_ ?_ rfl rfl rfl hr rfl rfl rfl⟩
    · simp [Drain.deadLetter, Drain.finish, h.batches, htaken]
    · simp [Drain.deadLetter, Drain.finish, ← h.accepted]
    · simpa [Drain.deadLetter, Drain.finish, FinishedBatch.calls, rejectedCalls, Drain.openCalls, hf] using h.calls
    · simp [Drain.deadLetter, Drain.finish]
  | @flushWrites entries hf hr _ hp hparse hmax =>
    have htaken := h.idle hf hr
    have hnumber : d.batches.length = done.length := by simp [h.batches, htaken]
    refine ⟨done, [d.pending], { h with
      batches := ?_, accepted := ?_, calls := ?_, idle := ?_, flushing := ?_, rejected := ?_ }⟩
    · simp [h.batches, htaken]
    · simp [← h.accepted]
    · simpa [Drain.openCalls, hf, Flushing.rejections, rejectedCalls] using h.calls
    · intro hf'
      cases hf'
    · intro f hf'
      obtain rfl := Option.some.inj hf'
      exact ⟨⟨hp, hparse, by simp, hmax, by simp⟩, hnumber, rfl, hr⟩
    · intro hr'
      rw [show d.rejected = true from hr'] at hr
      cases hr
  | @writeResolves f hf hw =>
    obtain ⟨hok, hnumber, htaken, hr⟩ := h.flushing f hf
    have hb : FinishedBatch.Ok o ⟨f.batch, f.entries, f.attempt - 1, true⟩ :=
      ⟨hok.nonempty, hok.parsed, by
        have := hok.pos
        have := hok.le
        simp only [if_true]
        omega⟩
    have hcalls := h.calls_open hf
    simp only [Flushing.rejections, hw] at hcalls
    rw [h.writeResolves hf]
    refine ⟨_, [], h.finish hb ?_ rfl ?_ ?_ ?_ ?_ ?_ rfl hr rfl rfl rfl⟩
    · simp [Drain.finish, h.batches, htaken]
    · simpa [Drain.finish] using h.accepted
    · simp [Drain.finish, hcalls, FinishedBatch.calls, hnumber]
    · simp [Drain.finish]
    · simp [Drain.finish]
    · simp [Drain.finish]
  | @writeRetries f hf hw hlt =>
    obtain ⟨hok, -⟩ := h.flushing f hf
    have hcalls := h.calls_open hf
    simp only [Flushing.rejections, hw] at hcalls
    have hok' : Flushing.Ok o { f with awaits := .sleep } :=
      ⟨hok.nonempty, hok.parsed, hok.pos, hok.le, fun _ => hlt⟩
    refine ⟨done, taken, h.goesOn hf hok' rfl rfl ?_⟩
    simp only [Flushing.rejections, hcalls, List.append_assoc, rejectedCalls_succ hok.pos]
  | @writeGivesUp f hf hw hge =>
    obtain ⟨hok, hnumber, htaken, hr⟩ := h.flushing f hf
    have hb : FinishedBatch.Ok o ⟨f.batch, f.entries, f.attempt, false⟩ :=
      ⟨hok.nonempty, hok.parsed, Nat.le_antisymm hok.le hge⟩
    have hcalls := h.calls_open hf
    simp only [Flushing.rejections, hw] at hcalls
    refine ⟨_, [], h.finish hb ?_ rfl ?_ ?_ ?_ rfl rfl rfl hr rfl rfl rfl⟩
    · simp [Drain.deadLetter, Drain.finish, h.batches, htaken]
    · simpa [Drain.deadLetter, Drain.finish] using h.accepted
    · simp only [Drain.deadLetter, Drain.finish, hcalls, List.append_assoc, rejectedCalls_succ hok.pos,
        FinishedBatch.calls, ← hnumber]
      simp
    · simp [Drain.deadLetter, Drain.finish]
  | @wake f hf hs =>
    obtain ⟨hok, -⟩ := h.flushing f hf
    have hcalls := h.calls_open hf
    simp only [Flushing.rejections, hs] at hcalls
    have hok' : Flushing.Ok o { f with attempt := f.attempt + 1, awaits := .writeBatch } :=
      ⟨hok.nonempty, hok.parsed, Nat.succ_pos _, hok.sleeps hs, fun hs' => by cases hs'⟩
    exact ⟨done, taken, h.goesOn hf hok' rfl rfl hcalls⟩
  | stop =>
    refine ⟨done, taken, { h with consuming := ?_, ignored := ?_ }⟩
    · intro hs
      cases hs
    · exact fun msg hm => ⟨(h.ignored msg hm).1, rfl⟩
  | cancelled _ => exact ⟨done, taken, { h with }⟩
  | stopResolves _ _ => exact ⟨done, taken, { h with }⟩
  | stopRejects _ _ _ => exact ⟨done, taken, { h with }⟩

/-! ## Settling -/

/-- The calls made for batch `i`, with the one that is running. -/
def Drain.attempts (d : Drain β ε) (i : Nat) : Nat :=
  (d.calls.filter (·.batch = i)).length +
    if d.flushing.any fun f => f.number = i && f.awaits = .writeBatch then 1 else 0

/-- What the log has of batch `i`. -/
theorem Drain.Logged.getElem? (h : d.Logged o done taken) {i : Nat} {b : FinishedBatch β ε} (hb : done[i]? = some b) :
    d.batches[i]? = some b.deliveries ∧ d.calls.filter (·.batch = i) = b.calls i ∧
      d.flushing.any (fun f => f.number = i && f.awaits = .writeBatch) = false := by
  obtain ⟨hlt, -⟩ := List.getElem?_eq_some_iff.1 hb
  have hnumber : ∀ f, d.flushing = some f → f.number ≠ i := by
    intro f hf
    rw [(h.flushing f hf).2.1]
    omega
  refine ⟨?_, ?_, ?_⟩
  · rw [h.batches, List.getElem?_append_left (by simpa using hlt), List.getElem?_map, hb]
    rfl
  · have hopen : d.openCalls.filter (·.batch = i) = [] := by
      refine List.filter_eq_nil_iff.2 fun c hc => ?_
      unfold Drain.openCalls at hc
      split at hc
      · rename_i f hf
        obtain ⟨-, rfl⟩ := List.mem_replicate.1 hc
        simpa using hnumber f hf
      · cases hc
    have hfilter := callsFrom_filter 0 done i
    simp only [Nat.zero_add, hb] at hfilter
    rw [h.calls, List.filter_append, hopen, List.append_nil, hfilter]
  · rw [Option.any_eq_false]
    intro f hf
    simp [hnumber f hf]

theorem FinishedBatch.Ok.calls_length {b : FinishedBatch β ε} (h : b.Ok o) (i : Nat) :
    (b.calls i).length ≤ o.maxAttempts := by
  have := h.attempts
  unfold FinishedBatch.calls rejectedCalls
  cases hw : b.written with
  | true =>
    simp only [hw, if_true] at this
    simp
    omega
  | false =>
    simp only [hw, Bool.false_eq_true, if_false] at this
    simp
    omega

/-- The calls of a batch that is not finished are the open ones. -/
theorem Drain.Logged.unfinished (h : d.Logged o done taken) {i : Nat} (hi : done[i]? = none) :
    d.calls.filter (·.batch = i) = d.openCalls.filter (·.batch = i) := by
  have hfilter := callsFrom_filter 0 done i
  simp only [Nat.zero_add, hi] at hfilter
  rw [h.calls, List.filter_append, hfilter, List.nil_append]

theorem Drain.Logged.attempts_le (h : d.Logged o done taken) (i : Nat) : d.attempts i ≤ o.maxAttempts := by
  unfold Drain.attempts
  cases hb : done[i]? with
  | some b =>
    obtain ⟨-, hcalls, hidle⟩ := h.getElem? hb
    rw [hcalls, hidle]
    exact (h.ok b (List.mem_of_getElem? hb)).calls_length i
  | none =>
    rw [h.unfinished hb]
    unfold Drain.openCalls
    cases hf : d.flushing with
    | none => simp
    | some f =>
      obtain ⟨hok, -⟩ := h.flushing f hf
      have hle := hok.le
      have hpos := hok.pos
      have hlen := List.length_filter_le (·.batch = i) (rejectedCalls f.number f.entries f.rejections)
      simp only [rejectedCalls, List.length_replicate, Flushing.rejections] at hlen ⊢
      cases hw : f.awaits with
      | writeBatch =>
        simp only [hw] at hlen ⊢
        split <;> omega
      | sleep =>
        have hno : (some f).any (fun f => f.number = i && f.awaits = .writeBatch) = false := by simp [hw]
        simp only [hw, hno] at hlen ⊢
        simp only [Bool.false_eq_true, if_false]
        omega

/-- Every call carries the entries of its batch. -/
theorem Drain.Logged.mem_calls (h : d.Logged o done taken) {c : WriteCall ε} (hc : c ∈ d.calls) :
    ∃ batch, d.batches[c.batch]? = some batch ∧ batch.mapM (o.parse ·.content) = some c.entries := by
  have hmem : c ∈ d.calls.filter (·.batch = c.batch) := List.mem_filter.2 ⟨hc, by simp⟩
  cases hb : done[c.batch]? with
  | some b =>
    obtain ⟨hbatch, hcalls, -⟩ := h.getElem? hb
    rw [hcalls] at hmem
    refine ⟨b.deliveries, hbatch, ?_⟩
    rw [(FinishedBatch.mem_calls hmem).2]
    exact (h.ok b (List.mem_of_getElem? hb)).parsed
  | none =>
    rw [h.unfinished hb] at hmem
    have hopen := (List.mem_filter.1 hmem).1
    unfold Drain.openCalls at hopen
    split at hopen
    · rename_i f hf
      obtain ⟨hok, hnumber, htaken, -⟩ := h.flushing f hf
      obtain ⟨-, rfl⟩ := List.mem_replicate.1 hopen
      exact ⟨f.batch, by simp [h.batches, htaken, hnumber], hok.parsed⟩
    · cases hopen

/-- A delivery of one of some finished batches. -/
theorem mem_flatMap_tagsOf {p : FinishedBatch β ε → Bool} {t : Nat}
    (ht : t ∈ (done.filter p).flatMap (tagsOf ·.deliveries)) :
    ∃ (i : Nat) (b : FinishedBatch β ε), done[i]? = some b ∧ p b = true ∧ t ∈ tagsOf b.deliveries := by
  obtain ⟨b, hb, ht⟩ := List.mem_flatMap.1 ht
  obtain ⟨hb, hp⟩ := List.mem_filter.1 hb
  obtain ⟨i, hi⟩ := List.getElem?_of_mem hb
  exact ⟨i, b, hi, hp, ht⟩

theorem Drain.Logged.nodup (h : d.Logged o done taken) : (d.acked ++ d.nacked).Nodup := by
  have hdone : (done.flatMap (tagsOf ·.deliveries)).Nodup := by
    have hrange : (List.range d.accepted.length).Nodup := List.nodup_range
    rw [← h.tags_eq, List.append_assoc] at hrange
    exact (List.nodup_append.1 hrange).1
  rw [h.acked, h.nacked, ← List.flatMap_append]
  refine (List.Perm.flatMap_right _ ?_).nodup_iff.2 hdone
  exact List.filter_append_perm (·.written) done

/-- The batches that were given up, by number. -/
theorem Drain.Logged.dead (h : d.Logged o done taken) :
    ∃ dead : List Nat, dead.Nodup ∧ d.nacked = dead.flatMap (fun i => tagsOf ((d.batches[i]?).getD [])) ∧
      d.deadLettered.map some = dead.map fun i => (d.batches[i]?).bind (·.mapM (o.parse ·.content)) := by
  set given := done.zipIdx.filter (fun p => !p.1.written) with hgiven
  have hfst : done.filter (!·.written) = given.map (·.1) := by
    conv_lhs => rw [← List.zipIdx_map_fst 0 done]
    rw [List.filter_map]
    rfl
  have hbatch : ∀ p ∈ given, d.batches[p.2]? = some p.1.deliveries ∧ p.1.Ok o := by
    intro p hp
    have hget := List.mem_zipIdx_iff_getElem?.1 (List.mem_filter.1 hp).1
    exact ⟨(h.getElem? hget).1, h.ok p.1 (List.mem_of_getElem? hget)⟩
  refine ⟨given.map (·.2), ?_, ?_, ?_⟩
  · have hnodup : (done.zipIdx.map (·.2)).Nodup := by
      rw [List.zipIdx_map_snd]
      exact List.nodup_range'
    exact hnodup.sublist (List.filter_sublist.map _)
  · rw [h.nacked, hfst, List.flatMap_map, List.flatMap_map]
    refine List.flatMap_congr fun p hp => ?_
    rw [(hbatch p hp).1]
    rfl
  · rw [h.deadLettered, hfst, List.map_map, List.map_map, List.map_map]
    refine List.map_congr_left fun p hp => ?_
    obtain ⟨hget, hok⟩ := hbatch p hp
    simp only [Function.comp, hget, Option.bind_some, hok.parsed]

/-- Every run of the loop keeps a log of finished batches. -/
theorem Drain.logged (h : Steps (fun d a => Drain.step o d a) (fun _ _ => True) (Drain.start β ε) d) :
    ∃ done taken, d.Logged o done taken :=
  h.inv (I := fun d => ∃ done taken, d.Logged o done taken) ⟨[], [], Drain.start_logged⟩
    fun _ _ _ ⟨_, _, hl⟩ _ hstep => hl.step (Drain.Step.of_step hstep)

theorem Drain.Logged.taken_length (h : d.Logged o done taken) : taken.length ≤ 1 := by
  cases hf : d.flushing with
  | some f => simp [(h.flushing f hf).2.2.1]
  | none =>
    cases hr : d.rejected with
    | true =>
      obtain ⟨b, rfl, -⟩ := h.rejected hr
      simp
    | false => simp [h.idle hf hr]

/-- The batches before the last one taken are settled. -/
theorem Drain.Logged.earlier (h : d.Logged o done taken) {i : Nat} {batch : List (Delivery β)}
    (hb : d.batches[i]? = some batch) (hi : i + 1 < d.batches.length) :
    ∀ msg ∈ batch, msg.tag ∈ d.acked ∨ msg.tag ∈ d.nacked := by
  intro msg hmsg
  have hlt : i < done.length := by
    have := h.taken_length
    simp only [h.batches, List.length_append, List.length_map] at hi
    omega
  have hget := (h.getElem? (List.getElem?_eq_getElem hlt)).1
  obtain rfl := Option.some.inj (hget.symm.trans hb)
  exact (h.settled msg.tag).2 (List.mem_flatMap.2 ⟨_, List.getElem_mem hlt, List.mem_map_of_mem hmsg⟩)

/-- An acked delivery is in a batch that was written, a nacked one in a batch
whose every attempt was made and rejected. -/
theorem Drain.Logged.acked_written (h : d.Logged o done taken) {t : Nat} (ht : t ∈ d.acked) :
    ∃ c ∈ d.calls, c.resolved = true ∧ ∃ batch, d.batches[c.batch]? = some batch ∧ t ∈ tagsOf batch := by
  rw [h.acked] at ht
  obtain ⟨i, b, hb, hw, hmem⟩ := mem_flatMap_tagsOf ht
  obtain ⟨hbatch, hcalls, -⟩ := h.getElem? hb
  have hc : (⟨i, b.entries, true⟩ : WriteCall ε) ∈ d.calls.filter (·.batch = i) := by
    rw [hcalls]
    simp [FinishedBatch.calls, hw]
  exact ⟨_, (List.mem_filter.1 hc).1, rfl, b.deliveries, hbatch, hmem⟩

theorem Drain.Logged.nacked_rejected (h : d.Logged o done taken) {t : Nat} (ht : t ∈ d.nacked) :
    ∃ i batch, d.batches[i]? = some batch ∧ t ∈ tagsOf batch ∧ d.attempts i = o.maxAttempts ∧
      (d.calls.filter (·.batch = i)).map (·.resolved) = List.replicate o.maxAttempts false := by
  rw [h.nacked] at ht
  obtain ⟨i, b, hb, hw, hmem⟩ := mem_flatMap_tagsOf ht
  obtain ⟨hbatch, hcalls, hidle⟩ := h.getElem? hb
  have hw : b.written = false := by simpa using hw
  have hmax : b.rejections = o.maxAttempts := by simpa [hw] using (h.ok b (List.mem_of_getElem? hb)).attempts
  have hall : (d.calls.filter (·.batch = i)).map (·.resolved) = List.replicate o.maxAttempts false := by
    rw [hcalls]
    simp [FinishedBatch.calls, rejectedCalls, hw, hmax]
  refine ⟨i, b.deliveries, hbatch, hmem, ?_, hall⟩
  have hlen := congrArg List.length hall
  rw [List.length_map, List.length_replicate] at hlen
  simp [Drain.attempts, hidle, hlen]

theorem Drain.Logged.current (h : d.Logged o done taken) {f : Flushing β ε} (hf : d.flushing = some f) :
    f.number + 1 = d.batches.length ∧ d.batches[f.number]? = some f.batch ∧
      f.batch.mapM (o.parse ·.content) = some f.entries := by
  obtain ⟨hok, hnumber, htaken, -⟩ := h.flushing f hf
  exact ⟨by simp [h.batches, htaken, hnumber], by simp [h.batches, htaken, hnumber], hok.parsed⟩

/-- Whatever arrives, fires, resolves or rejects, and in whatever order: the
batches are the deliveries kept, in order, each taken once and only when the one
before it is settled; every call for a batch carries its entries, and there are
at most `maxAttempts`; a delivery is acked only if a call for its batch
resolved, nacked only if all its attempts were made and rejected, and settled
once; and each batch given up is reported once, with its entries. -/
theorem drain_settles (h : Steps (fun d a => Drain.step o d a) (fun _ _ => True) (Drain.start β ε) d) :
    (d.batches.flatten ++ d.pending = d.accepted ∧ (tagsOf d.accepted).Nodup) ∧
    (∀ i batch, d.batches[i]? = some batch → i + 1 < d.batches.length →
      ∀ msg ∈ batch, msg.tag ∈ d.acked ∨ msg.tag ∈ d.nacked) ∧
    (∀ f, d.flushing = some f → f.number + 1 = d.batches.length ∧ d.batches[f.number]? = some f.batch ∧
      f.batch.mapM (o.parse ·.content) = some f.entries) ∧
    (∀ c ∈ d.calls, ∃ batch, d.batches[c.batch]? = some batch ∧ batch.mapM (o.parse ·.content) = some c.entries) ∧
    (∀ i, d.attempts i ≤ o.maxAttempts) ∧
    (∀ t ∈ d.acked, ∃ c ∈ d.calls, c.resolved = true ∧
      ∃ batch, d.batches[c.batch]? = some batch ∧ t ∈ tagsOf batch) ∧
    (∀ t ∈ d.nacked, ∃ i batch, d.batches[i]? = some batch ∧ t ∈ tagsOf batch ∧ d.attempts i = o.maxAttempts ∧
      (d.calls.filter (·.batch = i)).map (·.resolved) = List.replicate o.maxAttempts false) ∧
    (d.acked ++ d.nacked).Nodup ∧
    ∃ dead : List Nat, dead.Nodup ∧ d.nacked = dead.flatMap (fun i => tagsOf ((d.batches[i]?).getD [])) ∧
      d.deadLettered.map some = dead.map fun i => (d.batches[i]?).bind (·.mapM (o.parse ·.content)) := by
  obtain ⟨done, taken, hl⟩ := Drain.logged h
  refine ⟨⟨hl.accepted, ?_⟩, fun i batch hb hi => hl.earlier hb hi, fun f hf => hl.current hf,
    fun c hc => hl.mem_calls hc, hl.attempts_le, fun t ht => hl.acked_written ht, fun t ht => hl.nacked_rejected ht,
    hl.nodup, hl.dead⟩
  rw [hl.tags]
  exact List.nodup_range

end

/-! ## A run -/

/-- A loop that batches by two and makes two attempts; a message is its entry. -/
def twos : DrainOptions Nat Nat := ⟨some, 2, 2⟩

/-- Two deliveries make a batch that is written at its second attempt; a third,
flushed by its window, is given up. -/
def twosRun : List (DrainAction Nat) :=
  [.deliver 7, .deliver 8, .flush, .deliver 9, .writeRejects, .timer, .wake, .writeResolves, .flush, .writeRejects,
    .wake, .writeRejects]

theorem drain_settles_twos :
    ∃ d, Steps (fun d a => Drain.step twos d a) (fun _ _ => True) (Drain.start Nat Nat) d ∧ d.acked = [0, 1] ∧
      d.nacked = [2] ∧ d.deadLettered = [[9]] ∧ (d.acked ++ d.nacked).Nodup ∧ d.attempts 1 ≤ 2 := by
  obtain ⟨d, h, hacked, hnacked, hdead⟩ : ∃ d, Steps (fun d a => Drain.step twos d a) (fun _ _ => True)
      (Drain.start Nat Nat) d ∧ d.acked = [0, 1] ∧ d.nacked = [2] ∧ d.deadLettered = [[9]] :=
    Steps.exists_of_run twosRun (by decide +kernel)
  obtain ⟨-, -, -, -, hattempts, -, -, hnodup, -⟩ := drain_settles h
  exact ⟨d, h, hacked, hnacked, hdead, hnodup, hattempts 1⟩

end FlashSale
