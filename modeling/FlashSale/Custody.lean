import FlashSale.Deployment
import FlashSale.Wire
import FlashSale.Progress
import FlashSale.Gate
/-!
# Where a message is

In every run of the deployment, whatever crashes, each message that was queued
is in one place: ready, with one worker, let go on an ack, or dead-lettered.
What was let go on an ack has its row in Postgres. And the run is a run of the
system of `System.lean`, whose broker never forgets a message, so what holds of
that system's runs holds of the deployment.
-/

namespace FlashSale
open Lib.Runs Lib.Parts

/-! ## What a drain loop keeps of its log -/

section
variable {β ε : Type} {o : DrainOptions β ε} {d d' : Drain β ε} {done : List (FinishedBatch β ε)}
  {taken : List (List (Delivery β))}

/-- Between deliveries and writes the loop takes no delivery and makes no call. -/
theorem Drain.Step.own {a : DrainAction β} (h : d.Step o a d') (ha : a.isOwn = true) :
    d'.accepted = d.accepted ∧ d'.ignored = d.ignored ∧ d'.calls = d.calls := by
  cases h with
  | ignored | kept | writeResolves | writeRetries | writeGivesUp => cases ha
  | _ => exact ⟨rfl, rfl, rfl⟩

/-- A delivery is kept or ignored. -/
theorem Drain.Step.delivery {content : β} (h : d.Step o (.deliver content) d') :
    d'.calls = d.calls ∧
      (d'.accepted = d.accepted ++ [⟨d.delivered, content⟩] ∧ d'.ignored = d.ignored ∨
        d'.accepted = d.accepted ∧ d'.ignored = d.ignored ++ [⟨d.delivered, content⟩]) := by
  cases h with
  | ignored => exact ⟨rfl, .inr ⟨rfl, rfl⟩⟩
  | kept => exact ⟨rfl, .inl ⟨rfl, rfl⟩⟩

theorem Drain.Step.resolved {f : Flushing β ε} (hf : d.flushing = some f) (h : d.Step o .writeResolves d') :
    d'.accepted = d.accepted ∧ d'.ignored = d.ignored ∧ d'.calls = d.calls ++ [⟨f.number, f.entries, true⟩] := by
  cases h with
  | @writeResolves f' hf' =>
    obtain rfl := Option.some.inj (hf.symm.trans hf')
    obtain ⟨acked, heq⟩ := d.writeResolves_eq f
    rw [heq]
    exact ⟨rfl, rfl, rfl⟩

theorem Drain.Step.failed {f : Flushing β ε} (hf : d.flushing = some f) (h : d.Step o .writeRejects d') :
    d'.accepted = d.accepted ∧ d'.ignored = d.ignored ∧ d'.calls = d.calls ++ [⟨f.number, f.entries, false⟩] := by
  cases h with
  | writeRetries hf' | writeGivesUp hf' =>
    obtain rfl := Option.some.inj (hf.symm.trans hf')
    exact ⟨rfl, rfl, rfl⟩

theorem Drain.Logged.accepted_tag (h : d.Logged o done taken) {msg msg' : Delivery β} (hm : msg ∈ d.accepted)
    (hm' : msg' ∈ d.accepted) (htag : msg.tag = msg'.tag) : msg = msg' := by
  refine List.inj_on_of_nodup_map (f := (·.tag)) ?_ hm hm' htag
  change (tagsOf d.accepted).Nodup
  rw [h.tags]
  exact List.nodup_range

/-- A delivery that was settled is one that was kept. -/
theorem Drain.Logged.settled_accepted (h : d.Logged o done taken) {msg : Delivery β}
    (ht : msg.tag ∈ d.acked ∨ msg.tag ∈ d.nacked) (hm : msg ∈ d.accepted ∨ msg ∈ d.ignored) : msg ∈ d.accepted := by
  refine hm.resolve_right fun hi => ?_
  have hle := (h.ignored msg hi).1
  have hmem : msg.tag ∈ List.range d.accepted.length := by
    rw [← h.tags_eq, List.append_assoc]
    exact List.mem_append_left _ ((h.settled msg.tag).1 ht)
  have := List.mem_range.1 hmem
  omega

theorem Drain.Logged.batch_accepted (h : d.Logged o done taken) {i : Nat} {batch : List (Delivery β)}
    (hb : d.batches[i]? = some batch) {msg : Delivery β} (hm : msg ∈ batch) : msg ∈ d.accepted := by
  rw [← h.accepted]
  exact List.mem_append_left _ (List.mem_flatten.2 ⟨batch, List.mem_of_getElem? hb, hm⟩)

/-- An acked message is an entry of a call that resolved. -/
theorem Drain.Logged.acked_entry (h : d.Logged o done taken) {msg : Delivery β} (ht : msg.tag ∈ d.acked)
    (hm : msg ∈ d.accepted ∨ msg ∈ d.ignored) :
    ∃ c ∈ d.calls, c.resolved = true ∧ ∃ e ∈ c.entries, o.parse msg.content = some e := by
  obtain ⟨c, hc, hresolved, batch, hbatch, htag⟩ := h.acked_written ht
  obtain ⟨msg', hmem, hsame⟩ := List.mem_map.1 htag
  obtain rfl := h.accepted_tag (h.batch_accepted hbatch hmem) (h.settled_accepted (.inl ht) hm) hsame
  obtain ⟨batch', hbatch', hparsed⟩ := h.mem_calls hc
  obtain rfl := Option.some.inj (hbatch.symm.trans hbatch')
  exact ⟨c, hc, hresolved, mapM_mem hparsed hmem⟩

end

/-! ## What holds of a worker -/

section
variable {β : Type} {encode : PurchaseWriteEntry → β} {o : DrainOptions β PurchaseWriteEntry} {prefetch : Nat}

/-- A worker's log is one of its loop, what it kept was published, and what it
was told is written is in Postgres. -/
structure WorkerProcess.Ok (o : DrainOptions β PurchaseWriteEntry) (published : List β) (db : Db)
    (w : WorkerProcess β) : Prop where
  logged : ∃ done taken, w.drain.Logged o done taken
  unacked : ∀ msg ∈ w.unacked, msg ∈ w.drain.accepted ∨ msg ∈ w.drain.ignored
  accepted : ∀ msg ∈ w.drain.accepted, msg.content ∈ published
  written : ∀ c ∈ w.drain.calls, c.resolved = true → ∀ e ∈ c.entries, e.row.key ∈ db.pairs

variable {published published' : List β} {db db' : Db} {w : WorkerProcess β}

theorem WorkerProcess.start_ok : (⟨Drain.start β PurchaseWriteEntry, []⟩ : WorkerProcess β).Ok o published db where
  logged := ⟨[], [], Drain.start_logged⟩
  unacked := by simp
  accepted := by simp [Drain.start]
  written := by simp [Drain.start]

theorem WorkerProcess.Ok.mono (h : w.Ok o published db) (hpub : published ⊆ published') (hdb : db.pairs ⊆ db'.pairs) :
    w.Ok o published' db' where
  logged := h.logged
  unacked := h.unacked
  accepted msg hm := hpub (h.accepted msg hm)
  written c hc hr e he := hdb (h.written c hc hr e he)

theorem WorkerProcess.Ok.settle (h : w.Ok o published db) (tag : Nat) :
    WorkerProcess.Ok o published db { w with unacked := w.unacked.eraseP (·.tag = tag) } where
  logged := h.logged
  unacked msg hm := h.unacked msg (List.mem_of_mem_eraseP hm)
  accepted := h.accepted
  written := h.written

theorem WorkerProcess.Ok.own (h : w.Ok o published db) {a : DrainAction β} (ha : a.isOwn = true)
    {d : Drain β PurchaseWriteEntry} (hstep : w.drain.step o a = some d) :
    WorkerProcess.Ok o published db ⟨d, w.unacked⟩ := by
  have hs := Drain.Step.of_step hstep
  obtain ⟨haccepted, hignored, hcalls⟩ := hs.own ha
  obtain ⟨done, taken, hlog⟩ := h.logged
  exact ⟨hlog.step hs, by rw [haccepted, hignored]; exact h.unacked, by rw [haccepted]; exact h.accepted,
    by rw [hcalls]; exact h.written⟩

theorem WorkerProcess.Ok.deliver (h : w.Ok o published db) {content : β} (hc : content ∈ published)
    {d : Drain β PurchaseWriteEntry} (hstep : w.drain.step o (.deliver content) = some d) :
    WorkerProcess.Ok o published db ⟨d, w.unacked ++ [⟨w.drain.delivered, content⟩]⟩ := by
  have hs := Drain.Step.of_step hstep
  obtain ⟨done, taken, hlog⟩ := h.logged
  obtain ⟨hcalls, hkept⟩ := hs.delivery
  refine ⟨hlog.step hs, ?_, ?_, by rw [hcalls]; exact h.written⟩
  · rcases hkept with ⟨ha, hi⟩ | ⟨ha, hi⟩ <;> rw [ha, hi]
    · exact forall_concat (fun msg hm => (h.unacked msg hm).imp_left (List.mem_append_left _)) (.inl (by simp))
    · exact forall_concat (fun msg hm => (h.unacked msg hm).imp_right (List.mem_append_left _)) (.inr (by simp))
  · rcases hkept with ⟨ha, -⟩ | ⟨ha, -⟩ <;> rw [ha]
    · exact forall_concat h.accepted hc
    · exact h.accepted

/-- A call settles: if it resolved, its entries are in Postgres. -/
theorem WorkerProcess.Ok.called (h : w.Ok o published db) {d : Drain β PurchaseWriteEntry}
    {f : Flushing β PurchaseWriteEntry} {a : DrainAction β} {resolved : Bool} (hstep : w.drain.step o a = some d)
    (hdb : db.pairs ⊆ db'.pairs)
    (hd : d.accepted = w.drain.accepted ∧ d.ignored = w.drain.ignored ∧
      d.calls = w.drain.calls ++ [⟨f.number, f.entries, resolved⟩])
    (hwritten : resolved = true → pairsOf f.entries ⊆ db'.pairs) : WorkerProcess.Ok o published db' ⟨d, w.unacked⟩ := by
  obtain ⟨haccepted, hignored, hcalls⟩ := hd
  obtain ⟨done, taken, hlog⟩ := h.logged
  refine ⟨hlog.step (Drain.Step.of_step hstep), by rw [haccepted, hignored]; exact h.unacked,
    by rw [haccepted]; exact h.accepted, ?_⟩
  rw [hcalls]
  refine forall_concat (h.mono (List.Subset.refl _) hdb).written fun hr e he => ?_
  exact hwritten hr (mem_pairsOf.2 ⟨e, he, rfl⟩)

/-- What a worker writes was published. -/
theorem WorkerProcess.Ok.entries (h : w.Ok o published db) {f : Flushing β PurchaseWriteEntry}
    (hf : w.drain.flushing = some f) : f.entries ⊆ published.filterMap o.parse := by
  obtain ⟨done, taken, hlog⟩ := h.logged
  obtain ⟨-, hbatch, hparsed⟩ := hlog.current hf
  intro e he
  obtain ⟨msg, hm, hp⟩ := mem_mapM hparsed he
  exact List.mem_filterMap.2 ⟨msg.content, h.accepted msg (hlog.batch_accepted hbatch hm), hp⟩

theorem WorkerProcess.Ok.unwritten (h : w.Ok o published db) : contentsOf w.drain.unwritten ⊆ published := by
  obtain ⟨done, taken, hlog⟩ := h.logged
  intro c hc
  obtain ⟨msg, hm, rfl⟩ := List.mem_map.1 hc
  refine h.accepted msg ?_
  rcases List.mem_append.1 hm with hm | hm
  · cases hf : w.drain.flushing with
    | none => simp [hf] at hm
    | some f =>
      rw [hf] at hm
      exact hlog.batch_accepted (hlog.current hf).2.1 hm
  · rw [← hlog.accepted]
    exact List.mem_append_right _ hm

/-! ## What a batch leaves in Postgres -/

theorem writePurchaseBatch_grown (hs : db.Schema) (fate : TxFate) (entries : List PurchaseWriteEntry) :
    Grown db (writePurchaseBatch fate entries db).2 := by
  rcases writePurchaseBatch_sold hs fate entries with h | h
  · exact h.grown hs
  · rw [h]
    exact hs.grown

/-- When the writer hears of success, the rows of all entries are there. -/
theorem writePurchaseBatch_pairs (hs : db.Schema) {fate : TxFate} {entries : List PurchaseWriteEntry} {n : Nat}
    (h : writePurchaseBatch fate entries db = (.ok n, db')) : pairsOf entries ⊆ db'.pairs := by
  by_cases hnil : entries = []
  · simp [hnil, pairsOf]
  have hruns : writePurchaseBatch .runs entries db = (.ok n, db') := by
    simp only [writePurchaseBatch, if_neg hnil] at h ⊢
    cases fate with
    | runs => exact h
    | unreachable => simp [transaction] at h
    | replyLost => cases htx : writePurchaseBatchTx entries db <;> simp [transaction, htx] at h
  by_cases hr : Refused db entries
  · obtain ⟨e, he⟩ := writePurchaseBatch_throws hs hr
    simp [hruns] at he
  · obtain ⟨d, hd, hsold⟩ := writePurchaseBatch_commits hs hr
    obtain ⟨-, rfl⟩ := Prod.mk.inj (hruns.symm.trans hd)
    rw [hsold.pairs, newRows_pairs, newPairs, Finset.union_sdiff_self_eq_union]
    exact Finset.subset_union_right

/-! ## What holds of the deployment -/

/-- The messages that workers hold, for all the broker knows. -/
def Deployment.held (D : Deployment β) : List β := D.workers.flatMap fun w => contentsOf w.unacked

/-- Before the first worker connects. What waits already was published. -/
structure Deployment.Starts (encode : PurchaseWriteEntry → β) (D : Deployment β) : Prop where
  ok : D.front.Ok
  encoded : ∃ ms : List PurchaseWriteEntry, D.buffered ++ D.ready = ms.map encode
  dead : D.dead = []
  workers : D.workers = []
  lost : D.lost = []
  sent : D.sent = D.buffered ++ D.ready
  discarded : D.discarded = []
  published : D.published = D.ready
  acked : D.acked = []

structure Deployment.Ok (encode : PurchaseWriteEntry → β) (o : DrainOptions β PurchaseWriteEntry)
    (D : Deployment β) : Prop where
  front : D.front.Ok
  encoded : ∃ ms : List PurchaseWriteEntry, D.sent = ms.map encode
  workers : ∀ w ∈ D.workers, w.Ok o D.published D.db
  lost : ∀ held ∈ D.lost, held ⊆ D.published
  /-- Each message that was sent is in a buffer, lost, or the broker took it. -/
  handed : D.sent.Perm (D.buffered ++ (D.discarded ++ D.published))
  /-- Each message that the broker took is in one place. -/
  kept : D.published.Perm (D.held ++ (D.ready ++ (D.acked ++ D.dead)))
  recorded : ∀ c ∈ D.acked, ∃ e, o.parse c = some e ∧ e.row.key ∈ D.db.pairs

variable {D D' : Deployment β}

theorem Deployment.Starts.deployment_ok (h : D.Starts encode) : D.Ok encode o where
  front := h.ok
  encoded := h.sent ▸ h.encoded
  workers := by simp [h.workers]
  lost := by simp [h.lost]
  handed := by simp [h.sent, h.discarded, h.published]
  kept := by simp [Deployment.held, h.workers, h.published, h.acked, h.dead]
  recorded := by simp [h.acked]

theorem Deployment.Ok.schema (h : D.Ok encode o) : D.db.Schema := h.front.schema

theorem Deployment.Ok.published_sent (h : D.Ok encode o) : D.published ⊆ D.sent :=
  fun c hc => h.handed.mem_iff.2 (by simp [hc])

/-- A worker moves on, and nothing else does but the rows it wrote. -/
theorem Deployment.Ok.goOn (h : D.Ok encode o) {i : Nat} {w w' : WorkerProcess β} (hi : D.workers[i]? = some w)
    {db : Db} (hdb : Grown D.db db) (hw : w'.Ok o D.published db) (hsame : w'.unacked = w.unacked) :
    Deployment.Ok encode o { D with db := db, workers := D.workers.set i w' } where
  front := ⟨hdb.schema, h.front.printed, h.front.rows, h.front.reading⟩
  encoded := h.encoded
  workers := forall_set (fun z hz => (h.workers z hz).mono (List.Subset.refl _) hdb.pairs) hw
  lost := h.lost
  handed := h.handed
  kept := by
    have hheld : (D.workers.set i w').flatMap (contentsOf ·.unacked) |>.Perm D.held := by
      refine (flatMap_set_perm (contentsOf ·.unacked) hi w').trans ?_
      simp only [hsame]
      exact (flatMap_perm (contentsOf ·.unacked) hi).symm
    exact h.kept.trans (hheld.symm.append_right _)
  recorded c hc := by
    obtain ⟨e, he, hmem⟩ := h.recorded c hc
    exact ⟨e, he, hdb.pairs hmem⟩

/-- What worker `i` has unanswered, and what the others have. -/
theorem Deployment.held_perm {i : Nat} {w : WorkerProcess β} (hi : D.workers[i]? = some w) :
    D.held.Perm (contentsOf w.unacked ++ (D.workers.eraseIdx i).flatMap (contentsOf ·.unacked)) :=
  flatMap_perm (fun w : WorkerProcess β => contentsOf w.unacked) hi

theorem Deployment.Ok.step (h : D.Ok encode o) {a : DeploymentAction β} (hstep : D.Step encode o prefetch a D') :
    D'.Ok encode o := by
  classical
  have hkept := List.perm_iff_count.1 h.kept
  have hhanded := List.perm_iff_count.1 h.handed
  cases hstep with
  | @act a S hdrain hS =>
    obtain ⟨⟨new, hsold⟩, -, -⟩ := step_frame h.front hS
    have hgrown := hsold.grown h.front.schema
    have hok := h.front.step hS
    obtain ⟨ms, hms⟩ := h.encoded
    refine ⟨⟨hok.schema, hok.printed, hok.rows, hok.reading⟩, ⟨ms ++ S.queue, ?_⟩, ?_, h.lost, ?_, h.kept, ?_⟩
    · rw [List.map_append, ← hms]
      rfl
    · exact fun w hw => (h.workers w hw).mono (List.Subset.refl _) hgrown.pairs
    · refine List.perm_iff_count.2 fun c => ?_
      have := hhanded c
      simp only [Deployment.acted, List.count_append] at this ⊢
      omega
    · intro c hc
      obtain ⟨e, he, hmem⟩ := h.recorded c hc
      exact ⟨e, he, hgrown.pairs hmem⟩
  | @take k content hk =>
    obtain ⟨hlt, rfl⟩ := List.getElem?_eq_some_iff.1 hk
    refine ⟨h.front, h.encoded, ?_, ?_, ?_, ?_, h.recorded⟩
    · exact fun w hw => (h.workers w hw).mono (List.subset_append_left _ _) (Finset.Subset.refl _)
    · exact fun held hheld => List.Subset.trans (h.lost held hheld) (List.subset_append_left _ _)
    · refine List.perm_iff_count.2 fun c => ?_
      have htaken := (List.getElem_cons_eraseIdx_perm hlt).count_eq c
      have := hhanded c
      simp only [Deployment.take, List.count_append, List.count_cons, List.count_nil] at this htaken ⊢
      omega
    · refine List.perm_iff_count.2 fun c => ?_
      have := hkept c
      simp only [Deployment.take, Deployment.held, List.count_append] at this ⊢
      omega
  | @discard k content hk =>
    obtain ⟨hlt, rfl⟩ := List.getElem?_eq_some_iff.1 hk
    refine ⟨h.front, h.encoded, h.workers, h.lost, ?_, h.kept, h.recorded⟩
    refine List.perm_iff_count.2 fun c => ?_
    have htaken := (List.getElem_cons_eraseIdx_perm hlt).count_eq c
    have := hhanded c
    simp only [Deployment.discard, List.count_append, List.count_cons, List.count_nil] at this htaken ⊢
    omega
  | connect =>
    refine ⟨h.front, h.encoded, forall_concat h.workers WorkerProcess.start_ok, h.lost, h.handed, ?_, h.recorded⟩
    simpa [Deployment.held, contentsOf] using h.kept
  | @deliver i w content ready d hi hready _ hd =>
    have hw := h.workers w (List.mem_of_getElem? hi)
    have hpub : content ∈ D.published := h.kept.mem_iff.2 (by simp [hready])
    refine ⟨h.front, h.encoded, forall_set h.workers (hw.deliver hpub hd), h.lost, h.handed, ?_, h.recorded⟩
    refine List.perm_iff_count.2 fun c => ?_
    have hbefore := (Deployment.held_perm hi).count_eq c
    have hafter := (flatMap_set_perm (contentsOf ·.unacked) hi
      ⟨d, w.unacked ++ [⟨w.drain.delivered, content⟩]⟩).count_eq c
    have := hkept c
    simp only [Deployment.held, hready, contentsOf, List.map_append, List.map_cons, List.map_nil, List.count_append,
      List.count_cons, List.count_nil] at this hbefore hafter ⊢
    omega
  | @work i w a d hi ha hd =>
    exact h.goOn hi h.schema.grown ((h.workers w (List.mem_of_getElem? hi)).own ha hd) rfl
  | @wrote i w fate f n db d hi hf hwrite hd =>
    have hgrown := writePurchaseBatch_grown h.schema fate f.entries
    rw [hwrite] at hgrown
    have hs := Drain.Step.of_step hd
    refine h.goOn hi hgrown ((h.workers w (List.mem_of_getElem? hi)).called hd hgrown.pairs (hs.resolved hf) ?_) rfl
    exact fun _ => writePurchaseBatch_pairs h.schema hwrite
  | @failed i w fate f e db d hi hf hwrite hd =>
    have hgrown := writePurchaseBatch_grown h.schema fate f.entries
    rw [hwrite] at hgrown
    have hs := Drain.Step.of_step hd
    exact h.goOn hi hgrown ((h.workers w (List.mem_of_getElem? hi)).called hd hgrown.pairs (hs.failed hf) nofun) rfl
  | @acked i w msg hi hfind hacked =>
    have hw := h.workers w (List.mem_of_getElem? hi)
    refine ⟨h.front, h.encoded, forall_set h.workers (hw.settle msg.tag), h.lost, h.handed, ?_,
      forall_concat h.recorded ?_⟩
    · refine List.perm_iff_count.2 fun c => ?_
      have hbefore := (Deployment.held_perm hi).count_eq c
      have hafter := (flatMap_set_perm (contentsOf ·.unacked) hi
        { w with unacked := w.unacked.eraseP (·.tag = msg.tag) }).count_eq c
      have hsplit := ((find?_perm hfind).map (·.content)).count_eq c
      have := hkept c
      simp only [Deployment.held, contentsOf, List.map_cons, List.count_append, List.count_cons, List.count_nil] at *
      omega
    · obtain ⟨done, taken, hlog⟩ := hw.logged
      obtain ⟨call, hcall, hresolved, e, he, hparse⟩ :=
        hlog.acked_entry hacked (hw.unacked msg (List.mem_of_find?_eq_some hfind))
      exact ⟨e, hparse, hw.written call hcall hresolved e he⟩
  | @deadLettered i w msg hi hfind hnacked =>
    have hw := h.workers w (List.mem_of_getElem? hi)
    refine ⟨h.front, h.encoded, forall_set h.workers (hw.settle msg.tag), h.lost, h.handed, ?_, h.recorded⟩
    refine List.perm_iff_count.2 fun c => ?_
    have hbefore := (Deployment.held_perm hi).count_eq c
    have hafter := (flatMap_set_perm (contentsOf ·.unacked) hi
      { w with unacked := w.unacked.eraseP (·.tag = msg.tag) }).count_eq c
    have hsplit := ((find?_perm hfind).map (·.content)).count_eq c
    have := hkept c
    simp only [Deployment.held, contentsOf, List.map_cons, List.count_append, List.count_cons, List.count_nil] at *
    omega
  | @lose i w hi =>
    have hw := h.workers w (List.mem_of_getElem? hi)
    refine ⟨h.front, h.encoded, ?_, forall_concat h.lost hw.unwritten, h.handed, ?_, h.recorded⟩
    · exact fun z hz => h.workers z (List.mem_of_mem_eraseIdx hz)
    · refine List.perm_iff_count.2 fun c => ?_
      have hbefore := (Deployment.held_perm hi).count_eq c
      have := hkept c
      simp only [Deployment.lose, Deployment.held, List.count_append] at this hbefore ⊢
      omega
  | @stray i held entries fate hi hsub =>
    have hgrown := writePurchaseBatch_grown h.schema fate entries
    refine ⟨⟨hgrown.schema, h.front.printed, h.front.rows, h.front.reading⟩, h.encoded, ?_, h.lost, h.handed, h.kept,
      ?_⟩
    · exact fun w hw => (h.workers w hw).mono (List.Subset.refl _) hgrown.pairs
    · intro c hc
      obtain ⟨e, he, hmem⟩ := h.recorded c hc
      exact ⟨e, he, hgrown.pairs hmem⟩

end

/-! ## Main theorem -/

/-- Runs of the deployment with the messages as they are on the wire. -/
abbrev Deploys (batchSize maxAttempts prefetch : Nat) (ok : Deployment String → DeploymentAction String → Prop)
    (D D' : Deployment String) : Prop :=
  Steps (fun D a => D.step PurchaseWriteEntry.content (drainPurchaseWrites batchSize maxAttempts) prefetch a) ok D D'

/-- No batch of messages that can be read ends a worker's flushes. -/
theorem WorkerProcess.Ok.not_rejected {β : Type} {o : DrainOptions β PurchaseWriteEntry} {published : List β} {db : Db}
    {w : WorkerProcess β} (h : w.Ok o published db) (hread : ∀ c ∈ published, (o.parse c).isSome) :
    w.drain.rejected = false := by
  obtain ⟨done, taken, hlog⟩ := h.logged
  cases hr : w.drain.rejected with
  | false => rfl
  | true =>
    obtain ⟨batch, rfl, -, hnone⟩ := hlog.rejected hr
    have hall : ∀ msg ∈ batch, (o.parse msg.content).isSome := by
      intro msg hm
      refine hread _ (h.accepted msg ?_)
      rw [← hlog.accepted, hlog.batches]
      simp [hm]
    have hsome := isSome_mapM.2 hall
    simp [hnone] at hsome

theorem Deployment.ok_of_deploys {batchSize maxAttempts prefetch : Nat} {D D' : Deployment String}
    {ok : Deployment String → DeploymentAction String → Prop} (hstart : D.Starts PurchaseWriteEntry.content)
    (h : Deploys batchSize maxAttempts prefetch ok D D') :
    D'.Ok PurchaseWriteEntry.content (drainPurchaseWrites batchSize maxAttempts) :=
  h.inv hstart.deployment_ok fun _ _ _ hok _ hstep => hok.step (Deployment.Step.of_step hstep)

/-- Whatever the workers, the broker and Postgres do, and whenever a connection
closes: every message that was sent is in a write buffer, lost with one, or the
broker took it; every message that the broker took is in one place, held for a
worker, ready, let go on an ack or dead-lettered; one let go on an ack has its
row in Postgres; and no worker stops flushing. -/
theorem messages_kept {batchSize maxAttempts prefetch : Nat} {D D' : Deployment String}
    (hstart : D.Starts PurchaseWriteEntry.content)
    (h : Deploys batchSize maxAttempts prefetch (fun _ _ => True) D D') :
    D'.sent.Perm (D'.buffered ++ (D'.discarded ++ D'.published)) ∧
    D'.published.Perm (D'.held ++ (D'.ready ++ (D'.acked ++ D'.dead))) ∧
    (∀ c ∈ D'.sent, ∃ m : PurchaseWriteEntry, c = m.content) ∧
    (∀ m : PurchaseWriteEntry, m.content ∈ D'.acked → m.row.key ∈ D'.db.pairs) ∧
    ∀ w ∈ D'.workers, w.drain.rejected = false := by
  have hok := Deployment.ok_of_deploys hstart h
  obtain ⟨ms, hms⟩ := hok.encoded
  refine ⟨hok.handed, hok.kept, ?_, ?_, ?_⟩
  · intro c hc
    obtain ⟨m, -, rfl⟩ := List.mem_map.1 (hms ▸ hc)
    exact ⟨m, rfl⟩
  · intro m hm
    obtain ⟨e, he, hmem⟩ := hok.recorded _ hm
    rw [drainPurchaseWrites_parse] at he
    obtain rfl := Option.some.inj he
    exact hmem
  · intro w hw
    refine (hok.workers w hw).not_rejected fun c hc => ?_
    obtain ⟨m, -, rfl⟩ := List.mem_map.1 (hms ▸ hok.published_sent hc)
    rw [drainPurchaseWrites_parse]
    rfl

/-! ## A run -/

/-- Nothing connected yet, the demo sale warmed. -/
def demoDeployment (stock : Nat) : Deployment String where
  redis := warm 0 (demoDb stock) fun _ => .none
  db := demoDb stock
  caches := fun _ _ => none
  pending := []
  answers := []
  warm := .idle
  buffered := []
  ready := []
  dead := []
  workers := []
  lost := []
  sent := []
  discarded := []
  published := []
  acked := []

theorem demoDeployment_starts (stock : Nat) : (demoDeployment stock).Starts PurchaseWriteEntry.content where
  ok := (demoSystem_loaded stock).ok
  encoded := ⟨[], rfl⟩
  dead := rfl
  workers := rfl
  lost := rfl
  sent := rfl
  discarded := rfl
  published := rfl
  acked := rfl

/-- Two buyers are queued, and a third whose message is lost with the connection.
The worker writes both rows, but dies before the broker has handled its ack; the
next worker writes nothing new, and acks one. -/
def demoDelivery : List (DeploymentAction String) :=
  [.act (.attempt 0 demoId.text "ann@example.com" 5 .answered), .act (.publish 0 true), .take 0,
    .act (.attempt 1 demoId.text "Bob@example.com" 6 .answered), .act (.publish 0 true),
    .act (.attempt 0 demoId.text "cy@example.com" 7 .answered), .act (.publish 0 true), .discard 1, .take 0,
    .connect, .deliver 0, .deliver 0, .work 0 .flush, .write 0 .runs, .lose 0,
    .connect, .deliver 0, .deliver 0, .work 0 .flush, .write 0 .runs, .settle 0 0]

theorem demoDelivery_runs :
    ∃ D', Deploys 2 5 500 (FrontOnly (drainPurchaseWrites 2 5) (Decided demoId)) (demoDeployment 3) D' ∧
      (D'.acked.length = 1 ∧ D'.held.length = 1 ∧ (D'.db.purchasesOf demoId).length = 2 ∧ D'.answers.length = 3) :=
  Steps.exists_of_run demoDelivery (by decide +kernel)

theorem messages_kept_demo :
    ∃ D' : Deployment String, D'.acked.length = 1 ∧ D'.held.length = 1 ∧
      D'.sent.Perm (D'.buffered ++ (D'.discarded ++ D'.published)) ∧
      D'.published.Perm (D'.held ++ (D'.ready ++ (D'.acked ++ D'.dead))) := by
  obtain ⟨D', hrun, hacked, hheld, -⟩ := demoDelivery_runs
  have hany := hrun.imp (fun _ _ _ => trivial)
  obtain ⟨hhanded, hkept, -⟩ := messages_kept (demoDeployment_starts 3) hany
  exact ⟨D', hacked, hheld, hhanded, hkept⟩

end FlashSale
