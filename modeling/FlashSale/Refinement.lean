import FlashSale.Custody
/-!
# The deployment is a form of the system

The system of `System.lean` lets any messages of its queue be written at any
time. That is what the drain loops, their retries, redeliveries and crashes
come to: each step of the deployment is a step of the system whose queue keeps
all that was ever sent, or no step of it.
-/

namespace FlashSale
open Lib.Runs Lib.Parts

/-! ## A queue that is written to -/

/-- Only the drain reads the queue: the other steps put messages at its end. -/
theorem step_queue {S S' : System} {a : Action} (hdrain : a.isDrain = false) (h : step S a = some S')
    (queue : List PurchaseWriteEntry) :
    step { S with queue := queue ++ S.queue } a = some { S' with queue := queue ++ S'.queue } ∧ S'.dead = S.dead := by
  cases a with
  | attempt replica saleId email now link =>
    obtain rfl := Option.some.inj h
    simp only [step, stepAttempt, Option.some.injEq]
    rcases reserve link S.redis saleId email now with ⟨_ | code, redis⟩
    · exact ⟨rfl, rfl⟩
    · cases code <;> exact ⟨rfl, rfl⟩
  | publish i queued =>
    simp only [step] at h ⊢
    cases hi : S.pending[i]? with
    | none => simp [hi] at h
    | some p =>
      rw [hi] at h
      simp only [] at h ⊢
      split at h
      · rename_i hstage
        obtain rfl := Option.some.inj h
        rw [if_pos hstage]
        cases queued
        · exact ⟨rfl, rfl⟩
        · simp [stepPublish, System.finish]
      · cases h
  | lookup i pgUp now =>
    simp only [step] at h ⊢
    cases hi : S.pending[i]? with
    | none => simp [hi] at h
    | some p =>
      rw [hi] at h
      simp only [] at h ⊢
      split at h
      · rename_i hstage
        obtain rfl := Option.some.inj h
        rw [if_pos hstage]
        simp only [stepLookup, Option.some.injEq]
        rcases findRowById pgUp S.db (S.caches p.replica) p.saleId with ⟨_ | _ | row, cache⟩
        · exact ⟨rfl, rfl⟩
        · exact ⟨rfl, rfl⟩
        · dsimp only
          split <;> exact ⟨rfl, rfl⟩
      · cases h
  | write i dbNow fate =>
    simp only [step] at h ⊢
    cases hi : S.pending[i]? with
    | none => simp [hi] at h
    | some p =>
      rw [hi] at h
      simp only [] at h ⊢
      split at h
      · rename_i hstage
        obtain rfl := Option.some.inj h
        rw [if_pos hstage]
        exact ⟨rfl, rfl⟩
      · cases h
  | drain entries fate settled => cases hdrain
  | flush keys =>
    obtain rfl := Option.some.inj h
    exact ⟨rfl, rfl⟩
  | expire replica id =>
    obtain rfl := Option.some.inj h
    exact ⟨rfl, rfl⟩
  | warmRows now =>
    obtain rfl := Option.some.inj h
    exact ⟨rfl, rfl⟩
  | warmBuyers =>
    simp only [step] at h ⊢
    split at h
    · obtain rfl := Option.some.inj h
      exact ⟨rfl, rfl⟩
    · cases h
  | warmSync =>
    simp only [step] at h ⊢
    split at h
    · obtain rfl := Option.some.inj h
      exact ⟨rfl, rfl⟩
    · cases h
/-- A batch that is not settled is a write and nothing else. -/
theorem stepDrain_unsettled (S : System) (entries : List PurchaseWriteEntry) (fate : TxFate) :
    stepDrain S entries fate false = { S with db := (writePurchaseBatch fate entries S.db).2 } := by
  unfold stepDrain
  rcases writePurchaseBatch fate entries S.db with ⟨_ | _, db⟩ <;> rfl

/-! ## The simulation -/

section
variable {β : Type} {encode : PurchaseWriteEntry → β} {o : DrainOptions β PurchaseWriteEntry} {prefetch : Nat}
  {D D' : Deployment β}

/-- What a worker writes was sent. -/
theorem Deployment.Ok.entries_sent (h : D.Ok encode o) {i : Nat} {w : WorkerProcess β} (hi : D.workers[i]? = some w)
    {f : Flushing β PurchaseWriteEntry} (hf : w.drain.flushing = some f) :
    f.entries ⊆ D.sent.filterMap o.parse :=
  List.Subset.trans ((h.workers w (List.mem_of_getElem? hi)).entries hf) (List.filterMap_subset _ h.published_sent)

/-- A step of the front is that step of the system; a write that settles is a
batch of the system's that is not taken off its queue; all else is nothing. -/
theorem Deployment.Ok.step_system (h : D.Ok encode o) (hcodec : ∀ m, o.parse (encode m) = some m) {a : DeploymentAction β}
    (hstep : D.Step encode o prefetch a D') :
    D'.system o = D.system o ∨ (∃ b, a = .act b ∧ FlashSale.step (D.system o) b = some (D'.system o)) ∨
      ∃ entries fate, FlashSale.step (D.system o) (.drain entries fate false) = some (D'.system o) := by
  have hwrite (entries : List PurchaseWriteEntry) (fate : TxFate) (hsub : entries ⊆ D.sent.filterMap o.parse) :
      FlashSale.step (D.system o) (.drain entries fate false) =
        some { D.system o with db := (writePurchaseBatch fate entries D.db).2 } := by
    have hqueue : entries ⊆ (D.system o).queue := hsub
    simp only [FlashSale.step, if_pos hqueue, stepDrain_unsettled]
    rfl
  cases hstep with
  | @act a S hdrain hS =>
    refine .inr (.inl ⟨a, rfl, ?_⟩)
    obtain ⟨hstep, hdead⟩ := step_queue hdrain hS (D.sent.filterMap o.parse)
    have hqueue : (S.queue.map encode).filterMap o.parse = S.queue := by
      rw [List.filterMap_map]
      have : o.parse ∘ encode = some := funext hcodec
      rw [this, List.filterMap_some]
    have hfront : { D.front with queue := D.sent.filterMap o.parse ++ D.front.queue } = D.system o := by
      simp [Deployment.system, Deployment.front]
    rw [hfront] at hstep
    rw [hstep]
    simp only [Deployment.system, Deployment.acted, Deployment.front, List.filterMap_append, hqueue] at hdead ⊢
    rw [← hdead]
  | take | discard | connect | deliver | work | acked | deadLettered | lose => exact .inl rfl
  | @wrote i w fate f n db d hi hf hdb _ =>
    refine .inr (.inr ⟨f.entries, fate, ?_⟩)
    rw [hwrite f.entries fate (h.entries_sent hi hf), hdb]
    rfl
  | @failed i w fate f e db d hi hf hdb _ =>
    refine .inr (.inr ⟨f.entries, fate, ?_⟩)
    rw [hwrite f.entries fate (h.entries_sent hi hf), hdb]
    rfl
  | @stray i held entries fate hi hsub =>
    refine .inr (.inr ⟨entries, fate, ?_⟩)
    have hheld := List.Subset.trans (h.lost held (List.mem_of_getElem? hi)) h.published_sent
    rw [hwrite entries fate (List.Subset.trans hsub (List.filterMap_subset _ hheld))]
    rfl

/-- Every run of the deployment is a run of the system. -/
theorem Deployment.simulates {ok : System → Action → Prop} (hstart : D.Starts encode)
    (hcodec : ∀ m, o.parse (encode m) = some m) (hdrain : ∀ S entries fate settled, ok S (.drain entries fate settled))
    (h : Steps (fun D a => D.step encode o prefetch a) (FrontOnly o ok) D D') :
    D'.Ok encode o ∧ Steps FlashSale.step ok (D.system o) (D'.system o) := by
  refine h.simulates hstart.deployment_ok fun D a D' hok hfront hstep => ?_
  have hs := Deployment.Step.of_step hstep
  refine ⟨hok.step hs, ?_⟩
  rcases hok.step_system hcodec hs with hsame | ⟨b, rfl, hb⟩ | ⟨entries, fate, hb⟩
  · rw [hsame]
    exact .refl
  · exact .tail b .refl hfront hb
  · exact .tail (.drain entries fate false) .refl (hdrain _ _ _ _) hb

end

/-! ## Main theorems -/

section
variable {batchSize maxAttempts prefetch : Nat} {D D' : Deployment String}

/-- Whatever the system guarantees in the runs that `ok` describes, the
deployment does: each run of it is one of these. -/
theorem deployment_refines {ok : System → Action → Prop}
    (hdrain : ∀ S entries fate settled, ok S (.drain entries fate settled))
    (hstart : D.Starts PurchaseWriteEntry.content)
    (h : Deploys batchSize maxAttempts prefetch (FrontOnly (drainPurchaseWrites batchSize maxAttempts) ok) D D') :
    Steps step ok (D.system (drainPurchaseWrites batchSize maxAttempts))
      (D'.system (drainPurchaseWrites batchSize maxAttempts)) :=
  (Deployment.simulates hstart (drainPurchaseWrites_parse batchSize maxAttempts) hdrain h).2

theorem deployment_refines_demo :
    ∃ D' : Deployment String, D'.acked.length = 1 ∧
      Steps step (Decided demoId) (demoSystem 3) (D'.system (drainPurchaseWrites 2 5)) := by
  obtain ⟨D', hrun, hacked, -⟩ := demoDelivery_runs
  exact ⟨D', hacked, deployment_refines (fun _ _ _ _ => ⟨rfl, rfl, rfl⟩) (demoDeployment_starts 3) hrun⟩

/-- A message that is on its way, in a write buffer or with the broker, or was
dead-lettered. -/
def Deployment.Carries {β : Type} (D : Deployment β) (content : β) : Prop :=
  content ∈ D.buffered ∨ content ∈ D.held ++ D.ready ∨ content ∈ D.dead

/-- A message of the system's queue is where the deployment keeps it, has its
row, or was lost with a connection. -/
theorem Deployment.Ok.located (hok : D'.Ok PurchaseWriteEntry.content (drainPurchaseWrites batchSize maxAttempts))
    {m : PurchaseWriteEntry} (hm : m ∈ (D'.system (drainPurchaseWrites batchSize maxAttempts)).queue) :
    m.row.key ∈ D'.db.pairs ∨ D'.Carries m.content ∨ m.content ∈ D'.discarded := by
  obtain ⟨ms, hms⟩ := hok.encoded
  obtain ⟨c, hc, hparse⟩ := List.mem_filterMap.1 hm
  obtain ⟨m', -, rfl⟩ := List.mem_map.1 (hms ▸ hc)
  rw [drainPurchaseWrites_parse] at hparse
  obtain rfl := Option.some.inj hparse
  have hhanded := hok.handed.mem_iff.1 hc
  simp only [List.mem_append] at hhanded
  rcases hhanded with hbuffered | hdiscarded | hpublished
  · exact .inr (.inl (.inl hbuffered))
  · exact .inr (.inr hdiscarded)
  have hplace := hok.kept.mem_iff.1 hpublished
  simp only [List.mem_append] at hplace
  rcases hplace with hheld | hready | hacked | hdead
  · exact .inr (.inl (.inr (.inl (List.mem_append_left _ hheld))))
  · exact .inr (.inl (.inr (.inl (List.mem_append_right _ hready))))
  · obtain ⟨e, he, hmem⟩ := hok.recorded _ hacked
    rw [drainPurchaseWrites_parse] at he
    obtain rfl := Option.some.inj he
    exact .inl hmem
  · exact .inr (.inl (.inr (.inr hdead)))

theorem Reaches.ledger {S S' : System} (h : Reaches S S') (hok : S.Ok) (hl : Ledger S.db) :
    S'.Ok ∧ Ledger S'.db := by
  refine h.inv (I := fun S => S.Ok ∧ Ledger S.db) ⟨hok, hl⟩ fun S a S' hinv _ hstep => ?_
  obtain ⟨⟨new, hsold⟩, -, -⟩ := step_frame hinv.1 hstep
  exact ⟨hinv.1.step hstep, hsold.ledger hinv.2⟩

/-- However often a message is redelivered, and whichever workers write it at
once: each sale's counter stays within its bounds and exact, and no buyer gets
two rows. -/
theorem deployment_ledger (hstart : D.Starts PurchaseWriteEntry.content) (hl : Ledger D.db)
    (h : Deploys batchSize maxAttempts prefetch (fun _ _ => True) D D') : D'.db.Schema ∧ Ledger D'.db := by
  have hfront : Deploys batchSize maxAttempts prefetch
      (FrontOnly (drainPurchaseWrites batchSize maxAttempts) fun _ _ => True) D D' :=
    h.imp fun _ a _ => by cases a <;> trivial
  obtain ⟨-, hrun⟩ := Deployment.simulates hstart (drainPurchaseWrites_parse batchSize maxAttempts)
    (fun _ _ _ _ => trivial) hfront
  have hsystem : (D.system (drainPurchaseWrites batchSize maxAttempts)).Ok :=
    ⟨hstart.ok.schema, hstart.ok.printed, hstart.ok.rows, hstart.ok.reading⟩
  obtain ⟨hok, hledger⟩ := Reaches.ledger hrun hsystem hl
  exact ⟨hok.schema, hledger⟩

theorem deployment_ledger_demo :
    ∃ D' : Deployment String, (D'.db.purchasesOf demoId).length = 2 ∧ Ledger D'.db := by
  obtain ⟨D', hrun, -, -, hrows, -⟩ := demoDelivery_runs
  have hany := hrun.imp (fun _ _ _ => trivial)
  exact ⟨D', hrows, (deployment_ledger (demoDeployment_starts 3) (demoDb_ledger 3) hany).2⟩

/-- While the script decides, with real workers: Redis never promises a unit
that Postgres cannot absorb, no worker's batch is ever refused for stock, and
whoever was told of success has a row, a message in a write buffer, with the
broker or dead-lettered, or one that was lost with its connection. -/
theorem deployment_never_overpromises {u : Uuid} (hstart : D.Starts PurchaseWriteEntry.content)
    (hloaded : Loaded u (D.system (drainPurchaseWrites batchSize maxAttempts)))
    (h : Deploys batchSize maxAttempts prefetch
      (FrontOnly (drainPurchaseWrites batchSize maxAttempts) (Decided u)) D D') :
    D'.db.buyers u ⊆ (D'.redis u.text).saleBuyers ∧
    (∃ s stock, D'.db.sale u = some s ∧ (D'.redis u.text).Stocks stock ∧
      stock + (((D'.redis u.text).saleBuyers \ D'.db.buyers u).card : Int) = s.remainingStock) ∧
    (∀ w ∈ D'.workers, ∀ f, w.drain.flushing = some f →
      ∀ fate n, (writePurchaseBatch fate f.entries D'.db).1 ≠ .error (.oversold u n)) ∧
    (∀ answer ∈ D'.answers, Uuid.ofText answer.saleId = u → answer.isSuccess →
      normalizeEmail answer.email ∈ D'.db.buyers u ∨
        ∃ m : PurchaseWriteEntry, (D'.Carries m.content ∨ m.content ∈ D'.discarded) ∧
          Uuid.ofText m.saleId = u ∧ normalizeEmail m.email = normalizeEmail answer.email) := by
  obtain ⟨hok, hrun⟩ := Deployment.simulates hstart (drainPurchaseWrites_parse batchSize maxAttempts)
    (fun S entries fate settled => ⟨rfl, rfl, rfl⟩) h
  obtain ⟨hsystem, hb⟩ := gate_inv hloaded hrun
  obtain ⟨s, stock, hsale, hstock, hbal⟩ := hb.account
  refine ⟨hbal.recorded, ⟨s, stock, hsale, hstock, hbal.balance⟩, ?_, ?_⟩
  · intro w hw f hf fate n
    obtain ⟨i, hi⟩ := List.getElem?_of_mem hw
    exact hb.no_oversold hsystem.schema (hok.entries_sent hi hf) fate n
  · intro answer hmem hu hsucc
    rcases hb.answered hmem hu hsucc with hrow | ⟨m, hm, hmu, hme⟩
    · exact .inl hrow
    · have hqueue : m ∈ (D'.system (drainPurchaseWrites batchSize maxAttempts)).queue := by
        simpa [Deployment.system, Deployment.front] using hm
      rcases hok.located hqueue with hrow | hplace
      · refine .inl ?_
        rw [← hme, ← hmu]
        exact mem_pairs_iff_buyer.1 hrow
      · exact .inr ⟨m, hplace, hmu, hme⟩

theorem deployment_never_overpromises_demo :
    ∃ D' : Deployment String, D'.answers.length = 3 ∧ D'.db.buyers demoId ⊆ (D'.redis demoId.text).saleBuyers := by
  obtain ⟨D', hrun, -, -, -, hanswers⟩ := demoDelivery_runs
  exact ⟨D', hanswers, (deployment_never_overpromises (demoDeployment_starts 3) (demoSystem_loaded 3) hrun).1⟩

end

end FlashSale
