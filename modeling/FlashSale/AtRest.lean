import FlashSale.Broker
import FlashSale.Refinement
/-!
# At rest

While the script decides, and as long as no call that holds a reservation
fails to write its row, and no command is sent again, every reservation is with
a call, a message or a row. So when the calls are over and the write buffers and
the broker are empty, the two stores agree but for the messages that were lost.
-/

namespace FlashSale
open Lib.Runs Lib.Escrow

/-! ## The runs -/

/-- A reservation of `u` is left to nobody: its call found no broker, writes its
row and fails; or the call's command was sent again. -/
def strands (u : Uuid) (S : System) : Action → Bool
  | .attempt replica saleId email now link => resends u S (.attempt replica saleId email now link)
  | .write i dbNow fate =>
    match S.pending[i]? with
    | some p => p.stage = .write && Uuid.ofText p.saleId = u &&
      normalizeEmail p.email ∉ (writePurchase fate dbNow p.saleId p.email S.db).2.buyers u
    | none => false
  | _ => false

theorem resends_strands {u : Uuid} {S : System} {a : Action} (h : resends u S a = true) : strands u S a = true := by
  cases a with
  | attempt => exact h
  | _ => cases h

/-- The script decides, and no reservation is stranded. -/
def Settles (u : Uuid) (S : System) (a : Action) : Prop := Decided u S a ∧ strands u S a = false

instance (u : Uuid) (S : System) (a : Action) : Decidable (Settles u S a) := inferInstanceAs (Decidable (_ ∧ _))

/-! ## The callers -/

theorem callersOf_erased {ps : List Pending} {i : Nat} {p : Pending} (hi : ps[i]? = some p) {u : Uuid} {gated : Bool}
    {b : String} (hb : b ∈ callersOf ps u gated) :
    b ∈ callersOf (ps.eraseIdx i) u gated ∨
      Uuid.ofText p.saleId = u ∧ p.stage.gated = gated ∧ normalizeEmail p.email = b := by
  obtain ⟨q, hq, h⟩ := mem_callersOf.1 hb
  obtain ⟨hlt, rfl⟩ := List.getElem?_eq_some_iff.1 hi
  rcases List.mem_cons.1 ((List.getElem_cons_eraseIdx_perm hlt).symm.subset hq) with rfl | hq
  · exact .inr h
  · exact .inl (mem_callersOf.2 ⟨q, hq, h⟩)

theorem callersOf_goOn {ps : List Pending} {i : Nat} {p : Pending} (hi : ps[i]? = some p) {stage : Stage}
    (hs : stage.gated = p.stage.gated) (u : Uuid) (gated : Bool) :
    callersOf ps u gated ⊆ callersOf (ps.set i { p with stage }) u gated := by
  intro b hb
  obtain ⟨q, hq, hu, hg, he⟩ := mem_callersOf.1 hb
  obtain ⟨j, hj⟩ := List.getElem?_of_mem hq
  obtain ⟨hlt, -⟩ := List.getElem?_eq_some_iff.1 hi
  by_cases hij : i = j
  · obtain rfl := hij
    obtain rfl := Option.some.inj (hi.symm.trans hj)
    exact mem_callersOf.2 ⟨{ p with stage }, List.mem_of_getElem? (List.getElem?_set_self hlt), hu, hs.trans hg, he⟩
  · exact mem_callersOf.2 ⟨q, List.mem_of_getElem? ((List.getElem?_set_ne hij).trans hj), hu, hg, he⟩

/-! ## The invariant -/

/-- Every reservation is with a row, a message, a dead letter or a call. -/
def Complete (B : Books) : Prop := B.keys.saleBuyers ⊆ B.held ∪ B.owed

/-- The script reserves for its callers only. -/
theorem Moves.reserved {u : Uuid} {S : System} {a : Action} {B : Books} (h : Moves u S a B) (hs : Settles u S a) :
    B.keys.saleBuyers ⊆ (S.books u).keys.saleBuyers ∪ B.owed := by
  obtain ⟨⟨hrefers, hdeletes, hsyncs⟩, hstrands⟩ := hs
  cases h with
  | quiet | publish | write | record | drain => exact Finset.subset_union_left
  | refer b hr => simp [hrefers] at hr
  | reserveLost b stock now hr => simp [hrefers] at hr
  | resend b stock now hr =>
    rw [resends_strands hr] at hstrands
    cases hstrands
  | delete hr => simp [hdeletes] at hr
  | sync hr => simp [hsyncs] at hr
  | reserve b stock now =>
    rw [SaleKeys.spend_saleBuyers]
    intro c hc
    rcases Finset.mem_insert.1 hc with rfl | hc
    · exact Finset.mem_union_right _ (Finset.mem_insert_self _ _)
    · exact Finset.mem_union_left _ hc

/-- A call that holds a reservation keeps it, or leaves its buyer held. -/
theorem Settles.owed {u : Uuid} {S S' : System} {a : Action} (hs : Settles u S a) (h : step S a = some S') :
    (S.books u).owed ⊆ (S'.books u).owed ∪ (S'.books u).held := by
  intro b hb
  rw [Finset.mem_union]
  cases Step.of_step h with
  | @attempt replica saleId email now link =>
    left
    have hmore (started : List Pending) : b ∈ callersOf (S.pending ++ started) u true := by
      rw [callersOf_append]
      exact Finset.mem_union_left _ hb
    rcases stepAttempt_cases S replica saleId email now link with ⟨-, h⟩ | ⟨-, h⟩ | ⟨-, -, _, -, h⟩ <;> rw [h]
    · exact hmore _
    · exact hmore _
    · exact hb
  | @publish i queued p hi hstage =>
    cases queued with
    | false => exact .inl (callersOf_goOn hi (by rw [hstage]; rfl) u true hb)
    | true =>
      rcases callersOf_erased hi hb with hb | ⟨hu, -, he⟩
      · exact .inl hb
      · refine .inr (Books.mem_held.2 (.inr (.inl ?_)))
        exact mem_mailOf.2 ⟨p.message, by simp [stepPublish], hu, he⟩
  | @lookup i pgUp now p hi hstage =>
    have hother : p.stage.gated ≠ true := by simp [hstage, Stage.gated]
    have herase := callersOf_eraseIdx_other hi hother u
    left
    simp only [System.books, stepLookup] at hb ⊢
    rcases findRowById pgUp S.db (S.caches p.replica) p.saleId with ⟨_ | _ | row, cache⟩
    · exact herase ▸ hb
    · exact herase ▸ hb
    · dsimp only
      split
      · exact callersOf_goOn hi (by rw [hstage]; rfl) u true hb
      · exact herase ▸ hb
  | @write i dbNow fate p hi hstage =>
    rcases callersOf_erased hi hb with hb | ⟨hu, hg, he⟩
    · exact .inl hb
    · have hwrite : p.stage = .write := by
        rcases hstage with hstage | hstage
        · exact hstage
        · rw [hstage] at hg
          cases hg
      have hkept := hs.2
      simp only [strands, hi, hwrite, hu, he, decide_true, Bool.true_and, decide_eq_false_iff_not, not_not] at hkept
      exact .inr (Books.mem_held.2 (.inl hkept))
  | @drain entries fate settled hsub =>
    have hpending : (stepDrain S entries fate settled).pending = S.pending := by
      unfold stepDrain
      rcases writePurchaseBatch fate entries S.db with ⟨_ | _, db⟩ <;> rfl
    left
    change b ∈ callersOf (stepDrain S entries fate settled).pending u true
    rw [hpending]
    exact hb
  | flush | expire | warmRows | warmBuyers | warmSync => exact .inl hb

theorem Complete.step {u : Uuid} {S S' : System} {a : Action} (hc : Complete (S.books u)) (hok : S.Ok)
    (hs : Settles u S a) (h : step S a = some S') : Complete (S'.books u) := by
  have hm := step_moves hok h u
  intro b hb
  rcases Finset.mem_union.1 (hm.reserved hs hb) with hb | hb
  · rcases Finset.mem_union.1 (hc hb) with hheld | howed
    · exact Finset.mem_union_left _ (hm.held hheld)
    · rcases Finset.mem_union.1 (hs.owed h howed) with howed | hheld
      · exact Finset.mem_union_right _ howed
      · exact Finset.mem_union_left _ hheld
  · exact Finset.mem_union_right _ hb

theorem Loaded.complete {u : Uuid} {S : System} (h : Loaded u S) : Complete (S.books u) := by
  obtain ⟨s, hs, hkeys⟩ := h.warmed
  obtain ⟨hm, rfl⟩ := Db.sale_mem hs
  intro b hb
  refine Finset.mem_union_left _ (Books.mem_held.2 (.inl ?_))
  change b ∈ (S.redis s.id.text).saleBuyers at hb
  rwa [hkeys, warmedKeys_buyers] at hb

/-- What holds in every state of a run that strands nothing. -/
theorem settles_inv {u : Uuid} {S S' : System} (hl : Loaded u S) (h : Steps step (Settles u) S S') :
    S'.Ok ∧ Balances (S'.books u) ∧ Complete (S'.books u) :=
  h.inv (I := fun S => S.Ok ∧ Balances (S.books u) ∧ Complete (S.books u)) ⟨hl.ok, hl.balances, hl.complete⟩
    fun _ _ _ hinv hs hstep => ⟨hinv.1.step hstep, hinv.2.1.moves hs.1 (step_moves hinv.1 hstep u),
      hinv.2.2.step hinv.1 hs hstep⟩

/-! ## Main theorem -/

section
variable {batchSize maxAttempts prefetch : Nat} {D D' : Deployment String}

/-- Whom the books have with a row or a message has one where the deployment
keeps it. -/
theorem Deployment.Ok.held_placed
    (hok : D'.Ok PurchaseWriteEntry.content (drainPurchaseWrites batchSize maxAttempts)) {u : Uuid} {b : String}
    (hb : b ∈ ((D'.system (drainPurchaseWrites batchSize maxAttempts)).books u).held) :
    b ∈ D'.db.buyers u ∨ ∃ m : PurchaseWriteEntry, (D'.Carries m.content ∨ m.content ∈ D'.discarded) ∧
      Uuid.ofText m.saleId = u ∧ normalizeEmail m.email = b := by
  rcases Books.mem_held.1 hb with hrow | hqueued | hdead
  · exact .inl hrow
  · obtain ⟨m, hm, hu, he⟩ := mem_mailOf.1 hqueued
    rcases hok.located hm with hrow | hplace
    · left
      rw [← he, ← hu]
      exact mem_pairs_iff_buyer.1 hrow
    · exact .inr ⟨m, hplace, hu, he⟩
  · exact absurd hdead (Finset.notMem_empty b)

/-- The buyers of `u` whose messages were dead-lettered, or lost with a
connection. -/
def Deployment.lostBuyers (o : DrainOptions String PurchaseWriteEntry) (D : Deployment String) (u : Uuid) :
    Finset String :=
  mailOf ((D.dead ++ D.discarded).filterMap o.parse) u

/-- Once no call of the sale holds a reservation and the write buffers and the
broker are empty, the buyers in Redis are those in Postgres and those of lost
messages, and the stock is what Postgres has left, less a unit for each buyer of
a lost message without a row. -/
theorem deployment_agrees {u : Uuid} (hstart : D.Starts PurchaseWriteEntry.content)
    (hloaded : Loaded u (D.system (drainPurchaseWrites batchSize maxAttempts)))
    (h : Deploys batchSize maxAttempts prefetch
      (FrontOnly (drainPurchaseWrites batchSize maxAttempts) (Settles u)) D D')
    (hcalls : ∀ p ∈ D'.pending, Uuid.ofText p.saleId = u → p.stage.gated = false)
    (hbuffered : D'.buffered = []) (hready : D'.ready = []) (hheld : D'.held = []) :
    (D'.redis u.text).saleBuyers =
      D'.db.buyers u ∪ D'.lostBuyers (drainPurchaseWrites batchSize maxAttempts) u ∧
    ∃ s stock, D'.db.sale u = some s ∧ (D'.redis u.text).Stocks stock ∧
      stock + ((D'.lostBuyers (drainPurchaseWrites batchSize maxAttempts) u \ D'.db.buyers u).card : Int) =
        s.remainingStock := by
  obtain ⟨hok, hrun⟩ := Deployment.simulates hstart (drainPurchaseWrites_parse batchSize maxAttempts)
    (fun S entries fate settled => ⟨⟨rfl, rfl, rfl⟩, rfl⟩) h
  obtain ⟨-, hb, hcomplete⟩ := settles_inv hloaded hrun
  obtain ⟨s, stock, hsale, hstock, hbal⟩ := hb.account
  have howed : callersOf D'.pending u true = ∅ := by
    refine Finset.eq_empty_of_forall_notMem fun b hmem => ?_
    obtain ⟨p, hp, hu, hg, -⟩ := mem_callersOf.1 hmem
    rw [hcalls p hp hu] at hg
    cases hg
  have hsame : (D'.redis u.text).saleBuyers =
      D'.db.buyers u ∪ D'.lostBuyers (drainPurchaseWrites batchSize maxAttempts) u := by
    apply Finset.Subset.antisymm
    · intro b hmem
      rcases Finset.mem_union.1 (hcomplete hmem) with hheld' | hmem
      · rcases hok.held_placed hheld' with hrow | ⟨m, hplace, hu, he⟩
        · exact Finset.mem_union_left _ hrow
        · refine Finset.mem_union_right _ (mem_mailOf.2 ⟨m, ?_, hu, he⟩)
          refine List.mem_filterMap.2 ⟨_, ?_, drainPurchaseWrites_parse batchSize maxAttempts m⟩
          simpa [Deployment.Carries, hbuffered, hready, hheld] using hplace
      · change b ∈ callersOf D'.pending u true at hmem
        simp [howed] at hmem
    · refine Finset.union_subset hbal.recorded ((mailOf_subset ?_ u).trans hb.queued)
      refine List.filterMap_subset _ fun c hc => ?_
      rcases List.mem_append.1 hc with hdead | hdiscarded
      · exact hok.published_sent (hok.kept.mem_iff.2 (by simp [hdead]))
      · exact hok.handed.mem_iff.2 (by simp [hdiscarded])
  refine ⟨hsame, s, stock, hsale, hstock, ?_⟩
  have hbalance : stock + (((D'.redis u.text).saleBuyers \ D'.db.buyers u).card : Int) = s.remainingStock :=
    hbal.balance
  rwa [hsame, Finset.union_sdiff_left] at hbalance

end

/-- Two buyers' rows are written; the message of the third is dead-lettered, and
that of the fourth is lost with the connection. -/
def demoAtRest : List (DeploymentAction String) :=
  [.act (.attempt 0 demoId.text "ann@example.com" 5 .answered), .act (.publish 0 true),
    .act (.attempt 1 demoId.text "Bob@example.com" 6 .answered), .act (.publish 0 true), .take 0, .take 0,
    .act (.attempt 0 demoId.text "cy@example.com" 7 .answered), .act (.publish 0 true), .take 0,
    .act (.attempt 0 demoId.text "dee@example.com" 8 .answered), .act (.publish 0 true), .discard 0,
    .connect, .deliver 0, .deliver 0, .work 0 .flush, .deliver 0, .write 0 .runs, .work 0 .timer, .work 0 .flush,
    .write 0 .unreachable, .settle 0 0, .settle 0 1, .settle 0 2]

theorem deployment_agrees_demo :
    ∃ D' : Deployment String, D'.db.buyers demoId = {"ann@example.com", "bob@example.com"} ∧
      D'.lostBuyers (drainPurchaseWrites 2 1) demoId = {"cy@example.com", "dee@example.com"} ∧
      (D'.redis demoId.text).saleBuyers = D'.db.buyers demoId ∪ D'.lostBuyers (drainPurchaseWrites 2 1) demoId := by
  obtain ⟨D', hrun, hbuyers, hlost, hpending, hbuffered, hready, hheld⟩ : ∃ D', Deploys 2 1 500
      (FrontOnly (drainPurchaseWrites 2 1) (Settles demoId)) (demoDeployment 5) D' ∧
      (D'.db.buyers demoId = {"ann@example.com", "bob@example.com"} ∧
        D'.lostBuyers (drainPurchaseWrites 2 1) demoId = {"cy@example.com", "dee@example.com"} ∧ D'.pending = [] ∧
        D'.buffered = [] ∧ D'.ready = [] ∧ D'.held = []) :=
    Steps.exists_of_run demoAtRest (by decide +kernel)
  refine ⟨D', hbuyers, hlost,
    (deployment_agrees (demoDeployment_starts 5) (demoSystem_loaded 5) hrun ?_ hbuffered hready hheld).1⟩
  simp [hpending]

end FlashSale
