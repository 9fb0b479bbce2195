import FlashSale.AtRest
/-!
# One success each

While the script decides, a reservation is a ticket. The call that got it holds
it until it ends, and an answer of success keeps it. The script gives one to a
buyer and no more than it has units, so this bounds the answers themselves, not
only the buyers among them.
-/

namespace FlashSale
open Lib.Parts Lib.Runs Lib.Escrow

/-! ## The tickets -/

/-- The buyer whose reservation of `u` the call holds. -/
def Pending.ticket (u : Uuid) (p : Pending) : List String :=
  if Uuid.ofText p.saleId = u ∧ p.stage.gated = true then [normalizeEmail p.email] else []

/-- The buyer of `u` whom the answer tells of success. -/
def Answer.ticket (u : Uuid) (a : Answer) : List String :=
  if Uuid.ofText a.saleId = u ∧ a.isSuccess = true then [normalizeEmail a.email] else []

def System.tickets (u : Uuid) (S : System) : List String :=
  S.pending.flatMap (·.ticket u) ++ S.answers.flatMap (·.ticket u)

section
variable {u : Uuid} {S S' : System} {i : Nat} {p : Pending}

theorem ticket_other (h : Uuid.ofText p.saleId ≠ u) : p.ticket u = [] := if_neg fun hp => h hp.1

theorem ticket_ungated (h : p.stage.gated = false) : p.ticket u = [] := if_neg fun hp => by simp [h] at hp

theorem ticket_refused {a : Answer} (h : a.isSuccess = false) : a.ticket u = [] := if_neg fun ha => by simp [h] at ha

theorem ticket_goOn {stage : Stage} (h : stage.gated = p.stage.gated) :
    Pending.ticket u { p with stage } = p.ticket u := by
  simp only [Pending.ticket, h]

theorem tickets_goOn (hi : S.pending[i]? = some p) {stage : Stage} (h : stage.gated = p.stage.gated) :
    ((S.goOn i p stage).tickets u).Perm (S.tickets u) := by
  refine List.Perm.append_right _ ?_
  refine (flatMap_set_perm _ hi _).trans ?_
  rw [ticket_goOn h]
  exact (flatMap_perm _ hi).symm

/-- A call that holds a reservation, or is of another sale, ends with no ticket
or with its own. -/
theorem ticket_answer (hgated : Uuid.ofText p.saleId = u → p.stage.gated = true)
    (result : Except JsError PurchaseResult) :
    (p.answer result).ticket u = p.ticket u ∨ (p.answer result).ticket u = [] := by
  unfold Answer.ticket Pending.ticket
  split_ifs with ha hp
  · exact .inl rfl
  · exact absurd ⟨ha.1, hgated ha.1⟩ hp
  · exact .inr rfl
  · exact .inr rfl

theorem tickets_finish (hi : S.pending[i]? = some p) {result : Except JsError PurchaseResult}
    (h : (p.answer result).ticket u = p.ticket u ∨ (p.answer result).ticket u = []) :
    ((S.finish i p result).tickets u).Subperm (S.tickets u) := by
  have hold : (S.tickets u).Perm ((S.pending.eraseIdx i).flatMap (·.ticket u) ++
      (S.answers.flatMap (·.ticket u) ++ p.ticket u)) := by
    refine ((flatMap_perm _ hi).append_right _).trans ?_
    rw [List.append_assoc]
    refine List.perm_append_comm.trans ?_
    rw [List.append_assoc]
  have hnew : (S.finish i p result).tickets u = (S.pending.eraseIdx i).flatMap (·.ticket u) ++
      (S.answers.flatMap (·.ticket u) ++ (p.answer result).ticket u) := by
    simp only [System.tickets, System.finish, List.flatMap_append, List.flatMap_singleton]
  rw [hnew]
  refine List.Sublist.subperm ?_ |>.trans hold.symm.subperm
  refine (List.Sublist.refl _).append ((List.Sublist.refl _).append ?_)
  rcases h with h | h
  · rw [h]
  · rw [h]
    exact List.nil_sublist _

/-- No step makes a ticket but a reservation, which makes one. -/
theorem tickets_step {a : Action} (hok : S.Ok) (hfallback : (S.books u).fallback = ∅) (h : step S a = some S') :
    (S'.tickets u).Subperm (S.tickets u) ∨
      ∃ b, b ∉ (S.redis u.text).saleBuyers ∧ b ∈ (S'.redis u.text).saleBuyers ∧
        (S'.tickets u).Perm (b :: S.tickets u) := by
  cases Step.of_step h with
  | @attempt replica saleId email now link =>
    rcases stepAttempt_cases S replica saleId email now link with ⟨hcode, hstep⟩ | ⟨-, hstep⟩ |
      ⟨-, -, result, hresult, hstep⟩
    · rw [hstep]
      rcases reserve_cases hok.printed link saleId email now with ⟨-, hne⟩ | ⟨hid, -, stock, -, hb, -, -, hredis⟩
      · exact absurd hcode hne
      by_cases hu : Uuid.ofText saleId = u
      · obtain rfl : u.text = saleId := by rw [← hu]; exact hid
        refine .inr ⟨normalizeEmail email, hb, ?_, ?_⟩
        · simp [hredis]
        · have hticket : Pending.ticket u ⟨replica, u.text, email, now, .publish⟩ = [normalizeEmail email] := by
            simp [Pending.ticket, Stage.gated]
          simp only [System.tickets, List.flatMap_append, List.flatMap_singleton, hticket, List.append_assoc,
            List.singleton_append]
          exact List.perm_middle
      · have hticket : Pending.ticket u ⟨replica, saleId, email, now, .publish⟩ = [] := ticket_other hu
        left
        simp only [System.tickets, List.flatMap_append, List.flatMap_singleton, hticket, List.append_nil]
        exact .refl _
    · have hticket : Pending.ticket u ⟨replica, saleId, email, now, .lookup⟩ = [] := ticket_ungated rfl
      rw [hstep]
      left
      simp only [System.tickets, List.flatMap_append, List.flatMap_singleton, hticket, List.append_nil]
      exact .refl _
    · have hticket : Answer.ticket u ⟨saleId, email, .ok result⟩ = [] :=
        ticket_refused (by simpa [Answer.isSuccess] using hresult)
      rw [hstep]
      left
      simp only [System.tickets, List.flatMap_append, List.flatMap_singleton, hticket, List.append_nil]
      exact .refl _
  | @publish i queued p hi hstage =>
    left
    cases queued with
    | false => exact (tickets_goOn hi (by rw [hstage]; rfl)).subperm
    | true => exact tickets_finish (S := S) hi (ticket_answer (fun _ => by rw [hstage]; rfl) _)
  | @lookup i pgUp now p hi hstage =>
    have hticket : p.ticket u = [] := ticket_ungated (by rw [hstage]; rfl)
    left
    unfold stepLookup
    rcases findRowById pgUp S.db (S.caches p.replica) p.saleId with ⟨_ | _ | row, cache⟩
    · exact tickets_finish (S := { S with caches := _ }) hi (.inr (ticket_refused rfl))
    · exact tickets_finish (S := { S with caches := _ }) hi (.inr (ticket_refused rfl))
    · dsimp only
      split
      · exact (tickets_goOn (S := { S with caches := _ }) hi (by rw [hstage]; rfl)).subperm
      · exact tickets_finish (S := { S with caches := _ }) hi (.inr (ticket_refused rfl))
  | @write i dbNow fate p hi hstage =>
    left
    refine tickets_finish (S := S) hi (ticket_answer (fun hu => ?_) _)
    rcases hstage with hstage | hstage
    · rw [hstage]
      rfl
    · -- The sale has no call on the Postgres-only path.
      have hcaller : normalizeEmail p.email ∈ (S.books u).fallback :=
        mem_callersOf.2 ⟨p, List.mem_of_getElem? hi, hu, by rw [hstage]; rfl, rfl⟩
      simp [hfallback] at hcaller
  | @drain entries fate settled =>
    left
    unfold stepDrain
    rcases writePurchaseBatch fate entries S.db with ⟨_ | _, db⟩ <;> exact .refl _
  | flush | expire | warmRows | warmBuyers | warmSync => exact .inl (.refl _)

end

/-! ## The invariant -/

/-- The script takes a unit for each buyer it adds. -/
theorem Moves.offered {u : Uuid} {S : System} {a : Action} {B : Books} (h : Moves u S a B) (hd : Decided u S a)
    {stock : Int} (hstock : (S.books u).keys.Stocks stock) :
    (S.books u).keys.saleBuyers ⊆ B.keys.saleBuyers ∧ ∃ stock', B.keys.Stocks stock' ∧
      stock' + (B.keys.saleBuyers.card : Int) = stock + ((S.books u).keys.saleBuyers.card : Int) := by
  obtain ⟨hrefers, hdeletes, hsyncs⟩ := hd
  cases h with
  | quiet | publish | write | record | drain => exact ⟨subset_rfl, stock, hstock, rfl⟩
  | refer b hr => simp [hrefers] at hr
  | reserveLost b stock' now hr => simp [hrefers] at hr
  | delete hr => simp [hdeletes] at hr
  | sync hr => simp [hsyncs] at hr
  | reserve b stock' now ho hb hs hpos | resend b stock' now _ ho hb hs hpos =>
    obtain rfl : stock = stock' := Option.some.inj (hstock.symm.trans hs)
    refine ⟨Finset.subset_insert _ _, stock - 1, rfl, ?_⟩
    rw [SaleKeys.spend_saleBuyers, Finset.card_insert_of_notMem hb]
    push_cast
    omega

/-- `before` are the buyers that the sale was loaded with, `units` its stock
then. -/
structure Ticketed (u : Uuid) (before : Finset String) (units : Int) (S : System) : Prop where
  ok : S.Ok
  balances : Balances (S.books u)
  once : (S.tickets u).Nodup
  held : ∀ b ∈ S.tickets u, b ∈ (S.redis u.text).saleBuyers ∧ b ∉ before
  loaded : before ⊆ (S.redis u.text).saleBuyers
  offered : ∃ stock, (S.redis u.text).Stocks stock ∧
    stock + ((S.redis u.text).saleBuyers.card : Int) = units + (before.card : Int)

theorem Loaded.ticketed {u : Uuid} {S : System} (h : Loaded u S) {s : PgSale} (hs : S.db.sale u = some s) :
    Ticketed u (S.db.buyers u) s.remainingStock S := by
  obtain ⟨s', hs', hkeys⟩ := h.warmed
  obtain rfl : s' = s := Option.some.inj (hs'.symm.trans hs)
  have hid : s'.id = u := (Db.sale_mem hs).2
  have hbuyers : (S.redis u.text).saleBuyers = S.db.buyers u := by
    rw [hkeys, ← hid, warmedKeys_buyers]
  have hnone : S.tickets u = [] := by
    refine List.append_eq_nil_iff.2 ⟨List.flatMap_eq_nil_iff.2 fun p hp => ?_, List.flatMap_eq_nil_iff.2 fun a ha => ?_⟩
    · refine if_neg fun hif => ?_
      have hmem : normalizeEmail p.email ∈ (S.books u).owed := mem_callersOf.2 ⟨p, hp, hif.1, hif.2, rfl⟩
      simp [h.owed] at hmem
    · refine if_neg fun hif => ?_
      have hmem : normalizeEmail a.email ∈ (S.books u).told := by
        refine List.mem_toFinset.2 (List.mem_map.2 ⟨a, List.mem_filter.2 ⟨ha, ?_⟩, rfl⟩)
        simpa using hif
      simp [h.told] at hmem
  exact ⟨h.ok, h.balances, by simp [hnone], by simp [hnone], by rw [hbuyers],
    s'.remainingStock, by rw [hkeys]; rfl, by rw [hbuyers]⟩

theorem Ticketed.step {u : Uuid} {before : Finset String} {units : Int} {S S' : System} {a : Action}
    (h : Ticketed u before units S) (hd : Decided u S a) (hstep : step S a = some S') :
    Ticketed u before units S' := by
  have hmoves := step_moves h.ok hstep u
  obtain ⟨stock, hstock, hunits⟩ := h.offered
  obtain ⟨hmore, stock', hstock', hsame⟩ := hmoves.offered hd hstock
  have hkept : ∀ b ∈ S.tickets u, b ∈ (S'.redis u.text).saleBuyers ∧ b ∉ before :=
    fun b hb => ⟨hmore (h.held b hb).1, (h.held b hb).2⟩
  have hcases : (S'.tickets u).Nodup ∧ ∀ b ∈ S'.tickets u, b ∈ (S'.redis u.text).saleBuyers ∧ b ∉ before := by
    rcases tickets_step h.ok h.balances.fallback hstep with hsub | ⟨b, hnew, hin, hperm⟩
    · obtain ⟨l, hperm, hsub⟩ := hsub
      exact ⟨hperm.nodup_iff.1 (h.once.sublist hsub), fun b hb => hkept b (hsub.subset (hperm.mem_iff.2 hb))⟩
    · refine ⟨hperm.nodup_iff.2 (List.nodup_cons.2 ⟨fun hb => hnew (h.held b hb).1, h.once⟩), fun c hc => ?_⟩
      rcases List.mem_cons.1 (hperm.mem_iff.1 hc) with rfl | hc
      · exact ⟨hin, fun hb => hnew (h.loaded hb)⟩
      · exact hkept c hc
  exact ⟨h.ok.step hstep, h.balances.moves hd hmoves, hcases.1, hcases.2, h.loaded.trans hmore, stock', hstock',
    hsame.trans hunits⟩

/-- There are no more tickets than units. -/
theorem Ticketed.length_le {u : Uuid} {before : Finset String} {units : Int} {S : System}
    (h : Ticketed u before units S) : ((S.tickets u).length : Int) ≤ units := by
  obtain ⟨stock, hstock, hunits⟩ := h.offered
  obtain ⟨s, stock', -, hstock', hbal⟩ := h.balances.account
  obtain rfl : stock = stock' := Option.some.inj (hstock.symm.trans hstock')
  have hnonneg : 0 ≤ stock := hbal.free_nonneg
  have hsub : (S.tickets u).toFinset ⊆ (S.redis u.text).saleBuyers \ before := by
    intro b hb
    exact Finset.mem_sdiff.2 (h.held b (List.mem_toFinset.1 hb))
  have hcard := Finset.card_le_card hsub
  rw [List.toFinset_card_of_nodup h.once, Finset.card_sdiff_of_subset h.loaded] at hcard
  have hle := Finset.card_le_card h.loaded
  omega

/-! ## Main theorem -/

section
variable {batchSize maxAttempts prefetch : Nat} {D D' : Deployment String}

/-- While the script decides, with real workers and whatever fails: a buyer who
had no row is answered success once at most, and never while another call of
theirs holds a reservation; a buyer who had one is not. Successes and
reservations under way together are no more than the units loaded. -/
theorem one_success_each {u : Uuid} {s : PgSale} (hstart : D.Starts PurchaseWriteEntry.content)
    (hloaded : Loaded u (D.system (drainPurchaseWrites batchSize maxAttempts))) (hs : D.db.sale u = some s)
    (h : Deploys batchSize maxAttempts prefetch
      (FrontOnly (drainPurchaseWrites batchSize maxAttempts) (Decided u)) D D') :
    (D'.pending.flatMap (·.ticket u) ++ D'.answers.flatMap (·.ticket u)).Nodup ∧
    (∀ b ∈ D'.pending.flatMap (·.ticket u) ++ D'.answers.flatMap (·.ticket u), b ∉ D.db.buyers u) ∧
    ((D'.pending.flatMap (·.ticket u)).length + (D'.answers.flatMap (·.ticket u)).length : Int) ≤ s.remainingStock := by
  obtain ⟨-, hrun⟩ := Deployment.simulates hstart (drainPurchaseWrites_parse batchSize maxAttempts)
    (fun _ _ _ _ => ⟨rfl, rfl, rfl⟩) h
  have hticketed := hrun.inv (I := Ticketed u (D.db.buyers u) s.remainingStock) (hloaded.ticketed hs)
    fun _ _ _ hinv hd hstep => hinv.step hd hstep
  refine ⟨hticketed.once, fun b hb => (hticketed.held b hb).2, ?_⟩
  have hle := hticketed.length_le
  rw [System.tickets, List.length_append] at hle
  exact_mod_cast hle

end

/-- Two buyers' rows are written, and two messages lost: four answers of success,
for five units. -/
theorem one_success_each_demo :
    ∃ D' : Deployment String, D'.answers.length = 4 ∧ (D'.answers.flatMap (·.ticket demoId)).length = 4 ∧
      (D'.pending.flatMap (·.ticket demoId) ++ D'.answers.flatMap (·.ticket demoId)).Nodup := by
  have hrun : ∃ D', Deploys 2 1 500 (FrontOnly (drainPurchaseWrites 2 1) (Decided demoId)) (demoDeployment 5) D' ∧
      (D'.answers.length = 4 ∧ (D'.answers.flatMap (·.ticket demoId)).length = 4) :=
    Steps.exists_of_run demoAtRest (by decide +kernel)
  obtain ⟨D', hrun, hanswers, htickets⟩ := hrun
  exact ⟨D', hanswers, htickets,
    (one_success_each (demoDeployment_starts 5) (demoSystem_loaded 5) (s := ⟨demoId, 5, 5, 0, 1000000, none⟩) rfl
      hrun).1⟩

end FlashSale
