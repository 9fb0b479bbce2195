import FlashSale.AtRest
import FlashSale.Tickets
/-!
# Postgres alone

While Redis decides nothing for a sale (it is down, was flushed, or was never
warmed), every call for it is decided by its own write. What the calls are told
is then what Postgres has: a success is a row of its own, and a row is a success
unless its call ended with an error.
-/

namespace FlashSale
open Lib.Parts Lib.Runs

/-! ## What an answer says -/

/-- What the answer says of its sale and buyer holds of `db`. -/
structure Answer.Holds (a : Answer) (db : Db) : Prop where
  bought : ∀ r, a.result = .ok r → r.status = .success ∨ r.status = .already_purchased →
    normalizeEmail a.email ∈ db.buyers (.ofText a.saleId)
  soldOut : ∀ r, a.result = .ok r → r.status = .sold_out →
    normalizeEmail a.email ∉ db.buyers (.ofText a.saleId) ∧
      ∃ s, db.sale (.ofText a.saleId) = some s ∧ s.remainingStock = 0

section
variable {db db' : Db} {new : List PgPurchase} {a : Answer}

/-- A sale without stock gets no row. -/
theorem Sold.buyers_of_none (h : Sold db db' new) {u : Uuid} {s : PgSale} (hs : db.sale u = some s)
    (hzero : s.remainingStock = 0) : db'.buyers u = db.buyers u ∧ db'.sale u = some s := by
  have hunits : unitsOf new u = 0 := by
    have := h.absorbs_sale hs
    omega
  have hnone : buyersOf new u = ∅ := by
    rw [← Finset.card_eq_zero, h.card_buyersOf, hunits]
  exact ⟨by rw [h.buyers, hnone, Finset.union_empty], by rw [h.sale_other hunits, hs]⟩

/-- What was said stays true as more is sold. -/
theorem Answer.Holds.sold (h : a.Holds db) (hsold : Sold db db' new) : a.Holds db' where
  bought r hr hstatus := by
    rw [hsold.buyers]
    exact Finset.mem_union_left _ (h.bought r hr hstatus)
  soldOut r hr hstatus := by
    obtain ⟨hnone, s, hs, hzero⟩ := h.soldOut r hr hstatus
    obtain ⟨hbuyers, hs'⟩ := hsold.buyers_of_none hs hzero
    exact ⟨by rwa [hbuyers], s, hs', hzero⟩

theorem Answer.holds_not_active (h : a.result = .ok SALE_NOT_ACTIVE_RESULT) (db : Db) : a.Holds db := by
  constructor <;> intro r hr hstatus <;> rw [h] at hr <;> obtain rfl := Except.ok.inj hr <;>
    simp [SALE_NOT_ACTIVE_RESULT] at hstatus

theorem Answer.holds_error {e : JsError} (h : a.result = .error e) (db : Db) : a.Holds db := by
  constructor <;> intro r hr <;> simp [h] at hr

/-- A write of its own answers what Postgres then has: it sells a row and says
so, or throws that it did not hear of the commit, or sells nothing and says why. -/
theorem writePurchase_tells (hs : db.Schema) (fate : TxFate) (dbNow : Int) (saleId email : String) :
    Answer.Holds ⟨saleId, email, (writePurchase fate dbNow saleId email db).1⟩
        (writePurchase fate dbNow saleId email db).2 ∧
      ((Sold db (writePurchase fate dbNow saleId email db).2 [purchaseRow dbNow saleId email] ∧
          ((writePurchase fate dbNow saleId email db).1 = .ok SUCCESS_RESULT ∨
            (writePurchase fate dbNow saleId email db).1 = .error unreachable)) ∨
        ((writePurchase fate dbNow saleId email db).2 = db ∧
          Answer.isSuccess ⟨saleId, email, (writePurchase fate dbNow saleId email db).1⟩ = false)) := by
  cases htx : writePurchaseTx dbNow saleId email db with
  | ok p =>
    obtain ⟨u, db'⟩ := p
    have hsold := writePurchaseTx_sold hs htx
    rw [writePurchase_of_ok htx]
    cases fate with
    | runs =>
      have hrow : normalizeEmail email ∈ db'.buyers (.ofText saleId) := by
        rw [hsold.buyers, buyersOf_singleton]
        simp [purchaseRow]
      refine ⟨⟨fun r _ _ => hrow, fun r hr hstatus => ?_⟩, .inl ⟨hsold, .inl rfl⟩⟩
      obtain rfl := Except.ok.inj hr
      simp [SUCCESS_RESULT] at hstatus
    | replyLost => exact ⟨Answer.holds_error rfl _, .inl ⟨hsold, .inr rfl⟩⟩
    | unreachable => exact ⟨Answer.holds_error rfl _, .inr ⟨rfl, rfl⟩⟩
  | error e =>
    rw [writePurchase_of_error htx]
    by_cases hfate : fate = .unreachable
    · rw [if_pos hfate]
      exact ⟨Answer.holds_error rfl _, .inr ⟨rfl, rfl⟩⟩
    rw [if_neg hfate]
    rcases writePurchaseTx_error hs htx with ⟨rfl, hb⟩ | rfl | rfl | rfl
    · refine ⟨⟨fun r _ _ => hb, fun r hr hstatus => ?_⟩, .inr ⟨rfl, rfl⟩⟩
      obtain rfl := Except.ok.inj hr
      simp [ALREADY_PURCHASED_RESULT] at hstatus
    · exact ⟨Answer.holds_error rfl _, .inr ⟨rfl, rfl⟩⟩
    · exact ⟨Answer.holds_not_active rfl _, .inr ⟨rfl, rfl⟩⟩
    · obtain ⟨s, hsale, hb, hzero⟩ := writePurchaseTx_soldOut hs htx
      have hnonneg := hs.sales_remaining_stock_check s (Db.sale_mem hsale).1
      refine ⟨⟨fun r hr hstatus => ?_, fun r _ _ => ⟨hb, s, hsale, by omega⟩⟩, .inr ⟨rfl, rfl⟩⟩
      obtain rfl := Except.ok.inj hr
      simp [SOLD_OUT_RESULT] at hstatus

end

/-! ## The account -/

/-- The call may have written the row of `b`: it said so, or threw the error of
a query whose connection died. -/
def Answer.Settles (u : Uuid) (b : String) (a : Answer) : Prop :=
  Uuid.ofText a.saleId = u ∧ normalizeEmail a.email = b ∧ (a.isSuccess = true ∨ a.result = .error unreachable)

/-- The answers about `u` against its rows; `before` are the buyers that it
started with. -/
structure Accounted (u : Uuid) (before : Finset String) (answers : List Answer) (db : Db) : Prop where
  once : (answers.flatMap (·.ticket u)).Nodup
  recorded : ∀ b ∈ answers.flatMap (·.ticket u), b ∈ db.buyers u ∧ b ∉ before
  settled : ∀ b ∈ db.buyers u, b ∈ before ∨ ∃ a ∈ answers, a.Settles u b
  loaded : before ⊆ db.buyers u
  holds : ∀ a ∈ answers, Uuid.ofText a.saleId = u → a.Holds db

theorem Accounted.start (u : Uuid) (db : Db) : Accounted u (db.buyers u) [] db :=
  ⟨.nil, by simp, fun b hb => .inl hb, subset_rfl, by simp⟩

section
variable {u : Uuid} {before : Finset String} {answers : List Answer} {db db' : Db} {new : List PgPurchase}

/-- Rows are sold and answers given for them. -/
theorem Accounted.extend (h : Accounted u before answers db) (hsold : Sold db db' new) {given : List Answer}
    (honce : (given.flatMap (·.ticket u)).Nodup) (hnew : ∀ b ∈ given.flatMap (·.ticket u), b ∈ buyersOf new u)
    (hsettled : ∀ b ∈ buyersOf new u, ∃ a ∈ given, a.Settles u b)
    (hholds : ∀ a ∈ given, Uuid.ofText a.saleId = u → a.Holds db') : Accounted u before (answers ++ given) db' := by
  have hfresh : ∀ b ∈ buyersOf new u, b ∉ db.buyers u := fun b hb => Finset.disjoint_left.1 (hsold.disjoint u) hb
  refine ⟨?_, fun b hb => ?_, fun b hb => ?_, ?_, fun a ha => ?_⟩
  · rw [List.flatMap_append]
    refine List.nodup_append.2 ⟨h.once, honce, fun b hb c hc => ?_⟩
    rintro rfl
    exact hfresh b (hnew b hc) (h.recorded b hb).1
  · rw [hsold.buyers]
    rw [List.flatMap_append] at hb
    rcases List.mem_append.1 hb with hb | hb
    · exact ⟨Finset.mem_union_left _ (h.recorded b hb).1, (h.recorded b hb).2⟩
    · exact ⟨Finset.mem_union_right _ (hnew b hb), fun hmem => hfresh b (hnew b hb) (h.loaded hmem)⟩
  · rw [hsold.buyers] at hb
    rcases Finset.mem_union.1 hb with hb | hb
    · rcases h.settled b hb with hmem | ⟨a, ha, hsettles⟩
      · exact .inl hmem
      · exact .inr ⟨a, List.mem_append_left _ ha, hsettles⟩
    · obtain ⟨a, ha, hsettles⟩ := hsettled b hb
      exact .inr ⟨a, List.mem_append_right _ ha, hsettles⟩
  · rw [hsold.buyers]
    exact h.loaded.trans Finset.subset_union_left
  · rcases List.mem_append.1 ha with ha | ha
    · exact fun hu => (h.holds a ha hu).sold hsold
    · exact hholds a ha

/-- Rows of other sales, and no answer. -/
theorem Accounted.other (h : Accounted u before answers db) (hsold : Sold db db' new) (hnone : buyersOf new u = ∅) :
    Accounted u before answers db' := by
  have hsame : Accounted u before (answers ++ []) db' := h.extend hsold .nil (by simp) (by simp [hnone]) (by simp)
  rwa [List.append_nil] at hsame

/-- An answer that is no success of `u`, and no row. -/
theorem Accounted.refuse (h : Accounted u before answers db) (hs : db.Schema) {a : Answer}
    (hrefused : Uuid.ofText a.saleId = u → a.isSuccess = false ∧ a.Holds db) :
    Accounted u before (answers ++ [a]) db := by
  have hticket : a.ticket u = [] := if_neg fun hif => by simp [(hrefused hif.1).1] at hif
  refine h.extend hs.sold_nothing (by simp [hticket]) (by simp [hticket]) (by simp) fun a' ha hu => ?_
  obtain rfl := List.mem_singleton.1 ha
  exact (hrefused hu).2

/-- A call ends with its own write. -/
theorem Accounted.write (h : Accounted u before answers db) (hs : db.Schema) (fate : TxFate) (dbNow : Int)
    (saleId email : String) :
    Accounted u before (answers ++ [⟨saleId, email, (writePurchase fate dbNow saleId email db).1⟩])
      (writePurchase fate dbNow saleId email db).2 := by
  obtain ⟨hholds, ⟨hsold, hresult⟩ | ⟨hdb, hrefused⟩⟩ := writePurchase_tells hs fate dbNow saleId email
  · have hbuyers : buyersOf [purchaseRow dbNow saleId email] u =
        if Uuid.ofText saleId = u then {normalizeEmail email} else ∅ := buyersOf_singleton _ u
    refine h.extend hsold ?_ (fun b hb => ?_) (fun b hb => ?_) fun a ha _ => ?_
    · rw [List.flatMap_singleton, Answer.ticket]
      split <;> simp
    · rw [List.flatMap_singleton, Answer.ticket] at hb
      split_ifs at hb with hif
      · rw [hbuyers, if_pos hif.1]
        simpa using hb
      · cases hb
    · rw [hbuyers] at hb
      split_ifs at hb with hu
      · refine ⟨_, List.mem_singleton_self _, hu, (Finset.mem_singleton.1 hb).symm, ?_⟩
        rcases hresult with hok | herror
        · left
          simp [Answer.isSuccess, hok, SUCCESS_RESULT]
        · exact .inr herror
      · cases hb
    · obtain rfl := List.mem_singleton.1 ha
      exact hholds
  · rw [hdb] at hholds ⊢
    exact h.refuse hs fun _ => ⟨hrefused, hholds⟩

end

/-! ## A run -/

/-- The script decides no call for `u`. -/
def PostgresOnly (u : Uuid) (S : System) : Action → Prop
  | .attempt replica saleId email now link =>
    Uuid.ofText saleId = u → refers u S (.attempt replica saleId email now link) = true
  | _ => True

instance (u : Uuid) (S : System) : (a : Action) → Decidable (PostgresOnly u S a)
  | .attempt _ _ _ _ _ => inferInstanceAs (Decidable (_ → _))
  | .publish _ _ | .lookup _ _ _ | .write _ _ _ | .drain _ _ _ | .flush _ | .expire _ _ | .warmRows _ | .warmBuyers
  | .warmSync => isTrue trivial

/-- No call for `u` holds a reservation, and no message is of `u`. -/
structure System.Direct (u : Uuid) (before : Finset String) (S : System) : Prop where
  ok : S.Ok
  pending : ∀ p ∈ S.pending, Uuid.ofText p.saleId = u → p.stage.gated = false
  queue : ∀ m ∈ S.queue, Uuid.ofText m.saleId ≠ u
  accounted : Accounted u before S.answers S.db

section
variable {u : Uuid} {before : Finset String} {S S' : System}

theorem refers_code {replica : Nat} {saleId email : String} {now : Int} {link : Link}
    (h : refers u S (.attempt replica saleId email now link) = true) :
    (reserve link S.redis saleId email now).1 = none ∨
      (reserve link S.redis saleId email now).1 = some .not_warmed := by
  rw [reserve_code]
  cases hheard : link.heard with
  | false => simp
  | true =>
    have hcode : (reservePurchase S.redis saleId email now).1 = .not_warmed := by
      simpa [hheard] using (Bool.and_eq_true_iff.1 h).2
    simp [hcode]

theorem stepAttempt_referred {replica : Nat} {saleId email : String} {now : Int} {link : Link}
    (h : (reserve link S.redis saleId email now).1 = none ∨
      (reserve link S.redis saleId email now).1 = some .not_warmed) :
    stepAttempt S replica saleId email now link =
      { S with redis := (reserve link S.redis saleId email now).2
               pending := S.pending ++ [⟨replica, saleId, email, now, .lookup⟩] } := by
  revert h
  unfold stepAttempt
  rcases reserve link S.redis saleId email now with ⟨code, redis⟩
  rintro (rfl | rfl) <;> rfl

theorem System.Direct.step {a : Action} (h : S.Direct u before) (ha : PostgresOnly u S a)
    (hstep : FlashSale.step S a = some S') : S'.Direct u before := by
  have hok := h.ok.step hstep
  have hs := h.ok.schema
  cases Step.of_step hstep with
  | @attempt replica saleId email now link =>
    by_cases hu : Uuid.ofText saleId = u
    · rw [stepAttempt_referred (refers_code (ha hu))] at hok ⊢
      exact ⟨hok, forall_concat h.pending fun _ => rfl, h.queue, h.accounted⟩
    · rcases stepAttempt_cases S replica saleId email now link with ⟨-, he⟩ | ⟨-, he⟩ | ⟨-, -, result, -, he⟩ <;>
        rw [he] at hok ⊢
      · exact ⟨hok, forall_concat h.pending fun hu' => absurd hu' hu, h.queue, h.accounted⟩
      · exact ⟨hok, forall_concat h.pending fun hu' => absurd hu' hu, h.queue, h.accounted⟩
      · exact ⟨hok, h.pending, h.queue, h.accounted.refuse hs fun hu' => absurd hu' hu⟩
  | @publish i queued p hi hstage =>
    have hu : Uuid.ofText p.saleId ≠ u := by
      intro hu
      have hgated := h.pending p (List.mem_of_getElem? hi) hu
      rw [hstage] at hgated
      cases hgated
    cases queued with
    | false => exact ⟨hok, forall_set h.pending fun hu' => absurd hu' hu, h.queue, h.accounted⟩
    | true =>
      refine ⟨hok, fun q hq => h.pending q (List.mem_of_mem_eraseIdx hq), fun m hm => ?_,
        h.accounted.refuse hs fun hu' => absurd hu' hu⟩
      rcases List.mem_append.1 hm with hm | hm
      · exact h.queue m hm
      · obtain rfl := List.mem_singleton.1 hm
        exact hu
  | @lookup i pgUp now p hi hstage =>
    have hgated : Uuid.ofText p.saleId = u → p.stage.gated = false := h.pending p (List.mem_of_getElem? hi)
    have hends : ∀ (caches : Nat → Cache) (result : Except JsError PurchaseResult),
        (∀ r, result = .ok r → r = SALE_NOT_ACTIVE_RESULT) → (System.finish { S with caches } i p result).Ok →
        (System.finish { S with caches } i p result).Direct u before := by
      intro caches result hresult hok
      refine ⟨hok, fun q hq => h.pending q (List.mem_of_mem_eraseIdx hq), h.queue, h.accounted.refuse hs fun _ => ?_⟩
      cases result with
      | error e => exact ⟨rfl, Answer.holds_error rfl _⟩
      | ok r =>
        obtain rfl := hresult r rfl
        exact ⟨rfl, Answer.holds_not_active rfl _⟩
    revert hok
    unfold stepLookup
    rcases findRowById pgUp S.db (S.caches p.replica) p.saleId with ⟨_ | _ | row, cache⟩
    · exact hends _ _ (by simp)
    · exact hends _ _ (by simp)
    · dsimp only
      split
      · exact fun hok => ⟨hok, forall_set h.pending fun _ => rfl, h.queue, h.accounted⟩
      · exact hends _ _ fun r hr => (Except.ok.inj hr).symm
  | @write i dbNow fate p hi hstage =>
    exact ⟨hok, fun q hq => h.pending q (List.mem_of_mem_eraseIdx hq), h.queue, h.accounted.write hs fate dbNow _ _⟩
  | @drain entries fate settled hsub =>
    obtain ⟨new, hsold, hbuyers, -⟩ := writePurchaseBatch_buyers hs fate entries
    have hnone : buyersOf new u = ∅ := by
      refine Finset.eq_empty_of_forall_notMem fun b hb => ?_
      obtain ⟨m, hm, hu, -⟩ := mem_mailOf.1 (hbuyers u hb)
      exact h.queue m (hsub hm) hu
    have haccounted := h.accounted.other hsold hnone
    have hqueue : ∀ m ∈ (if settled = true then S.queue.diff entries else S.queue), Uuid.ofText m.saleId ≠ u := by
      intro m hm
      split_ifs at hm
      · exact h.queue m (List.diff_subset _ _ hm)
      · exact h.queue m hm
    revert hok haccounted
    unfold stepDrain
    rcases writePurchaseBatch fate entries S.db with ⟨_ | _, db⟩ <;>
      exact fun hok haccounted => ⟨hok, h.pending, hqueue, haccounted⟩
  | flush | expire | warmRows | warmBuyers | warmSync => exact ⟨hok, h.pending, h.queue, h.accounted⟩

end

/-! ## Main theorem -/

section
variable {batchSize maxAttempts prefetch : Nat} {D D' : Deployment String}

/-- While the script decides no call for the sale, of which no call holds a
reservation and no message was sent before, whatever fails: each answer
of success has a row of its own, each new row had its success or the error of a
commit that was not heard of, who is told of a purchase has it, and who is told
it is sold out has none, nor has the sale a unit. No message of the sale is ever
published. -/
theorem postgres_only_exact {u : Uuid} (hstart : D.Starts PurchaseWriteEntry.content) (hanswers : D.answers = [])
    (hcalls : ∀ p ∈ D.pending, Uuid.ofText p.saleId = u → p.stage.gated = false)
    (hsent : ∀ m : PurchaseWriteEntry, m.content ∈ D.sent → Uuid.ofText m.saleId ≠ u)
    (h : Deploys batchSize maxAttempts prefetch
      (FrontOnly (drainPurchaseWrites batchSize maxAttempts) (PostgresOnly u)) D D') :
    (D'.answers.flatMap (·.ticket u)).Nodup ∧
    (∀ b ∈ D'.answers.flatMap (·.ticket u), b ∈ D'.db.buyers u \ D.db.buyers u) ∧
    (∀ b ∈ D'.db.buyers u \ D.db.buyers u, ∃ a ∈ D'.answers, a.Settles u b) ∧
    (∀ a ∈ D'.answers, Uuid.ofText a.saleId = u → a.Holds D'.db) ∧
    ∀ m : PurchaseWriteEntry, m.content ∈ D'.sent → Uuid.ofText m.saleId ≠ u := by
  obtain ⟨-, hrun⟩ := Deployment.simulates hstart (drainPurchaseWrites_parse batchSize maxAttempts)
    (fun _ _ _ _ => trivial) h
  have hdirect : (D.system (drainPurchaseWrites batchSize maxAttempts)).Direct u (D.db.buyers u) := by
    refine ⟨⟨hstart.ok.schema, hstart.ok.printed, hstart.ok.rows, hstart.ok.reading⟩, hcalls, fun m hm => ?_, ?_⟩
    · obtain ⟨ms, hms⟩ := hstart.encoded
      obtain ⟨c, hc, hparse⟩ := List.mem_filterMap.1 hm
      obtain ⟨m', -, rfl⟩ := List.mem_map.1 (hms ▸ hstart.sent ▸ hc)
      rw [drainPurchaseWrites_parse] at hparse
      obtain rfl := Option.some.inj hparse
      exact hsent _ hc
    · have hnone : (D.system (drainPurchaseWrites batchSize maxAttempts)).answers = [] := hanswers
      rw [hnone]
      exact .start u D.db
  have hafter := hrun.inv (I := System.Direct u (D.db.buyers u)) hdirect fun _ _ _ hinv ha hstep => hinv.step ha hstep
  refine ⟨hafter.accounted.once, fun b hb => ?_, fun b hb => ?_, hafter.accounted.holds, fun m hm => ?_⟩
  · exact Finset.mem_sdiff.2 (hafter.accounted.recorded b hb)
  · obtain ⟨hrow, hnew⟩ := Finset.mem_sdiff.1 hb
    exact (hafter.accounted.settled b hrow).resolve_left hnew
  · exact hafter.queue m (List.mem_filterMap.2 ⟨_, hm, drainPurchaseWrites_parse batchSize maxAttempts m⟩)

end

/-- Redis is down. Ann buys, and again; Bob's commit is not heard of; Cy is too
late. -/
def demoRedisDown : List (DeploymentAction String) :=
  [.act (.attempt 0 demoId.text "ann@example.com" 5 .notReady), .act (.lookup 0 true 5), .act (.write 0 5 .runs),
    .act (.attempt 1 demoId.text "Ann@example.com" 6 .failed), .act (.lookup 0 true 6), .act (.write 0 6 .runs),
    .act (.attempt 0 demoId.text "bob@example.com" 7 .notReady), .act (.lookup 0 true 7), .act (.write 0 7 .replyLost),
    .act (.attempt 0 demoId.text "cy@example.com" 8 .notReady), .act (.lookup 0 true 8), .act (.write 0 8 .runs)]

theorem postgres_only_exact_demo :
    ∃ D' : Deployment String, D'.answers.length = 4 ∧ (D'.answers.flatMap (·.ticket demoId)).length = 1 ∧
      D'.db.buyers demoId = {"ann@example.com", "bob@example.com"} ∧
      (∀ a ∈ D'.answers, Uuid.ofText a.saleId = demoId → a.Holds D'.db) := by
  have hrun : ∃ D', Deploys 2 1 500 (FrontOnly (drainPurchaseWrites 2 1) (PostgresOnly demoId)) (demoDeployment 2) D' ∧
      (D'.answers.length = 4 ∧ (D'.answers.flatMap (·.ticket demoId)).length = 1 ∧
        D'.db.buyers demoId = {"ann@example.com", "bob@example.com"}) :=
    Steps.exists_of_run demoRedisDown (by decide +kernel)
  obtain ⟨D', hrun, hanswers, htickets, hbuyers⟩ := hrun
  exact ⟨D', hanswers, htickets, hbuyers,
    (postgres_only_exact (demoDeployment_starts 2) rfl (by simp [demoDeployment]) (by simp [demoDeployment])
      hrun).2.2.2.1⟩

end FlashSale
