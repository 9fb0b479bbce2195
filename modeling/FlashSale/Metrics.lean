import FlashSale.Envelope
import FlashSale.Tickets
/-!
# What k6 counts

The k6 client of a load test (packages/load-test/k6/lib): `purchase` makes two
checks and one count of every response, summary.ts a table of the counts, and
two thresholds read the checks and the failed requests. k6 never sees a row, so
this is all that a load test says of the api while it runs.
-/

namespace FlashSale
open Lib.Json Lib.Runs

namespace K6

/-! ## `metrics.ts` and `client.ts` -/

/-- The counters of metrics.ts, and k6's own `checks`, `http_reqs` and
`http_req_failed`. -/
structure Metrics where
  success : Nat
  already_purchased : Nat
  sold_out : Nat
  sale_not_active : Nat
  error : Nat
  passes : Nat
  fails : Nat
  reqs : Nat
  failed : Nat
deriving DecidableEq

def Metrics.start : Metrics := ⟨0, 0, 0, 0, 0, 0, 0, 0, 0⟩

section
variable (m : Metrics)

def Metrics.purchaseOutcomeCounters : PurchaseStatus → Nat
  | .success => m.success
  | .already_purchased => m.already_purchased
  | .sold_out => m.sold_out
  | .sale_not_active => m.sale_not_active

def Metrics.recordPurchaseOutcome : PurchaseStatus → Metrics
  | .success => { m with success := m.success + 1 }
  | .already_purchased => { m with already_purchased := m.already_purchased + 1 }
  | .sold_out => { m with sold_out := m.sold_out + 1 }
  | .sale_not_active => { m with sale_not_active := m.sale_not_active + 1 }

def Metrics.recordPurchaseError : Metrics := { m with error := m.error + 1 }

def Metrics.check (ok : Bool) : Metrics :=
  if ok then { m with passes := m.passes + 1 } else { m with fails := m.fails + 1 }

end

/-- A response: k6 gives one of status 0 where there was none. -/
structure JsonResponse where
  status : Nat
  body : String

/-- What k6 counts in `http_req_failed`. -/
def JsonResponse.failed (res : JsonResponse) : Bool := ¬ (200 ≤ res.status ∧ res.status ≤ 399)

def Metrics.request (m : Metrics) (res : JsonResponse) : Metrics :=
  { m with reqs := m.reqs + 1, failed := m.failed + if res.failed then 1 else 0 }

def parseEnvelope (res : JsonResponse) : Option Value := if res.status ≠ 200 then none else parse res.body

def truthy : Value → Bool
  | .null => false
  | .bool b => b
  | .num n => n ≠ 0
  | .str text => text ≠ ""
  | .arr _ | .obj _ => true

/-- The counter at `purchaseOutcomeCounters[outcome]`. An array of one is looked
up by its element; one of more has a comma in its key, as no counter has. -/
def counterAt : Value → Option PurchaseStatus
  | .str text => PurchaseStatus.ofText text
  | .arr [x] => counterAt x
  | _ => none

/-- The second check of `purchase`, by `===`. -/
def knownStatus : Option Value → Bool
  | some (.str text) => (PurchaseStatus.ofText text).isSome
  | _ => false

/-- `purchase`, from the response on: what it returns, `none` where it throws. -/
def purchase (m : Metrics) (res : JsonResponse) : Option (Option Value) × Metrics :=
  let m := (m.request res).check (res.status = 200)
  match parseEnvelope res with
  | none | some .null => (some none, (m.check false).recordPurchaseError)
  | some body =>
    match body.get "data" with
    -- `body?.data.status` reads a property of undefined or null.
    | none | some .null => (none, m.check false)
    | some data =>
      let m := m.check (knownStatus (data.get "status"))
      if truthy data then
        match (data.get "status").bind counterAt with
        | some outcome => (some (some data), m.recordPurchaseOutcome outcome)
        | none => (none, m)
      else (some (some data), m.recordPurchaseError)

example : (purchase .start ⟨200, print (.obj [])⟩).1 = none := by
  rw [purchase, parseEnvelope, parse_print]
  rfl

/-! ## `summary.ts` and `thresholds.ts` -/

/-- The rows of `renderPurchaseOutcomeTable`. -/
def purchaseOutcomeRows (m : Metrics) : List (String × Nat) :=
  [("success", m.success), ("already_purchased", m.already_purchased), ("sold_out", m.sold_out),
    ("sale_not_active", m.sale_not_active), ("error", m.error)].filter fun row => 0 < row.2

def outcomeTable (rows : List (String × Nat)) : String :=
  String.intercalate "\n"
    (["| Purchase outcome | Count |", "| --- | --- |"] ++ rows.map fun row => s!"| {row.1} | {row.2} |")

def renderPurchaseOutcomeTable (m : Metrics) : Option String :=
  match purchaseOutcomeRows m with
  | [] => none
  | rows => some (outcomeTable rows)

/-- `checks: ["rate>0.99"]`. -/
def checksGate (m : Metrics) : Bool := (99 / 100 : ℚ) < m.passes / (m.passes + m.fails : ℕ)

/-- `http_req_failed: ["rate<0.01"]`. -/
def httpReqFailedGate (m : Metrics) : Bool := (m.failed / m.reqs : ℚ) < 1 / 100

/-! ## What it hears of the api -/

/-- What fetch would see of a response. -/
def JsonResponse.ofReply : FetchReply → JsonResponse
  | .answered status body => ⟨status, body⟩
  | .aborted | .failed => ⟨0, ""⟩

/-- What an iteration hears: the api's response to its call, or a failed request. -/
inductive Heard where
  | answer (a : Answer)
  | failed (res : JsonResponse) (h : res.failed = true)

def Heard.answer? : Heard → Option Answer
  | .answer a => some a
  | .failed _ _ => none

def Heard.response (bodies : ErrorBodies) : Heard → JsonResponse
  | .answer a => .ofReply (respond bodies 200 (some "Purchase processed") (purchaseHandler a.result))
  | .failed res _ => res

/-- The outcome in it, if the call returned one. -/
def Heard.outcome : Heard → Option PurchaseStatus
  | .answer a => a.result.toOption.map (·.status)
  | .failed _ _ => none

/-- What `purchase` makes of it. -/
def Metrics.hears (m : Metrics) : Option PurchaseStatus → Metrics
  | some outcome => { m.recordPurchaseOutcome outcome with passes := m.passes + 2, reqs := m.reqs + 1 }
  | none => { m with error := m.error + 1, fails := m.fails + 2, reqs := m.reqs + 1, failed := m.failed + 1 }

theorem purchase_failed {res : JsonResponse} (h : res.failed = true) (m : Metrics) :
    purchase m res = (some none, m.hears none) := by
  have hstatus : res.status ≠ 200 := fun h200 => by simp [JsonResponse.failed, h200] at h
  simp [purchase, parseEnvelope, hstatus, Metrics.request, h, Metrics.check, Metrics.recordPurchaseError, Metrics.hears]

/-- An envelope with a result in it. -/
theorem purchase_envelope (message : Option String) (r : PurchaseResult) (m : Metrics) :
    purchase m ⟨200, print (intercept 200 message r.toJson)⟩ = (some (some r.toJson), m.hears (some r.status)) := by
  have hparse : parseEnvelope ⟨200, print (intercept 200 message r.toJson)⟩ = some (intercept 200 message r.toJson) :=
    parse_print _
  have hdata : (intercept 200 message r.toJson).get "data" = some r.toJson := rfl
  have hget : r.toJson.get "status" = some (.str r.status.text) := rfl
  have hcounter : counterAt (.str r.status.text) = some r.status := r.status.ofText_text
  have hknown : knownStatus (some (.str r.status.text)) = true := by
    rw [knownStatus, r.status.ofText_text]
    rfl
  generalize print (intercept 200 message r.toJson) = body at *
  unfold intercept at hparse hdata
  unfold PurchaseResult.toJson at *
  simp only [purchase, hparse, hdata, truthy, hget, Option.bind_some, hcounter, hknown]
  cases r.status <;>
    simp [Metrics.request, JsonResponse.failed, Metrics.check, Metrics.recordPurchaseOutcome, Metrics.hears]

/-- A call of `purchase` never throws on what it hears of the api. -/
theorem purchase_heard (bodies : ErrorBodies) (m : Metrics) (heard : Heard) :
    ∃ data, purchase m (heard.response bodies) = (some data, m.hears heard.outcome) := by
  cases heard with
  | failed res h => exact ⟨none, purchase_failed h m⟩
  | answer a =>
    obtain ⟨saleId, email, result⟩ := a
    cases result with
    | ok r =>
      have hresponse : (Heard.answer ⟨saleId, email, .ok r⟩).response bodies =
          ⟨200, print (intercept 200 (some "Purchase processed") r.toJson)⟩ := rfl
      rw [hresponse]
      exact ⟨some r.toJson, purchase_envelope _ r m⟩
    | error e =>
      refine ⟨none, ?_⟩
      cases e with
      | notFound message => exact purchase_failed rfl m
      | coded | query | soldOut | oversold => exact purchase_failed rfl m

/-! ## A load test -/

structure Metrics.Counted (heard : List Heard) (m : Metrics) : Prop where
  reqs : m.reqs = heard.length
  counters : ∀ outcome, m.purchaseOutcomeCounters outcome = heard.countP (·.outcome = some outcome)
  total : m.success + m.already_purchased + m.sold_out + m.sale_not_active + m.error = m.reqs
  failed : m.failed = m.error
  checks : m.passes + m.fails = 2 * m.reqs
  fails : m.fails = 2 * m.error

theorem Metrics.Counted.start : Metrics.start.Counted [] :=
  ⟨rfl, fun outcome => by cases outcome <;> rfl, rfl, rfl, rfl, rfl⟩

theorem Metrics.Counted.hears {heard : List Heard} {m : Metrics} (h : m.Counted heard) (x : Heard) :
    (m.hears x.outcome).Counted (heard ++ [x]) := by
  obtain ⟨hreqs, hcounters, htotal, hfailed, hchecks, hfails⟩ := h
  have hlength : (heard ++ [x]).length = heard.length + 1 := List.length_append
  have hcount : ∀ outcome, (heard ++ [x]).countP (·.outcome = some outcome) =
      m.purchaseOutcomeCounters outcome + if x.outcome = some outcome then 1 else 0 := by
    intro outcome
    rw [List.countP_append, ← hcounters outcome, List.countP_singleton]
    simp
  cases hx : x.outcome with
  | none =>
    refine ⟨?_, fun outcome => ?_, ?_, ?_, ?_, ?_⟩
    · rw [hlength, ← hreqs]
      rfl
    · rw [hcount, hx]
      cases outcome <;> rfl
    all_goals
      simp only [Metrics.hears]
      omega
  | some got =>
    refine ⟨?_, fun outcome => ?_, ?_, ?_, ?_, ?_⟩
    · rw [hlength, ← hreqs]
      rfl
    · rw [hcount, hx]
      cases got <;> cases outcome <;> rfl
    all_goals
      cases got <;> simp only [Metrics.hears, Metrics.recordPurchaseOutcome] <;> omega

/-- A load test throws nowhere and counts everything. -/
theorem counted (bodies : ErrorBodies) (heard : List Heard) :
    (∀ data ∈ (answers purchase .start (heard.map (·.response bodies))).1, data.isSome) ∧
      (answers purchase .start (heard.map (·.response bodies))).2.Counted heard := by
  induction heard using List.reverseRecOn with
  | nil => exact ⟨by simp [answers], .start⟩
  | append_singleton heard x ih =>
    obtain ⟨data, hdata⟩ := purchase_heard bodies (answers purchase .start (heard.map (·.response bodies))).2 x
    rw [List.map_append, answers_append]
    refine ⟨fun d hd => ?_, ?_⟩
    · rcases List.mem_append.1 hd with hd | hd
      · exact ih.1 d hd
      · simp only [List.map_cons, List.map_nil, answers, hdata, List.mem_singleton] at hd
        rw [hd]
        rfl
    · simp only [List.map_cons, List.map_nil, answers, hdata]
      exact ih.2.hears x

theorem sum_filter_pos (rows : List (String × Nat)) :
    ((rows.filter fun row => 0 < row.2).map (·.2)).sum = (rows.map (·.2)).sum := by
  induction rows with
  | nil => rfl
  | cons row rows ih =>
    rw [List.filter_cons]
    split_ifs with h
    · simp [ih]
    · have hzero : row.2 = 0 := by simpa using h
      simp [ih, hzero]

theorem Metrics.Counted.gates {heard : List Heard} {m : Metrics} (h : m.Counted heard) (hne : heard ≠ []) :
    checksGate m = httpReqFailedGate m := by
  have hpos : (0 : ℚ) < m.reqs := by
    rw [h.reqs]
    exact_mod_cast List.length_pos_iff.2 hne
  have hpasses : (m.passes : ℚ) = 2 * m.reqs - 2 * m.error := by
    have hchecks : (m.passes : ℚ) + m.fails = 2 * m.reqs := by exact_mod_cast h.checks
    have hfails : (m.fails : ℚ) = 2 * m.error := by exact_mod_cast h.fails
    linarith
  unfold checksGate httpReqFailedGate
  rw [h.checks, h.failed, hpasses]
  push_cast
  rw [decide_eq_decide, lt_div_iff₀ (by linarith), div_lt_iff₀ hpos]
  constructor <;> intro hgate <;> linarith

/-- The table is rendered once there is something to count. -/
theorem renderPurchaseOutcomeTable_eq {m : Metrics} (h : 0 < ((purchaseOutcomeRows m).map (·.2)).sum) :
    renderPurchaseOutcomeTable m = some (outcomeTable (purchaseOutcomeRows m)) := by
  unfold renderPurchaseOutcomeTable
  cases hrows : purchaseOutcomeRows m with
  | nil => simp [hrows] at h
  | cons row rows => rfl

/-- Whatever a load test hears: no iteration throws, the table of outcomes that
is rendered adds up to the requests, each outcome is counted as often as the api
came to it, and the two thresholds come to one verdict. -/
theorem outcomes_account (bodies : ErrorBodies) (heard : List Heard) (hne : heard ≠ []) :
    (∀ data ∈ (answers purchase .start (heard.map (·.response bodies))).1, data.isSome) ∧
    renderPurchaseOutcomeTable (answers purchase .start (heard.map (·.response bodies))).2 =
      some (outcomeTable (purchaseOutcomeRows (answers purchase .start (heard.map (·.response bodies))).2)) ∧
    ((purchaseOutcomeRows (answers purchase .start (heard.map (·.response bodies))).2).map (·.2)).sum = heard.length ∧
    (∀ outcome, (answers purchase .start (heard.map (·.response bodies))).2.purchaseOutcomeCounters outcome =
      heard.countP (·.outcome = some outcome)) ∧
    checksGate (answers purchase .start (heard.map (·.response bodies))).2 =
      httpReqFailedGate (answers purchase .start (heard.map (·.response bodies))).2 := by
  obtain ⟨hthrows, hcounted⟩ := counted bodies heard
  have hsum : ((purchaseOutcomeRows (answers purchase .start (heard.map (·.response bodies))).2).map (·.2)).sum =
      heard.length := by
    rw [purchaseOutcomeRows, sum_filter_pos, ← hcounted.reqs, ← hcounted.total]
    simp [Nat.add_assoc]
  exact ⟨hthrows, renderPurchaseOutcomeTable_eq (hsum ▸ List.length_pos_iff.2 hne), hsum, hcounted.counters,
    hcounted.gates hne⟩

theorem outcomes_account_demo :
    let heard : List Heard :=
      [.answer ⟨demoId.text, "ann@example.com", .ok SUCCESS_RESULT⟩,
        .answer ⟨demoId.text, "bob@example.com", .ok SOLD_OUT_RESULT⟩, .failed ⟨0, ""⟩ rfl,
        .answer ⟨demoId.text, "cy@example.com", .error unreachable⟩]
    ((purchaseOutcomeRows (answers purchase .start (heard.map (·.response nestBodies))).2).map (·.2)).sum = 4 ∧
      (answers purchase .start (heard.map (·.response nestBodies))).2.purchaseOutcomeCounters .success = 1 := by
  intro heard
  obtain ⟨-, -, hsum, hcounters, -⟩ := outcomes_account nestBodies heard (by simp [heard])
  exact ⟨hsum, (hcounters .success).trans (by decide +kernel)⟩

/-! ## A load test of a deployment -/

theorem counted_success (bodies : ErrorBodies) (heard : List Heard) :
    (answers purchase .start (heard.map (·.response bodies))).2.success =
      (heard.filterMap Heard.answer?).countP (·.isSuccess) := by
  refine ((counted bodies heard).2.counters .success).trans ?_
  rw [List.countP_filterMap]
  refine List.countP_congr fun x _ => ?_
  cases x with
  | failed res h => simp [Heard.outcome, Heard.answer?]
  | answer a =>
    obtain ⟨saleId, email, result⟩ := a
    cases result <;> simp [Heard.outcome, Heard.answer?, Answer.isSuccess, Except.toOption]

/-- Answers that are heard once each count no success that is no ticket. -/
theorem counted_tickets (bodies : ErrorBodies) {u : Uuid} {heard : List Heard} {told : List Answer}
    (hsale : ∀ a ∈ heard.filterMap Heard.answer?, Uuid.ofText a.saleId = u)
    (honce : (heard.filterMap Heard.answer?).Subperm told) :
    (answers purchase .start (heard.map (·.response bodies))).2.success ≤ (told.flatMap (·.ticket u)).length := by
  have htickets : ∀ l : List Answer, (l.flatMap (·.ticket u)).length =
      l.countP fun a => Uuid.ofText a.saleId = u ∧ a.isSuccess = true := by
    intro l
    induction l with
    | nil => rfl
    | cons a l ih =>
      rw [List.flatMap_cons, List.length_append, ih, List.countP_cons, Nat.add_comm]
      congr 1
      unfold Answer.ticket
      split_ifs <;> simp_all
  rw [counted_success, htickets]
  refine le_trans (le_of_eq (List.countP_congr fun a ha => ?_)) (honce.countP_le _)
  simp [hsale a ha]

end K6

section
variable {batchSize maxAttempts prefetch : Nat} {D D' : Deployment String}

/-- The buyers of `u` with a message in a write buffer or with the broker, or
with one that was dead-lettered or lost with its connection. -/
def Deployment.mailed (o : DrainOptions String PurchaseWriteEntry) (D : Deployment String) (u : Uuid) : Finset String :=
  mailOf ((D.buffered ++ (D.held ++ D.ready) ++ D.dead ++ D.discarded).filterMap o.parse) u

/-- While the script decides, k6 counts no more successes than the sale was
loaded with, those of reservations under way included, and no more than buyers
got a row since or have a message, a lost one included. -/
theorem successes_accounted (bodies : ErrorBodies) {u : Uuid} {s : PgSale}
    (hstart : D.Starts PurchaseWriteEntry.content)
    (hloaded : Loaded u (D.system (drainPurchaseWrites batchSize maxAttempts))) (hs : D.db.sale u = some s)
    (h : Deploys batchSize maxAttempts prefetch
      (FrontOnly (drainPurchaseWrites batchSize maxAttempts) (Decided u)) D D')
    {heard : List K6.Heard} (hsale : ∀ a ∈ heard.filterMap K6.Heard.answer?, Uuid.ofText a.saleId = u)
    (honce : (heard.filterMap K6.Heard.answer?).Subperm D'.answers) :
    ((answers K6.purchase .start (heard.map (·.response bodies))).2.success +
      (D'.pending.flatMap (·.ticket u)).length : Int) ≤ s.remainingStock ∧
    (answers K6.purchase .start (heard.map (·.response bodies))).2.success ≤
      ((D'.db.buyers u ∪ D'.mailed (drainPurchaseWrites batchSize maxAttempts) u) \ D.db.buyers u).card := by
  obtain ⟨hok, hrun⟩ := Deployment.simulates hstart (drainPurchaseWrites_parse batchSize maxAttempts)
    (fun _ _ _ _ => ⟨rfl, rfl, rfl⟩) h
  have hticketed := hrun.inv (I := Ticketed u (D.db.buyers u) s.remainingStock) (hloaded.ticketed hs)
    fun _ _ _ hinv hd hstep => hinv.step hd hstep
  have hcounted := K6.counted_tickets bodies hsale honce
  constructor
  · have hle := hticketed.length_le
    rw [System.tickets, List.length_append] at hle
    push_cast at hle
    change ((D'.pending.flatMap (·.ticket u)).length : Int) + ((D'.answers.flatMap (·.ticket u)).length : Int) ≤ _
      at hle
    omega
  · have hnodup : (D'.answers.flatMap (·.ticket u)).Nodup := hticketed.once.sublist (List.sublist_append_right _ _)
    refine hcounted.trans ?_
    rw [← List.toFinset_card_of_nodup hnodup]
    refine Finset.card_le_card fun b hb => ?_
    have hb := List.mem_toFinset.1 hb
    refine Finset.mem_sdiff.2 ⟨?_, (hticketed.held b (List.mem_append_right _ hb)).2⟩
    have htold : b ∈ toldOf D'.answers u := by
      obtain ⟨a, ha, hticket⟩ := List.mem_flatMap.1 hb
      unfold Answer.ticket at hticket
      split_ifs at hticket with hif
      · obtain rfl := List.mem_singleton.1 hticket
        refine List.mem_toFinset.2 (List.mem_map.2 ⟨a, List.mem_filter.2 ⟨ha, ?_⟩, rfl⟩)
        simpa using hif
      · cases hticket
    have hdurable := hticketed.balances.durable htold
    have hheld : b ∈ ((D'.system (drainPurchaseWrites batchSize maxAttempts)).books u).held := hdurable
    rcases hok.held_placed hheld with hrow | ⟨m, hplace, hu, he⟩
    · exact Finset.mem_union_left _ hrow
    · refine Finset.mem_union_right _ (mem_mailOf.2 ⟨m, ?_, hu, he⟩)
      refine List.mem_filterMap.2 ⟨m.content, ?_, drainPurchaseWrites_parse batchSize maxAttempts m⟩
      simpa only [Deployment.Carries, List.mem_append, or_assoc] using hplace

end

/-- k6 hears all four successes, of five units: two rows, a dead letter and a
message that was lost. -/
theorem successes_accounted_demo :
    ∃ D' : Deployment String, ∃ heard : List K6.Heard, heard.length = 4 ∧
      (answers K6.purchase .start (heard.map (·.response nestBodies))).2.success ≤
        ((D'.db.buyers demoId ∪ D'.mailed (drainPurchaseWrites 2 1) demoId) \ (demoDb 5).buyers demoId).card := by
  have hrun : ∃ D', Deploys 2 1 500 (FrontOnly (drainPurchaseWrites 2 1) (Decided demoId)) (demoDeployment 5) D' ∧
      (D'.answers.length = 4 ∧ ∀ a ∈ D'.answers, Uuid.ofText a.saleId = demoId) :=
    Steps.exists_of_run demoAtRest (by decide +kernel)
  obtain ⟨D', hrun, hanswers, hsale⟩ := hrun
  have hheard : (D'.answers.map K6.Heard.answer).filterMap K6.Heard.answer? = D'.answers := by
    rw [List.filterMap_map]
    exact List.filterMap_some
  exact ⟨D', D'.answers.map .answer, by rw [List.length_map, hanswers],
    (successes_accounted nestBodies (demoDeployment_starts 5) (demoSystem_loaded 5)
      (s := ⟨demoId, 5, 5, 0, 1000000, none⟩) rfl hrun (by rwa [hheard]) (by rw [hheard])).2⟩

end FlashSale
