import FlashSale.AsyncData
import FlashSale.Listing
import FlashSale.Writers
/-!
# Buying on the page

`usePurchase`, `PurchasePanel` and `LiveSaleCard` (apps/web/src): a click posts
the purchase, waits for the answer and out the minimum loading time, and then
refreshes the card's sale. A step is one run of a handler up to its next await.
The card stays mounted.
-/

namespace FlashSale
open Lib.Runs

/-! ## The state -/

def MIN_LOADING_MS : Int := 1000

/-- What a call of `handleBuy` awaits. -/
inductive BuyStage where
  | submitting
  /-- `submit` has returned. -/
  | returned
  /-- The timer that is due at a reading of the clock. -/
  | waiting (due : Int)
deriving DecidableEq

/-- A call of `handleBuy`. -/
structure Buy where
  saleId : String
  startedAt : Int
  stage : BuyStage
deriving DecidableEq

structure PurchasePanel (κ : Type) where
  /-- `LiveSaleCard`'s sale, and the user of the context. -/
  sale : Sale
  email : Option String
  result : Option PurchaseResult
  error : Option ApiError
  isSubmitting : Bool
  /-- `inFlightRef.current`. -/
  inFlight : Bool
  isBusy : Bool
  /-- The calls under way, and those done, each with the clock at its end. -/
  buys : List Buy
  done : List (Buy × Int)
  /-- Every purchase that was posted, and what came of those that settled. -/
  posts : List (String × String)
  outcomes : List (Outcome PurchaseResult κ)
deriving DecidableEq

def PurchasePanel.mount {κ : Type} (sale : Sale) (email : Option String) : PurchasePanel κ where
  sale := sale
  email := email
  result := none
  error := none
  isSubmitting := false
  inFlight := false
  isBusy := false
  buys := []
  done := []
  posts := []
  outcomes := []

/-! ## What is rendered -/

def OUTCOME_IS_ERROR : PurchaseStatus → Bool
  | .success | .already_purchased => false
  | .sold_out | .sale_not_active => true

/-- `NON_ACTIVE_LABELS`, which has no label for an active sale. -/
def NON_ACTIVE_LABELS : SalePhase → Option String
  | .upcoming => some "Not yet available"
  | .ended => some "Sale ended"
  | .sold_out => some "Sold out"
  | .active => none

structure BuyButton where
  label : String
  disabled : Bool
  spinner : Bool
deriving DecidableEq

inductive PanelView where
  | signIn
  /-- The status message with its icon, the alert, and the link to the order. -/
  | panel (status : Option (String × Bool)) (alert : Option String) (button : BuyButton) (viewOrder : Bool)
deriving DecidableEq

section
variable {κ : Type} (s : PurchasePanel κ)

def PurchasePanel.button : BuyButton where
  label := (NON_ACTIVE_LABELS s.sale.phase).getD (if s.isBusy then "Buying…" else "Buy now")
  disabled := s.sale.phase ≠ .active || s.isSubmitting || s.isBusy
  spinner := s.isBusy

def PurchasePanel.render : PanelView :=
  if s.email = none then .signIn
  else .panel
    (if s.isBusy then none else s.result.map fun r => (r.message, OUTCOME_IS_ERROR r.status))
    (if s.isBusy then none else s.error.map (·.message))
    s.button
    (!s.isBusy && s.result.any (·.status = .success))

/-! ## The steps -/

/-- A call of `handleBuy` is over: `onPurchased` refreshes the sale. -/
def PurchasePanel.finish (i : Nat) (b : Buy) (now : Int) : PurchasePanel κ :=
  { s with isBusy := false, buys := s.buys.eraseIdx i, done := s.done ++ [(b, now)] }

def PurchasePanel.click (email : String) (now : Int) : PurchasePanel κ :=
  if s.inFlight then { s with isBusy := true, buys := s.buys ++ [⟨s.sale.id, now, .returned⟩] }
  else { s with
    isBusy := true, inFlight := true, isSubmitting := true, error := none
    posts := s.posts ++ [(s.sale.id, email)]
    buys := s.buys ++ [⟨s.sale.id, now, .submitting⟩] }

/-- `submit` after its await, and the call that awaits it. -/
def PurchasePanel.settles (outcome : Outcome PurchaseResult κ) : PurchasePanel κ :=
  { s with
    result := match outcome with | .resolved r => some r | .rejected _ => none
    error := match outcome with | .resolved _ => s.error | .rejected cause => some (asApiError cause)
    inFlight := false, isSubmitting := false
    outcomes := s.outcomes ++ [outcome]
    buys := s.buys.map fun b => if b.stage = .submitting then { b with stage := .returned } else b }

end

inductive PanelAction (κ : Type) where
  /-- The user signs in or out. -/
  | user (email : Option String)
  | click (now : Int)
  /-- The purchase in flight settles. -/
  | settles (outcome : Outcome PurchaseResult κ)
  /-- Call `i` goes on after `submit`. -/
  | returns (i : Nat) (now : Int)
  | timer (i : Nat) (now : Int)
  /-- A `getSaleById` resolves. One that rejects leaves the card as it is. -/
  | refreshed (sale : Sale)

def PurchasePanel.step {κ : Type} (s : PurchasePanel κ) : PanelAction κ → Option (PurchasePanel κ)
  | .user email => some { s with email }
  | .click now => s.email.map fun email => s.click email now
  | .settles outcome => if s.inFlight then some (s.settles outcome) else none
  | .returns i now =>
    match s.buys[i]? with
    | some b =>
      if b.stage = .returned then
        let remainingMs := MIN_LOADING_MS - (now - b.startedAt)
        if 0 < remainingMs then some { s with buys := s.buys.set i { b with stage := .waiting (now + remainingMs) } }
        else some (s.finish i b now)
      else none
    | none => none
  | .timer i now =>
    match s.buys[i]? with
    | some b =>
      match b.stage with
      | .waiting due => if due ≤ now then some (s.finish i b now) else none
      | _ => none
    | none => none
  | .refreshed sale => some { s with sale }

/-- What an action does. -/
inductive PurchasePanel.Step {κ : Type} (s : PurchasePanel κ) : PanelAction κ → PurchasePanel κ → Prop
  | user (email : Option String) : Step s (.user email) { s with email }
  | click {email now} : s.email = some email → Step s (.click now) (s.click email now)
  | settles {outcome} : s.inFlight = true → Step s (.settles outcome) (s.settles outcome)
  | waits {i b now} : s.buys[i]? = some b → b.stage = .returned → now < b.startedAt + MIN_LOADING_MS →
      Step s (.returns i now)
        { s with buys := s.buys.set i { b with stage := .waiting (now + (MIN_LOADING_MS - (now - b.startedAt))) } }
  | returns {i b now} : s.buys[i]? = some b → b.stage = .returned → b.startedAt + MIN_LOADING_MS ≤ now →
      Step s (.returns i now) (s.finish i b now)
  | timer {i b due now} : s.buys[i]? = some b → b.stage = .waiting due → due ≤ now →
      Step s (.timer i now) (s.finish i b now)
  | refreshed (sale : Sale) : Step s (.refreshed sale) { s with sale }

theorem PurchasePanel.Step.of_step {κ : Type} {s s' : PurchasePanel κ} {a : PanelAction κ}
    (h : s.step a = some s') : s.Step a s' := by
  cases a with
  | user email =>
    obtain rfl := Option.some.inj h
    exact .user email
  | click now =>
    obtain ⟨email, hemail, rfl⟩ := Option.map_eq_some_iff.1 h
    exact .click hemail
  | settles outcome =>
    simp only [PurchasePanel.step] at h
    split at h
    · obtain rfl := Option.some.inj h
      exact .settles (by assumption)
    · cases h
  | returns i now =>
    simp only [PurchasePanel.step] at h
    split at h
    · rename_i b hb
      split at h
      · rename_i hstage
        split at h
        · obtain rfl := Option.some.inj h
          exact .waits hb hstage (by omega)
        · obtain rfl := Option.some.inj h
          exact .returns hb hstage (by omega)
      · cases h
    · cases h
  | timer i now =>
    simp only [PurchasePanel.step] at h
    split at h
    · rename_i b hb
      split at h
      · rename_i due hdue
        split at h
        · obtain rfl := Option.some.inj h
          exact .timer hb hdue (by assumption)
        · cases h
      · cases h
    · cases h
  | refreshed sale =>
    obtain rfl := Option.some.inj h
    exact .refreshed sale

/-! ## Whatever is clicked -/

section
variable {κ : Type} {s s' : PurchasePanel κ} {a : PanelAction κ}

def Outcome.shownResult : Option (Outcome PurchaseResult κ) → Option PurchaseResult
  | some (.resolved r) => some r
  | _ => none

def Outcome.shownError : Option (Outcome PurchaseResult κ) → Option ApiError
  | some (.rejected cause) => some (asApiError cause)
  | _ => none

@[simp] theorem Outcome.shownResult_none : Outcome.shownResult (none : Option (Outcome PurchaseResult κ)) = none := rfl
@[simp] theorem Outcome.shownError_none : Outcome.shownError (none : Option (Outcome PurchaseResult κ)) = none := rfl
@[simp] theorem Outcome.shownResult_resolved (r : PurchaseResult) :
    Outcome.shownResult (some (.resolved r : Outcome PurchaseResult κ)) = some r := rfl
@[simp] theorem Outcome.shownError_resolved (r : PurchaseResult) :
    Outcome.shownError (some (.resolved r : Outcome PurchaseResult κ)) = none := rfl
@[simp] theorem Outcome.shownResult_rejected (cause : Cause κ) : Outcome.shownResult (some (.rejected cause)) = none :=
  rfl
@[simp] theorem Outcome.shownError_rejected (cause : Cause κ) :
    Outcome.shownError (some (.rejected cause)) = some (asApiError cause) := rfl

/-- What is kept is what the last purchase came to, and one is in flight at most. -/
structure PurchasePanel.Ok (s : PurchasePanel κ) : Prop where
  flight : s.posts.length = s.outcomes.length + if s.inFlight then 1 else 0
  submitting : s.isSubmitting = s.inFlight
  result : s.result = Outcome.shownResult s.outcomes.getLast?
  error : s.error = if s.inFlight then none else Outcome.shownError s.outcomes.getLast?
  due : ∀ b ∈ s.buys, ∀ due, b.stage = .waiting due → b.startedAt + MIN_LOADING_MS ≤ due
  done : ∀ p ∈ s.done, p.1.startedAt + MIN_LOADING_MS ≤ p.2

theorem PurchasePanel.mount_ok (sale : Sale) (email : Option String) : (mount sale email : PurchasePanel κ).Ok := by
  constructor <;> simp [mount, Outcome.shownResult, Outcome.shownError]

theorem PurchasePanel.Ok.finish (h : s.Ok) {i : Nat} {b : Buy} {now : Int} (hnow : b.startedAt + MIN_LOADING_MS ≤ now) :
    (s.finish i b now).Ok where
  flight := h.flight
  submitting := h.submitting
  result := h.result
  error := h.error
  due b hb := h.due b (List.mem_of_mem_eraseIdx hb)
  done p hp := by
    rcases List.mem_append.1 hp with hp | hp
    · exact h.done p hp
    · obtain rfl := List.mem_singleton.1 hp
      exact hnow

theorem PurchasePanel.Ok.step (h : s.Ok) (hstep : s.Step a s') : s'.Ok := by
  cases hstep with
  | user | refreshed => exact { h with }
  | click =>
    unfold PurchasePanel.click
    split
    · refine { h with due := fun b hb => ?_ }
      rcases List.mem_append.1 hb with hb | hb
      · exact h.due b hb
      · simp only [List.mem_singleton] at hb
        simp [hb]
    · rename_i hidle
      refine { h with flight := ?_, submitting := rfl, error := rfl, due := fun b hb => ?_ }
      · have := h.flight
        simp_all
      · rcases List.mem_append.1 hb with hb | hb
        · exact h.due b hb
        · simp only [List.mem_singleton] at hb
          simp [hb]
  | @settles outcome hflight =>
    refine { h with flight := ?_, submitting := rfl, result := ?_, error := ?_, due := fun b hb => ?_ }
    · have := h.flight
      simp_all [PurchasePanel.settles]
    · cases outcome <;> simp [PurchasePanel.settles, Outcome.shownResult]
    · have := h.error
      cases outcome <;> simp_all [PurchasePanel.settles, Outcome.shownError]
    · obtain ⟨b₀, hb₀, rfl⟩ := List.mem_map.1 hb
      split
      · intro due hdue
        cases hdue
      · exact h.due b₀ hb₀
  | @waits i b now hb hstage hnow =>
    refine { h with due := fun c hc => ?_ }
    rcases List.mem_or_eq_of_mem_set hc with hc | rfl
    · exact h.due c hc
    · intro due hdue
      obtain rfl := BuyStage.waiting.inj hdue
      show b.startedAt + MIN_LOADING_MS ≤ now + (MIN_LOADING_MS - (now - b.startedAt))
      omega
  | returns hb hstage hnow => exact h.finish hnow
  | timer hb hdue hnow =>
    have := h.due _ (List.mem_of_getElem? hb) _ hdue
    exact h.finish (by omega)

/-! ## Clicks on a button that is there to be clicked -/

/-- A click comes through when the button that was rendered is enabled. -/
def PurchasePanel.Clickable (s : PurchasePanel κ) : PanelAction κ → Prop
  | .click _ => s.button.disabled = false
  | _ => True

instance (s : PurchasePanel κ) : (a : PanelAction κ) → Decidable (s.Clickable a)
  | .click _ => inferInstanceAs (Decidable (_ = _))
  | .user _ | .settles _ | .returns _ _ | .timer _ _ | .refreshed _ => .isTrue trivial

/-- One call at most is under way, and each has posted one purchase. -/
structure PurchasePanel.One (s : PurchasePanel κ) : Prop where
  calls : s.buys = [] ∧ s.isBusy = false ∧ s.inFlight = false ∨
    ∃ b, s.buys = [b] ∧ s.isBusy = true ∧ (s.inFlight = true ↔ b.stage = .submitting)
  posts : s.posts.map (·.1) = s.done.map (·.1.saleId) ++ s.buys.map (·.saleId)

theorem PurchasePanel.One.finish (h : s.One) {i : Nat} {b : Buy} (hb : s.buys[i]? = some b)
    (hstage : b.stage ≠ .submitting) (now : Int) : (s.finish i b now).One := by
  rcases h.calls with ⟨hnone, -, -⟩ | ⟨c, hone, -, hflight⟩
  · rw [hnone] at hb
    cases hb
  · rw [hone] at hb
    cases i with
    | succ i => cases hb
    | zero =>
      obtain rfl : c = b := Option.some.inj hb
      refine ⟨.inl ⟨by simp [PurchasePanel.finish, hone], rfl, by simpa [hstage, PurchasePanel.finish] using hflight⟩, ?_⟩
      simpa [PurchasePanel.finish, hone] using h.posts

theorem PurchasePanel.One.step (hok : s.Ok) (h : s.One) (hclick : s.Clickable a) (hstep : s.Step a s') : s'.One := by
  cases hstep with
  | user | refreshed => exact { h with }
  | @click email now =>
    obtain ⟨hsubmitting, hbusy⟩ : s.isSubmitting = false ∧ s.isBusy = false := by
      have hclick : s.button.disabled = false := hclick
      simp only [PurchasePanel.button, Bool.or_eq_false_iff] at hclick
      exact ⟨hclick.1.2, hclick.2⟩
    have hflight : s.inFlight = false := by rw [← hok.submitting, hsubmitting]
    rcases h.calls with ⟨hnone, -, -⟩ | ⟨b, -, hb, -⟩
    · rw [PurchasePanel.click, hflight]
      refine ⟨.inr ⟨⟨s.sale.id, now, .submitting⟩, by simp [hnone], rfl, by simp⟩, ?_⟩
      simpa [hnone] using h.posts
    · rw [hbusy] at hb
      cases hb
  | settles hflight =>
    rcases h.calls with ⟨-, -, hidle⟩ | ⟨b, hone, hbusy, hstage⟩
    · rw [hidle] at hflight
      cases hflight
    · refine ⟨.inr ⟨{ b with stage := .returned }, by simp [PurchasePanel.settles, hone, hstage.1 hflight], hbusy,
        by simp [PurchasePanel.settles]⟩, ?_⟩
      simpa [PurchasePanel.settles, hone, hstage.1 hflight] using h.posts
  | @waits i b now hb hreturned hnow =>
    rcases h.calls with ⟨hnone, -, -⟩ | ⟨c, hone, hbusy, hstage⟩
    · rw [hnone] at hb
      cases hb
    · rw [hone] at hb
      cases i with
      | succ i => cases hb
      | zero =>
        obtain rfl : c = b := Option.some.inj hb
        rw [hreturned] at hstage
        refine ⟨.inr ⟨_, by rw [hone]; rfl, hbusy, hstage.trans (by simp)⟩, ?_⟩
        simpa [hone] using h.posts
  | returns hb hreturned => exact h.finish hb (by simp [hreturned]) _
  | timer hb hdue => exact h.finish hb (by simp [hdue]) _

/-! ## Main theorems -/

/-- The status, the alert and whether there is a link, for what the last
purchase came to. -/
def Outcome.shown : Option (Outcome PurchaseResult κ) → Option (String × Bool) × Option String × Bool
  | none => (none, none, false)
  | some (.resolved r) => (some (r.message, OUTCOME_IS_ERROR r.status), none, r.status = .success)
  | some (.rejected cause) => (none, some (asApiError cause).message, false)

theorem PurchasePanel.Ok.shown (h : s.Ok) {status : Option (String × Bool)} {alert : Option String}
    {button : BuyButton} {viewOrder : Bool} (hrender : s.render = .panel status alert button viewOrder)
    (hbusy : s.isBusy = false) (hflight : s.inFlight = false) :
    (status, alert, viewOrder) = Outcome.shown s.outcomes.getLast? := by
  unfold PurchasePanel.render at hrender
  split at hrender
  · cases hrender
  · injection hrender with hstatus halert hbutton hview
    rw [← hstatus, ← halert, ← hview, h.result, h.error, hbusy, hflight]
    rcases s.outcomes.getLast? with _ | r | cause <;> simp [Outcome.shown]

/-- Whatever calls of `handleBuy` overlap, one purchase is in flight at most.
What the panel shows is what the last that settled came to, as a status or as an
alert and never as both; when it is not busy and none is in flight, it shows
that. No call is over before the minimum loading time is. -/
theorem panel_shows_last_outcome {sale : Sale} {email : Option String}
    (h : Steps PurchasePanel.step (fun _ _ => True) (PurchasePanel.mount sale email) s) :
    s.posts.length ≤ s.outcomes.length + 1 ∧
    (∀ status alert button viewOrder, s.render = .panel status alert button viewOrder →
      (status = none ∨ alert = none) ∧
      (status.isSome → ∃ r, s.outcomes.getLast? = some (.resolved r) ∧ status = some (r.message, OUTCOME_IS_ERROR r.status)) ∧
      (alert.isSome → ∃ cause, s.outcomes.getLast? = some (.rejected cause) ∧ alert = some (asApiError cause).message) ∧
      (viewOrder = true → ∃ r, s.outcomes.getLast? = some (.resolved r) ∧ r.status = .success) ∧
      (s.isBusy = false → s.inFlight = false → (status, alert, viewOrder) = Outcome.shown s.outcomes.getLast?)) ∧
    ∀ p ∈ s.done, p.1.startedAt + MIN_LOADING_MS ≤ p.2 := by
  have hok : s.Ok := h.inv (PurchasePanel.mount_ok sale email) fun _ _ _ hok _ hstep => hok.step (.of_step hstep)
  refine ⟨?_, fun status alert button viewOrder hrender => ?_, hok.done⟩
  · have := hok.flight
    split at this <;> omega
  · have hshown := hok.shown hrender
    simp only [← and_assoc]
    refine ⟨?_, hshown⟩
    unfold PurchasePanel.render at hrender
    split at hrender
    · cases hrender
    · injection hrender with hstatus halert hbutton hview
      by_cases hbusy : s.isBusy = true
      · simp_all
      · rw [if_neg hbusy] at hstatus halert
        rw [hok.result] at hstatus hview
        rw [hok.error] at halert
        generalize s.outcomes.getLast? = last at hstatus halert hview ⊢
        cases last with
        | none =>
          have halert : alert = none := by simpa using halert.symm
          simp_all
        | some outcome =>
          cases outcome with
          | resolved r =>
            have halert : alert = none := by simpa using halert.symm
            subst hstatus hview
            simp [halert]
          | rejected cause =>
            have hstatus : status = none := by simpa using hstatus.symm
            have halerts : alert.isSome → alert = some (asApiError cause).message := by
              rw [← halert]
              split <;> simp
            simp_all

/-- A sale of one unit that is open. -/
def openSale : Sale :=
  ⟨"s", ⟨"p", "Shoes", none, none, "80.00"⟩, .active, "40.00", 1, 1, toISOString 0, toISOString 1000, toISOString 0⟩

/-- A second call gets through before the first has settled: one purchase is
posted, and its refusal shown. -/
theorem panel_shows_last_outcome_demo :
    ∃ s : PurchasePanel Unit, Steps PurchasePanel.step (fun _ _ => True)
        (PurchasePanel.mount openSale (some "ann@example.com")) s ∧ s.posts = [("s", "ann@example.com")] ∧
      s.render = .panel (some ("Sorry, this item is sold out.", true)) none ⟨"Buy now", false, false⟩ false ∧
      ∀ p ∈ s.done, p.1.startedAt + MIN_LOADING_MS ≤ p.2 := by
  have hrun : ∃ s : PurchasePanel Unit, Steps PurchasePanel.step (fun _ _ => True)
      (PurchasePanel.mount openSale (some "ann@example.com")) s ∧ s.posts = [("s", "ann@example.com")] ∧
      s.render = .panel (some ("Sorry, this item is sold out.", true)) none ⟨"Buy now", false, false⟩ false :=
    Steps.exists_of_run [.click 0, .click 1, .returns 1 2, .settles (.resolved SOLD_OUT_RESULT), .returns 0 300,
      .timer 1 1001, .timer 0 1002] (by decide +kernel)
  obtain ⟨s, h, hposts, hrender⟩ := hrun
  exact ⟨s, h, hposts, hrender, (panel_shows_last_outcome h).2.2⟩

/-- With clicks on an enabled button only, the button is enabled when nothing is
under way, and each click posts one purchase and ends in one refresh of the
sale it was for, in order. -/
theorem panel_one_at_a_time {sale : Sale} {email : Option String}
    (h : Steps PurchasePanel.step PurchasePanel.Clickable (PurchasePanel.mount sale email) s) :
    (s.button.disabled = false → s.buys = [] ∧ s.posts.length = s.outcomes.length) ∧
    s.buys.length ≤ 1 ∧ (s.button.spinner = true ↔ s.buys ≠ []) ∧
    s.posts.map (·.1) = s.done.map (·.1.saleId) ++ s.buys.map (·.saleId) := by
  obtain ⟨hok, hone⟩ := h.inv (I := fun s => s.Ok ∧ s.One) ⟨PurchasePanel.mount_ok sale email, .inl ⟨rfl, rfl, rfl⟩, rfl⟩
    fun _ _ _ hinv hclick hstep => ⟨hinv.1.step (.of_step hstep), hinv.2.step hinv.1 hclick (.of_step hstep)⟩
  refine ⟨fun henabled => ?_, ?_, ?_, hone.posts⟩
  · simp only [PurchasePanel.button, Bool.or_eq_false_iff] at henabled
    have hflight := hok.flight
    rw [← hok.submitting, henabled.1.2] at hflight
    rcases hone.calls with ⟨hnone, -, -⟩ | ⟨b, -, hbusy, -⟩
    · exact ⟨hnone, hflight⟩
    · rw [henabled.2] at hbusy
      cases hbusy
  · rcases hone.calls with ⟨hnone, -, -⟩ | ⟨b, hb, -, -⟩
    · simp [hnone]
    · simp [hb]
  · show s.isBusy = true ↔ _
    rcases hone.calls with ⟨hnone, hbusy, -⟩ | ⟨b, hb, hbusy, -⟩
    · simp [hnone, hbusy]
    · simp [hb, hbusy]

end

/-- Two purchases one after the other, the first of which fails. -/
theorem panel_one_at_a_time_demo :
    ∃ s : PurchasePanel Unit, Steps PurchasePanel.step PurchasePanel.Clickable
        (PurchasePanel.mount openSale (some "ann@example.com")) s ∧ s.buys.length = 1 ∧ s.done.length = 1 ∧
      s.posts.map (·.1) = s.done.map (·.1.saleId) ++ s.buys.map (·.saleId) := by
  have hrun : ∃ s : PurchasePanel Unit, Steps PurchasePanel.step PurchasePanel.Clickable
      (PurchasePanel.mount openSale (some "ann@example.com")) s ∧ s.buys.length = 1 ∧ s.done.length = 1 :=
    Steps.exists_of_run [.click 0, .settles (.rejected (.other ())), .returns 0 2000, .click 3000] (by decide +kernel)
  obtain ⟨s, h, hbuys, hdone⟩ := hrun
  exact ⟨s, h, hbuys, hdone, (panel_one_at_a_time h).2.2.2⟩

end FlashSale
