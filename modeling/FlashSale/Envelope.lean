import FlashSale.Wire
import FlashSale.Purchases
/-!
# Responses

An api response from the handler to the page: `TransformInterceptor` puts what
a handler returns in an envelope, Nest and nestjs-zod put what it throws in
bodies of their own, and `apiFetch` (apps/web/src/api) makes a value or an
`ApiError` of either. A page gets what the handler returned, or an error with
the message in the body.
-/

namespace FlashSale
open Lib.Json Lib.Parts

/-! ## `apiFetch` -/

def NETWORK_ERROR_STATUS : Int := 0
def NETWORK_ERROR_MESSAGE : String := "Could not reach the server. Check your connection and try again."

/-- What `fetch` comes to. -/
inductive FetchReply where
  /-- It rejects with an `AbortError`. -/
  | aborted
  /-- It rejects with anything else. -/
  | failed
  | answered (status : Nat) (body : String)

def isRecord : Value → Bool
  | .obj _ | .arr _ => true
  | _ => false

def toApiError (status : Nat) (payload : Value) : ApiError where
  status := status
  message := if isRecord payload then (payload.getStr "message").getD UNEXPECTED_ERROR_MESSAGE else UNEXPECTED_ERROR_MESSAGE
  details :=
    match (if isRecord payload then payload.getArr "errors" else none) with
    | some issues => issues.filterMap fun issue => if isRecord issue then issue.getStr "message" else none
    | none => []

/-- What `apiFetch` resolves to, or rejects with: an `AbortError` is passed on. -/
def apiFetch : FetchReply → Except (Cause String) Value
  | .aborted => .error (.other "AbortError")
  | .failed => .error (.apiError ⟨NETWORK_ERROR_STATUS, NETWORK_ERROR_MESSAGE, []⟩)
  | .answered status body =>
    let payload := (parse body).getD .null
    if ¬ (200 ≤ status ∧ status ≤ 299) then .error (.apiError (toApiError status payload))
    else
      match (if isRecord payload then payload.get "data" else none) with
      | some data => .ok data
      | none => .error (.apiError ⟨status, UNEXPECTED_ERROR_MESSAGE, []⟩)

/-! ## Bodies -/

def DEFAULT_MESSAGE : String := "Success"

/-- `TransformInterceptor.intercept`, with what `@ResponseMessage` set. -/
def intercept (statusCode : Nat) (message : Option String) (data : Value) : Value :=
  .obj [("statusCode", .num statusCode), ("message", .str (message.getD DEFAULT_MESSAGE)), ("data", data)]

/-- How a handler ends: it returns, throws an `HttpException`, throws anything
else, or its input did not pass `ZodValidationPipe`. -/
inductive Handled where
  | returned (data : Value)
  | exception (status : Nat) (error message : String)
  | thrown
  | invalid (issues : List Value)

def VALIDATION_FAILED : String := "Validation failed"

/-- The bodies that Nest's exception filter and nestjs-zod's errors come to.
Neither is part of the repository. -/
structure ErrorBodies where
  /-- For an `HttpException`: by its status, that status's name and its message. -/
  exception : Nat → String → String → Value
  /-- For anything else that is thrown. -/
  thrown : Value
  /-- For what did not pass `ZodValidationPipe`: by its issues. -/
  invalid : List Value → Value

/-- The shape that `toApiError` goes by: 404 and 500 are
`{ statusCode, message, error }`, and 400 is `{ statusCode: 400, message:
"Validation failed", errors: ZodIssue[] }`. `internal` is the message of a 500. -/
structure ErrorBodies.Stated (b : ErrorBodies) (internal : String) : Prop where
  exception : ∀ status error message, (b.exception status error message).getStr "message" = some message
  exception_errors : ∀ status error message, (b.exception status error message).getArr "errors" = none
  thrown : b.thrown.getStr "message" = some internal
  thrown_errors : b.thrown.getArr "errors" = none
  invalid : ∀ issues, (b.invalid issues).getStr "message" = some VALIDATION_FAILED
  invalid_errors : ∀ issues, (b.invalid issues).getArr "errors" = some issues

def respond (b : ErrorBodies) (statusCode : Nat) (message : Option String) : Handled → FetchReply
  | .returned data => .answered statusCode (print (intercept statusCode message data))
  | .exception status error text => .answered status (print (b.exception status error text))
  | .thrown => .answered 500 (print b.thrown)
  | .invalid issues => .answered 400 (print (b.invalid issues))

/-- The messages of zod issues, in order. -/
def issueMessages (issues : List Value) : List String := issues.filterMap (·.getStr "message")

theorem getStr_isRecord (key : String) (x : Value) : (if isRecord x then x.getStr key else none) = x.getStr key := by
  cases x <;> rfl

theorem apiFetch_returned (b : ErrorBodies) {statusCode : Nat} (h : 200 ≤ statusCode ∧ statusCode ≤ 299)
    (message : Option String) (data : Value) : apiFetch (respond b statusCode message (.returned data)) = .ok data := by
  rw [respond, apiFetch, if_neg (not_not_intro h), parse_print]
  rfl

/-- An error body comes back as the error it was made of. -/
theorem apiFetch_failed {status : Nat} (h : ¬ (200 ≤ status ∧ status ≤ 299)) (payload : Value) :
    apiFetch (.answered status (print payload)) = .error (.apiError (toApiError status payload)) := by
  simp only [apiFetch, parse_print, Option.getD_some, h, not_false_eq_true, if_true]

/-- Of an error body it reads the message and the issues. -/
theorem toApiError_eq (status : Nat) {payload : Value} {text : String} {errors : Option (List Value)}
    (htext : payload.getStr "message" = some text) (herrors : payload.getArr "errors" = errors) :
    toApiError status payload = ⟨status, text, issueMessages (errors.getD [])⟩ := by
  have hrecord : isRecord payload = true := by
    cases payload with
    | obj | arr => rfl
    | _ => cases htext
  have hissues : ∀ issues, issueMessages issues =
      issues.filterMap fun issue => if isRecord issue then issue.getStr "message" else none := by
    intro issues
    rw [issueMessages]
    congr 1
    exact funext fun issue => (getStr_isRecord "message" issue).symm
  rw [hissues]
  simp only [toApiError, hrecord, if_true, htext, herrors, Option.getD_some]
  cases errors <;> rfl

/-! ## What the endpoints return -/

def PurchaseStatus.text : PurchaseStatus → String
  | .success => "success"
  | .already_purchased => "already_purchased"
  | .sold_out => "sold_out"
  | .sale_not_active => "sale_not_active"

def SalePhase.text : SalePhase → String
  | .upcoming => "upcoming"
  | .active => "active"
  | .ended => "ended"
  | .sold_out => "sold_out"

def PurchaseStatus.ofText (text : String) : Option PurchaseStatus :=
  [.success, .already_purchased, .sold_out, .sale_not_active].find? (·.text = text)

def SalePhase.ofText (text : String) : Option SalePhase :=
  [.upcoming, .active, .ended, .sold_out].find? (·.text = text)

theorem PurchaseStatus.ofText_text (s : PurchaseStatus) : ofText s.text = some s := by cases s <;> decide +kernel

theorem SalePhase.ofText_text (p : SalePhase) : ofText p.text = some p := by cases p <;> decide +kernel

def PurchaseResult.toJson (r : PurchaseResult) : Value := .obj [("status", .str r.status.text), ("message", .str r.message)]

def PurchaseResult.ofJson (x : Value) : Option PurchaseResult := do
  let status ← (← x.getStr "status") |> PurchaseStatus.ofText
  let message ← x.getStr "message"
  some ⟨status, message⟩

def nullable : Option String → Value
  | none => .null
  | some s => .str s

def Product.toJson (p : Product) : Value :=
  .obj [("id", .str p.id), ("name", .str p.name), ("description", nullable p.description),
    ("imageUrl", nullable p.imageUrl), ("price", .str p.price)]

def Product.ofJson (x : Value) : Option Product := do
  let id ← x.getStr "id"
  let name ← x.getStr "name"
  let description ← x.getNullable "description"
  let imageUrl ← x.getNullable "imageUrl"
  let price ← x.getStr "price"
  some ⟨id, name, description, imageUrl, price⟩

/-- A sale with its keys in the order of `mapRowToSale`. -/
def Sale.toJson (s : Sale) : Value :=
  .obj [("id", .str s.id), ("product", s.product.toJson), ("phase", .str s.phase.text),
    ("salePrice", .str s.salePrice), ("totalStock", .num s.totalStock), ("remainingStock", .num s.remainingStock),
    ("startsAt", .str s.startsAt), ("endsAt", .str s.endsAt), ("serverTime", .str s.serverTime)]

def Sale.ofJson (x : Value) : Option Sale := do
  let id ← x.getStr "id"
  let product ← (← x.get "product") |> Product.ofJson
  let phase ← (← x.getStr "phase") |> SalePhase.ofText
  let salePrice ← x.getStr "salePrice"
  let totalStock ← x.getInt "totalStock"
  let remainingStock ← x.getInt "remainingStock"
  let startsAt ← x.getStr "startsAt"
  let endsAt ← x.getStr "endsAt"
  let serverTime ← x.getStr "serverTime"
  some ⟨id, product, phase, salePrice, totalStock, remainingStock, startsAt, endsAt, serverTime⟩

/-- `as T[]`. -/
def listOfJson {α : Type} (ofJson : Value → Option α) : Value → Option (List α)
  | .arr xs => xs.mapM ofJson
  | _ => none

theorem PurchaseResult.ofJson_toJson (r : PurchaseResult) : ofJson r.toJson = some r := by
  change (PurchaseStatus.ofText r.status.text).bind _ = _
  rw [PurchaseStatus.ofText_text]
  rfl

theorem Product.ofJson_toJson (p : Product) : ofJson p.toJson = some p := by
  obtain ⟨id, name, description, imageUrl, price⟩ := p
  cases description <;> cases imageUrl <;> rfl

theorem Sale.ofJson_toJson (s : Sale) : ofJson s.toJson = some s := by
  change (Product.ofJson s.product.toJson).bind _ = _
  rw [Product.ofJson_toJson]
  change (SalePhase.ofText s.phase.text).bind _ = _
  rw [SalePhase.ofText_text]
  rfl

theorem listOfJson_map {α : Type} {toJson : α → Value} {ofJson : Value → Option α}
    (h : ∀ a, ofJson (toJson a) = some a) (l : List α) : listOfJson ofJson (.arr (l.map toJson)) = some l := by
  change (l.map toJson).mapM ofJson = some l
  induction l with
  | nil => rfl
  | cons a l ih => simp [h, ih]

/-! ## The two ends of an endpoint -/

/-- What Nest makes of the outcome of a service's method. -/
def handled {α : Type} (toJson : α → Value) : Except JsError α → Handled
  | .ok result => .returned (toJson result)
  | .error (.notFound message) => .exception 404 "Not Found" message
  | .error _ => .thrown

/-- `SalesController`'s handlers, their input validated. -/
def getSalesHandler : Except JsError (List Sale) → Handled := handled fun sales => .arr (sales.map Sale.toJson)

def getSaleByIdHandler : Except JsError Sale → Handled := handled Sale.toJson

def purchaseHandler : Except JsError PurchaseResult → Handled := handled PurchaseResult.toJson

/-- The calls in the page, for the response to each. -/
def getSales (reply : FetchReply) : Except (Cause String) (Option (List Sale)) :=
  (apiFetch reply).map (listOfJson Sale.ofJson)

def getSaleById (reply : FetchReply) : Except (Cause String) (Option Sale) := (apiFetch reply).map Sale.ofJson

def postPurchase (reply : FetchReply) : Except (Cause String) (Option PurchaseResult) :=
  (apiFetch reply).map PurchaseResult.ofJson

/-- The error a page sees for what a method threw. -/
def thrownToPage (internal : String) : JsError → ApiError
  | .notFound message => ⟨404, message, []⟩
  | _ => ⟨500, internal, []⟩

def onPage {α : Type} (internal : String) : Except JsError α → Except (Cause String) (Option α)
  | .ok result => .ok (some result)
  | .error e => .error (.apiError (thrownToPage internal e))

section
variable {b : ErrorBodies} {internal : String}

theorem apiFetch_handled (hb : b.Stated internal) {α : Type} {toJson : α → Value} {ofJson : Value → Option α}
    (h : ∀ a, ofJson (toJson a) = some a) (message : String) (outcome : Except JsError α) :
    (apiFetch (respond b 200 (some message) (handled toJson outcome))).map ofJson = onPage internal outcome := by
  cases outcome with
  | ok result =>
    rw [handled, apiFetch_returned b (by decide)]
    exact congrArg Except.ok (h result)
  | error e =>
    cases e with
    | notFound text =>
      rw [handled, respond, apiFetch_failed (by decide),
        toApiError_eq 404 (hb.exception ..) (hb.exception_errors ..)]
      rfl
    | coded | query | soldOut | oversold =>
      simp only [handled, respond]
      rw [apiFetch_failed (by decide), toApiError_eq 500 hb.thrown hb.thrown_errors]
      rfl

/-! ## Main theorem -/

/-- Through the text of the response, a page gets the sales that were listed,
the sale that was found and the result of the purchase. Of what was thrown
instead it gets the status and message of an `HttpException`, a 500 with its own
message for any other error, and the messages of a validation, in order. -/
theorem response_transparent (hb : b.Stated internal) (listed : Except JsError (List Sale))
    (found : Except JsError Sale) (outcome : Except JsError PurchaseResult) (message : Option String)
    (issues : List Value) :
    getSales (respond b 200 (some "Sales retrieved successfully") (getSalesHandler listed)) = onPage internal listed ∧
    getSaleById (respond b 200 (some "Sale retrieved successfully") (getSaleByIdHandler found)) =
      onPage internal found ∧
    postPurchase (respond b 200 (some "Purchase processed") (purchaseHandler outcome)) = onPage internal outcome ∧
    apiFetch (respond b 200 message (.invalid issues)) =
      .error (.apiError ⟨400, VALIDATION_FAILED, issueMessages issues⟩) := by
  refine ⟨apiFetch_handled hb (listOfJson_map Sale.ofJson_toJson) _ listed,
    apiFetch_handled hb Sale.ofJson_toJson _ found,
    apiFetch_handled hb PurchaseResult.ofJson_toJson _ outcome, ?_⟩
  rw [respond, apiFetch_failed (by decide), toApiError_eq 400 (hb.invalid issues) (hb.invalid_errors issues)]
  rfl

end

/-- The bodies as the two libraries write them. -/
def nestBodies : ErrorBodies where
  exception status error message :=
    .obj [("message", .str message), ("error", .str error), ("statusCode", .num status)]
  thrown := .obj [("statusCode", .num 500), ("message", .str "Internal server error")]
  invalid issues := .obj [("statusCode", .num 400), ("message", .str VALIDATION_FAILED), ("errors", .arr issues)]

theorem nestBodies_stated : nestBodies.Stated "Internal server error" where
  exception _ _ _ := rfl
  exception_errors _ _ _ := rfl
  thrown := rfl
  thrown_errors := rfl
  invalid _ := rfl
  invalid_errors _ := rfl

theorem response_transparent_demo :
    getSaleById (respond nestBodies 200 (some "Sale retrieved successfully")
        (getSaleByIdHandler (.error (.notFound "Sale not found")))) =
      .error (.apiError ⟨404, "Sale not found", []⟩) ∧
    postPurchase (respond nestBodies 200 (some "Purchase processed") (purchaseHandler (.error unreachable))) =
      .error (.apiError ⟨500, "Internal server error", []⟩) ∧
    apiFetch (respond nestBodies 200 none (.invalid [.obj [("message", .str "Invalid email")]])) =
      .error (.apiError ⟨400, VALIDATION_FAILED, ["Invalid email"]⟩) :=
  (response_transparent nestBodies_stated (.ok []) (.error (.notFound "Sale not found")) (.error unreachable) none
    [.obj [("message", .str "Invalid email")]]).2

end FlashSale
