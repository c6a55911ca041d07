import SignalFoundry.AlphaForge.Broker.Fills
import SignalFoundry.Library.Machine

/-!
# The paper adapter

A simulated broker. `submitOrder` accepts an order after its checks and, while
the market is open, fills all of it at the far side of the quote; `cancelOrder`
cancels an order that rests. A method raises at the point the source raises at
and leaves behind what the source has assigned until then, so an outcome is an
exception or a result together with the adapter it leaves. A resubmitted order
identifier returns the order that is on file.
-/

namespace SignalFoundry.Broker

open Fallible

inductive AdapterError where
  | contract (error : BrokerError)
  /-- `TerminalBrokerError`. -/
  | terminal (message : String)
  /-- `KillSwitchEngagedError`. -/
  | killSwitchEngaged (message : String)
  /-- `BrokerConfigurationError`. -/
  | configuration (message : String)
  /-- The `OverflowError` of a time outside the calendar. -/
  | overflow
  deriving DecidableEq, Repr

/-- A contract's refusal, which is raised as it is. -/
def contract {α : Type} (result : Except BrokerError α) : Except AdapterError α :=
  result.mapError .contract

/-- `timedelta.total_seconds`: the seconds of a number of microseconds, rounded to
a float. Nothing is assumed of the rounding. -/
class TotalSeconds where
  totalSeconds : ℤ → ℚ

namespace ExactSeconds

/-- Seconds that are not rounded. -/
scoped instance totalSeconds : TotalSeconds where
  totalSeconds microseconds := microseconds / 1000000

end ExactSeconds

/-- A datetime argument. -/
inductive Moment where
  | naive
  /-- Microseconds since the epoch in UTC. -/
  | aware (utc : ℤ)
  /-- A datetime whose time in UTC is outside the calendar. -/
  | unrepresentable

/-- `utc_timestamp`. -/
def utcTimestamp (fieldName : String) : Moment → Except AdapterError ℤ
  | .naive => .error (.contract (.contract (fieldName ++ " must be timezone-aware; a naive " ++
      "datetime is refused rather than assumed to be UTC or local, because both assumptions " ++
      "are wrong somewhere")))
  | .aware utc => .ok utc
  | .unrepresentable => .error .overflow

/-! ## Authorization -/

/-- `ALLOWED_PAPER_ENDPOINTS`. -/
def allowedPaperEndpoints : List String :=
  ["https://paper-api.alpaca.markets", "https://broker-api.sandbox.alpaca.markets"]

/-- `ALLOWED_KEYCHAIN_SERVICES`. -/
def allowedKeychainServices : List String := ["com.signal-foundry.alpaca-paper"]

/-- `FORBIDDEN_CREDENTIAL_ENVIRONMENT`, which is in alphabetical order. -/
def forbiddenCredentialEnvironment : List String :=
  ["ALPACA_API_KEY", "ALPACA_SECRET_KEY", "APCA_API_KEY_ID", "APCA_API_SECRET_KEY",
    "BROKER_API_KEY", "BROKER_SECRET_KEY"]

/-- `BrokerSessionConfig`: what is read of it here, with the checks of its constructor. -/
structure BrokerSessionConfig where
  enabled : Bool
  endpoint : String
  keychainService : String
  maxQuoteAgeSeconds : ℚ
  maxClockSkewSeconds : ℚ
  endpoint_allowed : endpoint = "" ∧ enabled = false ∨ endpoint ∈ allowedPaperEndpoints
  keychainService_allowed :
    keychainService = "" ∧ enabled = false ∨ keychainService ∈ allowedKeychainServices
  maxQuoteAgeSeconds_pos : 0 < maxQuoteAgeSeconds
  maxClockSkewSeconds_pos : 0 < maxClockSkewSeconds

/-- `QualificationDecision`: what is read of it here. -/
structure QualificationDecision where
  verdict : String
  candidateId : String
  blockingFailures : List String

/-- `QualificationDecision.qualified`. -/
def QualificationDecision.qualified (decision : QualificationDecision) : Bool :=
  decision.verdict == "QUALIFIED_FOR_PAPER"

section Authorization

variable [PyRuntime]

/-- The `repr` of a list of strings. -/
def reprNames (names : List String) : String :=
  "[" ++ ", ".intercalate (names.map PyRuntime.strRepr) ++ "]"

/-- `assert_no_credentials_in_environment`. -/
def assertNoCredentialsInEnvironment (environment : String → Option String) :
    Except AdapterError Unit :=
  let present := forbiddenCredentialEnvironment.filter fun name =>
    (environment name).any (· ≠ "")
  refuseIf (present ≠ []) (.configuration ("broker credentials found in environment variables " ++
    reprNames present ++ ". Credentials must come from the Keychain only: an environment " ++
    "variable is readable by every child process and lands in crash dumps and process " ++
    "listings. (Values are deliberately not shown.)"))

/-- `assert_endpoint_is_paper`, of the endpoint of a configuration: that it is
allowed was checked when it was written, so only its absence is left to refuse. -/
def assertEndpointIsPaper (config : BrokerSessionConfig) : Except AdapterError Unit :=
  refuseIf (config.endpoint = "") (.configuration "endpoint must be a non-empty string")

/-- `authorize_paper_session`. -/
def authorizePaperSession (config : BrokerSessionConfig)
    (qualification : Option QualificationDecision) (environment : String → Option String) :
    Except AdapterError Unit := do
  assertNoCredentialsInEnvironment environment
  refuseIf (config.enabled = false) (.configuration ("broker session is disabled. `enabled` " ++
    "defaults to False so a configuration that forgets to mention trading does not trade."))
  assertEndpointIsPaper config
  refuseIf (config.keychainService = "")
    (.configuration "an enabled session requires a keychain_service")
  match qualification with
  | none => .error (.configuration ("no qualification decision supplied. A paper session may " ++
      "operationalize only a strategy that cleared the formal qualification gate; absent a " ++
      "decision there is nothing to operationalize."))
  | some decision => refuseIf (decision.qualified = false) (.configuration ("candidate " ++
      PyRuntime.strRepr decision.candidateId ++ " has verdict " ++
      PyRuntime.strRepr decision.verdict ++ " with " ++ toString decision.blockingFailures.length ++
      " blocking failure(s): " ++ reprNames (decision.blockingFailures.take 5) ++
      ". Paper evaluation requires QUALIFIED_FOR_PAPER. This is not a configuration problem " ++
      "and cannot be resolved by changing a setting."))

end Authorization

/-! ## The adapter -/

/-- `MAX_TRACKED_ORDERS`. -/
def maxTrackedOrders : ℕ := 10000

/-- `MAX_TRACKED_FILLS`. -/
def maxTrackedFills : ℕ := 50000

/-- `PaperBrokerAdapter`. -/
structure PaperBrokerAdapter where
  config : BrokerSessionConfig
  qualification : Option QualificationDecision
  accountIdDigest : String
  openingCash : ℚ
  connected : Bool
  killSwitchEngaged : Bool
  orders : OrderedDict String OrderStatus
  fills : List Fill
  positions : OrderedDict String Position
  cash : ℚ
  nextBrokerId : ℕ
  nextFillId : ℕ

/-- An exception or a result, with the adapter that the method leaves. -/
abbrev Outcome (α : Type) := Except AdapterError α × PaperBrokerAdapter

/-- `OrderRequest` on a quote: whether an order fills at once while the market is open. -/
def OrderRequest.marketable (request : OrderRequest) (quote : Quote) : Bool :=
  match request.limitPrice, request.side with
  | none, _ => true
  | some limit, .buy => quote.ask ≤ limit
  | some limit, .sell => limit ≤ quote.bid

/-- The far side of the spread. -/
def Quote.farSide (quote : Quote) : OrderSide → ℚ
  | .buy => quote.ask
  | .sell => quote.bid

/-- `Fill.notional`: negative for a buy, positive for a sell. -/
def Fill.notional (context : DecimalContext) (fill : Fill) : Except DecimalSignal ℚ := do
  let gross ← context.mul fill.quantity fill.price
  match fill.side with
  | .buy => context.neg gross
  | .sell => return gross

/-- The identity of the fill with a number. -/
def fillIdOf (number : ℕ) : String := "fill-" ++ toString number

/-- The identity of the broker's order with a number. -/
def brokerOrderIdOf (number : ℕ) : String := "paper-" ++ toString number

namespace PaperBrokerAdapter

section Methods

variable [PyRuntime] [TotalSeconds] (context : DecimalContext)

/-- `PaperBrokerAdapter(...)`. -/
def create (config : BrokerSessionConfig) (qualification : Option QualificationDecision)
    (accountIdDigest : String) (openingCash : ℚ) : Except AdapterError PaperBrokerAdapter := do
  refuseIf (openingCash ≤ 0) (.contract (.contract "opening_cash must be finite and positive"))
  refuseIf (accountIdDigest.length ≠ 64) (.configuration ("account_id_digest must be a full " ++
    "SHA-256 digest; the raw identifier is never stored"))
  return { config, qualification, accountIdDigest, openingCash, connected := false,
           killSwitchEngaged := false, orders := .empty, fills := [], positions := .empty,
           cash := openingCash, nextBrokerId := 1, nextFillId := 1 }

variable (adapter : PaperBrokerAdapter)

/-- `connect`. -/
def connect (environment : String → Option String) : Outcome Unit :=
  match authorizePaperSession adapter.config adapter.qualification environment with
  | .error e => (.error e, adapter)
  | .ok () => (.ok (), { adapter with connected := true })

/-- `_require_ready`. -/
def requireReady : Except AdapterError Unit := do
  refuseIf (adapter.killSwitchEngaged = true) (.killSwitchEngaged ("kill switch is engaged; " ++
    "this session is permanently halted and cannot be re-enabled. Construct a new session " ++
    "deliberately."))
  refuseIf (adapter.connected = false) (.configuration ("session is not connected; call " ++
    "connect() so authorization is checked before any order-facing operation"))

/-- `assert_quote_usable`. -/
def assertQuoteUsable (quote : Quote) (now : ℤ) : Except AdapterError Unit := do
  let age := TotalSeconds.totalSeconds (now - quote.observedAt)
  refuseIf (age < 0) (.terminal ("quote for " ++ quote.symbol ++ " is timestamped "))
  refuseIf (adapter.config.maxQuoteAgeSeconds < age)
    (.terminal ("quote for " ++ quote.symbol ++ " is "))

/-- `assert_clock_usable`. -/
def assertClockUsable (clock : MarketClock) (localTime : ℤ) : Except AdapterError Unit :=
  let skew := |TotalSeconds.totalSeconds (localTime - clock.serverTime)|
  refuseIf (adapter.config.maxClockSkewSeconds < skew) (.terminal "clock skew ")

/-- The check of `submit_order` on the cost of a buy. -/
def assertAffordable (request : OrderRequest) (quote : Quote) : Except AdapterError Unit :=
  match request.side with
  | .buy => do
      let cost ← contract (decimal (context.mul request.quantity quote.ask))
      refuseIf (adapter.cash < cost)
        (.terminal ("insufficient buying power: " ++ request.symbol ++ " costs "))
  | .sell => .ok ()

/-- The checks of `submit_order` on an order that is new, and the status it is accepted with. -/
def accept (request : OrderRequest) (quote : Quote) (clock : MarketClock) (moment : ℤ) :
    Except AdapterError OrderStatus := do
  refuseIf (maxTrackedOrders ≤ adapter.orders.size)
    (.terminal "order count exceeds the 10000 ceiling")
  refuseIf (request.symbol ≠ quote.symbol)
    (.terminal ("quote is for " ++ quote.symbol ++ " but the order is for " ++ request.symbol))
  adapter.assertQuoteUsable quote moment
  adapter.assertClockUsable clock moment
  adapter.assertAffordable context request quote
  contract (OrderStatus.create request.clientOrderId (brokerOrderIdOf adapter.nextBrokerId)
    request.symbol request.side .accepted request.quantity 0 none moment moment none)

/-- `_apply_position`. A fill that leaves a quantity of `QUANTITY_EPSILON` or less
removes the position. -/
def applyPosition (positions : OrderedDict String Position) (fill : Fill) :
    Except AdapterError (OrderedDict String Position) := do
  let signed ← contract (decimal (fill.signedQuantity context))
  match positions.get? fill.symbol with
  | none =>
      return positions.set fill.symbol (← contract (Position.create fill.symbol signed fill.price))
  | some existing => do
      let combined ← contract (decimal (context.add existing.quantity signed))
      let size ← contract (decimal (context.abs combined))
      if size ≤ quantityEpsilon then return positions.erase fill.symbol
      else do
        let average ← contract (decimal (averageAfterFill context existing.quantity
          existing.averageEntryPrice signed combined fill.price))
        return positions.set fill.symbol (← contract (Position.create fill.symbol combined average))

/-- The average price of an order's fills after another one. -/
def averageFillPriceAfter (status : OrderStatus) (fill : Fill) (filled : ℚ) :
    Except DecimalSignal ℚ :=
  match status.averageFillPrice with
  | none => .ok fill.price
  | some price => do
      let priorNotional ← context.mul price status.filledQuantity
      let added ← context.mul fill.price fill.quantity
      context.div (← context.add priorNotional added) filled

/-- The part of `_apply_fill` before its first assignment: the order's new status. -/
def filledStatus (fill : Fill) (status : OrderStatus) : Except AdapterError OrderStatus := do
  refuseIf (maxTrackedFills ≤ adapter.fills.length)
    (.terminal "fill count exceeds the 50000 ceiling")
  let filled ← contract (decimal (context.add status.filledQuantity fill.quantity))
  let enough ← contract (decimal (context.sub status.requestedQuantity quantityEpsilon))
  let proposed := if enough ≤ filled then OrderState.filled else .partiallyFilled
  contract (assertTransitionAllowed status.state proposed)
  let average ← contract (decimal (averageFillPriceAfter context status fill filled))
  contract (OrderStatus.create status.clientOrderId status.brokerOrderId status.symbol
    status.side proposed status.requestedQuantity filled average status.submittedAt
    fill.filledAt none)

/-- `_apply_fill`. -/
def applyFill (fill : Fill) (status : OrderStatus) : Outcome OrderStatus :=
  match adapter.filledStatus context fill status with
  | .error e => (.error e, adapter)
  | .ok updated =>
      let recorded := { adapter with
        orders := adapter.orders.set status.clientOrderId updated
        fills := adapter.fills ++ [fill] }
      match contract (decimal (fill.notional context >>= context.add recorded.cash)) with
      | .error e => (.error e, recorded)
      | .ok cash =>
          let paid := { recorded with cash := cash }
          match applyPosition context paid.positions fill with
          | .error e => (.error e, paid)
          | .ok positions => (.ok updated, { paid with positions := positions })

/-- `_attempt_fill`. -/
def attemptFill (request : OrderRequest) (status : OrderStatus) (quote : Quote) (now : ℤ) :
    Outcome OrderStatus :=
  if request.marketable quote then
    match contract (Fill.create request.clientOrderId request.symbol request.side
      request.quantity (quote.farSide request.side) now (fillIdOf adapter.nextFillId)) with
    | .error e => (.error e, adapter)
    | .ok fill => ({ adapter with nextFillId := adapter.nextFillId + 1 }).applyFill context fill
        status
  else (.ok status, adapter)

/-- `submit_order`. -/
def submitOrder (request : OrderRequest) (quote : Quote) (clock : MarketClock) (now : Moment) :
    Outcome OrderStatus :=
  match (do adapter.requireReady; utcTimestamp "now" now) with
  | .error e => (.error e, adapter)
  | .ok moment =>
      match adapter.orders.get? request.clientOrderId with
      | some existing => (.ok existing, adapter)
      | none =>
          match adapter.accept context request quote clock moment with
          | .error e => (.error e, adapter)
          | .ok status =>
              let accepted := { adapter with
                nextBrokerId := adapter.nextBrokerId + 1
                orders := adapter.orders.set request.clientOrderId status }
              if clock.isOpen then accepted.attemptFill context request status quote moment
              else (.ok status, accepted)

/-- The part of `cancel_order` before its assignment: the order's new status. -/
def canceledStatus (clientOrderId : String) (now : Moment) : Except AdapterError OrderStatus := do
  adapter.requireReady
  match adapter.orders.get? clientOrderId with
  | none => .error (.terminal ("unknown client_order_id " ++ PyRuntime.strRepr clientOrderId))
  | some status => do
      refuseIf (status.state.isTerminal = true) (.terminal ("order " ++
        PyRuntime.strRepr clientOrderId ++ " is already terminal in " ++
        PyRuntime.strRepr status.state.value ++ "; cancelling a settled order would rewrite " ++
        "history"))
      contract (assertTransitionAllowed status.state .canceled)
      let moment ← utcTimestamp "now" now
      contract (OrderStatus.create status.clientOrderId status.brokerOrderId status.symbol
        status.side .canceled status.requestedQuantity status.filledQuantity status.averageFillPrice
        status.submittedAt moment (some "canceled_by_client"))

/-- `cancel_order`. -/
def cancelOrder (clientOrderId : String) (now : Moment) : Outcome OrderStatus :=
  match adapter.canceledStatus clientOrderId now with
  | .error e => (.error e, adapter)
  | .ok canceled =>
      (.ok canceled, { adapter with orders := adapter.orders.set clientOrderId canceled })

end Methods

end PaperBrokerAdapter

/-- A call of a method that changes the adapter. -/
inductive Call where
  | connect (environment : String → Option String)
  | submitOrder (request : OrderRequest) (quote : Quote) (clock : MarketClock) (now : Moment)
  | cancelOrder (clientOrderId : String) (now : Moment)

namespace PaperBrokerAdapter

variable [PyRuntime] [TotalSeconds] (context : DecimalContext)

/-- One call, and the order it returns. -/
def step (adapter : PaperBrokerAdapter) : Call → Outcome (Option OrderStatus)
  | .connect environment =>
      ((adapter.connect environment).1.map fun _ => none, (adapter.connect environment).2)
  | .submitOrder request quote clock now =>
      ((adapter.submitOrder context request quote clock now).1.map some,
        (adapter.submitOrder context request quote clock now).2)
  | .cancelOrder clientOrderId now =>
      ((adapter.cancelOrder clientOrderId now).1.map some,
        (adapter.cancelOrder clientOrderId now).2)

/-- The adapter after a sequence of calls. -/
def after (adapter : PaperBrokerAdapter) (calls : List Call) : PaperBrokerAdapter :=
  (Machine.run (step context) adapter calls).2

/-- `account_snapshot`. -/
def accountSnapshot (adapter : PaperBrokerAdapter) (now : Moment) :
    Except AdapterError AccountSnapshot := do
  adapter.requireReady
  let positions := adapter.positions.values
  let held ← contract (decimal (positions.foldlM (fun total item => do
    context.add total (← context.mul item.quantity item.averageEntryPrice)) 0))
  let equity ← contract (decimal (context.add adapter.cash held))
  let moment ← utcTimestamp "now" now
  contract (AccountSnapshot.create adapter.accountIdDigest adapter.cash equity
    (max adapter.cash 0) positions moment true)

end PaperBrokerAdapter

end SignalFoundry.Broker
