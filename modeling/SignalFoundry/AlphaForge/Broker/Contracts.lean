import Mathlib.Data.String.Basic
import SignalFoundry.Library.Fallible
import SignalFoundry.Library.PyDecimal
import SignalFoundry.Library.PyRuntime
import SignalFoundry.Library.StableSort

/-!
# Broker contracts

The broker-neutral values of an order's life: a fill, which is one execution,
and a position, which is what executions of one symbol add up to. Each is
validated when it is built, so the conditions of its constructor are fields of
its type. Quantities and prices are decimals; a time is its number of
microseconds since the epoch in UTC.
-/

namespace SignalFoundry.Broker

open Fallible

inductive BrokerError where
  /-- `BrokerContractError`. -/
  | contract (message : String)
  /-- `ReconciliationError`, which is a `BrokerContractError` as well. -/
  | reconciliation (message : String)
  /-- An exception of the decimal context. -/
  | decimal (signal : DecimalSignal)
  deriving DecidableEq, Repr

/-- A decimal operation, whose signals are raised as they are. -/
def decimal {α : Type} (result : Except DecimalSignal α) : Except BrokerError α :=
  result.mapError .decimal

/-- `QUANTITY_EPSILON`. -/
def quantityEpsilon : ℚ := 1 / 1000000

inductive OrderSide where
  | buy
  | sell
  deriving DecidableEq, Repr

/-- A match of a regular expression that ends in `$`, which also holds before a
final line feed. -/
def matchesLine (pattern : String → Bool) (text : String) : Bool :=
  pattern text ||
    (text.toList.getLast? == some '\n' && pattern (String.ofList text.toList.dropLast))

/-- `_SYMBOL_PATTERN`: `^[A-Z][A-Z0-9.\-]{0,15}$`. -/
def isSymbol : String → Bool :=
  matchesLine (PyText.isToken PyText.isUpperAscii
    (fun c => PyText.isUpperAscii c || PyText.isDigitAscii c || c == '.' || c == '-') 15)

/-- `_CLIENT_ORDER_ID_PATTERN`: `^[A-Za-z0-9._\-]{1,64}$`. -/
def isClientOrderId : String → Bool :=
  let allowed := fun c => PyText.isAlnumAscii c || c == '.' || c == '_' || c == '-'
  matchesLine (PyText.isToken allowed allowed 63)

/-- `Fill`: one execution against an order. -/
structure Fill where
  clientOrderId : String
  symbol : String
  side : OrderSide
  quantity : ℚ
  price : ℚ
  filledAt : ℤ
  fillId : String
  clientOrderId_valid : isClientOrderId clientOrderId = true
  symbol_valid : isSymbol symbol = true
  quantity_gt : quantityEpsilon < quantity
  price_pos : 0 < price
  fillId_nonblank : PyText.isBlank fillId = false
  deriving DecidableEq

/-- `Position`: a held position. Quantity is signed: negative is short. -/
structure Position where
  symbol : String
  quantity : ℚ
  averageEntryPrice : ℚ
  symbol_valid : isSymbol symbol = true
  averageEntryPrice_pos : 0 < averageEntryPrice
  deriving DecidableEq

section Positions

variable [PyRuntime]

/-- `Position(symbol=, quantity=, average_entry_price=)`. The text about a
negative price ends before the price that it renders. -/
def Position.create (symbol : String) (quantity averageEntryPrice : ℚ) :
    Except BrokerError Position :=
  if hsymbol : isSymbol symbol = true then
    if averageEntryPrice < 0 then
      .error (.contract "average_entry_price must not be negative")
    else if hprice : 0 < averageEntryPrice then
      .ok ⟨symbol, quantity, averageEntryPrice, hsymbol, hprice⟩
    else .error (.contract "average_entry_price must be positive")
  else .error (.contract ("symbol " ++ PyRuntime.strRepr symbol ++
    " is malformed; expected uppercase alphanumeric with . or -, at most 16 characters"))

theorem Position.create_eq_ok {symbol : String} {quantity averageEntryPrice : ℚ}
    (hsymbol : isSymbol symbol = true) (hprice : 0 < averageEntryPrice) :
    Position.create symbol quantity averageEntryPrice =
      .ok ⟨symbol, quantity, averageEntryPrice, hsymbol, hprice⟩ := by
  rw [create, dif_pos hsymbol, if_neg hprice.not_gt, dif_pos hprice]

theorem Position.create_zero {symbol : String} {quantity : ℚ} (hsymbol : isSymbol symbol = true) :
    Position.create symbol quantity 0 =
      .error (.contract "average_entry_price must be positive") := by
  rw [create, dif_pos hsymbol, if_neg (lt_irrefl 0), dif_neg (lt_irrefl 0)]

end Positions

/-! ## Orders -/

inductive OrderType where
  | market
  | limit
  deriving DecidableEq, Repr

/-- `OrderState`: the lifecycle state of an order. -/
inductive OrderState where
  | pendingNew
  | accepted
  | partiallyFilled
  | filled
  | canceled
  | rejected
  | expired
  deriving DecidableEq, Repr

namespace OrderState

def value : OrderState → String
  | pendingNew => "pending_new"
  | accepted => "accepted"
  | partiallyFilled => "partially_filled"
  | filled => "filled"
  | canceled => "canceled"
  | rejected => "rejected"
  | expired => "expired"

/-- Membership of `TERMINAL_ORDER_STATES`. -/
def isTerminal : OrderState → Bool
  | filled | canceled | rejected | expired => true
  | pendingNew | accepted | partiallyFilled => false

/-- `ALLOWED_ORDER_TRANSITIONS`. -/
def allowedTransitions : OrderState → List OrderState
  | pendingNew => [accepted, rejected, canceled, partiallyFilled, filled, expired]
  | accepted => [partiallyFilled, filled, canceled, rejected, expired]
  | partiallyFilled => [partiallyFilled, filled, canceled, expired]
  | filled | canceled | rejected | expired => []

end OrderState

section Orders

variable [PyRuntime]

/-- `assert_transition_allowed`. -/
def assertTransitionAllowed (current proposed : OrderState) : Except BrokerError Unit :=
  if proposed ∈ current.allowedTransitions then .ok ()
  else if current.isTerminal then
    .error (.contract ("order is already terminal in " ++ PyRuntime.strRepr current.value ++ "; " ++
      PyRuntime.strRepr proposed.value ++ " cannot follow it. A late update for a settled order " ++
      "means local and broker history disagree and must be reconciled, not applied."))
  else .error (.contract (PyRuntime.strRepr current.value ++ " -> " ++
    PyRuntime.strRepr proposed.value ++ " is not a permitted transition"))

/-- The refusal of `validate_symbol`. -/
def malformedSymbol (symbol : String) : BrokerError :=
  .contract ("symbol " ++ PyRuntime.strRepr symbol ++
    " is malformed; expected uppercase alphanumeric with . or -, at most 16 characters")

/-- The refusal of `validate_client_order_id`. -/
def malformedClientOrderId (clientOrderId : String) : BrokerError :=
  .contract ("client_order_id " ++ PyRuntime.strRepr clientOrderId ++
    " is malformed; expected 1-64 characters of ASCII alphanumerics, dot, underscore, or hyphen")

end Orders

/-- `_decimal` of an exact number. As elsewhere, the text ends before the number
that it renders. -/
def checkDecimal (fieldName : String) (amount : ℚ) : Except BrokerError Unit :=
  refuseIf (amount < 0) (.contract (fieldName ++ " must not be negative, got "))

/-- `OrderRequest`: an intent to trade, before any broker has seen it. -/
structure OrderRequest where
  clientOrderId : String
  symbol : String
  side : OrderSide
  quantity : ℚ
  orderType : OrderType
  limitPrice : Option ℚ
  clientOrderId_valid : isClientOrderId clientOrderId = true
  symbol_valid : isSymbol symbol = true
  quantity_gt : quantityEpsilon < quantity
  limitPrice_isSome : limitPrice.isSome ↔ orderType = .limit
  limitPrice_pos : ∀ price ∈ limitPrice, 0 < price

/-- `Quote`: a price observation with its observation time. -/
structure Quote where
  symbol : String
  bid : ℚ
  ask : ℚ
  observedAt : ℤ
  symbol_valid : isSymbol symbol = true
  bid_pos : 0 < bid
  bid_le_ask : bid ≤ ask

theorem Quote.ask_pos (quote : Quote) : 0 < quote.ask := quote.bid_pos.trans_le quote.bid_le_ask

/-- `MarketClock`: broker-reported market state. -/
structure MarketClock where
  isOpen : Bool
  serverTime : ℤ

/-- `OrderStatus`: the broker's authoritative view of one order. -/
structure OrderStatus where
  clientOrderId : String
  brokerOrderId : String
  symbol : String
  side : OrderSide
  state : OrderState
  requestedQuantity : ℚ
  filledQuantity : ℚ
  averageFillPrice : Option ℚ
  submittedAt : ℤ
  updatedAt : ℤ
  reason : Option String
  clientOrderId_valid : isClientOrderId clientOrderId = true
  symbol_valid : isSymbol symbol = true
  brokerOrderId_nonblank : PyText.isBlank brokerOrderId = false
  filledQuantity_nonneg : 0 ≤ filledQuantity
  filledQuantity_le : filledQuantity ≤ requestedQuantity
  averageFillPrice_pos : ∀ price ∈ averageFillPrice, 0 < price
  requestedQuantity_le : state = .filled → requestedQuantity ≤ filledQuantity
  averageFillPrice_isSome : 0 < filledQuantity → averageFillPrice.isSome
  submittedAt_le : submittedAt ≤ updatedAt

/-- `MAX_REASON_CHARS`. -/
def maxReasonChars : ℕ := 512

/-- `MAX_POSITIONS`. -/
def maxPositions : ℕ := 5000

/-- `AccountSnapshot`: the broker's authoritative account state at one instant. -/
structure AccountSnapshot where
  accountIdDigest : String
  cash : ℚ
  equity : ℚ
  buyingPower : ℚ
  positions : List Position
  observedAt : ℤ
  isPaper : Bool
  accountIdDigest_length : accountIdDigest.length = 64
  buyingPower_nonneg : 0 ≤ buyingPower
  positions_length : positions.length ≤ maxPositions
  positions_nodup : (positions.map Position.symbol).Nodup

section Constructors

variable [PyRuntime]

/-- `OrderStatus(...)`. -/
def OrderStatus.create (clientOrderId brokerOrderId symbol : String) (side : OrderSide)
    (state : OrderState) (requestedQuantity filledQuantity : ℚ) (averageFillPrice : Option ℚ)
    (submittedAt updatedAt : ℤ) (reason : Option String) : Except BrokerError OrderStatus := do
  let ⟨clientOrderId_valid⟩ ← require (isClientOrderId clientOrderId = true)
    (malformedClientOrderId clientOrderId)
  let ⟨symbol_valid⟩ ← require (isSymbol symbol = true) (malformedSymbol symbol)
  let ⟨brokerOrderId_nonblank⟩ ← require (PyText.isBlank brokerOrderId = false)
    (.contract "broker_order_id must be a non-empty string")
  checkDecimal "requested_quantity" requestedQuantity
  let ⟨filledQuantity_nonneg⟩ ← require (0 ≤ filledQuantity)
    (.contract "filled_quantity must not be negative, got ")
  let ⟨filledQuantity_le⟩ ← require (filledQuantity ≤ requestedQuantity)
    (.contract "filled_quantity ")
  refuseIf (∃ price ∈ averageFillPrice, price < 0)
    (.contract "average_fill_price must not be negative, got ")
  let ⟨averageFillPrice_pos⟩ ← require (∀ price ∈ averageFillPrice, 0 < price)
    (.contract "average_fill_price must be positive when present")
  let ⟨requestedQuantity_le⟩ ← require (state = .filled → requestedQuantity ≤ filledQuantity)
    (.contract "state is FILLED but ")
  let ⟨averageFillPrice_isSome⟩ ← require (0 < filledQuantity → averageFillPrice.isSome)
    (.contract "a partially or fully filled order must report average_fill_price")
  let ⟨submittedAt_le⟩ ← require (submittedAt ≤ updatedAt)
    (.contract "updated_at precedes submitted_at")
  return { clientOrderId, brokerOrderId, symbol, side, state, requestedQuantity, filledQuantity,
           averageFillPrice, submittedAt, updatedAt,
           reason := reason.map fun text => String.ofList (text.toList.take maxReasonChars),
           clientOrderId_valid, symbol_valid, brokerOrderId_nonblank, filledQuantity_nonneg,
           filledQuantity_le, averageFillPrice_pos, requestedQuantity_le,
           averageFillPrice_isSome, submittedAt_le }

/-- `Fill(...)`. -/
def Fill.create (clientOrderId symbol : String) (side : OrderSide) (quantity price : ℚ)
    (filledAt : ℤ) (fillId : String) : Except BrokerError Fill := do
  let ⟨clientOrderId_valid⟩ ← require (isClientOrderId clientOrderId = true)
    (malformedClientOrderId clientOrderId)
  let ⟨symbol_valid⟩ ← require (isSymbol symbol = true) (malformedSymbol symbol)
  checkDecimal "fill quantity" quantity
  let ⟨quantity_gt⟩ ← require (quantityEpsilon < quantity)
    (.contract "a fill must have positive quantity")
  checkDecimal "fill price" price
  let ⟨price_pos⟩ ← require (0 < price) (.contract "a fill must have a positive price")
  let ⟨fillId_nonblank⟩ ← require (PyText.isBlank fillId = false)
    (.contract "fill_id must be a non-empty string")
  return { clientOrderId, symbol, side, quantity, price, filledAt, fillId, clientOrderId_valid,
           symbol_valid, quantity_gt, price_pos, fillId_nonblank }

/-- `AccountSnapshot(...)`, which sorts the positions by symbol. -/
def AccountSnapshot.create (accountIdDigest : String) (cash equity buyingPower : ℚ)
    (positions : List Position) (observedAt : ℤ) (isPaper : Bool) :
    Except BrokerError AccountSnapshot := do
  let ⟨accountIdDigest_length⟩ ← require (accountIdDigest.length = 64)
    (.contract ("account_id_digest must be a full SHA-256 hex digest; the raw account " ++
      "identifier must never be stored or logged"))
  let ⟨buyingPower_nonneg⟩ ← require (0 ≤ buyingPower)
    (.contract "buying_power must not be negative, got ")
  let ⟨positions_length⟩ ← require (positions.length ≤ maxPositions)
    (.contract "position count exceeds the 5000 ceiling")
  let ⟨positions_nodup⟩ ← require (positions.map Position.symbol).Nodup
    (.contract "duplicate symbol in positions; two rows for one symbol would double-count it")
  have hperm := perm_sortedBy Position.symbol positions
  return { accountIdDigest, cash, equity, buyingPower, observedAt, isPaper,
           positions := sortedBy Position.symbol positions,
           accountIdDigest_length, buyingPower_nonneg,
           positions_length := hperm.length_eq ▸ positions_length,
           positions_nodup := (hperm.map Position.symbol).nodup_iff.mpr positions_nodup }

end Constructors

end SignalFoundry.Broker
