import SignalFoundry.Execution.Events.Parts

/-!
# Event payloads

The ten payloads, each with its constructor. A payload is a structure of checked
fields together with the conditions that relate them, so that a value of a
payload type is exactly what its constructor can return: numbers are finite,
bounded and without a negative zero, and weights, prices and fees are in the
order of their keys.

A constructor takes its raw fields in the order of the source and checks them in
that order.
-/

namespace SignalFoundry

open Fallible PyFloat

variable {F : Type}

/-- `SignalAvailable`: a signal artifact became available. -/
structure SignalAvailable where
  signalId : Identifier
  modelId : Identifier
  signalDigest : Digest

def SignalAvailable.create (signalId modelId signalDigest : Json F) :
    Except ExecutionEventError SignalAvailable := do
  let signalId ← identifier signalId "signal_id"
  let modelId ← identifier modelId "model_id"
  let signalDigest ← digest signalDigest "signal_digest"
  return { signalId, modelId, signalDigest }

/-- `OrderRejected`: a broker simulation rejected an order. -/
structure OrderRejected where
  orderId : Identifier
  reasonCode : Reason

def OrderRejected.create (orderId reasonCode : Json F) :
    Except ExecutionEventError OrderRejected := do
  let orderId ← identifier orderId "order_id"
  let reasonCode ← reason reasonCode "reason_code"
  return { orderId, reasonCode }

/-- `EngineHalted`: a terminal control event. -/
structure EngineHalted [PyRuntime] where
  reasonCode : Reason
  detail : Detail
  recoverable : Bool

def EngineHalted.create [PyRuntime] (reasonCode detail recoverable : Json F) :
    Except ExecutionEventError EngineHalted := do
  let reasonCode ← reason reasonCode "reason_code"
  let detail ← boundedText detail "detail"
  match recoverable with
  | .bool recoverable => return { reasonCode, detail, recoverable }
  | _ => .error ⟨"recoverable must be a boolean"⟩

variable [PyFloat F] [FloatText F]

/-- The terms of the target identity: the weights sum with cash to one. -/
def checkTargetWeights (weights : SymbolEntries F weightBound) (cash : BoundedFloat F weightBound) :
    Except ExecutionEventError Unit :=
  match fsum (weights.1.map fun entry => entry.2.1) with
  | none => .error ⟨"target weights overflowed"⟩
  | some net => reconcile (add net cash.1) (ofNat 1) "target weights plus cash"
      ((weights.1.map fun entry => entry.2.1) ++ [cash.1])

/-- `TargetDecided`: a target book eligible strictly after its decision session. -/
structure TargetDecided (F : Type) [PyFloat F] [FloatText F] where
  targetId : Identifier
  portfolioId : Identifier
  solverId : Identifier
  eligibleSession : PyDate
  cashWeight : BoundedFloat F weightBound
  weights : SymbolEntries F weightBound
  configurationDigest : Digest
  dataDigest : Digest
  problemDigest : Digest
  weights_length : weights.1.length ≤ maxTargetAssets
  reconciled : checkTargetWeights weights cashWeight = .ok ()

def TargetDecided.create [PyRuntime] (targetId portfolioId solverId : Json F)
    (eligibleSession : PyDate) (cashWeight : Json F) (weights : List (Json F × Json F))
    (configurationDigest dataDigest problemDigest : Json F) :
    Except ExecutionEventError (TargetDecided F) := do
  let targetId ← identifier targetId "target_id"
  let portfolioId ← identifier portfolioId "portfolio_id"
  let solverId ← identifier solverId "solver_id"
  let cashWeight ← finiteFloat weightBound cashWeight "cash_weight"
  refuseIf (weights.length > maxTargetAssets)
    ⟨"weights must be a tuple with at most " ++ toString maxTargetAssets ++ " entries"⟩
  let weights ← normalizedEntries
    { field := "weights", noun := "asset", duplicate := "duplicate target asset",
      value := "weight" } weightBound weights
  -- normalizing keeps the number of entries, so only evidence is added here
  let ⟨weights_length⟩ ← require (weights.1.length ≤ maxTargetAssets)
    ⟨"weights must be a tuple with at most " ++ toString maxTargetAssets ++ " entries"⟩
  let ⟨reconciled⟩ ← attest (checkTargetWeights weights cashWeight)
  let configurationDigest ← digest configurationDigest "configuration_digest"
  let dataDigest ← digest dataDigest "data_digest"
  let problemDigest ← digest problemDigest "problem_digest"
  return { targetId, portfolioId, solverId, eligibleSession, cashWeight, weights,
           configurationDigest, dataDigest, problemDigest, weights_length, reconciled }

/-- The limit price that an order type asks for. -/
def checkedLimitPrice (orderType : OrderType) (limitPrice : Json F) :
    Except ExecutionEventError (Option (BoundedFloat F priceBound)) :=
  match orderType, limitPrice with
  | .market, .null => .ok none
  | .market, _ => .error ⟨"market orders cannot carry a limit_price"⟩
  | .limit, .null => .error ⟨"limit orders require a limit_price"⟩
  | .limit, limitPrice => do return some (← finiteFloat priceBound limitPrice "limit_price")

/-- `OrderSubmitted`: one bounded daily order. -/
structure OrderSubmitted (F : Type) [PyFloat F] where
  orderId : Identifier
  symbol : MarketSymbol
  side : Side
  quantity : BoundedFloat F quantityBound
  orderType : OrderType
  timeInForce : TimeInForce
  limitPrice : Option (BoundedFloat F priceBound)
  limitPrice_isSome : limitPrice.isSome = true ↔ orderType = .limit

def OrderSubmitted.create (orderId symbol side quantity orderType timeInForce limitPrice : Json F) :
    Except ExecutionEventError (OrderSubmitted F) := do
  let orderId ← identifier orderId "order_id"
  let symbol ← marketSymbol symbol "symbol"
  let side ← checkedName Side "side must be 'buy' or 'sell'" side
  let quantity ← finiteFloat quantityBound quantity "quantity"
  let orderType ← checkedName OrderType "order_type must be 'market' or 'limit'" orderType
  let timeInForce ← checkedName TimeInForce "time_in_force must be 'day'" timeInForce
  let limitPrice ← checkedLimitPrice orderType limitPrice
  -- `checkedLimitPrice` has made sure of this
  let ⟨limitPrice_isSome⟩ ← require (limitPrice.isSome = true ↔ orderType = .limit)
    ⟨"limit orders require a limit_price"⟩
  return { orderId, symbol, side, quantity, orderType, timeInForce, limitPrice,
           limitPrice_isSome }

/-- `OrderAccepted`: a broker simulation accepted an order quantity. -/
structure OrderAccepted (F : Type) [PyFloat F] where
  orderId : Identifier
  acceptedQuantity : BoundedFloat F quantityBound

def OrderAccepted.create (orderId acceptedQuantity : Json F) :
    Except ExecutionEventError (OrderAccepted F) := do
  let orderId ← identifier orderId "order_id"
  let acceptedQuantity ← finiteFloat quantityBound acceptedQuantity "accepted_quantity"
  return { orderId, acceptedQuantity }

/-- `FeeComponent`: one non-negative fill fee. -/
structure FeeComponent (F : Type) [PyFloat F] where
  category : FeeCategory
  amount : BoundedFloat F feeBound

def FeeComponent.create (category : FeeCategory) (amount : Json F) :
    Except ExecutionEventError (FeeComponent F) := do
  let amount ← finiteFloat feeBound amount (category.value ++ " amount")
  return { category, amount }

/-- The fees of a fill in the order of their categories. -/
abbrev Fees (F : Type) [PyFloat F] := KeySorted fun fee : FeeComponent F => fee.category.value

/-- Fees of different categories, sorted by category. -/
def normalizedFees (fees : List (FeeComponent F)) : Except ExecutionEventError (Fees F) := do
  let ⟨unique⟩ ← require (fees.map fun fee => fee.category.value).Nodup
    ⟨"fill fee categories must be unique"⟩
  return KeySorted.ofNodup fees unique

omit [FloatText F] in
@[simp] theorem normalizedFees_self (fees : Fees F) : normalizedFees fees.1 = .ok fees := by
  simp only [normalizedFees, require_of fees.nodup, ok_bind, pure_eq_ok, KeySorted.ofNodup_self]

def maxFees : ℕ := (TextEnum.members : List FeeCategory).length

def checkNotional (quantity : BoundedFloat F quantityBound)
    (reference price : BoundedFloat F priceBound) : Except ExecutionEventError Unit :=
  refuseIf (lt (ofNat maxMoney) (mul quantity.1 (PyFloat.max reference.1 price.1)) = true)
    ⟨"fill notional exceeds the resource ceiling"⟩

def checkTotalFees (fees : Fees F) : Except ExecutionEventError Unit :=
  match fsum (fees.1.map fun fee => fee.amount.1) with
  | none => .error ⟨"fill fees overflowed"⟩
  | some total => refuseIf (¬ isFinite total = true ∨ lt (ofNat maxMoney) total = true)
      ⟨"fill fees exceed the resource ceiling"⟩

/-- `FillApplied`: one signed-side fill with its fees. -/
structure FillApplied (F : Type) [PyFloat F] where
  fillId : Identifier
  orderId : Identifier
  symbol : MarketSymbol
  side : Side
  quantity : BoundedFloat F quantityBound
  referencePrice : BoundedFloat F priceBound
  price : BoundedFloat F priceBound
  fees : Fees F
  notional_bounded : checkNotional quantity referencePrice price = .ok ()
  fees_length : fees.1.length ≤ maxFees
  fees_bounded : checkTotalFees fees = .ok ()

def FillApplied.create (fillId orderId symbol side quantity referencePrice price : Json F)
    (fees : List (FeeComponent F)) : Except ExecutionEventError (FillApplied F) := do
  let fillId ← identifier fillId "fill_id"
  let orderId ← identifier orderId "order_id"
  let symbol ← marketSymbol symbol "symbol"
  let side ← checkedName Side "side must be 'buy' or 'sell'" side
  let quantity ← finiteFloat quantityBound quantity "quantity"
  let referencePrice ← finiteFloat priceBound referencePrice "reference_price"
  let price ← finiteFloat priceBound price "price"
  let ⟨notional_bounded⟩ ← attest (checkNotional quantity referencePrice price)
  refuseIf (fees.length > maxFees) ⟨"fees must be a bounded tuple of FeeComponent records"⟩
  let fees ← normalizedFees fees
  -- sorting keeps the number of fees
  let ⟨fees_length⟩ ← require (fees.1.length ≤ maxFees)
    ⟨"fees must be a bounded tuple of FeeComponent records"⟩
  let ⟨fees_bounded⟩ ← attest (checkTotalFees fees)
  return { fillId, orderId, symbol, side, quantity, referencePrice, price, fees,
           notional_bounded, fees_length, fees_bounded }

/-- `total_fees`. -/
def FillApplied.totalFees (payload : FillApplied F) : Except PyError F :=
  match fsum (payload.fees.1.map fun fee => fee.amount.1) with
  | none => .error (.arithmeticError "intermediate overflow in fsum")
  | some total => .ok total

/-- `OrderCancelled`: the unfilled remainder of a day order was cancelled. -/
structure OrderCancelled (F : Type) [PyFloat F] where
  orderId : Identifier
  reasonCode : Reason
  cancelledQuantity : BoundedFloat F quantityBound

def OrderCancelled.create (orderId reasonCode cancelledQuantity : Json F) :
    Except ExecutionEventError (OrderCancelled F) := do
  let orderId ← identifier orderId "order_id"
  let reasonCode ← reason reasonCode "reason_code"
  let cancelledQuantity ← finiteFloat quantityBound cancelledQuantity "cancelled_quantity"
  return { orderId, reasonCode, cancelledQuantity }

/-- The check of a currency code. -/
def checkedCurrency (currency : Json F) :
    Except ExecutionEventError { code : String // code = "USD" } :=
  match currency with
  | .str code =>
      if EventText.isCurrency code = true then
        if h : code = "USD" then .ok ⟨code, h⟩
        else .error ⟨"cash charges support USD only; FX conversion is outside this schema"⟩
      else .error ⟨"currency must be a three-letter uppercase ASCII code"⟩
  | _ => .error ⟨"currency must be a three-letter uppercase ASCII code"⟩

/-- `CashChargeAccrued`: a positive charge applied to cash. -/
structure CashChargeAccrued (F : Type) [PyFloat F] where
  chargeId : Identifier
  chargeType : ChargeCategory
  amount : BoundedFloat F chargeBound
  currency : { code : String // code = "USD" }

def CashChargeAccrued.create (chargeId chargeType amount currency : Json F) :
    Except ExecutionEventError (CashChargeAccrued F) := do
  let chargeId ← identifier chargeId "charge_id"
  let chargeType ← checkedName ChargeCategory
    "charge_type must be one of: fees, financing, borrow, other" chargeType
  let amount ← finiteFloat chargeBound amount "amount"
  let currency ← checkedCurrency currency
  return { chargeId, chargeType, amount, currency }

/-- The identity of a mark: cash and holdings make up its equity. -/
def checkMarkedEquity (cash holdings equity : BoundedFloat F moneyBound) :
    Except ExecutionEventError Unit :=
  reconcile equity.1 (add cash.1 holdings.1) "marked equity" [cash.1, holdings.1]

/-- `PortfolioMarked`: a price snapshot with independently auditable aggregates. -/
structure PortfolioMarked (F : Type) [PyFloat F] [FloatText F] where
  markId : Identifier
  markType : MarkType
  prices : SymbolEntries F priceBound
  cash : BoundedFloat F moneyBound
  holdingsValue : BoundedFloat F moneyBound
  accruedCharges : BoundedFloat F feeBound
  equity : BoundedFloat F moneyBound
  prices_length : prices.1.length ≤ maxMarkPrices
  reconciled : checkMarkedEquity cash holdingsValue equity = .ok ()

def PortfolioMarked.create [PyRuntime] (markId markType : Json F) (prices : List (Json F × Json F))
    (cash holdingsValue accruedCharges equity : Json F) :
    Except ExecutionEventError (PortfolioMarked F) := do
  let markId ← identifier markId "mark_id"
  let markType ← checkedName MarkType "mark_type must be 'open' or 'close'" markType
  refuseIf (prices.length > maxMarkPrices)
    ⟨"prices must be a tuple with at most " ++ toString maxMarkPrices ++ " entries"⟩
  let prices ← normalizedEntries
    { field := "prices", noun := "symbol", duplicate := "duplicate mark symbol",
      value := "price" } priceBound prices
  -- normalizing keeps the number of entries
  let ⟨prices_length⟩ ← require (prices.1.length ≤ maxMarkPrices)
    ⟨"prices must be a tuple with at most " ++ toString maxMarkPrices ++ " entries"⟩
  let cash ← finiteFloat moneyBound cash "cash"
  let holdingsValue ← finiteFloat moneyBound holdingsValue "holdings_value"
  let accruedCharges ← finiteFloat feeBound accruedCharges "accrued_charges"
  let equity ← finiteFloat moneyBound equity "equity"
  let ⟨reconciled⟩ ← attest (checkMarkedEquity cash holdingsValue equity)
  return { markId, markType, prices, cash, holdingsValue, accruedCharges, equity,
           prices_length, reconciled }

/-! ## The payload of an event -/

inductive EventPayload (F : Type) [PyRuntime] [PyFloat F] [FloatText F] where
  | signalAvailable (payload : SignalAvailable)
  | targetDecided (payload : TargetDecided F)
  | orderSubmitted (payload : OrderSubmitted F)
  | orderAccepted (payload : OrderAccepted F)
  | orderRejected (payload : OrderRejected)
  | fillApplied (payload : FillApplied F)
  | orderCancelled (payload : OrderCancelled F)
  | cashChargeAccrued (payload : CashChargeAccrued F)
  | portfolioMarked (payload : PortfolioMarked F)
  | engineHalted (payload : EngineHalted)

/-- The class of a payload. -/
inductive PayloadType where
  | signalAvailable
  | targetDecided
  | orderSubmitted
  | orderAccepted
  | orderRejected
  | fillApplied
  | orderCancelled
  | cashChargeAccrued
  | portfolioMarked
  | engineHalted
  deriving DecidableEq, Repr

namespace PayloadType

/-- `event_type`. -/
def eventType : PayloadType → String
  | signalAvailable => "signal_available"
  | targetDecided => "target_decided"
  | orderSubmitted => "order_submitted"
  | orderAccepted => "order_accepted"
  | orderRejected => "order_rejected"
  | fillApplied => "fill_applied"
  | orderCancelled => "order_cancelled"
  | cashChargeAccrued => "cash_charge_accrued"
  | portfolioMarked => "portfolio_marked"
  | engineHalted => "engine_halted"

instance : TextEnum PayloadType where
  members := [signalAvailable, targetDecided, orderSubmitted, orderAccepted, orderRejected,
    fillApplied, orderCancelled, cashChargeAccrued, portfolioMarked, engineHalted]
  name := eventType
  mem_members payloadType := by cases payloadType <;> simp
  name_injective a b h := by cases a <;> cases b <;> simp_all [eventType]

/-- `payload_type.__name__`. -/
def className : PayloadType → String
  | signalAvailable => "SignalAvailable"
  | targetDecided => "TargetDecided"
  | orderSubmitted => "OrderSubmitted"
  | orderAccepted => "OrderAccepted"
  | orderRejected => "OrderRejected"
  | fillApplied => "FillApplied"
  | orderCancelled => "OrderCancelled"
  | cashChargeAccrued => "CashChargeAccrued"
  | portfolioMarked => "PortfolioMarked"
  | engineHalted => "EngineHalted"

end PayloadType

variable [PyRuntime]

def EventPayload.payloadType : EventPayload F → PayloadType
  | signalAvailable _ => .signalAvailable
  | targetDecided _ => .targetDecided
  | orderSubmitted _ => .orderSubmitted
  | orderAccepted _ => .orderAccepted
  | orderRejected _ => .orderRejected
  | fillApplied _ => .fillApplied
  | orderCancelled _ => .orderCancelled
  | cashChargeAccrued _ => .cashChargeAccrued
  | portfolioMarked _ => .portfolioMarked
  | engineHalted _ => .engineHalted

/-- `_expected_phase`. -/
def EventPayload.expectedPhase : EventPayload F → EventPhase
  | portfolioMarked payload =>
      match payload.markType with
      | .open => .openMark
      | .close => .closeMark
  | signalAvailable _ => .signal
  | targetDecided _ => .targetDecision
  | orderSubmitted _ => .orderSubmission
  | orderAccepted _ => .execution
  | orderRejected _ => .execution
  | fillApplied _ => .execution
  | orderCancelled _ => .dayCancel
  | cashChargeAccrued _ => .charge
  | engineHalted _ => .control

end SignalFoundry
