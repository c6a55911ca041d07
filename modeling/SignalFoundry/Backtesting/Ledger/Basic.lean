import Mathlib.Data.String.Basic
import SignalFoundry.Library.Fallible
import SignalFoundry.Library.OrderedDict
import SignalFoundry.Library.PyDate
import SignalFoundry.Library.PyFloat

/-!
# The self-financing portfolio ledger

`PortfolioLedger` keeps cash, signed share quantities, average costs, realized
profit and loss and charges by category. A mutation is built off to the side and
becomes the new ledger only when the local self-financing equation and the
cumulative cost-basis identity reconcile, so a call that raises returns no
ledger and the caller keeps the one it had.

Everything here is written over `PyFloat F`, in the order of operations of the
source; `Ledger.Exact` reads it over the rationals.
-/

namespace SignalFoundry

open Fallible PyFloat

/-! ## Charge categories -/

inductive ChargeCategory where
  | fees
  | financing
  | borrow
  | other
  deriving DecidableEq, Repr

/-- The category under the text it is stored as. -/
def ChargeCategory.name : ChargeCategory → String
  | .fees => "fees"
  | .financing => "financing"
  | .borrow => "borrow"
  | .other => "other"

/-- `CHARGE_CATEGORIES`. -/
def chargeCategories : List ChargeCategory := [.fees, .financing, .borrow, .other]

theorem ChargeCategory.mem_chargeCategories (category : ChargeCategory) :
    category ∈ chargeCategories := by
  cases category <;> simp [chargeCategories]

theorem ChargeCategory.name_injective : Function.Injective ChargeCategory.name := by
  intro a b h
  cases a <;> cases b <;> simp_all [ChargeCategory.name]

/-- Cumulative amounts by category. -/
abbrev ChargeTotals (F : Type) := ChargeCategory → F

/-- `charges.values()`: the amounts in the order of `CHARGE_CATEGORIES`. -/
def ChargeTotals.values {F : Type} (charges : ChargeTotals F) : List F :=
  chargeCategories.map charges

/-! ## State -/

/-- An immutable mark-to-market view of a portfolio. -/
structure LedgerSnapshot (F : Type) where
  date : PyDate
  cash : F
  equity : F
  positions : OrderedDict String F
  marketValues : OrderedDict String F
  weights : OrderedDict String F
  averageCosts : OrderedDict String F
  realizedPnlBySymbol : OrderedDict String F
  unrealizedPnlBySymbol : OrderedDict String F
  realizedPnl : F
  unrealizedPnl : F
  charges : ChargeTotals F
  totalCharges : F
  netPnl : F
  reconciliationError : F
  reconciliationTolerance : F
  weightsDefined : Bool
  bankrupt : Bool

/-- Cash and signed shares under self-financing accounting. -/
structure PortfolioLedger (F : Type) where
  initialCash : F
  cash : F
  positions : OrderedDict String F
  averageCosts : OrderedDict String F
  realizedPnlBySymbol : OrderedDict String F
  charges : ChargeTotals F

variable {F : Type} [PyRuntime] [PyFloat F]

namespace Ledger

/-! ## Validation of scalar inputs -/

/-- `_finite_float` of a value that is a float. -/
def finiteFloat (value : F) (name : String) : Except PyError F := do
  refuseIf (¬ isFinite value = true) (.valueError (name ++ " must be finite"))
  return value

def positivePrice (value : F) (name : String) : Except PyError F := do
  let price ← finiteFloat value name
  refuseIf (le price zero = true) (.valueError (name ++ " must be positive"))
  return price

def validateSymbol (symbol : String) : Except PyError Unit :=
  refuseIf (PyText.isBlank symbol = true) (.valueError "symbols must be non-empty strings")

def finiteSum (values : List F) (name : String) : Except PyError F := do
  match fsum values with
  | none => .error (.valueError (name ++ " must be finite"))
  | some result => finiteFloat result name

def finiteProduct (left right : F) (name : String) : Except PyError F :=
  finiteFloat (mul left right) name

/-- `_opposite_sign`: both nonzero, with signs that differ. -/
def oppositeSign (left right : F) : Bool :=
  !(eq left zero) && !(eq right zero) && signsDiffer left right

def validateChargeCategory (category : String) : Except PyError ChargeCategory :=
  match chargeCategories.find? fun c => c.name == category with
  | some c => .ok c
  | none => .error (.valueError
      "charge category must be one of: fees, financing, borrow, other")

/-- The loop of `_validate_charges` from one entry on. -/
def validateChargesFrom (index : ℕ) (seen : List ChargeCategory) (validated : ChargeTotals F) :
    List (String × F) → Except PyError (ChargeTotals F)
  | [] => .ok validated
  | (rawCategory, rawAmount) :: rest => do
      refuseIf (index ≥ chargeCategories.length)
        (.valueError "charges contains more entries than supported categories")
      let category ← validateChargeCategory rawCategory
      refuseIf (category ∈ seen)
        (.valueError ("charges contains duplicate category '" ++ category.name ++ "'"))
      let amount ← finiteFloat rawAmount (category.name ++ " charge")
      refuseIf (lt amount zero = true) (.valueError "charges must be non-negative")
      validateChargesFrom (index + 1) (category :: seen)
        (Function.update validated category amount) rest

/-- `_validate_charges`: a complete record of the four categories. -/
def validateCharges (charges : Option (List (String × F))) : Except PyError (ChargeTotals F) :=
  match charges with
  | none => .ok fun _ => zero
  | some entries => validateChargesFrom 0 [] (fun _ => zero) entries

/-! ## Reconciliation -/

/-- `_ULP_SAFETY_FACTOR`. -/
def ulpSafetyFactor : ℕ := 64

/-- `_ulp_tolerance`: an operation-count-adjusted ulp bound at the scale of the
values. -/
def ulpTolerance (values : List F) (operations : ℕ) : F :=
  let finite := (values.filter fun value => isFinite value).map PyFloat.abs
  let scale := maxOf zero finite
  if finite.isEmpty || eq scale zero then zero
  else
    let factor := Nat.max ulpSafetyFactor (8 * Nat.max operations finite.length)
    let tolerance := mul (ulp scale) (ofNat factor)
    if isFinite tolerance then tolerance else ulp scale

/-- The absolute error between two accounting values, with its tolerance. -/
def reconciliationError (observed expected : F) (operands : List F) :
    Except PyError (F × F) := do
  let error ← finiteSum [observed, neg expected] "accounting reconciliation error"
  let tolerance := ulpTolerance (operands ++ [observed, expected]) (operands.length + 4)
  return (PyFloat.abs error, tolerance)

/-- Whether two accounting values differ only by bounded roundoff. -/
def reconciles (observed expected : F) (operands : List F) : Except PyError Bool := do
  let (error, tolerance) ← reconciliationError observed expected operands
  return le error tolerance

def assertClose (observed expected : F) (operands : List F) (message : String) :
    Except PyError Unit := do
  let (error, tolerance) ← reconciliationError observed expected operands
  refuseIf (lt tolerance error = true) (.runtimeError message)

/-- `_clean_position_residue`: zero for an arithmetic residue whose marked value
is roundoff as well. -/
def cleanPositionResidue (quantity price : F) (operands : List F) : Except PyError F := do
  let quantityTolerance := ulpTolerance (operands ++ [quantity]) (operands.length + 1)
  if lt quantityTolerance (PyFloat.abs quantity) then
    return quantity
  else
    let markedResidue ← finiteProduct quantity price "position residue market value"
    let notionalOperands ← operands.mapM fun value =>
      finiteProduct value price "position residue operand"
    let valueTolerance :=
      ulpTolerance (notionalOperands ++ [markedResidue]) (notionalOperands.length + 2)
    return if le (PyFloat.abs markedResidue) valueTolerance then zero else quantity

/-- `_cost_basis_transition`: the realized profit and the new average cost of
one signed fill. -/
def costBasisTransition (oldQuantity oldAverage fillQuantity fillPrice newQuantity : F) :
    Except PyError (F × F) := do
  if eq oldQuantity zero then
    return (zero, if eq newQuantity zero then zero else fillPrice)
  else if eq fillQuantity zero then
    return (zero, oldAverage)
  else if !oppositeSign oldQuantity fillQuantity then
    let oldBasis ← finiteProduct (PyFloat.abs oldQuantity) oldAverage "old position basis"
    let fillBasis ← finiteProduct (PyFloat.abs fillQuantity) fillPrice "fill basis"
    let totalBasis ← finiteSum [oldBasis, fillBasis] "increased position basis"
    let denominator := PyFloat.abs newQuantity
    refuseIf (eq denominator zero = true)
      (.runtimeError "same-side fill unexpectedly produced a flat position")
    let newAverage := div totalBasis denominator
    refuseIf (¬ isFinite newAverage = true ∨ le newAverage zero = true)
      (.valueError "average cost after fill must be finite and positive")
    return (zero, newAverage)
  else
    let closingQuantity := PyFloat.min (PyFloat.abs oldQuantity) (PyFloat.abs fillQuantity)
    let priceChange ← finiteSum [fillPrice, neg oldAverage] "realized price change"
    let product ← finiteProduct closingQuantity priceChange "realized P&L change"
    let realizedDelta := if lt oldQuantity zero then neg product else product
    if eq newQuantity zero then
      return (realizedDelta, zero)
    else if !signsDiffer newQuantity oldQuantity then
      return (realizedDelta, oldAverage)
    else
      return (realizedDelta, fillPrice)

/-- `mapping[key]`. -/
def lookup (mapping : OrderedDict String F) (key : String) : Except PyError F :=
  match mapping.get? key with
  | some value => .ok value
  | none => .error (.keyError key)

/-- `set(left) == set(right)`. -/
def sameKeys (left right : OrderedDict String F) : Bool :=
  left.keys.all (fun key => right.keys.contains key) &&
    right.keys.all (fun key => left.keys.contains key)

def assertCostBasisReconciled (ledger : PortfolioLedger F) : Except PyError Unit := do
  refuseIf (¬ sameKeys ledger.positions ledger.averageCosts = true)
    (.runtimeError "open positions and average costs are misaligned")
  let basisValues ← ledger.positions.sortedItems.mapM fun (symbol, quantity) => do
    finiteProduct quantity (← lookup ledger.averageCosts symbol)
      ("cost-basis value for " ++ PyRuntime.strRepr symbol)
  let realizedValues := ledger.realizedPnlBySymbol.values
  let chargeValues := ledger.charges.values
  let observed ← finiteSum (ledger.cash :: basisValues) "cost-basis accounting value"
  let expected ← finiteSum (ledger.initialCash :: realizedValues ++ chargeValues.map neg)
    "expected cost-basis accounting value"
  assertClose observed expected
    (ledger.initialCash :: ledger.cash :: basisValues ++ realizedValues ++ chargeValues)
    "ledger failed cumulative cost-basis reconciliation"

end Ledger

/-! ## The ledger -/

namespace PortfolioLedger

open Ledger

/-- `PortfolioLedger(initial_cash)`. -/
def create (initialCash : F) : Except PyError (PortfolioLedger F) := do
  let cash ← Ledger.finiteFloat initialCash "initial_cash"
  refuseIf (le cash zero = true) (.valueError "initial_cash must be positive")
  return {
    initialCash := cash
    cash := cash
    positions := .empty
    averageCosts := .empty
    realizedPnlBySymbol := .empty
    charges := fun _ => zero }

def realizedPnl (ledger : PortfolioLedger F) : Except PyError F :=
  finiteSum ledger.realizedPnlBySymbol.values "realized P&L"

def totalCharges (ledger : PortfolioLedger F) : Except PyError F :=
  finiteSum ledger.charges.values "total charges"

/-- `clone`: an exact copy, refused when the source does not reconcile. -/
def clone (ledger : PortfolioLedger F) : Except PyError (PortfolioLedger F) := do
  assertCostBasisReconciled ledger
  let candidate ← create ledger.initialCash
  return { candidate with
    cash := ledger.cash
    positions := ledger.positions
    averageCosts := ledger.averageCosts
    realizedPnlBySymbol := ledger.realizedPnlBySymbol
    charges := ledger.charges }

/-- The dictionary after a position has been stored or closed. -/
def store (mapping : OrderedDict String F) (symbol : String) (closed : Bool) (value : F) :
    OrderedDict String F :=
  if closed then mapping.erase symbol else mapping.set symbol value

/-- The realized totals after a fill: only a fill against the position touches
the entry of its symbol. -/
def realizedAfterFill (realized : OrderedDict String F) (symbol : String) (closing : Bool)
    (realizedDelta : F) : Except PyError (OrderedDict String F) :=
  if closing then do
    let total ← finiteSum [realized.getD symbol zero, realizedDelta]
      ("realized P&L for " ++ PyRuntime.strRepr symbol)
    return realized.set symbol total
  else .ok realized

/-- The cumulative charges after a fill, summed in the order of the categories. -/
def chargesAfterFill (charges eventCharges : ChargeTotals F) :
    Except PyError (ChargeTotals F) := do
  let fees ← finiteSum [charges .fees, eventCharges .fees] "cumulative fees charges"
  let financing ← finiteSum [charges .financing, eventCharges .financing]
    "cumulative financing charges"
  let borrow ← finiteSum [charges .borrow, eventCharges .borrow] "cumulative borrow charges"
  let other ← finiteSum [charges .other, eventCharges .other] "cumulative other charges"
  return fun
    | .fees => fees
    | .financing => financing
    | .borrow => borrow
    | .other => other

/-- `apply_fill`: one fill, its charges, average cost and realized profit. -/
def applyFill (ledger : PortfolioLedger F) (symbol : String) (signedQuantity fillPrice : F)
    (commission : F) (charges : Option (List (String × F))) :
    Except PyError (PortfolioLedger F) := do
  validateSymbol symbol
  let quantity ← Ledger.finiteFloat signedQuantity "signed_quantity"
  let price ← positivePrice fillPrice "fill_price"
  let commissionValue ← Ledger.finiteFloat commission "commission"
  refuseIf (lt commissionValue zero = true) (.valueError "commission must be non-negative")
  let categoryCharges ← validateCharges charges
  let fees ← finiteSum [categoryCharges .fees, commissionValue] "fill fees"
  let eventCharges := Function.update categoryCharges .fees fees
  let eventChargeTotal ← finiteSum (ChargeTotals.values eventCharges) "fill charges"
  let oldQuantity := ledger.positions.getD symbol zero
  let oldAverage := ledger.averageCosts.getD symbol zero
  let notional ← finiteProduct quantity price "fill notional"
  let newCash ← finiteSum [ledger.cash, neg notional, neg eventChargeTotal]
    "cash balance after fill"
  let newQuantity ← finiteSum [oldQuantity, quantity] "position quantity after fill"
  let storedQuantity ← cleanPositionResidue newQuantity price [oldQuantity, quantity]
  let (realizedDelta, newAverage) ←
    costBasisTransition oldQuantity oldAverage quantity price storedQuantity
  let closed := eq storedQuantity zero
  let realized ← realizedAfterFill ledger.realizedPnlBySymbol symbol
    (oppositeSign oldQuantity quantity) realizedDelta
  let chargeTotals ← chargesAfterFill ledger.charges eventCharges
  let oldValueAtFill ← finiteProduct oldQuantity price "position market value at fill price"
  let newValueAtFill ← finiteProduct storedQuantity price "post-fill position market value"
  let beforeAtFill ← finiteSum [ledger.cash, oldValueAtFill] "pre-fill accounting value"
  let afterAtFill ← finiteSum [newCash, newValueAtFill] "post-fill accounting value"
  let expectedAfter ← finiteSum [beforeAtFill, neg eventChargeTotal]
    "expected post-fill accounting value"
  assertClose afterAtFill expectedAfter
    [ledger.cash, oldValueAtFill, newCash, newValueAtFill, eventChargeTotal]
    "fill failed self-financing accounting reconciliation"
  let updated : PortfolioLedger F := { ledger with
    cash := newCash
    positions := store ledger.positions symbol closed storedQuantity
    averageCosts := store ledger.averageCosts symbol closed newAverage
    realizedPnlBySymbol := realized
    charges := chargeTotals }
  assertCostBasisReconciled updated
  return updated

/-- `apply_charge`: debit one separately charged cost. -/
def applyCharge (ledger : PortfolioLedger F) (category : String) (amount : F) :
    Except PyError (PortfolioLedger F) := do
  let validatedCategory ← validateChargeCategory category
  let charge ← Ledger.finiteFloat amount (validatedCategory.name ++ " charge")
  refuseIf (lt charge zero = true) (.valueError "charges must be non-negative")
  let newCash ← finiteSum [ledger.cash, neg charge] "cash balance after charge"
  let total ← finiteSum [ledger.charges validatedCategory, charge]
    ("cumulative " ++ validatedCategory.name ++ " charges")
  let updated : PortfolioLedger F := { ledger with
    cash := newCash
    charges := Function.update ledger.charges validatedCategory total }
  assertCostBasisReconciled updated
  return updated

/-! ## Marked views -/

/-- The loop of `_validate_prices` over the price items. -/
def validatePriceItems : List (String × F) → Except PyError Unit
  | [] => .ok ()
  | (symbol, value) :: rest => do
      validateSymbol symbol
      let _ ← positivePrice value ("price for " ++ PyRuntime.strRepr symbol)
      validatePriceItems rest

/-- `_validate_prices`: positive prices that cover the required symbols. -/
def validatePrices (prices : OrderedDict String F) (required : List String) :
    Except PyError (OrderedDict String F) := do
  validatePriceItems prices.items
  let missing := (required.filter fun symbol => !(prices.keys.contains symbol)).insertionSort
    (· ≤ ·)
  refuseIf (missing ≠ []) (.valueError
    ("missing prices for symbols: " ++ String.intercalate ", " missing))
  return prices

/-- The loop of `_validate_weights` over the weight items. -/
def validateWeightItems : List (String × F) → Except PyError Unit
  | [] => .ok ()
  | (symbol, value) :: rest => do
      validateSymbol symbol
      let _ ← Ledger.finiteFloat value ("target weight for " ++ PyRuntime.strRepr symbol)
      validateWeightItems rest

/-- `_validate_weights`: finite weights with finite gross and net totals. -/
def validateWeights (weights : OrderedDict String F) :
    Except PyError (OrderedDict String F) := do
  validateWeightItems weights.items
  match fsum (weights.values.map PyFloat.abs), fsum weights.values with
  | some gross, some net => do
      refuseIf (¬ isFinite gross = true ∨ ¬ isFinite net = true)
        (.valueError "target gross and net weights must be finite")
      return weights
  | _, _ => .error (.valueError "target gross and net weights must be finite")

/-- `market_values`: the signed value of every open position. -/
def marketValues (ledger : PortfolioLedger F) (prices : OrderedDict String F) :
    Except PyError (OrderedDict String F) := do
  let validated ← validatePrices prices ledger.positions.keys
  let values ← ledger.positions.sortedItems.mapM fun (symbol, quantity) => do
    return (symbol, mul quantity (← lookup validated symbol))
  refuseIf (¬ values.all (fun p => isFinite p.2) = true)
    (.valueError "position market values must be finite")
  return .ofItems values

/-- `equity`: cash plus signed position values. -/
def equity (ledger : PortfolioLedger F) (prices : OrderedDict String F) : Except PyError F := do
  let values ← ledger.marketValues prices
  finiteSum (ledger.cash :: values.values) "marked equity"

/-- The loop of `target_orders` over the sorted symbols. -/
def targetOrderItems (ledger : PortfolioLedger F) (weights prices : OrderedDict String F)
    (pretradeEquity : F) : List String → Except PyError (List (String × F))
  | [] => .ok []
  | symbol :: rest => do
      let price ← lookup prices symbol
      let targetQuantity := div (mul (weights.getD symbol zero) pretradeEquity) price
      let signedQuantity := sub targetQuantity (ledger.positions.getD symbol zero)
      refuseIf (¬ isFinite signedQuantity = true) (.valueError
        ("target order quantity for " ++ PyRuntime.strRepr symbol ++ " must be finite"))
      let orders ← targetOrderItems ledger weights prices pretradeEquity rest
      return if eq signedQuantity zero then orders else (symbol, signedQuantity) :: orders

/-- `target_orders`: the signed share trades that reach the target weights from
one pre-trade equity. -/
def targetOrders (ledger : PortfolioLedger F) (targetWeights referencePrices : OrderedDict String F) :
    Except PyError (OrderedDict String F) := do
  let weights ← validateWeights targetWeights
  let symbols := (ledger.positions.keys ++ weights.keys).dedup.insertionSort (· ≤ ·)
  let prices ← validatePrices referencePrices symbols
  let pretradeEquity ← ledger.equity prices
  refuseIf (le pretradeEquity zero = true)
    (.valueError "pre-trade equity must be positive to size target orders")
  return .ofItems (← ledger.targetOrderItems weights prices pretradeEquity symbols)

end PortfolioLedger

/-- The part of `LedgerSnapshot.__post_init__` that checks one mapping. -/
def LedgerSnapshot.checkMapping (name : String) (mapping : OrderedDict String F) :
    Except PyError Unit :=
  refuseIf (mapping.items.any (fun p => PyText.isBlank p.1 || !(isFinite p.2)) = true)
    (.valueError ("snapshot " ++ name ++ " must be a finite string-keyed mapping"))

/-- The part of `LedgerSnapshot.__post_init__` that checks one number. -/
def LedgerSnapshot.checkNumber (name : String) (value : F) : Except PyError Unit := do
  let _ ← Ledger.finiteFloat value ("snapshot " ++ name)
  return

/-- The part of `LedgerSnapshot.__post_init__` that checks one number that must
not be negative. -/
def LedgerSnapshot.checkNonnegative (name : String) (value : F) : Except PyError Unit := do
  LedgerSnapshot.checkNumber name value
  refuseIf (lt value zero = true) (.valueError ("snapshot " ++ name ++ " must be non-negative"))

/-- `LedgerSnapshot.__post_init__`. -/
def LedgerSnapshot.postInit (snapshot : LedgerSnapshot F) : Except PyError (LedgerSnapshot F) := do
  checkMapping "positions" snapshot.positions
  checkMapping "market_values" snapshot.marketValues
  checkMapping "weights" snapshot.weights
  checkMapping "average_costs" snapshot.averageCosts
  checkMapping "realized_pnl_by_symbol" snapshot.realizedPnlBySymbol
  checkMapping "unrealized_pnl_by_symbol" snapshot.unrealizedPnlBySymbol
  refuseIf (snapshot.charges.values.any (fun value => !(isFinite value)) = true)
    (.valueError "snapshot charges must be a finite string-keyed mapping")
  checkNumber "cash" snapshot.cash
  checkNumber "equity" snapshot.equity
  checkNumber "realized_pnl" snapshot.realizedPnl
  checkNumber "unrealized_pnl" snapshot.unrealizedPnl
  checkNonnegative "total_charges" snapshot.totalCharges
  checkNumber "net_pnl" snapshot.netPnl
  checkNonnegative "reconciliation_error" snapshot.reconciliationError
  checkNonnegative "reconciliation_tolerance" snapshot.reconciliationTolerance
  return snapshot

namespace PortfolioLedger

open Ledger

/-- `snapshot`: an immutable, reconciled mark of the portfolio. -/
def snapshot (ledger : PortfolioLedger F) (date : PyDate) (prices : OrderedDict String F) :
    Except PyError (LedgerSnapshot F) := do
  let validated ← validatePrices prices ledger.positions.keys
  let positionValues ← ledger.positions.sortedItems.mapM fun (symbol, quantity) => do
    let value ← finiteProduct quantity (← lookup validated symbol)
      ("market value for " ++ PyRuntime.strRepr symbol)
    return (symbol, value)
  let equity ← finiteSum (ledger.cash :: positionValues.map Prod.snd) "marked equity"
  let unrealizedBySymbol ← ledger.positions.sortedItems.mapM fun (symbol, quantity) => do
    let price ← lookup validated symbol
    let difference ← finiteSum [price, neg (← lookup ledger.averageCosts symbol)]
      ("price change for " ++ PyRuntime.strRepr symbol)
    let value ← finiteProduct quantity difference
      ("unrealized P&L for " ++ PyRuntime.strRepr symbol)
    return (symbol, value)
  let realizedPnl ← ledger.realizedPnl
  let unrealizedPnl ← finiteSum (unrealizedBySymbol.map Prod.snd) "unrealized P&L"
  let totalCharges ← ledger.totalCharges
  let netPnl ← finiteSum [realizedPnl, unrealizedPnl, neg totalCharges] "net P&L"
  let expectedEquity ← finiteSum [ledger.initialCash, netPnl] "expected marked equity"
  let (accountingError, accountingTolerance) ← reconciliationError equity expectedEquity
    (ledger.initialCash :: ledger.cash :: positionValues.map Prod.snd ++
      ledger.realizedPnlBySymbol.values ++ unrealizedBySymbol.map Prod.snd ++
      ledger.charges.values)
  refuseIf (lt accountingTolerance accountingError = true)
    (.runtimeError "marked ledger failed cumulative P&L reconciliation")
  let candidateWeights := positionValues.map fun p => (p.1, div p.2 equity)
  let weightsDefined :=
    !(eq equity zero) && candidateWeights.all fun p => isFinite p.2
  LedgerSnapshot.postInit {
    date := date
    cash := ledger.cash
    equity := equity
    positions := ledger.positions
    marketValues := .ofItems positionValues
    weights := if weightsDefined then .ofItems candidateWeights else .empty
    averageCosts := ledger.averageCosts
    realizedPnlBySymbol := ledger.realizedPnlBySymbol
    unrealizedPnlBySymbol := .ofItems unrealizedBySymbol
    realizedPnl := realizedPnl
    unrealizedPnl := unrealizedPnl
    charges := ledger.charges
    totalCharges := totalCharges
    netPnl := netPnl
    reconciliationError := accountingError
    reconciliationTolerance := accountingTolerance
    weightsDefined := weightsDefined
    bankrupt := le equity zero }

end PortfolioLedger

end SignalFoundry
