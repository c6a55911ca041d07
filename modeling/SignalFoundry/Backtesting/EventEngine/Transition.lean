import SignalFoundry.Backtesting.EventEngine.State

/-!
# Transitions of the event engine

An event is checked against the calendar, the cursor, the halt, its cause and
the identities in use; then the transition of its payload is planned on a
candidate ledger. `Reducer.plan` is everything that `_process` does before the
journal is asked to store the event, and `Reducer.publish` is everything that it
does afterwards.
-/

namespace SignalFoundry

open Fallible PyFloat

variable {F : Type} [PyRuntime] [PyFloat F] [FloatText F]

/-! ## Payloads, by what the engine asks of them -/

namespace EventPayload

/-- `_payload_order_id`. -/
def orderId? : EventPayload F → Option String
  | orderSubmitted payload => some payload.orderId.1
  | orderAccepted payload => some payload.orderId.1
  | orderRejected payload => some payload.orderId.1
  | fillApplied payload => some payload.orderId.1
  | orderCancelled payload => some payload.orderId.1
  | _ => none

/-- `_identity_key`. -/
def identityKey : EventPayload F → Option (String × String)
  | signalAvailable payload => some ("signal", payload.signalId.1)
  | targetDecided payload => some ("target", payload.targetId.1)
  | fillApplied payload => some ("fill", payload.fillId.1)
  | cashChargeAccrued payload => some ("charge", payload.chargeId.1)
  | portfolioMarked payload => some ("mark", payload.markId.1)
  | _ => none

/-- The types that the cause of a payload must have; `none` when it needs no
cause. -/
def requiredCauses : EventPayload F → Option (List PayloadType)
  | targetDecided _ => some [.signalAvailable]
  | orderSubmitted _ => some [.targetDecided]
  | orderAccepted _ => some [.orderSubmitted]
  | orderRejected _ => some [.orderSubmitted]
  | fillApplied _ => some [.orderAccepted, .fillApplied]
  | orderCancelled _ => some [.orderSubmitted, .orderAccepted, .fillApplied]
  | _ => none

/-- `eligible_session` of a target. -/
def eligibleSession : EventPayload F → Option PyDate
  | targetDecided payload => some payload.eligibleSession
  | _ => none

/-- The symbols of the weights of a target. -/
def targetSymbols : EventPayload F → List String
  | targetDecided payload => payload.weights.1.map fun entry => entry.1.1
  | _ => []

/-- The payloads that move an order after its submission. -/
def isOrderTransition : EventPayload F → Bool
  | orderAccepted _ => true
  | orderRejected _ => true
  | fillApplied _ => true
  | orderCancelled _ => true
  | _ => false

def isEngineHalted : EventPayload F → Bool
  | engineHalted _ => true
  | _ => false

end EventPayload

/-- `_event_sort_key`. -/
def eventSortKey (event : ExecutionEvent F) : EventSortKey := event.orderKey

/-- `_fingerprint`. -/
def fingerprint (event : ExecutionEvent F) : List UInt8 :=
  PyRuntime.sha256 event.canonicalBytes

/-- The reference that is kept of an event. -/
def EventReference.of (event : ExecutionEvent F) : EventReference where
  payloadType := event.payload.payloadType
  orderId := event.payload.orderId?
  correlationId := event.correlationId.1
  sortKey := eventSortKey event
  session := event.coordinate.session
  barIndex := event.coordinate.barIndex.1
  eligibleSession := event.payload.eligibleSession
  targetSymbols := event.payload.targetSymbols

/-- `dict(payload.prices)`. -/
def SymbolEntries.toDict {bound : FloatBound} (entries : SymbolEntries F bound) :
    OrderedDict String F where
  items := entries.1.map fun entry => (entry.1.1, entry.2.1)
  nodup_keys := by
    rw [List.map_map]
    exact entries.nodup

/-! ## Order updates -/

namespace OrderState

/-- The order that a submission opens. -/
def ofSubmission (event : ExecutionEvent F) (payload : OrderSubmitted F) : OrderState F where
  orderId := payload.orderId.1
  symbol := payload.symbol.1
  side := payload.side
  requestedQuantity := payload.quantity.1
  acceptedQuantity := zero
  filledQuantity := zero
  cancelledQuantity := zero
  status := .submitted
  correlationId := event.correlationId.1
  submittedSession := event.coordinate.session
  submittedBarIndex := event.coordinate.barIndex.1

def accept (order : OrderState F) (quantity : F) : OrderState F :=
  { order with acceptedQuantity := quantity, status := .accepted }

def reject (order : OrderState F) : OrderState F := { order with status := .rejected }

/-- The order with a new filled quantity. -/
def fillTo (order : OrderState F) (newFilled : F) : OrderState F :=
  { order with
    filledQuantity := newFilled
    status := if eq newFilled order.acceptedQuantity = true then .filled else .partiallyFilled }

def cancel (order : OrderState F) (quantity : F) : OrderState F :=
  { order with cancelledQuantity := quantity, status := .cancelled }

end OrderState

/-- `_is_single_addition_roundoff_overrun`. -/
def isSingleAdditionRoundoffOverrun (actual expected : F) : Bool :=
  isFinite actual && isFinite expected && !(le actual expected) &&
    le (sub actual expected) (ulp (PyFloat.max (PyFloat.abs actual) (PyFloat.abs expected)))

/-- The filled quantity after a fill: never above the accepted one, beyond which
only the roundoff of one addition is cut off. -/
def OrderState.filledAfter (order : OrderState F) (quantity : F) : Except EngineException F :=
  match fsum [order.filledQuantity, quantity] with
  | none => .error (.python (.arithmeticError "intermediate overflow in fsum"))
  | some newFilled =>
      if lt order.acceptedQuantity newFilled = true then
        if isSingleAdditionRoundoffOverrun newFilled order.acceptedQuantity = true then
          .ok order.acceptedQuantity
        else .error (.transition "fill quantity exceeds accepted order residual")
      else .ok newFilled

/-- The quantity of a fill, with the sign of its side. -/
def signedQuantity (side : Side) (quantity : F) : F :=
  match side with
  | .buy => quantity
  | .sell => neg quantity

/-- The guards of the engine. -/
def refuse (refused : Prop) [Decidable refused] (error : EngineException) :
    Except EngineException Unit :=
  refuseIf refused error

/-- `_require_event` of an event. -/
def EngineConfig.requireEvent (config : EngineConfig) (event : ExecutionEvent F) :
    Except EngineException Unit := do
  refuse (event.runId.1 ≠ config.runId) (.transition "event run_id does not match the engine")
  match config.calendarIndex event.coordinate.session with
  | none => .error (.ordering "event session is absent from the frozen calendar")
  | some expectedIndex =>
      refuse (event.coordinate.barIndex.1 ≠ expectedIndex)
        (.ordering "event bar_index does not match its frozen-calendar session")

/-! ## Causation -/

/-- The checks of the cause of an order submission. -/
def checkSubmissionCause (event : ExecutionEvent F) (parent : EventReference) :
    Except EngineException Unit :=
  match event.payload with
  | .orderSubmitted payload => do
      refuse (parent.eligibleSession ≠ some event.coordinate.session)
        (.causation "order submission must occur on the target eligible_session")
      refuse (payload.symbol.1 ∉ parent.targetSymbols)
        (.causation "order symbol is absent from the causing target book")
  | _ => .ok ()

/-- The check that the transitions of an order stay on its bar. -/
def checkSameBar (event : ExecutionEvent F) (parent : EventReference) :
    Except EngineException Unit :=
  refuse (event.payload.isOrderTransition = true ∧
      (parent.session ≠ event.coordinate.session ∨
        parent.barIndex ≠ event.coordinate.barIndex.1))
    (.causation "DAY-order transitions must remain on the submission bar")

/-- The check of the ordinals of fills within their phase. -/
def checkFillOrdinal (event : ExecutionEvent F) (parent : EventReference) :
    Except EngineException Unit :=
  let cause := (ofLex parent.sortKey).1
  refuse (event.payload.payloadType = .fillApplied ∧
      (parent.payloadType = .orderAccepted ∨ parent.payloadType = .fillApplied) ∧
      cause.phase = event.coordinate.phase ∧ cause.ordinal.1 ≥ event.coordinate.ordinal.1)
    (.causation "fill ordinals must increase explicitly within the execution phase")

/-- The checks of a cause that was found. -/
def checkCause (event : ExecutionEvent F) (parent : EventReference) :
    Except EngineException Unit := do
  refuse (parent.sortKey ≥ eventSortKey event)
    (.causation "causation must precede the caused event")
  refuse (∃ required ∈ event.payload.requiredCauses, parent.payloadType ∉ required)
    (.causation (event.eventType ++ " cannot be caused by " ++ parent.payloadType.className))
  refuse (parent.correlationId ≠ event.correlationId.1)
    (.causation "caused events must retain correlation_id")
  checkSubmissionCause event parent
  checkSameBar event parent
  checkFillOrdinal event parent

namespace Reducer

/-- `_validate_causation`: the reference of the cause. -/
def validateCausation (reducer : Reducer F) (event : ExecutionEvent F) :
    Except EngineException (Option EventReference) :=
  match event.causationId with
  | none => do
      refuse (event.payload.requiredCauses.isSome = true)
        (.causation (event.eventType ++ " requires a causation_id"))
      return none
  | some causeId =>
      match reducer.references.get? causeId.1 with
      | none => .error (.causation "causation_id does not reference an earlier event")
      | some parent => do
          checkCause event parent
          return some parent

/-! ## The transitions of the payloads -/

/-- `_require_order`. -/
def requireOrder (reducer : Reducer F) (orderId : String) (parent : Option EventReference)
    (event : ExecutionEvent F) : Except EngineException (OrderState F) :=
  match reducer.orders.get? orderId with
  | none => .error (.transition "event references an unknown order")
  | some order => do
      refuse (∃ reference ∈ parent, reference.orderId ≠ some orderId)
        (.causation "causation references a different order")
      refuse (event.coordinate.session ≠ order.submittedSession ∨
          event.coordinate.barIndex.1 ≠ order.submittedBarIndex)
        (.transition "DAY-order transition escaped its submission bar")
      return order

/-- The transition of an event that only changes an order. -/
def orderOnly (reducer : Reducer F) (order : OrderState F) : PlannedTransition F where
  orderUpdate := some order
  portfolio := reducer.lastPortfolio
  haltPending := reducer.haltPending

/-- The halt that is required after a portfolio was valued. -/
def haltAfter (reducer : Reducer F) (portfolio : LedgerSnapshot F) : Option String :=
  if portfolio.bankrupt = true then some "bankruptcy" else reducer.haltPending

def planSubmitted (config : EngineConfig) (reducer : Reducer F) (event : ExecutionEvent F)
    (payload : OrderSubmitted F) : Except EngineException (PlannedTransition F) := do
  refuse (reducer.orders.size ≥ config.maxOrders.1) (.resourceLimit "order limit exceeded")
  refuse (reducer.openOrderCount ≥ config.maxOpenOrders.1)
    (.resourceLimit "open-order limit exceeded")
  refuse (payload.orderId.1 ∈ reducer.orders.keys) (.transition "order_id is already in use")
  refuse (reducer.openMarkBar ≠ some event.coordinate.barIndex.1)
    (.transition "order submission requires the current open mark")
  refuse (payload.symbol.1 ∉ reducer.openPrices.keys)
    (.transition "order symbol is missing from the current open price snapshot")
  return reducer.orderOnly (.ofSubmission event payload)

def planAccepted (reducer : Reducer F) (event : ExecutionEvent F)
    (parent : Option EventReference) (payload : OrderAccepted F) :
    Except EngineException (PlannedTransition F) := do
  let order ← reducer.requireOrder payload.orderId.1 parent event
  refuse (order.status ≠ .submitted) (.transition "only a submitted order can be accepted")
  refuse (¬ eq payload.acceptedQuantity.1 order.requestedQuantity = true)
    (.transition "accepted quantity must equal the requested DAY-order quantity")
  return reducer.orderOnly (order.accept payload.acceptedQuantity.1)

def planRejected (reducer : Reducer F) (event : ExecutionEvent F)
    (parent : Option EventReference) (payload : OrderRejected) :
    Except EngineException (PlannedTransition F) := do
  let order ← reducer.requireOrder payload.orderId.1 parent event
  refuse (order.status ≠ .submitted) (.transition "only a submitted order can be rejected")
  return reducer.orderOnly order.reject

/-- The check of the reference price of a fill against the open mark. -/
def checkReferencePrice (reducer : Reducer F) (payload : FillApplied F) :
    Except EngineException Unit :=
  let mismatch : EngineException :=
    .transition "fill reference price does not match the current open mark"
  match reducer.openPrices.get? payload.symbol.1 with
  | none => .error mismatch
  | some referencePrice => do
      let close ← fromPython (Ledger.reconciles payload.referencePrice.1 referencePrice
        [payload.referencePrice.1, referencePrice])
      refuse (¬ close = true) mismatch

def planFill (reducer : Reducer F) (event : ExecutionEvent F)
    (parent : Option EventReference) (payload : FillApplied F) :
    Except EngineException (PlannedTransition F) := do
  let order ← reducer.requireOrder payload.orderId.1 parent event
  refuse (order.status ≠ .accepted ∧ order.status ≠ .partiallyFilled)
    (.transition "fills require an accepted open order")
  refuse (payload.symbol.1 ≠ order.symbol ∨ payload.side ≠ order.side)
    (.transition "fill symbol and side must match the order")
  reducer.checkReferencePrice payload
  let newFilled ← order.filledAfter payload.quantity.1
  let candidate ← fromPython reducer.ledger.clone
  let totalFees ← fromPython payload.totalFees
  let filled ← fromPython (candidate.applyFill payload.symbol.1
    (signedQuantity payload.side payload.quantity.1) payload.price.1 zero
    (some [("fees", totalFees)]))
  let portfolio ← fromPython (filled.snapshot event.coordinate.session reducer.openPrices)
  return {
    orderUpdate := some (order.fillTo newFilled)
    ledgerUpdate := some filled
    portfolio := some portfolio
    haltPending := reducer.haltAfter portfolio }

def planCancelled (reducer : Reducer F) (event : ExecutionEvent F)
    (parent : Option EventReference) (payload : OrderCancelled F) :
    Except EngineException (PlannedTransition F) := do
  let order ← reducer.requireOrder payload.orderId.1 parent event
  refuse (order.status.terminal = true) (.transition "terminal orders cannot be cancelled")
  refuse (¬ eq payload.cancelledQuantity.1
      (sub order.requestedQuantity order.filledQuantity) = true)
    (.transition "cancelled quantity does not match order residual")
  return reducer.orderOnly (order.cancel payload.cancelledQuantity.1)

def planCharge (reducer : Reducer F) (event : ExecutionEvent F)
    (payload : CashChargeAccrued F) : Except EngineException (PlannedTransition F) := do
  refuse (reducer.openMarkBar ≠ some event.coordinate.barIndex.1)
    (.transition "cash charges require the current open mark")
  refuse (reducer.closeMarkBar = some event.coordinate.barIndex.1)
    (.transition "cash charges cannot follow the close mark")
  refuse (reducer.openOrderCount ≠ 0)
    (.transition "all DAY orders must be terminal before cash charges")
  let candidate ← fromPython reducer.ledger.clone
  let charged ← fromPython (candidate.applyCharge payload.chargeType.name payload.amount.1)
  let portfolio ← fromPython (charged.snapshot event.coordinate.session reducer.openPrices)
  return {
    ledgerUpdate := some charged
    portfolio := some portfolio
    haltPending := reducer.haltAfter portfolio }

/-- The checks of a mark against the open orders and the marks of its bar. -/
def checkMarkOrder (reducer : Reducer F) (event : ExecutionEvent F) (markType : MarkType) :
    Except EngineException Unit :=
  match markType with
  | .open => do
      refuse (reducer.openOrderCount ≠ 0)
        (.transition "a new open mark cannot advance past outstanding DAY orders")
      refuse (reducer.openMarkBar = some event.coordinate.barIndex.1)
        (.transition "a bar can contain only one open mark")
  | .close => do
      refuse (reducer.openMarkBar ≠ some event.coordinate.barIndex.1)
        (.transition "close mark requires the current open mark")
      refuse (reducer.closeMarkBar = some event.coordinate.barIndex.1)
        (.transition "a bar can contain only one close mark")
      refuse (reducer.openOrderCount ≠ 0)
        (.transition "all DAY orders must be terminal before the close mark")

/-- A value of the portfolio that a mark declares. -/
structure MarkComparison (F : Type) where
  actual : F
  declared : F
  name : String
  operands : List F

def checkComparison (comparison : MarkComparison F) : Except EngineException Unit := do
  let close ← fromPython
    (Ledger.reconciles comparison.actual comparison.declared comparison.operands)
  refuse (¬ close = true)
    (.transition ("portfolio mark " ++ comparison.name ++ " does not reconcile"))

/-- The values that a mark declares, in the order of their checks. -/
def markComparisons (portfolio : LedgerSnapshot F) (holdings : F) (payload : PortfolioMarked F) :
    List (MarkComparison F) := [
  { actual := portfolio.cash, declared := payload.cash.1, name := "cash",
    operands := [portfolio.cash, payload.cash.1] },
  { actual := holdings, declared := payload.holdingsValue.1, name := "holdings value",
    operands := portfolio.marketValues.values ++ [holdings, payload.holdingsValue.1] },
  { actual := portfolio.totalCharges, declared := payload.accruedCharges.1,
    name := "accrued charges",
    operands := portfolio.charges.values ++ [payload.accruedCharges.1] },
  { actual := portfolio.equity, declared := payload.equity.1, name := "equity",
    operands := [portfolio.cash, holdings, portfolio.equity, payload.equity.1] }]

def planMarked (reducer : Reducer F) (event : ExecutionEvent F) (payload : PortfolioMarked F) :
    Except EngineException (PlannedTransition F) := do
  reducer.checkMarkOrder event payload.markType
  let portfolio ← fromPython
    (reducer.ledger.snapshot event.coordinate.session (SymbolEntries.toDict payload.prices))
  match fsum portfolio.marketValues.values with
  | none => .error (.python (.arithmeticError "intermediate overflow in fsum"))
  | some holdings => do
      (markComparisons portfolio holdings payload).forM checkComparison
      return { portfolio := some portfolio, haltPending := reducer.haltAfter portfolio }

def planHalted (reducer : Reducer F) (payload : EngineHalted) :
    Except EngineException (PlannedTransition F) := do
  refuse (payload.reasonCode.1 = "bankruptcy" ∧ reducer.haltPending ≠ some "bankruptcy")
    (.transition "bankruptcy halt requires a preceding non-positive accounting event")
  refuse (∃ pending ∈ reducer.haltPending, payload.reasonCode.1 ≠ pending)
    (.transition "halt reason does not match the required control halt")
  return { portfolio := reducer.lastPortfolio, halted := true,
           haltReason := some payload.reasonCode.1 }

/-- The transition of a signal or a target, which only records its lineage. -/
def planLineage (reducer : Reducer F) (event : ExecutionEvent F) :
    Except EngineException (PlannedTransition F) := do
  refuse (reducer.closeMarkBar ≠ some event.coordinate.barIndex.1)
    (.transition "signal and target events require the current close mark")
  return { portfolio := reducer.lastPortfolio, haltPending := reducer.haltPending }

/-- `_plan_transition`. -/
def planTransition (config : EngineConfig) (reducer : Reducer F) (event : ExecutionEvent F)
    (parent : Option EventReference) : Except EngineException (PlannedTransition F) :=
  match event.payload with
  | .orderSubmitted payload => reducer.planSubmitted config event payload
  | .orderAccepted payload => reducer.planAccepted event parent payload
  | .orderRejected payload => reducer.planRejected event parent payload
  | .fillApplied payload => reducer.planFill event parent payload
  | .orderCancelled payload => reducer.planCancelled event parent payload
  | .cashChargeAccrued payload => reducer.planCharge event payload
  | .portfolioMarked payload => reducer.planMarked event payload
  | .engineHalted payload => reducer.planHalted payload
  | .signalAvailable _ => reducer.planLineage event
  | .targetDecided _ => reducer.planLineage event

/-! ## The checks of an event and its publication -/

/-- The translation of accounting errors: a `KeyError` is not among the classes
that the handler names. -/
def translateAccounting (event : ExecutionEvent F) : EngineException → EngineException
  | .python (.keyError key) => .python (.keyError key)
  | .python _ =>
      .transition (event.eventType ++ " failed portfolio accounting validation")
  | exception => exception

/-- The checks of `_process` on an event that was not committed before, and the
transition that it plans. -/
def planNew (config : EngineConfig) (reducer : Reducer F) (event : ExecutionEvent F) :
    Except EngineException (PlannedTransition F) := do
  refuse (reducer.fingerprints.size ≥ config.maxEvents.1) (.resourceLimit "event limit exceeded")
  refuse (∃ cursor ∈ reducer.cursor, eventSortKey event ≤ cursor)
    (.ordering "event attempts to enter at or before the committed cursor")
  refuse (reducer.halted = true) (.transition "engine is halted and rejects new events")
  refuse (reducer.haltPending.isSome = true ∧ ¬ event.payload.isEngineHalted = true)
    (.transition "a required engine halt must be recorded before more events")
  let parent ← reducer.validateCausation event
  refuse (reducer.haltPending.isSome = true ∧
      event.causationId.map Subtype.val ≠ reducer.haltCauseEventId)
    (.causation "a required engine halt must cite the exact causal accounting event")
  refuse (∃ key ∈ event.payload.identityKey, key ∈ reducer.identityOrigins.keys)
    (.transition ((event.payload.identityKey.elim "" Prod.fst) ++ " identity is already in use"))
  (reducer.planTransition config event parent).mapError (translateAccounting event)

/-- `_process` up to the journal: `none` for an event that was committed before. -/
def plan (config : EngineConfig) (reducer : Reducer F) (event : ExecutionEvent F) :
    Except EngineException (Option (PlannedTransition F)) := do
  config.requireEvent event
  match reducer.fingerprints.get? event.eventId with
  | some existing => do
      refuse (existing ≠ fingerprint event)
        (.transition "event_id was reused with different content")
      return none
  | none => return some (← reducer.planNew config event)

/-- The change of the number of open orders by an order update. -/
def openOrderDelta (reducer : Reducer F) (order : OrderState F) : ℤ :=
  match reducer.orders.get? order.orderId with
  | none => 1
  | some previous =>
      if previous.status.terminal = false ∧ order.status.terminal = true then -1 else 0

def publishOrder (reducer : Reducer F) : Option (OrderState F) → Reducer F
  | none => reducer
  | some order => { reducer with
      openOrderCount := reducer.openOrderCount + reducer.openOrderDelta order
      orders := reducer.orders.set order.orderId order }

def publishMark (reducer : Reducer F) (event : ExecutionEvent F) : Reducer F :=
  match event.payload with
  | .portfolioMarked payload =>
      match payload.markType with
      | .open => { reducer with
          openMarkBar := some event.coordinate.barIndex.1
          openPrices := SymbolEntries.toDict payload.prices }
      | .close => { reducer with closeMarkBar := some event.coordinate.barIndex.1 }
  | _ => reducer

/-- The event that a required halt must cite, after a transition. -/
def nextHaltCause (reducer : Reducer F) (event : ExecutionEvent F)
    (transition : PlannedTransition F) : Option String :=
  if transition.haltPending.isSome = true ∧ ∃ portfolio ∈ transition.portfolio,
      portfolio.bankrupt = true then
    some event.eventId
  else if transition.halted = true ∨ transition.haltPending = none then none
  else reducer.haltCauseEventId

def publishHalt (reducer : Reducer F) (event : ExecutionEvent F)
    (transition : PlannedTransition F) : Reducer F :=
  { reducer with
    haltCauseEventId := reducer.nextHaltCause event transition
    haltPending := if transition.halted = true then none else transition.haltPending
    halted := if transition.halted = true then true else reducer.halted
    haltReason := if transition.halted = true then transition.haltReason
      else reducer.haltReason }

def publishReference (reducer : Reducer F) (event : ExecutionEvent F) : Reducer F :=
  { reducer with
    identityOrigins := match event.payload.identityKey with
      | none => reducer.identityOrigins
      | some key => reducer.identityOrigins.set key event.eventId
    references := reducer.references.set event.eventId (.of event)
    fingerprints := reducer.fingerprints.set event.eventId (fingerprint event)
    cursor := some (eventSortKey event) }

/-- The assignments of `_process` after the journal stored the event. -/
def publish (reducer : Reducer F) (event : ExecutionEvent F)
    (transition : PlannedTransition F) : Reducer F :=
  let ordered := reducer.publishOrder transition.orderUpdate
  let accounted := { ordered with
    ledger := transition.ledgerUpdate.getD ordered.ledger
    lastPortfolio := transition.portfolio.or ordered.lastPortfolio }
  ((accounted.publishMark event).publishHalt event transition).publishReference event

/-- The whole of `_process` without the journal. -/
def apply (config : EngineConfig) (reducer : Reducer F) (event : ExecutionEvent F) :
    Except EngineException (Option (Reducer F)) := do
  match ← reducer.plan config event with
  | none => return none
  | some transition => return some (reducer.publish event transition)

end Reducer

end SignalFoundry
