import SignalFoundry.Backtesting.Journal.Records

/-!
# The state of the event engine

What the engine is configured with, and what it keeps of the events that it has
committed: the orders, the ledger, the marks of the current bar, the references
that later events can cite as their cause, and the halt.
-/

namespace SignalFoundry

open Fallible

/-! ## Errors -/

/-- The subclasses of `EventEngineError`. -/
inductive EventEngineErrorClass where
  | ordering
  | causation
  | transition
  | resourceLimit
  | replay
  | recoveryRequired
  deriving DecidableEq, Repr

structure EventEngineError where
  errorClass : EventEngineErrorClass
  message : String
  deriving DecidableEq, Repr

/-- What a call on the engine can raise. -/
inductive EngineException where
  | engine (error : EventEngineError)
  | journal (error : JournalError)
  | python (error : PyError)
  deriving DecidableEq, Repr

namespace EngineException

def ordering (message : String) : EngineException := .engine ⟨.ordering, message⟩

def causation (message : String) : EngineException := .engine ⟨.causation, message⟩

def transition (message : String) : EngineException := .engine ⟨.transition, message⟩

def resourceLimit (message : String) : EngineException := .engine ⟨.resourceLimit, message⟩

def recoveryRequired (message : String) : EngineException := .engine ⟨.recoveryRequired, message⟩

end EngineException

/-- A call of the code below the engine, whose exception passes through it. -/
def fromPython {α : Type} (x : Except PyError α) : Except EngineException α :=
  x.mapError .python

@[simp] theorem fromPython_eq_ok_iff {α : Type} {x : Except PyError α} {a : α} :
    fromPython x = .ok a ↔ x = .ok a :=
  mapError_eq_ok_iff

/-! ## Configuration -/

def defaultEngineMaxEvents : ℤ := 1000000
def defaultMaxPendingEvents : ℤ := 100000
def defaultMaxOrders : ℤ := 500000
def defaultMaxOpenOrders : ℤ := 50000

def maxCalendarLength : ℕ := 10000001

/-- The keyword arguments of the engine, with the calendar as a sequence of dates. -/
structure EngineArgs (F : Type) where
  calendar : List PyDate
  initialCash : F
  maxEvents : ℤ
  maxPendingEvents : ℤ
  maxOrders : ℤ
  maxOpenOrders : ℤ

/-- A frozen trading calendar: each session follows the one before it. -/
abbrev TradingCalendar :=
  { sessions : List PyDate //
    sessions ≠ [] ∧ sessions.length ≤ maxCalendarLength ∧ sessions.IsChain (· < ·) }

/-- The frozen parameters of an engine. -/
structure EngineConfig where
  runId : String
  calendar : TradingCalendar
  maxEvents : { n : ℕ // 1 ≤ n }
  maxPending : { n : ℕ // 1 ≤ n }
  maxOrders : { n : ℕ // 1 ≤ n }
  maxOpenOrders : { n : ℕ // 1 ≤ n ∧ n ≤ maxOrders.1 }
  runId_nonblank : PyText.isBlank runId = false

/-- `_bounded_positive_int`. -/
def boundedPositiveInt (value : ℤ) (name : String) : Except PyError { n : ℕ // 1 ≤ n } :=
  if h : 1 ≤ value.toNat then .ok ⟨value.toNat, h⟩
  else .error (.valueError (name ++ " must be a positive integer"))

/-- `_validated_calendar` of a sequence of dates. -/
def validatedCalendar (value : List PyDate) : Except PyError TradingCalendar := do
  let ⟨nonempty⟩ ← require (value ≠ [])
    (.valueError "calendar must contain at least one session")
  let ⟨length_le⟩ ← require (value.length ≤ maxCalendarLength)
    (.valueError "calendar exceeds the supported bar-index range")
  let ⟨increasing⟩ ← require (value.IsChain (· < ·))
    (.valueError "calendar sessions must be unique and strictly increasing")
  return ⟨value, nonempty, length_le, increasing⟩

/-- The checks of the constructor that concern the parameters. -/
def EngineConfig.create {F : Type} (runId : String) (args : EngineArgs F) :
    Except PyError EngineConfig := do
  let ⟨runId_nonblank⟩ ← require (PyText.isBlank runId = false)
    (.valueError "run_id must be a non-empty string")
  let calendar ← validatedCalendar args.calendar
  let maxEvents ← boundedPositiveInt args.maxEvents "max_events"
  let maxPending ← boundedPositiveInt args.maxPendingEvents "max_pending_events"
  let maxOrders ← boundedPositiveInt args.maxOrders "max_orders"
  let maxOpenOrders ← boundedPositiveInt args.maxOpenOrders "max_open_orders"
  let ⟨maxOpenOrders_le⟩ ← require (maxOpenOrders.1 ≤ maxOrders.1)
    (.valueError "max_open_orders cannot exceed max_orders")
  return { runId, calendar, maxEvents, maxPending, maxOrders,
           maxOpenOrders := ⟨maxOpenOrders.1, maxOpenOrders.2, maxOpenOrders_le⟩,
           runId_nonblank }

/-- `_calendar_index.get`: the position of a session in the calendar. -/
def EngineConfig.calendarIndex (config : EngineConfig) (session : PyDate) : Option ℕ :=
  config.calendar.1.idxOf? session

/-! ## Orders and references -/

/-- `OrderLifecycle`. -/
inductive OrderLifecycle where
  | submitted
  | accepted
  | partiallyFilled
  | filled
  | rejected
  | cancelled
  deriving DecidableEq, Repr

/-- Whether no further order transition is permitted. -/
def OrderLifecycle.terminal : OrderLifecycle → Bool
  | filled => true
  | rejected => true
  | cancelled => true
  | _ => false

/-- `OrderState`: the state of one submitted order. -/
structure OrderState (F : Type) where
  orderId : String
  symbol : String
  side : Side
  requestedQuantity : F
  acceptedQuantity : F
  filledQuantity : F
  cancelledQuantity : F
  status : OrderLifecycle
  correlationId : String
  submittedSession : PyDate
  submittedBarIndex : ℕ

/-- `EventSortKey`: session, bar, phase, ordinal and identifier. -/
abbrev EventSortKey := EventCoordinate ×ₗ String

/-- `_EventReference`: what is kept of a committed event for its effects. -/
structure EventReference where
  payloadType : PayloadType
  orderId : Option String
  correlationId : String
  sortKey : EventSortKey
  session : PyDate
  barIndex : ℕ
  eligibleSession : Option PyDate
  targetSymbols : List String

/-- `_PlannedTransition`. -/
structure PlannedTransition (F : Type) where
  orderUpdate : Option (OrderState F) := none
  ledgerUpdate : Option (PortfolioLedger F) := none
  portfolio : Option (LedgerSnapshot F) := none
  haltPending : Option String := none
  halted : Bool := false
  haltReason : Option String := none

/-- The reducer state of an engine. -/
structure Reducer (F : Type) where
  ledger : PortfolioLedger F
  orders : OrderedDict String (OrderState F)
  openOrderCount : ℤ
  references : OrderedDict String EventReference
  fingerprints : OrderedDict String (List UInt8)
  identityOrigins : OrderedDict (String × String) String
  cursor : Option EventSortKey
  openMarkBar : Option ℕ
  openPrices : OrderedDict String F
  closeMarkBar : Option ℕ
  lastPortfolio : Option (LedgerSnapshot F)
  haltPending : Option String
  haltCauseEventId : Option String
  halted : Bool
  haltReason : Option String

/-- The reducer state of a new engine. -/
def Reducer.initial {F : Type} (ledger : PortfolioLedger F) : Reducer F where
  ledger := ledger
  orders := .empty
  openOrderCount := 0
  references := .empty
  fingerprints := .empty
  identityOrigins := .empty
  cursor := none
  openMarkBar := none
  openPrices := .empty
  closeMarkBar := none
  lastPortfolio := none
  haltPending := none
  haltCauseEventId := none
  halted := false
  haltReason := none

end SignalFoundry
