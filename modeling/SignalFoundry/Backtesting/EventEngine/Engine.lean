import SignalFoundry.Backtesting.EventEngine.History
import SignalFoundry.Backtesting.Journal.InMemory

/-!
# The deterministic event engine

A reducer with a queue of pending events and a journal. An event is planned on
the reducer, stored in the journal and then published; when the journal does not
say that it stored the event, the engine is no longer usable. A call that raises
can still have changed the engine, so a call returns its result beside the
engine.
-/

namespace SignalFoundry

open EventSourcing Fallible

/-- `Journal`: the persistence contract that the engine consumes. -/
class Journal (F J : Type) [PyRuntime] [PyFloat F] [FloatText F] where
  count : J → Except JournalError ℕ
  append : J → ExecutionEvent F → Except JournalError Bool × J
  events : J → Except JournalError (List (ExecutionEvent F))
  close : J → J

/-- A call of the journal, whose exception passes through the engine. -/
def fromJournal {α : Type} (x : Except JournalError α) : Except EngineException α :=
  x.mapError .journal

@[simp] theorem fromJournal_eq_ok_iff {α : Type} {x : Except JournalError α} {a : α} :
    fromJournal x = .ok a ↔ x = .ok a :=
  mapError_eq_ok_iff

/-- The `journal` argument of an engine: a journal of the caller, or none, for
the one that the engine makes and owns. -/
inductive JournalArgument (J : Type) where
  | given (journal : J)
  | owned (embed : InMemoryJournal → J)

namespace JournalArgument

variable {J : Type}

def select (ownedJournal : InMemoryJournal) : JournalArgument J → J
  | given journal => journal
  | owned embed => embed ownedJournal

def owns : JournalArgument J → Bool
  | given _ => false
  | owned _ => true

end JournalArgument

/-- `DeterministicEventEngine`. The heap of pending events is their list in the
order in which it would pop them. -/
structure DeterministicEventEngine (F J : Type) [PyRuntime] [PyFloat F] [FloatText F] where
  config : EngineConfig
  reducer : Reducer F
  pending : List (ExecutionEvent F)
  pendingFingerprints : OrderedDict String (List UInt8)
  journal : J
  ownsJournal : Bool
  recoveryRequired : Bool

variable {F J : Type} [PyRuntime] [PyFloat F] [FloatText F]

instance : Journal F InMemoryJournal where
  count := InMemoryJournal.count
  append := InMemoryJournal.appendStep
  events := InMemoryJournal.events F
  close := InMemoryJournal.close

/-- `EngineSnapshot`. -/
structure EngineSnapshot (F : Type) where
  runId : String
  processedEvents : ℕ
  pendingEvents : ℕ
  orders : OrderedDict String (OrderState F)
  portfolio : Option (LedgerSnapshot F)
  halted : Bool
  haltReason : Option String
  recoveryRequired : Bool

namespace DeterministicEventEngine

/-! ## Construction and replay -/

/-- `DeterministicEventEngine(run_id, ...)`. -/
def create [Journal F J] (runId : String) (args : EngineArgs F) (argument : JournalArgument J) :
    Except EngineException (DeterministicEventEngine F J) := do
  let config ← fromPython (EngineConfig.create runId args)
  let ownedJournal ← fromPython (InMemoryJournal.create config.maxEvents.1 defaultMaxEventBytes
    defaultMaxTotalPayloadBytes defaultMaxEventIdBytes)
  let journal := argument.select ownedJournal
  let count ← fromJournal (Journal.count F journal)
  refuse (count ≠ 0)
    (.python (.valueError "non-empty journals must be opened through replay()"))
  let ledger ← fromPython (PortfolioLedger.create args.initialCash)
  return { config, reducer := .initial ledger, pending := [], pendingFingerprints := .empty,
           journal, ownsJournal := argument.owns, recoveryRequired := false }

/-- `EventReplayError`. -/
def replayError (message : String) : EngineException := .engine ⟨.replay, message⟩

/-- The handler around the replayed events. -/
def translateReplay : EngineException → EngineException
  | .engine _ => replayError "journal event semantics failed replay"
  | exception => exception

/-- The part of `replay` for a journal that has events. -/
def replayEvents (journal : J) (args : EngineArgs F) (runId : String)
    (events : List (ExecutionEvent F)) :
    Except EngineException (DeterministicEventEngine F J) := do
  let engine ← create (J := InMemoryJournal) runId args (.owned id)
  let reducer ← (EventSourcing.replay (Reducer.apply engine.config) engine.reducer
    events).mapError translateReplay
  return { config := engine.config, reducer, pending := engine.pending,
           pendingFingerprints := engine.pendingFingerprints, journal, ownsJournal := false,
           recoveryRequired := engine.recoveryRequired }

/-- `replay`. -/
def replay [Journal F J] (journal : J) (args : EngineArgs F) (expectedRunId : Option String) :
    Except EngineException (DeterministicEventEngine F J) := do
  match ← fromJournal (Journal.events journal) with
  | [] =>
      match expectedRunId with
      | none => .error (replayError "an empty journal requires expected_run_id")
      | some runId => create runId args (.given journal)
  | first :: rest => do
      refuse (∃ runId ∈ expectedRunId, first.runId.1 ≠ runId)
        (replayError "journal run_id does not match expected_run_id")
      replayEvents journal args first.runId.1 (first :: rest)

/-! ## Reads -/

/-- `_require_usable`. -/
def requireUsable (engine : DeterministicEventEngine F J) : Except EngineException Unit :=
  refuse (engine.recoveryRequired = true) (.recoveryRequired
    "journal outcome is uncertain; discard the engine and replay its journal")

def positions (engine : DeterministicEventEngine F J) :
    Except EngineException (OrderedDict String F) := do
  engine.requireUsable
  return engine.reducer.ledger.positions

def cash (engine : DeterministicEventEngine F J) : Except EngineException F := do
  engine.requireUsable
  return engine.reducer.ledger.cash

def totalCharges (engine : DeterministicEventEngine F J) : Except EngineException F := do
  engine.requireUsable
  fromPython engine.reducer.ledger.totalCharges

def valuePortfolio (engine : DeterministicEventEngine F J) (session : PyDate)
    (prices : OrderedDict String F) : Except EngineException (LedgerSnapshot F) := do
  engine.requireUsable
  fromPython (engine.reducer.ledger.snapshot session prices)

def targetOrders (engine : DeterministicEventEngine F J)
    (targetWeights referencePrices : OrderedDict String F) :
    Except EngineException (OrderedDict String F) := do
  engine.requireUsable
  fromPython (engine.reducer.ledger.targetOrders targetWeights referencePrices)

/-- `snapshot`, which does not ask for a usable engine. -/
def snapshot (engine : DeterministicEventEngine F J) : EngineSnapshot F where
  runId := engine.config.runId
  processedEvents := engine.reducer.fingerprints.size
  pendingEvents := engine.pending.length
  orders := engine.reducer.orders
  portfolio := engine.reducer.lastPortfolio
  halted := engine.reducer.halted
  haltReason := engine.reducer.haltReason
  recoveryRequired := engine.recoveryRequired

/-! ## Calls -/

/-- `heapq.heappush`, on the pending events and their fingerprints. -/
def push (engine : DeterministicEventEngine F J) (event : ExecutionEvent F) :
    DeterministicEventEngine F J :=
  { engine with
    pending := engine.pending.orderedInsert (fun a b => eventSortKey a ≤ eventSortKey b) event
    pendingFingerprints := engine.pendingFingerprints.set event.eventId (fingerprint event) }

/-- `submit`: queue an event, `False` for an exact duplicate. -/
def submit (engine : DeterministicEventEngine F J) (event : ExecutionEvent F) :
    Except EngineException (Bool × DeterministicEventEngine F J) := do
  engine.requireUsable
  engine.config.requireEvent event
  match engine.reducer.fingerprints.get? event.eventId with
  | some existing => do
      refuse (existing ≠ fingerprint event)
        (.transition "event_id was reused with different content")
      return (false, engine)
  | none =>
      match engine.pendingFingerprints.get? event.eventId with
      | some pending => do
          refuse (pending ≠ fingerprint event)
            (.transition "queued event_id was reused with different content")
          return (false, engine)
      | none => do
          refuse (∃ cursor ∈ engine.reducer.cursor, eventSortKey event ≤ cursor)
            (.ordering "event attempts to enter at or before the committed cursor")
          refuse (engine.pending.length ≥ engine.config.maxPending.1)
            (.resourceLimit "pending-event limit exceeded")
          refuse (engine.reducer.fingerprints.size + engine.pending.length ≥
              engine.config.maxEvents.1)
            (.resourceLimit "event limit exceeded")
          return (true, engine.push event)

/-- The engine after the journal did not store an event for it. -/
def poison (engine : DeterministicEventEngine F J) (journal : J) : DeterministicEventEngine F J :=
  { engine with journal, recoveryRequired := true }

/-- The engine after the journal stored an event. -/
def publish (engine : DeterministicEventEngine F J) (journal : J) (event : ExecutionEvent F)
    (transition : PlannedTransition F) : DeterministicEventEngine F J :=
  { engine with journal, reducer := engine.reducer.publish event transition }

/-- `_process` with the journal. Without it, `_process` is `Reducer.apply`. -/
def processEvent [Journal F J] (engine : DeterministicEventEngine F J)
    (event : ExecutionEvent F) : Except EngineException Bool × DeterministicEventEngine F J :=
  match engine.reducer.plan engine.config event with
  | .error e => (.error e, engine)
  | .ok none => (.ok false, engine)
  | .ok (some transition) =>
      match Journal.append engine.journal event with
      | (.error _, journal) =>
          (.error (.recoveryRequired
            "journal append failed; in-memory state is non-publishable"), engine.poison journal)
      | (.ok false, journal) =>
          (.error (.recoveryRequired
            "journal already contained an event absent from reducer state"),
            engine.poison journal)
      | (.ok true, journal) => (.ok true, engine.publish journal event transition)

/-- `process`. -/
def process [Journal F J] (engine : DeterministicEventEngine F J) (event : ExecutionEvent F) :
    Except EngineException Bool × DeterministicEventEngine F J :=
  match (do
    engine.requireUsable
    engine.config.requireEvent event : Except EngineException Unit) with
  | .error e => (.error e, engine)
  | .ok () => engine.processEvent event

/-- `close`: only an owned journal is closed. -/
def close [Journal F J] (engine : DeterministicEventEngine F J) : DeterministicEventEngine F J :=
  if engine.ownsJournal = true then { engine with journal := Journal.close F engine.journal }
  else engine

/-- What a call has done: the events that it committed, also when it raised. -/
structure Called (F J : Type) [PyRuntime] [PyFloat F] [FloatText F] where
  committed : List (ExecutionEvent F)
  raised : Option EngineException
  engine : DeterministicEventEngine F J

/-- `heapq.heappop`, when the first pending event is known. -/
def pop (engine : DeterministicEventEngine F J) (event : ExecutionEvent F)
    (rest : List (ExecutionEvent F)) : DeterministicEventEngine F J :=
  { engine with
    pending := rest
    pendingFingerprints := engine.pendingFingerprints.erase event.eventId }

/-- The loop of `drain` over the pending events, after some were processed. -/
def drainLoop [Journal F J] (maximum : Option ℕ) (engine : DeterministicEventEngine F J)
    (processed : List (ExecutionEvent F)) : List (ExecutionEvent F) → Called F J
  | [] => ⟨processed, none, engine⟩
  | event :: rest =>
      if ∃ limit ∈ maximum, limit ≤ processed.length then ⟨processed, none, engine⟩
      else
        match (engine.pop event rest).processEvent event with
        | (.error e, next) => ⟨processed, some e, next⟩
        | (.ok true, next) => drainLoop maximum next (processed ++ [event]) rest
        | (.ok false, next) => drainLoop maximum next processed rest

/-- The check of the `maximum` argument of `drain`. -/
def checkMaximum : Option ℤ → Except EngineException (Option ℕ)
  | none => .ok none
  | some maximum => do return some (← fromPython (boundedPositiveInt maximum "maximum")).1

/-- `drain`: process queued events in canonical order. -/
def drain [Journal F J] (engine : DeterministicEventEngine F J) (maximum : Option ℤ) :
    Called F J :=
  match (do
    engine.requireUsable
    checkMaximum maximum : Except EngineException (Option ℕ)) with
  | .error e => ⟨[], some e, engine⟩
  | .ok maximum => engine.drainLoop maximum [] engine.pending

end DeterministicEventEngine

/-- A call that may change an engine. -/
inductive EngineCall (F : Type) [PyRuntime] [PyFloat F] [FloatText F] where
  | submit (event : ExecutionEvent F)
  | drain (maximum : Option ℤ)
  | process (event : ExecutionEvent F)
  | close

open DeterministicEventEngine in
/-- A call on an engine. -/
def EngineCall.run [Journal F J] (engine : DeterministicEventEngine F J) :
    EngineCall F → Called F J
  | submit event =>
      match engine.submit event with
      | .ok (_, next) => ⟨[], none, next⟩
      | .error e => ⟨[], some e, engine⟩
  | drain maximum => engine.drain maximum
  | process event =>
      match engine.process event with
      | (.ok true, next) => ⟨[event], none, next⟩
      | (.ok false, next) => ⟨[], none, next⟩
      | (.error e, next) => ⟨[], some e, next⟩
  | close => ⟨[], none, engine.close⟩

/-- A call, as a step of a machine whose outputs are the committed events. -/
def EngineCall.step [Journal F J] (engine : DeterministicEventEngine F J) (call : EngineCall F) :
    List (ExecutionEvent F) × DeterministicEventEngine F J :=
  ((call.run engine).committed, (call.run engine).engine)

end SignalFoundry
