import SignalFoundry.AlphaForge.Capacity.Contracts
import SignalFoundry.Library.OrderedDict
import SignalFoundry.Library.PyDate

/-!
# Forced buy-ins

The book of forced buy-ins: scheduled, filled in parts, aged by sessions, and halted when
one stays open too long. A call that raises may have changed the book before; a halt ends
the run. Quantities are rationals.
-/

namespace Capacity

open Fallible

/-! ## Orders -/

def buyInTriggers : List String := ["recalled", "restricted", "unavailable"]

/-- `BuyInOrder`. -/
structure BuyInOrder where
  buyInId : Identifier
  symbol : Identifier
  triggeredSession : PyDate
  scheduledSession : PyDate
  quantity : Quantity maxQuantity
  trigger : String
  quantity_pos : 0 < quantity.val
  scheduled_after : triggeredSession ≤ scheduledSession
  trigger_mem : trigger ∈ buyInTriggers

inductive BuyInError where
  | field (error : CapacityError)
  | notPositive
  | scheduledBeforeTrigger
  | unsupportedTrigger (trigger : String)
  | unknownBuyIn (id : String)
  deriving DecidableEq

/-- What is given to `schedule`. -/
structure BuyInRequest where
  buyInId : String
  symbol : String
  triggeredSession : PyDate
  scheduledSession : PyDate
  quantity : ℚ
  trigger : String
  deriving DecidableEq

/-- `BuyInOrder.__post_init__`. -/
def BuyInRequest.order (request : BuyInRequest) : Except BuyInError BuyInOrder := do
  let buyInId ← (identifier "buy_in_id" request.buyInId).mapError .field
  let symbol ← (identifier "symbol" request.symbol).mapError .field
  let quantity ← (finiteQuantity "quantity" maxQuantity request.quantity).mapError .field
  if hpos : 0 < quantity.val then
    if hafter : request.triggeredSession ≤ request.scheduledSession then
      if htrigger : request.trigger ∈ buyInTriggers then
        return ⟨buyInId, symbol, request.triggeredSession, request.scheduledSession, quantity,
          request.trigger, hpos, hafter, htrigger⟩
      else .error (.unsupportedTrigger request.trigger)
    else .error .scheduledBeforeTrigger
  else .error .notPositive

/-! ## The book -/

/-- `_BuyInState`. -/
structure BuyInState where
  order : BuyInOrder
  outstanding : ℚ
  filled : ℚ := 0
  sessionsElapsed : ℕ := 0
  fills : List (Identifier × ℚ) := []

/-- The orders that are open and the states of those resolved. -/
structure ForcedBuyInBook where
  opened : OrderedDict Identifier BuyInState
  resolved : List BuyInState

/-- `ForcedBuyInHalt` of `advance_session`. -/
structure ForcedBuyInHalt where
  session : PyDate
  order : BuyInOrder
  outstanding : ℚ

/-- The residual below which a buy-in counts as resolved. -/
def resolvedBelow : ℚ := 1 / 1000000000

namespace ForcedBuyInBook

def empty : ForcedBuyInBook := ⟨.empty, []⟩

/-- `schedule`. -/
def schedule (book : ForcedBuyInBook) (request : BuyInRequest) :
    Except BuyInError BuyInOrder × ForcedBuyInBook :=
  match identifier "buy_in_id" request.buyInId with
  | .error error => (.error (.field error), book)
  | .ok buyInId =>
      match book.opened.get? buyInId with
      | some existing => (.ok existing.order, book)
      | none =>
          match request.order with
          | .error error => (.error error, book)
          | .ok order =>
              (.ok order, { book with
                opened := book.opened.set buyInId { order, outstanding := order.quantity } })

/-- The state after a fill, before its identifier is read. -/
def filledState (state : BuyInState) (quantity : ℚ) : BuyInState :=
  { state with
    outstanding := state.outstanding - min quantity state.outstanding
    filled := state.filled + min quantity state.outstanding }

/-- `apply_fill`; the quantities are changed before the fill's identifier is checked. -/
def applyFill (book : ForcedBuyInBook) (buyInId : String) (quantity : ℚ) (fillId : String) :
    Except BuyInError ℚ × ForcedBuyInBook :=
  match identifier "buy_in_id" buyInId with
  | .error error => (.error (.field error), book)
  | .ok id =>
      match book.opened.get? id with
      | none => (.error (.unknownBuyIn buyInId), book)
      | some state =>
          match finiteQuantity "quantity" maxQuantity quantity with
          | .error error => (.error (.field error), book)
          | .ok quantity =>
              let changed := filledState state quantity
              match identifier "fill_id" fillId with
              | .error error =>
                  (.error (.field error), { book with opened := book.opened.set id changed })
              | .ok fillId =>
                  let applied := min quantity.val state.outstanding
                  let recorded := { changed with fills := changed.fills ++ [(fillId, applied)] }
                  if recorded.outstanding ≤ resolvedBelow then
                    (.ok applied, ⟨book.opened.erase state.order.buyInId,
                      book.resolved ++ [recorded]⟩)
                  else (.ok applied, { book with opened := book.opened.set id recorded })

/-- Whether a session is past the one a buy-in is scheduled for. -/
def isPast (session : PyDate) (order : BuyInOrder) : Bool := order.scheduledSession < session

def age (session : PyDate) (state : BuyInState) : BuyInState :=
  if isPast session state.order then
    { state with sessionsElapsed := state.sessionsElapsed + 1 }
  else state

/-- `advance_session`: the first open buy-in to exceed the window halts the run. -/
def advanceSession (resolutionSessions : ℕ) (book : ForcedBuyInBook) (session : PyDate) :
    Except ForcedBuyInHalt ForcedBuyInBook :=
  match book.opened.values.find? fun state =>
      isPast session state.order && resolutionSessions < state.sessionsElapsed + 1 with
  | some state => .error ⟨session, state.order, state.outstanding⟩
  | none => .ok { book with opened := book.opened.mapValues (age session) }

end ForcedBuyInBook

/-! ## Runs -/

inductive BuyInCall where
  | schedule (request : BuyInRequest)
  | applyFill (buyInId : String) (quantity : ℚ) (fillId : String)
  | advanceSession (session : PyDate)
  deriving DecidableEq

namespace ForcedBuyInBook

variable (resolutionSessions : ℕ)

/-- One call: an error other than a halt is the caller's, who may go on. -/
def perform (book : ForcedBuyInBook) : BuyInCall → Except ForcedBuyInHalt ForcedBuyInBook
  | .schedule request => .ok (book.schedule request).2
  | .applyFill buyInId quantity fillId => .ok (book.applyFill buyInId quantity fillId).2
  | .advanceSession session => book.advanceSession resolutionSessions session

def run (book : ForcedBuyInBook) : List BuyInCall → Except ForcedBuyInHalt ForcedBuyInBook
  | [] => .ok book
  | call :: calls => do
      let next ← book.perform resolutionSessions call
      run next calls

end ForcedBuyInBook

end Capacity
