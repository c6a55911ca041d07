import Mathlib.Data.Finset.Insert
import Mathlib.Tactic.Linarith
import Mathlib.Tactic.Ring
import SignalFoundry.AlphaForge.Capacity.Contracts
import SignalFoundry.Library.OrderedDict
import SignalFoundry.Library.PyDate

/-!
# Capacity budgets

The ledger of a session moves shares of each symbol from requested to reserved,
consumed, released or rejected, and notional of the book from reserved to
consumed. Reservations are claims against both budgets, kept under their
identifiers with what is left of them.
-/

namespace Capacity

open Fallible

/-- `CONSERVATION_TOLERANCE`, which is zero for exact quantities. -/
def conservationTolerance : ℚ := 0

/-- `math.isclose`, with its default relative tolerance. -/
def isClose (a b absTol : ℚ) : Bool := a = b || |a - b| ≤ max (1 / 10 ^ 9 * max |a| |b|) absTol

/-! ## The ledger -/

structure Reservation where
  reservationId : Identifier
  symbol : Identifier
  session : PyDate
  quantity : Quantity maxQuantity
  notional : Quantity maxQuantity
  deriving DecidableEq

/-- `Reservation(...)`, for identifiers that have been validated before. -/
def Reservation.make (id symbol : Identifier) (session : PyDate) (quantity notional : ℚ) :
    Except CapacityError Reservation := do
  let quantity ← finiteQuantity "quantity" maxQuantity quantity
  let notional ← finiteQuantity "notional" maxQuantity notional
  return ⟨id, symbol, session, quantity, notional⟩

/-- `_SymbolLedger`. -/
structure SymbolLedger where
  requested : ℚ := 0
  reserved : ℚ := 0
  consumed : ℚ := 0
  released : ℚ := 0
  rejected : ℚ := 0
  deriving DecidableEq

/-- `SessionCapacityLedger`. -/
structure SessionCapacityLedger where
  session : PyDate
  participationLimits : OrderedDict Identifier (Quantity maxQuantity)
  bookNotionalBudget : Quantity maxQuantity
  symbols : OrderedDict Identifier SymbolLedger
  reservations : OrderedDict Identifier Reservation
  settled : Finset Identifier
  bookReserved : ℚ
  bookConsumed : ℚ

namespace SessionCapacityLedger

/-- One entry of the participation limits, validated. -/
def cleanLimit (item : String × ℚ) :
    Except CapacityError (Identifier × Quantity maxQuantity) := do
  let symbol ← identifier "symbol" item.1
  let limit ← finiteQuantity s!"participation_limit[{item.1}]" maxQuantity item.2
  return (symbol, limit)

/-- `SessionCapacityLedger(...)`. -/
def make (session : PyDate) (limits : OrderedDict String ℚ) (budget : ℚ) :
    Except CapacityError SessionCapacityLedger := do
  refuseIf (maxRecords < limits.size) (CapacityError.tooManyRecords "participation limits")
  let cleaned ← limits.items.mapM cleanLimit
  let budget ← finiteQuantity "book_notional_budget" maxQuantity budget
  return {
    session := session
    participationLimits := OrderedDict.ofItems cleaned
    bookNotionalBudget := budget
    symbols := .empty
    reservations := .empty
    settled := ∅
    bookReserved := 0
    bookConsumed := 0 }

variable (l : SessionCapacityLedger)

/-- The limit of a symbol, zero if it has none. -/
def participationLimit (symbol : Identifier) : ℚ :=
  (l.participationLimits.get? symbol).elim 0 Subtype.val

/-- `remaining_participation`. -/
def remainingParticipation (symbol : Identifier) : ℚ :=
  match l.participationLimits.get? symbol with
  | none => 0
  | some limit =>
      let used := (l.symbols.get? symbol).elim 0 fun ledger => ledger.reserved + ledger.consumed
      max (limit.val - used) 0

/-- `remaining_book_notional`. -/
def remainingBookNotional : ℚ :=
  max (l.bookNotionalBudget.val - l.bookReserved - l.bookConsumed) 0

/-- The ledger of a symbol, that of a symbol without requests being empty. -/
def ledgerOf (symbol : Identifier) : SymbolLedger := l.symbols.getD symbol {}

def withLedger (symbol : Identifier) (ledger : SymbolLedger) : SessionCapacityLedger :=
  { l with symbols := l.symbols.set symbol ledger }

/-- `_assert_conserved`. -/
def assertConserved (symbol : Identifier) : Except CapacityError Unit :=
  match l.symbols.get? symbol with
  | none => .error (.keyError symbol)
  | some ledger => do
      refuseIf (isClose (ledger.reserved + ledger.consumed + ledger.released + ledger.rejected)
        ledger.requested conservationTolerance = false) (CapacityError.conservationViolated symbol)
      refuseIf (l.bookNotionalBudget.val + conservationTolerance < l.bookConsumed)
        CapacityError.bookBudgetExceeded

/-- The end of a mutation: the reservation is built, stored and checked. What was
moved before stays when one of these raises. -/
def record (id : Identifier) (built : Except CapacityError Reservation) :
    Except CapacityError Reservation × SessionCapacityLedger :=
  match built with
  | .error error => (.error error, l)
  | .ok reservation =>
      let stored := { l with reservations := l.reservations.set id reservation }
      (do stored.assertConserved reservation.symbol; return reservation, stored)

/-- The shares that `reserve` grants. -/
def allowance (symbol : Identifier) (quantity notional : ℚ) : ℚ :=
  let allowed := min quantity (l.remainingParticipation symbol)
  let allowed :=
    if 0 < quantity ∧ 0 < notional then
      let unitNotional := notional / quantity
      let bookAllowed := if unitNotional = 0 then 0 else l.remainingBookNotional / unitNotional
      min allowed bookAllowed
    else allowed
  max allowed 0

def grantedNotional (quantity notional allowed : ℚ) : ℚ :=
  if 0 < quantity then notional / quantity * allowed else 0

/-- The request of `reserve`. -/
def request (symbol : Identifier) (quantity : ℚ) : SessionCapacityLedger :=
  let ledger := l.ledgerOf symbol
  l.withLedger symbol { ledger with requested := ledger.requested + quantity }

/-- The grant of `reserve`; the shortfall is rejected. -/
def grant (symbol : Identifier) (quantity allowed granted : ℚ) : SessionCapacityLedger :=
  let ledger := l.ledgerOf symbol
  { l.withLedger symbol { ledger with
      reserved := ledger.reserved + allowed
      rejected := ledger.rejected + (quantity - allowed) } with
    bookReserved := l.bookReserved + granted }

/-- `reserve` on validated arguments. -/
def claim (id symbol : Identifier) (quantity notional : Quantity maxQuantity) :
    Except CapacityError Reservation × SessionCapacityLedger :=
  match l.reservations.get? id with
  | some existing =>
      if existing.symbol ≠ symbol then (.error (.alreadyClaimed id existing.symbol), l)
      else (.ok existing, l)
  | none =>
      let opened := l.request symbol quantity.val
      let allowed := opened.allowance symbol quantity.val notional.val
      let granted := grantedNotional quantity.val notional.val allowed
      (opened.grant symbol quantity.val allowed granted).record id
        (Reservation.make id symbol l.session allowed granted)

/-- `reserve`. -/
def reserve (reservationId symbol : String) (quantity notional : ℚ) :
    Except CapacityError Reservation × SessionCapacityLedger :=
  let checked : Except CapacityError _ := do
    let id ← identifier "reservation_id" reservationId
    let symbol ← identifier "symbol" symbol
    let quantity ← finiteQuantity "quantity" maxQuantity quantity
    let notional ← finiteQuantity "notional" maxQuantity notional
    return (id, symbol, quantity, notional)
  match checked with
  | .error error => (.error error, l)
  | .ok (id, symbol, quantity, notional) => l.claim id symbol quantity notional

/-- `_require_reservation`, with the key of the reservation. -/
def requireReservation (reservationId : String) :
    Except CapacityError (Identifier × Reservation) := do
  let id ← identifier "reservation_id" reservationId
  match l.reservations.get? id with
  | none => .error (.unknownReservation id)
  | some reservation => .ok (id, reservation)

/-- The movement of `consume`. -/
def draw (symbol : Identifier) (ledger : SymbolLedger) (applied notional : ℚ) :
    SessionCapacityLedger :=
  { l.withLedger symbol { ledger with
      reserved := ledger.reserved - applied
      consumed := ledger.consumed + applied } with
    bookReserved := l.bookReserved - notional
    bookConsumed := l.bookConsumed + notional }

/-- `consume` on validated arguments. -/
def fill (id : Identifier) (reservation : Reservation) (quantity : Quantity maxQuantity) :
    Except CapacityError ℚ × SessionCapacityLedger :=
  match l.symbols.get? reservation.symbol with
  | none => (.error (.keyError reservation.symbol), l)
  | some ledger =>
      let applied := min quantity.val reservation.quantity.val
      let unit :=
        if 0 < reservation.quantity.val then reservation.notional.val / reservation.quantity.val
        else 0
      let (recorded, next) := (l.draw reservation.symbol ledger applied (unit * applied)).record id
        (Reservation.make reservation.reservationId reservation.symbol reservation.session
          (reservation.quantity.val - applied) (reservation.notional.val - unit * applied))
      (recorded.map fun _ => applied, next)

/-- `consume`. -/
def consume (reservationId : String) (quantity : ℚ) :
    Except CapacityError ℚ × SessionCapacityLedger :=
  let checked : Except CapacityError _ := do
    let (id, reservation) ← l.requireReservation reservationId
    let quantity ← finiteQuantity "quantity" maxQuantity quantity
    refuseIf (reservation.quantity.val + conservationTolerance < quantity.val)
      (CapacityError.fillExceeds quantity.val id reservation.quantity.val)
    return (id, reservation, quantity)
  match checked with
  | .error error => (.error error, l)
  | .ok (id, reservation, quantity) => l.fill id reservation quantity

/-- The movement of `release`. -/
def giveBack (id symbol : Identifier) (ledger : SymbolLedger) (returned notional : ℚ) :
    SessionCapacityLedger :=
  { l.withLedger symbol { ledger with
      reserved := ledger.reserved - returned
      released := ledger.released + returned } with
    bookReserved := l.bookReserved - notional
    settled := insert id l.settled }

/-- `release` of a reservation that is not settled. -/
def settle (id : Identifier) (reservation : Reservation) :
    Except CapacityError ℚ × SessionCapacityLedger :=
  match l.symbols.get? reservation.symbol with
  | none => (.error (.keyError reservation.symbol), l)
  | some ledger =>
      let returned := reservation.quantity.val
      let (recorded, next) := (l.giveBack id reservation.symbol ledger returned
        reservation.notional.val).record id (Reservation.make reservation.reservationId
          reservation.symbol reservation.session 0 0)
      (recorded.map fun _ => returned, next)

/-- `release`. -/
def release (reservationId : String) : Except CapacityError ℚ × SessionCapacityLedger :=
  match l.requireReservation reservationId with
  | .error error => (.error error, l)
  | .ok (id, reservation) => if id ∈ l.settled then (.ok 0, l) else l.settle id reservation

end SessionCapacityLedger

end Capacity
