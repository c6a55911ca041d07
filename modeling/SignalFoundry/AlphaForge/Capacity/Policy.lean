import Mathlib.Data.Finset.Filter
import Mathlib.Data.String.Basic
import SignalFoundry.AlphaForge.Capacity.Budgets

/-!
# The capacity policy

The point-in-time records of borrow, locates and liquidity that a session may
consult, and the authorization of one request against them and against the ledger
of the session. What locates have been spent on is kept for the whole run.
-/

namespace Capacity

open Fallible

/-! ## Records -/

inductive BorrowStatus where
  | available
  | restricted
  | recalled
  | unknown
  deriving DecidableEq, Repr

namespace BorrowStatus

def value : BorrowStatus → String
  | available => "available"
  | restricted => "restricted"
  | recalled => "recalled"
  | unknown => "unknown"

/-- `SHORTABLE_STATUSES`. -/
def shortable : BorrowStatus → Bool
  | available => true
  | _ => false

end BorrowStatus

structure BorrowAvailability where
  symbol : Identifier
  asOfSession : PyDate
  effectiveSession : PyDate
  expirySession : PyDate
  status : BorrowStatus
  shortableQuantity : Quantity maxQuantity
  effective_le : effectiveSession ≤ expirySession
  asOf_le : asOfSession ≤ effectiveSession
  not_shortable : status.shortable = false → shortableQuantity.val ≤ 0
  deriving DecidableEq

/-- `BorrowAvailability.covers`. -/
def BorrowAvailability.covers (record : BorrowAvailability) (session : PyDate) : Bool :=
  record.effectiveSession ≤ session && session ≤ record.expirySession

structure LocateRecord where
  locateId : Identifier
  symbol : Identifier
  grantedSession : PyDate
  expirySession : PyDate
  quantity : Quantity maxQuantity
  granted_le : grantedSession ≤ expirySession
  quantity_pos : 0 < quantity.val
  deriving DecidableEq

/-- `LocateRecord.active`. -/
def LocateRecord.active (locate : LocateRecord) (session : PyDate) : Bool :=
  locate.grantedSession ≤ session && session ≤ locate.expirySession

structure LiquidityObservation where
  symbol : Identifier
  asOfSession : PyDate
  advShares : Quantity maxQuantity
  deriving DecidableEq

structure CapacityPolicyDeclaration where
  maxParticipation : ℚ
  maxSessionNotional : ℚ
  maxStalenessSessions : ℕ
  allowNewShorts : Bool
  maxParticipation_bounds : 0 < maxParticipation ∧ maxParticipation ≤ 1
  maxSessionNotional_bounds : 0 < maxSessionNotional ∧ maxSessionNotional ≤ maxNotional
  maxStalenessSessions_le : maxStalenessSessions ≤ 20000

/-- `CapacityPolicy`, with what `validate_unique_records` checks when it is made. -/
structure CapacityPolicy where
  declaration : CapacityPolicyDeclaration
  borrow : List BorrowAvailability
  locates : List LocateRecord
  liquidity : List LiquidityObservation
  borrow_unique : (borrow.map fun r => (r.symbol, r.effectiveSession)).Nodup
  locates_unique : (locates.map fun r => (r.locateId, r.symbol)).Nodup
  liquidity_unique : (liquidity.map fun r => (r.symbol, r.asOfSession)).Nodup
  records_le : borrow.length ≤ maxRecords ∧ locates.length ≤ maxRecords ∧
    liquidity.length ≤ maxRecords

/-! ## Resolution -/

/-- `_stale`. -/
def isStale (observed session : PyDate) (horizon : ℕ) : Bool :=
  observed.toordinal + horizon < session.toordinal

/-- `ResolvedCapacity`; the locates of a symbol that has none are empty. -/
structure ResolvedCapacity where
  session : PyDate
  borrow : OrderedDict Identifier BorrowAvailability
  locates : Identifier → List LocateRecord
  liquidity : OrderedDict Identifier LiquidityObservation
  staleBorrow : Finset Identifier
  staleLiquidity : Finset Identifier
  staleLocates : Finset Identifier

/-- The newest observation of a symbol. -/
def keepNewest {R : Type} (symbol : R → Identifier) (asOf : R → PyDate)
    (kept : OrderedDict Identifier R) (record : R) : OrderedDict Identifier R :=
  match kept.get? (symbol record) with
  | none => kept.set (symbol record) record
  | some incumbent =>
      if asOf incumbent < asOf record then kept.set (symbol record) record else kept

namespace CapacityPolicy

variable (p : CapacityPolicy)

def resolveBorrow (session : PyDate) : OrderedDict Identifier BorrowAvailability × Finset Identifier :=
  p.borrow.foldl (fun (kept, stale) record =>
    if session ≤ record.asOfSession || !record.covers session then (kept, stale)
    else if isStale record.asOfSession session p.declaration.maxStalenessSessions then
      (kept, insert record.symbol stale)
    else (keepNewest BorrowAvailability.symbol BorrowAvailability.asOfSession kept record, stale))
    (.empty, ∅)

def resolveLiquidity (session : PyDate) :
    OrderedDict Identifier LiquidityObservation × Finset Identifier :=
  p.liquidity.foldl (fun (kept, stale) observation =>
    if session ≤ observation.asOfSession then (kept, stale)
    else if isStale observation.asOfSession session p.declaration.maxStalenessSessions then
      (kept, insert observation.symbol stale)
    else (keepNewest LiquidityObservation.symbol LiquidityObservation.asOfSession kept observation,
      stale)) (.empty, ∅)

/-- The order in which the locates of a symbol are consulted. -/
def locateKey (locate : LocateRecord) : PyDate ×ₗ String :=
  toLex (locate.expirySession, locate.locateId.val)

def resolveLocates (session : PyDate) (symbol : Identifier) : List LocateRecord :=
  (p.locates.filter fun locate =>
    locate.grantedSession < session && locate.active session && locate.symbol = symbol).insertionSort
      fun a b => locateKey a ≤ locateKey b

/-- The symbols of granted locates that are no longer active. -/
def expiredLocates (session : PyDate) : List Identifier :=
  (p.locates.filter fun locate => locate.grantedSession < session && !locate.active session).map
    LocateRecord.symbol

/-- `CapacityPolicy.resolve`. -/
def resolve (session : PyDate) : ResolvedCapacity :=
  let (borrow, staleBorrow) := p.resolveBorrow session
  let (liquidity, staleLiquidity) := p.resolveLiquidity session
  { session := session
    borrow := borrow
    locates := p.resolveLocates session
    liquidity := liquidity
    staleBorrow := staleBorrow.filter fun symbol => symbol ∉ borrow.keys
    staleLiquidity := staleLiquidity.filter fun symbol => symbol ∉ liquidity.keys
    staleLocates := (p.expiredLocates session).toFinset.filter fun symbol =>
      p.resolveLocates session symbol = [] }

/-- `CapacityPolicy.participation_limits`. -/
def participationLimits (resolved : ResolvedCapacity) : OrderedDict String ℚ :=
  .ofItems (resolved.liquidity.items.map fun item =>
    (item.1.val, item.2.advShares.val * p.declaration.maxParticipation))

/-- `CapacityPolicy.open_session_ledger`. -/
def openSessionLedger (resolved : ResolvedCapacity) : Except CapacityError SessionCapacityLedger :=
  SessionCapacityLedger.make resolved.session (p.participationLimits resolved) p.declaration.maxSessionNotional

end CapacityPolicy

/-! ## Decisions -/

inductive Side where
  | openShort
  | coverShort
  | long
  deriving DecidableEq, Repr

inductive DenialReason where
  | authorized
  | newShortsDisabled
  | noBorrowRecord
  | borrowStale
  | borrowNotShortable
  | borrowExhausted
  | noLocate
  | locateExpired
  | locateExhausted
  | noLiquidityRecord
  | liquidityStale
  | participationExhausted
  | bookBudgetExhausted
  deriving DecidableEq, Repr

/-- A decision carries the borrow record whose digest it publishes. -/
structure CapacityDecision where
  symbol : Identifier
  session : PyDate
  side : Side
  requested : ℚ
  authorized : ℚ
  reason : DenialReason
  borrow : Option BorrowAvailability := none
  locateId : Option Identifier := none
  detail : String := ""
  deriving DecidableEq

/-- `CapacityDecision.__post_init__`. -/
def CapacityDecision.check (decision : CapacityDecision) : Except CapacityError CapacityDecision := do
  refuseIf (decision.requested + 1 / 10 ^ 9 < decision.authorized)
    CapacityError.authorizedExceedsRequest
  refuseIf (decision.authorized < 0) CapacityError.authorizedNegative
  return decision

/-- Why a request is refused. -/
structure Refusal where
  reason : DenialReason
  borrow : Option BorrowAvailability := none
  locateId : Option Identifier := none
  detail : String := ""

/-- What the borrow and locate records leave of a request. -/
structure Clearance where
  allowed : ℚ
  reason : DenialReason := .authorized
  borrow : Option BorrowAvailability := none
  locate : Option LocateRecord := none

/-- The shares spent against each locate. -/
abbrev LocateUse := OrderedDict Identifier ℚ

/-- What is left of a locate. -/
def available (used : LocateUse) (locate : LocateRecord) : ℚ :=
  locate.quantity.val - used.getD locate.locateId 0

/-- The better of a candidate and the next locate. -/
def preferLocate (used : LocateUse) (best : ℚ × Option LocateRecord) (grant : LocateRecord) :
    ℚ × Option LocateRecord :=
  if best.1 < available used grant then (available used grant, some grant) else best

/-- The locate with the most left, the first of these, if any has something left. -/
def chooseLocate (used : LocateUse) (grants : List LocateRecord) : ℚ × Option LocateRecord :=
  grants.foldl (preferLocate used) (0, none)

/-- A request to trade. -/
structure Request where
  symbol : String
  side : Side
  quantity : ℚ
  price : ℚ
  reservationId : String
  deriving DecidableEq

namespace CapacityPolicy

variable (p : CapacityPolicy)

/-- The borrow and locate checks of `authorize` for a new short. -/
def clearShort (used : LocateUse) (resolved : ResolvedCapacity) (symbol : Identifier)
    (quantity : ℚ) : Except Refusal Clearance :=
  if p.declaration.allowNewShorts = false then .error { reason := .newShortsDisabled }
  else match resolved.borrow.get? symbol with
  | none =>
      .error { reason := if symbol ∈ resolved.staleBorrow then .borrowStale else .noBorrowRecord }
  | some record =>
      if record.status.shortable = false then
        .error { reason := .borrowNotShortable, borrow := some record,
                 detail := "status=" ++ record.status.value }
      else if record.shortableQuantity.val ≤ 0 then
        .error { reason := .borrowExhausted, borrow := some record }
      else if resolved.locates symbol = [] then
        .error { reason := if symbol ∈ resolved.staleLocates then .locateExpired else .noLocate,
                 borrow := some record }
      else match chooseLocate used (resolved.locates symbol) with
      | (_, none) => .error { reason := .locateExhausted, borrow := some record }
      | (remaining, some chosen) =>
          if remaining ≤ 0 then .error { reason := .locateExhausted, borrow := some record }
          else
            let allowed := min (min quantity record.shortableQuantity.val) remaining
            .ok { allowed := allowed
                  reason :=
                    if allowed < quantity then
                      if remaining < record.shortableQuantity.val then .locateExhausted
                      else .borrowExhausted
                    else .authorized
                  borrow := some record
                  locate := some chosen }

/-- Requests other than new shorts are exempt from the borrow and locate checks. -/
def clearSide (used : LocateUse) (resolved : ResolvedCapacity) (symbol : Identifier) (side : Side)
    (quantity : ℚ) : Except Refusal Clearance :=
  if side = .openShort then p.clearShort used resolved symbol quantity
  else .ok { allowed := quantity }

/-- The checks of `authorize` before the ledger is asked. -/
def clear (used : LocateUse) (resolved : ResolvedCapacity) (symbol : Identifier) (side : Side)
    (quantity : ℚ) : Except Refusal Clearance := do
  let clearance ← p.clearSide used resolved symbol side quantity
  if symbol ∈ resolved.liquidity.keys then return clearance
  else .error { reason :=
                  if symbol ∈ resolved.staleLiquidity then .liquidityStale else .noLiquidityRecord
                borrow := clearance.borrow
                locateId := clearance.locate.map (·.locateId) }

/-- The reason of a grant below what was allowed or asked. -/
def grantReason (ledger : SessionCapacityLedger) (symbol : Identifier) (clearance : Clearance)
    (quantity granted : ℚ) : DenialReason :=
  if granted < clearance.allowed then
    if 0 < ledger.remainingParticipation symbol then .bookBudgetExhausted
    else .participationExhausted
  else if granted < quantity ∧ clearance.reason = .authorized then .borrowExhausted
  else clearance.reason

/-- `_refuse`. -/
def refuse (resolved : ResolvedCapacity) (symbol : Identifier) (side : Side) (quantity : ℚ)
    (refusal : Refusal) : Except CapacityError CapacityDecision :=
  CapacityDecision.check {
    symbol := symbol
    session := resolved.session
    side := side
    requested := quantity
    authorized := 0
    reason := refusal.reason
    borrow := refusal.borrow
    locateId := refusal.locateId
    detail := refusal.detail }

/-- The refusal of a claim that was granted nothing. -/
def exhausted (ledger : SessionCapacityLedger) (symbol : Identifier) (clearance : Clearance) :
    Refusal where
  reason :=
    if 0 < ledger.remainingParticipation symbol then .bookBudgetExhausted
    else .participationExhausted
  borrow := clearance.borrow
  locateId := clearance.locate.map (·.locateId)

/-- The end of `authorize`, once the ledger has granted a claim. -/
def conclude (used : LocateUse) (resolved : ResolvedCapacity) (ledger : SessionCapacityLedger)
    (symbol : Identifier) (side : Side) (quantity : ℚ) (clearance : Clearance) (granted : ℚ) :
    Except CapacityError CapacityDecision × LocateUse :=
  if granted ≤ 0 then
    (refuse resolved symbol side quantity (exhausted ledger symbol clearance), used)
  else
    (CapacityDecision.check {
      symbol := symbol
      session := resolved.session
      side := side
      requested := quantity
      authorized := granted
      reason := grantReason ledger symbol clearance quantity granted
      borrow := clearance.borrow
      locateId := clearance.locate.map (·.locateId) },
    match side, clearance.locate with
    | .openShort, some locate =>
        used.set locate.locateId (used.getD locate.locateId 0 + granted)
    | _, _ => used)

/-- `CapacityPolicy.authorize`. -/
def authorize (used : LocateUse) (resolved : ResolvedCapacity) (ledger : SessionCapacityLedger)
    (request : Request) :
    Except CapacityError CapacityDecision × LocateUse × SessionCapacityLedger :=
  let checked : Except CapacityError _ := do
    let symbol ← identifier "symbol" request.symbol
    let quantity ← finiteQuantity "quantity" maxQuantity request.quantity
    let price ← finiteQuantity "price" maxQuantity request.price
    return (symbol, quantity.val, price.val)
  match checked with
  | .error error => (.error error, used, ledger)
  | .ok (symbol, quantity, price) =>
      if quantity ≤ 0 then
        (refuse resolved symbol request.side quantity
          { reason := .authorized, detail := "zero-quantity request" }, used, ledger)
      else match p.clear used resolved symbol request.side quantity with
      | .error refusal => (refuse resolved symbol request.side quantity refusal, used, ledger)
      | .ok clearance =>
          match ledger.reserve request.reservationId symbol.val clearance.allowed
            (clearance.allowed * price) with
          | (.error error, next) => (.error error, used, next)
          | (.ok reservation, next) =>
              let (reply, spent) := conclude used resolved next symbol request.side quantity
                clearance reservation.quantity.val
              (reply, spent, next)

end CapacityPolicy

end Capacity
