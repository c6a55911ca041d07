import SignalFoundry.Execution.Events.Payloads

/-!
# The event envelope

An event is a payload at a logical coordinate of a run, with its correlation and
its cause. Its identifier is the digest of its canonical body, so the identifier
and the bytes of an event are functions of its fields. `EventFields` is an
envelope before the checks of the constructor; an `ExecutionEvent` carries them.
-/

namespace SignalFoundry

open Fallible PyFloat

/-- `SCHEMA_VERSION`. -/
def schemaVersion : String := "1.0.0"

/-! ## Coordinates -/

/-- `EventCoordinate`: a logical location in the causal daily-bar sequence. -/
structure EventCoordinate where
  session : PyDate
  barIndex : { n : ℕ // n ≤ maxBarIndex }
  phase : EventPhase
  ordinal : { n : ℕ // n ≤ maxPhaseOrdinal }
  deriving DecidableEq

namespace EventCoordinate

def create {F : Type} (session : PyDate) (barIndex : Json F) (phase : EventPhase)
    (ordinal : Json F) : Except ExecutionEventError EventCoordinate := do
  let barIndex ← boundedInteger maxBarIndex barIndex "bar_index"
  let ordinal ← boundedInteger maxPhaseOrdinal ordinal "ordinal"
  return { session, barIndex, phase, ordinal }

/-- The fields of a coordinate in their order of comparison. -/
def key (coordinate : EventCoordinate) : PyDate ×ₗ ℕ ×ₗ ℕ ×ₗ ℕ :=
  toLex (coordinate.session, toLex (coordinate.barIndex.1,
    toLex (coordinate.phase.value, coordinate.ordinal.1)))

theorem key_injective : Function.Injective key := by
  rintro ⟨session, barIndex, phase, ordinal⟩ ⟨session', barIndex', phase', ordinal'⟩ h
  simp only [key, EmbeddingLike.apply_eq_iff_eq, Prod.mk.injEq] at h
  obtain ⟨rfl, hbar, hphase, hordinal⟩ := h
  rw [Subtype.ext hbar, Subtype.ext hordinal, EventPhase.value_injective hphase]

instance : LinearOrder EventCoordinate := LinearOrder.lift' key key_injective

end EventCoordinate

variable {F : Type}

/-! ## Canonical form -/

section Canonical

variable [PyFloat F]

def optionalText {valid : String → Bool} : Option (CheckedText valid) → Json F
  | none => .null
  | some text => .str text.1

def optionalFloat {bound : FloatBound} : Option (BoundedFloat F bound) → Json F
  | none => .null
  | some x => .float x.1

def SymbolEntries.toJson {bound : FloatBound} (entries : SymbolEntries F bound) : Json F :=
  .arr (entries.1.map fun entry => .arr [.str entry.1.1, .float entry.2.1])

def Fees.toJson (fees : Fees F) : Json F :=
  .arr (fees.1.map fun fee =>
    .obj [("amount", .float fee.amount.1), ("category", .str fee.category.value)])

variable [PyRuntime] [FloatText F]

/-- `_payload_to_dict`. -/
def EventPayload.toDict : EventPayload F → List (String × Json F)
  | signalAvailable payload => [
      ("model_id", .str payload.modelId.1),
      ("signal_digest", .str payload.signalDigest.1),
      ("signal_id", .str payload.signalId.1)]
  | targetDecided payload => [
      ("cash_weight", .float payload.cashWeight.1),
      ("configuration_digest", .str payload.configurationDigest.1),
      ("data_digest", .str payload.dataDigest.1),
      ("eligible_session", .str payload.eligibleSession.isoformat),
      ("portfolio_id", .str payload.portfolioId.1),
      ("problem_digest", .str payload.problemDigest.1),
      ("solver_id", .str payload.solverId.1),
      ("target_id", .str payload.targetId.1),
      ("weights", payload.weights.toJson)]
  | orderSubmitted payload => [
      ("limit_price", optionalFloat payload.limitPrice),
      ("order_id", .str payload.orderId.1),
      ("order_type", .str (TextEnum.name payload.orderType)),
      ("quantity", .float payload.quantity.1),
      ("side", .str (TextEnum.name payload.side)),
      ("symbol", .str payload.symbol.1),
      ("time_in_force", .str (TextEnum.name payload.timeInForce))]
  | orderAccepted payload => [
      ("accepted_quantity", .float payload.acceptedQuantity.1),
      ("order_id", .str payload.orderId.1)]
  | orderRejected payload => [
      ("order_id", .str payload.orderId.1),
      ("reason_code", .str payload.reasonCode.1)]
  | fillApplied payload => [
      ("fees", payload.fees.toJson),
      ("fill_id", .str payload.fillId.1),
      ("order_id", .str payload.orderId.1),
      ("price", .float payload.price.1),
      ("quantity", .float payload.quantity.1),
      ("reference_price", .float payload.referencePrice.1),
      ("side", .str (TextEnum.name payload.side)),
      ("symbol", .str payload.symbol.1)]
  | orderCancelled payload => [
      ("cancelled_quantity", .float payload.cancelledQuantity.1),
      ("order_id", .str payload.orderId.1),
      ("reason_code", .str payload.reasonCode.1)]
  | cashChargeAccrued payload => [
      ("amount", .float payload.amount.1),
      ("charge_id", .str payload.chargeId.1),
      ("charge_type", .str (TextEnum.name payload.chargeType)),
      ("currency", .str payload.currency.1)]
  | portfolioMarked payload => [
      ("accrued_charges", .float payload.accruedCharges.1),
      ("cash", .float payload.cash.1),
      ("equity", .float payload.equity.1),
      ("holdings_value", .float payload.holdingsValue.1),
      ("mark_id", .str payload.markId.1),
      ("mark_type", .str (TextEnum.name payload.markType)),
      ("prices", payload.prices.toJson)]
  | engineHalted payload => [
      ("detail", .str payload.detail.1),
      ("reason_code", .str payload.reasonCode.1),
      ("recoverable", .bool payload.recoverable)]

/-- `_canonical_json_bytes`. Every float of an event is finite by its type, so
`allow_nan=False` never refuses one. -/
def canonicalJsonBytes (value : Json F) : List UInt8 := PyText.encodeUtf8 value.dumps

/-- The fields of an envelope. -/
structure EventFields (F : Type) [PyRuntime] [PyFloat F] [FloatText F] where
  runId : Identifier
  correlationId : Identifier
  entityId : Identifier
  coordinate : EventCoordinate
  payload : EventPayload F
  causationId : Option Digest

namespace EventFields

def eventType (event : EventFields F) : String := event.payload.payloadType.eventType

/-- `_body`. -/
def body (event : EventFields F) : List (String × Json F) := [
  ("causation_id", optionalText event.causationId),
  ("coordinate", .obj [
    ("bar_index", .int event.coordinate.barIndex.1),
    ("ordinal", .int event.coordinate.ordinal.1),
    ("phase", .str event.coordinate.phase.lowerName),
    ("session", .str event.coordinate.session.isoformat)]),
  ("correlation_id", .str event.correlationId.1),
  ("entity_id", .str event.entityId.1),
  ("event_type", .str event.eventType),
  ("payload", .obj event.payload.toDict),
  ("run_id", .str event.runId.1),
  ("schema_version", .str schemaVersion)]

/-- `event_id`: the digest of the canonical envelope without its identifier. -/
@[irreducible] def eventId (event : EventFields F) : String :=
  PyText.hexText (PyRuntime.sha256 (canonicalJsonBytes (.obj event.body)))

/-- The document that `canonical_bytes` writes. -/
def document (event : EventFields F) : Json F :=
  .obj (("event_id", .str event.eventId) :: event.body)

/-- `canonical_bytes`, before its size check. -/
@[irreducible] def canonicalBytes (event : EventFields F) : List UInt8 := canonicalJsonBytes event.document

theorem isDigest_eventId (event : EventFields F) :
    EventText.isDigest event.eventId = true := by
  have hrun := PyText.isRun_hexText
    (PyRuntime.sha256 (canonicalJsonBytes (.obj event.body : Json F)))
  rw [PyRuntime.sha256_length] at hrun
  rw [eventId]
  exact hrun

end EventFields

/-- Whether a target is eligible strictly after its decision session. -/
def EventPayload.EligibleAfter (payload : EventPayload F) (session : PyDate) : Prop :=
  match payload with
  | targetDecided target => session < target.eligibleSession
  | _ => True

instance (payload : EventPayload F) (session : PyDate) :
    Decidable (payload.EligibleAfter session) := by
  cases payload <;> unfold EventPayload.EligibleAfter <;> infer_instance

/-- `ExecutionEvent`: an envelope that passed its checks. -/
structure ExecutionEvent (F : Type) [PyRuntime] [PyFloat F] [FloatText F] extends
    EventFields F where
  phase_eq : coordinate.phase = payload.expectedPhase
  eligible : payload.EligibleAfter coordinate.session
  size_le : toEventFields.canonicalBytes.length ≤ maxCanonicalBytes

namespace ExecutionEvent

/-- The check of an optional cause. -/
def checkedCausation (causationId : Json F) : Except ExecutionEventError (Option Digest) :=
  match causationId with
  | .null => .ok none
  | causationId => do return some (← digest causationId "causation_id")

def create (runId correlationId entityId : Json F) (coordinate : EventCoordinate)
    (payload : EventPayload F) (causationId : Json F) :
    Except ExecutionEventError (ExecutionEvent F) := do
  let runId ← identifier runId "run_id"
  let correlationId ← identifier correlationId "correlation_id"
  let entityId ← identifier entityId "entity_id"
  let ⟨phase_eq⟩ ← require (coordinate.phase = payload.expectedPhase)
    ⟨payload.payloadType.eventType ++ " requires phase " ++ payload.expectedPhase.name ++
      ", got " ++ coordinate.phase.name⟩
  let ⟨eligible⟩ ← require (payload.EligibleAfter coordinate.session)
    ⟨"target eligible_session must be strictly after its decision session"⟩
  let causationId ← checkedCausation causationId
  let fields : EventFields F :=
    { runId, correlationId, entityId, coordinate, payload, causationId }
  let ⟨size_le⟩ ← require (fields.canonicalBytes.length ≤ maxCanonicalBytes)
    ⟨"canonical event exceeds the " ++ toString maxCanonicalBytes ++ "-byte ceiling"⟩
  return { fields with phase_eq, eligible, size_le }

/-- The key by which events are ordered. -/
def orderKey (event : ExecutionEvent F) : EventCoordinate ×ₗ String :=
  toLex (event.coordinate, event.eventId)

end ExecutionEvent

end Canonical

end SignalFoundry
