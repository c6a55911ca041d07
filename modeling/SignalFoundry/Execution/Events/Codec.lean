import SignalFoundry.Execution.Events.Envelope

/-!
# Decoding canonical bytes

`from_canonical_bytes` parses, validates, re-identifies and requires the exact
canonical encoding. Every step before the last only builds an event through its
constructors, so whatever the decoder returns encodes to the bytes it was given.
-/

namespace SignalFoundry

open Fallible

variable {F : Type}

section Documents

variable [PyRuntime]

/-- `_unique_object`. -/
def uniqueObject (members : List (String × Json F)) : Except ExecutionEventError (Json F) :=
  uniqueObjectFrom [] members
where
  uniqueObjectFrom (seen : List String) : List (String × Json F) →
      Except ExecutionEventError (Json F)
    | [] => .ok (.obj members)
    | (key, _) :: rest =>
        if key ∈ seen then .error ⟨"duplicate JSON key " ++ PyRuntime.strRepr key⟩
        else uniqueObjectFrom (key :: seen) rest

/-- The parser hooks: no repeated key and no `_reject_json_constant`. -/
def eventHooks : Json.Hooks F ExecutionEventError where
  objectPairs := uniqueObject
  parseConstant value :=
    .error ⟨"non-finite JSON constant " ++ PyRuntime.strRepr value ++ " is forbidden"⟩
  decodeError := ⟨"canonical event is not valid strict JSON"⟩

/-- `str(sorted(keys))`. -/
def keyListText (keys : List String) : String :=
  "[" ++ String.intercalate ", " ((keys.insertionSort (· ≤ ·)).map PyRuntime.strRepr) ++ "]"

/-- `_exact_keys`: the members of an object that has exactly the expected keys. -/
def exactKeys (value : Json F) (expected : List String) (name : String) :
    Except ExecutionEventError (List (String × Json F)) :=
  match value with
  | .obj members => do
      let actual := members.map Prod.fst
      let missing := expected.filter fun key => !(actual.contains key)
      let unexpected := actual.filter fun key => !(expected.contains key)
      refuseIf (missing ≠ [] ∨ unexpected ≠ [])
        ⟨name ++ " keys differ: missing=" ++ keyListText missing ++ ", unexpected=" ++
          keyListText unexpected⟩
      return members
  | _ => .error ⟨name ++ " must be a JSON object"⟩

/-- `document[key]` of a document whose keys have been checked. -/
def field (document : List (String × Json F)) (key : String) : Json F :=
  (document.lookup key).getD .null

/-- `_date_from_json`. -/
def dateFromJson (value : Json F) (name : String) :
    Except ExecutionEventError PyDate :=
  match value with
  | .str text =>
      match PyDate.fromIsoformat text with
      | none => .error ⟨name ++ " must be an ISO-8601 date"⟩
      | some parsed =>
          if parsed.isoformat = text then .ok parsed
          else .error ⟨name ++ " must use canonical ISO-8601 date form"⟩
  | _ => .error ⟨name ++ " must be an ISO-8601 date"⟩

/-- `_coordinate_from_dict`. -/
def coordinateFromDict (value : Json F) :
    Except ExecutionEventError EventCoordinate := do
  let document ← exactKeys value ["bar_index", "ordinal", "phase", "session"] "event coordinate"
  let phase ←
    match field document "phase" with
    | .str text =>
        match TextEnum.find? EventPhase (PyText.upper text) with
        | some phase => Except.ok phase
        | none => .error ⟨"event coordinate contains an unknown phase"⟩
    | _ => .error ⟨"event coordinate phase must be a string"⟩
  let session ← dateFromJson (field document "session") "coordinate session"
  EventCoordinate.create session (field document "bar_index") phase (field document "ordinal")

/-- The loop of `_pair_tuple` from one index on. -/
def pairsFrom (name : String) (index : ℕ) :
    List (Json F) → Except ExecutionEventError (List (Json F × Json F))
  | [] => .ok []
  | .arr [first, second] :: rest => do return (first, second) :: (← pairsFrom name (index + 1) rest)
  | _ :: _ => .error ⟨name ++ "[" ++ toString index ++ "] must be a two-item JSON array"⟩

/-- `_pair_tuple`. -/
def pairTuple (value : Json F) (name : String) :
    Except ExecutionEventError (List (Json F × Json F)) :=
  match value with
  | .arr items => pairsFrom name 0 items
  | _ => .error ⟨name ++ " must be a JSON array"⟩

end Documents

/-! ## Payloads -/

/-- `_PAYLOAD_KEYS`. -/
def payloadKeys : PayloadType → List String
  | .signalAvailable => ["model_id", "signal_digest", "signal_id"]
  | .targetDecided => ["cash_weight", "configuration_digest", "data_digest", "eligible_session",
      "portfolio_id", "problem_digest", "solver_id", "target_id", "weights"]
  | .orderSubmitted => ["limit_price", "order_id", "order_type", "quantity", "side", "symbol",
      "time_in_force"]
  | .orderAccepted => ["accepted_quantity", "order_id"]
  | .orderRejected => ["order_id", "reason_code"]
  | .fillApplied => ["fees", "fill_id", "order_id", "price", "quantity", "reference_price", "side",
      "symbol"]
  | .orderCancelled => ["cancelled_quantity", "order_id", "reason_code"]
  | .cashChargeAccrued => ["amount", "charge_id", "charge_type", "currency"]
  | .portfolioMarked => ["accrued_charges", "cash", "equity", "holdings_value", "mark_id",
      "mark_type", "prices"]
  | .engineHalted => ["detail", "reason_code", "recoverable"]

variable [PyRuntime] [PyFloat F] [FloatText F]

/-- The loop over the raw fees of a fill, from one index on. -/
def feesFrom (index : ℕ) : List (Json F) → Except ExecutionEventError (List (FeeComponent F))
  | [] => .ok []
  | rawFee :: rest => do
      let fee ← exactKeys rawFee ["amount", "category"] ("fill fees[" ++ toString index ++ "]")
      let category ← checkedName FeeCategory "fill fee category is unknown" (field fee "category")
      let component ← FeeComponent.create category (field fee "amount")
      return component :: (← feesFrom (index + 1) rest)

def feesFromJson (value : Json F) : Except ExecutionEventError (List (FeeComponent F)) :=
  match value with
  | .arr rawFees => feesFrom 0 rawFees
  | _ => .error ⟨"fill fees must be a JSON array"⟩

/-- `_payload_from_dict`, once the payload type is known and its keys are checked. -/
def payloadFromFields (payloadType : PayloadType)
    (document : List (String × Json F)) : Except ExecutionEventError (EventPayload F) :=
  let field := field document
  match payloadType with
  | .signalAvailable => do
      return .signalAvailable (← SignalAvailable.create (field "signal_id") (field "model_id")
        (field "signal_digest"))
  | .targetDecided => do
      let eligibleSession ← dateFromJson (field "eligible_session") "eligible_session"
      let weights ← pairTuple (field "weights") "weights"
      return .targetDecided (← TargetDecided.create (field "target_id") (field "portfolio_id")
        (field "solver_id") eligibleSession (field "cash_weight") weights
        (field "configuration_digest") (field "data_digest") (field "problem_digest"))
  | .orderSubmitted => do
      return .orderSubmitted (← OrderSubmitted.create (field "order_id") (field "symbol")
        (field "side") (field "quantity") (field "order_type") (field "time_in_force")
        (field "limit_price"))
  | .orderAccepted => do
      return .orderAccepted (← OrderAccepted.create (field "order_id")
        (field "accepted_quantity"))
  | .orderRejected => do
      return .orderRejected (← OrderRejected.create (field "order_id") (field "reason_code"))
  | .fillApplied => do
      let fees ← feesFromJson (field "fees")
      return .fillApplied (← FillApplied.create (field "fill_id") (field "order_id")
        (field "symbol") (field "side") (field "quantity") (field "reference_price")
        (field "price") fees)
  | .orderCancelled => do
      return .orderCancelled (← OrderCancelled.create (field "order_id") (field "reason_code")
        (field "cancelled_quantity"))
  | .cashChargeAccrued => do
      return .cashChargeAccrued (← CashChargeAccrued.create (field "charge_id")
        (field "charge_type") (field "amount") (field "currency"))
  | .portfolioMarked => do
      let prices ← pairTuple (field "prices") "prices"
      return .portfolioMarked (← PortfolioMarked.create (field "mark_id") (field "mark_type")
        prices (field "cash") (field "holdings_value") (field "accrued_charges")
        (field "equity"))
  | .engineHalted => do
      return .engineHalted (← EngineHalted.create (field "reason_code") (field "detail")
        (field "recoverable"))

/-- `_payload_from_dict`. -/
def payloadFromDict (eventType value : Json F) :
    Except ExecutionEventError (EventPayload F) := do
  let payloadType ← checkedName PayloadType "event_type is unknown" eventType
  let document ← exactKeys value (payloadKeys payloadType) (payloadType.eventType ++ " payload")
  payloadFromFields payloadType document

/-! ## Events -/

/-- The keys of an event envelope. -/
def envelopeKeys : List String :=
  ["event_id", "causation_id", "coordinate", "correlation_id", "entity_id", "event_type",
    "payload", "run_id", "schema_version"]

namespace ExecutionEvent

/-- The event of a parsed document, and the identifier it was supplied with. -/
def fromDocument (value : Json F) :
    Except ExecutionEventError (ExecutionEvent F × Digest) := do
  let document ←
    match value with
    | .obj _ => exactKeys value envelopeKeys "event envelope"
    | _ => .error ⟨"canonical event must be a JSON object"⟩
  match field document "schema_version" with
  | .str version =>
      refuseIf (version ≠ schemaVersion)
        ⟨"schema_version must be " ++ PyRuntime.strRepr schemaVersion⟩
  | _ => .error ⟨"schema_version must be " ++ PyRuntime.strRepr schemaVersion⟩
  let suppliedEventId ← digest (field document "event_id") "event_id"
  let coordinate ← coordinateFromDict (field document "coordinate")
  let payload ← payloadFromDict (field document "event_type") (field document "payload")
  let event ← create (field document "run_id") (field document "correlation_id")
    (field document "entity_id") coordinate payload (field document "causation_id")
  return (event, suppliedEventId)

/-- `from_canonical_bytes`. -/
def fromCanonicalBytes (value : List UInt8) :
    Except ExecutionEventError (ExecutionEvent F) := do
  refuseIf (value = [] ∨ value.length > maxCanonicalBytes)
    ⟨"canonical event byte length must lie in [1, " ++ toString maxCanonicalBytes ++ "]"⟩
  match PyText.decodeUtf8 value with
  | none => .error ⟨"canonical event must be valid UTF-8"⟩
  | some text => do
      let document ← Json.loads eventHooks text
      let (event, suppliedEventId) ← fromDocument document
      refuseIf (event.eventId ≠ suppliedEventId.1)
        ⟨"event_id does not match canonical event content"⟩
      refuseIf (event.canonicalBytes ≠ value)
        ⟨"event bytes are valid JSON but not the canonical encoding"⟩
      return event

/-- Whatever the decoder returns is encoded by the bytes it was given. -/
theorem canonicalBytes_of_fromCanonicalBytes {value : List UInt8} {event : ExecutionEvent F}
    (h : fromCanonicalBytes value = .ok event) : event.canonicalBytes = value := by
  unfold fromCanonicalBytes at h
  simp only [bind_eq_ok_iff, refuseIf_eq_ok_iff] at h
  obtain ⟨-, -, h⟩ := h
  split at h
  · cases h
  · simp only [bind_eq_ok_iff, refuseIf_eq_ok_iff, pure_eq_ok, Prod.exists] at h
    obtain ⟨-, -, decoded, -, -, -, -, -, hbytes, heq⟩ := h
    cases heq
    exact not_not.mp hbytes

end ExecutionEvent

end SignalFoundry
