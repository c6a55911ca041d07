import SignalFoundry.Execution.Events.Codec

/-!
# Journal records

A record holds the canonical bytes of an event, and a hash that chains it to its
predecessor. `verifiedRecords` checks a list of records against an expected
head: ordinals, identifiers, hashes, canonical form, logical order and limits.
-/

namespace SignalFoundry

open Fallible

/-! ## Errors and limits -/

inductive JournalErrorClass where
  | error
  | closed
  | path
  | schema
  | integrity
  | collision
  | ordering
  | resourceLimit
  | busy
  deriving DecidableEq, Repr

/-- A `JournalError` of some class. -/
structure JournalError where
  errorClass : JournalErrorClass
  message : String
  deriving DecidableEq, Repr

namespace JournalError

def integrity (message : String) : JournalError := ⟨.integrity, message⟩

def resourceLimit (message : String) : JournalError := ⟨.resourceLimit, message⟩

end JournalError

def hardMaxEvents : ℕ := 10000000
def hardMaxEventBytes : ℕ := 64 * 1024 * 1024
def hardMaxTotalPayloadBytes : ℕ := 16 * 1024 * 1024 * 1024
def hardMaxDatabaseBytes : ℕ := 64 * 1024 * 1024 * 1024
def hardMaxEventIdBytes : ℕ := 4096
def minDatabaseBytes : ℕ := 128 * 1024

/-- `_bounded_integer` of a journal limit. -/
def boundedLimit (name : String) (value : ℤ) (minimum maximum : ℕ) :
    Except PyError { n : ℕ // minimum ≤ n ∧ n ≤ maximum } :=
  if h : minimum ≤ value.toNat ∧ value.toNat ≤ maximum ∧ 0 ≤ value then
    .ok ⟨value.toNat, h.1, h.2.1⟩
  else
    .error (.valueError (name ++ " must be in [" ++ toString minimum ++ ", " ++
      toString maximum ++ "]"))

/-- `_Limits`, within the hard ceilings. -/
structure JournalLimits where
  maxEvents : { n : ℕ // 1 ≤ n ∧ n ≤ hardMaxEvents }
  maxEventBytes : { n : ℕ // 1 ≤ n ∧ n ≤ hardMaxEventBytes }
  maxTotalPayloadBytes : { n : ℕ // maxEventBytes.1 ≤ n ∧ n ≤ hardMaxTotalPayloadBytes }
  maxEventIdBytes : { n : ℕ // 1 ≤ n ∧ n ≤ hardMaxEventIdBytes }

/-- The part of `_limits` that both journals share. -/
def JournalLimits.create (maxEvents maxEventBytes maxTotalPayloadBytes maxEventIdBytes : ℤ) :
    Except PyError JournalLimits := do
  let events ← boundedLimit "max_events" maxEvents 1 hardMaxEvents
  let eventBytes ← boundedLimit "max_event_bytes" maxEventBytes 1 hardMaxEventBytes
  let totalBytes ← boundedLimit "max_total_payload_bytes" maxTotalPayloadBytes eventBytes.1
    hardMaxTotalPayloadBytes
  let eventIdBytes ← boundedLimit "max_event_id_bytes" maxEventIdBytes 1 hardMaxEventIdBytes
  return { maxEvents := events, maxEventBytes := eventBytes, maxTotalPayloadBytes := totalBytes,
           maxEventIdBytes := eventIdBytes }

/-! ## Records and the hash chain -/

/-- `_HASH_SIZE`. -/
def hashSize : ℕ := 32

/-- `_GENESIS_HASH`. -/
def genesisHash : List UInt8 := List.replicate hashSize 0

/-- `_HASH_DOMAIN`. -/
def hashDomain : List UInt8 :=
  PyText.encodeUtf8 "alphaforge.execution-journal.v1" ++ [0]

/-- `_Record`. -/
structure JournalRecord where
  ordinal : ℤ
  eventId : String
  payload : List UInt8
  previousHash : List UInt8
  eventHash : List UInt8
  deriving DecidableEq, Repr

/-- What a record says about its event. -/
def JournalRecord.content (record : JournalRecord) : String × List UInt8 :=
  (record.eventId, record.payload)

/-- `JournalHead`: a journal position. -/
structure JournalHead where
  count : ℕ
  eventHash : List UInt8
  eventHash_length : eventHash.length = hashSize
  deriving DecidableEq

/-- `n.to_bytes(8, byteorder="big", signed=False)` of a number below `2 ^ 64`. -/
def lengthBytes (n : ℕ) : List UInt8 :=
  (List.range 8).map fun i => UInt8.ofNat (n / 256 ^ (7 - i))

/-- The bytes over which a record is hashed. -/
def chainInput (previousHash : List UInt8) (content : String × List UInt8) : List UInt8 :=
  let identifier := PyText.encodeUtf8 content.1
  hashDomain ++ (previousHash ++ (lengthBytes identifier.length ++ (identifier ++
    (lengthBytes content.2.length ++ content.2))))

section Verification

variable [PyRuntime]

/-- `_chain_hash`. -/
def chainHash (previousHash : List UInt8) (content : String × List UInt8) : List UInt8 :=
  PyRuntime.sha256 (chainInput previousHash content)

/-- `_event_id` of an identifier that is a string. -/
def checkedEventId (eventId : String) (maximumBytes : ℕ) : Except JournalError String := do
  let encoded := PyText.encodeUtf8 eventId
  refuseIf (encoded = [] ∨ encoded.length > maximumBytes) (.resourceLimit
    ("event_id must contain between 1 and " ++ toString maximumBytes ++ " UTF-8 bytes"))
  refuseIf ((eventId.toList.any fun c => c < ' ' || c == '\x7F') = true)
    (.integrity "event_id must not contain control characters")
  return eventId

variable (F : Type) [PyFloat F] [FloatText F]

/-- `_decode_event`. -/
def decodeEvent (payload : List UInt8) : Except JournalError (ExecutionEvent F) :=
  match ExecutionEvent.fromCanonicalBytes payload with
  | .ok event => .ok event
  | .error _ => .error (.integrity "canonical event payload cannot be decoded")

/-- The running state of `_verified_records`. -/
structure VerifyState where
  ordinal : ℤ
  seenIds : List String
  previousHash : List UInt8
  previousOrderKey : Option (EventCoordinate ×ₗ String)
  totalPayloadBytes : ℕ
  payloads : List (List UInt8)

def VerifyState.initial : VerifyState where
  ordinal := 1
  seenIds := []
  previousHash := genesisHash
  previousOrderKey := none
  totalPayloadBytes := 0
  payloads := []

/-- One turn of the loop of `_verified_records`. -/
def verifyRecord (limits : JournalLimits) (state : VerifyState) (record : JournalRecord) :
    Except JournalError VerifyState := do
  refuseIf (record.ordinal ≠ state.ordinal) (.integrity "journal ordinals are not contiguous")
  refuseIf (record.eventId ∈ state.seenIds)
    (.integrity "journal contains duplicate event identifiers")
  refuseIf (record.previousHash ≠ state.previousHash)
    (.integrity "journal previous-hash linkage is invalid")
  refuseIf (record.payload.length > limits.maxEventBytes.1)
    (.resourceLimit "stored event exceeds the configured event-size limit")
  refuseIf ((PyText.encodeUtf8 record.eventId).length > limits.maxEventIdBytes.1)
    (.resourceLimit "stored event_id exceeds the configured size limit")
  let calculated := chainHash state.previousHash record.content
  refuseIf (record.eventHash ≠ calculated)
    (.integrity "journal event hash does not match canonical content")
  let decoded ← decodeEvent F record.payload
  let decodedId ← checkedEventId decoded.eventId limits.maxEventIdBytes.1
  refuseIf (decodedId ≠ record.eventId)
    (.integrity "stored event_id does not match canonical content")
  refuseIf (decoded.canonicalBytes ≠ record.payload)
    (.integrity "stored event is not canonically encoded")
  refuseIf (∃ key ∈ state.previousOrderKey, decoded.orderKey ≤ key)
    (.integrity "journal events are not in strict logical order")
  let total := state.totalPayloadBytes + record.payload.length
  refuseIf (total > limits.maxTotalPayloadBytes.1)
    (.resourceLimit "journal exceeds the aggregate payload-size limit")
  return {
    ordinal := state.ordinal + 1
    seenIds := record.eventId :: state.seenIds
    previousHash := calculated
    previousOrderKey := some decoded.orderKey
    totalPayloadBytes := total
    payloads := state.payloads ++ [record.payload] }

/-- `_verified_records`. -/
def verifiedRecords (records : List JournalRecord) (expectedHead : JournalHead)
    (expectedTotalPayloadBytes : ℕ) (limits : JournalLimits) :
    Except JournalError (List (List UInt8)) := do
  refuseIf (records.length ≠ expectedHead.count)
    (.integrity "journal metadata count does not match stored events")
  refuseIf (records.length > limits.maxEvents.1)
    (.resourceLimit "journal exceeds the configured event-count limit")
  let state ← records.foldlM (verifyRecord F limits) VerifyState.initial
  refuseIf (state.totalPayloadBytes ≠ expectedTotalPayloadBytes)
    (.integrity "journal payload-byte metadata does not match stored events")
  refuseIf (state.previousHash ≠ expectedHead.eventHash)
    (.integrity "journal metadata head does not match the verified chain")
  refuseIf (expectedHead.count = 0 ∧ expectedHead.eventHash ≠ genesisHash)
    (.integrity "empty journal does not use the required genesis hash")
  return state.payloads

end Verification

end SignalFoundry
