import SignalFoundry.AlphaForge.ResearchLedger.Plan

/-!
# The research ledger

The ledger file and its head receipt, as what a reader gets out of them: the
records line by line, and the receipt. `verify` checks the receipt, the hash
chain, the times, the plan and the state machine of the trials; `append` verifies
what is there under the writer lock, checks the time and the limits of the new
event, and writes it with a new receipt. `append` is one step: the lock is held
from its first read to its last write.
-/

namespace SignalFoundry.ResearchLedger

open Fallible

/-! ## Events -/

inductive TrialStatus where
  | registered
  | started
  | interrupted
  | resumed
  | succeeded
  | failed
  deriving DecidableEq, Repr

namespace TrialStatus

def name : TrialStatus → String
  | registered => "REGISTERED"
  | started => "STARTED"
  | interrupted => "INTERRUPTED"
  | resumed => "RESUMED"
  | succeeded => "SUCCEEDED"
  | failed => "FAILED"

/-- `_TERMINAL_STATUSES`. -/
def Terminal : TrialStatus → Bool
  | succeeded | failed => true
  | _ => false

end TrialStatus

/-- `_ALLOWED_TRANSITIONS`. -/
def allowedTransitions : Option TrialStatus → List TrialStatus
  | none => [.registered]
  | some .registered => [.started, .failed]
  | some .started => [.interrupted, .succeeded, .failed]
  | some .interrupted => [.resumed]
  | some .resumed => [.interrupted, .succeeded, .failed]
  | some .succeeded => []
  | some .failed => []

inductive EventType where
  | planFrozen
  | trial (status : TrialStatus)
  | duplicateRejected
  | familyEvaluationRejected
  | familyEvaluated
  deriving DecidableEq, Repr

def EventType.name : EventType → String
  | planFrozen => "PLAN_FROZEN"
  | trial status => "TRIAL_" ++ status.name
  | duplicateRejected => "DUPLICATE_REJECTED"
  | familyEvaluationRejected => "FAMILY_EVALUATION_REJECTED"
  | familyEvaluated => "FAMILY_EVALUATED"

variable (F : Type) [PyFloat F] [FloatText F] [PyRuntime] [DatetimeForms]

/-- The payload of a record. The document of a plan is read back as the plan it
was written from. -/
inductive Payload where
  | plan (plan : FrozenResearchPlan F) (planHash : String)
  | details (value : Json F)

/-- What a caller asks `_append` to record. -/
structure Event where
  eventType : EventType
  trialId : Option String
  occurredAt : String
  payload : Payload F

structure Record extends Event F where
  sequence : ℕ
  previousHash : String
  recordHash : String

/-- The head receipt. -/
structure Head where
  recordCount : ℕ
  headHash : String
  ledgerSha256 : String

structure Files where
  records : List (Record F)
  head : Head

structure Limits where
  maxBytes : ℕ
  maxRecords : ℕ
  maxBytes_pos : 0 < maxBytes
  maxRecords_pos : 0 < maxRecords

variable {F}

def governanceSchemaVersion : String := "1.0.0"

/-- `GENESIS_HASH`. -/
def genesisHash : String := String.ofList (List.replicate 64 '0')

def Payload.toJson : Payload F → Json F
  | .plan frozen planHash => .obj [("plan", frozen.toDict), ("plan_hash", .str planHash)]
  | .details value => value

/-- The document of a record without its hash. -/
def Event.body (event : Event F) (sequence : ℕ) (previousHash : String) : List (String × Json F) :=
  [("schema_version", .str governanceSchemaVersion), ("sequence", .int sequence),
    ("event_type", .str event.eventType.name),
    ("trial_id", match event.trialId with
      | some trialId => .str trialId
      | none => .null),
    ("occurred_at", .str event.occurredAt), ("payload", event.payload.toJson),
    ("previous_hash", .str previousHash)]

def Record.toDict (record : Record F) : Json F :=
  .obj (record.body record.sequence record.previousHash ++
    [("record_hash", .str record.recordHash)])

/-- The line of a record, with its line feed. -/
def Record.line (record : Record F) : List UInt8 := PyText.encodeUtf8 record.toDict.dumps ++ [10]

def ledgerBytes (records : List (Record F)) : List UInt8 := records.flatMap Record.line

/-! ## Verification -/

/-- The variables of the loop of `verify`. -/
structure Walk where
  index : ℕ := 0
  previousHash : String := genesisHash
  previousTime : Option ℕ := none
  states : OrderedDict String TrialStatus := .empty
  planTrialIds : List String := []

/-- `_verify_event`: the states of the trials after an event. -/
def verifyEvent (states : OrderedDict String TrialStatus) (planTrialIds : List String)
    (eventType : EventType) (trialId : Option String) :
    Except GovernanceError (OrderedDict String TrialStatus) :=
  match eventType, trialId with
  | .duplicateRejected, some trialId =>
      if trialId ∈ planTrialIds then .ok states
      else .error (.integrity "duplicate event references unknown trial")
  | .duplicateRejected, none => .error (.integrity "duplicate event references unknown trial")
  | .familyEvaluationRejected, none | .familyEvaluated, none => .ok states
  | .familyEvaluationRejected, some _ | .familyEvaluated, some _ =>
      .error (.integrity "family event must not name one trial")
  | .trial status, some trialId =>
      if trialId ∈ planTrialIds then
        if status ∈ allowedTransitions (states.get? trialId) then .ok (states.set trialId status)
        else .error (.integrity ("invalid trial transition for " ++ trialId ++ ": " ++
          ((states.get? trialId).elim "None" TrialStatus.name) ++ " -> " ++ status.name))
      else .error (.integrity "ledger event type or trial identity is invalid")
  | .trial _, none | .planFrozen, _ =>
      .error (.integrity "ledger event type or trial identity is invalid")

/-- What the loop of `verify` makes of the event of a record: the first one
freezes the plan, the others move the trials. -/
def Walk.event (w : Walk) (event : Event F) :
    Except GovernanceError (OrderedDict String TrialStatus × List String) :=
  if w.index = 0 then
    match event.eventType, event.trialId, event.payload with
    | .planFrozen, none, .plan plan planHash => do
        let actual ← plan.planHash
        refuseIf (planHash ≠ actual) (.integrity "frozen plan hash mismatch")
        return (w.states, plan.trialIds)
    | .planFrozen, none, .details _ =>
        .error (.integrity "frozen plan payload fields mismatch")
    | _, _, _ => .error (.integrity "ledger must begin with exactly one frozen plan")
  else do
    let states ← verifyEvent w.states w.planTrialIds event.eventType event.trialId
    return (states, w.planTrialIds)

/-- One turn of the loop of `verify`. -/
def Walk.verifyRecord (w : Walk) (record : Record F) : Except GovernanceError Walk := do
  let name := "ledger record " ++ toString (w.index + 1)
  refuseIf (record.sequence ≠ w.index + 1 ∨ record.previousHash ≠ w.previousHash)
    (.integrity (name ++ " chain metadata mismatch"))
  let body ← canonicalBytes (.obj (record.body record.sequence record.previousHash))
  refuseIf (record.recordHash ≠ sha256 body) (.integrity (name ++ " hash mismatch"))
  let occurredAt ← parseUtc record.occurredAt
    ("record[" ++ toString (w.index + 1) ++ "].occurred_at")
  refuseIf (∃ previous ∈ w.previousTime, occurredAt < previous)
    (.integrity "ledger event timestamps must be nondecreasing")
  let (states, planTrialIds) ← w.event record.toEvent
  return {
    index := w.index + 1
    previousHash := record.recordHash
    previousTime := some occurredAt
    states := states
    planTrialIds := planTrialIds }

/-- The loop of `verify`. -/
def walk (records : List (Record F)) : Except GovernanceError Walk :=
  records.foldlM Walk.verifyRecord {}

/-- `verify`. -/
def Files.verify (files : Files F) (limits : Limits) :
    Except GovernanceError (List (Record F)) := do
  refuseIf (limits.maxBytes < (ledgerBytes files.records).length)
    (.integrity "ledger exceeds configured byte limit")
  refuseIf (limits.maxRecords < files.records.length)
    (.integrity "ledger exceeds configured record limit")
  refuseIf (files.head.recordCount ≠ files.records.length)
    (.integrity "head receipt detects ledger truncation or extension")
  refuseIf (files.head.ledgerSha256 ≠ sha256 (ledgerBytes files.records))
    (.integrity "head receipt detects ledger byte mutation")
  let w ← walk files.records
  refuseIf (files.records = [] ∨ files.head.headHash ≠ w.previousHash)
    (.integrity "head receipt does not match ledger head")
  return files.records

/-! ## Appending -/

/-- `_write_head` after the records have been written. -/
def receipt (records : List (Record F)) (headHash : String) : Head where
  recordCount := records.length
  headHash := headHash
  ledgerSha256 := sha256 (ledgerBytes records)

/-- The part of `_append` that writes a record after those that are there. -/
def write (limits : Limits) (records : List (Record F)) (previousHash : String)
    (event : Event F) : Except GovernanceError (Files F) := do
  let sequence := records.length + 1
  refuseIf (limits.maxRecords < sequence) (.integrity "ledger record limit exceeded")
  let body ← canonicalBytes (.obj (event.body sequence previousHash))
  let record : Record F :=
    { event with sequence := sequence, previousHash := previousHash, recordHash := sha256 body }
  let encoded ← canonicalBytes record.toDict
  refuseIf (limits.maxBytes < (ledgerBytes records).length + (encoded ++ [10]).length)
    (.integrity "ledger byte limit exceeded")
  return { records := records ++ [record], head := receipt (records ++ [record]) (sha256 body) }

/-- `_append` to a ledger that exists. -/
def Files.append (files : Files F) (limits : Limits) (event : Event F) :
    Except GovernanceError (Files F) := do
  let eventTime ← parseUtc event.occurredAt "occurred_at"
  freezeJson "payload" event.payload.toJson
  let records ← files.verify limits
  match records.getLast? with
  | none => .error (.integrity "head receipt does not match ledger head")
  | some last => do
      let previousTime ← parseUtc last.occurredAt "previous occurred_at"
      refuseIf (eventTime < previousTime)
        (.governance "ledger event timestamps must be nondecreasing")
      write limits records last.recordHash event

/-- `ResearchLedger.create`, in a directory without a ledger. -/
def create (limits : Limits) (plan : FrozenResearchPlan F) : Except GovernanceError (Files F) := do
  let planHash ← plan.planHash
  let event : Event F :=
    { eventType := .planFrozen, trialId := none, occurredAt := plan.frozenAt
      payload := .plan plan planHash }
  let _ ← parseUtc event.occurredAt "occurred_at"
  freezeJson "payload" event.payload.toJson
  write limits [] genesisHash event

/-! ## The state of the trials -/

/-- `_state`: the last status of every trial. -/
def statesOf (records : List (Record F)) : OrderedDict String TrialStatus :=
  records.tail.foldl (fun states record =>
    match record.eventType, record.trialId with
    | .trial status, some trialId => states.set trialId status
    | _, _ => states) .empty

/-- `_state`: the record of the terminal event of a trial. -/
def terminalRecord? (records : List (Record F)) (trialId : String) : Option (Record F) :=
  records.tail.reverse.find? fun record =>
    match record.eventType with
    | .trial status => status.Terminal && record.trialId == some trialId
    | _ => false

/-- `_plan`: the plan of the first record. -/
def planOf? (records : List (Record F)) : Option (FrozenResearchPlan F × String) :=
  match records.head? with
  | some record =>
      match record.payload with
      | .plan plan planHash => some (plan, planHash)
      | .details _ => none
  | none => none

end SignalFoundry.ResearchLedger
