import SignalFoundry.Lattice.Tracking.Canonical
import SignalFoundry.Library.Json.Parsed
import SignalFoundry.Library.Table
import Mathlib.Data.List.MinMax

/-!
# The run registry

The tables of jobs, lifecycle events, terminal runs and artifact links, and the
statements that change them. A statement that breaks a constraint of the schema raises,
and the transaction around it leaves no trace.
-/

namespace Tracking

open Fallible

/-- An instant in UTC, in microseconds. -/
abbrev Instant := ℤ

/-- The largest instant of `datetime`. -/
def latestInstant : Instant := 253402300799999999

/-! ## Limits -/

/-- `RegistryLimits`, with the bounds of its constructor. -/
structure RegistryLimits where
  queueCapacity : ℕ := 1024
  maxRequestBytes : ℕ := 262144
  maxAttempts : ℕ := 10
  minLeaseSeconds : ℕ := 1
  maxLeaseSeconds : ℕ := 3600
  recoveryBatchSize : ℕ := 100
  maxArtifactsPerRun : ℕ := 100
  maxEventsPerJob : ℕ := 512
  queueCapacity_mem : 1 ≤ queueCapacity ∧ queueCapacity ≤ 1000000 := by decide
  maxRequestBytes_mem : 1024 ≤ maxRequestBytes ∧ maxRequestBytes ≤ 16777216 := by decide
  maxAttempts_mem : 1 ≤ maxAttempts ∧ maxAttempts ≤ 100 := by decide
  minLeaseSeconds_mem : 1 ≤ minLeaseSeconds ∧ minLeaseSeconds ≤ 86400 := by decide
  maxLeaseSeconds_mem : 1 ≤ maxLeaseSeconds ∧ maxLeaseSeconds ≤ 86400 := by decide
  recoveryBatchSize_mem : 1 ≤ recoveryBatchSize ∧ recoveryBatchSize ≤ 10000 := by decide
  maxArtifactsPerRun_mem : 1 ≤ maxArtifactsPerRun ∧ maxArtifactsPerRun ≤ 10000 := by decide
  maxEventsPerJob_mem : 8 ≤ maxEventsPerJob ∧ maxEventsPerJob ≤ 10000 := by decide
  lease_le : minLeaseSeconds ≤ maxLeaseSeconds := by decide
  /-- `minimum_event_capacity`. -/
  events_le : 2 * maxAttempts + 2 ≤ maxEventsPerJob := by decide

/-! ## Rows -/

structure JobRow where
  sequence : ℕ := 0
  jobId : String
  kind : String
  requestSchemaVersion : ℤ
  requestJson : String
  requestDigest : String
  idempotencyDigest : String
  state : JobState
  priority : ℤ
  attemptCount : ℕ := 0
  maxAttempts : ℕ
  createdAt : Instant
  updatedAt : Instant
  leaseOwner : Option String := none
  leaseTokenDigest : Option String := none
  leaseExpiresAt : Option Instant := none
  heartbeatAt : Option Instant := none
  cancelRequestedAt : Option Instant := none
  cancelReason : Option CancellationReasonCode := none
  terminalAt : Option Instant := none
  resultRunId : Option String := none
  failureCode : Option FailureReasonCode := none
  failureSummary : Option String := none
  deriving DecidableEq, Repr

/-- The objects that `details_json` holds. -/
inductive EventDetails where
  /-- The empty object. -/
  | empty
  /-- The member `request_digest`. -/
  | requestDigest (digest : String)
  /-- The member `lease_expires_at`. -/
  | leaseExpiresAt (expires : Instant)
  /-- The member `reason_code`. -/
  | reasonCode (reason : CancellationReasonCode)
  /-- The member `failure_code`. -/
  | failureCode (code : FailureReasonCode)
  deriving DecidableEq, Repr

structure EventRow where
  sequence : ℕ := 0
  jobId : String
  kind : EventKind
  fromState : Option JobState
  toState : JobState
  occurredAt : Instant
  attempt : ℕ
  actor : String
  details : EventDetails := .empty
  deriving DecidableEq, Repr

structure RunRow where
  sequence : ℕ := 0
  runId : String
  jobId : String
  attempt : ℕ
  status : RunStatus
  evidenceClass : EvidenceClass
  schemaVersion : ℤ := 1
  createdAt : Instant
  startedAt : Instant
  endedAt : Instant
  sourceCommit : Option String
  dataIdentity : Option String
  limitationSummary : Option String
  deriving DecidableEq, Repr

/-- `ArtifactLink`. -/
structure ArtifactLink where
  role : String
  artifactDigest : String
  deriving DecidableEq, Repr

structure RunArtifactRow extends ArtifactLink where
  runId : String
  linkedAt : Instant
  deriving DecidableEq, Repr

/-- The rows of a registry in the order of their sequence numbers. -/
structure Database where
  jobs : List JobRow := []
  events : List EventRow := []
  runs : List RunRow := []
  runArtifacts : List RunArtifactRow := []

/-! ## Constraints -/

/-- `length(x) = count AND x NOT GLOB '*[^0-9a-f]*'`. -/
def isLowerHex (count : ℕ) (text : String) : Bool := PyText.isRun PyText.isHexDigit count text

/-- `length(x) BETWEEN lower AND upper`. -/
def lengthIn (lower upper : ℕ) (text : String) : Prop :=
  lower ≤ text.length ∧ text.length ≤ upper

instance (lower upper : ℕ) (text : String) : Decidable (lengthIn lower upper text) :=
  inferInstanceAs (Decidable (_ ∧ _))

namespace JobRow

/-- The checks of single columns. -/
def Columns (row : JobRow) : Prop :=
  isLowerHex 32 row.jobId = true ∧ lengthIn 1 128 row.kind ∧ row.requestSchemaVersion = 1 ∧
  lengthIn 2 262144 row.requestJson ∧ isLowerHex 64 row.requestDigest = true ∧
  isLowerHex 64 row.idempotencyDigest = true ∧ (-100 ≤ row.priority ∧ row.priority ≤ 100) ∧
  (1 ≤ row.maxAttempts ∧ row.maxAttempts ≤ 100) ∧
  (∀ owner ∈ row.leaseOwner, lengthIn 1 128 owner) ∧
  (∀ digest ∈ row.leaseTokenDigest, isLowerHex 64 digest = true) ∧
  (∀ runId ∈ row.resultRunId, lengthIn 1 128 runId) ∧
  (∀ summary ∈ row.failureSummary, lengthIn 1 512 summary)

/-- The checks that tie columns to the state. -/
def StateColumns (row : JobRow) : Prop :=
  row.attemptCount ≤ row.maxAttempts ∧
  (if row.state = .running then
    row.leaseOwner.isSome = true ∧ row.leaseTokenDigest.isSome = true ∧
      row.leaseExpiresAt.isSome = true ∧ row.heartbeatAt.isSome = true
  else
    row.leaseOwner = none ∧ row.leaseTokenDigest = none ∧ row.leaseExpiresAt = none ∧
      row.heartbeatAt = none) ∧
  row.state.terminal = row.terminalAt.isSome ∧
  (row.state = .succeeded ↔ row.resultRunId.isSome = true) ∧
  (row.state = .failed ↔ row.failureCode.isSome = true) ∧
  row.failureCode.isSome = row.failureSummary.isSome

/-- The checks between instants. -/
def Chronology (row : JobRow) : Prop :=
  row.createdAt ≤ row.updatedAt ∧ (∀ t ∈ row.cancelRequestedAt, row.createdAt ≤ t) ∧
  (∀ t ∈ row.terminalAt, row.createdAt ≤ t) ∧ (∀ t ∈ row.heartbeatAt, row.createdAt ≤ t) ∧
  ∀ expires ∈ row.leaseExpiresAt, ∀ t ∈ row.heartbeatAt, t ≤ expires

instance (row : JobRow) : Decidable row.Columns := inferInstanceAs (Decidable (_ ∧ _))

instance (row : JobRow) : Decidable row.StateColumns := inferInstanceAs (Decidable (_ ∧ _))

instance (row : JobRow) : Decidable row.Chronology := inferInstanceAs (Decidable (_ ∧ _))

/-- The `CHECK` constraints of `sl_registry_jobs`. -/
structure Checked (row : JobRow) : Prop where
  columns : row.Columns
  stateColumns : row.StateColumns
  chronology : row.Chronology

instance (row : JobRow) : Decidable row.Checked :=
  decidable_of_iff (row.Columns ∧ row.StateColumns ∧ row.Chronology)
    ⟨fun ⟨h, h', h''⟩ => ⟨h, h', h''⟩, fun h => ⟨h.1, h.2, h.3⟩⟩

end JobRow

/-- The `CHECK` constraints of `sl_registry_runs`. -/
def RunRow.Checked (row : RunRow) : Prop :=
  lengthIn 1 128 row.runId ∧ (1 ≤ row.attempt ∧ row.attempt ≤ 100) ∧ row.schemaVersion = 1 ∧
  (∀ commit ∈ row.sourceCommit, lengthIn 7 64 commit) ∧
  (∀ identity ∈ row.dataIdentity, lengthIn 1 256 identity) ∧
  (∀ summary ∈ row.limitationSummary, lengthIn 1 4096 summary) ∧
  row.createdAt ≤ row.startedAt ∧ row.startedAt ≤ row.endedAt

instance (row : RunRow) : Decidable row.Checked := inferInstanceAs (Decidable (_ ∧ _))

/-! ## Statements -/

/-- What `_raise_sqlite` makes of a broken constraint. -/
def sqliteError : RegistryError := .integrity "SQLite rejected a registry operation"

/-- The next value of an `AUTOINCREMENT` column. No row is ever deleted. -/
def nextSequence {R : Type} (rows : List R) : Except RegistryError ℕ := do
  refuseIf (2 ^ 63 - 1 < rows.length + 1) sqliteError
  .ok (rows.length + 1)

namespace Database

def findJob (db : Database) (jobId : String) : Option JobRow :=
  Table.find JobRow.jobId jobId db.jobs

def jobEvents (db : Database) (jobId : String) : List EventRow :=
  db.events.filter fun event => event.jobId = jobId

def jobRuns (db : Database) (jobId : String) : List RunRow :=
  db.runs.filter fun run => run.jobId = jobId

/-- `INSERT INTO sl_registry_jobs`. -/
def insertJob (db : Database) (row : JobRow) : Except RegistryError Database := do
  let sequence ← nextSequence db.jobs
  refuseIf (¬ row.Checked ∨ (∃ other ∈ db.jobs, other.jobId = row.jobId) ∨
    ∃ other ∈ db.jobs, other.idempotencyDigest = row.idempotencyDigest) sqliteError
  .ok { db with jobs := db.jobs ++ [{ row with sequence := sequence }] }

/-- `UPDATE sl_registry_jobs SET ... WHERE job_id = ? AND ...`, with the number of rows. -/
def updateJob (db : Database) (jobId : String) (condition : JobRow → Bool)
    (change : JobRow → JobRow) : Except RegistryError (ℕ × Database) :=
  match db.findJob jobId with
  | none => .ok (0, db)
  | some row =>
      if condition row then do
        -- The trigger on terminal rows, the checks and the reference to a run.
        refuseIf (row.state.terminal = true ∨ ¬ (change row).Checked ∨
          ∃ runId ∈ (change row).resultRunId, ∀ run ∈ db.runs, run.runId ≠ runId) sqliteError
        .ok (1, { db with jobs := Table.update JobRow.jobId jobId change db.jobs })
      else .ok (0, db)

/-- `_event`. -/
def recordEvent (db : Database) (limits : RegistryLimits) (event : EventRow) :
    Except RegistryError Database := do
  refuseIf (limits.maxEventsPerJob ≤ (db.jobEvents event.jobId).length)
    (RegistryError.capacity "job lifecycle event capacity has been reached")
  let sequence ← nextSequence db.events
  refuseIf ((∀ row ∈ db.jobs, row.jobId ≠ event.jobId) ∨ ¬ lengthIn 1 128 event.actor) sqliteError
  .ok { db with events := db.events ++ [{ event with sequence := sequence }] }

/-- `INSERT INTO sl_registry_runs`, with the trigger on the running attempt. -/
def insertRun (db : Database) (row : RunRow) : Except RegistryError Database := do
  let sequence ← nextSequence db.runs
  refuseIf (¬ row.Checked ∨ (∃ other ∈ db.runs, other.runId = row.runId) ∨
    (∃ other ∈ db.runs, other.jobId = row.jobId ∧ other.attempt = row.attempt) ∨
    ¬ ∃ job ∈ db.jobs, job.jobId = row.jobId ∧ job.state = .running ∧
      job.attemptCount = row.attempt) sqliteError
  .ok { db with runs := db.runs ++ [{ row with sequence := sequence }] }

end Database

end Tracking
