import SignalFoundry.Lattice.Tracking.Registry
import SignalFoundry.Library.Machine

/-!
# The calls of the run registry

Submission, claim, heartbeat, recovery of expired leases, cancellation and the three
ways to end an attempt. Each call is one transaction: it either returns with the tables
it has written, or raises and leaves them as they were.
-/

namespace Tracking

open Fallible

/-! ## Snapshots -/

/-- `JobSnapshot`, with the columns the calls read. -/
structure JobSnapshot where
  sequence : ℕ
  jobId : String
  kind : String
  state : JobState
  priority : ℤ
  attemptCount : ℕ
  maxAttempts : ℕ
  createdAt : Instant
  updatedAt : Instant
  leaseOwner : Option String
  leaseExpiresAt : Option Instant
  cancelRequestedAt : Option Instant
  cancelReason : Option CancellationReasonCode
  terminalAt : Option Instant
  resultRunId : Option String
  failureCode : Option FailureReasonCode
  deriving DecidableEq, Repr

/-- `require_stored_int`. -/
def requireStoredInt (value : ℤ) (fieldName : String) (lower upper : ℤ) :
    Except RegistryError Unit :=
  refuseIf (¬ (lower ≤ value ∧ value ≤ upper))
    (.integrity ("stored " ++ fieldName ++ " is not an exact integer in its domain"))

/-- `_stored_text`. -/
def storedText (value fieldName : String) (maximum : ℕ) : Except RegistryError Unit :=
  let size := (PyText.encodeUtf8 value).length
  refuseIf (¬ (1 ≤ size ∧ size ≤ maximum))
    (.integrity ("stored " ++ fieldName ++ " is not bounded text"))

def optionalText (value : Option String) (fieldName : String) (maximum : ℕ) :
    Except RegistryError Unit :=
  match value with
  | none => .ok ()
  | some text => storedText text fieldName maximum

namespace JobSnapshot

/-- `JobSnapshot.__post_init__`. -/
def Valid (s : JobSnapshot) : Prop :=
  isIdentifier s.jobId = true ∧ isIdentifier s.kind = true ∧ s.attemptCount ≤ s.maxAttempts ∧
  s.createdAt ≤ s.updatedAt ∧ (∀ t ∈ s.leaseExpiresAt, s.createdAt ≤ t ∧ s.updatedAt ≤ t) ∧
  (∀ t ∈ s.cancelRequestedAt, s.createdAt ≤ t) ∧ (∀ t ∈ s.terminalAt, s.createdAt ≤ t) ∧
  s.leaseOwner.isSome = s.leaseExpiresAt.isSome ∧
  (s.state = .running ↔ s.leaseOwner.isSome = true) ∧ s.state.terminal = s.terminalAt.isSome ∧
  (s.state = .succeeded ↔ s.resultRunId.isSome = true) ∧
  (s.state = .failed ↔ s.failureCode.isSome = true) ∧
  s.cancelRequestedAt.isSome = s.cancelReason.isSome

instance (s : JobSnapshot) : Decidable s.Valid := inferInstanceAs (Decidable (_ ∧ _))

end JobSnapshot

/-- The snapshot of a row, unchecked. -/
def JobRow.toSnapshot (row : JobRow) : JobSnapshot :=
  { row with }

/-- `_job`. -/
def JobRow.snapshot (row : JobRow) : Except RegistryError JobSnapshot := do
  requireStoredInt row.sequence "job sequence" 1 (2 ^ 63 - 1)
  storedText row.jobId "job_id" 128
  storedText row.kind "job kind" 128
  requireStoredInt row.priority "priority" (-100) 100
  requireStoredInt row.attemptCount "attempt_count" 0 100
  requireStoredInt row.maxAttempts "max_attempts" 1 100
  optionalText row.leaseOwner "lease_owner" 128
  optionalText row.resultRunId "result_run_id" 128
  refuseIf (¬ row.toSnapshot.Valid) (RegistryError.integrity "stored job state is malformed")
  .ok row.toSnapshot

/-! ## What a call is given -/

/-- `SubmissionRequest`, with the checks of its constructor. -/
structure SubmissionRequest (F : Type) [PyFloat F] [FloatText F] where
  kind : String
  payload : List (String × Json F)
  priority : ℤ := 0
  maxAttempts : ℕ := 3
  schemaVersion : ℤ := 1
  kind_identifier : isIdentifier kind = true
  priority_mem : -100 ≤ priority ∧ priority ≤ 100
  maxAttempts_mem : 1 ≤ maxAttempts ∧ maxAttempts ≤ 100
  schemaVersion_eq : schemaVersion = 1
  frozen : (freeze (.obj payload : Json F) 0 {}).isOk = true

/-- `Lease`. -/
structure Lease where
  jobId : String
  workerId : String
  token : String
  attempt : ℕ
  expiresAt : Instant
  cancelRequested : Bool := false
  deriving DecidableEq, Repr

/-- `TerminalRunRequest`, with the checks of its constructor. -/
structure TerminalRunRequest where
  runId : String
  evidenceClass : EvidenceClass
  startedAt : Option Instant := none
  sourceCommit : Option String := none
  dataIdentity : Option String := none
  limitationSummary : Option String := none
  runId_identifier : isIdentifier runId = true

/-- What the content store and the artifact tables can refuse. -/
inductive ArtifactError where
  | integrity (message : String)
  | notFound (message : String)
  | conflict (message : String)

def ArtifactError.toRegistryError : ArtifactError → RegistryError
  | integrity message => .integrity message
  | notFound message => .notFound message
  | conflict message => .conflict message

/-- What a call meets outside of the four tables. -/
structure Surroundings where
  /-- The reading of the clock, if it answers. -/
  clock : Option Instant
  /-- There is a tombstone without `deleted_at`. -/
  pendingRetention : Bool := false
  /-- The table of the legacy registry holds the identifier of the run. -/
  legacyRun : Bool := false
  /-- The content store and the artifact tables, before the transaction. -/
  preflight : Except ArtifactError Unit := .ok ()
  /-- The same, within the transaction. -/
  artifacts : Except ArtifactError Unit := .ok ()

/-- `_now`. -/
def Surroundings.now (around : Surroundings) : Except RegistryError Instant :=
  match around.clock with
  | some instant => .ok instant
  | none => .error (.integrity "registry time authority failed")

/-! ## Failure summaries -/

def isSummaryChar (c : Char) : Bool :=
  PyText.isAlnumAscii c || " .,;:()_'-".toList.contains c

def isTokenChar (c : Char) : Bool := PyText.isAlnumAscii c || c == '_' || c == '-'

/-- `\w` on ASCII. -/
def isWordChar (c : Char) : Bool := PyText.isAlnumAscii c || c == '_'

/-- `_SECRETISH_TOKEN.search`. -/
def holdsToken (cs : List Char) : Bool :=
  cs.tails.any fun rest => 32 ≤ (rest.takeWhile isTokenChar).length

/-- The words of `_SECRETISH_WORD`. -/
def secretWords : List String :=
  ["apikey", "api key", "api_key", "api-key", "authorization", "bearer", "password", "privatekey",
    "private key", "private_key", "private-key", "secret", "token"]

/-- A secret word at the front, with a word boundary after it. -/
def startsSecret (cs : List Char) : Bool :=
  secretWords.any fun word =>
    word.toList.isPrefixOf (cs.map Char.toLower) &&
      !((cs.drop word.length).head?.any isWordChar)

/-- `_SECRETISH_WORD.search`, where `boundary` says that no word character comes before. -/
def holdsSecretWord (boundary : Bool) : List Char → Bool
  | [] => false
  | c :: cs => boundary && startsSecret (c :: cs) || holdsSecretWord (!isWordChar c) cs

/-- `require_failure_summary`. -/
def requireFailureSummary (value : String) : Except RegistryError Unit :=
  refuseIf (PyText.isToken PyText.isAlnumAscii isSummaryChar 511 value = false ∨
      holdsToken value.toList = true ∨ holdsSecretWord true value.toList = true)
    (.validation "failure_summary must be bounded non-sensitive public prose")

/-! ## Requests -/

namespace SubmissionRequest

variable {F : Type} [PyFloat F] [FloatText F]

/-- `canonical_json`. -/
def canonicalText (request : SubmissionRequest F) : Except RegistryError String :=
  canonicalJson (.obj [("kind", .str request.kind), ("max_attempts", .int request.maxAttempts),
    ("payload", .obj request.payload), ("priority", .int request.priority),
    ("schema_version", .int request.schemaVersion)] : Json F)

/-- `SubmissionRequest(...)` of decoded fields. -/
def ofFields : Json F → Json F → Json F → Json F → Json F →
    Except RegistryError (SubmissionRequest F)
  | .str kind, .obj payload, .int priority, .int maxAttempts, .int schemaVersion => do
      let ⟨hkind⟩ ← require (isIdentifier kind = true)
        (RegistryError.validation "kind must be an identifier")
      let ⟨hpriority⟩ ← require (-100 ≤ priority ∧ priority ≤ 100)
        (RegistryError.validation "priority must be an integer in [-100, 100]")
      let ⟨hattempts⟩ ← require (1 ≤ maxAttempts.toNat ∧ maxAttempts.toNat ≤ 100)
        (RegistryError.validation "max_attempts must be an integer in [1, 100]")
      let ⟨hversion⟩ ← require (schemaVersion = 1)
        (RegistryError.validation "schema_version must equal 1")
      let ⟨hfrozen⟩ ← require ((freeze (.obj payload : Json F) 0 {}).isOk = true)
        (RegistryError.validation "payload is no bounded JSON")
      .ok ⟨kind, payload, priority, maxAttempts.toNat, schemaVersion, hkind, hpriority, hattempts,
        hversion, hfrozen⟩
  | _, _, _, _, _ => .error (.validation "a field of the request has the wrong type")

end SubmissionRequest

/-- `ClaimedJob`. -/
structure ClaimedJob (F : Type) [PyFloat F] [FloatText F] where
  lease : Lease
  request : SubmissionRequest F

/-- `RunRegistry`: the limits and the digest secret. -/
structure RunRegistry where
  limits : RegistryLimits
  digestSecret : List UInt8

namespace RunRegistry

def idempotencyDomain : List UInt8 :=
  PyText.encodeUtf8 "signalattice.registry.idempotency.v1\x00"

def leaseDomain : List UInt8 := PyText.encodeUtf8 "signalattice.registry.lease.v1\x00"

variable [PyRuntime] (registry : RunRegistry)

/-- `_digest`. -/
def digest (domain : List UInt8) (value : String) : String :=
  PyText.hexText (Hmac.digest registry.digestSecret (domain ++ PyText.encodeUtf8 value))

/-- `_validate_lease_seconds`. -/
def validateLeaseSeconds (leaseSeconds : ℤ) : Except RegistryError Unit :=
  refuseIf (¬ (registry.limits.minLeaseSeconds ≤ leaseSeconds ∧
      leaseSeconds ≤ registry.limits.maxLeaseSeconds))
    (.validation "lease_seconds must be within the configured inclusive lease bounds")

section Requests

variable (F : Type) [PyFloat F] [FloatText F]

/-- The request that a decoded text holds. -/
def decodedRequest : Json F → Except RegistryError (SubmissionRequest F)
  | .obj members => do
      let malformed := RegistryError.integrity "stored canonical request is malformed"
      refuseIf (Json.hasKeys ["kind", "max_attempts", "payload", "priority", "schema_version"]
        members = false) malformed
      let field (name : String) : Json F := (members.lookup name).getD .null
      (SubmissionRequest.ofFields (field "kind") (field "payload") (field "priority")
        (field "max_attempts") (field "schema_version")).mapError fun _ => malformed
  | _ => .error (.integrity "stored canonical request is malformed")

/-- `_request`. -/
def request (row : JobRow) : Except RegistryError (SubmissionRequest F) := do
  let encoded := PyText.encodeUtf8 row.requestJson
  refuseIf (¬ (2 ≤ encoded.length ∧ encoded.length ≤ registry.limits.maxRequestBytes))
    (RegistryError.integrity "stored canonical request exceeds this registry's bound")
  refuseIf (row.requestDigest ≠ PyText.hexText (PyRuntime.sha256 encoded))
    (RegistryError.integrity "stored canonical request digest does not match its bytes")
  let decoded ← (decodeBoundedJson (F := F) row.requestJson registry.limits.maxRequestBytes
    true).mapError fun _ => RegistryError.integrity "stored canonical request is malformed"
  let request ← decodedRequest F decoded
  requireStoredInt row.requestSchemaVersion "request_schema_version" 1 1
  requireStoredInt row.priority "request priority" (-100) 100
  requireStoredInt row.maxAttempts "request max_attempts" 1 100
  refuseIf (request.kind ≠ row.kind ∨ request.schemaVersion ≠ row.requestSchemaVersion ∨
      request.priority ≠ row.priority ∨ request.maxAttempts ≠ row.maxAttempts)
    (RegistryError.integrity "stored request JSON disagrees with indexed job semantics")
  refuseIf (registry.limits.maxAttempts < request.maxAttempts)
    (RegistryError.integrity "stored request exceeds this registry's attempt bound")
  .ok request

end Requests

end RunRegistry

/-! ## Changes of a row -/

namespace JobRow

/-- `state = 'running' AND lease_expires_at <= ?`. -/
def expiredAt (instant : Instant) (row : JobRow) : Bool :=
  row.state = .running && row.leaseExpiresAt.any (· ≤ instant)

/-- The columns of the lease set to `NULL`. -/
def release (row : JobRow) : JobRow :=
  { row with
    leaseOwner := none
    leaseTokenDigest := none
    leaseExpiresAt := none
    heartbeatAt := none }

def claim (instant expires : Instant) (workerId tokenDigest : String) (row : JobRow) : JobRow :=
  { row with
    state := .running
    attemptCount := row.attemptCount + 1
    updatedAt := instant
    leaseOwner := some workerId
    leaseTokenDigest := some tokenDigest
    leaseExpiresAt := some expires
    heartbeatAt := some instant }

def heartbeat (instant expires : Instant) (row : JobRow) : JobRow :=
  { row with updatedAt := instant, heartbeatAt := some instant, leaseExpiresAt := some expires }

def expire (state : JobState) (instant : Instant) (failureCode : Option FailureReasonCode)
    (failureSummary : Option String) (row : JobRow) : JobRow :=
  { row.release with
    state := state
    updatedAt := instant
    terminalAt := if state.terminal then some instant else none
    failureCode := failureCode
    failureSummary := failureSummary }

def requestCancel (instant : Instant) (reason : CancellationReasonCode) (row : JobRow) : JobRow :=
  { row with
    cancelRequestedAt := some instant
    cancelReason := some reason
    updatedAt := instant }

def cancelQueued (instant : Instant) (row : JobRow) : JobRow :=
  { row with state := .cancelled, terminalAt := some instant, updatedAt := instant }

def requeue (instant : Instant) (row : JobRow) : JobRow :=
  { row.release with state := .queued, updatedAt := instant }

def terminate (toState : JobState) (instant : Instant) (resultRunId : Option String)
    (failureCode : Option FailureReasonCode) (failureSummary : Option String) (row : JobRow) :
    JobRow :=
  { row.release with
    state := toState
    updatedAt := instant
    terminalAt := some instant
    resultRunId := resultRunId
    failureCode := failureCode
    failureSummary := failureSummary }

/-- `_require_monotonic`. -/
def requireMonotonic (row : JobRow) (current : Instant) : Except RegistryError Unit :=
  refuseIf (current < row.updatedAt)
    (.integrity "registry time authority moved behind durable job state")

end JobRow

/-- `_run` of a stored row. -/
def RunRow.readable (row : RunRow) : Except RegistryError Unit := do
  requireStoredInt row.sequence "run sequence" 1 (2 ^ 63 - 1)
  storedText row.runId "run_id" 128
  storedText row.jobId "job_id" 128
  requireStoredInt row.attempt "run attempt" 1 100
  requireStoredInt row.schemaVersion "run schema_version" 1 1
  optionalText row.sourceCommit "source_commit" 64
  optionalText row.dataIdentity "data_identity" 256
  optionalText row.limitationSummary "limitation_summary" 4096
  refuseIf (isIdentifier row.runId = false ∨ isIdentifier row.jobId = false)
    (.integrity "stored terminal run is malformed")

namespace Database

/-- `_require_job`. -/
def requireJob [PyRuntime] (db : Database) (jobId : String) : Except RegistryError JobRow :=
  match db.findJob jobId with
  | some row => .ok row
  | none => .error (.notFound ("job " ++ PyRuntime.strRepr jobId ++ " does not exist"))

/-- `_current_attempt_claimed_at`. -/
def currentAttemptClaimedAt (db : Database) (job : JobRow) : Except RegistryError Instant :=
  match (db.jobEvents job.jobId).filter fun event =>
      event.attempt = job.attemptCount && event.kind = .claimed with
  | [event] => do
      refuseIf (some event.actor ≠ job.leaseOwner ∨ event.fromState ≠ some .queued ∨
          event.toState ≠ .running)
        (RegistryError.integrity "current attempt claim event is inconsistent with its lease")
      .ok event.occurredAt
  | _ => .error (.integrity "current attempt must have exactly one claim event")

/-- The selection of `claim`: the first of the queued jobs of highest priority. -/
def nextQueued (db : Database) : Option JobRow :=
  @List.argmax JobRow ℤ Int.instLinearOrder.toPreorder Int.instLinearOrder.toDecidableLT
    JobRow.priority (db.jobs.filter fun row => row.state = .queued)

end Database

namespace RunRegistry

variable [PyRuntime] (registry : RunRegistry)

/-! ## Recovery -/

/-- The state and the failure of a job whose lease has expired. -/
def expiryOutcome (row : JobRow) : JobState × Option FailureReasonCode × Option String :=
  if row.cancelRequestedAt.isSome then (.cancelled, none, none)
  else if row.maxAttempts ≤ row.attemptCount then
    (.failed, some .leaseAttemptsExhausted,
      some "lease expired after the final permitted attempt")
  else (.queued, none, none)

omit [PyRuntime] in
/-- The body of the loop of `_recover_expired`. -/
def expireJob (instant : Instant) (db : Database) (row : JobRow) :
    Except RegistryError Database := do
  let snapshot ← row.snapshot
  refuseIf (snapshot.state ≠ .running)
    (RegistryError.integrity "expiry selection returned a non-running job")
  let (state, failureCode, failureSummary) := expiryOutcome row
  let (_, db) ← db.updateJob snapshot.jobId (JobRow.expiredAt instant)
    (JobRow.expire state instant failureCode failureSummary)
  db.recordEvent registry.limits
    { jobId := snapshot.jobId, kind := .leaseExpired, fromState := some .running, toState := state
      occurredAt := instant, attempt := snapshot.attemptCount, actor := "registry" }

omit [PyRuntime] in
/-- The rows that `_recover_expired` selects. -/
def expiredRows (db : Database) (instant : Instant) (prioritizedJobId : Option String) :
    List JobRow :=
  let target := prioritizedJobId.bind fun jobId => (db.findJob jobId).filter (·.expiredAt instant)
  let remaining := registry.limits.recoveryBatchSize - target.toList.length
  target.toList ++ ((db.jobs.filter fun row =>
    row.expiredAt instant && prioritizedJobId ≠ some row.jobId).take remaining)

omit [PyRuntime] in
/-- `_recover_expired`. -/
def recoverRows (db : Database) (instant : Instant) (prioritizedJobId : Option String) :
    Except RegistryError (ℕ × Database) := do
  let rows := registry.expiredRows db instant prioritizedJobId
  let db ← rows.foldlM (registry.expireJob instant) db
  .ok (rows.length, db)

/-! ## Leases -/

/-- `_owned_running`. -/
def ownedRunning (db : Database) (lease : Lease) (instant : Instant) :
    Except RegistryError JobRow := do
  let row ← db.requireJob lease.jobId
  row.requireMonotonic instant
  let snapshot ← row.snapshot
  refuseIf (snapshot.state ≠ .running ∨ row.leaseOwner ≠ some lease.workerId ∨
      row.leaseTokenDigest ≠ some (registry.digest leaseDomain lease.token) ∨
      snapshot.leaseExpiresAt.all (· ≤ instant) = true ∨ snapshot.attemptCount ≠ lease.attempt)
    (RegistryError.leaseLost "lease is absent, expired, or no longer owned by this claimant")
  .ok row

/-- The expiry of a lease taken now. -/
def leaseExpiry (current : Instant) (leaseSeconds : ℤ) : Except RegistryError Instant := do
  refuseIf (latestInstant < current + leaseSeconds * 1000000)
    (RegistryError.validation "lease expiry exceeds the supported datetime range")
  .ok (current + leaseSeconds * 1000000)

/-! ## Terminal runs -/

/-- The checks on artifact links. -/
def validateArtifactLinks (links : List ArtifactLink) : Except RegistryError Unit := do
  refuseIf (registry.limits.maxArtifactsPerRun < links.length)
    (RegistryError.capacity "run artifact-link capacity has been reached")
  refuseIf (¬ links.Pairwise fun a b =>
      a.role < b.role ∨ a.role = b.role ∧ a.artifactDigest < b.artifactDigest)
    (.validation "artifact_links must be unique and canonically sorted")

/-- What is checked of the linked artifacts, if there are any. -/
def checkLinked (links : List ArtifactLink) (check : Except ArtifactError Unit) :
    Except RegistryError Unit :=
  if links = [] then .ok () else check.mapError ArtifactError.toRegistryError

/-- `_preflight_terminal_artifacts`. -/
def preflightTerminalArtifacts (around : Surroundings) (links : List ArtifactLink) :
    Except RegistryError Unit := do
  registry.validateArtifactLinks links
  checkLinked links around.preflight

/-- `_insert_terminal_run`. -/
def insertTerminalRun (db : Database) (around : Surroundings) (job : JobRow)
    (request : TerminalRunRequest) (status : RunStatus) (links : List ArtifactLink)
    (instant : Instant) : Except RegistryError Database := do
  registry.validateArtifactLinks links
  let claimedAt ← db.currentAttemptClaimedAt job
  refuseIf (claimedAt < job.createdAt ∨ instant < claimedAt)
    (RegistryError.integrity "current attempt claim chronology is inconsistent")
  let startedAt := request.startedAt.getD claimedAt
  refuseIf (startedAt < claimedAt ∨ instant < startedAt) (RegistryError.validation
    "run chronology must satisfy claimed_at <= started_at <= ended_at")
  refuseIf (∃ run ∈ db.runs, run.runId = request.runId ∨
      run.jobId = job.jobId ∧ run.attempt = job.attemptCount)
    (RegistryError.conflict "a terminal run already exists for this identifier or attempt")
  refuseIf (around.legacyRun = true)
    (RegistryError.conflict "run_id already exists in the legacy experiment registry")
  checkLinked links around.artifacts
  let db ← db.insertRun
    { runId := request.runId, jobId := job.jobId, attempt := job.attemptCount, status := status
      evidenceClass := request.evidenceClass, createdAt := job.createdAt, startedAt := startedAt
      endedAt := instant, sourceCommit := request.sourceCommit
      dataIdentity := request.dataIdentity, limitationSummary := request.limitationSummary }
  let linked (link : ArtifactLink) : RunArtifactRow :=
    { toArtifactLink := link, runId := request.runId, linkedAt := instant }
  let db := { db with runArtifacts := db.runArtifacts ++ links.map linked }
  match db.runs.find? fun run => run.runId = request.runId with
  | none => .error (.integrity "terminal run insert did not produce a durable row")
  | some run => do
      run.readable
      .ok db

/-- `_set_terminal`. -/
def setTerminal (db : Database) (row : JobRow) (toState : JobState) (eventKind : EventKind)
    (actor : String) (instant : Instant) (resultRunId : Option String)
    (failureCode : Option FailureReasonCode) (failureSummary : Option String) :
    Except RegistryError Database := do
  refuseIf (toState.terminal = false)
    (RegistryError.integrity "terminal helper received a non-terminal target")
  let (updated, db) ← db.updateJob row.jobId (fun row => row.state = .running)
    (JobRow.terminate toState instant resultRunId failureCode failureSummary)
  refuseIf (updated ≠ 1) (RegistryError.invalidTransition "job is no longer running")
  db.recordEvent registry.limits
    { jobId := row.jobId, kind := eventKind, fromState := some .running, toState := toState
      occurredAt := instant, attempt := row.attemptCount, actor := actor }

/-- The ends of a failed attempt in `fail`. -/
def closeFailed (db : Database) (row : JobRow) (failureCode : FailureReasonCode)
    (failureSummary : String) (retryable : Bool) (instant : Instant) (workerId : String) :
    Except RegistryError Database :=
  if row.cancelRequestedAt.isSome = true then
    registry.setTerminal db row .cancelled .cancelled workerId instant none none none
  else if retryable = true ∧ row.attemptCount < row.maxAttempts then do
    let (_, db) ← db.updateJob row.jobId (fun row => row.state = .running)
      (JobRow.requeue instant)
    db.recordEvent registry.limits
      { jobId := row.jobId, kind := .retried, fromState := some .running, toState := .queued
        occurredAt := instant, attempt := row.attemptCount, actor := workerId
        details := .failureCode failureCode }
  else
    registry.setTerminal db row .failed .failed workerId instant none (some failureCode)
      (some failureSummary)

/-- The immediate end of queued work in `request_cancel`. -/
def cancelIfQueued (db : Database) (row : JobRow) (current : Instant) :
    Except RegistryError Database :=
  if row.state = .queued then do
    let (_, db) ← db.updateJob row.jobId (fun row => row.state = .queued)
      (JobRow.cancelQueued current)
    db.recordEvent registry.limits
      { jobId := row.jobId, kind := .cancelled, fromState := some .queued, toState := .cancelled
        occurredAt := current, attempt := row.attemptCount, actor := "registry" }
  else .ok db

/-! ## Calls -/

section Calls

variable {F : Type} [PyFloat F] [FloatText F]

/-- `_validate_secret`. -/
def validateSecret (value fieldName : String) : Except RegistryError Unit :=
  let size := (PyText.encodeUtf8 value).length
  refuseIf (¬ (8 ≤ size ∧ size ≤ 256) ∨ '\x00' ∈ value.toList)
    (.validation (fieldName ++ " must contain between 8 and 256 UTF-8 bytes"))

/-- The row that `submit` inserts. -/
def submittedRow (request : SubmissionRequest F) (jobId canonical requestDigest keyDigest : String)
    (instant : Instant) : JobRow :=
  { jobId := jobId, kind := request.kind, requestSchemaVersion := request.schemaVersion
    requestJson := canonical, requestDigest := requestDigest, idempotencyDigest := keyDigest
    state := .queued, priority := request.priority, maxAttempts := request.maxAttempts
    createdAt := instant, updatedAt := instant }

/-- `submit`, which draws `jobId` at random. -/
def submit (db : Database) (around : Surroundings) (request : SubmissionRequest F)
    (idempotencyKey jobId : String) : Except RegistryError (JobSnapshot × Database) := do
  validateSecret idempotencyKey "idempotency_key"
  let canonical ← request.canonicalText
  let encoded := PyText.encodeUtf8 canonical
  refuseIf (registry.limits.maxRequestBytes < encoded.length)
    (RegistryError.validation ("canonical request exceeds the " ++
      toString registry.limits.maxRequestBytes ++ "-byte bound"))
  refuseIf (registry.limits.maxAttempts < request.maxAttempts)
    (RegistryError.validation "request max_attempts exceeds registry limits")
  let requestDigest := PyText.hexText (PyRuntime.sha256 encoded)
  let keyDigest := registry.digest idempotencyDomain idempotencyKey
  match db.jobs.find? fun row => row.idempotencyDigest = keyDigest with
  | some prior => do
      let _ ← registry.request F prior
      refuseIf (prior.requestDigest ≠ requestDigest)
        (RegistryError.conflict "idempotency key was already used for another request")
      .ok (← prior.snapshot, db)
  | none => do
      let active := db.jobs.countP fun row => row.state = .queued ∨ row.state = .running
      refuseIf (registry.limits.queueCapacity ≤ active)
        (RegistryError.capacity "durable queue capacity has been reached")
      let instant ← around.now
      let db ← db.insertJob
        (submittedRow request jobId canonical requestDigest keyDigest instant)
      let db ← db.recordEvent registry.limits
        { jobId := jobId, kind := .submitted, fromState := none, toState := .queued
          occurredAt := instant, attempt := 0, actor := "submitter"
          details := .requestDigest requestDigest }
      match db.findJob jobId with
      | none => .error (.integrity "submitted job disappeared inside its transaction")
      | some row => do .ok (← row.snapshot, db)

/-- `claim`, which draws `token` at random. -/
def claim (db : Database) (around : Surroundings) (workerId : String) (leaseSeconds : ℤ)
    (token : String) : Except RegistryError (Option (ClaimedJob F) × Database) := do
  requireIdentifier workerId "worker_id"
  registry.validateLeaseSeconds leaseSeconds
  refuseIf (around.pendingRetention = true) (RegistryError.retentionPending
    "job claims pause while durable retention intent remains pending")
  let current ← around.now
  let expires ← leaseExpiry current leaseSeconds
  let (_, db) ← registry.recoverRows db current none
  match db.nextQueued with
  | none => .ok (none, db)
  | some row => do
      row.requireMonotonic current
      let request ← registry.request F row
      let queued ← row.snapshot
      refuseIf (queued.state ≠ .queued)
        (RegistryError.integrity "queue selection returned a non-queued job")
      let (updated, db) ← db.updateJob queued.jobId (fun row => row.state = .queued)
        (JobRow.claim current expires workerId (registry.digest leaseDomain token))
      refuseIf (updated ≠ 1)
        (RegistryError.integrity "guarded queue claim did not update exactly one job")
      let db ← db.recordEvent registry.limits
        { jobId := queued.jobId, kind := .claimed, fromState := some .queued, toState := .running
          occurredAt := current, attempt := queued.attemptCount + 1, actor := workerId
          details := .leaseExpiresAt expires }
      .ok (some ⟨⟨queued.jobId, workerId, token, queued.attemptCount + 1, expires, false⟩,
        request⟩, db)

/-- `heartbeat`. -/
def heartbeat (db : Database) (around : Surroundings) (lease : Lease) (leaseSeconds : ℤ) :
    Except RegistryError (Lease × Database) := do
  registry.validateLeaseSeconds leaseSeconds
  let current ← around.now
  let expires ← leaseExpiry current leaseSeconds
  let (_, db) ← registry.recoverRows db current none
  let row ← registry.ownedRunning db lease current
  row.requireMonotonic current
  let (_, db) ← db.updateJob lease.jobId (fun row => row.state = .running)
    (JobRow.heartbeat current expires)
  .ok (⟨lease.jobId, lease.workerId, lease.token, row.attemptCount, expires,
    row.cancelRequestedAt.isSome⟩, db)

omit [PyRuntime] in
/-- `recover_expired`. -/
def recoverExpired (db : Database) (around : Surroundings) :
    Except RegistryError (ℕ × Database) := do
  registry.recoverRows db (← around.now) none

/-- `request_cancel`. -/
def requestCancel (db : Database) (around : Surroundings) (jobId : String)
    (reason : CancellationReasonCode) : Except RegistryError (JobSnapshot × Database) := do
  requireIdentifier jobId "job_id"
  let current ← around.now
  let (_, db) ← registry.recoverRows db current (some jobId)
  let row ← db.requireJob jobId
  row.requireMonotonic current
  let snapshot ← row.snapshot
  if snapshot.state.terminal = true ∨ row.cancelRequestedAt.isSome = true then
    .ok (snapshot, db)
  else
    let (_, db) ← db.updateJob jobId (fun _ => true) (JobRow.requestCancel current reason)
    let db ← db.recordEvent registry.limits
      { jobId := jobId, kind := .cancelRequested, fromState := some snapshot.state
        toState := snapshot.state, occurredAt := current, attempt := row.attemptCount
        actor := "requester", details := .reasonCode reason }
    let db ← registry.cancelIfQueued db row current
    let row ← db.requireJob jobId
    .ok (← row.snapshot, db)

/-- `acknowledge_cancel`. -/
def acknowledgeCancel (db : Database) (around : Surroundings) (lease : Lease)
    (run : TerminalRunRequest) (links : List ArtifactLink) :
    Except RegistryError (JobSnapshot × Database) := do
  registry.preflightTerminalArtifacts around links
  let instant ← around.now
  let (_, db) ← registry.recoverRows db instant none
  let row ← registry.ownedRunning db lease instant
  refuseIf (row.cancelRequestedAt = none)
    (RegistryError.invalidTransition "cancellation has not been requested")
  let db ← registry.insertTerminalRun db around row run .cancelled links instant
  let db ← registry.setTerminal db row .cancelled .cancelled lease.workerId instant none none none
  let row ← db.requireJob lease.jobId
  .ok (← row.snapshot, db)

/-- `complete`. -/
def complete (db : Database) (around : Surroundings) (lease : Lease) (run : TerminalRunRequest)
    (links : List ArtifactLink) : Except RegistryError (JobSnapshot × Database) := do
  registry.preflightTerminalArtifacts around links
  let instant ← around.now
  let (_, db) ← registry.recoverRows db instant none
  let row ← registry.ownedRunning db lease instant
  refuseIf (row.cancelRequestedAt.isSome = true) (RegistryError.invalidTransition
    "cancel-requested work may not complete successfully")
  let db ← registry.insertTerminalRun db around row run .succeeded links instant
  let db ← registry.setTerminal db row .succeeded .succeeded lease.workerId instant
    (some run.runId) none none
  let row ← db.requireJob lease.jobId
  .ok (← row.snapshot, db)

/-- `fail`. -/
def fail (db : Database) (around : Surroundings) (lease : Lease) (failureCode : FailureReasonCode)
    (failureSummary : String) (retryable : Bool) (run : TerminalRunRequest)
    (links : List ArtifactLink) : Except RegistryError (JobSnapshot × Database) := do
  requireFailureSummary failureSummary
  registry.preflightTerminalArtifacts around links
  let instant ← around.now
  let (_, db) ← registry.recoverRows db instant none
  let row ← registry.ownedRunning db lease instant
  let status := if row.cancelRequestedAt.isSome then RunStatus.cancelled else .failed
  let db ← registry.insertTerminalRun db around row run status links instant
  let db ← registry.closeFailed db row failureCode failureSummary retryable instant lease.workerId
  let row ← db.requireJob lease.jobId
  .ok (← row.snapshot, db)

end Calls

end RunRegistry

/-! ## Runs of calls -/

/-- A call of the registry, with what it draws at random. -/
inductive Call (F : Type) [PyFloat F] [FloatText F] where
  | submit (request : SubmissionRequest F) (idempotencyKey jobId : String)
  | claim (workerId : String) (leaseSeconds : ℤ) (token : String)
  | heartbeat (lease : Lease) (leaseSeconds : ℤ)
  | recoverExpired
  | requestCancel (jobId : String) (reason : CancellationReasonCode)
  | complete (lease : Lease) (run : TerminalRunRequest) (links : List ArtifactLink)
  | fail (lease : Lease) (failureCode : FailureReasonCode) (failureSummary : String)
      (retryable : Bool) (run : TerminalRunRequest) (links : List ArtifactLink)
  | acknowledgeCancel (lease : Lease) (run : TerminalRunRequest) (links : List ArtifactLink)

inductive Reply (F : Type) [PyFloat F] [FloatText F] where
  | job (snapshot : JobSnapshot)
  | claimed (job : Option (ClaimedJob F))
  | lease (lease : Lease)
  | recovered (count : ℕ)

namespace RunRegistry

variable [PyRuntime] {F : Type} [PyFloat F] [FloatText F] (registry : RunRegistry)

/-- The transaction of a call. -/
def perform (db : Database) (around : Surroundings) : Call F →
    Except RegistryError (Reply F × Database)
  | .submit request idempotencyKey jobId => do
      let (snapshot, db) ← registry.submit db around request idempotencyKey jobId
      .ok (.job snapshot, db)
  | .claim workerId leaseSeconds token => do
      let (job, db) ← registry.claim db around workerId leaseSeconds token
      .ok (.claimed job, db)
  | .heartbeat lease leaseSeconds => do
      let (lease, db) ← registry.heartbeat db around lease leaseSeconds
      .ok (.lease lease, db)
  | .recoverExpired => do
      let (count, db) ← registry.recoverExpired db around
      .ok (.recovered count, db)
  | .requestCancel jobId reason => do
      let (snapshot, db) ← registry.requestCancel db around jobId reason
      .ok (.job snapshot, db)
  | .complete lease run links => do
      let (snapshot, db) ← registry.complete db around lease run links
      .ok (.job snapshot, db)
  | .fail lease failureCode failureSummary retryable run links => do
      let (snapshot, db) ←
        registry.fail db around lease failureCode failureSummary retryable run links
      .ok (.job snapshot, db)
  | .acknowledgeCancel lease run links => do
      let (snapshot, db) ← registry.acknowledgeCancel db around lease run links
      .ok (.job snapshot, db)

/-- `with self._write()`: a transaction that raises is rolled back. -/
def step (db : Database) (entry : Surroundings × Call F) :
    Except RegistryError (Reply F) × Database :=
  match registry.perform db entry.1 entry.2 with
  | .ok (reply, db') => (.ok reply, db')
  | .error error => (.error error, db)

/-- The tables after a run of calls on an empty registry. -/
def after (entries : List (Surroundings × Call F)) : Database :=
  (Machine.run registry.step {} entries).2

end RunRegistry

end Tracking
