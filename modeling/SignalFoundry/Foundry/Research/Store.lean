import SignalFoundry.Foundry.Encoding
import SignalFoundry.Library.Table

/-!
# The research store

`Store` as its tables: the jobs and the audit trail. A public write runs in one
transaction, so that a call that raises leaves both as they were (`write`);
`recover` runs one transaction for each interrupted job. Statements fail only by
the constraints of the schema.
-/

/-! ## Research jobs

The states of a research job and the record of it that callers see, which is
validated whenever it is read. Requests and evidence enter through their
canonical bytes; a request is identified by the digest of its bytes. -/

namespace Foundry

namespace Research

inductive JobState where
  | queued
  | running
  | succeeded
  | failed
  | cancelled
  deriving DecidableEq, Repr

/-- `state in TERMINAL`. -/
def JobState.Terminal : JobState → Bool
  | .queued => false
  | .running => false
  | .succeeded => true
  | .failed => true
  | .cancelled => true

/-- A contract with its canonical JSON bytes. -/
class Canonical (α : Type) where
  canonical : α → List UInt8

/-- Evidence of a request. Its request hash is the digest of the request, which
the contract validates. -/
class EvidenceOf (Evidence : Type) (Request : outParam Type) extends Canonical Evidence where
  request : Evidence → Request

/-- `contract.digest()`. -/
def digest [PyRuntime] {α : Type} [Canonical α] (contract : α) : String :=
  hexDigest (Canonical.canonical contract)

/-- The text of `now()`, with milliseconds and a final `Z`. -/
abbrev Timestamp := { text : String // text.length = 24 }

/-- The fields of `Job` that a row holds. -/
structure JobFields where
  jobId : String
  requestHash : String
  state : JobState
  createdAt : String
  updatedAt : String
  errorCode : Option String
  evidenceHash : Option String
  deriving DecidableEq, Repr

/-- The validation of `Job`. -/
structure JobFields.Coherent (job : JobFields) : Prop where
  jobId : isDigestText job.jobId = true
  requestHash : isDigestText job.requestHash = true
  createdAt : job.createdAt.length ≤ 32
  updatedAt : job.updatedAt.length ≤ 32
  errorCode : job.errorCode.all isIdentifier = true
  evidenceHash : job.evidenceHash.all isDigestText = true
  /-- Only succeeded jobs have published evidence. -/
  published : job.state = .succeeded ↔ job.evidenceHash.isSome = true
  /-- A state that is no failure has no error. -/
  failed : job.state ∈ [JobState.queued, .running, .succeeded] → job.errorCode = none

instance (job : JobFields) : Decidable job.Coherent :=
  decidable_of_iff
    ((isDigestText job.jobId = true ∧ isDigestText job.requestHash = true) ∧
      (job.createdAt.length ≤ 32 ∧ job.updatedAt.length ≤ 32) ∧
        (job.errorCode.all isIdentifier = true ∧ job.evidenceHash.all isDigestText = true) ∧
          (job.state = .succeeded ↔ job.evidenceHash.isSome = true) ∧
            (job.state ∈ [JobState.queued, .running, .succeeded] → job.errorCode = none))
    ⟨fun ⟨⟨hid, hrequest⟩, ⟨hcreated, hupdated⟩, ⟨hcode, hhash⟩, hpublished, hfailed⟩ =>
      ⟨hid, hrequest, hcreated, hupdated, hcode, hhash, hpublished, hfailed⟩,
    fun h => ⟨⟨h.jobId, h.requestHash⟩, ⟨h.createdAt, h.updatedAt⟩,
      ⟨h.errorCode, h.evidenceHash⟩, h.published, h.failed⟩⟩

/-- A validated job. -/
structure Job extends JobFields where
  coherent : toJobFields.Coherent

end Research

end Foundry

namespace Foundry

namespace Research

open Fallible

def maxJobs : ℕ := 64

def maxPending : ℕ := 8

structure JobRow where
  jobId : String
  keyHash : String
  requestHash : String
  requestJson : List UInt8
  state : JobState
  createdAt : String
  updatedAt : String
  errorCode : Option String := none
  evidenceHash : Option String := none
  evidence : Option (List UInt8) := none

/-- `SELECT job_id,request_hash,state,created_at,updated_at,error_code,evidence_hash`. -/
def JobRow.fields (row : JobRow) : JobFields where
  jobId := row.jobId
  requestHash := row.requestHash
  state := row.state
  createdAt := row.createdAt
  updatedAt := row.updatedAt
  errorCode := row.errorCode
  evidenceHash := row.evidenceHash

structure AuditRow where
  sequence : ℕ
  jobId : String
  state : JobState
  recordedAt : String
  code : Option String

/-- The tables of the store; `lastSequence` is the counter of the audit table. -/
structure Store where
  jobs : List JobRow := []
  audit : List AuditRow := []
  lastSequence : ℕ := 0

namespace Store

def jobNotFound : FoundryError := ⟨"job_not_found", "No such research job.", 404⟩

def corruptJob : FoundryError :=
  ⟨"corrupt_store", "Stored job metadata failed validation.", 500⟩

def storeIo : FoundryError :=
  ⟨"store_io", "State operation failed; no success is implied.", 503⟩

/-- Run the statements of a transaction; an error rolls them back. -/
def write {α : Type} (s : Store) (body : Store → Except FoundryError (α × Store)) :
    Except FoundryError α × Store :=
  match body s with
  | .ok (a, s') => (.ok a, s')
  | .error error => (.error error, s)

/-! ## Reading -/

def row (s : Store) (jobId : String) : Except FoundryError JobRow :=
  if isDigestText jobId then
    match Table.find JobRow.jobId jobId s.jobs with
    | some row => .ok row
    | none => .error jobNotFound
  else .error jobNotFound

def job (row : JobRow) : Except FoundryError Job :=
  if h : row.fields.Coherent then .ok ⟨row.fields, h⟩ else .error corruptJob

def get (s : Store) (jobId : String) : Except FoundryError Job := do
  let row ← s.row jobId
  job row

/-- The character class of idempotency keys. -/
def isKeyChar (c : Char) : Bool := PyText.isAlnumAscii c || c == '_' || c == '-'

/-- `KEY.fullmatch(key)`. -/
def isKey (key : String) : Bool :=
  key.toList.all isKeyChar && (16 ≤ key.toList.length && key.toList.length ≤ 128)

section Requests

variable [PyRuntime] {Request : Type} [Canonical Request]

def keyHash (key : String) : String := hexDigest (PyText.encodeUtf8 key)

/-- The job of a key that was used before. -/
def lookup (s : Store) (request : Request) (key : String) : Except FoundryError (Option Job) := do
  refuseIf (isKey key = false)
    ⟨"idempotency_key", "Use a 16–128 character URL-safe idempotency key.", 422⟩
  match Table.find JobRow.keyHash (keyHash key) s.jobs with
  | some existing => do
      refuseIf (existing.requestHash ≠ digest request)
        ⟨"idempotency_conflict", "That idempotency key already binds a different request.", 409⟩
      let job ← s.get existing.jobId
      .ok (some job)
  | none => .ok none

end Requests

/-! ## Statements -/

/-- `INSERT INTO jobs`, with its unique columns. -/
def insertJob (s : Store) (row : JobRow) : Except FoundryError Store :=
  if row.jobId ∈ s.jobs.map JobRow.jobId ∨ row.keyHash ∈ s.jobs.map JobRow.keyHash then
    .error storeIo
  else .ok { s with jobs := s.jobs ++ [row] }

/-- `UPDATE jobs SET ... WHERE job_id=?`. -/
def updateJob (s : Store) (jobId : String) (change : JobRow → JobRow) : Store :=
  { s with jobs := Table.update JobRow.jobId jobId change s.jobs }

/-- `INSERT INTO audit`. -/
def record (s : Store) (jobId : String) (state : JobState) (recordedAt : Timestamp)
    (code : Option String := none) : Store :=
  { s with
    audit := s.audit ++ [⟨s.lastSequence + 1, jobId, state, recordedAt, code⟩]
    lastSequence := s.lastSequence + 1 }

/-! ## Writing -/

/-- `state in ('queued','running')`. -/
def isPending (row : JobRow) : Bool := row.state = .queued || row.state = .running

section Requests

variable [PyRuntime] {Request : Type} [Canonical Request]

/-- The identity of a new job. -/
def jobIdOf (request : Request) (key : String) : String :=
  hexDigest (PyText.encodeUtf8 (keyHash key ++ digest request))

def queuedRow (request : Request) (key : String) (now : Timestamp) : JobRow where
  jobId := jobIdOf request key
  keyHash := keyHash key
  requestHash := digest request
  requestJson := Canonical.canonical request
  state := .queued
  createdAt := now
  updatedAt := now

def submit (s : Store) (request : Request) (key : String) (now : Timestamp) :
    Except FoundryError (Job × Bool) × Store :=
  s.write fun s => do
    let existing ← s.lookup request key
    match existing with
    | some job => .ok ((job, false), s)
    | none => do
        refuseIf (maxJobs ≤ s.jobs.length ∨ maxPending ≤ s.jobs.countP isPending)
          ⟨"queue_capacity", "The queue or retained-evidence budget is full; existing evidence" ++
            " is preserved.", 429⟩
        let s ← s.insertJob (queuedRow request key now)
        let s := s.record (jobIdOf request key) .queued now
        let job ← s.get (jobIdOf request key)
        .ok ((job, true), s)

end Requests

/-- The states that a job may be moved to. -/
def allowed (current : JobState) : List JobState :=
  if current = .queued then [.cancelled, .failed, .running] else [.cancelled, .failed]

def transition (s : Store) (jobId : String) (state : JobState) (code : Option String)
    (now : Timestamp) : Except FoundryError Job × Store :=
  s.write fun s => do
    let current ← s.get jobId
    if current.state.Terminal then
      if current.state = state then
        return (current, s)
      .error ⟨"terminal_job", "A terminal job cannot change state.", 409⟩
    else do
      refuseIf (state ∉ allowed current.state)
        ⟨"invalid_transition", "This job transition is not permitted.", 409⟩
      let s := s.updateJob jobId fun row =>
        { row with state := state, updatedAt := now, errorCode := code }
      let s := s.record jobId state now code
      let job ← s.get jobId
      .ok (job, s)

section Evidence

variable [PyRuntime] {Request Evidence : Type} [Canonical Request] [EvidenceOf Evidence Request]

def publish (s : Store) (jobId : String) (evidence : Evidence) (now : Timestamp) :
    Except FoundryError Job × Store :=
  let payload := Canonical.canonical evidence
  if payload.length > maxEvidenceBytes then
    (.error ⟨"evidence_limit", "Evidence exceeds the immutable artifact budget.", 507⟩, s)
  else
    s.write fun s => do
      let current ← s.get jobId
      refuseIf (current.state ≠ .running ∨
          current.requestHash ≠ digest (EvidenceOf.request evidence))
        ⟨"publication_conflict", "Evidence cannot be published for this job state or request.", 409⟩
      let s := s.updateJob jobId fun row =>
        { row with
          state := .succeeded
          updatedAt := now
          evidenceHash := some (hexDigest payload)
          evidence := some payload }
      let s := s.record jobId .succeeded now
      let job ← s.get jobId
      .ok (job, s)

end Evidence

/-- Fail the jobs of some rows, one transaction each. -/
def failRows (clock : String → Timestamp) : List JobRow → Store → Except FoundryError Unit × Store
  | [], s => (.ok (), s)
  | row :: rows, s =>
      match s.transition row.jobId .failed (some "interrupted") (clock row.jobId) with
      | (.ok _, s) => failRows clock rows s
      | (.error error, s) => (.error error, s)

/-- Interrupted work fails on a restart; the clock is read for each job. -/
def recover (s : Store) (clock : String → Timestamp) : Except FoundryError Unit × Store :=
  let rows := (s.jobs.filter isPending).take 65
  if rows.length > maxJobs then
    (.error ⟨"corrupt_store", "Stored queue exceeds its cardinality bound.", 500⟩, s)
  else failRows clock rows s

end Store

end Research

end Foundry
