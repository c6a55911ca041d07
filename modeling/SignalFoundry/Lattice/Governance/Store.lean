import SignalFoundry.Lattice.Governance.Lane

/-!
# The governance store

`GovernanceStore` as the tables of its schema. Every call that writes is one
transaction: it returns the tables it commits, or raises and leaves them as they
were. A column of instants holds the instants its texts encode, a column of
JSON the texts themselves.
-/

namespace Governance

open Fallible

inductive EventKind where
  | policy
  | comparison
  | request
  | approval
  | assignment
  | monitoring
  | freeze
  deriving DecidableEq, Repr

namespace EventKind

def value : EventKind → String
  | policy => "policy"
  | comparison => "comparison"
  | request => "request"
  | approval => "approval"
  | assignment => "assignment"
  | monitoring => "monitoring"
  | freeze => "freeze"

end EventKind

structure LaneRow where
  laneIdentity : String
  laneKey : String
  createdAt : Shadow.Instant
  deriving DecidableEq

structure EventRow where
  laneIdentity : String
  sequence : ℕ
  kind : EventKind
  payload : String
  payloadDigest : String
  previousDigest : String
  chainDigest : String
  idempotencyDigest : Option String
  recordedAt : Shadow.Instant
  deriving DecidableEq

structure HeadRow where
  laneIdentity : String
  state : LaneState
  championRevision : Option String
  generation : ℤ
  freezeTrigger : Option FreezeTrigger
  sequence : ℕ
  updatedAt : Shadow.Instant
  deriving DecidableEq

/-- The tables, each in the order of insertion. -/
structure Store where
  lanes : List LaneRow := []
  events : List EventRow := []
  heads : List HeadRow := []

/-- A payload: a mapping from texts to values, without repeated keys. -/
structure Payload (F : Type) where
  members : List (String × PyValue F)
  keys : (members.map Prod.fst).Nodup
  values : ∀ m ∈ members, m.2.Unique

/-- `dict(payload)`. -/
def Payload.dict {F : Type} (payload : Payload F) : PyValue F :=
  .dict (payload.members.map fun m => (.str m.1, m.2))

theorem Payload.unique {F : Type} (payload : Payload F) : payload.dict.Unique := by
  obtain ⟨members, hkeys, hvalues⟩ := payload
  constructor
  · rw [List.map_map]
    have hnodup := hkeys.map (f := PyKey.str) fun _ _ h => PyKey.str.inj h
    rwa [List.map_map] at hnodup
  · show PyValue.UniqueMembers (members.map fun m => (PyKey.str m.1, m.2))
    clear hkeys
    induction members with
    | nil => trivial
    | cons m members ih =>
        obtain ⟨hm, hrest⟩ := List.forall_mem_cons.mp hvalues
        exact ⟨hm, ih hrest⟩

/-- One immutable link in a lane's chain. -/
structure GovernanceEvent (F : Type) where
  laneIdentity : String
  sequence : ℕ
  kind : EventKind
  payload : PyValue F
  payloadDigest : String
  previousDigest : String
  chainDigest : String
  recordedAt : Shadow.Instant

/-- `text[:12]`. -/
def short (text : String) : String := String.ofList (text.toList.take 12)

def genesisDigest : String := String.ofList (List.replicate 64 '0')

def maxPayloadBytes : ℕ := 1048576

def maxEventsPerQuery : ℕ := 100000

section Digests

variable [PyRuntime]

def chainDigest (previousDigest payloadDigest : String) (sequence : ℕ) (kind : EventKind) :
    String :=
  digestText (previousDigest ++ ":" ++ payloadDigest ++ ":" ++
    String.ofList (Nat.toDigits 10 sequence) ++ ":" ++ kind.value)

def idempotencyDigest (key : String) : Except GovernanceError String := do
  refuseIf (PyText.isBlank key = true ∨ 256 < key.toList.length)
    (.store "idempotency key must be a non-empty string of at most 256 chars")
  .ok (digestText ("sl-governance-idempotency:" ++ key))

end Digests

/-- `_require_digest`. -/
def requireDigest (value fieldName : String) : Except GovernanceError Unit :=
  refuseIf (Shadow.isDigest value = false)
    (.store (fieldName ++ " must be a full lowercase SHA-256 digest"))

def notRegistered (laneIdentity : String) : GovernanceError :=
  .store ("lane " ++ short laneIdentity ++ " is not registered")

namespace Store

/-! ## Statements -/

/-- `INSERT OR IGNORE INTO sl_governance_lanes`. -/
def insertLane (s : Store) (row : LaneRow) : Store :=
  if row.laneIdentity ∈ s.lanes.map LaneRow.laneIdentity ∨
      Shadow.isDigest row.laneIdentity = false ∨
      ¬ (2 ≤ row.laneKey.toList.length ∧ row.laneKey.toList.length ≤ 4096) then s
  else { s with lanes := s.lanes ++ [row] }

end Store

/-- The checks of `sl_governance_lane_head`. -/
def HeadRow.Checked (row : HeadRow) : Prop :=
  row.championRevision.all Shadow.isDigest = true ∧
    (0 ≤ row.generation ∧ row.generation ≤ 1000000) ∧
    (row.state = .unassigned → row.championRevision = none) ∧
    (row.state = .active → row.championRevision ≠ none) ∧
    (row.state = .frozen ↔ row.freezeTrigger ≠ none)

instance (row : HeadRow) : Decidable row.Checked :=
  inferInstanceAs (Decidable (_ ∧ _ ∧ _ ∧ _ ∧ _))

/-- The head after an assignment. -/
def HeadRow.assigned (championRevision : String) (generation : ℤ) (sequence : ℕ)
    (now : Shadow.Instant) (row : HeadRow) : HeadRow :=
  { row with
    state := .active
    championRevision := some championRevision
    generation := generation
    freezeTrigger := none
    sequence := sequence
    updatedAt := now }

/-- The head after a freeze, with its champion. -/
def HeadRow.frozen (trigger : FreezeTrigger) (sequence : ℕ) (now : Shadow.Instant)
    (row : HeadRow) : HeadRow :=
  { row with
    state := .frozen
    freezeTrigger := some trigger
    sequence := sequence
    updatedAt := now }

namespace Store

/-- `INSERT OR IGNORE INTO sl_governance_lane_head`. A row whose lane is missing
is no conflict that is ignored. -/
def insertHead (s : Store) (row : HeadRow) : Except GovernanceError Store :=
  if row.laneIdentity ∈ s.heads.map HeadRow.laneIdentity ∨ ¬ row.Checked then .ok s
  else do
    refuseIf (row.laneIdentity ∉ s.lanes.map LaneRow.laneIdentity) .database
    .ok { s with heads := s.heads ++ [row] }

/-- The equality of the primary keys of the events. -/
local instance lawfulBEq_keys : LawfulBEq (String × ℕ) := inferInstance

/-- `INSERT INTO sl_governance_events`. -/
def insertEvent (s : Store) (row : EventRow) : Except GovernanceError Store := do
  refuseIf ((row.laneIdentity, row.sequence) ∈ s.events.map fun e => (e.laneIdentity, e.sequence))
    .database
  refuseIf (row.sequence = 0) .database
  refuseIf (¬ (2 ≤ row.payload.toList.length ∧ row.payload.toList.length ≤ 1048576)) .database
  refuseIf (Shadow.isDigest row.payloadDigest = false ∨ Shadow.isDigest row.previousDigest = false ∨
    Shadow.isDigest row.chainDigest = false) .database
  refuseIf (row.idempotencyDigest ≠ none ∧ (row.laneIdentity, row.idempotencyDigest) ∈
    s.events.map fun e => (e.laneIdentity, e.idempotencyDigest)) .database
  refuseIf (row.chainDigest ∈ s.events.map EventRow.chainDigest) .database
  refuseIf (row.laneIdentity ∉ s.lanes.map LaneRow.laneIdentity) .database
  .ok { s with events := s.events ++ [row] }

/-- `UPDATE sl_governance_lane_head`, with its trigger, of the row that the
transaction has read. -/
def updateHead (s : Store) (row : HeadRow) (change : HeadRow → HeadRow) :
    Except GovernanceError Store := do
  refuseIf ((change row).generation < row.generation ∨ (change row).sequence < row.sequence)
    .database
  refuseIf (¬ (change row).Checked) .database
  .ok { s with
    heads := Table.update HeadRow.laneIdentity row.laneIdentity change s.heads }

/-! ## Reads -/

/-- `SELECT ... FROM sl_governance_lane_head WHERE lane_identity = ?`. -/
def headOf (s : Store) (laneIdentity : String) : Option HeadRow :=
  Table.find HeadRow.laneIdentity laneIdentity s.heads

/-- The rows of a lane in the order of their sequence. -/
def eventsOf (s : Store) (laneIdentity : String) : List EventRow :=
  (s.events.filter fun row => row.laneIdentity = laneIdentity).insertionSort
    (·.sequence ≤ ·.sequence)

def laneHead (s : Store) (laneIdentity : String) : Except GovernanceError LaneHead :=
  match s.headOf laneIdentity with
  | none => .error (notRegistered laneIdentity)
  | some row =>
      LaneHead.make laneIdentity row.state row.championRevision row.generation row.freezeTrigger

end Store

section Calls

variable [PyRuntime] {F : Type} [PyFloat F] [FloatText F]

/-- `_row_to_event`. -/
def EventRow.toEvent (F : Type) [FloatText F] (row : EventRow) :
    Except GovernanceError (GovernanceEvent F) :=
  match PyValue.loads row.payload with
  | none => .error .value
  | some payload =>
      .ok ⟨row.laneIdentity, row.sequence, row.kind, payload, row.payloadDigest,
        row.previousDigest, row.chainDigest, row.recordedAt⟩

namespace Store

/-! ## Calls -/

def registerLane (F : Type) [FloatText F] (s : Store) (lane : GovernanceLane)
    (now : Shadow.Instant) : Except GovernanceError Store :=
  let identity := lane.identity F
  (s.insertLane ⟨identity, lane.key F, now⟩).insertHead
    ⟨identity, .unassigned, none, 0, none, 0, now⟩

/-- The event of a lane that an idempotency key is bound to. -/
def bound (s : Store) (laneIdentity : String) (keyDigest : Option String) : Option EventRow :=
  match keyDigest with
  | none => none
  | some digest => s.events.find? fun row =>
      row.laneIdentity = laneIdentity ∧ row.idempotencyDigest = some digest

/-- `_append_locked`: the event of the lane that the call resolves to, which is
a recorded one when its key is bound. -/
def appendLocked (s : Store) (laneIdentity : String) (kind : EventKind) (payload : Payload F)
    (now : Shadow.Instant) (idempotencyKey : Option String) :
    Except GovernanceError (GovernanceEvent F × Store) := do
  match payload.dict.dumps with
  | none => .error .value
  | some encoded => do
      refuseIf (maxPayloadBytes < (PyText.encodeUtf8 encoded).length)
        (.store "payload exceeds the 1048576-byte ceiling")
      let payloadDigest ← canonicalDigest payload.dict
      let keyDigest ← idempotencyKey.mapM idempotencyDigest
      match s.bound laneIdentity keyDigest with
      | some existing => do
          refuseIf (existing.payloadDigest ≠ payloadDigest)
            (.store ("idempotency key was already used for different content; " ++
              "reusing a key for a new payload would silently discard it"))
          let event ← existing.toEvent F
          .ok (event, s)
      | none => do
          refuseIf (laneIdentity ∉ s.lanes.map LaneRow.laneIdentity) (notRegistered laneIdentity)
          let last := (s.eventsOf laneIdentity).getLast?
          let sequence := match last with
            | none => 1
            | some row => row.sequence + 1
          let previous := match last with
            | none => genesisDigest
            | some row => row.chainDigest
          let link := chainDigest previous payloadDigest sequence kind
          let s ← s.insertEvent ⟨laneIdentity, sequence, kind, encoded, payloadDigest, previous,
            link, keyDigest, now⟩
          .ok (⟨laneIdentity, sequence, kind, payload.dict, payloadDigest, previous, link, now⟩, s)

def appendEvent (s : Store) (laneIdentity : String) (kind : EventKind) (payload : Payload F)
    (now : Shadow.Instant) (idempotencyKey : Option String) :
    Except GovernanceError (GovernanceEvent F × Store) :=
  s.appendLocked laneIdentity kind payload now idempotencyKey

/-- The payload of an assignment. -/
def assignmentPayload (F : Type) (championRevision : String) (expectedGeneration : ℤ)
    (expectedChampion : Option String) : Payload F where
  members := [
    ("champion_revision", .str championRevision),
    ("generation", .int (expectedGeneration + 1)),
    ("previous_champion", expectedChampion.elim .none .str),
    ("previous_generation", .int expectedGeneration)]
  keys := by simp
  values := by cases expectedChampion <;> simp [PyValue.Unique]

def applyAssignment (F : Type) [PyFloat F] [FloatText F] (s : Store) (laneIdentity : String)
    (championRevision : String) (expectedGeneration : ℤ) (expectedChampion : Option String)
    (now : Shadow.Instant) (idempotencyKey : Option String) : Except GovernanceError Store := do
  requireDigest championRevision "champion_revision"
  expectedChampion.forM (requireDigest · "expected_champion")
  match s.headOf laneIdentity with
  | none => .error (notRegistered laneIdentity)
  | some row => do
      refuseIf (row.generation ≠ expectedGeneration)
        (.stale ("lane head is at generation " ++ String.ofList (Json.writeInt row.generation) ++
          " but the approval named " ++ String.ofList (Json.writeInt expectedGeneration) ++
          "; another application won the race"))
      refuseIf (row.championRevision ≠ expectedChampion)
        (.stale ("lane champion is not the one this approval was granted against; " ++
          "the comparison must be re-run against the current champion"))
      assertLaneTransition row.state .active
      let (event, s) ← s.appendLocked laneIdentity .assignment
        (assignmentPayload F championRevision row.generation expectedChampion) now idempotencyKey
      s.updateHead row (.assigned championRevision (row.generation + 1) event.sequence now)

/-- The payload of a freeze. -/
def freezePayload (F : Type) (trigger : FreezeTrigger) (detail : String) : Payload F where
  members := [("trigger", .str trigger.value), ("detail", .str detail)]
  keys := by simp
  values := by simp [PyValue.Unique]

def freeze (F : Type) [PyFloat F] [FloatText F] (s : Store) (laneIdentity : String)
    (trigger : FreezeTrigger) (detail : String) (now : Shadow.Instant)
    (idempotencyKey : Option String) : Except GovernanceError Store := do
  refuseIf (PyText.isBlank detail = true ∨ 512 < detail.toList.length)
    (.store "freeze detail must be a non-empty string under 512 chars")
  match s.headOf laneIdentity with
  | none => .error (notRegistered laneIdentity)
  | some row => do
      assertLaneTransition row.state .frozen
      let (event, s) ← s.appendLocked laneIdentity .freeze (freezePayload F trigger detail) now
        idempotencyKey
      s.updateHead row (.frozen trigger event.sequence now)

/-! ## The chain -/

def loadEvents (F : Type) [FloatText F] (s : Store) (laneIdentity : String) :
    Except GovernanceError (List (GovernanceEvent F)) := do
  refuseIf (maxEventsPerQuery < (s.eventsOf laneIdentity).length)
    (.store ("lane holds more than 100000 events; refusing to return a " ++
      "silently truncated history"))
  (s.eventsOf laneIdentity).mapM (EventRow.toEvent F)

/-- The loop of `verify_chain`, at a position with the digest before it. -/
def verifyFrom (laneIdentity previous : String) (position : ℕ) :
    List (GovernanceEvent F) → Except GovernanceError Unit
  | [] => .ok ()
  | event :: rest => do
      let number := String.ofList (Nat.toDigits 10 event.sequence)
      refuseIf (event.sequence ≠ position)
        (.chain ("lane " ++ short laneIdentity ++ " has a sequence gap: expected " ++
          String.ofList (Nat.toDigits 10 position) ++ ", found " ++ number))
      let recomputed ← canonicalDigest event.payload
      refuseIf (recomputed ≠ event.payloadDigest)
        (.chain ("payload at sequence " ++ number ++ " does not match its recorded digest"))
      refuseIf (event.previousDigest ≠ previous)
        (.chain ("chain breaks at sequence " ++ number ++ ": recorded predecessor " ++
          short event.previousDigest ++ " but computed " ++ short previous))
      refuseIf (chainDigest previous recomputed event.sequence event.kind ≠ event.chainDigest)
        (.chain ("chain digest at sequence " ++ number ++ " does not reproduce"))
      verifyFrom laneIdentity event.chainDigest (position + 1) rest

def verifyChain (F : Type) [PyFloat F] [FloatText F] (s : Store) (laneIdentity : String) :
    Except GovernanceError ℕ := do
  let events ← s.loadEvents F laneIdentity
  verifyFrom laneIdentity genesisDigest 1 events
  .ok events.length

end Store

/-! ## The head as a projection -/

/-- The accumulators of `rebuild_head`. -/
structure Projection where
  state : LaneState := .unassigned
  champion : Option String := none
  generation : ℤ := 0
  trigger : Option FreezeTrigger := none
  deriving DecidableEq

/-- `str(payload[name])` of a text. -/
def textMember (payload : PyValue F) (name : String) : Except GovernanceError String :=
  match payload.member? name with
  | some (.str text) => .ok text
  | _ => .error .value

/-- `int(payload[name])` of an integer. -/
def intMember (payload : PyValue F) (name : String) : Except GovernanceError ℤ :=
  match payload.member? name with
  | some (.int n) => .ok n
  | _ => .error .value

namespace Projection

def after (p : Projection) (event : GovernanceEvent F) : Except GovernanceError Projection :=
  match event.kind with
  | .assignment => do
      let champion ← textMember event.payload "champion_revision"
      let generation ← intMember event.payload "generation"
      .ok ⟨.active, some champion, generation, none⟩
  | .freeze => do
      let value ← textMember event.payload "trigger"
      match FreezeTrigger.ofValue value with
      | none => .error .value
      | some trigger => .ok { p with state := .frozen, trigger := some trigger }
  | _ => .ok p

end Projection

def replayHead (events : List (GovernanceEvent F)) (laneIdentity : String) :
    Except GovernanceError LaneHead := do
  let p ← events.foldlM Projection.after {}
  LaneHead.make laneIdentity p.state p.champion p.generation p.trigger

namespace Store

def rebuildHead (F : Type) [PyFloat F] [FloatText F] (s : Store) (laneIdentity : String) :
    Except GovernanceError LaneHead := do
  let _ ← s.verifyChain F laneIdentity
  let events ← s.loadEvents F laneIdentity
  let rebuilt ← replayHead events laneIdentity
  let stored ← s.laneHead laneIdentity
  refuseIf (rebuilt ≠ stored)
    (.chain ("the stored lane head disagrees with the one its events produce: stored " ++
      stored.describe ++ ", rebuilt " ++ rebuilt.describe ++ ". The events are the authority; " ++
      "the projection must be repaired from them, and the divergence investigated rather than " ++
      "overwritten."))
  .ok rebuilt

end Store

/-! ## Runs -/

/-- A call of the store. Evidence is appended under kinds that do not move the
head. -/
inductive Call (F : Type) where
  | register (lane : GovernanceLane) (now : Shadow.Instant)
  | append (laneIdentity : String) (kind : EventKind)
      (evidence : kind ≠ .assignment ∧ kind ≠ .freeze) (payload : Payload F)
      (now : Shadow.Instant) (idempotencyKey : Option String)
  | assign (laneIdentity championRevision : String) (expectedGeneration : ℤ)
      (expectedChampion : Option String) (now : Shadow.Instant) (idempotencyKey : Option String)
  | freeze (laneIdentity : String) (trigger : FreezeTrigger) (detail : String)
      (now : Shadow.Instant) (idempotencyKey : Option String)

namespace Store

/-- The transaction of a call. -/
def commit (s : Store) : Call F → Except GovernanceError Store
  | .register lane now => s.registerLane F lane now
  | .append laneIdentity kind _ payload now idempotencyKey =>
      (s.appendEvent laneIdentity kind payload now idempotencyKey).map Prod.snd
  | .assign laneIdentity championRevision expectedGeneration expectedChampion now idempotencyKey =>
      s.applyAssignment F laneIdentity championRevision expectedGeneration expectedChampion now
        idempotencyKey
  | .freeze laneIdentity trigger detail now idempotencyKey =>
      s.freeze F laneIdentity trigger detail now idempotencyKey

/-- The tables after a call; one that raises is rolled back. -/
def after (s : Store) (call : Call F) : Store := (s.commit call).toOption.getD s

def run (s : Store) (calls : List (Call F)) : Store := calls.foldl after s

end Store

end Calls

end Governance
