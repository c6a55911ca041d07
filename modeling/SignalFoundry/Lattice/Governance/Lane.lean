import SignalFoundry.Lattice.Shadow.Contracts
import SignalFoundry.Library.PyValue

/-!
# Governance lanes

The identity of a lane, the states it can be in and the head that says who its
champion is. A head is checked when it is made, so a head that exists is
coherent.
-/

namespace Governance

open Fallible

inductive GovernanceError where
  /-- `ShadowValidationError`. -/
  | validation (message : String)
  /-- `GovernanceStateError`. -/
  | state (message : String)
  /-- `GovernanceStoreError`. -/
  | store (message : String)
  /-- `StaleWriteError`. -/
  | stale (message : String)
  /-- `ChainIntegrityError`. -/
  | chain (message : String)
  /-- A `TypeError`, `ValueError` or `KeyError` of the language. -/
  | value
  /-- `sqlite3.IntegrityError`. -/
  | database
  deriving DecidableEq, Repr

/-! ## States -/

inductive LaneState where
  | unassigned
  | active
  | frozen
  deriving DecidableEq, Repr

namespace LaneState

def value : LaneState → String
  | unassigned => "unassigned"
  | active => "active"
  | frozen => "frozen"

end LaneState

inductive FreezeTrigger where
  | hardIntegrity
  | consecutiveSoftBreach
  deriving DecidableEq, Repr

namespace FreezeTrigger

def value : FreezeTrigger → String
  | hardIntegrity => "hard_integrity"
  | consecutiveSoftBreach => "consecutive_soft_breach"

/-- `FreezeTrigger(value)`. -/
def ofValue (value : String) : Option FreezeTrigger :=
  if value = hardIntegrity.value then some hardIntegrity
  else if value = consecutiveSoftBreach.value then some consecutiveSoftBreach
  else none

@[simp] theorem ofValue_value (trigger : FreezeTrigger) : ofValue trigger.value = some trigger := by
  cases trigger <;> decide

end FreezeTrigger

/-- `_LANE_TRANSITIONS`. -/
def laneTransitions : List (LaneState × LaneState) :=
  [(.unassigned, .active), (.active, .active), (.active, .frozen), (.frozen, .active)]

def assertLaneTransition (current target : LaneState) : Except GovernanceError Unit :=
  refuseIf ((current, target) ∉ laneTransitions)
    (.state ("lane transition " ++ current.value ++ " -> " ++ target.value ++
      " is not permitted; there is no automatic activation, failover, or unfreeze"))

/-! ## Lanes -/

/-- `^[a-z][a-z0-9_\-]{0,63}$`. -/
def isLaneField (value : String) : Bool :=
  Shadow.matchesLine (PyText.isToken PyText.isLowerAscii
    (fun c => PyText.isLowerAscii c || PyText.isDigitAscii c || c == '_' || c == '-') 63) value

/-- A lane key whose components have been validated. -/
structure GovernanceLane where
  purpose : String
  target : String
  horizonDays : ℕ
  frequency : String
  universeContract : String
  decisionPolicy : String
  environment : String
  fields : ∀ value ∈ [purpose, target, frequency, universeContract, decisionPolicy, environment],
    isLaneField value = true
  horizon : 1 ≤ horizonDays ∧ horizonDays ≤ 365

section Digests

variable [PyRuntime]

/-- `hashlib.sha256(text.encode("utf-8")).hexdigest()`. -/
def digestText (text : String) : String :=
  PyText.hexText (PyRuntime.sha256 (PyText.encodeUtf8 text))

theorem isDigest_digestText (text : String) : Shadow.isDigest (digestText text) = true := by
  have hrun := PyText.isRun_hexText (PyRuntime.sha256 (PyText.encodeUtf8 text))
  rwa [PyRuntime.sha256_length] at hrun

/-- `canonical_digest`. -/
def canonicalDigest {F : Type} [PyFloat F] [FloatText F] (payload : PyValue F) :
    Except GovernanceError String :=
  match payload.dumps with
  | none => .error .value
  | some text => .ok (digestText text)

/-- `json.dumps(lane.to_dict(), sort_keys=True, separators=(",", ":"))`. -/
def GovernanceLane.key (F : Type) [FloatText F] (lane : GovernanceLane) : String :=
  (.obj [
    ("purpose", .str lane.purpose),
    ("target", .str lane.target),
    ("horizon_days", .int lane.horizonDays),
    ("frequency", .str lane.frequency),
    ("universe", .str lane.universeContract),
    ("decision_policy", .str lane.decisionPolicy),
    ("environment", .str lane.environment)] : Json F).dumps

/-- Content identity over the complete lane key. -/
def GovernanceLane.identity (F : Type) [FloatText F] (lane : GovernanceLane) : String :=
  digestText (lane.key F)

end Digests

/-! ## Heads -/

/-- The current projection of a lane. -/
structure LaneHead where
  laneIdentity : String
  state : LaneState
  championRevision : Option String
  generation : ℤ
  freezeTrigger : Option FreezeTrigger
  identified : laneIdentity.toList.length = 64
  counted : 0 ≤ generation ∧ generation ≤ 1000000
  unassigned_champion : state = .unassigned → championRevision = none
  active_champion : state = .active → championRevision ≠ none ∧ championRevision ≠ some ""
  frozen_trigger : state = .frozen ↔ freezeTrigger ≠ none
  deriving DecidableEq

namespace LaneHead

/-- `LaneHead(...)` with its `__post_init__`. -/
def make (laneIdentity : String) (state : LaneState) (championRevision : Option String)
    (generation : ℤ) (freezeTrigger : Option FreezeTrigger) : Except GovernanceError LaneHead := do
  let ⟨identified⟩ ← require (laneIdentity.toList.length = 64)
    (.validation "lane_identity must be a full SHA-256 digest")
  let ⟨counted⟩ ← require (0 ≤ generation ∧ generation ≤ 1000000)
    (.validation "generation must lie in [0, 1000000]")
  let ⟨unassigned⟩ ← require (state = .unassigned → championRevision = none)
    (.validation "an unassigned lane cannot name a champion")
  let ⟨active⟩ ← require (state = .active → championRevision ≠ none ∧ championRevision ≠ some "")
    (.validation ("an active lane must name its champion; an active lane without one is a lane " ++
      "whose current model nobody can identify"))
  let ⟨frozen⟩ ← require (state = .frozen ↔ freezeTrigger ≠ none)
    (.validation ("a frozen lane must record its trigger and only a frozen lane may carry one; " ++
      "the trigger determines what is required to clear the freeze"))
  .ok ⟨laneIdentity, state, championRevision, generation, freezeTrigger, identified, counted,
    unassigned, active, frozen⟩

theorem make_eq_ok {laneIdentity : String} {state : LaneState} {championRevision : Option String}
    {generation : ℤ} {freezeTrigger : Option FreezeTrigger}
    (identified : laneIdentity.toList.length = 64) (counted : 0 ≤ generation ∧ generation ≤ 1000000)
    (unassigned : state = .unassigned → championRevision = none)
    (active : state = .active → championRevision ≠ none ∧ championRevision ≠ some "")
    (frozen : state = .frozen ↔ freezeTrigger ≠ none) :
    ∃ head, make laneIdentity state championRevision generation freezeTrigger = .ok head := by
  refine ⟨⟨laneIdentity, state, championRevision, generation, freezeTrigger, identified, counted,
    unassigned, active, frozen⟩, ?_⟩
  simp only [make, require_of identified, require_of counted, require_of unassigned,
    require_of active, require_of frozen, ok_bind]

theorem state_of_make {laneIdentity : String} {state : LaneState}
    {championRevision : Option String} {generation : ℤ} {freezeTrigger : Option FreezeTrigger}
    {head : LaneHead}
    (h : make laneIdentity state championRevision generation freezeTrigger = .ok head) :
    head.state = state := by
  simp only [make, bind_eq_ok_iff, Except.ok.injEq] at h
  obtain ⟨_, -, _, -, _, -, _, -, _, -, rfl⟩ := h
  rfl

/-- The text of `to_dict()`. -/
def describe [PyRuntime] (head : LaneHead) : String :=
  let text (value : Option String) := (value.map PyRuntime.strRepr).getD "None"
  "\x7b'lane_identity': " ++ PyRuntime.strRepr head.laneIdentity ++
    ", 'state': " ++ PyRuntime.strRepr head.state.value ++
    ", 'champion_revision': " ++ text head.championRevision ++
    ", 'generation': " ++ String.ofList (Json.writeInt head.generation) ++
    ", 'freeze_trigger': " ++ text (head.freezeTrigger.map FreezeTrigger.value) ++ "\x7d"

end LaneHead

end Governance
