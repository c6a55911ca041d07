import SignalFoundry.Library.Fallible
import SignalFoundry.Library.Json.Weight
import SignalFoundry.Library.PyRuntime

/-!
# Canonical JSON

`canonical_json` bounds a value before it writes it, `decode_bounded_json` bounds a
text before it reads it. The bounds are not the same: a text is bounded by its
brackets and marks, a value by its nodes.
-/

/-! ## Contracts of the control plane

The errors, the closed enumerations and the bounds of the local experiment
control plane. A column of instants holds the instants its texts encode, a
column of an enumeration its members. -/

namespace Tracking

open Fallible

inductive RegistryError where
  /-- `ValidationError`. -/
  | validation (message : String)
  /-- `NotFoundError`. -/
  | notFound (message : String)
  /-- `ConflictError`. -/
  | conflict (message : String)
  /-- `CapacityError`. -/
  | capacity (message : String)
  /-- `RetentionPendingError`. -/
  | retentionPending (message : String)
  /-- `IntegrityError`. -/
  | integrity (message : String)
  /-- `InvalidTransitionError`. -/
  | invalidTransition (message : String)
  /-- `LeaseLostError`. -/
  | leaseLost (message : String)
  /-- `InvalidCursorError`. -/
  | invalidCursor (message : String)
  deriving DecidableEq, Repr

/-! ## Enumerations -/

inductive JobState where
  | queued
  | running
  | succeeded
  | failed
  | cancelled
  deriving DecidableEq, Repr

namespace JobState

def value : JobState → String
  | queued => "queued"
  | running => "running"
  | succeeded => "succeeded"
  | failed => "failed"
  | cancelled => "cancelled"

/-- `JobState(value)`. -/
def ofValue (value : String) : Option JobState :=
  [queued, running, succeeded, failed, cancelled].find? (·.value = value)

@[simp] theorem ofValue_value (state : JobState) : ofValue state.value = some state := by
  cases state <;> decide

def terminal : JobState → Bool
  | succeeded | failed | cancelled => true
  | queued | running => false

end JobState

inductive EventKind where
  | submitted
  | claimed
  | leaseExpired
  | retried
  | cancelRequested
  | cancelled
  | succeeded
  | failed
  deriving DecidableEq, Repr

inductive CancellationReasonCode where
  | operatorRequest
  | superseded
  | dataQuality
  | resourcePolicy
  | riskControl
  | shutdown
  deriving DecidableEq, Repr

inductive FailureReasonCode where
  | dataUnavailable
  | dependencyUnavailable
  | executionError
  | internalError
  | invalidInput
  | leaseAttemptsExhausted
  | resourceExhausted
  | transientIo
  deriving DecidableEq, Repr

inductive RunStatus where
  | succeeded
  | failed
  | cancelled
  deriving DecidableEq, Repr

inductive EvidenceClass where
  | measured
  | simulated
  | backtested
  | paperTraded
  | live
  | notApplicable
  deriving DecidableEq, Repr

/-! ## Identifiers -/

/-- `_IDENTIFIER`, matched in full: up to 128 letters, digits and marks, the first no mark. -/
def isIdentifier (value : String) : Bool :=
  PyText.isToken PyText.isAlnumAscii
    (fun c => PyText.isAlnumAscii c || c == '.' || c == '_' || c == ':' || c == '/' || c == '-') 127
    value

def requireIdentifier (value fieldName : String) : Except RegistryError Unit :=
  refuseIf (isIdentifier value = false)
    (.validation (fieldName ++ " must match ^[A-Za-z0-9][A-Za-z0-9._:/-]\x7b0,127\x7d$"))

end Tracking

namespace Tracking

open Fallible

def maxJsonDepth : ℕ := 16

def maxJsonNodes : ℕ := 16384

def maxJsonStringBytes : ℕ := 65536

def maxCanonicalJsonBytes : ℕ := 16777216

def maxJsonStructuralTokens : ℕ := 50001

/-! ## Writing -/

/-- `_JsonBudget`. -/
structure JsonBudget where
  nodes : ℕ := 0
  encodedBytes : ℕ := 0
  deriving DecidableEq

namespace JsonBudget

def addNode (budget : JsonBudget) : Except RegistryError JsonBudget := do
  refuseIf (maxJsonNodes < budget.nodes + 1) (.validation "JSON exceeds 16384 nodes")
  .ok { budget with nodes := budget.nodes + 1 }

def addEncodedBytes (budget : JsonBudget) (count : ℕ) : Except RegistryError JsonBudget := do
  refuseIf (maxCanonicalJsonBytes < budget.encodedBytes + count)
    (.validation "JSON exceeds the cumulative canonical byte budget of 16777216 bytes")
  .ok { budget with encodedBytes := budget.encodedBytes + count }

end JsonBudget

/-- `len(json.dumps(value, ensure_ascii=False).encode("utf-8"))` of a text. -/
def encodedTextSize (text : String) : ℕ :=
  (PyText.encodeUtf8 (String.ofList (Json.writeStringWith Json.escapeControl text))).length

variable {F : Type} [PyFloat F] [FloatText F]

/-- `_json_scalar_size` of an admitted scalar. -/
def scalarSize (v : Json F) : ℕ :=
  (PyText.encodeUtf8 (String.ofList (v.writeWith Json.escapeControl))).length

def keyError : RegistryError :=
  .validation "JSON object keys must be non-empty strings at most 256 bytes"

mutual

/-- `_freeze_json`, which copies the value and spends the budget. -/
def freeze : Json F → ℕ → JsonBudget → Except RegistryError JsonBudget
  | v, depth, budget => do
      let budget ← budget.addNode
      refuseIf (maxJsonDepth < depth) (RegistryError.validation "JSON exceeds depth 16")
      match v with
      | .null => budget.addEncodedBytes (scalarSize (.null : Json F))
      | .bool b => budget.addEncodedBytes (scalarSize (.bool b : Json F))
      | .int n => do
          refuseIf (¬ (-2 ^ 63 ≤ n ∧ n ≤ 2 ^ 63 - 1))
            (RegistryError.validation "JSON integer is outside signed 64-bit range")
          budget.addEncodedBytes (scalarSize (.int n : Json F))
      | .float x => do
          refuseIf (PyFloat.isFinite x = false)
            (RegistryError.validation "JSON numbers must be finite")
          budget.addEncodedBytes (scalarSize (.float x))
      | .str s => do
          refuseIf (maxJsonStringBytes < (PyText.encodeUtf8 s).length)
            (RegistryError.validation "JSON strings may not exceed 65536 bytes")
          budget.addEncodedBytes (encodedTextSize s)
      | .obj members => do freezeMembers members 0 depth (← budget.addEncodedBytes 2)
      | .arr items => do freezeItems items 0 depth (← budget.addEncodedBytes 2)

/-- The loop over the items of a sequence. -/
def freezeItems : List (Json F) → ℕ → ℕ → JsonBudget → Except RegistryError JsonBudget
  | [], _, _, budget => .ok budget
  | v :: items, index, depth, budget => do
      let budget ← budget.addEncodedBytes (if 0 < index then 1 else 0)
      let budget ← freeze v (depth + 1) budget
      freezeItems items (index + 1) depth budget

/-- The loop over the members of a mapping. -/
def freezeMembers : List (String × Json F) → ℕ → ℕ → JsonBudget →
    Except RegistryError JsonBudget
  | [], _, _, budget => .ok budget
  | (key, v) :: members, index, depth, budget => do
      refuseIf (key = "" ∨ 256 < (PyText.encodeUtf8 key).length) keyError
      let budget ← budget.addEncodedBytes (encodedTextSize key + 1 + if 0 < index then 1 else 0)
      let budget ← freeze v (depth + 1) budget
      freezeMembers members (index + 1) depth budget

end

/-- `canonical_json`. -/
def canonicalJson (v : Json F) : Except RegistryError String := do
  let _ ← freeze v 0 {}
  .ok v.dumpsUnicode

/-! ## Reading -/

/-- The state of the loop of `_preflight_json_text`. -/
structure JsonScan where
  depth : ℤ := 0
  structuralTokens : ℕ := 0
  inString : Bool := false
  escaped : Bool := false
  deriving DecidableEq

/-- The branches of the loop outside texts. -/
def JsonScan.outside (s : JsonScan) (c : Char) : Except RegistryError JsonScan :=
  if c = '\x22' then
    .ok { s with inString := true, structuralTokens := s.structuralTokens + 1 }
  else if c = '[' ∨ c = '\x7b' then do
    refuseIf (maxJsonDepth < s.depth + 1) (RegistryError.validation "JSON exceeds depth 16")
    .ok { s with depth := s.depth + 1, structuralTokens := s.structuralTokens + 1 }
  else if c = ']' ∨ c = '\x7d' then do
    refuseIf (s.depth - 1 < 0) (RegistryError.validation "JSON structure is malformed")
    .ok { s with depth := s.depth - 1 }
  else if c = ',' ∨ c = ':' then .ok { s with structuralTokens := s.structuralTokens + 1 }
  else .ok s

/-- The body of the loop. -/
def JsonScan.step (s : JsonScan) (c : Char) : Except RegistryError JsonScan :=
  if s.inString then
    .ok (if s.escaped then { s with escaped := false }
      else if c = '\\' then { s with escaped := true }
      else if c = '\x22' then { s with inString := false }
      else s)
  else do
    let s ← s.outside c
    refuseIf (maxJsonStructuralTokens < s.structuralTokens)
      (RegistryError.validation "JSON exceeds its structural token bound")
    .ok s

/-- `_preflight_json_text`. -/
def preflightJsonText (text : String) (maximumBytes : ℕ) : Except RegistryError Unit := do
  refuseIf (¬ (1 ≤ maximumBytes ∧ maximumBytes ≤ maxCanonicalJsonBytes))
    (RegistryError.validation "maximum_bytes is outside the supported JSON bound")
  let encodedSize := (PyText.encodeUtf8 text).length
  refuseIf (¬ (1 ≤ encodedSize ∧ encodedSize ≤ maximumBytes))
    (RegistryError.validation "JSON text exceeds its byte bound")
  let s ← text.toList.foldlM JsonScan.step {}
  refuseIf (s.inString = true ∨ s.escaped = true ∨ s.depth ≠ 0)
    (RegistryError.validation "JSON structure is malformed")

/-- `_strict_json_pairs` and `_reject_json_constant`. -/
def strictHooks : Json.Hooks F Unit where
  objectPairs members :=
    if (members.map Prod.fst).Nodup then .ok (.obj members) else .error ()
  parseConstant _ := .error ()
  decodeError := ()

/-- `decode_bounded_json` of a text. -/
def decodeBoundedJson (text : String) (maximumBytes : ℕ) (requireCanonical : Bool) :
    Except RegistryError (Json F) := do
  preflightJsonText text maximumBytes
  let decoded ← (Json.loads strictHooks text).mapError fun _ =>
    RegistryError.validation "JSON violates its bounded canonical contract"
  let canonical ← (canonicalJson decoded).mapError fun _ =>
    RegistryError.validation "JSON violates its bounded canonical contract"
  refuseIf (requireCanonical = true ∧ canonical ≠ text)
    (RegistryError.validation "JSON text is not canonical")
  .ok decoded

/-- `decode_bounded_json` of bytes. -/
def decodeBoundedBytes (bytes : List UInt8) (maximumBytes : ℕ) (requireCanonical : Bool) :
    Except RegistryError (Json F) :=
  match PyText.decodeUtf8 bytes with
  | none => .error (.validation "JSON bytes are not bounded valid UTF-8")
  | some text => decodeBoundedJson text maximumBytes requireCanonical

end Tracking
