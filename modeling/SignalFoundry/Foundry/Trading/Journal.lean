import SignalFoundry.Foundry.Encoding
import SignalFoundry.Library.Table

/-!
# The paper journal

`Journal` as its two tables: a cache of state values and a chain of events. A
transaction that raises is rolled back.
-/

namespace Foundry

namespace Trading

open Fallible

def maxEvents : ℕ := 100000

/-- The parent of the first event. -/
def zeroDigest : String := String.ofList (List.replicate 64 '0')

structure StateRow where
  key : String
  value : List UInt8
  digest : String

structure EventRow where
  seq : ℕ
  recordedAt : String
  kind : String
  payload : List UInt8
  previous : String
  digest : String

/-- The rows of the journal. Events are in the order of their sequence numbers. -/
structure Journal where
  state : List StateRow := []
  events : List EventRow := []

/-- The text of `datetime.now(UTC).isoformat()`. -/
abbrev IsoTime := { text : String // text.length ≤ 32 }

/-- What a transaction raises. -/
inductive Raised where
  | foundry (error : FoundryError)
  /-- A built-in exception, of stored request times that are no numbers. -/
  | builtin

instance : Coe FoundryError Raised := ⟨.foundry⟩

namespace Journal

variable [PyRuntime] {F : Type} [PyFloat F] [FloatText F]

def integrityError : FoundryError := ⟨"paper_integrity", "Paper audit chain differs.", 422⟩

/-- `with self.transaction()`. -/
def transaction {α : Type} (j : Journal) (body : Journal → Except Raised (α × Journal)) :
    Except Raised α × Journal :=
  match body j with
  | .ok (a, j') => (.ok a, j')
  | .error error => (.error error, j)

def get (j : Journal) (key : String) : Except FoundryError (Json F) :=
  match Table.find StateRow.key key j.state with
  | none => .ok .null
  | some row => do
      refuseIf (hexDigest row.value ≠ row.digest)
        ⟨"paper_integrity", "Paper state checksum differs.", 422⟩
      decode row.value

/-- `_set`. -/
def store (j : Journal) (key : String) (value : Json F) : Except FoundryError Journal := do
  let payload ← encode value 16384
  .ok { j with state := Table.upsert StateRow.key ⟨key, payload, hexDigest payload⟩ j.state }

/-- The digest of an event. -/
def eventDigest (F : Type) [PyFloat F] [FloatText F] (seq : ℕ) (recordedAt kind previous : String)
    (payload : List UInt8) : Except FoundryError String := do
  let head ← encode (.arr [.int seq, .str recordedAt, .str kind, .str previous] : Json F)
  .ok (hexDigest (head ++ payload))

/-- The next sequence number and the digest to chain to. -/
def next (j : Journal) : ℕ × String :=
  match j.events.getLast? with
  | some row => (row.seq + 1, row.digest)
  | none => (1, zeroDigest)

/-- `_append`. -/
def record (j : Journal) (kind : String) (payload : Json F) (now : IsoTime) :
    Except FoundryError Journal := do
  let (seq, previous) := j.next
  refuseIf (maxEvents - 10 < seq ∧ kind ≠ "stop")
    ⟨"paper_capacity", "Journal is full; stop and archive.", 507⟩
  refuseIf (maxEvents < seq) ⟨"paper_capacity", "Journal event ceiling reached.", 507⟩
  let raw ← encode payload 16384
  let digest ← eventDigest F seq now.1 kind previous raw
  .ok { j with events := j.events ++ [⟨seq, now.1, kind, raw, previous, digest⟩] }

/-- Lift the errors of the boundary. -/
def lift {α : Type} (x : Except FoundryError α) : Except Raised α := x.mapError .foundry

/-- The payload that records a state value. -/
def entry (key : String) (value : Json F) : Json F := .obj [("key", .str key), ("value", value)]

def set (j : Journal) (key : String) (value : Json F) (kind : String) (now : IsoTime) :
    Except Raised Unit × Journal :=
  j.transaction fun j => do
    let j ← lift (j.record kind (entry key value) now)
    let j ← lift (j.store key value)
    .ok ((), j)

def append (j : Journal) (kind : String) (payload : Json F) (now : IsoTime) :
    Except Raised Unit × Journal :=
  j.transaction fun j => do
    let j ← lift (j.record kind payload now)
    .ok ((), j)

def verifyFrom (F : Type) [PyFloat F] [FloatText F] (previous : String) (count : ℕ) :
    List EventRow → Except FoundryError Unit
  | [] => .ok ()
  | row :: rows => do
      let expected ← eventDigest F row.seq row.recordedAt row.kind row.previous row.payload
      refuseIf (row.seq ≠ count + 1 ∨ row.previous ≠ previous ∨ row.digest ≠ expected ∨
        maxEvents < count + 1) integrityError
      verifyFrom F row.digest (count + 1) rows

def verify (F : Type) [PyFloat F] [FloatText F] (j : Journal) : Except FoundryError Unit :=
  verifyFrom F zeroDigest 0 j.events

/-- A number of the stored request times. -/
def number? : Json F → Option F
  | .float x => some x
  | .int n => PyFloat.ofInt n
  | .bool b => some (PyFloat.ofNat b.toNat)
  | _ => none

/-- The request times of a stored value, `prior or []`, with their numbers. -/
def requestTimes (prior : Json F) : Except Raised (List (Json F × F)) :=
  if truthy prior then
    match prior with
    | .arr items =>
        match items.mapM fun item => (number? item).map fun x => (item, x) with
        | some times => .ok times
        | none => .error .builtin
    | _ => .error .builtin
  else .ok []

def request (j : Journal) (now : F) : Except Raised Unit × Journal :=
  j.transaction fun j => do
    let stored ← lift (j.get "requests")
    let prior ← requestTimes stored
    refuseIf (prior.getLast?.any fun last => PyFloat.lt now last.2)
      (Raised.foundry ⟨"clock_rollback", "Request clock moved backwards.", 422⟩)
    let recent := prior.filter fun value =>
      PyFloat.lt (PyFloat.sub now value.2) (PyFloat.ofNat 60)
    refuseIf (100 ≤ recent.length)
      (Raised.foundry ⟨"provider_rate", "Local provider request budget exhausted.", 429⟩)
    let j ← lift (j.store "requests" (.arr (recent.map Prod.fst ++ [.float now])))
    .ok ((), j)

def stop (F : Type) [PyFloat F] [FloatText F] (j : Journal) (now : IsoTime) :
    Except Raised Unit × Journal :=
  j.transaction fun j => do
    let stopped ← lift (j.get (F := F) "stopped")
    if truthy stopped then return ((), j)
    let j ← lift (j.record "stop" (.obj [("reason", .str "operator_stop")] : Json F) now)
    let j ← lift (j.store "stopped" (.bool true : Json F))
    .ok ((), j)

end Journal

end Trading

end Foundry
