import SignalFoundry.Lattice.Tracking.Readback
import SignalFoundry.Library.Base64
import SignalFoundry.Library.PyRuntime
import SignalFoundry.Library.Json.Parsed

/-!
# Cursors

`CursorCodec`: five layouts of a payload in one envelope of a version, a body and a
code over the body under the domain of the layout.
-/

namespace Tracking

open Fallible

/-! ## Tokens -/

/-- A text that `_validate_cursor_token` accepts, as the cursor contracts hold it. -/
structure CursorToken where
  text : String
  bounded : 16 ≤ text.toList.length ∧ text.toList.length ≤ 1024
  ascii : ∀ c ∈ text.toList, c.toNat < 128

/-- Whether a text is ASCII is read off its characters. -/
instance decidableAscii (text : List Char) : Decidable (∀ c ∈ text, c.toNat < 128) :=
  List.decidableBAll _ text

def CursorToken.make (text : String) : Except RegistryError CursorToken := do
  let ⟨bounded, ascii⟩ ← require ((16 ≤ text.toList.length ∧ text.toList.length ≤ 1024) ∧
    ∀ c ∈ text.toList, c.toNat < 128)
      (RegistryError.invalidCursor "cursor token must be bounded ASCII text")
  .ok ⟨text, bounded, ascii⟩

structure JobCursor where
  token : CursorToken

structure EventCursor where
  token : CursorToken

structure RunCursor where
  token : CursorToken

structure ArtifactCursor where
  token : CursorToken

def jobCursorDomain : List UInt8 :=
  PyText.encodeUtf8 "signalattice.registry.job-cursor.v1\x00"

def eventCursorDomain : List UInt8 :=
  PyText.encodeUtf8 "signalattice.registry.event-cursor.v1\x00"

def runCursorDomain : List UInt8 :=
  PyText.encodeUtf8 "signalattice.registry.run-cursor.v1\x00"

def artifactCursorDomain : List UInt8 :=
  PyText.encodeUtf8 "signalattice.registry.artifact-cursor.v1\x00"

def artifactQueryCursorDomain : List UInt8 :=
  PyText.encodeUtf8 "signalattice.registry.artifact-query-cursor.v1\x00"

/-- `_CURSOR_VERSION`. -/
def cursorVersion : List Char := ['v', '1']

/-- The secret of a registry, with `_validate_digest_secret`. -/
structure CursorCodec (F : Type) where
  secret : List UInt8
  bounded : 32 ≤ secret.length ∧ secret.length ≤ 4096

/-! ## Fields -/

variable {F : Type}

/-- `payload[name]` of a payload of the expected shape. -/
def fieldOf (payload : List (String × Json F)) (name : String) : Json F :=
  (payload.lookup name).getD .null

def positionError : RegistryError := .invalidCursor "cursor sequences are invalid"

/-- `_validate_position`, with the integers it has found. -/
def validatePosition : Json F → Json F → Except RegistryError (ℤ × ℤ)
  | .int snapshot, .int after => do
      refuseIf (snapshot < 0 ∨ after < 0 ∨ snapshot < after ∨ 2 ^ 63 - 1 < snapshot) positionError
      .ok (snapshot, after)
  | _, _ => .error positionError

/-- A field that is text or null. -/
def textOrNull (error : RegistryError) : Json F → Except RegistryError (Option String)
  | .null => .ok none
  | .str s => .ok (some s)
  | _ => .error error

def ofText : Option String → Json F
  | none => .null
  | some s => .str s

/-- `_bounded_text`. -/
def boundedText (value fieldName : String) (maximum : ℕ) : Except RegistryError Unit :=
  let size := (PyText.encodeUtf8 value).length
  refuseIf (¬ (1 ≤ size ∧ size ≤ maximum)) (.validation (fieldName ++
    " must contain between 1 and " ++ toString maximum ++ " UTF-8 bytes"))

/-! ## The envelope -/

/-- `_decode_segment`. -/
def decodeSegment (value : List Char) (maximum : ℕ) : Except RegistryError (List UInt8) := do
  refuseIf (value = [] ∨ maximum < value.length ∨ ¬ ∀ c ∈ value, c.toNat < 128)
    (.invalidCursor "cursor component is malformed")
  match Base64.decodeUnpadded value with
  | some bytes => .ok bytes
  | none => .error (.invalidCursor "cursor component is not valid base64url")

namespace CursorCodec

variable [PyRuntime] [PyFloat F] [FloatText F] (codec : CursorCodec F)

/-- `_encode`. -/
def encodeToken (domain : List UInt8) (payload : Json F) : Except RegistryError CursorToken := do
  let text ← canonicalJson payload
  let encoded := PyText.encodeUtf8 text
  refuseIf (512 < encoded.length) (.invalidCursor "cursor payload exceeds 512 bytes")
  let signature := Hmac.digest codec.secret (domain ++ encoded)
  CursorToken.make (String.ofList (['.'].intercalate
    [cursorVersion, Base64.encode encoded, Base64.encode signature]))

/-- `_decode_payload`. -/
def decodePayload (token : CursorToken) (domain : List UInt8) :
    Except RegistryError (List (String × Json F)) :=
  match token.text.toList.splitOn '.' with
  | [version, bodyText, macText] => do
      refuseIf (version ≠ cursorVersion)
        (RegistryError.invalidCursor "cursor token version is unsupported")
      let body ← decodeSegment bodyText 768
      let signature ← decodeSegment macText 64
      refuseIf (512 < body.length ∨ signature.length ≠ 32)
        (RegistryError.invalidCursor "cursor token has invalid component lengths")
      refuseIf (signature ≠ Hmac.digest codec.secret (domain ++ body))
        (RegistryError.invalidCursor "cursor token authentication failed")
      let payload ← (decodeBoundedBytes body 512 true : Except RegistryError (Json F)).mapError
        fun _ => RegistryError.invalidCursor "cursor payload is not canonical JSON"
      match payload with
      | .obj members => .ok members
      | _ => .error (.invalidCursor "cursor payload has an unexpected shape")
  | _ => .error (.invalidCursor "cursor token has an invalid envelope")

/-- `_decode`. -/
def decodeToken (token : CursorToken) (domain : List UInt8) :
    Except RegistryError (ℤ × ℤ × Option String) := do
  let payload ← codec.decodePayload token domain
  refuseIf (Json.hasKeys ["after", "filter", "snapshot"] payload = false)
    (.invalidCursor "cursor payload has an unexpected shape")
  let (snapshot, after) ← validatePosition (fieldOf payload "snapshot") (fieldOf payload "after")
  let filter ← textOrNull (.invalidCursor "cursor filter must be text or null")
    (fieldOf payload "filter")
  .ok (snapshot, after, filter)

/-- The payload that `_decode` reads. -/
def filterPayload (snapshot after : ℤ) (filter : Option String) : Json F :=
  .obj [("after", .int after), ("filter", ofText filter), ("snapshot", .int snapshot)]

/-! ## The five kinds -/

def jobPayload (snapshot eventSnapshot after : ℤ) (state : Option JobState) : Json F :=
  .obj [("after", .int after), ("event_snapshot", .int eventSnapshot),
    ("filter", ofText (state.map JobState.value)), ("snapshot", .int snapshot)]

/-- `encode_job`. -/
def encodeJob (snapshot eventSnapshot after : ℤ) (state : Option JobState) :
    Except RegistryError JobCursor := do
  let _ ← validatePosition (.int snapshot : Json F) (.int after)
  let _ ← validatePosition (.int eventSnapshot : Json F) (.int 0)
  let token ← codec.encodeToken jobCursorDomain
    (jobPayload snapshot eventSnapshot after state)
  .ok ⟨token⟩

/-- `decode_job`. -/
def decodeJob (cursor : JobCursor) :
    Except RegistryError (ℤ × ℤ × ℤ × Option JobState) := do
  let payload ← codec.decodePayload cursor.token jobCursorDomain
  refuseIf (Json.hasKeys ["after", "event_snapshot", "filter", "snapshot"] payload = false)
    (.invalidCursor "job cursor payload has an unexpected shape")
  let (snapshot, after) ← validatePosition (fieldOf payload "snapshot") (fieldOf payload "after")
  let (eventSnapshot, _) ← validatePosition (fieldOf payload "event_snapshot") (.int 0)
  let filter ← textOrNull (.invalidCursor "job cursor filter must be text or null")
    (fieldOf payload "filter")
  match filter with
  | none => .ok (snapshot, eventSnapshot, after, none)
  | some value =>
      match JobState.ofValue value with
      | some state => .ok (snapshot, eventSnapshot, after, some state)
      | none => .error (.invalidCursor "job cursor contains an unknown state filter")

/-- `encode_event`. -/
def encodeEvent (snapshot after : ℤ) (jobId : Option String) :
    Except RegistryError EventCursor := do
  let _ ← validatePosition (.int snapshot : Json F) (.int after)
  if let some jobId := jobId then requireIdentifier jobId "job_id"
  let token ← codec.encodeToken eventCursorDomain (filterPayload snapshot after jobId)
  .ok ⟨token⟩

/-- `decode_event`. -/
def decodeEvent (cursor : EventCursor) : Except RegistryError (ℤ × ℤ × Option String) := do
  let (snapshot, after, jobId) ← codec.decodeToken cursor.token eventCursorDomain
  if let some jobId := jobId then
    (requireIdentifier jobId "cursor job_id").mapError fun _ =>
      RegistryError.invalidCursor "event cursor contains an invalid job filter"
  .ok (snapshot, after, jobId)

/-- `encode_run`. -/
def encodeRun (snapshot after : ℤ) (filter : Option String) :
    Except RegistryError RunCursor := do
  let _ ← validatePosition (.int snapshot : Json F) (.int after)
  if let some filter := filter then boundedText filter "filter_value" 128
  let token ← codec.encodeToken runCursorDomain (filterPayload snapshot after filter)
  .ok ⟨token⟩

/-- `decode_run`. -/
def decodeRun (cursor : RunCursor) : Except RegistryError (ℤ × ℤ × Option String) := do
  let (snapshot, after, filter) ← codec.decodeToken cursor.token runCursorDomain
  if let some filter := filter then
    (boundedText filter "cursor filter" 128).mapError fun _ =>
      RegistryError.invalidCursor "run cursor contains an invalid filter"
  .ok (snapshot, after, filter)

/-- `encode_artifact`. -/
def encodeArtifact (snapshot after : ℤ) (runId : String) :
    Except RegistryError ArtifactCursor := do
  let _ ← validatePosition (.int snapshot : Json F) (.int after)
  requireIdentifier runId "run_id"
  let token ← codec.encodeToken artifactCursorDomain
    (filterPayload snapshot after (some runId))
  .ok ⟨token⟩

/-- `decode_artifact`. -/
def decodeArtifact (cursor : ArtifactCursor) : Except RegistryError (ℤ × ℤ × String) := do
  let (snapshot, after, runId) ← codec.decodeToken cursor.token artifactCursorDomain
  match runId with
  | none => .error (.invalidCursor "artifact cursor is missing its run filter")
  | some runId => do
      (requireIdentifier runId "cursor run_id").mapError fun _ =>
        RegistryError.invalidCursor "artifact cursor contains an invalid run filter"
      .ok (snapshot, after, runId)

def artifactQueryPayload (snapshot after : ℤ) (runId : String) (role : Option String) : Json F :=
  .obj [("after", .int after), ("role", ofText role), ("run_id", .str runId),
    ("snapshot", .int snapshot)]

/-- `encode_artifact_query`. -/
def encodeArtifactQuery (snapshot after : ℤ) (runId : String) (role : Option String) :
    Except RegistryError ArtifactCursor := do
  let _ ← validatePosition (.int snapshot : Json F) (.int after)
  requireIdentifier runId "run_id"
  if let some role := role then requireIdentifier role "artifact role"
  let token ← codec.encodeToken artifactQueryCursorDomain
    (artifactQueryPayload snapshot after runId role)
  .ok ⟨token⟩

/-- `decode_artifact_query`. -/
def decodeArtifactQuery (cursor : ArtifactCursor) :
    Except RegistryError (ℤ × ℤ × String × Option String) := do
  let payload ← codec.decodePayload cursor.token artifactQueryCursorDomain
  refuseIf (Json.hasKeys ["after", "role", "run_id", "snapshot"] payload = false)
    (.invalidCursor "artifact cursor payload has an unexpected shape")
  let (snapshot, after) ← validatePosition (fieldOf payload "snapshot") (fieldOf payload "after")
  match fieldOf payload "run_id" with
  | .str runId => do
      let role ← textOrNull (.invalidCursor "artifact cursor role filter must be text or null")
        (fieldOf payload "role")
      (do
        requireIdentifier runId "cursor run_id"
        if let some role := role then requireIdentifier role "cursor artifact role").mapError
          fun _ => RegistryError.invalidCursor "artifact cursor contains an invalid filter"
      .ok (snapshot, after, runId, role)
  | _ => .error (.invalidCursor "artifact cursor run filter must be text")

end CursorCodec

end Tracking
