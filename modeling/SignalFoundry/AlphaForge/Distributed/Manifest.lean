import SignalFoundry.Library.Fallible
import SignalFoundry.Library.FileTree
import SignalFoundry.Library.PyDate
import SignalFoundry.Library.PyValue

/-!
# Checkpoint manifests

A manifest binds the progress of an experiment to digests of everything that a
resumed run must match. Its construction sorts the completed tasks and fills in the
content hash; a manifest that was constructed is read back from its payload as it
was.
-/

namespace Checkpoints

open Fallible

inductive CheckpointError where
  /-- `CheckpointError`. -/
  | refused (message : String)
  /-- `CheckpointIncompatibleError` of a schema version. -/
  | incompatible (schemaVersion : ℤ)
  /-- `CheckpointCorruptError` of a text that is no document. -/
  | unreadable
  | notAnObject
  | missing (fields : List String)
  | integrity (experimentId : String)
  | concurrentWriter (experimentId existing writer : String)
  /-- The `ValueError` of a number that is too long, or of a time. -/
  | valueError
  | typeError
  | os (error : FileError)
  deriving DecidableEq

/-- `MAX_COMPLETED_TASKS`. -/
def maxCompletedTasks : ℕ := 200000

/-- `MAX_MANIFEST_BYTES`. -/
def maxManifestBytes : ℕ := 64 * 1024 * 1024

/-- `MAX_IDENTIFIER_BYTES`. -/
def maxIdentifierBytes : ℕ := 256

/-- `_identifier`. -/
def identifier (fieldName value : String) : Except CheckpointError Unit := do
  refuseIf (PyText.isBlank value = true ∨ PyText.isStripped value = false)
    (CheckpointError.refused s!"{fieldName} must be a non-empty unpadded string")
  refuseIf (maxIdentifierBytes < (PyText.encodeUtf8 value).length)
    (CheckpointError.refused s!"{fieldName} exceeds {maxIdentifierBytes} bytes")

/-- `_hash_field`. -/
def hashField (fieldName value : String) : Except CheckpointError Unit := do
  refuseIf (value.toList.length ≠ 64)
    (CheckpointError.refused s!"{fieldName} must be a full SHA-256 hex digest")
  refuseIf (value.toList.all PyText.isHexDigit = false)
    (CheckpointError.refused s!"{fieldName} must be lowercase hexadecimal")

/-- `CheckpointManifest`, with its time in UTC. -/
structure CheckpointManifest where
  experimentId : String
  schemaVersion : ℤ
  codeHash : String
  dataHash : String
  configHash : String
  dependencyHash : String
  taskGraphHash : String
  rootSeed : ℤ
  completedTaskIds : List String
  writerId : String
  writtenAt : PyDatetime
  contentHash : String
  deriving DecidableEq

namespace CheckpointManifest

variable (F : Type) [FloatText F]

/-- The bindings that a resumed run must match, under the names of
`REQUIRED_BINDINGS`. -/
def bindings (m : CheckpointManifest) : List (String × String) := [
  ("code_hash", m.codeHash),
  ("data_hash", m.dataHash),
  ("config_hash", m.configHash),
  ("dependency_hash", m.dependencyHash),
  ("task_graph_hash", m.taskGraphHash)]

/-- `bindings_payload`. -/
def bindingsPayload (m : CheckpointManifest) : List (String × Json F) := [
  ("experiment_id", .str m.experimentId),
  ("schema_version", .int m.schemaVersion),
  ("code_hash", .str m.codeHash),
  ("data_hash", .str m.dataHash),
  ("config_hash", .str m.configHash),
  ("dependency_hash", .str m.dependencyHash),
  ("task_graph_hash", .str m.taskGraphHash),
  ("root_seed", .int m.rootSeed),
  ("completed_task_ids", .arr (m.completedTaskIds.map .str)),
  ("writer_id", .str m.writerId),
  ("written_at", .str m.writtenAt.isoformat)]

/-- `to_dict`. -/
def toDict (m : CheckpointManifest) : List (String × Json F) :=
  m.bindingsPayload F ++ [
    ("content_hash", .str m.contentHash),
    ("completed_count", .int m.completedTaskIds.length)]

end CheckpointManifest

section Codec

variable {F : Type} [FloatText F]

/-- Whether a number is short enough to be written in decimal. -/
def writesInteger : Json F → Bool
  | .int n => (Nat.toDigits 10 n.natAbs).length ≤ Json.maxIntegerDigits
  | _ => true

/-- `_canonical` of an object whose numbers are members of it. -/
def canonical (members : List (String × Json F)) : Except CheckpointError (List UInt8) := do
  refuseIf (members.all (writesInteger ·.2) = false) CheckpointError.valueError
  return PyText.encodeUtf8 (Json.obj members).dumps

/-- `_digest`. -/
def digest [PyRuntime] (members : List (String × Json F)) : Except CheckpointError String := do
  return PyText.hexText (PyRuntime.sha256 (← canonical members))

/-- What `str` and `int` make of values that are no texts and no numbers. Nothing is
assumed of them. -/
class JsonScalars (F : Type) where
  str : Json F → String
  int : Json F → Option ℤ

/-- `str(value)`. -/
def strOf [JsonScalars F] : Json F → String
  | .str s => s
  | v => JsonScalars.str v

/-- `int(value)`; `none` is its `TypeError` or `ValueError`. -/
def intOf [JsonScalars F] : Json F → Option ℤ
  | .int n => some n
  | v => JsonScalars.int v

/-- `tuple(value)` where its items are texts; an array with other items is not told
apart from a value without items. -/
def textsOf : Json F → Option (List String)
  | .arr items => items.mapM fun
      | .str s => some s
      | _ => none
  | .str s => some (s.toList.map String.singleton)
  | .obj members => some (members.map Prod.fst)
  | _ => none

end Codec

namespace CheckpointManifest

variable (F : Type) [FloatText F] [PyRuntime]

/-- `CheckpointManifest.__post_init__`. -/
def postInit (m : CheckpointManifest) : Except CheckpointError CheckpointManifest := do
  identifier "experiment_id" m.experimentId
  identifier "writer_id" m.writerId
  refuseIf (m.schemaVersion ≠ 1) (CheckpointError.incompatible m.schemaVersion)
  m.bindings.forM fun binding => hashField binding.1 binding.2
  refuseIf (m.rootSeed < 0) (CheckpointError.refused "root_seed must be non-negative")
  refuseIf (maxCompletedTasks < m.completedTaskIds.length)
    (CheckpointError.refused s!"exceeds the {maxCompletedTasks}-task ceiling")
  refuseIf (¬ m.completedTaskIds.Nodup) (CheckpointError.refused
    "duplicate task id in completed set; a task counted twice would let the resumed run skip work it never did")
  let sorted := { m with completedTaskIds := m.completedTaskIds.insertionSort (· ≤ ·) }
  if m.contentHash = "" then
    return { sorted with contentHash := ← digest (sorted.bindingsPayload F) }
  else
    hashField "content_hash" m.contentHash
    return sorted

/-- `verify_integrity`. -/
def verifyIntegrity (m : CheckpointManifest) : Except CheckpointError Unit := do
  let recomputed ← digest (m.bindingsPayload F)
  refuseIf (recomputed ≠ m.contentHash) (CheckpointError.integrity m.experimentId)

/-- The bytes that `write` stores. -/
def encode (m : CheckpointManifest) : Except CheckpointError (List UInt8) := canonical (m.toDict F)

/-- The fields that `manifest_from_payload` requires. -/
def requiredFields : List String := [
  "experiment_id", "schema_version", "root_seed", "completed_task_ids", "writer_id", "written_at",
  "content_hash", "code_hash", "data_hash", "config_hash", "dependency_hash", "task_graph_hash"]

variable [DatetimeForms] [JsonScalars F]

/-- `manifest_from_payload`. -/
def fromPayload : Json F → Except CheckpointError CheckpointManifest
  | .obj members => do
      let missing := requiredFields.filter fun name => (members.lookup name).isNone
      refuseIf (missing ≠ []) (CheckpointError.missing missing)
      let field := fun name => (members.lookup name).getD .null
      let some schemaVersion := intOf (field "schema_version") | .error .typeError
      let some rootSeed := intOf (field "root_seed") | .error .typeError
      let some completed := textsOf (field "completed_task_ids") | .error .typeError
      let some writtenAt := PyDatetime.fromIsoformat (strOf (field "written_at"))
        | .error .valueError
      postInit F {
        experimentId := strOf (field "experiment_id")
        schemaVersion := schemaVersion
        codeHash := strOf (field "code_hash")
        dataHash := strOf (field "data_hash")
        configHash := strOf (field "config_hash")
        dependencyHash := strOf (field "dependency_hash")
        taskGraphHash := strOf (field "task_graph_hash")
        rootSeed := rootSeed
        completedTaskIds := completed
        writerId := strOf (field "writer_id")
        writtenAt := writtenAt
        contentHash := strOf (field "content_hash") }
  | _ => .error .notAnObject

/-- The reading of stored bytes in `read`. -/
def decode (bytes : List UInt8) : Except CheckpointError CheckpointManifest :=
  match PyText.decodeUtf8 bytes with
  | none => .error .unreadable
  | some text =>
      match Json.loads (PyValue.plainHooks : Json.Hooks F Unit) text with
      | .error _ => .error .unreadable
      | .ok payload => fromPayload F payload

end CheckpointManifest

/-! ## Constructed manifests -/

theorem ne_empty_of_hashField {fieldName value : String} (h : hashField fieldName value = .ok ()) :
    value ≠ "" := by
  rintro rfl
  simp [hashField] at h

section Texts

variable {F : Type}

theorem writable_texts [FloatText F] (texts : List String) :
    (Json.arr (texts.map .str) : Json F).Writable := by
  rw [Json.Writable]
  induction texts with
  | nil => exact trivial
  | cons text texts ih => exact ⟨trivial, ih⟩

theorem sorted_texts (texts : List String) :
    (Json.arr (texts.map .str) : Json F).sorted = .arr (texts.map .str) := by
  rw [Json.sorted]
  congr 1
  induction texts with
  | nil => rfl
  | cons text texts ih => rw [List.map_cons, Json.sortedItems, ih, Json.sorted_str]

theorem textsOf_texts (texts : List String) :
    textsOf (Json.arr (texts.map .str) : Json F) = some texts := by
  rw [textsOf]
  induction texts with
  | nil => rfl
  | cons text texts ih => simp only [List.map_cons, List.mapM_cons, ih]; rfl

theorem CheckpointManifest.keys_toDict (m : CheckpointManifest) :
    ((m.toDict F).map Prod.fst).Nodup := by
  simp only [CheckpointManifest.toDict, CheckpointManifest.bindingsPayload, List.map_append,
    List.map_cons, List.map_nil]
  decide

theorem CheckpointManifest.writable_toDict [FloatText F] {m : CheckpointManifest} {bytes : List UInt8}
    (h : m.encode F = .ok bytes) : (Json.obj (m.toDict F)).Writable := by
  simp only [CheckpointManifest.encode, canonical, bind_eq_ok_iff, refuseIf_eq_ok_iff, Bool.not_eq_false] at h
  obtain ⟨-, hnumbers, -⟩ := h
  rw [Json.Writable]
  refine ⟨m.keys_toDict, Json.writableMembers_iff.mpr ?_⟩
  have hint : ∀ n : ℤ, writesInteger (.int n : Json F) = true → (Json.int n : Json F).Writable := by
    intro n hn
    rw [Json.Writable]
    exact of_decide_eq_true hn
  simp only [CheckpointManifest.toDict, CheckpointManifest.bindingsPayload, List.cons_append,
    List.nil_append, List.all_cons, Bool.and_eq_true] at hnumbers
  obtain ⟨-, hversion, -, -, -, -, -, hseed, -, -, -, -, hcount, -⟩ := hnumbers
  simp only [CheckpointManifest.toDict, CheckpointManifest.bindingsPayload, List.cons_append,
    List.nil_append, List.forall_mem_cons, hint _ hversion, hint _ hseed, hint _ hcount,
    writable_texts, true_and]
  simp [Json.Writable]

end Texts

section Constructed

variable {F : Type} [FloatText F] [PyRuntime]

theorem hashField_digest {members : List (String × Json F)} {text : String}
    (h : digest members = .ok text) (fieldName : String) : hashField fieldName text = .ok () := by
  simp only [digest, bind_eq_ok_iff, pure_eq_ok, Except.ok.injEq] at h
  obtain ⟨bytes, -, rfl⟩ := h
  have hrun := PyText.isRun_hexText (PyRuntime.sha256 bytes)
  rw [PyRuntime.sha256_length, PyText.isRun, Bool.and_eq_true, beq_iff_eq] at hrun
  simp [hashField, hrun.1, hrun.2]

theorem exists_digest {members : List (String × Json F)}
    (h : members.all (writesInteger ·.2) = true) : ∃ text, digest members = .ok text := by
  rw [digest, canonical, refuseIf_of_not (by simp [h])]
  exact ⟨_, rfl⟩

namespace CheckpointManifest

/-- What a constructed manifest has in place of the fields it was made of. -/
theorem postInit_eq {raw m : CheckpointManifest} (h : postInit F raw = .ok m) :
    ∃ text, hashField "content_hash" text = .ok () ∧
      m = { raw with
        completedTaskIds := raw.completedTaskIds.insertionSort (· ≤ ·)
        contentHash := text } := by
  simp only [postInit, bind_eq_ok_iff] at h
  obtain ⟨-, -, -, -, -, -, -, -, -, -, -, -, -, -, h⟩ := h
  split_ifs at h with hempty
  · simp only [bind_eq_ok_iff, pure_eq_ok, Except.ok.injEq] at h
    obtain ⟨text, hdigest, rfl⟩ := h
    exact ⟨text, hashField_digest hdigest _, rfl⟩
  · simp only [bind_eq_ok_iff, pure_eq_ok, Except.ok.injEq] at h
    obtain ⟨_, hhash, rfl⟩ := h
    exact ⟨raw.contentHash, hhash, rfl⟩

/-- A constructed manifest is constructed from its own fields. -/
theorem postInit_idem {raw m : CheckpointManifest} (h : postInit F raw = .ok m) :
    postInit F m = .ok m := by
  obtain ⟨text, hhash, rfl⟩ := postInit_eq h
  have hperm := List.perm_insertionSort (· ≤ ·) raw.completedTaskIds
  have hsorted : (raw.completedTaskIds.insertionSort (· ≤ ·)).insertionSort (· ≤ ·) =
      raw.completedTaskIds.insertionSort (· ≤ ·) :=
    (List.pairwise_insertionSort _ _).insertionSort_eq
  simp only [postInit, bind_eq_ok_iff, refuseIf_eq_ok_iff] at h
  obtain ⟨u₁, hexperiment, u₂, hwriter, u₃, hversion, u₄, hbindings, u₅, hseed, u₆, hcount, u₇,
    hnodup, -⟩ := h
  simp only [postInit, bind_eq_ok_iff, refuseIf_eq_ok_iff, hperm.length_eq, hperm.nodup_iff,
    hsorted, if_neg (ne_empty_of_hashField hhash)]
  exact ⟨u₁, hexperiment, u₂, hwriter, u₃, hversion, u₄, hbindings, u₅, hseed, u₆, hcount, u₇,
    hnodup, (), hhash, rfl⟩

/-- A manifest whose content hash was filled in matches it. -/
theorem verifyIntegrity_postInit {raw m : CheckpointManifest} (h : postInit F raw = .ok m)
    (hempty : raw.contentHash = "") : m.verifyIntegrity F = .ok () := by
  simp only [postInit, bind_eq_ok_iff, if_pos hempty, pure_eq_ok, Except.ok.injEq] at h
  obtain ⟨-, -, -, -, -, -, -, -, -, -, -, -, -, -, text, hdigest, rfl⟩ := h
  rw [verifyIntegrity]
  exact bind_eq_ok_iff.mpr ⟨text, hdigest, refuseIf_of_not (not_not.mpr rfl)⟩

variable [DatetimeForms] [JsonScalars F]

/-- A constructed manifest is read back from the bytes that are stored for it. -/
theorem decode_encode {m : CheckpointManifest} {bytes : List UInt8}
    (hm : postInit F m = .ok m) (h : m.encode F = .ok bytes) : decode F bytes = .ok m := by
  have hloads := Json.loads_dumps (PyValue.plainHooks : Json.Hooks F Unit)
    PyValue.keepsPairs_plainHooks (writable_toDict h)
  simp only [encode, canonical, bind_eq_ok_iff, pure_eq_ok, Except.ok.injEq] at h
  obtain ⟨-, -, rfl⟩ := h
  simp only [decode, PyText.decodeUtf8_encodeUtf8, hloads, Json.sorted_obj, fromPayload,
    Json.lookup_sortedDict (keys_toDict m)]
  simp [toDict, bindingsPayload, requiredFields, List.lookup_cons, sorted_texts, textsOf_texts, intOf,
    strOf, refuseIf, hm]

end CheckpointManifest

end Constructed

end Checkpoints
