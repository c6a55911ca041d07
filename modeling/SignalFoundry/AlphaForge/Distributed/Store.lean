import SignalFoundry.AlphaForge.Distributed.Manifest
import SignalFoundry.Library.Platform

/-!
# The checkpoint store

A store keeps the checkpoint of an experiment in a file of its directory that is named
after the experiment. A checkpoint is written to a temporary sibling that replaces the
file.

The operations are functions of the file tree; a run is a list of calls with the reply
of each.
-/

namespace Checkpoints

open Fallible

section Store

variable (F : Type) [FloatText F] [PyRuntime]

/-- A constructed manifest. -/
structure Manifest extends CheckpointManifest where
  constructed : toCheckpointManifest.postInit F = .ok toCheckpointManifest

variable {F}

/-- `CheckpointManifest(...)`. -/
def Manifest.make (raw : CheckpointManifest) : Except CheckpointError (Manifest F) :=
  match h : raw.postInit F with
  | .error e => .error e
  | .ok m => .ok ⟨m, CheckpointManifest.postInit_idem h⟩

/-- `_path_for`, below the directory. -/
def pathFor (experimentId : String) : Except CheckpointError String := do
  identifier "experiment_id" experimentId
  return experimentId ++ ".json"

/-- The bytes that `write` stores, when they are not too many. -/
def Manifest.encoded (m : Manifest F) : Except CheckpointError (List UInt8) := do
  let encoded ← m.encode F
  refuseIf (maxManifestBytes < encoded.length) (CheckpointError.refused
    s!"manifest is {encoded.length} bytes, exceeding the {maxManifestBytes} ceiling")
  return encoded

theorem Manifest.exists_encoded {m : Manifest F}
    (hnumbers : (m.toDict F).all (writesInteger ·.2) = true)
    (hlength : 4 * (Json.obj (m.toDict F)).sorted.write.length ≤ maxManifestBytes) :
    ∃ encoded, m.encoded = .ok encoded := by
  have hsize := PyText.length_encodeUtf8_ofList_le (Json.obj (m.toDict F)).sorted.write
  have hfits : ¬ maxManifestBytes <
      (PyText.encodeUtf8 (Json.obj (m.toDict F)).dumps).length := by
    rw [Json.dumps]
    omega
  rw [Manifest.encoded, CheckpointManifest.encode, canonical, refuseIf_of_not (by simp [hnumbers]),
    ok_bind, pure_eq_ok, ok_bind, refuseIf_of_not hfits]
  exact ⟨_, rfl⟩

/-- `CheckpointStore`. -/
structure CheckpointStore where
  directory : List String

namespace CheckpointStore

variable [DatetimeForms] [JsonScalars F]

variable (F) in
/-- `read`. -/
def read (store : CheckpointStore) (experimentId : String) (t : FileTree) :
    Except CheckpointError (Option CheckpointManifest) × FileTree :=
  match pathFor experimentId with
  | .error e => (.error e, t)
  | .ok target =>
      match t.pathExists store.directory target with
      | .error e => (.error (.os e), t)
      | .ok false => (.ok none, t)
      | .ok true =>
          match t.readBytes store.directory target with
          | .error e => (.error (.os e), t)
          | .ok (bytes, t) => (some <$> CheckpointManifest.decode F bytes, t)

/-- The check of `write` for a foreign writer. -/
def guardWrite (store : CheckpointStore) (m : Manifest F) (allowForeignWriter : Bool) (target : String)
    (t : FileTree) : Except CheckpointError Unit × FileTree :=
  match t.pathExists store.directory target with
  | .error e => (.error (.os e), t)
  | .ok false => (.ok (), t)
  | .ok true =>
      if allowForeignWriter then (.ok (), t)
      else
        match store.read F m.experimentId t with
        | (.error e, t) => (.error e, t)
        | (.ok none, t) => (.ok (), t)
        | (.ok (some existing), t) =>
            (refuseIf (existing.writerId ≠ m.writerId) (CheckpointError.concurrentWriter
              m.experimentId existing.writerId m.writerId), t)

/-- The entry that `mkstemp` creates for a random text. -/
def temporary (store : CheckpointStore) (random : String) : List String :=
  store.directory ++ [".checkpoint-" ++ random ++ ".tmp"]

/-- The writing of `write`: a temporary file that replaces the target, or is removed. -/
def persist (store : CheckpointStore) (target : String) (encoded : List UInt8) (random : String)
    (t : FileTree) : Except CheckpointError Unit × FileTree :=
  match t.create (store.temporary random) encoded with
  | .error e => (.error (.os e), t)
  | .ok t =>
      match t.replace (store.temporary random) store.directory target with
      | .error e => (.error (.os e), t.remove (store.temporary random))
      | .ok t => (.ok (), t)

/-- `write`. -/
def write (store : CheckpointStore) (m : Manifest F) (allowForeignWriter : Bool) (random : String)
    (t : FileTree) : Except CheckpointError Unit × FileTree :=
  match pathFor m.experimentId with
  | .error e => (.error e, t)
  | .ok target =>
      match store.guardWrite m allowForeignWriter target t with
      | (.error e, t) => (.error e, t)
      | (.ok (), t) =>
          match m.encoded with
          | .error e => (.error e, t)
          | .ok encoded => store.persist target encoded random t

/-- `clear`. -/
def clear (store : CheckpointStore) (experimentId : String) (t : FileTree) :
    Except CheckpointError Bool × FileTree :=
  match pathFor experimentId with
  | .error e => (.error e, t)
  | .ok target =>
      match t.pathExists store.directory target with
      | .error e => (.error (.os e), t)
      | .ok false => (.ok false, t)
      | .ok true =>
          match t.unlink store.directory target with
          | .error e => (.error (.os e), t)
          | .ok t => (.ok true, t)

end CheckpointStore

/-! ## Runs -/

variable (F) in
inductive Call where
  | write (m : Manifest F) (allowForeignWriter : Bool) (random : String)
  | read (experimentId : String)
  | clear (experimentId : String)

namespace Call

def experimentId : Call F → String
  | write m _ _ => m.experimentId
  | read experimentId => experimentId
  | clear experimentId => experimentId

end Call

inductive Reply where
  | written
  | found (manifest : Option CheckpointManifest)
  | cleared (existed : Bool)
  | raised (error : CheckpointError)
  deriving DecidableEq

/-- The reply to a call, and the tree after it. -/
def Reply.of {α : Type} (reply : α → Reply) (outcome : Except CheckpointError α × FileTree) :
    Reply × FileTree :=
  match outcome with
  | (.ok a, t) => (reply a, t)
  | (.error e, t) => (.raised e, t)

namespace CheckpointStore

variable [DatetimeForms] [JsonScalars F] (store : CheckpointStore)

def perform (t : FileTree) : Call F → Reply × FileTree
  | .write m allowForeignWriter random =>
      Reply.of (fun _ => .written) (store.write m allowForeignWriter random t)
  | .read experimentId => Reply.of .found (store.read F experimentId t)
  | .clear experimentId => Reply.of .cleared (store.clear experimentId t)

/-- The calls with their replies, and the tree after them. -/
def run : List (Call F) → FileTree → List (Call F × Reply) × FileTree
  | [], t => ([], t)
  | call :: calls, t =>
      let (reply, t) := store.perform t call
      let (history, t) := run calls t
      ((call, reply) :: history, t)

end CheckpointStore

/-- The checkpoints of the experiments after one more call. -/
def remember (table : String → Option (Manifest F)) : Call F × Reply → String → Option (Manifest F)
  | (.write m _ _, .written) => Function.update table m.experimentId (some m)
  | (.clear experimentId, .cleared _) => Function.update table experimentId none
  | _ => table

/-- The manifest that was last written for an experiment and not cleared since. -/
def lastWritten (history : List (Call F × Reply)) : String → Option (Manifest F) :=
  history.foldl remember fun _ => none

end Store

/-! ## A concrete manifest -/

namespace Sample

open Platform

scoped instance datetimeForms : DatetimeForms := ⟨fun _ => none⟩

scoped instance jsonScalars : JsonScalars ℚ where
  str
    | .null => "None"
    | .bool true => "True"
    | .bool false => "False"
    | v => v.dumps
  int
    | .bool b => some b.toNat
    | _ => none

def hashText (c : Char) : String := String.ofList (List.replicate 64 c)

theorem hashField_hashText (fieldName : String) {c : Char} (h : PyText.isHexDigit c = true) :
    hashField fieldName (hashText c) = .ok () := by
  simp [hashField, hashText, h]

/-- The fields of a manifest of one experiment and writer. -/
def fields (experimentId writerId contentHash : String) : CheckpointManifest where
  experimentId := experimentId
  schemaVersion := 1
  codeHash := hashText 'a'
  dataHash := hashText 'b'
  configHash := hashText 'c'
  dependencyHash := hashText 'd'
  taskGraphHash := hashText 'e'
  rootSeed := 7
  completedTaskIds := ["t1", "t2"]
  writerId := writerId
  writtenAt := ⟨.date 2024 3 1, 12, 0, 0, 0, by decide, by decide, by decide, by decide⟩
  contentHash := contentHash

theorem bindings_fields (experimentId writerId contentHash : String) :
    ((fields experimentId writerId contentHash).bindings.forM fun binding =>
      hashField binding.1 binding.2) = .ok () := by
  have ha := hashField_hashText "code_hash" (c := 'a') (by decide)
  have hb := hashField_hashText "data_hash" (c := 'b') (by decide)
  have hc := hashField_hashText "config_hash" (c := 'c') (by decide)
  have hd := hashField_hashText "dependency_hash" (c := 'd') (by decide)
  have he := hashField_hashText "task_graph_hash" (c := 'e') (by decide)
  simp only [CheckpointManifest.bindings, fields, List.forM_eq_forM, List.forM_cons, List.forM_nil,
    ha, hb, hc, hd, he, ok_bind, pure_eq_ok]

theorem postInit_fields {experimentId writerId contentHash : String}
    (hexperiment : identifier "experiment_id" experimentId = .ok ())
    (hwriter : identifier "writer_id" writerId = .ok ())
    (hhash : hashField "content_hash" contentHash = .ok ()) :
    (fields experimentId writerId contentHash).postInit ℚ =
      .ok (fields experimentId writerId contentHash) := by
  have hsorted : ["t1", "t2"].insertionSort (· ≤ ·) = ["t1", "t2"] := by decide
  rw [CheckpointManifest.postInit, bindings_fields]
  simp only [fields, hexperiment, hwriter, hhash, ok_bind, hsorted,
    if_neg (ne_empty_of_hashField hhash)]
  rfl

/-- A manifest with the hash that its construction fills in. -/
theorem exists_manifest {experimentId writerId : String}
    (hexperiment : identifier "experiment_id" experimentId = .ok ())
    (hwriter : identifier "writer_id" writerId = .ok ()) :
    ∃ m : Manifest ℚ, m.experimentId = experimentId ∧ m.writerId = writerId ∧
      m.verifyIntegrity ℚ = .ok () := by
  have hmade : ∃ m, (fields experimentId writerId "").postInit ℚ = .ok m := by
    have hsorted : ["t1", "t2"].insertionSort (· ≤ ·) = ["t1", "t2"] := by decide
    have hnumbers : ((fields experimentId writerId "").bindingsPayload ℚ).all
        (writesInteger ·.2) = true := by
      simp [CheckpointManifest.bindingsPayload, fields, writesInteger, Json.maxIntegerDigits]
      decide
    obtain ⟨text, hdigest⟩ := exists_digest hnumbers
    cases h : (fields experimentId writerId "").postInit ℚ with
    | ok m => exact ⟨m, rfl⟩
    | error e =>
        rw [CheckpointManifest.postInit, bindings_fields] at h
        simp only [fields] at h hdigest
        simp only [hexperiment, hwriter, ok_bind, hsorted, hdigest] at h
        cases h
  obtain ⟨m, hm⟩ := hmade
  have hverified := CheckpointManifest.verifyIntegrity_postInit hm rfl
  have hconstructed := CheckpointManifest.postInit_idem hm
  obtain ⟨text, -, rfl⟩ := CheckpointManifest.postInit_eq hm
  exact ⟨⟨_, hconstructed⟩, rfl, rfl, hverified⟩

end Sample

end Checkpoints
