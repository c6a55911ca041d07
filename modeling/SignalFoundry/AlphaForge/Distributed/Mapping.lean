import SignalFoundry.AlphaForge.Distributed.Store

/-!
# The store as a map

While the file names of the experiments are names of entries of the directory, the store
is a map from experiments to manifests: `Holds` relates a file tree to the table of what
was last written, every call keeps it, and what a call reads is the entry of the table.
-/

namespace Checkpoints

open Fallible

section Mapping

variable {F : Type} [FloatText F] [PyRuntime]

/-- The first part of the file name of an experiment is the name of an entry. -/
def Direct (experimentId : String) : Prop :=
  FileTree.IsEntryName (FileTree.firstPart (experimentId ++ ".json"))

/-- A call that names its experiment directly, and writes only what matches its hash. -/
structure Call.Proper (call : Call F) : Prop where
  direct : Direct call.experimentId
  verified : ∀ m allowForeignWriter random, call = .write m allowForeignWriter random →
    m.verifyIntegrity F = .ok ()

theorem Manifest.accepted (m : Manifest F) :
    identifier "experiment_id" m.experimentId = .ok () := by
  have h := m.constructed
  simp only [CheckpointManifest.postInit, bind_eq_ok_iff] at h
  obtain ⟨_, hid, -⟩ := h
  exact hid

omit [PyRuntime] in
theorem pathFor_eq {experimentId : String} (h : identifier "experiment_id" experimentId = .ok ()) :
    pathFor experimentId = .ok (experimentId ++ ".json") := by
  rw [pathFor, h, ok_bind, pure_eq_ok]

namespace CheckpointStore

variable (store : CheckpointStore)

/-- An entry of the directory itself. -/
def Contains (path : List String) : Prop := ∃ name, path = store.directory ++ [name]

/-- A directory that has no checkpoints and no subdirectories, and was not accessed. -/
structure Opened (t : FileTree) : Prop where
  directory : t.node store.directory = some .directory
  flat : ∀ name, t.node (store.directory ++ [name]) ≠ some .directory
  absent : ∀ experimentId, t.node (store.directory ++ [experimentId ++ ".json"]) = none
  accesses : t.accesses = []

/-- A manifest is stored under the name of its experiment. -/
structure Stored (t : FileTree) (experimentId : String) (m : Manifest F) : Prop where
  experiment : m.experimentId = experimentId
  segment : FileTree.IsSegment (experimentId ++ ".json")
  verified : m.verifyIntegrity F = .ok ()
  content : ∃ encoded, m.encode F = .ok encoded ∧
    t.node (store.directory ++ [experimentId ++ ".json"]) = some (.file encoded)

/-- The tree that started as `t₀` stores the manifests of the table, and differs from it
in entries of the directory only. -/
structure Holds (t₀ : FileTree) (table : String → Option (Manifest F)) (t : FileTree) :
    Prop where
  directory : t.node store.directory = some .directory
  flat : ∀ name, t.node (store.directory ++ [name]) ≠ some .directory
  absent : ∀ experimentId, table experimentId = none →
    t.node (store.directory ++ [experimentId ++ ".json"]) = none
  stored : ∀ experimentId m, table experimentId = some m → store.Stored t experimentId m
  elsewhere : ∀ path, ¬ store.Contains path → t.node path = t₀.node path
  confined : ∀ access ∈ t.accesses, store.Contains access.path

variable {store}

theorem Opened.holds {t : FileTree} (h : store.Opened t) :
    store.Holds t (fun _ => (none : Option (Manifest F))) t where
  directory := h.directory
  flat := h.flat
  absent := fun experimentId _ => h.absent experimentId
  stored := fun _ _ hm => nomatch hm
  elsewhere := fun _ _ => rfl
  confined := by simp [h.accesses]

omit [PyRuntime] in
theorem directory_ne (name : String) : store.directory ≠ store.directory ++ [name] := by
  intro h
  have hlength := congrArg List.length h
  simp at hlength

omit [PyRuntime] in
theorem entry_inj {a b : String} (h : store.directory ++ [a] = store.directory ++ [b]) :
    a = b :=
  List.singleton_inj.mp (List.append_cancel_left h)

omit [PyRuntime] in
theorem checkpoint_inj {a b : String}
    (h : store.directory ++ [a ++ ".json"] = store.directory ++ [b ++ ".json"]) : a = b := by
  have htext := congrArg String.toList (entry_inj h)
  rw [String.toList_append, String.toList_append] at htext
  exact String.toList_injective (List.append_cancel_right htext)

omit [PyRuntime] in
theorem checkpoint_ne_temporary (experimentId random : String) :
    store.directory ++ [experimentId ++ ".json"] ≠ store.temporary random := by
  intro h
  have htext := congrArg (fun name : String => name.toList.getLast?) (entry_inj h)
  have hjson : ".json".toList.getLast? = some 'n' := by decide
  have htmp : ".tmp".toList.getLast? = some 'p' := by decide
  simp only [String.toList_append, List.getLast?_append, hjson, htmp, Option.some_or] at htext
  exact absurd htext (by decide)

section Step

variable {t₀ t : FileTree} {table : String → Option (Manifest F)} {experimentId : String}

/-- A call finds the file of its experiment, or its path leads nowhere. -/
theorem Holds.resolve (h : store.Holds t₀ table t) (hdirect : Direct experimentId) :
    (FileTree.IsSegment (experimentId ++ ".json") ∧
        t.resolve store.directory (experimentId ++ ".json") =
          .ok (store.directory ++ [experimentId ++ ".json"])) ∨
      ¬ FileTree.IsSegment (experimentId ++ ".json") ∧ ∃ e, FileTree.isAbsence e = true ∧
        t.resolve store.directory (experimentId ++ ".json") = .error e :=
  FileTree.resolve_cases (c := 'j') h.directory h.flat hdirect (by decide) (by decide) (by decide)

theorem Holds.accessed (h : store.Holds t₀ table t) {access : FileAccess}
    (haccess : store.Contains access.path) :
    store.Holds t₀ table { t with accesses := t.accesses ++ [access] } where
  directory := h.directory
  flat := h.flat
  absent := h.absent
  stored := fun e m hm => ⟨(h.stored e m hm).1, (h.stored e m hm).2, (h.stored e m hm).3,
    (h.stored e m hm).4⟩
  elsewhere := h.elsewhere
  confined := by
    intro a ha
    rcases List.mem_append.mp ha with hold | hnew
    · exact h.confined a hold
    · rw [List.mem_singleton.mp hnew]
      exact haccess

/-- The path of an experiment leads to its checkpoint exactly when there is one. -/
theorem Holds.pathExists (h : store.Holds t₀ table t) (hdirect : Direct experimentId) :
    t.pathExists store.directory (experimentId ++ ".json") =
      .ok (table experimentId).isSome := by
  rcases h.resolve hdirect with ⟨-, hresolve⟩ | ⟨hsegment, e, he, hresolve⟩
  · rw [FileTree.pathExists_of_resolve hresolve]
    cases htable : table experimentId with
    | none => rw [h.absent _ htable]; rfl
    | some m =>
        obtain ⟨encoded, -, hnode⟩ := (h.stored _ m htable).content
        rw [hnode]
        rfl
  · rw [FileTree.pathExists_of_absence he hresolve]
    cases htable : table experimentId with
    | none => rfl
    | some m => exact absurd (h.stored _ m htable).segment hsegment

theorem Stored.resolve (h : store.Holds t₀ table t) (hdirect : Direct experimentId)
    {m : Manifest F} (hm : store.Stored t experimentId m) :
    t.resolve store.directory (experimentId ++ ".json") =
      .ok (store.directory ++ [experimentId ++ ".json"]) := by
  rcases h.resolve hdirect with ⟨-, hresolve⟩ | ⟨hsegment, -⟩
  · exact hresolve
  · exact absurd hm.segment hsegment

/-- Setting one entry of the directory, when the table follows it. -/
theorem Holds.set (h : store.Holds t₀ table t) {name : String} {node : Option FileNode}
    {access : FileAccess} {table' : String → Option (Manifest F)}
    (haccess : access.path = store.directory ++ [name]) (hnode : node ≠ some .directory)
    (hother : ∀ e, e ++ ".json" ≠ name → table' e = table e)
    (habsent : ∀ e, e ++ ".json" = name → table' e = none → node = none)
    (hstored : ∀ e m, e ++ ".json" = name → table' e = some m →
      m.experimentId = e ∧ FileTree.IsSegment name ∧ m.verifyIntegrity F = .ok () ∧
        ∃ encoded, m.encode F = .ok encoded ∧ node = some (.file encoded)) :
    store.Holds t₀ table' (t.set (store.directory ++ [name]) node access) where
  directory := by
    rw [FileTree.node_set, if_neg (directory_ne name)]
    exact h.directory
  flat := by
    intro other
    rw [FileTree.node_set]
    split
    · exact hnode
    · exact h.flat other
  absent := by
    intro e he
    rw [FileTree.node_set]
    split
    · next heq => exact habsent e (entry_inj heq) he
    · next hne => exact h.absent e ((hother e fun heq => hne (by rw [heq])) ▸ he)
  stored := by
    intro e m hm
    by_cases heq : e ++ ".json" = name
    · obtain ⟨hexperiment, hsegment, hverified, encoded, hencode, hfile⟩ := hstored e m heq hm
      subst heq
      exact ⟨hexperiment, hsegment, hverified, encoded, hencode, by
        rw [FileTree.node_set, if_pos rfl, hfile]⟩
    · have hold := h.stored e m (hother e heq ▸ hm)
      obtain ⟨encoded, hencode, hfile⟩ := hold.content
      exact ⟨hold.experiment, hold.segment, hold.verified, encoded, hencode, by
        rw [FileTree.node_set, if_neg fun h => heq (entry_inj h), hfile]⟩
  elsewhere := by
    intro path hpath
    rw [FileTree.node_set, if_neg fun heq => hpath ⟨name, heq⟩]
    exact h.elsewhere path hpath
  confined := by
    intro a ha
    rcases List.mem_append.mp ha with hold | hnew
    · exact h.confined a hold
    · rw [List.mem_singleton.mp hnew]
      exact ⟨name, haccess⟩

/-- A temporary file is no checkpoint. -/
theorem Holds.setTemporary (h : store.Holds t₀ table t) (random : String) {node : Option FileNode}
    {access : FileAccess} (haccess : access.path = store.temporary random)
    (hnode : node ≠ some .directory) :
    store.Holds t₀ table (t.set (store.temporary random) node access) := by
  have hne : ∀ e, e ++ ".json" ≠ ".checkpoint-" ++ random ++ ".tmp" := fun e heq =>
    checkpoint_ne_temporary e random (congrArg (fun name => store.directory ++ [name]) heq)
  exact h.set haccess hnode (fun _ _ => rfl) (fun e he => absurd he (hne e))
    fun e _ he => absurd he (hne e)

/-- The checkpoint of an experiment that is written. -/
theorem Holds.setCheckpoint (h : store.Holds t₀ table t) {m : Manifest F} {encoded : List UInt8}
    {access : FileAccess} (hsegment : FileTree.IsSegment (m.experimentId ++ ".json"))
    (hverified : m.verifyIntegrity F = .ok ()) (hencode : m.encode F = .ok encoded)
    (haccess : access.path = store.directory ++ [m.experimentId ++ ".json"]) :
    store.Holds t₀ (Function.update table m.experimentId (some m))
      (t.set (store.directory ++ [m.experimentId ++ ".json"]) (some (.file encoded)) access) := by
  refine h.set haccess (by simp) ?_ ?_ ?_
  · intro e he
    exact Function.update_of_ne (fun heq => he (by rw [heq])) _ _
  · intro e he hnone
    have heq := checkpoint_inj (congrArg (fun name => store.directory ++ [name]) he)
    rw [heq, Function.update_self] at hnone
    cases hnone
  · intro e stored he hstored
    have heq := checkpoint_inj (congrArg (fun name => store.directory ++ [name]) he)
    rw [heq, Function.update_self] at hstored
    cases hstored
    exact ⟨heq.symm, hsegment, hverified, encoded, hencode, rfl⟩

/-- The checkpoint of an experiment that is removed. -/
theorem Holds.removeCheckpoint (h : store.Holds t₀ table t) (experimentId : String) :
    store.Holds t₀ (Function.update table experimentId none)
      (t.remove (store.directory ++ [experimentId ++ ".json"])) := by
  refine h.set rfl (by simp) ?_ (fun _ _ _ => rfl) ?_
  · intro e he
    exact Function.update_of_ne (fun heq => he (by rw [heq])) _ _
  · intro e m he hm
    have heq := checkpoint_inj (congrArg (fun name => store.directory ++ [name]) he)
    rw [heq, Function.update_self] at hm
    cases hm

variable [DatetimeForms] [JsonScalars F]

variable (F store) in
/-- A read changes no entry. -/
theorem node_read (experimentId : String) (t : FileTree) :
    (store.read F experimentId t).2.node = t.node := by
  unfold CheckpointStore.read
  split
  · rfl
  · split
    · rfl
    · rfl
    · split
      · rfl
      · next hbytes => exact FileTree.node_readBytes hbytes

/-- A read returns the entry of the table. -/
theorem Holds.read (h : store.Holds t₀ table t)
    (hid : identifier "experiment_id" experimentId = .ok ()) (hdirect : Direct experimentId) :
    (store.read F experimentId t).1 =
        .ok ((table experimentId).map Manifest.toCheckpointManifest) ∧
      store.Holds t₀ table (store.read F experimentId t).2 := by
  have hexists := h.pathExists hdirect
  cases htable : table experimentId with
  | none =>
      rw [htable, Option.isSome_none] at hexists
      simp only [CheckpointStore.read, pathFor_eq hid, hexists]
      exact ⟨rfl, h⟩
  | some m =>
      have hstored := h.stored _ m htable
      obtain ⟨encoded, hencode, hnode⟩ := hstored.content
      rw [htable, Option.isSome_some] at hexists
      have hbytes := FileTree.readBytes_of_resolve (hstored.resolve h hdirect) hnode
      simp only [CheckpointStore.read, pathFor_eq hid, hexists, hbytes,
        CheckpointManifest.decode_encode m.constructed hencode]
      exact ⟨rfl, h.accessed ⟨_, rfl⟩⟩

/-- The check for a foreign writer only reads. -/
theorem Holds.guardWrite (h : store.Holds t₀ table t) (m : Manifest F) (allowForeignWriter : Bool)
    (hdirect : Direct m.experimentId) :
    store.Holds t₀ table
      (store.guardWrite m allowForeignWriter (m.experimentId ++ ".json") t).2 := by
  have hexists := h.pathExists hdirect
  obtain ⟨hreply, htree⟩ := h.read m.accepted hdirect
  unfold CheckpointStore.guardWrite
  cases htable : table m.experimentId with
  | none =>
      rw [htable, Option.isSome_none] at hexists
      simp only [hexists]
      exact h
  | some stored =>
      rw [htable, Option.isSome_some] at hexists
      simp only [hexists]
      split
      · exact h
      · split
        · next hread => exact congrArg Prod.snd hread ▸ htree
        · next hread => exact congrArg Prod.snd hread ▸ htree
        · next hread => exact congrArg Prod.snd hread ▸ htree

omit [DatetimeForms] [JsonScalars F] in
/-- What is written replaces the checkpoint of its experiment, or nothing. -/
theorem Holds.persist (h : store.Holds t₀ table t) {m : Manifest F} {encoded : List UInt8}
    (random : String) (hdirect : Direct m.experimentId) (hverified : m.verifyIntegrity F = .ok ())
    (hencode : m.encode F = .ok encoded) {reply : Except CheckpointError Unit} {t' : FileTree}
    (hpersist : store.persist (m.experimentId ++ ".json") encoded random t = (reply, t')) :
    store.Holds t₀ (match reply with
      | .ok _ => Function.update table m.experimentId (some m)
      | .error _ => table) t' := by
  unfold CheckpointStore.persist at hpersist
  split at hpersist
  · cases hpersist
    exact h
  · next created hcreate =>
      obtain ⟨-, rfl⟩ := FileTree.create_eq hcreate
      have hcreated : store.Holds t₀ table (t.set (store.temporary random)
          (some (.file encoded)) (.created (store.temporary random))) :=
        h.setTemporary random rfl (by simp)
      have htemporary : (t.set (store.temporary random) (some (.file encoded))
          (.created (store.temporary random))).node (store.temporary random) =
            some (.file encoded) := by
        rw [FileTree.node_set, if_pos rfl]
      rcases hcreated.resolve hdirect with ⟨hsegment, hresolve⟩ | ⟨-, e, -, hresolve⟩
      · rw [FileTree.replace_of_resolve hresolve htemporary (hcreated.flat _)] at hpersist
        cases hpersist
        exact (hcreated.setTemporary random rfl (by simp)).setCheckpoint hsegment hverified
          hencode rfl
      · rw [FileTree.replace_of_error hresolve] at hpersist
        cases hpersist
        exact hcreated.setTemporary random rfl (by simp)

/-- A write that returns is remembered, and one that raises changes no checkpoint. -/
theorem Holds.write (h : store.Holds t₀ table t) {m : Manifest F} (allowForeignWriter : Bool)
    (random : String) (hdirect : Direct m.experimentId)
    (hverified : m.verifyIntegrity F = .ok ()) {reply : Except CheckpointError Unit}
    {t' : FileTree} (hwrite : store.write m allowForeignWriter random t = (reply, t')) :
    store.Holds t₀ (match reply with
      | .ok _ => Function.update table m.experimentId (some m)
      | .error _ => table) t' := by
  have hadmitted := h.guardWrite m allowForeignWriter hdirect
  simp only [CheckpointStore.write, pathFor_eq m.accepted] at hwrite
  split at hwrite
  · next hguard =>
      rw [hguard] at hadmitted
      cases hwrite
      exact hadmitted
  · next hguard =>
      rw [hguard] at hadmitted
      split at hwrite
      · cases hwrite
        exact hadmitted
      · next encoded hencoded =>
          simp only [Manifest.encoded, bind_eq_ok_iff, pure_eq_ok, Except.ok.injEq] at hencoded
          obtain ⟨_, hencode, -, -, rfl⟩ := hencoded
          exact hadmitted.persist random hdirect hverified hencode hwrite

omit [DatetimeForms] [JsonScalars F] in
theorem Holds.clear (h : store.Holds t₀ table t) (hdirect : Direct experimentId)
    {reply : Except CheckpointError Bool} {t' : FileTree}
    (hclear : store.clear experimentId t = (reply, t')) :
    store.Holds t₀ (match reply with
      | .ok _ => Function.update table experimentId none
      | .error _ => table) t' := by
  unfold CheckpointStore.clear at hclear
  split at hclear
  · cases hclear
    exact h
  · next target hpath =>
      simp only [pathFor, bind_eq_ok_iff, pure_eq_ok, Except.ok.injEq] at hpath
      obtain ⟨-, -, rfl⟩ := hpath
      rw [h.pathExists hdirect] at hclear
      cases htable : table experimentId with
      | none =>
          simp only [htable, Option.isSome_none] at hclear
          cases hclear
          show store.Holds t₀ (Function.update table experimentId none) t
          rw [← htable, Function.update_eq_self]
          exact h
      | some m =>
          have hstored := h.stored _ m htable
          obtain ⟨encoded, -, hnode⟩ := hstored.content
          simp only [htable, Option.isSome_some,
            FileTree.unlink_of_resolve (hstored.resolve h hdirect) hnode] at hclear
          cases hclear
          exact h.removeCheckpoint experimentId

end Step

/-- A call is remembered for its own experiment only. -/
theorem remember_of_ne (table : String → Option (Manifest F)) {call : Call F} (reply : Reply)
    {experimentId : String} (h : experimentId ≠ call.experimentId) :
    remember table (call, reply) experimentId = table experimentId := by
  cases call with
  | write m allowForeignWriter random =>
      cases reply with
      | written => exact Function.update_of_ne h _ _
      | _ => rfl
  | read experimentId => rfl
  | clear cleared =>
      cases reply with
      | cleared existed => exact Function.update_of_ne h _ _
      | _ => rfl

section Runs

variable [DatetimeForms] [JsonScalars F] {t₀ t : FileTree} {table : String → Option (Manifest F)}

/-- One call keeps the store in step with the table. -/
theorem Holds.perform (h : store.Holds t₀ table t) {call : Call F} (hcall : call.Proper) :
    store.Holds t₀ (remember table (call, (store.perform t call).1)) (store.perform t call).2 := by
  cases call with
  | write m allowForeignWriter random =>
      cases hwrite : store.write m allowForeignWriter random t with
      | mk reply t' =>
          have hnext := h.write allowForeignWriter random hcall.direct
            (hcall.verified m allowForeignWriter random rfl) hwrite
          cases reply with
          | ok _ => rw [CheckpointStore.perform, hwrite]; exact hnext
          | error e => rw [CheckpointStore.perform, hwrite]; exact hnext
  | read experimentId =>
      cases hpath : pathFor experimentId with
      | error e =>
          simp only [CheckpointStore.perform, CheckpointStore.read, hpath]
          exact h
      | ok target =>
          simp only [pathFor, bind_eq_ok_iff] at hpath
          obtain ⟨_, hid, -⟩ := hpath
          have hnext := (h.read hid hcall.direct).2
          cases hread : store.read F experimentId t with
          | mk reply t' =>
              rw [hread] at hnext
              cases reply with
              | ok _ => rw [CheckpointStore.perform, hread]; exact hnext
              | error e => rw [CheckpointStore.perform, hread]; exact hnext
  | clear experimentId =>
      cases hclear : store.clear experimentId t with
      | mk reply t' =>
          have hnext := h.clear hcall.direct hclear
          cases reply with
          | ok _ => rw [CheckpointStore.perform, hclear]; exact hnext
          | error e => rw [CheckpointStore.perform, hclear]; exact hnext

/-- A run of calls keeps the store in step with the table. -/
theorem Holds.run {calls : List (Call F)} (h : store.Holds t₀ table t)
    (hcalls : ∀ call ∈ calls, call.Proper) :
    store.Holds t₀ ((store.run calls t).1.foldl remember table) (store.run calls t).2 := by
  induction calls generalizing t table with
  | nil => exact h
  | cons call calls ih =>
      exact ih (h.perform (hcalls call List.mem_cons_self)) fun c hc =>
        hcalls c (List.mem_cons_of_mem call hc)

/-- While every experiment is named directly and every manifest matches its hash, a
store is a map: what is read for an experiment is the manifest that was last written for
it and not cleared since, a call on one experiment changes what is read for no other, and
every entry that is created, read or deleted is one of the directory. -/
theorem store_is_map (hopened : store.Opened t₀) (calls : List (Call F))
    (hcalls : ∀ call ∈ calls, call.Proper) :
    let after := (store.run calls t₀).2
    let last := lastWritten (store.run calls t₀).1
    (∀ experimentId, identifier "experiment_id" experimentId = .ok () → Direct experimentId →
      (store.read F experimentId after).1 =
          .ok ((last experimentId).map Manifest.toCheckpointManifest) ∧
        ∀ m, last experimentId = some m →
          m.experimentId = experimentId ∧ m.verifyIntegrity F = .ok ()) ∧
    (∀ call : Call F, call.Proper → ∀ experimentId, experimentId ≠ call.experimentId →
      identifier "experiment_id" experimentId = .ok () → Direct experimentId →
      (store.read F experimentId (store.perform after call).2).1 =
        (store.read F experimentId after).1) ∧
    (∀ access ∈ after.accesses, store.Contains access.path) ∧
    ∀ path, ¬ store.Contains path → after.node path = t₀.node path := by
  intro after last
  have hholds : store.Holds t₀ last after := hopened.holds.run hcalls
  refine ⟨fun e hid hdirect => ⟨(hholds.read hid hdirect).1, fun m hm => ?_⟩, ?_,
    hholds.confined, hholds.elsewhere⟩
  · exact ⟨(hholds.stored e m hm).experiment, (hholds.stored e m hm).verified⟩
  · intro call hcall e hne hid hdirect
    rw [((hholds.perform hcall).read hid hdirect).1, (hholds.read hid hdirect).1,
      remember_of_ne last _ hne]

end Runs

end CheckpointStore

end Mapping

namespace Sample

open Platform

/-- A directory `c` of the root, beside a file `b.json`. -/
def store : CheckpointStore := ⟨["c"]⟩

def tree : FileTree where
  node path :=
    if path = [] ∨ path = ["c"] then some .directory
    else if path = ["b.json"] then some (.file [])
    else none
  accesses := []

theorem opened_tree : store.Opened tree where
  directory := by decide
  flat := by simp [store, tree]
  absent := by simp [store, tree]
  accesses := rfl

theorem store_is_map_oneWrite : ∃ m : Manifest ℚ, m.experimentId = "b" ∧
    (store.read ℚ "b" (store.run [.write m false "0"] tree).2).1 =
      .ok ((lastWritten (store.run [.write m false "0"] tree).1 "b").map
        Manifest.toCheckpointManifest) := by
  have hid : identifier "experiment_id" "b" = .ok () := by decide
  obtain ⟨m, hexperiment, -, hverified⟩ := exists_manifest hid
    (by decide : identifier "writer_id" "w" = .ok ())
  have hdirect : Direct "b" := ⟨by decide, by decide, by decide, by decide⟩
  have hproper : ∀ call ∈ [Call.write m false "0"], call.Proper := by
    intro call hcall
    obtain rfl := List.mem_singleton.mp hcall
    refine ⟨?_, fun written _ _ heq => ?_⟩
    · show Direct m.experimentId
      rw [hexperiment]
      exact hdirect
    · cases heq
      exact hverified
  exact ⟨m, hexperiment, ((CheckpointStore.store_is_map opened_tree _ hproper).1 "b" hid hdirect).1⟩

/-- An accepted experiment whose checkpoint is a file outside of the directory, which is
deleted. -/
theorem clear_deletes_outside : store.Opened tree ∧
    identifier "experiment_id" "../b" = .ok () ∧ ¬ store.Contains ["b.json"] ∧
    tree.node ["b.json"] = some (.file []) ∧ (store.clear "../b" tree).1 = .ok true ∧
    (store.clear "../b" tree).2.node ["b.json"] = none ∧
    .deleted ["b.json"] ∈ (store.clear "../b" tree).2.accesses := by
  refine ⟨opened_tree, by decide, ?_, by decide, by decide, by decide,
    by decide⟩
  rintro ⟨name, hname⟩
  have hlength := congrArg List.length hname
  simp [store] at hlength

end Sample

end Checkpoints
