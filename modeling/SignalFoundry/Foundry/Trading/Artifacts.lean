import SignalFoundry.Foundry.Trading.Coherence
import SignalFoundry.Library.OrderedDict

/-!
# What is stored and read back

The artifact directory of the journal, whose entries are named by the digests of
their bytes and are never replaced, and the values that come back from it and
from the state table. What is stored was encoded within a byte limit; what is
read is decoded within a limit of depth and size as well.
-/

namespace Foundry

namespace Trading

open Fallible Json

/-- The entries of the artifact directory with their bytes. -/
abbrev Artifacts := OrderedDict String (List UInt8)

namespace Artifacts

variable [PyRuntime] {F : Type} [PyFloat F] [FloatText F]

def readFile (files : Artifacts) (name : String) (maximum : ℕ := maxEvidenceBytes) :
    Except FoundryError (List UInt8) :=
  match files.get? name with
  | none => .error ⟨"resource_unavailable", "The selected local resource cannot be read.", 404⟩
  | some payload => do
      refuseIf (maximum < payload.length)
        ⟨"unsafe_file", "Resource must be a bounded regular file.", 422⟩
      .ok payload

/-- The entry of an identity. -/
def destination (identity : String) : String := identity ++ ".json"

def artifact (files : Artifacts) (value : Json F) : Except FoundryError (String × Artifacts) := do
  let payload ← encode value
  let identity := hexDigest payload
  match files.get? (destination identity) with
  | some _ => do
      let stored ← files.readFile (destination identity)
      refuseIf (stored ≠ payload) ⟨"paper_integrity", "An immutable artifact changed.", 422⟩
      .ok (identity, files)
  | none => do
      refuseIf (256 ≤ files.size ∨
          512 * 1024 * 1024 < (files.values.map List.length).sum + payload.length)
        ⟨"paper_capacity", "Private artifact budget exhausted.", 507⟩
      .ok (identity, files.set (destination identity) payload)

def readArtifact (files : Artifacts) (identity : String) : Except FoundryError (Json F) := do
  refuseIf (¬ isDigestText identity) ⟨"paper_integrity", "Invalid artifact identity.", 422⟩
  let payload ← files.readFile (destination identity)
  refuseIf (hexDigest payload ≠ identity) ⟨"paper_integrity", "Artifact digest differs.", 422⟩
  decode payload (4 * 1024 * 1024)

/-- The directory after more values were published, or refused. -/
def after (files : Artifacts) (values : List (Json F)) : Artifacts :=
  values.foldl (fun files value =>
    match files.artifact value with
    | .ok (_, files') => files'
    | .error _ => files) files

variable {files files' : Artifacts} {value : Json F} {identity : String}

/-- Publishing adds one entry, or finds it there. -/
theorem get?_artifact (h : files.artifact value = .ok (identity, files')) :
    ∃ payload, encode value = .ok payload ∧ identity = hexDigest payload ∧
      files'.get? (destination identity) = some payload ∧
        ∀ name stored, files.get? name = some stored → files'.get? name = some stored := by
  obtain ⟨payload, hencode, hrest⟩ := bind_eq_ok_iff.mp h
  cases hfound : files.get? (destination (hexDigest payload)) with
  | some found =>
      simp only [hfound, readFile, bind_eq_ok_iff, refuseIf_eq_ok_iff, Except.ok.injEq,
        Prod.mk.injEq, not_not] at hrest
      obtain ⟨_, ⟨-, -, rfl⟩, -, rfl, rfl, rfl⟩ := hrest
      exact ⟨found, hencode, rfl, hfound, fun _ _ hstored => hstored⟩
  | none =>
      simp only [hfound, bind_eq_ok_iff, Except.ok.injEq, Prod.mk.injEq] at hrest
      obtain ⟨-, -, rfl, rfl⟩ := hrest
      refine ⟨payload, hencode, rfl, OrderedDict.get?_set_self _ _ _, fun name stored hstored => ?_⟩
      have hother : name ≠ destination (hexDigest payload) := by
        rintro rfl
        rw [hfound] at hstored
        cases hstored
      rw [OrderedDict.get?_set_of_ne _ _ hother, hstored]

/-- An empty directory takes any value that is encoded. -/
theorem artifact_empty {payload : List UInt8} (hencode : encode value = .ok payload) :
    ∃ identity files', artifact .empty value = .ok (identity, files') := by
  obtain ⟨-, -, hlength⟩ := encode_eq_ok_iff.mp hencode
  have hbudget : ¬ (256 ≤ (OrderedDict.empty : Artifacts).size ∨
      512 * 1024 * 1024 < ((OrderedDict.empty : Artifacts).values.map List.length).sum +
        payload.length) := by
    have hempty : ((OrderedDict.empty : Artifacts).values.map List.length).sum = 0 := rfl
    have hnone : (OrderedDict.empty : Artifacts).size = 0 := rfl
    rw [hempty, hnone]
    unfold maxEvidenceBytes at hlength
    omega
  refine ⟨hexDigest payload, OrderedDict.set .empty (destination (hexDigest payload)) payload, ?_⟩
  simp only [artifact, hencode, ok_bind, OrderedDict.get?_empty, refuseIf_of_not hbudget]

/-- No entry is ever replaced. -/
theorem get?_after (values : List (Json F)) {name : String} {stored : List UInt8}
    (h : files.get? name = some stored) : (files.after values).get? name = some stored := by
  induction values generalizing files with
  | nil => exact h
  | cons value values ih =>
      refine ih ?_
      dsimp only
      split
      · next hpublished =>
          obtain ⟨-, -, -, -, hkept⟩ := get?_artifact hpublished
          exact hkept name stored h
      · exact h

/-- A published value is read back from its text. -/
theorem readArtifact_of_artifact (h : files.artifact value = .ok (identity, files'))
    (later : List (Json F)) :
    ∃ payload, encode value (4 * 1024 * 1024) = .ok payload ∧
      (files'.after later).readArtifact identity =
        (decode payload (4 * 1024 * 1024) : Except FoundryError (Json F)) := by
  obtain ⟨payload, hencode, rfl, hstored, -⟩ := get?_artifact h
  obtain ⟨-, -, hlength⟩ := encode_eq_ok_iff.mp hencode
  refine ⟨payload, hencode, ?_⟩
  rw [readArtifact, refuseIf_of_not (not_not.mpr (isDigestText_hexDigest payload)), ok_bind,
    readFile, get?_after later hstored]
  dsimp only
  rw [refuseIf_of_not hlength.not_gt, ok_bind, ok_bind, refuseIf_of_not (not_not.mpr rfl), ok_bind]

end Artifacts

namespace Journal

variable [PyRuntime] {F : Type} [PyFloat F] [FloatText F] {j j' : Journal} {key : String}
  {value : Json F}

/-- The call leaves the value of a key alone. -/
def Call.Keeps {F : Type} (key : String) : Call F → Prop
  | .set other _ _ _ => other ≠ key
  | .append _ _ _ => True
  | .request _ => key ≠ "requests"
  | .stop _ => key ≠ "stopped"

theorem state_record {kind : String} {payload : Json F} {now : IsoTime}
    (h : j.record kind payload now = .ok j') : j'.state = j.state := by
  simp only [record, bind_eq_ok_iff, Except.ok.injEq] at h
  obtain ⟨-, -, -, -, _, -, _, -, rfl⟩ := h
  rfl

/-- The row of a key after a value was stored. -/
theorem find_store {other : String} (h : j.store key value = .ok j') :
    Table.find StateRow.key other j'.state =
      if key = other then some (stateRow key value) else Table.find StateRow.key other j.state := by
  obtain ⟨-, rfl⟩ := store_eq_ok_iff.mp h
  exact Table.find_upsert

theorem find_set {kind : String} {now : IsoTime} (h : j.set key value kind now = (.ok (), j')) :
    (∃ payload, encode value 16384 = .ok payload) ∧
      Table.find StateRow.key key j'.state = some (stateRow key value) := by
  rcases transaction_cases j _ with ⟨e, hrun⟩ | ⟨_, _, hrun, hbody⟩
  · rw [Journal.set, hrun] at h
    cases h
  · rw [Journal.set, hrun, Prod.mk.injEq] at h
    obtain ⟨-, rfl⟩ := h
    simp only [bind_eq_ok_iff, lift_eq_ok_iff, Except.ok.injEq, Prod.mk.injEq] at hbody
    obtain ⟨_, -, _, hstore, -, rfl⟩ := hbody
    exact ⟨(store_eq_ok_iff.mp hstore).1, (find_store hstore).trans (if_pos rfl)⟩

theorem find_perform {call : Call F} (hcall : call.Keeps key) :
    Table.find StateRow.key key (j.perform call).2.state = Table.find StateRow.key key j.state := by
  cases call with
  | set other value kind now =>
      refine transaction_keeps (P := fun j' => Table.find StateRow.key key j'.state = _) rfl ?_
      intro _ _ hbody
      simp only [bind_eq_ok_iff, lift_eq_ok_iff, Except.ok.injEq, Prod.mk.injEq] at hbody
      obtain ⟨_, hrecord, _, hstore, -, rfl⟩ := hbody
      rw [find_store hstore, if_neg hcall, state_record hrecord]
  | append kind payload now =>
      refine transaction_keeps (P := fun j' => Table.find StateRow.key key j'.state = _) rfl ?_
      intro _ _ hbody
      simp only [bind_eq_ok_iff, lift_eq_ok_iff, Except.ok.injEq, Prod.mk.injEq] at hbody
      obtain ⟨_, hrecord, -, rfl⟩ := hbody
      rw [state_record hrecord]
  | request now =>
      refine transaction_keeps (P := fun j' => Table.find StateRow.key key j'.state = _) rfl ?_
      intro _ _ hbody
      simp only [bind_eq_ok_iff, lift_eq_ok_iff, Except.ok.injEq, Prod.mk.injEq] at hbody
      obtain ⟨_, -, _, -, -, -, -, -, _, hstore, -, rfl⟩ := hbody
      rw [find_store hstore, if_neg (Ne.symm hcall)]
  | stop now =>
      refine transaction_keeps (P := fun j' => Table.find StateRow.key key j'.state = _) rfl ?_
      intro _ _ hbody
      obtain ⟨stopped, -, hbody⟩ := bind_eq_ok_iff.mp hbody
      by_cases hstopped : truthy stopped = true
      · rw [if_pos hstopped] at hbody
        cases hbody
        rfl
      · rw [if_neg hstopped] at hbody
        simp only [bind_eq_ok_iff, lift_eq_ok_iff, Except.ok.injEq, Prod.mk.injEq] at hbody
        obtain ⟨_, hrecord, _, hstore, -, rfl⟩ := hbody
        rw [find_store hstore, if_neg (Ne.symm hcall), state_record hrecord]

theorem find_after {calls : List (Call F × Bool)} (hcalls : ∀ call ∈ calls, call.1.Keeps key) :
    Table.find StateRow.key key (j.after calls).state = Table.find StateRow.key key j.state := by
  induction calls generalizing j with
  | nil => rfl
  | cons call calls ih =>
      refine (ih fun other hother => hcalls other (List.mem_cons_of_mem _ hother)).trans ?_
      dsimp only
      split
      · exact find_perform (hcalls call List.mem_cons_self)
      · rfl

/-- A journal with room takes a value that is encoded within its limit. -/
theorem exists_set {kind : String} {raw payload : List UInt8} (hverify : verify F j = .ok ())
    (hroom : j.events.length + 10 < maxEvents) (hkind : kind.length ≤ 64) (now : IsoTime)
    (hentry : encode (entry key value) 16384 = .ok raw)
    (hvalue : encode value 16384 = .ok payload) :
    ∃ j', j.set key value kind now = (.ok (), j') := by
  obtain ⟨digest, hdigest⟩ : ∃ digest, eventDigest F (j.events.length + 1) now.1 kind
      (headDigest zeroDigest j.events) raw = .ok digest :=
    exists_eventDigest (by omega) now.2 hkind (length_headDigest hverify) raw
  let row : EventRow :=
    ⟨j.events.length + 1, now.1, kind, raw, headDigest zeroDigest j.events, digest⟩
  have hrecord : j.record kind (entry key value) now =
      .ok { j with events := j.events ++ [row] } :=
    (record_eq_ok_iff hverify).mpr ⟨⟨by omega, .inl hroom⟩, row, ⟨rfl, hentry⟩, rfl,
      ⟨hdigest, rfl, rfl, by omega⟩, rfl⟩
  have hstore : Journal.store { j with events := j.events ++ [row] } key value =
      .ok ⟨Table.upsert StateRow.key (stateRow key value) j.state, j.events ++ [row]⟩ :=
    store_eq_ok_iff.mpr ⟨⟨payload, hvalue⟩, rfl⟩
  refine ⟨⟨Table.upsert StateRow.key (stateRow key value) j.state, j.events ++ [row]⟩, ?_⟩
  simp only [Journal.set, transaction, lift_eq_ok_iff.mpr hrecord, lift_eq_ok_iff.mpr hstore,
    ok_bind]

/-- A stored value is read back from its text. -/
theorem get_of_set {kind : String} {now : IsoTime} (h : j.set key value kind now = (.ok (), j'))
    {later : List (Call F × Bool)} (hlater : ∀ call ∈ later, call.1.Keeps key) :
    ∃ payload, encode value 16384 = .ok payload ∧
      (j'.after later).get key = (decode payload 16384 : Except FoundryError (Json F)) := by
  obtain ⟨⟨payload, hencode⟩, hfind⟩ := find_set h
  obtain ⟨-, rfl, -⟩ := encode_eq_ok_iff.mp hencode
  exact ⟨_, hencode, get_of_find ((find_after hlater).trans hfind)⟩

end Journal

section ReadBack

variable [PyRuntime] {F : Type} [PyFloat F] [FloatText F]

omit [PyRuntime] in
/-- What is decoded of an encoded value is the value, its members sorted. -/
theorem decode_eq_ok_iff [LawfulFloatText F] {value : Json F} (hkeys : UniqueKeys value)
    {maximum : ℕ} {payload : List UInt8} (hencode : encode value maximum = .ok payload) :
    decode payload maximum = .ok value.sorted ↔ Bounded value := by
  obtain ⟨hplain, -, -⟩ := encode_eq_ok_iff.mp hencode
  rw [decode_of_encode hencode (hkeys.writable hplain)]
  split
  · next hbounded => exact iff_of_true rfl hbounded
  · next hbounded => exact iff_of_false nofun hbounded

/-- A value that was accepted is read back, here, from the state table and from the
artifact directory, exactly if it is no deeper and no larger than `decode` allows. -/
theorem readBack_iff_bounded [LawfulFloatText F] {value : Json F} (hkeys : UniqueKeys value) :
    (∀ maximum payload, encode value maximum = .ok payload →
      (decode payload maximum = .ok value.sorted ↔ Bounded value)) ∧
    (∀ (j j' : Journal) (key kind : String) (now : IsoTime)
      (later : List (Journal.Call F × Bool)), j.set key value kind now = (.ok (), j') →
        (∀ call ∈ later, call.1.Keeps key) →
          ((j'.after later).get key = .ok value.sorted ↔ Bounded value)) ∧
    ∀ (files files' : Artifacts) (identity : String) (later : List (Json F)),
      files.artifact value = .ok (identity, files') →
        ((files'.after later).readArtifact identity = .ok value.sorted ↔ Bounded value) := by
  refine ⟨fun maximum payload hencode => decode_eq_ok_iff hkeys hencode,
    fun j j' key kind now later hset hlater => ?_, fun files files' identity later hpublished => ?_⟩
  · obtain ⟨payload, hencode, hget⟩ := Journal.get_of_set hset hlater
    rw [hget]
    exact decode_eq_ok_iff hkeys hencode
  · obtain ⟨payload, hencode, hread⟩ := Artifacts.readArtifact_of_artifact hpublished later
    rw [hread]
    exact decode_eq_ok_iff hkeys hencode

end ReadBack

section Nested

open scoped Platform

/-- Lists in lists. -/
def nested : ℕ → Json ℚ
  | 0 => .null
  | n + 1 => .arr [nested n]

theorem uniqueKeys_nested (n : ℕ) : UniqueKeys (nested n) := by
  have hlists : ∀ depth, ∀ v ∈ visit depth (nested n), ∀ members, v.2 ≠ .obj members := by
    induction n with
    | zero =>
        intro depth v hv members
        rw [List.mem_singleton.mp hv]
        nofun
    | succ n ih =>
        intro depth v hv members
        rw [nested, visit, visitItems, visitItems, List.append_nil] at hv
        rcases List.mem_cons.mp hv with rfl | hv
        · nofun
        · exact ih (depth + 1) v hv members
  exact fun v hv members hobj => absurd hobj (hlists 0 v hv members)

/-- A list in a list is read back from the directory after more was published. -/
theorem readBack_nested_two : ∃ (identity : String) (files' : Artifacts),
    Artifacts.artifact .empty (nested 2) = .ok (identity, files') ∧
      (files'.after [nested 1]).readArtifact identity = .ok (nested 2) := by
  have hencode : encode (nested 2) = .ok (PyText.encodeUtf8 (nested 2).dumps) :=
    encode_eq_ok_iff.mpr ⟨by decide, rfl, by decide⟩
  obtain ⟨identity, files', hpublished⟩ := Artifacts.artifact_empty hencode
  have hiff := (readBack_iff_bounded (uniqueKeys_nested 2)).2.2 .empty files' identity [nested 1]
    hpublished
  exact ⟨identity, files', hpublished, hiff.mpr (by decide)⟩

theorem encode_nested {maximum : ℕ} (h : 70 ≤ maximum) :
    encode (nested 33) maximum = .ok (PyText.encodeUtf8 (nested 33).dumps) := by
  have hlength : (PyText.encodeUtf8 (nested 33).dumps).length = 70 := by decide
  exact encode_eq_ok_iff.mpr ⟨by decide, rfl, hlength.trans_le h⟩

theorem decode_nested {maximum : ℕ} (h : 70 ≤ maximum) :
    decode (PyText.encodeUtf8 (nested 33).dumps) maximum =
      (.error invalidJson : Except FoundryError (Json ℚ)) := by
  have hplain := (encode_eq_ok_iff.mp (encode_nested h)).1
  rw [decode_of_encode (encode_nested h) ((uniqueKeys_nested 33).writable hplain)]
  exact if_neg (by decide)

/-- Thirty-three nested lists are stored and not read back. -/
theorem nested_not_readBack : UniqueKeys (nested 33) ∧
    (∃ payload, encode (nested 33) 16384 = .ok payload ∧
      decode payload 16384 = (.error invalidJson : Except FoundryError (Json ℚ))) ∧
    (∃ (now : IsoTime) (j' : Journal), Journal.set {} "research" (nested 33) "research" now =
        (.ok (), j') ∧ j'.get "research" = (.error invalidJson : Except FoundryError (Json ℚ))) ∧
    ∃ (identity : String) (files' : Artifacts),
      Artifacts.artifact .empty (nested 33) = .ok (identity, files') ∧
        files'.readArtifact identity = (.error invalidJson : Except FoundryError (Json ℚ)) := by
  refine ⟨uniqueKeys_nested 33, ⟨_, encode_nested (by decide), decode_nested (by decide)⟩,
    ⟨⟨"2026-01-05T12:00:00+00:00", by decide⟩, ?_⟩, ?_⟩
  · have hentry : encode (Journal.entry "research" (nested 33)) 16384 =
        .ok (PyText.encodeUtf8 (Journal.entry "research" (nested 33)).dumps) :=
      encode_eq_ok_iff.mpr ⟨by decide, rfl, by decide⟩
    obtain ⟨j', hset⟩ := Journal.exists_set (j := {}) (Journal.coherent_empty (F := ℚ)).verified
      (by decide) (by decide : ("research" : String).length ≤ 64)
      ⟨"2026-01-05T12:00:00+00:00", by decide⟩ hentry (encode_nested (by decide))
    obtain ⟨payload, hencode, hget⟩ := Journal.get_of_set hset (List.forall_mem_nil _)
    rw [encode_nested (by decide), Except.ok.injEq] at hencode
    exact ⟨j', hset, hget.trans (hencode ▸ decode_nested (by decide))⟩
  · obtain ⟨identity, files', hpublished⟩ :=
      Artifacts.artifact_empty (encode_nested (by decide : 70 ≤ maxEvidenceBytes))
    obtain ⟨payload, hencode, hread⟩ := Artifacts.readArtifact_of_artifact hpublished []
    rw [encode_nested (by decide), Except.ok.injEq] at hencode
    exact ⟨identity, files', hpublished, hread.trans (hencode ▸ decode_nested (by decide))⟩

end Nested

end Trading

end Foundry
