import SignalFoundry.Lattice.Tracking.RegistryRuns

/-!
# What is submitted and what is claimed

A claim decodes the stored text of a request again. What it hands out has the canonical
text that was stored, and the text can be decoded exactly when it is within the bounds that
the decoder puts on nesting and on structural tokens, which the encoder does not share.
-/

namespace Tracking

open Fallible

variable [PyRuntime] {F : Type} [PyFloat F] [FloatText F]

namespace SubmissionRequest

/-- The document of a request. -/
def document (request : SubmissionRequest F) : List (String × Json F) :=
  [("kind", .str request.kind), ("max_attempts", .int request.maxAttempts),
    ("payload", .obj request.payload), ("priority", .int request.priority),
    ("schema_version", .int request.schemaVersion)]

omit [PyRuntime] in
theorem canonicalText_eq (request : SubmissionRequest F) :
    request.canonicalText = canonicalJson (.obj request.document) := rfl

omit [PyRuntime] in
theorem nodup_document (request : SubmissionRequest F) :
    (request.document.map Prod.fst).Nodup := by
  simp [document]

omit [PyRuntime] in
/-- The constructor reads the fields of the document that it makes. -/
theorem ofFields_eq_ok {kind payload priority maxAttempts schemaVersion : Json F}
    {request : SubmissionRequest F}
    (h : ofFields kind payload priority maxAttempts schemaVersion = .ok request) :
    request.document = [("kind", kind), ("max_attempts", maxAttempts), ("payload", payload),
      ("priority", priority), ("schema_version", schemaVersion)] := by
  unfold ofFields at h
  split at h
  · next kind payload priority maxAttempts schemaVersion =>
      simp only [bind_eq_ok_iff] at h
      obtain ⟨⟨hkind⟩, -, ⟨hpriority⟩, -, ⟨hattempts⟩, -, ⟨hversion⟩, -, ⟨hfrozen⟩, -, h⟩ := h
      cases h
      have hcast : (maxAttempts.toNat : ℤ) = maxAttempts := by omega
      simp [document, hcast]
  · cases h

end SubmissionRequest

namespace RunRegistry

variable {registry : RunRegistry}

omit [PyRuntime] in
/-- A decoded request is written as the document that it is decoded from. -/
theorem sorted_of_decodedRequest {decoded : Json F} (hdistinct : decoded.Distinct)
    {request : SubmissionRequest F} (h : decodedRequest F decoded = .ok request) :
    (Json.obj request.document).sorted = decoded.sorted := by
  unfold decodedRequest at h
  split at h
  · next members =>
      obtain ⟨_, hkeys, h⟩ := bind_eq_ok_iff.mp h
      have hkeys := Json.hasKeys_iff.mp (by simpa [refuseIf_eq_ok_iff] using hkeys)
      have hdocument := SubmissionRequest.ofFields_eq_ok (mapError_eq_ok_iff.mp h)
      refine Json.sorted_obj_eq_of_lookup request.nodup_document hdistinct.1 fun k => ?_
      by_cases hk : k ∈ members.map Prod.fst
      · obtain ⟨v, hv⟩ : ∃ v, members.lookup k = some v := by
          rw [← Option.ne_none_iff_exists', Ne, List.lookup_eq_none_iff]
          obtain ⟨m, hm, rfl⟩ := List.mem_map.mp hk
          exact fun hnone => bne_iff_ne.mp (hnone m hm) rfl
        have hname := (hkeys k).mp hk
        simp only [List.mem_cons, List.not_mem_nil, or_false] at hname
        rw [hdocument]
        rcases hname with rfl | rfl | rfl | rfl | rfl <;> simp [List.lookup_cons, hv]
      · have hname : k ∉ request.document.map Prod.fst := fun hmem => hk ((hkeys k).mpr hmem)
        rw [Json.lookup_eq_none hk, Json.lookup_eq_none hname]
  · cases h

omit [PyRuntime] in
theorem decodeBoundedJson_eq_ok {text : String} {maximumBytes : ℕ} {v : Json F}
    (h : decodeBoundedJson text maximumBytes true = .ok v) :
    v.Distinct ∧ canonicalJson v = .ok text := by
  have hbytes : decodeBoundedBytes (PyText.encodeUtf8 text) maximumBytes true = .ok v := by
    rw [decodeBoundedBytes, PyText.decodeUtf8_encodeUtf8]
    exact h
  obtain ⟨hdistinct, hadmitted, heq⟩ := decodeBoundedBytes_eq_ok hbytes
  exact ⟨hdistinct, canonicalJson_eq_ok_iff.mpr ⟨hadmitted, (PyText.encodeUtf8_injective heq).symm⟩⟩

omit [PyRuntime] in
theorem canonicalJson_eq_of_sorted {v w : Json F} (h : v.sorted = w.sorted) {text : String}
    (hw : canonicalJson w = .ok text) : canonicalJson v = .ok text := by
  obtain ⟨hadmitted, rfl⟩ := canonicalJson_eq_ok_iff.mp hw
  refine canonicalJson_eq_ok_iff.mpr ⟨?_, ?_⟩
  · rw [← admitted_sorted, h, admitted_sorted]
    exact hadmitted
  · rw [Json.dumpsUnicode, Json.dumpsUnicode, h]

/-- What is read from a row is written as the text of the row. -/
theorem canonicalText_of_request {row : JobRow} {request : SubmissionRequest F}
    (h : registry.request F row = .ok request) :
    request.canonicalText = .ok row.requestJson ∧ request.kind = row.kind ∧
      request.priority = row.priority ∧ request.maxAttempts = row.maxAttempts := by
  simp only [RunRegistry.request, bind_eq_ok_iff, mapError_eq_ok_iff, refuseIf_eq_ok_iff] at h
  obtain ⟨-, -, -, -, decoded, hdecoded, request', hrequest, -, -, -, -, -, -, -, hagrees, -, -, h⟩ := h
  cases h
  obtain ⟨hdistinct, hcanonical⟩ := decodeBoundedJson_eq_ok hdecoded
  push Not at hagrees
  refine ⟨?_, hagrees.1, hagrees.2.2.1, hagrees.2.2.2⟩
  exact canonicalJson_eq_of_sorted (sorted_of_decodedRequest hdistinct hrequest) hcanonical

/-! ## Claims -/

/-- The rows that the submissions of a list have written. -/
def WrittenBy (registry : RunRegistry) (known : List (Submission F)) (db : Database) : Prop :=
  ∀ row ∈ db.jobs, ∃ submission ∈ known, registry.Written submission row

theorem writtenBy_step {db : Database} (hdb : db.Tracked registry.limits)
    {known : List (Submission F)} (h : registry.WrittenBy known db) {entry : Surroundings × Call F}
    (hentry : ∀ submission ∈ entry.2.submission, submission ∈ known) :
    registry.WrittenBy known (registry.step db entry).2 := by
  intro row hrow
  obtain ⟨rows, hfollows, hwritten⟩ := follows_step hdb entry
  have hmem := List.mem_map_of_mem (f := JobRow.original) hrow
  rw [hfollows.originals, List.mem_append] at hmem
  rcases hmem with hold | hnew
  · obtain ⟨row', hrow', heq⟩ := List.mem_map.mp hold
    obtain ⟨submission, hknown, hsubmission⟩ := h row' hrow'
    exact ⟨submission, hknown, hsubmission.of_original heq.symm⟩
  · obtain ⟨submission, hmem, hsubmission⟩ := hwritten _ hnew
    exact ⟨submission, hentry submission hmem, hsubmission.of_original rfl⟩

/-- The job that a claim has handed out. -/
def handedOut (_ : Surroundings × Call F) (answer : Except RegistryError (Reply F)) :
    Option (ClaimedJob F) :=
  answer.toOption.bind Reply.taken

/-- What a job is: its identifier, and the kind, the priority, the number of attempts and the
canonical text of its request. -/
def contents (jobId : String) (request : SubmissionRequest F) :
    String × String × ℤ × ℕ × Except RegistryError String :=
  (jobId, request.kind, request.priority, request.maxAttempts, request.canonicalText)

/-- The jobs that a run submits. -/
def submitted (entries : List (Surroundings × Call F)) : List (Submission F) :=
  entries.filterMap fun entry => entry.2.submission

/-- In every run, each claim hands out a request that has been submitted for its job, with
the same kind, priority and number of attempts and with the same canonical text. -/
theorem claims_return_submissions (registry : RunRegistry)
    (entries : List (Surroundings × Call F)) :
    (Machine.emitted registry.step handedOut {} entries).map
        (fun job => contents job.lease.jobId job.request) ⊆
      (submitted entries).map fun submission => contents submission.jobId submission.request := by
  have hknown {entry : Surroundings × Call F} (hentry : entry ∈ entries) :
      ∀ submission ∈ entry.2.submission, submission ∈ submitted entries :=
    fun submission hsubmission => List.mem_filterMap.mpr ⟨entry, hentry, hsubmission⟩
  have hall : ∀ job ∈ Machine.emitted registry.step handedOut {} entries,
      contents job.lease.jobId job.request ∈
        (submitted entries).map fun submission => contents submission.jobId submission.request := by
    refine Machine.forall_emitted
      (fun db => db.Tracked registry.limits ∧ registry.WrittenBy (submitted entries) db)
      (fun db entry hentry hdb =>
        ⟨tracked_step hdb.1 entry, writtenBy_step hdb.1 hdb.2 (hknown hentry)⟩)
      ?_ ⟨.empty _, by simp [WrittenBy]⟩
    rintro db entry hentry job ⟨hdb, hwritten⟩ h
    cases hreply : (registry.step db entry).1 with
    | error error => simp [handedOut, hreply, Except.toOption] at h
    | ok reply =>
        obtain ⟨rows, heffect⟩ := effect_step hdb hreply
        simp only [handedOut, hreply, Except.toOption, Option.bind_some] at h
        obtain ⟨-, row, hrow, hjobId, hrequest⟩ := heffect.granted job h
        obtain ⟨submission, hsubmission, hrow⟩ :=
          writtenBy_step hdb hwritten (hknown hentry) row hrow
        obtain ⟨htext, hkind, hpriority, hattempts⟩ := canonicalText_of_request hrequest
        refine List.mem_map.mpr ⟨submission, hsubmission, ?_⟩
        rw [contents, contents, htext, hrow.canonical, hkind, hrow.kind_eq, hpriority,
          hrow.priority_eq, hattempts, hrow.maxAttempts_eq, ← hjobId, hrow.jobId_eq]
  intro content hcontent
  obtain ⟨job, hjob, rfl⟩ := List.mem_map.mp hcontent
  exact hall job hjob

end RunRegistry

/-! ## Reading back -/

omit [PyRuntime] in
theorem isOk_freeze_iff {v : Json F} : (freeze v 0 {}).isOk = true ↔ Admitted v := by
  have hcanonical : canonicalJson v = .ok v.dumpsUnicode ↔ Admitted v :=
    canonicalJson_eq_ok_iff.trans (and_iff_left rfl)
  rw [← hcanonical, canonicalJson]
  cases freeze v 0 {} <;> simp [Except.isOk, Except.toBool]

namespace SubmissionRequest

/-- The request with the members of its payload in the order of their keys. -/
def ordered (request : SubmissionRequest F) : SubmissionRequest F :=
  { request with
    payload := Json.sortedDict request.payload
    frozen := by
      have hadmitted := admitted_sorted.mpr (isOk_freeze_iff.mp request.frozen)
      rw [Json.sorted_obj] at hadmitted
      exact isOk_freeze_iff.mpr hadmitted }

omit [PyRuntime] in
theorem sorted_document (request : SubmissionRequest F) :
    (Json.obj request.document).sorted = .obj request.ordered.document := by
  have hordered : (request.ordered.document.map Prod.fst).Pairwise (· ≤ ·) := by
    simp [document]
  rw [Json.sorted_obj, Json.sortedDict]
  have hmembers : Json.sortedMembers request.document = request.ordered.document := by
    simp [document, Json.sortedMembers, Json.sorted_obj, ordered]
  rw [hmembers, (List.pairwise_map.mp hordered).insertionSort_eq]

omit [PyRuntime] in
theorem ofFields_document (request : SubmissionRequest F) :
    ofFields (.str request.kind) (.obj request.payload) (.int request.priority)
      (.int request.maxAttempts) (.int request.schemaVersion) = .ok request := by
  simp only [ofFields, require_of request.kind_identifier, require_of request.priority_mem,
    require_of request.maxAttempts_mem, require_of request.schemaVersion_eq,
    require_of request.frozen, ok_bind, Int.toNat_natCast]

end SubmissionRequest

omit [PyRuntime] in
theorem decodedRequest_document (request : SubmissionRequest F) :
    RunRegistry.decodedRequest F (.obj request.document) = .ok request := by
  have hkeys : Json.hasKeys ["kind", "max_attempts", "payload", "priority", "schema_version"]
      request.document = true := by
    simp [Json.hasKeys, SubmissionRequest.document]
  have hfields : RunRegistry.decodedRequest F (.obj request.document) =
      (SubmissionRequest.ofFields (.str request.kind) (.obj request.payload)
        (.int request.priority) (.int request.maxAttempts) (.int request.schemaVersion)).mapError
          fun _ => RegistryError.integrity "stored canonical request is malformed" := by
    rw [RunRegistry.decodedRequest, refuseIf_of_not (by simp [hkeys]), ok_bind]
    simp [SubmissionRequest.document, List.lookup_cons]
  rw [hfields, request.ofFields_document]
  rfl

omit [PyRuntime] in
/-- A text is decoded as what it was written from, if it is decoded at all. -/
theorem decodeBoundedJson_dumpsUnicode {v decoded : Json F} (hwritable : v.Writable)
    {maximumBytes : ℕ} (h : decodeBoundedJson v.dumpsUnicode maximumBytes true = .ok decoded) :
    decoded = v.sorted := by
  simp only [decodeBoundedJson, loads_dumpsUnicode hwritable, bind_eq_ok_iff, Except.mapError,
    Except.ok.injEq] at h
  obtain ⟨-, -, sorted, rfl, -, -, -, -, rfl⟩ := h
  rfl

namespace RunRegistry

variable {registry : RunRegistry}

/-- The text of a request is within the bounds of the decoder. -/
def Decodable (request : SubmissionRequest F) : Prop :=
  Json.nesting (.obj request.document) ≤ maxJsonDepth ∧
    Json.weight tokenWeights (.obj request.document) ≤ maxJsonStructuralTokens

instance (request : SubmissionRequest F) : Decidable (Decodable request) :=
  inferInstanceAs (Decidable (_ ∧ _))

theorem Written.requestJson_eq {submission : Submission F} {row : JobRow}
    (h : registry.Written submission row) :
    row.requestJson = (Json.obj submission.request.document).dumpsUnicode :=
  (canonicalJson_eq_ok_iff.mp h.canonical).2

/-- The text of a submission fits into the column. -/
theorem Written.size_mem {submission : Submission F} {row : JobRow}
    (h : registry.Written submission row) :
    2 ≤ (PyText.encodeUtf8 row.requestJson).length ∧
      (PyText.encodeUtf8 row.requestJson).length ≤ registry.limits.maxRequestBytes := by
  refine ⟨?_, h.size_le⟩
  have hlength := length_canonicalBytes (Json.obj submission.request.document)
  rw [canonicalBytes, ← h.requestJson_eq, Json.weight] at hlength
  rw [hlength]
  exact (Nat.le_add_right 2 _).trans (Nat.le_add_right _ _)

theorem Written.decode_iff {submission : Submission F} {row : JobRow}
    (h : registry.Written submission row)
    (hwritable : (Json.obj submission.request.document).Writable) :
    decodeBoundedJson row.requestJson registry.limits.maxRequestBytes true =
        .ok (Json.obj submission.request.document).sorted ↔ Decodable submission.request := by
  have hsize := h.size_mem
  have hmaximum := registry.limits.maxRequestBytes_mem
  refine decodeBoundedJson_canonicalJson_iff hwritable h.canonical ⟨?_, hmaximum.2⟩
    ⟨?_, hsize.2⟩ true
  · omega
  · omega

/-- What a submission has written is read back, with its payload in the order of the keys,
exactly when its text is within the bounds of the decoder. -/
theorem request_of_written {submission : Submission F} {row : JobRow}
    (h : registry.Written submission row)
    (hwritable : (Json.obj submission.request.document).Writable) :
    (registry.request F row).toOption =
      if Decodable submission.request then some submission.request.ordered else none := by
  split_ifs with hdecodable
  · have hdecoded := (h.decode_iff hwritable).mpr hdecodable
    rw [submission.request.sorted_document] at hdecoded
    have hversion := submission.request.schemaVersion_eq
    have hpriority := submission.request.priority_mem
    have hattempts := submission.request.maxAttempts_mem
    have hlimit : submission.request.ordered.maxAttempts ≤ registry.limits.maxAttempts :=
      h.attempts_le
    have hok : registry.request F row = .ok submission.request.ordered := by
      simp only [RunRegistry.request, hdecoded, Except.mapError, ok_bind,
        decodedRequest_document]
      rw [refuseIf_of_not (not_not.mpr h.size_mem), ok_bind,
        refuseIf_of_not (not_not.mpr h.digest_eq), ok_bind, requireStoredInt, requireStoredInt,
        requireStoredInt, refuseIf_of_not (by rw [h.schemaVersion_eq, hversion]; decide), ok_bind,
        refuseIf_of_not (by rw [h.priority_eq]; exact not_not.mpr hpriority), ok_bind,
        refuseIf_of_not (by rw [h.maxAttempts_eq]; omega), ok_bind,
        refuseIf_of_not (by
          simp [h.kind_eq, h.schemaVersion_eq, h.priority_eq, h.maxAttempts_eq,
            SubmissionRequest.ordered]), ok_bind, refuseIf_of_not (not_lt.mpr hlimit), ok_bind]
    rw [hok]
    rfl
  · cases hrequest : registry.request F row with
    | error error => rfl
    | ok request =>
        simp only [RunRegistry.request, bind_eq_ok_iff, mapError_eq_ok_iff] at hrequest
        obtain ⟨-, -, -, -, decoded, hdecoded, -⟩ := hrequest
        have heq := hdecoded
        rw [h.requestJson_eq] at heq
        rw [decodeBoundedJson_dumpsUnicode hwritable heq] at hdecoded
        exact absurd ((h.decode_iff hwritable).mp hdecoded) hdecodable

/-- Every job holds a submission, and is read back as the request of the submission exactly
when its text is within the bounds of the decoder. -/
def ReadsBack (registry : RunRegistry) (known : List (Submission F)) (db : Database) : Prop :=
  ∀ row ∈ db.jobs, ∃ submission ∈ known, registry.Written submission row ∧
    ((Json.obj submission.request.document).Writable → (registry.request F row).toOption =
      if Decodable submission.request then some submission.request.ordered else none)

theorem writtenBy_after (registry : RunRegistry) (entries : List (Surroundings × Call F)) :
    registry.WrittenBy (submitted entries) (registry.after entries) := by
  suffices hrun : ∀ {db : Database} {more : List (Surroundings × Call F)}, more ⊆ entries →
      db.Tracked registry.limits → registry.WrittenBy (submitted entries) db →
        registry.WrittenBy (submitted entries) (Machine.run registry.step db more).2 from
    hrun (List.Subset.refl entries) (.empty _) (by simp [WrittenBy])
  intro db more hmore hdb h
  induction more generalizing db with
  | nil => exact h
  | cons entry more ih =>
      obtain ⟨hentry, hmore⟩ := List.cons_subset.mp hmore
      exact ih hmore (tracked_step hdb entry) (writtenBy_step hdb h fun submission hsubmission =>
        List.mem_filterMap.mpr ⟨entry, hentry, hsubmission⟩)

/-- In every run, what is accepted can be read back unless its text is too deep or has too
many tokens. -/
theorem accepted_requests_read_back (registry : RunRegistry)
    (entries : List (Surroundings × Call F)) :
    registry.ReadsBack (submitted entries) (registry.after entries) := by
  intro row hrow
  obtain ⟨submission, hsubmission, hwritten⟩ := writtenBy_after registry entries row hrow
  exact ⟨submission, hsubmission, hwritten, request_of_written hwritten⟩

end RunRegistry

end Tracking
