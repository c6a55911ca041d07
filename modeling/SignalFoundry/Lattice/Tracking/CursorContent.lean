import SignalFoundry.Lattice.Tracking.Cursors

/-!
# What cursors carry

The contents of the five kinds of cursor, and the codec on them. A token is accepted
by a decoder exactly when it opens under the domain of its kind to the canonical
text of a valid content; it is the token of the encoder when its segments are
spelled as base64url spells them.
-/

namespace Tracking

open Fallible

inductive CursorKind where
  | job
  | event
  | run
  | artifact
  | artifactQuery
  deriving DecidableEq, Repr

def CursorKind.domain : CursorKind → List UInt8
  | job => jobCursorDomain
  | event => eventCursorDomain
  | run => runCursorDomain
  | artifact => artifactCursorDomain
  | artifactQuery => artifactQueryCursorDomain

/-- The query that a cursor continues: what the callers compare with their own. -/
inductive CursorContext where
  | job (state : Option JobState)
  | event (jobId : Option String)
  | run (filter : Option String)
  | artifact (runId : String)
  | artifactQuery (runId : String) (role : Option String)
  deriving DecidableEq, Repr

def CursorContext.kind : CursorContext → CursorKind
  | job _ => .job
  | event _ => .event
  | run _ => .run
  | artifact _ => .artifact
  | artifactQuery _ _ => .artifactQuery

inductive CursorContent where
  | job (snapshot eventSnapshot after : ℤ) (state : Option JobState)
  | event (snapshot after : ℤ) (jobId : Option String)
  | run (snapshot after : ℤ) (filter : Option String)
  | artifact (snapshot after : ℤ) (runId : String)
  | artifactQuery (snapshot after : ℤ) (runId : String) (role : Option String)
  deriving DecidableEq, Repr

namespace CursorContent

def kind : CursorContent → CursorKind
  | job _ _ _ _ => .job
  | event _ _ _ => .event
  | run _ _ _ => .run
  | artifact _ _ _ => .artifact
  | artifactQuery _ _ _ _ => .artifactQuery

def context : CursorContent → CursorContext
  | job _ _ _ state => .job state
  | event _ _ jobId => .event jobId
  | run _ _ filter => .run filter
  | artifact _ _ runId => .artifact runId
  | artifactQuery _ _ runId role => .artifactQuery runId role

theorem kind_context (content : CursorContent) : content.context.kind = content.kind := by
  cases content <;> rfl

end CursorContent

namespace CursorCodec

variable [PyRuntime] {F : Type} [PyFloat F] [FloatText F] (codec : CursorCodec F)

/-- The encoder of a content. -/
def encode : CursorContent → Except RegistryError CursorToken
  | .job snapshot eventSnapshot after state =>
      (codec.encodeJob snapshot eventSnapshot after state).map JobCursor.token
  | .event snapshot after jobId => (codec.encodeEvent snapshot after jobId).map EventCursor.token
  | .run snapshot after filter => (codec.encodeRun snapshot after filter).map RunCursor.token
  | .artifact snapshot after runId =>
      (codec.encodeArtifact snapshot after runId).map ArtifactCursor.token
  | .artifactQuery snapshot after runId role =>
      (codec.encodeArtifactQuery snapshot after runId role).map ArtifactCursor.token

/-- The decoder of a kind. -/
def decode (token : CursorToken) : CursorKind → Except RegistryError CursorContent
  | .job => (codec.decodeJob ⟨token⟩).map fun (snapshot, eventSnapshot, after, state) =>
      .job snapshot eventSnapshot after state
  | .event => (codec.decodeEvent ⟨token⟩).map fun (snapshot, after, jobId) =>
      .event snapshot after jobId
  | .run => (codec.decodeRun ⟨token⟩).map fun (snapshot, after, filter) =>
      .run snapshot after filter
  | .artifact => (codec.decodeArtifact ⟨token⟩).map fun (snapshot, after, runId) =>
      .artifact snapshot after runId
  | .artifactQuery => (codec.decodeArtifactQuery ⟨token⟩).map fun (snapshot, after, runId, role) =>
      .artifactQuery snapshot after runId role

end CursorCodec

/-! ## Valid contents -/

structure ValidPosition (snapshot after : ℤ) : Prop where
  nonneg : 0 ≤ after
  ordered : after ≤ snapshot
  bounded : snapshot ≤ 2 ^ 63 - 1

variable {F : Type}

theorem validatePosition_eq_ok_iff {x y : Json F} {snapshot after : ℤ} :
    validatePosition x y = .ok (snapshot, after) ↔
      x = .int snapshot ∧ y = .int after ∧ ValidPosition snapshot after := by
  constructor
  · intro h
    unfold validatePosition at h
    split at h
    · simp only [bind_eq_ok_iff, refuseIf_eq_ok_iff, not_or, not_lt, Except.ok.injEq,
        Prod.mk.injEq] at h
      obtain ⟨-, ⟨-, hnonneg, hordered, hbounded⟩, rfl, rfl⟩ := h
      exact ⟨rfl, rfl, hnonneg, hordered, hbounded⟩
    · cases h
  · rintro ⟨rfl, rfl, h⟩
    have hnonneg := h.nonneg
    have hordered := h.ordered
    have hbounded := h.bounded
    rw [validatePosition, refuseIf_of_not (by omega), ok_bind]

theorem textOrNull_eq_ok_iff {error : RegistryError} {v : Json F} {text : Option String} :
    textOrNull error v = .ok text ↔ v = ofText text := by
  cases v with
  | null => cases text <;> simp [textOrNull, ofText]
  | str s => cases text <;> simp [textOrNull, ofText]
  | _ => cases text <;> simp [textOrNull, ofText]

theorem requireIdentifier_eq_ok_iff {value fieldName : String} {u : Unit} :
    requireIdentifier value fieldName = .ok u ↔ isIdentifier value = true := by
  rw [requireIdentifier, refuseIf_eq_ok_iff, Bool.not_eq_false]

namespace CursorContent

/-- The filters that the encoder of a kind accepts. -/
def Valid : CursorContent → Prop
  | job snapshot eventSnapshot after _ =>
      ValidPosition snapshot after ∧ ValidPosition eventSnapshot 0
  | event snapshot after jobId =>
      ValidPosition snapshot after ∧ ∀ id ∈ jobId, isIdentifier id = true
  | run snapshot after filter => ValidPosition snapshot after ∧ ∀ text ∈ filter,
      1 ≤ (PyText.encodeUtf8 text).length ∧ (PyText.encodeUtf8 text).length ≤ 128
  | artifact snapshot after runId => ValidPosition snapshot after ∧ isIdentifier runId = true
  | artifactQuery snapshot after runId role => ValidPosition snapshot after ∧
      isIdentifier runId = true ∧ ∀ name ∈ role, isIdentifier name = true

/-- The members of the payload. -/
def members (F : Type) : CursorContent → List (String × Json F)
  | job snapshot eventSnapshot after state => [("after", .int after),
      ("event_snapshot", .int eventSnapshot), ("filter", ofText (state.map JobState.value)),
      ("snapshot", .int snapshot)]
  | event snapshot after filter | run snapshot after filter =>
      [("after", .int after), ("filter", ofText filter), ("snapshot", .int snapshot)]
  | artifact snapshot after runId =>
      [("after", .int after), ("filter", .str runId), ("snapshot", .int snapshot)]
  | artifactQuery snapshot after runId role => [("after", .int after), ("role", ofText role),
      ("run_id", .str runId), ("snapshot", .int snapshot)]

/-- A payload with the keys and the fields of a content. -/
structure ReadFrom (content : CursorContent) (payload : List (String × Json F)) : Prop where
  keys : Json.hasKeys ((content.members F).map Prod.fst) payload = true
  fields : ∀ m ∈ content.members F, fieldOf payload m.1 = m.2

end CursorContent

theorem boundedText_eq_ok_iff {value fieldName : String} {maximum : ℕ} {u : Unit} :
    boundedText value fieldName maximum = .ok u ↔
      1 ≤ (PyText.encodeUtf8 value).length ∧ (PyText.encodeUtf8 value).length ≤ maximum := by
  rw [boundedText, refuseIf_eq_ok_iff, not_not]

/-- The plain payloads are read field by field. -/
theorem readFrom_filter_iff {content : CursorContent} {snapshot after : ℤ}
    {filter : Option String} (payload : List (String × Json F))
    (h : content.members F =
      [("after", .int after), ("filter", ofText filter), ("snapshot", .int snapshot)]) :
    content.ReadFrom payload ↔ Json.hasKeys ["after", "filter", "snapshot"] payload = true ∧
      fieldOf payload "snapshot" = .int snapshot ∧ fieldOf payload "after" = .int after ∧
        fieldOf payload "filter" = ofText filter := by
  constructor
  · rintro ⟨hkeys, hfields⟩
    simp only [h, List.forall_mem_cons, List.not_mem_nil, false_implies, implies_true,
      and_true] at hkeys hfields
    exact ⟨hkeys, hfields.2.2, hfields.1, hfields.2.1⟩
  · rintro ⟨hkeys, hs, ha, hfilter⟩
    refine ⟨?_, ?_⟩
    · rw [h]
      exact hkeys
    · simp [h, hs, ha, hfilter]

namespace CursorCodec

variable [PyRuntime] [PyFloat F] [FloatText F] (codec : CursorCodec F)

/-! ### Decoding -/

theorem decodeToken_eq_ok_iff {token : CursorToken} {domain : List UInt8} {snapshot after : ℤ}
    {filter : Option String} : codec.decodeToken token domain = .ok (snapshot, after, filter) ↔
      ∃ payload, codec.decodePayload token domain = .ok payload ∧
        Json.hasKeys ["after", "filter", "snapshot"] payload = true ∧
        fieldOf payload "snapshot" = .int snapshot ∧ fieldOf payload "after" = .int after ∧
        fieldOf payload "filter" = ofText filter ∧ ValidPosition snapshot after := by
  simp only [decodeToken, bind_eq_ok_iff, refuseIf_eq_ok_iff, Prod.exists, Except.ok.injEq,
    Prod.mk.injEq, validatePosition_eq_ok_iff, textOrNull_eq_ok_iff, Bool.not_eq_false]
  constructor
  · rintro ⟨payload, hpayload, -, hkeys, s, a, ⟨hs, ha, hvalid⟩, o, ho, rfl, rfl, rfl⟩
    exact ⟨payload, hpayload, hkeys, hs, ha, ho, hvalid⟩
  · rintro ⟨payload, hpayload, hkeys, hs, ha, ho, hvalid⟩
    exact ⟨payload, hpayload, (), hkeys, snapshot, after, ⟨hs, ha, hvalid⟩, filter, ho, rfl, rfl,
      rfl⟩

theorem decodeJob_eq_ok_iff {cursor : JobCursor} {snapshot eventSnapshot after : ℤ}
    {state : Option JobState} :
    codec.decodeJob cursor = .ok (snapshot, eventSnapshot, after, state) ↔
      (CursorContent.job snapshot eventSnapshot after state).Valid ∧
      ∃ payload, codec.decodePayload cursor.token jobCursorDomain = .ok payload ∧
        (CursorContent.job snapshot eventSnapshot after state).ReadFrom payload := by
  simp only [decodeJob, bind_eq_ok_iff, refuseIf_eq_ok_iff, Prod.exists,
    validatePosition_eq_ok_iff, textOrNull_eq_ok_iff, Bool.not_eq_false]
  constructor
  · rintro ⟨payload, hpayload, -, hkeys, s, a, ⟨hs, ha, hvalid⟩, e, z, ⟨he, hz, hevents⟩, filter,
      hfilter, hstate⟩
    obtain rfl : z = 0 := by simpa using hz.symm
    have hfields : s = snapshot ∧ e = eventSnapshot ∧ a = after ∧
        filter = state.map JobState.value := by
      cases filter with
      | none =>
          simp only [Except.ok.injEq, Prod.mk.injEq] at hstate
          obtain ⟨rfl, rfl, rfl, rfl⟩ := hstate
          exact ⟨rfl, rfl, rfl, rfl⟩
      | some value =>
          dsimp only at hstate
          cases hvalue : JobState.ofValue value with
          | none => simp [hvalue] at hstate
          | some found =>
              simp only [hvalue, Except.ok.injEq, Prod.mk.injEq] at hstate
              obtain ⟨rfl, rfl, rfl, rfl⟩ := hstate
              have hname := List.find?_some hvalue
              exact ⟨rfl, rfl, rfl, by simpa using (of_decide_eq_true hname).symm⟩
    obtain ⟨rfl, rfl, rfl, rfl⟩ := hfields
    exact ⟨⟨hvalid, hevents⟩, payload, hpayload, hkeys, by
      simp [CursorContent.members, hs, ha, he, hfilter]⟩
  · rintro ⟨⟨hvalid, hevents⟩, payload, hpayload, hkeys, hfields⟩
    simp only [CursorContent.members, List.forall_mem_cons, List.not_mem_nil, false_implies,
      implies_true, and_true] at hfields
    obtain ⟨ha, he, hfilter, hs⟩ := hfields
    refine ⟨payload, hpayload, (), hkeys, snapshot, after, ⟨hs, ha, hvalid⟩, eventSnapshot, 0,
      ⟨he, rfl, hevents⟩, state.map JobState.value, hfilter, ?_⟩
    cases state <;> simp

theorem decodeEvent_eq_ok_iff {cursor : EventCursor} {snapshot after : ℤ} {jobId : Option String} :
    codec.decodeEvent cursor = .ok (snapshot, after, jobId) ↔
      (CursorContent.event snapshot after jobId).Valid ∧
      ∃ payload, codec.decodePayload cursor.token eventCursorDomain = .ok payload ∧
        (CursorContent.event snapshot after jobId).ReadFrom payload := by
  have hread : ∀ payload : List (String × Json F),
      (CursorContent.event snapshot after jobId).ReadFrom payload ↔ _ :=
    fun payload => readFrom_filter_iff payload rfl
  simp only [decodeEvent, bind_eq_ok_iff, Prod.exists, decodeToken_eq_ok_iff, hread]
  constructor
  · rintro ⟨s, a, o, ⟨payload, hpayload, hkeys, hs, ha, ho, hvalid⟩, hrest⟩
    cases o with
    | none =>
        simp only [Except.ok.injEq, Prod.mk.injEq] at hrest
        obtain ⟨rfl, rfl, rfl⟩ := hrest
        exact ⟨⟨hvalid, fun _ heq => by cases heq⟩, payload, hpayload, hkeys, hs, ha, ho⟩
    | some id =>
        simp only [bind_eq_ok_iff, mapError_eq_ok_iff, exists_const, requireIdentifier_eq_ok_iff,
          Except.ok.injEq, Prod.mk.injEq] at hrest
        obtain ⟨hid, rfl, rfl, rfl⟩ := hrest
        exact ⟨⟨hvalid, by simpa using hid⟩, payload, hpayload, hkeys, hs, ha, ho⟩
  · rintro ⟨⟨hvalid, hid⟩, payload, hpayload, hkeys, hs, ha, ho⟩
    refine ⟨snapshot, after, jobId, ⟨payload, hpayload, hkeys, hs, ha, ho, hvalid⟩, ?_⟩
    cases jobId with
    | none => rfl
    | some id =>
        have hok : requireIdentifier id "cursor job_id" = .ok () :=
          requireIdentifier_eq_ok_iff.mpr (hid id rfl)
        simp only [hok, Except.mapError, ok_bind]

theorem decodeRun_eq_ok_iff {cursor : RunCursor} {snapshot after : ℤ} {filter : Option String} :
    codec.decodeRun cursor = .ok (snapshot, after, filter) ↔
      (CursorContent.run snapshot after filter).Valid ∧
      ∃ payload, codec.decodePayload cursor.token runCursorDomain = .ok payload ∧
        (CursorContent.run snapshot after filter).ReadFrom payload := by
  have hread : ∀ payload : List (String × Json F),
      (CursorContent.run snapshot after filter).ReadFrom payload ↔ _ :=
    fun payload => readFrom_filter_iff payload rfl
  simp only [decodeRun, bind_eq_ok_iff, Prod.exists, decodeToken_eq_ok_iff, hread]
  constructor
  · rintro ⟨s, a, o, ⟨payload, hpayload, hkeys, hs, ha, ho, hvalid⟩, hrest⟩
    cases o with
    | none =>
        simp only [Except.ok.injEq, Prod.mk.injEq] at hrest
        obtain ⟨rfl, rfl, rfl⟩ := hrest
        exact ⟨⟨hvalid, fun _ heq => by cases heq⟩, payload, hpayload, hkeys, hs, ha, ho⟩
    | some text =>
        simp only [bind_eq_ok_iff, mapError_eq_ok_iff, exists_const, boundedText_eq_ok_iff,
          Except.ok.injEq, Prod.mk.injEq] at hrest
        obtain ⟨htext, rfl, rfl, rfl⟩ := hrest
        exact ⟨⟨hvalid, by simpa using htext⟩, payload, hpayload, hkeys, hs, ha, ho⟩
  · rintro ⟨⟨hvalid, htext⟩, payload, hpayload, hkeys, hs, ha, ho⟩
    refine ⟨snapshot, after, filter, ⟨payload, hpayload, hkeys, hs, ha, ho, hvalid⟩, ?_⟩
    cases filter with
    | none => rfl
    | some text =>
        have hok : boundedText text "cursor filter" 128 = .ok () :=
          boundedText_eq_ok_iff.mpr (htext text rfl)
        simp only [hok, Except.mapError, ok_bind]

theorem decodeArtifact_eq_ok_iff {cursor : ArtifactCursor} {snapshot after : ℤ} {runId : String} :
    codec.decodeArtifact cursor = .ok (snapshot, after, runId) ↔
      (CursorContent.artifact snapshot after runId).Valid ∧
      ∃ payload, codec.decodePayload cursor.token artifactCursorDomain = .ok payload ∧
        (CursorContent.artifact snapshot after runId).ReadFrom payload := by
  have hread : ∀ payload : List (String × Json F),
      (CursorContent.artifact snapshot after runId).ReadFrom payload ↔
        Json.hasKeys ["after", "filter", "snapshot"] payload = true ∧
        fieldOf payload "snapshot" = .int snapshot ∧ fieldOf payload "after" = .int after ∧
          fieldOf payload "filter" = ofText (some runId) :=
    fun payload => readFrom_filter_iff payload rfl
  simp only [decodeArtifact, bind_eq_ok_iff, Prod.exists, decodeToken_eq_ok_iff, hread]
  constructor
  · rintro ⟨s, a, o, ⟨payload, hpayload, hkeys, hs, ha, ho, hvalid⟩, hrest⟩
    cases o with
    | none => cases hrest
    | some id =>
        simp only [bind_eq_ok_iff, mapError_eq_ok_iff, exists_const, requireIdentifier_eq_ok_iff,
          Except.ok.injEq, Prod.mk.injEq] at hrest
        obtain ⟨hid, rfl, rfl, rfl⟩ := hrest
        exact ⟨⟨hvalid, hid⟩, payload, hpayload, hkeys, hs, ha, ho⟩
  · rintro ⟨⟨hvalid, hid⟩, payload, hpayload, hkeys, hs, ha, ho⟩
    refine ⟨snapshot, after, some runId, ⟨payload, hpayload, hkeys, hs, ha, ho, hvalid⟩, ?_⟩
    have hok : requireIdentifier runId "cursor run_id" = .ok () :=
      requireIdentifier_eq_ok_iff.mpr hid
    simp only [hok, Except.mapError, ok_bind]

theorem decodeArtifactQuery_eq_ok_iff {cursor : ArtifactCursor} {snapshot after : ℤ}
    {runId : String} {role : Option String} :
    codec.decodeArtifactQuery cursor = .ok (snapshot, after, runId, role) ↔
      (CursorContent.artifactQuery snapshot after runId role).Valid ∧
      ∃ payload, codec.decodePayload cursor.token artifactQueryCursorDomain = .ok payload ∧
        (CursorContent.artifactQuery snapshot after runId role).ReadFrom payload := by
  simp only [decodeArtifactQuery, bind_eq_ok_iff, refuseIf_eq_ok_iff, Prod.exists,
    validatePosition_eq_ok_iff, Bool.not_eq_false]
  constructor
  · rintro ⟨payload, hpayload, -, hkeys, s, a, ⟨hs, ha, hvalid⟩, hrest⟩
    cases hrun : fieldOf payload "run_id" with
    | str id =>
        simp only [hrun, bind_eq_ok_iff, mapError_eq_ok_iff, textOrNull_eq_ok_iff, exists_const,
          requireIdentifier_eq_ok_iff, Except.ok.injEq, Prod.mk.injEq] at hrest
        obtain ⟨o, ho, ⟨⟩, ⟨hid, hrole⟩, rfl, rfl, rfl, rfl⟩ := hrest
        refine ⟨⟨hvalid, hid, fun name hname => ?_⟩, payload, hpayload, hkeys, by
          simp [CursorContent.members, hs, ha, ho, hrun]⟩
        cases hname
        exact requireIdentifier_eq_ok_iff.mp hrole
    | _ => simp [hrun] at hrest
  · rintro ⟨⟨hvalid, hid, hrole⟩, payload, hpayload, hkeys, hfields⟩
    simp only [CursorContent.members, List.forall_mem_cons, List.not_mem_nil, false_implies,
      implies_true, and_true] at hfields
    obtain ⟨ha, hroleField, hrun, hs⟩ := hfields
    refine ⟨payload, hpayload, (), hkeys, snapshot, after, ⟨hs, ha, hvalid⟩, ?_⟩
    have hok : requireIdentifier runId "cursor run_id" = .ok () :=
      requireIdentifier_eq_ok_iff.mpr hid
    have hread : ∀ error, textOrNull error (fieldOf payload "role") = .ok role :=
      fun error => textOrNull_eq_ok_iff.mpr hroleField
    simp only [hrun, hread, hok, ok_bind]
    cases role with
    | none => rfl
    | some name =>
        have hname : requireIdentifier name "cursor artifact role" = .ok () :=
          requireIdentifier_eq_ok_iff.mpr (hrole name rfl)
        simp only [hname, Except.mapError, ok_bind]

/-- A decoder accepts the payloads of its kind. -/
theorem decode_eq_ok_iff {token : CursorToken} {kind : CursorKind} {content : CursorContent} :
    codec.decode token kind = .ok content ↔ content.kind = kind ∧ content.Valid ∧
      ∃ payload, codec.decodePayload token kind.domain = .ok payload ∧
        content.ReadFrom payload := by
  constructor
  · intro h
    cases kind with
    | job =>
        obtain ⟨⟨s, e, a, state⟩, hdecode, rfl⟩ := map_eq_ok_iff.mp h
        exact ⟨rfl, (codec.decodeJob_eq_ok_iff).mp hdecode⟩
    | event =>
        obtain ⟨⟨s, a, filter⟩, hdecode, rfl⟩ := map_eq_ok_iff.mp h
        exact ⟨rfl, (codec.decodeEvent_eq_ok_iff).mp hdecode⟩
    | run =>
        obtain ⟨⟨s, a, filter⟩, hdecode, rfl⟩ := map_eq_ok_iff.mp h
        exact ⟨rfl, (codec.decodeRun_eq_ok_iff).mp hdecode⟩
    | artifact =>
        obtain ⟨⟨s, a, runId⟩, hdecode, rfl⟩ := map_eq_ok_iff.mp h
        exact ⟨rfl, (codec.decodeArtifact_eq_ok_iff).mp hdecode⟩
    | artifactQuery =>
        obtain ⟨⟨s, a, runId, role⟩, hdecode, rfl⟩ := map_eq_ok_iff.mp h
        exact ⟨rfl, (codec.decodeArtifactQuery_eq_ok_iff).mp hdecode⟩
  · rintro ⟨rfl, h⟩
    cases content with
    | job s e a state => exact map_eq_ok_iff.mpr ⟨_, (codec.decodeJob_eq_ok_iff).mpr h, rfl⟩
    | event s a filter => exact map_eq_ok_iff.mpr ⟨_, (codec.decodeEvent_eq_ok_iff).mpr h, rfl⟩
    | run s a filter => exact map_eq_ok_iff.mpr ⟨_, (codec.decodeRun_eq_ok_iff).mpr h, rfl⟩
    | artifact s a runId =>
        exact map_eq_ok_iff.mpr ⟨_, (codec.decodeArtifact_eq_ok_iff).mpr h, rfl⟩
    | artifactQuery s a runId role =>
        exact map_eq_ok_iff.mpr ⟨_, (codec.decodeArtifactQuery_eq_ok_iff).mpr h, rfl⟩

/-! ### Encoding -/

omit [PyRuntime] [PyFloat F] [FloatText F] in
theorem exists_validatePosition_iff {snapshot after : ℤ} :
    (∃ position, validatePosition (.int snapshot : Json F) (.int after) = .ok position) ↔
      ValidPosition snapshot after := by
  simp [validatePosition_eq_ok_iff]

/-- An encoder accepts the contents of its kind whose payload it can write. -/
theorem encode_eq_ok_iff {content : CursorContent} {token : CursorToken} :
    codec.encode content = .ok token ↔ content.Valid ∧
      codec.encodeToken content.kind.domain (.obj (content.members F)) = .ok token := by
  cases content with
  | job s e a state =>
      simp only [encode, encodeJob, map_eq_ok_iff, bind_eq_ok_iff, Except.ok.injEq,
        CursorContent.Valid, ← exists_validatePosition_iff (F := F)]
      constructor
      · rintro ⟨_, ⟨p, hp, q, hq, _, hfound, rfl⟩, rfl⟩
        exact ⟨⟨⟨p, hp⟩, q, hq⟩, hfound⟩
      · rintro ⟨⟨⟨p, hp⟩, q, hq⟩, hfound⟩
        exact ⟨_, ⟨p, hp, q, hq, token, hfound, rfl⟩, rfl⟩
  | event s a jobId =>
      cases jobId with
      | none =>
          simp only [encode, encodeEvent, map_eq_ok_iff, bind_eq_ok_iff, Except.ok.injEq,
            CursorContent.Valid, ← exists_validatePosition_iff (F := F)]
          constructor
          · rintro ⟨_, ⟨p, hp, _, hfound, rfl⟩, rfl⟩
            exact ⟨⟨⟨p, hp⟩, fun _ heq => by cases heq⟩, hfound⟩
          · rintro ⟨⟨⟨p, hp⟩, -⟩, hfound⟩
            exact ⟨_, ⟨p, hp, token, hfound, rfl⟩, rfl⟩
      | some id =>
          simp only [encode, encodeEvent, map_eq_ok_iff, bind_eq_ok_iff, Except.ok.injEq,
            CursorContent.Valid, ← exists_validatePosition_iff (F := F),
            requireIdentifier_eq_ok_iff, exists_const]
          constructor
          · rintro ⟨_, ⟨p, hp, hid, _, hfound, rfl⟩, rfl⟩
            exact ⟨⟨⟨p, hp⟩, by simpa using hid⟩, hfound⟩
          · rintro ⟨⟨⟨p, hp⟩, hid⟩, hfound⟩
            exact ⟨_, ⟨p, hp, hid id rfl, token, hfound, rfl⟩, rfl⟩
  | run s a filter =>
      cases filter with
      | none =>
          simp only [encode, encodeRun, map_eq_ok_iff, bind_eq_ok_iff, Except.ok.injEq,
            CursorContent.Valid, ← exists_validatePosition_iff (F := F)]
          constructor
          · rintro ⟨_, ⟨p, hp, _, hfound, rfl⟩, rfl⟩
            exact ⟨⟨⟨p, hp⟩, fun _ heq => by cases heq⟩, hfound⟩
          · rintro ⟨⟨⟨p, hp⟩, -⟩, hfound⟩
            exact ⟨_, ⟨p, hp, token, hfound, rfl⟩, rfl⟩
      | some text =>
          simp only [encode, encodeRun, map_eq_ok_iff, bind_eq_ok_iff, Except.ok.injEq,
            CursorContent.Valid, ← exists_validatePosition_iff (F := F), boundedText_eq_ok_iff,
            exists_const]
          constructor
          · rintro ⟨_, ⟨p, hp, htext, _, hfound, rfl⟩, rfl⟩
            exact ⟨⟨⟨p, hp⟩, by simpa using htext⟩, hfound⟩
          · rintro ⟨⟨⟨p, hp⟩, htext⟩, hfound⟩
            exact ⟨_, ⟨p, hp, htext text rfl, token, hfound, rfl⟩, rfl⟩
  | artifact s a runId =>
      simp only [encode, encodeArtifact, map_eq_ok_iff, bind_eq_ok_iff, Except.ok.injEq,
        CursorContent.Valid, ← exists_validatePosition_iff (F := F), requireIdentifier_eq_ok_iff,
        exists_const]
      constructor
      · rintro ⟨_, ⟨p, hp, hid, _, hfound, rfl⟩, rfl⟩
        exact ⟨⟨⟨p, hp⟩, hid⟩, hfound⟩
      · rintro ⟨⟨⟨p, hp⟩, hid⟩, hfound⟩
        exact ⟨_, ⟨p, hp, hid, token, hfound, rfl⟩, rfl⟩
  | artifactQuery s a runId role =>
      cases role with
      | none =>
          simp only [encode, encodeArtifactQuery, map_eq_ok_iff, bind_eq_ok_iff, Except.ok.injEq,
            CursorContent.Valid, ← exists_validatePosition_iff (F := F),
            requireIdentifier_eq_ok_iff, exists_const]
          constructor
          · rintro ⟨_, ⟨p, hp, hid, _, hfound, rfl⟩, rfl⟩
            exact ⟨⟨⟨p, hp⟩, hid, fun _ heq => by cases heq⟩, hfound⟩
          · rintro ⟨⟨⟨p, hp⟩, hid, -⟩, hfound⟩
            exact ⟨_, ⟨p, hp, hid, token, hfound, rfl⟩, rfl⟩
      | some name =>
          simp only [encode, encodeArtifactQuery, map_eq_ok_iff, bind_eq_ok_iff, Except.ok.injEq,
            CursorContent.Valid, ← exists_validatePosition_iff (F := F),
            requireIdentifier_eq_ok_iff, exists_const]
          constructor
          · rintro ⟨_, ⟨p, hp, hid, hname, _, hfound, rfl⟩, rfl⟩
            exact ⟨⟨⟨p, hp⟩, hid, by simpa using hname⟩, hfound⟩
          · rintro ⟨⟨⟨p, hp⟩, hid, hname⟩, hfound⟩
            exact ⟨_, ⟨p, hp, hid, hname name rfl, token, hfound, rfl⟩, rfl⟩

end CursorCodec

end Tracking
