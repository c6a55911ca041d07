import SignalFoundry.Lattice.Governance.Store
import SignalFoundry.Library.HashChain

/-!
# The head as a projection of the events

The head of a lane is what its events make of an unassigned lane, as long as no
assignment and no freeze is given an idempotency key under which its payload has
been recorded since the head last moved. The helper that appends an event then
returns the recorded one, whatever its kind, and the head moves without an event
of its own.
-/

/-! ## The chain of a lane

The rows of a lane form a chain when each of them carries the next sequence, the
digests that link it to the rows before it and a payload that reads back as it
was digested. A chain is what `verify_chain` accepts, and it grows by what
`_append_locked` inserts. -/

namespace Governance

open Fallible

variable [PyRuntime] (F : Type) [PyFloat F] [FloatText F]

/-- The digest of a row after the digest before it. -/
def link (previous : String) (row : EventRow) : String :=
  chainDigest previous row.payloadDigest row.sequence row.kind

/-- The chain digest after the rows of a lane. -/
def tip (rows : List EventRow) : String := HashChain.head link genesisDigest rows

/-- The payload reads back as a value with the recorded digest. -/
def EventRow.Faithful (row : EventRow) : Prop :=
  ∃ payload : PyValue F, PyValue.loads row.payload = some payload ∧
    canonicalDigest payload = .ok row.payloadDigest

inductive Chain : List EventRow → Prop
  | nil : Chain []
  | snoc {rows : List EventRow} {row : EventRow} : Chain rows → row.sequence = rows.length + 1 →
      row.previousDigest = tip rows → row.chainDigest = link (tip rows) row → row.Faithful F →
        Chain (rows ++ [row])

@[simp] theorem tip_nil : tip [] = genesisDigest := rfl

theorem tip_append_singleton (rows : List EventRow) (row : EventRow) :
    tip (rows ++ [row]) = link (tip rows) row :=
  HashChain.head_append_singleton link genesisDigest rows row

namespace Chain

variable {F} {rows before rest : List EventRow} {row : EventRow}

theorem last (h : Chain F (rows ++ [row])) : Chain F rows ∧ row.sequence = rows.length + 1 ∧
    row.previousDigest = tip rows ∧ row.chainDigest = link (tip rows) row ∧ row.Faithful F := by
  generalize hall : rows ++ [row] = all at h
  cases h with
  | nil => simp at hall
  | snoc hchain hsequence hprevious hlink hfaithful =>
      obtain ⟨rfl, hrow⟩ := List.append_inj' hall rfl
      obtain rfl := List.singleton_inj.mp hrow
      exact ⟨hchain, hsequence, hprevious, hlink, hfaithful⟩

/-- Every row of a chain extends the rows before it. -/
theorem middle (h : Chain F (before ++ row :: rest)) : Chain F (before ++ [row]) := by
  induction rest using List.reverseRecOn with
  | nil => exact h
  | append_singleton rest other ih =>
      rw [← List.cons_append, ← List.append_assoc] at h
      exact ih h.last.1

theorem sequences (h : Chain F rows) : rows.map (·.sequence) = List.range' 1 rows.length := by
  induction h with
  | nil => rfl
  | snoc _ hsequence _ _ _ ih =>
      rw [List.map_append, ih, List.length_append, List.length_singleton, List.map_singleton,
        hsequence, List.range'_concat, Nat.one_mul, Nat.add_comm]

theorem pairwise_sequence (h : Chain F rows) : rows.Pairwise (·.sequence ≤ ·.sequence) := by
  have hsorted : (rows.map (·.sequence)).Pairwise (· ≤ ·) := by
    rw [h.sequences]
    exact (List.pairwise_lt_range' 1).imp le_of_lt
  exact List.pairwise_map.mp hsorted

/-- What the next row is linked to. -/
theorem next_eq (h : Chain F rows) :
    (rows.getLast?.elim 1 (·.sequence + 1) = rows.length + 1) ∧
      rows.getLast?.elim genesisDigest (·.chainDigest) = tip rows := by
  cases h with
  | nil => exact ⟨rfl, rfl⟩
  | snoc _ hsequence _ hlink _ =>
      simp [hsequence, hlink, tip_append_singleton]

theorem verifyFrom_eq_ok (laneIdentity : String) (h : Chain F (before ++ rows)) :
    ∃ events, rows.mapM (EventRow.toEvent F) = .ok events ∧
      Store.verifyFrom laneIdentity (tip before) (before.length + 1) events = .ok () := by
  induction rows generalizing before with
  | nil => exact ⟨[], rfl, rfl⟩
  | cons row rows ih =>
      obtain ⟨-, hsequence, hprevious, hlink, payload, hloads, hdigest⟩ := h.middle.last
      have hnext : Chain F ((before ++ [row]) ++ rows) := by simpa using h
      obtain ⟨events, hevents, hverify⟩ := ih hnext
      rw [tip_append_singleton, ← hlink, List.length_append, List.length_singleton] at hverify
      refine ⟨⟨row.laneIdentity, row.sequence, row.kind, payload, row.payloadDigest,
        row.previousDigest, row.chainDigest, row.recordedAt⟩ :: events, ?_, ?_⟩
      · rw [List.mapM_cons, EventRow.toEvent, hloads, hevents]
        rfl
      · have hsame : chainDigest (tip before) row.payloadDigest row.sequence row.kind =
            row.chainDigest := hlink.symm
        rw [Store.verifyFrom, refuseIf_of_not (not_not.mpr hsequence), hdigest]
        simp only [ok_bind]
        rw [refuseIf_of_not (not_not.mpr rfl), refuseIf_of_not (not_not.mpr hprevious),
          refuseIf_of_not (not_not.mpr hsame)]
        exact hverify

end Chain

omit [PyRuntime] in
/-- A payload is read back as what its document stands for. -/
theorem loads_payload [Json.LawfulFloatText F] {payload : Payload F} {text : String}
    (htext : payload.dict.dumps = some text) :
    ∃ document, payload.dict.layOut = some document ∧
      PyValue.loads text = some (PyValue.ofJson document) := by
  obtain ⟨document, hdocument, rfl⟩ := Option.map_eq_some_iff.mp htext
  exact ⟨document, hdocument, PyValue.loads_write payload.unique hdocument⟩

omit [PyRuntime] [FloatText F] in
theorem member?_payload {payload : Payload F} {document : Json F}
    (hdocument : payload.dict.layOut = some document)
    {name : String} {v : PyValue F} (hv : (name, v) ∈ payload.members) :
    ∃ w, v.layOut = some w ∧
      (PyValue.ofJson document).member? name = some (PyValue.ofJson w) :=
  PyValue.member?_ofJson payload.unique hdocument
    (List.mem_map_of_mem (f := fun m : String × PyValue F => (PyKey.str m.1, m.2)) hv)

/-- Such a payload is recorded faithfully. -/
theorem faithful_of_textKeyed [Json.LawfulFloatText F] {payload : Payload F} {row : EventRow}
    (hkeys : payload.dict.TextKeyed) (htext : payload.dict.dumps = some row.payload)
    (hdigest : canonicalDigest payload.dict = .ok row.payloadDigest) : row.Faithful F := by
  obtain ⟨document, hdocument, hloads⟩ := loads_payload F htext
  refine ⟨PyValue.ofJson document, hloads, ?_⟩
  have hsame : (PyValue.ofJson document).dumps = payload.dict.dumps := by
    rw [PyValue.dumps, PyValue.dumps, PyValue.layOut_ofJson hkeys hdocument, hdocument]
  rw [canonicalDigest, hsame]
  exact hdigest

end Governance

namespace Governance

open Fallible

variable [PyRuntime] {F : Type} [PyFloat F] [FloatText F]

/-! ## What a call does -/

/-- The rows of a lane in the order of insertion. -/
def Store.rowsOf (s : Store) (laneIdentity : String) : List EventRow :=
  s.events.filter fun row => row.laneIdentity = laneIdentity

/-- A row that a call appends to a lane with these rows. -/
structure Appends (laneIdentity : String) (kind : EventKind) (payload : Payload F)
    (rows : List EventRow) (row : EventRow) : Prop where
  lane : row.laneIdentity = laneIdentity
  kind : row.kind = kind
  text : payload.dict.dumps = some row.payload
  digest : canonicalDigest payload.dict = .ok row.payloadDigest
  sequence : row.sequence = rows.getLast?.elim 1 (·.sequence + 1)
  previous : row.previousDigest = rows.getLast?.elim genesisDigest (·.chainDigest)
  chained : row.chainDigest = link row.previousDigest row

omit [PyRuntime] in
theorem insertEvent_eq_ok {s s' : Store} {row : EventRow} (h : s.insertEvent row = .ok s') :
    row.laneIdentity ∈ s.lanes.map LaneRow.laneIdentity ∧
      (row.laneIdentity, row.sequence) ∉ s.events.map (fun e => (e.laneIdentity, e.sequence)) ∧
      s' = { s with events := s.events ++ [row] } := by
  simp only [Store.insertEvent, bind_eq_ok_iff, refuseIf_eq_ok_iff, not_not,
    Except.ok.injEq] at h
  obtain ⟨_, hfresh, _, -, _, -, _, -, _, -, _, -, _, hlane, rfl⟩ := h
  exact ⟨hlane, hfresh, rfl⟩

/-- The event that a row describes, but for its payload. -/
structure GovernanceEvent.Records (event : GovernanceEvent F) (row : EventRow) : Prop where
  lane : event.laneIdentity = row.laneIdentity
  sequence : event.sequence = row.sequence
  kind : event.kind = row.kind
  payloadDigest : event.payloadDigest = row.payloadDigest
  previousDigest : event.previousDigest = row.previousDigest
  chainDigest : event.chainDigest = row.chainDigest
  recordedAt : event.recordedAt = row.recordedAt

omit [PyRuntime] [PyFloat F] in
theorem records_of_toEvent {row : EventRow} {event : GovernanceEvent F}
    (h : row.toEvent F = .ok event) : event.Records row := by
  rw [EventRow.toEvent] at h
  split at h
  · cases h
  · obtain rfl := Except.ok.inj h
    exact ⟨rfl, rfl, rfl, rfl, rfl, rfl, rfl⟩

/-- A payload that may be recorded, with its text and its digest. -/
structure Recordable (payload : Payload F) (text digest : String) : Prop where
  dumps : payload.dict.dumps = some text
  bytes : (PyText.encodeUtf8 text).length ≤ maxPayloadBytes
  digest : canonicalDigest payload.dict = .ok digest

/-- The helper finds the row that the key is bound to, or appends one under the key. -/
theorem appendLocked_cases {s s' : Store} {laneIdentity : String} {kind : EventKind}
    {payload : Payload F} {now : Shadow.Instant} {idempotencyKey : Option String}
    {event : GovernanceEvent F}
    (h : s.appendLocked laneIdentity kind payload now idempotencyKey = .ok (event, s')) :
    ∃ (text : String) (digest : Option String) (row : EventRow),
      Recordable payload text row.payloadDigest ∧
      idempotencyKey.mapM idempotencyDigest = .ok digest ∧ event.Records row ∧
      ((s' = s ∧ s.bound laneIdentity digest = some row ∧ row.toEvent F = .ok event) ∨
        (s.bound laneIdentity digest = none ∧ row.idempotencyDigest = digest ∧
          laneIdentity ∈ s.lanes.map LaneRow.laneIdentity ∧
          Appends laneIdentity kind payload (s.eventsOf laneIdentity) row ∧
          (laneIdentity, row.sequence) ∉ s.events.map (fun e => (e.laneIdentity, e.sequence)) ∧
          s' = { s with events := s.events ++ [row] })) := by
  rw [Store.appendLocked] at h
  split at h
  · cases h
  · next text htext =>
      simp only [bind_eq_ok_iff, refuseIf_eq_ok_iff, not_lt] at h
      obtain ⟨-, hbytes, payloadDigest, hpayload, digest, hdigest, h⟩ := h
      split at h
      · next row hrow =>
          simp only [bind_eq_ok_iff, refuseIf_eq_ok_iff, not_not, Except.ok.injEq] at h
          obtain ⟨-, hsame, found, hfound, heq⟩ := h
          obtain ⟨rfl, rfl⟩ := Prod.mk.inj heq
          exact ⟨text, digest, row, ⟨htext, hbytes, hsame ▸ hpayload⟩, hdigest,
            records_of_toEvent hfound, .inl ⟨rfl, hrow, hfound⟩⟩
      · next hbound =>
          simp only [bind_eq_ok_iff, refuseIf_eq_ok_iff, not_not, Except.ok.injEq] at h
          obtain ⟨-, hlane, inserted, hinserted, heq⟩ := h
          obtain ⟨rfl, rfl⟩ := Prod.mk.inj heq
          obtain ⟨-, hfresh, rfl⟩ := insertEvent_eq_ok hinserted
          refine ⟨text, digest, _, ⟨htext, hbytes, hpayload⟩, hdigest,
            ⟨rfl, rfl, rfl, rfl, rfl, rfl, rfl⟩, .inr ⟨hbound, rfl, hlane,
              ⟨rfl, rfl, htext, hpayload, ?_, ?_, rfl⟩, hfresh, rfl⟩⟩
          · cases (s.eventsOf laneIdentity).getLast? <;> rfl
          · cases (s.eventsOf laneIdentity).getLast? <;> rfl

/-- The helper returns a recorded event of the lane or appends one. -/
theorem appendLocked_eq_ok {s s' : Store} {laneIdentity : String} {kind : EventKind}
    {payload : Payload F} {now : Shadow.Instant} {idempotencyKey : Option String}
    {event : GovernanceEvent F}
    (h : s.appendLocked laneIdentity kind payload now idempotencyKey = .ok (event, s')) :
    (s' = s ∧ ∃ digest row, idempotencyKey.mapM idempotencyDigest = .ok digest ∧
      s.bound laneIdentity digest = some row ∧
        canonicalDigest payload.dict = .ok row.payloadDigest ∧ event.sequence = row.sequence) ∨
    (laneIdentity ∈ s.lanes.map LaneRow.laneIdentity ∧ ∃ row : EventRow,
      Appends laneIdentity kind payload (s.eventsOf laneIdentity) row ∧
        event.sequence = row.sequence ∧ s' = { s with events := s.events ++ [row] }) := by
  obtain ⟨text, digest, row, hrecordable, hdigest, hrecords, hcases⟩ := appendLocked_cases h
  rcases hcases with ⟨rfl, hbound, -⟩ | ⟨-, -, hlane, hrow, -, rfl⟩
  · exact .inl ⟨rfl, digest, row, hdigest, hbound, hrecordable.digest, hrecords.sequence⟩
  · exact .inr ⟨hlane, row, hrow, hrecords.sequence, rfl⟩

omit [PyRuntime] in
theorem updateHead_eq_ok {s s' : Store} {row : HeadRow} {change : HeadRow → HeadRow}
    (h : s.updateHead row change = .ok s') :
    (row.generation ≤ (change row).generation ∧ row.sequence ≤ (change row).sequence) ∧
      (change row).Checked ∧ s' = { s with
        heads := Table.update HeadRow.laneIdentity row.laneIdentity change s.heads } := by
  simp only [Store.updateHead, bind_eq_ok_iff, refuseIf_eq_ok_iff, not_or, not_lt, not_not,
    Except.ok.injEq] at h
  obtain ⟨-, hforward, -, hchecked, rfl⟩ := h
  exact ⟨hforward, hchecked, rfl⟩

/-- A call that moves the head of a lane: the change is made with the sequence of
the event that the helper returns. -/
def Moves (s : Store) (laneIdentity : String) (kind : EventKind) (payload : Payload F)
    (change : ℕ → HeadRow → HeadRow) (now : Shadow.Instant) (idempotencyKey : Option String)
    (row : HeadRow) (s' : Store) : Prop :=
  s.headOf laneIdentity = some row ∧ ∃ event between,
    s.appendLocked laneIdentity kind payload now idempotencyKey = .ok (event, between) ∧
      between.updateHead row (change event.sequence) = .ok s'

theorem applyAssignment_eq_ok {s s' : Store} {laneIdentity championRevision : String}
    {expectedGeneration : ℤ} {expectedChampion : Option String} {now : Shadow.Instant}
    {idempotencyKey : Option String}
    (h : s.applyAssignment F laneIdentity championRevision expectedGeneration expectedChampion now
      idempotencyKey = .ok s') :
    ∃ row, row.generation = expectedGeneration ∧
      Moves s laneIdentity .assignment
        (Store.assignmentPayload F championRevision expectedGeneration expectedChampion)
        (fun sequence => .assigned championRevision (expectedGeneration + 1) sequence now) now
        idempotencyKey row s' := by
  simp only [Store.applyAssignment, bind_eq_ok_iff] at h
  obtain ⟨-, -, -, -, h⟩ := h
  split at h
  · cases h
  · next row hrow =>
      simp only [bind_eq_ok_iff, refuseIf_eq_ok_iff, not_not] at h
      obtain ⟨-, rfl, -, -, -, -, ⟨event, between⟩, happend, hupdate⟩ := h
      exact ⟨row, rfl, hrow, event, between, happend, hupdate⟩

theorem freeze_eq_ok {s s' : Store} {laneIdentity detail : String} {trigger : FreezeTrigger}
    {now : Shadow.Instant} {idempotencyKey : Option String}
    (h : s.freeze F laneIdentity trigger detail now idempotencyKey = .ok s') :
    ∃ row, row.state = .active ∧
      Moves s laneIdentity .freeze (Store.freezePayload F trigger detail)
        (fun sequence => .frozen trigger sequence now) now idempotencyKey row s' := by
  simp only [Store.freeze, bind_eq_ok_iff] at h
  obtain ⟨-, -, h⟩ := h
  split at h
  · cases h
  · next row hrow =>
      simp only [bind_eq_ok_iff, assertLaneTransition, refuseIf_eq_ok_iff, not_not] at h
      obtain ⟨-, hactive, ⟨event, between⟩, happend, hupdate⟩ := h
      refine ⟨row, ?_, hrow, event, between, happend, hupdate⟩
      cases hstate : row.state <;> simp [laneTransitions, hstate] at hactive ⊢

/-- No event is recorded for the payload under the key since the head last
moved. -/
def Unbound (s : Store) (laneIdentity : String) (payload : Payload F)
    (idempotencyKey : Option String) : Prop :=
  ∀ digest row, idempotencyKey.mapM idempotencyDigest = .ok digest →
    s.bound laneIdentity digest = some row → canonicalDigest payload.dict = .ok row.payloadDigest →
      ∀ head, s.headOf laneIdentity = some head → row.sequence < head.sequence

/-- A head that moves without a recorded event does so with an event of its own. -/
theorem Moves.appends {s s' : Store} {laneIdentity : String} {kind : EventKind}
    {payload : Payload F} {change : ℕ → HeadRow → HeadRow} {now : Shadow.Instant}
    {idempotencyKey : Option String} {head : HeadRow}
    (h : Moves s laneIdentity kind payload change now idempotencyKey head s')
    (hsequence : ∀ n row, (change n row).sequence = n)
    (hunbound : Unbound s laneIdentity payload idempotencyKey) :
    ∃ row, Appends laneIdentity kind payload (s.eventsOf laneIdentity) row ∧
      head.generation ≤ (change row.sequence head).generation ∧
      (change row.sequence head).Checked ∧ s' = { s with
        events := s.events ++ [row]
        heads := Table.update HeadRow.laneIdentity laneIdentity (change row.sequence)
          s.heads } := by
  obtain ⟨hhead, event, between, happend, hupdate⟩ := h
  obtain ⟨⟨hgeneration, hforward⟩, hchecked, rfl⟩ := updateHead_eq_ok hupdate
  have hlane : head.laneIdentity = laneIdentity := Table.key_of_find hhead
  rcases appendLocked_eq_ok happend with
    ⟨rfl, digest, row, hdigest, hbound, hpayload, heq⟩ | ⟨-, row, hrow, heq, rfl⟩
  · -- the trigger refuses a head that would move back to an earlier event
    have hlt := hunbound digest row hdigest hbound hpayload head hhead
    rw [hsequence, heq] at hforward
    exact absurd hlt (not_lt.mpr hforward)
  · rw [heq] at hgeneration hchecked ⊢
    exact ⟨row, hrow, hgeneration, hchecked, by rw [hlane]⟩

/-! ## What the events make of a head -/

def HeadRow.projection (row : HeadRow) : Projection :=
  ⟨row.state, row.championRevision, row.generation, row.freezeTrigger⟩

/-- What `rebuild_head` makes of the rows of a lane. -/
def projectRows (F : Type) [FloatText F] (rows : List EventRow) :
    Except GovernanceError Projection := do
  let events ← rows.mapM (EventRow.toEvent F)
  events.foldlM Projection.after {}

/-- The head is what the rows of its lane make of it, and counts their
assignments. -/
structure Projects (F : Type) [FloatText F] (rows : List EventRow) (head : HeadRow) : Prop where
  projected : projectRows F rows = .ok head.projection
  counted : head.generation = rows.countP (·.kind = .assignment)

omit [PyRuntime] [PyFloat F] in
theorem projectRows_append_singleton {rows : List EventRow} {row : EventRow} {p q : Projection}
    {event : GovernanceEvent F} (hrows : projectRows F rows = .ok p)
    (hrow : row.toEvent F = .ok event) (hafter : p.after event = .ok q) :
    projectRows F (rows ++ [row]) = .ok q := by
  simp only [projectRows, bind_eq_ok_iff] at hrows ⊢
  obtain ⟨events, hevents, hfold⟩ := hrows
  refine ⟨events ++ [event], ?_, ?_⟩
  · rw [List.mapM_append, hevents, ok_bind, List.mapM_cons, hrow]
    rfl
  · rw [List.foldlM_append, hfold, ok_bind, List.foldlM_cons, hafter]
    rfl

section Reading

variable [Json.LawfulFloatText F] {s : Store} {laneIdentity : String} {rows : List EventRow}
  {row : EventRow} {head : HeadRow} {now : Shadow.Instant}

/-- The event of an appended row carries what was appended. -/
theorem Appends.toEvent_eq_ok {kind : EventKind} {payload : Payload F} {rows : List EventRow}
    (h : Appends laneIdentity kind payload rows row) :
    ∃ (event : GovernanceEvent F) (document : Json F), row.toEvent F = .ok event ∧
      event.kind = kind ∧ payload.dict.layOut = some document ∧
        event.payload = PyValue.ofJson document := by
  obtain ⟨document, hdocument, hloads⟩ := loads_payload F h.text
  refine ⟨⟨row.laneIdentity, row.sequence, row.kind, .ofJson document, row.payloadDigest,
    row.previousDigest, row.chainDigest, row.recordedAt⟩, document, ?_, h.kind, hdocument, rfl⟩
  rw [EventRow.toEvent, hloads]

theorem Projects.evidence {kind : EventKind} {payload : Payload F} {before : List EventRow}
    (h : Projects F rows head) (hkind : kind ≠ .assignment ∧ kind ≠ .freeze)
    (hrow : Appends laneIdentity kind payload before row) :
    Projects F (rows ++ [row]) head := by
  obtain ⟨event, document, hevent, heq, -, -⟩ := hrow.toEvent_eq_ok
  refine ⟨projectRows_append_singleton h.projected hevent ?_, ?_⟩
  · rw [Projection.after, heq]
    cases kind <;> simp at hkind ⊢
  · simp [h.counted, hrow.kind, hkind.1]

omit [PyRuntime] [PyFloat F] [FloatText F] [Json.LawfulFloatText F] in
theorem textKeyed_assignmentPayload (championRevision : String) (generation : ℤ)
    (champion : Option String) :
    (Store.assignmentPayload F championRevision generation champion).dict.TextKeyed := by
  cases champion <;>
    simp [Payload.dict, Store.assignmentPayload, PyValue.TextKeyed, PyValue.TextKeyedMembers,
      PyKey.isStr]

omit [PyRuntime] [PyFloat F] [FloatText F] [Json.LawfulFloatText F] in
theorem textKeyed_freezePayload (trigger : FreezeTrigger) (detail : String) :
    (Store.freezePayload F trigger detail).dict.TextKeyed := by
  simp [Payload.dict, Store.freezePayload, PyValue.TextKeyed, PyValue.TextKeyedMembers,
    PyKey.isStr]

theorem Projects.assignment {championRevision : String} {champion : Option String}
    {before : List EventRow} {sequence : ℕ} (h : Projects F rows head)
    (hrow : Appends laneIdentity .assignment
      (Store.assignmentPayload F championRevision head.generation champion) before row) :
    Projects F (rows ++ [row])
      (head.assigned championRevision (head.generation + 1) sequence now) := by
  obtain ⟨event, document, hevent, heq, hdocument, hpayload⟩ := hrow.toEvent_eq_ok
  obtain ⟨_, hchampion, htext⟩ := member?_payload F hdocument
    (show ("champion_revision", PyValue.str championRevision) ∈ _ from List.mem_cons_self)
  obtain ⟨_, hgeneration, hint⟩ := member?_payload F hdocument
    (show ("generation", PyValue.int (head.generation + 1)) ∈ _ from
      List.mem_cons_of_mem _ List.mem_cons_self)
  obtain rfl := Option.some.inj hchampion
  obtain ⟨-, hgeneration⟩ := Option.ite_none_right_eq_some.mp hgeneration
  obtain rfl := Option.some.inj hgeneration
  refine ⟨projectRows_append_singleton h.projected hevent ?_, ?_⟩
  · simp only [Projection.after, heq, hpayload, textMember, htext, intMember, hint, PyValue.ofJson,
      ok_bind]
    rfl
  · simp [HeadRow.assigned, h.counted, hrow.kind]

theorem Projects.freeze {trigger : FreezeTrigger} {detail : String} {before : List EventRow}
    {sequence : ℕ} (h : Projects F rows head)
    (hrow : Appends laneIdentity .freeze (Store.freezePayload F trigger detail) before row) :
    Projects F (rows ++ [row]) (head.frozen trigger sequence now) := by
  obtain ⟨event, document, hevent, heq, hdocument, hpayload⟩ := hrow.toEvent_eq_ok
  obtain ⟨_, hvalue, htext⟩ := member?_payload F hdocument
    (show ("trigger", PyValue.str trigger.value) ∈ _ from List.mem_cons_self)
  obtain rfl := Option.some.inj hvalue
  refine ⟨projectRows_append_singleton h.projected hevent ?_, ?_⟩
  · simp only [Projection.after, heq, hpayload, textMember, htext, PyValue.ofJson, ok_bind,
      FreezeTrigger.ofValue_value]
    rfl
  · simp [HeadRow.frozen, h.counted, hrow.kind]

end Reading

end Governance
