import SignalFoundry.Lattice.Governance.Runs

/-!
# Idempotency keys

An event appended under a key is found again under it, whatever has been committed in
between. An assignment and a freeze look at the head before they look at the key, so
neither of them is taken twice: a repeated assignment is stale, a repeated freeze finds
the lane frozen or its head ahead of the event.
-/

namespace Governance

open Fallible

section Calls

variable [PyRuntime] {F : Type} [PyFloat F] [FloatText F]

/-- A call that writes, with events of any kind. -/
inductive Write (F : Type) where
  | register (lane : GovernanceLane) (now : Shadow.Instant)
  | append (laneIdentity : String) (kind : EventKind) (payload : Payload F) (now : Shadow.Instant)
      (idempotencyKey : Option String)
  | assign (laneIdentity championRevision : String) (expectedGeneration : ℤ)
      (expectedChampion : Option String) (now : Shadow.Instant) (idempotencyKey : Option String)
  | freeze (laneIdentity : String) (trigger : FreezeTrigger) (detail : String)
      (now : Shadow.Instant) (idempotencyKey : Option String)

/-- An assignment of a lane under a key with this digest. -/
def Write.AssignsUnder (laneIdentity digest : String) : Write F → Prop
  | .assign lane _ _ _ _ idempotencyKey =>
      lane = laneIdentity ∧ idempotencyKey.mapM idempotencyDigest = .ok (some digest)
  | _ => False

namespace Store

/-- The transaction of a call. -/
def perform (s : Store) : Write F → Except GovernanceError Store
  | .register lane now => s.registerLane F lane now
  | .append laneIdentity kind payload now idempotencyKey =>
      (s.appendEvent laneIdentity kind payload now idempotencyKey).map Prod.snd
  | .assign laneIdentity championRevision expectedGeneration expectedChampion now idempotencyKey =>
      s.applyAssignment F laneIdentity championRevision expectedGeneration expectedChampion now
        idempotencyKey
  | .freeze laneIdentity trigger detail now idempotencyKey =>
      s.freeze F laneIdentity trigger detail now idempotencyKey

/-- The tables after a call; one that raises is rolled back. -/
def wrote (s : Store) (write : Write F) : Store := (s.perform write).toOption.getD s

def writes (s : Store) (calls : List (Write F)) : Store := calls.foldl wrote s

end Store

variable {s s' : Store} {laneIdentity digest : String} {row : EventRow}

/-! ## What a call does -/

theorem wrote_cases (s : Store) (write : Write F) :
    (∃ s', s.perform write = .ok s' ∧ s.wrote write = s') ∨ s.wrote write = s := by
  rw [Store.wrote]
  cases hperform : s.perform write with
  | error e => exact .inr rfl
  | ok s' => exact .inl ⟨s', rfl, rfl⟩

/-- What every committed call keeps holds after a run. -/
theorem Store.writes_induction {P : Store → Prop} {calls : List (Write F)}
    (hkeeps : ∀ write ∈ calls, ∀ s s', s.perform write = .ok s' → P s → P s') (h : P s) :
    P (s.writes calls) := by
  induction calls generalizing s with
  | nil => exact h
  | cons write calls ih =>
      refine ih (fun other hother => hkeeps other (List.mem_cons_of_mem _ hother)) ?_
      rcases wrote_cases s write with ⟨s', hperform, hwrote⟩ | hwrote
      · rw [hwrote]
        exact hkeeps write List.mem_cons_self s s' hperform h
      · rwa [hwrote]

theorem appendLocked_of_appendEvent {kind : EventKind} {payload : Payload F} {now : Shadow.Instant}
    {idempotencyKey : Option String}
    (h : (s.appendEvent laneIdentity kind payload now idempotencyKey).map Prod.snd = .ok s') :
    ∃ event, s.appendLocked laneIdentity kind payload now idempotencyKey = .ok (event, s') := by
  rw [Store.appendEvent] at h
  cases hcall : s.appendLocked laneIdentity kind payload now idempotencyKey with
  | error e =>
      rw [hcall] at h
      cases h
  | ok result =>
      rw [hcall] at h
      obtain rfl := Except.ok.inj h
      exact ⟨result.1, rfl⟩

omit [PyFloat F] in
theorem events_register {lane : GovernanceLane} {now : Shadow.Instant}
    (h : s.registerLane F lane now = .ok s') : s'.events = s.events := by
  have hevents : ∀ row : LaneRow, (s.insertLane row).events = s.events := by
    intro row
    unfold Store.insertLane
    split <;> rfl
  rw [Store.registerLane] at h
  unfold Store.insertHead at h
  split at h
  · obtain rfl := Except.ok.inj h
    exact hevents _
  · simp only [bind_eq_ok_iff, refuseIf_eq_ok_iff, Except.ok.injEq] at h
    obtain ⟨-, -, rfl⟩ := h
    exact hevents _

/-- The rows of events are those of the helper, if a call uses it. -/
theorem events_perform {write : Write F} (h : s.perform write = .ok s') :
    s'.events = s.events ∨ ∃ (lane : String) (kind : EventKind) (payload : Payload F)
      (now : Shadow.Instant) (key : Option String) (event : GovernanceEvent F) (between : Store),
        s.appendLocked lane kind payload now key = .ok (event, between) ∧
          s'.events = between.events := by
  cases write with
  | register lane now => exact .inl (events_register h)
  | append lane kind payload now key =>
      obtain ⟨event, hevent⟩ := appendLocked_of_appendEvent h
      exact .inr ⟨lane, kind, payload, now, key, event, s', hevent, rfl⟩
  | assign lane champion generation expected now key =>
      obtain ⟨head, -, hmoves⟩ := applyAssignment_eq_ok h
      obtain ⟨event, between, happend, hevents, -⟩ := hmoves.head_after fun _ _ => rfl
      exact .inr ⟨lane, _, _, now, key, event, between, happend, hevents⟩
  | freeze lane trigger detail now key =>
      obtain ⟨head, -, hmoves⟩ := freeze_eq_ok h
      obtain ⟨event, between, happend, hevents, -⟩ := hmoves.head_after fun _ _ => rfl
      exact .inr ⟨lane, _, _, now, key, event, between, happend, hevents⟩

/-! ## Bound keys -/

/-- The rows of a reachable store: one for a sequence of a lane, with a payload that
reads back. -/
structure Kept (F : Type) [FloatText F] (s : Store) : Prop where
  sequenced : (s.events.map fun e => (e.laneIdentity, e.sequence)).Nodup
  readable : ∀ row ∈ s.events, ∃ v : PyValue F, PyValue.loads row.payload = some v

theorem Kept.perform [Json.LawfulFloatText F] {write : Write F} (h : Kept F s)
    (hperform : s.perform write = .ok s') : Kept F s' := by
  rcases events_perform hperform with hevents | ⟨lane, kind, payload, now, key, event, between,
    happend, hevents⟩
  · exact ⟨hevents ▸ h.sequenced, hevents ▸ h.readable⟩
  · obtain ⟨text, digest, row, hrecordable, -, -, hcases⟩ := appendLocked_cases happend
    rcases hcases with ⟨rfl, -⟩ | ⟨-, -, -, hrow, hfresh, rfl⟩
    · exact ⟨hevents ▸ h.sequenced, hevents ▸ h.readable⟩
    · obtain ⟨document, -, hloads⟩ := loads_payload F hrow.text
      constructor
      · rw [hevents, List.map_append, List.nodup_append]
        refine ⟨h.sequenced, List.nodup_singleton _, ?_⟩
        rintro a ha b hb rfl
        rw [List.map_singleton, List.mem_singleton, hrow.lane] at hb
        exact hfresh (hb ▸ ha)
      · rw [hevents]
        intro other hother
        rcases List.mem_append.mp hother with hother | hother
        · exact h.readable other hother
        · rw [List.mem_singleton.mp hother]
          exact ⟨_, hloads⟩

theorem Kept.writes [Json.LawfulFloatText F] (h : Kept F s) (calls : List (Write F)) :
    Kept F (s.writes calls) :=
  Store.writes_induction (fun _ _ _ _ hperform hkept => hkept.perform hperform) h

omit [PyRuntime] [PyFloat F] in
theorem kept_empty : Kept F {} := ⟨List.nodup_nil, fun _ h => absurd h List.not_mem_nil⟩

omit [PyRuntime] [PyFloat F] [FloatText F] in
theorem bound_eq_some {s : Store} (h : s.bound laneIdentity (some digest) = some row) :
    row ∈ s.events ∧ row.laneIdentity = laneIdentity ∧ row.idempotencyDigest = some digest := by
  have hfound := List.find?_some h
  simp only [decide_eq_true_eq] at hfound
  exact ⟨List.mem_of_find?_eq_some h, hfound.1, hfound.2⟩

omit [PyRuntime] [PyFloat F] [FloatText F] in
theorem bound_append {s s' : Store} (rows : List EventRow) (hevents : s'.events = s.events ++ rows)
    (h : s.bound laneIdentity (some digest) = some row) :
    s'.bound laneIdentity (some digest) = some row := by
  simp only [Store.bound] at h ⊢
  rw [hevents, List.find?_append, h]
  rfl

/-- A key stays bound to the row it is bound to. -/
theorem bound_perform {write : Write F} (hperform : s.perform write = .ok s')
    (h : s.bound laneIdentity (some digest) = some row) :
    s'.bound laneIdentity (some digest) = some row := by
  rcases events_perform hperform with hevents | ⟨lane, kind, payload, now, key, event, between,
    happend, hevents⟩
  · exact bound_append [] (by rw [hevents, List.append_nil]) h
  · obtain ⟨text, digest', row', -, -, -, hcases⟩ := appendLocked_cases happend
    rcases hcases with ⟨rfl, -⟩ | ⟨-, -, -, -, -, rfl⟩
    · exact bound_append [] (by rw [hevents, List.append_nil]) h
    · exact bound_append [row'] hevents h

theorem bound_writes (calls : List (Write F))
    (h : s.bound laneIdentity (some digest) = some row) :
    (s.writes calls).bound laneIdentity (some digest) = some row :=
  Store.writes_induction (fun _ _ _ _ hperform hbound => bound_perform hperform hbound) h

/-! ## An event that is appended again -/

omit [PyFloat F] [FloatText F] in
theorem digest_of_mapM {key : String} {digest : Option String}
    (h : (some key).mapM idempotencyDigest = .ok digest) :
    ∃ d, digest = some d ∧ idempotencyDigest key = .ok d := by
  rw [Option.mapM_some] at h
  cases hkey : idempotencyDigest key with
  | error e =>
      rw [hkey] at h
      cases h
  | ok d =>
      rw [hkey] at h
      exact ⟨d, (Except.ok.inj h).symm, rfl⟩

/-- A call under a key leaves the key bound to the row of its event. -/
theorem bound_of_appendLocked {kind : EventKind} {payload : Payload F} {now : Shadow.Instant}
    {key : String} {event : GovernanceEvent F}
    (h : s.appendLocked laneIdentity kind payload now (some key) = .ok (event, s')) :
    ∃ text digest row, Recordable payload text row.payloadDigest ∧
      idempotencyDigest key = .ok digest ∧ event.Records row ∧
        s'.bound laneIdentity (some digest) = some row := by
  obtain ⟨text, digest, row, hrecordable, hdigest, hrecords, hcases⟩ := appendLocked_cases h
  obtain ⟨d, rfl, hkey⟩ := digest_of_mapM hdigest
  refine ⟨text, d, row, hrecordable, hkey, hrecords, ?_⟩
  rcases hcases with ⟨rfl, hbound, -⟩ | ⟨hbound, hunder, -, hrow, -, rfl⟩
  · exact hbound
  · simp only [Store.bound] at hbound ⊢
    rw [List.find?_append, hbound]
    simp [hrow.lane, hunder]

/-- Appending again finds the row of the first time and changes nothing. -/
theorem append_again {kind : EventKind} {payload : Payload F} {now : Shadow.Instant} {key : String}
    {event : GovernanceEvent F} (hkept : Kept F s')
    (h : s.appendEvent laneIdentity kind payload now (some key) = .ok (event, s'))
    (between : List (Write F)) :
    ∃ row ∈ s'.events, event.Records row ∧ ∃ recorded, row.toEvent F = .ok recorded ∧
      (s'.writes between).appendEvent laneIdentity kind payload now (some key) =
        .ok (recorded, s'.writes between) := by
  obtain ⟨text, digest, row, hrecordable, hkey, hrecords, hbound⟩ := bound_of_appendLocked h
  have hmem := (bound_eq_some hbound).1
  obtain ⟨payload', hloads⟩ := hkept.readable row hmem
  have hevent : row.toEvent F = .ok ⟨row.laneIdentity, row.sequence, row.kind, payload',
      row.payloadDigest, row.previousDigest, row.chainDigest, row.recordedAt⟩ := by
    rw [EventRow.toEvent, hloads]
  have hdigest : row.payloadDigest = digestText text := by
    have hcanonical := hrecordable.digest
    rw [canonicalDigest, hrecordable.dumps] at hcanonical
    exact (Except.ok.inj hcanonical).symm
  have hmapped : (some key).mapM idempotencyDigest = .ok (some digest) := by
    rw [Option.mapM_some, hkey]
    rfl
  exact ⟨row, hmem, hrecords, _, hevent, appendLocked_bound hrecordable.dumps hrecordable.bytes
    hmapped (bound_writes between hbound) hdigest hevent⟩

/-! ## Heads -/

/-- A head that stays, or moves with the event that the helper returns. -/
theorem head_perform {write : Write F} {head : HeadRow} (h : s.perform write = .ok s')
    (hhead : s.headOf laneIdentity = some head) :
    s'.headOf laneIdentity = some head ∨
    ∃ (kind : EventKind) (payload : Payload F) (now : Shadow.Instant) (key : Option String)
      (event : GovernanceEvent F) (between : Store) (head' : HeadRow),
      s.appendLocked laneIdentity kind payload now key = .ok (event, between) ∧
        s'.headOf laneIdentity = some head' ∧ head.generation ≤ head'.generation ∧
        head.sequence ≤ head'.sequence ∧ head'.sequence = event.sequence ∧
        (head'.state = .frozen ∨ ∃ champion generation expected,
          write = .assign laneIdentity champion generation expected now key) := by
  cases write with
  | register lane now => exact .inl (headOf_register h hhead)
  | append lane kind payload now key => exact .inl ((headOf_append h laneIdentity).trans hhead)
  | assign lane champion generation expected now key =>
      obtain ⟨moved, -, hmoves⟩ := applyAssignment_eq_ok h
      obtain ⟨event, between, happend, -, hgeneration, hsequence, hself, hother⟩ :=
        hmoves.head_after fun _ _ => rfl
      by_cases heq : laneIdentity = lane
      · subst heq
        obtain rfl := Option.some.inj (hhead.symm.trans hmoves.1)
        exact .inr ⟨_, _, now, key, event, between, _, happend, hself, hgeneration, hsequence, rfl,
          .inr ⟨champion, generation, expected, rfl⟩⟩
      · exact .inl ((hother _ heq).trans hhead)
  | freeze lane trigger detail now key =>
      obtain ⟨moved, -, hmoves⟩ := freeze_eq_ok h
      obtain ⟨event, between, happend, -, hgeneration, hsequence, hself, hother⟩ :=
        hmoves.head_after fun _ _ => rfl
      by_cases heq : laneIdentity = lane
      · subst heq
        obtain rfl := Option.some.inj (hhead.symm.trans hmoves.1)
        exact .inr ⟨_, _, now, key, event, between, _, happend, hself, hgeneration, hsequence, rfl,
          .inl rfl⟩
      · exact .inl ((hother _ heq).trans hhead)

/-- A repeated assignment names a generation that the head has left. -/
theorem assign_again {champion : String} {generation : ℤ} {expected : Option String}
    {now : Shadow.Instant} {key : Option String}
    (h : s.applyAssignment F laneIdentity champion generation expected now key = .ok s')
    (between : List (Write F)) (s'' : Store) :
    (s'.writes between).applyAssignment F laneIdentity champion generation expected now key ≠
      .ok s'' := by
  obtain ⟨head, rfl, hmoves⟩ := applyAssignment_eq_ok h
  obtain ⟨event, -, -, -, -, -, hafter, -⟩ := hmoves.head_after fun _ _ => rfl
  have hpast : ∃ later, (s'.writes between).headOf laneIdentity = some later ∧
      head.generation < later.generation := by
    refine Store.writes_induction
      (P := fun s => ∃ later, s.headOf laneIdentity = some later ∧
        head.generation < later.generation) ?_ ⟨_, hafter, by simp [HeadRow.assigned]⟩
    rintro write - s s' hperform ⟨later, hlater, hlt⟩
    rcases head_perform hperform hlater with hsame | ⟨-, -, -, -, -, -, head', -, hhead', hle, -⟩
    · exact ⟨later, hsame, hlt⟩
    · exact ⟨head', hhead', hlt.trans_le hle⟩
  intro hsecond
  obtain ⟨later, hlater, hlt⟩ := hpast
  obtain ⟨head', hgeneration, hmoves'⟩ := applyAssignment_eq_ok hsecond
  obtain rfl := Option.some.inj (hlater.symm.trans hmoves'.1)
  omega

/-- The head of a lane since it was frozen with the event of a row: frozen, or ahead of
the row. -/
structure Passed (s : Store) (laneIdentity digest : String) (row : EventRow) : Prop where
  sequenced : (s.events.map fun e => (e.laneIdentity, e.sequence)).Nodup
  bound : s.bound laneIdentity (some digest) = some row
  head : ∃ head, s.headOf laneIdentity = some head ∧ row.sequence ≤ head.sequence ∧
    (head.state = .frozen ∨ row.sequence < head.sequence)

/-- An assignment under another key has an event after the row. -/
theorem Passed.sequence_ne {kind : EventKind} {payload : Payload F} {now : Shadow.Instant}
    {key : Option String} {event : GovernanceEvent F} {between : Store}
    (h : Passed s laneIdentity digest row)
    (happend : s.appendLocked laneIdentity kind payload now key = .ok (event, between))
    (hother : key.mapM idempotencyDigest ≠ .ok (some digest)) : event.sequence ≠ row.sequence := by
  obtain ⟨hmem, hlane, hunder⟩ := bound_eq_some h.bound
  intro heq
  obtain ⟨text, digest', row', -, hdigest', hrecords, hcases⟩ := appendLocked_cases happend
  have hsequence : row'.sequence = row.sequence := hrecords.sequence.symm.trans heq
  rcases hcases with ⟨-, hbound', -⟩ | ⟨-, -, -, -, hfresh, -⟩
  · cases digest' with
    | none => cases hbound'
    | some d =>
        obtain ⟨hmem', hlane', hunder'⟩ := bound_eq_some hbound'
        have hsame : row' = row := List.inj_on_of_nodup_map h.sequenced hmem' hmem
          (by rw [hlane', hlane, hsequence])
        rw [hsame, hunder] at hunder'
        exact hother (hdigest'.trans (by rw [hunder']))
  · refine hfresh (List.mem_map.mpr ⟨row, hmem, ?_⟩)
    rw [hlane, hsequence]

theorem Passed.perform {write : Write F} (h : Passed s laneIdentity digest row)
    (hkept : Kept F s') (hperform : s.perform write = .ok s')
    (hother : ¬ write.AssignsUnder laneIdentity digest) : Passed s' laneIdentity digest row := by
  refine ⟨hkept.sequenced, bound_perform hperform h.bound, ?_⟩
  obtain ⟨head, hhead, hle, hstate⟩ := h.head
  rcases head_perform hperform hhead with hsame | ⟨kind, payload, now, key, event, between, head',
    happend, hhead', -, hsequence, hevent, hmoved⟩
  · exact ⟨head, hsame, hle, hstate⟩
  · refine ⟨head', hhead', hle.trans hsequence, ?_⟩
    rcases hmoved with hfrozen | ⟨champion, generation, expected, rfl⟩
    · exact .inl hfrozen
    · have hne : event.sequence ≠ row.sequence :=
        h.sequence_ne happend fun hkey => hother ⟨rfl, hkey⟩
      exact .inr (by omega)

/-- A repeated freeze finds the lane frozen, or its event behind the head. -/
theorem freeze_again [Json.LawfulFloatText F] {trigger : FreezeTrigger} {detail key : String}
    {now : Shadow.Instant} (hkept : Kept F s')
    (h : s.freeze F laneIdentity trigger detail now (some key) = .ok s')
    {between : List (Write F)}
    (hother : ∀ digest, idempotencyDigest key = .ok digest →
      ∀ write ∈ between, ¬ write.AssignsUnder laneIdentity digest) (s'' : Store) :
    (s'.writes between).freeze F laneIdentity trigger detail now (some key) ≠ .ok s'' := by
  obtain ⟨head, -, hmoves⟩ := freeze_eq_ok h
  obtain ⟨event, middle, happend, hevents, -, -, hafter, -⟩ := hmoves.head_after fun _ _ => rfl
  obtain ⟨text, digest, row, -, hkey, hrecords, hbound⟩ := bound_of_appendLocked happend
  have hpassed : Passed s' laneIdentity digest row :=
    ⟨hkept.sequenced, bound_append [] (by rw [hevents, List.append_nil]) hbound, _, hafter,
      hrecords.sequence.ge, .inl rfl⟩
  have hlater : Kept F (s'.writes between) ∧ Passed (s'.writes between) laneIdentity digest row := by
    refine Store.writes_induction
      (P := fun s => Kept F s ∧ Passed s laneIdentity digest row) ?_ ⟨hkept, hpassed⟩
    rintro write hwrite s s' hperform ⟨hkept, hpassed⟩
    have hkept' := hkept.perform hperform
    exact ⟨hkept', hpassed.perform hkept' hperform (hother digest hkey write hwrite)⟩
  obtain ⟨-, -, hbound', head', hhead', -, hstate⟩ := hlater
  intro hsecond
  obtain ⟨found, hactive, hmoves'⟩ := freeze_eq_ok hsecond
  obtain rfl := Option.some.inj (hhead'.symm.trans hmoves'.1)
  have hahead : row.sequence < head'.sequence := by
    rcases hstate with hfrozen | hahead
    · rw [hactive] at hfrozen
      cases hfrozen
    · exact hahead
  obtain ⟨event', middle', happend', -, -, hforward, -⟩ := hmoves'.head_after fun _ _ => rfl
  obtain ⟨text', digest', row', -, hdigest', hrecords', hcases⟩ := appendLocked_cases happend'
  obtain ⟨d, rfl, hkey'⟩ := digest_of_mapM hdigest'
  obtain rfl := Except.ok.inj (hkey.symm.trans hkey')
  rcases hcases with ⟨-, hfound, -⟩ | ⟨hnone, -⟩
  · obtain rfl := Option.some.inj (hbound'.symm.trans hfound)
    have hsequence : head'.sequence ≤ event'.sequence := hforward
    rw [hrecords'.sequence] at hsequence
    omega
  · rw [hbound'] at hnone
    cases hnone

/-! ## Another payload -/

/-- The lane, the payload and the key of a call that records an event. -/
def Write.recordsUnder : Write F → Option (String × Payload F × Option String)
  | .register _ _ => none
  | .append laneIdentity _ payload _ key => some (laneIdentity, payload, key)
  | .assign laneIdentity champion generation expected _ key =>
      some (laneIdentity, Store.assignmentPayload F champion generation expected, key)
  | .freeze laneIdentity trigger detail _ key =>
      some (laneIdentity, Store.freezePayload F trigger detail, key)

theorem appendLocked_ne_ok {kind : EventKind} {payload : Payload F} {now : Shadow.Instant}
    {key : String} (hkey : idempotencyDigest key = .ok digest)
    (hbound : s.bound laneIdentity (some digest) = some row)
    (hne : canonicalDigest payload.dict ≠ .ok row.payloadDigest)
    (result : GovernanceEvent F × Store) :
    s.appendLocked laneIdentity kind payload now (some key) ≠ .ok result := by
  intro h
  obtain ⟨text, digest', row', hrecordable, hdigest', -, hcases⟩ := appendLocked_cases h
  obtain ⟨d, rfl, hkey'⟩ := digest_of_mapM hdigest'
  obtain rfl := Except.ok.inj (hkey.symm.trans hkey')
  rcases hcases with ⟨-, hfound, -⟩ | ⟨hnone, -⟩
  · obtain rfl := Option.some.inj (hbound.symm.trans hfound)
    exact hne hrecordable.digest
  · rw [hbound] at hnone
    cases hnone

/-- A key that is bound to one payload is refused for every other. -/
theorem perform_ne_ok {write : Write F} {payload : Payload F} {key : String}
    (hwrite : write.recordsUnder = some (laneIdentity, payload, some key))
    (hkey : idempotencyDigest key = .ok digest)
    (hbound : s.bound laneIdentity (some digest) = some row)
    (hne : canonicalDigest payload.dict ≠ .ok row.payloadDigest) (s' : Store) :
    s.perform write ≠ .ok s' := by
  intro h
  cases write with
  | register lane now => cases hwrite
  | append lane kind payload now key =>
      cases hwrite
      obtain ⟨event, hevent⟩ := appendLocked_of_appendEvent h
      exact appendLocked_ne_ok hkey hbound hne _ hevent
  | assign lane champion generation expected now key =>
      cases hwrite
      obtain ⟨head, -, -, event, between, happend, -⟩ := applyAssignment_eq_ok h
      exact appendLocked_ne_ok hkey hbound hne _ happend
  | freeze lane trigger detail now key =>
      cases hwrite
      obtain ⟨head, -, -, event, between, happend, -⟩ := freeze_eq_ok h
      exact appendLocked_ne_ok hkey hbound hne _ happend

/-- After any calls, an event appended under a key is found again and nothing changes; an
assignment and a freeze are not taken twice; another payload is refused under the key. -/
theorem keyed_writes [Json.LawfulFloatText F] (before between : List (Write F))
    (laneIdentity key : String) (now : Shadow.Instant) :
    (∀ kind payload event s',
      (Store.writes {} before).appendEvent laneIdentity kind payload now (some key) =
          .ok (event, s') →
        ∃ row ∈ s'.events, event.Records row ∧
          ∃ recorded : GovernanceEvent F, row.toEvent F = .ok recorded ∧
            (s'.writes between).appendEvent laneIdentity kind payload now (some key) =
              .ok (recorded, s'.writes between)) ∧
    (∀ champion generation expected s',
      (Store.writes {} before).applyAssignment F laneIdentity champion generation expected now
          (some key) = .ok s' →
        ∀ s'', (s'.writes between).applyAssignment F laneIdentity champion generation expected now
          (some key) ≠ .ok s'') ∧
    (∀ trigger detail s',
      (Store.writes {} before).freeze F laneIdentity trigger detail now (some key) = .ok s' →
        (∀ digest, idempotencyDigest key = .ok digest →
          ∀ write ∈ between, ¬ write.AssignsUnder laneIdentity digest) →
        ∀ s'', (s'.writes between).freeze F laneIdentity trigger detail now (some key) ≠ .ok s'') ∧
    ∀ (write : Write F) payload digest row,
      write.recordsUnder = some (laneIdentity, payload, some key) →
      idempotencyDigest key = .ok digest →
      (Store.writes {} before).bound laneIdentity (some digest) = some row →
      canonicalDigest payload.dict ≠ .ok row.payloadDigest →
        ∀ s', (Store.writes {} before).perform write ≠ .ok s' := by
  have hkept : Kept F (Store.writes {} before) := kept_empty.writes before
  refine ⟨?_, ?_, ?_, ?_⟩
  · intro kind payload event s' h
    have hperform : (Store.writes {} before).perform
        (.append laneIdentity kind payload now (some key)) = .ok s' := by
      rw [Store.perform, h]
      rfl
    exact append_again (hkept.perform hperform) h between
  · intro champion generation expected s' h s''
    exact assign_again h between s''
  · intro trigger detail s' h hother s''
    have hperform : (Store.writes {} before).perform
        (.freeze laneIdentity trigger detail now (some key) : Write F) = .ok s' := h
    exact freeze_again (hkept.perform hperform) h hother s''
  · intro write payload digest row hwrite hkey hbound hne s'
    exact perform_ne_ok hwrite hkey hbound hne s'

/-! ## Calls that succeed -/

variable {text text' key key' champion detail : String} {kind : EventKind} {payload : Payload F}
  {now : Shadow.Instant} {lane : GovernanceLane} {trigger : FreezeTrigger}

theorem appendLocked_after {last : EventRow} (hbound : s.bound laneIdentity (some digest) = none)
    (hlane : laneIdentity ∈ s.lanes.map LaneRow.laneIdentity)
    (hrecordable : Recordable payload text (digestText text))
    (hkey : idempotencyDigest key = .ok digest)
    (hlast : (s.eventsOf laneIdentity).getLast? = some last)
    (hinsert : s.insertEvent ⟨laneIdentity, last.sequence + 1, kind, text, digestText text,
      last.chainDigest, chainDigest last.chainDigest (digestText text) (last.sequence + 1) kind,
      some digest, now⟩ = .ok s') :
    s.appendLocked laneIdentity kind payload now (some key) =
      .ok (⟨laneIdentity, last.sequence + 1, kind, payload.dict, digestText text, last.chainDigest,
        chainDigest last.chainDigest (digestText text) (last.sequence + 1) kind, now⟩, s') := by
  have hmapped : (some key).mapM idempotencyDigest = .ok (some digest) := by
    rw [Option.mapM_some, hkey]
    rfl
  simp only [Store.appendLocked, hrecordable.dumps, refuseIf_of_not (not_lt.mpr hrecordable.bytes),
    hrecordable.digest, hmapped, ok_bind, hbound, refuseIf_of_not (not_not.mpr hlane), hlast,
    hinsert]

/-- The event that the helper returns freezes an active lane. -/
theorem freeze_appended {head : HeadRow} {event : GovernanceEvent F} {between : Store}
    {idempotencyKey : Option String} (hhead : s.headOf laneIdentity = some head)
    (hdetail : ¬ (PyText.isBlank detail = true ∨ 512 < detail.toList.length))
    (hactive : head.state = .active)
    (hchecked : (head.frozen trigger event.sequence now).Checked)
    (happend : s.appendLocked laneIdentity .freeze (Store.freezePayload F trigger detail) now
      idempotencyKey = .ok (event, between))
    (hforward : head.sequence ≤ event.sequence) :
    ∃ s', s.freeze F laneIdentity trigger detail now idempotencyKey = .ok s' := by
  have htransition : (head.state, LaneState.frozen) ∈ laneTransitions := by
    rw [hactive]
    decide
  have hback : ¬ ((head.frozen trigger event.sequence now).generation < head.generation ∨
      (head.frozen trigger event.sequence now).sequence < head.sequence) := by
    simp only [HeadRow.frozen]
    omega
  simp only [Store.freeze, refuseIf_of_not hdetail, hhead, assertLaneTransition,
    refuseIf_of_not (not_not.mpr htransition), happend, Store.updateHead, refuseIf_of_not hback,
    refuseIf_of_not (not_not.mpr hchecked), ok_bind]
  exact ⟨_, rfl⟩

/-- A first assignment of a registered lane, under a key of its own. -/
theorem applyAssignment_registered
    (hrecordable : Recordable (Store.assignmentPayload F champion 0 none) text (digestText text))
    (hlength : 2 ≤ text.toList.length ∧ text.toList.length ≤ 1048576)
    (hkey : idempotencyDigest key = .ok (digestText ("sl-governance-idempotency:" ++ key)))
    (hchampion : Shadow.isDigest champion = true) :
    (registered F lane now).applyAssignment F (lane.identity F) champion 0 none now (some key) =
      .ok (promoted F lane text key .assignment now champion) := by
  have hhead : (registered F lane now).headOf (lane.identity F) =
      some ⟨lane.identity F, .unassigned, none, 0, none, 0, now⟩ := by
    simp [Store.headOf, registered, Table.find]
  rw [applyAssignment_appended hhead hchampion rfl (by simp)
    (appendLocked_first rfl (by simp [registered]) hrecordable.dumps hrecordable.bytes hlength hkey)
    (Nat.zero_le _)]
  simp [promoted, recorded, registered, Table.update, HeadRow.assigned]

/-- A first freeze of the lane, under a key of its own. -/
theorem freeze_promoted
    (hrecordable : Recordable (Store.freezePayload F trigger detail) text' (digestText text'))
    (hlength : 2 ≤ text'.toList.length ∧ text'.toList.length ≤ 1048576)
    (hkey : idempotencyDigest key' = .ok (digestText ("sl-governance-idempotency:" ++ key')))
    (hchampion : Shadow.isDigest champion = true)
    (hdetail : ¬ (PyText.isBlank detail = true ∨ 512 < detail.toList.length))
    (hkeys : digestText ("sl-governance-idempotency:" ++ key') ≠
      digestText ("sl-governance-idempotency:" ++ key))
    (hlinks : chainDigest (firstRow (lane.identity F) text key kind now).chainDigest
      (digestText text') 2 .freeze ≠ (firstRow (lane.identity F) text key kind now).chainDigest) :
    ∃ s', (promoted F lane text key kind now champion).freeze F (lane.identity F) trigger detail now
      (some key') = .ok s' := by
  have hhead : (promoted F lane text key kind now champion).headOf (lane.identity F) =
      some ⟨lane.identity F, .active, some champion, 1, none, 1, now⟩ := by
    simp [Store.headOf, promoted, Table.find]
  have hrows : (promoted F lane text key kind now champion).eventsOf (lane.identity F) =
      [firstRow (lane.identity F) text key kind now] := by
    simp [Store.eventsOf, promoted, recorded, firstRow]
  have hbound : (promoted F lane text key kind now champion).bound (lane.identity F)
      (some (digestText ("sl-governance-idempotency:" ++ key'))) = none := by
    simp [Store.bound, promoted, recorded, firstRow, Ne.symm hkeys]
  have hinserted : ∃ between,
      (promoted F lane text key kind now champion).insertEvent ⟨lane.identity F, 2, .freeze, text',
        digestText text', (firstRow (lane.identity F) text key kind now).chainDigest,
        chainDigest (firstRow (lane.identity F) text key kind now).chainDigest (digestText text') 2
          .freeze,
        some (digestText ("sl-governance-idempotency:" ++ key')), now⟩ = .ok between := by
    have hgenesis : Shadow.isDigest (chainDigest genesisDigest (digestText text) 1 kind) = true :=
      isDigest_digestText _
    have hnext : Shadow.isDigest (chainDigest (chainDigest genesisDigest (digestText text) 1 kind)
        (digestText text') 2 .freeze) = true := isDigest_digestText _
    rw [firstRow] at hlinks
    exact ⟨_, by simp [Store.insertEvent, promoted, recorded, registered, firstRow, hlength,
      isDigest_digestText, hgenesis, hnext, hkeys, hlinks, refuseIf]; rfl⟩
  obtain ⟨between, hinsert⟩ := hinserted
  refine freeze_appended hhead hdetail rfl ?_ (appendLocked_after hbound
    (by simp [promoted, recorded, registered]) hrecordable hkey (by rw [hrows]; rfl) hinsert) ?_
  · simp [HeadRow.Checked, HeadRow.frozen, hchampion]
  · exact Nat.succ_le_succ (Nat.zero_le _)

omit [PyFloat F] in
theorem bound_promoted : (promoted F lane text key kind now champion).bound (lane.identity F)
    (some (digestText ("sl-governance-idempotency:" ++ key))) =
      some (firstRow (lane.identity F) text key kind now) := by
  simp [Store.bound, promoted, recorded, firstRow]

omit [PyFloat F] in
theorem registered_lane : lane.identity F ∈ (registered F lane now).lanes.map
    LaneRow.laneIdentity := by
  simp [registered]

theorem wrote_register
    (hkey : 2 ≤ (lane.key F).toList.length ∧ (lane.key F).toList.length ≤ 4096) :
    ({} : Store).wrote (.register lane now : Write F) = registered F lane now :=
  after_register hkey

end Calls

/-! ## The momentum lane -/

section Counterexample

open Platform

/-- The lane is registered, and given its champion under a key. -/
def keyedPromotion : List (Write ℚ) :=
  [.register momentum noon,
    .assign (momentum.identity ℚ) champion 0 none noon (some "promotion-1")]

theorem recordable_promotion : Recordable (Store.assignmentPayload ℚ champion 0 none)
    promotionText (digestText promotionText) := by
  have htext : (Store.assignmentPayload ℚ champion 0 none).dict.dumps = some promotionText := by
    decide +kernel
  exact ⟨htext, by decide +kernel, by rw [canonicalDigest, htext]⟩

theorem length_promotionText :
    2 ≤ promotionText.toList.length ∧ promotionText.toList.length ≤ 1048576 := by
  decide +kernel

theorem writes_registered : Store.writes {} [(.register momentum noon : Write ℚ)] =
    registered ℚ momentum noon := by
  rw [Store.writes, List.foldl_cons, List.foldl_nil, wrote_register length_momentum_key]

theorem assign_momentum :
    (registered ℚ momentum noon).applyAssignment ℚ (momentum.identity ℚ) champion 0 none noon
        (some "promotion-1") =
      .ok (promoted ℚ momentum promotionText "promotion-1" .assignment noon champion) :=
  applyAssignment_registered recordable_promotion length_promotionText
    (idempotencyDigest_eq_ok (by decide)) (by decide)

/-- The champion is assigned, and the same call under the same key is then refused. -/
theorem assignment_not_replayed : ∃ s',
    (Store.writes {} [(.register momentum noon : Write ℚ)]).applyAssignment ℚ (momentum.identity ℚ)
        champion 0 none noon (some "promotion-1") = .ok s' ∧
      ∀ s'', s'.applyAssignment ℚ (momentum.identity ℚ) champion 0 none noon
        (some "promotion-1") ≠ .ok s'' := by
  rw [writes_registered]
  exact ⟨_, assign_momentum, assign_again assign_momentum []⟩

def driftText : String := "\x7b\"detail\":\"drift\",\"trigger\":\"hard_integrity\"\x7d"

theorem recordable_drift : Recordable (Store.freezePayload ℚ .hardIntegrity "drift") driftText
    (digestText driftText) := by
  have htext : (Store.freezePayload ℚ .hardIntegrity "drift").dict.dumps = some driftText := by
    decide
  exact ⟨htext, by decide, by rw [canonicalDigest, htext]⟩

theorem writes_keyedPromotion : Store.writes {} keyedPromotion =
    promoted ℚ momentum promotionText "promotion-1" .assignment noon champion := by
  rw [Store.writes, keyedPromotion, List.foldl_cons, wrote_register length_momentum_key,
    List.foldl_cons, List.foldl_nil, Store.wrote, Store.perform, assign_momentum]
  rfl

theorem freeze_momentum : ∃ s',
    (promoted ℚ momentum promotionText "promotion-1" .assignment noon champion).freeze ℚ
      (momentum.identity ℚ) .hardIntegrity "drift" noon (some "freeze-1") = .ok s' := by
  have hkeys : digestText ("sl-governance-idempotency:" ++ "freeze-1") ≠
      digestText ("sl-governance-idempotency:" ++ "promotion-1") := by
    decide +kernel
  have hlinks : chainDigest (chainDigest genesisDigest (digestText promotionText) 1 .assignment)
      (digestText driftText) 2 .freeze ≠
        chainDigest genesisDigest (digestText promotionText) 1 .assignment := by
    decide +kernel
  exact freeze_promoted recordable_drift (by decide) (idempotencyDigest_eq_ok (by decide))
    (by decide) (by decide) hkeys hlinks

/-- The evidence is found again, the champion and the freeze are not taken twice, and the
key of the champion is refused for a freeze. -/
theorem keyed_writes_momentum :
    (∃ (s' : Store) (recorded : GovernanceEvent ℚ),
      (s'.writes [(.register momentum noon : Write ℚ)]).appendEvent (momentum.identity ℚ)
        .comparison (Store.assignmentPayload ℚ champion 0 none) noon (some "promotion-1") =
          .ok (recorded, s'.writes [(.register momentum noon : Write ℚ)])) ∧
      (∀ s', (promoted ℚ momentum promotionText "promotion-1" .assignment noon champion
        ).applyAssignment ℚ (momentum.identity ℚ) champion 0 none noon (some "promotion-1") ≠
          .ok s') ∧
      (∃ s', (promoted ℚ momentum promotionText "promotion-1" .assignment noon champion).freeze ℚ
          (momentum.identity ℚ) .hardIntegrity "drift" noon (some "freeze-1") = .ok s' ∧
        ∀ s'', s'.freeze ℚ (momentum.identity ℚ) .hardIntegrity "drift" noon (some "freeze-1") ≠
          .ok s'') ∧
      ∀ s', (Store.writes {} keyedPromotion).perform (.freeze (momentum.identity ℚ) .hardIntegrity
        "drift" noon (some "promotion-1") : Write ℚ) ≠ .ok s' := by
  have hkey : idempotencyDigest "promotion-1" =
      .ok (digestText ("sl-governance-idempotency:" ++ "promotion-1")) :=
    idempotencyDigest_eq_ok (by decide)
  refine ⟨?_, ?_, ?_, ?_⟩
  · have happend : ∃ event s', (Store.writes {} [(.register momentum noon : Write ℚ)]).appendEvent
        (momentum.identity ℚ) .comparison (Store.assignmentPayload ℚ champion 0 none) noon
          (some "promotion-1") = .ok (event, s') := by
      rw [writes_registered]
      exact ⟨_, _, appendLocked_first rfl registered_lane recordable_promotion.dumps
        recordable_promotion.bytes length_promotionText hkey⟩
    obtain ⟨event, s', happend⟩ := happend
    obtain ⟨row, -, -, recorded, -, hagain⟩ := (keyed_writes [.register momentum noon]
      [.register momentum noon] (momentum.identity ℚ) "promotion-1" noon).1 _ _ _ _ happend
    exact ⟨s', recorded, hagain⟩
  · have hassign := assign_momentum
    rw [← writes_registered] at hassign
    exact (keyed_writes [.register momentum noon] [] (momentum.identity ℚ) "promotion-1" noon).2.1
      champion 0 none _ hassign
  · obtain ⟨s', hfreeze⟩ := freeze_momentum
    have hlater := hfreeze
    rw [← writes_keyedPromotion] at hlater
    refine ⟨s', hfreeze, (keyed_writes keyedPromotion [] (momentum.identity ℚ) "freeze-1" noon
      ).2.2.1 .hardIntegrity "drift" s' hlater fun _ _ write hwrite => ?_⟩
    cases hwrite
  · have hbound : (Store.writes {} keyedPromotion).bound (momentum.identity ℚ)
        (some (digestText ("sl-governance-idempotency:" ++ "promotion-1"))) =
          some (firstRow (momentum.identity ℚ) promotionText "promotion-1" .assignment noon) := by
      rw [writes_keyedPromotion]
      exact bound_promoted
    have hdigests : digestText driftText ≠ digestText promotionText := by decide +kernel
    refine (keyed_writes keyedPromotion [] (momentum.identity ℚ) "promotion-1" noon).2.2.2 _ _ _ _
      rfl hkey hbound ?_
    rw [recordable_drift.digest]
    exact fun heq => hdigests (Except.ok.inj heq)

end Counterexample

end Governance
