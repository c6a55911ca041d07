import SignalFoundry.Lattice.Governance.Sound
import SignalFoundry.Library.Platform

/-!
# Runs of the governance store

In a run of clean calls the chains verify, the heads are rebuilt as they are
stored and every head moves with an event of its own. An assignment whose payload
is bound to its key moves the head without one.
-/

namespace Governance

open Fallible

section Store

variable [PyRuntime] {F : Type} [PyFloat F] [FloatText F] {s s' : Store}

/-! ## What a reader finds -/

namespace Sound

variable {laneIdentity : String}

theorem loadEvents_eq_ok (h : Sound F s)
    (hlength : (s.eventsOf laneIdentity).length ≤ maxEventsPerQuery) :
    ∃ events, s.loadEvents F laneIdentity = .ok events ∧
      (s.rowsOf laneIdentity).mapM (EventRow.toEvent F) = .ok events ∧
      s.verifyChain F laneIdentity = .ok events.length := by
  have hchain : Chain F ([] ++ s.rowsOf laneIdentity) := h.chained laneIdentity
  obtain ⟨events, hevents, hverify⟩ := hchain.verifyFrom_eq_ok laneIdentity
  have hload : s.loadEvents F laneIdentity = .ok events := by
    rw [Store.loadEvents, refuseIf_of_not (not_lt.mpr hlength), ok_bind, h.eventsOf_eq, hevents]
  refine ⟨events, hload, hevents, ?_⟩
  rw [tip_nil, List.length_nil] at hverify
  rw [Store.verifyChain, hload, ok_bind, hverify, ok_bind]

theorem laneHead_eq_ok (h : Sound F s) {head : HeadRow}
    (hhead : s.headOf laneIdentity = some head) :
    ∃ found, s.laneHead laneIdentity = .ok found ∧ LaneHead.make laneIdentity head.state
      head.championRevision head.generation head.freezeTrigger = .ok found := by
  obtain ⟨⟨hdigest, hcounted, hunassigned, hactive, hfrozen⟩, hidentified⟩ :=
    h.coherent head (Table.mem_of_find hhead)
  rw [show head.laneIdentity = laneIdentity from Table.key_of_find hhead] at hidentified
  have hchampion : head.championRevision ≠ some "" := by
    intro heq
    rw [heq] at hdigest
    exact absurd hdigest (by decide)
  obtain ⟨found, hfound⟩ := LaneHead.make_eq_ok hidentified hcounted hunassigned
    (fun hstate => ⟨hactive hstate, hchampion⟩) hfrozen
  refine ⟨found, ?_, hfound⟩
  rw [Store.laneHead, hhead]
  exact hfound

/-- The head that is rebuilt is the one that is stored. -/
theorem rebuildHead_eq_ok (h : Sound F s) {head : HeadRow}
    (hhead : s.headOf laneIdentity = some head)
    (hlength : (s.eventsOf laneIdentity).length ≤ maxEventsPerQuery) :
    ∃ found, s.rebuildHead F laneIdentity = .ok found ∧ s.laneHead laneIdentity = .ok found := by
  obtain ⟨events, hload, hevents, hverify⟩ := h.loadEvents_eq_ok hlength
  obtain ⟨found, hstored, hmake⟩ := h.laneHead_eq_ok hhead
  have hprojects := (h.projects head (Table.mem_of_find hhead)).projected
  rw [show head.laneIdentity = laneIdentity from Table.key_of_find hhead, projectRows, hevents,
    ok_bind] at hprojects
  have hreplay : replayHead events laneIdentity = .ok found := by
    rw [replayHead, hprojects, ok_bind]
    exact hmake
  refine ⟨found, ?_, hstored⟩
  rw [Store.rebuildHead, hverify, ok_bind, hload, ok_bind, hreplay, ok_bind, hstored, ok_bind,
    refuseIf_of_not (not_not.mpr rfl), ok_bind]

end Sound

/-! ## Generations -/

theorem Moves.head_after {laneIdentity : String} {kind : EventKind} {payload : Payload F}
    {change : ℕ → HeadRow → HeadRow} {now : Shadow.Instant} {idempotencyKey : Option String}
    {head : HeadRow} (h : Moves s laneIdentity kind payload change now idempotencyKey head s')
    (hchange : ∀ n head, (change n head).laneIdentity = head.laneIdentity) :
    ∃ event between,
      s.appendLocked laneIdentity kind payload now idempotencyKey = .ok (event, between) ∧
      s'.events = between.events ∧
      head.generation ≤ (change event.sequence head).generation ∧
      head.sequence ≤ (change event.sequence head).sequence ∧
      s'.headOf laneIdentity = some (change event.sequence head) ∧
      ∀ other, other ≠ laneIdentity → s'.headOf other = s.headOf other := by
  obtain ⟨hhead, event, between, happend, hupdate⟩ := h
  obtain ⟨⟨hgeneration, hsequence⟩, -, rfl⟩ := updateHead_eq_ok hupdate
  have hlane : head.laneIdentity = laneIdentity := Table.key_of_find hhead
  have hheads : between.heads = s.heads := by
    rcases appendLocked_eq_ok happend with ⟨rfl, -⟩ | ⟨-, row, -, -, rfl⟩ <;> rfl
  refine ⟨event, between, happend, rfl, hgeneration, hsequence, ?_, fun other hother => ?_⟩
  · rw [Store.headOf, hheads, hlane]
    exact Table.find_update_self (hchange _) hhead
  · rw [Store.headOf, hheads, hlane]
    exact Table.find_update_of_ne (hchange _) hother

theorem headOf_append {laneIdentity : String} {kind : EventKind} {payload : Payload F}
    {now : Shadow.Instant} {idempotencyKey : Option String}
    (h : (s.appendEvent laneIdentity kind payload now idempotencyKey).map Prod.snd = .ok s')
    (other : String) : s'.headOf other = s.headOf other := by
  rcases append_eq_ok h with rfl | ⟨-, row, -, rfl⟩ <;> rfl

omit [PyFloat F] in
theorem headOf_register {lane : GovernanceLane} {now : Shadow.Instant}
    (h : s.registerLane F lane now = .ok s') {laneIdentity : String} {head : HeadRow}
    (hhead : s.headOf laneIdentity = some head) : s'.headOf laneIdentity = some head := by
  have hheads : ∀ row : LaneRow, (s.insertLane row).heads = s.heads := by
    intro row
    unfold Store.insertLane
    split <;> rfl
  rw [Store.registerLane] at h
  unfold Store.insertHead at h
  split at h
  · obtain rfl := Except.ok.inj h
    rwa [Store.headOf, hheads]
  · simp only [bind_eq_ok_iff, refuseIf_eq_ok_iff, Except.ok.injEq] at h
    obtain ⟨-, -, rfl⟩ := h
    rw [Store.headOf, Table.find, hheads, List.find?_append]
    rw [Store.headOf, Table.find] at hhead
    rw [hhead]
    rfl

/-- A head is only ever moved on. -/
theorem generation_le_after (call : Call F) {laneIdentity : String} {head : HeadRow}
    (hhead : s.headOf laneIdentity = some head) :
    ∃ head', (s.after call).headOf laneIdentity = some head' ∧
      head.generation ≤ head'.generation := by
  rcases after_cases s call with ⟨s', hcommit, hafter⟩ | hafter
  · rw [hafter]
    have hmoves : ∀ {lane : String} {kind : EventKind} {payload : Payload F}
        {change : ℕ → HeadRow → HeadRow} {now : Shadow.Instant} {key : Option String}
        {moved : HeadRow}, Moves s lane kind payload change now key moved s' →
        (∀ n head, (change n head).laneIdentity = head.laneIdentity) →
          ∃ head', s'.headOf laneIdentity = some head' ∧ head.generation ≤ head'.generation := by
      intro lane kind payload change now key moved hmoves hchange
      obtain ⟨event, -, -, -, hgeneration, -, hself, hother⟩ := hmoves.head_after hchange
      by_cases heq : laneIdentity = lane
      · subst heq
        obtain rfl := Option.some.inj (hhead.symm.trans hmoves.1)
        exact ⟨_, hself, hgeneration⟩
      · exact ⟨head, (hother _ heq).trans hhead, le_rfl⟩
    cases call with
    | register lane now => exact ⟨head, headOf_register hcommit hhead, le_rfl⟩
    | append lane kind hkind payload now key =>
        exact ⟨head, (headOf_append hcommit laneIdentity).trans hhead, le_rfl⟩
    | assign lane champion generation expectedChampion now key =>
        obtain ⟨moved, -, hmoved⟩ := applyAssignment_eq_ok hcommit
        exact hmoves hmoved fun _ _ => rfl
    | freeze lane trigger detail now key =>
        obtain ⟨moved, -, hmoved⟩ := freeze_eq_ok hcommit
        exact hmoves hmoved fun _ _ => rfl
  · rw [hafter]
    exact ⟨head, hhead, le_rfl⟩

theorem generation_le_run (calls : List (Call F)) {laneIdentity : String} {head : HeadRow}
    (hhead : s.headOf laneIdentity = some head) :
    ∃ head', (s.run calls).headOf laneIdentity = some head' ∧
      head.generation ≤ head'.generation := by
  induction calls generalizing s head with
  | nil => exact ⟨head, hhead, le_rfl⟩
  | cons call calls ih =>
      obtain ⟨between, hbetween, hle⟩ := generation_le_after call hhead
      obtain ⟨head', hhead', hle'⟩ := ih hbetween
      exact ⟨head', hhead', hle.trans hle'⟩

/-- Of the assignments that name one generation of a lane, one is applied. -/
theorem assignment_once {laneIdentity champion champion' : String} {generation : ℤ}
    {expected expected' : Option String} {now now' : Shadow.Instant} {key key' : Option String}
    (h : s.applyAssignment F laneIdentity champion generation expected now key = .ok s')
    (calls : List (Call F)) (s'' : Store) :
    (s'.run calls).applyAssignment F laneIdentity champion' generation expected' now' key' ≠
      .ok s'' := by
  intro hsecond
  obtain ⟨head, rfl, hmoves⟩ := applyAssignment_eq_ok h
  obtain ⟨event, -, -, -, -, -, hafter, -⟩ := hmoves.head_after fun _ _ => rfl
  obtain ⟨later, hlater, hle⟩ := generation_le_run calls hafter
  obtain ⟨head', hgeneration, hmoves'⟩ := applyAssignment_eq_ok hsecond
  obtain rfl := Option.some.inj (hlater.symm.trans hmoves'.1)
  simp only [HeadRow.assigned] at hle
  omega

/-- A head that changes does so with one new event, of the kind that moves it. -/
theorem head_moves {call : Call F} (hclean : call.Clean s) {laneIdentity : String}
    {head head' : HeadRow} (hhead : s.headOf laneIdentity = some head)
    (hafter : (s.after call).headOf laneIdentity = some head') (hne : head' ≠ head) :
    ∃ row, (s.after call).events = s.events ++ [row] ∧ row.laneIdentity = laneIdentity ∧
      (row.kind = .assignment ∧ head'.state = .active ∧ head'.generation = head.generation + 1 ∨
        row.kind = .freeze ∧ head'.state = .frozen ∧ head'.generation = head.generation) := by
  rcases after_cases s call with ⟨s', hcommit, heq⟩ | heq
  · rw [heq] at hafter ⊢
    have hmoves : ∀ {lane : String} {kind : EventKind} {payload : Payload F}
        {change : ℕ → HeadRow → HeadRow} {now : Shadow.Instant} {key : Option String}
        {moved : HeadRow}, Moves s lane kind payload change now key moved s' →
        (∀ n head, (change n head).laneIdentity = head.laneIdentity) →
        (∀ n head, (change n head).sequence = n) → Unbound s lane payload key →
          ∃ row, s'.events = s.events ++ [row] ∧ row.laneIdentity = laneIdentity ∧
            row.kind = kind ∧ moved = head ∧ ∃ n, head' = change n head := by
      intro lane kind payload change now key moved hmoves hlane hsequence hunbound
      obtain ⟨row, hrow, -, -, rfl⟩ := hmoves.appends hsequence hunbound
      have hsame : lane = laneIdentity := by
        by_contra hother
        rw [Store.headOf, Table.find_update_of_ne (hlane _) (Ne.symm hother)] at hafter
        exact hne (Option.some.inj (hafter.symm.trans hhead))
      subst hsame
      obtain rfl := Option.some.inj (hmoves.1.symm.trans hhead)
      rw [Store.headOf, Table.find_update_self (hlane _) hmoves.1] at hafter
      exact ⟨row, rfl, hrow.lane, hrow.kind, rfl, _, (Option.some.inj hafter).symm⟩
    cases call with
    | register lane now =>
        rw [headOf_register hcommit hhead] at hafter
        exact absurd (Option.some.inj hafter).symm hne
    | append lane kind hkind payload now key =>
        rw [headOf_append hcommit, hhead] at hafter
        exact absurd (Option.some.inj hafter).symm hne
    | assign lane champion generation expected now key =>
        obtain ⟨moved, hgeneration, hmoved⟩ := applyAssignment_eq_ok hcommit
        obtain ⟨row, hevents, hlane, hkind, rfl, n, rfl⟩ := hmoves hmoved (fun _ _ => rfl)
          (fun _ _ => rfl) hclean
        exact ⟨row, hevents, hlane, .inl ⟨hkind, rfl, by rw [hgeneration]; rfl⟩⟩
    | freeze lane trigger detail now key =>
        obtain ⟨moved, -, hmoved⟩ := freeze_eq_ok hcommit
        obtain ⟨row, hevents, hlane, hkind, rfl, n, rfl⟩ := hmoves hmoved (fun _ _ => rfl)
          (fun _ _ => rfl) hclean
        exact ⟨row, hevents, hlane, .inr ⟨hkind, rfl, rfl⟩⟩
  · rw [heq, hhead] at hafter
    exact absurd (Option.some.inj hafter).symm hne

/-- In runs of clean calls the head of a lane is the projection of its events. -/
theorem head_is_projection [Json.LawfulFloatText F] {calls : List (Call F)}
    (hclean : CleanRun {} calls) :
    (∀ lane ∈ (Store.run {} calls).lanes,
      ((Store.run {} calls).eventsOf lane.laneIdentity).length ≤ maxEventsPerQuery →
        (∃ n, (Store.run {} calls).verifyChain F lane.laneIdentity = .ok n) ∧
          ∃ head, (Store.run {} calls).rebuildHead F lane.laneIdentity = .ok head ∧
            (Store.run {} calls).laneHead lane.laneIdentity = .ok head) ∧
    (∀ head ∈ (Store.run {} calls).heads, head.generation =
      ((Store.run {} calls).eventsOf head.laneIdentity).countP (·.kind = .assignment)) ∧
    (∀ (laneIdentity champion champion' : String) (generation : ℤ)
      (expected expected' : Option String) (now now' : Shadow.Instant) (key key' : Option String)
      (s' s'' : Store) (between : List (Call F)),
      (Store.run {} calls).applyAssignment F laneIdentity champion generation expected now key =
        .ok s' →
      (s'.run between).applyAssignment F laneIdentity champion' generation expected' now' key' ≠
        .ok s'') ∧
    ∀ call : Call F, call.Clean (Store.run {} calls) → ∀ (laneIdentity : String)
      (head head' : HeadRow), (Store.run {} calls).headOf laneIdentity = some head →
        ((Store.run {} calls).after call).headOf laneIdentity = some head' → head' ≠ head →
          ∃ row, ((Store.run {} calls).after call).events = (Store.run {} calls).events ++ [row] ∧
            row.laneIdentity = laneIdentity ∧
            (row.kind = .assignment ∧ head'.state = .active ∧
                head'.generation = head.generation + 1 ∨
              row.kind = .freeze ∧ head'.state = .frozen ∧
                head'.generation = head.generation) := by
  have hsound := (sound_empty (F := F)).run hclean
  refine ⟨fun lane hlane hlength => ?_, fun head hhead => ?_, ?_, ?_⟩
  · obtain ⟨head, hmem, hidentity⟩ := List.mem_map.mp (hsound.registered lane hlane)
    have hhead : (Store.run {} calls).headOf lane.laneIdentity = some head :=
      (Table.find_eq_some_iff hsound.heads).mpr ⟨hmem, hidentity⟩
    obtain ⟨events, -, -, hverify⟩ := hsound.loadEvents_eq_ok hlength
    exact ⟨⟨_, hverify⟩, hsound.rebuildHead_eq_ok hhead hlength⟩
  · rw [hsound.eventsOf_eq]
    exact (hsound.projects head hhead).counted
  · intro laneIdentity champion champion' generation expected expected' now now' key key' s' s''
      between happlied
    exact assignment_once happlied between s''
  · intro call hcall laneIdentity head head' hhead hafter hne
    exact head_moves hcall hhead hafter hne

/-! ## A key that is bound -/

section FirstEvent

variable {laneIdentity text key : String} {kind : EventKind} {payload : Payload F}
  {now : Shadow.Instant}

/-- The row of the first event of a lane. -/
def firstRow (laneIdentity text key : String) (kind : EventKind) (now : Shadow.Instant) :
    EventRow where
  laneIdentity := laneIdentity
  sequence := 1
  kind := kind
  payload := text
  payloadDigest := digestText text
  previousDigest := genesisDigest
  chainDigest := chainDigest genesisDigest (digestText text) 1 kind
  idempotencyDigest := some (digestText ("sl-governance-idempotency:" ++ key))
  recordedAt := now

theorem appendLocked_first (hevents : s.events = [])
    (hlane : laneIdentity ∈ s.lanes.map LaneRow.laneIdentity)
    (htext : payload.dict.dumps = some text)
    (hbytes : (PyText.encodeUtf8 text).length ≤ maxPayloadBytes)
    (hlength : 2 ≤ text.toList.length ∧ text.toList.length ≤ 1048576)
    (hkey : idempotencyDigest key = .ok (digestText ("sl-governance-idempotency:" ++ key))) :
    s.appendLocked laneIdentity kind payload now (some key) =
      .ok (⟨laneIdentity, 1, kind, payload.dict, digestText text, genesisDigest,
        chainDigest genesisDigest (digestText text) 1 kind, now⟩,
        { s with events := [firstRow laneIdentity text key kind now] }) := by
  have hbound : ∀ digest, s.bound laneIdentity digest = none := by
    intro digest
    cases digest <;> simp [Store.bound, hevents]
  have hrows : s.eventsOf laneIdentity = [] := by
    rw [Store.eventsOf, hevents]
    rfl
  have hgenesis : Shadow.isDigest genesisDigest = true := by decide
  have hlane' : ¬ laneIdentity ∉ s.lanes.map LaneRow.laneIdentity := not_not.mpr hlane
  simp only [Store.appendLocked, htext, refuseIf_of_not (not_lt.mpr hbytes), canonicalDigest, hkey,
    Option.mapM_some, ok_bind, Functor.map, Except.map, hbound, refuseIf_of_not hlane', hrows,
    List.getLast?_nil, Store.insertEvent, hevents, List.map_nil, List.not_mem_nil, and_false,
    hlength, isDigest_digestText, hgenesis, chainDigest]
  rfl

/-- A key that is bound to the payload resolves to its event, whatever its kind. -/
theorem appendLocked_bound {digest : Option String} {idempotencyKey : Option String}
    {row : EventRow} {event : GovernanceEvent F} (htext : payload.dict.dumps = some text)
    (hbytes : (PyText.encodeUtf8 text).length ≤ maxPayloadBytes)
    (hkey : idempotencyKey.mapM idempotencyDigest = .ok digest)
    (hbound : s.bound laneIdentity digest = some row)
    (hdigest : row.payloadDigest = digestText text) (hevent : row.toEvent F = .ok event) :
    s.appendLocked laneIdentity kind payload now idempotencyKey = .ok (event, s) := by
  simp only [Store.appendLocked, htext, refuseIf_of_not (not_lt.mpr hbytes), canonicalDigest,
    hkey, ok_bind, hbound, refuseIf_of_not (not_not.mpr hdigest), hevent]

/-- The event that the helper returns moves the head of an unassigned lane. -/
theorem applyAssignment_appended {head : HeadRow} {champion : String} {event : GovernanceEvent F}
    {between : Store} {idempotencyKey : Option String}
    (hhead : s.headOf laneIdentity = some head)
    (hchampion : Shadow.isDigest champion = true) (hbefore : head.championRevision = none)
    (hcounted : 0 ≤ head.generation ∧ head.generation < 1000000)
    (happend : s.appendLocked laneIdentity .assignment
      (Store.assignmentPayload F champion head.generation none) now idempotencyKey =
        .ok (event, between))
    (hforward : head.sequence ≤ event.sequence) :
    s.applyAssignment F laneIdentity champion head.generation none now idempotencyKey =
      .ok { between with
        heads := Table.update HeadRow.laneIdentity laneIdentity
          (.assigned champion (head.generation + 1) event.sequence now) between.heads } := by
  have hlane : head.laneIdentity = laneIdentity := Table.key_of_find hhead
  have hchecked : (head.assigned champion (head.generation + 1) event.sequence now).Checked := by
    simp only [HeadRow.Checked, HeadRow.assigned, Option.all_some, hchampion, true_and]
    refine ⟨⟨by omega, by omega⟩, by simp⟩
  have htransition : (head.state, LaneState.active) ∈ laneTransitions := by
    cases h : head.state <;> decide
  have hmoved : between.updateHead head
      (.assigned champion (head.generation + 1) event.sequence now) = .ok { between with
        heads := Table.update HeadRow.laneIdentity laneIdentity
          (.assigned champion (head.generation + 1) event.sequence now) between.heads } := by
    have hback : ¬ (head.generation + 1 < head.generation ∨ event.sequence < head.sequence) := by
      omega
    rw [Store.updateHead, refuseIf_of_not (not_not.mpr hchecked), ← hlane]
    exact congrArg (· >>= _) (refuseIf_of_not hback)
  simp only [Store.applyAssignment, requireDigest, hchampion, hhead, hbefore, happend,
    assertLaneTransition, refuseIf_of_not (not_not.mpr htransition), ok_bind, Option.forM, hmoved]
  rw [refuseIf_of_not (by simp), refuseIf_of_not (by simp), refuseIf_of_not (by simp)]
  rfl

/-- A lane that has just been registered. -/
def registered (F : Type) [FloatText F] (lane : GovernanceLane) (now : Shadow.Instant) : Store :=
  ⟨[⟨lane.identity F, lane.key F, now⟩], [],
    [⟨lane.identity F, .unassigned, none, 0, none, 0, now⟩]⟩

/-- The lane with its first event, under a key. -/
def recorded (F : Type) [FloatText F] (lane : GovernanceLane) (text key : String) (kind : EventKind)
    (now : Shadow.Instant) : Store :=
  { registered F lane now with events := [firstRow (lane.identity F) text key kind now] }

/-- The lane with a champion and the event under whose key it was assigned. -/
def promoted (F : Type) [FloatText F] (lane : GovernanceLane) (text key : String) (kind : EventKind)
    (now : Shadow.Instant) (champion : String) : Store :=
  { recorded F lane text key kind now with
    heads := [⟨lane.identity F, .active, some champion, 1, none, 1, now⟩] }

variable {lane : GovernanceLane}

theorem idempotencyDigest_eq_ok (h : ¬ (PyText.isBlank key = true ∨ 256 < key.toList.length)) :
    idempotencyDigest key = .ok (digestText ("sl-governance-idempotency:" ++ key)) := by
  rw [idempotencyDigest, refuseIf_of_not h]
  rfl

theorem after_register
    (hkey : 2 ≤ (lane.key F).toList.length ∧ (lane.key F).toList.length ≤ 4096) :
    ({} : Store).after (.register lane now : Call F) = registered F lane now := by
  have hdigest : Shadow.isDigest (lane.identity F) = true := isDigest_digestText _
  have hlane : ({} : Store).insertLane ⟨lane.identity F, lane.key F, now⟩ =
      ⟨[⟨lane.identity F, lane.key F, now⟩], [], []⟩ := by
    rw [Store.insertLane, if_neg (by simp [hdigest, hkey])]
    rfl
  have hcommit : ({} : Store).registerLane F lane now = .ok (registered F lane now) := by
    rw [Store.registerLane, hlane, Store.insertHead, if_neg (by simp [HeadRow.Checked]),
      refuseIf_of_not (by simp)]
    rfl
  rw [Store.after, Store.commit, hcommit]
  rfl

theorem after_append {evidence : kind ≠ .assignment ∧ kind ≠ .freeze}
    (htext : payload.dict.dumps = some text)
    (hbytes : (PyText.encodeUtf8 text).length ≤ maxPayloadBytes)
    (hlength : 2 ≤ text.toList.length ∧ text.toList.length ≤ 1048576)
    (hkey : idempotencyDigest key = .ok (digestText ("sl-governance-idempotency:" ++ key))) :
    (registered F lane now).after
        (.append (lane.identity F) kind evidence payload now (some key)) =
      recorded F lane text key kind now := by
  rw [Store.after, Store.commit, Store.appendEvent, appendLocked_first rfl (by simp [registered])
    htext hbytes hlength hkey]
  rfl

/-- A first assignment whose payload has been appended as evidence under its key
moves the head and appends nothing. -/
theorem after_assign [Json.LawfulFloatText F] {champion : String}
    (htext : (Store.assignmentPayload F champion 0 none).dict.dumps = some text)
    (hbytes : (PyText.encodeUtf8 text).length ≤ maxPayloadBytes)
    (hkey : idempotencyDigest key = .ok (digestText ("sl-governance-idempotency:" ++ key)))
    (hchampion : Shadow.isDigest champion = true) :
    (recorded F lane text key kind now).after
        (.assign (lane.identity F) champion 0 none now (some key) : Call F) =
      promoted F lane text key kind now champion := by
  obtain ⟨document, -, hloads⟩ := loads_payload F htext
  have hevent : (firstRow (lane.identity F) text key kind now).toEvent F =
      .ok ⟨lane.identity F, 1, kind, .ofJson document, digestText text, genesisDigest,
        chainDigest genesisDigest (digestText text) 1 kind, now⟩ := by
    rw [EventRow.toEvent, firstRow, hloads]
  have hbound : (recorded F lane text key kind now).bound (lane.identity F)
      (some (digestText ("sl-governance-idempotency:" ++ key))) =
        some (firstRow (lane.identity F) text key kind now) := by
    simp [Store.bound, firstRow, recorded]
  have hdigest : (some key).mapM idempotencyDigest =
      .ok (some (digestText ("sl-governance-idempotency:" ++ key))) := by
    rw [Option.mapM_some, hkey]
    rfl
  have hhead : (recorded F lane text key kind now).headOf (lane.identity F) =
      some ⟨lane.identity F, .unassigned, none, 0, none, 0, now⟩ := by
    simp [Store.headOf, recorded, registered, Table.find]
  have hassigned : (recorded F lane text key kind now).applyAssignment F (lane.identity F) champion
      0 none now (some key) = .ok (promoted F lane text key kind now champion) := by
    rw [applyAssignment_appended hhead hchampion rfl (by simp)
      (appendLocked_bound htext hbytes hdigest hbound rfl hevent) (Nat.zero_le _)]
    simp [promoted, recorded, registered, Table.update, HeadRow.assigned]
  rw [Store.after, Store.commit, hassigned]
  rfl

/-- A payload that is written otherwise once it is read back does not verify. -/
theorem verifyChain_recorded_ne_ok {value : PyValue F} {text' : String}
    (hloads : PyValue.loads text = some value) (hdumps : value.dumps = some text')
    (hdigest : digestText text' ≠ digestText text) (n : ℕ) :
    (recorded F lane text key kind now).verifyChain F (lane.identity F) ≠ .ok n := by
  have hrows : (recorded F lane text key kind now).eventsOf (lane.identity F) =
      [firstRow (lane.identity F) text key kind now] := by
    simp [Store.eventsOf, recorded, firstRow]
  have hevent : (firstRow (lane.identity F) text key kind now).toEvent F =
      .ok ⟨lane.identity F, 1, kind, value, digestText text, genesisDigest,
        chainDigest genesisDigest (digestText text) 1 kind, now⟩ := by
    rw [EventRow.toEvent, firstRow, hloads]
  intro h
  simp only [Store.verifyChain, Store.loadEvents, hrows, List.mapM_cons, List.mapM_nil, hevent,
    bind_eq_ok_iff, ok_bind, pure_eq_ok, Except.ok.injEq, refuseIf_eq_ok_iff] at h
  obtain ⟨_, ⟨-, -, rfl⟩, _, h, -⟩ := h
  simp only [Store.verifyFrom, canonicalDigest, hdumps, bind_eq_ok_iff, refuseIf_eq_ok_iff, not_not,
    Except.ok.injEq] at h
  obtain ⟨-, -, _, rfl, -, hsame, -⟩ := h
  exact hdigest hsame

/-- Such a head is not what its events make of it. -/
theorem rebuildHead_promoted_ne_ok {champion : String} (hkind : kind ≠ .assignment ∧ kind ≠ .freeze)
    (found : LaneHead) :
    (promoted F lane text key kind now champion).rebuildHead F (lane.identity F) ≠ .ok found := by
  intro h
  simp only [Store.rebuildHead, bind_eq_ok_iff, refuseIf_eq_ok_iff, not_not] at h
  obtain ⟨-, -, events, hload, rebuilt, hreplay, stored, hstored, -, rfl, -⟩ := h
  have hrows : (promoted F lane text key kind now champion).eventsOf (lane.identity F) =
      [firstRow (lane.identity F) text key kind now] := by
    simp [Store.eventsOf, promoted, recorded, firstRow]
  have hhead : (promoted F lane text key kind now champion).headOf (lane.identity F) =
      some ⟨lane.identity F, .active, some champion, 1, none, 1, now⟩ := by
    simp [Store.headOf, promoted, Table.find]
  have hactive : rebuilt.state = .active := by
    rw [Store.laneHead, hhead] at hstored
    exact LaneHead.state_of_make hstored
  have hunassigned : rebuilt.state = .unassigned := by
    simp only [Store.loadEvents, bind_eq_ok_iff, hrows, List.mapM_cons, List.mapM_nil] at hload
    obtain ⟨-, -, event, hevent, _, hnil, hevents⟩ := hload
    obtain rfl := Except.ok.inj hnil
    obtain rfl := Except.ok.inj hevents
    have hsame : event.kind = kind := by
      rw [EventRow.toEvent] at hevent
      split at hevent
      · cases hevent
      · obtain rfl := Except.ok.inj hevent
        rfl
    have hafter : Projection.after {} event = .ok {} := by
      rw [Projection.after, hsame]
      cases kind <;> simp at hkind ⊢
    rw [replayHead, List.foldlM_cons, hafter, ok_bind, List.foldlM_nil] at hreplay
    exact LaneHead.state_of_make hreplay
  rw [hactive] at hunassigned
  cases hunassigned

end FirstEvent

end Store

/-! ## Two runs -/

theorem five_days : 1 ≤ 5 ∧ 5 ≤ 365 := by decide

/-- The lane of the runs below. -/
def momentum : GovernanceLane where
  purpose := "alpha"
  target := "direction"
  horizonDays := 5
  frequency := "daily"
  universeContract := "sp500"
  decisionPolicy := "threshold"
  environment := "paper"
  fields := by decide +kernel
  horizon := five_days

def noon : Shadow.Instant := ⟨.date 2026 1 2, 12, 0, 0, 0⟩

def champion : String := String.ofList (List.replicate 64 'a')

section Counterexamples

open Platform

/-- The lane with its first champion. -/
def promotion : List (Call ℚ) :=
  [.register momentum noon, .assign (momentum.identity ℚ) champion 0 none noon none]

/-- The promotion is first recorded as a comparison, under the key that it is
then given. -/
def recordedPromotion : List (Call ℚ) :=
  [.register momentum noon,
    .append (momentum.identity ℚ) .comparison (by decide)
      (Store.assignmentPayload ℚ champion 0 none) noon (some "promotion-1"),
    .assign (momentum.identity ℚ) champion 0 none noon (some "promotion-1")]

def promotionText : String :=
  "\x7b\"champion_revision\":\"" ++ champion ++
    "\",\"generation\":1,\"previous_champion\":null,\"previous_generation\":0\x7d"

theorem length_momentum_key :
    2 ≤ (momentum.key ℚ).toList.length ∧ (momentum.key ℚ).toList.length ≤ 4096 := by
  decide +kernel

theorem run_recordedPromotion : Store.run {} recordedPromotion =
    promoted ℚ momentum promotionText "promotion-1" .comparison noon champion := by
  have htext : (Store.assignmentPayload ℚ champion 0 none).dict.dumps = some promotionText := by
    decide +kernel
  have hbytes : (PyText.encodeUtf8 promotionText).length ≤ maxPayloadBytes := by decide +kernel
  have hlength : 2 ≤ promotionText.toList.length ∧ promotionText.toList.length ≤ 1048576 := by
    decide +kernel
  have hkey : idempotencyDigest "promotion-1" =
      .ok (digestText ("sl-governance-idempotency:" ++ "promotion-1")) :=
    idempotencyDigest_eq_ok (by decide)
  rw [Store.run, recordedPromotion, List.foldl_cons, after_register length_momentum_key,
    List.foldl_cons, after_append htext hbytes hlength hkey, List.foldl_cons,
    after_assign htext hbytes hkey (by decide), List.foldl_nil]

/-- Evidence with integers as keys. -/
def numbered : Payload ℚ where
  members := [("folds", .dict [(.int 9, .int 0), (.int 10, .int 0)])]
  keys := by decide
  values := by simp [PyValue.Unique, PyValue.UniqueMembers]

def numberedEvidence : List (Call ℚ) :=
  [.register momentum noon,
    .append (momentum.identity ℚ) .monitoring (by decide +kernel) numbered noon (some "folds-1")]

/-- Its text, and the text of what is read back from it. -/
def numberedText : String := "\x7b\"folds\":\x7b\"9\":0,\"10\":0\x7d\x7d"

def renumberedText : String := "\x7b\"folds\":\x7b\"10\":0,\"9\":0\x7d\x7d"

theorem run_numberedEvidence : Store.run {} numberedEvidence =
    recorded ℚ momentum numberedText "folds-1" .monitoring noon := by
  have htext : numbered.dict.dumps = some numberedText := by decide +kernel
  rw [Store.run, numberedEvidence, List.foldl_cons, after_register length_momentum_key,
    List.foldl_cons, after_append htext (by decide +kernel) (by decide +kernel)
      (idempotencyDigest_eq_ok (by decide)), List.foldl_nil]

theorem head_is_projection_promotion :
    (∀ lane ∈ (Store.run {} promotion).lanes,
      ((Store.run {} promotion).eventsOf lane.laneIdentity).length ≤ maxEventsPerQuery →
        (∃ n, (Store.run {} promotion).verifyChain ℚ lane.laneIdentity = .ok n) ∧
          ∃ head, (Store.run {} promotion).rebuildHead ℚ lane.laneIdentity = .ok head ∧
            (Store.run {} promotion).laneHead lane.laneIdentity = .ok head) ∧
    ∀ head ∈ (Store.run {} promotion).heads, head.generation =
      ((Store.run {} promotion).eventsOf head.laneIdentity).countP (·.kind = .assignment) := by
  have hclean : CleanRun {} promotion := by
    refine ⟨trivial, fun digest row hdigest hbound => ?_, trivial⟩
    obtain rfl := Except.ok.inj hdigest
    cases hbound
  obtain ⟨hreaders, hcounted, -⟩ := head_is_projection hclean
  exact ⟨hreaders, hcounted⟩

/-- The comparison moves the head as an assignment does, and evidence with
integers as keys does not verify. -/
theorem unrecorded_assignment :
    ((∃ head ∈ (Store.run {} recordedPromotion).heads, head.generation = 1 ∧
        ((Store.run {} recordedPromotion).eventsOf head.laneIdentity).countP
          (·.kind = .assignment) = 0) ∧
      ∀ head, (Store.run {} recordedPromotion).rebuildHead ℚ (momentum.identity ℚ) ≠ .ok head) ∧
    ∀ n, (Store.run {} numberedEvidence).verifyChain ℚ (momentum.identity ℚ) ≠ .ok n := by
  refine ⟨⟨?_, fun head => ?_⟩, fun n hn => ?_⟩
  · rw [run_recordedPromotion]
    refine ⟨_, List.mem_singleton_self _, rfl, ?_⟩
    simp [Store.eventsOf, promoted, recorded, firstRow]
  · rw [run_recordedPromotion]
    exact rebuildHead_promoted_ne_ok (by decide) head
  · rw [run_numberedEvidence] at hn
    have hread : (PyValue.loads numberedText : Option (PyValue ℚ)).bind PyValue.dumps =
        some renumberedText := by
      decide +kernel
    have hdigest : digestText renumberedText ≠ digestText numberedText := by decide +kernel
    obtain ⟨payload, hloads, hdumps⟩ := Option.bind_eq_some_iff.mp hread
    exact verifyChain_recorded_ne_ok hloads hdumps hdigest n hn

end Counterexamples

end Governance
