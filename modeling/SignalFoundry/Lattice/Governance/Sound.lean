import SignalFoundry.Lattice.Governance.Projection

/-!
# The invariant of the governance store

Every lane has a head, its rows form a chain and the head is what they make of
it. The calls that keep this are those whose payload is keyed by texts and that,
if they move a head, do not find their payload recorded under their key.
-/

namespace Governance

open Fallible

variable [PyRuntime] {F : Type} [PyFloat F] [FloatText F]

/-! ## The invariant -/

structure Sound (F : Type) [PyFloat F] [FloatText F] (s : Store) : Prop where
  heads : (s.heads.map HeadRow.laneIdentity).Nodup
  registered : ∀ lane ∈ s.lanes, lane.laneIdentity ∈ s.heads.map HeadRow.laneIdentity
  owned : ∀ row ∈ s.events, row.laneIdentity ∈ s.heads.map HeadRow.laneIdentity
  coherent : ∀ head ∈ s.heads, head.Checked ∧ head.laneIdentity.toList.length = 64
  chained : ∀ laneIdentity, Chain F (s.rowsOf laneIdentity)
  projects : ∀ head ∈ s.heads, Projects F (s.rowsOf head.laneIdentity) head

theorem sound_empty : Sound F {} where
  heads := List.nodup_nil
  registered := fun _ h => absurd h List.not_mem_nil
  owned := fun _ h => absurd h List.not_mem_nil
  coherent := fun _ h => absurd h List.not_mem_nil
  chained := fun _ => .nil
  projects := fun _ h => absurd h List.not_mem_nil

omit [PyRuntime] in
theorem rowsOf_append {s s' : Store} {row : EventRow} (h : s'.events = s.events ++ [row])
    (laneIdentity : String) : s'.rowsOf laneIdentity =
      if row.laneIdentity = laneIdentity then s.rowsOf laneIdentity ++ [row]
      else s.rowsOf laneIdentity := by
  rw [Store.rowsOf, Store.rowsOf, h, List.filter_append]
  by_cases heq : row.laneIdentity = laneIdentity <;> simp [heq]

namespace Sound

variable {s s' : Store} {laneIdentity : String} {row : EventRow} {head : HeadRow}
  {kind : EventKind} {payload : Payload F}

/-- Rows are inserted in the order of their sequence. -/
theorem eventsOf_eq (h : Sound F s) (laneIdentity : String) :
    s.eventsOf laneIdentity = s.rowsOf laneIdentity :=
  (h.chained laneIdentity).pairwise_sequence.insertionSort_eq

theorem head_unique (h : Sound F s) (hhead : s.headOf laneIdentity = some head) {other : HeadRow}
    (hother : other ∈ s.heads) (heq : other.laneIdentity = laneIdentity) : other = head :=
  Table.eq_of_key_eq h.heads hother (Table.mem_of_find hhead)
    (heq.trans (Table.key_of_find hhead).symm)

/-- An appended row extends the chain of its lane. -/
theorem chained_append (h : Sound F s)
    (hrow : Appends laneIdentity kind payload (s.eventsOf laneIdentity) row)
    (hfaithful : row.Faithful F) (hevents : s'.events = s.events ++ [row]) (other : String) :
    Chain F (s'.rowsOf other) := by
  have hchain := h.chained laneIdentity
  obtain ⟨hsequence, hprevious⟩ := hchain.next_eq
  rw [rowsOf_append hevents, hrow.lane]
  split
  · next heq =>
      subst heq
      refine hchain.snoc (by rw [hrow.sequence, h.eventsOf_eq, hsequence])
        (by rw [hrow.previous, h.eventsOf_eq, hprevious]) ?_ hfaithful
      rw [hrow.chained, hrow.previous, h.eventsOf_eq, hprevious]
  · exact h.chained other

theorem evidence [Json.LawfulFloatText F] (h : Sound F s)
    (hkind : kind ≠ .assignment ∧ kind ≠ .freeze) (hkeys : payload.dict.TextKeyed)
    (hlane : laneIdentity ∈ s.lanes.map LaneRow.laneIdentity)
    (hrow : Appends laneIdentity kind payload (s.eventsOf laneIdentity) row) :
    Sound F { s with events := s.events ++ [row] } where
  heads := h.heads
  registered := h.registered
  owned := by
    intro other hother
    rcases List.mem_append.mp hother with hother | hother
    · exact h.owned other hother
    · obtain rfl := List.mem_singleton.mp hother
      obtain ⟨lane, hmem, heq⟩ := List.mem_map.mp hlane
      rw [hrow.lane, ← heq]
      exact h.registered lane hmem
  coherent := h.coherent
  chained := h.chained_append hrow (faithful_of_textKeyed F hkeys hrow.text hrow.digest) rfl
  projects := by
    intro head hhead
    rw [rowsOf_append rfl]
    split
    · exact (h.projects head hhead).evidence hkind hrow
    · exact h.projects head hhead

/-- A head that moves with an event of its own. -/
theorem move [Json.LawfulFloatText F] {change : HeadRow → HeadRow} (h : Sound F s)
    (hhead : s.headOf laneIdentity = some head) (hkeys : payload.dict.TextKeyed)
    (hrow : Appends laneIdentity kind payload (s.eventsOf laneIdentity) row)
    (hchange : ∀ head, (change head).laneIdentity = head.laneIdentity)
    (hchecked : (change head).Checked)
    (hprojects : Projects F (s.rowsOf laneIdentity) head →
      Projects F (s.rowsOf laneIdentity ++ [row]) (change head)) :
    Sound F { s with
      events := s.events ++ [row]
      heads := Table.update HeadRow.laneIdentity laneIdentity change s.heads } := by
  have hkey : (Table.update HeadRow.laneIdentity laneIdentity change s.heads).map
      HeadRow.laneIdentity = s.heads.map HeadRow.laneIdentity := Table.map_update hchange
  have hmem := Table.mem_of_find hhead
  have hlane : head.laneIdentity = laneIdentity := Table.key_of_find hhead
  constructor
  · show (List.map _ (Table.update _ _ _ _)).Nodup
    rw [hkey]
    exact h.heads
  · show ∀ lane ∈ s.lanes, _ ∈ List.map _ (Table.update _ _ _ _)
    rw [hkey]
    exact h.registered
  · show ∀ other ∈ s.events ++ [row], _ ∈ List.map _ (Table.update _ _ _ _)
    rw [hkey]
    intro other hother
    rcases List.mem_append.mp hother with hother | hother
    · exact h.owned other hother
    · obtain rfl := List.mem_singleton.mp hother
      rw [hrow.lane, ← hlane]
      exact List.mem_map_of_mem hmem
  · intro other hother
    rcases Table.mem_update.mp hother with ⟨hother, -⟩ | ⟨old, hold, heq, rfl⟩
    · exact h.coherent other hother
    · obtain rfl := h.head_unique hhead hold heq
      exact ⟨hchecked, by rw [hchange]; exact (h.coherent old hold).2⟩
  · exact h.chained_append hrow (faithful_of_textKeyed F hkeys hrow.text hrow.digest) rfl
  · intro other hother
    rw [rowsOf_append rfl, hrow.lane]
    rcases Table.mem_update.mp hother with ⟨hother, hne⟩ | ⟨old, hold, heq, rfl⟩
    · rw [if_neg (Ne.symm hne)]
      exact h.projects other hother
    · obtain rfl := h.head_unique hhead hold heq
      rw [if_pos (by rw [hchange, hlane]), hchange, hlane]
      exact hprojects (hlane ▸ h.projects old hold)

theorem register (h : Sound F s) {lane : GovernanceLane} {now : Shadow.Instant}
    (hcall : s.registerLane F lane now = .ok s') : Sound F s' := by
  rw [Store.registerLane] at hcall
  generalize hbetween : s.insertLane ⟨lane.identity F, lane.key F, now⟩ = between at hcall
  have hlanes : between.heads = s.heads ∧ between.events = s.events ∧
      ∀ row ∈ between.lanes, row ∈ s.lanes ∨ row.laneIdentity = lane.identity F := by
    subst hbetween
    unfold Store.insertLane
    split
    · exact ⟨rfl, rfl, fun _ hrow => .inl hrow⟩
    · refine ⟨rfl, rfl, fun row hrow => ?_⟩
      rcases List.mem_append.mp hrow with hrow | hrow
      · exact .inl hrow
      · exact .inr (List.mem_singleton.mp hrow ▸ rfl)
  obtain ⟨hheads, hevents, hlanes⟩ := hlanes
  have hrows : ∀ laneIdentity, between.rowsOf laneIdentity = s.rowsOf laneIdentity := by
    intro laneIdentity
    rw [Store.rowsOf, Store.rowsOf, hevents]
  unfold Store.insertHead at hcall
  split at hcall
  · next hpresent =>
      obtain rfl := Except.ok.inj hcall
      have hpresent : lane.identity F ∈ s.heads.map HeadRow.laneIdentity := by
        rcases hpresent with hmem | hchecked
        · rwa [hheads] at hmem
        · exact absurd (by simp [HeadRow.Checked]) hchecked
      constructor
      · rw [hheads]
        exact h.heads
      · intro row hrow
        rw [hheads]
        rcases hlanes row hrow with hrow | heq
        · exact h.registered row hrow
        · rwa [heq]
      · rw [hevents, hheads]
        exact h.owned
      · rw [hheads]
        exact h.coherent
      · intro laneIdentity
        rw [hrows]
        exact h.chained laneIdentity
      · intro head hhead
        rw [hrows]
        exact h.projects head (hheads ▸ hhead)
  · next habsent =>
      simp only [bind_eq_ok_iff, refuseIf_eq_ok_iff, Except.ok.injEq] at hcall
      obtain ⟨-, -, rfl⟩ := hcall
      rw [not_or, hheads] at habsent
      have hempty : s.rowsOf (lane.identity F) = [] := by
        rw [Store.rowsOf, List.filter_eq_nil_iff]
        intro row hrow heq
        exact habsent.1 (of_decide_eq_true heq ▸ h.owned row hrow)
      constructor
      · show (List.map _ (between.heads ++ _)).Nodup
        rw [hheads, List.map_append, List.nodup_append]
        refine ⟨h.heads, List.nodup_singleton _, fun a ha b hb heq => habsent.1 ?_⟩
        rw [List.map_singleton, List.mem_singleton] at hb
        rwa [← hb, ← heq]
      · intro row hrow
        rw [hheads, List.map_append]
        rcases hlanes row hrow with hrow | heq
        · exact List.mem_append_left _ (h.registered row hrow)
        · exact List.mem_append_right _ (heq ▸ List.mem_singleton_self _)
      · intro row hrow
        rw [hheads, List.map_append]
        exact List.mem_append_left _ (h.owned row (hevents ▸ hrow))
      · intro head hhead
        rw [hheads] at hhead
        rcases List.mem_append.mp hhead with hhead | hhead
        · exact h.coherent head hhead
        · obtain rfl := List.mem_singleton.mp hhead
          have hdigest := isDigest_digestText (lane.key F)
          rw [Shadow.isDigest, PyText.isRun, Bool.and_eq_true, beq_iff_eq] at hdigest
          exact ⟨not_not.mp habsent.2, hdigest.2⟩
      · intro laneIdentity
        exact (hrows laneIdentity).symm ▸ h.chained laneIdentity
      · intro head hhead
        show Projects F (between.rowsOf head.laneIdentity) head
        rw [hrows]
        rw [hheads] at hhead
        rcases List.mem_append.mp hhead with hhead | hhead
        · exact h.projects head hhead
        · obtain rfl := List.mem_singleton.mp hhead
          rw [hempty]
          exact ⟨rfl, rfl⟩

end Sound

/-! ## Calls -/

/-- A call whose payload is keyed by texts and, if it moves a head, is not yet
recorded under its key. -/
def Call.Clean (s : Store) : Call F → Prop
  | .register _ _ => True
  | .append _ _ _ payload _ _ => payload.dict.TextKeyed
  | .assign laneIdentity championRevision expectedGeneration expectedChampion _ idempotencyKey =>
      Unbound s laneIdentity
        (Store.assignmentPayload F championRevision expectedGeneration expectedChampion)
        idempotencyKey
  | .freeze laneIdentity trigger detail _ idempotencyKey =>
      Unbound s laneIdentity (Store.freezePayload F trigger detail) idempotencyKey

def CleanRun (s : Store) : List (Call F) → Prop
  | [] => True
  | call :: calls => call.Clean s ∧ CleanRun (s.after call) calls

variable {s s' : Store}

theorem after_cases (s : Store) (call : Call F) :
    (∃ s', s.commit call = .ok s' ∧ s.after call = s') ∨ s.after call = s := by
  rw [Store.after]
  cases hcommit : s.commit call with
  | error e => exact .inr rfl
  | ok s' => exact .inl ⟨s', rfl, rfl⟩

theorem append_eq_ok {laneIdentity : String} {kind : EventKind} {payload : Payload F}
    {now : Shadow.Instant} {idempotencyKey : Option String}
    (h : (s.appendEvent laneIdentity kind payload now idempotencyKey).map Prod.snd = .ok s') :
    s' = s ∨ laneIdentity ∈ s.lanes.map LaneRow.laneIdentity ∧ ∃ row,
      Appends laneIdentity kind payload (s.eventsOf laneIdentity) row ∧
        s' = { s with events := s.events ++ [row] } := by
  rw [Store.appendEvent] at h
  cases hcall : s.appendLocked laneIdentity kind payload now idempotencyKey with
  | error e =>
      rw [hcall] at h
      cases h
  | ok result =>
      obtain ⟨event, next⟩ := result
      rw [hcall] at h
      obtain rfl := Except.ok.inj h
      rcases appendLocked_eq_ok hcall with ⟨rfl, -⟩ | ⟨hlane, row, hrow, -, hnext⟩
      · exact .inl rfl
      · exact .inr ⟨hlane, row, hrow, hnext⟩

theorem Sound.after [Json.LawfulFloatText F] (h : Sound F s) {call : Call F}
    (hclean : call.Clean s) : Sound F (s.after call) := by
  rcases after_cases s call with ⟨s', hcommit, hafter⟩ | hafter
  · rw [hafter]
    cases call with
    | register lane now => exact h.register hcommit
    | append laneIdentity kind hkind payload now idempotencyKey =>
        rcases append_eq_ok hcommit with rfl | ⟨hlane, row, hrow, rfl⟩
        · exact h
        · exact h.evidence hkind hclean hlane hrow
    | assign laneIdentity championRevision expectedGeneration expectedChampion now idempotencyKey =>
        obtain ⟨head, rfl, hmoves⟩ := applyAssignment_eq_ok hcommit
        obtain ⟨row, hrow, -, hchecked, rfl⟩ := hmoves.appends (fun _ _ => rfl) hclean
        exact h.move hmoves.1 (textKeyed_assignmentPayload _ _ _) hrow (fun _ => rfl) hchecked
          fun hprojects => hprojects.assignment hrow
    | freeze laneIdentity trigger detail now idempotencyKey =>
        obtain ⟨head, -, hmoves⟩ := freeze_eq_ok hcommit
        obtain ⟨row, hrow, -, hchecked, rfl⟩ := hmoves.appends (fun _ _ => rfl) hclean
        exact h.move hmoves.1 (textKeyed_freezePayload _ _) hrow (fun _ => rfl) hchecked
          fun hprojects => hprojects.freeze hrow
  · rwa [hafter]

theorem Sound.run [Json.LawfulFloatText F] (h : Sound F s) {calls : List (Call F)}
    (hclean : CleanRun s calls) : Sound F (s.run calls) := by
  induction calls generalizing s with
  | nil => exact h
  | cons call calls ih => exact ih (h.after hclean.1) hclean.2

end Governance
