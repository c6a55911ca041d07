import Mathlib.Logic.Relation
import SignalFoundry.Foundry.Research.Commits

/-!
# The history of the research store

In every store that calls can reach, the audit trail of a job is one of a few
paths that end in its stored state, the keys are unique and the bounds hold
(`Sound`). Every call makes commits or changes nothing, and a commit keeps what
identifies a job and all of a job that has ended (`Keeps`).
-/

namespace Foundry

namespace Research

/-- The states of a job in the order of its audit, with the last one. -/
inductive Lifecycle : List JobState → JobState → Prop
  | queued : Lifecycle [.queued] .queued
  | running : Lifecycle [.queued, .running] .running
  | abandoned {state : JobState} (hterminal : state.Terminal = true)
      (hsucceeded : state ≠ .succeeded) : Lifecycle [.queued, state] state
  | finished {state : JobState} (hterminal : state.Terminal = true) :
      Lifecycle [.queued, .running, state] state

theorem Lifecycle.next {path : List JobState} {state state' : JobState} (h : Lifecycle path state)
    (hfollows : state.Follows state') : Lifecycle (path ++ [state']) state' := by
  cases h with
  | queued =>
      rcases hfollows with rfl | rfl | rfl
      · exact .running
      · exact .abandoned rfl nofun
      · exact .abandoned rfl nofun
  | running =>
      rcases hfollows with rfl | rfl | rfl
      · exact .finished rfl
      · exact .finished rfl
      · exact .finished rfl
  | abandoned hterminal => rw [hfollows.not_terminal] at hterminal; cases hterminal
  | finished hterminal => rw [hfollows.not_terminal] at hterminal; cases hterminal

namespace Store

/-- The states of a job in the audit trail. -/
def states (s : Store) (jobId : String) : List JobState :=
  (s.audit.filter fun entry => entry.jobId = jobId).map AuditRow.state

/-- What the tables of the store keep. -/
structure Sound (s : Store) : Prop where
  ids : (s.jobs.map JobRow.jobId).Nodup
  keys : (s.jobs.map JobRow.keyHash).Nodup
  lifecycle : ∀ row ∈ s.jobs, Lifecycle (s.states row.jobId) row.state
  coherent : ∀ row ∈ s.jobs, row.fields.Coherent
  evidence : ∀ row ∈ s.jobs, row.evidence.isSome = true ↔ row.state = .succeeded
  sequences : (s.audit.map AuditRow.sequence).Pairwise (· < ·)
  counted : ∀ entry ∈ s.audit, entry.sequence ≤ s.lastSequence
  owned : ∀ entry ∈ s.audit, entry.jobId ∈ s.jobs.map JobRow.jobId
  retained : s.jobs.length ≤ maxJobs
  pending : s.jobs.countP isPending ≤ maxPending

/-- Every job of one store is in the other, bound to the same key and request,
and unchanged if it had ended. -/
def Keeps (s s' : Store) : Prop :=
  ∀ row ∈ s.jobs, ∃ row' ∈ s'.jobs,
    (row'.jobId = row.jobId ∧ row'.keyHash = row.keyHash ∧ row'.requestHash = row.requestHash) ∧
      (row.state.Terminal = true → row' = row ∧ s'.states row.jobId = s.states row.jobId)

/-- What a call can commit. -/
inductive Commit (s : Store) : Store → Prop
  | queued {row : JobRow} {now : Timestamp} (hid : row.jobId ∉ s.jobs.map JobRow.jobId)
      (hkey : row.keyHash ∉ s.jobs.map JobRow.keyHash) (hstate : row.state = .queued)
      (hcoherent : row.fields.Coherent) (hevidence : row.evidence = none) (hroom : s.Room) :
      Commit s (s.queueJob row now)
  | moved {row : JobRow} {change : JobRow → JobRow} {state : JobState} {now : Timestamp}
      {code : Option String} (hfind : Table.find JobRow.jobId row.jobId s.jobs = some row)
      (hfollows : row.state.Follows state) (hchange : Change change state)
      (hcoherent : (change row).fields.Coherent)
      (hevidence : (change row).evidence.isSome = true ↔ state = .succeeded) :
      Commit s (s.moveJob row.jobId change state now code)

variable {s s' : Store} {jobId : String} {now : Timestamp}

theorem sound_empty : ({} : Store).Sound where
  ids := List.nodup_nil
  keys := List.nodup_nil
  lifecycle := nofun
  coherent := nofun
  evidence := nofun
  sequences := .nil
  counted := nofun
  owned := nofun
  retained := Nat.zero_le _
  pending := Nat.zero_le _

theorem isPending_iff {row : JobRow} : isPending row = true ↔ row.state.Terminal = false := by
  unfold isPending
  cases row.state <;> decide

/-! ## Commits -/

theorem states_record (s : Store) (jobId other : String) (state : JobState) (now : Timestamp)
    (code : Option String) : (s.record jobId state now code).states other =
      s.states other ++ if jobId = other then [state] else [] := by
  by_cases heq : jobId = other <;> simp [states, record, heq]

theorem Sound.sequences_record (h : s.Sound) (jobId : String) (state : JobState) (now : Timestamp)
    (code : Option String) :
    ((s.record jobId state now code).audit.map AuditRow.sequence).Pairwise (· < ·) := by
  simp only [record, List.map_append, List.map_cons, List.map_nil, List.pairwise_append,
    List.pairwise_singleton, List.mem_singleton, forall_eq, true_and]
  refine ⟨h.sequences, fun sequence hsequence => ?_⟩
  obtain ⟨entry, hentry, rfl⟩ := List.mem_map.mp hsequence
  exact Nat.lt_succ_of_le (h.counted entry hentry)

theorem Sound.counted_record (h : s.Sound) (jobId : String) (state : JobState) (now : Timestamp)
    (code : Option String) : ∀ entry ∈ (s.record jobId state now code).audit,
      entry.sequence ≤ (s.record jobId state now code).lastSequence := by
  intro entry hentry
  rcases List.mem_append.mp hentry with hold | hnew
  · exact Nat.le_succ_of_le (h.counted entry hold)
  · rw [List.mem_singleton.mp hnew]
    exact le_rfl

theorem Sound.states_eq_nil (h : s.Sound) (hfresh : jobId ∉ s.jobs.map JobRow.jobId) :
    s.states jobId = [] := by
  simp only [states, List.map_eq_nil_iff, List.filter_eq_nil_iff, decide_eq_true_eq]
  exact fun entry hentry heq => hfresh (heq ▸ h.owned entry hentry)

theorem Sound.queueJob (h : s.Sound) {row : JobRow} (hid : row.jobId ∉ s.jobs.map JobRow.jobId)
    (hkey : row.keyHash ∉ s.jobs.map JobRow.keyHash) (hstate : row.state = .queued)
    (hcoherent : row.fields.Coherent) (hevidence : row.evidence = none) (hroom : s.Room)
    (now : Timestamp) : (s.queueJob row now).Sound := by
  have hmem : ∀ other ∈ s.jobs ++ [row], other ∈ s.jobs ∨ other = row := by simp
  refine ⟨?_, ?_, fun other hother => ?_, fun other hother => ?_, fun other hother => ?_,
    h.sequences_record _ _ _ _, h.counted_record _ _ _ _, fun entry hentry => ?_, ?_, ?_⟩
  · simp only [Store.queueJob, record, List.map_append, List.map_cons, List.map_nil]
    exact (List.nodup_append.mpr ⟨h.ids, List.nodup_singleton _, fun a ha b hb heq =>
      hid (List.mem_singleton.mp hb ▸ heq ▸ ha)⟩)
  · simp only [Store.queueJob, record, List.map_append, List.map_cons, List.map_nil]
    exact (List.nodup_append.mpr ⟨h.keys, List.nodup_singleton _, fun a ha b hb heq =>
      hkey (List.mem_singleton.mp hb ▸ heq ▸ ha)⟩)
  · rw [Store.queueJob, states_record]
    rcases hmem other hother with hold | rfl
    · have hne : row.jobId ≠ other.jobId := fun heq => hid (heq ▸ List.mem_map_of_mem hold)
      rw [if_neg hne, List.append_nil]
      exact h.lifecycle other hold
    · rw [if_pos rfl, show ({ s with jobs := s.jobs ++ [other] } : Store).states other.jobId =
        s.states other.jobId from rfl, h.states_eq_nil hid, hstate]
      exact .queued
  · rcases hmem other hother with hold | rfl
    · exact h.coherent other hold
    · exact hcoherent
  · rcases hmem other hother with hold | rfl
    · exact h.evidence other hold
    · simp [hevidence, hstate]
  · simp only [Store.queueJob, record, List.map_append, List.mem_append] at hentry ⊢
    rcases hentry with hold | hnew
    · exact .inl (h.owned entry hold)
    · rw [List.mem_singleton.mp hnew]
      exact .inr (by simp)
  · simp only [Store.queueJob, record, List.length_append, List.length_singleton]
    exact hroom.1
  · simp only [Store.queueJob, record, List.countP_append, List.countP_singleton]
    have hpending := hroom.2
    split <;> omega

section Moved

variable {row : JobRow} {change : JobRow → JobRow} {state : JobState} {code : Option String}

theorem states_moveJob (s : Store) (jobId other : String) (change : JobRow → JobRow)
    (state : JobState) (now : Timestamp) (code : Option String) :
    (s.moveJob jobId change state now code).states other =
      s.states other ++ if jobId = other then [state] else [] :=
  states_record _ jobId other state now code

/-- The rows of a store in which one job moved. -/
theorem Sound.mem_moveJob (h : s.Sound)
    (hfind : Table.find JobRow.jobId row.jobId s.jobs = some row) {other : JobRow} :
    other ∈ (s.moveJob row.jobId change state now code).jobs ↔
      (other ∈ s.jobs ∧ other.jobId ≠ row.jobId) ∨ other = change row := by
  refine Table.mem_update.trans (or_congr_right ⟨?_, ?_⟩)
  · rintro ⟨old, hold, heq, rfl⟩
    rw [Table.eq_of_key_eq h.ids hold (Table.mem_of_find hfind) heq]
  · rintro rfl
    exact ⟨row, Table.mem_of_find hfind, rfl, rfl⟩

theorem Sound.moveJob (h : s.Sound) (hfind : Table.find JobRow.jobId row.jobId s.jobs = some row)
    (hfollows : row.state.Follows state) (hchange : Change change state)
    (hcoherent : (change row).fields.Coherent)
    (hevidence : (change row).evidence.isSome = true ↔ state = .succeeded) (now : Timestamp)
    (code : Option String) : (s.moveJob row.jobId change state now code).Sound := by
  have hids : (s.moveJob row.jobId change state now code).jobs.map JobRow.jobId =
      s.jobs.map JobRow.jobId := Table.map_update hchange.jobId
  have hkeys : (s.moveJob row.jobId change state now code).jobs.map JobRow.keyHash =
      s.jobs.map JobRow.keyHash := Table.map_update hchange.keyHash
  have hmem := Table.mem_of_find hfind
  refine ⟨hids ▸ h.ids, hkeys ▸ h.keys, fun other hother => ?_, fun other hother => ?_,
    fun other hother => ?_, h.sequences_record _ _ _ _, h.counted_record _ _ _ _,
    fun entry hentry => ?_, ?_, ?_⟩
  · rw [states_moveJob]
    rcases (h.mem_moveJob hfind).mp hother with ⟨hold, hne⟩ | rfl
    · rw [if_neg hne.symm, List.append_nil]
      exact h.lifecycle other hold
    · rw [hchange.jobId, hchange.state, if_pos rfl]
      exact (h.lifecycle row hmem).next hfollows
  · rcases (h.mem_moveJob hfind).mp hother with ⟨hold, -⟩ | rfl
    · exact h.coherent other hold
    · exact hcoherent
  · rcases (h.mem_moveJob hfind).mp hother with ⟨hold, -⟩ | rfl
    · exact h.evidence other hold
    · rw [hchange.state]
      exact hevidence
  · rw [hids]
    rcases List.mem_append.mp hentry with hold | hnew
    · exact h.owned entry hold
    · rw [List.mem_singleton.mp hnew]
      exact List.mem_map_of_mem hmem
  · have hlength : (s.moveJob row.jobId change state now code).jobs.length = s.jobs.length :=
      Table.length_update
    exact hlength.trans_le h.retained
  · -- a job that is pending after the move was pending before it
    refine le_trans ?_ h.pending
    rw [Store.moveJob, record, updateJob, Table.update, List.countP_map]
    refine List.countP_mono_left fun other hother hpending => ?_
    simp only [Function.comp] at hpending
    split at hpending
    · next heq =>
        rw [Table.eq_of_key_eq h.ids hother hmem heq, isPending_iff]
        exact hfollows.not_terminal
    · exact hpending

end Moved

theorem Sound.commit (h : s.Sound) (hcommit : Commit s s') : s'.Sound := by
  cases hcommit with
  | queued hid hkey hstate hcoherent hevidence hroom =>
      exact h.queueJob hid hkey hstate hcoherent hevidence hroom _
  | moved hfind hfollows hchange hcoherent hevidence =>
      exact h.moveJob hfind hfollows hchange hcoherent hevidence _ _

theorem Keeps.refl (s : Store) : s.Keeps s := fun row hrow =>
  ⟨row, hrow, ⟨rfl, rfl, rfl⟩, fun _ => ⟨rfl, rfl⟩⟩

theorem Keeps.trans {s'' : Store} (h : s.Keeps s') (h' : s'.Keeps s'') : s.Keeps s'' := by
  intro row hrow
  obtain ⟨row', hrow', ⟨hid, hkey, hrequest⟩, hended⟩ := h row hrow
  obtain ⟨row'', hrow'', ⟨hid', hkey', hrequest'⟩, hended'⟩ := h' row' hrow'
  refine ⟨row'', hrow'', ⟨hid'.trans hid, hkey'.trans hkey, hrequest'.trans hrequest⟩,
    fun hterminal => ?_⟩
  obtain ⟨rfl, hstates⟩ := hended hterminal
  obtain ⟨rfl, hstates'⟩ := hended' hterminal
  exact ⟨rfl, hstates'.trans hstates⟩

theorem Commit.keeps (h : s.Sound) (hcommit : Commit s s') : s.Keeps s' := by
  intro row hrow
  cases hcommit with
  | @queued new now hid hkey hstate hcoherent hevidence hroom =>
      refine ⟨row, List.mem_append_left _ hrow, ⟨rfl, rfl, rfl⟩, fun _ => ⟨rfl, ?_⟩⟩
      have hne : new.jobId ≠ row.jobId := fun heq => hid (heq ▸ List.mem_map_of_mem hrow)
      rw [Store.queueJob, states_record, if_neg hne, List.append_nil]
      rfl
  | @moved moving change state now code hfind hfollows hchange hcoherent hevidence =>
      by_cases heq : row.jobId = moving.jobId
      · obtain rfl := Table.eq_of_key_eq h.ids hrow (Table.mem_of_find hfind) heq
        refine ⟨change row, (h.mem_moveJob hfind).mpr (.inr rfl),
          ⟨hchange.jobId row, hchange.keyHash row, hchange.requestHash row⟩, fun hterminal => ?_⟩
        rw [hfollows.not_terminal] at hterminal
        cases hterminal
      · refine ⟨row, (h.mem_moveJob hfind).mpr (.inl ⟨hrow, heq⟩), ⟨rfl, rfl, rfl⟩,
          fun _ => ⟨rfl, ?_⟩⟩
        rw [states_moveJob, if_neg (Ne.symm heq), List.append_nil]

abbrev Commits : Store → Store → Prop := Relation.ReflTransGen Commit

theorem Sound.commits (h : s.Sound) (hcommits : Commits s s') : s'.Sound ∧ s.Keeps s' := by
  induction hcommits with
  | refl => exact ⟨h, .refl s⟩
  | tail _ hcommit ih => exact ⟨ih.1.commit hcommit, ih.2.trans (hcommit.keeps ih.1)⟩

/-! ## Calls -/

section Calls

theorem Sound.evidence_eq_none (h : s.Sound) {row : JobRow} (hrow : row ∈ s.jobs)
    (hterminal : row.state.Terminal = false) : row.evidence.isSome = true ↔ False := by
  rw [h.evidence row hrow, iff_false]
  intro heq
  rw [heq] at hterminal
  cases hterminal

theorem Sound.commit_transition (h : s.Sound) {row : JobRow} {job : Job} {state : JobState}
    {code : Option String} {now : Timestamp}
    (hfind : Table.find JobRow.jobId row.jobId s.jobs = some row)
    (hfollows : row.state.Follows state) (hsucceeded : state ≠ .succeeded)
    (hjob : job.toJobFields = (transitionRow state code now row).fields) :
    Commit s (s.moveJob row.jobId (transitionRow state code now) state now code) := by
  refine .moved hfind hfollows (change_transitionRow state code now) (hjob ▸ job.coherent) ?_
  refine (h.evidence_eq_none (Table.mem_of_find hfind) hfollows.not_terminal).trans ?_
  exact (iff_false_intro hsucceeded).symm

/-- A transition raises and changes nothing, or commits. -/
theorem Sound.transition (h : s.Sound) (jobId : String) (state : JobState) (code : Option String)
    (now : Timestamp) : (∃ e, s.transition jobId state code now = (.error e, s)) ∨
      ∃ job s', s.transition jobId state code now = (.ok job, s') ∧ Commits s s' := by
  rcases s.transition_cases jobId state code now with ⟨e, hrun⟩ | ⟨job, hrun, -⟩ |
    ⟨row, job, hrun, hfind, hfollows, hsucceeded, hjob⟩
  · exact .inl ⟨e, hrun⟩
  · exact .inr ⟨job, s, hrun, .refl⟩
  · obtain rfl := Table.key_of_find hfind
    exact .inr ⟨job, _, hrun, .single (h.commit_transition hfind hfollows hsucceeded hjob)⟩

theorem Sound.get_eq (h : s.Sound) {row : JobRow} (hrow : row ∈ s.jobs) :
    s.get row.jobId = .ok ⟨row.fields, h.coherent row hrow⟩ :=
  get_eq_ok_iff.mpr ⟨row, ⟨(h.coherent row hrow).jobId, (Table.find_eq_some_iff h.ids).mpr
    ⟨hrow, rfl⟩⟩, rfl⟩

/-- A transition that is allowed succeeds if the job it leaves is valid. -/
theorem Sound.transition_eq (h : s.Sound) {row : JobRow} (hrow : row ∈ s.jobs)
    (hterminal : row.state.Terminal = false) {state : JobState} (hallowed : state ∈ allowed row.state)
    {code : Option String} {now : Timestamp}
    (hvalid : (transitionRow state code now row).fields.Coherent) :
    s.transition row.jobId state code now = (.ok ⟨_, hvalid⟩,
      s.moveJob row.jobId (transitionRow state code now) state now code) := by
  have hcoherent := h.coherent row hrow
  have hfind := (Table.find_eq_some_iff h.ids).mpr ⟨hrow, rfl⟩
  have hmoved := find_moveJob (change_transitionRow state code now) hfind now code
  have hget' : (s.moveJob row.jobId (transitionRow state code now) state now code).get row.jobId =
      .ok ⟨_, hvalid⟩ :=
    get_eq_ok_iff.mpr ⟨_, ⟨hcoherent.jobId, hmoved⟩, rfl⟩
  have hnot : ¬ (⟨row.fields, hcoherent⟩ : Job).state.Terminal = true := by
    simp [JobRow.fields, hterminal]
  have hgranted : ¬ state ∉ allowed (⟨row.fields, hcoherent⟩ : Job).state := not_not.mpr hallowed
  refine write_eq_ok_iff.mpr ?_
  rw [h.get_eq hrow, Fallible.ok_bind, if_neg hnot, Fallible.refuseIf_of_not hgranted,
    Fallible.ok_bind]
  exact congrArg (fun x => x >>= fun job => Except.ok (job, _)) hget'

/-- A job that has not ended can be failed or cancelled. -/
theorem Sound.transition_end (h : s.Sound) {row : JobRow} (hrow : row ∈ s.jobs)
    (hterminal : row.state.Terminal = false) {state : JobState}
    (hstate : state = .failed ∨ state = .cancelled) {code : String}
    (hcode : isIdentifier code = true) (now : Timestamp) :
    ∃ job, s.transition row.jobId state (some code) now =
        (.ok job, s.moveJob row.jobId (transitionRow state (some code) now) state now (some code)) ∧
      Commit s (s.moveJob row.jobId (transitionRow state (some code) now) state now (some code)) ∧
      job.toJobFields = (transitionRow state (some code) now row).fields := by
  have hcoherent := h.coherent row hrow
  have hfind := (Table.find_eq_some_iff h.ids).mpr ⟨hrow, rfl⟩
  have hsucceeded : state ≠ .succeeded := by rcases hstate with rfl | rfl <;> nofun
  have hended : (transitionRow state (some code) now row).fields.Coherent := by
    refine ⟨hcoherent.jobId, hcoherent.requestHash, hcoherent.createdAt, ?_, hcode,
      hcoherent.evidenceHash, ⟨fun heq => absurd heq hsucceeded, fun hsome => ?_⟩, fun hmem => ?_⟩
    · exact now.2.trans_le (by decide)
    · have heq : row.state = .succeeded := hcoherent.published.mpr hsome
      rw [heq] at hterminal
      cases hterminal
    · change state ∈ _ at hmem
      rcases hstate with rfl | rfl <;> simp at hmem
  have hjob : (⟨_, hended⟩ : Job).toJobFields = (transitionRow state (some code) now row).fields :=
    rfl
  refine ⟨_, h.transition_eq hrow hterminal ?_ hended, h.commit_transition hfind
    (JobState.follows_end hterminal hstate) hsucceeded hjob, rfl⟩
  unfold allowed
  rcases hstate with rfl | rfl <;> split <;> simp

/-- A queued job can be started. -/
theorem Sound.transition_start (h : s.Sound) {row : JobRow} (hrow : row ∈ s.jobs)
    (hqueued : row.state = .queued) (now : Timestamp) :
    ∃ job, s.transition row.jobId .running none now =
      (.ok job, s.moveJob row.jobId (transitionRow .running none now) .running now none) := by
  have hcoherent := h.coherent row hrow
  have hvalid : (transitionRow .running none now row).fields.Coherent := by
    refine ⟨hcoherent.jobId, hcoherent.requestHash, hcoherent.createdAt,
      now.2.trans_le (by decide), rfl, hcoherent.evidenceHash, ⟨nofun, fun hsome => ?_⟩,
      fun _ => rfl⟩
    have heq : row.state = .succeeded := hcoherent.published.mpr hsome
    rw [heq] at hqueued
    cases hqueued
  exact ⟨_, h.transition_eq hrow (by rw [hqueued]; rfl) (by rw [hqueued]; decide) hvalid⟩

theorem Sound.failRows (h : s.Sound) (clock : String → Timestamp) {rows : List JobRow}
    (hnodup : (rows.map JobRow.jobId).Nodup)
    (hrows : ∀ row ∈ rows, ∃ job ∈ s.jobs, job.jobId = row.jobId ∧ job.state.Terminal = false) :
    ∃ s', failRows clock rows s = (.ok (), s') ∧ Commits s s' ∧
      ∀ job ∈ s'.jobs, job.state.Terminal = false → job ∈ s.jobs ∧
        job.jobId ∉ rows.map JobRow.jobId := by
  induction rows generalizing s with
  | nil => exact ⟨s, rfl, .refl, fun job hjob _ => ⟨hjob, List.not_mem_nil⟩⟩
  | cons row rows ih =>
      rw [List.map_cons, List.nodup_cons] at hnodup
      obtain ⟨job, hjob, hid, hterminal⟩ := hrows row List.mem_cons_self
      obtain ⟨failed, hrun, hcommit, -⟩ := h.transition_end hjob hterminal (.inl rfl)
        (show isIdentifier "interrupted" = true by decide) (clock job.jobId)
      have hfind := (Table.find_eq_some_iff h.ids).mpr ⟨hjob, rfl⟩
      rw [← hid] at hnodup
      obtain ⟨s₂, hrest, hcommits, hleft⟩ := ih (h.commit hcommit) hnodup.2
        fun other hother => by
          obtain ⟨job', hjob', hid', hterminal'⟩ := hrows other (List.mem_cons_of_mem _ hother)
          refine ⟨job', (h.mem_moveJob hfind).mpr (.inl ⟨hjob', fun heq => hnodup.1 ?_⟩), hid',
            hterminal'⟩
          rw [← heq, hid']
          exact List.mem_map_of_mem hother
      refine ⟨s₂, ?_, .head hcommit hcommits, fun other hother hpending => ?_⟩
      · rw [Store.failRows, ← hid, hrun]
        exact hrest
      · obtain ⟨hmem, hnot⟩ := hleft other hother hpending
        rcases (h.mem_moveJob hfind).mp hmem with ⟨hold, hne⟩ | rfl
        · rw [List.map_cons, List.mem_cons, not_or, ← hid]
          exact ⟨hold, hne, hnot⟩
        · cases hpending

/-- Recovery always returns, and leaves nothing queued or running. -/
theorem Sound.recover (h : s.Sound) (clock : String → Timestamp) :
    ∃ s', s.recover clock = (.ok (), s') ∧ Commits s s' ∧
      ∀ row ∈ s'.jobs, row.state.Terminal = true := by
  have hlength : (s.jobs.filter isPending).length ≤ maxPending := by
    rw [← List.countP_eq_length_filter]
    exact h.pending
  have htake : (s.jobs.filter isPending).take 65 = s.jobs.filter isPending :=
    List.take_of_length_le (hlength.trans (by decide))
  have hnodup : ((s.jobs.filter isPending).map JobRow.jobId).Nodup :=
    h.ids.sublist (List.filter_sublist.map _)
  obtain ⟨s', hrun, hcommits, hleft⟩ := h.failRows clock hnodup
    fun row hrow => by
      obtain ⟨hmem, hpending⟩ := List.mem_filter.mp hrow
      exact ⟨row, hmem, rfl, isPending_iff.mp hpending⟩
  refine ⟨s', ?_, hcommits, fun row hrow => ?_⟩
  · rw [Store.recover, htake, if_neg (not_lt.mpr (hlength.trans (by decide)))]
    exact hrun
  · by_contra hterminal
    rw [Bool.not_eq_true] at hterminal
    obtain ⟨hmem, hnot⟩ := hleft row hrow hterminal
    exact hnot (List.mem_map_of_mem (List.mem_filter.mpr ⟨hmem, isPending_iff.mpr hterminal⟩))

variable [PyRuntime] {Request Evidence : Type} [Canonical Request] [EvidenceOf Evidence Request]

omit [EvidenceOf Evidence Request] in
theorem commit_submit {request : Request} {key : String} {now : Timestamp} {job : Job}
    (hid : jobIdOf request key ∉ s.jobs.map JobRow.jobId)
    (hkey : keyHash key ∉ s.jobs.map JobRow.keyHash) (hroom : s.Room)
    (hget : (s.queueJob (queuedRow request key now) now).get (jobIdOf request key) = .ok job) :
    Commit s (s.queueJob (queuedRow request key now) now) ∧
      job.toJobFields = (queuedRow request key now).fields := by
  obtain ⟨row, ⟨-, hfind⟩, hjob⟩ := get_eq_ok_iff.mp hget
  have hsame : row = queuedRow request key now := by
    rcases List.mem_append.mp (Table.mem_of_find hfind) with hold | hnew
    · exact absurd (Table.key_of_find hfind ▸ List.mem_map_of_mem hold) hid
    · exact List.mem_singleton.mp hnew
  rw [hsame] at hjob
  exact ⟨.queued hid hkey rfl (hjob ▸ job.coherent) rfl hroom, hjob⟩

omit [EvidenceOf Evidence Request] in
/-- A new key is bound to a new job while there is room. -/
theorem submit_eq {request : Request} {key : String} (hkey : isKey key = true)
    (hunused : keyHash key ∉ s.jobs.map JobRow.keyHash)
    (hid : jobIdOf request key ∉ s.jobs.map JobRow.jobId) (hroom : s.Room) (now : Timestamp) :
    ∃ job, s.submit request key now =
      (.ok (job, true), s.queueJob (queuedRow request key now) now) := by
  have hlookup : s.lookup request key = .ok none :=
    lookup_eq_ok_iff.mpr ⟨hkey, .inl ⟨Table.find_eq_none_iff.mpr
      fun row hrow heq => hunused (heq ▸ List.mem_map_of_mem hrow), rfl⟩⟩
  have hvalid : (queuedRow request key now).fields.Coherent :=
    ⟨isDigestText_hexDigest _, isDigestText_hexDigest _, now.2.trans_le (by decide),
      now.2.trans_le (by decide), rfl, rfl, ⟨nofun, nofun⟩, fun _ => rfl⟩
  have hget : (s.queueJob (queuedRow request key now) now).get (jobIdOf request key) =
      .ok ⟨_, hvalid⟩ := by
    refine get_eq_ok_iff.mpr ⟨_, ⟨isDigestText_hexDigest _, ?_⟩, rfl⟩
    have hnone : Table.find JobRow.jobId (jobIdOf request key) s.jobs = none :=
      Table.find_eq_none_iff.mpr fun row hrow heq => hid (heq ▸ List.mem_map_of_mem hrow)
    unfold Table.find at hnone ⊢
    simp [queueJob, record, hnone, queuedRow]
  have hinsert : s.insertJob (queuedRow request key now) =
      .ok { s with jobs := s.jobs ++ [queuedRow request key now] } :=
    if_neg (not_or.mpr ⟨hid, hunused⟩)
  refine ⟨⟨_, hvalid⟩, write_eq_ok_iff.mpr ?_⟩
  rw [hlookup, Fallible.ok_bind]
  dsimp only
  rw [Fallible.refuseIf_of_not (not_or.mpr ⟨not_le.mpr hroom.1, not_le.mpr hroom.2⟩),
    Fallible.ok_bind, hinsert, Fallible.ok_bind]
  exact congrArg (fun x => x >>= fun job => Except.ok ((job, true), _)) hget

/-- A submission raises and changes nothing, or commits. -/
theorem commits_submit (s : Store) (request : Request) (key : String) (now : Timestamp) :
    (∃ e, s.submit request key now = (.error e, s)) ∨
      ∃ result s', s.submit request key now = (.ok result, s') ∧ Commits s s' := by
  rcases s.submit_cases request key now with ⟨e, hrun⟩ | ⟨job, hrun, -⟩ |
    ⟨job, hrun, -, hroom, ⟨hid, hkey⟩, hget⟩
  · exact .inl ⟨e, hrun⟩
  · exact .inr ⟨_, s, hrun, .refl⟩
  · exact .inr ⟨_, _, hrun, .single (commit_submit hid hkey hroom hget).1⟩

omit [Canonical Request] in
theorem commit_publish {row : JobRow} {job : Job} {evidence : Evidence} {now : Timestamp}
    (hfind : Table.find JobRow.jobId row.jobId s.jobs = some row) (hrunning : row.state = .running)
    (hjob : job.toJobFields = (publishRow evidence now row).fields) :
    Commit s (s.moveJob row.jobId (publishRow evidence now) .succeeded now none) :=
  .moved hfind (hrunning ▸ .inl rfl) (change_publishRow evidence now) (hjob ▸ job.coherent)
    (by simp [publishRow])

/-- A publication raises and changes nothing, or commits. -/
theorem commits_publish (s : Store) (jobId : String) (evidence : Evidence) (now : Timestamp) :
    (∃ e, s.publish jobId evidence now = (.error e, s)) ∨
      ∃ job s', s.publish jobId evidence now = (.ok job, s') ∧ Commits s s' := by
  rcases s.publish_cases jobId evidence now with ⟨e, hrun⟩ |
    ⟨row, job, hrun, hfind, hrunning, hjob⟩
  · exact .inl ⟨e, hrun⟩
  · obtain rfl := Table.key_of_find hfind
    exact .inr ⟨job, _, hrun, .single (commit_publish hfind hrunning hjob)⟩

/-- The calls of the store. A restart recovers. -/
inductive Call (Request Evidence : Type) where
  | submit (request : Request) (key : String) (now : Timestamp)
  | transition (jobId : String) (state : JobState) (code : Option String) (now : Timestamp)
  | publish (jobId : String) (evidence : Evidence) (now : Timestamp)
  | recover (clock : String → Timestamp)

/-- Whether a call raises, and the store after it. -/
def step (s : Store) : Call Request Evidence → Except FoundryError Unit × Store
  | .submit request key now =>
      let (result, s') := s.submit request key now
      (result.map fun _ => (), s')
  | .transition jobId state code now =>
      let (result, s') := s.transition jobId state code now
      (result.map fun _ => (), s')
  | .publish jobId evidence now =>
      let (result, s') := s.publish jobId evidence now
      (result.map fun _ => (), s')
  | .recover clock => s.recover clock

/-- The store after a sequence of calls. -/
def after (s : Store) (calls : List (Call Request Evidence)) : Store :=
  calls.foldl (fun s call => (s.step call).2) s

theorem Sound.step (h : s.Sound) (call : Call Request Evidence) :
    (∃ e, s.step call = (.error e, s)) ∨ ∃ s', s.step call = (.ok (), s') ∧ Commits s s' := by
  cases call with
  | submit request key now =>
      rcases s.commits_submit request key now with ⟨e, hrun⟩ | ⟨result, s', hrun, hcommits⟩
      · exact .inl ⟨e, by rw [Store.step, hrun]; rfl⟩
      · exact .inr ⟨s', by rw [Store.step, hrun]; rfl, hcommits⟩
  | transition jobId state code now =>
      rcases h.transition jobId state code now with ⟨e, hrun⟩ | ⟨job, s', hrun, hcommits⟩
      · exact .inl ⟨e, by rw [Store.step, hrun]; rfl⟩
      · exact .inr ⟨s', by rw [Store.step, hrun]; rfl, hcommits⟩
  | publish jobId evidence now =>
      rcases s.commits_publish jobId evidence now with ⟨e, hrun⟩ | ⟨job, s', hrun, hcommits⟩
      · exact .inl ⟨e, by rw [Store.step, hrun]; rfl⟩
      · exact .inr ⟨s', by rw [Store.step, hrun]; rfl, hcommits⟩
  | recover clock =>
      obtain ⟨s', hrun, hcommits, -⟩ := h.recover clock
      exact .inr ⟨s', hrun, hcommits⟩

theorem Sound.after (h : s.Sound) (calls : List (Call Request Evidence)) :
    (s.after calls).Sound ∧ s.Keeps (s.after calls) := by
  induction calls generalizing s with
  | nil => exact ⟨h, .refl s⟩
  | cons call calls ih =>
      have hnext : (s.step call).2.Sound ∧ s.Keeps (s.step call).2 := by
        rcases h.step call with ⟨e, hrun⟩ | ⟨s', hrun, hcommits⟩
        · rw [hrun]
          exact ⟨h, .refl s⟩
        · rw [hrun]
          exact h.commits hcommits
      obtain ⟨hsound, hkeeps⟩ := ih hnext.1
      exact ⟨hsound, hnext.2.trans hkeeps⟩

/-- The history of a store after any calls, whatever calls follow. -/
theorem history_after (calls later : List (Call Request Evidence)) :
    (Store.after {} calls).Sound ∧
      (∀ row ∈ (Store.after {} calls).jobs, row.errorCode ≠ none →
        row.state = .failed ∨ row.state = .cancelled) ∧
      (Store.after {} calls).Keeps ((Store.after {} calls).after later) ∧
      (∀ call : Call Request Evidence, ∀ e, ((Store.after {} calls).step call).1 = .error e →
        ((Store.after {} calls).step call).2 = Store.after {} calls) ∧
      ∀ clock, ∃ s', (Store.after {} calls).recover clock = (.ok (), s') ∧
        ∀ row ∈ s'.jobs, row.state ≠ .queued ∧ row.state ≠ .running := by
  have hsound := (sound_empty.after calls).1
  refine ⟨hsound, fun row hrow hcode => ?_, (hsound.after later).2, fun call e hraised => ?_,
    fun clock => ?_⟩
  · have hfailed := (hsound.coherent row hrow).failed
    by_contra hstate
    refine hcode (hfailed ?_)
    cases hrowState : row.state <;> simp_all [JobRow.fields]
  · rcases hsound.step call with ⟨e', hrun⟩ | ⟨s', hrun, -⟩
    · rw [hrun]
    · rw [hrun] at hraised
      cases hraised
  · obtain ⟨s', hrun, -, hended⟩ := hsound.recover clock
    refine ⟨s', hrun, fun row hrow => ?_⟩
    have hterminal := hended row hrow
    constructor <;> intro heq <;> rw [heq] at hterminal <;> cases hterminal

end Calls

end Store

end Research

end Foundry
