import SignalFoundry.Lattice.Tracking.Histories
import SignalFoundry.Library.Fallible
import SignalFoundry.Library.NumberedTable

/-!
# Transactions of the registry

Every call of the registry moves jobs along their histories, and no event that a history
needs is refused for want of room. Each statement says what it leaves behind; a call is
the sequence of its statements.
-/

namespace Tracking

open Fallible

/-! ## Tracked tables -/

/-- The tables hold a history of every job, and nothing else. -/
structure Database.Tracked (limits : RegistryLimits) (db : Database) : Prop where
  nodup : (db.jobs.map JobRow.jobId).Nodup
  keys_nodup : (db.jobs.map JobRow.idempotencyDigest).Nodup
  history : ∀ row ∈ db.jobs, History row (db.jobEvents row.jobId) (db.jobRuns row.jobId)
  attempts_le : ∀ row ∈ db.jobs, row.maxAttempts ≤ limits.maxAttempts
  checked : ∀ row ∈ db.jobs, row.original.Checked
  jobs_numbered : Numbered JobRow.sequence db.jobs
  events_numbered : Numbered EventRow.sequence db.events
  runs_numbered : Numbered RunRow.sequence db.runs
  events_of : ∀ event ∈ db.events, ∃ row ∈ db.jobs, row.jobId = event.jobId
  runs_of : ∀ run ∈ db.runs, ∃ row ∈ db.jobs, row.jobId = run.jobId

/-- Attempts are counted up, and within an attempt a worker keeps its lease or loses it. -/
def JobRow.Advances (row row' : JobRow) : Prop :=
  row.attemptCount < row'.attemptCount ∨ row'.attemptCount = row.attemptCount ∧
    (row'.state = .running → row.state = .running ∧ row'.leaseOwner = row.leaseOwner ∧
      row'.leaseTokenDigest = row.leaseTokenDigest)

/-- One job has been moved along its history. -/
structure Database.Moved (limits : RegistryLimits) (db : Database) (row row' : JobRow)
    (db' : Database) : Prop where
  tracked : db'.Tracked limits
  mem : row ∈ db.jobs
  unfinished : row.state.terminal = false
  same : row.SameJob row'
  advances : row.Advances row'
  jobs : ∀ other, other ∈ db'.jobs ↔
    (other ∈ db.jobs ∧ other.jobId ≠ row.jobId) ∨ other = row'
  others : ∀ jobId, jobId ≠ row.jobId →
    db'.jobEvents jobId = db.jobEvents jobId ∧ db'.jobRuns jobId = db.jobRuns jobId
  originals : db'.jobs.map JobRow.original = db.jobs.map JobRow.original
  events : ∃ events, db'.events = db.events ++ events ∧
    (row'.state = row.state ∨ ∃ event ∈ events, event.jobId = row.jobId)
  runs : db.runs <+: db'.runs

/-- Every job is still there and has advanced, new rows have come after the old ones, a job
in another state has an event that says so, and what is over stays as it is. -/
structure Database.Follows (limits : RegistryLimits) (db : Database) (rows : List JobRow)
    (db' : Database) : Prop where
  tracked : db'.Tracked limits
  advances : ∀ row ∈ db.jobs, ∃ row' ∈ db'.jobs, row.SameJob row' ∧ row.Advances row'
  terminal : ∀ row ∈ db.jobs, row.state.terminal = true → row ∈ db'.jobs ∧
    db'.jobEvents row.jobId = db.jobEvents row.jobId ∧ db'.jobRuns row.jobId = db.jobRuns row.jobId
  originals : db'.jobs.map JobRow.original = db.jobs.map JobRow.original ++ rows
  events : db.events <+: db'.events
  runs : db.runs <+: db'.runs
  logged : ∀ row ∈ db.jobs, ∀ row' ∈ db'.jobs, row'.jobId = row.jobId →
    row'.state = row.state ∨
      ∃ event ∈ db'.events, event.jobId = row.jobId ∧ db.events.length < event.sequence

namespace JobRow

theorem SameJob.refl (row : JobRow) : row.SameJob row := ⟨rfl⟩

theorem SameJob.trans {row row' row'' : JobRow} (h : row.SameJob row') (h' : row'.SameJob row'') :
    row.SameJob row'' :=
  ⟨h'.original_eq.trans h.original_eq⟩

theorem Advances.refl (row : JobRow) : row.Advances row := .inr ⟨rfl, fun h => ⟨h, rfl, rfl⟩⟩

theorem Advances.trans {row row' row'' : JobRow} (h : row.Advances row')
    (h' : row'.Advances row'') : row.Advances row'' := by
  rcases h with h | ⟨heq, hkept⟩ <;> rcases h' with h' | ⟨heq', hkept'⟩
  · exact .inl (h.trans h')
  · exact .inl (heq' ▸ h)
  · exact .inl (heq ▸ h')
  · refine .inr ⟨heq'.trans heq, fun hrunning => ?_⟩
    obtain ⟨hrunning', howner', htoken'⟩ := hkept' hrunning
    obtain ⟨hrunning, howner, htoken⟩ := hkept hrunning'
    exact ⟨hrunning, howner'.trans howner, htoken'.trans htoken⟩

theorem Advances.le {row row' : JobRow} (h : row.Advances row') :
    row.attemptCount ≤ row'.attemptCount := by
  rcases h with h | ⟨heq, -⟩
  · exact h.le
  · exact heq.ge

/-- A job that gives its lease up advances. -/
theorem Advances.of_not_running {row row' : JobRow}
    (hattempts : row'.attemptCount = row.attemptCount) (hstate : row'.state ≠ .running) :
    row.Advances row' :=
  .inr ⟨hattempts, fun hrunning => (hstate hrunning).elim⟩

end JobRow

namespace Database

variable {limits : RegistryLimits} {db db' db'' : Database} {row row' : JobRow}

theorem Follows.refl (h : db.Tracked limits) : db.Follows limits [] db where
  tracked := h
  advances row hrow := ⟨row, hrow, .refl row, .refl row⟩
  terminal _ hrow _ := ⟨hrow, rfl, rfl⟩
  originals := (List.append_nil _).symm
  events := List.prefix_rfl
  runs := List.prefix_rfl
  logged row hrow row' hrow' heq := .inl (by rw [Table.eq_of_key_eq h.nodup hrow' hrow heq])

theorem Follows.trans {rows rows' : List JobRow} (h : db.Follows limits rows db')
    (h' : db'.Follows limits rows' db'') : db.Follows limits (rows ++ rows') db'' where
  tracked := h'.tracked
  advances row hrow := by
    obtain ⟨row', hrow', hsame, hadvances⟩ := h.advances row hrow
    obtain ⟨row'', hrow'', hsame', hadvances'⟩ := h'.advances row' hrow'
    exact ⟨row'', hrow'', hsame.trans hsame', hadvances.trans hadvances'⟩
  terminal row hrow hterminal := by
    obtain ⟨hmem, hevents, hruns⟩ := h.terminal row hrow hterminal
    obtain ⟨hmem', hevents', hruns'⟩ := h'.terminal row hmem hterminal
    exact ⟨hmem', hevents'.trans hevents, hruns'.trans hruns⟩
  originals := by rw [h'.originals, h.originals, List.append_assoc]
  events := h.events.trans h'.events
  runs := h.runs.trans h'.runs
  logged row hrow row'' hrow'' heq := by
    obtain ⟨row', hrow', hsame, -⟩ := h.advances row hrow
    rcases h'.logged row' hrow' row'' hrow'' (heq.trans hsame.jobId_eq.symm) with
      hstate' | ⟨event, hevent, hjobId, hlt⟩
    · rcases h.logged row hrow row' hrow' hsame.jobId_eq with hstate | ⟨event, hevent, hrest⟩
      · exact .inl (hstate'.trans hstate)
      · exact .inr ⟨event, h'.events.subset hevent, hrest⟩
    · exact .inr ⟨event, hevent, hjobId.trans hsame.jobId_eq,
        h.events.length_le.trans_lt hlt⟩

theorem Moved.follows (h : db.Moved limits row row' db') (hdb : db.Tracked limits) :
    db.Follows limits [] db' where
  tracked := h.tracked
  advances other hother := by
    by_cases heq : other.jobId = row.jobId
    · obtain rfl := Table.eq_of_key_eq hdb.nodup hother h.mem heq
      exact ⟨row', (h.jobs row').mpr (.inr rfl), h.same, h.advances⟩
    · exact ⟨other, (h.jobs other).mpr (.inl ⟨hother, heq⟩), .refl other, .refl other⟩
  terminal other hother hterminal := by
    have hne : other.jobId ≠ row.jobId := by
      intro heq
      rw [Table.eq_of_key_eq hdb.nodup hother h.mem heq, h.unfinished] at hterminal
      nomatch hterminal
    exact ⟨(h.jobs other).mpr (.inl ⟨hother, hne⟩), h.others _ hne⟩
  originals := h.originals.trans (List.append_nil _).symm
  events := by
    obtain ⟨events, hevents, -⟩ := h.events
    exact ⟨events, hevents.symm⟩
  runs := h.runs
  logged other hother other' hother' heq := by
    rcases (h.jobs other').mp hother' with ⟨hold, -⟩ | rfl
    · exact .inl (by rw [Table.eq_of_key_eq hdb.nodup hold hother heq])
    · obtain rfl := Table.eq_of_key_eq hdb.nodup hother h.mem (heq.symm.trans h.same.jobId_eq)
      obtain ⟨events, hevents, hstate | ⟨event, hevent, hjobId⟩⟩ := h.events
      · exact .inl hstate
      · have hnumbered := h.tracked.events_numbered
        rw [hevents] at hnumbered
        exact .inr ⟨event, hevents ▸ List.mem_append_right _ hevent, hjobId,
          hnumbered.length_lt_of_mem hevent⟩

theorem Tracked.empty (limits : RegistryLimits) : ({} : Database).Tracked limits where
  nodup := List.nodup_nil
  keys_nodup := List.nodup_nil
  history := by simp
  attempts_le := by simp
  checked := by simp
  jobs_numbered := .nil _
  events_numbered := .nil _
  runs_numbered := .nil _
  events_of := by simp
  runs_of := by simp

/-- A column of the submissions is the same where the submissions are. -/
theorem map_of_originals {A : Type} {rows rows' : List JobRow}
    (h : rows'.map JobRow.original = rows.map JobRow.original) (column : JobRow → A)
    (hcolumn : ∀ row, column (JobRow.original row) = column row) :
    rows'.map column = rows.map column := by
  have hmap (rows : List JobRow) : rows.map column = (rows.map JobRow.original).map column := by
    rw [List.map_map]
    exact List.map_congr_left fun row _ => (hcolumn row).symm
  rw [hmap rows', hmap rows, h]

namespace Tracked

theorem find_eq (h : db.Tracked limits) (hrow : row ∈ db.jobs) :
    db.findJob row.jobId = some row :=
  (Table.find_eq_some_iff h.nodup).mpr ⟨hrow, rfl⟩

/-- There is room for what can happen to a job that is not over. -/
theorem room (h : db.Tracked limits) (hrow : row ∈ db.jobs) (hopen : row.state.terminal = false) :
    (db.jobEvents row.jobId).length < limits.maxEventsPerJob ∧ (row.state = .queued →
      (db.jobEvents row.jobId).length + 1 < limits.maxEventsPerJob) := by
  obtain ⟨hlt, hqueued⟩ := (h.history row hrow).length_lt hopen
  have hattempts := h.attempts_le row hrow
  have hreserved := limits.events_le
  exact ⟨by omega, fun hstate => by have := hqueued hstate; omega⟩

theorem lt_of_mem_jobEvents (h : db.Tracked limits) {jobId : String} {event : EventRow}
    (hevent : event ∈ db.jobEvents jobId) : event.sequence < db.events.length + 1 :=
  Nat.lt_succ_of_le (h.events_numbered.bounds (List.mem_of_mem_filter hevent)).2

theorem lt_of_mem_jobRuns (h : db.Tracked limits) {jobId : String} {run : RunRow}
    (hrun : run ∈ db.jobRuns jobId) : run.sequence < db.runs.length + 1 :=
  Nat.lt_succ_of_le (h.runs_numbered.bounds (List.mem_of_mem_filter hrun)).2

/-- The tables after one job has been moved along its history. -/
theorem moved (h : db.Tracked limits) (hrow : row ∈ db.jobs)
    (hopen : row.state.terminal = false) (change : JobRow → JobRow)
    (hsame : ∀ row : JobRow, row.SameJob (change row)) (hadvances : row.Advances (change row))
    {events : List EventRow} {runs : List RunRow}
    (hjobs : db'.jobs = Table.update JobRow.jobId row.jobId change db.jobs)
    (hevents : db'.events = db.events ++ events) (hruns : db'.runs = db.runs ++ runs)
    (hevents_of : ∀ event ∈ events, event.jobId = row.jobId)
    (hruns_of : ∀ run ∈ runs, run.jobId = row.jobId)
    (hlogged : (change row).state = row.state ∨ events ≠ [])
    (hevents_numbered : Numbered EventRow.sequence db'.events)
    (hruns_numbered : Numbered RunRow.sequence db'.runs)
    (hhistory : History (change row) (db.jobEvents row.jobId ++ events)
      (db.jobRuns row.jobId ++ runs)) : db.Moved limits row (change row) db' := by
  have hmem (other : JobRow) : other ∈ db'.jobs ↔
      (other ∈ db.jobs ∧ other.jobId ≠ row.jobId) ∨ other = change row := by
    rw [hjobs, Table.mem_update]
    refine or_congr_right ⟨?_, fun heq => ⟨row, hrow, rfl, heq⟩⟩
    rintro ⟨old, hold, hkey, rfl⟩
    rw [Table.eq_of_key_eq h.nodup hold hrow hkey]
  have hkept (jobId : String) (hjob : ∃ other ∈ db.jobs, other.jobId = jobId) :
      ∃ other ∈ db'.jobs, other.jobId = jobId := by
    obtain ⟨other, hother, rfl⟩ := hjob
    by_cases heq : other.jobId = row.jobId
    · exact ⟨change row, (hmem _).mpr (.inr rfl), by rw [(hsame row).jobId_eq, heq]⟩
    · exact ⟨other, (hmem _).mpr (.inl ⟨hother, heq⟩), rfl⟩
  have hothers {jobId : String} (hne : jobId ≠ row.jobId) :
      db'.jobEvents jobId = db.jobEvents jobId ∧ db'.jobRuns jobId = db.jobRuns jobId := by
    have hnone : events.filter (fun event => event.jobId = jobId) = [] := by
      simp only [List.filter_eq_nil_iff, decide_eq_true_eq]
      exact fun event hevent heq => hne (heq.symm.trans (hevents_of event hevent))
    have hnone' : runs.filter (fun run => run.jobId = jobId) = [] := by
      simp only [List.filter_eq_nil_iff, decide_eq_true_eq]
      exact fun run hrun heq => hne (heq.symm.trans (hruns_of run hrun))
    simp only [jobEvents, jobRuns, hevents, hruns, List.filter_append, hnone, hnone',
      List.append_nil, and_self]
  have hself : db'.jobEvents row.jobId = db.jobEvents row.jobId ++ events ∧
      db'.jobRuns row.jobId = db.jobRuns row.jobId ++ runs := by
    have hall : events.filter (fun event => event.jobId = row.jobId) = events :=
      List.filter_eq_self.mpr fun event hevent => decide_eq_true (hevents_of event hevent)
    have hall' : runs.filter (fun run => run.jobId = row.jobId) = runs :=
      List.filter_eq_self.mpr fun run hrun => decide_eq_true (hruns_of run hrun)
    simp only [jobEvents, jobRuns, hevents, hruns, List.filter_append, hall, hall', and_self]
  have horiginals : db'.jobs.map JobRow.original = db.jobs.map JobRow.original := by
    rw [hjobs, Table.map_update fun row => (hsame row).original_eq]
  have hlog : (change row).state = row.state ∨ ∃ event ∈ events, event.jobId = row.jobId :=
    hlogged.imp_right fun hne => by
      obtain ⟨event, hevent⟩ := List.exists_mem_of_ne_nil events hne
      exact ⟨event, hevent, hevents_of event hevent⟩
  refine ⟨?_, hrow, hopen, hsame row, hadvances, hmem, fun jobId => hothers, horiginals,
    ⟨events, hevents, hlog⟩, ⟨runs, hruns.symm⟩⟩
  constructor
  · rw [map_of_originals horiginals JobRow.jobId fun _ => rfl]
    exact h.nodup
  · rw [map_of_originals horiginals JobRow.idempotencyDigest fun _ => rfl]
    exact h.keys_nodup
  · intro other hother
    rcases (hmem other).mp hother with ⟨hold, hne⟩ | rfl
    · rw [(hothers hne).1, (hothers hne).2]
      exact h.history other hold
    · rw [(hsame row).jobId_eq, hself.1, hself.2]
      exact hhistory
  · intro other hother
    rcases (hmem other).mp hother with ⟨hold, -⟩ | rfl
    · exact h.attempts_le other hold
    · rw [(hsame row).maxAttempts_eq]
      exact h.attempts_le row hrow
  · intro other hother
    obtain ⟨other', hother', heq⟩ :=
      List.mem_map.mp (horiginals ▸ List.mem_map_of_mem (f := JobRow.original) hother)
    rw [← heq]
    exact h.checked other' hother'
  · exact h.jobs_numbered.of_map_eq (map_of_originals horiginals _ fun _ => rfl)
  · exact hevents_numbered
  · exact hruns_numbered
  · intro event hevent
    refine hkept _ ?_
    rcases List.mem_append.mp (hevents ▸ hevent) with hold | hnew
    · exact h.events_of event hold
    · exact ⟨row, hrow, (hevents_of event hnew).symm⟩
  · intro run hrun
    refine hkept _ ?_
    rcases List.mem_append.mp (hruns ▸ hrun) with hold | hnew
    · exact h.runs_of run hold
    · exact ⟨row, hrow, (hruns_of run hnew).symm⟩

/-- The tables after a step that no event records. -/
theorem renewed (h : db.Tracked limits) (hrow : row ∈ db.jobs)
    (hopen : row.state.terminal = false) (change : JobRow → JobRow)
    (hsame : ∀ row : JobRow, row.SameJob (change row)) (hadvances : row.Advances (change row))
    (hstate : (change row).state = row.state)
    (hhistory : History (change row) (db.jobEvents row.jobId) (db.jobRuns row.jobId)) :
    db.Moved limits row (change row)
      { db with jobs := Table.update JobRow.jobId row.jobId change db.jobs } := by
  refine h.moved hrow hopen change hsame hadvances rfl (List.append_nil _).symm
    (List.append_nil _).symm ?_ ?_ (.inl hstate) h.events_numbered h.runs_numbered ?_
  · simp
  · simp
  · rw [List.append_nil, List.append_nil]
    exact hhistory

/-- The tables after a step that one event records. -/
theorem recorded (h : db.Tracked limits) (hrow : row ∈ db.jobs)
    (hopen : row.state.terminal = false) (change : JobRow → JobRow)
    (hsame : ∀ row : JobRow, row.SameJob (change row)) (hadvances : row.Advances (change row))
    {event : EventRow} (hjobId : event.jobId = row.jobId)
    (hnumbered : Numbered EventRow.sequence (db.events ++ [event]))
    (hhistory : History (change row) (db.jobEvents row.jobId ++ [event])
      (db.jobRuns row.jobId)) :
    db.Moved limits row (change row)
      { db with
        jobs := Table.update JobRow.jobId row.jobId change db.jobs
        events := db.events ++ [event] } := by
  refine h.moved hrow hopen change hsame hadvances rfl rfl (List.append_nil _).symm ?_ ?_
    (.inr (List.cons_ne_nil _ _)) hnumbered h.runs_numbered ?_
  · exact List.forall_mem_singleton.mpr hjobId
  · simp
  · rw [List.append_nil]
    exact hhistory

/-- The tables after a submission. -/
theorem submitted (h : db.Tracked limits) (hfresh : row.Fresh) (hchecked : row.Checked)
    (hnew : ∀ other ∈ db.jobs, other.jobId ≠ row.jobId)
    (hkey : ∀ other ∈ db.jobs, other.idempotencyDigest ≠ row.idempotencyDigest)
    (hattempts : row.maxAttempts ≤ limits.maxAttempts) (hjobs : db'.jobs = db.jobs ++ [row])
    (hevents : db'.events = db.events ++ [⟨db.events.length + 1, row.jobId, .submitted, none,
      .queued, row.createdAt, 0, "submitter", .requestDigest row.requestDigest⟩])
    (hruns : db'.runs = db.runs) (hjobs_numbered : Numbered JobRow.sequence db'.jobs)
    (hevents_numbered : Numbered EventRow.sequence db'.events) :
    db.Follows limits [row] db' := by
  have hmem (other : JobRow) : other ∈ db'.jobs ↔ other ∈ db.jobs ∨ other = row := by
    rw [hjobs, List.mem_append, List.mem_singleton]
  have hkept (jobId : String) (hjob : ∃ other ∈ db.jobs, other.jobId = jobId) :
      ∃ other ∈ db'.jobs, other.jobId = jobId := by
    obtain ⟨other, hother, heq⟩ := hjob
    exact ⟨other, (hmem other).mpr (.inl hother), heq⟩
  have hno_events : db.jobEvents row.jobId = [] := by
    simp only [jobEvents, List.filter_eq_nil_iff, decide_eq_true_eq]
    intro event hevent heq
    obtain ⟨other, hother, hjob⟩ := h.events_of event hevent
    exact hnew other hother (hjob.trans heq)
  have hno_runs : db.jobRuns row.jobId = [] := by
    simp only [jobRuns, List.filter_eq_nil_iff, decide_eq_true_eq]
    intro run hrun heq
    obtain ⟨other, hother, hjob⟩ := h.runs_of run hrun
    exact hnew other hother (hjob.trans heq)
  have hruns_eq (jobId : String) : db'.jobRuns jobId = db.jobRuns jobId := by
    rw [jobRuns, hruns, jobRuns]
  have hevents_eq {jobId : String} (hne : row.jobId ≠ jobId) :
      db'.jobEvents jobId = db.jobEvents jobId := by
    rw [jobEvents, hevents, List.filter_append, List.filter_singleton, decide_eq_false hne]
    exact List.append_nil _
  have hne {other : JobRow} (hother : other ∈ db.jobs) : row.jobId ≠ other.jobId :=
    fun heq => hnew other hother heq.symm
  have htracked : db'.Tracked limits := by
    constructor
    · rw [hjobs, List.map_append]
      exact List.nodup_append.mpr ⟨h.nodup, List.nodup_singleton _, by simpa using hnew⟩
    · rw [hjobs, List.map_append]
      exact List.nodup_append.mpr ⟨h.keys_nodup, List.nodup_singleton _, by simpa using hkey⟩
    · intro other hother
      rcases (hmem other).mp hother with hold | rfl
      · rw [hevents_eq (hne hold), hruns_eq]
        exact h.history other hold
      · have hown : db'.jobEvents other.jobId = db.jobEvents other.jobId ++
            [⟨db.events.length + 1, other.jobId, .submitted, none, .queued, other.createdAt, 0,
              "submitter", .requestDigest other.requestDigest⟩] := by
          rw [jobEvents, hevents, List.filter_append, List.filter_singleton, decide_eq_true rfl]
          rfl
        rw [hown, hruns_eq, hno_events, hno_runs]
        exact .submitted hfresh
    · intro other hother
      rcases (hmem other).mp hother with hold | rfl
      · exact h.attempts_le other hold
      · exact hattempts
    · intro other hother
      rcases (hmem other).mp hother with hold | rfl
      · exact h.checked other hold
      · rw [hfresh.original_eq]
        exact hchecked
    · exact hjobs_numbered
    · exact hevents_numbered
    · rw [hruns]
      exact h.runs_numbered
    · intro event hevent
      rcases List.mem_append.mp (hevents ▸ hevent) with hold | hnew'
      · exact hkept _ (h.events_of event hold)
      · rw [List.mem_singleton.mp hnew']
        exact ⟨row, (hmem row).mpr (.inr rfl), rfl⟩
    · rw [hruns]
      exact fun run hrun => hkept _ (h.runs_of run hrun)
  refine ⟨htracked, fun other hother => ⟨other, (hmem other).mpr (.inl hother), .refl other,
    .refl other⟩, fun other hother _ => ⟨(hmem other).mpr (.inl hother),
      hevents_eq (hne hother), hruns_eq _⟩, ?_, ⟨_, hevents.symm⟩, hruns ▸ List.prefix_rfl, ?_⟩
  · rw [hjobs, List.map_append, List.map_singleton, hfresh.original_eq]
  · intro other hother other' hother' heq
    rw [Table.eq_of_key_eq htracked.nodup hother' ((hmem other).mpr (.inl hother)) heq]
    exact .inl rfl

end Tracked

end Database

/-- The tables after the run of an attempt has been written. -/
def Database.withRun (db : Database) (run : RunRow) (artifacts : List RunArtifactRow) : Database :=
  { db with runs := db.runs ++ [run], runArtifacts := artifacts }

/-! ## Statements -/

/-- The refusal of `_event` that no call meets. -/
def eventCapacity : RegistryError := .capacity "job lifecycle event capacity has been reached"

/-- Exceptions other than that refusal. -/
def NotCapacity (e : RegistryError) : Prop := e ≠ eventCapacity

namespace Database

variable {limits : RegistryLimits} {db : Database} {row : JobRow}

theorem ensures_nextSequence {R : Type} (rows : List R) :
    Ensures (fun n => n = rows.length + 1 ∧ rows.length + 1 ≤ 2 ^ 63 - 1) NotCapacity
      (nextSequence rows) :=
  (Ensures.refuseIf nofun).bind fun _ h => .ok ⟨rfl, not_lt.mp h⟩

theorem ensures_recordEvent (event : EventRow)
    (hroom : (db.jobEvents event.jobId).length < limits.maxEventsPerJob)
    (hnumbered : Numbered EventRow.sequence db.events) :
    Ensures (fun db' => Numbered EventRow.sequence db'.events ∧ db' =
        { db with events := db.events ++ [{ event with sequence := db.events.length + 1 }] })
      NotCapacity (db.recordEvent limits event) := by
  rw [recordEvent, refuseIf_of_not (not_le_of_gt hroom), ok_bind]
  refine (ensures_nextSequence db.events).bind ?_
  rintro _ ⟨rfl, hlength⟩
  exact (Ensures.refuseIf nofun).bind fun _ _ =>
    .ok ⟨hnumbered.append_singleton rfl hlength, rfl⟩

/-- An update of a row that is there and meets the condition. -/
theorem ensures_updateJob (hfind : db.findJob row.jobId = some row) {condition : JobRow → Bool}
    (hcondition : condition row = true) (change : JobRow → JobRow) :
    Ensures (fun updated => updated =
        (1, { db with jobs := Table.update JobRow.jobId row.jobId change db.jobs }))
      NotCapacity (db.updateJob row.jobId condition change) := by
  rw [updateJob, hfind]
  simp only [hcondition, if_true]
  refine (Ensures.refuseIf ?_).bind fun _ _ => .ok rfl
  intro heq
  cases heq

theorem ensures_insertRun (run : RunRow) (hnumbered : Numbered RunRow.sequence db.runs) :
    Ensures (fun db' => Numbered RunRow.sequence db'.runs ∧ db' =
        { db with runs := db.runs ++ [{ run with sequence := db.runs.length + 1 }] })
      NotCapacity (db.insertRun run) := by
  refine (ensures_nextSequence db.runs).bind ?_
  rintro _ ⟨rfl, hlength⟩
  exact (Ensures.refuseIf nofun).bind fun _ _ =>
    .ok ⟨hnumbered.append_singleton rfl hlength, rfl⟩

/-- What an inserted job meets. -/
structure Inserted (db : Database) (row : JobRow) (db' : Database) : Prop where
  checked : row.Checked
  new : ∀ other ∈ db.jobs, other.jobId ≠ row.jobId
  key : ∀ other ∈ db.jobs, other.idempotencyDigest ≠ row.idempotencyDigest
  numbered : Numbered JobRow.sequence db'.jobs
  eq : db' = { db with jobs := db.jobs ++ [{ row with sequence := db.jobs.length + 1 }] }

theorem ensures_insertJob (row : JobRow) (hnumbered : Numbered JobRow.sequence db.jobs) :
    Ensures (db.Inserted row) NotCapacity (db.insertJob row) := by
  refine (ensures_nextSequence db.jobs).bind ?_
  rintro _ ⟨rfl, hlength⟩
  refine (Ensures.refuseIf nofun).bind fun _ hnew => ?_
  push Not at hnew
  exact .ok ⟨hnew.1, hnew.2.1, hnew.2.2, hnumbered.append_singleton rfl hlength, rfl⟩

theorem ensures_requireJob [PyRuntime] (hdb : db.Tracked limits) (jobId : String) :
    Ensures (fun row => row ∈ db.jobs ∧ row.jobId = jobId) NotCapacity (db.requireJob jobId) := by
  unfold requireJob
  split
  · next row hfind => exact (Table.find_eq_some_iff hdb.nodup).mp hfind
  · exact nofun

end Database

theorem ensures_requireStoredInt (value : ℤ) (fieldName : String) (lower upper : ℤ) :
    Ensures (fun _ => True) NotCapacity (requireStoredInt value fieldName lower upper) :=
  (Ensures.refuseIf nofun).mono fun _ _ => trivial

theorem ensures_storedText (value fieldName : String) (maximum : ℕ) :
    Ensures (fun _ => True) NotCapacity (storedText value fieldName maximum) :=
  (Ensures.refuseIf nofun).mono fun _ _ => trivial

theorem ensures_optionalText (value : Option String) (fieldName : String) (maximum : ℕ) :
    Ensures (fun _ => True) NotCapacity (optionalText value fieldName maximum) := by
  cases value with
  | none => exact trivial
  | some text => exact ensures_storedText text fieldName maximum

namespace JobRow

/-- A snapshot reads a row. -/
theorem ensures_snapshot (row : JobRow) :
    Ensures (fun s => s = row.toSnapshot) NotCapacity row.snapshot := by
  unfold snapshot
  refine (ensures_requireStoredInt ..).bind fun _ _ => ?_
  refine (ensures_storedText ..).bind fun _ _ => ?_
  refine (ensures_storedText ..).bind fun _ _ => ?_
  refine (ensures_requireStoredInt ..).bind fun _ _ => ?_
  refine (ensures_requireStoredInt ..).bind fun _ _ => ?_
  refine (ensures_requireStoredInt ..).bind fun _ _ => ?_
  refine (ensures_optionalText ..).bind fun _ _ => ?_
  refine (ensures_optionalText ..).bind fun _ _ => ?_
  exact (Ensures.refuseIf nofun).bind fun _ _ => .ok rfl

theorem ensures_requireMonotonic (row : JobRow) (current : Instant) :
    Ensures (fun _ => row.updatedAt ≤ current) NotCapacity (row.requireMonotonic current) :=
  (Ensures.refuseIf nofun).mono fun _ h => not_lt.mp h

end JobRow

theorem RunRow.ensures_readable (row : RunRow) :
    Ensures (fun _ => True) NotCapacity row.readable := by
  unfold readable
  refine (ensures_requireStoredInt ..).bind fun _ _ => ?_
  refine (ensures_storedText ..).bind fun _ _ => ?_
  refine (ensures_storedText ..).bind fun _ _ => ?_
  refine (ensures_requireStoredInt ..).bind fun _ _ => ?_
  refine (ensures_requireStoredInt ..).bind fun _ _ => ?_
  refine (ensures_optionalText ..).bind fun _ _ => ?_
  refine (ensures_optionalText ..).bind fun _ _ => ?_
  refine (ensures_optionalText ..).bind fun _ _ => ?_
  exact (Ensures.refuseIf nofun).mono fun _ _ => trivial

theorem Surroundings.ensures_now (around : Surroundings) :
    Ensures (fun instant => around.clock = some instant) NotCapacity around.now := by
  unfold now
  split
  · next instant hclock => exact hclock
  · exact nofun

/-! ## Recovery -/

namespace RunRegistry

variable {registry : RunRegistry} {db : Database} {row : JobRow} {instant : Instant}

theorem ensures_expireJob (hdb : db.Tracked registry.limits) (hrow : row ∈ db.jobs)
    (hexpired : row.expiredAt instant = true) :
    Ensures (fun db' => ∃ row', row'.state ≠ .running ∧ row'.jobId = row.jobId ∧
      db.Moved registry.limits row row' db') NotCapacity (registry.expireJob instant db row) := by
  have hrunning := (JobRow.expiredAt_iff.mp hexpired).1
  have hopen : row.state.terminal = false := by rw [hrunning]; rfl
  have hhistory := hdb.history row hrow
  have hsettles := History.settles_expire hhistory.consistent hrunning instant
  have hroom := (hdb.room hrow hopen).1
  have hnext := History.expired hhistory hexpired fun event => hdb.lt_of_mem_jobEvents
  unfold expireJob
  refine row.ensures_snapshot.bind fun snapshot hsnapshot => ?_
  subst hsnapshot
  refine (Ensures.refuseIf nofun).bind fun _ _ => ?_
  rcases houtcome : expiryOutcome row with ⟨state, failureCode, failureSummary⟩
  rw [houtcome] at hnext hsettles
  refine (Database.ensures_updateJob (hdb.find_eq hrow) hexpired _).bind fun updated hupdated => ?_
  subst hupdated
  refine Ensures.mono (Database.ensures_recordEvent _ hroom hdb.events_numbered) ?_
  rintro _ ⟨hnumbered, rfl⟩
  exact ⟨_, hsettles.state_ne, rfl, hdb.recorded hrow hopen
    (JobRow.expire state instant failureCode failureSummary) (fun _ => ⟨rfl⟩)
      (.of_not_running hsettles.attemptCount_eq hsettles.state_ne) rfl hnumbered hnext⟩

/-- Recovery leaves every job alone that it does not take from a worker, and takes the job
that it is asked to prefer. -/
structure Recovered (registry : RunRegistry) (instant : Instant)
    (prioritizedJobId : Option String) (db db' : Database) : Prop where
  follows : db.Follows registry.limits [] db'
  running : ∀ row ∈ db'.jobs, row.state = .running → row ∈ db.jobs
  prioritized : ∀ row ∈ db'.jobs, prioritizedJobId = some row.jobId →
    row.expiredAt instant = false

/-- The state of the loop of `_recover_expired`. -/
structure Recovering (registry : RunRegistry) (instant : Instant)
    (prioritizedJobId : Option String) (db : Database) (rows : List JobRow) (db' : Database) :
    Prop where
  follows : db.Follows registry.limits [] db'
  running : ∀ row ∈ db'.jobs, row.state = .running → row ∈ db.jobs
  nodup : (rows.map JobRow.jobId).Nodup
  expired : ∀ row ∈ rows, row ∈ db'.jobs ∧ row.expiredAt instant = true
  remaining : ∀ row ∈ db'.jobs, prioritizedJobId = some row.jobId →
    row.expiredAt instant = true → row ∈ rows

theorem recovering_expiredRows (hdb : db.Tracked registry.limits) (instant : Instant)
    (prioritizedJobId : Option String) :
    Recovering registry instant prioritizedJobId db
      (registry.expiredRows db instant prioritizedJobId) db := by
  have htarget (row : JobRow) : row ∈ (prioritizedJobId.bind fun jobId =>
      (db.findJob jobId).filter (·.expiredAt instant)).toList ↔
        row ∈ db.jobs ∧ prioritizedJobId = some row.jobId ∧ row.expiredAt instant = true := by
    cases prioritizedJobId with
    | none => simp
    | some jobId =>
        rw [Option.mem_toList, Option.bind_some, Option.filter_eq_some_iff,
          Database.findJob, Table.find_eq_some_iff hdb.nodup, Option.some_inj]
        constructor
        · rintro ⟨⟨hrow, rfl⟩, hexpired⟩
          exact ⟨hrow, rfl, hexpired⟩
        · rintro ⟨hrow, rfl, hexpired⟩
          exact ⟨⟨hrow, rfl⟩, hexpired⟩
  have hother (row : JobRow) (hrow : row ∈ (db.jobs.filter fun row =>
      row.expiredAt instant && prioritizedJobId ≠ some row.jobId).take
        (registry.limits.recoveryBatchSize - (prioritizedJobId.bind fun jobId =>
          (db.findJob jobId).filter (·.expiredAt instant)).toList.length)) :
      row ∈ db.jobs ∧ row.expiredAt instant = true ∧ prioritizedJobId ≠ some row.jobId := by
    simpa using List.mem_of_mem_take hrow
  refine ⟨.refl hdb, fun row hrow _ => hrow, ?_, ?_, ?_⟩
  · rw [expiredRows, List.map_append, List.nodup_append]
    refine ⟨?_, ?_, ?_⟩
    · cases prioritizedJobId.bind fun jobId =>
        (db.findJob jobId).filter (·.expiredAt instant) <;> simp
    · exact hdb.nodup.sublist (((List.take_sublist _ _).trans List.filter_sublist).map _)
    · intro jobId hjobId jobId' hjobId' heq
      obtain ⟨row, hrow, rfl⟩ := List.mem_map.mp hjobId
      obtain ⟨row', hrow', rfl⟩ := List.mem_map.mp hjobId'
      exact (hother row' hrow').2.2 (heq ▸ ((htarget row).mp hrow).2.1)
  · intro row hrow
    rcases List.mem_append.mp hrow with htaken | htaken
    · obtain ⟨hmem, -, hexpired⟩ := (htarget row).mp htaken
      exact ⟨hmem, hexpired⟩
    · obtain ⟨hmem, hexpired, -⟩ := hother row htaken
      exact ⟨hmem, hexpired⟩
  · exact fun row hrow hprioritized hexpired =>
      List.mem_append_left _ ((htarget row).mpr ⟨hrow, hprioritized, hexpired⟩)

theorem ensures_recoverRows (hdb : db.Tracked registry.limits) (instant : Instant)
    (prioritizedJobId : Option String) :
    Ensures (fun recovered => Recovered registry instant prioritizedJobId db recovered.2)
      NotCapacity (registry.recoverRows db instant prioritizedJobId) := by
  unfold recoverRows
  refine Ensures.bind (Ensures.foldlM (I := Recovering registry instant prioritizedJobId db)
    (recovering_expiredRows hdb instant prioritizedJobId) ?_) ?_
  · intro row rows now hnow
    obtain ⟨hrow, hexpired⟩ := hnow.expired row List.mem_cons_self
    obtain ⟨hnew, hnodup⟩ := List.nodup_cons.mp hnow.nodup
    refine (ensures_expireJob hnow.follows.tracked hrow hexpired).mono ?_
    rintro now' ⟨row', hstate, hjobId, hmoved⟩
    have hnot : row'.expiredAt instant = true → False := fun hexpired' =>
      hstate (JobRow.expiredAt_iff.mp hexpired').1
    refine ⟨hnow.follows.trans (hmoved.follows hnow.follows.tracked), ?_, hnodup, ?_, ?_⟩
    · intro other hother hrunning
      rcases (hmoved.jobs other).mp hother with ⟨hold, -⟩ | rfl
      · exact hnow.running other hold hrunning
      · exact (hstate hrunning).elim
    · intro other hother
      obtain ⟨hold, hexpired'⟩ := hnow.expired other (List.mem_cons_of_mem _ hother)
      have hne : other.jobId ≠ row.jobId := fun heq =>
        hnew (heq ▸ List.mem_map_of_mem hother)
      exact ⟨(hmoved.jobs other).mpr (.inl ⟨hold, hne⟩), hexpired'⟩
    · intro other hother hprioritized hexpired'
      rcases (hmoved.jobs other).mp hother with ⟨hold, hne⟩ | rfl
      · rcases List.mem_cons.mp (hnow.remaining other hold hprioritized hexpired') with rfl | hrest
        · exact (hne rfl).elim
        · exact hrest
      · exact (hnot hexpired').elim
  · intro now hnow
    refine ⟨hnow.follows, hnow.running, fun row hrow hprioritized => ?_⟩
    by_contra hexpired
    exact List.not_mem_nil (hnow.remaining row hrow hprioritized (by simpa using hexpired))

end RunRegistry

end Tracking
