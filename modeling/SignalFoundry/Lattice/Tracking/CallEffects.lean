import SignalFoundry.Lattice.Tracking.Transactions

/-!
# What the calls leave behind

Every call of the registry moves jobs along their histories. A call with a lease returns
only while the lease is held by the clock it reads, and after one that closes the attempt
nobody holds it.
-/

namespace Tracking

open Fallible

/-! ## Texts -/

section Texts

variable {F : Type} [PyFloat F] [FloatText F]

theorem ensures_addNode (budget : JsonBudget) :
    Ensures (fun _ => True) NotCapacity budget.addNode :=
  (Ensures.refuseIf nofun).bind fun _ _ => .ok trivial

theorem ensures_addEncodedBytes (budget : JsonBudget) (count : ℕ) :
    Ensures (fun _ => True) NotCapacity (budget.addEncodedBytes count) :=
  (Ensures.refuseIf nofun).bind fun _ _ => .ok trivial

mutual

theorem ensures_freeze : ∀ (v : Json F) (depth : ℕ) (budget : JsonBudget),
    Ensures (fun _ => True) NotCapacity (freeze v depth budget)
  | v, depth, budget => by
      rw [freeze]
      refine (ensures_addNode budget).bind fun budget _ => ?_
      refine (Ensures.refuseIf nofun).bind fun _ _ => ?_
      match v with
      | .null | .bool _ => exact ensures_addEncodedBytes budget _
      | .int _ | .float _ | .str _ =>
          exact (Ensures.refuseIf nofun).bind fun _ _ => ensures_addEncodedBytes budget _
      | .obj members =>
          exact (ensures_addEncodedBytes budget _).bind fun budget _ =>
            ensures_freezeMembers members 0 depth budget
      | .arr items =>
          exact (ensures_addEncodedBytes budget _).bind fun budget _ =>
            ensures_freezeItems items 0 depth budget

theorem ensures_freezeItems : ∀ (items : List (Json F)) (index depth : ℕ) (budget : JsonBudget),
    Ensures (fun _ => True) NotCapacity (freezeItems items index depth budget)
  | [], _, _, _ => by rw [freezeItems]; exact trivial
  | v :: items, index, depth, budget => by
      rw [freezeItems]
      refine (ensures_addEncodedBytes budget _).bind fun budget _ => ?_
      refine (ensures_freeze v (depth + 1) budget).bind fun budget _ => ?_
      exact ensures_freezeItems items (index + 1) depth budget

theorem ensures_freezeMembers : ∀ (members : List (String × Json F)) (index depth : ℕ)
    (budget : JsonBudget),
    Ensures (fun _ => True) NotCapacity (freezeMembers members index depth budget)
  | [], _, _, _ => by rw [freezeMembers]; exact trivial
  | (key, v) :: members, index, depth, budget => by
      rw [freezeMembers]
      refine (Ensures.refuseIf nofun).bind fun _ _ => ?_
      refine (ensures_addEncodedBytes budget _).bind fun budget _ => ?_
      refine (ensures_freeze v (depth + 1) budget).bind fun budget _ => ?_
      exact ensures_freezeMembers members (index + 1) depth budget

end

theorem ensures_canonicalText (request : SubmissionRequest F) :
    Ensures (fun _ => True) NotCapacity request.canonicalText :=
  (ensures_freeze _ 0 {}).bind fun _ _ => trivial

end Texts

namespace RunRegistry

variable [PyRuntime] {registry : RunRegistry} {db : Database} {row : JobRow} {instant : Instant}
  {lease : Lease}

/-! ## Leases -/

/-- The job of a lease that is held. -/
structure Holds (registry : RunRegistry) (db : Database) (lease : Lease) (instant : Instant)
    (row : JobRow) : Prop where
  mem : row ∈ db.jobs
  jobId_eq : row.jobId = lease.jobId
  running : row.state = .running
  owner : row.leaseOwner = some lease.workerId
  token : row.leaseTokenDigest = some (registry.digest leaseDomain lease.token)
  expiry : ∃ expires ∈ row.leaseExpiresAt, instant < expires
  attempt : row.attemptCount = lease.attempt
  monotonic : row.updatedAt ≤ instant

/-- A row as it may be after a call with a lease has returned, which closes the attempt or
does not: another attempt has been claimed since, or nobody else runs this one. -/
def Passed (registry : RunRegistry) (lease : Lease) (closes : Bool) (row : JobRow) : Prop :=
  lease.attempt < row.attemptCount ∨ row.attemptCount = lease.attempt ∧
    (row.state = .running → closes = false ∧ row.leaseOwner = some lease.workerId ∧
      row.leaseTokenDigest = some (registry.digest leaseDomain lease.token))

theorem Passed.of_advances {closes : Bool} {row' : JobRow} (h : registry.Passed lease closes row)
    (hadvances : row.Advances row') : registry.Passed lease closes row' := by
  rcases h with h | ⟨heq, hheld⟩ <;> rcases hadvances with h' | ⟨heq', hkept⟩
  · exact .inl (h.trans h')
  · exact .inl (heq' ▸ h)
  · exact .inl (heq ▸ h')
  · refine .inr ⟨heq'.trans heq, fun hrunning => ?_⟩
    obtain ⟨hrunning, howner, htoken⟩ := hkept hrunning
    rw [howner, htoken]
    exact hheld hrunning

/-- A job that is not running is passed by the closing of its attempt. -/
theorem Passed.of_not_running {closes : Bool} (hattempt : row.attemptCount = lease.attempt)
    (hstate : row.state ≠ .running) : registry.Passed lease closes row :=
  .inr ⟨hattempt, fun hrunning => (hstate hrunning).elim⟩

theorem ensures_ownedRunning (hdb : db.Tracked registry.limits) (lease : Lease)
    (instant : Instant) :
    Ensures (registry.Holds db lease instant) NotCapacity
      (registry.ownedRunning db lease instant) := by
  unfold ownedRunning
  refine (Database.ensures_requireJob hdb lease.jobId).bind fun row hrow => ?_
  refine (row.ensures_requireMonotonic instant).bind fun _ hmonotonic => ?_
  refine row.ensures_snapshot.bind fun snapshot hsnapshot => ?_
  subst hsnapshot
  refine (Ensures.refuseIf nofun).bind fun _ hheld => .ok ?_
  simp only [JobRow.toSnapshot, not_or, not_not, Bool.not_eq_true] at hheld
  obtain ⟨hrunning, howner, htoken, hexpiry, hattempt⟩ := hheld
  refine ⟨hrow.1, hrow.2, hrunning, howner, htoken, ?_, hattempt, hmonotonic⟩
  cases hexpires : row.leaseExpiresAt with
  | none => simp [hexpires] at hexpiry
  | some expires => exact ⟨expires, rfl, by simpa [hexpires] using hexpiry⟩

omit [PyRuntime] in
theorem ensures_leaseExpiry (current : Instant) (leaseSeconds : ℤ) :
    Ensures (fun expires => 1 ≤ leaseSeconds → current ≤ expires) NotCapacity
      (leaseExpiry current leaseSeconds) :=
  (Ensures.refuseIf nofun).bind fun _ _ => .ok fun h =>
    le_add_of_nonneg_right (mul_nonneg (zero_le_one.trans h) (by norm_num))

omit [PyRuntime] in
theorem ensures_validateLeaseSeconds (leaseSeconds : ℤ) :
    Ensures (fun _ => 1 ≤ leaseSeconds) NotCapacity
      (registry.validateLeaseSeconds leaseSeconds) := by
  refine (Ensures.refuseIf nofun).mono fun _ h => ?_
  have hmin := registry.limits.minLeaseSeconds_mem.1
  omega

/-! ## Ends of attempts -/

omit [PyRuntime] in
theorem ensures_validateArtifactLinks (links : List ArtifactLink) :
    Ensures (fun _ => True) NotCapacity (registry.validateArtifactLinks links) :=
  (Ensures.refuseIf (by simp [NotCapacity, eventCapacity])).bind fun _ _ =>
    (Ensures.refuseIf nofun).mono fun _ _ => trivial

omit [PyRuntime] in
theorem ensures_checkLinked (links : List ArtifactLink) (check : Except ArtifactError Unit) :
    Ensures (fun _ => True) NotCapacity (checkLinked links check) := by
  unfold checkLinked
  split
  · exact trivial
  · refine Ensures.mapError (fun e => ?_) check
    cases e <;> nofun

omit [PyRuntime] in
theorem ensures_currentAttemptClaimedAt (job : JobRow) :
    Ensures (fun claimedAt => ∃ event ∈ db.jobEvents job.jobId, event.kind = .claimed ∧
      event.attempt = job.attemptCount ∧ event.occurredAt = claimedAt) NotCapacity
      (db.currentAttemptClaimedAt job) := by
  unfold Database.currentAttemptClaimedAt
  split
  · next event hclaims =>
      refine (Ensures.refuseIf nofun).bind fun _ _ => .ok ?_
      have hmem : event ∈ (db.jobEvents job.jobId).filter fun event =>
          event.attempt = job.attemptCount && event.kind = .claimed :=
        hclaims ▸ List.mem_singleton_self event
      obtain ⟨hevent, hclaim⟩ := List.mem_filter.mp hmem
      simp only [Bool.and_eq_true, decide_eq_true_eq] at hclaim
      exact ⟨event, hevent, hclaim.2, hclaim.1, rfl⟩
  · exact nofun

omit [PyRuntime] in
/-- The run of an attempt is written for the job that has claimed it. -/
theorem ensures_insertTerminalRun (around : Surroundings) (job : JobRow)
    (request : TerminalRunRequest) (status : RunStatus) (links : List ArtifactLink)
    (instant : Instant) (hnumbered : Numbered RunRow.sequence db.runs) :
    Ensures (fun db' => ∃ run artifacts, run.Closes job (db.jobEvents job.jobId) instant ∧
        run.status = status ∧ run.runId = request.runId ∧
          Numbered RunRow.sequence (db.runs ++ [run]) ∧ db' = db.withRun run artifacts)
      NotCapacity (registry.insertTerminalRun db around job request status links instant) := by
  unfold insertTerminalRun
  refine (ensures_validateArtifactLinks links).bind fun _ _ => ?_
  refine (ensures_currentAttemptClaimedAt job).bind fun claimedAt hclaimed => ?_
  obtain ⟨event, hevent, hkind, hattempt, rfl⟩ := hclaimed
  refine (Ensures.refuseIf nofun).bind fun _ hclaim => ?_
  refine (Ensures.refuseIf nofun).bind fun _ hstart => ?_
  refine (Ensures.refuseIf nofun).bind fun _ _ => ?_
  refine (Ensures.refuseIf nofun).bind fun _ _ => ?_
  refine (ensures_checkLinked links around.artifacts).bind fun _ _ => ?_
  refine (Database.ensures_insertRun _ hnumbered).bind ?_
  rintro _ ⟨hruns, rfl⟩
  push Not at hclaim hstart
  dsimp only
  split
  · exact nofun
  · next run _ =>
      refine run.ensures_readable.bind fun _ _ => .ok ⟨_, _, ?_, rfl, rfl, hruns, rfl⟩
      exact ⟨rfl, rfl, rfl, rfl, rfl, request.runId_identifier, hstart.2, hclaim.1.trans hstart.1,
        event, hevent, hkind, hattempt, hstart.1⟩

/-- The tables after a worker has closed its attempt. -/
def close (db : Database) (row : JobRow) (closing : Closing) (instant : Instant)
    (runId workerId : String) : Database :=
  { db with
    jobs := Table.update JobRow.jobId row.jobId (fun row => closing.change instant runId row)
      db.jobs
    events := db.events ++ [⟨db.events.length + 1, row.jobId, closing.kind, some .running,
      closing.toState, instant, row.attemptCount, workerId, closing.details⟩] }

omit [PyRuntime] in
theorem ensures_setTerminal (hfind : db.findJob row.jobId = some row)
    (hrunning : row.state = .running)
    (hroom : (db.jobEvents row.jobId).length < registry.limits.maxEventsPerJob)
    (hnumbered : Numbered EventRow.sequence db.events) (toState : JobState) (hterminal : toState.terminal = true) (eventKind : EventKind)
    (actor : String) (instant : Instant) (resultRunId : Option String)
    (failureCode : Option FailureReasonCode) (failureSummary : Option String) :
    Ensures (fun db' => Numbered EventRow.sequence db'.events ∧ db' =
        { db with
          jobs := Table.update JobRow.jobId row.jobId
            (JobRow.terminate toState instant resultRunId failureCode failureSummary) db.jobs
          events := db.events ++ [⟨db.events.length + 1, row.jobId, eventKind, some .running,
            toState, instant, row.attemptCount, actor, .empty⟩] })
      NotCapacity (registry.setTerminal db row toState eventKind actor instant resultRunId
        failureCode failureSummary) := by
  unfold setTerminal
  rw [refuseIf_of_not (by simp [hterminal]), ok_bind]
  refine (Database.ensures_updateJob hfind (by simpa using hrunning) _).bind
    fun updated hupdated => ?_
  subst hupdated
  refine (Ensures.refuseIf nofun).bind fun _ _ => ?_
  exact Database.ensures_recordEvent _ hroom hnumbered

/-- A closed attempt moves its job along its history. -/
theorem moved_close (hdb : db.Tracked registry.limits)
    (hholds : registry.Holds db lease instant row) {closing : Closing}
    (allowed : closing.Allowed row) {run : RunRow}
    (artifacts : List RunArtifactRow)
    (closes : run.Closes row (db.jobEvents row.jobId) instant)
    (hstatus : run.status = closing.status)
    (hruns_numbered : Numbered RunRow.sequence (db.runs ++ [run]))
    (hevents_numbered : Numbered EventRow.sequence
      (close (db.withRun run artifacts) row closing instant run.runId lease.workerId).events) :
    db.Moved registry.limits row (closing.change instant run.runId row)
      (close (db.withRun run artifacts) row closing instant run.runId lease.workerId) := by
  have hopen : row.state.terminal = false := by rw [hholds.running]; rfl
  have hconsistent := (hdb.history row hholds.mem).consistent
  have hsettles := History.settles_change hconsistent hholds.running allowed instant run.runId
  refine hdb.moved hholds.mem hopen (closing.change instant run.runId)
    (closing.sameJob_change instant run.runId)
    (.of_not_running hsettles.attemptCount_eq hsettles.state_ne) rfl rfl rfl ?_ ?_
    (.inr (List.cons_ne_nil _ _)) hevents_numbered hruns_numbered ?_
  · exact List.forall_mem_singleton.mpr rfl
  · exact List.forall_mem_singleton.mpr closes.jobId_eq
  · refine .closed closing (hdb.history row hholds.mem) hholds.running hholds.owner
      hholds.monotonic allowed closes hstatus (fun event => hdb.lt_of_mem_jobEvents) ?_
    have hlater := hruns_numbered.length_lt_of_mem (List.mem_singleton_self run)
    exact fun other hother => (Nat.le_of_lt_succ (hdb.lt_of_mem_jobRuns hother)).trans_lt hlater

/-- The answer of a call that has changed a job. -/
theorem ensures_reply (hdb : db.Tracked registry.limits) (jobId : String) :
    Ensures (fun reply => reply.2 = db) NotCapacity (do
      let row ← db.requireJob jobId
      .ok (← row.snapshot, db)) :=
  (Database.ensures_requireJob hdb jobId).bind fun row _ =>
    row.ensures_snapshot.bind fun _ _ => .ok rfl

/-! ## Calls -/

/-- What a call with a lease leaves behind: it has been held by the clock that it reads. -/
structure Honoured (registry : RunRegistry) (around : Surroundings) (lease : Lease)
    (closes : Bool) (db db' : Database) : Prop where
  follows : db.Follows registry.limits [] db'
  holds : ∃ instant, around.clock = some instant ∧ ∃ row, registry.Holds db lease instant row
  passed : ∃ row ∈ db'.jobs, row.jobId = lease.jobId ∧ registry.Passed lease closes row

theorem Holds.of_recovered {db' : Database} {prioritizedJobId : Option String}
    (h : registry.Holds db' lease instant row)
    (hrecovered : Recovered registry instant prioritizedJobId db db') :
    registry.Holds db lease instant row :=
  { h with mem := hrecovered.running row h.mem h.running }

theorem honoured_of_moved {around : Surroundings} {db' : Database}
    {prioritizedJobId : Option String} (hclock : around.clock = some instant)
    (hrecovered : Recovered registry instant prioritizedJobId db db')
    (hholds : registry.Holds db' lease instant row) {row' : JobRow} {db'' : Database}
    (hmoved : db'.Moved registry.limits row row' db'') {closes : Bool}
    (hpassed : registry.Passed lease closes row') :
    registry.Honoured around lease closes db db'' where
  follows := hrecovered.follows.trans (hmoved.follows hrecovered.follows.tracked)
  holds := ⟨instant, hclock, row, hholds.of_recovered hrecovered⟩
  passed := ⟨row', (hmoved.jobs row').mpr (.inr rfl),
    hmoved.same.jobId_eq.trans hholds.jobId_eq, hpassed⟩

/-- A worker that has closed its attempt holds its lease no longer. -/
theorem honoured_close {around : Surroundings} {db' : Database} {prioritizedJobId : Option String}
    (hclock : around.clock = some instant)
    (hrecovered : Recovered registry instant prioritizedJobId db db')
    (hholds : registry.Holds db' lease instant row) {closing : Closing}
    (allowed : closing.Allowed row) {runId : String} {db'' : Database}
    (hmoved : db'.Moved registry.limits row (closing.change instant runId row) db'') :
    registry.Honoured around lease true db db'' := by
  have hhistory := hrecovered.follows.tracked.history row hholds.mem
  have hsettles := History.settles_change hhistory.consistent hholds.running allowed instant runId
  exact honoured_of_moved hclock hrecovered hholds hmoved
    (.of_not_running (hsettles.attemptCount_eq.trans hholds.attempt) hsettles.state_ne)

omit [PyRuntime] in
theorem ensures_preflight (around : Surroundings) (links : List ArtifactLink) :
    Ensures (fun _ => True) NotCapacity (registry.preflightTerminalArtifacts around links) :=
  (ensures_validateArtifactLinks links).bind fun _ _ => ensures_checkLinked links around.preflight

theorem ensures_complete (hdb : db.Tracked registry.limits) (around : Surroundings) (lease : Lease)
    (run : TerminalRunRequest) (links : List ArtifactLink) :
    Ensures (fun reply => registry.Honoured around lease true db reply.2) NotCapacity
      (registry.complete db around lease run links) := by
  unfold complete
  refine (ensures_preflight around links).bind fun _ _ => ?_
  refine around.ensures_now.bind fun instant hclock => ?_
  refine (ensures_recoverRows hdb instant none).bind ?_
  rintro ⟨_, db₁⟩ (hrecovered : registry.Recovered instant none db db₁)
  have hdb₁ := hrecovered.follows.tracked
  refine (ensures_ownedRunning hdb₁ lease instant).bind fun row hholds => ?_
  refine (Ensures.refuseIf nofun).bind fun _ hcancel => ?_
  have hallowed : Closing.succeeded.Allowed row := by simpa [Closing.Allowed] using hcancel
  have hopen : row.state.terminal = false := by rw [hholds.running]; rfl
  refine (ensures_insertTerminalRun _ _ _ _ _ _ hdb₁.runs_numbered).bind fun db₂ hinserted => ?_
  obtain ⟨inserted, artifacts, hcloses, hstatus, hrunId, hruns, rfl⟩ := hinserted
  have hfind : (db₁.withRun inserted artifacts).findJob row.jobId = some row :=
    hdb₁.find_eq hholds.mem
  refine (ensures_setTerminal hfind hholds.running (hdb₁.room hholds.mem hopen).1
    hdb₁.events_numbered .succeeded rfl _ _ _ _ _ _).bind fun db₃ hclosed => ?_
  obtain ⟨hevents, rfl⟩ := hclosed
  have hmoved := moved_close hdb₁ hholds hallowed artifacts hcloses hstatus hruns hevents
  rw [hrunId] at hmoved
  exact (ensures_reply hmoved.tracked lease.jobId).mono fun reply hreply => by
    rw [hreply]
    exact honoured_close hclock hrecovered hholds hallowed hmoved

theorem ensures_acknowledgeCancel (hdb : db.Tracked registry.limits) (around : Surroundings)
    (lease : Lease) (run : TerminalRunRequest) (links : List ArtifactLink) :
    Ensures (fun reply => registry.Honoured around lease true db reply.2) NotCapacity
      (registry.acknowledgeCancel db around lease run links) := by
  unfold acknowledgeCancel
  refine (ensures_preflight around links).bind fun _ _ => ?_
  refine around.ensures_now.bind fun instant hclock => ?_
  refine (ensures_recoverRows hdb instant none).bind ?_
  rintro ⟨_, db₁⟩ (hrecovered : registry.Recovered instant none db db₁)
  have hdb₁ := hrecovered.follows.tracked
  refine (ensures_ownedRunning hdb₁ lease instant).bind fun row hholds => ?_
  refine (Ensures.refuseIf nofun).bind fun _ hcancel => ?_
  have hallowed : Closing.cancelled.Allowed row := Option.isSome_iff_ne_none.mpr hcancel
  have hopen : row.state.terminal = false := by rw [hholds.running]; rfl
  refine (ensures_insertTerminalRun _ _ _ _ _ _ hdb₁.runs_numbered).bind fun db₂ hinserted => ?_
  obtain ⟨inserted, artifacts, hcloses, hstatus, hrunId, hruns, rfl⟩ := hinserted
  have hfind : (db₁.withRun inserted artifacts).findJob row.jobId = some row :=
    hdb₁.find_eq hholds.mem
  refine (ensures_setTerminal hfind hholds.running (hdb₁.room hholds.mem hopen).1
    hdb₁.events_numbered .cancelled rfl _ _ _ _ _ _).bind fun db₃ hclosed => ?_
  obtain ⟨hevents, rfl⟩ := hclosed
  have hmoved := moved_close hdb₁ hholds hallowed artifacts hcloses hstatus hruns hevents
  rw [hrunId] at hmoved
  exact (ensures_reply hmoved.tracked lease.jobId).mono fun reply hreply => by
    rw [hreply]
    exact honoured_close hclock hrecovered hholds hallowed hmoved

omit [PyRuntime] in
theorem ensures_requireFailureSummary (value : String) :
    Ensures (fun _ => True) NotCapacity (requireFailureSummary value) :=
  (Ensures.refuseIf nofun).mono fun _ _ => trivial

omit [PyRuntime] in
/-- The three ends of a failed attempt. -/
theorem ensures_closeFailed (hfind : db.findJob row.jobId = some row)
    (hrunning : row.state = .running)
    (hroom : (db.jobEvents row.jobId).length < registry.limits.maxEventsPerJob)
    (hnumbered : Numbered EventRow.sequence db.events) (failureCode : FailureReasonCode) (failureSummary : String) (retryable : Bool)
    (instant : Instant) (runId workerId : String) :
    Ensures (fun db' => ∃ closing : Closing, closing.Allowed row ∧
        closing.status = (if row.cancelRequestedAt.isSome then RunStatus.cancelled else .failed) ∧
          Numbered EventRow.sequence db'.events ∧ db' = close db row closing instant runId workerId)
      NotCapacity
      (registry.closeFailed db row failureCode failureSummary retryable instant workerId) := by
  unfold closeFailed
  split_ifs with hcancel hretry
  · refine (ensures_setTerminal hfind hrunning hroom hnumbered _ rfl _ _ _ _ _ _).mono
      fun db' hdb' => ?_
    exact ⟨.cancelled, hcancel, rfl, hdb'⟩
  · refine (Database.ensures_updateJob hfind (by simpa using hrunning) _).bind
      fun updated hupdated => ?_
    subst hupdated
    refine Ensures.mono (Database.ensures_recordEvent _ hroom hnumbered) fun db' hdb' => ?_
    exact ⟨.retried failureCode, ⟨by simpa using hcancel, hretry.2⟩, rfl, hdb'⟩
  · refine (ensures_setTerminal hfind hrunning hroom hnumbered _ rfl _ _ _ _ _ _).mono
      fun db' hdb' => ?_
    have hallowed : (Closing.failed failureCode failureSummary).Allowed row := by
      simpa [Closing.Allowed] using hcancel
    exact ⟨.failed failureCode failureSummary, hallowed, rfl, hdb'⟩

theorem ensures_fail (hdb : db.Tracked registry.limits) (around : Surroundings) (lease : Lease)
    (failureCode : FailureReasonCode) (failureSummary : String) (retryable : Bool)
    (run : TerminalRunRequest) (links : List ArtifactLink) :
    Ensures (fun reply => registry.Honoured around lease true db reply.2) NotCapacity
      (registry.fail db around lease failureCode failureSummary retryable run links) := by
  unfold fail
  refine (ensures_requireFailureSummary failureSummary).bind fun _ _ => ?_
  refine (ensures_preflight around links).bind fun _ _ => ?_
  refine around.ensures_now.bind fun instant hclock => ?_
  refine (ensures_recoverRows hdb instant none).bind ?_
  rintro ⟨_, db₁⟩ (hrecovered : registry.Recovered instant none db db₁)
  have hdb₁ := hrecovered.follows.tracked
  refine (ensures_ownedRunning hdb₁ lease instant).bind fun row hholds => ?_
  have hopen : row.state.terminal = false := by rw [hholds.running]; rfl
  refine (ensures_insertTerminalRun _ _ _ _ _ _ hdb₁.runs_numbered).bind fun db₂ hinserted => ?_
  obtain ⟨inserted, artifacts, hcloses, hstatus, hrunId, hruns, rfl⟩ := hinserted
  have hfind : (db₁.withRun inserted artifacts).findJob row.jobId = some row :=
    hdb₁.find_eq hholds.mem
  refine (ensures_closeFailed hfind hholds.running (hdb₁.room hholds.mem hopen).1
    hdb₁.events_numbered failureCode failureSummary retryable instant run.runId
      lease.workerId).bind fun db₃ hclosed => ?_
  obtain ⟨closing, hallowed, hclosing, hevents, rfl⟩ := hclosed
  have hmoved := moved_close hdb₁ hholds hallowed artifacts hcloses (hstatus.trans hclosing.symm)
    hruns hevents
  rw [hrunId] at hmoved
  exact (ensures_reply hmoved.tracked lease.jobId).mono fun reply hreply => by
    rw [hreply]
    exact honoured_close hclock hrecovered hholds hallowed hmoved

theorem ensures_heartbeat (hdb : db.Tracked registry.limits) (around : Surroundings)
    (lease : Lease) (leaseSeconds : ℤ) :
    Ensures (fun reply => registry.Honoured around lease false db reply.2) NotCapacity
      (registry.heartbeat db around lease leaseSeconds) := by
  unfold heartbeat
  refine (ensures_validateLeaseSeconds leaseSeconds).bind fun _ hseconds => ?_
  refine around.ensures_now.bind fun instant hclock => ?_
  refine (ensures_leaseExpiry instant leaseSeconds).bind fun expires hexpires => ?_
  refine (ensures_recoverRows hdb instant none).bind ?_
  rintro ⟨_, db₁⟩ (hrecovered : registry.Recovered instant none db db₁)
  have hdb₁ := hrecovered.follows.tracked
  refine (ensures_ownedRunning hdb₁ lease instant).bind fun row hholds => ?_
  refine (row.ensures_requireMonotonic instant).bind fun _ _ => ?_
  rw [← hholds.jobId_eq]
  refine (Database.ensures_updateJob (hdb₁.find_eq hholds.mem)
    (by simpa using hholds.running) _).bind fun updated hupdated => ?_
  subst hupdated
  have hopen : row.state.terminal = false := by rw [hholds.running]; rfl
  have hexpiry := hexpires hseconds
  exact .ok (honoured_of_moved hclock hrecovered hholds (hdb₁.renewed hholds.mem hopen
    (JobRow.heartbeat instant expires) (fun _ => ⟨rfl⟩)
      (.inr ⟨rfl, fun hrunning => ⟨hrunning, rfl, rfl⟩⟩) rfl
      (.renewed (hdb₁.history row hholds.mem) hholds.running hholds.monotonic hexpiry))
    (.inr ⟨hholds.attempt, fun _ => ⟨rfl, hholds.owner, hholds.token⟩⟩))

/-! ### Calls without a lease -/

omit [PyRuntime] in
theorem ensures_requireIdentifier (value fieldName : String) :
    Ensures (fun _ => isIdentifier value = true) NotCapacity (requireIdentifier value fieldName) :=
  (Ensures.refuseIf nofun).mono fun _ h => by simpa using h

omit [PyRuntime] in
theorem ensures_recoverExpired (hdb : db.Tracked registry.limits) (around : Surroundings) :
    Ensures (fun reply => db.Follows registry.limits [] reply.2) NotCapacity
      (registry.recoverExpired db around) :=
  around.ensures_now.bind fun instant _ =>
    (ensures_recoverRows hdb instant none).mono fun _ hrecovered => hrecovered.follows

section Requests

variable {F : Type} [PyFloat F] [FloatText F]

omit [PyRuntime] in
theorem ensures_decodedRequest (decoded : Json F) :
    Ensures (fun _ => True) NotCapacity (decodedRequest F decoded) := by
  cases decoded with
  | obj members =>
      exact (Ensures.refuseIf nofun).bind fun _ _ => Ensures.mapError (fun _ => nofun) _
  | null | bool | int | float | str | arr => exact nofun

theorem ensures_request (row : JobRow) :
    Ensures (fun _ => True) NotCapacity (registry.request F row) := by
  unfold request
  refine (Ensures.refuseIf nofun).bind fun _ _ => ?_
  refine (Ensures.refuseIf nofun).bind fun _ _ => ?_
  refine (Ensures.mapError (fun _ => nofun) _).bind fun decoded _ => ?_
  refine (ensures_decodedRequest decoded).bind fun request _ => ?_
  refine (ensures_requireStoredInt ..).bind fun _ _ => ?_
  refine (ensures_requireStoredInt ..).bind fun _ _ => ?_
  refine (ensures_requireStoredInt ..).bind fun _ _ => ?_
  refine (Ensures.refuseIf nofun).bind fun _ _ => ?_
  exact (Ensures.refuseIf nofun).bind fun _ _ => .ok trivial

/-- What a claim leaves behind that hands a lease out: a new attempt of the job. -/
structure Granted (db : Database) (lease : Lease) (db' : Database) : Prop where
  fresh : ∀ row ∈ db.jobs, row.jobId = lease.jobId → row.attemptCount < lease.attempt
  current : ∃ row ∈ db'.jobs, row.jobId = lease.jobId ∧ row.attemptCount = lease.attempt

/-- A request with the key and the identifier that it is submitted under. -/
structure Submission (F : Type) [PyFloat F] [FloatText F] where
  request : SubmissionRequest F
  idempotencyKey : String
  jobId : String

/-- What a submission has written. -/
structure Written (registry : RunRegistry) (submission : Submission F) (row : JobRow) : Prop where
  jobId_eq : row.jobId = submission.jobId
  canonical : submission.request.canonicalText = .ok row.requestJson
  size_le : (PyText.encodeUtf8 row.requestJson).length ≤ registry.limits.maxRequestBytes
  attempts_le : submission.request.maxAttempts ≤ registry.limits.maxAttempts
  digest_eq : row.requestDigest =
    PyText.hexText (PyRuntime.sha256 (PyText.encodeUtf8 row.requestJson))
  key_eq : row.idempotencyDigest = registry.digest idempotencyDomain submission.idempotencyKey
  kind_eq : row.kind = submission.request.kind
  schemaVersion_eq : row.requestSchemaVersion = submission.request.schemaVersion
  priority_eq : row.priority = submission.request.priority
  maxAttempts_eq : row.maxAttempts = submission.request.maxAttempts

/-- The row answers for the submission: it has its key and the digest of its request. -/
def Answers (registry : RunRegistry) (submission : Submission F) (row : JobRow) : Prop :=
  row.idempotencyDigest = registry.digest idempotencyDomain submission.idempotencyKey ∧
    ∃ canonical, submission.request.canonicalText = .ok canonical ∧
      row.requestDigest = PyText.hexText (PyRuntime.sha256 (PyText.encodeUtf8 canonical))

/-- What a submission leaves behind, with the rows that it has added. -/
structure Submitted (registry : RunRegistry) (db : Database) (submission : Submission F)
    (snapshot : JobSnapshot) (rows : List JobRow) (db' : Database) : Prop where
  follows : db.Follows registry.limits rows db'
  written : ∀ row ∈ rows, registry.Written submission row
  answer : ∃ row ∈ db'.jobs, row.jobId = snapshot.jobId ∧ registry.Answers submission row

theorem Written.answers {submission : Submission F} (h : registry.Written submission row) :
    registry.Answers submission row :=
  ⟨h.key_eq, row.requestJson, h.canonical, h.digest_eq⟩

theorem ensures_claim (hdb : db.Tracked registry.limits) (around : Surroundings) (workerId : String)
    (leaseSeconds : ℤ) (token : String) :
    Ensures (fun reply => db.Follows registry.limits [] reply.2 ∧
        ∀ job ∈ reply.1, Granted db job.lease reply.2 ∧ ∃ row ∈ reply.2.jobs,
          row.jobId = job.lease.jobId ∧ registry.request F row = .ok job.request)
      NotCapacity (registry.claim (F := F) db around workerId leaseSeconds token) := by
  unfold claim
  refine (ensures_requireIdentifier workerId _).bind fun _ hworker => ?_
  refine (ensures_validateLeaseSeconds leaseSeconds).bind fun _ hseconds => ?_
  refine (Ensures.refuseIf nofun).bind fun _ _ => ?_
  refine around.ensures_now.bind fun instant _ => ?_
  refine (ensures_leaseExpiry instant leaseSeconds).bind fun expires hexpires => ?_
  refine (ensures_recoverRows hdb instant none).bind ?_
  rintro ⟨_, db₁⟩ (hrecovered : registry.Recovered instant none db db₁)
  have hdb₁ := hrecovered.follows.tracked
  dsimp only
  cases hnext : db₁.nextQueued with
  | none => exact .ok ⟨hrecovered.follows, nofun⟩
  | some row =>
      obtain ⟨hrow, hqueued⟩ : row ∈ db₁.jobs ∧ row.state = .queued := by
        simpa using List.argmax_mem (Option.mem_def.mpr hnext)
      have hopen : row.state.terminal = false := by rw [hqueued]; rfl
      refine (row.ensures_requireMonotonic instant).bind fun _ hmonotonic => ?_
      refine (ensures_request row).self.bind fun request hrequest => ?_
      refine row.ensures_snapshot.bind fun snapshot hsnapshot => ?_
      subst hsnapshot
      refine (Ensures.refuseIf nofun).bind fun _ _ => ?_
      refine (Database.ensures_updateJob (hdb₁.find_eq hrow) (by simpa using hqueued) _).bind
        fun updated hupdated => ?_
      subst hupdated
      refine (Ensures.refuseIf nofun).bind fun _ _ => ?_
      refine Ensures.bind (Database.ensures_recordEvent _ (hdb₁.room hrow hopen).1
        hdb₁.events_numbered) ?_
      rintro _ ⟨hnumbered, rfl⟩
      have hexpiry := hexpires hseconds
      have hmoved := hdb₁.recorded hrow hopen
        (JobRow.claim instant expires workerId (registry.digest leaseDomain token))
          (fun _ => ⟨rfl⟩) (.inl (Nat.lt_succ_self _)) rfl hnumbered
          (.claimed (hdb₁.history row hrow) hqueued hmonotonic hexpiry hworker fun event =>
            hdb₁.lt_of_mem_jobEvents)
      have hclaimed := (hmoved.jobs _).mpr (.inr rfl)
      refine .ok ⟨hrecovered.follows.trans (hmoved.follows hdb₁), ?_⟩
      rintro _ ⟨⟩
      refine ⟨⟨fun other hother hjobId => ?_, _, hclaimed, rfl, rfl⟩, _, hclaimed, rfl, hrequest.1⟩
      obtain ⟨other', hother', hsame, hadvances⟩ := hrecovered.follows.advances other hother
      obtain rfl := Table.eq_of_key_eq hdb₁.nodup hother' hrow (hsame.jobId_eq.trans hjobId)
      exact Nat.lt_succ_of_le hadvances.le

theorem ensures_submit (hdb : db.Tracked registry.limits) (around : Surroundings)
    (request : SubmissionRequest F) (idempotencyKey jobId : String) :
    Ensures (fun reply => ∃ rows,
        registry.Submitted db ⟨request, idempotencyKey, jobId⟩ reply.1 rows reply.2)
      NotCapacity (registry.submit db around request idempotencyKey jobId) := by
  unfold submit
  refine (Ensures.refuseIf nofun).bind fun _ _ => ?_
  refine (ensures_canonicalText request).self.bind fun canonical hcanonical => ?_
  refine (Ensures.refuseIf nofun).bind fun _ hsize => ?_
  refine (Ensures.refuseIf nofun).bind fun _ hattempts => ?_
  dsimp only
  split
  · next prior hfind =>
      refine (ensures_request _).bind fun _ _ => ?_
      refine (Ensures.refuseIf nofun).bind fun _ hsame => ?_
      refine (JobRow.ensures_snapshot _).bind fun snapshot hsnapshot => .ok ⟨[], .refl hdb, ?_, ?_⟩
      · simp
      · subst hsnapshot
        exact ⟨prior, List.mem_of_find?_eq_some hfind, rfl, by simpa using List.find?_some hfind,
          canonical, hcanonical.1, not_not.mp hsame⟩
  · refine (Ensures.refuseIf (by simp [NotCapacity, eventCapacity])).bind fun _ _ => ?_
    refine around.ensures_now.bind fun instant _ => ?_
    refine (Database.ensures_insertJob _ hdb.jobs_numbered).bind ?_
    rintro _ ⟨hchecked, hnew, hkey, hjobs, rfl⟩
    have hno_events : db.jobEvents jobId = [] := by
      simp only [Database.jobEvents, List.filter_eq_nil_iff, decide_eq_true_eq]
      intro event hevent heq
      obtain ⟨other, hother, hjob⟩ := hdb.events_of event hevent
      exact hnew other hother (hjob.trans heq)
    have hroom : (db.jobEvents jobId).length < registry.limits.maxEventsPerJob := by
      rw [hno_events]
      exact lt_of_lt_of_le (by decide) registry.limits.maxEventsPerJob_mem.1
    refine Ensures.bind (Database.ensures_recordEvent _ hroom hdb.events_numbered) ?_
    rintro _ ⟨hevents, rfl⟩
    let row : JobRow := { submittedRow request jobId canonical
      (PyText.hexText (PyRuntime.sha256 (PyText.encodeUtf8 canonical)))
      (registry.digest idempotencyDomain idempotencyKey) instant with
        sequence := db.jobs.length + 1 }
    have hfresh : row.Fresh := ⟨rfl, request.maxAttempts_mem.1⟩
    have hwritten : registry.Written ⟨request, idempotencyKey, jobId⟩ row :=
      ⟨rfl, hcanonical.1, not_lt.mp hsize, not_lt.mp hattempts, rfl, rfl, rfl, rfl, rfl, rfl⟩
    split
    · intro heq
      cases heq
    · next found hfind =>
        refine found.ensures_snapshot.bind fun snapshot hsnapshot => .ok ⟨[row], ?_, ?_, ?_⟩
        · exact hdb.submitted hfresh ⟨hchecked.1, hchecked.2, hchecked.3⟩ hnew hkey
            (not_lt.mp hattempts) rfl rfl rfl hjobs hevents
        · exact List.forall_mem_singleton.mpr hwritten
        · subst hsnapshot
          exact ⟨row, List.mem_append_right _ (List.mem_singleton_self row),
            (Table.key_of_find hfind).symm, hwritten.answers⟩

end Requests

omit [PyRuntime] in
/-- The rest of a first request to cancel: queued work is cancelled at once. -/
theorem ensures_cancelIfQueued (hdb : db.Tracked registry.limits) (hrow : row ∈ db.jobs)
    (hopen : row.state.terminal = false) (hfirst : row.cancelRequestedAt = none)
    (hmonotonic : row.updatedAt ≤ instant) (hlive : row.expiredAt instant = false)
    (reason : CancellationReasonCode) {db' : Database}
    (hjobs : db'.jobs =
      Table.update JobRow.jobId row.jobId (JobRow.requestCancel instant reason) db.jobs)
    (hevents : db'.events = db.events ++ [⟨db.events.length + 1, row.jobId, .cancelRequested,
      some row.state, row.state, instant, row.attemptCount, "requester", .reasonCode reason⟩])
    (hruns : db'.runs = db.runs) (hnumbered : Numbered EventRow.sequence db'.events) :
    Ensures (fun db'' => db.Follows registry.limits [] db'') NotCapacity
      (registry.cancelIfQueued db' row instant) := by
  have hhistory := hdb.history row hrow
  have hlater (event : EventRow) (hevent : event ∈ db.jobEvents row.jobId) :
      event.sequence < db.events.length + 1 := hdb.lt_of_mem_jobEvents hevent
  have hheld : ∀ t ∈ row.leaseExpiresAt, row.state = .running → instant ≤ t := by
    intro t ht hrunning
    by_contra hlt
    have hexpired := JobRow.expiredAt_iff.mpr ⟨hrunning, t, ht, (not_le.mp hlt).le⟩
    rw [hlive] at hexpired
    exact Bool.false_ne_true hexpired
  unfold cancelIfQueued
  split_ifs with hqueued
  · have hfind : db'.findJob (row.requestCancel instant reason).jobId =
        some (row.requestCancel instant reason) := by
      rw [Database.findJob, hjobs]
      exact Table.find_update_self (fun _ => rfl) (hdb.find_eq hrow)
    have hroom : (db'.jobEvents row.jobId).length < registry.limits.maxEventsPerJob := by
      have hmore := (hdb.room hrow hopen).2 hqueued
      simpa [Database.jobEvents, hevents, List.filter_append] using hmore
    refine (Database.ensures_updateJob hfind (decide_eq_true hqueued) _).bind
      fun updated hupdated => ?_
    subst hupdated
    refine Ensures.mono (Database.ensures_recordEvent _ hroom hnumbered) ?_
    rintro db'' ⟨hnumbered', hdb''⟩
    refine (hdb.moved hrow hopen
      (fun row => (row.requestCancel instant reason).cancelQueued instant)
        (fun _ => ⟨rfl⟩) (.of_not_running rfl fun heq => by cases heq) ?_ ?_ ?_ ?_ ?_
          (.inr (List.cons_ne_nil _ _)) hnumbered' ?_ (?_ : History _ (db.jobEvents row.jobId ++
            [⟨db.events.length + 1, row.jobId, .cancelRequested, some .queued, .queued, instant,
              row.attemptCount, "requester", .reasonCode reason⟩,
            ⟨db.events.length + 2, row.jobId, .cancelled, some .queued, .cancelled, instant,
              row.attemptCount, "registry", .empty⟩]) (db.jobRuns row.jobId ++ []))).follows hdb
    · rw [hdb'']
      exact (congrArg _ hjobs).trans (Table.update_update fun _ => rfl)
    · rw [hdb'']
      simp [hevents, hqueued]
    · rw [hdb'']
      exact hruns.trans (List.append_nil _).symm
    · simp
    · simp
    · rw [hdb'']
      exact hruns ▸ hdb.runs_numbered
    · rw [List.append_nil]
      exact .cancelledQueued hhistory hqueued hmonotonic hlater (Nat.lt_succ_self _)
  · have hrunning : row.state = .running := by
      cases hstate : row.state <;> simp_all [JobState.terminal]
    refine .ok ((hdb.moved hrow hopen (JobRow.requestCancel instant reason)
      (fun _ => ⟨rfl⟩)
        (.inr ⟨rfl, fun hstate => ⟨hstate, rfl, rfl⟩⟩) hjobs hevents
          (hruns.trans (List.append_nil _).symm) ?_ ?_ (.inl rfl) hnumbered
            (hruns ▸ hdb.runs_numbered) ?_).follows hdb)
    · simp
    · simp
    · rw [List.append_nil, hrunning]
      exact .cancelRequested hhistory hrunning hfirst hmonotonic
        (fun t ht => hheld t ht hrunning) hlater

theorem ensures_requestCancel (hdb : db.Tracked registry.limits) (around : Surroundings)
    (jobId : String) (reason : CancellationReasonCode) :
    Ensures (fun reply => db.Follows registry.limits [] reply.2) NotCapacity
      (registry.requestCancel db around jobId reason) := by
  unfold requestCancel
  refine (ensures_requireIdentifier jobId _).bind fun _ _ => ?_
  refine around.ensures_now.bind fun instant _ => ?_
  refine (ensures_recoverRows hdb instant (some jobId)).bind ?_
  rintro ⟨_, db₁⟩ (hrecovered : registry.Recovered instant (some jobId) db db₁)
  have hdb₁ := hrecovered.follows.tracked
  refine (Database.ensures_requireJob hdb₁ jobId).bind fun row hfound => ?_
  obtain ⟨hrow, rfl⟩ := hfound
  refine (row.ensures_requireMonotonic instant).bind fun _ hmonotonic => ?_
  refine row.ensures_snapshot.bind fun snapshot hsnapshot => ?_
  subst hsnapshot
  split_ifs with hdone
  · exact .ok hrecovered.follows
  simp only [JobRow.toSnapshot, not_or, Bool.not_eq_true, Option.isSome_eq_false_iff,
    Option.isNone_iff_eq_none] at hdone
  obtain ⟨hopen, hfirst⟩ := hdone
  have hroom := hdb₁.room hrow hopen
  have hfind := hdb₁.find_eq hrow
  refine (Database.ensures_updateJob hfind rfl _).bind fun updated hupdated => ?_
  subst hupdated
  refine Ensures.bind (Database.ensures_recordEvent _ hroom.1 hdb₁.events_numbered) ?_
  rintro db₂ ⟨hnumbered, hdb₂⟩
  have hlive := hrecovered.prioritized row hrow rfl
  refine (ensures_cancelIfQueued hdb₁ hrow hopen hfirst hmonotonic hlive reason
    (by rw [hdb₂]) (by rw [hdb₂]; rfl) (by rw [hdb₂]) hnumbered).bind fun db₃ hfollows => ?_
  exact (ensures_reply hfollows.tracked row.jobId).mono fun reply hreply => by
    rw [hreply]
    exact hrecovered.follows.trans hfollows

end RunRegistry

end Tracking
