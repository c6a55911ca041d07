import SignalFoundry.Lattice.Tracking.CallEffects
import SignalFoundry.Lattice.Tracking.CanonicalBytes

/-!
# Runs of the registry

What holds of every run of calls, in any order and under any readings of the clock: a
finished job never changes again, no call is refused for want of room for an event, a key
that has been answered for is always answered for in the same way, and a claim hands out
nothing but what has been submitted.
-/

namespace Tracking

open Fallible

variable [PyRuntime] {F : Type} [PyFloat F] [FloatText F]

namespace Call

/-- The lease that a call presents. -/
def lease : Call F → Option Lease
  | .heartbeat lease _ | .complete lease _ _ | .fail lease _ _ _ _ _
  | .acknowledgeCancel lease _ _ => some lease
  | .submit _ _ _ | .claim _ _ _ | .recoverExpired | .requestCancel _ _ => none

/-- The call ends the attempt of its lease. -/
def closes : Call F → Bool
  | .complete _ _ _ | .fail _ _ _ _ _ _ | .acknowledgeCancel _ _ _ => true
  | .submit _ _ _ | .claim _ _ _ | .heartbeat _ _ | .recoverExpired | .requestCancel _ _ => false

/-- What a call submits. -/
def submission : Call F → Option (RunRegistry.Submission F)
  | .submit request idempotencyKey jobId => some ⟨request, idempotencyKey, jobId⟩
  | .claim _ _ _ | .heartbeat _ _ | .recoverExpired | .requestCancel _ _ | .complete _ _ _
  | .fail _ _ _ _ _ _ | .acknowledgeCancel _ _ _ => none

end Call

namespace Reply

/-- The job that a reply hands out. -/
def taken : Reply F → Option (ClaimedJob F)
  | .claimed taken => taken
  | .job _ | .lease _ | .recovered _ => none

/-- The job that a reply describes. -/
def described : Reply F → Option JobSnapshot
  | .job snapshot => some snapshot
  | .claimed _ | .lease _ | .recovered _ => none

end Reply

namespace RunRegistry

variable {registry : RunRegistry} {db : Database} {around : Surroundings}

/-! ## One call -/

/-- What a call that returns leaves behind, with the rows that it has added. -/
structure Effect (registry : RunRegistry) (db : Database) (around : Surroundings) (call : Call F)
    (reply : Reply F) (rows : List JobRow) (db' : Database) : Prop where
  follows : db.Follows registry.limits rows db'
  written : ∀ row ∈ rows, ∃ submission ∈ call.submission, registry.Written submission row
  answered : ∀ submission ∈ call.submission, ∀ snapshot ∈ reply.described,
    ∃ row ∈ db'.jobs, row.jobId = snapshot.jobId ∧ registry.Answers submission row
  honoured : ∀ lease ∈ call.lease, registry.Honoured around lease call.closes db db'
  granted : ∀ job ∈ reply.taken, Granted db job.lease db' ∧ ∃ row ∈ db'.jobs,
    row.jobId = job.lease.jobId ∧ registry.request F row = .ok job.request

theorem effect_of_follows {call : Call F} {reply : Reply F} {db' : Database}
    (h : db.Follows registry.limits [] db') (hsubmission : call.submission = none)
    (hlease : call.lease = none) (htaken : reply.taken = none) :
    registry.Effect db around call reply [] db' where
  follows := h
  written := by simp
  answered := by simp [hsubmission]
  honoured := by simp [hlease]
  granted := by simp [htaken]

theorem effect_of_honoured {call : Call F} {reply : Reply F} {db' : Database} {lease : Lease}
    (h : registry.Honoured around lease call.closes db db') (hlease : call.lease = some lease)
    (hsubmission : call.submission = none) (htaken : reply.taken = none) :
    registry.Effect db around call reply [] db' where
  follows := h.follows
  written := by simp
  answered := by simp [hsubmission]
  honoured lease' h' := by
    rw [hlease] at h'
    obtain rfl := Option.some.inj h'
    exact h
  granted := by simp [htaken]

theorem ensures_perform (hdb : db.Tracked registry.limits) (around : Surroundings)
    (call : Call F) :
    Ensures (fun reply => ∃ rows, registry.Effect db around call reply.1 rows reply.2)
      NotCapacity (registry.perform db around call) := by
  cases call with
  | submit request idempotencyKey jobId =>
      refine (ensures_submit hdb around request idempotencyKey jobId).bind ?_
      rintro ⟨snapshot, db'⟩ ⟨rows, hfollows, hwritten, hanswer⟩
      refine .ok ⟨rows, hfollows, fun row hrow => ⟨_, rfl, hwritten row hrow⟩, ?_, nofun, nofun⟩
      rintro _ ⟨⟩ _ ⟨⟩
      exact hanswer
  | claim workerId leaseSeconds token =>
      refine (ensures_claim hdb around workerId leaseSeconds token).bind ?_
      rintro ⟨job, db'⟩ ⟨hfollows, hgranted⟩
      exact .ok ⟨[], hfollows, by simp, nofun, nofun, hgranted⟩
  | heartbeat lease leaseSeconds =>
      exact (ensures_heartbeat hdb around lease leaseSeconds).bind fun _ h =>
        .ok ⟨[], effect_of_honoured h rfl rfl rfl⟩
  | recoverExpired =>
      exact (ensures_recoverExpired hdb around).bind fun _ h =>
        .ok ⟨[], effect_of_follows h rfl rfl rfl⟩
  | requestCancel jobId reason =>
      exact (ensures_requestCancel hdb around jobId reason).bind fun _ h =>
        .ok ⟨[], effect_of_follows h rfl rfl rfl⟩
  | complete lease run links =>
      exact (ensures_complete hdb around lease run links).bind fun _ h =>
        .ok ⟨[], effect_of_honoured h rfl rfl rfl⟩
  | fail lease failureCode failureSummary retryable run links =>
      exact (ensures_fail hdb around lease failureCode failureSummary retryable run links).bind
        fun _ h => .ok ⟨[], effect_of_honoured h rfl rfl rfl⟩
  | acknowledgeCancel lease run links =>
      exact (ensures_acknowledgeCancel hdb around lease run links).bind fun _ h =>
        .ok ⟨[], effect_of_honoured h rfl rfl rfl⟩

/-- A call that raises leaves the tables as they were. -/
theorem step_error {entry : Surroundings × Call F} {error : RegistryError}
    (h : (registry.step db entry).1 = .error error) : (registry.step db entry).2 = db := by
  unfold step at h ⊢
  split at h <;> simp_all

theorem step_ok {entry : Surroundings × Call F} {reply : Reply F}
    (h : (registry.step db entry).1 = .ok reply) :
    registry.perform db entry.1 entry.2 = .ok (reply, (registry.step db entry).2) := by
  unfold step at h ⊢
  split at h <;> simp_all

theorem effect_step (hdb : db.Tracked registry.limits) {entry : Surroundings × Call F}
    {reply : Reply F} (h : (registry.step db entry).1 = .ok reply) :
    ∃ rows, registry.Effect db entry.1 entry.2 reply rows (registry.step db entry).2 :=
  (ensures_perform hdb entry.1 entry.2).result (step_ok h)

/-- Every call moves jobs along their histories, and adds no rows but those it submits. -/
theorem follows_step (hdb : db.Tracked registry.limits) (entry : Surroundings × Call F) :
    ∃ rows, db.Follows registry.limits rows (registry.step db entry).2 ∧
      ∀ row ∈ rows, ∃ submission ∈ entry.2.submission, registry.Written submission row := by
  cases h : (registry.step db entry).1 with
  | error error =>
      rw [step_error h]
      exact ⟨[], .refl hdb, by simp⟩
  | ok reply =>
      obtain ⟨rows, heffect⟩ := effect_step hdb h
      exact ⟨rows, heffect.follows, heffect.written⟩

theorem tracked_step (hdb : db.Tracked registry.limits) (entry : Surroundings × Call F) :
    (registry.step db entry).2.Tracked registry.limits := by
  obtain ⟨rows, hfollows, -⟩ := follows_step hdb entry
  exact hfollows.tracked

/-! ## Runs of calls -/

theorem follows_run (hdb : db.Tracked registry.limits) (entries : List (Surroundings × Call F)) :
    ∃ rows, db.Follows registry.limits rows (Machine.run registry.step db entries).2 := by
  induction entries generalizing db with
  | nil => exact ⟨[], .refl hdb⟩
  | cons entry entries ih =>
      obtain ⟨rows, hfirst, -⟩ := follows_step hdb entry
      obtain ⟨rows', hrest⟩ := ih hfirst.tracked
      exact ⟨rows ++ rows', hfirst.trans hrest⟩

theorem tracked_after (registry : RunRegistry) (entries : List (Surroundings × Call F)) :
    (registry.after entries).Tracked registry.limits := by
  obtain ⟨rows, hfollows⟩ := follows_run (.empty registry.limits) entries
  exact hfollows.tracked

theorem after_append (entries more : List (Surroundings × Call F)) :
    registry.after (entries ++ more) =
      (Machine.run registry.step (registry.after entries) more).2 := by
  rw [after, Machine.run_append]
  rfl

/-- The finished jobs, each with its events and its runs. -/
def finished (db : Database) : List (JobRow × List EventRow × List RunRow) :=
  (db.jobs.filter fun row => row.state.terminal).map fun row =>
    (row, db.jobEvents row.jobId, db.jobRuns row.jobId)

omit [PyRuntime] in
theorem finished_subset {rows : List JobRow} {db' : Database}
    (h : db.Follows registry.limits rows db') :
    finished db ⊆ finished db' := by
  intro job hjob
  obtain ⟨row, hrow, rfl⟩ := List.mem_map.mp hjob
  obtain ⟨hmem, hterminal⟩ := List.mem_filter.mp hrow
  obtain ⟨hmem', hevents, hruns⟩ := h.terminal row hmem hterminal
  exact List.mem_map.mpr ⟨row, List.mem_filter.mpr ⟨hmem', hterminal⟩, by rw [hevents, hruns]⟩

/-- What is finished stays finished: no later call changes the row of a finished job, nor
adds an event or a run to it. -/
theorem finished_stay (registry : RunRegistry) (entries more : List (Surroundings × Call F)) :
    finished (registry.after entries) ⊆ finished (registry.after (entries ++ more)) := by
  rw [after_append]
  obtain ⟨rows, hfollows⟩ := follows_run (tracked_after registry entries) more
  exact finished_subset hfollows

/-- The logs only grow, and jobs keep what was submitted: later calls add their events, runs
and jobs after those that are there. -/
theorem logs_only_grow (registry : RunRegistry) (entries more : List (Surroundings × Call F)) :
    (registry.after entries).events <+: (registry.after (entries ++ more)).events ∧
      (registry.after entries).runs <+: (registry.after (entries ++ more)).runs ∧
      (registry.after entries).jobs.map JobRow.original <+:
        (registry.after (entries ++ more)).jobs.map JobRow.original := by
  rw [after_append]
  obtain ⟨rows, hfollows⟩ := follows_run (tracked_after registry entries) more
  exact ⟨hfollows.events, hfollows.runs, ⟨rows, hfollows.originals.symm⟩⟩

/-- No call is refused because the events of a job have used up their room: a job never
has more than two events for each permitted attempt and two more. -/
theorem events_have_room (registry : RunRegistry) (entries : List (Surroundings × Call F))
    (entry : Surroundings × Call F) :
    (registry.step (registry.after entries) entry).1 ≠ .error eventCapacity ∧
      ∀ jobId, ((registry.after entries).jobEvents jobId).length ≤
        2 * registry.limits.maxAttempts + 2 := by
  have hdb := tracked_after registry entries
  constructor
  · intro h
    have hperform : registry.perform (registry.after entries) entry.1 entry.2 =
        .error eventCapacity := by
      unfold step at h
      split at h <;> simp_all
    exact (ensures_perform hdb entry.1 entry.2).exception hperform rfl
  · intro jobId
    by_cases hjob : ∃ row ∈ (registry.after entries).jobs, row.jobId = jobId
    · obtain ⟨row, hrow, rfl⟩ := hjob
      have hhistory := hdb.history row hrow
      have hbudget := hhistory.length_le_eventBudget.trans hhistory.eventBudget_le
      have hattempts := hdb.attempts_le row hrow
      omega
    · have hnone : (registry.after entries).jobEvents jobId = [] := by
        rw [Database.jobEvents, List.filter_eq_nil_iff]
        intro event hevent heq
        obtain ⟨row, hrow, hjobId⟩ := hdb.events_of event hevent
        exact hjob ⟨row, hrow, hjobId.trans (of_decide_eq_true heq)⟩
      rw [hnone]
      exact Nat.zero_le _

/-- In every run each event is of a stored job, and each job stands where its events say: its
claims are of the attempts from one to the stored number, its events lead from the submission to the stored state, it has
succeeded exactly if its result is the succeeded run of its last attempt, and it waits
without a request to cancel and is cancelled only with one. -/
theorem jobs_follow_events (registry : RunRegistry) (entries : List (Surroundings × Call F)) :
    (∀ event ∈ (registry.after entries).events,
      ∃ row ∈ (registry.after entries).jobs, row.jobId = event.jobId) ∧
    ∀ row ∈ (registry.after entries).jobs,
      (History.claims ((registry.after entries).jobEvents row.jobId)).map EventRow.attempt =
          List.range' 1 row.attemptCount ∧
        row.attemptCount ≤ row.maxAttempts ∧
        History.Path none ((registry.after entries).jobEvents row.jobId) row.state ∧
        (row.state = .succeeded ↔ ∃ run ∈ (registry.after entries).jobRuns row.jobId,
          run.attempt = row.attemptCount ∧ run.status = .succeeded ∧
            row.resultRunId = some run.runId) ∧
        (row.state = .queued → row.cancelRequestedAt = none) ∧
        (row.state = .cancelled → row.cancelRequestedAt.isSome = true) := by
  have hdb := tracked_after registry entries
  refine ⟨hdb.events_of, fun row hrow => ?_⟩
  have hhistory := hdb.history row hrow
  have hrow := hhistory.consistent
  exact ⟨hhistory.map_attempt_claims, hrow.attempts_le, hhistory.path, hhistory.succeeded_iff,
    fun hqueued => hrow.cancelRequestedAt_eq (by rw [hqueued]; nofun) (by rw [hqueued]; nofun),
    hrow.cancelled⟩

/-! ## Submissions -/

/-- `hashlib.sha256(canonical).hexdigest()` of a request. -/
def requestDigest (request : SubmissionRequest F) : Except RegistryError String := do
  .ok (PyText.hexText (PyRuntime.sha256 (PyText.encodeUtf8 (← request.canonicalText))))

theorem Answers.requestDigest_eq {submission : Submission F} {row : JobRow}
    (h : registry.Answers submission row) :
    requestDigest submission.request = .ok row.requestDigest := by
  obtain ⟨-, canonical, hcanonical, hdigest⟩ := h
  rw [requestDigest, hcanonical, hdigest]
  rfl

/-- Answers and what has been written are about the columns of a submission alone. -/
theorem Answers.of_sameJob {submission : Submission F} {row row' : JobRow}
    (h : registry.Answers submission row) (hsame : row.SameJob row') :
    registry.Answers submission row' := by
  have horiginal : registry.Answers submission row.original := h
  rw [← hsame.original_eq] at horiginal
  exact horiginal

theorem Written.of_original {submission : Submission F} {row row' : JobRow}
    (h : registry.Written submission row) (hsame : row'.original = row.original) :
    registry.Written submission row' := by
  have horiginal : registry.Written submission row.original :=
    ⟨h.1, h.2, h.3, h.4, h.5, h.6, h.7, h.8, h.9, h.10⟩
  rw [← hsame] at horiginal
  obtain ⟨h₁, h₂, h₃, h₄, h₅, h₆, h₇, h₈, h₉, h₁₀⟩ := horiginal
  exact ⟨h₁, h₂, h₃, h₄, h₅, h₆, h₇, h₈, h₉, h₁₀⟩

/-- A submission that has been answered, with the job that answers for it. -/
def answeredSubmission (entry : Surroundings × Call F) (answer : Except RegistryError (Reply F)) :
    Option (Submission F × String) :=
  entry.2.submission.bind fun submission =>
    (answer.toOption.bind Reply.described).map fun snapshot => (submission, snapshot.jobId)

/-- The submissions of a run that have been answered, each with its job. -/
def answered (registry : RunRegistry) (entries : List (Surroundings × Call F)) :
    List (Submission F × String) :=
  Machine.emitted registry.step answeredSubmission {} entries

/-- A job answers for a submission. -/
def Answered (registry : RunRegistry) (answer : Submission F × String) (db : Database) : Prop :=
  ∃ row ∈ db.jobs, row.jobId = answer.2 ∧ registry.Answers answer.1 row

theorem answered_of_answeredSubmission (hdb : db.Tracked registry.limits)
    {entry : Surroundings × Call F} {answer : Submission F × String}
    (h : answeredSubmission entry (registry.step db entry).1 = some answer) :
    registry.Answered answer (registry.step db entry).2 := by
  obtain ⟨submission, hsubmission, h⟩ := Option.bind_eq_some_iff.mp h
  obtain ⟨snapshot, hsnapshot, rfl⟩ := Option.map_eq_some_iff.mp h
  cases hreply : (registry.step db entry).1 with
  | error error => simp [hreply, Except.toOption] at hsnapshot
  | ok reply =>
      obtain ⟨rows, heffect⟩ := effect_step hdb hreply
      simp only [hreply, Except.toOption, Option.bind_some] at hsnapshot
      exact heffect.answered submission hsubmission snapshot hsnapshot

theorem answered_step (hdb : db.Tracked registry.limits) {answer : Submission F × String}
    (h : registry.Answered answer db) (entry : Surroundings × Call F) :
    registry.Answered answer (registry.step db entry).2 := by
  obtain ⟨row, hrow, hjobId, hanswers⟩ := h
  obtain ⟨rows, hfollows, -⟩ := follows_step hdb entry
  obtain ⟨row', hrow', hsame, -⟩ := hfollows.advances row hrow
  exact ⟨row', hrow', hsame.jobId_eq.trans hjobId, hanswers.of_sameJob hsame⟩

/-- In every run a key stands for one job and one request: all submissions under it that are
answered name the same job, and their requests have the same digest. -/
theorem keys_are_idempotent (registry : RunRegistry) (entries : List (Surroundings × Call F)) :
    (registry.answered entries).Pairwise fun earlier later =>
      registry.digest idempotencyDomain earlier.1.idempotencyKey =
          registry.digest idempotencyDomain later.1.idempotencyKey →
        earlier.2 = later.2 ∧ requestDigest earlier.1.request = requestDigest later.1.request := by
  refine Machine.pairwise_emitted (Database.Tracked registry.limits) registry.Answered
    (fun db entry hdb => tracked_step hdb entry)
    (fun db entry answer hdb h => answered_of_answeredSubmission hdb h)
    (fun db entry answer hdb h => answered_step hdb h entry) ?_ (.empty _) entries
  intro db entry earlier later hdb hearlier h hkey
  obtain ⟨row, hrow, hjobId, hanswers⟩ := answered_step hdb hearlier entry
  obtain ⟨row', hrow', hjobId', hanswers'⟩ := answered_of_answeredSubmission hdb h
  obtain rfl := Table.eq_of_key_eq (tracked_step hdb entry).keys_nodup hrow hrow'
    (hanswers.1.trans (hkey.trans hanswers'.1.symm))
  exact ⟨hjobId.symm.trans hjobId',
    hanswers.requestDigest_eq.trans hanswers'.requestDigest_eq.symm⟩

end RunRegistry

end Tracking
