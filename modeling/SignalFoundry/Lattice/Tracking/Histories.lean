import SignalFoundry.Lattice.Tracking.RegistryCalls

/-!
# Histories of a job

What may happen to one job: its row together with the events and the terminal runs that
belong to it. A history grows by the steps of a lifecycle and by no other; what a job is
worth in events, which attempts are closed and how its columns agree with its events are
facts about histories alone.
-/

namespace Tracking

/-! ## Closings -/

/-- The ways a worker ends its attempt. -/
inductive Closing where
  | succeeded
  | failed (code : FailureReasonCode) (summary : String)
  | cancelled
  | retried (code : FailureReasonCode)

namespace Closing

def status : Closing → RunStatus
  | succeeded => .succeeded
  | failed _ _ | retried _ => .failed
  | cancelled => .cancelled

def toState : Closing → JobState
  | succeeded => .succeeded
  | failed _ _ => .failed
  | cancelled => .cancelled
  | retried _ => .queued

def kind : Closing → EventKind
  | succeeded => .succeeded
  | failed _ _ => .failed
  | cancelled => .cancelled
  | retried _ => .retried

def details : Closing → EventDetails
  | retried code => .failureCode code
  | _ => .empty

/-- The row after the closing. -/
def change (instant : Instant) (runId : String) (row : JobRow) : Closing → JobRow
  | succeeded => row.terminate .succeeded instant (some runId) none none
  | failed code summary => row.terminate .failed instant none (some code) (some summary)
  | cancelled => row.terminate .cancelled instant none none none
  | retried _ => row.requeue instant

/-- A cancelled attempt has been asked to stop, any other has not. -/
def Allowed (row : JobRow) : Closing → Prop
  | succeeded | failed _ _ => row.cancelRequestedAt = none
  | cancelled => row.cancelRequestedAt.isSome = true
  | retried _ => row.cancelRequestedAt = none ∧ row.attemptCount < row.maxAttempts

end Closing

/-! ## Histories -/

/-- The row as `submit` inserts it, without what has happened since. -/
def JobRow.original (row : JobRow) : JobRow :=
  { row.release with
    state := .queued
    attemptCount := 0
    updatedAt := row.createdAt
    cancelRequestedAt := none
    cancelReason := none
    terminalAt := none
    resultRunId := none
    failureCode := none
    failureSummary := none }

/-- Nothing has happened yet to a row that allows for an attempt. -/
structure JobRow.Fresh (row : JobRow) : Prop where
  original_eq : row.original = row
  attempts_pos : 0 < row.maxAttempts

/-- The run of the current attempt, as `_insert_terminal_run` writes it. -/
structure RunRow.Closes (run : RunRow) (row : JobRow) (events : List EventRow)
    (instant : Instant) : Prop where
  jobId_eq : run.jobId = row.jobId
  attempt_eq : run.attempt = row.attemptCount
  createdAt_eq : run.createdAt = row.createdAt
  endedAt_eq : run.endedAt = instant
  schemaVersion_eq : run.schemaVersion = 1
  identifier : isIdentifier run.runId = true
  startedAt_le : run.startedAt ≤ instant
  createdAt_le : run.createdAt ≤ run.startedAt
  claimed : ∃ event ∈ events, event.kind = .claimed ∧ event.attempt = row.attemptCount ∧
    event.occurredAt ≤ run.startedAt

/-- What can happen to a job. -/
inductive History : JobRow → List EventRow → List RunRow → Prop
  | submitted {row : JobRow} {n : ℕ} (fresh : row.Fresh) :
      History row [⟨n, row.jobId, .submitted, none, .queued, row.createdAt, 0, "submitter",
        .requestDigest row.requestDigest⟩] []
  | claimed {row : JobRow} {events : List EventRow} {runs : List RunRow} {n : ℕ}
      {instant expires : Instant} {workerId tokenDigest : String}
      (history : History row events runs) (queued : row.state = .queued)
      (monotonic : row.updatedAt ≤ instant) (expiry : instant ≤ expires)
      (worker : isIdentifier workerId = true) (later : ∀ event ∈ events, event.sequence < n) :
      History (row.claim instant expires workerId tokenDigest)
        (events ++ [⟨n, row.jobId, .claimed, some .queued, .running, instant,
          row.attemptCount + 1, workerId, .leaseExpiresAt expires⟩]) runs
  | renewed {row : JobRow} {events : List EventRow} {runs : List RunRow}
      {instant expires : Instant} (history : History row events runs)
      (running : row.state = .running) (monotonic : row.updatedAt ≤ instant)
      (expiry : instant ≤ expires) : History (row.heartbeat instant expires) events runs
  | expired {row : JobRow} {events : List EventRow} {runs : List RunRow} {n : ℕ}
      {instant : Instant} (history : History row events runs)
      (expired : row.expiredAt instant = true) (later : ∀ event ∈ events, event.sequence < n) :
      History (row.expire (RunRegistry.expiryOutcome row).1 instant
          (RunRegistry.expiryOutcome row).2.1 (RunRegistry.expiryOutcome row).2.2)
        (events ++ [⟨n, row.jobId, .leaseExpired, some .running,
          (RunRegistry.expiryOutcome row).1, instant, row.attemptCount, "registry", .empty⟩]) runs
  | cancelRequested {row : JobRow} {events : List EventRow} {runs : List RunRow} {n : ℕ}
      {instant : Instant} {reason : CancellationReasonCode} (history : History row events runs)
      (running : row.state = .running) (first : row.cancelRequestedAt = none)
      (monotonic : row.updatedAt ≤ instant) (live : ∀ t ∈ row.leaseExpiresAt, instant ≤ t)
      (later : ∀ event ∈ events, event.sequence < n) :
      History (row.requestCancel instant reason)
        (events ++ [⟨n, row.jobId, .cancelRequested, some .running, .running, instant,
          row.attemptCount, "requester", .reasonCode reason⟩]) runs
  | cancelledQueued {row : JobRow} {events : List EventRow} {runs : List RunRow} {n m : ℕ}
      {instant : Instant} {reason : CancellationReasonCode} (history : History row events runs)
      (queued : row.state = .queued) (monotonic : row.updatedAt ≤ instant)
      (later : ∀ event ∈ events, event.sequence < n) (next : n < m) :
      History ((row.requestCancel instant reason).cancelQueued instant)
        (events ++ [⟨n, row.jobId, .cancelRequested, some .queued, .queued, instant,
            row.attemptCount, "requester", .reasonCode reason⟩,
          ⟨m, row.jobId, .cancelled, some .queued, .cancelled, instant, row.attemptCount,
            "registry", .empty⟩]) runs
  | closed {row : JobRow} {events : List EventRow} {runs : List RunRow} {n : ℕ}
      {instant : Instant} {run : RunRow} {workerId : String} (closing : Closing)
      (history : History row events runs) (running : row.state = .running)
      (owner : row.leaseOwner = some workerId) (monotonic : row.updatedAt ≤ instant)
      (allowed : closing.Allowed row) (closes : run.Closes row events instant)
      (status : run.status = closing.status) (later : ∀ event ∈ events, event.sequence < n)
      (laterRun : ∀ other ∈ runs, other.sequence < run.sequence) :
      History (closing.change instant run.runId row)
        (events ++ [⟨n, row.jobId, closing.kind, some .running, closing.toState, instant,
          row.attemptCount, workerId, closing.details⟩]) (runs ++ [run])

/-! ## The row -/

/-- The three outcomes of an expired lease. -/
theorem expiryOutcome_cases (row : JobRow) :
    (row.cancelRequestedAt.isSome = true ∧
      RunRegistry.expiryOutcome row = (.cancelled, none, none)) ∨
    (row.cancelRequestedAt = none ∧ row.maxAttempts ≤ row.attemptCount ∧
      RunRegistry.expiryOutcome row = (.failed, some .leaseAttemptsExhausted,
        some "lease expired after the final permitted attempt")) ∨
    (row.cancelRequestedAt = none ∧ row.attemptCount < row.maxAttempts ∧
      RunRegistry.expiryOutcome row = (.queued, none, none)) := by
  unfold RunRegistry.expiryOutcome
  cases hcancel : row.cancelRequestedAt with
  | some t => exact .inl ⟨rfl, by simp⟩
  | none =>
      by_cases hattempts : row.maxAttempts ≤ row.attemptCount
      · exact .inr (.inl ⟨rfl, hattempts, by simp [hattempts]⟩)
      · exact .inr (.inr ⟨rfl, Nat.lt_of_not_le hattempts, by simp [hattempts]⟩)

theorem expiryOutcome_ne_succeeded (row : JobRow) :
    (RunRegistry.expiryOutcome row).1 ≠ .succeeded := by
  rcases expiryOutcome_cases row with ⟨-, ho⟩ | ⟨-, -, ho⟩ | ⟨-, -, ho⟩ <;> simp [ho]

theorem JobRow.expiredAt_iff {row : JobRow} {instant : Instant} :
    row.expiredAt instant = true ↔
      row.state = .running ∧ ∃ expires ∈ row.leaseExpiresAt, expires ≤ instant := by
  cases hexpires : row.leaseExpiresAt <;> simp [JobRow.expiredAt, hexpires]

/-- How the columns of a row hang together. -/
structure JobRow.Consistent (row : JobRow) : Prop where
  attempts_le : row.attemptCount ≤ row.maxAttempts
  created_le : row.createdAt ≤ row.updatedAt
  queued : row.state = .queued → row.attemptCount < row.maxAttempts
  running : row.state = .running → 0 < row.attemptCount ∧ row.leaseOwner.isSome = true ∧
    ∃ heartbeat ∈ row.heartbeatAt, ∃ expires ∈ row.leaseExpiresAt,
      heartbeat ≤ row.updatedAt ∧ row.updatedAt ≤ expires
  released : row.state ≠ .running →
    row.leaseOwner = none ∧ row.leaseExpiresAt = none ∧ row.heartbeatAt = none
  cancel : row.cancelRequestedAt.isSome = row.cancelReason.isSome
  cancelState : row.cancelRequestedAt.isSome = true → row.state = .running ∨ row.state = .cancelled
  cancelled : row.state = .cancelled → row.cancelRequestedAt.isSome = true
  terminalAt_eq : row.terminalAt = if row.state.terminal then some row.updatedAt else none
  result : row.state ≠ .succeeded → row.resultRunId = none
  failure : row.state = .failed ↔ row.failureCode.isSome = true

theorem JobRow.Consistent.cancelRequestedAt_eq {row : JobRow} (h : row.Consistent)
    (hrunning : row.state ≠ .running) (hcancelled : row.state ≠ .cancelled) :
    row.cancelRequestedAt = none := by
  by_contra hsome
  rcases h.cancelState (Option.isSome_iff_ne_none.mpr hsome) with hstate | hstate
  · exact hrunning hstate
  · exact hcancelled hstate

/-- A step may change the columns of a lifecycle, and never those of the submission. -/
structure JobRow.SameJob (row row' : JobRow) : Prop where
  original_eq : row'.original = row.original

theorem JobRow.SameJob.jobId_eq {row row' : JobRow} (h : row.SameJob row') :
    row'.jobId = row.jobId := by
  show row'.original.jobId = row.original.jobId
  rw [h.original_eq]

theorem JobRow.SameJob.maxAttempts_eq {row row' : JobRow} (h : row.SameJob row') :
    row'.maxAttempts = row.maxAttempts := by
  show row'.original.maxAttempts = row.original.maxAttempts
  rw [h.original_eq]

theorem Closing.sameJob_change (closing : Closing) (instant : Instant) (runId : String)
    (row : JobRow) : row.SameJob (closing.change instant runId row) := by
  cases closing <;> exact ⟨rfl⟩

namespace History

variable {row : JobRow} {events : List EventRow} {runs : List RunRow}

theorem consistent_claim (h : row.Consistent) (queued : row.state = .queued)
    {instant expires : Instant} {workerId tokenDigest : String}
    (monotonic : row.updatedAt ≤ instant) (expiry : instant ≤ expires) :
    (row.claim instant expires workerId tokenDigest).Consistent where
  attempts_le := h.queued queued
  created_le := h.created_le.trans monotonic
  queued := nofun
  running _ := ⟨Nat.succ_pos _, rfl, instant, rfl, expires, rfl, le_rfl, expiry⟩
  released := fun hne => (hne rfl).elim
  cancel := h.cancel
  cancelState _ := .inl rfl
  cancelled := nofun
  terminalAt_eq := by
    have hterminal := h.terminalAt_eq
    rw [queued] at hterminal
    exact hterminal
  result _ := h.result (by rw [queued]; nofun)
  failure := by
    have hfailure := h.failure
    rw [queued] at hfailure
    exact ⟨nofun, fun hsome => nomatch hfailure.mpr hsome⟩

theorem consistent_heartbeat (h : row.Consistent) (running : row.state = .running)
    {instant expires : Instant} (monotonic : row.updatedAt ≤ instant)
    (expiry : instant ≤ expires) : (row.heartbeat instant expires).Consistent := by
  have hterminal := h.terminalAt_eq
  rw [running] at hterminal
  obtain ⟨hpos, howner, -⟩ := h.running running
  exact {
    h with
    created_le := h.created_le.trans monotonic
    running := fun _ => ⟨hpos, howner, instant, rfl, expires, rfl, le_rfl, expiry⟩
    released := fun hne => (hne running).elim
    terminalAt_eq := by
      show row.terminalAt = _
      rw [hterminal, show (row.heartbeat instant expires).state = .running from running]
      rfl }

theorem consistent_requestCancel (h : row.Consistent) (running : row.state = .running)
    {instant : Instant} {reason : CancellationReasonCode} (monotonic : row.updatedAt ≤ instant)
    (live : ∀ t ∈ row.leaseExpiresAt, instant ≤ t) :
    (row.requestCancel instant reason).Consistent := by
  have hterminal := h.terminalAt_eq
  rw [running] at hterminal
  obtain ⟨hpos, howner, heartbeat, hheartbeat, expires, hexpires, hle, -⟩ := h.running running
  exact {
    h with
    created_le := h.created_le.trans monotonic
    running := fun _ => ⟨hpos, howner, heartbeat, hheartbeat, expires, hexpires,
      hle.trans monotonic, live expires hexpires⟩
    cancel := rfl
    cancelState := fun _ => .inl running
    cancelled := fun _ => rfl
    terminalAt_eq := by
      show row.terminalAt = _
      rw [hterminal, show (row.requestCancel instant reason).state = .running from running]
      rfl }

theorem consistent_cancelQueued (h : row.Consistent) (queued : row.state = .queued)
    {instant : Instant} {reason : CancellationReasonCode} (monotonic : row.updatedAt ≤ instant) :
    ((row.requestCancel instant reason).cancelQueued instant).Consistent where
  attempts_le := h.attempts_le
  created_le := h.created_le.trans monotonic
  queued := nofun
  running := nofun
  released _ := h.released (by rw [queued]; nofun)
  cancel := rfl
  cancelState _ := .inr rfl
  cancelled _ := rfl
  terminalAt_eq := rfl
  result _ := h.result (by rw [queued]; nofun)
  failure := by
    have hfailure := h.failure
    rw [queued] at hfailure
    exact ⟨nofun, fun hsome => nomatch hfailure.mpr hsome⟩

/-- A running job gives its lease up for another state. -/
structure Settles (row row' : JobRow) (instant : Instant) : Prop where
  state_ne : row'.state ≠ .running
  attemptCount_eq : row'.attemptCount = row.attemptCount
  maxAttempts_eq : row'.maxAttempts = row.maxAttempts
  createdAt_eq : row'.createdAt = row.createdAt
  updatedAt_eq : row'.updatedAt = instant
  leaseOwner_eq : row'.leaseOwner = none
  leaseExpiresAt_eq : row'.leaseExpiresAt = none
  heartbeatAt_eq : row'.heartbeatAt = none
  cancelRequestedAt_eq : row'.cancelRequestedAt = row.cancelRequestedAt
  cancelReason_eq : row'.cancelReason = row.cancelReason
  terminalAt_eq : row'.terminalAt = if row'.state.terminal then some instant else none
  queued : row'.state = .queued → row.attemptCount < row.maxAttempts
  cancelled : row'.state = .cancelled ↔ row.cancelRequestedAt.isSome = true
  result : row'.state ≠ .succeeded → row'.resultRunId = none
  failure : row'.state = .failed ↔ row'.failureCode.isSome = true

theorem Settles.consistent {row' : JobRow} {instant : Instant} (h : Settles row row' instant)
    (hrow : row.Consistent) (monotonic : row.updatedAt ≤ instant) : row'.Consistent where
  attempts_le := by rw [h.attemptCount_eq, h.maxAttempts_eq]; exact hrow.attempts_le
  created_le := by
    rw [h.createdAt_eq, h.updatedAt_eq]
    exact hrow.created_le.trans monotonic
  queued := by rw [h.attemptCount_eq, h.maxAttempts_eq]; exact h.queued
  running hrunning := (h.state_ne hrunning).elim
  released _ := ⟨h.leaseOwner_eq, h.leaseExpiresAt_eq, h.heartbeatAt_eq⟩
  cancel := by rw [h.cancelRequestedAt_eq, h.cancelReason_eq, hrow.cancel]
  cancelState hsome := .inr (h.cancelled.mpr (h.cancelRequestedAt_eq ▸ hsome))
  cancelled hstate := by rw [h.cancelRequestedAt_eq]; exact h.cancelled.mp hstate
  terminalAt_eq := by rw [h.terminalAt_eq, h.updatedAt_eq]
  result := h.result
  failure := h.failure

/-- An expired job is settled by the outcome of its lease. -/
theorem settles_expire (h : row.Consistent) (running : row.state = .running)
    (instant : Instant) :
    Settles row (row.expire (RunRegistry.expiryOutcome row).1 instant
      (RunRegistry.expiryOutcome row).2.1 (RunRegistry.expiryOutcome row).2.2) instant := by
  have hresult := h.result (by rw [running]; nofun)
  rcases expiryOutcome_cases row with
    ⟨hcancel, ho⟩ | ⟨hcancel, hattempts, ho⟩ | ⟨hcancel, hattempts, ho⟩
  all_goals
    rw [ho]
    constructor <;> simp [JobRow.expire, JobRow.release, JobState.terminal, *]

theorem settles_change (h : row.Consistent) (running : row.state = .running) {closing : Closing}
    (allowed : closing.Allowed row) (instant : Instant) (runId : String) :
    Settles row (closing.change instant runId row) instant := by
  have hresult := h.result (by rw [running]; nofun)
  have hterminal := h.terminalAt_eq
  have hfailure := h.failure
  rw [running] at hterminal hfailure
  cases closing
  all_goals
    constructor <;>
      simp_all [Closing.change, Closing.Allowed, JobRow.terminate, JobRow.requeue, JobRow.release,
        JobState.terminal]

theorem consistent_fresh (fresh : row.Fresh) : row.Consistent := by
  have hpos := fresh.attempts_pos
  rw [← fresh.original_eq] at hpos ⊢
  constructor <;> simp [JobRow.original, JobRow.release, JobState.terminal]
  exact hpos

/-- The row of every history is consistent. -/
theorem consistent (h : History row events runs) : row.Consistent := by
  induction h with
  | submitted fresh => exact consistent_fresh fresh
  | claimed _ queued monotonic expiry _ _ ih => exact consistent_claim ih queued monotonic expiry
  | renewed _ running monotonic expiry ih => exact consistent_heartbeat ih running monotonic expiry
  | @expired row _ _ _ instant _ expired _ ih =>
      obtain ⟨hrunning, expires, hexpires, hle⟩ := JobRow.expiredAt_iff.mp expired
      obtain ⟨-, -, _, -, expires', hexpires', -, hupdated⟩ := ih.running hrunning
      rw [Option.mem_unique hexpires' hexpires] at hupdated
      exact (settles_expire ih hrunning instant).consistent ih (hupdated.trans hle)
  | cancelRequested _ running _ monotonic live _ ih =>
      exact consistent_requestCancel ih running monotonic live
  | cancelledQueued _ queued monotonic _ _ ih => exact consistent_cancelQueued ih queued monotonic
  | closed closing _ running _ monotonic allowed _ _ _ _ ih =>
      exact (settles_change ih running allowed _ _).consistent ih monotonic

/-! ## Events -/

/-- The events a job may have used up: two for each attempt that is over, one for the
submission, and one for a request to cancel. -/
def eventBudget (row : JobRow) : ℕ :=
  match row.state with
  | .queued => 2 * row.attemptCount + 1
  | .running => 2 * row.attemptCount + if row.cancelRequestedAt.isSome then 1 else 0
  | _ => 2 * row.maxAttempts + 2

/-- Giving up a lease leaves room for the event that records it. -/
theorem Settles.eventBudget_lt {row' : JobRow} {instant : Instant}
    (h : Settles row row' instant) (hrow : row.Consistent) (running : row.state = .running) :
    eventBudget row < eventBudget row' := by
  have hattempts := hrow.attempts_le
  have hcancelled := h.cancelled
  have hne := h.state_ne
  simp only [eventBudget, running, h.attemptCount_eq, h.maxAttempts_eq]
  cases hstate : row'.state with
  | running => exact (hne hstate).elim
  | queued =>
      rw [hstate] at hcancelled
      rw [if_neg fun hsome => nomatch hcancelled.mpr hsome]
      exact Nat.lt_succ_self _
  | succeeded | failed | cancelled =>
      show _ < 2 * row.maxAttempts + 2
      split_ifs <;> omega

/-- A history never has more events than its budget. -/
theorem length_le_eventBudget (h : History row events runs) :
    events.length ≤ eventBudget row := by
  induction h with
  | submitted fresh =>
      rw [← fresh.original_eq]
      rfl
  | claimed history queued _ _ _ _ ih =>
      simp only [eventBudget, queued] at ih
      simp only [eventBudget, JobRow.claim, List.length_append, List.length_singleton]
      omega
  | renewed _ running _ _ ih =>
      simpa only [eventBudget, running, JobRow.heartbeat] using ih
  | @expired row _ _ _ instant history expired _ ih =>
      have hrunning := (JobRow.expiredAt_iff.mp expired).1
      have hsettles := settles_expire history.consistent hrunning instant
      rw [List.length_append, List.length_singleton]
      exact (Nat.succ_le_succ ih).trans (hsettles.eventBudget_lt history.consistent hrunning)
  | cancelRequested _ running first _ _ _ ih =>
      simp only [eventBudget, running, first, Option.isSome_none] at ih
      simp only [eventBudget, JobRow.requestCancel, running, List.length_append,
        List.length_singleton]
      simpa using ih
  | cancelledQueued history queued _ _ _ ih =>
      have hattempts := history.consistent.queued queued
      simp only [eventBudget, queued] at ih
      simp only [eventBudget, JobRow.cancelQueued, JobRow.requestCancel, List.length_append,
        List.length_cons, List.length_nil]
      omega
  | @closed row _ _ _ instant run _ closing history running _ _ allowed _ _ _ _ ih =>
      have hsettles := settles_change history.consistent running allowed instant run.runId
      rw [List.length_append, List.length_singleton]
      exact (Nat.succ_le_succ ih).trans (hsettles.eventBudget_lt history.consistent running)

/-- The budget of a job is at most the capacity that the limits reserve for it. -/
theorem eventBudget_le (h : History row events runs) :
    eventBudget row ≤ 2 * row.maxAttempts + 2 := by
  have hattempts := h.consistent.attempts_le
  cases hstate : row.state with
  | queued =>
      simp only [eventBudget, hstate]
      omega
  | running =>
      simp only [eventBudget, hstate]
      split_ifs <;> omega
  | succeeded | failed | cancelled => simp only [eventBudget, hstate, le_refl]

/-- There is room for another event of a job that is not over, and for two of a queued one. -/
theorem length_lt (h : History row events runs) (hstate : row.state.terminal = false) :
    events.length < 2 * row.maxAttempts + 2 ∧
      (row.state = .queued → events.length + 1 < 2 * row.maxAttempts + 2) := by
  have hlength := h.length_le_eventBudget
  have hrow := h.consistent
  cases hcase : row.state with
  | queued =>
      have hattempts := hrow.queued hcase
      simp only [eventBudget, hcase] at hlength
      omega
  | running =>
      have hattempts := hrow.attempts_le
      simp only [eventBudget, hcase] at hlength
      refine ⟨?_, nofun⟩
      split_ifs at hlength <;> omega
  | succeeded | failed | cancelled => simp [hcase, JobState.terminal] at hstate

/-- The claims of a job, in the order of its events. -/
def claims (events : List EventRow) : List EventRow :=
  events.filter fun event => event.kind = .claimed

/-- Attempts are claimed one after the other. -/
theorem map_attempt_claims (h : History row events runs) :
    (claims events).map EventRow.attempt = List.range' 1 row.attemptCount := by
  induction h with
  | submitted fresh =>
      rw [← fresh.original_eq]
      rfl
  | claimed _ _ _ _ _ _ ih =>
      simp only [claims] at ih
      simp [claims, List.filter_append, ih, JobRow.claim, List.range'_1_concat, add_comm]
  | renewed _ _ _ _ ih => exact ih
  | expired _ _ _ ih =>
      simp only [claims] at ih
      simpa [claims, List.filter_append, JobRow.expire, JobRow.release] using ih
  | cancelRequested _ _ _ _ _ _ ih =>
      simp only [claims] at ih
      simpa [claims, List.filter_append, JobRow.requestCancel] using ih
  | cancelledQueued _ _ _ _ _ ih =>
      simp only [claims] at ih
      simpa [claims, List.filter_append, JobRow.requestCancel, JobRow.cancelQueued] using ih
  | closed closing _ _ _ _ _ _ _ _ _ ih =>
      simp only [claims] at ih
      cases closing <;>
        simpa [claims, List.filter_append, Closing.kind, Closing.change, JobRow.terminate,
          JobRow.requeue, JobRow.release] using ih

/-- The events of a job lead from each state to the next. -/
def Path : Option JobState → List EventRow → JobState → Prop
  | start, [], last => start = some last
  | start, event :: events, last => event.fromState = start ∧ Path (some event.toState) events last

theorem path_append {start : Option JobState} {events events' : List EventRow} {last : JobState} :
    Path start (events ++ events') last ↔
      (∃ middle, Path start events middle ∧ Path (some middle) events' last) ∨
        events = [] ∧ Path start events' last := by
  induction events generalizing start with
  | nil =>
      simp only [List.nil_append, Path, true_and]
      constructor
      · exact .inr
      · rintro (⟨middle, rfl, h⟩ | h) <;> exact h
  | cons event events ih =>
      simp only [List.cons_append, Path, reduceCtorEq, false_and, or_false]
      rw [ih]
      constructor
      · rintro ⟨rfl, ⟨middle, h, h'⟩ | ⟨rfl, h⟩⟩
        · exact ⟨middle, ⟨rfl, h⟩, h'⟩
        · exact ⟨event.toState, ⟨rfl, rfl⟩, h⟩
      · rintro ⟨middle, ⟨rfl, h⟩, h'⟩
        exact ⟨rfl, .inl ⟨middle, h, h'⟩⟩

/-- The events of a job form a path from its submission to its stored state. -/
theorem path (h : History row events runs) : Path none events row.state := by
  induction h with
  | submitted fresh =>
      rw [← fresh.original_eq]
      exact ⟨rfl, rfl⟩
  | claimed _ queued _ _ _ _ ih =>
      rw [queued] at ih
      exact path_append.mpr (.inl ⟨_, ih, rfl, rfl⟩)
  | renewed _ _ _ _ ih => exact ih
  | expired _ expired _ ih =>
      have hrunning := (JobRow.expiredAt_iff.mp expired).1
      exact path_append.mpr (.inl ⟨_, ih, congrArg some hrunning.symm, rfl⟩)
  | cancelRequested _ running _ _ _ _ ih =>
      rw [running] at ih
      exact path_append.mpr (.inl ⟨_, ih, rfl, congrArg some running.symm⟩)
  | cancelledQueued _ queued _ _ _ ih =>
      rw [queued] at ih
      exact path_append.mpr (.inl ⟨_, ih, rfl, rfl, rfl⟩)
  | closed closing _ running _ _ _ _ _ _ _ ih =>
      rw [running] at ih
      cases closing <;> exact path_append.mpr (.inl ⟨_, ih, rfl, rfl⟩)

/-! ## Runs -/

/-- The runs of a job are of its attempts, each of another, and a running job has none yet of
its current attempt. -/
structure Attempted (row : JobRow) (runs : List RunRow) : Prop where
  increasing : (runs.map RunRow.attempt).Pairwise (· < ·)
  le : ∀ run ∈ runs, 0 < run.attempt ∧ run.attempt ≤ row.attemptCount
  lt : row.state = .running → ∀ run ∈ runs, run.attempt < row.attemptCount

theorem attempted (h : History row events runs) : Attempted row runs := by
  induction h with
  | submitted => exact ⟨.nil, by simp, by simp⟩
  | claimed _ _ _ _ _ _ ih =>
      exact ⟨ih.increasing, fun run hrun => ⟨(ih.le run hrun).1, (ih.le run hrun).2.step⟩,
        fun _ run hrun => Nat.lt_succ_of_le (ih.le run hrun).2⟩
  | renewed _ _ _ _ ih => exact ⟨ih.increasing, ih.le, ih.lt⟩
  | @expired row _ _ _ _ history expired _ ih =>
      have hne := (settles_expire history.consistent (JobRow.expiredAt_iff.mp expired).1 0).state_ne
      exact ⟨ih.increasing, ih.le, fun hrunning => (hne hrunning).elim⟩
  | cancelRequested _ _ _ _ _ _ ih => exact ⟨ih.increasing, ih.le, ih.lt⟩
  | cancelledQueued _ _ _ _ _ ih => exact ⟨ih.increasing, ih.le, nofun⟩
  | @closed row _ runs _ instant run _ closing history running _ _ allowed closes _ _ _ ih =>
      have hsettles := settles_change history.consistent running allowed instant run.runId
      have hpos := (history.consistent.running running).1
      refine ⟨?_, ?_, fun hrunning => (hsettles.state_ne hrunning).elim⟩
      · rw [List.map_append, List.pairwise_append]
        refine ⟨ih.increasing, List.pairwise_singleton _ _, ?_⟩
        intro attempt hattempt attempt' hattempt'
        obtain ⟨other, hother, rfl⟩ := List.mem_map.mp hattempt
        rw [List.map_singleton, List.mem_singleton] at hattempt'
        rw [hattempt', closes.attempt_eq]
        exact ih.lt running other hother
      · intro other hother
        rw [hsettles.attemptCount_eq]
        rcases List.mem_append.mp hother with hold | hnew
        · exact ih.le other hold
        · rw [List.mem_singleton.mp hnew, closes.attempt_eq]
          exact ⟨hpos, le_rfl⟩

/-- A job has succeeded exactly when its result is the succeeded run of its last attempt. -/
theorem succeeded_iff (h : History row events runs) :
    row.state = .succeeded ↔ ∃ run ∈ runs, run.attempt = row.attemptCount ∧
      run.status = .succeeded ∧ row.resultRunId = some run.runId := by
  constructor
  · intro hstate
    induction h with
    | submitted fresh =>
        rw [← fresh.original_eq] at hstate
        nomatch hstate
    | claimed => nomatch hstate
    | renewed _ running => simp [JobRow.heartbeat, running] at hstate
    | expired => exact (expiryOutcome_ne_succeeded _ hstate).elim
    | cancelRequested _ running => simp [JobRow.requestCancel, running] at hstate
    | cancelledQueued => nomatch hstate
    | closed closing _ _ _ _ _ closes status =>
        cases closing with
        | succeeded =>
            exact ⟨_, List.mem_append_right _ (List.mem_singleton_self _), closes.attempt_eq,
              status, rfl⟩
        | failed | cancelled | retried => nomatch hstate
  · rintro ⟨run, -, -, -, hresult⟩
    by_contra hstate
    rw [h.consistent.result hstate] at hresult
    nomatch hresult

end History

end Tracking
