import SignalFoundry.Foundry.Research.Store

/-!
# What the calls of the store commit

A call of the store raises and leaves the tables as they were, returns a job
that is there, or commits one change: a new job in its first state, or a job in
a state that may follow its own. Each public call is inverted once
(`submit_cases`, `transition_cases`, `publish_cases`).
-/

namespace Foundry

namespace Research

open Fallible

/-- The states that may follow another. -/
def JobState.Follows : JobState → JobState → Prop
  | .queued, next => next = .running ∨ next = .failed ∨ next = .cancelled
  | .running, next => next = .succeeded ∨ next = .failed ∨ next = .cancelled
  | _, _ => False

theorem JobState.Follows.not_terminal {current next : JobState} (h : current.Follows next) :
    current.Terminal = false := by
  cases current <;> first | rfl | cases h

theorem JobState.follows_end {current state : JobState} (hterminal : current.Terminal = false)
    (hstate : state = .failed ∨ state = .cancelled) : current.Follows state := by
  rcases hstate with rfl | rfl <;> cases current <;> simp_all [Terminal, Follows]

namespace Store

variable {s s' : Store} {jobId : String} {now : Timestamp}

/-! ## Reading -/

theorem row_eq_ok_iff {row : JobRow} : s.row jobId = .ok row ↔
    isDigestText jobId = true ∧ Table.find JobRow.jobId jobId s.jobs = some row := by
  unfold Store.row
  by_cases hid : isDigestText jobId = true
  · rw [if_pos hid]
    cases Table.find JobRow.jobId jobId s.jobs with
    | none => simp
    | some found => simp [hid]
  · rw [if_neg hid]
    simp [hid]

theorem job_eq_ok_iff {row : JobRow} {result : Job} :
    Store.job row = .ok result ↔ result.toJobFields = row.fields := by
  unfold Store.job
  constructor
  · intro h
    split at h
    · cases h
      rfl
    · cases h
  · intro h
    have hcoherent := result.coherent
    rw [h] at hcoherent
    rw [dif_pos hcoherent]
    cases result
    cases h
    rfl

theorem get_eq_ok_iff {result : Job} : s.get jobId = .ok result ↔
    ∃ row, (isDigestText jobId = true ∧ Table.find JobRow.jobId jobId s.jobs = some row) ∧
      result.toJobFields = row.fields := by
  simp only [Store.get, bind_eq_ok_iff, row_eq_ok_iff, job_eq_ok_iff]

theorem write_eq_ok_iff {α : Type} {body : Store → Except FoundryError (α × Store)} {a : α} :
    s.write body = (.ok a, s') ↔ body s = .ok (a, s') := by
  unfold write
  cases body s with
  | error e => simp
  | ok result =>
      obtain ⟨b, s₁⟩ := result
      simp

theorem write_cases {α : Type} (s : Store) (body : Store → Except FoundryError (α × Store)) :
    (∃ e, s.write body = (.error e, s)) ∨ ∃ a s', s.write body = (.ok a, s') ∧
      body s = .ok (a, s') := by
  unfold write
  cases body s with
  | error e => exact .inl ⟨e, rfl⟩
  | ok result => exact .inr ⟨result.1, result.2, rfl, rfl⟩

/-! ## The two commits -/

/-- The store with one more job. -/
def queueJob (s : Store) (row : JobRow) (now : Timestamp) : Store :=
  { s with jobs := s.jobs ++ [row] }.record row.jobId .queued now

/-- The store with a job changed and the change audited. -/
def moveJob (s : Store) (jobId : String) (change : JobRow → JobRow) (state : JobState)
    (now : Timestamp) (code : Option String) : Store :=
  (s.updateJob jobId change).record jobId state now code

/-- A change that moves a job: what identifies the job stays. -/
structure Change (change : JobRow → JobRow) (state : JobState) : Prop where
  jobId : ∀ row, (change row).jobId = row.jobId
  keyHash : ∀ row, (change row).keyHash = row.keyHash
  requestHash : ∀ row, (change row).requestHash = row.requestHash
  state : ∀ row, (change row).state = state

theorem find_moveJob {change : JobRow → JobRow} {state : JobState}
    (hchange : Change change state) {row : JobRow}
    (h : Table.find JobRow.jobId jobId s.jobs = some row) (now : Timestamp)
    (code : Option String) :
    Table.find JobRow.jobId jobId (s.moveJob jobId change state now code).jobs =
      some (change row) :=
  Table.find_update_self hchange.jobId h

section Requests

variable [PyRuntime] {Request : Type} [Canonical Request] {request : Request} {key : String}

theorem lookup_eq_ok_iff {found : Option Job} : s.lookup request key = .ok found ↔
    isKey key = true ∧
      ((Table.find JobRow.keyHash (keyHash key) s.jobs = none ∧ found = none) ∨
        ∃ row job, Table.find JobRow.keyHash (keyHash key) s.jobs = some row ∧
          row.requestHash = digest request ∧ s.get row.jobId = .ok job ∧ found = some job) := by
  unfold lookup
  cases hfind : Table.find JobRow.keyHash (keyHash key) s.jobs with
  | none =>
      simp only [bind_eq_ok_iff, refuseIf_eq_ok_iff, Bool.not_eq_false, Except.ok.injEq, true_and,
        reduceCtorEq, false_and, exists_false, or_false, exists_and_right]
      constructor
      · rintro ⟨⟨-, hkey⟩, hfound⟩
        exact ⟨hkey, hfound.symm⟩
      · rintro ⟨hkey, hfound⟩
        exact ⟨⟨(), hkey⟩, hfound.symm⟩
  | some row =>
      simp only [bind_eq_ok_iff, refuseIf_eq_ok_iff, Bool.not_eq_false, ne_eq, not_not,
        Except.ok.injEq, reduceCtorEq, false_and, false_or]
      constructor
      · rintro ⟨-, hkey, -, hsame, job, hget, rfl⟩
        exact ⟨hkey, row, job, rfl, hsame, hget, rfl⟩
      · rintro ⟨hkey, row', job, hrow, hsame, hget, rfl⟩
        cases hrow
        exact ⟨(), hkey, (), hsame, job, hget, rfl⟩

/-- There is room for one more job. -/
def Room (s : Store) : Prop := s.jobs.length < maxJobs ∧ s.jobs.countP isPending < maxPending

/-- A submission raises, returns the job of its key, or queues a new job. -/
theorem submit_cases (s : Store) (request : Request) (key : String) (now : Timestamp) :
    (∃ e, s.submit request key now = (.error e, s)) ∨
    (∃ job, s.submit request key now = (.ok (job, false), s) ∧
      s.lookup request key = .ok (some job)) ∨
    ∃ job, s.submit request key now =
        (.ok (job, true), s.queueJob (queuedRow request key now) now) ∧
      (isKey key = true ∧ Table.find JobRow.keyHash (keyHash key) s.jobs = none) ∧ s.Room ∧
      (jobIdOf request key ∉ s.jobs.map JobRow.jobId ∧ keyHash key ∉ s.jobs.map JobRow.keyHash) ∧
      (s.queueJob (queuedRow request key now) now).get (jobIdOf request key) = .ok job := by
  unfold submit
  rcases write_cases s _ with ⟨e, hwrite⟩ | ⟨returned, s', hwrite, hbody⟩
  · exact .inl ⟨e, hwrite⟩
  · rw [hwrite]
    obtain ⟨job, created⟩ := returned
    obtain ⟨found, hlookup, hbody⟩ := bind_eq_ok_iff.mp hbody
    cases found with
    | some existing =>
        simp only [Except.ok.injEq, Prod.mk.injEq] at hbody
        obtain ⟨⟨rfl, rfl⟩, rfl⟩ := hbody
        exact .inr (.inl ⟨existing, rfl, hlookup⟩)
    | none =>
        simp only [bind_eq_ok_iff, refuseIf_eq_ok_iff, not_or, not_le, insertJob,
          Except.ok.injEq, Prod.mk.injEq] at hbody
        obtain ⟨-, hroom, s₁, hinsert, result, hget, ⟨rfl, rfl⟩, rfl⟩ := hbody
        split at hinsert
        · cases hinsert
        · next hfresh =>
            cases hinsert
            obtain ⟨hkey, hnone | ⟨row, job, -, -, -, hsome⟩⟩ := lookup_eq_ok_iff.mp hlookup
            · exact .inr (.inr ⟨result, rfl, ⟨hkey, hnone.1⟩, hroom, not_or.mp hfresh, hget⟩)
            · cases hsome

end Requests

theorem follows_of_allowed {current state : JobState} (hterminal : ¬ current.Terminal = true)
    (h : state ∈ allowed current) : current.Follows state := by
  cases current <;> cases state <;> simp_all [allowed, JobState.Follows, JobState.Terminal]

/-- The change of a transition. -/
def transitionRow (state : JobState) (code : Option String) (now : Timestamp) (row : JobRow) :
    JobRow :=
  { row with state := state, updatedAt := now, errorCode := code }

theorem change_transitionRow (state : JobState) (code : Option String) (now : Timestamp) :
    Change (transitionRow state code now) state :=
  ⟨fun _ => rfl, fun _ => rfl, fun _ => rfl, fun _ => rfl⟩

/-- A transition raises, finds its terminal state, or moves the job. -/
theorem transition_cases (s : Store) (jobId : String) (state : JobState) (code : Option String)
    (now : Timestamp) :
    (∃ e, s.transition jobId state code now = (.error e, s)) ∨
    (∃ job, s.transition jobId state code now = (.ok job, s) ∧ s.get jobId = .ok job ∧
      job.state.Terminal = true ∧ job.state = state) ∨
    ∃ row job, s.transition jobId state code now =
        (.ok job, s.moveJob jobId (transitionRow state code now) state now code) ∧
      Table.find JobRow.jobId jobId s.jobs = some row ∧ row.state.Follows state ∧
      state ≠ .succeeded ∧ job.toJobFields = (transitionRow state code now row).fields := by
  unfold transition
  rcases write_cases s _ with ⟨e, hwrite⟩ | ⟨job, s', hwrite, hbody⟩
  · exact .inl ⟨e, hwrite⟩
  · rw [hwrite]
    obtain ⟨current, hcurrent, hbody⟩ := bind_eq_ok_iff.mp hbody
    by_cases hterminal : current.state.Terminal = true
    · rw [if_pos hterminal] at hbody
      by_cases hsame : current.state = state
      · simp only [if_pos hsame, pure_eq_ok, Except.ok.injEq, Prod.mk.injEq] at hbody
        obtain ⟨rfl, rfl⟩ := hbody
        exact .inr (.inl ⟨current, rfl, hcurrent, hterminal, hsame⟩)
      · simp [hsame] at hbody
    · simp only [if_neg hterminal, bind_eq_ok_iff, refuseIf_eq_ok_iff, not_not,
        Except.ok.injEq, Prod.mk.injEq] at hbody
      obtain ⟨-, hallowed, result, hget, rfl, rfl⟩ := hbody
      obtain ⟨row, ⟨-, hfind⟩, hfields⟩ := get_eq_ok_iff.mp hcurrent
      obtain ⟨row', ⟨-, hfind'⟩, hfields'⟩ := get_eq_ok_iff.mp hget
      have hmoved : Table.find JobRow.jobId jobId (s.moveJob jobId
          (transitionRow state code now) state now code).jobs =
            some (transitionRow state code now row) :=
        find_moveJob (change_transitionRow state code now) hfind now code
      have hsame : row' = transitionRow state code now row :=
        Option.some.inj (hfind'.symm.trans hmoved)
      have hstate : current.state = row.state := congrArg JobFields.state hfields
      rw [hstate] at hallowed hterminal
      have hfollows := follows_of_allowed hterminal hallowed
      refine .inr (.inr ⟨row, result, rfl, hfind, hfollows, ?_, hsame ▸ hfields'⟩)
      rintro rfl
      unfold allowed at hallowed
      split at hallowed <;> simp at hallowed

section Evidence

variable [PyRuntime] {Request Evidence : Type} [Canonical Request] [EvidenceOf Evidence Request]

/-- The change of a publication. -/
def publishRow (evidence : Evidence) (now : Timestamp) (row : JobRow) : JobRow :=
  { row with
    state := .succeeded
    updatedAt := now
    evidenceHash := some (hexDigest (Canonical.canonical evidence))
    evidence := some (Canonical.canonical evidence) }

omit [Canonical Request] in
theorem change_publishRow (evidence : Evidence) (now : Timestamp) :
    Change (publishRow evidence now) .succeeded :=
  ⟨fun _ => rfl, fun _ => rfl, fun _ => rfl, fun _ => rfl⟩

/-- A publication raises, or a running job succeeds with the evidence. -/
theorem publish_cases (s : Store) (jobId : String) (evidence : Evidence) (now : Timestamp) :
    (∃ e, s.publish jobId evidence now = (.error e, s)) ∨
    ∃ row job, s.publish jobId evidence now =
        (.ok job, s.moveJob jobId (publishRow evidence now) .succeeded now none) ∧
      Table.find JobRow.jobId jobId s.jobs = some row ∧ row.state = .running ∧
      job.toJobFields = (publishRow evidence now row).fields := by
  unfold publish
  dsimp only
  split
  · exact .inl ⟨_, rfl⟩
  · rcases write_cases s _ with ⟨e, hwrite⟩ | ⟨job, s', hwrite, hbody⟩
    · exact .inl ⟨e, hwrite⟩
    · rw [hwrite]
      simp only [bind_eq_ok_iff, refuseIf_eq_ok_iff, not_or, ne_eq, not_not, Except.ok.injEq,
        Prod.mk.injEq] at hbody
      obtain ⟨current, hcurrent, -, ⟨hrunning, -⟩, result, hget, rfl, rfl⟩ := hbody
      obtain ⟨row, ⟨-, hfind⟩, hfields⟩ := get_eq_ok_iff.mp hcurrent
      obtain ⟨row', ⟨-, hfind'⟩, hfields'⟩ := get_eq_ok_iff.mp hget
      have hmoved : Table.find JobRow.jobId jobId (s.moveJob jobId
          (publishRow evidence now) .succeeded now none).jobs =
            some (publishRow evidence now row) :=
        find_moveJob (change_publishRow evidence now) hfind now none
      have hsame : row' = publishRow evidence now row :=
        Option.some.inj (hfind'.symm.trans hmoved)
      have hstate : current.state = row.state := congrArg JobFields.state hfields
      exact .inr ⟨row, result, rfl, hfind, hstate.symm.trans hrunning, hsame ▸ hfields'⟩

end Evidence

end Store

end Research

end Foundry
