import SignalFoundry.Lattice.Tracking.RegistryRuns

/-!
# Lease safety

Each claim hands out a new attempt of its job, and once an attempt is closed or another one
claimed, the lease of the earlier attempt is honoured no more, in every run of calls and
under any readings of the clock.
-/

namespace Tracking

open Fallible

variable [PyRuntime] {F : Type} [PyFloat F] [FloatText F]

namespace RunRegistry

variable {registry : RunRegistry} {db : Database}

/-- The lease of a call that has returned, with whether the call has closed its attempt. -/
def honouredLease (entry : Surroundings × Call F) (answer : Except RegistryError (Reply F)) :
    Option (Lease × Bool) :=
  if answer.isOk then entry.2.lease.map fun lease => (lease, entry.2.closes) else none

/-- The lease that a claim has handed out. -/
def grantedLease (_ : Surroundings × Call F) (answer : Except RegistryError (Reply F)) :
    Option Lease :=
  (answer.toOption.bind Reply.taken).map ClaimedJob.lease

/-- The leases that the calls of a run have been honoured with, in the order of the calls. -/
def honoured (registry : RunRegistry) (entries : List (Surroundings × Call F)) :
    List (Lease × Bool) :=
  Machine.emitted registry.step honouredLease {} entries

/-- The leases that the claims of a run have handed out. -/
def granted (registry : RunRegistry) (entries : List (Surroundings × Call F)) : List Lease :=
  Machine.emitted registry.step grantedLease {} entries

/-- A lease that may be honoured after another one of the same job: it is of a later attempt,
or of the same attempt, still open, and of the same worker and token. -/
def Precedes (registry : RunRegistry) (earlier later : Lease × Bool) : Prop :=
  earlier.1.attempt < later.1.attempt ∨ earlier.1.attempt = later.1.attempt ∧
    earlier.2 = false ∧ earlier.1.workerId = later.1.workerId ∧
      registry.digest leaseDomain earlier.1.token = registry.digest leaseDomain later.1.token

theorem Holds.precedes {lease : Lease} {instant : Instant} {row : JobRow}
    (h : registry.Holds db lease instant row) {earlier : Lease × Bool}
    (hpassed : registry.Passed earlier.1 earlier.2 row) (closes : Bool) :
    registry.Precedes earlier (lease, closes) := by
  rcases hpassed with hlt | ⟨heq, hheld⟩
  · exact .inl (h.attempt ▸ hlt)
  · obtain ⟨hopen, howner, htoken⟩ := hheld h.running
    rw [h.owner, Option.some_inj] at howner
    rw [h.token, Option.some_inj] at htoken
    exact .inr ⟨heq.symm.trans h.attempt, hopen, howner.symm, htoken.symm⟩

theorem honoured_of_honouredLease (hdb : db.Tracked registry.limits)
    {entry : Surroundings × Call F} {lease : Lease × Bool}
    (h : honouredLease entry (registry.step db entry).1 = some lease) :
    registry.Honoured entry.1 lease.1 lease.2 db (registry.step db entry).2 := by
  rw [honouredLease] at h
  cases hreply : (registry.step db entry).1 with
  | error error => simp [hreply, Except.isOk, Except.toBool] at h
  | ok reply =>
      simp only [hreply, Except.isOk, Except.toBool, if_true, Option.map_eq_some_iff] at h
      obtain ⟨lease, hlease, rfl⟩ := h
      obtain ⟨rows, heffect⟩ := effect_step hdb hreply
      exact heffect.honoured lease hlease

theorem granted_of_grantedLease (hdb : db.Tracked registry.limits)
    {entry : Surroundings × Call F} {lease : Lease}
    (h : grantedLease entry (registry.step db entry).1 = some lease) :
    Granted db lease (registry.step db entry).2 := by
  rw [grantedLease] at h
  cases hreply : (registry.step db entry).1 with
  | error error => simp [hreply, Except.toOption] at h
  | ok reply =>
      obtain ⟨rows, heffect⟩ := effect_step hdb hreply
      simp only [hreply, Except.toOption, Option.bind_some] at h
      obtain ⟨job, hjob, rfl⟩ := Option.map_eq_some_iff.mp h
      exact (heffect.granted job hjob).1

/-- The job of a lease after a call with it has returned. -/
def Spent (registry : RunRegistry) (lease : Lease × Bool) (db : Database) : Prop :=
  ∃ row ∈ db.jobs, row.jobId = lease.1.jobId ∧ registry.Passed lease.1 lease.2 row

/-- The attempt of a lease has been counted. -/
def Reached (lease : Lease) (db : Database) : Prop :=
  ∃ row ∈ db.jobs, row.jobId = lease.jobId ∧ lease.attempt ≤ row.attemptCount

/-- After a lease has been honoured, only those are that it precedes. -/
theorem honoured_pairwise (registry : RunRegistry) (entries : List (Surroundings × Call F)) :
    (registry.honoured entries).Pairwise fun earlier later =>
      earlier.1.jobId = later.1.jobId → registry.Precedes earlier later := by
  refine Machine.pairwise_emitted (Database.Tracked registry.limits) registry.Spent
    (fun db entry hdb => tracked_step hdb entry)
    (fun db entry lease hdb h => (honoured_of_honouredLease hdb h).passed) ?_ ?_ (.empty _) entries
  · rintro db entry lease hdb ⟨row, hrow, hjobId, hpassed⟩
    obtain ⟨rows, hfollows, -⟩ := follows_step hdb entry
    obtain ⟨row', hrow', hsame, hadvances⟩ := hfollows.advances row hrow
    exact ⟨row', hrow', hsame.jobId_eq.trans hjobId, hpassed.of_advances hadvances⟩
  · rintro db entry lease later hdb ⟨row, hrow, hjobId, hpassed⟩ h hsame
    obtain ⟨instant, -, holder, hholds⟩ := (honoured_of_honouredLease hdb h).holds
    obtain rfl := Table.eq_of_key_eq hdb.nodup hholds.mem hrow
      (hholds.jobId_eq.trans (hsame.symm.trans hjobId.symm))
    exact hholds.precedes hpassed later.2

/-- A claim hands out a later attempt than the claims of the same job before it. -/
theorem granted_pairwise (registry : RunRegistry) (entries : List (Surroundings × Call F)) :
    (registry.granted entries).Pairwise fun earlier later =>
      earlier.jobId = later.jobId → earlier.attempt < later.attempt := by
  refine Machine.pairwise_emitted (Database.Tracked registry.limits) Reached
    (fun db entry hdb => tracked_step hdb entry) ?_ ?_ ?_ (.empty _) entries
  · rintro db entry lease hdb h
    obtain ⟨row, hrow, hjobId, hattempt⟩ := (granted_of_grantedLease hdb h).current
    exact ⟨row, hrow, hjobId, hattempt.ge⟩
  · rintro db entry lease hdb ⟨row, hrow, hjobId, hle⟩
    obtain ⟨rows, hfollows, -⟩ := follows_step hdb entry
    obtain ⟨row', hrow', hsame, hadvances⟩ := hfollows.advances row hrow
    exact ⟨row', hrow', hsame.jobId_eq.trans hjobId, hle.trans hadvances.le⟩
  · rintro db entry lease later hdb ⟨row, hrow, hjobId, hle⟩ h hsame
    exact hle.trans_lt ((granted_of_grantedLease hdb h).fresh row hrow (hjobId.trans hsame))

/-- In every run, whatever the order of its calls and the readings of its clock, each claim
of a job hands out a later attempt; a lease is honoured only while no later attempt has been
honoured and its own has not been closed, and within an attempt for one worker and token
alone; and each attempt leaves at most one terminal run. -/
theorem leases_are_exclusive (registry : RunRegistry) (entries : List (Surroundings × Call F)) :
    ((registry.granted entries).Pairwise fun earlier later =>
      earlier.jobId = later.jobId → earlier.attempt < later.attempt) ∧
    ((registry.honoured entries).Pairwise fun earlier later =>
      earlier.1.jobId = later.1.jobId → registry.Precedes earlier later) ∧
    ∀ jobId, (((registry.after entries).jobRuns jobId).map RunRow.attempt).Pairwise (· < ·) := by
  refine ⟨granted_pairwise registry entries, honoured_pairwise registry entries, fun jobId => ?_⟩
  have hdb := tracked_after registry entries
  by_cases hjob : ∃ row ∈ (registry.after entries).jobs, row.jobId = jobId
  · obtain ⟨row, hrow, rfl⟩ := hjob
    exact (hdb.history row hrow).attempted.increasing
  · have hnone : (registry.after entries).jobRuns jobId = [] := by
      rw [Database.jobRuns, List.filter_eq_nil_iff]
      intro run hrun heq
      obtain ⟨row, hrow, hjobId⟩ := hdb.runs_of run hrun
      exact hjob ⟨row, hrow, hjobId.trans (of_decide_eq_true heq)⟩
    rw [hnone]
    exact List.Pairwise.nil

end RunRegistry

end Tracking
