import SignalFoundry.Foundry.Research.Scheduling

/-!
# Cancellations whose write fails

A write of the store may fail without effect, and then `cancel` raises. By then
it has taken the job out of the queue or set the cancel event of its run, so the
tables and the scheduler disagree from there on: the failed call changes nothing
exactly when the event was set before. As long as no other cancellation fails, a
job that has not ended is queued, or its run is active and may publish.
-/

namespace Foundry

namespace Research

namespace Manager

open Store

/-- `cancel`, over what the transition of the store does. -/
def cancelThrough {Request : Type} (m : Manager Request) (jobId : String)
    (transition : Store → Except FoundryError Job × Store) : Reply × Manager Request :=
  match m.store.get jobId with
  | .error error => (.raised error, m)
  | .ok current =>
      if current.state.Terminal then (.returned current, m)
      else
        match m.active with
        | some active =>
            if active.jobId = jobId then
              withdraw { m with active := some { active with cancelled := true } }
            else if jobId ∈ m.queue then withdraw { m with queue := m.queue.erase jobId }
            else (.valueError, m)
        | none =>
            if jobId ∈ m.queue then withdraw { m with queue := m.queue.erase jobId }
            else (.valueError, m)
where
  withdraw (m : Manager Request) : Reply × Manager Request :=
    let (result, store) := transition m.store
    (reply result, { m with store := store })

/-- `cancel` while the write of its transition fails without effect. -/
def cancelFailed {Request : Type} (m : Manager Request) (jobId : String) (error : FoundryError) :
    Reply × Manager Request :=
  m.cancelThrough jobId fun s => (.error error, s)

/-- The cancel event of the job is set. -/
def Flagged {Request : Type} (m : Manager Request) (jobId : String) : Prop :=
  ∃ active, m.active = some active ∧ active.jobId = jobId ∧ active.cancelled = true

/-- A job that the scheduler will start, or whose run may still publish. -/
def Attended {Request : Type} (m : Manager Request) (jobId : String) : Prop :=
  jobId ∈ m.queue ∨
    ∃ active, m.active = some active ∧ active.jobId = jobId ∧ active.cancelled = false

section Cancellations

variable {Request : Type} {m : Manager Request} {jobId : String} {error : FoundryError}

/-- What a cancellation of a job that has not ended does before its write fails. -/
theorem cancelFailed_cases {current : Job} (hget : m.store.get jobId = .ok current)
    (hpending : current.state.Terminal = false) (error : FoundryError) :
    (∃ active, m.active = some active ∧ active.jobId = jobId ∧
      m.cancelFailed jobId error =
        (.raised error, { m with active := some { active with cancelled := true } })) ∨
    ((∀ active, m.active = some active → active.jobId ≠ jobId) ∧
      (jobId ∈ m.queue ∧
          m.cancelFailed jobId error = (.raised error, { m with queue := m.queue.erase jobId }) ∨
        jobId ∉ m.queue ∧ m.cancelFailed jobId error = (.valueError, m))) := by
  unfold cancelFailed cancelThrough
  rw [hget]
  dsimp only
  rw [if_neg (by simp [hpending])]
  cases hactive : m.active with
  | some active =>
      by_cases hid : active.jobId = jobId
      · exact .inl ⟨active, rfl, hid, by simp only [if_pos hid]; rfl⟩
      · refine .inr ⟨fun other hother => Option.some.inj hother ▸ hid, ?_⟩
        by_cases hqueue : jobId ∈ m.queue
        · exact .inl ⟨hqueue, by simp only [if_neg hid, if_pos hqueue]; rfl⟩
        · exact .inr ⟨hqueue, by simp only [if_neg hid, if_neg hqueue]⟩
  | none =>
      refine .inr ⟨nofun, ?_⟩
      by_cases hqueue : jobId ∈ m.queue
      · exact .inl ⟨hqueue, by simp only [if_pos hqueue]; rfl⟩
      · exact .inr ⟨hqueue, by simp only [if_neg hqueue]⟩

/-- A cancellation that raised because its write failed has changed nothing
exactly when the cancel event of the job was set before. -/
theorem cancelFailed_unchanged_iff {current : Job} (hget : m.store.get jobId = .ok current)
    (hpending : current.state.Terminal = false)
    (hraised : (m.cancelFailed jobId error).1 = .raised error) :
    ((m.cancelFailed jobId error).2.queue = m.queue ∧
      (m.cancelFailed jobId error).2.active = m.active) ↔ m.Flagged jobId := by
  rcases cancelFailed_cases hget hpending error with ⟨active, hactive, hid, hrun⟩ |
    ⟨hother, ⟨hqueue, hrun⟩ | ⟨-, hrun⟩⟩
  · rw [hrun, hactive]
    constructor
    · rintro ⟨-, hflag⟩
      refine ⟨active, hactive, hid, ?_⟩
      exact (congrArg Active.cancelled (Option.some.inj hflag)).symm
    · rintro ⟨other, hother, -, hflag⟩
      obtain rfl := Option.some.inj (hactive.symm.trans hother)
      obtain ⟨id, cancelled⟩ := active
      cases hflag
      exact ⟨rfl, rfl⟩
  · rw [hrun]
    constructor
    · rintro ⟨hsame, -⟩
      have hlength := List.length_erase_of_mem hqueue
      rw [show m.queue.erase jobId = m.queue from hsame] at hlength
      have hpos := List.length_pos_of_mem hqueue
      omega
    · rintro ⟨active, hactive, hid, -⟩
      exact absurd hid (hother active hactive)
  · rw [hrun] at hraised
    cases hraised

theorem cancelFailed_of_flagged (h : m.Flagged jobId) (error : FoundryError) :
    (m.cancelFailed jobId error).2 = m := by
  obtain ⟨active, hactive, hid, hflag⟩ := h
  have hsame : { m with active := some { active with cancelled := true } } = m := by
    obtain ⟨store, queue, current, position, validating⟩ := m
    obtain ⟨id, cancelled⟩ := active
    cases hactive
    cases hflag
    rfl
  unfold cancelFailed cancelThrough
  cases m.store.get jobId with
  | error e => rfl
  | ok current =>
      dsimp only
      split
      · rfl
      · simp only [hactive, if_pos hid]
        exact hsame

end Cancellations

section Runs

variable [PyRuntime] {Request Evidence : Type} [DecidableEq Request] [Canonical Request]
  [EvidenceOf Evidence Request]

/-- The managers over a store whose cancellations may fail where they are allowed to. -/
inductive ReachableFailing (Evidence : Type) [EvidenceOf Evidence Request]
    (allowed : Manager Request → String → Prop) (base : Store) : Manager Request → Prop
  | start : ReachableFailing Evidence allowed base { store := base }
  | step {m m' : Manager Request} {call : Step Request Evidence} {reply : Reply}
      (before : ReachableFailing Evidence allowed base m)
      (taken : m.step call = .ok (reply, m')) : ReachableFailing Evidence allowed base m'
  | cancelFailed {m : Manager Request} {jobId : String} (error : FoundryError)
      (before : ReachableFailing Evidence allowed base m) (failing : allowed m jobId) :
      ReachableFailing Evidence allowed base (m.cancelFailed jobId error).2

variable {m : Manager Request}

theorem ReachableFailing.consistent {base : Store} (h : ReachableFailing Evidence Flagged base m)
    (hsound : base.Sound) (hended : ∀ row ∈ base.jobs, row.state.Terminal = true) :
    Consistent m := by
  induction h with
  | start => exact .start hsound hended
  | step _ taken ih => exact (ih.step taken).1.consistent
  | cancelFailed error _ failing ih =>
      rw [cancelFailed_of_flagged failing]
      exact ih

omit [PyRuntime] [DecidableEq Request] [Canonical Request] in
/-- No job is left behind: it is in the queue until it starts, and its run may publish. -/
theorem Consistent.attended (h : Consistent m) {row : JobRow} (hrow : row ∈ m.store.jobs)
    (hpending : row.state.Terminal = false) : m.Attended row.jobId := by
  rcases h.pending hrow hpending with ⟨-, hqueue⟩ | hrunning
  · exact .inl hqueue
  · obtain ⟨-, active, hactive, hid, hflag⟩ := h.running row hrow hrunning
    exact .inr ⟨active, hactive, hid, hflag⟩

theorem Reachable.failing {base : Store} {log : List (Step Request Evidence × Reply)}
    (h : Reachable base m log) (allowed : Manager Request → String → Prop) :
    ReachableFailing Evidence allowed base m := by
  induction h with
  | start => exact .start
  | step _ taken ih => exact ih.step taken

/-- Over a store that was recovered after any calls: a cancellation whose write
fails leaves the queue and the cancel event as they were exactly when the event
of its job was set before, and while all that fail are such, every job that has
not ended is attended, and the queue is the queued jobs in their order. -/
theorem cancelFailed_noOp {calls : List (Call Request Evidence)} {clock : String → Timestamp}
    {base : Store} (hrecovered : (Store.after {} calls).recover clock = (.ok (), base)) :
    (∀ m, ReachableFailing Evidence (fun _ _ => True) base m →
      ∀ (jobId : String) (current : Job) (error : FoundryError), m.store.get jobId = .ok current →
        current.state.Terminal = false → (m.cancelFailed jobId error).1 = .raised error →
          (((m.cancelFailed jobId error).2.queue = m.queue ∧
            (m.cancelFailed jobId error).2.active = m.active) ↔ m.Flagged jobId)) ∧
    ∀ m : Manager Request, ReachableFailing Evidence Flagged base m →
      m.queue = m.store.queuedIds ∧
        ∀ row ∈ m.store.jobs, row.state.Terminal = false → m.Attended row.jobId := by
  have hsound := (sound_empty.after calls).1
  obtain ⟨s', hrun, hcommits, hended⟩ := hsound.recover clock
  obtain ⟨-, rfl⟩ := Prod.mk.inj (hrecovered.symm.trans hrun)
  refine ⟨fun m _ jobId current error hget hpending hraised =>
    cancelFailed_unchanged_iff hget hpending hraised, fun m hm => ?_⟩
  have hconsistent := hm.consistent (hsound.commits hcommits).1 hended
  exact ⟨hconsistent.queue, fun row hrow hpending => hconsistent.attended hrow hpending⟩

omit [EvidenceOf Evidence Request] in
/-- A job that is submitted to a fresh manager is left behind by a cancellation
whose write fails: it stays queued in the tables, and no queue has it. -/
theorem cancelFailed_queued (E : Type) [EvidenceOf E Request] (request : Request) {key : String}
    (hkey : isKey key = true) (now : Timestamp) (error : FoundryError) :
    ∃ (m : Manager Request) (row : JobRow) (current : Job),
      (∀ allowed, ReachableFailing E allowed {} m) ∧
        (row ∈ m.store.jobs ∧ row.state = .queued ∧ m.queue = [row.jobId] ∧ m.active = none) ∧
        (m.store.get row.jobId = .ok current ∧ current.state = .queued) ∧
        m.cancelFailed row.jobId error = (.raised error, { m with queue := [] }) := by
  obtain ⟨job, hid, hqueued⟩ := reachable_queued E request hkey now
  have hconsistent := (hqueued.kept sound_empty nofun).1
  have hrow : queuedRow request key now ∈
      (Store.queueJob {} (queuedRow request key now) now).jobs := List.mem_cons_self
  have hget := hconsistent.sound.get_eq hrow
  refine ⟨_, queuedRow request key now, _, hqueued.failing, ⟨hrow, rfl, rfl, rfl⟩, ⟨hget, rfl⟩, ?_⟩
  rcases cancelFailed_cases hget rfl error with ⟨active, hactive, -⟩ |
    ⟨-, ⟨-, hrun⟩ | ⟨hnot, -⟩⟩
  · cases hactive
  · rw [hrun, List.erase_cons_head]
  · exact absurd List.mem_cons_self hnot

end Runs

open Platform in
/-- A failed cancellation of the one job of a manager has not left the queue as it was. -/
theorem cancelFailed_noOp_queued :
    ∃ (m : Manager String) (jobId : String), m.queue = [jobId] ∧ ¬ m.Flagged jobId ∧
      ¬ ((m.cancelFailed jobId storeIo).2.queue = m.queue ∧
        (m.cancelFailed jobId storeIo).2.active = m.active) := by
  obtain ⟨m, row, current, hreachable, ⟨-, -, hqueue, hactive⟩, ⟨hget, hstate⟩, hrun⟩ :=
    cancelFailed_queued String "research" (show isKey "idempotency-key-1" = true by decide)
      ⟨"2026-01-02T03:04:05.678Z", by decide⟩ storeIo
  have hflagged : ¬ m.Flagged row.jobId := by
    rintro ⟨active, hsome, -⟩
    rw [hactive] at hsome
    cases hsome
  refine ⟨m, row.jobId, hqueue, hflagged, fun hsame => hflagged ?_⟩
  have hrecovered : (Store.after {} ([] : List (Call String String))).recover
      (fun _ => ⟨"2026-01-02T03:04:05.678Z", by decide⟩) = (.ok (), {}) := rfl
  exact ((cancelFailed_noOp hrecovered).1 m (hreachable _) row.jobId current storeIo hget
    (by rw [hstate]; rfl) (congrArg Prod.fst hrun)).mp hsame

open Platform in
/-- After a failed cancellation a job may be queued in the tables, with the
queue of the scheduler empty and no run active. -/
theorem cancelFailed_forgets :
    ∃ (m : Manager String) (row : JobRow),
      ReachableFailing String (fun _ _ => True) {} m ∧ row ∈ m.store.jobs ∧
        row.state = .queued ∧ m.queue = [row.jobId] ∧
        (m.cancelFailed row.jobId storeIo).1 = .raised storeIo ∧
        row ∈ (m.cancelFailed row.jobId storeIo).2.store.jobs ∧
        (m.cancelFailed row.jobId storeIo).2.queue = [] ∧
        (m.cancelFailed row.jobId storeIo).2.active = none := by
  obtain ⟨m, row, -, hreachable, ⟨hrow, hstate, hqueue, hactive⟩, -, hrun⟩ :=
    cancelFailed_queued String "research" (show isKey "idempotency-key-1" = true by decide)
      ⟨"2026-01-02T03:04:05.678Z", by decide⟩ storeIo
  refine ⟨m, row, hreachable _, hrow, hstate, hqueue, ?_⟩
  rw [hrun]
  exact ⟨rfl, hrow, rfl, hactive⟩

end Manager

end Research

end Foundry
