import SignalFoundry.Foundry.Research.History
import SignalFoundry.Foundry.Research.Manager
import SignalFoundry.Library.Platform

/-!
# Scheduling

In every order of the steps of a manager over a recovered store, the queue is
the queued jobs in the order of their creation, a running job is the active one
(`Consistent`), and jobs start in the order of their creation (`Ordered`). What
a submission or a cancellation has returned stays true (`Answered`).
-/

namespace Foundry

namespace Research

namespace Store

/-- The queued jobs in the order of their creation. -/
def queuedIds (s : Store) : List String :=
  (s.jobs.filter fun row => row.state = .queued).map JobRow.jobId

variable {s : Store} {row : JobRow} {now : Timestamp}

theorem mem_queuedIds {jobId : String} :
    jobId ∈ s.queuedIds ↔ ∃ row ∈ s.jobs, row.state = .queued ∧ row.jobId = jobId := by
  simp [queuedIds, and_assoc]

theorem Sound.nodup_queuedIds (h : s.Sound) : s.queuedIds.Nodup :=
  h.ids.sublist (List.filter_sublist.map _)

theorem Sound.evidenceHash (h : s.Sound) (row : JobRow) (hrow : row ∈ s.jobs) :
    row.evidenceHash.isSome = true ↔ row.state = .succeeded :=
  (h.coherent row hrow).published.symm

theorem queuedIds_queueJob (hstate : row.state = .queued) :
    (s.queueJob row now).queuedIds = s.queuedIds ++ [row.jobId] := by
  simp [queuedIds, queueJob, record, List.filter_append, hstate]

/-- A job that moves is no longer queued. -/
theorem Sound.queuedIds_moveJob (h : s.Sound) {change : JobRow → JobRow} {state : JobState}
    {code : Option String} (hchange : Change change state) (hqueued : state ≠ .queued)
    (jobId : String) : (s.moveJob jobId change state now code).queuedIds =
      s.queuedIds.filter fun id => id ≠ jobId := by
  have hids := h.ids
  unfold queuedIds Store.moveJob record updateJob Table.update
  induction s.jobs with
  | nil => rfl
  | cons first rows ih =>
      by_cases heq : first.jobId = jobId
      · by_cases hfirst : first.state = .queued <;>
          simp_all [hchange.state]
      · by_cases hfirst : first.state = .queued <;> simp_all

end Store

namespace Manager

open Store

section Runtime

variable [PyRuntime] {Request Evidence : Type} [DecidableEq Request] [Canonical Request]
  [EvidenceOf Evidence Request]

/-- The states and answers of the managers over a store. -/
inductive Reachable (base : Store) :
    Manager Request → List (Step Request Evidence × Reply) → Prop
  | start : Reachable base { store := base } []
  | step {m m' : Manager Request} {log : List (Step Request Evidence × Reply)}
      {call : Step Request Evidence} {reply : Reply} (before : Reachable base m log)
      (taken : m.step call = .ok (reply, m')) : Reachable base m' (log ++ [(call, reply)])

structure Consistent (m : Manager Request) : Prop where
  sound : m.store.Sound
  queue : m.queue = m.store.queuedIds
  running : ∀ row ∈ m.store.jobs, row.state = .running → m.position = .running ∧
    ∃ active, m.active = some active ∧ active.jobId = row.jobId ∧ active.cancelled = false
  active : ∀ active, m.active = some active →
    ∃ row ∈ m.store.jobs, row.jobId = active.jobId ∧ row.state ≠ .queued
  waiting : m.position = .waiting → m.active = none

/-- The job that a reply starts. -/
def startedBy : Reply → Option String
  | .started jobId => some jobId
  | _ => none

/-- The jobs that were started, in this order. -/
def starts (log : List (Step Request Evidence × Reply)) : List String :=
  log.filterMap fun entry => startedBy entry.2

structure Ordered (s : Store) (started : List String) : Prop where
  order : (s.jobs.map JobRow.jobId).filter (fun jobId => jobId ∈ started) = started
  later : s.jobs.Pairwise fun earlier later => later.jobId ∈ started → earlier.state ≠ .queued
  moved : ∀ row ∈ s.jobs, row.jobId ∈ started → row.state ≠ .queued

/-! ## The order of the starts -/

section Ordered

variable {s : Store} {started : List String} {row : JobRow} {now : Timestamp}

omit [PyRuntime] in
theorem Ordered.mem (h : Ordered s started) {jobId : String} (hmem : jobId ∈ started) :
    jobId ∈ s.jobs.map JobRow.jobId := by
  rw [← h.order] at hmem
  exact (List.mem_filter.mp hmem).1

omit [PyRuntime] in
theorem Ordered.queueJob (h : Ordered s started) (hid : row.jobId ∉ s.jobs.map JobRow.jobId)
    (now : Timestamp) : Ordered (s.queueJob row now) started := by
  have hnew : row.jobId ∉ started := fun hmem => hid (h.mem hmem)
  refine ⟨?_, ?_, fun other hother hmem => ?_⟩
  · simp only [Store.queueJob, record, List.map_append, List.map_cons, List.map_nil,
      List.filter_append, h.order]
    simp [hnew]
  · simp only [Store.queueJob, record, List.pairwise_append, List.pairwise_singleton,
      List.mem_singleton, forall_eq, true_and]
    exact ⟨h.later, fun earlier _ hmem => absurd hmem hnew⟩
  · rcases List.mem_append.mp hother with hold | hlast
    · exact h.moved other hold hmem
    · exact absurd (List.mem_singleton.mp hlast ▸ hmem) hnew

section Moved

variable {change : JobRow → JobRow} {state : JobState}

omit [PyRuntime] in
/-- Of the changes that leave the queue, only a start changes what was started. -/
theorem Ordered.moveJob (h : Ordered s started) (hchange : Change change state)
    (hqueued : state ≠ .queued) (jobId : String) (now : Timestamp) (code : Option String) :
    Ordered (s.moveJob jobId change state now code) started := by
  have hids : (s.moveJob jobId change state now code).jobs.map JobRow.jobId =
      s.jobs.map JobRow.jobId := Table.map_update hchange.jobId
  refine ⟨by rw [hids, h.order], ?_, fun other hother hmem => ?_⟩
  · refine List.pairwise_map.mpr (h.later.imp fun {earlier later} hlater hmem => ?_)
    have hid : later.jobId ∈ started := by
      split at hmem
      · rwa [hchange.jobId] at hmem
      · exact hmem
    split
    · rw [hchange.state]
      exact hqueued
    · exact hlater hid
  · rcases Table.mem_update.mp hother with ⟨hold, -⟩ | ⟨old, -, -, rfl⟩
    · exact h.moved other hold hmem
    · rw [hchange.state]
      exact hqueued

omit [PyRuntime] in
/-- The first queued job starts. -/
theorem Ordered.start (h : Ordered s started) (hsound : s.Sound) {jobId : String}
    {queue : List String} (hqueue : s.queuedIds = jobId :: queue)
    (hchange : Change change .running) (now : Timestamp) (code : Option String) :
    Ordered (s.moveJob jobId change .running now code) (started ++ [jobId]) := by
  -- the jobs before the first queued one are not queued, those after it not started
  obtain ⟨before, row, after, hjobs, hbefore, hqueued, rfl⟩ : ∃ before row after,
      s.jobs = before ++ row :: after ∧ (∀ earlier ∈ before, earlier.state ≠ .queued) ∧
        row.state = .queued ∧ row.jobId = jobId := by
    obtain ⟨row, rows, hfilter, hid, -⟩ := List.map_eq_cons_iff.mp hqueue
    obtain ⟨before, after, hjobs, hbefore, hqueued, -⟩ := List.filter_eq_cons_iff.mp hfilter
    exact ⟨before, row, after, hjobs, by simpa using hbefore, by simpa using hqueued, hid⟩
  have hids : (s.moveJob row.jobId change .running now code).jobs.map JobRow.jobId =
      s.jobs.map JobRow.jobId := Table.map_update hchange.jobId
  have hnodup := hsound.ids
  have hlater := h.later
  rw [hjobs, List.map_append, List.map_cons, List.nodup_append, List.nodup_cons] at hnodup
  rw [hjobs, List.pairwise_append, List.pairwise_cons] at hlater
  have hnew : row.jobId ∉ started := fun hmem =>
    h.moved row (hjobs ▸ List.mem_append_right _ List.mem_cons_self) hmem hqueued
  have hearlier : ∀ earlier ∈ before, earlier.jobId ≠ row.jobId := fun earlier hmem =>
    hnodup.2.2 _ (List.mem_map_of_mem hmem) _ List.mem_cons_self
  have hothers : ∀ later ∈ after, later.jobId ≠ row.jobId := fun later hmem heq =>
    hnodup.2.1.1 (heq ▸ List.mem_map_of_mem hmem)
  have hafter : ∀ later ∈ after, later.jobId ∉ started ++ [row.jobId] := by
    intro later hmem hstarted
    rcases List.mem_append.mp hstarted with hold | hlast
    · exact hlater.2.1.1 later hmem hold hqueued
    · exact hothers later hmem (List.mem_singleton.mp hlast)
  have hmoved : (s.moveJob row.jobId change .running now code).jobs =
      before ++ change row :: after := by
    change Table.update _ _ _ _ = _
    rw [hjobs, Table.update, List.map_append, List.map_cons, if_pos rfl]
    exact congrArg₂ (· ++ change row :: ·) (Table.update_of_not_mem hearlier)
      (Table.update_of_not_mem hothers)
  refine ⟨?_, ?_, fun other hother hmem => ?_⟩
  · have horder := h.order
    rw [hjobs, List.map_append, List.map_cons, List.filter_append,
      List.filter_cons_of_neg (by simpa using hnew), (List.filter_eq_nil_iff (l :=
        after.map JobRow.jobId)).mpr, List.append_nil] at horder
    · rw [hids, hjobs, List.map_append, List.map_cons, List.filter_append,
        List.filter_cons_of_pos (by simp), (List.filter_eq_nil_iff (l :=
          after.map JobRow.jobId)).mpr]
      · refine congrArg (· ++ [row.jobId]) (Eq.trans (List.filter_congr ?_) horder)
        intro jobId hmem
        obtain ⟨earlier, hearly, rfl⟩ := List.mem_map.mp hmem
        simp [hearlier earlier hearly]
      · simpa using hafter
    · intro jobId hmem hstarted
      obtain ⟨later, hlate, rfl⟩ := List.mem_map.mp hmem
      exact hafter later hlate (List.mem_append_left _ (of_decide_eq_true hstarted))
  · rw [hmoved]
    refine List.pairwise_append.mpr ⟨List.pairwise_of_forall_mem_list
      fun earlier hearly _ _ _ => hbefore earlier hearly, List.pairwise_cons.mpr
        ⟨fun later hlate hmem => absurd hmem (hafter later hlate),
          List.pairwise_of_forall_mem_list fun _ _ later hlate hmem =>
            absurd hmem (hafter later hlate)⟩, fun earlier hearly _ _ _ => hbefore earlier hearly⟩
  · rw [hmoved] at hother
    rcases List.mem_append.mp hother with hearly | hrest
    · exact hbefore other hearly
    · rcases List.mem_cons.mp hrest with rfl | hlate
      · rw [hchange.state]
        exact fun heq => by cases heq
      · exact absurd hmem (hafter other hlate)

end Moved

end Ordered

/-! ## What the steps keep -/

/-- What holds of a job that a submission with a key has returned, and of a job
that a cancellation has returned as cancelled. -/
def Answered (s : Store) : Step Request Evidence × Reply → Prop
  | (.submitLookup _ key, .returned job) | (.submit _ key _, .returned job) =>
      ∃ row ∈ s.jobs, row.jobId = job.jobId ∧ row.keyHash = keyHash key
  | (.cancel jobId _, .returned job) =>
      job.state = .cancelled → ∃ row ∈ s.jobs, row.jobId = jobId ∧ row.state = .cancelled
  | _ => True

/-- What a step keeps, and the order of the jobs that it starts. -/
structure Kept (m m' : Manager Request) (started : List String) : Prop where
  consistent : Consistent m'
  keeps : m.store.Keeps m'.store
  ordered : ∀ before, Ordered m.store before → Ordered m'.store (before ++ started)

section Kept

variable {m m' : Manager Request} {row : JobRow} {now : Timestamp}

omit [PyRuntime] [DecidableEq Request] [Canonical Request] in
theorem Consistent.start {base : Store} (hsound : base.Sound)
    (hended : ∀ row ∈ base.jobs, row.state.Terminal = true) :
    Consistent ({ store := base } : Manager Request) := by
  refine ⟨hsound, ?_, fun row hrow hstate => ?_, nofun, fun _ => rfl⟩
  · refine Eq.symm (List.eq_nil_iff_forall_not_mem.mpr fun jobId hmem => ?_)
    obtain ⟨row, hrow, hstate, -⟩ := mem_queuedIds.mp hmem
    have hterminal := hended row hrow
    rw [hstate] at hterminal
    cases hterminal
  · have hterminal := hended row hrow
    rw [hstate] at hterminal
    cases hterminal

omit [PyRuntime] [DecidableEq Request] [Canonical Request] in
/-- A step that leaves the tables alone. -/
theorem Kept.of_store_eq (hstore : m'.store = m.store) (h : Consistent m') : Kept m m' [] := by
  refine ⟨h, hstore ▸ .refl _, fun before hordered => ?_⟩
  rw [hstore, List.append_nil]
  exact hordered

omit [PyRuntime] [DecidableEq Request] [Canonical Request] in
theorem Consistent.unqueued (h : Consistent m) {active : Active}
    (hactive : m.active = some active) : active.jobId ∉ m.store.queuedIds := by
  intro hmem
  obtain ⟨row, hrow, hid, hnot⟩ := h.active active hactive
  obtain ⟨other, hother, hstate, hother'⟩ := mem_queuedIds.mp hmem
  obtain rfl := Table.eq_of_key_eq h.sound.ids hother hrow (hother'.trans hid.symm)
  exact hnot hstate

omit [PyRuntime] [DecidableEq Request] [Canonical Request] in
/-- A job that has not ended is queued, or it is the active one. -/
theorem Consistent.pending (h : Consistent m) (hrow : row ∈ m.store.jobs)
    (hterminal : row.state.Terminal = false) :
    (row.state = .queued ∧ row.jobId ∈ m.queue) ∨ row.state = .running := by
  cases hstate : row.state with
  | queued => exact .inl ⟨rfl, h.queue ▸ mem_queuedIds.mpr ⟨row, hrow, hstate, rfl⟩⟩
  | running => exact .inr rfl
  | succeeded | failed | cancelled => rw [hstate] at hterminal; cases hterminal

section Moved

variable {change : JobRow → JobRow} {state : JobState} {code : Option String}

omit [PyRuntime] [DecidableEq Request] [Canonical Request] in
/-- The active job ends; its run may be over or not. -/
theorem Consistent.endActive (h : Consistent m) {active : Active}
    (hactive : m.active = some active) (hrow : row ∈ m.store.jobs)
    (hid : row.jobId = active.jobId) (hchange : Change change state)
    (hterminal : state.Terminal = true)
    (hcommit : Commit m.store (m.store.moveJob row.jobId change state now code))
    (cancelled : Bool) (position : Position) (hposition : position ≠ .waiting) :
    Kept m { m with
      store := m.store.moveJob row.jobId change state now code
      active := some { active with cancelled := cancelled }
      position := position } [] := by
  have hfind := (Table.find_eq_some_iff h.sound.ids).mpr ⟨hrow, rfl⟩
  have hqueued : state ≠ .queued := by rintro rfl; cases hterminal
  refine ⟨⟨h.sound.commit hcommit, ?_, fun other hother hrunning => ?_, ?_, fun hwaiting =>
    absurd hwaiting hposition⟩, hcommit.keeps h.sound, fun before hordered => ?_⟩
  · rw [h.queue, h.sound.queuedIds_moveJob hchange hqueued, hid]
    refine (List.filter_eq_self.mpr fun other hother => ?_).symm
    rw [decide_eq_true_eq]
    rintro rfl
    exact h.unqueued hactive hother
  · rcases (h.sound.mem_moveJob hfind).mp hother with ⟨hold, hne⟩ | rfl
    · obtain ⟨-, active', hactive', hid', -⟩ := h.running other hold hrunning
      obtain rfl := Option.some.inj (hactive.symm.trans hactive')
      exact absurd (hid'.symm.trans hid.symm) hne
    · rw [hchange.state] at hrunning
      rw [hrunning] at hterminal
      cases hterminal
  · rintro _ ⟨⟩
    exact ⟨_, (h.sound.mem_moveJob hfind).mpr (.inr rfl), (hchange.jobId row).trans hid,
      (hchange.state row).trans_ne hqueued⟩
  · rw [List.append_nil]
    exact hordered.moveJob hchange hqueued _ _ _

omit [PyRuntime] [DecidableEq Request] [Canonical Request] in
/-- A job that is not the active one leaves the queue and ends. -/
theorem Consistent.endQueued (h : Consistent m) (hrow : row ∈ m.store.jobs)
    (hother : ∀ active, m.active = some active → active.jobId ≠ row.jobId)
    (hchange : Change change state) (hterminal : state.Terminal = true)
    (hcommit : Commit m.store (m.store.moveJob row.jobId change state now code)) :
    Kept m { m with
      store := m.store.moveJob row.jobId change state now code
      queue := m.queue.erase row.jobId } [] := by
  have hfind := (Table.find_eq_some_iff h.sound.ids).mpr ⟨hrow, rfl⟩
  have hqueued : state ≠ .queued := by rintro rfl; cases hterminal
  refine ⟨⟨h.sound.commit hcommit, ?_, fun other hmem hrunning => ?_,
    fun active hactive => ?_, h.waiting⟩, hcommit.keeps h.sound, fun before hordered => ?_⟩
  · rw [h.sound.queuedIds_moveJob hchange hqueued, h.queue,
      h.sound.nodup_queuedIds.erase_eq_filter]
    exact List.filter_congr fun id _ => by rw [bne, Bool.beq_eq_decide_eq, decide_not]
  · rcases (h.sound.mem_moveJob hfind).mp hmem with ⟨hold, -⟩ | rfl
    · exact h.running other hold hrunning
    · rw [hchange.state] at hrunning
      rw [hrunning] at hterminal
      cases hterminal
  · obtain ⟨other, hold, hid, hnot⟩ := h.active active hactive
    exact ⟨other, (h.sound.mem_moveJob hfind).mpr (.inl ⟨hold, hid.trans_ne (hother active hactive)⟩),
      hid, hnot⟩
  · rw [List.append_nil]
    exact hordered.moveJob hchange hqueued _ _ _

end Moved

omit [PyRuntime] [DecidableEq Request] [Canonical Request] in
/-- The run of the active job is over, and so is the job. -/
theorem Consistent.ending (h : Consistent m)
    (hrunning : ∀ row ∈ m.store.jobs, row.state ≠ .running) :
    Consistent { m with position := .ending } :=
  ⟨h.sound, h.queue, fun row hrow hstate => absurd hstate (hrunning row hrow), h.active, nofun⟩

omit [PyRuntime] [DecidableEq Request] [Canonical Request] in
/-- A cancellation raises, finds the job ended, or cancels it. -/
theorem Consistent.cancel (h : Consistent m) (jobId : String) (now : Timestamp) :
    (∃ e, m.cancel jobId now = (.raised e, m) ∧ m.store.get jobId = .error e) ∨
    (∃ job, m.cancel jobId now = (.returned job, m) ∧ m.store.get jobId = .ok job ∧
      job.state.Terminal = true) ∨
    ∃ job m', m.cancel jobId now = (.returned job, m') ∧ job.state = .cancelled ∧ Kept m m' [] ∧
      ∃ row ∈ m'.store.jobs, row.jobId = jobId ∧ row.state = .cancelled := by
  unfold Manager.cancel
  cases hget : m.store.get jobId with
  | error e => exact .inl ⟨e, rfl, rfl⟩
  | ok current =>
      dsimp only
      by_cases hterminal : current.state.Terminal = true
      · rw [if_pos hterminal]
        exact .inr (.inl ⟨current, rfl, rfl, hterminal⟩)
      · rw [if_neg hterminal]
        obtain ⟨row, ⟨-, hfind⟩, hfields⟩ := get_eq_ok_iff.mp hget
        have hrow := Table.mem_of_find hfind
        obtain rfl := Table.key_of_find hfind
        have hstate : current.state = row.state := congrArg JobFields.state hfields
        rw [hstate, Bool.not_eq_true] at hterminal
        obtain ⟨job, hrun, hcommit, hjob⟩ := h.sound.transition_end hrow hterminal (.inr rfl)
          (show isIdentifier "cancelled" = true by decide) now
        have hchange := change_transitionRow .cancelled (some "cancelled") now
        have hcancelled : job.state = .cancelled := congrArg JobFields.state hjob
        have hmoved : ∃ row' ∈ (m.store.moveJob row.jobId
            (transitionRow .cancelled (some "cancelled") now) .cancelled now
              (some "cancelled")).jobs, row'.jobId = row.jobId ∧ row'.state = .cancelled :=
          ⟨_, (h.sound.mem_moveJob hfind).mpr (.inr rfl), hchange.jobId row, hchange.state row⟩
        refine .inr (.inr ?_)
        by_cases hother : ∀ active, m.active = some active → active.jobId ≠ row.jobId
        · -- a queued job: a running one would be the active one
          have hqueued : row.jobId ∈ m.queue := by
            rcases h.pending hrow hterminal with ⟨-, hmem⟩ | hrunning
            · exact hmem
            · obtain ⟨-, active, hactive, hid, -⟩ := h.running row hrow hrunning
              exact absurd hid (hother active hactive)
          refine ⟨job, _, ?_, hcancelled,
            h.endQueued hrow hother hchange rfl hcommit, hmoved⟩
          cases hactive : m.active with
          | none => simp only [if_pos hqueued, cancel.withdraw, hrun, reply]
          | some active =>
              simp only [if_neg (hother active hactive), if_pos hqueued, cancel.withdraw, hrun,
                reply]
        · obtain ⟨active, hactive, hid⟩ : ∃ active, m.active = some active ∧
              active.jobId = row.jobId := by
            simpa using hother
          refine ⟨job, _, ?_, hcancelled, h.endActive hactive hrow hid.symm hchange rfl hcommit true
            m.position ?_, hmoved⟩
          · simp only [hactive, if_pos hid, cancel.withdraw, hrun, reply]
          · intro hwaiting
            rw [h.waiting hwaiting] at hactive
            cases hactive

omit [PyRuntime] [DecidableEq Request] [Canonical Request] in
/-- The scheduler starts the first job of the queue. -/
theorem Consistent.take (h : Consistent m) {now : Timestamp} {result : Reply}
    (hrun : m.take now = .ok (result, m')) :
    ∃ jobId, result = .started jobId ∧ Kept m m' [jobId] := by
  unfold Manager.take at hrun
  split at hrun
  · next jobId queue hposition hqueue =>
      rcases m.store.transition_cases jobId .running none now with ⟨e, hmove⟩ |
        ⟨job, hmove, -, hterminal, hstate⟩ | ⟨row, job, hmove, hfind, hfollows, hsucceeded, hjob⟩
      · rw [hmove] at hrun
        cases hrun
      · rw [hstate] at hterminal
        cases hterminal
      · rw [hmove] at hrun
        cases hrun
        obtain rfl := Table.key_of_find hfind
        have hcommit := h.sound.commit_transition hfind hfollows hsucceeded hjob
        have hchange := change_transitionRow .running none now
        have hids : m.store.queuedIds = row.jobId :: queue := h.queue.symm.trans hqueue
        have hnodup := h.sound.nodup_queuedIds
        rw [hids, List.nodup_cons] at hnodup
        refine ⟨row.jobId, rfl, ⟨h.sound.commit hcommit, ?_, fun other hother hrunning => ?_, ?_,
          nofun⟩, hcommit.keeps h.sound, fun before hordered =>
            hordered.start h.sound hids hchange now none⟩
        · rw [h.sound.queuedIds_moveJob hchange nofun, hids, List.filter_cons_of_neg (by simp)]
          refine (List.filter_eq_self.mpr fun other hother => ?_).symm
          rw [decide_eq_true_eq]
          rintro rfl
          exact hnodup.1 hother
        · rcases (h.sound.mem_moveJob hfind).mp hother with ⟨hold, -⟩ | rfl
          · have hactive := (h.running other hold hrunning).1
            rw [hposition] at hactive
            cases hactive
          · exact ⟨rfl, _, rfl, rfl, rfl⟩
        · rintro _ ⟨⟩
          exact ⟨_, (h.sound.mem_moveJob hfind).mpr (.inr rfl), hchange.jobId row,
            (hchange.state row).trans_ne nofun⟩
  · cases hrun

omit [DecidableEq Request] in
/-- A run that returns publishes, unless its job was cancelled. -/
theorem Consistent.runFinished (h : Consistent m) {evidence : Evidence} {now : Timestamp}
    {result : Reply} (hrun : m.runFinished evidence now = .ok (result, m')) :
    result = .done ∧ Kept m m' [] := by
  unfold Manager.runFinished at hrun
  split at hrun
  · next active hposition hactive =>
      split at hrun
      · next hcancelled =>
          cases hrun
          refine ⟨rfl, .of_store_eq rfl (h.ending fun row hrow hstate => ?_)⟩
          obtain ⟨-, active', hactive', -, hnot⟩ := h.running row hrow hstate
          obtain rfl := Option.some.inj (hactive.symm.trans hactive')
          rw [hcancelled] at hnot
          cases hnot
      · rcases m.store.publish_cases active.jobId evidence now with ⟨e, hpublish⟩ |
          ⟨row, job, hpublish, hfind, hrunning, hjob⟩
        · rw [hpublish] at hrun
          cases hrun
        · rw [hpublish] at hrun
          cases hrun
          have hid := Table.key_of_find hfind
          rw [← hid] at hfind ⊢
          have hkept := h.endActive hactive (Table.mem_of_find hfind) hid
            (change_publishRow evidence now) rfl (commit_publish hfind hrunning hjob)
            active.cancelled .ending nofun
          rw [← hactive] at hkept
          exact ⟨rfl, hkept⟩
  · cases hrun

omit [PyRuntime] [DecidableEq Request] [Canonical Request] in
/-- A run that raises fails its job, unless it has ended. -/
theorem Consistent.runFailed (h : Consistent m) {code : String} {now : Timestamp}
    {result : Reply} (hrun : m.runFailed code now = .ok (result, m')) :
    result = .done ∧ Kept m m' [] := by
  unfold Manager.runFailed at hrun
  split at hrun
  · next active hposition hactive =>
      cases hget : m.store.get active.jobId with
      | error e =>
          rw [hget] at hrun
          cases hrun
      | ok current =>
          rw [hget] at hrun
          dsimp only at hrun
          obtain ⟨row, ⟨-, hfind⟩, hfields⟩ := get_eq_ok_iff.mp hget
          have hid := Table.key_of_find hfind
          have hrow := Table.mem_of_find hfind
          have hstate : current.state = row.state := congrArg JobFields.state hfields
          split at hrun
          · next hterminal =>
              cases hrun
              refine ⟨rfl, .of_store_eq rfl (h.ending fun other hother hrunning => ?_)⟩
              obtain ⟨-, active', hactive', hid', -⟩ := h.running other hother hrunning
              obtain rfl := Option.some.inj (hactive.symm.trans hactive')
              obtain rfl := Table.eq_of_key_eq h.sound.ids hother hrow (hid'.symm.trans hid.symm)
              rw [hstate, hrunning] at hterminal
              cases hterminal
          · next hterminal =>
              rcases m.store.transition_cases active.jobId .failed (some code) now with
                ⟨e, hmove⟩ | ⟨job, hmove, hagain, hended, -⟩ |
                  ⟨row', job, hmove, hfind', hfollows, hsucceeded, hjob⟩
              · rw [hmove] at hrun
                cases hrun
              · obtain rfl := Except.ok.inj (hget.symm.trans hagain)
                exact absurd hended hterminal
              · rw [hmove] at hrun
                cases hrun
                obtain rfl := Option.some.inj (hfind.symm.trans hfind')
                rw [← hid] at hfind ⊢
                have hkept := h.endActive hactive hrow hid
                  (change_transitionRow .failed (some code) now) rfl
                  (h.sound.commit_transition hfind hfollows hsucceeded hjob)
                  active.cancelled .ending nofun
                rw [← hactive] at hkept
                exact ⟨rfl, hkept⟩
  · cases hrun

omit [DecidableEq Request] in
/-- A job that is found by its key. -/
theorem mem_of_lookup {s : Store} {request : Request} {key : String} {job : Job}
    (h : s.lookup request key = .ok (some job)) :
    ∃ row ∈ s.jobs, row.jobId = job.jobId ∧ row.keyHash = keyHash key := by
  obtain ⟨-, ⟨-, hnone⟩ | ⟨row, job', hfind, -, hget, hsome⟩⟩ := lookup_eq_ok_iff.mp h
  · cases hnone
  · obtain rfl := Option.some.inj hsome
    obtain ⟨found, ⟨-, hfound⟩, hfields⟩ := get_eq_ok_iff.mp hget
    exact ⟨row, Table.mem_of_find hfind,
      (Table.key_of_find hfound).symm.trans (congrArg JobFields.jobId hfields).symm,
      Table.key_of_find hfind⟩

omit [DecidableEq Request] in
/-- A submission raises, returns the job of its key, or queues a new job. -/
theorem Consistent.submit (h : Consistent m) (request : Request) (key : String)
    (now : Timestamp) :
    (∃ e, m.submit request key now = (.raised e, m)) ∨
    ∃ job m', m.submit request key now = (.returned job, m') ∧ Kept m m' [] ∧
      ∃ row ∈ m'.store.jobs, row.jobId = job.jobId ∧ row.keyHash = keyHash key := by
  unfold Manager.submit
  rcases m.store.submit_cases request key now with ⟨e, hrun⟩ | ⟨job, hrun, hlookup⟩ |
    ⟨job, hrun, -, hroom, ⟨hid, hkey⟩, hget⟩
  · exact .inl ⟨e, by rw [hrun]⟩
  · rw [hrun]
    exact .inr ⟨job, m, rfl, .of_store_eq rfl h, mem_of_lookup hlookup⟩
  · obtain ⟨hcommit, hjob⟩ := commit_submit hid hkey hroom hget
    have hjobId : job.jobId = jobIdOf request key := congrArg JobFields.jobId hjob
    have hold : ∀ other ∈ (m.store.queueJob (queuedRow request key now) now).jobs,
        other.state ≠ .queued → other ∈ m.store.jobs := by
      intro other hother hstate
      rcases List.mem_append.mp hother with hold | hnew
      · exact hold
      · rw [List.mem_singleton.mp hnew] at hstate
        exact absurd rfl hstate
    rw [hrun]
    refine .inr ⟨job, _, rfl, ⟨⟨h.sound.commit hcommit, ?_, fun other hother hrunning => ?_,
      fun active hactive => ?_, h.waiting⟩, hcommit.keeps h.sound,
      fun before hordered => ?_⟩, queuedRow request key now, ?_, hjobId.symm, rfl⟩
    · rw [queuedIds_queueJob rfl, ← h.queue, if_pos rfl, hjobId]
      rfl
    · exact h.running other (hold other hother (by rw [hrunning]; nofun)) hrunning
    · obtain ⟨other, hother, hid', hnot⟩ := h.active active hactive
      exact ⟨other, List.mem_append_left _ hother, hid', hnot⟩
    · rw [List.append_nil]
      exact hordered.queueJob hid now
    · exact List.mem_append_right _ List.mem_cons_self

omit [DecidableEq Request] [Canonical Request] [EvidenceOf Evidence Request] in
theorem Answered.keeps {s s' : Store} (hkeeps : s.Keeps s')
    {entry : Step Request Evidence × Reply} (h : Answered s entry) : Answered s' entry := by
  have hkey : ∀ (job : Job) (hash : String),
      (∃ row ∈ s.jobs, row.jobId = job.jobId ∧ row.keyHash = hash) →
        ∃ row ∈ s'.jobs, row.jobId = job.jobId ∧ row.keyHash = hash := by
    rintro job hash ⟨row, hrow, hid, hhash⟩
    obtain ⟨row', hrow', ⟨hid', hhash', -⟩, -⟩ := hkeeps row hrow
    exact ⟨row', hrow', hid'.trans hid, hhash'.trans hhash⟩
  obtain ⟨call, result⟩ := entry
  cases result with
  | returned job =>
      cases call with
      | submitLookup request key => exact hkey job _ h
      | submit request key now => exact hkey job _ h
      | cancel jobId now =>
          intro hcancelled
          obtain ⟨row, hrow, hid, hstate⟩ := h hcancelled
          obtain ⟨row', hrow', -, hended⟩ := hkeeps row hrow
          obtain ⟨rfl, -⟩ := hended (by rw [hstate]; rfl)
          exact ⟨row', hrow', hid, hstate⟩
      | _ => trivial
  | _ => cases call <;> trivial

/-- What one step keeps and answers. -/
theorem Consistent.step (h : Consistent m) {call : Step Request Evidence} {result : Reply}
    (hrun : m.step call = .ok (result, m')) :
    Kept m m' (startedBy result).toList ∧ Answered m'.store (call, result) := by
  have hvalidating : ∀ validating : List (Request × String),
      Consistent { m with validating := validating } := fun _ =>
    ⟨h.sound, h.queue, h.running, h.active, h.waiting⟩
  cases call with
  | submitLookup request key =>
      simp only [Manager.step, submitLookup, Except.ok.injEq] at hrun
      split at hrun
      · next job hlookup =>
          cases hrun
          exact ⟨.of_store_eq rfl h, mem_of_lookup hlookup⟩
      · cases hrun
        exact ⟨.of_store_eq rfl (hvalidating _), trivial⟩
      · cases hrun
        exact ⟨.of_store_eq rfl h, trivial⟩
  | submitInvalid request key error =>
      simp only [Manager.step] at hrun
      split at hrun
      · cases hrun
        exact ⟨.of_store_eq rfl (hvalidating _), trivial⟩
      · cases hrun
  | submit request key now =>
      simp only [Manager.step] at hrun
      split at hrun
      · rcases (hvalidating (m.validating.erase (request, key))).submit request key now with
          ⟨e, hsubmit⟩ | ⟨job, m₁, hsubmit, hkept, hmem⟩
        · rw [hsubmit] at hrun
          cases hrun
          exact ⟨.of_store_eq rfl (hvalidating _), trivial⟩
        · rw [hsubmit] at hrun
          cases hrun
          exact ⟨⟨hkept.consistent, hkept.keeps, hkept.ordered⟩, hmem⟩
      · cases hrun
  | cancel jobId now =>
      simp only [Manager.step, Except.ok.injEq] at hrun
      rcases h.cancel jobId now with ⟨e, hcancel, -⟩ | ⟨job, hcancel, hget, -⟩ |
        ⟨job, m₁, hcancel, -, hkept, hmem⟩
      · rw [hcancel] at hrun
        cases hrun
        exact ⟨.of_store_eq rfl h, trivial⟩
      · rw [hcancel] at hrun
        cases hrun
        obtain ⟨row, ⟨-, hfind⟩, hfields⟩ := get_eq_ok_iff.mp hget
        exact ⟨.of_store_eq rfl h, fun hcancelled => ⟨row, Table.mem_of_find hfind,
          Table.key_of_find hfind, (congrArg JobFields.state hfields).symm.trans hcancelled⟩⟩
      · rw [hcancel] at hrun
        cases hrun
        exact ⟨hkept, fun _ => hmem⟩
  | take now =>
      obtain ⟨jobId, rfl, hkept⟩ := h.take hrun
      exact ⟨hkept, trivial⟩
  | runFinished evidence now =>
      obtain ⟨rfl, hkept⟩ := h.runFinished hrun
      exact ⟨hkept, trivial⟩
  | runFailed code now =>
      obtain ⟨rfl, hkept⟩ := h.runFailed hrun
      exact ⟨hkept, trivial⟩
  | release =>
      simp only [Manager.step] at hrun
      split at hrun
      · next hposition =>
          cases hrun
          refine ⟨.of_store_eq rfl ⟨h.sound, h.queue, fun row hrow hrunning => ?_, nofun,
            fun _ => rfl⟩, trivial⟩
          have hactive := (h.running row hrow hrunning).1
          rw [hposition] at hactive
          cases hactive
      · cases hrun

/-! ## Runs -/

theorem Reachable.kept {base : Store} {log : List (Step Request Evidence × Reply)}
    (h : Reachable base m log) (hsound : base.Sound)
    (hended : ∀ row ∈ base.jobs, row.state.Terminal = true) :
    Consistent m ∧ Ordered m.store (starts log) ∧ ∀ entry ∈ log, Answered m.store entry := by
  induction h with
  | start =>
      refine ⟨.start hsound hended, ⟨?_, ?_, ?_⟩, fun _ hentry => absurd hentry List.not_mem_nil⟩
      · exact List.filter_eq_nil_iff.mpr fun _ _ => by simp [starts]
      · exact List.pairwise_of_forall fun _ _ hmem => by cases hmem
      · intro _ _ hmem
        cases hmem
  | @step m m' log call result before taken ih =>
      obtain ⟨hconsistent, hordered, hanswered⟩ := ih
      obtain ⟨hkept, hanswer⟩ := hconsistent.step taken
      refine ⟨hkept.consistent, ?_, fun entry hentry => ?_⟩
      · have hstarts : starts (log ++ [(call, result)]) =
            starts log ++ (startedBy result).toList := by
          unfold starts
          rw [List.filterMap_append]
          cases hstarted : startedBy result <;> simp [hstarted]
        rw [hstarts]
        exact hkept.ordered _ hordered
      · rcases List.mem_append.mp hentry with hold | hnew
        · exact (hanswered entry hold).keeps hkept.keeps
        · rw [List.mem_singleton.mp hnew]
          exact hanswer

/-- A submission with a key has returned a job. -/
def Submitted (log : List (Step Request Evidence × Reply)) (key : String) (job : Job) : Prop :=
  ∃ request, (.submitLookup request key, .returned job) ∈ log ∨
    ∃ now, (.submit request key now, .returned job) ∈ log

/-- Scheduling and cancellation over a store that was recovered after any calls,
in every order of the steps. -/
theorem linearizable {calls : List (Call Request Evidence)} {clock : String → Timestamp}
    {base : Store} (hrecovered : (Store.after {} calls).recover clock = (.ok (), base))
    {log : List (Step Request Evidence × Reply)} (h : Reachable base m log) :
    (∀ row ∈ m.store.jobs, row.state = .running →
      (∃ active, m.active = some active ∧ active.jobId = row.jobId) ∧
        ∀ other ∈ m.store.jobs, other.state = .running → other = row) ∧
    (m.queue = m.store.queuedIds ∧ m.queue.Nodup) ∧
    ((starts log).Nodup ∧ (starts log).Sublist (m.store.jobs.map JobRow.jobId) ∧
      m.store.jobs.Pairwise fun earlier later =>
        later.jobId ∈ starts log → earlier.state ≠ .queued) ∧
    (∀ key job, Submitted log key job → ∃ row ∈ m.store.jobs, row.jobId = job.jobId ∧
      row.keyHash = keyHash key ∧
        ∀ other ∈ m.store.jobs, other.keyHash = keyHash key → other = row) ∧
    (∀ jobId now job, (.cancel jobId now, .returned job) ∈ log → job.state = .cancelled →
      ∃ row ∈ m.store.jobs, row.jobId = jobId ∧
        (row.state = .cancelled ∧ row.evidence = none ∧ row.evidenceHash = none) ∧
          ∀ other ∈ m.store.jobs, other.jobId = jobId → other = row) ∧
    ∀ row ∈ m.store.jobs, (row.evidence.isSome = true ↔ row.state = .succeeded) ∧
      (row.evidenceHash.isSome = true ↔ row.state = .succeeded) := by
  have hsound := (sound_empty.after calls).1
  obtain ⟨s', hrun, hcommits, hended⟩ := hsound.recover clock
  obtain ⟨-, rfl⟩ := Prod.mk.inj (hrecovered.symm.trans hrun)
  obtain ⟨hconsistent, hordered, hanswered⟩ := h.kept (hsound.commits hcommits).1 hended
  have hs := hconsistent.sound
  have hsublist : (starts log).Sublist (m.store.jobs.map JobRow.jobId) := by
    rw [← hordered.order]
    exact List.filter_sublist
  refine ⟨fun row hrow hrunning => ?_, ⟨hconsistent.queue, hconsistent.queue ▸
    hs.nodup_queuedIds⟩, ⟨hs.ids.sublist hsublist, hsublist, hordered.later⟩,
    fun key job hsubmitted => ?_, fun jobId now job hmem hcancelled => ?_,
    fun row hrow => ⟨hs.evidence row hrow, hs.evidenceHash row hrow⟩⟩
  · obtain ⟨-, active, hactive, hid, -⟩ := hconsistent.running row hrow hrunning
    refine ⟨⟨active, hactive, hid⟩, fun other hother hrunning' => ?_⟩
    obtain ⟨-, active', hactive', hid', -⟩ := hconsistent.running other hother hrunning'
    obtain rfl := Option.some.inj (hactive.symm.trans hactive')
    exact Table.eq_of_key_eq hs.ids hother hrow (hid'.symm.trans hid)
  · obtain ⟨row, hrow, hid, hkey⟩ : ∃ row ∈ m.store.jobs, row.jobId = job.jobId ∧
        row.keyHash = keyHash key := by
      obtain ⟨request, hmem | ⟨now, hmem⟩⟩ := hsubmitted
      · exact hanswered _ hmem
      · exact hanswered _ hmem
    exact ⟨row, hrow, hid, hkey, fun other hother hother' =>
      Table.eq_of_key_eq hs.keys hother hrow (hother'.trans hkey.symm)⟩
  · obtain ⟨row, hrow, hid, hstate⟩ := hanswered _ hmem hcancelled
    refine ⟨row, hrow, hid, ⟨hstate, ?_, ?_⟩, fun other hother hother' =>
      Table.eq_of_key_eq hs.ids hother hrow (hother'.trans hid.symm)⟩
    · rw [← Option.not_isSome_iff_eq_none, hs.evidence row hrow, hstate]
      nofun
    · rw [← Option.not_isSome_iff_eq_none, hs.evidenceHash row hrow, hstate]
      nofun

omit [EvidenceOf Evidence Request] in
/-- A job that is submitted to a fresh manager. -/
theorem reachable_queued (E : Type) [EvidenceOf E Request] (request : Request) {key : String}
    (hkey : isKey key = true) (now : Timestamp) : ∃ job : Job,
      job.jobId = (queuedRow request key now).jobId ∧
        Reachable {} ({ store := Store.queueJob {} (queuedRow request key now) now
                        queue := [(queuedRow request key now).jobId] } : Manager Request)
          ([(.submitLookup request key, .done), (.submit request key now, .returned job)] :
            List (Step Request E × Reply)) := by
  have hlookup : Store.lookup {} request key = .ok none :=
    lookup_eq_ok_iff.mpr ⟨hkey, .inl ⟨rfl, rfl⟩⟩
  obtain ⟨job, hsubmit⟩ : ∃ job, Store.submit {} request key now =
      (.ok (job, true), Store.queueJob {} (queuedRow request key now) now) :=
    submit_eq hkey List.not_mem_nil List.not_mem_nil ⟨by decide, by decide⟩ now
  have hlooked : Reachable {} ({ validating := [(request, key)] } : Manager Request)
      ([(.submitLookup request key, .done)] : List (Step Request E × Reply)) :=
    .step .start (by simp only [Manager.step, submitLookup, hlookup])
  have hqueued : Reachable {}
      ({ store := Store.queueJob {} (queuedRow request key now) now
         queue := [job.jobId] } : Manager Request)
      ([(.submitLookup request key, .done), (.submit request key now, .returned job)] :
        List (Step Request E × Reply)) :=
    hlooked.step (by simp [Manager.step, Manager.submit, hsubmit])
  have hid : job.jobId = (queuedRow request key now).jobId := by
    have hqueue := (hqueued.kept sound_empty nofun).1.queue
    rw [show (Store.queueJob {} (queuedRow request key now) now).queuedIds = _ from
      queuedIds_queueJob rfl] at hqueue
    exact (List.cons.inj hqueue).1
  exact ⟨job, hid, hid ▸ hqueued⟩

omit [EvidenceOf Evidence Request] in
/-- A job that is submitted to a fresh manager, starts, and is cancelled. -/
theorem reachable_cancelled (E : Type) [EvidenceOf E Request] (request : Request) {key : String} (hkey : isKey key = true)
    (now : Timestamp) : ∃ (m : Manager Request) (log : List (Step Request E × Reply))
      (job cancelled : Job), Reachable {} m log ∧ Submitted log key job ∧
        starts log = [job.jobId] ∧ (.cancel job.jobId now, .returned cancelled) ∈ log ∧
          cancelled.state = .cancelled := by
  let row := queuedRow request key now
  let s₁ := Store.queueJob {} row now
  let s₂ := s₁.moveJob row.jobId (transitionRow .running none now) .running now none
  obtain ⟨job, hid, hqueued⟩ := reachable_queued E request hkey now
  have hconsistent := (hqueued.kept sound_empty nofun).1
  obtain ⟨started, hstart⟩ := hconsistent.sound.transition_start List.mem_cons_self rfl now
  have hstarted : Reachable {}
      ({ store := s₂, active := some { jobId := row.jobId }, position := .running } :
        Manager Request)
      ([(.submitLookup request key, .done), (.submit request key now, .returned job),
        (.take now, .started row.jobId)] : List (Step Request E × Reply)) :=
    hqueued.step (by
      simp only [Manager.step, Manager.take]
      rw [show s₁.transition row.jobId .running none now = (.ok started, s₂) from hstart])
  have hconsistent' := (hstarted.kept sound_empty nofun).1
  have hget := hconsistent'.sound.get_eq (show transitionRow .running none now row ∈ s₂.jobs from
    (hconsistent.sound.mem_moveJob (Table.find_eq_some_iff hconsistent.sound.ids |>.mpr
      ⟨List.mem_cons_self, rfl⟩)).mpr (.inr rfl))
  rcases hconsistent'.cancel row.jobId now with ⟨e, -, hraised⟩ | ⟨found, -, hfound, hended⟩ |
    ⟨cancelled, m, hcancel, hstate, -⟩
  · exact absurd (hraised.symm.trans hget) nofun
  · obtain rfl := Except.ok.inj (hfound.symm.trans hget)
    cases hended
  · have hlast := hstarted.step (show Manager.step _ (.cancel row.jobId now :
      Step Request E) = _ from congrArg Except.ok hcancel)
    refine ⟨m, _, job, cancelled, hlast, ⟨request, .inr ⟨now, ?_⟩⟩, ?_, ?_, hstate⟩
    · simp
    · rw [hid]
      rfl
    · rw [show job.jobId = row.jobId from hid]
      simp

end Kept

end Runtime

/-- Requests that are texts. -/
scoped instance textRequest : Canonical String := ⟨PyText.encodeUtf8⟩

/-- Evidence that repeats its request. -/
scoped instance textEvidence : EvidenceOf String String := { textRequest with request := id }

open Platform in
theorem linearizable_cancelled :
    ∃ (m : Manager String) (log : List (Step String String × Reply)) (job : Job),
      (Submitted log "idempotency-key-1" job ∧ starts log = [job.jobId]) ∧
        ∃ row ∈ m.store.jobs, row.jobId = job.jobId ∧ row.state = .cancelled ∧
          row.evidence = none := by
  obtain ⟨m, log, job, cancelled, hreachable, hsubmitted, hstarts, hcancel, hstate⟩ :=
    reachable_cancelled String "research"
      (show isKey "idempotency-key-1" = true by decide) ⟨"2026-01-02T03:04:05.678Z", by decide⟩
  obtain ⟨-, -, -, -, hcancelled, -⟩ :=
    linearizable (show (Store.after {} ([] : List (Call String String))).recover
      (fun _ => ⟨"2026-01-02T03:04:05.678Z", by decide⟩) = (.ok (), {}) from rfl) hreachable
  obtain ⟨row, hrow, hid, ⟨hstate', hevidence, -⟩, -⟩ :=
    hcancelled job.jobId _ cancelled hcancel hstate
  exact ⟨m, log, job, ⟨hsubmitted, hstarts⟩, row, hrow, hid, hstate', hevidence⟩

end Manager

end Research

end Foundry
