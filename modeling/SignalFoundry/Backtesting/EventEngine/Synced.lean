import SignalFoundry.Backtesting.EventEngine.Contract

/-!
# Engines and their journals

As long as an engine is usable, its journal holds exactly the log of its
reducer. After an append that did not say `True` the journal holds that log, or
the log and the event of that append. So a replay of the journal gives the state
before that event or the state after it.
-/

namespace SignalFoundry

open EventSourcing Fallible

variable {F J : Type} [PyRuntime] [PyFloat F] [FloatText F] [Journal F J] [LawfulJournal F J]

/-- How the journal of an engine stands to its log. -/
structure Synced (engine : DeterministicEventEngine F J) (log : List (ExecutionEvent F)) :
    Prop where
  sound : LawfulJournal.Sound F engine.journal
  usable : engine.recoveryRequired = false → LawfulJournal.stored engine.journal = log
  uncertain : engine.recoveryRequired = true → ∃ failed transition,
    engine.reducer.plan engine.config failed = .ok (some transition) ∧
      (LawfulJournal.stored engine.journal = log ∨
        LawfulJournal.stored engine.journal = log ++ [failed])

section Moves

variable {engine next : DeterministicEventEngine F J} {log events : List (ExecutionEvent F)}
  {event : ExecutionEvent F} {outcome : Except EngineException Bool}

/-- The journal after an append that did not say `True`. -/
theorem Synced.poison (h : Synced engine log) (husable : engine.recoveryRequired = false)
    {transition : PlannedTransition F} {result : Except JournalError Bool} {journal : J}
    (hplan : engine.reducer.plan engine.config event = .ok (some transition))
    (happend : Journal.append engine.journal event = (result, journal)) :
    Synced (engine.poison journal) log := by
  obtain ⟨hsound, -, hstored⟩ := LawfulJournal.append h.sound event
  rw [happend] at hsound hstored
  rw [h.usable husable] at hstored
  refine ⟨hsound, fun hfalse => (Bool.noConfusion hfalse), fun _ => ⟨event, transition, hplan, ?_⟩⟩
  rcases hstored with ⟨hsame, -, -⟩ | hextended
  · exact .inl hsame
  · exact .inr hextended

theorem Synced.processed (h : Synced engine log) (husable : engine.recoveryRequired = false)
    (hprocessed : Processed engine event outcome next) :
    Synced next (log ++ committedBy event outcome) := by
  cases hprocessed with
  | refused _ => rwa [committedBy_of_ne (by simp), List.append_nil]
  | duplicate _ => rwa [committedBy_of_ne (by simp), List.append_nil]
  | failed hplan happend =>
      rw [committedBy_of_ne (by simp), List.append_nil]
      exact h.poison husable hplan happend
  | alreadyStored hplan happend =>
      rw [committedBy_of_ne (by simp), List.append_nil]
      exact h.poison husable hplan happend
  | @committed transition journal hplan happend =>
      obtain ⟨hsound, -, hstored⟩ := LawfulJournal.append h.sound event
      rw [happend] at hsound hstored
      rw [h.usable husable] at hstored
      refine ⟨hsound, fun _ => ?_, fun htrue => ?_⟩
      · rcases hstored with ⟨-, hnot, -⟩ | hextended
        · exact absurd rfl hnot
        · exact hextended
      · exact absurd (husable.symm.trans htrue) Bool.false_ne_true

theorem Synced.move (h : Synced engine log) (hmove : Move engine events next) :
    Synced next (log ++ events) := by
  cases hmove with
  | queued => rw [List.append_nil]; exact ⟨h.sound, h.usable, h.uncertain⟩
  | processed husable hprocessed => exact h.processed husable hprocessed

theorem Synced.moves (h : Synced engine log) (hmoves : Moves engine events next) :
    Synced next (log ++ events) := by
  induction hmoves with
  | refl => rwa [List.append_nil]
  | step _ hmove ih =>
      rw [← List.append_assoc]
      exact ih.move hmove

theorem Synced.close (h : Synced engine log) : Synced engine.close log := by
  rcases close_cases engine with hclosed | hclosed <;> rw [hclosed]
  · exact h
  · obtain ⟨hsound, hstored⟩ := LawfulJournal.close h.sound
    refine ⟨hsound, fun husable => hstored.trans (h.usable husable), fun hpoisoned => ?_⟩
    obtain ⟨failed, transition, hplan, hcases⟩ := h.uncertain hpoisoned
    exact ⟨failed, transition, hplan, by rwa [hstored]⟩

theorem Synced.run (h : Synced engine log) (call : EngineCall F) :
    Synced (call.run engine).engine (log ++ (call.run engine).committed) := by
  rcases call.isWork_or with hwork | rfl
  · exact h.moves (moves_run engine hwork)
  · have hnone : (EngineCall.close.run engine).committed = [] := rfl
    rw [hnone, List.append_nil]
    exact h.close

/-- Work does not close a journal. -/
theorem Moves.isOpen (h : Moves engine events next) (hsound : LawfulJournal.Sound F engine.journal) :
    LawfulJournal.Sound F next.journal ∧
      LawfulJournal.isOpen F next.journal = LawfulJournal.isOpen F engine.journal := by
  induction h with
  | refl => exact ⟨hsound, rfl⟩
  | step _ hmove ih =>
      cases hmove with
      | queued => exact ih
      | @processed _ event _ _ hprocessed =>
          obtain ⟨hbefore, hopen⟩ := ih
          obtain ⟨hafter, hsame, -⟩ := LawfulJournal.append hbefore event
          cases hprocessed with
          | refused _ => exact ⟨hbefore, hopen⟩
          | duplicate _ => exact ⟨hbefore, hopen⟩
          | failed _ happend | alreadyStored _ happend | committed _ happend =>
              rw [happend] at hafter hsame
              exact ⟨hafter, hsame.trans hopen⟩

end Moves

/-- A replay of events with different identifiers applies all of them. -/
theorem applied_eq_self {config : EngineConfig} {reducer last : Reducer F}
    {log events : List (ExecutionEvent F)} (hrecorded : Recorded config log reducer)
    (hreplay : EventSourcing.replay (Reducer.apply config) reducer events = .ok last)
    (hnodup : ((log ++ events).map fun event => event.eventId).Nodup) :
    applied (Reducer.apply config) reducer events = events := by
  induction events generalizing log reducer with
  | nil => rfl
  | cons event rest ih =>
      rw [EventSourcing.replay, bind_eq_ok_iff] at hreplay
      obtain ⟨moved, hmoved, hrest⟩ := hreplay
      cases moved with
      | some next =>
          obtain ⟨parent, transition, haccepted, rfl⟩ := accepted_of_apply hmoved
          rw [applied, hmoved]
          simp only [List.cons.injEq, true_and]
          exact ih (hrecorded.step haccepted) hrest (by simpa using hnodup)
      | none =>
          -- Only an event that was committed before moves nothing.
          have hknown : event.eventId ∈ reducer.fingerprints.keys := by
            by_contra hfresh
            simp only [Reducer.apply, bind_eq_ok_iff, Reducer.plan,
              OrderedDict.get?_eq_none_iff.mpr hfresh, pure_eq_ok, Except.ok.injEq] at hmoved
            obtain ⟨planned, ⟨_, -, transition, -, rfl⟩, hnone⟩ := hmoved
            cases hnone
          obtain ⟨committed, hcommitted, hsame⟩ := hrecorded.mem_fingerprints_iff.mp hknown
          rw [List.map_append, List.nodup_append] at hnodup
          exact absurd hsame (hnodup.2.2 _ (List.mem_map_of_mem hcommitted) _
            (List.mem_map_of_mem List.mem_cons_self))

/-- Every reachable engine is in step with its journal. -/
theorem Reachable.synced {args : EngineArgs F} {engine : DeterministicEventEngine F J}
    {log : List (ExecutionEvent F)}
    (h : Reachable (LawfulJournal.Sound F) args engine log) : Synced engine log := by
  induction h with
  | created hcreate hsound =>
      obtain ⟨config, ownedJournal, ledger, -, -, hcount, -, rfl⟩ := create_eq_ok hcreate
      refine ⟨hsound, fun _ => ?_, fun hpoisoned => Bool.noConfusion hpoisoned⟩
      have hlength := LawfulJournal.count_eq hsound (LawfulJournal.open_of_count hcount)
      rw [hcount, Except.ok.injEq] at hlength
      exact List.length_eq_zero_iff.mp hlength.symm
  | @replayed journal expectedRunId ledger events engine hreplay hevents hledger hsound =>
      obtain ⟨ledger', hreplayed⟩ := replayed_of_replay hevents hreplay
      have hledger' := hreplayed.ledger_eq
      rw [hledger, Except.ok.injEq] at hledger'
      subst hledger'
      have hstored := LawfulJournal.events_eq hsound (LawfulJournal.open_of_events hevents)
      rw [hevents, Except.ok.injEq] at hstored
      have happlied : applied (Reducer.apply engine.config) (.initial ledger) events = events :=
        applied_eq_self (.initial engine.config ledger) hreplayed.reducer
          (hstored ▸ LawfulJournal.nodup_eventIds hsound)
      refine ⟨hreplayed.journal_eq ▸ hsound, fun _ => ?_, fun hpoisoned => ?_⟩
      · rw [happlied, hreplayed.journal_eq, hstored]
      · rw [hreplayed.usable] at hpoisoned
        cases hpoisoned
  | called _ call ih => exact ih.run call

/-! ## Replaying a log -/

/-- The engine that a replay of a journal gives. -/
def resumed (config : EngineConfig) (reducer : Reducer F) (journal : J) :
    DeterministicEventEngine F J where
  config := config
  reducer := reducer
  pending := []
  pendingFingerprints := .empty
  journal := journal
  ownsJournal := false
  recoveryRequired := false

omit [Journal F J] [LawfulJournal F J] in
/-- The constructor, when nothing is refused. -/
theorem create_of_parts [Journal F J] {runId : String} {args : EngineArgs F}
    {argument : JournalArgument J} {config : EngineConfig} {ownedJournal : InMemoryJournal}
    {ledger : PortfolioLedger F} (hconfig : EngineConfig.create runId args = .ok config)
    (howned : InMemoryJournal.create config.maxEvents.1 defaultMaxEventBytes
      defaultMaxTotalPayloadBytes defaultMaxEventIdBytes = .ok ownedJournal)
    (hcount : Journal.count F (argument.select ownedJournal) = .ok 0)
    (hledger : PortfolioLedger.create args.initialCash = .ok ledger) :
    DeterministicEventEngine.create runId args argument =
      .ok { config, reducer := .initial ledger, pending := [], pendingFingerprints := .empty,
            journal := argument.select ownedJournal, ownsJournal := argument.owns,
            recoveryRequired := false } := by
  simp only [DeterministicEventEngine.create]
  rw [fromPython_eq_ok_iff.mpr hconfig, ok_bind, fromPython_eq_ok_iff.mpr howned, ok_bind,
    fromJournal_eq_ok_iff.mpr hcount, ok_bind, refuse_of_not (not_not.mpr rfl), ok_bind,
    fromPython_eq_ok_iff.mpr hledger, ok_bind, pure_eq_ok]

/-- A journal that holds a committed log replays to its state. -/
theorem replay_of_history {args : EngineArgs F} {config : EngineConfig}
    {ledger : PortfolioLedger F} {log : List (ExecutionEvent F)} {reducer : Reducer F} {journal : J}
    (hconfig : EngineConfig.create config.runId args = .ok config)
    (hallowed : JournalAllowed config)
    (hledger : PortfolioLedger.create args.initialCash = .ok ledger)
    (hhistory : History config ledger log reducer) (hsound : LawfulJournal.Sound F journal)
    (hopen : LawfulJournal.isOpen F journal = true)
    (hstored : LawfulJournal.stored journal = log) {expectedRunId : Option String}
    (hexpected : ∀ runId ∈ expectedRunId, runId = config.runId)
    (hsome : log = [] → expectedRunId ≠ none) :
    DeterministicEventEngine.replay journal args expectedRunId =
      .ok (resumed config reducer journal) := by
  obtain ⟨ownedJournal, howned⟩ := hallowed
  have hevents : Journal.events journal = .ok log :=
    hstored ▸ LawfulJournal.events_eq hsound hopen
  unfold DeterministicEventEngine.replay
  rw [fromJournal_eq_ok_iff.mpr hevents, ok_bind]
  cases hlog : log with
  | nil =>
      cases expectedRunId with
      | none => exact absurd rfl (hsome hlog)
      | some runId =>
          obtain rfl := hexpected runId rfl
          have hcount : Journal.count F journal = .ok 0 := by
            rw [LawfulJournal.count_eq hsound hopen, hstored, hlog]
            rfl
          rw [hlog] at hhistory
          rw [Committed.nil_iff.mp hhistory]
          exact (create_of_parts hconfig howned hcount hledger :
            DeterministicEventEngine.create config.runId args (.given journal) = _)
  | cons first rest =>
      have hrun : first.runId.1 = config.runId :=
        (hhistory.recorded.inRun first (hlog ▸ List.mem_cons_self)).runId
      have hmatch : ¬ ∃ runId ∈ expectedRunId, first.runId.1 ≠ runId := by
        rintro ⟨runId, hrunId, hne⟩
        exact hne (hrun.trans (hexpected runId hrunId).symm)
      have hvalid := InMemoryJournal.valid_of_create (F := F) howned
      have hcount : ownedJournal.count = .ok 0 := by
        rw [InMemoryJournal.count, InMemoryJournal.checkOpen,
          refuseIf_of_not (by simp [hvalid.2.2]), ok_bind, hvalid.2.1]
        rfl
      have hfresh : DeterministicEventEngine.create config.runId args
          (JournalArgument.owned (J := InMemoryJournal) id) = _ :=
        create_of_parts hconfig howned hcount hledger
      rw [hlog] at hhistory
      simp only [DeterministicEventEngine.replayEvents]
      rw [refuse_of_not hmatch, ok_bind, hrun, hfresh, ok_bind, mapError_eq_ok_iff.mpr hhistory.replay_eq, ok_bind, pure_eq_ok]
      rfl

end SignalFoundry
