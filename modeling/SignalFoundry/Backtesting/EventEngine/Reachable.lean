import SignalFoundry.Backtesting.EventEngine.Engine
import SignalFoundry.Library.Machine

/-!
# Reachable engines

Every call on an engine but `close` is a sequence of moves: the queue changes, or
one event is processed while the engine is usable. A reachable engine comes with the log of the events that it committed, and its
reducer is the state of that log.
-/

namespace SignalFoundry

open EventSourcing Fallible

variable {F J : Type} [PyRuntime] [PyFloat F] [FloatText F] [Journal F J]

/-- What processing one event does, by the outcome of its plan and of the
journal. -/
inductive Processed (engine : DeterministicEventEngine F J) (event : ExecutionEvent F) :
    Except EngineException Bool → DeterministicEventEngine F J → Prop
  | refused {e : EngineException} (hplan : engine.reducer.plan engine.config event = .error e) :
      Processed engine event (.error e) engine
  | duplicate (hplan : engine.reducer.plan engine.config event = .ok none) :
      Processed engine event (.ok false) engine
  | failed {transition : PlannedTransition F} {e : JournalError} {journal : J}
      (hplan : engine.reducer.plan engine.config event = .ok (some transition))
      (happend : Journal.append engine.journal event = (.error e, journal)) :
      Processed engine event (.error (.recoveryRequired
        "journal append failed; in-memory state is non-publishable")) (engine.poison journal)
  | alreadyStored {transition : PlannedTransition F} {journal : J}
      (hplan : engine.reducer.plan engine.config event = .ok (some transition))
      (happend : Journal.append engine.journal event = (.ok false, journal)) :
      Processed engine event (.error (.recoveryRequired
        "journal already contained an event absent from reducer state")) (engine.poison journal)
  | committed {transition : PlannedTransition F} {journal : J}
      (hplan : engine.reducer.plan engine.config event = .ok (some transition))
      (happend : Journal.append engine.journal event = (.ok true, journal)) :
      Processed engine event (.ok true) (engine.publish journal event transition)

theorem processed (engine : DeterministicEventEngine F J) (event : ExecutionEvent F) :
    Processed engine event (engine.processEvent event).1 (engine.processEvent event).2 := by
  unfold DeterministicEventEngine.processEvent
  cases hplan : engine.reducer.plan engine.config event with
  | error e => exact .refused hplan
  | ok planned =>
      cases planned with
      | none => exact .duplicate hplan
      | some transition =>
          dsimp only
          rcases happend : Journal.append engine.journal event with ⟨stored, journal⟩
          cases stored with
          | error e => exact .failed hplan happend
          | ok stored =>
              cases stored with
              | false => exact .alreadyStored hplan happend
              | true => exact .committed hplan happend

/-- The events that a call on one event committed. -/
def committedBy (event : ExecutionEvent F) : Except EngineException Bool → List (ExecutionEvent F)
  | .ok true => [event]
  | _ => []

theorem committedBy_of_ne {event : ExecutionEvent F} {outcome : Except EngineException Bool}
    (h : outcome ≠ .ok true) : committedBy event outcome = [] := by
  unfold committedBy
  split
  · exact absurd rfl h
  · rfl

/-- One move of an engine, with the events that it commits. -/
inductive Move :
    DeterministicEventEngine F J → List (ExecutionEvent F) → DeterministicEventEngine F J → Prop
  | queued (engine : DeterministicEventEngine F J) (pending : List (ExecutionEvent F))
      (pendingFingerprints : OrderedDict String (List UInt8)) :
      Move engine [] { engine with pending, pendingFingerprints }
  | processed {engine next : DeterministicEventEngine F J} {event : ExecutionEvent F}
      {outcome : Except EngineException Bool} (husable : engine.recoveryRequired = false)
      (hprocessed : Processed engine event outcome next) :
      Move engine (committedBy event outcome) next

/-- A sequence of moves. -/
inductive Moves :
    DeterministicEventEngine F J → List (ExecutionEvent F) → DeterministicEventEngine F J → Prop
  | refl (engine : DeterministicEventEngine F J) : Moves engine [] engine
  | step {engine middle next : DeterministicEventEngine F J} {log events : List (ExecutionEvent F)}
      (hmoves : Moves engine log middle) (hmove : Move middle events next) :
      Moves engine (log ++ events) next

theorem Move.single {engine next : DeterministicEventEngine F J} {events : List (ExecutionEvent F)}
    (h : Move engine events next) : Moves engine events next :=
  .step (.refl engine) h

theorem Moves.trans {engine middle next : DeterministicEventEngine F J}
    {log events : List (ExecutionEvent F)} (h : Moves engine log middle)
    (h' : Moves middle events next) : Moves engine (log ++ events) next := by
  induction h' with
  | refl => rw [List.append_nil]; exact h
  | step _ hmove ih => rw [← List.append_assoc]; exact .step ih hmove

/-! ## Calls are sequences of moves -/

omit [Journal F J] in
theorem requireUsable_eq_ok_iff {engine : DeterministicEventEngine F J} {u : Unit} :
    engine.requireUsable = .ok u ↔ engine.recoveryRequired = false := by
  rw [DeterministicEventEngine.requireUsable, refuse_eq_ok_iff, Bool.not_eq_true]

theorem moves_submit {engine next : DeterministicEventEngine F J} {event : ExecutionEvent F}
    {queued : Bool} (h : engine.submit event = .ok (queued, next)) : Moves engine [] next := by
  simp only [DeterministicEventEngine.submit, bind_eq_ok_iff] at h
  obtain ⟨_, -, _, -, h⟩ := h
  cases hcommitted : engine.reducer.fingerprints.get? event.eventId with
  | some existing =>
      rw [hcommitted] at h
      simp only [bind_eq_ok_iff, pure_eq_ok, Except.ok.injEq, Prod.mk.injEq] at h
      obtain ⟨_, -, -, rfl⟩ := h
      exact .refl engine
  | none =>
      rw [hcommitted] at h
      cases hpending : engine.pendingFingerprints.get? event.eventId with
      | some pending =>
          simp only [hpending, bind_eq_ok_iff, pure_eq_ok, Except.ok.injEq, Prod.mk.injEq] at h
          obtain ⟨_, -, -, rfl⟩ := h
          exact .refl engine
      | none =>
          simp only [hpending, bind_eq_ok_iff, pure_eq_ok, Except.ok.injEq, Prod.mk.injEq] at h
          obtain ⟨_, -, _, -, _, -, -, rfl⟩ := h
          exact (Move.queued engine _ _).single

/-- Processing keeps the queue, and only an error can make the engine unusable. -/
theorem Processed.keeps {engine next : DeterministicEventEngine F J} {event : ExecutionEvent F}
    {outcome : Except EngineException Bool} (h : Processed engine event outcome next) :
    next.pending = engine.pending ∧
      ∀ stored, outcome = .ok stored → next.recoveryRequired = engine.recoveryRequired := by
  cases h <;> exact ⟨rfl, by simp [DeterministicEventEngine.publish]⟩

/-- The loop of `drain` extends the processed events by what its moves commit. -/
theorem moves_drainLoop (maximum : Option ℕ) (engine : DeterministicEventEngine F J)
    (before queue : List (ExecutionEvent F)) (husable : engine.recoveryRequired = false) :
    ∃ log, (engine.drainLoop maximum before queue).committed = before ++ log ∧
      Moves engine log (engine.drainLoop maximum before queue).engine := by
  induction queue generalizing engine before with
  | nil => exact ⟨[], by simp [DeterministicEventEngine.drainLoop], .refl engine⟩
  | cons event rest ih =>
      unfold DeterministicEventEngine.drainLoop
      split
      · exact ⟨[], by simp, .refl engine⟩
      · have hqueued : Moves engine [] (engine.pop event rest) := (Move.queued engine _ _).single
        have hprocessed := processed (engine.pop event rest) event
        have hpopped : (engine.pop event rest).recoveryRequired = false := husable
        have hmove := hqueued.trans (Move.processed hpopped hprocessed).single
        obtain ⟨-, hkept⟩ := hprocessed.keeps
        rcases hresult : (engine.pop event rest).processEvent event with ⟨outcome, next⟩
        rw [hresult] at hmove hkept
        cases outcome with
        | error e => exact ⟨[], by simp, hmove⟩
        | ok stored =>
            have hnext : next.recoveryRequired = false := (hkept stored rfl).trans husable
            cases stored with
            | true =>
                obtain ⟨log, hlog, hmoves⟩ := ih next (before ++ [event]) hnext
                exact ⟨[event] ++ log, by simp [hlog], hmove.trans hmoves⟩
            | false =>
                obtain ⟨log, hlog, hmoves⟩ := ih next before hnext
                exact ⟨log, hlog, hmove.trans hmoves⟩

theorem moves_process (engine : DeterministicEventEngine F J) (event : ExecutionEvent F) :
    Moves engine (committedBy event (engine.process event).1) (engine.process event).2 := by
  unfold DeterministicEventEngine.process
  split
  · exact .refl engine
  · next hchecks =>
      simp only [bind_eq_ok_iff, requireUsable_eq_ok_iff] at hchecks
      exact (Move.processed hchecks.choose_spec.1 (processed engine event)).single

/-- The calls that work with events. -/
def EngineCall.IsWork : EngineCall F → Prop
  | submit _ | drain _ | process _ => True
  | close => False

omit [Journal F J] in
theorem EngineCall.isWork_or (call : EngineCall F) : call.IsWork ∨ call = .close := by
  cases call with
  | close => exact .inr rfl
  | _ => exact .inl trivial

theorem moves_run (engine : DeterministicEventEngine F J) {call : EngineCall F}
    (hwork : call.IsWork) :
    Moves engine (call.run engine).committed (call.run engine).engine := by
  cases call with
  | submit event =>
      cases hsubmit : engine.submit event with
      | error e =>
          simp only [EngineCall.run, hsubmit]
          exact .refl engine
      | ok result =>
          simp only [EngineCall.run, hsubmit]
          exact moves_submit hsubmit
  | drain maximum =>
      show Moves engine (engine.drain maximum).committed (engine.drain maximum).engine
      unfold DeterministicEventEngine.drain
      split
      · exact .refl engine
      · next hchecks =>
          simp only [bind_eq_ok_iff, requireUsable_eq_ok_iff] at hchecks
          obtain ⟨log, hlog, hmoves⟩ :=
            moves_drainLoop _ engine [] engine.pending hchecks.choose_spec.1
          rw [hlog]
          exact hmoves
  | process event =>
      have hmoves := moves_process engine event
      rcases hprocess : engine.process event with ⟨outcome, next⟩
      rw [hprocess] at hmoves
      cases outcome with
      | error e =>
          simp only [EngineCall.run, hprocess]
          exact hmoves
      | ok stored => cases stored <;> simp only [EngineCall.run, hprocess] <;> exact hmoves
  | close => exact absurd hwork not_false

/-- Closing an engine can only close its journal. -/
theorem close_cases (engine : DeterministicEventEngine F J) : engine.close = engine ∨
    engine.close = { engine with journal := Journal.close F engine.journal } := by
  unfold DeterministicEventEngine.close
  split
  · exact .inr rfl
  · exact .inl rfl

/-! ## Reachable engines and their logs -/

/-- The engines that the constructor, `replay` and any calls lead to from given
arguments, with the events that they committed. The journal that an engine starts
with is an admitted one. -/
inductive Reachable (admits : J → Prop) (args : EngineArgs F) :
    DeterministicEventEngine F J → List (ExecutionEvent F) → Prop
  | created {runId : String} {argument : JournalArgument J}
      {engine : DeterministicEventEngine F J}
      (hcreate : DeterministicEventEngine.create runId args argument = .ok engine)
      (hadmits : admits engine.journal) : Reachable admits args engine []
  | replayed {journal : J} {expectedRunId : Option String} {ledger : PortfolioLedger F}
      {events : List (ExecutionEvent F)} {engine : DeterministicEventEngine F J}
      (hreplay : DeterministicEventEngine.replay journal args expectedRunId = .ok engine)
      (hevents : Journal.events journal = .ok events)
      (hledger : PortfolioLedger.create args.initialCash = .ok ledger)
      (hadmits : admits journal) :
      Reachable admits args engine (applied (Reducer.apply engine.config) (.initial ledger) events)
  | called {engine : DeterministicEventEngine F J} {log : List (ExecutionEvent F)}
      (hbefore : Reachable admits args engine log) (call : EngineCall F) :
      Reachable admits args (call.run engine).engine (log ++ (call.run engine).committed)

omit [PyRuntime] [PyFloat F] [FloatText F] in
/-- A configuration knows the run that it is for. -/
theorem runId_of_create {runId : String} {args : EngineArgs F} {config : EngineConfig}
    (h : EngineConfig.create runId args = .ok config) : config.runId = runId := by
  simp only [EngineConfig.create, bind_eq_ok_iff, pure_eq_ok, Except.ok.injEq] at h
  obtain ⟨_, -, _, -, _, -, _, -, _, -, _, -, _, -, rfl⟩ := h
  rfl

/-- What a new engine looks like. -/
theorem create_eq_ok {runId : String} {args : EngineArgs F} {argument : JournalArgument J}
    {engine : DeterministicEventEngine F J}
    (h : DeterministicEventEngine.create runId args argument = .ok engine) :
    ∃ config ownedJournal ledger, EngineConfig.create runId args = .ok config ∧
      InMemoryJournal.create config.maxEvents.1 defaultMaxEventBytes defaultMaxTotalPayloadBytes
        defaultMaxEventIdBytes = .ok ownedJournal ∧
      Journal.count F (argument.select ownedJournal) = .ok 0 ∧
      PortfolioLedger.create args.initialCash = .ok ledger ∧
      engine = { config, reducer := .initial ledger, pending := [],
                 pendingFingerprints := .empty, journal := argument.select ownedJournal,
                 ownsJournal := argument.owns, recoveryRequired := false } := by
  simp only [DeterministicEventEngine.create, bind_eq_ok_iff, fromPython_eq_ok_iff,
    fromJournal_eq_ok_iff, refuse_eq_ok_iff, exists_const, pure_eq_ok, Except.ok.injEq, not_not,
    ne_eq] at h
  obtain ⟨config, hconfig, ownedJournal, howned, count, hcount, rfl, ledger, hledger, rfl⟩ := h
  exact ⟨config, ownedJournal, ledger, hconfig, howned, hcount, hledger, rfl⟩

/-- The limits of a configuration make a journal. -/
def JournalAllowed (config : EngineConfig) : Prop :=
  ∃ ownedJournal, InMemoryJournal.create config.maxEvents.1 defaultMaxEventBytes
    defaultMaxTotalPayloadBytes defaultMaxEventIdBytes = .ok ownedJournal

/-- What a replayed engine looks like. -/
structure Replayed (journal : J) (args : EngineArgs F) (events : List (ExecutionEvent F))
    (engine : DeterministicEventEngine F J) (ledger : PortfolioLedger F) : Prop where
  config : EngineConfig.create engine.config.runId args = .ok engine.config
  allowed : JournalAllowed engine.config
  ledger_eq : PortfolioLedger.create args.initialCash = .ok ledger
  reducer : EventSourcing.replay (Reducer.apply engine.config) (.initial ledger) events =
    .ok engine.reducer
  journal_eq : engine.journal = journal
  usable : engine.recoveryRequired = false

theorem replayed_of_replay {journal : J} {args : EngineArgs F} {expectedRunId : Option String}
    {events : List (ExecutionEvent F)} {engine : DeterministicEventEngine F J}
    (hevents : Journal.events journal = .ok events)
    (h : DeterministicEventEngine.replay journal args expectedRunId = .ok engine) :
    ∃ ledger, Replayed journal args events engine ledger := by
  unfold DeterministicEventEngine.replay at h
  rw [bind_eq_ok_iff] at h
  obtain ⟨found, hfound, h⟩ := h
  rw [fromJournal_eq_ok_iff, hevents, Except.ok.injEq] at hfound
  subst hfound
  cases events with
  | nil =>
      cases expectedRunId with
      | none => cases h
      | some runId =>
          obtain ⟨config, ownedJournal, ledger, hconfig, howned, -, hledger, rfl⟩ := create_eq_ok h
          exact ⟨ledger, (runId_of_create hconfig).symm ▸ hconfig, ⟨ownedJournal, howned⟩, hledger,
            rfl, rfl, rfl⟩
  | cons first rest =>
      simp only [DeterministicEventEngine.replayEvents, bind_eq_ok_iff, pure_eq_ok,
        Except.ok.injEq, mapError_eq_ok_iff] at h
      obtain ⟨_, -, fresh, hfresh, reducer, hreducer, rfl⟩ := h
      obtain ⟨config, ownedJournal, ledger, hconfig, howned, -, hledger, rfl⟩ :=
        create_eq_ok hfresh
      exact ⟨ledger, (runId_of_create hconfig).symm ▸ hconfig, ⟨ownedJournal, howned⟩, hledger,
        hreducer, rfl, rfl⟩

/-- A move extends the history of the reducer by what it commits. -/
theorem Move.committed {engine next : DeterministicEventEngine F J}
    {events : List (ExecutionEvent F)} (h : Move engine events next) :
    next.config = engine.config ∧
      Committed (Reducer.apply engine.config) engine.reducer events next.reducer := by
  cases h with
  | queued => exact ⟨rfl, .nil⟩
  | processed _ hprocessed =>
      cases hprocessed with
      | refused _ => exact ⟨rfl, .nil⟩
      | duplicate _ => exact ⟨rfl, .nil⟩
      | failed _ _ => exact ⟨rfl, .nil⟩
      | alreadyStored _ _ => exact ⟨rfl, .nil⟩
      | committed hplan _ => exact ⟨rfl, .single (apply_eq_some_iff.mpr ⟨_, hplan, rfl⟩)⟩

theorem Moves.committed {engine next : DeterministicEventEngine F J}
    {log : List (ExecutionEvent F)} (h : Moves engine log next) :
    next.config = engine.config ∧
      Committed (Reducer.apply engine.config) engine.reducer log next.reducer := by
  induction h with
  | refl => exact ⟨rfl, .nil⟩
  | step _ hmove ih =>
      obtain ⟨hconfig, hcommitted⟩ := hmove.committed
      rw [ih.1] at hconfig hcommitted
      exact ⟨hconfig, ih.2.append hcommitted⟩

/-- A call extends the history of the reducer by what it commits. -/
theorem committed_run (engine : DeterministicEventEngine F J) (call : EngineCall F) :
    (call.run engine).engine.config = engine.config ∧
      Committed (Reducer.apply engine.config) engine.reducer (call.run engine).committed
        (call.run engine).engine.reducer := by
  rcases call.isWork_or with hwork | rfl
  · exact (moves_run engine hwork).committed
  · have hclosed : (EngineCall.close.run engine).engine = engine.close := rfl
    rw [hclosed]
    rcases close_cases engine with h | h <;> rw [h] <;> exact ⟨rfl, .nil⟩

/-- What an engine and its log go back to. -/
structure Origin (args : EngineArgs F) (engine : DeterministicEventEngine F J)
    (log : List (ExecutionEvent F)) (ledger : PortfolioLedger F) : Prop where
  config : EngineConfig.create engine.config.runId args = .ok engine.config
  allowed : JournalAllowed engine.config
  ledger_eq : PortfolioLedger.create args.initialCash = .ok ledger
  history : History engine.config ledger log engine.reducer

/-- The reducer of a reachable engine is the state of its log. -/
theorem Reachable.origin {admits : J → Prop} {args : EngineArgs F}
    {engine : DeterministicEventEngine F J} {log : List (ExecutionEvent F)}
    (h : Reachable admits args engine log) : ∃ ledger, Origin args engine log ledger := by
  induction h with
  | created hcreate _ =>
      obtain ⟨config, ownedJournal, ledger, hconfig, howned, -, hledger, rfl⟩ :=
        create_eq_ok hcreate
      exact ⟨ledger, (runId_of_create hconfig).symm ▸ hconfig, ⟨ownedJournal, howned⟩, hledger,
        .nil⟩
  | replayed hreplay hevents hledger _ =>
      obtain ⟨ledger, hreplayed⟩ := replayed_of_replay hevents hreplay
      have hledger' := hreplayed.ledger_eq
      rw [hledger, Except.ok.injEq] at hledger'
      subst hledger'
      exact ⟨_, hreplayed.config, hreplayed.allowed, hledger,
        committed_of_replay hreplayed.reducer⟩
  | @called engine _ _ call ih =>
      obtain ⟨ledger, hconfig, hallowed, hledger, hhistory⟩ := ih
      obtain ⟨hsame, hcommitted⟩ := committed_run engine call
      exact ⟨ledger, hsame ▸ hconfig, hsame ▸ hallowed, hledger,
        hsame ▸ hhistory.append hcommitted⟩

/-- A run of calls from a reachable engine. -/
theorem Reachable.run {admits : J → Prop} {args : EngineArgs F}
    {engine : DeterministicEventEngine F J} {log : List (ExecutionEvent F)}
    (h : Reachable admits args engine log) (calls : List (EngineCall F)) :
    Reachable admits args (Machine.run EngineCall.step engine calls).2
      (log ++ (Machine.run EngineCall.step engine calls).1.flatten) := by
  induction calls generalizing engine log with
  | nil => rwa [Machine.run_nil, List.flatten_nil, List.append_nil]
  | cons call calls ih =>
      rw [Machine.run_cons, List.flatten_cons, ← List.append_assoc]
      exact ih (h.called call)

end SignalFoundry
