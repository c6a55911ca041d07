import SignalFoundry.Backtesting.EventEngine.Trace

/-!
# Recovery from a failed append

Only an append that did not say `True` asks for recovery. From then on every call
of the engine raises, and a replay of the journal gives the state before the event
of that append or the state after it.
-/

/-! ## A replay continues the run

The journal of a usable engine holds its log, and the reducer is the state of its
log. So a replay of the journal gives the reducer again, and from then on both
engines answer every event alike. -/

namespace SignalFoundry

open EventSourcing Fallible

section Replays

variable {F J : Type} [PyRuntime] [PyFloat F] [FloatText F] [Journal F J]

/-- Two engines that differ in their queues at most. -/
structure SameState (engine engine' : DeterministicEventEngine F J) : Prop where
  config : engine'.config = engine.config
  reducer : engine'.reducer = engine.reducer
  journal : engine'.journal = engine.journal
  recoveryRequired : engine'.recoveryRequired = engine.recoveryRequired

theorem SameState.processEvent {engine engine' : DeterministicEventEngine F J}
    (h : SameState engine engine') (event : ExecutionEvent F) :
    (engine.processEvent event).1 = (engine'.processEvent event).1 ∧
      SameState (engine.processEvent event).2 (engine'.processEvent event).2 := by
  obtain ⟨config, reducer, pending, fingerprints, journal, owns, required⟩ := engine
  obtain ⟨config', reducer', pending', fingerprints', journal', owns', required'⟩ := engine'
  obtain ⟨rfl, rfl, rfl, rfl⟩ := h
  simp only [DeterministicEventEngine.processEvent]
  cases reducer'.plan config' event with
  | error e => exact ⟨rfl, rfl, rfl, rfl, rfl⟩
  | ok planned =>
      cases planned with
      | none => exact ⟨rfl, rfl, rfl, rfl, rfl⟩
      | some transition =>
          rcases Journal.append journal' event with ⟨_ | _ | _, next⟩ <;>
            exact ⟨rfl, rfl, rfl, rfl, rfl⟩

theorem SameState.process {engine engine' : DeterministicEventEngine F J}
    (h : SameState engine engine') (event : ExecutionEvent F) :
    (engine.process event).1 = (engine'.process event).1 ∧
      SameState (engine.process event).2 (engine'.process event).2 := by
  have hchecks : (do
      engine'.requireUsable
      engine'.config.requireEvent event : Except EngineException Unit) = (do
      engine.requireUsable
      engine.config.requireEvent event) := by
    rw [DeterministicEventEngine.requireUsable, DeterministicEventEngine.requireUsable, h.config,
      h.recoveryRequired]
  unfold DeterministicEventEngine.process
  rw [hchecks]
  split
  · exact ⟨rfl, h⟩
  · exact h.processEvent event

theorem SameState.run {engine engine' : DeterministicEventEngine F J}
    (h : SameState engine engine') (events : List (ExecutionEvent F)) :
    (Machine.run DeterministicEventEngine.process engine events).1 =
        (Machine.run DeterministicEventEngine.process engine' events).1 ∧
      SameState (Machine.run DeterministicEventEngine.process engine events).2
        (Machine.run DeterministicEventEngine.process engine' events).2 := by
  induction events generalizing engine engine' with
  | nil => exact ⟨rfl, h⟩
  | cons event events ih =>
      obtain ⟨houtcome, hnext⟩ := h.process event
      obtain ⟨houtcomes, hlast⟩ := ih hnext
      simp only [Machine.run_cons]
      exact ⟨by rw [houtcome, houtcomes], hlast⟩

theorem isOpen_run [LawfulJournal F J] {engine : DeterministicEventEngine F J}
    (hsound : LawfulJournal.Sound F engine.journal) {calls : List (EngineCall F)}
    (hcalls : ∀ call ∈ calls, call.IsWork) :
    LawfulJournal.Sound F (Machine.run EngineCall.step engine calls).2.journal ∧
      LawfulJournal.isOpen F (Machine.run EngineCall.step engine calls).2.journal =
        LawfulJournal.isOpen F engine.journal := by
  induction calls generalizing engine with
  | nil => exact ⟨hsound, rfl⟩
  | cons call calls ih =>
      obtain ⟨hnext, hsame⟩ :=
        (moves_run engine (hcalls call List.mem_cons_self)).isOpen hsound
      obtain ⟨hlast, hopen⟩ := ih hnext fun other hother =>
        hcalls other (List.mem_cons_of_mem call hother)
      exact ⟨hlast, hopen.trans hsame⟩

theorem config_run (engine : DeterministicEventEngine F J) (calls : List (EngineCall F)) :
    (Machine.run EngineCall.step engine calls).2.config = engine.config := by
  have hstep : ∀ (next : DeterministicEventEngine F J) (call : EngineCall F),
      next.config = engine.config → (EngineCall.step next call).2.config = engine.config :=
    fun next call hsame => (committed_run next call).1.trans hsame
  exact Machine.invariant_run (P := (DeterministicEventEngine.config · = engine.config)) hstep rfl calls

/-- A usable reachable engine, whose journal is open, is what a replay of that
journal gives, apart from its queue. -/
theorem Reachable.replay_eq [LawfulJournal F J] {args : EngineArgs F}
    {engine : DeterministicEventEngine F J} {log : List (ExecutionEvent F)}
    (h : Reachable (LawfulJournal.Sound F) args engine log)
    (husable : engine.recoveryRequired = false)
    (hopen : LawfulJournal.isOpen F engine.journal = true) {expectedRunId : Option String}
    (hexpected : ∀ runId ∈ expectedRunId, runId = engine.config.runId)
    (hsome : log = [] → expectedRunId ≠ none) :
    DeterministicEventEngine.replay engine.journal args expectedRunId =
      .ok (resumed engine.config engine.reducer engine.journal) := by
  obtain ⟨ledger, horigin⟩ := h.origin
  exact replay_of_history horigin.config horigin.allowed horigin.ledger_eq horigin.history
    h.synced.sound hopen (h.synced.usable husable) hexpected hsome

/-- After a run that committed an event and left the engine usable, a replay of
the journal gives an engine with the same state, and both answer every further
event alike. -/
theorem DeterministicEventEngine.replay_of_run [Json.LawfulFloatText F] {runId : String}
    {args : EngineArgs F} {argument : JournalArgument InMemoryJournal}
    {engine live : DeterministicEventEngine F InMemoryJournal} {calls : List (EngineCall F)}
    {outputs : List (List (ExecutionEvent F))}
    (hcreate : DeterministicEventEngine.create runId args argument = .ok engine)
    (hvalid : engine.journal.Valid F) (hcalls : ∀ call ∈ calls, call.IsWork)
    (hrun : Machine.run EngineCall.step engine calls = (outputs, live))
    (hsome : outputs.flatten ≠ []) (husable : live.recoveryRequired = false)
    {expectedRunId : Option String} (hexpected : ∀ id ∈ expectedRunId, id = runId) :
    ∃ replayed, DeterministicEventEngine.replay live.journal args expectedRunId = .ok replayed ∧
      SameState live replayed ∧
      ∀ events, (Machine.run DeterministicEventEngine.process replayed events).1 =
          (Machine.run DeterministicEventEngine.process live events).1 ∧
        SameState (Machine.run DeterministicEventEngine.process live events).2
          (Machine.run DeterministicEventEngine.process replayed events).2 := by
  have hstart : Reachable (LawfulJournal.Sound F) args engine [] := .created hcreate hvalid
  have hreachable := hstart.run calls
  obtain ⟨-, hopen⟩ := isOpen_run (J := InMemoryJournal) hvalid hcalls
  have hlive := config_run engine calls
  rw [hrun] at hreachable hopen hlive
  obtain ⟨config, ownedJournal, ledger, hconfig, -, hcount, -, rfl⟩ := create_eq_ok hcreate
  have hrunId : live.config.runId = runId := by
    rw [hlive]
    exact runId_of_create hconfig
  have hsame : SameState live (resumed live.config live.reducer live.journal) :=
    ⟨rfl, rfl, rfl, husable.symm⟩
  refine ⟨resumed live.config live.reducer live.journal, ?_, hsame, ?_⟩
  · refine hreachable.replay_eq husable (hopen.trans (LawfulJournal.open_of_count hcount)) ?_ ?_
    · rw [hrunId]
      exact hexpected
    · intro hnone
      rw [List.nil_append] at hnone
      exact absurd hnone hsome
  · intro events
    exact ⟨(hsame.run events).1.symm, (hsame.run events).2⟩

end Replays

open Platform in
/-- A replay of the trade. -/
theorem DeterministicEventEngine.replay_of_run_dayTrade :
    ∃ engine live replayed : DeterministicEventEngine ℚ InMemoryJournal,
      DeterministicEventEngine.create "run" dayArgs (.owned id) = .ok engine ∧
      (Machine.run EngineCall.step engine ((dayLog 8).map .process)).2 = live ∧
      DeterministicEventEngine.replay live.journal dayArgs (some "run") = .ok replayed ∧
      live.reducer = dayState 8 ∧ SameState live replayed := by
  obtain ⟨engine, live, hcreate, hvalid, hrun, -, hreducer, hready⟩ :=
    exists_run_of_history create_dayConfig create_dayJournal create_dayLedger
      (history_dayTrade 8 (by decide)) roomy_dayJournal
  have hwork : ∀ call ∈ (dayLog 8).map EngineCall.process, call.IsWork := by
    intro call hcall
    obtain ⟨event, -, rfl⟩ := List.mem_map.mp hcall
    trivial
  have hexpected : ∀ id ∈ some "run", id = "run" := by simp
  obtain ⟨replayed, hreplay, hsame, -⟩ := DeterministicEventEngine.replay_of_run hcreate hvalid
    hwork hrun (by simp [dayLog, dayTrade]) hready.usable hexpected
  exact ⟨engine, live, replayed, hcreate, by rw [hrun], hreplay, hreducer, hsame⟩

end SignalFoundry

namespace SignalFoundry

open EventSourcing Fallible

section Recovery

variable {F J : Type} [PyRuntime] [PyFloat F] [FloatText F]

/-! ## Planning does not ask for recovery -/

/-- The exceptions that are not `EngineRecoveryRequiredError`. -/
def EngineException.IsOrdinary : EngineException → Prop
  | .engine error => error.errorClass ≠ .recoveryRequired
  | .journal _ => True
  | .python _ => True

/-- A computation that does not raise `EngineRecoveryRequiredError`. -/
abbrev Ordinary {α : Type} (x : Except EngineException α) : Prop :=
  Raises EngineException.IsOrdinary x

section Guards

omit [PyRuntime]

theorem ordinary_refuse {refused : Prop} [Decidable refused] {e : EngineException}
    (h : e.IsOrdinary) : Ordinary (refuse refused e) :=
  .refuseIf h

theorem ordinary_fromPython {α : Type} (x : Except PyError α) : Ordinary (fromPython x) :=
  .mapError (fun _ => trivial) x

end Guards

namespace Reducer

variable (config : EngineConfig) (reducer : Reducer F) (event : ExecutionEvent F)
  (parent : Option EventReference)

theorem ordinary_requireEvent : Ordinary (config.requireEvent event) := by
  refine .bind (ordinary_refuse nofun) fun _ => ?_
  split
  · exact .error nofun
  · exact ordinary_refuse nofun

theorem ordinary_checkCause (cause : EventReference) : Ordinary (checkCause event cause) := by
  refine .bind (ordinary_refuse nofun) fun _ => .bind (ordinary_refuse nofun) fun _ => .bind (ordinary_refuse nofun)
    fun _ => .bind ?_ fun _ => .bind (ordinary_refuse nofun) fun _ => ordinary_refuse nofun
  unfold checkSubmissionCause
  split
  · exact .bind (ordinary_refuse nofun) fun _ => ordinary_refuse nofun
  · exact .ok ()

theorem ordinary_validateCausation : Ordinary (reducer.validateCausation event) := by
  unfold validateCausation
  split
  · exact .bind (ordinary_refuse nofun) fun _ => .ok _
  · split
    · exact .error nofun
    · exact .bind (ordinary_checkCause event _) fun _ => .ok _

theorem ordinary_requireOrder (orderId : String) :
    Ordinary (reducer.requireOrder orderId parent event) := by
  unfold requireOrder
  split
  · exact .error nofun
  · exact .bind (ordinary_refuse nofun) fun _ => .bind (ordinary_refuse nofun) fun _ => .ok _

omit [PyRuntime] [FloatText F] in
theorem ordinary_filledAfter (order : OrderState F) (quantity : F) :
    Ordinary (order.filledAfter quantity) := by
  unfold OrderState.filledAfter
  split
  · exact .error trivial
  · split
    · split
      · exact .ok _
      · exact .error nofun
    · exact .ok _

omit [PyRuntime] [FloatText F] in
theorem ordinary_checkReferencePrice (payload : FillApplied F) :
    Ordinary (reducer.checkReferencePrice payload) := by
  unfold checkReferencePrice
  split
  · exact .error nofun
  · exact .bind (ordinary_fromPython _) fun _ => ordinary_refuse nofun

theorem ordinary_planFill (payload : FillApplied F) :
    Ordinary (reducer.planFill event parent payload) :=
  .bind (reducer.ordinary_requireOrder event parent _) fun _ => .bind (ordinary_refuse nofun) fun _ =>
    .bind (ordinary_refuse nofun) fun _ => .bind (reducer.ordinary_checkReferencePrice _) fun _ =>
      .bind (ordinary_filledAfter _ _) fun _ => .bind (ordinary_fromPython _) fun _ =>
        .bind (ordinary_fromPython _) fun _ => .bind (ordinary_fromPython _) fun _ =>
          .bind (ordinary_fromPython _) fun _ => .ok _

theorem ordinary_planMarked (payload : PortfolioMarked F) :
    Ordinary (reducer.planMarked event payload) := by
  refine .bind ?_ fun _ => .bind (ordinary_fromPython _) fun portfolio => ?_
  · unfold checkMarkOrder
    split
    · exact .bind (ordinary_refuse nofun) fun _ => ordinary_refuse nofun
    · exact .bind (ordinary_refuse nofun) fun _ => .bind (ordinary_refuse nofun) fun _ => ordinary_refuse nofun
  · split
    · exact .error trivial
    · exact .bind (.forM _ fun _ => .bind (ordinary_fromPython _) fun _ => ordinary_refuse nofun) fun _ => .ok _

theorem ordinary_planTransition : Ordinary (reducer.planTransition config event parent) := by
  unfold planTransition
  split
  case h_1 =>
    exact .bind (ordinary_refuse nofun) fun _ => .bind (ordinary_refuse nofun) fun _ => .bind (ordinary_refuse nofun)
      fun _ => .bind (ordinary_refuse nofun) fun _ => .bind (ordinary_refuse nofun) fun _ => .ok _
  case h_2 =>
    exact .bind (reducer.ordinary_requireOrder event parent _) fun _ => .bind (ordinary_refuse nofun)
      fun _ => .bind (ordinary_refuse nofun) fun _ => .ok _
  case h_3 =>
    exact .bind (reducer.ordinary_requireOrder event parent _) fun _ => .bind (ordinary_refuse nofun)
      fun _ => .ok _
  case h_4 => exact reducer.ordinary_planFill event parent _
  case h_5 =>
    exact .bind (reducer.ordinary_requireOrder event parent _) fun _ => .bind (ordinary_refuse nofun)
      fun _ => .bind (ordinary_refuse nofun) fun _ => .ok _
  case h_6 =>
    exact .bind (ordinary_refuse nofun) fun _ => .bind (ordinary_refuse nofun) fun _ => .bind (ordinary_refuse nofun)
      fun _ => .bind (ordinary_fromPython _) fun _ => .bind (ordinary_fromPython _) fun _ =>
        .bind (ordinary_fromPython _) fun _ => .ok _
  case h_7 => exact reducer.ordinary_planMarked event _
  case h_8 => exact .bind (ordinary_refuse nofun) fun _ => .bind (ordinary_refuse nofun) fun _ => .ok _
  all_goals exact .bind (ordinary_refuse nofun) fun _ => .ok _

theorem ordinary_plan : Ordinary (reducer.plan config event) := by
  refine .bind (ordinary_requireEvent config event) fun _ => ?_
  split
  · exact .bind (ordinary_refuse nofun) fun _ => .ok _
  · refine .bind ?_ fun _ => .ok _
    refine .bind (ordinary_refuse nofun) fun _ => .bind (ordinary_refuse nofun) fun _ => .bind (ordinary_refuse nofun)
      fun _ => .bind (ordinary_refuse nofun) fun _ => .bind (reducer.ordinary_validateCausation event)
        fun parent => .bind (ordinary_refuse nofun) fun _ => .bind (ordinary_refuse nofun) fun _ => ?_
    intro e he
    -- The translation keeps what the transition raises, or makes it a transition error.
    obtain ⟨raised, hraised, rfl⟩ := mapError_eq_error_iff.mp he
    have hordinary := reducer.ordinary_planTransition config event parent raised hraised
    unfold translateAccounting
    split
    · trivial
    · exact nofun
    · exact hordinary

end Reducer

/-! ## An engine that needs recovery -/

variable [Journal F J]

/-- Every call that works with events and every accounting read raises, and the
calls change nothing. -/
structure Unusable (engine : DeterministicEventEngine F J) : Prop where
  submit : ∀ event, ∃ e, engine.submit event = .error e
  drain : ∀ maximum, ∃ e, engine.drain maximum = ⟨[], some e, engine⟩
  process : ∀ event, ∃ e, engine.process event = (.error e, engine)
  positions : ∃ e, engine.positions = .error e
  cash : ∃ e, engine.cash = .error e
  totalCharges : ∃ e, engine.totalCharges = .error e
  valuePortfolio : ∀ session prices, ∃ e, engine.valuePortfolio session prices = .error e
  targetOrders : ∀ weights prices, ∃ e, engine.targetOrders weights prices = .error e

theorem unusable {engine : DeterministicEventEngine F J} (h : engine.recoveryRequired = true) :
    Unusable engine := by
  have hraises : engine.requireUsable = .error _ := refuseIf_of h
  constructor
  · intro event
    exact ⟨_, by rw [DeterministicEventEngine.submit, hraises, error_bind]⟩
  · intro maximum
    exact ⟨_, by rw [DeterministicEventEngine.drain, hraises, error_bind]⟩
  · intro event
    exact ⟨_, by rw [DeterministicEventEngine.process, hraises, error_bind]⟩
  · exact ⟨_, by rw [DeterministicEventEngine.positions, hraises, error_bind]⟩
  · exact ⟨_, by rw [DeterministicEventEngine.cash, hraises, error_bind]⟩
  · exact ⟨_, by rw [DeterministicEventEngine.totalCharges, hraises, error_bind]⟩
  · intro session prices
    exact ⟨_, by rw [DeterministicEventEngine.valuePortfolio, hraises, error_bind]⟩
  · intro weights prices
    exact ⟨_, by rw [DeterministicEventEngine.targetOrders, hraises, error_bind]⟩

/-- No call makes an engine usable again. -/
theorem recoveryRequired_step {engine : DeterministicEventEngine F J} (call : EngineCall F)
    (h : engine.recoveryRequired = true) :
    (EngineCall.step engine call).2.recoveryRequired = true := by
  show (call.run engine).engine.recoveryRequired = true
  cases call with
  | submit event =>
      obtain ⟨e, he⟩ := (unusable h).submit event
      simpa only [EngineCall.run, he] using h
  | drain maximum =>
      obtain ⟨e, he⟩ := (unusable h).drain maximum
      simpa only [EngineCall.run, he] using h
  | process event =>
      obtain ⟨e, he⟩ := (unusable h).process event
      simpa only [EngineCall.run, he] using h
  | close =>
      have hclosed : (EngineCall.close.run engine).engine = engine.close := rfl
      rw [hclosed]
      rcases close_cases engine with hsame | hsame <;> rw [hsame] <;> exact h

theorem unusable_run {engine : DeterministicEventEngine F J} (h : engine.recoveryRequired = true)
    (calls : List (EngineCall F)) : Unusable (Machine.run EngineCall.step engine calls).2 :=
  unusable (Machine.invariant_run (P := (DeterministicEventEngine.recoveryRequired · = true))
    (fun _ call => recoveryRequired_step call) h calls)

/-! ## What a call of `process` leaves behind -/

/-- What `process` did: nothing when it raised an ordinary exception or found a
duplicate; otherwise the journal was asked to store the event. -/
inductive ProcessOutcome (engine : DeterministicEventEngine F J) (event : ExecutionEvent F) :
    Except EngineException Bool → DeterministicEventEngine F J → Prop
  | unusable {message : String} (hunusable : engine.recoveryRequired = true) :
      ProcessOutcome engine event (.error (.recoveryRequired message)) engine
  | refused {e : EngineException} (hordinary : e.IsOrdinary) :
      ProcessOutcome engine event (.error e) engine
  | duplicate : ProcessOutcome engine event (.ok false) engine
  | uncertain {message : String} {transition : PlannedTransition F}
      {result : Except JournalError Bool} {journal : J}
      (husable : engine.recoveryRequired = false)
      (hplan : engine.reducer.plan engine.config event = .ok (some transition))
      (happend : Journal.append engine.journal event = (result, journal))
      (hresult : result ≠ .ok true) :
      ProcessOutcome engine event (.error (.recoveryRequired message)) (engine.poison journal)
  | committed {transition : PlannedTransition F} {journal : J}
      (husable : engine.recoveryRequired = false)
      (hplan : engine.reducer.plan engine.config event = .ok (some transition))
      (happend : Journal.append engine.journal event = (.ok true, journal)) :
      ProcessOutcome engine event (.ok true) (engine.publish journal event transition)

theorem processOutcome (engine : DeterministicEventEngine F J) (event : ExecutionEvent F) :
    ProcessOutcome engine event (engine.process event).1 (engine.process event).2 := by
  by_cases hrequired : engine.recoveryRequired = true
  · have hraises : engine.requireUsable = .error _ := refuseIf_of hrequired
    rw [DeterministicEventEngine.process, hraises, error_bind]
    exact .unusable hrequired
  have husable : engine.recoveryRequired = false := Bool.eq_false_iff.mpr hrequired
  have hpasses : engine.requireUsable = .ok () := refuseIf_of_not hrequired
  rw [DeterministicEventEngine.process, hpasses, ok_bind]
  cases hevent : engine.config.requireEvent event with
  | error e => exact .refused (Reducer.ordinary_requireEvent engine.config event e hevent)
  | ok u =>
      have hprocessed := processed engine event
      dsimp only
      generalize (engine.processEvent event).1 = outcome at hprocessed
      generalize (engine.processEvent event).2 = next at hprocessed
      cases hprocessed with
      | @refused e hplan =>
          exact .refused (engine.reducer.ordinary_plan engine.config event e hplan)
      | duplicate _ => exact .duplicate
      | failed hplan happend =>
          exact .uncertain husable hplan happend fun heq => by cases heq
      | alreadyStored hplan happend =>
          exact .uncertain husable hplan happend fun heq => by cases heq
      | committed hplan happend => exact .committed husable hplan happend

theorem process_of_failed_append {engine : DeterministicEventEngine F J}
    {event : ExecutionEvent F} {transition : PlannedTransition F} {error : JournalError}
    {journal : J} (husable : engine.recoveryRequired = false)
    (hplan : engine.reducer.plan engine.config event = .ok (some transition))
    (happend : Journal.append engine.journal event = (.error error, journal)) :
    engine.process event = (.error (.recoveryRequired
      "journal append failed; in-memory state is non-publishable"), engine.poison journal) := by
  obtain ⟨parent, haccepted⟩ := accepted_of_plan hplan
  have hchecks : engine.config.requireEvent event = .ok () :=
    (requireEvent_eq_ok_iff (u := ())).mpr ⟨haccepted.runId, haccepted.inCalendar⟩
  have hpasses : engine.requireUsable = .ok () := requireUsable_eq_ok_iff.mpr husable
  simp only [DeterministicEventEngine.process, hpasses, ok_bind, hchecks,
    DeterministicEventEngine.processEvent, hplan, happend]

section Lawful

variable [LawfulJournal F J]

/-- The journals over which an engine that needs recovery is replayed: sound and
open, with the same events. -/
structure Reopened (journal reopened : J) : Prop where
  sound : LawfulJournal.Sound F reopened
  isOpen : LawfulJournal.isOpen F reopened = true
  stored : LawfulJournal.stored (F := F) reopened = LawfulJournal.stored journal

/-- A replay gives the state before an event or the state after it. -/
def ReplaysAround (args : EngineArgs F) (engine : DeterministicEventEngine F J) (journal : J)
    (event : ExecutionEvent F) : Prop :=
  ∃ transition, engine.reducer.plan engine.config event = .ok (some transition) ∧
    ∀ reopened, Reopened (F := F) journal reopened →
      DeterministicEventEngine.replay reopened args (some engine.config.runId) =
          .ok (resumed engine.config engine.reducer reopened) ∨
        DeterministicEventEngine.replay reopened args (some engine.config.runId) =
          .ok (resumed engine.config (engine.reducer.publish event transition) reopened)

/-- The state of an engine and its journal after `process`. -/
structure CrashConsistent (args : EngineArgs F) (engine : DeterministicEventEngine F J)
    (event : ExecutionEvent F) (outcome : Except EngineException Bool)
    (next : DeterministicEventEngine F J) : Prop where
  unusable : ∀ message, outcome = .error (.recoveryRequired message) → ∀ calls,
    Unusable (Machine.run EngineCall.step next calls).2
  replays : ∀ message, outcome = .error (.recoveryRequired message) →
    ∃ failed, (engine.recoveryRequired = false → failed = event) ∧
      ReplaysAround args engine next.journal failed
  unchanged : ∀ error, outcome = .error (.engine error) → error.errorClass ≠ .recoveryRequired →
    next.reducer = engine.reducer ∧ next.journal = engine.journal
  grown : outcome = .ok true →
    LawfulJournal.stored next.journal = LawfulJournal.stored engine.journal ++ [event]

variable {args : EngineArgs F} {engine : DeterministicEventEngine F J}
  {log : List (ExecutionEvent F)}

/-- A journal that holds the log of an engine, or that log and one more event,
replays to the state before that event or after it. -/
theorem Reachable.replaysAround (h : Reachable (LawfulJournal.Sound F) args engine log)
    {journal : J} {failed : ExecutionEvent F} {transition : PlannedTransition F}
    (hplan : engine.reducer.plan engine.config failed = .ok (some transition))
    (hstored : LawfulJournal.stored journal = log ∨
      LawfulJournal.stored journal = log ++ [failed]) :
    ReplaysAround args engine journal failed := by
  obtain ⟨ledger, hconfig, hallowed, hledger, hhistory⟩ := h.origin
  have hafter : History engine.config ledger (log ++ [failed])
      (engine.reducer.publish failed transition) :=
    hhistory.append (.single (apply_eq_some_iff.mpr ⟨_, hplan, rfl⟩))
  refine ⟨transition, hplan, fun reopened hreopened => ?_⟩
  have hrun : ∀ runId ∈ some engine.config.runId, runId = engine.config.runId :=
    fun runId hrunId => (Option.mem_some_iff.mp hrunId).symm
  rcases hstored with hbefore | hextended
  · exact .inl (replay_of_history hconfig hallowed hledger hhistory hreopened.sound
      hreopened.isOpen (hreopened.stored.trans hbefore) hrun nofun)
  · exact .inr (replay_of_history hconfig hallowed hledger hafter hreopened.sound
      hreopened.isOpen (hreopened.stored.trans hextended) hrun nofun)

/-- Whatever an append does, `process` leaves the engine and its journal crash
consistent. -/
theorem Reachable.crashConsistent (h : Reachable (LawfulJournal.Sound F) args engine log)
    (event : ExecutionEvent F) :
    CrashConsistent args engine event (engine.process event).1 (engine.process event).2 := by
  have hsynced := h.synced
  have houtcome := processOutcome engine event
  generalize (engine.process event).1 = outcome at houtcome
  generalize (engine.process event).2 = next at houtcome
  cases houtcome with
  | unusable hunusable =>
      refine ⟨fun _ _ => unusable_run hunusable, fun _ _ => ?_, ?_, nofun⟩
      · obtain ⟨failed, transition, hplan, hstored⟩ := hsynced.uncertain hunusable
        exact ⟨failed, fun husable => absurd (husable.symm.trans hunusable) Bool.false_ne_true,
          h.replaysAround hplan hstored⟩
      · rintro error ⟨⟩ hother
        exact absurd rfl hother
  | refused hordinary =>
      refine ⟨?_, ?_, fun _ _ _ => ⟨rfl, rfl⟩, nofun⟩ <;> rintro message ⟨⟩ <;>
        exact absurd rfl hordinary
  | duplicate => exact ⟨nofun, nofun, nofun, nofun⟩
  | @uncertain _ transition result journal husable hplan happend hresult =>
      refine ⟨fun _ _ => unusable_run rfl, fun _ _ => ⟨event, fun _ => rfl, ?_⟩, ?_, nofun⟩
      · obtain ⟨-, -, hstored⟩ := LawfulJournal.append hsynced.sound event
        rw [happend, hsynced.usable husable] at hstored
        refine h.replaysAround hplan ?_
        rcases hstored with ⟨hsame, -, -⟩ | hextended
        · exact .inl hsame
        · exact .inr hextended
      · rintro error ⟨⟩ hother
        exact absurd rfl hother
  | committed husable hplan happend =>
      refine ⟨nofun, nofun, nofun, fun _ => ?_⟩
      obtain ⟨-, -, hstored⟩ := LawfulJournal.append hsynced.sound event
      rw [happend] at hstored
      rcases hstored with ⟨-, hnot, -⟩ | hextended
      · exact absurd rfl hnot
      · exact hextended

end Lawful

section Closed

variable [Json.LawfulFloatText F] {journal : InMemoryJournal}

omit [PyRuntime] [PyFloat F] [FloatText F] [Journal F J] [Json.LawfulFloatText F] in
/-- A closed journal refuses every call. -/
theorem checkOpen_of_closed (h : journal.closed = true) :
    journal.checkOpen = .error ⟨.closed, "journal is closed"⟩ :=
  refuseIf_of h

theorem append_of_closed (h : journal.closed = true) (event : ExecutionEvent F)
    (hid : 64 ≤ journal.limits.maxEventIdBytes.1)
    (hsize : maxCanonicalBytes ≤ journal.limits.maxEventBytes.1) :
    Journal.append journal event = (.error ⟨.closed, "journal is closed"⟩, journal) := by
  have hbytes : event.canonicalBytes.length ≤ journal.limits.maxEventBytes.1 :=
    le_trans event.size_le hsize
  show journal.appendStep event = _
  rw [InMemoryJournal.appendStep, InMemoryJournal.append,
    InMemoryJournal.canonicalEvent_of_le hid hbytes, ok_bind,
    InMemoryJournal.decodeEvent_canonicalBytes, ok_bind, InMemoryJournal.store,
    checkOpen_of_closed h, error_bind]

omit [Json.LawfulFloatText F] in
/-- A closed journal is not replayed. -/
theorem replay_of_closed (h : journal.closed = true) (args : EngineArgs F)
    (expectedRunId : Option String) :
    DeterministicEventEngine.replay journal args expectedRunId =
      .error (.journal ⟨.closed, "journal is closed"⟩) := by
  have hevents : (Journal.events journal : Except JournalError (List (ExecutionEvent F))) =
      .error ⟨.closed, "journal is closed"⟩ := by
    show journal.events F = _
    rw [InMemoryJournal.events, InMemoryJournal.exportCanonical, checkOpen_of_closed h, error_bind,
      error_bind]
  unfold DeterministicEventEngine.replay
  rw [hevents]
  rfl

end Closed

end Recovery

section ClosedJournal

open Platform

/-- The first event of the trade is planned by a new engine. -/
theorem exists_plan_openEvent : ∃ transition,
    (Reducer.initial dayLedger).plan dayConfig openEvent = .ok (some transition) := by
  have hfirst : History dayConfig dayLedger [openEvent] (dayState 1) :=
    history_dayTrade 1 (by decide)
  rw [← List.nil_append [openEvent]] at hfirst
  obtain ⟨start, hstart, happly⟩ := Committed.snoc_iff.mp hfirst
  rw [Committed.nil_iff.mp hstart] at happly
  obtain ⟨transition, hplan, -⟩ := apply_eq_some_iff.mp happly
  exact ⟨transition, hplan⟩

/-- An engine whose own journal was closed asks for recovery, but its journal cannot
be replayed. -/
theorem closed_journal_not_replayed : ∃ engine : DeterministicEventEngine ℚ InMemoryJournal,
    Reachable (InMemoryJournal.Valid ℚ) dayArgs engine [] ∧ engine.recoveryRequired = false ∧
    (∃ message, (engine.process openEvent).1 = .error (.recoveryRequired message)) ∧
    ∀ expectedRunId, DeterministicEventEngine.replay (engine.process openEvent).2.journal dayArgs
      expectedRunId = .error (.journal ⟨.closed, "journal is closed"⟩) := by
  obtain ⟨hvalid, -, hopen⟩ := InMemoryJournal.valid_of_create (F := ℚ) create_dayJournal
  have hcreate : DeterministicEventEngine.create "run" dayArgs
      (JournalArgument.owned (J := InMemoryJournal) id) = _ :=
    create_of_parts create_dayConfig create_dayJournal rfl create_dayLedger
  have hstart : Reachable (InMemoryJournal.Valid ℚ) dayArgs _ [] := .created hcreate hvalid
  obtain ⟨transition, hplan⟩ := exists_plan_openEvent
  obtain ⟨engine, hengine⟩ : ∃ engine : DeterministicEventEngine ℚ InMemoryJournal, engine =
      { config := dayConfig, reducer := .initial dayLedger, pending := [],
        pendingFingerprints := .empty, journal := dayJournal.close, ownsJournal := true,
        recoveryRequired := false } := ⟨_, rfl⟩
  have hclosed : Reachable (InMemoryJournal.Valid ℚ) dayArgs engine [] :=
    hengine ▸ hstart.called .close
  have hplan' : engine.reducer.plan engine.config openEvent = .ok (some transition) := by
    rw [hengine]
    exact hplan
  have happend : Journal.append engine.journal openEvent =
      (.error ⟨.closed, "journal is closed"⟩, dayJournal.close) := by
    rw [hengine]
    exact append_of_closed rfl openEvent (by decide) (by decide)
  have husable : engine.recoveryRequired = false := by rw [hengine]
  have hprocess := process_of_failed_append husable hplan' happend
  refine ⟨engine, hclosed, husable, ⟨_, by rw [hprocess]⟩, fun expectedRunId => ?_⟩
  rw [hprocess]
  exact replay_of_closed rfl dayArgs expectedRunId

/-- The engine after the trade is crash consistent. -/
theorem crashConsistent_dayTrade : ∃ engine : DeterministicEventEngine ℚ InMemoryJournal,
    engine.reducer = dayState 8 ∧ CrashConsistent dayArgs engine openEvent
      (engine.process openEvent).1 (engine.process openEvent).2 := by
  obtain ⟨engine, hreachable, -, hreducer, -⟩ := exists_reachable_dayTrade
  exact ⟨engine, hreducer, Reachable.crashConsistent (J := InMemoryJournal) hreachable openEvent⟩

end ClosedJournal

end SignalFoundry
