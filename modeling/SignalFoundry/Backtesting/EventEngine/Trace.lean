import Mathlib.Tactic.IntervalCases
import SignalFoundry.Backtesting.EventEngine.Progress
import SignalFoundry.Backtesting.Ledger.Exact

/-!
# Computed histories

The identifiers of events are digests, which no proof should compute more than
once. The checks of `plan` that read no identifier are evaluated on their own, so
a history is computed event by event once the identifiers of its events are known
to differ.
-/

namespace SignalFoundry

open EventSourcing Fallible

section Advance

variable [PyRuntime] {F : Type} [PyFloat F] [FloatText F] {config : EngineConfig}
  {ledger : PortfolioLedger F} {log : List (ExecutionEvent F)} {reducer : Reducer F}
  {event : ExecutionEvent F} {cause : Option (ExecutionEvent F)}

/-- The checks of `plan` on an event with a known cause, when no halt is required:
those that read no identifier of an event. -/
def Reducer.Fits (config : EngineConfig) (reducer : Reducer F) (event : ExecutionEvent F)
    (cause : Option (ExecutionEvent F)) : Bool :=
  (config.requireEvent event).isOk && !reducer.halted && reducer.haltPending.isNone &&
    (cause.isSome || event.payload.requiredCauses.isNone) &&
    (cause.all fun earlier => (checkCause event (.of earlier)).isOk) &&
    (event.payload.identityKey.all fun key => decide (key ∉ reducer.identityOrigins.keys)) &&
    (reducer.planTransition config event (cause.map EventReference.of)).isOk

/-- The state after such an event. -/
def Reducer.advance (config : EngineConfig) (reducer : Reducer F) (event : ExecutionEvent F)
    (cause : Option (ExecutionEvent F)) : Reducer F :=
  match reducer.planTransition config event (cause.map EventReference.of) with
  | .ok transition => reducer.publish event transition
  | .error _ => reducer

omit [PyRuntime] [PyFloat F] [FloatText F] in
theorem exists_of_isOk {ε α : Type} {x : Except ε α} (h : x.isOk = true) : ∃ a, x = .ok a := by
  cases x with
  | error e => cases h
  | ok a => exact ⟨a, rfl⟩

/-- The reference to a committed cause is found. -/
theorem Recorded.get?_references (h : Recorded config log reducer) {earlier : ExecutionEvent F}
    (hmem : earlier ∈ log) :
    reducer.references.get? earlier.eventId = some (.of earlier) := by
  rw [OrderedDict.get?_eq_some_iff, h.references]
  exact List.mem_map_of_mem hmem

/-- An event that fits, follows the log and is new extends a history. -/
theorem History.advance (h : History config ledger log reducer)
    (hfits : reducer.Fits config event cause = true)
    (hcites : event.causationId.map Subtype.val = cause.map fun earlier => earlier.eventId)
    (hcause : ∀ earlier ∈ cause, earlier ∈ log)
    (hfresh : ∀ committed ∈ log, committed.eventId ≠ event.eventId)
    (hlater : ∀ last ∈ log.getLast?, last.coordinate < event.coordinate)
    (hroom : log.length < config.maxEvents.1) :
    History config ledger (log ++ [event]) (reducer.advance config event cause) := by
  simp only [Reducer.Fits, Bool.and_eq_true, Bool.or_eq_true, Bool.not_eq_true',
    Option.isNone_iff_eq_none] at hfits
  obtain ⟨⟨⟨⟨⟨⟨hrequire, hrunning⟩, hpending⟩, hrequired⟩, hchecked⟩, hidentity⟩, hplanned⟩ := hfits
  obtain ⟨_, hrequire⟩ := exists_of_isOk hrequire
  obtain ⟨transition, hplanned⟩ := exists_of_isOk hplanned
  have hrecorded := h.recorded
  have hnew : reducer.fingerprints.get? event.eventId = none := by
    rw [OrderedDict.get?_eq_none_iff, hrecorded.mem_fingerprints_iff]
    rintro ⟨committed, hmem, hsame⟩
    exact hfresh committed hmem hsame
  have hsize : ¬ (reducer.fingerprints.size ≥ config.maxEvents.1) := by
    rw [OrderedDict.size, hrecorded.fingerprints, List.length_map]
    exact not_le.mpr hroom
  have hcursor : ¬ ∃ cursor ∈ reducer.cursor, eventSortKey event ≤ cursor := by
    rintro ⟨cursor, hcursor, hle⟩
    rw [hrecorded.cursor, Option.mem_def, Option.map_eq_some_iff] at hcursor
    obtain ⟨last, hlast, rfl⟩ := hcursor
    exact absurd hle (not_le.mpr (Prod.Lex.toLex_lt_toLex.mpr (.inl (hlater last hlast))))
  have hparent : reducer.validateCausation event = .ok (cause.map EventReference.of) := by
    cases cause with
    | none =>
        rw [Option.map_none, Option.map_eq_none_iff] at hcites
        have hnone : event.payload.requiredCauses.isNone = true := by simpa using hrequired
        rw [Reducer.validateCausation, hcites]
        dsimp only
        rw [refuse_of_not (by simpa using hnone), ok_bind, pure_eq_ok, Option.map_none]
    | some earlier =>
        obtain ⟨causeId, hid, hsame⟩ := Option.map_eq_some_iff.mp hcites
        obtain ⟨_, hcheck⟩ := exists_of_isOk (by simpa using hchecked)
        rw [Reducer.validateCausation, hid]
        dsimp only
        rw [hsame, hrecorded.get?_references (hcause earlier rfl)]
        dsimp only
        rw [hcheck, ok_bind, pure_eq_ok, Option.map_some]
  have hkeys : ¬ ∃ key ∈ event.payload.identityKey, key ∈ reducer.identityOrigins.keys := by
    rintro ⟨key, hkey, hmem⟩
    rw [Option.mem_def.mp hkey] at hidentity
    simp [hmem] at hidentity
  have hplan : reducer.plan config event = .ok (some transition) := by
    rw [Reducer.plan, hrequire, ok_bind, hnew]
    dsimp only
    rw [Reducer.planNew, refuse_of_not hsize, ok_bind, refuse_of_not hcursor, ok_bind,
      refuse_of_not (by simp [hrunning]), ok_bind, refuse_of_not (by simp [hpending]), ok_bind,
      hparent, ok_bind, refuse_of_not (by simp [hpending]), ok_bind, refuse_of_not hkeys, ok_bind,
      hplanned]
    rfl
  have hnext : reducer.advance config event cause = reducer.publish event transition := by
    rw [Reducer.advance, hplanned]
  rw [hnext]
  exact h.append (.single (apply_eq_some_iff.mpr ⟨transition, hplan, rfl⟩))

end Advance

section DayTrade

open Platform

def firstDay : PyDate := .date 2024 1 2

def secondDay : PyDate := .date 2024 1 3

def firstBar : { n : ℕ // n ≤ maxBarIndex } := ⟨0, by decide⟩

def secondBar : { n : ℕ // n ≤ maxBarIndex } := ⟨1, by decide⟩

def dayPrice : BoundedFloat ℚ priceBound := ⟨10, rfl, by decide, by decide, by decide, by decide⟩

def daySize : BoundedFloat ℚ quantityBound := ⟨2, rfl, by decide, by decide, by decide, by decide⟩

def zeroDigest : Digest :=
  ⟨"0000000000000000000000000000000000000000000000000000000000000000", by decide⟩

theorem isIdentifier_run : EventText.isIdentifier "run" = true := by decide

/-- An event of the run `run` on one of its two bars. -/
def dayFields (session : PyDate) (barIndex : { n : ℕ // n ≤ maxBarIndex }) (phase : EventPhase)
    (payload : EventPayload ℚ) (cause : Option Digest)
    (ordinal : { n : ℕ // n ≤ maxPhaseOrdinal } := ⟨0, by decide⟩) : EventFields ℚ where
  runId := ⟨"run", isIdentifier_run⟩
  correlationId := ⟨"run", isIdentifier_run⟩
  entityId := ⟨"A", by decide⟩
  coordinate := { session, barIndex, phase, ordinal }
  payload := payload
  causationId := cause

/-- The mark of a portfolio that holds only cash. -/
def cashMark (markId : Identifier) (markType : MarkType) : EventPayload ℚ :=
  .portfolioMarked {
    markId := markId
    markType := markType
    prices := ⟨[(⟨"A", by decide⟩, dayPrice)], by decide⟩
    cash := ⟨100, rfl, by decide, by decide, by decide, by decide⟩
    holdingsValue := ⟨0, rfl, by decide, by decide, by decide, by decide⟩
    accruedCharges := ⟨0, rfl, by decide, by decide, by decide, by decide⟩
    equity := ⟨100, rfl, by decide, by decide, by decide, by decide⟩
    prices_length := by decide
    reconciled := by decide +kernel }

def openFields : EventFields ℚ :=
  dayFields firstDay firstBar .openMark (cashMark ⟨"a", by decide⟩ .open) none

def closeFields : EventFields ℚ :=
  dayFields firstDay firstBar .closeMark (cashMark ⟨"b", by decide⟩ .close) none

def signalFields : EventFields ℚ :=
  dayFields firstDay firstBar .signal
    (.signalAvailable ⟨⟨"s", by decide⟩, ⟨"m", by decide⟩, zeroDigest⟩) none

def targetFields : EventFields ℚ :=
  dayFields firstDay firstBar .targetDecision (.targetDecided {
    targetId := ⟨"t", by decide⟩
    portfolioId := ⟨"p", by decide⟩
    solverId := ⟨"p", by decide⟩
    eligibleSession := secondDay
    cashWeight := ⟨0, rfl, by decide, by decide, by decide, by decide⟩
    weights := ⟨[(⟨"A", by decide⟩, ⟨1, rfl, by decide, by decide, by decide, by decide⟩)],
      by decide⟩
    configurationDigest := zeroDigest
    dataDigest := zeroDigest
    problemDigest := zeroDigest
    weights_length := by decide
    reconciled := by decide +kernel })
    (some ⟨"31296eaada86b830afd7bd77a4f93d2fc017d583e51b46d3c82d3eb4b2c9d73f", by decide⟩)

def nextOpenFields : EventFields ℚ :=
  dayFields secondDay secondBar .openMark (cashMark ⟨"c", by decide⟩ .open) none

def submissionFields : EventFields ℚ :=
  dayFields secondDay secondBar .orderSubmission (.orderSubmitted {
    orderId := ⟨"o", by decide⟩
    symbol := ⟨"A", by decide⟩
    side := .buy
    quantity := daySize
    orderType := .market
    timeInForce := .day
    limitPrice := none
    limitPrice_isSome := by decide })
    (some ⟨"728c7d00b02a9bb9fbd2076261dcdde271153f04850c74ae8a7f12c4f0b36a6b", by decide⟩)

def acceptanceFields : EventFields ℚ :=
  dayFields secondDay secondBar .execution (.orderAccepted ⟨⟨"o", by decide⟩, daySize⟩)
    (some ⟨"75ed26cb6059ce036a3b93b2f866508cbf8df331271888a5464c2a8e954a96ed", by decide⟩)

def fillFields : EventFields ℚ :=
  dayFields secondDay secondBar .execution (.fillApplied {
    fillId := ⟨"f", by decide⟩
    orderId := ⟨"o", by decide⟩
    symbol := ⟨"A", by decide⟩
    side := .buy
    quantity := daySize
    referencePrice := dayPrice
    price := dayPrice
    fees := ⟨[], by decide⟩
    notional_bounded := by decide +kernel
    fees_length := by decide
    fees_bounded := by decide +kernel })
    (some ⟨"30e3c5fd05338512ef68f7820ab9935a6e06930148d70201b263dfb89b0b8fab", by decide⟩)
    ⟨1, by decide⟩

-- one computation a theorem: a digest is the costly part of a check
set_option maxRecDepth 100000 in
theorem hasId_openFields : openFields.HasId
    "aed1a96a30ca4df6534ad27a259ed7b1aa33e3f35abdc6c6cc3257b48f71a83b" := by
  decide +kernel

def openEvent : ExecutionEvent ℚ where
  toEventFields := openFields
  phase_eq := rfl
  eligible := by decide +kernel
  size_le := hasId_openFields.size_le

set_option maxRecDepth 100000 in
theorem hasId_closeFields : closeFields.HasId
    "87d7dd68bfb82503e774c6c299546bd9054777600bf798e2fe3690ad3da288d0" := by
  decide +kernel

def closeEvent : ExecutionEvent ℚ where
  toEventFields := closeFields
  phase_eq := rfl
  eligible := by decide +kernel
  size_le := hasId_closeFields.size_le

set_option maxRecDepth 100000 in
theorem hasId_signalFields : signalFields.HasId
    "31296eaada86b830afd7bd77a4f93d2fc017d583e51b46d3c82d3eb4b2c9d73f" := by
  decide +kernel

def signalEvent : ExecutionEvent ℚ where
  toEventFields := signalFields
  phase_eq := rfl
  eligible := by decide +kernel
  size_le := hasId_signalFields.size_le

set_option maxRecDepth 100000 in
theorem hasId_targetFields : targetFields.HasId
    "728c7d00b02a9bb9fbd2076261dcdde271153f04850c74ae8a7f12c4f0b36a6b" := by
  decide +kernel

def targetEvent : ExecutionEvent ℚ where
  toEventFields := targetFields
  phase_eq := rfl
  eligible := by decide +kernel
  size_le := hasId_targetFields.size_le

set_option maxRecDepth 100000 in
theorem hasId_nextOpenFields : nextOpenFields.HasId
    "4b47d0afbc52bf6fc5bf1f57d7ac061f4f7be4688ca0206de819769c7831e89c" := by
  decide +kernel

def nextOpenEvent : ExecutionEvent ℚ where
  toEventFields := nextOpenFields
  phase_eq := rfl
  eligible := by decide +kernel
  size_le := hasId_nextOpenFields.size_le

set_option maxRecDepth 100000 in
theorem hasId_submissionFields : submissionFields.HasId
    "75ed26cb6059ce036a3b93b2f866508cbf8df331271888a5464c2a8e954a96ed" := by
  decide +kernel

def submissionEvent : ExecutionEvent ℚ where
  toEventFields := submissionFields
  phase_eq := rfl
  eligible := by decide +kernel
  size_le := hasId_submissionFields.size_le

set_option maxRecDepth 100000 in
theorem hasId_acceptanceFields : acceptanceFields.HasId
    "30e3c5fd05338512ef68f7820ab9935a6e06930148d70201b263dfb89b0b8fab" := by
  decide +kernel

def acceptanceEvent : ExecutionEvent ℚ where
  toEventFields := acceptanceFields
  phase_eq := rfl
  eligible := by decide +kernel
  size_le := hasId_acceptanceFields.size_le

set_option maxRecDepth 100000 in
theorem hasId_fillFields : fillFields.HasId
    "eaa58f826a6b0c86082f8c33274930a0eedc49bae485dfa9041370bcab68185b" := by
  decide +kernel

def fillEvent : ExecutionEvent ℚ where
  toEventFields := fillFields
  phase_eq := rfl
  eligible := by decide +kernel
  size_le := hasId_fillFields.size_le

def dayArgs : EngineArgs ℚ where
  calendar := [firstDay, secondDay]
  initialCash := 100
  maxEvents := 9
  maxPendingEvents := 9
  maxOrders := 9
  maxOpenOrders := 9

def dayConfig : EngineConfig where
  runId := "run"
  calendar := ⟨[firstDay, secondDay], by decide +kernel, by decide, by decide⟩
  maxEvents := ⟨9, by decide⟩
  maxPending := ⟨9, by decide⟩
  maxOrders := ⟨9, by decide⟩
  maxOpenOrders := ⟨9, by decide, by decide⟩
  runId_nonblank := by decide

theorem create_dayConfig : EngineConfig.create "run" dayArgs = .ok dayConfig := rfl

def dayLedger : PortfolioLedger ℚ where
  initialCash := 100
  cash := 100
  positions := .empty
  averageCosts := .empty
  realizedPnlBySymbol := .empty
  charges _ := 0

theorem create_dayLedger : PortfolioLedger.create (100 : ℚ) = .ok dayLedger := by
  simp [PortfolioLedger.create, dayLedger, refuseIf, Ledger.finiteFloat_rat]

def dayJournal : InMemoryJournal where
  limits := {
    maxEvents := ⟨9, by decide⟩
    maxEventBytes := ⟨4 * 1024 * 1024, by decide⟩
    maxTotalPayloadBytes := ⟨512 * 1024 * 1024, by decide⟩
    maxEventIdBytes := ⟨512, by decide⟩ }
  records := []
  indices := .empty
  totalPayloadBytes := 0
  closed := false
  eventHash_length := InMemoryJournal.eventHash_length_nil

theorem create_dayJournal : InMemoryJournal.create 9 defaultMaxEventBytes
    defaultMaxTotalPayloadBytes defaultMaxEventIdBytes = .ok dayJournal := rfl

/-- The trade: a decision after the close of the first day is filled on the second. -/
def dayTrade : List (ExecutionEvent ℚ × Option (ExecutionEvent ℚ)) := [
  (openEvent, none), (closeEvent, none), (signalEvent, none), (targetEvent, some signalEvent),
  (nextOpenEvent, none), (submissionEvent, some targetEvent),
  (acceptanceEvent, some submissionEvent), (fillEvent, some acceptanceEvent)]

/-- The state after the first events of the trade. -/
def dayState (n : ℕ) : Reducer ℚ :=
  (dayTrade.take n).foldl (fun reducer step => reducer.advance dayConfig step.1 step.2)
    (.initial dayLedger)

/-- The first events of the trade. -/
def dayLog (n : ℕ) : List (ExecutionEvent ℚ) := (dayTrade.take n).map Prod.fst

set_option maxRecDepth 100000 in
theorem fits_dayState : ∀ n (h : n < dayTrade.length),
    (dayState n).Fits dayConfig dayTrade[n].1 dayTrade[n].2 = true := by
  decide +kernel

theorem cites_dayTrade : ∀ step ∈ dayTrade,
    step.1.causationId.map Subtype.val = step.2.map fun earlier => earlier.eventId := by
  have hsignal : signalEvent.eventId = _ := hasId_signalFields.eventId_eq
  have htarget : targetEvent.eventId = _ := hasId_targetFields.eventId_eq
  have hsubmission : submissionEvent.eventId = _ := hasId_submissionFields.eventId_eq
  have hacceptance : acceptanceEvent.eventId = _ := hasId_acceptanceFields.eventId_eq
  simp only [dayTrade, List.forall_mem_cons, Option.map_some, Option.map_none, hsignal, htarget,
    hsubmission, hacceptance]
  exact ⟨rfl, rfl, rfl, rfl, rfl, rfl, rfl, rfl, List.forall_mem_nil _⟩

theorem nodup_dayTrade : (dayTrade.map fun step => step.1.eventId).Nodup := by
  have hopen : openEvent.eventId = _ := hasId_openFields.eventId_eq
  have hclose : closeEvent.eventId = _ := hasId_closeFields.eventId_eq
  have hsignal : signalEvent.eventId = _ := hasId_signalFields.eventId_eq
  have htarget : targetEvent.eventId = _ := hasId_targetFields.eventId_eq
  have hnextOpen : nextOpenEvent.eventId = _ := hasId_nextOpenFields.eventId_eq
  have hsubmission : submissionEvent.eventId = _ := hasId_submissionFields.eventId_eq
  have hacceptance : acceptanceEvent.eventId = _ := hasId_acceptanceFields.eventId_eq
  have hfill : fillEvent.eventId = _ := hasId_fillFields.eventId_eq
  simp only [dayTrade, List.map_cons, List.map_nil, hopen, hclose, hsignal, htarget, hnextOpen,
    hsubmission, hacceptance, hfill]
  decide +kernel

theorem cause_mem_dayLog : ∀ n (h : n < dayTrade.length),
    ∀ earlier ∈ dayTrade[n].2, earlier ∈ dayLog n := by
  intro n h
  have hn : n < 8 := h
  interval_cases n <;> simp [dayTrade, dayLog]

theorem later_dayLog : ∀ n (h : n < dayTrade.length),
    ∀ last ∈ (dayLog n).getLast?, last.coordinate < dayTrade[n].1.coordinate := by
  intro n h
  have hn : n < 8 := h
  interval_cases n <;> simp [dayTrade, dayLog] <;> decide +kernel

/-- The trade is a history of its configuration. -/
theorem history_dayTrade (n : ℕ) (hn : n ≤ dayTrade.length) :
    History dayConfig dayLedger (dayLog n) (dayState n) := by
  induction n with
  | zero => exact .nil
  | succ n ih =>
      have hlt : n < dayTrade.length := hn
      have htake : dayTrade.take (n + 1) = dayTrade.take n ++ [dayTrade[n]] :=
        List.take_succ_eq_append_getElem hlt
      have hlog : dayLog (n + 1) = dayLog n ++ [dayTrade[n].1] := by
        rw [dayLog, htake, List.map_append]
        rfl
      have hstate : dayState (n + 1) =
          (dayState n).advance dayConfig dayTrade[n].1 dayTrade[n].2 := by
        rw [dayState, htake, List.foldl_append]
        rfl
      have hnodup : ((dayLog n ++ [dayTrade[n].1]).map fun event => event.eventId).Nodup := by
        have hsublist := ((List.take_sublist (n + 1) dayTrade).map fun step => step.1.eventId)
        have htrade := nodup_dayTrade.sublist hsublist
        rw [← hlog, dayLog, List.map_map]
        exact htrade
      rw [List.map_append, List.nodup_append] at hnodup
      rw [hlog, hstate]
      refine (ih hlt.le).advance (fits_dayState n hlt)
        (cites_dayTrade _ (List.getElem_mem hlt)) ?_ ?_ ?_ ?_
      · exact cause_mem_dayLog n hlt
      · intro committed hmem
        exact hnodup.2.2 _ (List.mem_map_of_mem hmem) _ (List.mem_map_of_mem List.mem_cons_self)
      · exact later_dayLog n hlt
      · rw [dayLog, List.length_map]
        exact (List.length_take_le' n dayTrade).trans_lt (by decide)

theorem roomy_dayJournal : dayJournal.Roomy ((dayLog 8).length + 1) :=
  ⟨by decide, by decide, by decide, by decide⟩

/-- An engine that made the trade, and has room for one more event. -/
theorem exists_reachable_dayTrade : ∃ engine : DeterministicEventEngine ℚ InMemoryJournal,
    Reachable (InMemoryJournal.Valid ℚ) dayArgs engine (dayLog 8) ∧ engine.config = dayConfig ∧
      engine.reducer = dayState 8 ∧ Ready engine 1 := by
  exact exists_reachable_of_history create_dayConfig create_dayJournal create_dayLedger
    (history_dayTrade 8 (by decide)) roomy_dayJournal

end DayTrade

end SignalFoundry
