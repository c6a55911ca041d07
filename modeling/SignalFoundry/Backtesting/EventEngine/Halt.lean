import SignalFoundry.Backtesting.EventEngine.Trace

/-!
# Halts

A fill, a charge or a mark that leaves no equity makes a halt pending, with
itself as the cause. While a halt is pending nothing but that halt is accepted,
and nothing at all is accepted after a halt. So a pending halt always belongs to
the last event of the log, which is what makes it happen once.
-/

namespace SignalFoundry

open EventSourcing Fallible PyFloat

section Halts

variable {F : Type} [PyRuntime] [PyFloat F] [FloatText F] {config : EngineConfig}
  {ledger : PortfolioLedger F} {log : List (ExecutionEvent F)} {reducer : Reducer F}

/-- The events that value the portfolio. -/
def EventPayload.isAccounting : EventPayload F → Bool
  | fillApplied _ => true
  | cashChargeAccrued _ => true
  | portfolioMarked _ => true
  | _ => false

omit [FloatText F] in
/-- The flag of a snapshot is its equity. -/
theorem bankrupt_of_snapshot {ledger : PortfolioLedger F} {date : PyDate}
    {prices : OrderedDict String F} {portfolio : LedgerSnapshot F}
    (h : ledger.snapshot date prices = .ok portfolio) :
    portfolio.bankrupt = le portfolio.equity zero := by
  simp only [PortfolioLedger.snapshot, bind_eq_ok_iff, LedgerSnapshot.postInit, pure_eq_ok,
    Except.ok.injEq] at h
  obtain ⟨_, -, _, -, _, -, _, -, _, -, _, -, _, -, _, -, _, -, _, -, _, -, h⟩ := h
  obtain ⟨_, -, _, -, _, -, _, -, _, -, _, -, _, -, _, -, _, -, _, -, _, -, _, -, _, -, _, -, _, -,
    rfl⟩ := h
  rfl

/-- The last event of a log has left no equity. -/
structure LeftBankrupt (log : List (ExecutionEvent F)) (reducer : Reducer F)
    (cause : ExecutionEvent F) : Prop where
  last : log.getLast? = some cause
  accounting : cause.payload.isAccounting = true
  equity : ∃ portfolio ∈ reducer.lastPortfolio, le portfolio.equity zero = true

/-- A pending halt is the one of the last event. -/
def HaltPending (log : List (ExecutionEvent F)) (reducer : Reducer F) : Prop :=
  ∀ reason ∈ reducer.haltPending, reason = "bankruptcy" ∧ ∃ cause,
    LeftBankrupt log reducer cause ∧ reducer.haltCauseEventId = some cause.eventId

section Step

variable {event : ExecutionEvent F} {parent : Option EventReference}
  {transition : PlannedTransition F}

/-- What an accounting event plans: the halt that its own valuation requires. -/
structure Valued (reducer : Reducer F) (transition : PlannedTransition F)
    (portfolio : LedgerSnapshot F) : Prop where
  portfolio_eq : transition.portfolio = some portfolio
  haltPending : transition.haltPending = reducer.haltAfter portfolio
  halted : transition.halted = false
  bankrupt : portfolio.bankrupt = le portfolio.equity zero

theorem Planned.valued (h : Planned config reducer event parent event.payload transition)
    (haccounting : event.payload.isAccounting = true) :
    ∃ portfolio, Valued reducer transition portfolio := by
  generalize event.payload = payload at h haccounting
  cases h with
  | filled _ _ _ _ _ haccounted =>
      exact ⟨_, rfl, rfl, rfl, bankrupt_of_snapshot haccounted.marked⟩
  | charged _ _ _ haccounted =>
      exact ⟨_, rfl, rfl, rfl, bankrupt_of_snapshot haccounted.marked⟩
  | opened _ _ _ hmarked => exact ⟨_, rfl, rfl, rfl, bankrupt_of_snapshot hmarked⟩
  | closed _ _ _ _ hmarked => exact ⟨_, rfl, rfl, rfl, bankrupt_of_snapshot hmarked⟩
  | lineage hkind _ =>
      cases payload <;> simp_all [EventPayload.isAccounting, EventPayload.payloadType]
  | _ => simp [EventPayload.isAccounting] at haccounting

/-- Any other event but a halt carries the pending halt over. -/
theorem Planned.carried (h : Planned config reducer event parent event.payload transition)
    (haccounting : event.payload.isAccounting = false)
    (hrunning : event.payload.isEngineHalted = false) :
    transition.haltPending = reducer.haltPending ∧ transition.halted = false := by
  generalize event.payload = payload at h haccounting hrunning
  cases h with
  | halted _ _ => simp [EventPayload.isEngineHalted] at hrunning
  | filled _ _ _ _ _ _ => simp [EventPayload.isAccounting] at haccounting
  | charged _ _ _ _ => simp [EventPayload.isAccounting] at haccounting
  | opened _ _ _ _ => simp [EventPayload.isAccounting] at haccounting
  | closed _ _ _ _ _ => simp [EventPayload.isAccounting] at haccounting
  | _ => exact ⟨rfl, rfl⟩

theorem Planned.halts (h : Planned config reducer event parent event.payload transition)
    (hhalted : event.payload.isEngineHalted = true) : transition.halted = true := by
  generalize event.payload = payload at h hhalted
  cases h with
  | halted _ _ => rfl
  | lineage hkind _ =>
      cases payload <;> simp_all [EventPayload.isEngineHalted, EventPayload.payloadType]
  | _ => simp [EventPayload.isEngineHalted] at hhalted

/-- An accounting event that leaves no equity makes its halt pending. -/
theorem Valued.pending {portfolio : LedgerSnapshot F} (h : Valued reducer transition portfolio)
    (hequity : le portfolio.equity zero = true) :
    (reducer.publish event transition).haltPending = some "bankruptcy" ∧
      (reducer.publish event transition).haltCauseEventId = some event.eventId := by
  have hbankrupt : portfolio.bankrupt = true := h.bankrupt.trans hequity
  rw [Reducer.publish_haltPending, Reducer.publish_haltCauseEventId, Reducer.nextHaltCause,
    h.portfolio_eq, h.haltPending, h.halted, Reducer.haltAfter, if_pos hbankrupt]
  exact ⟨rfl, if_pos ⟨rfl, portfolio, rfl, hbankrupt⟩⟩

/-- While a halt is pending only a halt is accepted, so no other event has one to
carry over. -/
theorem haltPending_step (log : List (ExecutionEvent F))
    (haccepted : Accepted config reducer event parent transition) :
    HaltPending (log ++ [event]) (reducer.publish event transition) := by
  intro reason hreason
  rw [Reducer.publish_haltPending] at hreason
  by_cases hhalted : event.payload.isEngineHalted = true
  · rw [if_pos (haccepted.planned.halts hhalted)] at hreason
    cases hreason
  have hnone : reducer.haltPending = none := by
    by_contra hsome
    exact hhalted (haccepted.haltFirst (Option.isSome_iff_ne_none.mpr hsome))
  cases haccounting : event.payload.isAccounting with
  | false =>
      obtain ⟨hpending, hrunning⟩ := haccepted.planned.carried haccounting (by simpa using hhalted)
      rw [hrunning, hpending, hnone] at hreason
      simp at hreason
  | true =>
      obtain ⟨portfolio, hvalued⟩ := haccepted.planned.valued haccounting
      rw [hvalued.halted, hvalued.haltPending, Reducer.haltAfter, hnone] at hreason
      simp only [Bool.false_eq_true, if_false, Option.mem_def] at hreason
      split at hreason
      · next hbankrupt =>
        have hequity : le portfolio.equity zero = true := hvalued.bankrupt ▸ hbankrupt
        refine ⟨(Option.some.inj hreason).symm, event, ⟨by simp, haccounting, portfolio, ?_,
          hequity⟩, (hvalued.pending hequity).2⟩
        rw [Reducer.publish_lastPortfolio, hvalued.portfolio_eq]
        rfl
      · cases hreason

end Step

theorem History.haltPending (h : History config ledger log reducer) : HaltPending log reducer := by
  refine h.invariant (by simp [HaltPending, Reducer.initial]) ?_
  intro log reducer event parent transition _ _ haccepted
  exact haltPending_step log haccepted

/-! ## The protocol -/

/-- What can follow an event that left no equity, what a halt ends, and where a
bankruptcy halt can stand. -/
structure HaltProtocol (config : EngineConfig) (ledger : PortfolioLedger F)
    (log : List (ExecutionEvent F)) : Prop where
  after_bankruptcy : ∀ before after cause state, log = before ++ after →
    History config ledger before state → LeftBankrupt before state cause →
      ∀ event next, state.apply config event = .ok (some next) →
        ∃ payload, event.payload = .engineHalted payload ∧
          payload.reasonCode.1 = "bankruptcy" ∧
            event.causationId.map Subtype.val = some cause.eventId
  after_halt : ∀ before event after state, log = before ++ event :: after →
    History config ledger (before ++ [event]) state → event.payload.isEngineHalted = true →
      after = [] ∧ ∀ event' next, state.apply config event' ≠ .ok (some next)
  only_after_bankruptcy : ∀ before event after state payload, log = before ++ event :: after →
    History config ledger before state → event.payload = .engineHalted payload →
      payload.reasonCode.1 = "bankruptcy" → ∃ cause, LeftBankrupt before state cause ∧
        event.causationId.map Subtype.val = some cause.eventId

/-- An accounting event at the end of a log that left no equity has its halt
pending. -/
theorem History.pending_of_leftBankrupt (h : History config ledger log reducer)
    {cause : ExecutionEvent F} (hleft : LeftBankrupt log reducer cause) :
    reducer.haltPending = some "bankruptcy" ∧ reducer.haltCauseEventId = some cause.eventId := by
  obtain ⟨before, rfl⟩ := List.getLast?_eq_some_iff.mp hleft.last
  obtain ⟨state, hbefore, hstep⟩ := Committed.snoc_iff.mp h
  obtain ⟨parent, transition, haccepted, rfl⟩ := accepted_of_apply hstep
  obtain ⟨portfolio, hvalued⟩ := haccepted.planned.valued hleft.accounting
  obtain ⟨last, hlast, hequity⟩ := hleft.equity
  rw [Reducer.publish_lastPortfolio, hvalued.portfolio_eq, Option.some_or, Option.mem_some_iff]
    at hlast
  exact hvalued.pending (hlast ▸ hequity)

theorem History.not_apply_of_halted {event : ExecutionEvent F} {next : Reducer F}
    (h : reducer.halted = true) : reducer.apply config event ≠ .ok (some next) := by
  intro hstep
  obtain ⟨parent, transition, haccepted, -⟩ := accepted_of_apply hstep
  rw [haccepted.running] at h
  cases h

theorem History.followsHalts (h : History config ledger log reducer) :
    HaltProtocol config ledger log := by
  refine ⟨?_, ?_, ?_⟩
  · intro before after cause state _ hbefore hleft event next hstep
    obtain ⟨hpending, hcause⟩ := hbefore.pending_of_leftBankrupt hleft
    obtain ⟨parent, transition, haccepted, -⟩ := accepted_of_apply hstep
    have hsome : state.haltPending.isSome = true := by rw [hpending]; rfl
    have hhalt := haccepted.haltFirst hsome
    have hplanned := haccepted.planned
    cases hpayload : event.payload with
    | engineHalted payload =>
        rw [hpayload] at hplanned
        refine ⟨payload, rfl, ?_, (haccepted.haltCause hsome).trans hcause⟩
        cases hplanned with
        | halted _ hreason => exact hreason _ hpending
        | lineage hkind _ => simp [EventPayload.payloadType] at hkind
    | _ => simp [hpayload, EventPayload.isEngineHalted] at hhalt
  · intro before event after state hlog hstate hhalted
    obtain ⟨middle, hbefore, hstep⟩ := Committed.snoc_iff.mp hstate
    obtain ⟨parent, transition, haccepted, rfl⟩ := accepted_of_apply hstep
    have hstopped : (middle.publish event transition).halted = true := by
      rw [Reducer.publish_halted, if_pos (haccepted.planned.halts hhalted)]
    refine ⟨?_, fun event' next => History.not_apply_of_halted hstopped⟩
    obtain ⟨middle', next, hbefore', hstep', hafter⟩ := (hlog ▸ h).split_at
    have hsame : next = middle.publish event transition := by
      have hreplay := (hbefore'.snoc hstep').replay_eq
      rw [hstate.replay_eq, Except.ok.injEq] at hreplay
      exact hreplay.symm
    subst hsame
    cases after with
    | nil => rfl
    | cons first rest =>
        rw [← List.nil_append (first :: rest)] at hafter
        obtain ⟨state', next', hnil, hfirst, -⟩ := hafter.split_at
        rw [Committed.nil_iff.mp hnil] at hfirst
        exact absurd hfirst (History.not_apply_of_halted hstopped)
  · intro before event after state payload hlog hbefore hpayload hreason
    obtain ⟨state', next, hbefore', hstep, -⟩ := (hlog ▸ h).split_at
    have hsame : state' = state := by
      have hreplay := hbefore'.replay_eq
      rw [hbefore.replay_eq, Except.ok.injEq] at hreplay
      exact hreplay.symm
    subst hsame
    obtain ⟨parent, transition, haccepted, -⟩ := accepted_of_apply hstep
    have hpending : state'.haltPending = some "bankruptcy" := by
      have hplanned := haccepted.planned
      rw [hpayload] at hplanned
      cases hplanned with
      | halted hbankruptcy _ => exact hbankruptcy hreason
      | lineage hkind _ => simp [EventPayload.payloadType] at hkind
    obtain ⟨-, cause, hleft, hcause⟩ := hbefore.haltPending _ hpending
    exact ⟨cause, hleft, (haccepted.haltCause (by rw [hpending]; rfl)).trans hcause⟩

/-- In every reachable engine a bankruptcy is followed by its halt alone, a halt
by nothing, and an event that is refused leaves the state as it was. -/
theorem Reachable.haltProtocol {J : Type} [Journal F J] {admits : J → Prop}
    {args : EngineArgs F} {engine : DeterministicEventEngine F J}
    (h : Reachable admits args engine log) :
    (∃ ledger, Origin args engine log ledger ∧ HaltProtocol engine.config ledger log) ∧
    (∀ event, (engine.processEvent event).1 ≠ .ok true →
      (engine.processEvent event).2.reducer = engine.reducer) ∧
    ∀ call : EngineCall F, (call.run engine).committed = [] →
      (call.run engine).engine.reducer = engine.reducer := by
  obtain ⟨ledger, horigin⟩ := h.origin
  refine ⟨⟨ledger, horigin, horigin.history.followsHalts⟩, ?_, ?_⟩
  · intro event hrefused
    have hprocessed := processed engine event
    generalize (engine.processEvent event).1 = outcome at hprocessed hrefused
    generalize (engine.processEvent event).2 = next at hprocessed
    cases hprocessed with
    | committed _ _ => exact absurd rfl hrefused
    | _ => rfl
  · intro call hnone
    have hcommitted := (committed_run engine call).2
    rw [hnone] at hcommitted
    exact Committed.nil_iff.mp hcommitted

end Halts

open Platform in
/-- The engine after the trade. -/
theorem haltProtocol_dayTrade : ∃ engine : DeterministicEventEngine ℚ InMemoryJournal,
    engine.reducer = dayState 8 ∧
    (∃ ledger, HaltProtocol dayConfig ledger (dayLog 8)) ∧
    ∀ event, (engine.processEvent event).1 ≠ .ok true →
      (engine.processEvent event).2.reducer = engine.reducer := by
  obtain ⟨engine, hreachable, hconfig, hreducer, -⟩ := exists_reachable_dayTrade
  obtain ⟨⟨ledger, -, hprotocol⟩, hrefused, -⟩ := hreachable.haltProtocol
  exact ⟨engine, hreducer, ⟨ledger, hconfig ▸ hprotocol⟩, hrefused⟩

end SignalFoundry
