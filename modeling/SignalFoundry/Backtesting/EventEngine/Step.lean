import SignalFoundry.Backtesting.EventEngine.Transition

/-!
# What one committed event did

The inversion of `Reducer.apply`: `Accepted` lists the checks that a committed
event has passed, `Caused` those of its cause, and `Planned` has one case for
each kind of transition, with the guards of that kind. Every field of the next
state is read off by a lemma of its own, so that no later proof unfolds the
publication.
-/

namespace SignalFoundry

open Fallible PyFloat

@[simp] theorem refuse_eq_ok_iff {refused : Prop} [Decidable refused]
    {error : EngineException} {u : Unit} : refuse refused error = .ok u ↔ ¬ refused :=
  refuseIf_eq_ok_iff

theorem refuse_of_not {refused : Prop} [Decidable refused] {error : EngineException}
    (h : ¬ refused) : refuse refused error = .ok () :=
  refuse_eq_ok_iff.mpr h

variable {F : Type} [PyRuntime] [PyFloat F] [FloatText F]

theorem requireEvent_eq_ok_iff {config : EngineConfig} {event : ExecutionEvent F} {u : Unit} :
    config.requireEvent event = .ok u ↔ event.runId.1 = config.runId ∧
      config.calendarIndex event.coordinate.session = some event.coordinate.barIndex.1 := by
  simp only [EngineConfig.requireEvent, bind_eq_ok_iff, refuse_eq_ok_iff, exists_const, not_not,
    ne_eq]
  cases config.calendarIndex event.coordinate.session with
  | none => simp
  | some index => simp [eq_comm (a := index)]

/-! ## Causes -/

/-- The checks that a cause has passed. -/
structure Caused (event : ExecutionEvent F) (parent : EventReference) : Prop where
  earlier : parent.sortKey < eventSortKey event
  payloadType : ∀ required ∈ event.payload.requiredCauses, parent.payloadType ∈ required
  correlationId : parent.correlationId = event.correlationId.1
  submission : ∀ payload, event.payload = .orderSubmitted payload →
    parent.eligibleSession = some event.coordinate.session ∧
      payload.symbol.1 ∈ parent.targetSymbols
  sameBar : event.payload.isOrderTransition = true →
    parent.session = event.coordinate.session ∧ parent.barIndex = event.coordinate.barIndex.1

theorem checkSubmissionCause_eq_ok_iff {event : ExecutionEvent F} {parent : EventReference}
    {u : Unit} :
    checkSubmissionCause event parent = .ok u ↔
      ∀ payload, event.payload = .orderSubmitted payload →
        parent.eligibleSession = some event.coordinate.session ∧
          payload.symbol.1 ∈ parent.targetSymbols := by
  unfold checkSubmissionCause
  cases event.payload <;> simp

theorem caused_of_checkCause {event : ExecutionEvent F} {parent : EventReference} {u : Unit}
    (h : checkCause event parent = .ok u) : Caused event parent := by
  simp only [checkCause, bind_eq_ok_iff, refuse_eq_ok_iff, exists_const, not_le, ge_iff_le,
    not_exists, not_and, not_not, ne_eq] at h
  obtain ⟨hearlier, htype, hcorrelation, _, hsubmission, _, hbar, -⟩ := h
  refine ⟨hearlier, htype, hcorrelation, checkSubmissionCause_eq_ok_iff.mp hsubmission, ?_⟩
  intro htransition
  simpa [checkSameBar, htransition] using hbar

/-- An event without a cause that it needs, or the reference of its cause. -/
inductive CausedBy (reducer : Reducer F) (event : ExecutionEvent F) :
    Option EventReference → Prop
  | uncaused (hcause : event.causationId = none) (hrequired : event.payload.requiredCauses = none) :
      CausedBy reducer event none
  | caused {causeId : Digest} {parent : EventReference} (hcause : event.causationId = some causeId)
      (hfound : reducer.references.get? causeId.1 = some parent) (hcaused : Caused event parent) :
      CausedBy reducer event (some parent)

theorem causedBy_of_validateCausation {reducer : Reducer F} {event : ExecutionEvent F}
    {parent : Option EventReference} (h : reducer.validateCausation event = .ok parent) :
    CausedBy reducer event parent := by
  unfold Reducer.validateCausation at h
  cases hcause : event.causationId with
  | none =>
      rw [hcause] at h
      simp only [bind_eq_ok_iff, refuse_eq_ok_iff, exists_const, pure_eq_ok,
        Except.ok.injEq, Bool.not_eq_true, Option.isSome_eq_false_iff, Option.isNone_iff_eq_none]
        at h
      obtain ⟨hrequired, rfl⟩ := h
      exact .uncaused hcause hrequired
  | some causeId =>
      rw [hcause] at h
      cases hfound : reducer.references.get? causeId.1 with
      | none =>
          simp only [hfound] at h
          cases h
      | some reference =>
          simp only [hfound, bind_eq_ok_iff, pure_eq_ok, Except.ok.injEq] at h
          obtain ⟨_, hcheck, rfl⟩ := h
          exact .caused hcause hfound (caused_of_checkCause hcheck)

/-! ## Planned transitions -/

/-- The order that a transition refers to. -/
structure OrderFound (reducer : Reducer F) (orderId : String) (parent : Option EventReference)
    (event : ExecutionEvent F) (order : OrderState F) : Prop where
  found : reducer.orders.get? orderId = some order
  cause : ∀ reference ∈ parent, reference.orderId = some orderId
  session : event.coordinate.session = order.submittedSession
  bar : event.coordinate.barIndex.1 = order.submittedBarIndex

theorem requireOrder_eq_ok_iff {reducer : Reducer F} {orderId : String}
    {parent : Option EventReference} {event : ExecutionEvent F} {order : OrderState F} :
    reducer.requireOrder orderId parent event = .ok order ↔
      OrderFound reducer orderId parent event order := by
  unfold Reducer.requireOrder
  cases hfound : reducer.orders.get? orderId with
  | none =>
      constructor
      · intro h
        cases h
      · intro h
        rw [h.found] at hfound
        cases hfound
  | some found =>
      simp only [bind_eq_ok_iff, refuse_eq_ok_iff, exists_const, pure_eq_ok, Except.ok.injEq,
        not_exists, not_and, not_not, not_or, ne_eq]
      constructor
      · rintro ⟨hcause, ⟨hsession, hbar⟩, rfl⟩
        exact ⟨hfound, hcause, hsession, hbar⟩
      · rintro ⟨hfound', hcause, hsession, hbar⟩
        rw [hfound] at hfound'
        cases hfound'
        exact ⟨hcause, ⟨hsession, hbar⟩, rfl⟩

/-- The accounting of a fill on a candidate ledger. -/
structure FillAccounted (reducer : Reducer F) (event : ExecutionEvent F)
    (payload : FillApplied F) (filled : PortfolioLedger F) (portfolio : LedgerSnapshot F) :
    Prop where
  applied : ∃ candidate totalFees, reducer.ledger.clone = .ok candidate ∧
    candidate.applyFill payload.symbol.1 (signedQuantity payload.side payload.quantity.1)
      payload.price.1 zero (some [("fees", totalFees)]) = .ok filled
  marked : filled.snapshot event.coordinate.session reducer.openPrices = .ok portfolio

/-- The accounting of a cash charge on a candidate ledger. -/
structure ChargeAccounted (reducer : Reducer F) (event : ExecutionEvent F)
    (payload : CashChargeAccrued F) (charged : PortfolioLedger F)
    (portfolio : LedgerSnapshot F) : Prop where
  applied : ∃ candidate, reducer.ledger.clone = .ok candidate ∧
    candidate.applyCharge payload.chargeType.name payload.amount.1 = .ok charged
  marked : charged.snapshot event.coordinate.session reducer.openPrices = .ok portfolio

/-- The transition that was planned for a payload, with the guards of its kind. -/
inductive Planned (config : EngineConfig) (reducer : Reducer F) (event : ExecutionEvent F)
    (parent : Option EventReference) : EventPayload F → PlannedTransition F → Prop
  | submitted {payload : OrderSubmitted F}
      (hnew : payload.orderId.1 ∉ reducer.orders.keys)
      (hopen : reducer.openMarkBar = some event.coordinate.barIndex.1) :
      Planned config reducer event parent (.orderSubmitted payload)
        (reducer.orderOnly (.ofSubmission event payload))
  | accepted {payload : OrderAccepted F} {order : OrderState F}
      (hfound : OrderFound reducer payload.orderId.1 parent event order)
      (hstatus : order.status = .submitted)
      (hquantity : eq payload.acceptedQuantity.1 order.requestedQuantity = true) :
      Planned config reducer event parent (.orderAccepted payload)
        (reducer.orderOnly (order.accept payload.acceptedQuantity.1))
  | rejected {payload : OrderRejected} {order : OrderState F}
      (hfound : OrderFound reducer payload.orderId.1 parent event order)
      (hstatus : order.status = .submitted) :
      Planned config reducer event parent (.orderRejected payload)
        (reducer.orderOnly order.reject)
  | filled {payload : FillApplied F} {order : OrderState F} {newFilled : F}
      {ledger : PortfolioLedger F} {portfolio : LedgerSnapshot F}
      (hfound : OrderFound reducer payload.orderId.1 parent event order)
      (hstatus : order.status = .accepted ∨ order.status = .partiallyFilled)
      (hsymbol : payload.symbol.1 = order.symbol) (hside : payload.side = order.side)
      (hfilled : order.filledAfter payload.quantity.1 = .ok newFilled)
      (haccounted : FillAccounted reducer event payload ledger portfolio) :
      Planned config reducer event parent (.fillApplied payload)
        { orderUpdate := some (order.fillTo newFilled)
          ledgerUpdate := some ledger
          portfolio := some portfolio
          haltPending := reducer.haltAfter portfolio }
  | cancelled {payload : OrderCancelled F} {order : OrderState F}
      (hfound : OrderFound reducer payload.orderId.1 parent event order)
      (hstatus : order.status.terminal = false)
      (hquantity : eq payload.cancelledQuantity.1
        (sub order.requestedQuantity order.filledQuantity) = true) :
      Planned config reducer event parent (.orderCancelled payload)
        (reducer.orderOnly (order.cancel payload.cancelledQuantity.1))
  | charged {payload : CashChargeAccrued F} {ledger : PortfolioLedger F}
      {portfolio : LedgerSnapshot F}
      (hopen : reducer.openMarkBar = some event.coordinate.barIndex.1)
      (hclose : reducer.closeMarkBar ≠ some event.coordinate.barIndex.1)
      (hcount : reducer.openOrderCount = 0)
      (haccounted : ChargeAccounted reducer event payload ledger portfolio) :
      Planned config reducer event parent (.cashChargeAccrued payload)
        { ledgerUpdate := some ledger
          portfolio := some portfolio
          haltPending := reducer.haltAfter portfolio }
  | opened {payload : PortfolioMarked F} {portfolio : LedgerSnapshot F}
      (hmark : payload.markType = .open) (hcount : reducer.openOrderCount = 0)
      (hopen : reducer.openMarkBar ≠ some event.coordinate.barIndex.1)
      (hmarked : reducer.ledger.snapshot event.coordinate.session
        (SymbolEntries.toDict payload.prices) = .ok portfolio) :
      Planned config reducer event parent (.portfolioMarked payload)
        { portfolio := some portfolio, haltPending := reducer.haltAfter portfolio }
  | closed {payload : PortfolioMarked F} {portfolio : LedgerSnapshot F}
      (hmark : payload.markType = .close)
      (hopen : reducer.openMarkBar = some event.coordinate.barIndex.1)
      (hclose : reducer.closeMarkBar ≠ some event.coordinate.barIndex.1)
      (hcount : reducer.openOrderCount = 0)
      (hmarked : reducer.ledger.snapshot event.coordinate.session
        (SymbolEntries.toDict payload.prices) = .ok portfolio) :
      Planned config reducer event parent (.portfolioMarked payload)
        { portfolio := some portfolio, haltPending := reducer.haltAfter portfolio }
  | halted {payload : EngineHalted}
      (hbankruptcy : payload.reasonCode.1 = "bankruptcy" → reducer.haltPending = some "bankruptcy")
      (hreason : ∀ pending ∈ reducer.haltPending, payload.reasonCode.1 = pending) :
      Planned config reducer event parent (.engineHalted payload)
        { portfolio := reducer.lastPortfolio
          halted := true
          haltReason := some payload.reasonCode.1 }
  | lineage {payload : EventPayload F}
      (hkind : payload.payloadType = .signalAvailable ∨ payload.payloadType = .targetDecided)
      (hclose : reducer.closeMarkBar = some event.coordinate.barIndex.1) :
      Planned config reducer event parent payload
        { portfolio := reducer.lastPortfolio, haltPending := reducer.haltPending }

theorem planned_of_planTransition {config : EngineConfig} {reducer : Reducer F}
    {event : ExecutionEvent F} {parent : Option EventReference}
    {transition : PlannedTransition F}
    (h : reducer.planTransition config event parent = .ok transition) :
    Planned config reducer event parent event.payload transition := by
  unfold Reducer.planTransition at h
  cases hpayload : event.payload with
  | orderSubmitted payload =>
      simp only [hpayload, Reducer.planSubmitted, bind_eq_ok_iff, refuse_eq_ok_iff, exists_const,
        pure_eq_ok, Except.ok.injEq, not_not, ne_eq] at h
      obtain ⟨-, -, hnew, hopen, -, rfl⟩ := h
      exact .submitted hnew hopen
  | orderAccepted payload =>
      simp only [hpayload, Reducer.planAccepted, bind_eq_ok_iff, refuse_eq_ok_iff, exists_const,
        pure_eq_ok, Except.ok.injEq, not_not, ne_eq] at h
      obtain ⟨order, hfound, hstatus, hquantity, rfl⟩ := h
      exact .accepted (requireOrder_eq_ok_iff.mp hfound) hstatus hquantity
  | orderRejected payload =>
      simp only [hpayload, Reducer.planRejected, bind_eq_ok_iff, refuse_eq_ok_iff, exists_const,
        pure_eq_ok, Except.ok.injEq, not_not, ne_eq] at h
      obtain ⟨order, hfound, hstatus, rfl⟩ := h
      exact .rejected (requireOrder_eq_ok_iff.mp hfound) hstatus
  | fillApplied payload =>
      simp only [hpayload, Reducer.planFill, bind_eq_ok_iff, refuse_eq_ok_iff, exists_const,
        pure_eq_ok, Except.ok.injEq, not_not, ne_eq, not_and_or, not_or,
        fromPython_eq_ok_iff] at h
      obtain ⟨order, hfound, hstatus, ⟨hsymbol, hside⟩, _, -, newFilled, hfilled, candidate,
        hclone, totalFees, -, ledger, hledger, portfolio, hportfolio, rfl⟩ := h
      exact .filled (requireOrder_eq_ok_iff.mp hfound) hstatus hsymbol hside hfilled
        ⟨⟨candidate, totalFees, hclone, hledger⟩, hportfolio⟩
  | orderCancelled payload =>
      simp only [hpayload, Reducer.planCancelled, bind_eq_ok_iff, refuse_eq_ok_iff, exists_const,
        pure_eq_ok, Except.ok.injEq, not_not] at h
      obtain ⟨order, hfound, hstatus, hquantity, rfl⟩ := h
      exact .cancelled (requireOrder_eq_ok_iff.mp hfound) (Bool.not_eq_true _ ▸ hstatus) hquantity
  | cashChargeAccrued payload =>
      simp only [hpayload, Reducer.planCharge, bind_eq_ok_iff, refuse_eq_ok_iff, exists_const,
        pure_eq_ok, Except.ok.injEq, not_not, ne_eq, fromPython_eq_ok_iff] at h
      obtain ⟨hopen, hclose, hcount, candidate, hclone, ledger, hledger, portfolio, hportfolio,
        rfl⟩ := h
      exact .charged hopen hclose hcount ⟨⟨candidate, hclone, hledger⟩, hportfolio⟩
  | portfolioMarked payload =>
      simp only [hpayload, Reducer.planMarked, bind_eq_ok_iff, fromPython_eq_ok_iff] at h
      obtain ⟨_, horder, portfolio, hportfolio, h⟩ := h
      cases hholdings : fsum portfolio.marketValues.values with
      | none =>
          rw [hholdings] at h
          cases h
      | some holdings =>
          rw [hholdings] at h
          simp only [bind_eq_ok_iff, pure_eq_ok, Except.ok.injEq] at h
          obtain ⟨_, -, rfl⟩ := h
          cases hmark : payload.markType with
          | «open» =>
              simp only [hmark, Reducer.checkMarkOrder, bind_eq_ok_iff, refuse_eq_ok_iff,
                exists_const, not_not, ne_eq] at horder
              exact .opened hmark horder.1 horder.2 hportfolio
          | close =>
              simp only [hmark, Reducer.checkMarkOrder, bind_eq_ok_iff, refuse_eq_ok_iff,
                exists_const, not_not, ne_eq] at horder
              exact .closed hmark horder.1 horder.2.1 horder.2.2 hportfolio
  | engineHalted payload =>
      simp only [hpayload, Reducer.planHalted, bind_eq_ok_iff, refuse_eq_ok_iff, exists_const,
        pure_eq_ok, Except.ok.injEq, not_and, not_exists, not_not, ne_eq] at h
      obtain ⟨hbankruptcy, hreason, rfl⟩ := h
      exact .halted hbankruptcy hreason
  | signalAvailable payload =>
      simp only [hpayload, Reducer.planLineage, bind_eq_ok_iff, refuse_eq_ok_iff, exists_const,
        pure_eq_ok, Except.ok.injEq, not_not, ne_eq] at h
      obtain ⟨hclose, rfl⟩ := h
      exact .lineage (.inl rfl) hclose
  | targetDecided payload =>
      simp only [hpayload, Reducer.planLineage, bind_eq_ok_iff, refuse_eq_ok_iff, exists_const,
        pure_eq_ok, Except.ok.injEq, not_not, ne_eq] at h
      obtain ⟨hclose, rfl⟩ := h
      exact .lineage (.inr rfl) hclose

/-! ## The whole step -/

/-- The checks that a committed event has passed, with its cause and its
transition. -/
structure Accepted (config : EngineConfig) (reducer : Reducer F) (event : ExecutionEvent F)
    (parent : Option EventReference) (transition : PlannedTransition F) : Prop where
  runId : event.runId.1 = config.runId
  inCalendar : config.calendarIndex event.coordinate.session = some event.coordinate.barIndex.1
  fresh : reducer.fingerprints.get? event.eventId = none
  later : ∀ cursor ∈ reducer.cursor, cursor < eventSortKey event
  running : reducer.halted = false
  haltFirst : reducer.haltPending.isSome = true → event.payload.isEngineHalted = true
  cause : CausedBy reducer event parent
  haltCause : reducer.haltPending.isSome = true →
    event.causationId.map Subtype.val = reducer.haltCauseEventId
  planned : Planned config reducer event parent event.payload transition

theorem accepted_of_plan {config : EngineConfig} {reducer : Reducer F}
    {event : ExecutionEvent F} {transition : PlannedTransition F}
    (h : reducer.plan config event = .ok (some transition)) :
    ∃ parent, Accepted config reducer event parent transition := by
  simp only [Reducer.plan, bind_eq_ok_iff, requireEvent_eq_ok_iff, exists_const] at h
  obtain ⟨⟨hrun, hcalendar⟩, h⟩ := h
  cases hfresh : reducer.fingerprints.get? event.eventId with
  | some existing =>
      rw [hfresh] at h
      simp only [bind_eq_ok_iff, pure_eq_ok] at h
      obtain ⟨_, -, h⟩ := h
      cases h
  | none =>
      rw [hfresh] at h
      simp only [bind_eq_ok_iff, pure_eq_ok, Except.ok.injEq, Option.some.injEq,
        exists_eq_right, Reducer.planNew, refuse_eq_ok_iff, exists_const, not_exists, not_and,
        not_not, not_le, mapError_eq_ok_iff, ge_iff_le, Bool.not_eq_true, ne_eq] at h
      obtain ⟨-, hlater, hrunning, hfirst, parent, hparent, hhalt, -, hplanned⟩ := h
      exact ⟨parent, hrun, hcalendar, hfresh, hlater, hrunning,
        fun hpending => by simpa using hfirst hpending, causedBy_of_validateCausation hparent,
        hhalt, planned_of_planTransition hplanned⟩

theorem apply_eq_some_iff {config : EngineConfig} {reducer next : Reducer F}
    {event : ExecutionEvent F} :
    reducer.apply config event = .ok (some next) ↔
      ∃ transition, reducer.plan config event = .ok (some transition) ∧
        next = reducer.publish event transition := by
  simp only [Reducer.apply, bind_eq_ok_iff]
  constructor
  · rintro ⟨planned, hplan, h⟩
    cases planned with
    | none => cases h
    | some transition =>
        cases h
        exact ⟨transition, hplan, rfl⟩
  · rintro ⟨transition, hplan, rfl⟩
    exact ⟨some transition, hplan, rfl⟩

/-- A committed event has passed its checks, and the next state is published. -/
theorem accepted_of_apply {config : EngineConfig} {reducer next : Reducer F}
    {event : ExecutionEvent F} (h : reducer.apply config event = .ok (some next)) :
    ∃ parent transition, Accepted config reducer event parent transition ∧
      next = reducer.publish event transition := by
  obtain ⟨transition, hplan, hnext⟩ := apply_eq_some_iff.mp h
  obtain ⟨parent, haccepted⟩ := accepted_of_plan hplan
  exact ⟨parent, transition, haccepted, hnext⟩

/-! ## The fields of the next state -/

section Publish

variable (reducer : Reducer F) (event : ExecutionEvent F) (transition : PlannedTransition F)

/-- Whether an event is a mark of some type. -/
def EventPayload.isMark (markType : MarkType) : EventPayload F → Bool
  | portfolioMarked payload => payload.markType = markType
  | _ => false

/-- The prices of a mark. -/
def EventPayload.markPrices : EventPayload F → OrderedDict String F
  | portfolioMarked payload => SymbolEntries.toDict payload.prices
  | _ => .empty

namespace Reducer

theorem publishMark_eq : reducer.publishMark event =
    { reducer with
      openMarkBar := if event.payload.isMark .open = true then some event.coordinate.barIndex.1
        else reducer.openMarkBar
      openPrices := if event.payload.isMark .open = true then event.payload.markPrices
        else reducer.openPrices
      closeMarkBar := if event.payload.isMark .close = true then
          some event.coordinate.barIndex.1
        else reducer.closeMarkBar } := by
  unfold publishMark
  cases hpayload : event.payload with
  | portfolioMarked payload =>
      cases hmark : payload.markType <;>
        simp [EventPayload.isMark, EventPayload.markPrices, hmark]
  | _ => rfl

omit [PyRuntime] [PyFloat F] [FloatText F] in
theorem publishOrder_eq (order : Option (OrderState F)) : reducer.publishOrder order =
    { reducer with
      openOrderCount := reducer.openOrderCount + order.elim 0 reducer.openOrderDelta
      orders := order.elim reducer.orders fun o => reducer.orders.set o.orderId o } := by
  cases order with
  | none => simp [publishOrder]
  | some order => rfl

/-- The next state, field by field. -/
theorem publish_eq : reducer.publish event transition = {
    ledger := transition.ledgerUpdate.getD reducer.ledger
    orders := transition.orderUpdate.elim reducer.orders fun o => reducer.orders.set o.orderId o
    openOrderCount := reducer.openOrderCount +
      transition.orderUpdate.elim 0 reducer.openOrderDelta
    references := reducer.references.set event.eventId (.of event)
    fingerprints := reducer.fingerprints.set event.eventId (fingerprint event)
    identityOrigins := match event.payload.identityKey with
      | none => reducer.identityOrigins
      | some key => reducer.identityOrigins.set key event.eventId
    cursor := some (eventSortKey event)
    openMarkBar := if event.payload.isMark .open = true then some event.coordinate.barIndex.1
      else reducer.openMarkBar
    openPrices := if event.payload.isMark .open = true then event.payload.markPrices
      else reducer.openPrices
    closeMarkBar := if event.payload.isMark .close = true then some event.coordinate.barIndex.1
      else reducer.closeMarkBar
    lastPortfolio := transition.portfolio.or reducer.lastPortfolio
    haltPending := if transition.halted = true then none else transition.haltPending
    haltCauseEventId := reducer.nextHaltCause event transition
    halted := if transition.halted = true then true else reducer.halted
    haltReason := if transition.halted = true then transition.haltReason
      else reducer.haltReason } := by
  rw [publish, publishMark_eq, publishOrder_eq]
  rfl

@[simp] theorem publish_ledger : (reducer.publish event transition).ledger =
      transition.ledgerUpdate.getD reducer.ledger := by
  rw [publish_eq]

@[simp] theorem publish_orders : (reducer.publish event transition).orders =
      transition.orderUpdate.elim reducer.orders fun o => reducer.orders.set o.orderId o := by
  rw [publish_eq]

@[simp] theorem publish_openOrderCount : (reducer.publish event transition).openOrderCount =
      reducer.openOrderCount + transition.orderUpdate.elim 0 reducer.openOrderDelta := by
  rw [publish_eq]

@[simp] theorem publish_references : (reducer.publish event transition).references =
      reducer.references.set event.eventId (.of event) := by
  rw [publish_eq]

@[simp] theorem publish_fingerprints : (reducer.publish event transition).fingerprints =
      reducer.fingerprints.set event.eventId (fingerprint event) := by
  rw [publish_eq]

@[simp] theorem publish_cursor : (reducer.publish event transition).cursor =
      some (eventSortKey event) := by
  rw [publish_eq]

@[simp] theorem publish_openMarkBar : (reducer.publish event transition).openMarkBar =
      if event.payload.isMark .open = true then some event.coordinate.barIndex.1
      else reducer.openMarkBar := by
  rw [publish_eq]

@[simp] theorem publish_closeMarkBar : (reducer.publish event transition).closeMarkBar =
      if event.payload.isMark .close = true then some event.coordinate.barIndex.1
      else reducer.closeMarkBar := by
  rw [publish_eq]

@[simp] theorem publish_lastPortfolio : (reducer.publish event transition).lastPortfolio =
      transition.portfolio.or reducer.lastPortfolio := by
  rw [publish_eq]

@[simp] theorem publish_haltPending : (reducer.publish event transition).haltPending =
      if transition.halted = true then none else transition.haltPending := by
  rw [publish_eq]

@[simp] theorem publish_haltCauseEventId : (reducer.publish event transition).haltCauseEventId =
      reducer.nextHaltCause event transition := by
  rw [publish_eq]

@[simp] theorem publish_halted : (reducer.publish event transition).halted =
      if transition.halted = true then true else reducer.halted := by
  rw [publish_eq]

end Reducer

end Publish

end SignalFoundry
