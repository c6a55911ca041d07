import Mathlib.Tactic.Ring
import SignalFoundry.Backtesting.EventEngine.Trace

/-!
# The protocol of a bar

Two remembered bars, of the last open mark and of the last close mark, and the
number of open orders gate every event. `Bars` is what they say about the log:
open orders belong to the bar of the last open mark, and once that bar has its
close mark no order is open. With the order of the phases this gives the
protocol: an open mark, orders, charges and a close mark, then decisions.
-/

namespace SignalFoundry

open EventSourcing Fallible

section Protocol

variable {F : Type} [PyRuntime] [PyFloat F] [FloatText F] {config : EngineConfig}
  {ledger : PortfolioLedger F} {log : List (ExecutionEvent F)} {reducer : Reducer F}

/-! ## The number of open orders -/

/-- One for an open order. -/
def OrderState.openUnit (order : OrderState F) : ℤ := if order.status.terminal = true then 0 else 1

/-- The orders that are not terminal. -/
def Reducer.openOrders (reducer : Reducer F) : List (OrderState F) :=
  reducer.orders.values.filter fun order => !order.status.terminal

omit [PyRuntime] [PyFloat F] [FloatText F] in
theorem length_openOrders (reducer : Reducer F) :
    (reducer.openOrders.length : ℤ) = reducer.orders.sumOf fun _ order => order.openUnit := by
  unfold Reducer.openOrders OrderedDict.values OrderedDict.sumOf
  induction reducer.orders.items with
  | nil => rfl
  | cons item items ih =>
      rw [List.map_cons, List.map_cons, List.sum_cons, ← ih, List.filter_cons]
      dsimp only [OrderState.openUnit]
      cases item.2.status.terminal with
      | true => simp
      | false =>
          rw [Bool.not_false, if_pos rfl, if_neg Bool.false_ne_true, List.length_cons]
          push_cast
          ring

omit [PyRuntime] [PyFloat F] [FloatText F] in
/-- The change of the count is the change of the term of one order. -/
theorem openOrderDelta_eq {orderId : String} {order next : OrderState F}
    (hfound : reducer.orders.get? orderId = some order) (hkey : next.orderId = orderId)
    (hopen : order.status.terminal = false) :
    reducer.openOrderDelta next = next.openUnit - order.openUnit := by
  simp only [Reducer.openOrderDelta, hkey, hfound, hopen, OrderState.openUnit]
  split <;> simp_all

/-- The count of open orders is kept. -/
theorem History.openOrderCount (h : History config ledger log reducer) :
    reducer.openOrderCount = reducer.openOrders.length := by
  rw [length_openOrders]
  refine h.invariant (P := fun _ reducer =>
    reducer.openOrderCount = reducer.orders.sumOf fun _ order => order.openUnit) rfl ?_
  intro log reducer event parent transition hbefore ih haccepted
  have hchange := haccepted.planned.orderChange
  rw [Reducer.publish_openOrderCount, Reducer.publish_orders]
  generalize transition.orderUpdate = update at hchange
  cases hchange with
  | unchanged _ => simpa using ih
  | @submitted payload _ hnew _ =>
      have hnone : reducer.orders.get? payload.orderId.1 = none :=
        OrderedDict.get?_eq_none_iff.mpr hnew
      have hdelta : reducer.openOrderDelta (.ofSubmission event payload) = 1 := by
        unfold Reducer.openOrderDelta
        rw [show (OrderState.ofSubmission event payload).orderId = payload.orderId.1 from rfl,
          hnone]
      have hunit : (OrderState.ofSubmission event payload).openUnit = 1 := rfl
      rw [Option.elim_some, Option.elim_some, hdelta, OrderedDict.sumOf_set, hunit,
        show (OrderState.ofSubmission event payload).orderId = payload.orderId.1 from rfl,
        OrderedDict.erase_of_get?_eq_none hnone, ih]
  | @moved orderId order next _ _ hfound hopen _ _ hsame =>
      have hkey : next.orderId = orderId :=
        hsame.orderId.trans (hbefore.submissions.submitted _ _ hfound).1
      rw [Option.elim_some, Option.elim_some, openOrderDelta_eq hfound hkey hopen, hkey,
        OrderedDict.sumOf_set, ih, OrderedDict.sumOf_eq_erase_add hfound]
      ring

/-- Without open orders in the count, every order is terminal. -/
theorem History.terminal_of_count (h : History config ledger log reducer)
    (hcount : reducer.openOrderCount = 0) {orderId : String} {order : OrderState F}
    (hfound : reducer.orders.get? orderId = some order) : order.status.terminal = true := by
  rw [h.openOrderCount, Nat.cast_eq_zero, List.length_eq_zero_iff, Reducer.openOrders,
    List.filter_eq_nil_iff] at hcount
  have hmem : order ∈ reducer.orders.values :=
    List.mem_map_of_mem (OrderedDict.get?_eq_some_iff.mp hfound)
  simpa using hcount order hmem

/-! ## What the gates say about the log -/

/-- What the marks and the open orders of a reducer say about each other. -/
structure Bars (log : List (ExecutionEvent F)) (reducer : Reducer F) : Prop where
  openOrder : ∀ orderId order, reducer.orders.get? orderId = some order →
    order.status.terminal = false → reducer.openMarkBar = some order.submittedBarIndex
  closed : reducer.closeMarkBar.isSome = true → reducer.closeMarkBar = reducer.openMarkBar →
    reducer.openOrderCount = 0
  closeMark_le : ∀ bar ∈ reducer.closeMarkBar, ∃ bar' ∈ reducer.openMarkBar, bar ≤ bar'
  lastOpen : ∀ mark ∈ log, mark.payload.isMark .open = true →
    ∃ bar ∈ reducer.openMarkBar, mark.coordinate.barIndex.1 ≤ bar
  lastClose : ∀ mark ∈ log, mark.payload.isMark .close = true →
    ∃ bar ∈ reducer.closeMarkBar, mark.coordinate.barIndex.1 ≤ bar

section Planned

variable {event : ExecutionEvent F} {parent : Option EventReference}
  {transition : PlannedTransition F}

theorem Planned.of_openMark
    (h : Planned config reducer event parent event.payload transition)
    (hmark : event.payload.isMark .open = true) :
    reducer.openOrderCount = 0 ∧ transition.orderUpdate = none ∧
      reducer.openMarkBar ≠ some event.coordinate.barIndex.1 := by
  generalize event.payload = payload at h hmark
  cases h with
  | opened _ hcount hopen _ => exact ⟨hcount, rfl, hopen⟩
  | closed hclose _ _ _ _ => simp [EventPayload.isMark, hclose] at hmark
  | lineage hkind _ =>
      cases payload <;> simp_all [EventPayload.isMark, EventPayload.payloadType]
  | _ => simp [EventPayload.isMark] at hmark

theorem Planned.of_closeMark
    (h : Planned config reducer event parent event.payload transition)
    (hmark : event.payload.isMark .close = true) :
    reducer.openOrderCount = 0 ∧ transition.orderUpdate = none ∧
      reducer.openMarkBar = some event.coordinate.barIndex.1 ∧
        reducer.closeMarkBar ≠ some event.coordinate.barIndex.1 := by
  generalize event.payload = payload at h hmark
  cases h with
  | closed _ hopen hclose hcount _ => exact ⟨hcount, rfl, hopen, hclose⟩
  | opened hopen _ _ _ => simp [EventPayload.isMark, hopen] at hmark
  | lineage hkind _ =>
      cases payload <;> simp_all [EventPayload.isMark, EventPayload.payloadType]
  | _ => simp [EventPayload.isMark] at hmark

end Planned

/-- A mark is an event of its phase. -/
theorem phase_of_closeMark {mark : ExecutionEvent F}
    (h : mark.payload.isMark .close = true) : mark.coordinate.phase = .closeMark := by
  rw [mark.phase_eq]
  cases hpayload : mark.payload with
  | portfolioMarked payload =>
      have htype : payload.markType = .close := by simpa [hpayload, EventPayload.isMark] using h
      simp [EventPayload.expectedPhase, htype]
  | _ => simp [hpayload, EventPayload.isMark] at h

/-- No close mark of its own bar comes before a submission. -/
theorem not_closeMark_earlier {mark submission : ExecutionEvent F} {payload : OrderSubmitted F}
    (hmark : mark.payload.isMark .close = true) (hmarkRun : InRun config mark)
    (hsubmission : submission.payload = .orderSubmitted payload)
    (hsubmissionRun : InRun config submission)
    (hbar : mark.coordinate.barIndex.1 = submission.coordinate.barIndex.1) :
    ¬ Earlier mark submission := by
  intro hearlier
  have hphase := hearlier.phase_le hmarkRun hsubmissionRun hbar
  rw [phase_of_closeMark hmark, submission.phase_eq, hsubmission] at hphase
  simp [EventPayload.expectedPhase, EventPhase.value] at hphase

theorem Bars.step {event : ExecutionEvent F} {parent : Option EventReference}
    {transition : PlannedTransition F} (hbefore : History config ledger log reducer)
    (h : Bars log reducer) (haccepted : Accepted config reducer event parent transition) :
    Bars (log ++ [event]) (reducer.publish event transition) := by
  have hafter := hbefore.recorded.step haccepted
  have hearlier := hbefore.recorded.earlier_of_cursor haccepted.later
  have hrun : InRun config event := ⟨haccepted.runId, haccepted.inCalendar⟩
  -- Every earlier mark is on this bar or before it.
  have hle : ∀ mark ∈ log, mark.coordinate.barIndex.1 ≤ event.coordinate.barIndex.1 :=
    fun mark hmark => (hearlier mark hmark).bar_le (hbefore.recorded.inRun mark hmark) hrun
  have hopenLe : ∀ bar ∈ reducer.openMarkBar, bar ≤ event.coordinate.barIndex.1 := by
    intro bar hbar
    obtain ⟨mark, hmem, -, rfl⟩ := hbefore.marked.openMark bar hbar
    exact hle mark hmem
  have hchange := haccepted.planned.orderChange
  refine ⟨?_, ?_, ?_, ?_, ?_⟩
  · intro orderId order hfound hterminal
    rw [Reducer.publish_openMarkBar]
    rw [Reducer.publish_orders] at hfound
    split
    · next hmark =>
      obtain ⟨hcount, hnone, -⟩ := haccepted.planned.of_openMark hmark
      rw [hnone, Option.elim_none] at hfound
      rw [hbefore.terminal_of_count hcount hfound] at hterminal
      cases hterminal
    · generalize transition.orderUpdate = update at hchange hfound
      cases hchange with
      | unchanged _ => exact h.openOrder orderId order hfound hterminal
      | submitted _ _ hopen =>
          rw [Option.elim_some, OrderedDict.get?_set] at hfound
          split at hfound
          · cases hfound
            exact hopen
          · exact h.openOrder orderId order hfound hterminal
      | moved _ _ hfound' hopen _ _ hsame =>
          rw [Option.elim_some, OrderedDict.get?_set] at hfound
          split at hfound
          · cases hfound
            rw [hsame.bar]
            exact h.openOrder _ _ hfound' hopen
          · exact h.openOrder orderId order hfound hterminal
  · rw [Reducer.publish_openOrderCount, Reducer.publish_openMarkBar, Reducer.publish_closeMarkBar]
    intro hsome heq
    by_cases hopenMark : event.payload.isMark .open = true
    · obtain ⟨hcount, hnone, -⟩ := haccepted.planned.of_openMark hopenMark
      simp [hcount, hnone]
    by_cases hcloseMark : event.payload.isMark .close = true
    · obtain ⟨hcount, hnone, -⟩ := haccepted.planned.of_closeMark hcloseMark
      simp [hcount, hnone]
    simp only [hopenMark, hcloseMark] at hsome heq
    have hcount := h.closed hsome heq
    generalize transition.orderUpdate = update at hchange
    cases hchange with
    | unchanged _ => simpa using hcount
    | submitted hpayload _ hopen =>
        -- The bar of the submission would already have its close mark.
        rw [hopen] at heq
        obtain ⟨mark, hmem, hmark, hbar⟩ := hbefore.marked.closeMark _ heq
        exact absurd (hearlier mark hmem)
          (not_closeMark_earlier hmark (hbefore.recorded.inRun mark hmem) hpayload hrun hbar)
    | moved _ _ hfound hopen _ _ _ =>
        rw [hbefore.terminal_of_count hcount hfound] at hopen
        cases hopen
  · intro bar hbar
    rw [Reducer.publish_closeMarkBar] at hbar
    rw [Reducer.publish_openMarkBar]
    by_cases hcloseMark : event.payload.isMark .close = true
    · obtain ⟨-, -, hopen, -⟩ := haccepted.planned.of_closeMark hcloseMark
      rw [if_pos hcloseMark, Option.mem_some_iff] at hbar
      split
      · exact ⟨_, rfl, hbar.ge⟩
      · exact ⟨_, hopen, hbar.ge⟩
    · rw [if_neg hcloseMark] at hbar
      obtain ⟨bar', hbar', hlt⟩ := h.closeMark_le bar hbar
      split
      · exact ⟨_, rfl, hlt.trans (hopenLe bar' hbar')⟩
      · exact ⟨bar', hbar', hlt⟩
  · intro mark hmem hmark
    rw [Reducer.publish_openMarkBar]
    rcases List.mem_append.mp hmem with hold | hnew
    · split
      · exact ⟨_, rfl, hle mark hold⟩
      · exact h.lastOpen mark hold hmark
    · rw [List.mem_singleton.mp hnew] at hmark ⊢
      rw [if_pos hmark]
      exact ⟨_, rfl, le_rfl⟩
  · intro mark hmem hmark
    rw [Reducer.publish_closeMarkBar]
    rcases List.mem_append.mp hmem with hold | hnew
    · split
      · exact ⟨_, rfl, hle mark hold⟩
      · exact h.lastClose mark hold hmark
    · rw [List.mem_singleton.mp hnew] at hmark ⊢
      rw [if_pos hmark]
      exact ⟨_, rfl, le_rfl⟩

theorem History.bars (h : History config ledger log reducer) : Bars log reducer := by
  refine h.invariant ⟨by simp [Reducer.initial], by simp [Reducer.initial],
    by simp [Reducer.initial], by simp, by simp⟩ ?_
  intro log reducer event parent transition hbefore ih haccepted
  exact ih.step hbefore haccepted

/-! ## The gates of one event -/

section Gates

variable {event : ExecutionEvent F} {parent : Option EventReference}
  {transition : PlannedTransition F}

/-- The events that wait for all orders. -/
def EventPayload.needsNoOrders : EventPayload F → Bool
  | cashChargeAccrued _ => true
  | signalAvailable _ => true
  | targetDecided _ => true
  | payload => payload.isMark .close

/-- A charge, a close mark or a decision is committed while no order is open. -/
theorem count_of_needsNoOrders (hbefore : History config ledger log reducer)
    (haccepted : Accepted config reducer event parent transition)
    (hkind : event.payload.needsNoOrders = true) : reducer.openOrderCount = 0 := by
  have hplanned := haccepted.planned
  generalize event.payload = payload at hplanned hkind
  cases hplanned with
  | charged _ _ hcount _ => exact hcount
  | closed _ _ _ hcount _ => exact hcount
  | opened _ hcount _ _ => exact hcount
  | lineage _ hclose =>
      -- The last open mark is on this bar as well.
      obtain ⟨bar, hbar, hle⟩ := hbefore.bars.closeMark_le _ hclose
      obtain ⟨mark, hmem, -, hmarkBar⟩ := hbefore.marked.openMark bar hbar
      have hge : bar ≤ event.coordinate.barIndex.1 := hmarkBar ▸
        (hbefore.recorded.earlier_of_cursor haccepted.later mark hmem).bar_le
          (hbefore.recorded.inRun mark hmem) ⟨haccepted.runId, haccepted.inCalendar⟩
      refine hbefore.bars.closed (by rw [hclose]; rfl) ?_
      rw [hclose, Option.mem_def.mp hbar, le_antisymm hle hge]
  | _ => simp [EventPayload.needsNoOrders, EventPayload.isMark] at hkind

/-- An event of a later bar than that of an open order ends the run. -/
theorem halted_of_earlier_order (hbefore : History config ledger log reducer)
    (haccepted : Accepted config reducer event parent transition) {orderId : String}
    {order : OrderState F} (hfound : reducer.orders.get? orderId = some order)
    (hopen : order.status.terminal = false)
    (hlater : order.submittedBarIndex < event.coordinate.barIndex.1) :
    (reducer.publish event transition).halted = true := by
  have hopenMark := hbefore.bars.openOrder orderId order hfound hopen
  -- A gate that waits for all orders is shut.
  have hshut : reducer.openOrderCount ≠ 0 := by
    intro hcount
    rw [hbefore.terminal_of_count hcount hfound] at hopen
    cases hopen
  -- Any other order on this bar would be open on two bars.
  have hother : ∀ otherId other, reducer.orders.get? otherId = some other →
      other.status.terminal = false → event.coordinate.barIndex.1 ≠ other.submittedBarIndex := by
    intro otherId other hother hotherOpen heq
    rw [hbefore.bars.openOrder otherId other hother hotherOpen, Option.some.injEq] at hopenMark
    omega
  have hplanned := haccepted.planned
  rw [Reducer.publish_halted]
  have hkind := count_of_needsNoOrders hbefore haccepted
  generalize event.payload = payload at hplanned hkind
  cases hplanned with
  | submitted _ hcurrent =>
      rw [hopenMark, Option.some.injEq] at hcurrent
      omega
  | accepted hother' hstatus _ =>
      exact absurd hother'.bar (hother _ _ hother'.found (by rw [hstatus]; rfl))
  | rejected hother' hstatus =>
      exact absurd hother'.bar (hother _ _ hother'.found (by rw [hstatus]; rfl))
  | filled hother' hstatus _ _ _ _ =>
      refine absurd hother'.bar (hother _ _ hother'.found ?_)
      rcases hstatus with hstatus | hstatus <;> rw [hstatus] <;> rfl
  | cancelled hother' hstatus _ => exact absurd hother'.bar (hother _ _ hother'.found hstatus)
  | charged _ _ hcount _ => exact absurd hcount hshut
  | opened _ hcount _ _ => exact absurd hcount hshut
  | closed _ _ _ hcount _ => exact absurd hcount hshut
  | halted _ _ => rfl
  | lineage hpayload _ =>
      refine absurd (hkind ?_) hshut
      cases payload <;> simp_all [EventPayload.needsNoOrders, EventPayload.payloadType]

end Gates

/-! ## The protocol of a log -/

/-- Two events of a log are the same or in order. -/
theorem Recorded.trichotomy (h : Recorded config log reducer) {event other : ExecutionEvent F}
    (hevent : event ∈ log) (hother : other ∈ log) :
    event = other ∨ Earlier event other ∨ Earlier other event := by
  rcases lt_trichotomy (eventSortKey event) (eventSortKey other) with hlt | heq | hgt
  · exact .inr (.inl hlt)
  · refine .inl (h.eq_of_eventId_eq hevent hother ?_)
    simp only [eventSortKey, ExecutionEvent.orderKey, EmbeddingLike.apply_eq_iff_eq,
      Prod.mk.injEq] at heq
    exact heq.2
  · exact .inr (.inr hgt)

/-- The committed event sequence of a run, bar by bar. -/
structure BarProtocol (config : EngineConfig) (ledger : PortfolioLedger F)
    (log : List (ExecutionEvent F)) : Prop where
  bars_increase : log.Pairwise fun event later =>
    event.coordinate.barIndex.1 ≤ later.coordinate.barIndex.1
  one_mark : ∀ markType, ∀ mark ∈ log, ∀ other ∈ log, mark.payload.isMark markType = true →
    other.payload.isMark markType = true →
      mark.coordinate.barIndex.1 = other.coordinate.barIndex.1 → mark = other
  open_first : ∀ mark ∈ log, mark.payload.isMark .close = true → ∃ first ∈ log,
    first.payload.isMark .open = true ∧
      first.coordinate.barIndex.1 = mark.coordinate.barIndex.1 ∧ Earlier first mark
  submissions : ∀ submission ∈ log, ∀ payload, submission.payload = .orderSubmitted payload →
    (∃ mark ∈ log, mark.payload.isMark .open = true ∧
      mark.coordinate.barIndex.1 = submission.coordinate.barIndex.1 ∧ Earlier mark submission) ∧
    ∀ mark ∈ log, mark.payload.isMark .close = true →
      mark.coordinate.barIndex.1 = submission.coordinate.barIndex.1 → Earlier submission mark
  no_open_order : ∀ before event after state, log = before ++ event :: after →
    History config ledger before state → event.payload.needsNoOrders = true →
      ∀ orderId order, state.orders.get? orderId = some order → order.status.terminal = true
  submission_bar : ∀ event ∈ log, event.payload.isOrderTransition = true →
    ∀ orderId ∈ event.payload.orderId?, ∃ submission ∈ log, ∃ payload,
      submission.payload = .orderSubmitted payload ∧ payload.orderId.1 = orderId ∧
        submission.coordinate.barIndex.1 = event.coordinate.barIndex.1 ∧ Earlier submission event
  earlier_order : ∀ before event after state next, log = before ++ event :: after →
    History config ledger before state → History config ledger (before ++ [event]) next →
      ∀ orderId order, state.orders.get? orderId = some order → order.status.terminal = false →
        order.submittedBarIndex < event.coordinate.barIndex.1 → next.halted = true

/-- The step of one event between the states before and after it. -/
theorem History.accepted_of_next {before : List (ExecutionEvent F)} {event : ExecutionEvent F}
    {state next : Reducer F} (hbefore : History config ledger before state)
    (hnext : History config ledger (before ++ [event]) next) :
    ∃ parent transition, Accepted config state event parent transition ∧
      next = state.publish event transition := by
  obtain ⟨state', hbefore', hstep⟩ := Committed.snoc_iff.mp hnext
  have hsame : state' = state := by
    have hreplay := hbefore'.replay_eq
    rw [hbefore.replay_eq, Except.ok.injEq] at hreplay
    exact hreplay.symm
  subst hsame
  exact accepted_of_apply hstep

/-- At most one mark of a type is on a bar: the gate of the later one was shut. -/
theorem History.not_earlier_mark (h : History config ledger log reducer) {markType : MarkType}
    {mark later : ExecutionEvent F} (hmem : mark ∈ log) (hlater : later ∈ log)
    (hmark : mark.payload.isMark markType = true) (hlaterMark : later.payload.isMark markType = true)
    (hbar : mark.coordinate.barIndex.1 = later.coordinate.barIndex.1) : ¬ Earlier mark later := by
  intro hearlier
  obtain ⟨before, after, state, parent, transition, rfl, hbefore, haccepted, -⟩ :=
    h.accepted_of_mem hlater
  have hrun : InRun config later := ⟨haccepted.runId, haccepted.inCalendar⟩
  have hmarkBefore : mark ∈ before := by
    rcases List.mem_append.mp hmem with hold | hrest
    · exact hold
    · have hincreasing := (List.pairwise_append.mp h.recorded.increasing).2.1
      rcases List.mem_cons.mp hrest with rfl | hafter
      · exact absurd hearlier (lt_irrefl _)
      · exact absurd hearlier (lt_asymm ((List.pairwise_cons.mp hincreasing).1 mark hafter))
  have hle : ∀ other ∈ before, other.coordinate.barIndex.1 ≤ later.coordinate.barIndex.1 :=
    fun other hother => (hbefore.recorded.earlier_of_cursor haccepted.later other hother).bar_le
      (hbefore.recorded.inRun other hother) hrun
  cases markType with
  | «open» =>
      obtain ⟨bar, hopen, hge⟩ := hbefore.bars.lastOpen mark hmarkBefore hmark
      obtain ⟨other, hother, -, hotherBar⟩ := hbefore.marked.openMark bar hopen
      refine (haccepted.planned.of_openMark hlaterMark).2.2 ?_
      rw [Option.mem_def.mp hopen, Option.some.injEq]
      exact le_antisymm (hotherBar ▸ hle other hother) (hbar ▸ hge)
  | close =>
      obtain ⟨bar, hclose, hge⟩ := hbefore.bars.lastClose mark hmarkBefore hmark
      obtain ⟨other, hother, -, hotherBar⟩ := hbefore.marked.closeMark bar hclose
      refine (haccepted.planned.of_closeMark hlaterMark).2.2.2 ?_
      rw [Option.mem_def.mp hclose, Option.some.injEq]
      exact le_antisymm (hotherBar ▸ hle other hother) (hbar ▸ hge)

theorem History.followsBars (h : History config ledger log reducer) :
    BarProtocol config ledger log := by
  have hrecorded := h.recorded
  refine ⟨?_, ?_, ?_, ?_, ?_, ?_, ?_⟩
  · exact hrecorded.increasing.imp_of_mem fun hmem hmem' hearlier =>
      hearlier.bar_le (hrecorded.inRun _ hmem) (hrecorded.inRun _ hmem')
  · intro markType mark hmem other hother hmark hotherMark hbar
    rcases hrecorded.trichotomy hmem hother with heq | hearlier | hearlier
    · exact heq
    · exact absurd hearlier (h.not_earlier_mark hmem hother hmark hotherMark hbar)
    · exact absurd hearlier (h.not_earlier_mark hother hmem hotherMark hmark hbar.symm)
  · intro mark hmem hmark
    obtain ⟨before, after, state, parent, transition, rfl, hbefore, haccepted, -⟩ :=
      h.accepted_of_mem hmem
    obtain ⟨-, -, hopen, -⟩ := haccepted.planned.of_closeMark hmark
    obtain ⟨first, hfirst, hfirstMark, hbar⟩ := hbefore.marked.openMark _ hopen
    exact ⟨first, List.mem_append_left _ hfirst, hfirstMark, hbar,
      hbefore.recorded.earlier_of_cursor haccepted.later first hfirst⟩
  · intro submission hmem payload hpayload
    refine ⟨?_, ?_⟩
    · obtain ⟨before, after, state, parent, transition, rfl, hbefore, haccepted, -⟩ :=
        h.accepted_of_mem hmem
      have hchange := haccepted.planned.orderChange
      have hopen : state.openMarkBar = some submission.coordinate.barIndex.1 := by
        generalize transition.orderUpdate = update at hchange
        cases hchange with
        | submitted _ _ hopen => exact hopen
        | unchanged hnone => simp [hpayload, EventPayload.orderId?] at hnone
        | moved _ htransition _ _ _ _ _ =>
            simp [hpayload, EventPayload.isOrderTransition] at htransition
      obtain ⟨mark, hmark, hopenMark, hbar⟩ := hbefore.marked.openMark _ hopen
      exact ⟨mark, List.mem_append_left _ hmark, hopenMark, hbar,
        hbefore.recorded.earlier_of_cursor haccepted.later mark hmark⟩
    · intro mark hmark hclose hbar
      rcases hrecorded.trichotomy hmem hmark with rfl | hearlier | hearlier
      · simp [hpayload, EventPayload.isMark] at hclose
      · exact hearlier
      · exact absurd hearlier (not_closeMark_earlier hclose (hrecorded.inRun mark hmark) hpayload
          (hrecorded.inRun submission hmem) hbar)
  · intro before event after state hlog hbefore hkind orderId order hfound
    obtain ⟨next, hnext, -⟩ := (show Committed (Reducer.apply config) (Reducer.initial ledger)
      ((before ++ [event]) ++ after) reducer by simpa [← hlog] using h).split
    obtain ⟨parent, transition, haccepted, -⟩ := History.accepted_of_next hbefore hnext
    exact hbefore.terminal_of_count (count_of_needsNoOrders hbefore haccepted hkind) hfound
  · intro event hmem htransition orderId horder
    obtain ⟨before, after, state, parent, transition, rfl, hbefore, haccepted, -⟩ :=
      h.accepted_of_mem hmem
    have hchange := haccepted.planned.orderChange
    generalize transition.orderUpdate = update at hchange
    cases hchange with
    | unchanged hnone =>
        rw [hnone] at horder
        cases horder
    | submitted hpayload _ _ => simp [hpayload, EventPayload.isOrderTransition] at htransition
    | moved hpayload _ hfound _ _ hbar _ =>
        rw [hpayload, Option.mem_some_iff] at horder
        subst horder
        obtain ⟨hid, submission, hsubmission, payload, hterms⟩ :=
          hbefore.submissions.submitted _ _ hfound
        exact ⟨submission, List.mem_append_left _ hsubmission, payload, hterms.payload_eq,
          hterms.orderId.symm.trans hid, (hbar.trans hterms.bar).symm,
          hbefore.recorded.earlier_of_cursor haccepted.later submission hsubmission⟩
  · intro before event after state next _ hbefore hnext orderId order hfound hopen hlater
    obtain ⟨parent, transition, haccepted, rfl⟩ := History.accepted_of_next hbefore hnext
    exact halted_of_earlier_order hbefore haccepted hfound hopen hlater

/-- In every reachable engine the committed events follow the protocol of their
bars. -/
theorem Reachable.barProtocol {J : Type} [Journal F J] {admits : J → Prop}
    {args : EngineArgs F} {engine : DeterministicEventEngine F J}
    (h : Reachable admits args engine log) :
    ∃ ledger, Origin args engine log ledger ∧ BarProtocol engine.config ledger log := by
  obtain ⟨ledger, horigin⟩ := h.origin
  exact ⟨ledger, horigin, horigin.history.followsBars⟩

end Protocol

open Platform in
/-- The trade follows the protocol. -/
theorem barProtocol_dayTrade : ∃ ledger, BarProtocol dayConfig ledger (dayLog 8) := by
  obtain ⟨engine, hreachable, hconfig, -⟩ := exists_reachable_dayTrade
  obtain ⟨ledger, -, hprotocol⟩ := hreachable.barProtocol
  exact ⟨ledger, hconfig ▸ hprotocol⟩

end SignalFoundry
