import SignalFoundry.Backtesting.EventEngine.Step
import SignalFoundry.Library.EventSourcing

/-!
# The history of a reducer

A reducer state comes from a log of committed events. `Recorded` says what the
state keeps of every event of that log: its reference and its fingerprint, in
the order of commitment, which is the order of the sort keys. Sessions and bar
indices of one calendar grow together, so the keys of a log order its bars as
well.
-/

namespace SignalFoundry

open EventSourcing Fallible

/-! ## Sessions and bars -/

section Calendar

variable {config : EngineConfig} {session session' : PyDate} {bar bar' : ℕ}

theorem calendarIndex_eq_some_iff : config.calendarIndex session = some bar ↔
    ∃ h : bar < config.calendar.1.length, config.calendar.1[bar] = session := by
  have hnodup : config.calendar.1.Nodup := config.calendar.2.2.2.pairwise.imp fun h => h.ne
  rw [EngineConfig.calendarIndex, List.idxOf?, List.findIdx?_eq_some_iff_getElem]
  constructor
  · rintro ⟨hlt, hsession, -⟩
    exact ⟨hlt, by simpa using hsession⟩
  · rintro ⟨hlt, hsession⟩
    refine ⟨hlt, by simpa using hsession, ?_⟩
    intro other hother
    rw [Bool.not_eq_true, beq_eq_false_iff_ne, ← hsession]
    exact fun heq => hother.ne (hnodup.getElem_inj_iff.mp heq)

/-- The calendar is strictly increasing. -/
theorem bar_lt_of_session_lt (h : config.calendarIndex session = some bar)
    (h' : config.calendarIndex session' = some bar') (hlt : session < session') : bar < bar' := by
  obtain ⟨hbar, rfl⟩ := calendarIndex_eq_some_iff.mp h
  obtain ⟨hbar', rfl⟩ := calendarIndex_eq_some_iff.mp h'
  have hincreasing := List.pairwise_iff_getElem.mp config.calendar.2.2.2.pairwise
  rcases lt_trichotomy bar bar' with hless | heq | hmore
  · exact hless
  · subst heq
    exact absurd hlt (lt_irrefl _)
  · exact absurd (hincreasing bar' bar hbar' hbar hmore) hlt.not_gt

theorem session_eq_of_bar_eq (h : config.calendarIndex session = some bar)
    (h' : config.calendarIndex session' = some bar) : session = session' := by
  obtain ⟨_, rfl⟩ := calendarIndex_eq_some_iff.mp h
  obtain ⟨_, rfl⟩ := calendarIndex_eq_some_iff.mp h'
  rfl

end Calendar

variable {F : Type} [PyRuntime] [PyFloat F] [FloatText F] {config : EngineConfig}

/-- An event of the run whose bar is the one of its session. -/
structure InRun (config : EngineConfig) (event : ExecutionEvent F) : Prop where
  runId : event.runId.1 = config.runId
  inCalendar :
    config.calendarIndex event.coordinate.session = some event.coordinate.barIndex.1

/-- An event comes before another one. -/
def Earlier (event later : ExecutionEvent F) : Prop := eventSortKey event < eventSortKey later

section Keys

variable {event later : ExecutionEvent F}

theorem Earlier.coordinate_le (h : Earlier event later) :
    event.coordinate.key ≤ later.coordinate.key := by
  rcases Prod.Lex.toLex_lt_toLex.mp (show toLex (event.coordinate, event.eventId) <
    toLex (later.coordinate, later.eventId) from h) with hlt | ⟨heq, -⟩
  · exact hlt.le
  · dsimp only at heq
    rw [heq]

/-- Bars do not go back. -/
theorem Earlier.bar_le (h : Earlier event later) (hevent : InRun config event)
    (hlater : InRun config later) :
    event.coordinate.barIndex.1 ≤ later.coordinate.barIndex.1 := by
  rcases Prod.Lex.toLex_le_toLex.mp h.coordinate_le with hlt | ⟨hsession, hrest⟩
  · exact (bar_lt_of_session_lt hevent.inCalendar hlater.inCalendar hlt).le
  · rcases Prod.Lex.toLex_le_toLex.mp hrest with hlt | ⟨heq, -⟩
    · exact hlt.le
    · exact heq.le

/-- Within a bar, phases do not go back. -/
theorem Earlier.phase_le (h : Earlier event later) (hevent : InRun config event)
    (hlater : InRun config later)
    (hbar : event.coordinate.barIndex.1 = later.coordinate.barIndex.1) :
    event.coordinate.phase.value ≤ later.coordinate.phase.value := by
  have hsession : event.coordinate.session = later.coordinate.session :=
    session_eq_of_bar_eq hevent.inCalendar (hbar ▸ hlater.inCalendar)
  have hle := h.coordinate_le
  simp only [EventCoordinate.key, hsession, hbar, Prod.Lex.toLex_le_toLex, lt_irrefl, false_or,
    true_and] at hle
  rcases hle with hlt | ⟨heq, -⟩
  · exact hlt.le
  · exact heq.le

end Keys

/-! ## What is kept of the log -/

/-- What a reducer keeps of the events that it committed. -/
structure Recorded (config : EngineConfig) (log : List (ExecutionEvent F)) (reducer : Reducer F) :
    Prop where
  references : reducer.references.items = log.map fun event => (event.eventId, .of event)
  fingerprints :
    reducer.fingerprints.items = log.map fun event => (event.eventId, fingerprint event)
  cursor : reducer.cursor = log.getLast?.map eventSortKey
  increasing : log.Pairwise Earlier
  inRun : ∀ event ∈ log, InRun config event

namespace Recorded

variable {log : List (ExecutionEvent F)} {reducer : Reducer F} {event : ExecutionEvent F}

theorem initial (config : EngineConfig) (ledger : PortfolioLedger F) :
    Recorded config [] (Reducer.initial ledger) :=
  ⟨rfl, rfl, rfl, .nil, by simp⟩

theorem mem_fingerprints_iff (h : Recorded config log reducer) {eventId : String} :
    eventId ∈ reducer.fingerprints.keys ↔ ∃ event ∈ log, event.eventId = eventId := by
  rw [OrderedDict.keys, h.fingerprints]
  simp

theorem keys_references (h : Recorded config log reducer) :
    reducer.references.keys = reducer.fingerprints.keys := by
  rw [OrderedDict.keys, OrderedDict.keys, h.references, h.fingerprints, List.map_map, List.map_map]
  rfl

/-- A reference is the one of a committed event. -/
theorem exists_of_reference (h : Recorded config log reducer) {eventId : String}
    {reference : EventReference} (hfound : reducer.references.get? eventId = some reference) :
    ∃ event ∈ log, event.eventId = eventId ∧ EventReference.of event = reference := by
  rw [OrderedDict.get?_eq_some_iff, h.references] at hfound
  simpa using hfound

/-- Everything committed comes before an event that is later than the cursor. -/
theorem earlier_of_cursor (h : Recorded config log reducer)
    (hlater : ∀ cursor ∈ reducer.cursor, cursor < eventSortKey event) :
    ∀ committed ∈ log, Earlier committed event := by
  induction log using List.reverseRecOn with
  | nil => simp
  | append_singleton front last _ =>
      have hlast : Earlier last event := hlater _ (by rw [h.cursor]; simp)
      intro committed hcommitted
      rcases List.mem_append.mp hcommitted with hfront | hsame
      · exact lt_trans ((List.pairwise_append.mp h.increasing).2.2 committed hfront last (by simp))
          hlast
      · rw [List.mem_singleton.mp hsame]
        exact hlast

/-- What a committed event adds to the record. -/
theorem step (h : Recorded config log reducer) {parent : Option EventReference}
    {transition : PlannedTransition F}
    (haccepted : Accepted config reducer event parent transition) :
    Recorded config (log ++ [event]) (reducer.publish event transition) := by
  have hfresh : event.eventId ∉ reducer.fingerprints.keys :=
    OrderedDict.get?_eq_none_iff.mp haccepted.fresh
  refine ⟨?_, ?_, ?_, ?_, ?_⟩
  · rw [Reducer.publish_references,
      OrderedDict.items_set_of_not_mem (h.keys_references ▸ hfresh), h.references]
    simp
  · rw [Reducer.publish_fingerprints, OrderedDict.items_set_of_not_mem hfresh, h.fingerprints]
    simp
  · simp
  · refine List.pairwise_append.mpr ⟨h.increasing, List.pairwise_singleton _ _, ?_⟩
    intro committed hcommitted later hlater
    rw [List.mem_singleton.mp hlater]
    exact h.earlier_of_cursor haccepted.later committed hcommitted
  · intro committed hcommitted
    rcases List.mem_append.mp hcommitted with hold | hnew
    · exact h.inRun committed hold
    · rw [List.mem_singleton.mp hnew]
      exact ⟨haccepted.runId, haccepted.inCalendar⟩

/-- The identifiers of a log are distinct. -/
theorem nodup_eventIds (h : Recorded config log reducer) :
    (log.map fun event => event.eventId).Nodup := by
  have hnodup := reducer.fingerprints.nodup_keys
  rw [h.fingerprints, List.map_map] at hnodup
  exact hnodup

/-- A committed event is the only one with its identifier. -/
theorem eq_of_eventId_eq (h : Recorded config log reducer) {other : ExecutionEvent F}
    (hevent : event ∈ log) (hother : other ∈ log) (hid : event.eventId = other.eventId) :
    event = other :=
  List.inj_on_of_nodup_map h.nodup_eventIds hevent hother hid

end Recorded

/-! ## Induction over a history -/

/-- The reducers of the logs that a new engine can commit. -/
abbrev History (config : EngineConfig) (ledger : PortfolioLedger F)
    (log : List (ExecutionEvent F)) (reducer : Reducer F) : Prop :=
  Committed (Reducer.apply config) (Reducer.initial ledger) log reducer

theorem History.recorded {ledger : PortfolioLedger F} {log : List (ExecutionEvent F)}
    {reducer : Reducer F} (h : History config ledger log reducer) :
    Recorded config log reducer := by
  induction h with
  | nil => exact .initial config ledger
  | snoc _ hevent ih =>
      obtain ⟨parent, transition, haccepted, rfl⟩ := accepted_of_apply hevent
      exact ih.step haccepted

/-- An invariant of log and state, from its preservation by one accepted event. -/
theorem History.invariant {P : List (ExecutionEvent F) → Reducer F → Prop}
    {ledger : PortfolioLedger F} {log : List (ExecutionEvent F)} {reducer : Reducer F}
    (h : History config ledger log reducer) (hinitial : P [] (Reducer.initial ledger))
    (hstep : ∀ {log : List (ExecutionEvent F)} {reducer : Reducer F} {event : ExecutionEvent F}
      {parent : Option EventReference} {transition : PlannedTransition F},
      History config ledger log reducer → P log reducer →
        Accepted config reducer event parent transition →
          P (log ++ [event]) (reducer.publish event transition)) : P log reducer := by
  induction h with
  | nil => exact hinitial
  | snoc hbefore hevent ih =>
      obtain ⟨parent, transition, haccepted, rfl⟩ := accepted_of_apply hevent
      exact hstep hbefore ih haccepted

/-- The state in which an event of the log was accepted. -/
theorem History.accepted_of_mem {ledger : PortfolioLedger F} {log : List (ExecutionEvent F)}
    {reducer : Reducer F} {event : ExecutionEvent F} (h : History config ledger log reducer)
    (hevent : event ∈ log) :
    ∃ before after state parent transition, log = before ++ event :: after ∧
      History config ledger before state ∧ Accepted config state event parent transition ∧
        Committed (Reducer.apply config) (state.publish event transition) after reducer := by
  obtain ⟨before, after, rfl⟩ := List.append_of_mem hevent
  obtain ⟨state, next, hbefore, hstep, hafter⟩ := h.split_at
  obtain ⟨parent, transition, haccepted, rfl⟩ := accepted_of_apply hstep
  exact ⟨before, after, state, parent, transition, rfl, hbefore, haccepted, hafter⟩

/-! ## Marks -/

/-- The remembered marks are marks of the log. -/
structure Marked (log : List (ExecutionEvent F)) (reducer : Reducer F) : Prop where
  openMark : ∀ bar ∈ reducer.openMarkBar, ∃ mark ∈ log,
    mark.payload.isMark .open = true ∧ mark.coordinate.barIndex.1 = bar
  closeMark : ∀ bar ∈ reducer.closeMarkBar, ∃ mark ∈ log,
    mark.payload.isMark .close = true ∧ mark.coordinate.barIndex.1 = bar

theorem History.marked {ledger : PortfolioLedger F} {log : List (ExecutionEvent F)}
    {reducer : Reducer F} (h : History config ledger log reducer) : Marked log reducer := by
  refine h.invariant ⟨by simp [Reducer.initial], by simp [Reducer.initial]⟩ ?_
  intro log reducer event parent transition _ ih _
  refine ⟨?_, ?_⟩
  · intro bar hbar
    rw [Reducer.publish_openMarkBar] at hbar
    split at hbar
    · next hmark => exact ⟨event, by simp, hmark, by simpa using hbar⟩
    · obtain ⟨mark, hmem, hmark⟩ := ih.openMark bar hbar
      exact ⟨mark, List.mem_append_left _ hmem, hmark⟩
  · intro bar hbar
    rw [Reducer.publish_closeMarkBar] at hbar
    split at hbar
    · next hmark => exact ⟨event, by simp, hmark, by simpa using hbar⟩
    · obtain ⟨mark, hmem, hmark⟩ := ih.closeMark bar hbar
      exact ⟨mark, List.mem_append_left _ hmem, hmark⟩

/-! ## Orders -/

/-- The terms of an order, which none of its transitions changes. -/
structure SameTerms (order next : OrderState F) : Prop where
  orderId : next.orderId = order.orderId
  symbol : next.symbol = order.symbol
  side : next.side = order.side
  requestedQuantity : next.requestedQuantity = order.requestedQuantity
  session : next.submittedSession = order.submittedSession
  bar : next.submittedBarIndex = order.submittedBarIndex

/-- What a transition can do to the orders. -/
inductive OrderChange (reducer : Reducer F) (event : ExecutionEvent F) :
    Option (OrderState F) → Prop
  | unchanged (hpayload : event.payload.orderId? = none) : OrderChange reducer event none
  | submitted {payload : OrderSubmitted F} (hpayload : event.payload = .orderSubmitted payload)
      (hnew : payload.orderId.1 ∉ reducer.orders.keys)
      (hopen : reducer.openMarkBar = some event.coordinate.barIndex.1) :
      OrderChange reducer event (some (.ofSubmission event payload))
  | moved {orderId : String} {order next : OrderState F}
      (hpayload : event.payload.orderId? = some orderId)
      (htransition : event.payload.isOrderTransition = true)
      (hfound : reducer.orders.get? orderId = some order) (hopen : order.status.terminal = false)
      (hsession : event.coordinate.session = order.submittedSession)
      (hbar : event.coordinate.barIndex.1 = order.submittedBarIndex)
      (hsame : SameTerms order next) : OrderChange reducer event (some next)

theorem Planned.orderChange {reducer : Reducer F} {event : ExecutionEvent F}
    {parent : Option EventReference} {transition : PlannedTransition F}
    (h : Planned config reducer event parent event.payload transition) :
    OrderChange reducer event transition.orderUpdate := by
  generalize hpayload : event.payload = payload at h
  cases h with
  | submitted hnew hopen => exact .submitted hpayload hnew hopen
  | accepted hfound hstatus _ =>
      exact .moved (by simp [hpayload, EventPayload.orderId?])
        (by simp [hpayload, EventPayload.isOrderTransition]) hfound.found
        (by rw [hstatus]; rfl) hfound.session hfound.bar ⟨rfl, rfl, rfl, rfl, rfl, rfl⟩
  | rejected hfound hstatus =>
      exact .moved (by simp [hpayload, EventPayload.orderId?])
        (by simp [hpayload, EventPayload.isOrderTransition]) hfound.found
        (by rw [hstatus]; rfl) hfound.session hfound.bar ⟨rfl, rfl, rfl, rfl, rfl, rfl⟩
  | filled hfound hstatus _ _ _ _ =>
      exact .moved (by simp [hpayload, EventPayload.orderId?])
        (by simp [hpayload, EventPayload.isOrderTransition]) hfound.found
        (by rcases hstatus with hstatus | hstatus <;> rw [hstatus] <;> rfl)
        hfound.session hfound.bar ⟨rfl, rfl, rfl, rfl, rfl, rfl⟩
  | cancelled hfound hstatus _ =>
      exact .moved (by simp [hpayload, EventPayload.orderId?])
        (by simp [hpayload, EventPayload.isOrderTransition]) hfound.found hstatus
        hfound.session hfound.bar ⟨rfl, rfl, rfl, rfl, rfl, rfl⟩
  | charged _ _ _ _ => exact .unchanged (by simp [hpayload, EventPayload.orderId?])
  | opened _ _ _ _ => exact .unchanged (by simp [hpayload, EventPayload.orderId?])
  | closed _ _ _ _ _ => exact .unchanged (by simp [hpayload, EventPayload.orderId?])
  | halted _ _ => exact .unchanged (by simp [hpayload, EventPayload.orderId?])
  | lineage hkind _ =>
      refine .unchanged ?_
      rw [hpayload]
      cases payload <;> simp_all [EventPayload.payloadType, EventPayload.orderId?]

/-- A submission from which an order has its terms. -/
structure SubmittedBy (submission : ExecutionEvent F) (order : OrderState F)
    (payload : OrderSubmitted F) : Prop where
  payload_eq : submission.payload = .orderSubmitted payload
  orderId : order.orderId = payload.orderId.1
  symbol : order.symbol = payload.symbol.1
  side : order.side = payload.side
  requestedQuantity : order.requestedQuantity = payload.quantity.1
  session : order.submittedSession = submission.coordinate.session
  bar : order.submittedBarIndex = submission.coordinate.barIndex.1

theorem SubmittedBy.sameTerms {submission : ExecutionEvent F} {order next : OrderState F}
    {payload : OrderSubmitted F} (h : SubmittedBy submission order payload)
    (hsame : SameTerms order next) : SubmittedBy submission next payload :=
  ⟨h.payload_eq, hsame.orderId.trans h.orderId, hsame.symbol.trans h.symbol,
    hsame.side.trans h.side, hsame.requestedQuantity.trans h.requestedQuantity,
    hsame.session.trans h.session, hsame.bar.trans h.bar⟩

/-- The orders of a reducer are the submissions of its log. -/
structure Submissions (log : List (ExecutionEvent F)) (reducer : Reducer F) : Prop where
  submitted : ∀ orderId order, reducer.orders.get? orderId = some order →
    order.orderId = orderId ∧ ∃ submission ∈ log, ∃ payload, SubmittedBy submission order payload
  known : ∀ submission ∈ log, ∀ payload, submission.payload = .orderSubmitted payload →
    payload.orderId.1 ∈ reducer.orders.keys
  unique : ∀ submission ∈ log, ∀ other ∈ log, ∀ payload payload',
    submission.payload = .orderSubmitted payload → other.payload = .orderSubmitted payload' →
      payload.orderId = payload'.orderId → submission = other

theorem Submissions.step {log : List (ExecutionEvent F)} {reducer : Reducer F}
    {event : ExecutionEvent F} {transition : PlannedTransition F} (h : Submissions log reducer)
    (hchange : OrderChange reducer event transition.orderUpdate) :
    Submissions (log ++ [event]) (reducer.publish event transition) := by
  generalize hupdate : transition.orderUpdate = update at hchange
  have horders := reducer.publish_orders event transition
  rw [hupdate] at horders
  have hkept : ∀ orderId order, reducer.orders.get? orderId = some order →
      order.orderId = orderId ∧ ∃ submission ∈ log ++ [event], ∃ payload,
        SubmittedBy submission order payload := by
    intro orderId order hfound
    obtain ⟨hid, submission, hmem, hsubmitted⟩ := h.submitted orderId order hfound
    exact ⟨hid, submission, List.mem_append_left _ hmem, hsubmitted⟩
  -- Only a submission adds to the submissions of the log.
  have hother : (∀ payload, event.payload ≠ .orderSubmitted payload) →
      ∀ submission ∈ log ++ [event], ∀ payload,
        submission.payload = .orderSubmitted payload → submission ∈ log := by
    intro hnot submission hmem payload hpayload
    rcases List.mem_append.mp hmem with hold | hnew
    · exact hold
    · rw [List.mem_singleton.mp hnew] at hpayload
      exact absurd hpayload (hnot payload)
  cases hchange with
  | unchanged hpayload =>
      have hnot : ∀ payload, event.payload ≠ .orderSubmitted payload := by
        intro payload heq
        simp [heq, EventPayload.orderId?] at hpayload
      rw [Option.elim_none] at horders
      refine ⟨?_, ?_, ?_⟩
      · rw [horders]
        exact hkept
      · intro submission hmem payload hsubmitted
        rw [horders]
        exact h.known submission (hother hnot submission hmem payload hsubmitted) payload hsubmitted
      · intro submission hmem other hmem' payload payload' hpayload hpayload'
        exact h.unique submission (hother hnot _ hmem _ hpayload) other
          (hother hnot _ hmem' _ hpayload') payload payload' hpayload hpayload'
  | @moved orderId order next hpayload htransition hfound _ _ _ hsame =>
      have hnot : ∀ payload, event.payload ≠ .orderSubmitted payload := by
        intro payload heq
        simp [heq, EventPayload.isOrderTransition] at htransition
      obtain ⟨hid, submission, hmem, payload, hsubmitted⟩ := hkept orderId order hfound
      have hkey : next.orderId = orderId := hsame.orderId.trans hid
      rw [Option.elim_some, hkey] at horders
      refine ⟨?_, ?_, ?_⟩
      · intro other found hfound'
        rw [horders, OrderedDict.get?_set] at hfound'
        split at hfound'
        · next heq =>
          cases hfound'
          exact ⟨hkey.trans heq.symm, submission, hmem, payload, hsubmitted.sameTerms hsame⟩
        · exact hkept other found hfound'
      · intro submission hmem payload hsubmitted
        rw [horders, OrderedDict.mem_keys_set]
        exact .inr (h.known submission (hother hnot submission hmem payload hsubmitted) payload
          hsubmitted)
      · intro submission hmem other hmem' payload payload' hpayload hpayload'
        exact h.unique submission (hother hnot _ hmem _ hpayload) other
          (hother hnot _ hmem' _ hpayload') payload payload' hpayload hpayload'
  | @submitted payload hpayload hnew _ =>
      have hkey : (OrderState.ofSubmission event payload).orderId = payload.orderId.1 := rfl
      rw [Option.elim_some, hkey] at horders
      -- An earlier submission has another identifier.
      have hfresh : ∀ submission ∈ log, ∀ payload', submission.payload = .orderSubmitted payload' →
          payload'.orderId ≠ payload.orderId := by
        intro submission hmem payload' hpayload' heq
        exact hnew (heq ▸ h.known submission hmem payload' hpayload')
      refine ⟨?_, ?_, ?_⟩
      · intro other found hfound'
        rw [horders, OrderedDict.get?_set] at hfound'
        split at hfound'
        · next heq =>
          cases hfound'
          exact ⟨heq.symm, event, by simp, payload, hpayload, rfl, rfl, rfl, rfl, rfl, rfl⟩
        · exact hkept other found hfound'
      · intro submission hmem payload' hpayload'
        rw [horders, OrderedDict.mem_keys_set]
        rcases List.mem_append.mp hmem with hold | hsame
        · exact .inr (h.known submission hold payload' hpayload')
        · rw [List.mem_singleton.mp hsame, hpayload] at hpayload'
          cases hpayload'
          exact .inl rfl
      · intro submission hmem other hmem' payload₁ payload₂ hpayload₁ hpayload₂ heq
        rcases List.mem_append.mp hmem with hold | hsame
        · rcases List.mem_append.mp hmem' with hold' | hsame'
          · exact h.unique submission hold other hold' payload₁ payload₂ hpayload₁ hpayload₂ heq
          · rw [List.mem_singleton.mp hsame', hpayload] at hpayload₂
            cases hpayload₂
            exact absurd heq (hfresh submission hold payload₁ hpayload₁)
        · rw [List.mem_singleton.mp hsame, hpayload] at hpayload₁
          cases hpayload₁
          rcases List.mem_append.mp hmem' with hold' | hsame'
          · exact absurd heq.symm (hfresh other hold' payload₂ hpayload₂)
          · rw [List.mem_singleton.mp hsame, List.mem_singleton.mp hsame']

theorem History.submissions {ledger : PortfolioLedger F} {log : List (ExecutionEvent F)}
    {reducer : Reducer F} (h : History config ledger log reducer) : Submissions log reducer := by
  refine h.invariant ⟨by simp [Reducer.initial], by simp, by simp⟩ ?_
  intro log reducer event parent transition _ ih haccepted
  exact ih.step haccepted.planned.orderChange

end SignalFoundry
