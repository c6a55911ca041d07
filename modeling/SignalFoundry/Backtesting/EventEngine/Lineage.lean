import SignalFoundry.Backtesting.EventEngine.Trace

/-!
# The lineage of a fill

Every committed fill goes back, cause by cause, over earlier fills of its order
to the acceptance and the submission of that order, and from there to the target
that the order serves and to the signal behind the target. The target is
eligible on the session of the fill, hence decided on an earlier bar, after the
close mark of that bar: nothing that is known only on the bar of the fill can
have caused it.
-/

namespace SignalFoundry

open EventSourcing Fallible

section Lineage

variable {F : Type} [PyRuntime] [PyFloat F] [FloatText F] {config : EngineConfig}
  {ledger : PortfolioLedger F} {log : List (ExecutionEvent F)} {reducer : Reducer F}

/-- The causation of an event is the identifier of another one. -/
def Cites (event cause : ExecutionEvent F) : Prop :=
  event.causationId.map Subtype.val = some cause.eventId

/-- The cause of a committed event: it is cited, comes earlier and has the same
correlation. -/
structure CauseOf (event cause : ExecutionEvent F) : Prop where
  cites : Cites event cause
  earlier : Earlier cause event
  correlationId : cause.correlationId = event.correlationId

/-- The correlation is kept along a chain of causes. -/
theorem correlationId_of_chain {event : ExecutionEvent F} {causes : List (ExecutionEvent F)}
    (h : (event :: causes).IsChain CauseOf) :
    ∀ cause ∈ causes, cause.correlationId = event.correlationId := by
  induction causes generalizing event with
  | nil => simp
  | cons first rest ih =>
      rw [List.isChain_cons_cons] at h
      intro cause hcause
      rcases List.mem_cons.mp hcause with rfl | hcause
      · exact h.1.correlationId
      · exact (ih h.2 cause hcause).trans h.1.correlationId

/-- An event that needs a cause has one among the events committed before it. -/
theorem exists_cause {state : Reducer F} {event : ExecutionEvent F}
    {parent : Option EventReference} {transition : PlannedTransition F}
    (required : List PayloadType) (h : History config ledger log state)
    (haccepted : Accepted config state event parent transition)
    (hrequired : event.payload.requiredCauses = some required) :
    ∃ cause ∈ log, CauseOf event cause ∧ parent = some (.of cause) ∧
      Caused event (.of cause) ∧ cause.payload.payloadType ∈ required := by
  have hcause := haccepted.cause
  cases hcause with
  | uncaused _ hnone =>
      rw [hrequired] at hnone
      cases hnone
  | caused hcites hfound hcaused =>
      obtain ⟨cause, hmem, hid, rfl⟩ := h.recorded.exists_of_reference hfound
      refine ⟨cause, hmem, ⟨?_, hcaused.earlier, Subtype.ext hcaused.correlationId⟩, rfl, hcaused,
        hcaused.payloadType required (by rw [hrequired]; rfl)⟩
      rw [Cites, hcites, Option.map_some, hid]

/-- A decision is committed after the close mark of its own bar. -/
theorem closeMark_of_decision (h : History config ledger log reducer) {event : ExecutionEvent F}
    (hevent : event ∈ log) (hkind : event.payload.payloadType = .signalAvailable ∨
      event.payload.payloadType = .targetDecided) :
    ∃ mark ∈ log, mark.payload.isMark .close = true ∧
      mark.coordinate.barIndex.1 = event.coordinate.barIndex.1 ∧ Earlier mark event := by
  obtain ⟨before, after, state, parent, transition, rfl, hbefore, haccepted, -⟩ :=
    h.accepted_of_mem hevent
  have hclose : state.closeMarkBar = some event.coordinate.barIndex.1 := by
    have hplanned := haccepted.planned
    generalize event.payload = payload at hplanned hkind
    cases hplanned with
    | lineage _ hclose => exact hclose
    | _ => simp [EventPayload.payloadType] at hkind
  obtain ⟨mark, hmem, hmark, hbar⟩ := hbefore.marked.closeMark _ hclose
  exact ⟨mark, List.mem_append_left _ hmem, hmark, hbar,
    hbefore.recorded.earlier_of_cursor haccepted.later mark hmem⟩

/-! ## From a fill to the acceptance of its order -/

/-- The events between a fill and the acceptance of its order. -/
structure ExecutionChain (log : List (ExecutionEvent F)) (fill : ExecutionEvent F)
    (orderId : Identifier) (fills : List (ExecutionEvent F)) (accepted : ExecutionEvent F) :
    Prop where
  chain : (fill :: (fills ++ [accepted])).IsChain CauseOf
  mem : ∀ event ∈ fills ++ [accepted], event ∈ log
  areFills : ∀ event ∈ fills, ∃ payload : FillApplied F,
    event.payload = .fillApplied payload ∧ payload.orderId = orderId
  isAcceptance : ∃ payload : OrderAccepted F,
    accepted.payload = .orderAccepted payload ∧ payload.orderId = orderId
  session : accepted.coordinate.session = fill.coordinate.session
  bar : accepted.coordinate.barIndex.1 = fill.coordinate.barIndex.1

/-- The order that a committed fill, acceptance or rejection names is the one of
its cause. -/
theorem orderId_of_cause {state : Reducer F} {event cause : ExecutionEvent F}
    {transition : PlannedTransition F} {orderId : String}
    (haccepted : Accepted config state event (some (.of cause)) transition)
    (htransition : event.payload.isOrderTransition = true)
    (horder : event.payload.orderId? = some orderId) :
    cause.payload.orderId? = some orderId := by
  have hplanned := haccepted.planned
  generalize event.payload = payload at hplanned horder htransition
  cases hplanned with
  | accepted hfound _ _ => exact horder ▸ hfound.cause _ rfl
  | rejected hfound _ => exact horder ▸ hfound.cause _ rfl
  | filled hfound _ _ _ _ _ => exact horder ▸ hfound.cause _ rfl
  | cancelled hfound _ _ => exact horder ▸ hfound.cause _ rfl
  | lineage hkind _ =>
      cases payload <;> simp_all [EventPayload.payloadType, EventPayload.orderId?]
  | _ => simp [EventPayload.isOrderTransition] at htransition

theorem exists_executionChain (h : History config ledger log reducer) {fill : ExecutionEvent F}
    {payload : FillApplied F} (hfill : fill ∈ log) (hpayload : fill.payload = .fillApplied payload) :
    ∃ fills accepted, ExecutionChain log fill payload.orderId fills accepted := by
  -- The cause of a fill lies in the log before it, which is shorter.
  induction hlength : log.length using Nat.strong_induction_on
    generalizing log reducer fill payload with
  | _ length ih =>
  obtain ⟨before, after, state, parent, transition, rfl, hbefore, haccepted, -⟩ :=
    h.accepted_of_mem hfill
  obtain ⟨cause, hmem, hcause, rfl, hcaused, htype⟩ := exists_cause
    [.orderAccepted, .fillApplied] hbefore haccepted (by rw [hpayload]; rfl)
  have htransition : fill.payload.isOrderTransition = true := by rw [hpayload]; rfl
  have horder : cause.payload.orderId? = some payload.orderId.1 :=
    orderId_of_cause haccepted htransition (by rw [hpayload]; rfl)
  obtain ⟨hsession, hbar⟩ := hcaused.sameBar htransition
  cases hkind : cause.payload with
  | orderAccepted accepted =>
      rw [hkind, EventPayload.orderId?, Option.some.injEq] at horder
      refine ⟨[], cause, ?_, ?_, by simp, ⟨accepted, hkind, Subtype.ext horder⟩, hsession, hbar⟩
      · exact .cons_cons hcause (.singleton _)
      · simp [hmem]
  | fillApplied earlier =>
      rw [hkind, EventPayload.orderId?, Option.some.injEq] at horder
      obtain ⟨fills, accepted, hchain⟩ := ih before.length (by simp [← hlength]) hbefore hmem hkind
        rfl
      have hsame : earlier.orderId = payload.orderId := Subtype.ext horder
      refine ⟨cause :: fills, accepted, ?_, ?_, ?_, ?_, hchain.session.trans hsession,
        hchain.bar.trans hbar⟩
      · exact .cons_cons hcause hchain.chain
      · intro event hevent
        rcases List.mem_cons.mp hevent with rfl | hevent
        · exact List.mem_append_left _ hmem
        · exact List.mem_append_left _ (hchain.mem event hevent)
      · intro event hevent
        rcases List.mem_cons.mp hevent with rfl | hevent
        · exact ⟨earlier, hkind, hsame⟩
        · exact hsame ▸ hchain.areFills event hevent
      · exact hsame ▸ hchain.isAcceptance
  | _ => simp [hkind, EventPayload.payloadType] at htype

/-! ## From the acceptance to the signal -/

/-- The events between the acceptance of an order and the signal behind it. -/
structure DecisionChain (log : List (ExecutionEvent F)) (accepted : ExecutionEvent F)
    (orderId : Identifier) (submitted target signal : ExecutionEvent F) : Prop where
  chain : [accepted, submitted, target, signal].IsChain CauseOf
  mem : ∀ event ∈ [submitted, target, signal], event ∈ log
  isSubmission : ∃ payload : OrderSubmitted F, submitted.payload = .orderSubmitted payload ∧
    payload.orderId = orderId ∧ ∃ decision : TargetDecided F,
      target.payload = .targetDecided decision ∧
        decision.eligibleSession = submitted.coordinate.session ∧
          ∃ weight ∈ decision.weights.1, weight.1.1 = payload.symbol.1
  isSignal : ∃ payload, signal.payload = .signalAvailable payload
  session : submitted.coordinate.session = accepted.coordinate.session
  bar : submitted.coordinate.barIndex.1 = accepted.coordinate.barIndex.1

theorem exists_decisionChain (h : History config ledger log reducer) {accepted : ExecutionEvent F}
    {payload : OrderAccepted F} (haccepted : accepted ∈ log)
    (hpayload : accepted.payload = .orderAccepted payload) :
    ∃ submitted target signal,
      DecisionChain log accepted payload.orderId submitted target signal := by
  obtain ⟨before₁, after₁, state₁, parent₁, transition₁, rfl, hbefore₁, hstep₁, -⟩ :=
    h.accepted_of_mem haccepted
  obtain ⟨submitted, hmem₁, hcause₁, rfl, hcaused₁, htype₁⟩ := exists_cause
    [.orderSubmitted] hbefore₁ hstep₁ (by rw [hpayload]; rfl)
  have htransition : accepted.payload.isOrderTransition = true := by rw [hpayload]; rfl
  have horder : submitted.payload.orderId? = some payload.orderId.1 :=
    orderId_of_cause hstep₁ htransition (by rw [hpayload]; rfl)
  obtain ⟨hsession, hbar⟩ := hcaused₁.sameBar htransition
  cases hsubmission : submitted.payload with
  | orderSubmitted submission =>
      rw [hsubmission, EventPayload.orderId?, Option.some.injEq] at horder
      obtain ⟨before₂, after₂, state₂, parent₂, transition₂, rfl, hbefore₂, hstep₂, -⟩ :=
        hbefore₁.accepted_of_mem hmem₁
      obtain ⟨target, hmem₂, hcause₂, rfl, hcaused₂, htype₂⟩ := exists_cause
        [.targetDecided] hbefore₂ hstep₂ (by rw [hsubmission]; rfl)
      obtain ⟨heligible, hsymbol⟩ := hcaused₂.submission submission hsubmission
      cases hdecision : target.payload with
      | targetDecided decision =>
          obtain ⟨before₃, after₃, state₃, parent₃, transition₃, rfl, hbefore₃, hstep₃, -⟩ :=
            hbefore₂.accepted_of_mem hmem₂
          obtain ⟨signal, hmem₃, hcause₃, rfl, hcaused₃, htype₃⟩ := exists_cause
            [.signalAvailable] hbefore₃ hstep₃ (by rw [hdecision]; rfl)
          refine ⟨submitted, target, signal, ?_, ?_, ?_, ?_, hsession, hbar⟩
          · exact .cons_cons hcause₁ (.cons_cons hcause₂ (.cons_cons hcause₃ (.singleton _)))
          · simp [hmem₃]
          · refine ⟨submission, hsubmission, Subtype.ext horder, decision, hdecision, ?_, ?_⟩
            · simpa [EventReference.of, hdecision, EventPayload.eligibleSession] using heligible
            · simpa [EventReference.of, hdecision, EventPayload.targetSymbols] using hsymbol
          · cases hsignal : signal.payload with
            | signalAvailable payload => exact ⟨payload, rfl⟩
            | _ => simp [hsignal, EventPayload.payloadType] at htype₃
      | _ => simp [hdecision, EventPayload.payloadType] at htype₂
  | _ => simp [hsubmission, EventPayload.payloadType] at htype₁

/-! ## The whole lineage -/

/-- The causes of a committed fill, from the fill back to a signal. -/
structure FillLineage (log : List (ExecutionEvent F)) (fill : ExecutionEvent F)
    (payload : FillApplied F) (fills : List (ExecutionEvent F))
    (accepted submitted target signal : ExecutionEvent F) : Prop where
  chain : (fill :: (fills ++ [accepted, submitted, target, signal])).IsChain fun event cause =>
    Cites event cause ∧ Earlier cause event
  committed : ∀ event ∈ fills ++ [accepted, submitted, target, signal],
    event ∈ log ∧ event.correlationId = fill.correlationId
  areFills : ∀ event ∈ fills, ∃ earlier : FillApplied F,
    event.payload = .fillApplied earlier ∧ earlier.orderId = payload.orderId
  isAcceptance : ∃ acceptance : OrderAccepted F, accepted.payload = .orderAccepted acceptance ∧
    acceptance.orderId = payload.orderId
  isSubmission : ∃ submission : OrderSubmitted F, submitted.payload = .orderSubmitted submission ∧
    submission.orderId = payload.orderId
  sameBar : ∀ event ∈ [accepted, submitted],
    event.coordinate.session = fill.coordinate.session ∧
      event.coordinate.barIndex.1 = fill.coordinate.barIndex.1
  isTarget : ∃ decision : TargetDecided F, target.payload = .targetDecided decision ∧
    decision.eligibleSession = fill.coordinate.session ∧
      ∃ weight ∈ decision.weights.1, weight.1.1 = payload.symbol.1
  isSignal : ∃ source, signal.payload = .signalAvailable source
  closeMarks : ∀ event ∈ [target, signal], ∃ mark ∈ log, mark.payload.isMark .close = true ∧
    mark.coordinate.barIndex.1 < fill.coordinate.barIndex.1 ∧ Earlier mark event

/-- The symbol of a committed fill is the one of the submission of its order. -/
theorem symbol_of_submission (h : History config ledger log reducer)
    {fill submitted : ExecutionEvent F} {payload : FillApplied F} {submission : OrderSubmitted F}
    (hfill : fill ∈ log) (hpayload : fill.payload = .fillApplied payload)
    (hsubmitted : submitted ∈ log) (hsubmission : submitted.payload = .orderSubmitted submission)
    (horder : submission.orderId = payload.orderId) : payload.symbol.1 = submission.symbol.1 := by
  obtain ⟨before, after, state, parent, transition, hlog, hbefore, haccepted, -⟩ :=
    h.accepted_of_mem hfill
  have hplanned := haccepted.planned
  rw [hpayload] at hplanned
  cases hplanned with
  | filled hfound _ hsymbol _ _ _ =>
      obtain ⟨-, other, hmem, terms, hterms⟩ := hbefore.submissions.submitted _ _ hfound.found
      have hid : terms.orderId = payload.orderId := by
        refine Subtype.ext (hterms.orderId.symm.trans ?_)
        exact (hbefore.submissions.submitted _ _ hfound.found).1
      have hsame : other = submitted := h.submissions.unique other
        (hlog ▸ List.mem_append_left _ hmem) submitted hsubmitted terms submission
        hterms.payload_eq hsubmission (hid.trans horder.symm)
      have hterms_eq := hterms.payload_eq
      rw [hsame, hsubmission] at hterms_eq
      cases hterms_eq
      exact hsymbol.trans hterms.symbol
  | lineage hkind _ => simp [EventPayload.payloadType] at hkind

theorem History.exists_lineage (h : History config ledger log reducer) {fill : ExecutionEvent F}
    {payload : FillApplied F} (hfill : fill ∈ log)
    (hpayload : fill.payload = .fillApplied payload) :
    ∃ fills accepted submitted target signal,
      FillLineage log fill payload fills accepted submitted target signal := by
  obtain ⟨fills, accepted, hexecution⟩ := exists_executionChain h hfill hpayload
  obtain ⟨acceptance, hacceptance, hacceptanceId⟩ := hexecution.isAcceptance
  have hacceptedMem : accepted ∈ log := hexecution.mem accepted (by simp)
  obtain ⟨submitted, target, signal, hdecisions⟩ := exists_decisionChain h hacceptedMem hacceptance
  obtain ⟨submission, hsubmission, hsubmissionId, decision, hdecision, heligible, weight, hweight,
    hsymbol⟩ := hdecisions.isSubmission
  have hsubmittedMem : submitted ∈ log := hdecisions.mem submitted (by simp)
  have htargetMem : target ∈ log := hdecisions.mem target (by simp)
  have hsignalMem : signal ∈ log := hdecisions.mem signal (by simp)
  have hchain : (fill :: (fills ++ [accepted, submitted, target, signal])).IsChain CauseOf := by
    have hsplit : fill :: (fills ++ [accepted, submitted, target, signal]) =
        (fill :: fills) ++ accepted :: [submitted, target, signal] := by simp
    rw [hsplit, List.isChain_split]
    exact ⟨by simpa using hexecution.chain, hdecisions.chain⟩
  have hsession : submitted.coordinate.session = fill.coordinate.session :=
    hdecisions.session.trans hexecution.session
  have hbar : submitted.coordinate.barIndex.1 = fill.coordinate.barIndex.1 :=
    hdecisions.bar.trans hexecution.bar
  have htargetBar : target.coordinate.barIndex.1 < fill.coordinate.barIndex.1 := by
    refine bar_lt_of_session_lt (h.recorded.inRun target htargetMem).inCalendar
      (h.recorded.inRun fill hfill).inCalendar ?_
    have hafter := target.eligible
    rw [hdecision, EventPayload.EligibleAfter, heligible, hsession] at hafter
    exact hafter
  have hsignalBar : signal.coordinate.barIndex.1 ≤ target.coordinate.barIndex.1 := by
    have hlast : CauseOf target signal := by
      have hpair := hdecisions.chain
      simp only [List.isChain_cons_cons] at hpair
      exact hpair.2.2.1
    exact hlast.earlier.bar_le (h.recorded.inRun signal hsignalMem)
      (h.recorded.inRun target htargetMem)
  obtain ⟨source, hsource⟩ := hdecisions.isSignal
  refine ⟨fills, accepted, submitted, target, signal, ?_, ?_, hexecution.areFills,
    ⟨acceptance, hacceptance, hacceptanceId⟩, ⟨submission, hsubmission,
      hsubmissionId.trans hacceptanceId⟩, ?_, ⟨decision, hdecision, heligible.trans hsession,
        weight, hweight, ?_⟩, ⟨source, hsource⟩, ?_⟩
  · exact hchain.imp fun _ _ hcause => ⟨hcause.cites, hcause.earlier⟩
  · intro event hevent
    refine ⟨?_, ?_⟩
    · rcases List.mem_append.mp hevent with hfills | hrest
      · exact hexecution.mem event (List.mem_append_left _ hfills)
      · rcases List.mem_cons.mp hrest with rfl | hrest
        · exact hacceptedMem
        · exact hdecisions.mem event hrest
    · exact correlationId_of_chain hchain event hevent
  · intro event hevent
    rcases List.mem_cons.mp hevent with rfl | hevent
    · exact ⟨hexecution.session, hexecution.bar⟩
    · rw [List.mem_singleton.mp hevent]
      exact ⟨hsession, hbar⟩
  · exact hsymbol.trans (symbol_of_submission h hfill hpayload hsubmittedMem hsubmission
      (hsubmissionId.trans hacceptanceId)).symm
  · intro event hevent
    rcases List.mem_cons.mp hevent with rfl | hevent
    · obtain ⟨mark, hmem, hmark, hmarkBar, hearlier⟩ := closeMark_of_decision h htargetMem
        (.inr (by rw [hdecision]; rfl))
      exact ⟨mark, hmem, hmark, hmarkBar ▸ htargetBar, hearlier⟩
    · rw [List.mem_singleton.mp hevent]
      obtain ⟨mark, hmem, hmark, hmarkBar, hearlier⟩ := closeMark_of_decision h hsignalMem
        (.inl (by rw [hsource]; rfl))
      exact ⟨mark, hmem, hmark, hmarkBar ▸ lt_of_le_of_lt hsignalBar htargetBar, hearlier⟩

/-- No look-ahead. In every reachable engine every committed fill has its
complete lineage in the log, and its decisions were made after the close of an
earlier bar. -/
theorem Reachable.fillLineage {J : Type} [Journal F J] {admits : J → Prop}
    {args : EngineArgs F} {engine : DeterministicEventEngine F J}
    (h : Reachable admits args engine log)
    {fill : ExecutionEvent F} {payload : FillApplied F} (hfill : fill ∈ log)
    (hpayload : fill.payload = .fillApplied payload) :
    ∃ fills accepted submitted target signal,
      FillLineage log fill payload fills accepted submitted target signal := by
  obtain ⟨ledger, horigin⟩ := h.origin
  exact horigin.history.exists_lineage hfill hpayload

end Lineage

open Platform in
/-- The fill of the trade and its causes. -/
theorem fillLineage_dayTrade : ∃ payload, fillEvent.payload = .fillApplied payload ∧
    ∃ fills accepted submitted target signal,
      FillLineage (dayLog 8) fillEvent payload fills accepted submitted target signal := by
  obtain ⟨engine, hreachable, -⟩ := exists_reachable_dayTrade
  exact ⟨_, rfl, hreachable.fillLineage (by simp [dayLog, dayTrade]) rfl⟩

end SignalFoundry
