import SignalFoundry.Backtesting.EventEngine.BarProtocol
import SignalFoundry.Backtesting.Ledger.SelfFinancing

/-!
# The life of an order

Over the rationals, where the tolerance of an overrun is zero, the quantities of
an order follow its status, its filled quantity is the sum of its committed
fills, and the ledger holds of every symbol what the orders of that symbol have
filled. An order whose status is terminal stays as it is.
-/

namespace SignalFoundry

open EventSourcing Fallible PyFloat

/-! ## Terminal orders -/

section Terminal


variable {F : Type} [PyRuntime] [PyFloat F] [FloatText F] {config : EngineConfig}
  {ledger : PortfolioLedger F} {log : List (ExecutionEvent F)} {reducer : Reducer F}

/-- A committed event leaves a terminal order as it is. -/
theorem terminal_step {event : ExecutionEvent F} {parent : Option EventReference}
    {transition : PlannedTransition F} (hbefore : History config ledger log reducer)
    (haccepted : Accepted config reducer event parent transition) {orderId : String}
    {order : OrderState F} (hfound : reducer.orders.get? orderId = some order)
    (hterminal : order.status.terminal = true) :
    (reducer.publish event transition).orders.get? orderId = some order := by
  have hchange := haccepted.planned.orderChange
  rw [Reducer.publish_orders]
  generalize transition.orderUpdate = update at hchange
  cases hchange with
  | unchanged _ => exact hfound
  | @submitted payload _ hnew _ =>
      have hne : orderId ≠ payload.orderId.1 := by
        rintro rfl
        exact hnew (OrderedDict.mem_keys_iff.mpr ⟨order, hfound⟩)
      exact (OrderedDict.get?_set_of_ne _ _ hne).trans hfound
  | @moved otherId other next _ _ hother hopen _ _ hsame =>
      have hkey : next.orderId = otherId :=
        hsame.orderId.trans (hbefore.submissions.submitted _ _ hother).1
      have hne : orderId ≠ next.orderId := by
        rw [hkey]
        rintro rfl
        rw [hfound, Option.some.injEq] at hother
        rw [← hother, hterminal] at hopen
        cases hopen
      exact (OrderedDict.get?_set_of_ne _ _ hne).trans hfound

/-- A terminal order is never changed by any later event. -/
theorem History.terminal_unchanged {after : List (ExecutionEvent F)} {next : Reducer F}
    (hbefore : History config ledger log reducer)
    (hafter : Committed (Reducer.apply config) reducer after next) {orderId : String}
    {order : OrderState F} (hfound : reducer.orders.get? orderId = some order)
    (hterminal : order.status.terminal = true) : next.orders.get? orderId = some order := by
  induction hafter with
  | nil => exact hfound
  | snoc hrest hstep ih =>
      obtain ⟨parent, transition, haccepted, rfl⟩ := accepted_of_apply hstep
      exact terminal_step (hbefore.append hrest) haccepted ih hterminal

end Terminal

/-! ## Quantities -/

section Orders

variable [PyRuntime] [FloatText ℚ] {config : EngineConfig} {ledger : PortfolioLedger ℚ}
  {log : List (ExecutionEvent ℚ)} {reducer : Reducer ℚ}

/-- The quantity that an event fills of an order. -/
def EventPayload.fillQuantity (orderId : String) : EventPayload ℚ → ℚ
  | fillApplied payload => if payload.orderId.1 = orderId then payload.quantity.1 else 0
  | _ => 0

/-- The sum of the committed fills of an order. -/
def filledBy (log : List (ExecutionEvent ℚ)) (orderId : String) : ℚ :=
  (log.map fun event => event.payload.fillQuantity orderId).sum

@[simp] theorem filledBy_append (log : List (ExecutionEvent ℚ)) (event : ExecutionEvent ℚ)
    (orderId : String) : filledBy (log ++ [event]) orderId =
      filledBy log orderId + event.payload.fillQuantity orderId := by
  simp [filledBy]

omit [PyRuntime] [FloatText ℚ] in
theorem quantity_pos (payload : FillApplied ℚ) : 0 < payload.quantity.1 := by
  have hpositive := payload.quantity.2.positive rfl
  rwa [← Bool.not_eq_true, rat_le, rat_zero, not_le] at hpositive

theorem fillQuantity_nonneg (orderId : String) (payload : EventPayload ℚ) :
    0 ≤ payload.fillQuantity orderId := by
  cases payload with
  | fillApplied payload =>
      rw [EventPayload.fillQuantity]
      split
      · exact (quantity_pos payload).le
      · exact le_rfl
  | _ => exact le_rfl

/-- An order without filled quantity has no fill. -/
theorem no_fill_of_filledBy_eq_zero {orderId : String} (h : filledBy log orderId = 0) :
    ∀ event ∈ log, ∀ payload : FillApplied ℚ, event.payload = .fillApplied payload →
      payload.orderId.1 ≠ orderId := by
  intro event hevent payload hpayload hsame
  have hle : event.payload.fillQuantity orderId ≤ filledBy log orderId :=
    List.single_le_sum (by
      intro x hx
      obtain ⟨other, -, rfl⟩ := List.mem_map.mp hx
      exact fillQuantity_nonneg orderId other.payload) _ (List.mem_map_of_mem hevent)
  rw [h, hpayload, EventPayload.fillQuantity, if_pos hsame] at hle
  exact absurd (quantity_pos payload) hle.not_gt

/-- The quantities that go with a status. -/
def OrderState.Sized (order : OrderState ℚ) : Prop :=
  match order.status with
  | .submitted => order.acceptedQuantity = 0 ∧ order.filledQuantity = 0
  | .accepted => order.acceptedQuantity = order.requestedQuantity ∧ order.filledQuantity = 0
  | .partiallyFilled => order.acceptedQuantity = order.requestedQuantity ∧
      order.filledQuantity < order.acceptedQuantity
  | .filled => order.acceptedQuantity = order.requestedQuantity ∧
      order.filledQuantity = order.acceptedQuantity
  | .rejected => order.acceptedQuantity = 0 ∧ order.filledQuantity = 0
  | .cancelled => order.filledQuantity + order.cancelledQuantity = order.requestedQuantity ∧
      ((order.acceptedQuantity = 0 ∧ order.filledQuantity = 0) ∨
        (order.acceptedQuantity = order.requestedQuantity ∧
          order.filledQuantity < order.acceptedQuantity))

/-- An order whose quantities go with its status and with the log. -/
structure OrderConsistent (log : List (ExecutionEvent ℚ)) (orderId : String)
    (order : OrderState ℚ) : Prop where
  requested_pos : 0 < order.requestedQuantity
  sized : order.Sized
  filled : order.filledQuantity = filledBy log orderId

/-- What an order adds to the position of a symbol. -/
def OrderState.signedFilled (symbol : String) (order : OrderState ℚ) : ℚ :=
  if order.symbol = symbol then signedQuantity order.side order.filledQuantity else 0

/-- The orders and the ledger of a reducer, in agreement with its log. -/
structure OrderBook (log : List (ExecutionEvent ℚ)) (reducer : Reducer ℚ) : Prop where
  orders : ∀ orderId order, reducer.orders.get? orderId = some order →
    OrderConsistent log orderId order
  fills_known : ∀ event ∈ log, ∀ payload : FillApplied ℚ, event.payload = .fillApplied payload →
    payload.orderId.1 ∈ reducer.orders.keys
  consistent : reducer.ledger.Consistent
  positions : ∀ symbol, reducer.ledger.positions.getD symbol 0 =
    reducer.orders.sumOf fun _ order => order.signedFilled symbol

/-! ## Single transitions -/

omit [FloatText ℚ] in
theorem clone_eq_ok {candidate : PortfolioLedger ℚ} (h : ledger.clone = .ok candidate) :
    candidate = ledger := by
  simp only [PortfolioLedger.clone, bind_eq_ok_iff, pure_eq_ok, Except.ok.injEq] at h
  obtain ⟨_, -, fresh, hfresh, rfl⟩ := h
  obtain ⟨-, rfl⟩ := PortfolioLedger.create_eq_ok_iff.mp hfresh
  rfl

omit [PyRuntime] [FloatText ℚ] in
/-- Exactly the residual of an order can be filled. -/
theorem filledAfter_eq_ok {order : OrderState ℚ} {quantity newFilled : ℚ}
    (h : order.filledAfter quantity = .ok newFilled) :
    newFilled = order.filledQuantity + quantity ∧ newFilled ≤ order.acceptedQuantity := by
  simp only [OrderState.filledAfter, rat_fsum, List.sum_cons, List.sum_nil, add_zero, rat_lt] at h
  split at h
  · next hover =>
    have hnot : isSingleAdditionRoundoffOverrun (order.filledQuantity + quantity)
        order.acceptedQuantity = false := by
      rw [isSingleAdditionRoundoffOverrun, Bool.and_eq_false_iff]
      right
      rw [← Bool.not_eq_true, rat_le, rat_ulp, rat_sub, not_le]
      exact sub_pos.mpr hover
    rw [hnot] at h
    cases h
  · next hfits =>
    cases h
    exact ⟨rfl, not_lt.mp hfits⟩

omit [PyRuntime] [FloatText ℚ] in
theorem signedQuantity_add (side : Side) (a b : ℚ) :
    signedQuantity side (a + b) = signedQuantity side a + signedQuantity side b := by
  cases side with
  | buy => rfl
  | sell => exact neg_add a b

omit [PyRuntime] [FloatText ℚ] in
theorem signedQuantity_zero (side : Side) : signedQuantity side (0 : ℚ) = 0 := by
  cases side with
  | buy => rfl
  | sell => exact neg_zero

/-- A fill moves the position of its symbol by its signed quantity. -/
theorem FillAccounted.positions {event : ExecutionEvent ℚ} {payload : FillApplied ℚ}
    {filled : PortfolioLedger ℚ} {portfolio : LedgerSnapshot ℚ}
    (h : FillAccounted reducer event payload filled portfolio)
    (hconsistent : reducer.ledger.Consistent) :
    filled.Consistent ∧ ∀ symbol, filled.positions.getD symbol 0 =
      reducer.ledger.positions.getD symbol 0 +
        if symbol = payload.symbol.1 then signedQuantity payload.side payload.quantity.1 else 0 := by
  obtain ⟨candidate, totalFees, hclone, happlied⟩ := h.applied
  rw [clone_eq_ok hclone] at happlied
  rcases PortfolioLedger.applyFill_cases hconsistent payload.symbol.1
    (signedQuantity payload.side payload.quantity.1) payload.price.1 zero
    (some [("fees", totalFees)]) with ⟨message, herror⟩ | ⟨next, hok, hnext, -, hpositions⟩
  · rw [herror] at happlied
    cases happlied
  · rw [hok, Except.ok.injEq] at happlied
    subst happlied
    exact ⟨hnext, hpositions⟩

theorem ChargeAccounted.positions {event : ExecutionEvent ℚ} {payload : CashChargeAccrued ℚ}
    {charged : PortfolioLedger ℚ} {portfolio : LedgerSnapshot ℚ}
    (h : ChargeAccounted reducer event payload charged portfolio)
    (hconsistent : reducer.ledger.Consistent) :
    charged.Consistent ∧ charged.positions = reducer.ledger.positions := by
  obtain ⟨candidate, hclone, happlied⟩ := h.applied
  rw [clone_eq_ok hclone] at happlied
  rcases PortfolioLedger.applyCharge_cases hconsistent payload.chargeType.name payload.amount.1
    with ⟨message, herror⟩ | ⟨next, hok, hnext, -, hpositions⟩
  · rw [herror] at happlied
    cases happlied
  · rw [hok, Except.ok.injEq] at happlied
    subst happlied
    exact ⟨hnext, hpositions⟩

/-! ## The step of the order book -/

section Step

variable {event : ExecutionEvent ℚ} {transition : PlannedTransition ℚ}

/-- An event without a change of orders and without a fill. -/
theorem OrderBook.step_unchanged (h : OrderBook log reducer)
    (hupdate : transition.orderUpdate = none)
    (hfill : ∀ payload : FillApplied ℚ, event.payload ≠ .fillApplied payload)
    (hconsistent : (transition.ledgerUpdate.getD reducer.ledger).Consistent)
    (hpositions : (transition.ledgerUpdate.getD reducer.ledger).positions =
      reducer.ledger.positions) :
    OrderBook (log ++ [event]) (reducer.publish event transition) := by
  have hzero : ∀ orderId, event.payload.fillQuantity orderId = 0 := by
    intro orderId
    cases hpayload : event.payload with
    | fillApplied payload => exact absurd hpayload (hfill payload)
    | _ => rfl
  refine ⟨?_, ?_, ?_, ?_⟩
  · intro orderId order hfound
    rw [Reducer.publish_orders, hupdate, Option.elim_none] at hfound
    have hold := h.orders orderId order hfound
    exact ⟨hold.requested_pos, hold.sized, by rw [filledBy_append, hzero, add_zero, hold.filled]⟩
  · intro other hother payload hpayload
    rw [Reducer.publish_orders, hupdate, Option.elim_none]
    rcases List.mem_append.mp hother with hold | hnew
    · exact h.fills_known other hold payload hpayload
    · rw [List.mem_singleton.mp hnew] at hpayload
      exact absurd hpayload (hfill payload)
  · rw [Reducer.publish_ledger]
    exact hconsistent
  · intro symbol
    rw [Reducer.publish_ledger, Reducer.publish_orders, hupdate, Option.elim_none, hpositions]
    exact h.positions symbol

/-- An event that moves one order, and fills it by some quantity. -/
theorem OrderBook.step_moved (h : OrderBook log reducer) {orderId : String}
    {order next : OrderState ℚ} (quantity : ℚ) (hupdate : transition.orderUpdate = some next)
    (hfound : reducer.orders.get? orderId = some order) (hkey : next.orderId = orderId)
    (hsame : SameTerms order next)
    (hquantity : ∀ other, event.payload.fillQuantity other =
      if other = orderId then quantity else 0)
    (hfills : ∀ payload : FillApplied ℚ, event.payload = .fillApplied payload →
      payload.orderId.1 = orderId)
    (hsized : next.Sized) (hfilled : next.filledQuantity = order.filledQuantity + quantity)
    (hconsistent : (transition.ledgerUpdate.getD reducer.ledger).Consistent)
    (hpositions : ∀ symbol, (transition.ledgerUpdate.getD reducer.ledger).positions.getD symbol 0 =
      reducer.ledger.positions.getD symbol 0 +
        if symbol = order.symbol then signedQuantity order.side quantity else 0) :
    OrderBook (log ++ [event]) (reducer.publish event transition) := by
  have horders : (reducer.publish event transition).orders = reducer.orders.set orderId next := by
    rw [Reducer.publish_orders, hupdate, Option.elim_some, hkey]
  refine ⟨?_, ?_, ?_, ?_⟩
  · intro otherId other hother
    rw [horders, OrderedDict.get?_set] at hother
    split at hother
    · next heq =>
      cases hother
      have hold := h.orders orderId order hfound
      refine ⟨hsame.requestedQuantity ▸ hold.requested_pos, hsized, ?_⟩
      rw [filledBy_append, hquantity, if_pos heq, heq, hfilled, hold.filled]
    · next hne =>
      have hold := h.orders otherId other hother
      refine ⟨hold.requested_pos, hold.sized, ?_⟩
      rw [filledBy_append, hquantity, if_neg hne, add_zero, hold.filled]
  · intro other hother payload hpayload
    rw [horders, OrderedDict.mem_keys_set]
    rcases List.mem_append.mp hother with hold | hnew
    · exact .inr (h.fills_known other hold payload hpayload)
    · rw [List.mem_singleton.mp hnew] at hpayload
      exact .inl (hfills payload hpayload)
  · rw [Reducer.publish_ledger]
    exact hconsistent
  · intro symbol
    rw [Reducer.publish_ledger, horders, hpositions, OrderedDict.sumOf_set, h.positions,
      OrderedDict.sumOf_eq_erase_add hfound, add_assoc]
    congr 1
    simp only [OrderState.signedFilled, hsame.symbol, hsame.side, hfilled, signedQuantity_add,
      eq_comm (a := symbol)]
    split
    · rfl
    · rw [add_zero]

/-- A submission opens an order without fills. -/
theorem OrderBook.step_submitted (h : OrderBook log reducer) {payload : OrderSubmitted ℚ}
    (hpayload : event.payload = .orderSubmitted payload)
    (hnew : payload.orderId.1 ∉ reducer.orders.keys)
    (hupdate : transition.orderUpdate = some (.ofSubmission event payload))
    (hledger : transition.ledgerUpdate = none) :
    OrderBook (log ++ [event]) (reducer.publish event transition) := by
  have horders : (reducer.publish event transition).orders =
      reducer.orders.set payload.orderId.1 (.ofSubmission event payload) := by
    rw [Reducer.publish_orders, hupdate]
    rfl
  have hzero : ∀ orderId, event.payload.fillQuantity orderId = 0 := by
    intro orderId
    rw [hpayload]
    rfl
  have hfresh : filledBy log payload.orderId.1 = 0 := by
    refine List.sum_eq_zero ?_
    intro x hx
    obtain ⟨other, hother, rfl⟩ := List.mem_map.mp hx
    cases hfill : other.payload with
    | fillApplied fill =>
        rw [EventPayload.fillQuantity, if_neg]
        intro hsame
        exact hnew (hsame ▸ h.fills_known other hother fill hfill)
    | _ => rfl
  refine ⟨?_, ?_, ?_, ?_⟩
  · intro otherId other hother
    rw [horders, OrderedDict.get?_set] at hother
    split at hother
    · next heq =>
      cases hother
      have hpositive := payload.quantity.2.positive rfl
      rw [← Bool.not_eq_true, rat_le, rat_zero, not_le] at hpositive
      exact ⟨hpositive, ⟨rat_zero, rat_zero⟩,
        by rw [filledBy_append, hzero, add_zero, heq, hfresh]; exact rat_zero⟩
    · have hold := h.orders otherId other hother
      exact ⟨hold.requested_pos, hold.sized, by rw [filledBy_append, hzero, add_zero, hold.filled]⟩
  · intro other hother fill hfill
    rw [horders, OrderedDict.mem_keys_set]
    rcases List.mem_append.mp hother with hold | hsame
    · exact .inr (h.fills_known other hold fill hfill)
    · rw [List.mem_singleton.mp hsame, hpayload] at hfill
      cases hfill
  · rw [Reducer.publish_ledger, hledger]
    exact h.consistent
  · intro symbol
    have hnone : (OrderState.ofSubmission event payload).signedFilled symbol = 0 := by
      rw [OrderState.signedFilled]
      split
      · show signedQuantity payload.side (zero : ℚ) = 0
        rw [rat_zero, signedQuantity_zero]
      · rfl
    rw [Reducer.publish_ledger, hledger, horders, OrderedDict.sumOf_set, hnone, add_zero,
      OrderedDict.erase_of_get?_eq_none (OrderedDict.get?_eq_none_iff.mpr hnew)]
    exact h.positions symbol

end Step

/-- The orders and the ledger stay in agreement with the log. -/
theorem OrderBook.step {event : ExecutionEvent ℚ} {parent : Option EventReference}
    {transition : PlannedTransition ℚ} (h : OrderBook log reducer)
    (hsubmissions : Submissions log reducer)
    (hplanned : Planned config reducer event parent event.payload transition) :
    OrderBook (log ++ [event]) (reducer.publish event transition) := by
  have hkey : ∀ {orderId : String} {order : OrderState ℚ},
      reducer.orders.get? orderId = some order → order.orderId = orderId :=
    fun hfound => (hsubmissions.submitted _ _ hfound).1
  generalize hpayload : event.payload = payload at hplanned
  have hkept : ∀ (order : OrderState ℚ) (symbol : String),
      reducer.ledger.positions.getD symbol 0 = reducer.ledger.positions.getD symbol 0 +
        if symbol = order.symbol then signedQuantity order.side (0 : ℚ) else 0 := by
    intro order symbol
    rw [signedQuantity_zero, ite_self, add_zero]
  cases hplanned with
  | submitted hnew _ => exact h.step_submitted hpayload hnew rfl rfl
  | @accepted payload order hfound hstatus hquantity =>
      have hold := (h.orders _ _ hfound.found).sized
      rw [OrderState.Sized, hstatus] at hold
      exact h.step_moved 0 rfl hfound.found
        (show order.orderId = _ from hkey hfound.found)
        ⟨rfl, rfl, rfl, rfl, rfl, rfl⟩ (by simp [hpayload, EventPayload.fillQuantity])
        (by simp [hpayload]) ⟨(rat_eq _ _).mp hquantity, hold.2⟩ (add_zero _).symm h.consistent
        (hkept order)
  | @rejected payload order hfound hstatus =>
      have hold := (h.orders _ _ hfound.found).sized
      rw [OrderState.Sized, hstatus] at hold
      exact h.step_moved 0 rfl hfound.found
        (show order.orderId = _ from hkey hfound.found)
        ⟨rfl, rfl, rfl, rfl, rfl, rfl⟩ (by simp [hpayload, EventPayload.fillQuantity])
        (by simp [hpayload]) hold (add_zero _).symm h.consistent (hkept order)
  | @filled payload order newFilled filledLedger portfolio hfound hstatus hsymbol hside hfilled
      haccounted =>
      have hold := (h.orders _ _ hfound.found).sized
      obtain ⟨hsum, hle⟩ := filledAfter_eq_ok hfilled
      obtain ⟨hconsistent, hpositions⟩ := haccounted.positions h.consistent
      have haccepted : order.acceptedQuantity = order.requestedQuantity := by
        rcases hstatus with hstatus | hstatus <;> rw [OrderState.Sized, hstatus] at hold <;>
          exact hold.1
      refine h.step_moved payload.quantity.1 rfl hfound.found
        (show order.orderId = _ from hkey hfound.found)
        ⟨rfl, rfl, rfl, rfl, rfl, rfl⟩ ?_ ?_ ?_ hsum hconsistent ?_
      · intro other
        rw [hpayload, EventPayload.fillQuantity]
        simp only [eq_comm]
      · intro fill hfill
        rw [hpayload] at hfill
        cases hfill
        rfl
      · by_cases hfull : eq newFilled order.acceptedQuantity = true
        · simp only [OrderState.Sized, OrderState.fillTo, if_pos hfull]
          exact ⟨haccepted, (rat_eq _ _).mp hfull⟩
        · simp only [OrderState.Sized, OrderState.fillTo, if_neg hfull]
          exact ⟨haccepted, lt_of_le_of_ne hle fun heq => hfull ((rat_eq _ _).mpr heq)⟩
      · intro symbol
        rw [← hsymbol, ← hside]
        exact hpositions symbol
  | @cancelled payload order hfound hstatus hquantity =>
      have hold := (h.orders _ _ hfound.found).sized
      rw [rat_eq, rat_sub] at hquantity
      refine h.step_moved 0 rfl hfound.found
        (show order.orderId = _ from hkey hfound.found)
        ⟨rfl, rfl, rfl, rfl, rfl, rfl⟩ (by simp [hpayload, EventPayload.fillQuantity])
        (by simp [hpayload]) ⟨?_, ?_⟩ (add_zero _).symm h.consistent (hkept order)
      · show order.filledQuantity + payload.cancelledQuantity.1 = order.requestedQuantity
        rw [hquantity, add_sub_cancel]
      · have hpos := (h.orders _ _ hfound.found).requested_pos
        unfold OrderState.Sized at hold
        cases hcase : order.status <;> rw [hcase] at hold hstatus
        · exact .inl hold
        · exact .inr ⟨hold.1, hold.2 ▸ hold.1 ▸ hpos⟩
        · exact .inr hold
        all_goals cases hstatus
  | charged _ _ _ haccounted =>
      obtain ⟨hconsistent, hpositions⟩ := haccounted.positions h.consistent
      exact h.step_unchanged rfl (by simp [hpayload]) hconsistent hpositions
  | opened _ _ _ _ => exact h.step_unchanged rfl (by simp [hpayload]) h.consistent rfl
  | closed _ _ _ _ _ => exact h.step_unchanged rfl (by simp [hpayload]) h.consistent rfl
  | halted _ _ => exact h.step_unchanged rfl (by simp [hpayload]) h.consistent rfl
  | lineage hkind _ =>
      refine h.step_unchanged rfl ?_ h.consistent rfl
      intro fill hfill
      rw [← hpayload, hfill] at hkind
      simp [EventPayload.payloadType] at hkind

theorem History.orderBook {initialCash : ℚ} (hledger : PortfolioLedger.create initialCash =
    .ok ledger) (h : History config ledger log reducer) : OrderBook log reducer := by
  refine h.invariant ?_ ?_
  · refine ⟨by simp [Reducer.initial], by simp, PortfolioLedger.consistent_of_create hledger, ?_⟩
    obtain ⟨-, rfl⟩ := PortfolioLedger.create_eq_ok_iff.mp hledger
    intro symbol
    rfl
  · intro log reducer event parent transition hbefore ih haccepted
    exact ih.step hbefore.submissions haccepted.planned

/-! ## The lifecycle of the orders of a reachable engine -/

/-- What holds of an order at any time. -/
structure OrderLifecycleInvariant (log : List (ExecutionEvent ℚ)) (orderId : String)
    (order : OrderState ℚ) : Prop where
  accepted : order.acceptedQuantity = 0 ∨ order.acceptedQuantity = order.requestedQuantity
  filled : order.filledQuantity = filledBy log orderId
  filled_le : order.filledQuantity ≤ order.acceptedQuantity
  filled_iff : order.status = .filled ↔
    order.filledQuantity = order.acceptedQuantity ∧ 0 < order.acceptedQuantity
  cancelled : order.status = .cancelled →
    order.filledQuantity + order.cancelledQuantity = order.requestedQuantity
  rejected : order.status = .rejected → ∀ event ∈ log, ∀ payload : FillApplied ℚ,
    event.payload = .fillApplied payload → payload.orderId.1 ≠ orderId

theorem OrderConsistent.lifecycle {orderId : String} {order : OrderState ℚ}
    (h : OrderConsistent log orderId order) : OrderLifecycleInvariant log orderId order := by
  have hpos := h.requested_pos
  have hsized := h.sized
  unfold OrderState.Sized at hsized
  have hrejected : order.status = .rejected → filledBy log orderId = 0 := by
    intro hstatus
    rw [hstatus] at hsized
    rw [← h.filled, hsized.2]
  refine ⟨?_, h.filled, ?_, ?_, ?_, fun hstatus => no_fill_of_filledBy_eq_zero (hrejected hstatus)⟩
  all_goals cases hstatus : order.status <;> rw [hstatus] at hsized <;> simp_all
  all_goals grind

/-- In every reachable engine over exact quantities the orders go through their
lifecycle, a terminal order is final, and the positions of the ledger are the
filled quantities of the orders. -/
theorem Reachable.orderLifecycle {J : Type} [Journal ℚ J] {admits : J → Prop}
    {args : EngineArgs ℚ} {engine : DeterministicEventEngine ℚ J}
    (h : Reachable admits args engine log) :
    engine.reducer.openOrderCount = engine.reducer.openOrders.length ∧
    (∀ orderId order, engine.reducer.orders.get? orderId = some order →
      OrderLifecycleInvariant log orderId order) ∧
    (∀ orderId order, engine.reducer.orders.get? orderId = some order →
      order.status.terminal = true → ∀ (after : List (ExecutionEvent ℚ)) (next : Reducer ℚ),
        Committed (Reducer.apply engine.config) engine.reducer after next →
          next.orders.get? orderId = some order) ∧
    ∀ symbol, engine.reducer.ledger.positions.getD symbol 0 =
      engine.reducer.orders.sumOf fun _ order => order.signedFilled symbol := by
  obtain ⟨ledger, -, -, hledger, hhistory⟩ := h.origin
  have hbook := hhistory.orderBook hledger
  refine ⟨hhistory.openOrderCount, ?_, ?_, hbook.positions⟩
  · intro orderId order hfound
    exact (hbook.orders orderId order hfound).lifecycle
  · intro orderId order hfound hterminal after next hafter
    exact hhistory.terminal_unchanged hafter hfound hterminal

end Orders

open Platform in
/-- The order of the trade, filled as a whole. -/
theorem orderLifecycle_dayTrade : (dayState 8).openOrderCount = 0 ∧
    ∃ order, (dayState 8).orders.get? "o" = some order ∧ order.status = .filled ∧
      OrderLifecycleInvariant (dayLog 8) "o" order := by
  obtain ⟨engine, hreachable, -, hreducer, -⟩ := exists_reachable_dayTrade
  obtain ⟨-, horders, -, -⟩ := hreachable.orderLifecycle
  rw [hreducer] at horders
  have hcount : (dayState 8).openOrderCount = 0 := by decide +kernel
  have hfilled : ((dayState 8).orders.get? "o").map OrderState.status = some .filled := by
    decide +kernel
  obtain ⟨order, hfound, hstatus⟩ := Option.map_eq_some_iff.mp hfilled
  exact ⟨hcount, order, hfound, hstatus, horders _ _ hfound⟩

end SignalFoundry
