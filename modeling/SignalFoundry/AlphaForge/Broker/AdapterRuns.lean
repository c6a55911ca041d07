import Mathlib.Tactic.Linarith
import SignalFoundry.AlphaForge.Broker.PaperAdapter
import SignalFoundry.Library.Platform

/-!
# Runs of the paper adapter

With exact decimals a call of the adapter has one of six effects (`Effect`): it
raises and leaves the adapter as it was, or it connects, answers a resubmission,
rests a new order, fills one or cancels one. Nothing is half applied, because
the checks of `submitOrder` make every later refusal unreachable: an order that
is accepted fills whole, at the price its cost was checked at, and there are
never more fills than orders. What the effects preserve is `Sound`.
-/

namespace SignalFoundry.Broker

open Fallible

/-! ## Exact values -/

/-- The signed cash effect of a fill. -/
def Fill.signedNotional (fill : Fill) : ℚ :=
  match fill.side with
  | .buy => -(fill.quantity * fill.price)
  | .sell => fill.quantity * fill.price

/-- The signed quantity of a fill. -/
def Fill.signed (fill : Fill) : ℚ :=
  match fill.side with
  | .buy => fill.quantity
  | .sell => -fill.quantity

theorem Fill.notional_exact (fill : Fill) : fill.notional .exact = .ok fill.signedNotional := by
  unfold notional signedNotional
  simp only [DecimalContext.mul, DecimalContext.neg, DecimalContext.exact_round, ok_bind]
  cases fill.side <;> rfl

theorem Fill.signedQuantity_eq_signed (fill : Fill) :
    fill.signedQuantity .exact = .ok fill.signed := by
  unfold signedQuantity signed
  cases fill.side <;> rfl

theorem quantityEpsilon_pos : 0 < quantityEpsilon := by norm_num [quantityEpsilon]

theorem Fill.quantity_pos (fill : Fill) : 0 < fill.quantity :=
  quantityEpsilon_pos.trans fill.quantity_gt

theorem Fill.signed_ne_zero (fill : Fill) : fill.signed ≠ 0 := by
  unfold signed
  cases fill.side with
  | buy => exact fill.quantity_pos.ne'
  | sell => exact neg_ne_zero.mpr fill.quantity_pos.ne'

/-- The average entry price that a fill leaves. -/
def exactAverage (quantity average signed price : ℚ) : ℚ :=
  if decide (quantity > 0) = decide (signed > 0) then
    (average * |quantity| + price * |signed|) / |quantity + signed|
  else if decide (quantity + signed > 0) ≠ decide (quantity > 0) then price
  else average

theorem averageAfterFill_eq_exactAverage {quantity signed : ℚ} (average price : ℚ)
    (h : quantity + signed ≠ 0) :
    averageAfterFill .exact quantity average signed (quantity + signed) price =
      .ok (exactAverage quantity average signed price) := by
  unfold averageAfterFill exactAverage
  split
  · simp [DecimalContext.mul, DecimalContext.abs, DecimalContext.add, DecimalContext.div, h]
  · split <;> rfl

theorem exactAverage_pos {quantity average signed price : ℚ} (haverage : 0 < average)
    (hprice : 0 < price) (hsigned : signed ≠ 0) (hcombined : quantity + signed ≠ 0) :
    0 < exactAverage quantity average signed price := by
  obtain ⟨result, hresult, hpos⟩ :=
    averageAfterFill_exact quantity haverage hprice hsigned hcombined
  rw [averageAfterFill_eq_exactAverage average price hcombined] at hresult
  cases hresult
  exact hpos

/-- What a fill leaves of the quantity and entry price of its symbol. -/
def heldAfter (held : Option (ℚ × ℚ)) (fill : Fill) : Option (ℚ × ℚ) :=
  match held with
  | none => some (fill.signed, fill.price)
  | some (quantity, average) =>
      if |quantity + fill.signed| ≤ quantityEpsilon then none
      else some (quantity + fill.signed, exactAverage quantity average fill.signed fill.price)

theorem ne_zero_of_not_flat {x : ℚ} (h : ¬ |x| ≤ quantityEpsilon) : x ≠ 0 := by
  rintro rfl
  exact h (by rw [abs_zero]; exact quantityEpsilon_pos.le)

/-- The quantity and entry price of a symbol. -/
def entryOf (positions : OrderedDict String Position) (symbol : String) : Option (ℚ × ℚ) :=
  (positions.get? symbol).map fun item => (item.quantity, item.averageEntryPrice)

@[simp] theorem contract_ok {α : Type} (a : α) : contract (.ok a) = .ok a := rfl

@[simp] theorem decimal_ok {α : Type} (a : α) : decimal (.ok a) = .ok a := rfl

section Contracts

variable [PyRuntime]

/-- A fill changes the entry of its own symbol alone, and never raises. -/
theorem applyPosition_exact (positions : OrderedDict String Position) (fill : Fill) :
    ∃ left, PaperBrokerAdapter.applyPosition .exact positions fill = .ok left ∧
      (∀ symbol, entryOf left symbol = if symbol = fill.symbol then
        heldAfter (entryOf positions symbol) fill else entryOf positions symbol) ∧
      (KeyedTable.Filed Position.symbol positions → KeyedTable.Filed Position.symbol left) := by
  unfold PaperBrokerAdapter.applyPosition
  rw [fill.signedQuantity_eq_signed, decimal_ok, contract_ok, ok_bind]
  cases hget : positions.get? fill.symbol with
  | none =>
      simp only [Position.create_eq_ok fill.symbol_valid fill.price_pos, contract_ok, ok_bind,
        pure_eq_ok]
      refine ⟨_, rfl, fun symbol => ?_, fun hfiled => hfiled.set
        ⟨fill.symbol, fill.signed, fill.price, fill.symbol_valid, fill.price_pos⟩⟩
      split
      · next hsymbol =>
        subst hsymbol
        simp [entryOf, hget, heldAfter]
      · next hsymbol => rw [entryOf, OrderedDict.get?_set_of_ne _ _ hsymbol, entryOf]
  | some existing =>
      simp only [DecimalContext.add, DecimalContext.abs, DecimalContext.exact_round, decimal_ok,
        contract_ok, ok_bind]
      by_cases hflat : |existing.quantity + fill.signed| ≤ quantityEpsilon
      · rw [if_pos hflat]
        refine ⟨_, rfl, fun symbol => ?_, fun hfiled k x hk => ?_⟩
        · split
          · next hsymbol =>
            subst hsymbol
            simp [entryOf, hget, heldAfter, hflat]
          · next hsymbol => rw [entryOf, OrderedDict.get?_erase_of_ne _ hsymbol, entryOf]
        · rw [OrderedDict.get?_erase] at hk
          split at hk
          · cases hk
          · exact hfiled k x hk
      · have hcombined := ne_zero_of_not_flat hflat
        have hpos := exactAverage_pos existing.averageEntryPrice_pos fill.price_pos
          fill.signed_ne_zero hcombined
        rw [if_neg hflat, averageAfterFill_eq_exactAverage _ _ hcombined, decimal_ok, contract_ok,
          ok_bind, Position.create_eq_ok fill.symbol_valid hpos, contract_ok, ok_bind]
        refine ⟨_, rfl, fun symbol => ?_, fun hfiled => hfiled.set
          ⟨fill.symbol, _, _, fill.symbol_valid, hpos⟩⟩
        split
        · next hsymbol =>
          subst hsymbol
          simp [entryOf, hget, heldAfter, hflat]
        · next hsymbol => rw [entryOf, OrderedDict.get?_set_of_ne _ _ hsymbol, entryOf]

/-- The fields of an order status that was created. -/
theorem OrderStatus.of_create {clientOrderId brokerOrderId symbol : String} {side : OrderSide}
    {state : OrderState} {requested filled : ℚ} {average : Option ℚ} {submittedAt updatedAt : ℤ}
    {reason : Option String} {status : OrderStatus}
    (h : create clientOrderId brokerOrderId symbol side state requested filled average submittedAt
      updatedAt reason = .ok status) :
    status.clientOrderId = clientOrderId ∧ status.brokerOrderId = brokerOrderId ∧
      status.symbol = symbol ∧ status.side = side ∧ status.state = state ∧
      status.requestedQuantity = requested ∧ status.filledQuantity = filled ∧
      status.averageFillPrice = average ∧ status.submittedAt = submittedAt := by
  unfold create at h
  simp only [bind_eq_ok_iff] at h
  obtain ⟨_, -, _, -, _, -, _, -, _, -, _, -, _, -, _, -, _, -, _, -, _, -, h⟩ := h
  cases h
  exact ⟨rfl, rfl, rfl, rfl, rfl, rfl, rfl, rfl, rfl⟩

/-- A status is created whole when nothing is left to fill. -/
theorem OrderStatus.create_filled (status : OrderStatus) {price : ℚ} (hprice : 0 < price) :
    ∃ updated, create status.clientOrderId status.brokerOrderId status.symbol status.side .filled
      status.requestedQuantity status.requestedQuantity (some price) status.submittedAt
      status.submittedAt none = .ok updated := by
  have hrequested := status.filledQuantity_nonneg.trans status.filledQuantity_le
  have haverage : ∀ p ∈ some price, 0 < p := fun p hp => Option.some.inj hp ▸ hprice
  have hfilled : OrderState.filled = .filled →
      status.requestedQuantity ≤ status.requestedQuantity := fun _ => le_rfl
  have hsome : 0 < status.requestedQuantity → (some price).isSome := fun _ => rfl
  unfold create
  simp only [require_of status.clientOrderId_valid, require_of status.symbol_valid,
    require_of status.brokerOrderId_nonblank, checkDecimal, refuseIf_of_not hrequested.not_gt,
    require_of hrequested, require_of (le_refl status.requestedQuantity), ok_bind]
  rw [refuseIf_of_not (by simpa using hprice.le), ok_bind, require_of haverage, ok_bind,
    require_of hfilled, ok_bind, require_of hsome, ok_bind,
    require_of (le_refl status.submittedAt), ok_bind]
  exact ⟨_, rfl⟩

/-- The fill of a whole order is a valid fill. -/
theorem Fill.create_of_request (request : OrderRequest) {price : ℚ} (hprice : 0 < price)
    (filledAt : ℤ) (number : ℕ) :
    ∃ fill, create request.clientOrderId request.symbol request.side request.quantity price
      filledAt (fillIdOf number) = .ok fill ∧ fill.clientOrderId = request.clientOrderId ∧
      fill.symbol = request.symbol ∧ fill.side = request.side ∧
      fill.quantity = request.quantity ∧ fill.price = price ∧ fill.filledAt = filledAt ∧
      fill.fillId = fillIdOf number := by
  have hquantity : ¬ request.quantity < 0 :=
    (quantityEpsilon_pos.trans request.quantity_gt).not_gt
  have hblank : PyText.isBlank (fillIdOf number) = false := by
    simp [fillIdOf, PyText.isBlank, PyText.isSpace]
  unfold create
  simp only [require_of request.clientOrderId_valid, require_of request.symbol_valid, checkDecimal,
    refuseIf_of_not hquantity, require_of request.quantity_gt, refuseIf_of_not hprice.not_gt,
    require_of hprice, require_of hblank, ok_bind]
  exact ⟨_, rfl, rfl, rfl, rfl, rfl, rfl, rfl, rfl⟩

end Contracts

/-! ## Effects of a call -/

namespace PaperBrokerAdapter

/-- The adapter after an order that it accepts. -/
def withOrder (adapter : PaperBrokerAdapter) (status : OrderStatus) : PaperBrokerAdapter :=
  { adapter with
    nextBrokerId := adapter.nextBrokerId + 1
    orders := adapter.orders.set status.clientOrderId status }

/-- The adapter after the fill of an order that it has accepted. -/
def withFill (adapter : PaperBrokerAdapter) (updated : OrderStatus) (fill : Fill)
    (positions : OrderedDict String Position) : PaperBrokerAdapter :=
  { adapter with
    nextFillId := adapter.nextFillId + 1
    orders := adapter.orders.set updated.clientOrderId updated
    fills := adapter.fills ++ [fill]
    cash := adapter.cash + fill.signedNotional
    positions := positions }

/-- A new order's status is that of a request, on an adapter that can take it. -/
structure Accepts (adapter : PaperBrokerAdapter) (request : OrderRequest) (quote : Quote)
    (status : OrderStatus) : Prop where
  new : adapter.orders.get? request.clientOrderId = none
  size_lt : adapter.orders.size < maxTrackedOrders
  affordable : request.side = .buy → request.quantity * quote.ask ≤ adapter.cash
  clientOrderId : status.clientOrderId = request.clientOrderId
  symbol : status.symbol = request.symbol
  side : status.side = request.side
  state : status.state = .accepted
  requestedQuantity : status.requestedQuantity = request.quantity
  filledQuantity : status.filledQuantity = 0
  averageFillPrice : status.averageFillPrice = none

/-- A fill is that of a whole request at the far side of a quote, and makes its order's
status `updated`. -/
structure FillsWhole (adapter : PaperBrokerAdapter) (request : OrderRequest) (quote : Quote)
    (updated : OrderStatus) (fill : Fill) : Prop where
  clientOrderId : fill.clientOrderId = request.clientOrderId
  symbol : fill.symbol = request.symbol
  side : fill.side = request.side
  quantity : fill.quantity = request.quantity
  price : fill.price = quote.farSide request.side
  fillId : fill.fillId = fillIdOf adapter.nextFillId
  updated_clientOrderId : updated.clientOrderId = request.clientOrderId
  state : updated.state = .filled
  requestedQuantity : updated.requestedQuantity = request.quantity
  filledQuantity : updated.filledQuantity = request.quantity

section Effects

variable [PyRuntime] [TotalSeconds] {adapter : PaperBrokerAdapter}

/-- What a call does. -/
inductive Effect (adapter : PaperBrokerAdapter) : Call → Outcome (Option OrderStatus) → Prop
  | raises (call : Call) (e : AdapterError) : Effect adapter call (.error e, adapter)
  | connects (environment : String → Option String) :
      Effect adapter (.connect environment) (.ok none, { adapter with connected := true })
  | replays {request : OrderRequest} {quote : Quote} {clock : MarketClock} {now : Moment}
      {existing : OrderStatus}
      (hexisting : adapter.orders.get? request.clientOrderId = some existing) :
      Effect adapter (.submitOrder request quote clock now) (.ok (some existing), adapter)
  | rests {request : OrderRequest} {quote : Quote} {clock : MarketClock} {now : Moment}
      {status : OrderStatus} (haccepts : adapter.Accepts request quote status) :
      Effect adapter (.submitOrder request quote clock now)
        (.ok (some status), adapter.withOrder status)
  | fills {request : OrderRequest} {quote : Quote} {clock : MarketClock} {now : Moment}
      {status updated : OrderStatus} {fill : Fill} {positions : OrderedDict String Position}
      (haccepts : adapter.Accepts request quote status)
      (hopen : clock.isOpen = true) (hmarketable : request.marketable quote = true)
      (hfills : adapter.FillsWhole request quote updated fill)
      (hpositions : applyPosition .exact adapter.positions fill = .ok positions) :
      Effect adapter (.submitOrder request quote clock now)
        (.ok (some updated), (adapter.withOrder status).withFill updated fill positions)
  | cancels {clientOrderId : String} {now : Moment} {status canceled : OrderStatus}
      (hstatus : adapter.orders.get? clientOrderId = some status)
      (hopen : status.state.isTerminal = false) (hcanceled : canceled.state = .canceled) :
      Effect adapter (.cancelOrder clientOrderId now)
        (.ok (some canceled), { adapter with orders := adapter.orders.set clientOrderId canceled })

theorem accepts_of_accept {request : OrderRequest} {quote : Quote} {clock : MarketClock}
    {moment : ℤ} {status : OrderStatus}
    (hnew : adapter.orders.get? request.clientOrderId = none)
    (h : adapter.accept .exact request quote clock moment = .ok status) :
    adapter.Accepts request quote status ∧ status.submittedAt = moment := by
  unfold accept at h
  simp only [bind_eq_ok_iff, refuseIf_eq_ok_iff] at h
  obtain ⟨_, hsize, _, -, _, -, _, -, _, hside, h⟩ := h
  obtain ⟨hid, -, hsymbol, hsides, hstate, hrequested, hfilled, haverage, hsubmitted⟩ :=
    OrderStatus.of_create (mapError_eq_ok_iff.mp h)
  refine ⟨⟨hnew, not_le.mp hsize, fun hbuy => ?_, hid, hsymbol, hsides, hstate, hrequested,
    hfilled, haverage⟩, hsubmitted⟩
  simpa [assertAffordable, hbuy, DecimalContext.mul] using hside

omit [TotalSeconds] in
/-- The whole of an accepted order fills, and nothing of that is refused. -/
theorem applyFill_of_accepts (taker : PaperBrokerAdapter) {request : OrderRequest} {quote : Quote}
    {status : OrderStatus} (haccepts : adapter.Accepts request quote status)
    (hroom : taker.fills.length < maxTrackedFills) {fill : Fill}
    (hquantity : fill.quantity = request.quantity) (htime : fill.filledAt = status.submittedAt) :
    ∃ updated positions, taker.applyFill .exact fill status = (.ok updated, { taker with
        orders := taker.orders.set status.clientOrderId updated
        fills := taker.fills ++ [fill]
        cash := taker.cash + fill.signedNotional
        positions := positions }) ∧
      applyPosition .exact taker.positions fill = .ok positions ∧
      updated.clientOrderId = status.clientOrderId ∧ updated.state = .filled ∧
      updated.requestedQuantity = request.quantity ∧
      updated.filledQuantity = request.quantity := by
  obtain ⟨updated, hupdated⟩ := status.create_filled fill.price_pos
  obtain ⟨positions, hpositions, -⟩ := applyPosition_exact taker.positions fill
  obtain ⟨hid, -, -, -, hstate, hrequested, hfilled, -, -⟩ := OrderStatus.of_create hupdated
  rw [haccepts.requestedQuantity] at hrequested hfilled hupdated
  refine ⟨updated, positions, ?_, hpositions, hid, hstate, hrequested, hfilled⟩
  have henough : request.quantity - quantityEpsilon ≤ 0 + request.quantity := by
    linarith [quantityEpsilon_pos]
  have htransition : assertTransitionAllowed status.state .filled = .ok () := by
    rw [haccepts.state]
    exact if_pos (by decide)
  have haverage : averageFillPriceAfter .exact status fill (0 + request.quantity) =
      .ok fill.price := by
    rw [averageFillPriceAfter, haccepts.averageFillPrice]
  have hstatus : taker.filledStatus .exact fill status = .ok updated := by
    rw [filledStatus, refuseIf_of_not hroom.not_ge, ok_bind]
    simp only [DecimalContext.add, DecimalContext.sub, DecimalContext.exact_round, decimal_ok,
      contract_ok, ok_bind, haccepts.filledQuantity, haccepts.requestedQuantity, hquantity]
    rw [if_pos henough, htransition, haverage, zero_add, htime]
    simp only [decimal_ok, contract_ok, ok_bind, hupdated]
  unfold applyFill
  rw [hstatus]
  simp only [fill.notional_exact, ok_bind, DecimalContext.add, DecimalContext.exact_round,
    decimal_ok, contract_ok, hpositions]

theorem effect_submitOrder (hroom : adapter.fills.length < maxTrackedFills)
    (request : OrderRequest) (quote : Quote) (clock : MarketClock) (now : Moment) :
    Effect adapter (.submitOrder request quote clock now)
      (step .exact adapter (.submitOrder request quote clock now)) := by
  simp only [step]
  unfold submitOrder
  split
  · exact .raises _ _
  · next moment hready =>
    split
    · next existing hexisting => exact .replays hexisting
    · next hnew =>
      split
      · exact .raises _ _
      · next status haccept =>
        obtain ⟨haccepts, hsubmitted⟩ := accepts_of_accept hnew haccept
        have hrests : { adapter with
            nextBrokerId := adapter.nextBrokerId + 1
            orders := adapter.orders.set request.clientOrderId status } =
            adapter.withOrder status := by
          rw [withOrder, haccepts.clientOrderId]
        dsimp only
        rw [hrests]
        by_cases hopen : clock.isOpen = true
        · rw [if_pos hopen, attemptFill]
          by_cases hmarketable : request.marketable quote = true
          · rw [if_pos hmarketable]
            have hprice : 0 < quote.farSide request.side := by
              cases request.side with
              | buy => exact quote.ask_pos
              | sell => exact quote.bid_pos
            obtain ⟨fill, hfill, hfillId, hsymbol, hside, hquantity, hfillPrice, htime, hnumber⟩ :=
              Fill.create_of_request request hprice moment (adapter.withOrder status).nextFillId
            obtain ⟨updated, positions, happly, hpositions, hid, hstate, hrequested, hfilled⟩ :=
              applyFill_of_accepts
                { adapter.withOrder status with nextFillId := adapter.nextFillId + 1 } haccepts
                hroom hquantity (htime.trans hsubmitted.symm)
            rw [hfill, contract_ok]
            have hid' := hid.trans haccepts.clientOrderId
            have hfills : adapter.FillsWhole request quote updated fill :=
              ⟨hfillId, hsymbol, hside, hquantity, hfillPrice, hnumber, hid', hstate, hrequested,
                hfilled⟩
            have heffect : Effect adapter (.submitOrder request quote clock now)
                (.ok (some updated), (adapter.withOrder status).withFill updated fill positions) :=
              .fills haccepts hopen hmarketable hfills hpositions
            rw [withFill, hid] at heffect
            dsimp only
            rw [show (adapter.withOrder status).nextFillId = adapter.nextFillId from rfl, happly]
            exact heffect
          · rw [if_neg hmarketable]
            exact .rests haccepts
        · rw [if_neg hopen]
          exact .rests haccepts

theorem effect_cancelOrder (clientOrderId : String) (now : Moment) :
    Effect adapter (.cancelOrder clientOrderId now)
      (step .exact adapter (.cancelOrder clientOrderId now)) := by
  simp only [step]
  unfold cancelOrder
  split
  · exact .raises _ _
  · next canceled hcanceled =>
    unfold canceledStatus at hcanceled
    obtain ⟨_, -, hcanceled⟩ := bind_eq_ok_iff.mp hcanceled
    split at hcanceled
    · cases hcanceled
    · next status hstatus =>
      simp only [bind_eq_ok_iff, refuseIf_eq_ok_iff, Bool.not_eq_true] at hcanceled
      obtain ⟨_, hopen, _, -, moment, -, hcreate⟩ := hcanceled
      obtain ⟨-, -, -, -, hstate, -⟩ := OrderStatus.of_create (mapError_eq_ok_iff.mp hcreate)
      exact .cancels hstatus hopen hstate

/-- Every call has one of the effects. -/
theorem effect_step (hroom : adapter.fills.length < maxTrackedFills) (call : Call) :
    Effect adapter call (step .exact adapter call) := by
  cases call with
  | connect environment =>
      simp only [step]
      unfold connect
      split
      · exact .raises _ _
      · exact .connects environment
  | submitOrder request quote clock now => exact effect_submitOrder hroom request quote clock now
  | cancelOrder clientOrderId now => exact effect_cancelOrder clientOrderId now

end Effects

/-! ## What every run keeps -/

/-- An order that nothing changes any more. -/
def Settled (state : OrderState) : Prop := state = .filled ∨ state = .canceled

/-- The order of a fill is filled, with the quantity of the fill. -/
def FilledBy (adapter : PaperBrokerAdapter) (fill : Fill) : Prop :=
  ∃ status, adapter.orders.get? fill.clientOrderId = some status ∧ status.state = .filled ∧
    status.requestedQuantity = fill.quantity ∧ status.filledQuantity = fill.quantity

/-- The orders, the fills and the cash of an adapter agree with each other. -/
structure Sound (adapter : PaperBrokerAdapter) : Prop where
  cash_nonneg : 0 ≤ adapter.cash
  cash_eq : adapter.cash = adapter.openingCash + (adapter.fills.map Fill.signedNotional).sum
  fills_nodup : (adapter.fills.map Fill.clientOrderId).Nodup
  filledBy : ∀ fill ∈ adapter.fills, adapter.FilledBy fill
  state : ∀ id status, adapter.orders.get? id = some status →
    status.state = .accepted ∨ Settled status.state
  size_le : adapter.orders.size ≤ maxTrackedOrders

theorem Sound.length_fills_le {adapter : PaperBrokerAdapter} (h : adapter.Sound) :
    adapter.fills.length ≤ maxTrackedOrders := by
  have hsubset : adapter.fills.map Fill.clientOrderId ⊆ adapter.orders.keys := by
    intro id hid
    obtain ⟨fill, hfill, rfl⟩ := List.mem_map.mp hid
    obtain ⟨status, hstatus, -⟩ := h.filledBy fill hfill
    exact OrderedDict.mem_keys_iff.mpr ⟨status, hstatus⟩
  have hlength := (h.fills_nodup.subperm hsubset).length_le
  rw [List.length_map, OrderedDict.keys, List.length_map] at hlength
  exact hlength.trans h.size_le

/-- There are never more fills than orders, so the bound on fills is never reached. -/
theorem Sound.room {adapter : PaperBrokerAdapter} (h : adapter.Sound) :
    adapter.fills.length < maxTrackedFills :=
  h.length_fills_le.trans_lt (by decide)

section Steps

variable {adapter next : PaperBrokerAdapter} {request : OrderRequest} {quote : Quote}
  {status updated : OrderStatus} {fill : Fill}

theorem FilledBy.of_get? (h : adapter.FilledBy fill)
    (horders : next.orders.get? fill.clientOrderId = adapter.orders.get? fill.clientOrderId) :
    next.FilledBy fill := by
  obtain ⟨status, hstatus, hrest⟩ := h
  exact ⟨status, horders.trans hstatus, hrest⟩

theorem Accepts.size_withOrder (h : adapter.Accepts request quote status) :
    (adapter.withOrder status).orders.size = adapter.orders.size + 1 := by
  have hnew : status.clientOrderId ∉ adapter.orders.keys := by
    rw [h.clientOrderId]
    exact OrderedDict.get?_eq_none_iff.mp h.new
  rw [withOrder, OrderedDict.size_set, if_neg hnew]

/-- The orders after one that fills: its own new status, and every other order as it was. -/
theorem get?_withFill (h : adapter.Accepts request quote status)
    (hfills : adapter.FillsWhole request quote updated fill)
    (positions : OrderedDict String Position) (id : String) :
    ((adapter.withOrder status).withFill updated fill positions).orders.get? id =
      if id = request.clientOrderId then some updated else adapter.orders.get? id := by
  simp only [withFill, withOrder, OrderedDict.get?_set, h.clientOrderId,
    hfills.updated_clientOrderId]
  split <;> rfl

/-- A fill that is on file is of another order than a new one. -/
theorem Sound.ne_of_new (h : adapter.Sound)
    (hnew : adapter.orders.get? request.clientOrderId = none)
    (hfill : fill ∈ adapter.fills) : fill.clientOrderId ≠ request.clientOrderId := by
  intro hid
  obtain ⟨status, hstatus, -⟩ := h.filledBy fill hfill
  rw [hid, hnew] at hstatus
  cases hstatus

theorem Sound.rests (h : adapter.Sound) (haccepts : adapter.Accepts request quote status) :
    (adapter.withOrder status).Sound where
  cash_nonneg := h.cash_nonneg
  cash_eq := h.cash_eq
  fills_nodup := h.fills_nodup
  filledBy fill hfill := by
    refine (h.filledBy fill hfill).of_get? (OrderedDict.get?_set_of_ne _ _ ?_)
    rw [haccepts.clientOrderId]
    exact h.ne_of_new haccepts.new hfill
  state id order horder := by
    rw [withOrder, OrderedDict.get?_set] at horder
    split at horder
    · cases horder
      exact .inl haccepts.state
    · exact h.state id order horder
  size_le := haccepts.size_withOrder.trans_le haccepts.size_lt

/-- The cost of a buy was checked at the price it fills at. -/
theorem cash_nonneg_of_fills (h : 0 ≤ adapter.cash)
    (haccepts : adapter.Accepts request quote status)
    (hfills : adapter.FillsWhole request quote updated fill) :
    0 ≤ adapter.cash + fill.signedNotional := by
  unfold Fill.signedNotional
  rw [hfills.side, hfills.quantity, hfills.price]
  cases hside : request.side with
  | buy =>
      have hcost := haccepts.affordable hside
      simp only [Quote.farSide]
      linarith
  | sell =>
      have hquantity := quantityEpsilon_pos.trans request.quantity_gt
      simp only [Quote.farSide]
      linarith [mul_pos hquantity quote.bid_pos]

theorem Sound.fills (h : adapter.Sound) (haccepts : adapter.Accepts request quote status)
    (hfills : adapter.FillsWhole request quote updated fill)
    (positions : OrderedDict String Position) :
    ((adapter.withOrder status).withFill updated fill positions).Sound where
  cash_nonneg := by
    change 0 ≤ adapter.cash + fill.signedNotional
    exact cash_nonneg_of_fills h.cash_nonneg haccepts hfills
  cash_eq := by
    change adapter.cash + fill.signedNotional =
      adapter.openingCash + ((adapter.fills ++ [fill]).map Fill.signedNotional).sum
    rw [List.map_append, List.sum_append, h.cash_eq, List.map_singleton, List.sum_singleton,
      add_assoc]
  fills_nodup := by
    change ((adapter.fills ++ [fill]).map Fill.clientOrderId).Nodup
    rw [List.map_append, List.map_singleton, List.nodup_append]
    refine ⟨h.fills_nodup, List.nodup_singleton _, ?_⟩
    rintro id hid other hother rfl
    obtain ⟨earlier, hearlier, hid⟩ := List.mem_map.mp hid
    refine h.ne_of_new haccepts.new hearlier ?_
    rw [hid, List.mem_singleton.mp hother, hfills.clientOrderId]
  filledBy other hother := by
    rcases List.mem_append.mp hother with hearlier | hlast
    · refine (h.filledBy other hearlier).of_get? ?_
      rw [get?_withFill haccepts hfills, if_neg (h.ne_of_new haccepts.new hearlier)]
    · rw [List.mem_singleton.mp hlast]
      refine ⟨updated, ?_, hfills.state, hfills.requestedQuantity.trans hfills.quantity.symm,
        hfills.filledQuantity.trans hfills.quantity.symm⟩
      rw [get?_withFill haccepts hfills, if_pos hfills.clientOrderId]
  state id order horder := by
    rw [get?_withFill haccepts hfills] at horder
    split at horder
    · cases horder
      exact .inr (.inl hfills.state)
    · exact h.state id order horder
  size_le := by
    have hkey : updated.clientOrderId ∈ (adapter.withOrder status).orders.keys := by
      rw [hfills.updated_clientOrderId, ← haccepts.clientOrderId]
      exact OrderedDict.mem_keys_set.mpr (.inl rfl)
    rw [withFill, OrderedDict.size_set, if_pos hkey]
    exact haccepts.size_withOrder.trans_le haccepts.size_lt

theorem Sound.cancels (h : adapter.Sound) {clientOrderId : String} {canceled : OrderStatus}
    (hstatus : adapter.orders.get? clientOrderId = some status)
    (hopen : status.state.isTerminal = false) (hcanceled : canceled.state = .canceled) :
    Sound { adapter with orders := adapter.orders.set clientOrderId canceled } where
  cash_nonneg := h.cash_nonneg
  cash_eq := h.cash_eq
  fills_nodup := h.fills_nodup
  filledBy fill hfill := by
    have hfilled := h.filledBy fill hfill
    refine hfilled.of_get? (OrderedDict.get?_set_of_ne _ _ ?_)
    rintro rfl
    obtain ⟨order, horder, hstate, -⟩ := hfilled
    rw [hstatus] at horder
    cases horder
    rw [hstate] at hopen
    cases hopen
  state id order horder := by
    rw [OrderedDict.get?_set] at horder
    split at horder
    · cases horder
      exact .inr (.inr hcanceled)
    · exact h.state id order horder
  size_le := by
    rw [OrderedDict.size_set, if_pos (OrderedDict.mem_keys_iff.mpr ⟨status, hstatus⟩)]
    exact h.size_le

variable [PyRuntime] [TotalSeconds]

omit [TotalSeconds] in
theorem Sound.effect (h : adapter.Sound) {call : Call} {outcome : Outcome (Option OrderStatus)}
    (heffect : Effect adapter call outcome) : outcome.2.Sound := by
  cases heffect with
  | raises | replays => exact h
  | connects => exact ⟨h.cash_nonneg, h.cash_eq, h.fills_nodup, h.filledBy, h.state, h.size_le⟩
  | rests haccepts => exact h.rests haccepts
  | fills haccepts _ _ hfills => exact h.fills haccepts hfills _
  | cancels hstatus hopen hcanceled => exact h.cancels hstatus hopen hcanceled

theorem Sound.step (h : adapter.Sound) (call : Call) :
    (step .exact adapter call).2.Sound :=
  h.effect (effect_step h.room call)

theorem Sound.after (h : adapter.Sound) (calls : List Call) : (adapter.after .exact calls).Sound :=
  Machine.invariant_run (fun _ call hsound => hsound.step call) h calls

/-- A settled order is left by every call. -/
theorem get?_step_of_settled (h : adapter.Sound) (call : Call) {id : String}
    (hstatus : adapter.orders.get? id = some status) (hsettled : Settled status.state) :
    (PaperBrokerAdapter.step .exact adapter call).2.orders.get? id = some status := by
  have heffect := effect_step h.room call
  generalize PaperBrokerAdapter.step .exact adapter call = outcome at heffect
  cases heffect with
  | raises | replays | connects => exact hstatus
  | rests haccepts =>
      rw [withOrder, OrderedDict.get?_set_of_ne _ _, hstatus]
      rintro rfl
      rw [haccepts.clientOrderId, haccepts.new] at hstatus
      cases hstatus
  | fills haccepts _ _ hfills =>
      rw [get?_withFill haccepts hfills, if_neg, hstatus]
      rintro rfl
      rw [haccepts.new] at hstatus
      cases hstatus
  | cancels hopened hopen =>
      rw [OrderedDict.get?_set_of_ne _ _, hstatus]
      rintro rfl
      rw [hopened] at hstatus
      cases hstatus
      rcases hsettled with hsettled | hsettled <;>
        (rw [hsettled] at hopen; cases hopen)

theorem get?_after_of_settled (h : adapter.Sound) (calls : List Call) {id : String}
    (hstatus : adapter.orders.get? id = some status) (hsettled : Settled status.state) :
    (adapter.after .exact calls).orders.get? id = some status :=
  (Machine.invariant_run
    (P := fun state : PaperBrokerAdapter => state.Sound ∧ state.orders.get? id = some status)
    (fun _ call hstate =>
      ⟨hstate.1.step call, get?_step_of_settled hstate.1 call hstate.2 hsettled⟩)
    ⟨h, hstatus⟩ calls).2

/-- A call that raises leaves the adapter as it was. -/
theorem step_of_error (h : adapter.Sound) {call : Call} {e : AdapterError}
    (herror : (PaperBrokerAdapter.step .exact adapter call).1 = .error e) :
    (PaperBrokerAdapter.step .exact adapter call).2 = adapter := by
  have heffect := effect_step h.room call
  generalize PaperBrokerAdapter.step .exact adapter call = outcome at heffect herror
  cases heffect with
  | raises => rfl
  | connects | replays | rests | fills | cancels => cases herror

/-- A known order is not submitted again. -/
theorem submitOrder_known {clock : MarketClock} {now : Moment} (context : DecimalContext)
    (hknown : adapter.orders.get? request.clientOrderId = some status) :
    (adapter.submitOrder context request quote clock now).2 = adapter ∧
      ∀ order, (adapter.submitOrder context request quote clock now).1 = .ok order →
        order = status := by
  unfold submitOrder
  rw [hknown]
  split
  · exact ⟨rfl, fun order horder => nomatch horder⟩
  · exact ⟨rfl, fun order horder => (Except.ok.inj horder).symm⟩

omit [PyRuntime] [TotalSeconds] in
theorem sound_of_create {config : BrokerSessionConfig}
    {qualification : Option QualificationDecision} {accountIdDigest : String} {openingCash : ℚ}
    (h : create config qualification accountIdDigest openingCash = .ok adapter) :
    adapter.Sound ∧ adapter.openingCash = openingCash := by
  unfold create at h
  simp only [bind_eq_ok_iff, refuseIf_eq_ok_iff, not_le] at h
  obtain ⟨_, hpos, _, -, h⟩ := h
  cases h
  refine ⟨⟨hpos.le, by simp, List.nodup_nil, ?_, ?_, Nat.zero_le _⟩, rfl⟩
  · intro fill hfill
    cases hfill
  · intro id status hstatus
    rw [OrderedDict.get?_empty] at hstatus
    cases hstatus

/-- No call changes the opening cash. -/
theorem openingCash_step (h : adapter.Sound) (call : Call) :
    (PaperBrokerAdapter.step .exact adapter call).2.openingCash = adapter.openingCash := by
  have heffect := effect_step h.room call
  generalize PaperBrokerAdapter.step .exact adapter call = outcome at heffect
  cases heffect <;> rfl

theorem openingCash_after (h : adapter.Sound) (calls : List Call) :
    (adapter.after .exact calls).openingCash = adapter.openingCash :=
  (Machine.invariant_run
    (P := fun state : PaperBrokerAdapter =>
      state.Sound ∧ state.openingCash = adapter.openingCash)
    (fun _ call hstate =>
      ⟨hstate.1.step call, (openingCash_step hstate.1 call).trans hstate.2⟩)
    ⟨h, rfl⟩ calls).2

/-- What holds of the orders, the fills and the cash of an adapter that opened with
some cash, and of the calls it takes next. -/
structure Consistent (openingCash : ℚ) (adapter : PaperBrokerAdapter) : Prop where
  cash_nonneg : 0 ≤ adapter.cash
  cash_eq : adapter.cash = openingCash + (adapter.fills.map Fill.signedNotional).sum
  /-- An order has at most one fill. -/
  fills_nodup : (adapter.fills.map Fill.clientOrderId).Nodup
  filledBy : ∀ fill ∈ adapter.fills, adapter.FilledBy fill
  state : ∀ id status, adapter.orders.get? id = some status →
    status.state = .accepted ∨ Settled status.state
  /-- A settled order never changes again. -/
  settled : ∀ id status, adapter.orders.get? id = some status → Settled status.state →
    ∀ later, (adapter.after .exact later).orders.get? id = some status
  /-- An order that is known is not submitted again. -/
  resubmitted : ∀ request quote clock now existing,
    adapter.orders.get? request.clientOrderId = some existing →
    (adapter.submitOrder .exact request quote clock now).2 = adapter ∧
    ∀ order, (adapter.submitOrder .exact request quote clock now).1 = .ok order →
      order = existing
  /-- A call that raises changes nothing. -/
  raised : ∀ call e, (PaperBrokerAdapter.step .exact adapter call).1 = .error e →
    (PaperBrokerAdapter.step .exact adapter call).2 = adapter

/-- Orders, fills and cash are consistent after any calls with exact decimals. -/
theorem adapter_consistent_after {config : BrokerSessionConfig}
    {qualification : Option QualificationDecision} {accountIdDigest : String} {openingCash : ℚ}
    {opened : PaperBrokerAdapter}
    (h : create config qualification accountIdDigest openingCash = .ok opened)
    (calls : List Call) : (opened.after .exact calls).Consistent openingCash := by
  obtain ⟨hopened, hcash⟩ := sound_of_create h
  have hsound := hopened.after calls
  exact {
    cash_nonneg := hsound.cash_nonneg
    cash_eq := by rw [hsound.cash_eq, openingCash_after hopened calls, hcash]
    fills_nodup := hsound.fills_nodup
    filledBy := hsound.filledBy
    state := hsound.state
    settled := fun id status hstatus hsettled later =>
      get?_after_of_settled hsound later hstatus hsettled
    resubmitted := fun _ _ _ _ _ hknown => submitOrder_known .exact hknown
    raised := fun _ _ herror => step_of_error hsound herror }

end Steps

/-! ## Sample calls -/

/-- A paper session that is allowed. -/
def sampleConfig : BrokerSessionConfig where
  enabled := true
  endpoint := "https://paper-api.alpaca.markets"
  keychainService := "com.signal-foundry.alpaca-paper"
  maxQuoteAgeSeconds := 300
  maxClockSkewSeconds := 5
  endpoint_allowed := .inr (by decide)
  keychainService_allowed := .inr (by decide)
  maxQuoteAgeSeconds_pos := by norm_num
  maxClockSkewSeconds_pos := by norm_num

/-- An adapter that opens with one hundred thousand. -/
def sampleAdapter : PaperBrokerAdapter where
  config := sampleConfig
  qualification := some ⟨"QUALIFIED_FOR_PAPER", "momentum", []⟩
  accountIdDigest := String.ofList (List.replicate 64 'a')
  openingCash := 100000
  connected := false
  killSwitchEngaged := false
  orders := .empty
  fills := []
  positions := .empty
  cash := 100000
  nextBrokerId := 1
  nextFillId := 1

theorem create_sampleAdapter :
    create sampleConfig (some ⟨"QUALIFIED_FOR_PAPER", "momentum", []⟩)
      (String.ofList (List.replicate 64 'a')) 100000 = .ok sampleAdapter := by
  unfold create
  rw [refuseIf_of_not (by norm_num), ok_bind, refuseIf_of_not (by decide), ok_bind]
  rfl

/-- A market order for one security, submitted while the market is open at one price. -/
def sampleSubmission (clientOrderId : String) (side : OrderSide) (quantity price : ℚ)
    (hid : isClientOrderId clientOrderId = true) (hquantity : quantityEpsilon < quantity)
    (hprice : 0 < price) : Call :=
  .submitOrder
    { clientOrderId, symbol := "AAPL", side, quantity, orderType := .market, limitPrice := none
      clientOrderId_valid := hid
      symbol_valid := isSymbol_aapl
      quantity_gt := hquantity
      limitPrice_isSome := by decide
      limitPrice_pos := by simp }
    { symbol := "AAPL", bid := price, ask := price, observedAt := 0
      symbol_valid := isSymbol_aapl
      bid_pos := hprice
      bid_le_ask := le_rfl }
    { isOpen := true, serverTime := 0 } (.aware 0)

open Platform ExactSeconds in
/-- An adapter that connects, buys and fails to cancel what it bought. -/
theorem adapter_consistent_after_purchase :
    (sampleAdapter.after .exact [.connect fun _ => none,
      sampleSubmission "order-1" .buy 5 100 (by decide) quantityEpsilon_lt_five hundred_pos,
      .cancelOrder "order-1" (.aware 0)]).Consistent 100000 :=
  adapter_consistent_after create_sampleAdapter _

end PaperBrokerAdapter

end SignalFoundry.Broker
