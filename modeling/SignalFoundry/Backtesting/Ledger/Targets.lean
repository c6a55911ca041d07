import SignalFoundry.Backtesting.Ledger.Marking

/-!
# Target orders

`targetOrders` sizes every order from one equity, and the orders are then filled
one at a time through the cost-basis rules. A fill at the reference price moves
cash and position value by opposite amounts, so it keeps the marked equity and
shifts one position: after the orders, in whatever order they are filled, each
position is what its weight of that equity buys.
-/

namespace SignalFoundry

open Fallible PyFloat Ledger

namespace PortfolioLedger

/-- Filling signed quantities one after the other at their reference prices,
without charges. -/
def fillAll {F : Type} [PyRuntime] [PyFloat F] (prices : OrderedDict String F) :
    PortfolioLedger F → List (String × F) → Except PyError (PortfolioLedger F)
  | ledger, [] => .ok ledger
  | ledger, (symbol, signedQuantity) :: rest => do
      let price ← lookup prices symbol
      let filled ← ledger.applyFill symbol signedQuantity price zero none
      fillAll prices filled rest

/-- The trade of one symbol that takes its position to a weight of the equity. -/
def tradeOf (ledger : PortfolioLedger ℚ) (weights prices : OrderedDict String ℚ) (equity : ℚ)
    (symbol : String) : ℚ :=
  weights.getD symbol 0 * equity / prices.getD symbol 0 - ledger.positions.getD symbol 0

/-- The shares of one symbol among signed quantities. -/
def sharesOf (fills : List (String × ℚ)) (symbol : String) : ℚ :=
  (fills.map fun p => if p.1 = symbol then p.2 else 0).sum

variable {ledger : PortfolioLedger ℚ} {weights prices : OrderedDict String ℚ} {equity : ℚ}

theorem price_of_mem (h : IsPriceMap prices) {symbol : String} (hmem : symbol ∈ prices.keys) :
    PyText.isBlank symbol = false ∧ 0 < prices.getD symbol 0 := by
  obtain ⟨p, hp⟩ := OrderedDict.mem_keys_iff.mp hmem
  rw [OrderedDict.getD_of_some hp]
  exact h (symbol, p) (OrderedDict.get?_eq_some_iff.mp hp)

theorem getD_of_not_mem {d : OrderedDict String ℚ} {symbol : String} (h : symbol ∉ d.keys) :
    d.getD symbol 0 = 0 :=
  OrderedDict.getD_of_none (OrderedDict.get?_eq_none_iff.mpr h)

theorem sharesOf_items (orders : OrderedDict String ℚ) (symbol : String) :
    sharesOf orders.items symbol = orders.getD symbol 0 := by
  change orders.sumOf (fun k q => if k = symbol then q else 0) = _
  have hothers : (orders.erase symbol).sumOf (fun k q => if k = symbol then q else 0) =
      (orders.erase symbol).sumOf fun _ _ => (0 : ℚ) :=
    OrderedDict.sumOf_erase_congr fun k q hk => if_neg hk
  rw [OrderedDict.sumOf_eq_erase_add_termAt _ _ symbol, hothers]
  unfold OrderedDict.sumOf OrderedDict.termAt OrderedDict.getD
  cases orders.get? symbol <;> simp

section Filling

variable [PyRuntime]

/-! ## Marked values and target orders -/

/-- A ledger whose open symbols are priced is marked at its positions. -/
theorem marketValues_eq (hprices : IsPriceMap prices) (hcovers : ledger.CoversOpen prices) :
    ∃ values, ledger.marketValues prices = .ok values ∧
      values.values.sum = ledger.marketValue prices ∧
      ∀ s, values.getD s 0 = ledger.positions.getD s 0 * prices.getD s 0 := by
  have hvalues := mapM_eq_ok_map (l := ledger.positions.sortedItems)
    (f := fun (symbol, quantity) => do
      return (symbol, mul quantity (← lookup prices symbol)))
    (g := fun p => (p.1, p.2 * prices.getD p.1 0))
    fun p hp => by simp only [lookup_sortedItems hcovers hp, ok_bind, pure_eq_ok, rat_mul]
  have hnodup : ((ledger.positions.sortedItems.map fun p =>
      (p.1, p.2 * prices.getD p.1 0)).map Prod.fst).Nodup := by
    rw [List.map_map]
    exact ledger.positions.nodup_keys_sortedItems
  have hitems := OrderedDict.items_ofItems hnodup
  refine ⟨.ofItems (ledger.positions.sortedItems.map fun p => (p.1, p.2 * prices.getD p.1 0)),
    ?_, ?_, fun s => ?_⟩
  · rw [marketValues, validatePrices_eq_ok hprices hcovers, ok_bind, hvalues, ok_bind,
      refuseIf_of_not (by simp), ok_bind]
    rfl
  · rw [OrderedDict.values, hitems, List.map_map]
    exact ledger.positions.sum_sortedItems fun s q => q * prices.getD s 0
  · by_cases hs : s ∈ ledger.positions.keys
    · obtain ⟨q, hq⟩ := OrderedDict.mem_keys_iff.mp hs
      rw [OrderedDict.getD_of_some hq]
      apply OrderedDict.getD_of_some
      rw [OrderedDict.get?_eq_some_iff, hitems]
      exact List.mem_map.mpr ⟨(s, q), OrderedDict.mem_sortedItems_iff.mpr hq, rfl⟩
    · rw [getD_of_not_mem hs, zero_mul]
      apply getD_of_not_mem
      rw [OrderedDict.keys, hitems, List.map_map]
      intro hmem
      obtain ⟨⟨t, q⟩, ht, rfl⟩ := List.mem_map.mp hmem
      exact hs (OrderedDict.mem_keys_iff.mpr ⟨q, OrderedDict.mem_sortedItems_iff.mp ht⟩)

theorem equity_eq (hprices : IsPriceMap prices) (hcovers : ledger.CoversOpen prices) :
    ledger.equity prices = .ok (ledger.cash + ledger.marketValue prices) := by
  obtain ⟨values, hvalues, hsum, -⟩ := marketValues_eq hprices hcovers
  rw [PortfolioLedger.equity, hvalues, ok_bind, finiteSum_rat, List.sum_cons, hsum]

theorem targetOrderItems_eq {symbols : List String} (h : ∀ s ∈ symbols, s ∈ prices.keys) :
    ledger.targetOrderItems weights prices equity symbols = .ok
      ((symbols.filter fun s => ledger.tradeOf weights prices equity s ≠ 0).map
        fun s => (s, ledger.tradeOf weights prices equity s)) := by
  induction symbols with
  | nil => rfl
  | cons symbol rest ih =>
      have htrade : sub (div (mul (weights.getD symbol zero) equity) (prices.getD symbol 0))
          (ledger.positions.getD symbol zero) = ledger.tradeOf weights prices equity symbol := by
        simp only [rat_sub, rat_div, rat_mul, rat_zero, tradeOf]
      rw [targetOrderItems, lookup_of_mem (h symbol List.mem_cons_self), ok_bind]
      dsimp only
      rw [htrade, refuseIf_of_not (by simp), ok_bind,
        ih fun s hs => h s (List.mem_cons_of_mem _ hs), ok_bind]
      by_cases hzero : ledger.tradeOf weights prices equity symbol = 0
      · simp [hzero]
      · simp [hzero]

theorem validateWeightItems_eq_ok {items : List (String × ℚ)}
    (h : ∀ p ∈ items, PyText.isBlank p.1 = false) : validateWeightItems items = .ok () := by
  induction items with
  | nil => rfl
  | cons p rest ih =>
      rw [validateWeightItems, validateSymbol,
        refuseIf_of_not (by simp [h p List.mem_cons_self]), ok_bind, finiteFloat_rat, ok_bind]
      exact ih fun q hq => h q (List.mem_cons_of_mem p hq)

theorem validateWeights_eq_ok (h : ∀ s ∈ weights.keys, PyText.isBlank s = false) :
    validateWeights weights = .ok weights := by
  rw [validateWeights, validateWeightItems_eq_ok fun p hp => h p.1 (List.mem_map_of_mem hp),
    ok_bind]
  simp [refuseIf]

/-- The orders of a ledger whose equity is positive trade every symbol to its
weight of that equity. -/
theorem targetOrders_eq (hprices : IsPriceMap prices) (hopen : ledger.CoversOpen prices)
    (htargets : ∀ s ∈ weights.keys, s ∈ prices.keys)
    (hequity : ledger.equity prices = .ok equity) (hpos : 0 < equity) :
    ∃ orders, ledger.targetOrders weights prices = .ok orders ∧
      (∀ p ∈ orders.items, p.1 ∈ prices.keys ∧ p.2 ≠ 0) ∧
      ∀ s, orders.getD s 0 = ledger.tradeOf weights prices equity s := by
  obtain ⟨symbols, hsymbols⟩ : ∃ symbols, symbols =
      (ledger.positions.keys ++ weights.keys).dedup.insertionSort (· ≤ ·) := ⟨_, rfl⟩
  have hmem : ∀ s, s ∈ symbols ↔ s ∈ ledger.positions.keys ∨ s ∈ weights.keys := by
    intro s
    rw [hsymbols, List.mem_insertionSort, List.mem_dedup, List.mem_append]
  have hcovered : ∀ s ∈ symbols, s ∈ prices.keys := fun s hs =>
    ((hmem s).mp hs).elim (hopen s) (htargets s)
  have hnodup : (symbols.filter fun s => ledger.tradeOf weights prices equity s ≠ 0).Nodup := by
    rw [hsymbols]
    exact ((List.perm_insertionSort _ _).nodup_iff.mpr (List.nodup_dedup _)).filter _
  have hkeys : (((symbols.filter fun s => ledger.tradeOf weights prices equity s ≠ 0).map
      fun s => (s, ledger.tradeOf weights prices equity s)).map Prod.fst).Nodup := by
    rw [List.map_map]
    simpa [Function.comp_def] using hnodup
  have hitems := OrderedDict.items_ofItems hkeys
  refine ⟨.ofItems ((symbols.filter fun s => ledger.tradeOf weights prices equity s ≠ 0).map
      fun s => (s, ledger.tradeOf weights prices equity s)), ?_, ?_, fun s => ?_⟩
  · rw [targetOrders, validateWeights_eq_ok fun s hs => (price_of_mem hprices (htargets s hs)).1,
      ok_bind, ← hsymbols]
    dsimp only
    rw [validatePrices_eq_ok hprices hcovered, ok_bind, hequity, ok_bind,
      refuseIf_of_not (by simpa using hpos), ok_bind, targetOrderItems_eq hcovered, ok_bind]
    rfl
  · rw [hitems]
    intro p hp
    obtain ⟨s, hs, rfl⟩ := List.mem_map.mp hp
    obtain ⟨hsymbol, htrade⟩ := List.mem_filter.mp hs
    exact ⟨hcovered s hsymbol, of_decide_eq_true htrade⟩
  · by_cases hs : s ∈ symbols.filter fun s => ledger.tradeOf weights prices equity s ≠ 0
    · apply OrderedDict.getD_of_some
      rw [OrderedDict.get?_eq_some_iff, hitems]
      exact List.mem_map.mpr ⟨s, hs, rfl⟩
    · rw [getD_of_not_mem]
      · by_cases hsymbol : s ∈ symbols
        · -- a symbol that is held or targeted and not ordered already has its weight
          by_contra htrade
          exact hs (List.mem_filter.mpr ⟨hsymbol, decide_eq_true (Ne.symm htrade)⟩)
        · rw [hmem, not_or] at hsymbol
          rw [tradeOf, getD_of_not_mem hsymbol.1, getD_of_not_mem hsymbol.2, zero_mul, zero_div,
            sub_zero]
      · rw [OrderedDict.keys, hitems, List.map_map]
        simpa [Function.comp_def] using hs

/-! ## Filling orders -/

/-- What fills at reference prices keep and what they move. -/
structure FilledFrom (ledger : PortfolioLedger ℚ) (prices : OrderedDict String ℚ)
    (fills : List (String × ℚ)) (filled : PortfolioLedger ℚ) : Prop where
  consistent : filled.Consistent
  covers : filled.CoversOpen prices
  equity : filled.cash + filled.marketValue prices = ledger.cash + ledger.marketValue prices
  positions : ∀ s, filled.positions.getD s 0 = ledger.positions.getD s 0 + sharesOf fills s

/-- One fill at its reference price trades cash for position value. -/
theorem applyFill_filledFrom (h : ledger.Consistent) (hprices : IsPriceMap prices)
    (hopen : ledger.CoversOpen prices) {symbol : String} (hsymbol : symbol ∈ prices.keys)
    (quantity : ℚ) :
    ∃ filled, ledger.applyFill symbol quantity (prices.getD symbol 0) zero none = .ok filled ∧
      FilledFrom ledger prices [(symbol, quantity)] filled := by
  obtain ⟨hnamed, hprice⟩ := price_of_mem hprices hsymbol
  have hcharges : validateCharges (none : Option (List (String × ℚ))) = .ok fun _ => 0 := rfl
  obtain ⟨realized, average, hfill, hconsistent⟩ :=
    applyFill_eq h quantity hnamed hprice le_rfl hcharges fun _ => le_rfl
  refine ⟨_, hfill, hconsistent, ?_, ?_, fun s => ?_⟩
  · intro s hs
    rcases mem_keys_store.mp hs with ⟨-, rfl⟩ | ⟨-, hs⟩
    · exact hsymbol
    · exact hopen s hs
  · have hcharges : ChargeTotals.values (Function.update (fun _ => (0 : ℚ)) ChargeCategory.fees
        (0 + 0)) = [0, 0, 0, 0] := by
      simp [ChargeTotals.values, chargeCategories]
    simp only [marketValue, filled, hcharges]
    rw [sumOf_store _ fun s => prices.getD s 0,
      sumOf_eq_erase_add ledger.positions (fun s => prices.getD s 0) symbol]
    simp only [List.sum_cons, List.sum_nil]
    ring
  · rw [getD_positions_filled]
    simp [sharesOf, eq_comm]

/-- Fills at reference prices are all applied, in whatever order they come. -/
theorem fillAll_filledFrom (h : ledger.Consistent) (hprices : IsPriceMap prices)
    (hopen : ledger.CoversOpen prices) (fills : List (String × ℚ))
    (hfills : ∀ p ∈ fills, p.1 ∈ prices.keys) :
    ∃ filled, fillAll prices ledger fills = .ok filled ∧
      FilledFrom ledger prices fills filled := by
  induction fills generalizing ledger with
  | nil => exact ⟨ledger, rfl, h, hopen, rfl, fun s => by simp [sharesOf]⟩
  | cons p rest ih =>
      obtain ⟨symbol, quantity⟩ := p
      have hsymbol : symbol ∈ prices.keys := hfills _ List.mem_cons_self
      obtain ⟨next, hnext, hstep⟩ := applyFill_filledFrom h hprices hopen hsymbol quantity
      obtain ⟨filled, hrest, hrun⟩ := ih hstep.consistent hstep.covers
        fun q hq => hfills q (List.mem_cons_of_mem _ hq)
      refine ⟨filled, ?_, hrun.consistent, hrun.covers, hrun.equity.trans hstep.equity,
        fun s => ?_⟩
      · rw [fillAll, lookup_of_mem hsymbol, ok_bind, hnext, ok_bind, hrest]
      · rw [hrun.positions, hstep.positions]
        simp only [sharesOf, List.map_cons, List.map_nil, List.sum_cons, List.sum_nil]
        ring

/-! ## Orders reach their targets -/

/-- The target orders of a ledger are sized, and filling them in any order keeps
the marked equity, gives every symbol its weight of it and leaves no order. -/
def ReachesTargets (ledger : PortfolioLedger ℚ) (weights prices : OrderedDict String ℚ)
    (equity : ℚ) : Prop :=
  ∃ orders, ledger.targetOrders weights prices = .ok orders ∧
    ∀ fills, fills.Perm orders.items → ∃ filled, fillAll prices ledger fills = .ok filled ∧
      filled.equity prices = .ok equity ∧
      (∃ values, filled.marketValues prices = .ok values ∧
        ∀ s, values.getD s 0 = weights.getD s 0 * equity) ∧
      filled.targetOrders weights prices = .ok .empty

theorem reachesTargets_of_consistent (h : ledger.Consistent) (hprices : IsPriceMap prices)
    (hopen : ledger.CoversOpen prices) (htargets : ∀ s ∈ weights.keys, s ∈ prices.keys)
    (hequity : ledger.equity prices = .ok equity) (hpos : 0 < equity) :
    ledger.ReachesTargets weights prices equity := by
  obtain ⟨orders, horders, hcovered, htrades⟩ :=
    targetOrders_eq hprices hopen htargets hequity hpos
  refine ⟨orders, horders, fun fills hperm => ?_⟩
  obtain ⟨filled, hfilled, hrun⟩ := fillAll_filledFrom h hprices hopen fills
    fun p hp => (hcovered p (hperm.mem_iff.mp hp)).1
  have hmarked : filled.equity prices = .ok equity := by
    rw [equity_eq hprices hrun.covers, hrun.equity, ← equity_eq hprices hopen, hequity]
  have hposition : ∀ s, filled.positions.getD s 0 =
      weights.getD s 0 * equity / prices.getD s 0 := by
    intro s
    have hshares : sharesOf fills s = orders.getD s 0 := by
      rw [← sharesOf_items]
      exact (hperm.map _).sum_eq
    rw [hrun.positions, hshares, htrades, tradeOf]
    ring
  refine ⟨filled, hfilled, hmarked, ?_, ?_⟩
  · obtain ⟨values, hvalues, -, hvalue⟩ := marketValues_eq hprices hrun.covers
    refine ⟨values, hvalues, fun s => ?_⟩
    rw [hvalue, hposition]
    by_cases hs : s ∈ prices.keys
    · exact div_mul_cancel₀ _ (price_of_mem hprices hs).2.ne'
    · rw [getD_of_not_mem fun hmem => hs (htargets s hmem), zero_mul, zero_div, zero_mul]
  · obtain ⟨again, hagain, hnonzero, htrade⟩ :=
      targetOrders_eq hprices hrun.covers htargets hmarked hpos
    have hnone : ∀ p, p ∉ again.items := by
      intro p hp
      have hp' := OrderedDict.getD_of_some (w := 0) (OrderedDict.get?_eq_some_iff.mpr hp)
      rw [htrade, tradeOf, hposition, sub_self] at hp'
      exact (hnonzero p hp).2 hp'.symm
    have hempty : again = .empty :=
      OrderedDict.ext (List.eq_nil_iff_forall_not_mem.mpr hnone)
    rw [hagain, hempty]

/-- Whatever calls made a ledger, its target orders reach their targets. -/
theorem reachesTargets_of_calls {initialCash : ℚ} {ledger₀ : PortfolioLedger ℚ}
    (hcreate : create initialCash = .ok ledger₀) (calls : List (LedgerCall ℚ))
    (hprices : IsPriceMap prices)
    (hopen : (calls.foldl LedgerCall.after ledger₀).CoversOpen prices)
    (htargets : ∀ s ∈ weights.keys, s ∈ prices.keys)
    (hequity : (calls.foldl LedgerCall.after ledger₀).equity prices = .ok equity)
    (hpos : 0 < equity) :
    (calls.foldl LedgerCall.after ledger₀).ReachesTargets weights prices equity :=
  reachesTargets_of_consistent (consistent_foldl_after (consistent_of_create hcreate) calls).1
    hprices hopen htargets hequity hpos

end Filling

open Platform in
/-- A ledger of ten units of cash that holds two shares at three turns them into
a short position and buys a second symbol. -/
theorem reachesTargets_of_calls_short :
    ReachesTargets ([.applyFill "ABC" 2 3 0 none].foldl LedgerCall.after
      { initialCash := 10, cash := 10, positions := .empty, averageCosts := .empty,
        realizedPnlBySymbol := .empty, charges := fun _ => 0 })
      (.ofItems [("XYZ", 1), ("ABC", -1 / 2)]) (.ofItems [("ABC", 3), ("XYZ", 2)]) 10 :=
  reachesTargets_of_calls (create_eq_ok_iff.mpr ⟨by norm_num, rfl⟩) _
    (by unfold IsPriceMap; decide +kernel) (by unfold CoversOpen; decide +kernel)
    (by decide +kernel) (by decide +kernel) (by norm_num)

end PortfolioLedger

end SignalFoundry
