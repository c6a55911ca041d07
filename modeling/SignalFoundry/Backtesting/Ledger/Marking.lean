import SignalFoundry.Backtesting.Ledger.SelfFinancing
import SignalFoundry.Library.Platform

/-!
# Marked ledgers and runs of calls

A consistent ledger is marked at any map of positive prices that covers its open
symbols: the snapshot is never refused, its equity is cash plus the signed value
of the positions, and the two ways to account for that equity agree exactly.

`LedgerCall` is a mutation of the ledger as a caller makes it. A call that
raises leaves the ledger it was made on, so a run of calls is a fold.
-/

namespace SignalFoundry

open Fallible PyFloat Ledger

namespace PortfolioLedger

variable {ledger : PortfolioLedger ℚ} {prices : OrderedDict String ℚ}

/-- Open positions at the difference between a price and their average cost. -/
def unrealizedPnl (ledger : PortfolioLedger ℚ) (prices : OrderedDict String ℚ) : ℚ :=
  ledger.positions.sumOf fun symbol quantity =>
    quantity * (prices.getD symbol 0 - ledger.averageCosts.getD symbol 0)

theorem marketValue_eq (ledger : PortfolioLedger ℚ) (prices : OrderedDict String ℚ) :
    ledger.marketValue prices = ledger.costBasis + ledger.unrealizedPnl prices := by
  simp only [marketValue, costBasis, unrealizedPnl, OrderedDict.sumOf]
  rw [← List.sum_map_add]
  congr 2
  funext p
  ring

/-- A price map: positive prices under non-empty symbols. -/
def IsPriceMap (prices : OrderedDict String ℚ) : Prop :=
  ∀ p ∈ prices.items, PyText.isBlank p.1 = false ∧ 0 < p.2

/-- A price for every open symbol. -/
def CoversOpen (ledger : PortfolioLedger ℚ) (prices : OrderedDict String ℚ) : Prop :=
  ∀ s ∈ ledger.positions.keys, s ∈ prices.keys

/-- What a mark of the ledger at a price map says. -/
structure MarkedAt (ledger : PortfolioLedger ℚ) (prices : OrderedDict String ℚ)
    (mark : LedgerSnapshot ℚ) : Prop where
  cash : mark.cash = ledger.cash
  equity_market : mark.equity = ledger.cash + ledger.marketValue prices
  equity_accounts : mark.equity =
    ledger.initialCash + mark.realizedPnl + mark.unrealizedPnl - mark.totalCharges
  realized : mark.realizedPnl = ledger.realizedPnlBySymbol.values.sum
  unrealized : mark.unrealizedPnl = ledger.unrealizedPnl prices
  charged : mark.totalCharges = ledger.charges.values.sum
  reconciliationError : mark.reconciliationError = 0

/-- The snapshot checks pass for finite numbers under non-empty symbols. -/
theorem postInit_rat {mark : LedgerSnapshot ℚ}
    (hpositions : ∀ p ∈ mark.positions.items, PyText.isBlank p.1 = false)
    (hvalues : ∀ p ∈ mark.marketValues.items, PyText.isBlank p.1 = false)
    (hweights : ∀ p ∈ mark.weights.items, PyText.isBlank p.1 = false)
    (haverages : ∀ p ∈ mark.averageCosts.items, PyText.isBlank p.1 = false)
    (hrealized : ∀ p ∈ mark.realizedPnlBySymbol.items, PyText.isBlank p.1 = false)
    (hunrealized : ∀ p ∈ mark.unrealizedPnlBySymbol.items, PyText.isBlank p.1 = false)
    (hcharges : 0 ≤ mark.totalCharges) (herror : 0 ≤ mark.reconciliationError)
    (htolerance : 0 ≤ mark.reconciliationTolerance) :
    mark.postInit = .ok mark := by
  have hmapping : ∀ (name : String) (mapping : OrderedDict String ℚ),
      (∀ p ∈ mapping.items, PyText.isBlank p.1 = false) →
        LedgerSnapshot.checkMapping name mapping = .ok () := by
    intro name mapping h
    refine refuseIf_of_not ?_
    simpa using fun s v hp => h (s, v) hp
  have hnumber : ∀ (name : String) (value : ℚ),
      LedgerSnapshot.checkNumber name value = .ok () := fun name value => by
    simp [LedgerSnapshot.checkNumber]
  have hnonneg : ∀ (name : String) (value : ℚ), 0 ≤ value →
      LedgerSnapshot.checkNonnegative name value = .ok () := by
    intro name value h
    simp [LedgerSnapshot.checkNonnegative, hnumber, h]
  rw [LedgerSnapshot.postInit, hmapping _ _ hpositions, ok_bind, hmapping _ _ hvalues, ok_bind,
    hmapping _ _ hweights, ok_bind, hmapping _ _ haverages, ok_bind, hmapping _ _ hrealized,
    ok_bind, hmapping _ _ hunrealized, ok_bind, refuseIf_of_not (by simp)]
  simp only [ok_bind, hnumber, hnonneg _ _ hcharges, hnonneg _ _ herror,
    hnonneg _ _ htolerance, pure_eq_ok]

/-- The entries of a mapping computed from the sorted open positions carry the
symbols of the positions. -/
theorem nonblank_of_mem_map_sortedItems (h : ledger.Consistent) (f : String × ℚ → ℚ) :
    ∀ p ∈ (OrderedDict.ofItems (ledger.positions.sortedItems.map fun q => (q.1, f q))).items,
      PyText.isBlank p.1 = false := by
  have hnodup : ((ledger.positions.sortedItems.map fun q => (q.1, f q)).map Prod.fst).Nodup := by
    rw [List.map_map]
    exact ledger.positions.nodup_keys_sortedItems
  rw [OrderedDict.items_ofItems hnodup]
  intro p hp
  obtain ⟨⟨s, q⟩, hmem, rfl⟩ := List.mem_map.mp hp
  exact h.positions_nonblank s
    (OrderedDict.mem_keys_iff.mpr ⟨q, OrderedDict.mem_sortedItems_iff.mp hmem⟩)

variable [PyRuntime]

theorem validatePriceItems_eq_ok {items : List (String × ℚ)}
    (h : ∀ p ∈ items, PyText.isBlank p.1 = false ∧ 0 < p.2) :
    validatePriceItems items = .ok () := by
  induction items with
  | nil => rfl
  | cons p rest ih =>
      obtain ⟨hblank, hpos⟩ := h p List.mem_cons_self
      rw [validatePriceItems, validateSymbol, refuseIf_of_not (by simp [hblank]), ok_bind,
        positivePrice_eq_ok_iff.mpr ⟨hpos, rfl⟩, ok_bind]
      exact ih fun q hq => h q (List.mem_cons_of_mem p hq)

theorem validatePrices_eq_ok {required : List String} (h : IsPriceMap prices)
    (hcovers : ∀ s ∈ required, s ∈ prices.keys) :
    validatePrices prices required = .ok prices := by
  have hmissing : (required.filter fun s => !(prices.keys.contains s)) = [] := by
    rw [List.filter_eq_nil_iff]
    intro s hs
    simpa using hcovers s hs
  rw [validatePrices, validatePriceItems_eq_ok h, ok_bind, hmissing]
  rfl

omit [PyRuntime] in
theorem lookup_of_mem {mapping : OrderedDict String ℚ} {symbol : String}
    (h : symbol ∈ mapping.keys) : lookup mapping symbol = .ok (mapping.getD symbol 0) := by
  obtain ⟨v, hv⟩ := OrderedDict.mem_keys_iff.mp h
  simp only [lookup, hv, OrderedDict.getD_of_some hv]

omit [PyRuntime] in
/-- The symbols of the sorted positions have entries wherever the open symbols have. -/
theorem lookup_sortedItems {mapping : OrderedDict String ℚ}
    (h : ∀ s ∈ ledger.positions.keys, s ∈ mapping.keys) {p : String × ℚ}
    (hp : p ∈ ledger.positions.sortedItems) :
    lookup mapping p.1 = .ok (mapping.getD p.1 0) :=
  lookup_of_mem (h p.1
    (OrderedDict.mem_keys_iff.mpr ⟨p.2, OrderedDict.mem_sortedItems_iff.mp hp⟩))

/-- A consistent ledger can be marked, and both accounts of its equity agree. -/
theorem snapshot_of_consistent (h : ledger.Consistent) (date : PyDate)
    (hprices : IsPriceMap prices) (hcovers : ledger.CoversOpen prices) :
    ∃ mark, ledger.snapshot date prices = .ok mark ∧ ledger.MarkedAt prices mark := by
  have hprice : ∀ p ∈ ledger.positions.sortedItems,
      lookup prices p.1 = .ok (prices.getD p.1 0) := fun p hp => lookup_sortedItems hcovers hp
  have haverage : ∀ p ∈ ledger.positions.sortedItems,
      lookup ledger.averageCosts p.1 = .ok (ledger.averageCosts.getD p.1 0) :=
    fun p hp => lookup_sortedItems (fun s => (h.same_symbols s).mp) hp
  have hvalues := mapM_eq_ok_map (l := ledger.positions.sortedItems)
    (f := fun (symbol, quantity) => do
      let value ← finiteProduct quantity (← lookup prices symbol)
        ("market value for " ++ PyRuntime.strRepr symbol)
      return (symbol, value))
    (g := fun p => (p.1, p.2 * prices.getD p.1 0))
    fun p hp => by simp only [hprice p hp, ok_bind, finiteProduct_rat, pure_eq_ok]
  have hgains := mapM_eq_ok_map (l := ledger.positions.sortedItems)
    (f := fun (symbol, quantity) => do
      let price ← lookup prices symbol
      let difference ← finiteSum [price, neg (← lookup ledger.averageCosts symbol)]
        ("price change for " ++ PyRuntime.strRepr symbol)
      let value ← finiteProduct quantity difference
        ("unrealized P&L for " ++ PyRuntime.strRepr symbol)
      return (symbol, value))
    (g := fun p => (p.1, p.2 * (prices.getD p.1 0 - ledger.averageCosts.getD p.1 0)))
    fun p hp => by
      simp only [hprice p hp, haverage p hp, ok_bind, finiteProduct_rat, finiteSum_rat,
        pure_eq_ok, List.sum_cons, List.sum_nil, add_zero, rat_neg, sub_eq_add_neg]
  have hmarket : ((ledger.positions.sortedItems.map fun p =>
      (p.1, p.2 * prices.getD p.1 0)).map Prod.snd).sum = ledger.marketValue prices := by
    rw [List.map_map]
    exact ledger.positions.sum_sortedItems fun s q => q * prices.getD s 0
  have hunrealized : ((ledger.positions.sortedItems.map fun p =>
      (p.1, p.2 * (prices.getD p.1 0 - ledger.averageCosts.getD p.1 0))).map Prod.snd).sum =
      ledger.unrealizedPnl prices := by
    rw [List.map_map]
    exact ledger.positions.sum_sortedItems
      fun s q => q * (prices.getD s 0 - ledger.averageCosts.getD s 0)
  have haccounts : ledger.cash + ledger.marketValue prices = ledger.initialCash +
      (ledger.realizedPnlBySymbol.values.sum +
        (ledger.unrealizedPnl prices + -ledger.charges.values.sum)) := by
    have hidentity := h.reconciled
    rw [Reconciled] at hidentity
    rw [marketValue_eq]
    linarith
  have hcharges : 0 ≤ ledger.charges.values.sum := by
    refine List.sum_nonneg fun c hc => ?_
    obtain ⟨category, -, rfl⟩ := List.mem_map.mp hc
    exact h.charges_nonneg category
  rw [snapshot, validatePrices_eq_ok hprices hcovers, ok_bind, hvalues, ok_bind, finiteSum_rat,
    ok_bind, hgains, ok_bind, realizedPnl, finiteSum_rat, ok_bind, finiteSum_rat, ok_bind,
    totalCharges, finiteSum_rat, ok_bind, finiteSum_rat, ok_bind, finiteSum_rat, ok_bind,
    reconciliationError_rat, ok_bind]
  simp only [List.sum_cons, List.sum_nil, add_zero, hmarket, hunrealized, rat_neg, haccounts,
    sub_self, abs_zero]
  rw [refuseIf_of_not (by simp), ok_bind, postInit_rat]
  · refine ⟨_, rfl, rfl, haccounts.symm, ?_, rfl, rfl, rfl, rfl⟩
    ring
  · exact fun p hp => h.positions_nonblank p.1 (List.mem_map_of_mem hp)
  · exact nonblank_of_mem_map_sortedItems h _
  · intro p hp
    dsimp only at hp
    split at hp
    · rw [List.map_map] at hp
      exact nonblank_of_mem_map_sortedItems h _ p hp
    · cases hp
  · exact fun p hp => h.positions_nonblank p.1
      ((h.same_symbols p.1).mpr (List.mem_map_of_mem hp))
  · exact fun p hp => h.realized_nonblank p.1 (List.mem_map_of_mem hp)
  · exact nonblank_of_mem_map_sortedItems h _
  · exact hcharges
  · exact le_rfl
  · exact le_rfl

end PortfolioLedger

/-! ## Runs of calls -/

/-- A mutating call on a ledger, with its arguments. -/
inductive LedgerCall (F : Type) where
  | applyFill (symbol : String) (signedQuantity fillPrice commission : F)
      (charges : Option (List (String × F)))
  | applyCharge (category : String) (amount : F)

namespace LedgerCall

variable {F : Type} [PyRuntime] [PyFloat F]

def run (ledger : PortfolioLedger F) : LedgerCall F → Except PyError (PortfolioLedger F)
  | applyFill symbol signedQuantity fillPrice commission charges =>
      ledger.applyFill symbol signedQuantity fillPrice commission charges
  | applyCharge category amount => ledger.applyCharge category amount

/-- The ledger a caller holds after a call that may have raised. -/
def after (ledger : PortfolioLedger F) (call : LedgerCall F) : PortfolioLedger F :=
  match call.run ledger with
  | .ok mutated => mutated
  | .error _ => ledger

end LedgerCall

namespace PortfolioLedger

section Runs

variable [PyRuntime] {ledger : PortfolioLedger ℚ}

/-- A call on a consistent ledger raises `ValueError` or returns a consistent
ledger. -/
theorem run_cases (h : ledger.Consistent) (call : LedgerCall ℚ) :
    (∃ m, call.run ledger = .error (.valueError m)) ∨
      ∃ mutated, call.run ledger = .ok mutated ∧ mutated.Consistent ∧
        mutated.initialCash = ledger.initialCash := by
  cases call with
  | applyFill symbol quantity price commission charges =>
      rcases applyFill_cases h symbol quantity price commission charges with
        hrefused | ⟨mutated, hok, hconsistent, hinitial, -⟩
      · exact .inl hrefused
      · exact .inr ⟨mutated, hok, hconsistent, hinitial⟩
  | applyCharge category amount =>
      rcases applyCharge_cases h category amount with
        hrefused | ⟨mutated, hok, hconsistent, hinitial, -⟩
      · exact .inl hrefused
      · exact .inr ⟨mutated, hok, hconsistent, hinitial⟩

theorem consistent_after (h : ledger.Consistent) (call : LedgerCall ℚ) :
    (LedgerCall.after ledger call).Consistent ∧
      (LedgerCall.after ledger call).initialCash = ledger.initialCash := by
  unfold LedgerCall.after
  rcases run_cases h call with ⟨m, hm⟩ | ⟨mutated, hok, hconsistent, hinitial⟩
  · rw [hm]
    exact ⟨h, rfl⟩
  · rw [hok]
    exact ⟨hconsistent, hinitial⟩

theorem consistent_foldl_after (h : ledger.Consistent) (calls : List (LedgerCall ℚ)) :
    (calls.foldl LedgerCall.after ledger).Consistent ∧
      (calls.foldl LedgerCall.after ledger).initialCash = ledger.initialCash := by
  induction calls generalizing ledger with
  | nil => exact ⟨h, rfl⟩
  | cons call calls ih =>
      obtain ⟨hstep, hinitial⟩ := consistent_after h call
      obtain ⟨hrun, hrest⟩ := ih hstep
      exact ⟨hrun, hrest.trans hinitial⟩

/-- Self-financing accounting of a ledger that was created with some cash. -/
structure SelfFinancing (initialCash : ℚ) (ledger : PortfolioLedger ℚ) : Prop where
  same_symbols : ∀ s, s ∈ ledger.positions.keys ↔ s ∈ ledger.averageCosts.keys
  average_pos : ∀ s a, ledger.averageCosts.get? s = some a → 0 < a
  identity : ledger.cash + ledger.costBasis =
    initialCash + ledger.realizedPnlBySymbol.values.sum - ledger.charges.values.sum
  no_reconciliation_error : ∀ (call : LedgerCall ℚ) (m : String),
    call.run ledger ≠ .error (.runtimeError m)
  marked : ∀ (date : PyDate) (prices : OrderedDict String ℚ), IsPriceMap prices →
    ledger.CoversOpen prices →
      ∃ mark, ledger.snapshot date prices = .ok mark ∧
        mark.equity = ledger.cash + ledger.marketValue prices ∧
        mark.equity = initialCash + ledger.realizedPnlBySymbol.values.sum +
          ledger.unrealizedPnl prices - ledger.charges.values.sum ∧
        mark.realizedPnl = ledger.realizedPnlBySymbol.values.sum ∧
        mark.unrealizedPnl = ledger.unrealizedPnl prices ∧
        mark.totalCharges = ledger.charges.values.sum ∧
        mark.reconciliationError = 0

/-- Whatever calls are made on a new ledger, and whichever of them raise, its
accounting is self-financing. -/
theorem selfFinancing_of_calls {initialCash : ℚ} {ledger₀ : PortfolioLedger ℚ}
    (hcreate : create initialCash = .ok ledger₀) (calls : List (LedgerCall ℚ)) :
    SelfFinancing initialCash (calls.foldl LedgerCall.after ledger₀) := by
  have hcash : ledger₀.initialCash = initialCash := by
    rw [(create_eq_ok_iff.mp hcreate).2]
  obtain ⟨hconsistent, hinitial⟩ :=
    consistent_foldl_after (consistent_of_create hcreate) calls
  rw [hcash] at hinitial
  refine ⟨hconsistent.same_symbols, hconsistent.average_pos, ?_, ?_, ?_⟩
  · rw [← hinitial]
    exact hconsistent.reconciled
  · intro call m hraised
    rcases run_cases hconsistent call with ⟨m', hm⟩ | ⟨mutated, hok, -, -⟩
    · rw [hm] at hraised
      cases hraised
    · rw [hok] at hraised
      cases hraised
  · intro date prices hprices hcovers
    obtain ⟨mark, hmark, hmarked⟩ := snapshot_of_consistent hconsistent date hprices hcovers
    refine ⟨mark, hmark, hmarked.equity_market, ?_, hmarked.realized, hmarked.unrealized,
      hmarked.charged, hmarked.reconciliationError⟩
    rw [hmarked.equity_accounts, hmarked.realized, hmarked.unrealized, hmarked.charged, hinitial]

end Runs

open Platform in
/-- A ledger of ten units of cash that buys two units at three, is charged one
and sells both at five. -/
theorem selfFinancing_of_calls_ten :
    SelfFinancing 10 ([.applyFill "ABC" 2 3 0 none, .applyCharge "fees" 1,
      .applyFill "ABC" (-2) 5 0 none].foldl LedgerCall.after
        { initialCash := 10, cash := 10, positions := .empty, averageCosts := .empty,
          realizedPnlBySymbol := .empty, charges := fun _ => 0 }) :=
  selfFinancing_of_calls (create_eq_ok_iff.mpr ⟨by norm_num, rfl⟩) _

end PortfolioLedger

end SignalFoundry
