import SignalFoundry.Backtesting.Ledger.Exact

/-!
# Self-financing accounting

`Consistent` is the invariant of the exact ledger: open positions and average
costs have the same symbols, average costs are positive, and cash plus open
positions at cost is the initial cash plus what was realized less what was
charged. A fill and a charge either raise `ValueError` or return a consistent
ledger; in particular no reconciliation check ever fails. A consistent ledger
can be marked at any price map that covers its open symbols.
-/

namespace SignalFoundry

open Fallible PyFloat Ledger

namespace PortfolioLedger

/-- Open positions valued at their average cost. -/
def costBasis (ledger : PortfolioLedger ℚ) : ℚ :=
  ledger.positions.sumOf fun symbol quantity =>
    quantity * ledger.averageCosts.getD symbol 0

/-- Open positions valued at the prices of a map. -/
def marketValue (ledger : PortfolioLedger ℚ) (prices : OrderedDict String ℚ) : ℚ :=
  ledger.positions.sumOf fun symbol quantity => quantity * prices.getD symbol 0

/-- The cumulative cost-basis identity. -/
def Reconciled (ledger : PortfolioLedger ℚ) : Prop :=
  ledger.cash + ledger.costBasis =
    ledger.initialCash + ledger.realizedPnlBySymbol.values.sum - ledger.charges.values.sum

/-- The invariant of a ledger reached by fills and charges. -/
structure Consistent (ledger : PortfolioLedger ℚ) : Prop where
  initialCash_pos : 0 < ledger.initialCash
  same_symbols : ∀ s, s ∈ ledger.positions.keys ↔ s ∈ ledger.averageCosts.keys
  average_pos : ∀ s a, ledger.averageCosts.get? s = some a → 0 < a
  reconciled : ledger.Reconciled
  charges_nonneg : ∀ c, 0 ≤ ledger.charges c
  positions_nonblank : ∀ s ∈ ledger.positions.keys, PyText.isBlank s = false
  realized_nonblank : ∀ s ∈ ledger.realizedPnlBySymbol.keys, PyText.isBlank s = false

variable {ledger : PortfolioLedger ℚ}

theorem validateChargeCategory_error {category : String} {e : PyError}
    (h : validateChargeCategory category = .error e) : ∃ m, e = .valueError m := by
  unfold validateChargeCategory at h
  split at h
  · cases h
  · exact ⟨_, (Except.error.inj h).symm⟩

theorem create_eq_ok_iff {initialCash : ℚ} :
    create initialCash = .ok ledger ↔ 0 < initialCash ∧ ledger =
      { initialCash := initialCash, cash := initialCash, positions := .empty,
        averageCosts := .empty, realizedPnlBySymbol := .empty, charges := fun _ => 0 } := by
  simp only [create, finiteFloat_rat, ok_bind, bind_eq_ok_iff, refuseIf_eq_ok_iff, rat_le,
    rat_zero, not_le, exists_and_left, exists_const, pure_eq_ok, Except.ok.injEq]
  exact and_congr_right fun _ => eq_comm

theorem consistent_of_create {initialCash : ℚ} (h : create initialCash = .ok ledger) :
    ledger.Consistent := by
  obtain ⟨hpos, rfl⟩ := create_eq_ok_iff.mp h
  refine ⟨hpos, fun _ => Iff.rfl, ?_, ?_, fun _ => le_rfl, ?_, ?_⟩
  · intro s a ha
    simp at ha
  · simp [Reconciled, costBasis, ChargeTotals.values]
  · intro s hs
    cases hs
  · intro s hs
    cases hs

/-- What one open symbol adds to the positions at some prices. -/
theorem sumOf_eq_erase_add (positions : OrderedDict String ℚ) (price : String → ℚ)
    (symbol : String) :
    positions.sumOf (fun s q => q * price s) =
      (positions.erase symbol).sumOf (fun s q => q * price s) +
        positions.getD symbol 0 * price symbol := by
  rw [OrderedDict.sumOf_eq_erase_add_termAt _ _ symbol]
  congr 1
  unfold OrderedDict.termAt OrderedDict.getD
  cases positions.get? symbol <;> simp

/-- Storing or closing one symbol replaces its part of the positions at some prices. -/
theorem sumOf_store (positions : OrderedDict String ℚ) (price : String → ℚ) (symbol : String)
    (quantity : ℚ) :
    (store positions symbol (decide (quantity = 0)) quantity).sumOf (fun s q => q * price s) =
      (positions.erase symbol).sumOf (fun s q => q * price s) + quantity * price symbol := by
  by_cases h : quantity = 0
  · simp only [store, h, decide_true, if_true, zero_mul, add_zero]
  · simp only [store, h, decide_false, Bool.false_eq_true, if_false, OrderedDict.sumOf_set]

/-- Storing or closing one symbol replaces its part of the cost basis. -/
theorem sumOf_store_store (positions averages : OrderedDict String ℚ) (symbol : String)
    (quantity average : ℚ) :
    (store positions symbol (decide (quantity = 0)) quantity).sumOf (fun s q =>
        q * (store averages symbol (decide (quantity = 0)) average).getD s 0) =
      (positions.erase symbol).sumOf (fun s q => q * averages.getD s 0) +
        quantity * average := by
  have hother : ∀ s q, s ≠ symbol →
      q * (store averages symbol (decide (quantity = 0)) average).getD s 0 =
        q * averages.getD s 0 := by
    intro s q hs
    unfold store
    split
    · rw [OrderedDict.getD, OrderedDict.get?_erase_of_ne _ hs, ← OrderedDict.getD]
    · rw [OrderedDict.getD, OrderedDict.get?_set_of_ne _ _ hs, ← OrderedDict.getD]
  rw [sumOf_store _ fun s => (store averages symbol (decide (quantity = 0)) average).getD s 0]
  congr 1
  · exact OrderedDict.sumOf_erase_congr hother
  · by_cases h : quantity = 0
    · simp [h]
    · simp only [store, h, decide_false, Bool.false_eq_true, if_false]
      rw [OrderedDict.getD_of_some (OrderedDict.get?_set_self _ _ _)]

/-- A charge record is refused as a `ValueError` or has no negative amount. -/
theorem validateChargesFrom_cases (index : ℕ) (seen : List ChargeCategory)
    (validated : ChargeTotals ℚ) (entries : List (String × ℚ)) (h : ∀ c, 0 ≤ validated c) :
    (∃ m, validateChargesFrom index seen validated entries = .error (.valueError m)) ∨
      ∃ charges, validateChargesFrom index seen validated entries = .ok charges ∧
        ∀ c, 0 ≤ charges c := by
  induction entries generalizing index seen validated with
  | nil => exact .inr ⟨validated, rfl, h⟩
  | cons entry entries ih =>
      obtain ⟨rawCategory, rawAmount⟩ := entry
      unfold validateChargesFrom
      by_cases hindex : index ≥ chargeCategories.length
      · exact .inl ⟨_, by rw [refuseIf_of hindex, error_bind]⟩
      rw [refuseIf_of_not hindex, ok_bind]
      cases hcategory : validateChargeCategory rawCategory with
      | error e =>
          obtain ⟨m, rfl⟩ := validateChargeCategory_error hcategory
          exact .inl ⟨m, rfl⟩
      | ok category =>
          rw [ok_bind]
          by_cases hseen : category ∈ seen
          · exact .inl ⟨_, by rw [refuseIf_of hseen, error_bind]⟩
          rw [refuseIf_of_not hseen, ok_bind, finiteFloat_rat, ok_bind]
          by_cases hamount : rawAmount < 0
          · exact .inl ⟨_, by rw [refuseIf_of (by simpa using hamount), error_bind]⟩
          rw [refuseIf_of_not (by simpa using hamount), ok_bind]
          refine ih _ _ _ fun c => ?_
          by_cases hc : c = category
          · subst hc
            simpa using not_lt.mp hamount
          · simpa [hc] using h c

theorem validateCharges_cases (charges : Option (List (String × ℚ))) :
    (∃ m, validateCharges charges = .error (.valueError m)) ∨
      ∃ validated, validateCharges charges = .ok validated ∧ ∀ c, 0 ≤ validated c := by
  cases charges with
  | none => exact .inr ⟨_, rfl, fun _ => by simp⟩
  | some entries => exact validateChargesFrom_cases 0 [] _ entries fun _ => by simp

theorem sum_values_update (charges : ChargeTotals ℚ) (category : ChargeCategory) (amount : ℚ) :
    (ChargeTotals.values (Function.update charges category (charges category + amount))).sum =
      charges.values.sum + amount := by
  cases category <;> simp [ChargeTotals.values, chargeCategories] <;> ring

/-! ## The ledger after a fill -/

/-- The ledger after a fill, from the results of its steps. -/
def filled (ledger : PortfolioLedger ℚ) (symbol : String) (quantity price : ℚ)
    (eventCharges : ChargeTotals ℚ) (realized average : ℚ) : PortfolioLedger ℚ :=
  let newQuantity := ledger.positions.getD symbol 0 + quantity
  { ledger with
    cash := ledger.cash - quantity * price - eventCharges.values.sum
    positions := store ledger.positions symbol (decide (newQuantity = 0)) newQuantity
    averageCosts := store ledger.averageCosts symbol (decide (newQuantity = 0)) average
    realizedPnlBySymbol :=
      if oppositeSign (ledger.positions.getD symbol 0) quantity then
        ledger.realizedPnlBySymbol.set symbol
          (ledger.realizedPnlBySymbol.getD symbol 0 + realized)
      else ledger.realizedPnlBySymbol
    charges := fun c => ledger.charges c + eventCharges c }

theorem sum_realized_filled {symbol : String} {quantity price realized average : ℚ}
    {eventCharges : ChargeTotals ℚ}
    (h : FillsAtCost (ledger.positions.getD symbol 0) (ledger.averageCosts.getD symbol 0)
      quantity price realized average) :
    (ledger.filled symbol quantity price eventCharges realized average).realizedPnlBySymbol.values.sum =
      ledger.realizedPnlBySymbol.values.sum + realized := by
  by_cases hopposite : oppositeSign (ledger.positions.getD symbol 0) quantity = true
  · simp only [filled, hopposite, if_true, OrderedDict.sum_values, OrderedDict.sumOf_set]
    rw [OrderedDict.sumOf_eq_erase_add_termAt ledger.realizedPnlBySymbol _ symbol, add_assoc]
    congr 2
    unfold OrderedDict.termAt OrderedDict.getD
    cases ledger.realizedPnlBySymbol.get? symbol <;> rfl
  · have hzero := h.realized_of_not_opposite fun hside =>
      hopposite ((oppositeSign_rat _ _).mpr hside)
    simp [filled, hopposite, hzero]

theorem mem_keys_store {mapping : OrderedDict String ℚ} {s symbol : String} {closed : Bool}
    {value : ℚ} : s ∈ (store mapping symbol closed value).keys ↔
      (closed = false ∧ s = symbol) ∨ ((closed = true → s ≠ symbol) ∧ s ∈ mapping.keys) := by
  cases closed with
  | true => simp [store, OrderedDict.mem_keys_erase]
  | false => simp [store, OrderedDict.mem_keys_set]

theorem consistent_filled (h : ledger.Consistent) {symbol : String}
    {quantity price realized average : ℚ} {eventCharges : ChargeTotals ℚ}
    (hsymbol : PyText.isBlank symbol = false) (hcharges : ∀ c, 0 ≤ eventCharges c)
    (hfills : FillsAtCost (ledger.positions.getD symbol 0) (ledger.averageCosts.getD symbol 0)
      quantity price realized average) :
    (ledger.filled symbol quantity price eventCharges realized average).Consistent := by
  refine ⟨h.initialCash_pos, ?_, ?_, ?_, ?_, ?_, ?_⟩
  · intro s
    simp only [filled, mem_keys_store, h.same_symbols]
  · intro s a ha
    simp only [filled, store] at ha
    split at ha
    · rw [OrderedDict.get?_erase] at ha
      split at ha
      · cases ha
      · exact h.average_pos s a ha
    · next hopen =>
      rw [OrderedDict.get?_set] at ha
      split at ha
      · cases ha
        exact hfills.average_pos (by simpa using hopen)
      · exact h.average_pos s a ha
  · have hidentity := h.reconciled
    have hbasis := hfills.basis
    have hsum : (ledger.filled symbol quantity price eventCharges realized average).charges.values.sum
        = ledger.charges.values.sum + eventCharges.values.sum := by
      simp only [filled, ChargeTotals.values, chargeCategories, List.map_cons, List.map_nil,
        List.sum_cons, List.sum_nil]
      ring
    unfold Reconciled at hidentity ⊢
    rw [sum_realized_filled hfills, hsum]
    rw [costBasis, sumOf_eq_erase_add _ (fun s => ledger.averageCosts.getD s 0) symbol] at hidentity
    simp only [costBasis, filled, sumOf_store_store] at hidentity ⊢
    linarith
  · exact fun c => add_nonneg (h.charges_nonneg c) (hcharges c)
  · intro s hs
    simp only [filled, mem_keys_store] at hs
    rcases hs with ⟨-, rfl⟩ | ⟨-, hs⟩
    · exact hsymbol
    · exact h.positions_nonblank s hs
  · intro s hs
    simp only [filled] at hs
    split at hs
    · rcases OrderedDict.mem_keys_set.mp hs with rfl | hs
      · exact hsymbol
      · exact h.realized_nonblank s hs
    · exact h.realized_nonblank s hs

/-- The position of one symbol after a fill of another or of itself. -/
theorem getD_positions_filled (symbol : String) (quantity price : ℚ)
    (eventCharges : ChargeTotals ℚ) (realized average : ℚ) (s : String) :
    (ledger.filled symbol quantity price eventCharges realized average).positions.getD s 0 =
      ledger.positions.getD s 0 + if s = symbol then quantity else 0 := by
  simp only [filled, store]
  by_cases hs : s = symbol
  · subst hs
    split
    · next hclosed =>
      rw [OrderedDict.getD_of_none (OrderedDict.get?_erase_self _ _), if_pos rfl]
      exact (of_decide_eq_true hclosed).symm
    · rw [OrderedDict.getD_of_some (OrderedDict.get?_set_self _ _ _), if_pos rfl]
  · rw [if_neg hs, add_zero]
    split
    · rw [OrderedDict.getD, OrderedDict.get?_erase_of_ne _ hs, ← OrderedDict.getD]
    · rw [OrderedDict.getD, OrderedDict.get?_set_of_ne _ _ hs, ← OrderedDict.getD]

theorem Consistent.average_pos_of_open (h : ledger.Consistent) (symbol : String)
    (hopen : ledger.positions.getD symbol 0 ≠ 0) : 0 < ledger.averageCosts.getD symbol 0 := by
  have hmem : symbol ∈ ledger.positions.keys := by
    by_contra hmem
    exact hopen (OrderedDict.getD_of_none (OrderedDict.get?_eq_none_iff.mpr hmem))
  obtain ⟨a, ha⟩ := OrderedDict.mem_keys_iff.mp ((h.same_symbols symbol).mp hmem)
  rw [OrderedDict.getD_of_some ha]
  exact h.average_pos symbol a ha

theorem chargesAfterFill_rat (charges eventCharges : ChargeTotals ℚ) :
    chargesAfterFill charges eventCharges = .ok fun c => charges c + eventCharges c := by
  simp only [chargesAfterFill, finiteSum_rat, ok_bind, pure_eq_ok, Except.ok.injEq]
  funext c
  cases c <;> simp

variable [PyRuntime]

/-! ## Charges and fills -/

theorem realizedAfterFill_rat (realized : OrderedDict String ℚ) (symbol : String)
    (closing : Bool) (delta : ℚ) :
    realizedAfterFill realized symbol closing delta =
      .ok (if closing then realized.set symbol (realized.getD symbol 0 + delta)
        else realized) := by
  cases closing <;> simp [realizedAfterFill]

/-- A ledger whose symbols are aligned passes the cost-basis check exactly when
its identity holds. -/
theorem assertCostBasisReconciled_eq_ok_iff
    (hsymbols : ∀ s, s ∈ ledger.positions.keys ↔ s ∈ ledger.averageCosts.keys) :
    assertCostBasisReconciled ledger = .ok () ↔ ledger.Reconciled := by
  have hkeys : sameKeys ledger.positions ledger.averageCosts = true := by
    simp only [sameKeys, Bool.and_eq_true, List.all_eq_true, List.contains_iff_mem]
    exact ⟨fun s hs => (hsymbols s).mp hs, fun s hs => (hsymbols s).mpr hs⟩
  have hbasis : (ledger.positions.sortedItems.mapM fun (symbol, quantity) => do
      finiteProduct quantity (← lookup ledger.averageCosts symbol)
        ("cost-basis value for " ++ PyRuntime.strRepr symbol)) =
      .ok (ledger.positions.sortedItems.map fun p =>
        p.2 * ledger.averageCosts.getD p.1 0) := by
    apply mapM_eq_ok_map
    rintro ⟨s, q⟩ hmem
    have hs : s ∈ ledger.positions.keys :=
      OrderedDict.mem_keys_iff.mpr ⟨q, OrderedDict.mem_sortedItems_iff.mp hmem⟩
    obtain ⟨a, ha⟩ := OrderedDict.mem_keys_iff.mp ((hsymbols s).mp hs)
    simp [lookup, ha, OrderedDict.getD_of_some ha]
  have hsum : (ledger.positions.sortedItems.map fun p =>
      p.2 * ledger.averageCosts.getD p.1 0).sum = ledger.costBasis :=
    ledger.positions.sum_sortedItems fun s q => q * ledger.averageCosts.getD s 0
  have hneg : (ledger.charges.values.map neg).sum = -ledger.charges.values.sum := by
    simp [ChargeTotals.values, chargeCategories]
    ring
  unfold assertCostBasisReconciled
  rw [refuseIf_of_not (by simpa using hkeys), ok_bind, hbasis, ok_bind]
  simp only [finiteSum_rat, ok_bind, assertClose_eq_ok_iff, List.sum_cons, List.sum_append,
    hsum, hneg, Reconciled]
  rw [← sub_eq_add_neg]

/-- A charge that is not refused keeps the ledger consistent. -/
theorem applyCharge_cases (h : ledger.Consistent) (category : String) (amount : ℚ) :
    (∃ m, ledger.applyCharge category amount = .error (.valueError m)) ∨
      ∃ charged, ledger.applyCharge category amount = .ok charged ∧ charged.Consistent ∧
        charged.initialCash = ledger.initialCash ∧ charged.positions = ledger.positions := by
  unfold applyCharge
  cases hcategory : validateChargeCategory category with
  | error e =>
      obtain ⟨m, rfl⟩ := validateChargeCategory_error hcategory
      exact .inl ⟨m, rfl⟩
  | ok validated =>
      simp only [ok_bind, finiteFloat_rat, finiteSum_rat, rat_lt, rat_zero]
      by_cases hamount : amount < 0
      · exact .inl ⟨_, by rw [refuseIf_of hamount, error_bind]⟩
      rw [refuseIf_of_not hamount, ok_bind]
      obtain ⟨charged, hcharged⟩ : ∃ charged : PortfolioLedger ℚ, charged = { ledger with
          cash := [ledger.cash, neg amount].sum
          charges := Function.update ledger.charges validated
            [ledger.charges validated, amount].sum } := ⟨_, rfl⟩
      have hconsistent : charged.Consistent := by
        subst hcharged
        refine { h with reconciled := ?_, charges_nonneg := ?_ }
        · have hidentity := h.reconciled
          simp only [Reconciled, costBasis, List.sum_cons, List.sum_nil, add_zero, rat_neg,
            sum_values_update] at hidentity ⊢
          linarith
        · intro c
          by_cases hc : c = validated
          · subst hc
            simpa using add_nonneg (h.charges_nonneg c) (not_lt.mp hamount)
          · simpa [hc] using h.charges_nonneg c
      refine .inr ⟨charged, ?_, hconsistent, by rw [hcharged], by rw [hcharged]⟩
      rw [← hcharged, (assertCostBasisReconciled_eq_ok_iff hconsistent.same_symbols).mpr
        hconsistent.reconciled]
      rfl

/-- A fill whose arguments are valid is applied, at the cost of some realized profit. -/
theorem applyFill_eq (h : ledger.Consistent) {symbol : String} (quantity : ℚ) {price commission : ℚ}
    {charges : Option (List (String × ℚ))} {categoryCharges : ChargeTotals ℚ}
    (hsymbol : PyText.isBlank symbol = false) (hprice : 0 < price) (hcommission : 0 ≤ commission)
    (hcharges : validateCharges charges = .ok categoryCharges)
    (hnonneg : ∀ c, 0 ≤ categoryCharges c) :
    ∃ realized average,
      ledger.applyFill symbol quantity price commission charges =
        .ok (ledger.filled symbol quantity price
          (Function.update categoryCharges .fees (categoryCharges .fees + commission))
          realized average) ∧
      (ledger.filled symbol quantity price
        (Function.update categoryCharges .fees (categoryCharges .fees + commission))
        realized average).Consistent := by
  obtain ⟨realized, average, htransition, hfills⟩ :=
    costBasisTransition_rat (d := quantity) (h.average_pos_of_open symbol) hprice
  obtain ⟨eventCharges, hevent⟩ : ∃ eventCharges : ChargeTotals ℚ, eventCharges =
      Function.update categoryCharges .fees (categoryCharges .fees + commission) := ⟨_, rfl⟩
  have heventNonneg : ∀ c, 0 ≤ eventCharges c := by
    intro c
    rw [hevent]
    cases c <;> simp [hnonneg, add_nonneg, hcommission]
  rw [← hevent]
  have hconsistent := consistent_filled h hsymbol heventNonneg hfills
  refine ⟨realized, average, ?_, hconsistent⟩
  rw [applyFill, validateSymbol, refuseIf_of_not (by simp [hsymbol]), ok_bind, finiteFloat_rat,
    ok_bind, (positivePrice_eq_ok_iff).mpr ⟨hprice, rfl⟩, ok_bind, finiteFloat_rat, ok_bind,
    refuseIf_of_not (by simpa using hcommission), ok_bind, hcharges, ok_bind]
  simp only [finiteSum_rat, finiteProduct_rat, cleanPositionResidue_rat, ok_bind, rat_zero,
    List.sum_cons, List.sum_nil, add_zero, htransition, ← hevent, realizedAfterFill_rat,
    chargesAfterFill_rat]
  have hbalanced : ledger.cash + (neg (quantity * price) + neg eventCharges.values.sum) +
      (ledger.positions.getD symbol 0 + quantity) * price =
      ledger.cash + ledger.positions.getD symbol 0 * price + neg eventCharges.values.sum := by
    simp only [rat_neg]
    ring
  rw [(assertClose_eq_ok_iff (u := ())).mpr hbalanced, ok_bind]
  have hreconciled := (assertCostBasisReconciled_eq_ok_iff hconsistent.same_symbols).mpr
    hconsistent.reconciled
  have hcash : ledger.cash + (neg (quantity * price) + neg eventCharges.values.sum) =
      ledger.cash - quantity * price - eventCharges.values.sum := by
    simp only [rat_neg]
    ring
  rw [hcash]
  exact (congrArg (· >>= _) hreconciled).trans rfl

/-- A fill raises `ValueError` or returns a consistent ledger in which its
symbol has moved by the signed quantity. -/
theorem applyFill_cases (h : ledger.Consistent) (symbol : String)
    (quantity price commission : ℚ) (charges : Option (List (String × ℚ))) :
    (∃ m, ledger.applyFill symbol quantity price commission charges = .error (.valueError m)) ∨
      ∃ filled, ledger.applyFill symbol quantity price commission charges = .ok filled ∧
        filled.Consistent ∧ filled.initialCash = ledger.initialCash ∧
        ∀ s, filled.positions.getD s 0 =
          ledger.positions.getD s 0 + if s = symbol then quantity else 0 := by
  by_cases hsymbol : PyText.isBlank symbol = true
  · exact .inl ⟨_, by rw [applyFill, validateSymbol, refuseIf_of hsymbol, error_bind]⟩
  have hnamed := hsymbol
  rw [Bool.not_eq_true] at hnamed
  by_cases hprice : price ≤ 0
  · exact .inl ⟨_, by rw [applyFill, validateSymbol, refuseIf_of_not hsymbol, ok_bind,
      finiteFloat_rat, ok_bind, positivePrice_of_nonpos hprice, error_bind]⟩
  have hprice' : 0 < price := not_le.mp hprice
  by_cases hcommission : commission < 0
  · exact .inl ⟨_, by rw [applyFill, validateSymbol, refuseIf_of_not hsymbol, ok_bind,
      finiteFloat_rat, ok_bind, (positivePrice_eq_ok_iff).mpr ⟨hprice', rfl⟩, ok_bind,
      finiteFloat_rat, ok_bind, refuseIf_of (by simpa using hcommission), error_bind]⟩
  rcases validateCharges_cases charges with ⟨m, hm⟩ | ⟨categoryCharges, hok, hnonneg⟩
  · refine .inl ⟨m, ?_⟩
    rw [applyFill, validateSymbol, refuseIf_of_not hsymbol, ok_bind, finiteFloat_rat, ok_bind,
      (positivePrice_eq_ok_iff).mpr ⟨hprice', rfl⟩, ok_bind, finiteFloat_rat, ok_bind,
      refuseIf_of_not (by simpa using hcommission), ok_bind, hm, error_bind]
  obtain ⟨realized, average, hfill, hconsistent⟩ :=
    applyFill_eq h _ hnamed hprice' (not_lt.mp hcommission) hok hnonneg
  exact .inr ⟨_, hfill, hconsistent, rfl, fun s => getD_positions_filled ..⟩

end PortfolioLedger

end SignalFoundry
