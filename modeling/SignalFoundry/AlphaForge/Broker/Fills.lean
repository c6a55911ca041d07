import Mathlib.Data.String.Basic
import SignalFoundry.AlphaForge.Broker.Contracts
import SignalFoundry.Library.KeyedTable
import SignalFoundry.Library.Platform

/-!
# Folding fills into a book

`applyFillsIdempotently` keeps one fill for each identity and folds what it kept
in the order of the identities, so the position book it returns is a function of
the set of fills that were delivered. It refuses the fills exactly when two of
them differ under one identity. Apart from that it leaves only through the
decimals: an operation that overflows, or an entry price that is rounded to
zero, which no position may have.
-/

namespace SignalFoundry.Broker

open Fallible

/-- A symbol's quantity and average entry price. -/
abbrev Book := OrderedDict String (ℚ × ℚ)

/-- The first loop of `apply_fills_idempotently`: one fill for each `fill_id`. -/
def uniqueFills [PyRuntime] (fills : List Fill) :
    Except BrokerError (OrderedDict String Fill) :=
  (KeyedTable.collect Fill.fillId .empty fills).mapError fun (_, fill) =>
    .reconciliation ("two different fills share fill_id " ++ PyRuntime.strRepr fill.fillId ++
      "; identity is what makes deduplication safe, and a reused id makes it unsafe")

/-- The positions a book opens with. -/
def openingBook (opening : List Position) : Book :=
  .ofItems (opening.map fun item => (item.symbol, (item.quantity, item.averageEntryPrice)))

/-- `fill.quantity if fill.side is OrderSide.BUY else -fill.quantity`. -/
def Fill.signedQuantity (context : DecimalContext) (fill : Fill) : Except DecimalSignal ℚ :=
  match fill.side with
  | .buy => .ok fill.quantity
  | .sell => context.neg fill.quantity

/-- The average entry price of a position after a fill that leaves it open. -/
def averageAfterFill (context : DecimalContext) (quantity average signed combined price : ℚ) :
    Except DecimalSignal ℚ :=
  if decide (quantity > 0) = decide (signed > 0) then do
    let held ← context.mul average (← context.abs quantity)
    let added ← context.mul price (← context.abs signed)
    let total ← context.add held added
    context.div total (← context.abs combined)
  else if decide (combined > 0) ≠ decide (quantity > 0) then return price
  else return average

/-- The second loop of `apply_fills_idempotently`, for one fill. A symbol whose
net quantity reaches zero is removed. -/
def applyFill (context : DecimalContext) (book : Book) (fill : Fill) :
    Except DecimalSignal Book := do
  let signed ← fill.signedQuantity context
  match book.get? fill.symbol with
  | none => return book.set fill.symbol (signed, fill.price)
  | some (quantity, average) => do
      let combined ← context.add quantity signed
      let size ← context.abs combined
      if size ≤ quantityEpsilon then return book.erase fill.symbol
      else do
        let average ← averageAfterFill context quantity average signed combined fill.price
        return book.set fill.symbol (combined, average)

/-- The position tuple of a book. -/
def positionsOf [PyRuntime] (book : Book) : Except BrokerError (List Position) :=
  book.sortedItems.mapM fun (symbol, (quantity, average)) =>
    Position.create symbol quantity average

/-- `apply_fills_idempotently`. -/
def applyFillsIdempotently [PyRuntime] (context : DecimalContext) (fills : List Fill)
    (opening : List Position) : Except BrokerError (List Position) := do
  let unique ← uniqueFills fills
  let book ← decimal ((KeyedTable.sorted Fill.fillId unique).foldlM (applyFill context)
    (openingBook opening))
  positionsOf book

/-- Two unequal fills share a `fill_id`. -/
def Conflicting (fills : List Fill) : Prop :=
  ∃ f ∈ fills, ∃ g ∈ fills, f.fillId = g.fillId ∧ f ≠ g

def RaisesReconciliation (result : Except BrokerError (List Position)) : Prop :=
  ∃ message, result = .error (.reconciliation message)

/-- The exceptions of decimals that leave their range: a signal of the context,
or the refusal of an entry price that was rounded to zero. -/
def OutOfRange (e : BrokerError) : Prop :=
  (∃ signal, e = .decimal signal) ∨ e = .contract "average_entry_price must be positive"

/-! ## Books of valid positions -/

/-- Every entry of a book names a symbol, at a price with a property. -/
def HeldAt (price : ℚ → Prop) (book : Book) : Prop :=
  ∀ s q a, book.get? s = some (q, a) → isSymbol s = true ∧ price a

section HeldAt

variable {price : ℚ → Prop} {book : Book}

theorem heldAt_empty : HeldAt price .empty := by
  intro s q a h
  simp at h

theorem HeldAt.set (h : HeldAt price book) {symbol : String} (hsymbol : isSymbol symbol = true)
    {quantity average : ℚ} (haverage : price average) :
    HeldAt price (book.set symbol (quantity, average)) := by
  intro s q a hget
  rw [OrderedDict.get?_set] at hget
  split at hget
  · next hs =>
    cases hget
    exact ⟨hs ▸ hsymbol, haverage⟩
  · exact h s q a hget

theorem HeldAt.erase (h : HeldAt price book) (symbol : String) :
    HeldAt price (book.erase symbol) := by
  intro s q a hget
  rw [OrderedDict.get?_erase] at hget
  split at hget
  · cases hget
  · exact h s q a hget

theorem heldAt_foldl_set (hprice : ∀ a, 0 < a → price a) (h : HeldAt price book)
    (opening : List Position) :
    HeldAt price ((opening.map fun item =>
      (item.symbol, (item.quantity, item.averageEntryPrice))).foldl
        (fun d p => d.set p.1 p.2) book) := by
  induction opening generalizing book with
  | nil => exact h
  | cons item rest ih =>
      exact ih (h.set item.symbol_valid (hprice _ item.averageEntryPrice_pos))

theorem heldAt_openingBook (hprice : ∀ a, 0 < a → price a) (opening : List Position) :
    HeldAt price (openingBook opening) :=
  heldAt_foldl_set hprice heldAt_empty opening

end HeldAt

theorem averageAfterFill_nonneg {context : DecimalContext}
    {quantity average signed combined price result : ℚ} (haverage : 0 ≤ average)
    (hprice : 0 ≤ price)
    (h : averageAfterFill context quantity average signed combined price = .ok result) :
    0 ≤ result := by
  unfold averageAfterFill at h
  split at h
  · simp only [bind_eq_ok_iff] at h
    obtain ⟨size, hsize, held, hheld, change, hchange, added, hadded, total, htotal, left, hleft,
      hdiv⟩ := h
    have hheld' := context.round_nonneg
      (mul_nonneg haverage (context.round_nonneg (abs_nonneg _) hsize)) hheld
    have hadded' := context.round_nonneg
      (mul_nonneg hprice (context.round_nonneg (abs_nonneg _) hchange)) hadded
    have htotal' := context.round_nonneg (add_nonneg hheld' hadded') htotal
    have hleft' := context.round_nonneg (abs_nonneg _) hleft
    unfold DecimalContext.div at hdiv
    split at hdiv
    · split at hdiv <;> cases hdiv
    · exact context.round_nonneg (div_nonneg htotal' hleft') hdiv
  · split at h
    · cases h
      exact hprice
    · cases h
      exact haverage

/-- What a fill leaves of a book: the other symbols as they were, and its own
symbol gone or at an average entry price. -/
theorem applyFill_cases {context : DecimalContext} {book filled : Book} {fill : Fill}
    (h : applyFill context book fill = .ok filled) :
    filled = book.erase fill.symbol ∨
      ∃ quantity average, filled = book.set fill.symbol (quantity, average) ∧
        (average = fill.price ∨ ∃ held entry signed, book.get? fill.symbol = some (held, entry) ∧
          averageAfterFill context held entry signed quantity fill.price = .ok average) := by
  unfold applyFill at h
  obtain ⟨signed, -, h⟩ := bind_eq_ok_iff.mp h
  split at h
  · cases h
    exact .inr ⟨signed, fill.price, rfl, .inl rfl⟩
  · next held entry hget =>
    obtain ⟨combined, -, h⟩ := bind_eq_ok_iff.mp h
    obtain ⟨size, -, h⟩ := bind_eq_ok_iff.mp h
    split at h
    · cases h
      exact .inl rfl
    · obtain ⟨average, haverage, h⟩ := bind_eq_ok_iff.mp h
      cases h
      exact .inr ⟨combined, average, rfl, .inr ⟨held, entry, signed, hget, haverage⟩⟩

theorem heldAt_applyFill {context : DecimalContext} {book filled : Book} {fill : Fill}
    (hbook : HeldAt (0 ≤ ·) book) (h : applyFill context book fill = .ok filled) :
    HeldAt (0 ≤ ·) filled := by
  rcases applyFill_cases h with rfl | ⟨quantity, average, rfl, hprice | ⟨held, entry, signed,
    hget, haverage⟩⟩
  · exact hbook.erase _
  · exact hbook.set fill.symbol_valid (hprice ▸ fill.price_pos.le)
  · exact hbook.set fill.symbol_valid
      (averageAfterFill_nonneg (hbook _ _ _ hget).2 fill.price_pos.le haverage)

theorem heldAt_foldlM {context : DecimalContext} {book filled : Book}
    (hbook : HeldAt (0 ≤ ·) book) {fills : List Fill}
    (h : fills.foldlM (applyFill context) book = .ok filled) : HeldAt (0 ≤ ·) filled := by
  induction fills generalizing book with
  | nil =>
      cases h
      exact hbook
  | cons fill rest ih =>
      obtain ⟨next, hnext, hrest⟩ := bind_eq_ok_iff.mp ((List.foldlM_cons ..).symm.trans h)
      exact ih (heldAt_applyFill hbook hnext) hrest

/-! ## Exact decimals -/

theorem averageAfterFill_exact (quantity : ℚ) {average signed combined price : ℚ}
    (haverage : 0 < average) (hprice : 0 < price) (hsigned : signed ≠ 0)
    (hcombined : combined ≠ 0) :
    ∃ result, averageAfterFill .exact quantity average signed combined price = .ok result ∧
      0 < result := by
  unfold averageAfterFill
  split
  · have htotal : 0 < average * |quantity| + price * |signed| :=
      add_pos_of_nonneg_of_pos (mul_nonneg haverage.le (abs_nonneg _))
        (mul_pos hprice (abs_pos.mpr hsigned))
    refine ⟨(average * |quantity| + price * |signed|) / |combined|, ?_,
      div_pos htotal (abs_pos.mpr hcombined)⟩
    simp [DecimalContext.mul, DecimalContext.abs, DecimalContext.add, DecimalContext.div,
      hcombined]
  · split
    · exact ⟨price, rfl, hprice⟩
    · exact ⟨average, rfl, haverage⟩

theorem Fill.signedQuantity_exact (fill : Fill) :
    ∃ signed, fill.signedQuantity .exact = .ok signed ∧ signed ≠ 0 := by
  have hpos : 0 < fill.quantity := lt_trans (by norm_num [quantityEpsilon]) fill.quantity_gt
  unfold signedQuantity
  cases fill.side with
  | buy => exact ⟨fill.quantity, rfl, hpos.ne'⟩
  | sell => exact ⟨-fill.quantity, rfl, neg_ne_zero.mpr hpos.ne'⟩

/-- Without rounding every fill is applied, and what stays open has a positive price. -/
theorem applyFill_exact {book : Book} (hbook : HeldAt (0 < ·) book) (fill : Fill) :
    ∃ filled, applyFill .exact book fill = .ok filled ∧ HeldAt (0 < ·) filled := by
  obtain ⟨signed, hsigned, hne⟩ := fill.signedQuantity_exact
  unfold applyFill
  rw [hsigned, ok_bind]
  cases hget : book.get? fill.symbol with
  | none => exact ⟨_, rfl, hbook.set fill.symbol_valid fill.price_pos⟩
  | some entry =>
      obtain ⟨quantity, average⟩ := entry
      simp only [DecimalContext.add, DecimalContext.abs, DecimalContext.exact_round, ok_bind]
      by_cases hflat : |quantity + signed| ≤ quantityEpsilon
      · rw [if_pos hflat]
        exact ⟨_, rfl, hbook.erase _⟩
      · rw [if_neg hflat]
        have hcombined : quantity + signed ≠ 0 := by
          intro hzero
          rw [hzero, abs_zero] at hflat
          exact hflat (by norm_num [quantityEpsilon])
        obtain ⟨result, hresult, hpos⟩ := averageAfterFill_exact quantity
          (hbook _ _ _ hget).2 fill.price_pos hne hcombined
        rw [hresult, ok_bind]
        exact ⟨_, rfl, hbook.set fill.symbol_valid hpos⟩

theorem foldlM_applyFill_exact {book : Book} (hbook : HeldAt (0 < ·) book) (fills : List Fill) :
    ∃ filled, fills.foldlM (applyFill .exact) book = .ok filled ∧ HeldAt (0 < ·) filled := by
  induction fills generalizing book with
  | nil => exact ⟨book, rfl, hbook⟩
  | cons fill rest ih =>
      obtain ⟨next, hnext, hheld⟩ := applyFill_exact hbook fill
      obtain ⟨filled, hfilled, hrest⟩ := ih hheld
      exact ⟨filled, by rw [List.foldlM_cons, hnext, ok_bind, hfilled], hrest⟩

section Positions

variable [PyRuntime]

theorem positionsOf_eq_ok {book : Book} (hbook : HeldAt (0 < ·) book) :
    ∃ positions, positionsOf book = .ok positions := by
  cases h : positionsOf book with
  | ok positions => exact ⟨positions, rfl⟩
  | error e =>
      refine absurd h ?_
      have hnone : Raises (fun _ : BrokerError => False) (positionsOf book) := by
        refine Raises.mapM fun p hp e he => ?_
        obtain ⟨symbol, quantity, average⟩ := p
        obtain ⟨hsymbol, hpos⟩ := hbook symbol quantity average
          (OrderedDict.mem_sortedItems_iff.mp hp)
        change Position.create symbol quantity average = .error e at he
        rw [Position.create_eq_ok hsymbol hpos] at he
        cases he
      exact fun he => hnone e he

/-- A book is refused only for an entry price that was rounded to zero. -/
theorem outOfRange_of_positionsOf {book : Book} (hbook : HeldAt (0 ≤ ·) book) {e : BrokerError}
    (h : positionsOf book = .error e) : OutOfRange e := by
  have hraises : Raises OutOfRange (positionsOf book) := by
    refine Raises.mapM fun p hp e he => ?_
    obtain ⟨symbol, quantity, average⟩ := p
    obtain ⟨hsymbol, haverage⟩ := hbook symbol quantity average
      (OrderedDict.mem_sortedItems_iff.mp hp)
    change Position.create symbol quantity average = .error e at he
    rcases (show 0 ≤ average from haverage).lt_or_eq with hpos | hzero
    · rw [Position.create_eq_ok hsymbol hpos] at he
      cases he
    · rw [← hzero, Position.create_zero hsymbol] at he
      cases he
      exact .inr rfl
  exact hraises e h

/-! ## Deliveries -/

omit [PyRuntime] in
theorem conflicting_iff {fills : List Fill} :
    Conflicting fills ↔ ¬ KeyedTable.Coherent Fill.fillId
      (KeyedTable.contents (.empty : OrderedDict String Fill) ∪ {f | f ∈ fills}) := by
  rw [KeyedTable.contents_empty, Set.empty_union]
  constructor
  · rintro ⟨f, hf, g, hg, hid, hne⟩ hcoherent
    exact hne (hcoherent f hf g hg hid)
  · intro hincoherent
    by_contra hnone
    refine hincoherent fun f hf g hg hid => ?_
    by_contra hne
    exact hnone ⟨f, hf, g, hg, hid, hne⟩

/-- The fills of a delivery are kept exactly when none of them conflict, and then
they are on file under their identities. -/
theorem uniqueFills_cases (fills : List Fill) :
    (¬ Conflicting fills ∧ ∃ unique, uniqueFills fills = .ok unique ∧
      KeyedTable.Filed Fill.fillId unique ∧ KeyedTable.contents unique = {f | f ∈ fills}) ∨
    (Conflicting fills ∧ ∃ message, uniqueFills fills = .error (.reconciliation message)) := by
  rw [conflicting_iff, not_not]
  rcases KeyedTable.collect_cases (KeyedTable.filed_empty Fill.fillId) fills with
    ⟨hcoherent, unique, hunique, hfiled, hcontents⟩ | ⟨hincoherent, clash, hclash⟩
  · refine .inl ⟨hcoherent, unique, ?_, hfiled, ?_⟩
    · rw [uniqueFills, hunique]
      rfl
    · rw [hcontents, KeyedTable.contents_empty, Set.empty_union]
  · refine .inr ⟨hincoherent, ?_⟩
    rw [uniqueFills, hclash]
    exact ⟨_, rfl⟩

/-- Fills that do not conflict leave the fold only through their decimals. -/
theorem outOfRange_of_applyFills {context : DecimalContext} {fills : List Fill}
    {opening : List Position} (hfills : ¬ Conflicting fills) {e : BrokerError}
    (h : applyFillsIdempotently context fills opening = .error e) : OutOfRange e := by
  rcases uniqueFills_cases fills with ⟨-, unique, hunique, -⟩ | ⟨hconflict, -⟩
  · rw [applyFillsIdempotently, hunique, ok_bind] at h
    rcases bind_eq_error_iff.mp h with hfold | ⟨book, hbook, hpositions⟩
    · obtain ⟨signal, -, rfl⟩ := mapError_eq_error_iff.mp hfold
      exact .inl ⟨signal, rfl⟩
    · exact outOfRange_of_positionsOf
        (heldAt_foldlM (heldAt_openingBook (fun _ => le_of_lt) opening)
          (mapError_eq_ok_iff.mp hbook)) hpositions
  · exact absurd hconflict hfills

/-- Without rounding, fills that do not conflict fold into a position tuple. -/
theorem applyFillsIdempotently_exact {fills : List Fill} (h : ¬ Conflicting fills)
    (opening : List Position) :
    ∃ positions, applyFillsIdempotently .exact fills opening = .ok positions := by
  rcases uniqueFills_cases fills with ⟨-, unique, hunique, -⟩ | ⟨hconflict, -⟩
  · obtain ⟨book, hbook, hheld⟩ := foldlM_applyFill_exact
      (heldAt_openingBook (fun _ => id) opening) (KeyedTable.sorted Fill.fillId unique)
    obtain ⟨positions, hpositions⟩ := positionsOf_eq_ok hheld
    refine ⟨positions, ?_⟩
    rw [applyFillsIdempotently, hunique, ok_bind, hbook]
    exact hpositions
  · exact absurd hconflict h

omit [PyRuntime] in
theorem conflicting_congr {fills₁ fills₂ : List Fill} (h : ∀ f, f ∈ fills₁ ↔ f ∈ fills₂) :
    Conflicting fills₁ ↔ Conflicting fills₂ := by
  simp only [Conflicting, h]

/-- Deliveries of the same fills, in any order and with any repetitions, are both
refused because two of the fills conflict, or have one result. That result is a
position tuple unless decimals leave their range, which exact ones never do. -/
theorem applyFillsIdempotently_sameFills (context : DecimalContext) (opening : List Position)
    {fills₁ fills₂ : List Fill} (h : ∀ f, f ∈ fills₁ ↔ f ∈ fills₂) :
    (Conflicting fills₁ ∧ Conflicting fills₂ ∧
      RaisesReconciliation (applyFillsIdempotently context fills₁ opening) ∧
      RaisesReconciliation (applyFillsIdempotently context fills₂ opening)) ∨
    (¬ Conflicting fills₁ ∧ ¬ Conflicting fills₂ ∧
      applyFillsIdempotently context fills₁ opening =
        applyFillsIdempotently context fills₂ opening ∧
      (∀ e, applyFillsIdempotently context fills₁ opening = .error e → OutOfRange e) ∧
      ∃ positions, applyFillsIdempotently .exact fills₁ opening = .ok positions) := by
  have hconflict := conflicting_congr h
  rcases uniqueFills_cases fills₁ with ⟨hnone, unique₁, hunique₁, hfiled₁, hcontents₁⟩ |
    ⟨hsome, message₁, hmessage₁⟩
  · rcases uniqueFills_cases fills₂ with ⟨hnone₂, unique₂, hunique₂, hfiled₂, hcontents₂⟩ |
      ⟨hsome₂, -⟩
    · refine .inr ⟨hnone, hnone₂, ?_, fun e he => outOfRange_of_applyFills hnone he,
        applyFillsIdempotently_exact hnone opening⟩
      have hsame : KeyedTable.contents unique₁ = KeyedTable.contents unique₂ := by
        rw [hcontents₁, hcontents₂]
        ext f
        exact h f
      rw [applyFillsIdempotently, applyFillsIdempotently, hunique₁, hunique₂, ok_bind, ok_bind,
        KeyedTable.sorted_eq_of_contents hfiled₁ hfiled₂ hsame]
    · exact absurd (hconflict.mpr hsome₂) hnone
  · rcases uniqueFills_cases fills₂ with ⟨hnone₂, -⟩ | ⟨hsome₂, message₂, hmessage₂⟩
    · exact absurd (hconflict.mp hsome) hnone₂
    · refine .inl ⟨hsome, hsome₂, ⟨message₁, ?_⟩, message₂, ?_⟩
      · rw [applyFillsIdempotently, hmessage₁, error_bind]
      · rw [applyFillsIdempotently, hmessage₂, error_bind]

end Positions

theorem isSymbol_aapl : isSymbol "AAPL" = true := by decide

theorem hundred_pos : (0 : ℚ) < 100 := by norm_num

/-- An execution of one order, at one hundred a share. -/
def Fill.ofQuantity (side : OrderSide) (quantity : ℚ) (h : quantityEpsilon < quantity) : Fill where
  clientOrderId := "af-order-1"
  symbol := "AAPL"
  side := side
  quantity := quantity
  price := 100
  filledAt := 0
  fillId := "f1"
  clientOrderId_valid := by decide
  symbol_valid := isSymbol_aapl
  quantity_gt := h
  price_pos := hundred_pos
  fillId_nonblank := by decide

theorem quantityEpsilon_lt_five : quantityEpsilon < 5 := by norm_num [quantityEpsilon]

open Platform in
/-- A fill that is delivered twice, against the same fill delivered once. -/
theorem applyFillsIdempotently_sameFills_redelivered :
    let fill := Fill.ofQuantity .buy 5 quantityEpsilon_lt_five
    (Conflicting [fill, fill] ∧ Conflicting [fill] ∧
      RaisesReconciliation (applyFillsIdempotently .standard [fill, fill] []) ∧
      RaisesReconciliation (applyFillsIdempotently .standard [fill] [])) ∨
    (¬ Conflicting [fill, fill] ∧ ¬ Conflicting [fill] ∧
      applyFillsIdempotently .standard [fill, fill] [] =
        applyFillsIdempotently .standard [fill] [] ∧
      (∀ e, applyFillsIdempotently .standard [fill, fill] [] = .error e → OutOfRange e) ∧
      ∃ positions, applyFillsIdempotently .exact [fill, fill] [] = .ok positions) :=
  applyFillsIdempotently_sameFills .standard [] fun f => by simp

/-- A quantity whose leading digit is beyond the largest exponent of the standard context. -/
def beyondRange : ℚ := 10 ^ (999999 + 1 : ℤ)

theorem quantityEpsilon_lt_beyondRange : quantityEpsilon < beyondRange := by
  have hone : (1 : ℚ) ≤ beyondRange := one_le_zpow₀ (by norm_num) (by norm_num)
  exact lt_of_lt_of_le (by norm_num [quantityEpsilon]) hone

open Platform in
/-- A sale of a quantity that the context cannot negate: the fold raises the
overflow, although no two fills share an identity. -/
theorem applyFillsIdempotently_overflow :
    ¬ ∀ (opening : List Position) (fills₁ fills₂ : List Fill), (∀ f, f ∈ fills₁ ↔ f ∈ fills₂) →
      RaisesReconciliation (applyFillsIdempotently .standard fills₁ opening) ∧
          RaisesReconciliation (applyFillsIdempotently .standard fills₂ opening) ∨
        ∃ positions, applyFillsIdempotently .standard fills₁ opening = .ok positions ∧
          applyFillsIdempotently .standard fills₂ opening = .ok positions := by
  intro hall
  obtain ⟨sale, hsale⟩ : ∃ sale, sale = Fill.ofQuantity .sell _ quantityEpsilon_lt_beyondRange :=
    ⟨_, rfl⟩
  have hsigned : sale.signedQuantity .standard = .error .overflow := by
    subst hsale
    exact DecimalContext.roundTo_overflow_of_le_neg (by norm_num) (by norm_num) le_rfl
  have hunique : uniqueFills [sale] = .ok (OrderedDict.empty.set sale.fillId sale) := rfl
  have hsorted : KeyedTable.sorted Fill.fillId (OrderedDict.empty.set sale.fillId sale) =
      [sale] := rfl
  have hraised : applyFillsIdempotently .standard [sale] [] = .error (.decimal .overflow) := by
    rw [applyFillsIdempotently, hunique, ok_bind, hsorted, List.foldlM_cons, applyFill, hsigned]
    rfl
  rcases hall [] [sale] [sale] fun _ => Iff.rfl with ⟨⟨message, hmessage⟩, -⟩ | ⟨positions, hok, -⟩
  · rw [hraised] at hmessage
    cases hmessage
  · rw [hraised] at hok
    cases hok

end SignalFoundry.Broker
