import Mathlib.Algebra.Order.BigOperators.Group.List
import SignalFoundry.AlphaForge.Capacity.Budgets

/-!
# Conservation of capacity

A ledger is sound when the movements of each symbol add up, what is reserved is
what its reservations still hold, and both budgets are kept. Every mutation keeps
a ledger sound, so the check at its end passes.
-/

namespace Capacity

open Fallible

def SymbolLedger.Balanced (ledger : SymbolLedger) : Prop :=
  ledger.reserved + ledger.consumed + ledger.released + ledger.rejected = ledger.requested

@[simp] theorem isClose_self (a absTol : ℚ) : isClose a a absTol = true := by
  simp [isClose]

namespace SessionCapacityLedger

/-- What the reservations of a symbol still hold. -/
def outstanding (l : SessionCapacityLedger) (symbol : Identifier) : ℚ :=
  l.reservations.sumOf fun _ r => if r.symbol = symbol then r.quantity.val else 0

/-- What a reservation holds of the shares, zero if there is none. -/
def quantityAt (l : SessionCapacityLedger) (id : Identifier) : ℚ :=
  l.reservations.termAt (fun _ r => r.quantity.val) id

/-- What a reservation holds of the book, zero if there is none. -/
def notionalAt (l : SessionCapacityLedger) (id : Identifier) : ℚ :=
  l.reservations.termAt (fun _ r => r.notional.val) id

structure Sound (l : SessionCapacityLedger) : Prop where
  balanced : ∀ symbol, (l.ledgerOf symbol).Balanced
  reserved_eq : ∀ symbol, (l.ledgerOf symbol).reserved = l.outstanding symbol
  within : ∀ symbol,
    (l.ledgerOf symbol).reserved + (l.ledgerOf symbol).consumed ≤ l.participationLimit symbol
  opened : ∀ id r, l.reservations.get? id = some r → r.symbol ∈ l.symbols.keys
  settled_zero : ∀ id ∈ l.settled, ∃ r, l.reservations.get? id = some r ∧ r.quantity.val = 0
  bookReserved_eq : l.bookReserved = l.reservations.sumOf fun _ r => r.notional.val
  bookConsumed_nonneg : 0 ≤ l.bookConsumed
  book_le : l.bookReserved + l.bookConsumed ≤ l.bookNotionalBudget.val

variable {l l' : SessionCapacityLedger} {id symbol : Identifier} {ledger : SymbolLedger}
  {r : Reservation}

theorem participationLimit_nonneg (l : SessionCapacityLedger) (symbol : Identifier) :
    0 ≤ l.participationLimit symbol := by
  unfold participationLimit
  cases l.participationLimits.get? symbol with
  | none => exact le_rfl
  | some limit => exact limit.property.1

theorem Sound.bookReserved_nonneg (h : l.Sound) : 0 ≤ l.bookReserved := by
  rw [h.bookReserved_eq]
  exact List.sum_nonneg fun x hx => by
    obtain ⟨p, -, rfl⟩ := List.mem_map.mp hx
    exact p.2.notional.property.1

/-- A ledger with nothing reserved. -/
structure Fresh (l : SessionCapacityLedger) : Prop where
  symbols_eq : l.symbols = .empty
  reservations_eq : l.reservations = .empty
  settled_eq : l.settled = ∅
  bookReserved_eq : l.bookReserved = 0
  bookConsumed_eq : l.bookConsumed = 0

theorem fresh_of_make {session : PyDate} {limits : OrderedDict String ℚ} {budget : ℚ}
    (h : make session limits budget = .ok l) : l.Fresh := by
  simp only [make, bind_eq_ok_iff, pure_eq_ok, Except.ok.injEq] at h
  obtain ⟨-, -, cleaned, -, budget, -, rfl⟩ := h
  exact ⟨rfl, rfl, rfl, rfl, rfl⟩

theorem Fresh.sound (h : l.Fresh) : l.Sound where
  balanced symbol := by simp [ledgerOf, h.symbols_eq, SymbolLedger.Balanced]
  reserved_eq symbol := by simp [ledgerOf, h.symbols_eq, outstanding, h.reservations_eq]
  within symbol := by
    have hnonneg := l.participationLimit_nonneg symbol
    simpa [ledgerOf, h.symbols_eq] using hnonneg
  opened id r hr := by simp [h.reservations_eq] at hr
  settled_zero id hid := by simp [h.settled_eq] at hid
  bookReserved_eq := by simp [h.bookReserved_eq, h.reservations_eq]
  bookConsumed_nonneg := h.bookConsumed_eq.ge
  book_le := by
    rw [h.bookReserved_eq, h.bookConsumed_eq, add_zero]
    exact l.bookNotionalBudget.property.1

/-- The one way in which mutations move capacity: a symbol's ledger, a reservation
of the symbol and the book change by the same amounts. -/
structure Moves (l l' : SessionCapacityLedger) (symbol id : Identifier) (ledger : SymbolLedger)
    (r : Reservation) : Prop where
  limits_eq : l'.participationLimits = l.participationLimits
  budget_eq : l'.bookNotionalBudget = l.bookNotionalBudget
  symbols_eq : ∀ other, l'.symbols.get? other =
    if other = symbol then some ledger else l.symbols.get? other
  reservations_eq : l'.reservations = l.reservations.set id r
  symbol_eq : r.symbol = symbol
  symbol_old : ∀ old, l.reservations.get? id = some old → old.symbol = symbol
  settled_of_ne : ∀ other ∈ l'.settled, other ≠ id → other ∈ l.settled
  settled_zero : id ∈ l'.settled → r.quantity.val = 0
  balanced : ledger.Balanced
  reserved_eq : ledger.reserved = (l.ledgerOf symbol).reserved + (r.quantity.val - l.quantityAt id)
  within : ledger.reserved + ledger.consumed ≤ l.participationLimit symbol
  bookReserved_eq : l'.bookReserved = l.bookReserved + (r.notional.val - l.notionalAt id)
  bookConsumed_nonneg : 0 ≤ l'.bookConsumed
  book_le : l'.bookReserved + l'.bookConsumed ≤ l.bookNotionalBudget.val

theorem Moves.ledgerOf_eq (m : Moves l l' symbol id ledger r) (other : Identifier) :
    l'.ledgerOf other = if other = symbol then ledger else l.ledgerOf other := by
  unfold ledgerOf OrderedDict.getD
  rw [m.symbols_eq]
  split <;> rfl

theorem Moves.outstanding_eq (m : Moves l l' symbol id ledger r) (other : Identifier) :
    l'.outstanding other =
      l.outstanding other + if other = symbol then r.quantity.val - l.quantityAt id else 0 := by
  unfold outstanding quantityAt
  rw [m.reservations_eq, OrderedDict.sumOf_set_eq_add_sub, m.symbol_eq]
  unfold OrderedDict.termAt
  cases hold : l.reservations.get? id with
  | none => simp [eq_comm]
  | some old =>
      simp only [Option.elim_some, m.symbol_old old hold]
      by_cases h : symbol = other
      · simp [h]
      · simp [h, Ne.symm h]

theorem Sound.moves (h : l.Sound) (m : Moves l l' symbol id ledger r) : l'.Sound where
  balanced other := by
    rw [m.ledgerOf_eq]
    split
    · exact m.balanced
    · exact h.balanced other
  reserved_eq other := by
    rw [m.ledgerOf_eq, m.outstanding_eq, ← h.reserved_eq]
    split
    · next heq => rw [m.reserved_eq, heq]
    · rw [add_zero]
  within other := by
    rw [m.ledgerOf_eq, participationLimit, m.limits_eq]
    split
    · next heq =>
        rw [heq]
        exact m.within
    · exact h.within other
  opened other r' hr' := by
    rw [OrderedDict.mem_keys_iff, m.symbols_eq]
    rw [m.reservations_eq, OrderedDict.get?_set] at hr'
    split at hr'
    · cases hr'
      exact ⟨ledger, if_pos m.symbol_eq⟩
    · split
      · exact ⟨ledger, rfl⟩
      · exact OrderedDict.mem_keys_iff.mp (h.opened other r' hr')
  settled_zero other hother := by
    rw [m.reservations_eq]
    by_cases heq : other = id
    · subst heq
      exact ⟨r, OrderedDict.get?_set_self _ _ _, m.settled_zero hother⟩
    · rw [OrderedDict.get?_set_of_ne _ _ heq]
      exact h.settled_zero other (m.settled_of_ne other hother heq)
  bookReserved_eq := by
    rw [m.bookReserved_eq, m.reservations_eq, OrderedDict.sumOf_set_eq_add_sub, h.bookReserved_eq]
    rfl
  bookConsumed_nonneg := m.bookConsumed_nonneg
  book_le := by
    rw [m.budget_eq]
    exact m.book_le

/-! ## The check -/

theorem Sound.assertConserved (h : l.Sound) (hsymbol : symbol ∈ l.symbols.keys) :
    l.assertConserved symbol = .ok () := by
  obtain ⟨ledger, hledger⟩ := OrderedDict.mem_keys_iff.mp hsymbol
  have hbalanced := h.balanced symbol
  rw [ledgerOf, OrderedDict.getD_of_some hledger] at hbalanced
  have hbook : ¬ l.bookNotionalBudget.val + conservationTolerance < l.bookConsumed := by
    have hle := h.book_le
    have hnonneg := h.bookReserved_nonneg
    unfold conservationTolerance
    linarith
  unfold SessionCapacityLedger.assertConserved
  rw [hledger]
  simp only [show _ = ledger.requested from hbalanced, isClose_self]
  simp [refuseIf_of_not hbook]

/-! ## Grants -/

/-- What remains of a symbol's participation fits its limit. -/
theorem add_le_participationLimit {x : ℚ}
    (hwithin : (l.ledgerOf symbol).reserved + (l.ledgerOf symbol).consumed ≤
      l.participationLimit symbol) (hx : x ≤ l.remainingParticipation symbol) :
    (l.ledgerOf symbol).reserved + (l.ledgerOf symbol).consumed + x ≤
      l.participationLimit symbol := by
  unfold remainingParticipation at hx
  unfold participationLimit ledgerOf OrderedDict.getD at *
  cases hlimit : l.participationLimits.get? symbol with
  | none =>
      rw [hlimit] at hx hwithin
      simp only [Option.elim_none] at hx hwithin ⊢
      linarith
  | some limit =>
      rw [hlimit] at hx hwithin
      cases hledger : l.symbols.get? symbol <;> rw [hledger] at hx hwithin <;>
        simp only [Option.elim_none, Option.elim_some, Option.getD_none, Option.getD_some]
          at hx hwithin ⊢ <;>
        rw [max_eq_left (by linarith)] at hx <;> linarith

theorem add_le_bookNotionalBudget {x : ℚ}
    (hle : l.bookReserved + l.bookConsumed ≤ l.bookNotionalBudget.val)
    (hx : x ≤ l.remainingBookNotional) :
    l.bookReserved + x + l.bookConsumed ≤ l.bookNotionalBudget.val := by
  unfold remainingBookNotional at hx
  rw [max_eq_left (by linarith)] at hx
  linarith

theorem remainingParticipation_nonneg (l : SessionCapacityLedger) (symbol : Identifier) :
    0 ≤ l.remainingParticipation symbol := by
  unfold remainingParticipation
  split
  · exact le_rfl
  · exact le_max_right _ _

theorem remainingBookNotional_nonneg (l : SessionCapacityLedger) : 0 ≤ l.remainingBookNotional :=
  le_max_right _ _

section Allowance

variable {quantity notional : ℚ}

theorem allowance_nonneg (l : SessionCapacityLedger) (symbol : Identifier)
    (quantity notional : ℚ) : 0 ≤ l.allowance symbol quantity notional :=
  le_max_right _ _

/-- The first clip of a grant. -/
theorem allowance_le_min (l : SessionCapacityLedger) (symbol : Identifier) (notional : ℚ)
    (hquantity : 0 ≤ quantity) : l.allowance symbol quantity notional ≤
      min quantity (l.remainingParticipation symbol) := by
  refine max_le ?_ (le_min hquantity (l.remainingParticipation_nonneg symbol))
  split
  · exact min_le_left _ _
  · exact le_rfl

/-- The notional of a grant fits the book. -/
theorem grantedNotional_le_remaining (l : SessionCapacityLedger) (symbol : Identifier)
    (hnotional : 0 ≤ notional) :
    grantedNotional quantity notional (l.allowance symbol quantity notional) ≤
      l.remainingBookNotional := by
  have hremaining := l.remainingBookNotional_nonneg
  unfold grantedNotional
  split
  · next hquantity =>
      rcases hnotional.eq_or_lt with hzero | hpositive
      · rw [← hzero, zero_div, zero_mul]
        exact hremaining
      · have hunit : 0 < notional / quantity := div_pos hpositive hquantity
        have hallowed : l.allowance symbol quantity notional ≤
            l.remainingBookNotional / (notional / quantity) := by
          refine max_le ?_ (div_nonneg hremaining hunit.le)
          simp only [if_pos (And.intro hquantity hpositive), if_neg hunit.ne']
          exact min_le_right _ _
        rwa [le_div_iff₀ hunit, mul_comm] at hallowed
  · exact hremaining

theorem grantedNotional_nonneg {allowed : ℚ} (hnotional : 0 ≤ notional) (hallowed : 0 ≤ allowed) :
    0 ≤ grantedNotional quantity notional allowed := by
  unfold grantedNotional
  split
  · next hquantity => exact mul_nonneg (div_nonneg hnotional hquantity.le) hallowed
  · exact le_rfl

theorem grantedNotional_le {allowed : ℚ} (hnotional : 0 ≤ notional) (hallowed : allowed ≤ quantity) :
    grantedNotional quantity notional allowed ≤ notional := by
  unfold grantedNotional
  split
  · next hquantity =>
      calc notional / quantity * allowed ≤ notional / quantity * quantity :=
            mul_le_mul_of_nonneg_left hallowed (div_nonneg hnotional hquantity.le)
        _ = notional := div_mul_cancel₀ notional hquantity.ne'
  · exact hnotional

end Allowance

/-! ## Mutations -/

theorem reservation_make {session : PyDate} {quantity notional : ℚ}
    (hquantity : 0 ≤ quantity ∧ quantity ≤ maxQuantity)
    (hnotional : 0 ≤ notional ∧ notional ≤ maxQuantity) :
    Reservation.make id symbol session quantity notional =
      .ok ⟨id, symbol, session, ⟨quantity, hquantity⟩, ⟨notional, hnotional⟩⟩ := by
  rw [Reservation.make, finiteQuantity_of hquantity, finiteQuantity_of hnotional]
  rfl

/-- A mutation that moves capacity stores its reservation. -/
theorem Sound.record (h : l.Sound) (charged : SessionCapacityLedger)
    (m : Moves l { charged with reservations := charged.reservations.set id r } symbol id ledger r) :
    charged.record id (.ok r) =
      (.ok r, { charged with reservations := charged.reservations.set id r }) := by
  have hsound := h.moves m
  have hsymbol := hsound.opened id r (OrderedDict.get?_set_self _ _ _)
  unfold SessionCapacityLedger.record
  simp only [hsound.assertConserved hsymbol, ok_bind, pure_eq_ok]

@[simp] theorem get?_symbols_withLedger (l : SessionCapacityLedger) (symbol other : Identifier)
    (ledger : SymbolLedger) : (l.withLedger symbol ledger).symbols.get? other =
      if other = symbol then some ledger else l.symbols.get? other :=
  OrderedDict.get?_set _ _ _ _

@[simp] theorem ledgerOf_withLedger (l : SessionCapacityLedger) (symbol : Identifier)
    (ledger : SymbolLedger) : (l.withLedger symbol ledger).ledgerOf symbol = ledger := by
  simp [ledgerOf, OrderedDict.getD]

theorem quantityAt_of_none (hnew : l.reservations.get? id = none) : l.quantityAt id = 0 := by
  simp [quantityAt, OrderedDict.termAt, hnew]

theorem notionalAt_of_none (hnew : l.reservations.get? id = none) : l.notionalAt id = 0 := by
  simp [notionalAt, OrderedDict.termAt, hnew]

theorem quantityAt_of_some (hr : l.reservations.get? id = some r) :
    l.quantityAt id = r.quantity.val := by
  simp [quantityAt, OrderedDict.termAt, hr]

theorem notionalAt_of_some (hr : l.reservations.get? id = some r) :
    l.notionalAt id = r.notional.val := by
  simp [notionalAt, OrderedDict.termAt, hr]

@[simp] theorem ledgerOf_request (l : SessionCapacityLedger) (symbol : Identifier) (quantity : ℚ) :
    (l.request symbol quantity).ledgerOf symbol =
      { l.ledgerOf symbol with requested := (l.ledgerOf symbol).requested + quantity } :=
  ledgerOf_withLedger _ _ _

theorem Sound.moves_grant (h : l.Sound) (hnew : l.reservations.get? id = none) (quantity : ℚ)
    (hlimit : (l.ledgerOf r.symbol).reserved + (l.ledgerOf r.symbol).consumed + r.quantity.val ≤
      l.participationLimit r.symbol)
    (hbook : l.bookReserved + r.notional.val + l.bookConsumed ≤ l.bookNotionalBudget.val) :
    Moves l
      { (l.request r.symbol quantity).grant r.symbol quantity r.quantity.val r.notional.val with
        reservations := l.reservations.set id r }
      r.symbol id
      { l.ledgerOf r.symbol with
        requested := (l.ledgerOf r.symbol).requested + quantity
        reserved := (l.ledgerOf r.symbol).reserved + r.quantity.val
        rejected := (l.ledgerOf r.symbol).rejected + (quantity - r.quantity.val) } r where
  limits_eq := rfl
  budget_eq := rfl
  symbols_eq other := by
    simp only [grant, get?_symbols_withLedger, ledgerOf_request]
    split
    · rfl
    · next hne => rw [request, get?_symbols_withLedger, if_neg hne]
  reservations_eq := rfl
  symbol_eq := rfl
  symbol_old old hold := by simp [hnew] at hold
  settled_of_ne _ hother _ := hother
  settled_zero hsettled := by
    obtain ⟨old, hold, -⟩ := h.settled_zero id hsettled
    simp [hnew] at hold
  balanced := by
    have hbalanced := h.balanced r.symbol
    unfold SymbolLedger.Balanced at hbalanced ⊢
    linarith
  reserved_eq := by rw [quantityAt_of_none hnew, sub_zero]
  within := by linarith
  bookReserved_eq := by
    rw [notionalAt_of_none hnew, sub_zero]
    rfl
  bookConsumed_nonneg := h.bookConsumed_nonneg
  book_le := hbook

/-- A reservation under a new identifier moves the granted shares. -/
theorem Sound.claim (h : l.Sound) (hnew : l.reservations.get? id = none) (symbol : Identifier)
    (quantity notional : Quantity maxQuantity) :
    ∃ r l' ledger, l.claim id symbol quantity notional = (.ok r, l') ∧
      Moves l l' symbol id ledger r ∧ l'.settled = l.settled ∧
        r.quantity.val ≤ quantity.val := by
  have hwithin : ((l.request symbol quantity.val).ledgerOf symbol).reserved +
      ((l.request symbol quantity.val).ledgerOf symbol).consumed ≤
        (l.request symbol quantity.val).participationLimit symbol := by
    rw [ledgerOf_request]
    exact h.within symbol
  -- the clips of the grant are taken with the request recorded
  have hallowed := (l.request symbol quantity.val).allowance_nonneg symbol quantity.val notional.val
  have hmin := (l.request symbol quantity.val).allowance_le_min symbol notional.val
    quantity.property.1
  have hremaining := @grantedNotional_le_remaining quantity.val notional.val
    (l.request symbol quantity.val) symbol notional.property.1
  unfold SessionCapacityLedger.claim
  rw [hnew]
  dsimp only
  generalize (l.request symbol quantity.val).allowance symbol quantity.val notional.val = allowed
    at *
  have hle := hmin.trans (min_le_left _ _)
  have hfits := add_le_participationLimit hwithin (hmin.trans (min_le_right _ _))
  have hbudget := add_le_bookNotionalBudget (l := l.request symbol quantity.val) h.book_le hremaining
  have hquantity : 0 ≤ allowed ∧ allowed ≤ maxQuantity :=
    ⟨hallowed, hle.trans quantity.property.2⟩
  have hnotional : 0 ≤ grantedNotional quantity.val notional.val allowed ∧
      grantedNotional quantity.val notional.val allowed ≤ maxQuantity :=
    ⟨grantedNotional_nonneg notional.property.1 hallowed,
      (grantedNotional_le notional.property.1 hle).trans notional.property.2⟩
  rw [ledgerOf_request] at hfits
  rw [reservation_make hquantity hnotional]
  have hmoves := h.moves_grant (r := ⟨id, symbol, l.session, ⟨allowed, hquantity⟩, ⟨_, hnotional⟩⟩)
    hnew quantity.val hfits hbudget
  exact ⟨_, _, _, h.record _ hmoves, hmoves, rfl, hle⟩

theorem Sound.ledgerOf_eq (h : l.Sound) (hr : l.reservations.get? id = some r) :
    l.symbols.get? r.symbol = some (l.ledgerOf r.symbol) := by
  obtain ⟨ledger, hledger⟩ := OrderedDict.mem_keys_iff.mp (h.opened id r hr)
  rw [ledgerOf, OrderedDict.getD_of_some hledger, hledger]

/-- What the notional of a fill is. -/
theorem unit_mul_eq (quantity notional applied : ℚ) :
    (if 0 < quantity then notional / quantity else 0) * applied =
      grantedNotional quantity notional applied := by
  unfold grantedNotional
  split
  · rfl
  · rw [zero_mul]

/-- A fill within its reservation moves shares and notional to consumed. -/
theorem Sound.fill (h : l.Sound) (hr : l.reservations.get? id = some r)
    {quantity : Quantity maxQuantity} (hle : quantity.val ≤ r.quantity.val) :
    ∃ r' l' ledger, l.fill id r quantity = (.ok quantity.val, l') ∧
      Moves l l' r.symbol id ledger r' ∧ l'.settled = l.settled ∧
        r'.quantity.val = r.quantity.val - quantity.val := by
  have hnonneg := @grantedNotional_nonneg r.quantity.val _ _ r.notional.property.1
    quantity.property.1
  have hnotional := grantedNotional_le r.notional.property.1 hle
  unfold SessionCapacityLedger.fill
  rw [h.ledgerOf_eq hr]
  dsimp only
  rw [min_eq_left hle, unit_mul_eq]
  generalize grantedNotional r.quantity.val r.notional.val quantity.val = notional at *
  have hquantity_range : 0 ≤ r.quantity.val - quantity.val ∧
      r.quantity.val - quantity.val ≤ maxQuantity :=
    ⟨sub_nonneg.mpr hle, by linarith [quantity.property.1, r.quantity.property.2]⟩
  have hnotional_range : 0 ≤ r.notional.val - notional ∧ r.notional.val - notional ≤ maxQuantity :=
    ⟨sub_nonneg.mpr hnotional, by linarith [r.notional.property.2]⟩
  rw [reservation_make hquantity_range hnotional_range]
  generalize hbuilt : (⟨r.reservationId, r.symbol, r.session, ⟨_, hquantity_range⟩,
    ⟨_, hnotional_range⟩⟩ : Reservation) = r'
  have hquantity : r'.quantity.val = r.quantity.val - quantity.val := by rw [← hbuilt]
  have hmoves : Moves l { l.draw r.symbol (l.ledgerOf r.symbol) quantity.val notional with
      reservations := l.reservations.set id r' } r.symbol id
      { l.ledgerOf r.symbol with
        reserved := (l.ledgerOf r.symbol).reserved - quantity.val
        consumed := (l.ledgerOf r.symbol).consumed + quantity.val } r' :=
    { limits_eq := rfl
      budget_eq := rfl
      symbols_eq := fun other => get?_symbols_withLedger _ _ _ _
      reservations_eq := rfl
      symbol_eq := by rw [← hbuilt]
      symbol_old := fun old hold => by
        rw [Option.some.inj (hr.symm.trans hold)]
      settled_of_ne := fun _ hother _ => hother
      settled_zero := fun hsettled => by
        obtain ⟨old, hold, hzero⟩ := h.settled_zero id hsettled
        rw [← Option.some.inj (hr.symm.trans hold)] at hzero
        linarith [hquantity_range.1, quantity.property.1]
      balanced := by
        have hbalanced := h.balanced r.symbol
        unfold SymbolLedger.Balanced at hbalanced ⊢
        linarith
      reserved_eq := by
        rw [quantityAt_of_some hr, hquantity]
        ring
      within := by
        have hwithin := h.within r.symbol
        linarith
      bookReserved_eq := by
        rw [notionalAt_of_some hr, ← hbuilt]
        simp only [draw]
        ring
      bookConsumed_nonneg := add_nonneg h.bookConsumed_nonneg hnonneg
      book_le := by
        have hle := h.book_le
        simp only [draw]
        linarith }
  have hrecord := h.record (l.draw r.symbol (l.ledgerOf r.symbol) quantity.val notional)
    hmoves
  rw [hrecord]
  exact ⟨r', _, _, rfl, hmoves, rfl, hquantity⟩

/-- A release gives back what is left of its reservation. -/
theorem Sound.settle (h : l.Sound) (hr : l.reservations.get? id = some r) :
    ∃ r' l' ledger, l.settle id r = (.ok r.quantity.val, l') ∧
      Moves l l' r.symbol id ledger r' ∧ l'.settled = insert id l.settled ∧
        r'.quantity.val = 0 := by
  have hzero : (0 : ℚ) ≤ 0 ∧ (0 : ℚ) ≤ maxQuantity := ⟨le_rfl, by norm_num [maxQuantity]⟩
  unfold SessionCapacityLedger.settle
  rw [h.ledgerOf_eq hr]
  dsimp only
  rw [reservation_make hzero hzero]
  generalize hbuilt : (⟨r.reservationId, r.symbol, r.session, ⟨0, hzero⟩, ⟨0, hzero⟩⟩ :
    Reservation) = r'
  have hquantity : r'.quantity.val = 0 := by rw [← hbuilt]
  have hmoves : Moves l { l.giveBack id r.symbol (l.ledgerOf r.symbol) r.quantity.val
        r.notional.val with reservations := l.reservations.set id r' } r.symbol id
      { l.ledgerOf r.symbol with
        reserved := (l.ledgerOf r.symbol).reserved - r.quantity.val
        released := (l.ledgerOf r.symbol).released + r.quantity.val } r' :=
    { limits_eq := rfl
      budget_eq := rfl
      symbols_eq := fun other => get?_symbols_withLedger _ _ _ _
      reservations_eq := rfl
      symbol_eq := by rw [← hbuilt]
      symbol_old := fun old hold => by
        rw [Option.some.inj (hr.symm.trans hold)]
      settled_of_ne := fun other hother hne => Finset.mem_of_mem_insert_of_ne hother hne
      settled_zero := fun _ => hquantity
      balanced := by
        have hbalanced := h.balanced r.symbol
        unfold SymbolLedger.Balanced at hbalanced ⊢
        linarith
      reserved_eq := by
        rw [quantityAt_of_some hr, hquantity]
        ring
      within := by
        have hwithin := h.within r.symbol
        have hnonneg := r.quantity.property.1
        linarith
      bookReserved_eq := by
        rw [notionalAt_of_some hr, ← hbuilt]
        simp only [giveBack]
        ring
      bookConsumed_nonneg := h.bookConsumed_nonneg
      book_le := by
        have hle := h.book_le
        have hnonneg := r.notional.property.1
        simp only [giveBack, withLedger]
        linarith }
  have hrecord := h.record (l.giveBack id r.symbol (l.ledgerOf r.symbol) r.quantity.val
    r.notional.val) hmoves
  rw [hrecord]
  exact ⟨r', _, _, rfl, hmoves, rfl, hquantity⟩

end SessionCapacityLedger

end Capacity
