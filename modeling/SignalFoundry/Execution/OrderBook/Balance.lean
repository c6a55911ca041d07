import SignalFoundry.Execution.OrderBook.Sound

/-!
# Where the quantity of an order goes

A trade takes from the order it fills what it gives to the incoming order.
`Activity` records what happened since the book was last cleared: the limit
orders submitted, the fills handed out and the quantities cancelled. For every
order that was submitted, what was filled, what still rests and what was
cancelled make up its quantity (`Balanced`), and every call keeps that.
-/

namespace LimitBook

open PriceTime

/-- The quantity of the fills in which an order took part. -/
def filledQty (id : ℤ) (fills : List Fill) : ℤ :=
  (fills.map fun fill => if fill.makerId = id ∨ fill.takerId = id then fill.qty else 0).sum

theorem filledQty_append (id : ℤ) (fills fills' : List Fill) :
    filledQty id (fills ++ fills') = filledQty id fills + filledQty id fills' := by
  simp [filledQty]

theorem filledQty_taker (takerId : ℤ) (trades : List (ℤ × ℤ × ℤ)) :
    filledQty takerId (trades.map (Book.fillOf takerId)) = volume trades := by
  simp [filledQty, volume, Book.fillOf, Function.comp_def]

theorem filledQty_maker {id takerId : ℤ} (h : id ≠ takerId) (trades : List (ℤ × ℤ × ℤ)) :
    filledQty id (trades.map (Book.fillOf takerId)) = filled id trades := by
  simp [filledQty, filled, Book.fillOf, Function.comp_def, h.symm]

namespace Book

variable {b : Book} {id : ℤ}

/-- The quantity of an order that rests. -/
def resting (b : Book) (id : ℤ) : ℤ :=
  PriceTime.resting id (b.levels .buy) + PriceTime.resting id (b.levels .sell)

theorem resting_withLevels (b : Book) (id : ℤ) (side : Side) (levels : Levels ℤ ℤ) :
    (b.withLevels side levels).resting id + PriceTime.resting id (b.levels side) =
      b.resting id + PriceTime.resting id levels := by
  unfold resting
  cases side with
  | buy =>
      rw [levels_withLevels, levels_withLevels_of_ne b (by decide)]
      omega
  | sell =>
      rw [levels_withLevels, levels_withLevels_of_ne b (by decide)]
      omega

theorem resting_eq_zero (h : id ∉ b.ids) : b.resting id = 0 := by
  have hbuy : id ∉ PriceTime.ids (b.levels .buy) := fun hmem => h (List.mem_append_left _ hmem)
  have hsell : id ∉ PriceTime.ids (b.levels .sell) := fun hmem => h (List.mem_append_right _ hmem)
  rw [resting, resting_of_not_mem hbuy, resting_of_not_mem hsell, add_zero]

theorem Before.not_mem {nextId : ℤ} (h : b.Before nextId) (hid : nextId ≤ id) : id ∉ b.ids :=
  fun hmem => absurd (h id hmem) (not_lt.mpr hid)

section Trade

variable {side : Side} {crossed : ℤ → Prop} [DecidablePred crossed] {takerId wanted : ℤ}

/-- What an order loses in the book is what it is filled for. -/
theorem resting_trade :
    (b.trade side crossed takerId wanted).2.resting id +
        filled id (sweep crossed wanted (b.levels side)).trades = b.resting id := by
  have hlevels := b.resting_withLevels id side (sweep crossed wanted (b.levels side)).levels
  have hsweep : filled id (sweep crossed wanted (b.levels side)).trades +
      PriceTime.resting id (sweep crossed wanted (b.levels side)).levels =
        PriceTime.resting id (b.levels side) := resting_sweep id wanted (b.levels side)
  have hresting : (b.trade side crossed takerId wanted).2.resting id =
      (b.withLevels side (sweep crossed wanted (b.levels side)).levels).resting id := rfl
  omega

/-- An order that is not the incoming one gets in fills what it loses in the book. -/
theorem balance_trade (h : id ≠ takerId) :
    filledQty id (b.trade side crossed takerId wanted).2.fills +
        (b.trade side crossed takerId wanted).2.resting id =
      filledQty id b.fills + b.resting id := by
  have hlost : (b.trade side crossed takerId wanted).2.resting id +
      filled id (sweep crossed wanted (b.levels side)).trades = b.resting id := resting_trade
  have hfills : (b.trade side crossed takerId wanted).2.fills =
      b.fills ++ (sweep crossed wanted (b.levels side)).trades.map (fillOf takerId) := rfl
  rw [hfills, filledQty_append, filledQty_maker h]
  omega

/-- The incoming order gets in fills what is not left of it. -/
theorem filled_trade :
    filledQty takerId (b.trade side crossed takerId wanted).2.fills +
        (b.trade side crossed takerId wanted).1 =
      filledQty takerId b.fills + wanted := by
  have hvolume : PriceTime.volume (sweep crossed wanted (b.levels side)).trades +
      (sweep crossed wanted (b.levels side)).left = wanted := volume_sweep wanted (b.levels side)
  have hfills : (b.trade side crossed takerId wanted).2.fills =
      b.fills ++ (sweep crossed wanted (b.levels side)).trades.map (fillOf takerId) := rfl
  have hleft : (b.trade side crossed takerId wanted).1 =
      (sweep crossed wanted (b.levels side)).left := rfl
  rw [hfills, filledQty_append, filledQty_taker, hleft]
  omega

theorem left_trade_nonneg (h : 0 ≤ wanted) : 0 ≤ (b.trade side crossed takerId wanted).1 :=
  left_sweep_nonneg (b.levels side) h

end Trade

theorem fills_restOrder {side : Side} {price new left : ℤ} :
    (b.restOrder side price new left).fills = b.fills := by
  unfold restOrder
  split <;> rfl

theorem resting_restOrder {side : Side} {price new left : ℤ} (hleft : 0 ≤ left) :
    (b.restOrder side price new left).resting id =
      b.resting id + if new = id then left else 0 := by
  unfold restOrder
  split
  · have hlevels := b.resting_withLevels id side
      (rest side.Better price (new, left) (b.levels side))
    rw [resting_rest] at hlevels
    simp only at hlevels
    omega
  · have hzero : left = 0 := by omega
    simp [hzero]

/-- A new limit order: what is filled of it and what rests is its quantity. -/
theorem balance_addLimit_self (hb : b.Before id) (side : Side) (price qty : ℤ) :
    filledQty id (b.addLimit id side price qty).fills +
        (b.addLimit id side price qty).resting id =
      filledQty id b.fills + max qty 0 := by
  by_cases hqty : 0 < qty
  · simp only [addLimit, if_pos hqty, fills_restOrder]
    have htraded : (b.trade side.opposite (side.Crosses price) id qty).2.resting id = 0 :=
      resting_eq_zero ((hb.trade).not_mem le_rfl)
    rw [resting_restOrder (left_trade_nonneg hqty.le), htraded, if_pos rfl, zero_add,
      filled_trade, max_eq_left hqty.le]
  · simp only [addLimit, if_neg hqty]
    rw [resting_eq_zero (hb.not_mem le_rfl), max_eq_right (not_lt.mp hqty)]

theorem balance_addLimit_of_ne {new : ℤ} (h : id ≠ new) (side : Side) (price qty : ℤ) :
    filledQty id (b.addLimit new side price qty).fills +
        (b.addLimit new side price qty).resting id =
      filledQty id b.fills + b.resting id := by
  by_cases hqty : 0 < qty
  · simp only [addLimit, if_pos hqty, fills_restOrder]
    rw [resting_restOrder (left_trade_nonneg hqty.le), if_neg h.symm, add_zero,
      balance_trade h]
  · simp only [addLimit, if_neg hqty]

theorem balance_addMarket_of_ne {new : ℤ} (h : id ≠ new) (side : Side) (qty : ℤ) :
    filledQty id (b.addMarket new side qty).2.fills + (b.addMarket new side qty).2.resting id =
      filledQty id b.fills + b.resting id := by
  by_cases hqty : 0 < qty
  · simp only [addMarket, if_pos hqty]
    exact balance_trade h
  · simp only [addMarket, if_neg hqty]

theorem fills_cancel (orderId : ℤ) : (b.cancel orderId).fills = b.fills := by
  unfold cancel
  split <;> rfl

theorem resting_cancel_of_ne {orderId : ℤ} (h : id ≠ orderId) :
    (b.cancel orderId).resting id = b.resting id := by
  unfold cancel
  split
  · next side price hplace =>
      have hlevels := b.resting_withLevels id side
        (remove price orderId (b.levels side))
      rw [resting_remove_of_ne h] at hlevels
      unfold withdraw
      omega
  · rfl

theorem ids_withdraw_perm {side : Side} {price orderId : ℤ}
    (h : orderId ∈ (queueAt price (b.levels side)).map Prod.fst) :
    b.ids.Perm (orderId :: (b.withdraw side price orderId).ids) := by
  have hperm := ids_remove_perm h
  cases side with
  | buy =>
      unfold ids withdraw
      rw [levels_withLevels, levels_withLevels_of_ne b (by decide)]
      exact hperm.append_right _
  | sell =>
      unfold ids withdraw
      rw [levels_withLevels, levels_withLevels_of_ne b (by decide)]
      exact (hperm.append_left _).trans List.perm_middle

/-- Nothing rests of an order that was cancelled. -/
theorem not_mem_ids_cancel (hb : b.Sound) (orderId : ℤ) : orderId ∉ (b.cancel orderId).ids := by
  unfold cancel
  split
  · next side price hplace =>
      obtain ⟨queue, hqueue, hmem⟩ := (locate_eq_some_iff hb).mp hplace
      have hat : queueAt price (b.levels side) = queue := by
        rw [queueAt, hqueue]
        rfl
      have hperm := ids_withdraw_perm (hat.symm ▸ hmem)
      exact (List.nodup_cons.mp (hperm.nodup_iff.mp hb.nodup)).1
  · next hplace =>
      intro hmem
      obtain ⟨side, hside⟩ := mem_ids_iff.mp hmem
      obtain ⟨price, hrests⟩ := (mem_ids_levels_iff hb).mp hside
      rw [(locate_eq_some_iff hb).mpr hrests] at hplace
      cases hplace

theorem resting_cancel (hb : b.Sound) (orderId : ℤ) : (b.cancel orderId).resting orderId = 0 :=
  resting_eq_zero (not_mem_ids_cancel hb orderId)

end Book

/-! ## What happened since the last clear -/

structure Activity where
  /-- The id and the quantity of each limit order. -/
  submitted : List (ℤ × ℤ) := []
  /-- The fills that were handed out. -/
  taken : List Fill := []
  /-- The id of each order that was cancelled and what rested of it. -/
  cancelled : List (ℤ × ℤ) := []

namespace Activity

/-- What a call adds, from what it answers; `rested` is what rested of the order
of a `cancel` before it. -/
def record (a : Activity) (rested : ℤ) : Call → Answer → Activity
  | .addLimit _ _ qty, .int orderId => { a with submitted := a.submitted ++ [(orderId, qty)] }
  | .cancel orderId, .bool true => { a with cancelled := a.cancelled ++ [(orderId, rested)] }
  | .takeFills, .fills fills => { a with taken := a.taken ++ fills }
  | .clear, _ => {}
  | _, _ => a

/-- The activity accounts for every quantity of the book. -/
structure Balanced (a : Activity) (b : Book) (nextId : ℤ) : Prop where
  balance : ∀ order ∈ a.submitted, max order.2 0 =
    filledQty order.1 (a.taken ++ b.fills) + b.resting order.1 + amount order.1 a.cancelled
  known : ∀ order ∈ a.submitted, order.1 < nextId
  /-- An id that was not given out is in no fill and no cancellation. -/
  unused : ∀ id, nextId ≤ id →
    filledQty id (a.taken ++ b.fills) = 0 ∧ amount id a.cancelled = 0

namespace Balanced

variable {a : Activity} {b : Book} {nextId : ℤ}

theorem empty (nextId : ℤ) : ({} : Activity).Balanced .empty nextId where
  balance := nofun
  known := nofun
  unused := fun _ _ => ⟨rfl, rfl⟩

/-- Ids that were given out stay given out. -/
theorem mono (h : a.Balanced b nextId) {later : ℤ} (hlater : nextId ≤ later) :
    a.Balanced b later where
  balance := h.balance
  known := fun order horder => lt_of_lt_of_le (h.known order horder) hlater
  unused := fun id hid => h.unused id (hlater.trans hid)

/-- A change of the book that moves quantities of known orders from the book to
the fills. -/
theorem of_trades (h : a.Balanced b nextId) (hbefore : b.Before nextId) {b' : Book}
    (hafter : ∀ id, nextId < id → id ∉ b'.ids)
    (hmoved : ∀ id, id ≠ nextId → filledQty id b'.fills + b'.resting id =
      filledQty id b.fills + b.resting id) : a.Balanced b' (nextId + 1) where
  balance := by
    intro order horder
    have hold := h.balance order horder
    have hnew := hmoved order.1 (ne_of_lt (h.known order horder))
    rw [filledQty_append] at hold ⊢
    omega
  known := fun order horder => lt_trans (h.known order horder) (Int.lt_succ nextId)
  unused := by
    intro id hid
    have hlater : nextId < id := by omega
    obtain ⟨hfilled, hcancelled⟩ := h.unused id hlater.le
    have hmove := hmoved id hlater.ne'
    rw [Book.resting_eq_zero (hafter id hlater), Book.resting_eq_zero
      (hbefore.not_mem hlater.le)] at hmove
    rw [filledQty_append] at hfilled ⊢
    exact ⟨by omega, hcancelled⟩

theorem addLimit (h : a.Balanced b nextId) (hbefore : b.Before nextId) (side : Side)
    (price qty : ℤ) :
    ({ a with submitted := a.submitted ++ [(nextId, qty)] } : Activity).Balanced
      (b.addLimit nextId side price qty) (nextId + 1) := by
  have hafter := hbefore.next (.addLimit side price qty)
  have hold := h.of_trades hbefore
    (fun id hid => hafter.not_mem (show nextId + 1 ≤ id by omega))
    (fun id hne => Book.balance_addLimit_of_ne hne side price qty)
  obtain ⟨hfilled, hcancelled⟩ := h.unused nextId le_rfl
  refine ⟨fun order horder => ?_, fun order horder => ?_, hold.unused⟩
  · rcases List.mem_append.mp horder with hmem | hmem
    · exact hold.balance order hmem
    · obtain rfl := List.mem_singleton.mp hmem
      have hself := Book.balance_addLimit_self hbefore side price qty
      simp only [filledQty_append] at hfilled ⊢
      omega
  · rcases List.mem_append.mp horder with hmem | hmem
    · exact hold.known order hmem
    · obtain rfl := List.mem_singleton.mp hmem
      exact Int.lt_succ nextId

theorem addMarket (h : a.Balanced b nextId) (hbefore : b.Before nextId) (side : Side)
    (qty : ℤ) : a.Balanced (b.addMarket nextId side qty).2 (nextId + 1) := by
  have hafter := hbefore.next (.addMarket side qty)
  exact h.of_trades hbefore (fun id hid => hafter.not_mem (show nextId + 1 ≤ id by omega))
    (fun id hne => Book.balance_addMarket_of_ne hne side qty)

theorem cancel (h : a.Balanced b nextId) (hsound : b.Sound) (hbefore : b.Before nextId)
    {orderId : ℤ} (hplace : (b.locate orderId).isSome) :
    ({ a with cancelled := a.cancelled ++ [(orderId, b.resting orderId)] } : Activity).Balanced
      (b.cancel orderId) nextId := by
  have hmem : orderId ∈ b.ids := by
    obtain ⟨⟨side, price⟩, hat⟩ := Option.isSome_iff_exists.mp hplace
    exact Book.mem_ids_iff.mpr ⟨side, (Book.mem_ids_levels_iff hsound).mpr
      ⟨price, (Book.locate_eq_some_iff hsound).mp hat⟩⟩
  have hamount : ∀ id, amount id (a.cancelled ++ [(orderId, b.resting orderId)]) =
      amount id a.cancelled + if orderId = id then b.resting orderId else 0 := by
    intro id
    simp [amount]
  refine ⟨fun order horder => ?_, h.known, fun id hid => ?_⟩
  · have hold := h.balance order horder
    simp only [Book.fills_cancel, hamount]
    by_cases heq : order.1 = orderId
    · rw [heq] at hold ⊢
      rw [Book.resting_cancel hsound, if_pos rfl]
      omega
    · rw [Book.resting_cancel_of_ne heq, if_neg (Ne.symm heq)]
      omega
  · obtain ⟨hfilled, hcancelled⟩ := h.unused id hid
    have hne : orderId ≠ id := (lt_of_lt_of_le (hbefore orderId hmem) hid).ne
    simp only [Book.fills_cancel, hamount, if_neg hne, hcancelled, add_zero]
    exact ⟨hfilled, trivial⟩

theorem takeFills (h : a.Balanced b nextId) :
    ({ a with taken := a.taken ++ b.fills } : Activity).Balanced { b with fills := [] } nextId where
  balance := by
    intro order horder
    rw [List.append_nil]
    exact h.balance order horder
  known := h.known
  unused := by
    intro id hid
    rw [List.append_nil]
    exact h.unused id hid

end Balanced

end Activity

end LimitBook
