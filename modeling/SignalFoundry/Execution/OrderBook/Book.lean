import Mathlib.Logic.Function.Basic
import SignalFoundry.Library.PriceTime.Update

/-!
# What an order book does

The calls that both order books of the repository answer, and the book itself:
two sides of price levels and the fills not yet handed out. An incoming order
trades against the opposite side as far as its price reaches and a limit order
rests with what is left. The operations take the id of the new order, since the
two implementations count their orders separately.
-/

namespace LimitBook

open PriceTime

inductive Side where
  | buy
  | sell
  deriving DecidableEq, Repr

namespace Side

def opposite : Side → Side
  | buy => sell
  | sell => buy

@[simp] theorem opposite_opposite (side : Side) : side.opposite.opposite = side := by
  cases side <;> rfl

theorem opposite_ne (side : Side) : side.opposite ≠ side := by
  cases side <;> nofun

theorem eq_opposite_of_ne {side other : Side} (h : other ≠ side) : other = side.opposite := by
  cases side <;> cases other <;> simp_all [opposite]

/-- The better of two resting prices: the higher bid, the lower ask. -/
def Better : Side → ℤ → ℤ → Prop
  | buy => (· > ·)
  | sell => (· < ·)

instance (side : Side) : DecidableRel side.Better :=
  match side with
  | buy => fun price other => inferInstanceAs (Decidable (price > other))
  | sell => fun price other => inferInstanceAs (Decidable (price < other))

instance (side : Side) : IsStrictTotalOrder ℤ side.Better := by
  cases side
  · exact inferInstanceAs (IsStrictTotalOrder ℤ (· > ·))
  · exact inferInstanceAs (IsStrictTotalOrder ℤ (· < ·))

/-- An order of this side and price trades with a resting order at `best`. -/
def Crosses (side : Side) (price best : ℤ) : Prop :=
  match side with
  | buy => best ≤ price
  | sell => price ≤ best

instance (side : Side) (price : ℤ) : DecidablePred (side.Crosses price) :=
  match side with
  | buy => fun best => inferInstanceAs (Decidable (best ≤ price))
  | sell => fun best => inferInstanceAs (Decidable (price ≤ best))

theorem crosses_opposite {side : Side} {price best : ℤ} :
    side.opposite.Crosses price best ↔ side.Crosses best price := by
  cases side <;> rfl

/-- An order that reaches one price of the opposite side reaches all better ones. -/
theorem Crosses.of_better {side : Side} {price best best' : ℤ}
    (hbetter : side.opposite.Better best best') (h : side.Crosses price best') :
    side.Crosses price best := by
  cases side with
  | buy => exact le_trans (le_of_lt hbetter) h
  | sell => exact le_trans h (le_of_lt hbetter)

end Side

structure Fill where
  makerId : ℤ
  takerId : ℤ
  price : ℤ
  qty : ℤ
  deriving DecidableEq, Repr

/-- The calls of either order book; their arguments are Python integers. -/
inductive Call where
  | addLimit (side : Side) (price qty : ℤ)
  | addMarket (side : Side) (qty : ℤ)
  | cancel (orderId : ℤ)
  | bestBid
  | bestAsk
  | bidDepth (levels : ℤ)
  | askDepth (levels : ℤ)
  | bidVolume
  | askVolume
  | openOrders
  | takeFills
  | clear
  deriving DecidableEq, Repr

namespace Call

/-- A depth call does not ask for fewer than zero levels. -/
def Nonnegative : Call → Prop
  | .bidDepth levels => 0 ≤ levels
  | .askDepth levels => 0 ≤ levels
  | _ => True

/-- The call is one of the two that take an order id. -/
def IsOrder : Call → Bool
  | .addLimit _ _ _ => true
  | .addMarket _ _ => true
  | _ => false

end Call

/-- What a call returns. `lengthError` is the exception of a vector that is asked
to reserve more than it can hold. -/
inductive Answer where
  | int (value : ℤ)
  | bool (value : Bool)
  | price (best : Option ℤ)
  | depth (levels : List (ℤ × ℤ))
  | fills (fills : List Fill)
  | none
  | lengthError
  deriving DecidableEq, Repr

/-- The ways a call could fail to return: a missing dictionary key, a loop that
does not come to its end, an operation that C++ leaves undefined. -/
inductive Fault where
  | keyError
  | loops
  | undefined
  deriving DecidableEq, Repr

/-! ## The book -/

structure Book where
  levels : Side → Levels ℤ ℤ
  fills : List Fill

namespace Book

def empty : Book := ⟨fun _ => [], []⟩

/-- The book with other levels on one side. -/
def withLevels (b : Book) (side : Side) (levels : Levels ℤ ℤ) : Book :=
  { b with levels := Function.update b.levels side levels }

@[simp] theorem levels_withLevels (b : Book) (side : Side) (levels : Levels ℤ ℤ) :
    (b.withLevels side levels).levels side = levels := Function.update_self ..

theorem levels_withLevels_of_ne (b : Book) {side other : Side} (h : other ≠ side)
    (levels : Levels ℤ ℤ) : (b.withLevels side levels).levels other = b.levels other :=
  Function.update_of_ne h ..

@[simp] theorem fills_withLevels (b : Book) (side : Side) (levels : Levels ℤ ℤ) :
    (b.withLevels side levels).fills = b.fills := rfl

/-- The fill of one trade of a walk. -/
def fillOf (takerId : ℤ) (trade : ℤ × ℤ × ℤ) : Fill :=
  ⟨trade.1, takerId, trade.2.1, trade.2.2⟩

/-- Trade a quantity against one side of the book. -/
def trade (b : Book) (side : Side) (crossed : ℤ → Prop) [DecidablePred crossed]
    (takerId wanted : ℤ) : ℤ × Book :=
  let swept := sweep crossed wanted (b.levels side)
  (swept.left,
    { b.withLevels side swept.levels with
      fills := b.fills ++ swept.trades.map (fillOf takerId) })

/-- An order that did not trade out rests. -/
def restOrder (b : Book) (side : Side) (price id left : ℤ) : Book :=
  if 0 < left then
    b.withLevels side (rest side.Better price (id, left) (b.levels side))
  else b

def addLimit (b : Book) (id : ℤ) (side : Side) (price qty : ℤ) : Book :=
  if 0 < qty then
    let (left, traded) := b.trade side.opposite (side.Crosses price) id qty
    traded.restOrder side price id left
  else b

def addMarket (b : Book) (id : ℤ) (side : Side) (qty : ℤ) : ℤ × Book :=
  if 0 < qty then
    let (left, traded) := b.trade side.opposite (fun _ => True) id qty
    (qty - left, traded)
  else (0, b)

/-- The side and the price at which an order rests. -/
def locate (b : Book) (id : ℤ) : Option (Side × ℤ) :=
  match priceOf id (b.levels .buy) with
  | some price => some (.buy, price)
  | none => (priceOf id (b.levels .sell)).map (Prod.mk .sell)

def withdraw (b : Book) (side : Side) (price id : ℤ) : Book :=
  b.withLevels side (remove price id (b.levels side))

def cancel (b : Book) (id : ℤ) : Book :=
  match b.locate id with
  | some (side, price) => b.withdraw side price id
  | none => b

/-- The ids of all orders that rest. -/
def ids (b : Book) : List ℤ := PriceTime.ids (b.levels .buy) ++ PriceTime.ids (b.levels .sell)

/-- The best levels of a side with their totals. -/
def depth (b : Book) (side : Side) (count : ℕ) : List (ℤ × ℤ) :=
  ((b.levels side).take count).map fun level => (level.1, total level.2)

/-- What rests on a side. -/
def volume (b : Book) (side : Side) : ℤ := ((b.levels side).map fun level => total level.2).sum

/-- The book after a call in which a new order gets the given id. -/
def next (b : Book) (id : ℤ) : Call → Book
  | .addLimit side price qty => b.addLimit id side price qty
  | .addMarket side qty => (b.addMarket id side qty).2
  | .cancel orderId => b.cancel orderId
  | .takeFills => { b with fills := [] }
  | .clear => empty
  | _ => b

/-- The answer to a call in which a new order gets the given id. -/
def answer (b : Book) (id : ℤ) : Call → Answer
  | .addLimit _ _ _ => .int id
  | .addMarket side qty => .int (b.addMarket id side qty).1
  | .cancel orderId => .bool (b.locate orderId).isSome
  | .bestBid => .price ((b.levels .buy).head?.map Prod.fst)
  | .bestAsk => .price ((b.levels .sell).head?.map Prod.fst)
  | .bidDepth levels => .depth (b.depth .buy levels.toNat)
  | .askDepth levels => .depth (b.depth .sell levels.toNat)
  | .bidVolume => .int (b.volume .buy)
  | .askVolume => .int (b.volume .sell)
  | .openOrders => .int b.ids.length
  | .takeFills => .fills b.fills
  | .clear => .none

/-! ## A trade, level by level -/

section Trade

variable {b : Book} {side : Side} {level : ℤ × Queue ℤ} {levels : Levels ℤ ℤ}

/-- The fills of a walk through one queue. -/
def fillsAt (takerId price : ℤ) (taken : Taken ℤ) : List Fill :=
  (tradesAt price taken).map (fillOf takerId)

/-- The book in which the best level is another and fills were added. -/
def refilled (b : Book) (side : Side) (level : ℤ × Queue ℤ) (levels : Levels ℤ ℤ)
    (fills : List Fill) : Book :=
  { b.withLevels side (level :: levels) with fills := b.fills ++ fills }

theorem levels_refilled (b : Book) (side : Side) (level : ℤ × Queue ℤ) (levels : Levels ℤ ℤ)
    (fills : List Fill) : (b.refilled side level levels fills).levels side = level :: levels :=
  levels_withLevels b side _

theorem withLevels_self (b : Book) (side : Side) : b.withLevels side (b.levels side) = b := by
  simp [withLevels]

theorem refilled_refilled (level level' : ℤ × Queue ℤ) (fills fills' : List Fill) :
    (b.refilled side level levels fills).refilled side level' levels fills' =
      b.refilled side level' levels (fills ++ fills') := by
  simp [refilled, withLevels]

theorem refilled_self (hlevels : b.levels side = level :: levels) :
    b.refilled side level levels [] = b := by
  rw [refilled, ← hlevels, withLevels_self, List.append_nil]

variable {crossed : ℤ → Prop} [DecidablePred crossed] {takerId wanted : ℤ}

theorem trade_of_idle (h : sweep crossed wanted (b.levels side) = ⟨[], b.levels side, wanted⟩) :
    b.trade side crossed takerId wanted = (wanted, b) := by
  rw [trade, h]
  simp only [withLevels_self, List.map_nil, List.append_nil]

theorem trade_of_used (hlevels : b.levels side = level :: levels) (hpos : 0 < wanted)
    (hcrossed : crossed level.1) (hused : (take wanted level.2).queue = []) :
    b.trade side crossed takerId wanted =
      ((b.refilled side (level.1, []) levels
        (fillsAt takerId level.1 (take wanted level.2))).withLevels side levels).trade side
          crossed takerId (take wanted level.2).left := by
  simp only [trade, levels_withLevels, hlevels, sweep_of_used hpos hcrossed hused, fillsAt,
    List.map_append, fills_withLevels, refilled, List.append_assoc]
  simp [withLevels]

theorem trade_of_kept (hlevels : b.levels side = level :: levels) (hpos : 0 < wanted)
    (hcrossed : crossed level.1) (hkept : (take wanted level.2).queue ≠ []) :
    b.trade side crossed takerId wanted =
      ((take wanted level.2).left,
        b.refilled side (level.1, (take wanted level.2).queue) levels
          (fillsAt takerId level.1 (take wanted level.2))) := by
  simp only [trade, hlevels, sweep_of_kept hpos hcrossed hkept, fillsAt, refilled]

end Trade

end Book

end LimitBook
