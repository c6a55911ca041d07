import SignalFoundry.Execution.OrderBook.Book
import SignalFoundry.Library.Fallible
import SignalFoundry.Library.OrderedDict

/-!
# The C++ order book

`OrderBook` as `order_book.hpp` has it. A `std::map` is the list of its entries
in the order of its comparator, and an iterator into a list of orders is the id
of the order it points to. Signed 64-bit arithmetic that overflows is undefined
(`int64`), unsigned arithmetic wraps, and a vector refuses to reserve more than
`maxSize` elements, a figure of the standard library in use.
-/

namespace LimitBook

open Fallible

/-- The arguments of the call fit the types of the C++ interface. -/
def Call.Int64 : Call → Prop
  | .addLimit _ price qty => (-2 ^ 63 ≤ price ∧ price < 2 ^ 63) ∧ -2 ^ 63 ≤ qty ∧ qty < 2 ^ 63
  | .addMarket _ qty => -2 ^ 63 ≤ qty ∧ qty < 2 ^ 63
  | .cancel orderId => 0 ≤ orderId ∧ orderId < 2 ^ 64
  | .bidDepth levels => 0 ≤ levels ∧ levels < 2 ^ 64
  | .askDepth levels => 0 ≤ levels ∧ levels < 2 ^ 64
  | _ => True

instance : DecidablePred Call.Int64
  | .addLimit _ price qty => inferInstanceAs
      (Decidable ((-2 ^ 63 ≤ price ∧ price < 2 ^ 63) ∧ -2 ^ 63 ≤ qty ∧ qty < 2 ^ 63))
  | .addMarket _ qty => inferInstanceAs (Decidable (-2 ^ 63 ≤ qty ∧ qty < 2 ^ 63))
  | .cancel orderId => inferInstanceAs (Decidable (0 ≤ orderId ∧ orderId < 2 ^ 64))
  | .bidDepth levels => inferInstanceAs (Decidable (0 ≤ levels ∧ levels < 2 ^ 64))
  | .askDepth levels => inferInstanceAs (Decidable (0 ≤ levels ∧ levels < 2 ^ 64))
  | .bestBid | .bestAsk | .bidVolume | .askVolume | .openOrders | .takeFills | .clear => .isTrue trivial

namespace Native

/-- The result of a signed 64-bit operation. -/
def int64 (value : ℤ) : Except Fault ℤ :=
  if -2 ^ 63 ≤ value ∧ value < 2 ^ 63 then .ok value else .error .undefined

/-- The result of an unsigned 64-bit operation. -/
def uint64 (value : ℤ) : ℤ := value % 2 ^ 64

theorem int64_of_fits {value : ℤ} (hlower : -2 ^ 63 ≤ value) (hupper : value < 2 ^ 63) :
    int64 value = .ok value :=
  if_pos ⟨hlower, hupper⟩

structure Order where
  id : ℤ
  side : Side
  price : ℤ
  qty : ℤ

structure Level where
  total : ℤ := 0
  orders : List Order := []

/-- `level.orders.push_back(order); level.total += qty`. -/
def Level.push (order : Order) (level : Level) : Except Fault Level := do
  let total ← int64 (level.total + order.qty)
  .ok ⟨total, level.orders ++ [order]⟩

/-- `level.total -= it->qty; level.orders.erase(it)`; an iterator that points to
no order of the level is undefined. -/
def Level.erase (it : ℤ) (level : Level) : Except Fault Level :=
  match level.orders.find? fun order => order.id = it with
  | some order => do
      let total ← int64 (level.total - order.qty)
      .ok ⟨total, level.orders.eraseP fun order => order.id = it⟩
  | none => .error .undefined

structure Locator where
  side : Side
  price : ℤ
  it : ℤ

/-- `BidMap` and `AskMap`: the levels by price, best first. -/
abbrev LevelMap := List (ℤ × Level)

/-- `book[price]` creates a level that is not there. -/
def LevelMap.touch (side : Side) (price : ℤ) : LevelMap → LevelMap
  | [] => [(price, {})]
  | (best, level) :: book =>
      if best = price then (best, level) :: book
      else if side.Better price best then (price, {}) :: (best, level) :: book
      else (best, level) :: touch side price book

/-- A change of the level at a price, if there is one. -/
def LevelMap.alter (price : ℤ) (change : Level → Except Fault Level) :
    LevelMap → Except Fault LevelMap
  | [] => .ok []
  | (best, level) :: book =>
      if best = price then do
        let level ← change level
        .ok ((best, level) :: book)
      else do
        let book ← alter price change book
        .ok ((best, level) :: book)

/-- `book.erase` of the level at a price when it has no orders. -/
def LevelMap.eraseEmpty (price : ℤ) : LevelMap → LevelMap
  | [] => []
  | (best, level) :: book =>
      if best = price then if level.orders = [] then book else (best, level) :: book
      else (best, level) :: eraseEmpty price book

structure OrderBook where
  bids : LevelMap := []
  asks : LevelMap := []
  index : OrderedDict ℤ Locator := .empty
  fills : List Fill := []
  nextId : ℤ := 1

namespace OrderBook

def book (s : OrderBook) : Side → LevelMap
  | .buy => s.bids
  | .sell => s.asks

def setBook (s : OrderBook) (side : Side) (book : LevelMap) : OrderBook :=
  match side with
  | .buy => { s with bids := book }
  | .sell => { s with asks := book }

/-! ### Internals -/

/-- The inner loop of `match_` over the orders of a level, with what remains and
the total of the level. An order keeps a quantity only when it traded all that
remained, which ends the loop. -/
def matchOrders (takerId : ℤ) :
    ℤ → ℤ → List Order → OrderBook → Except Fault (ℤ × Level × OrderBook)
  | remaining, total, [], s => .ok (remaining, ⟨total, []⟩, s)
  | remaining, total, maker :: orders, s =>
      if 0 < remaining then do
        let traded := if maker.qty < remaining then maker.qty else remaining
        let s := { s with fills := s.fills ++ [Fill.mk maker.id takerId maker.price traded] }
        let qty ← int64 (maker.qty - traded)
        let total ← int64 (total - traded)
        let remaining ← int64 (remaining - traded)
        if qty = 0 then
          matchOrders takerId remaining total orders { s with index := s.index.erase maker.id }
        else .ok (remaining, ⟨total, { maker with qty := qty } :: orders⟩, s)
      else .ok (remaining, ⟨total, maker :: orders⟩, s)

/-- The outer loop of `match_` over the levels. A level that keeps orders leaves
nothing remaining, which ends the loop. -/
def matchLevels (takerId : ℤ) (crossed : ℤ → Prop) [DecidablePred crossed] :
    ℤ → LevelMap → OrderBook → Except Fault (ℤ × LevelMap × OrderBook)
  | remaining, [], s => .ok (remaining, [], s)
  | remaining, (best, level) :: book, s =>
      if 0 < remaining ∧ crossed best then do
        let (remaining, level, s) ← matchOrders takerId remaining level.total level.orders s
        if level.orders = [] then matchLevels takerId crossed remaining book s
        else .ok (remaining, (best, level) :: book, s)
      else .ok (remaining, (best, level) :: book, s)

def matchBook (s : OrderBook) (side : Side) (takerId remaining : ℤ) (crossed : ℤ → Prop)
    [DecidablePred crossed] : Except Fault (ℤ × OrderBook) := do
  let (remaining, book, s) ← matchLevels takerId crossed remaining (s.book side) s
  .ok (remaining, s.setBook side book)

def restOrder (s : OrderBook) (side : Side) (id price qty : ℤ) : Except Fault OrderBook := do
  let book ← ((s.book side).touch side price).alter price (Level.push ⟨id, side, price, qty⟩)
  let s := s.setBook side book
  .ok { s with index := s.index.set id ⟨side, price, id⟩ }

def eraseOrder (book : LevelMap) (loc : Locator) : Except Fault LevelMap := do
  let book ← book.alter loc.price (Level.erase loc.it)
  .ok (book.eraseEmpty loc.price)

/-- `depth_` of the first levels; the vector is asked to reserve them all. -/
def depthOf (maxSize : ℕ) (book : LevelMap) (levels : ℕ) : Answer :=
  if maxSize < levels then .lengthError
  else .depth ((book.take levels).map fun entry => (entry.1, entry.2.total))

def volumeOf (book : LevelMap) : Except Fault ℤ :=
  book.foldlM (fun total entry => int64 (total + entry.2.total)) 0

/-! ### The public interface -/

def addLimit (s : OrderBook) (side : Side) (price qty : ℤ) : Except Fault (ℤ × OrderBook) := do
  let id := s.nextId
  let s := { s with nextId := uint64 (s.nextId + 1) }
  if qty ≤ 0 then
    return (id, s)
  match side with
  | .buy => do
      let (remaining, s) ← s.matchBook .sell id qty (fun best => best ≤ price)
      let s ← if remaining > 0 then s.restOrder .buy id price remaining else .ok s
      return (id, s)
  | .sell => do
      let (remaining, s) ← s.matchBook .buy id qty (fun best => best ≥ price)
      let s ← if remaining > 0 then s.restOrder .sell id price remaining else .ok s
      return (id, s)

def addMarket (s : OrderBook) (side : Side) (qty : ℤ) : Except Fault (ℤ × OrderBook) := do
  let id := s.nextId
  let s := { s with nextId := uint64 (s.nextId + 1) }
  if qty ≤ 0 then
    return (0, s)
  let (remaining, s) ←
    match side with
    | .buy => s.matchBook .sell id qty (fun _ => True)
    | .sell => s.matchBook .buy id qty (fun _ => True)
  let traded ← int64 (qty - remaining)
  return (traded, s)

def cancel (s : OrderBook) (orderId : ℤ) : Except Fault (Bool × OrderBook) :=
  match s.index.get? orderId with
  | none => .ok (false, s)
  | some loc => do
      let book ← eraseOrder (s.book loc.side) loc
      let s := s.setBook loc.side book
      .ok (true, { s with index := s.index.erase orderId })

def bestOf (book : LevelMap) : Option ℤ := book.head?.map Prod.fst

def openOrders (s : OrderBook) : ℤ := s.index.size

/-- The identifiers keep counting. -/
def clear (s : OrderBook) : OrderBook :=
  { s with bids := [], asks := [], index := .empty, fills := [] }

/-- One call of the interface. -/
def step (maxSize : ℕ) (s : OrderBook) : Call → Except Fault (Answer × OrderBook)
  | .addLimit side price qty => do
      let (id, s) ← s.addLimit side price qty
      .ok (.int id, s)
  | .addMarket side qty => do
      let (traded, s) ← s.addMarket side qty
      .ok (.int traded, s)
  | .cancel orderId => do
      let (found, s) ← s.cancel orderId
      .ok (.bool found, s)
  | .bestBid => .ok (.price (bestOf s.bids), s)
  | .bestAsk => .ok (.price (bestOf s.asks), s)
  | .bidDepth levels => .ok (depthOf maxSize s.bids levels.toNat, s)
  | .askDepth levels => .ok (depthOf maxSize s.asks levels.toNat, s)
  | .bidVolume => do
      let volume ← volumeOf s.bids
      .ok (.int volume, s)
  | .askVolume => do
      let volume ← volumeOf s.asks
      .ok (.int volume, s)
  | .openOrders => .ok (.int s.openOrders, s)
  | .takeFills => .ok (.fills s.fills, { s with fills := [] })
  | .clear => .ok (.none, s.clear)

end OrderBook

end Native

end LimitBook
