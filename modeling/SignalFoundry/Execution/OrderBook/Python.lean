import SignalFoundry.Execution.OrderBook.Book
import SignalFoundry.Library.Fallible
import SignalFoundry.Library.OrderedDict

/-!
# The Python order book

`PyOrderBook` as `orderbook_py.py` has it: a dictionary of queues and a sorted
price list for each side, a dictionary of level totals, an index of the resting
orders and the fills. Every subscript of a dictionary can raise a `KeyError`,
and the loop of `_match` over the levels gets as many rounds as there are
prices and one more; that neither ever happens is proved where the book is
shown to represent its abstract state.
-/

namespace LimitBook

open Fallible

/-! ## Sequences -/

/-- `bisect.bisect_left` on a sorted list. -/
def bisectLeft (prices : List ℤ) (price : ℤ) : ℕ := (prices.takeWhile (· < price)).length

/-- `bisect.insort` on a sorted list. -/
def insort (prices : List ℤ) (price : ℤ) : List ℤ :=
  prices.takeWhile (· ≤ price) ++ price :: prices.dropWhile (· ≤ price)

/-- `seq[start:]`; a negative bound counts from the end. -/
def sliceFrom {α : Type} (seq : List α) (start : ℤ) : List α :=
  if start < 0 then seq.drop (seq.length - (-start).toNat) else seq.drop start.toNat

/-- `seq[:stop]`; a negative bound counts from the end. -/
def sliceTo {α : Type} (seq : List α) (stop : ℤ) : List α :=
  if stop < 0 then seq.take (seq.length - (-stop).toNat) else seq.take stop.toNat

/-- `d[k]`. -/
def subscript {K V : Type} [DecidableEq K] (d : OrderedDict K V) (k : K) : Except Fault V :=
  match d.get? k with
  | some v => .ok v
  | none => .error .keyError

theorem subscript_eq_ok_iff {K V : Type} [DecidableEq K] {d : OrderedDict K V} {k : K} {v : V} :
    subscript d k = .ok v ↔ d.get? k = some v := by
  unfold subscript
  split <;> simp_all

/-! ## The book -/

structure PyOrderBook where
  bids : OrderedDict ℤ (List (ℤ × ℤ)) := .empty
  asks : OrderedDict ℤ (List (ℤ × ℤ)) := .empty
  levelTotal : OrderedDict (Side × ℤ) ℤ := .empty
  index : OrderedDict ℤ (Side × ℤ) := .empty
  fills : List Fill := []
  nextId : ℤ := 1
  bidPrices : List ℤ := []
  askPrices : List ℤ := []

namespace PyOrderBook

/-- `self._bids if side == BUY else self._asks`. -/
def book (s : PyOrderBook) : Side → OrderedDict ℤ (List (ℤ × ℤ))
  | .buy => s.bids
  | .sell => s.asks

/-- `self._bid_prices if side == BUY else self._ask_prices`. -/
def prices (s : PyOrderBook) : Side → List ℤ
  | .buy => s.bidPrices
  | .sell => s.askPrices

def setBook (s : PyOrderBook) (side : Side) (d : OrderedDict ℤ (List (ℤ × ℤ))) : PyOrderBook :=
  match side with
  | .buy => { s with bids := d }
  | .sell => { s with asks := d }

def setPrices (s : PyOrderBook) (side : Side) (l : List ℤ) : PyOrderBook :=
  match side with
  | .buy => { s with bidPrices := l }
  | .sell => { s with askPrices := l }

/-! ### Internals -/

def insertPrice (s : PyOrderBook) (side : Side) (price : ℤ) : PyOrderBook :=
  s.setPrices side (insort (s.prices side) price)

def dropLevel (s : PyOrderBook) (side : Side) (price : ℤ) : PyOrderBook :=
  let s := s.setBook side ((s.book side).erase price)
  let s := { s with levelTotal := s.levelTotal.erase (side, price) }
  let i := bisectLeft (s.prices side) price
  if (s.prices side)[i]? = some price then s.setPrices side ((s.prices side).eraseIdx i) else s

/-- The `if price not in book` of `_rest`. -/
def openLevel (s : PyOrderBook) (side : Side) (price : ℤ) : PyOrderBook :=
  if price ∈ (s.book side).keys then s
  else
    let s := s.setBook side ((s.book side).set price [])
    let s := { s with levelTotal := s.levelTotal.set (side, price) 0 }
    s.insertPrice side price

def restOrder (s : PyOrderBook) (side : Side) (orderId price qty : ℤ) :
    Except Fault PyOrderBook := do
  let s := s.openLevel side price
  let level ← subscript (s.book side) price
  let s := s.setBook side ((s.book side).set price (level ++ [(orderId, qty)]))
  let total ← subscript s.levelTotal (side, price)
  .ok { s with
    levelTotal := s.levelTotal.set (side, price) (total + qty)
    index := s.index.set orderId (side, price) }

/-- The inner loop of `_match`. The queue is the one that the dictionary holds,
so each change of it is a change of the dictionary. An entry keeps a quantity
only when it traded all that remained, which ends the loop. -/
def matchLevel (bookSide : Side) (takerId best : ℤ) :
    List (ℤ × ℤ) → ℤ → PyOrderBook → Except Fault (ℤ × PyOrderBook)
  | [], remaining, s => .ok (remaining, s)
  | (orderId, qty) :: level, remaining, s =>
      if 0 < remaining then do
        let traded := min qty remaining
        let total ← subscript s.levelTotal (bookSide, best)
        let s := { s with
          fills := s.fills ++ [Fill.mk orderId takerId best traded]
          levelTotal := s.levelTotal.set (bookSide, best) (total - traded) }
        if qty - traded = 0 then
          let s := { s with index := s.index.erase orderId }
          matchLevel bookSide takerId best level (remaining - traded)
            (s.setBook bookSide ((s.book bookSide).set best level))
        else
          .ok (remaining - traded,
            s.setBook bookSide ((s.book bookSide).set best ((orderId, qty - traded) :: level)))
      else .ok (remaining, s)

/-- `prices[-1] if book_side == BUY else prices[0]`, absent on an empty side. -/
def best (s : PyOrderBook) : Side → Option ℤ
  | .buy => s.bidPrices.getLast?
  | .sell => s.askPrices.head?

/-- The outer loop of `_match`, for a given number of rounds. -/
def matchLoop (bookSide : Side) (takerId : ℤ) (crossed : ℤ → Prop) [DecidablePred crossed] :
    ℕ → ℤ → PyOrderBook → Except Fault (ℤ × PyOrderBook)
  | 0, _, _ => .error .loops
  | rounds + 1, remaining, s =>
      if 0 < remaining then
        match s.best bookSide with
        | none => .ok (remaining, s)
        | some best =>
            if crossed best then do
              let level ← subscript (s.book bookSide) best
              let (remaining, s) ← matchLevel bookSide takerId best level remaining s
              let level ← subscript (s.book bookSide) best
              let s := if level = [] then s.dropLevel bookSide best else s
              matchLoop bookSide takerId crossed rounds remaining s
            else .ok (remaining, s)
      else .ok (remaining, s)

def matchOrders (s : PyOrderBook) (bookSide : Side) (takerId qty : ℤ) (crossed : ℤ → Prop)
    [DecidablePred crossed] : Except Fault (ℤ × PyOrderBook) :=
  matchLoop bookSide takerId crossed ((s.prices bookSide).length + 1) qty s

/-! ### The public interface -/

def addLimit (s : PyOrderBook) (side : Side) (price qty : ℤ) :
    Except Fault (ℤ × PyOrderBook) := do
  let orderId := s.nextId
  let s := { s with nextId := s.nextId + 1 }
  if qty ≤ 0 then
    return (orderId, s)
  let (remaining, s) ←
    match side with
    | .buy => s.matchOrders .sell orderId qty (fun best => best ≤ price)
    | .sell => s.matchOrders .buy orderId qty (fun best => best ≥ price)
  let s ← if remaining > 0 then s.restOrder side orderId price remaining else .ok s
  return (orderId, s)

def addMarket (s : PyOrderBook) (side : Side) (qty : ℤ) : Except Fault (ℤ × PyOrderBook) := do
  let orderId := s.nextId
  let s := { s with nextId := s.nextId + 1 }
  if qty ≤ 0 then
    return (0, s)
  let opposite := if side = .buy then Side.sell else Side.buy
  let (remaining, s) ← s.matchOrders opposite orderId qty (fun _ => True)
  return (qty - remaining, s)

def cancel (s : PyOrderBook) (orderId : ℤ) : Except Fault (Bool × PyOrderBook) :=
  match s.index.get? orderId with
  | none => .ok (false, s)
  | some (side, price) => do
      let s := { s with index := s.index.erase orderId }
      let level ← subscript (s.book side) price
      let s ←
        match level.find? fun entry => entry.1 = orderId with
        | some entry => do
            let total ← subscript s.levelTotal (side, price)
            let s := { s with levelTotal := s.levelTotal.set (side, price) (total - entry.2) }
            .ok (s.setBook side
              ((s.book side).set price (level.eraseP fun entry => entry.1 = orderId)))
        | none => .ok s
      let level ← subscript (s.book side) price
      .ok (true, if level = [] then s.dropLevel side price else s)

def bestBid (s : PyOrderBook) : Option ℤ := s.bidPrices.getLast?

def bestAsk (s : PyOrderBook) : Option ℤ := s.askPrices.head?

/-- `[(p, self._level_total[(side, p)]) for p in prices]`. -/
def withTotals (s : PyOrderBook) (side : Side) (prices : List ℤ) : Except Fault (List (ℤ × ℤ)) :=
  prices.mapM fun price => do
    let total ← subscript s.levelTotal (side, price)
    .ok (price, total)

def bidDepth (s : PyOrderBook) (levels : ℤ) : Except Fault (List (ℤ × ℤ)) :=
  s.withTotals .buy (sliceFrom s.bidPrices (-levels)).reverse

def askDepth (s : PyOrderBook) (levels : ℤ) : Except Fault (List (ℤ × ℤ)) :=
  s.withTotals .sell (sliceTo s.askPrices levels)

def bidVolume (s : PyOrderBook) : Except Fault ℤ := do
  let totals ← s.withTotals .buy s.bidPrices
  .ok (totals.map Prod.snd).sum

def askVolume (s : PyOrderBook) : Except Fault ℤ := do
  let totals ← s.withTotals .sell s.askPrices
  .ok (totals.map Prod.snd).sum

def openOrders (s : PyOrderBook) : ℤ := s.index.size

def takeFills (s : PyOrderBook) : List Fill × PyOrderBook := (s.fills, { s with fills := [] })

def clear (_ : PyOrderBook) : PyOrderBook := {}

/-- One call of the interface. -/
def step (s : PyOrderBook) : Call → Except Fault (Answer × PyOrderBook)
  | .addLimit side price qty => do
      let (orderId, s) ← s.addLimit side price qty
      .ok (.int orderId, s)
  | .addMarket side qty => do
      let (traded, s) ← s.addMarket side qty
      .ok (.int traded, s)
  | .cancel orderId => do
      let (found, s) ← s.cancel orderId
      .ok (.bool found, s)
  | .bestBid => .ok (.price s.bestBid, s)
  | .bestAsk => .ok (.price s.bestAsk, s)
  | .bidDepth levels => do
      let depth ← s.bidDepth levels
      .ok (.depth depth, s)
  | .askDepth levels => do
      let depth ← s.askDepth levels
      .ok (.depth depth, s)
  | .bidVolume => do
      let volume ← s.bidVolume
      .ok (.int volume, s)
  | .askVolume => do
      let volume ← s.askVolume
      .ok (.int volume, s)
  | .openOrders => .ok (.int s.openOrders, s)
  | .takeFills => .ok (.fills s.takeFills.1, s.takeFills.2)
  | .clear => .ok (.none, s.clear)

end PyOrderBook

end LimitBook
