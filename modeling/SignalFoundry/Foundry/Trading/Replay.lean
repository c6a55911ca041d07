import SignalFoundry.Foundry.Encoding
import SignalFoundry.Library.Runs
import SignalFoundry.Library.OrderedDict
import Mathlib.Algebra.Order.Ring.Rat
import Mathlib.Algebra.Order.BigOperators.Group.List
import Mathlib.Tactic.Positivity

/-!
# The intraday replay

Causal diagnostics on one-minute bars: one-share positions replayed over the completed,
consecutive minutes of a New York date. Decimals and floats are read as exact rationals.
The live engine decides with `target` on a fresh window; the replay keeps a bounded queue
of closes and their running sum.
-/

namespace Foundry

namespace Trading

open Fallible Runs

/-- An instant in UTC, in microseconds. -/
abbrev Instant := ℤ

/-- `timedelta(minutes=1)`. -/
def minute : ℤ := 60 * 10 ^ 6

/-- The zone `America/New_York` of the timezone database, as the date text of an instant. -/
class NewYork where
  date : Instant → String

/-- A one-minute bar, timestamped at its start. -/
structure Bar where
  «at» : Instant
  «open» : ℚ
  close : ℚ
  open_pos : 0 < «open»
  close_pos : 0 < close

/-- The frozen plan of a study. -/
structure Plan where
  window : ℕ := 20
  thresholdBps : ℕ := 10
  two_le_window : 2 ≤ window := by decide
  window_le : window ≤ 120 := by decide
  thresholdBps_le : thresholdBps ≤ 100 := by decide

/-- `CANDIDATES`. -/
inductive Candidate
  | momentum
  | meanReversion
  deriving DecidableEq, Repr

/-- `_decision`. -/
def decision (last mean : ℚ) (candidate : Candidate) (threshold : ℕ) : ℤ :=
  let distance := (last / mean - 1) * 10000
  match candidate with
  | .momentum => if distance > threshold then 1 else 0
  | .meanReversion => if distance < -threshold then 1 else 0

/-- One long or flat target. -/
def target (prices : List ℚ) (candidate : Candidate) (thresholdBps : ℕ) :
    Except FoundryError ℤ := do
  refuseIf (prices.length < 2 ∨ ∃ p ∈ prices, p ≤ 0)
    ⟨"strategy_contract", "Invalid causal strategy window.", 422⟩
  let mean := prices.sum / prices.length
  return decision (prices.getLastD 0) mean candidate thresholdBps

/-! ## Rows of a day -/

/-- A row of the replay. -/
structure Row where
  gross : ℚ := 0
  cost : ℚ := 0
  turnover : ℚ := 0
  bars : ℚ := 0
  baseline : ℚ := 0
  deriving DecidableEq, Repr

namespace Row

@[ext] theorem ext {a b : Row} (gross : a.gross = b.gross) (cost : a.cost = b.cost)
    (turnover : a.turnover = b.turnover) (bars : a.bars = b.bars)
    (baseline : a.baseline = b.baseline) : a = b := by
  cases a
  cases b
  simp_all

instance : Zero Row := ⟨{}⟩

/-- Every `+=` on a row adds the row that is zero in all other columns. -/
instance : Add Row :=
  ⟨fun a b => ⟨a.gross + b.gross, a.cost + b.cost, a.turnover + b.turnover, a.bars + b.bars,
    a.baseline + b.baseline⟩⟩

@[simp] theorem gross_zero : (0 : Row).gross = 0 := rfl

@[simp] theorem cost_zero : (0 : Row).cost = 0 := rfl

@[simp] theorem turnover_zero : (0 : Row).turnover = 0 := rfl

@[simp] theorem bars_zero : (0 : Row).bars = 0 := rfl

@[simp] theorem baseline_zero : (0 : Row).baseline = 0 := rfl

@[simp] theorem gross_add (a b : Row) : (a + b).gross = a.gross + b.gross := rfl

@[simp] theorem cost_add (a b : Row) : (a + b).cost = a.cost + b.cost := rfl

@[simp] theorem turnover_add (a b : Row) : (a + b).turnover = a.turnover + b.turnover := rfl

@[simp] theorem bars_add (a b : Row) : (a + b).bars = a.bars + b.bars := rfl

@[simp] theorem baseline_add (a b : Row) : (a + b).baseline = a.baseline + b.baseline := rfl

instance : AddCommMonoid Row where
  add_assoc a b c := by ext <;> simp [add_assoc]
  zero_add a := by ext <;> simp
  add_zero a := by ext <;> simp
  add_comm a b := by ext <;> simp [add_comm]
  nsmul := nsmulRec

/-- A column of the sum is the sum of the column. -/
theorem column_sum (f : Row → ℚ) (hzero : f 0 = 0) (hadd : ∀ a b, f (a + b) = f a + f b)
    (rows : List Row) : f rows.sum = (rows.map f).sum := by
  induction rows with
  | nil => exact hzero
  | cons row rows ih => rw [List.sum_cons, hadd, List.map_cons, List.sum_cons, ih]

end Row

/-- A row with its `net`, as `daily_pnl` returns it. -/
structure NetRow extends Row where
  net : ℚ

/-! ## The replay -/

/-- The next minute of the same date. -/
def contiguous [NewYork] (previous bar : Bar) : Bool :=
  bar.at - previous.at = minute && NewYork.date bar.at = NewYork.date previous.at

/-- What the loop of `daily_pnl` carries from bar to bar. -/
structure Replay where
  days : OrderedDict String Row
  window : List ℚ
  rollingSum : ℚ
  previous : Option Bar
  position : ℤ

namespace Replay

section Loop

variable [NewYork]

def start : Replay := ⟨.empty, [], 0, none, 0⟩

/-- `contiguous`, for a replay that may have seen no bar yet. -/
def follows (s : Replay) (bar : Bar) : Bool := s.previous.any (contiguous · bar)

/-- The exit of a held position at the last close before a gap, on the prior day. -/
def exitDays (s : Replay) (fee : ℚ) (days : OrderedDict String Row) : OrderedDict String Row :=
  match s.previous with
  | some previous =>
      if s.position ≠ 0 then
        (days.addTo (NewYork.date previous.at) { cost := previous.close * fee }).addTo
          (NewYork.date previous.at) { turnover := previous.close }
      else days
  | none => days

/-- The branch on `contiguous`: a gap closes the position and clears the window, a following
bar carries the position to its open. -/
def enter (s : Replay) (fee : ℚ) (bar : Bar) : Replay :=
  let day := NewYork.date bar.at
  let days := s.days.addTo day 0
  if s.follows bar then
    { s with
      days := days.addTo day
        { gross := s.position * (bar.open - (s.previous.elim 0 (·.close))) } }
  else
    { s with days := s.exitDays fee days, position := 0, window := [], rollingSum := 0 }

/-- The position proposed on a full window. -/
def proposed (s : Replay) (plan : Plan) (candidate : Candidate) : ℤ :=
  if s.window.length = plan.window then
    decision (s.window.getLastD 0) (s.rollingSum / plan.window) candidate plan.thresholdBps
  else 0

/-- The baseline of one bar: the gain since the previous close while bars follow each other,
both sides of the costs where they do not. -/
def baselineDays (s : Replay) (fee : ℚ) (bar : Bar) (follows : Bool)
    (days : OrderedDict String Row) : OrderedDict String Row :=
  let day := NewYork.date bar.at
  let days := days.addTo day { baseline := bar.close - bar.open }
  match follows, s.previous with
  | true, some previous => days.addTo day { baseline := bar.open - previous.close }
  | false, some previous =>
      (days.addTo day { baseline := -(bar.open * fee) }).addTo (NewYork.date previous.at)
        { baseline := -(previous.close * fee) }
  | _, none => days.addTo day { baseline := -(bar.open * fee) }

/-- The trade at the open, the gain of the bar, and the baseline. -/
def book (s : Replay) (fee : ℚ) (bar : Bar) (follows : Bool) (proposed : ℤ) : Replay :=
  let day := NewYork.date bar.at
  let turnover := |proposed - s.position| * bar.open
  let days := ((s.days.addTo day { cost := turnover * fee }).addTo day
    { turnover := turnover }).addTo day { gross := proposed * (bar.close - bar.open) }
  { s with days := s.baselineDays fee bar follows days, position := proposed }

/-- The bar enters the window. -/
def observe (s : Replay) (plan : Plan) (bar : Bar) : Replay :=
  let rollingSum :=
    if s.window.length = plan.window then s.rollingSum - s.window.headD 0 else s.rollingSum
  { days := s.days.addTo (NewYork.date bar.at) { bars := 1 }
    window := appendBounded plan.window s.window bar.close
    rollingSum := rollingSum + bar.close
    previous := some bar
    position := s.position }

/-- One turn of the loop. -/
def step (plan : Plan) (candidate : Candidate) (fee : ℚ) (s : Replay) (bar : Bar) : Replay :=
  let entered := s.enter fee bar
  (entered.book fee bar (s.follows bar) (entered.proposed plan candidate)).observe plan bar

/-- The loop over all bars. -/
def run (plan : Plan) (candidate : Candidate) (fee : ℚ) (bars : List Bar) : Replay :=
  bars.foldl (step plan candidate fee) start

/-- The position proposed at each bar. -/
def proposals (plan : Plan) (candidate : Candidate) (fee : ℚ) (bars : List Bar) : List ℤ :=
  (bars.scanl (step plan candidate fee) start).tail.map (·.position)

/-- The liquidation at the last close. -/
def finish (s : Replay) (fee : ℚ) : OrderedDict String Row :=
  match s.previous with
  | none => s.days
  | some previous =>
      let day := NewYork.date previous.at
      ((s.days.addTo day { cost := s.position * (previous.close * fee) }).addTo day
        { turnover := s.position * previous.close }).addTo day
        { baseline := -(previous.close * fee) }

end Loop

end Replay

/-- `Decimal(cost_bps) / 10000`. -/
def feeOf (costBps : ℤ) : ℚ := costBps / 10000

/-- `daily_pnl`. -/
def dailyPnl [NewYork] (bars : List Bar) (plan : Plan) (candidate : Candidate) (costBps : ℤ) :
    OrderedDict String NetRow :=
  ((Replay.run plan candidate (feeOf costBps) bars).finish (feeOf costBps)).mapValues
    fun row => { row with net := row.gross - row.cost }

end Trading

end Foundry
