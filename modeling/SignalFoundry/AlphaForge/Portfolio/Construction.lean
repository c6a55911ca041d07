import Mathlib.Algebra.BigOperators.Group.List.Basic
import Mathlib.Data.List.Dedup
import Mathlib.Data.List.Sort
import SignalFoundry.Library.PyFloat

/-!
# Portfolio construction

`construct_portfolio` normalises and caps the scores of a day, and blends them with the
book of the day before when they would turn over too much of it.
-/

namespace SignalFoundry.Construction

/-! ## Scores -/

/-- `np.sign`. -/
def sign : PyNumber → PyNumber
  | .finite value => .finite (if 0 < value then 1 else if value < 0 then -1 else 0)
  | .posInf => .finite 1
  | .negInf => .finite (-1)
  | .nan => .nan

/-- `x + y`. -/
def add : PyNumber → PyNumber → PyNumber
  | .finite x, .finite y => .finite (x + y)
  | .nan, _ => .nan
  | _, .nan => .nan
  | .posInf, .negInf => .nan
  | .negInf, .posInf => .nan
  | .posInf, _ => .posInf
  | .negInf, _ => .negInf
  | _, y => y

/-- `x / y`; a zero divisor is a positive zero. -/
def div : PyNumber → PyNumber → PyNumber
  | .nan, _ => .nan
  | _, .nan => .nan
  | .finite x, .finite y =>
      if y ≠ 0 then .finite (x / y)
      else if x = 0 then .nan else if 0 < x then .posInf else .negInf
  | .finite _, _ => .finite 0
  | .posInf, .finite y => if y < 0 then .negInf else .posInf
  | .negInf, .finite y => if y < 0 then .posInf else .negInf
  | _, _ => .nan

/-- `x.fillna(y)`. -/
def fillna (y : PyNumber) (x : PyNumber) : PyNumber := if x = .nan then y else x

/-- `vol.median()`, which skips NaN. -/
def median (values : List PyNumber) : PyNumber :=
  let sorted := (values.filter (· ≠ .nan)).insertionSort fun x y => x.le y = true
  let middle := sorted.length / 2
  if sorted.length % 2 = 1 then sorted.getD middle .nan
  else div (add (sorted.getD (middle - 1) .nan) (sorted.getD middle .nan)) (.finite 2)

/-- `_normalize_scores`. -/
def normalizeScores (scores : List PyNumber) (maxGross : ℚ) : List ℚ :=
  let scores := scores.map fun score => score.finite?.getD 0
  let total := (scores.map fun score => |score|).sum
  let pos := (scores.map fun score => max score 0).sum
  let neg := (scores.map fun score => |min score 0|).sum
  if total = 0 then scores
  else if 0 < pos ∧ 0 < neg then
    scores.map fun score =>
      max score 0 / pos * (maxGross / 2) + min score 0 / neg * (maxGross / 2)
  else scores.map fun score => score / total * maxGross

/-! ## Caps -/

structure Limits where
  maxWeight : ℚ
  maxGross : ℚ
  maxNet : ℚ

namespace Limits

variable (limits : Limits)

/-- `weights.clip(lower=-max_weight, upper=max_weight)`. -/
def clip (weights : List ℚ) : List ℚ :=
  weights.map fun w => min (max w (-limits.maxWeight)) limits.maxWeight

def scaleGross (weights : List ℚ) : List ℚ :=
  let gross := (weights.map fun w => |w|).sum
  if limits.maxGross < gross ∧ 0 < gross then weights.map (· * (limits.maxGross / gross))
  else weights

def trimNet (weights : List ℚ) : List ℚ :=
  let net := weights.sum
  if limits.maxNet < net then
    let positive := (weights.map fun w => max w 0).sum
    if 0 < positive then weights.map fun w => w - max w 0 * ((net - limits.maxNet) / positive)
    else weights
  else if net < -limits.maxNet then
    let negative := (weights.map fun w => min w 0).sum
    if 0 < (weights.map fun w => |min w 0|).sum then
      weights.map fun w => w - min w 0 * ((net + limits.maxNet) / negative)
    else weights
  else weights

/-- `_apply_caps`. -/
def applyCaps (weights : List ℚ) : List ℚ :=
  limits.trimNet (limits.scaleGross (limits.clip weights))

end Limits

/-! ## Settings and tables -/

/-- The portfolio settings; `others` are the keys outside `allowed`. -/
structure PortfolioSettings where
  scheme : Option String
  maxWeight : Option ℚ
  maxGrossExposure : Option ℚ
  maxNetExposure : Option ℚ
  inverseVolScaling : Option Bool
  turnoverCap : Option ℚ
  volLookback : Option ℤ
  cashBuffer : Option ℚ
  others : List String

namespace PortfolioSettings

variable (cfg : PortfolioSettings)

def maxGross : ℚ := cfg.maxGrossExposure.getD 1 * (1 - cfg.cashBuffer.getD 0)

def limits : Limits where
  maxWeight := cfg.maxWeight.getD (1 / 10)
  maxGross := cfg.maxGross
  maxNet := cfg.maxNetExposure.getD cfg.maxGross

def inverseVol : Bool :=
  cfg.inverseVolScaling.getD (cfg.scheme.getD "inverse_vol" = "inverse_vol")

end PortfolioSettings

structure SignalRow (Date Symbol : Type) where
  date : Date
  symbol : Symbol
  signal : PyNumber

structure FeatureRow (Date Symbol : Type) where
  date : Date
  symbol : Symbol
  /-- The `vol_` columns by lookback. -/
  vol : ℤ → PyNumber

/-- A feature table has a row for a date and a symbol at most once. -/
structure FeatureTable (Date Symbol : Type) where
  rows : List (FeatureRow Date Symbol)
  lookbacks : List ℤ
  nodup : (rows.map fun row => (row.date, row.symbol)).Nodup

/-- A row of `frame`, the signals with their volatility. -/
structure FrameRow (Date Symbol : Type) where
  date : Date
  symbol : Symbol
  signal : PyNumber
  vol : PyNumber

/-- A row of the result. -/
structure TargetRow (Date Symbol : Type) where
  date : Date
  symbol : Symbol
  targetWeight : ℚ
  deriving DecidableEq

/-- The weights of a day by symbol. -/
abbrev Book (Symbol : Type) := List (Symbol × ℚ)

namespace Book

variable {Symbol : Type} [DecidableEq Symbol]

def symbols (book : Book Symbol) : List Symbol := book.map Prod.fst

/-- A weight of `book.reindex(…, fill_value=0.0)`. -/
def weightOf (book : Book Symbol) (symbol : Symbol) : ℚ := (book.lookup symbol).getD 0

def gross (book : Book Symbol) : ℚ := (book.map fun w => |w.2|).sum

def net (book : Book Symbol) : ℚ := (book.map Prod.snd).sum

/-- `delta.abs().sum()` over the symbols of both days. -/
def turnover (prev next : Book Symbol) : ℚ :=
  ((prev.symbols ∪ next.symbols).map fun symbol =>
    |next.weightOf symbol - prev.weightOf symbol|).sum

end Book

section Construct

variable {Date Symbol : Type} [LinearOrder Date] [LinearOrder Symbol]

/-- The merge of the signals with a volatility column. -/
def merged (signals : List (SignalRow Date Symbol)) (features : Option (FeatureTable Date Symbol))
    (lookback : ℤ) : List (FrameRow Date Symbol) :=
  signals.map fun row => ⟨row.date, row.symbol, row.signal,
    match features with
    | none => .nan
    | some features =>
        if lookback ∈ features.lookbacks then
          ((features.rows.find? fun feature =>
            feature.date = row.date ∧ feature.symbol = row.symbol).map (·.vol lookback)).getD .nan
        else .nan⟩

/-- `frame.groupby("date", sort=True)`. -/
def groups (frame : List (FrameRow Date Symbol)) : List (Date × List (FrameRow Date Symbol)) :=
  ((frame.map (·.date)).dedup.insertionSort (· ≤ ·)).map fun date =>
    (date, frame.filter (·.date = date))

namespace PortfolioSettings

variable (cfg : PortfolioSettings)

/-- The scores of a day. -/
def scores (rows : List (FrameRow Date Symbol)) : List PyNumber :=
  let scores := rows.map (·.signal)
  let scores := if cfg.scheme.getD "inverse_vol" = "equal_weight" then scores.map sign else scores
  if cfg.inverseVol then
    let vol := rows.map fun row => if row.vol = .finite 0 then .nan else row.vol
    List.zipWith div scores (vol.map fun v => fillna (.finite 1) (fillna (median vol) v))
  else scores

/-- The capped weights of a day. -/
def target (rows : List (FrameRow Date Symbol)) : Book Symbol :=
  (rows.map (·.symbol)).zip (cfg.limits.applyCaps (normalizeScores (cfg.scores rows) cfg.maxGross))

/-- The turnover cap of a day on its capped weights. -/
def capTurnover (prev weights : Book Symbol) : Book Symbol :=
  match cfg.turnoverCap with
  | none => weights
  | some cap =>
      if prev.isEmpty then weights
      else
        let turnover := prev.turnover weights
        if cap < turnover ∧ 0 < cap then
          weights.symbols.map fun symbol => (symbol, prev.weightOf symbol +
            (weights.weightOf symbol - prev.weightOf symbol) * (cap / turnover))
        else weights

/-- The book of a day. -/
def step (prev : Book Symbol) (rows : List (FrameRow Date Symbol)) : Book Symbol :=
  cfg.capTurnover prev (cfg.target rows)

/-- The loop of `construct_portfolio`. -/
def blocksFrom (prev : Book Symbol) :
    List (Date × List (FrameRow Date Symbol)) → List (TargetRow Date Symbol)
  | [] => []
  | (date, rows) :: days =>
      (cfg.step prev rows).map (fun w => ⟨date, w.1, w.2⟩) ++ blocksFrom (cfg.step prev rows) days

end PortfolioSettings

/-- `sort_values(["date", "symbol"])`. -/
def rowOrder (a b : TargetRow Date Symbol) : Prop :=
  a.date < b.date ∨ a.date = b.date ∧ a.symbol ≤ b.symbol

instance : DecidableRel (@rowOrder Date Symbol _ _) := fun _ _ =>
  inferInstanceAs (Decidable (_ ∨ _))

/-- `ValueError("unknown portfolio settings: …")`. -/
inductive ConstructionError where
  | unknownSettings (sorted : List String)

/-- `construct_portfolio`. -/
def constructPortfolio (signals : List (SignalRow Date Symbol))
    (features : Option (FeatureTable Date Symbol)) (cfg : PortfolioSettings) :
    Except ConstructionError (List (TargetRow Date Symbol)) :=
  if cfg.others ≠ [] then .error (.unknownSettings (cfg.others.mergeSort (· ≤ ·)))
  else .ok ((cfg.blocksFrom [] (groups (merged signals features (cfg.volLookback.getD 20)))
    ).insertionSort rowOrder)

/-! ## The limits of a result -/

/-- The book of a date in a result. -/
def bookOf (rows : List (TargetRow Date Symbol)) (date : Date) : Book Symbol :=
  (rows.filter (·.date = date)).map fun row => (row.symbol, row.targetWeight)

omit [LinearOrder Date] [LinearOrder Symbol] in
/-- A book is within the limits of its day. -/
structure Limits.Within (limits : Limits) (book : Book Symbol) : Prop where
  weight : ∀ w ∈ book, |w.2| ≤ limits.maxWeight
  gross : book.gross ≤ limits.maxGross
  net : |book.net| ≤ limits.maxNet

/-- Two dates of a result with no date between them. -/
structure ConsecutiveDates (rows : List (TargetRow Date Symbol)) (date next : Date) : Prop where
  mem : date ∈ rows.map (·.date)
  next_mem : next ∈ rows.map (·.date)
  lt : date < next
  between : ∀ row ∈ rows, ¬(date < row.date ∧ row.date < next)

/-- Every day of a result is within its limits, and no turnover is above a positive cap. -/
structure PortfolioSettings.Obeyed (cfg : PortfolioSettings)
    (rows : List (TargetRow Date Symbol)) : Prop where
  within : ∀ row ∈ rows, cfg.limits.Within (bookOf rows row.date)
  turnover : ∀ cap, cfg.turnoverCap = some cap → 0 < cap → ∀ date next,
    ConsecutiveDates rows date next → (bookOf rows date).turnover (bookOf rows next) ≤ cap

/-- The turnover cap binds while a name that the day before holds has left the universe. -/
def PortfolioSettings.CutsLeavers (cfg : PortfolioSettings) (prev weights : Book Symbol) : Prop :=
  ∃ cap, cfg.turnoverCap = some cap ∧ 0 < cap ∧ cap < prev.turnover weights ∧
    ∃ symbol ∉ weights.symbols, prev.weightOf symbol ≠ 0

/-- The book before a day. -/
def PortfolioSettings.bookAfter (cfg : PortfolioSettings)
    (days : List (Date × List (FrameRow Date Symbol))) : Book Symbol :=
  days.foldl (fun prev day => cfg.step prev day.2) []

end Construct

end SignalFoundry.Construction
