import SignalFoundry.Library.Fallible
import SignalFoundry.Library.FirstClose
import SignalFoundry.Library.PyFloat
import SignalFoundry.Library.PyRuntime
import Mathlib.Data.String.Basic

/-!
# Bundle source frames and their panels

The price rows of a verified bundle. A market panel dates a bar at its session; a
decision panel dates it at the first close of a represented session at which it was
available. An as-of load keeps the rows effective and available by then and builds both
panels from them alone.
-/

namespace BundleData

open Fallible PyFloat

/-- Nanoseconds of UTC, or of a naive session label. -/
abbrev Instant := ℤ

/-- `SignalFoundryDataError` and `SchemaError`. -/
inductive LoadError where
  | data (text : String)
  | emptyColumn (column : String)
  | unsupportedCalendars (calendars : List String)
  | unsupportedCurrencies (currencies : List String)
  | unsupportedState (state : String)
  | schema (text : String)
  | duplicateRows (count : ℕ)
  | highBelowLow (count : ℕ)
  | noObjects
  deriving DecidableEq, Repr

/-! ## Accepted frames -/

/-- A row with its columns parsed: `none` is a missing value. -/
structure RawRow (F : Type) where
  date : Instant
  ticker : Option String
  «open» : F
  high : F
  low : F
  close : F
  adjClose : F
  volume : F
  effectiveAt : Option Instant
  availableAt : Option Instant
  observedAt : Option Instant
  providerUpdatedAt : Option Instant
  instrumentId : Option String
  currency : Option String
  exchangeCalendar : Option String
  adjustmentState : Option String
  source : Option String
  sourceTable : Option String

/-- The columns of an accepted row that the panels read. -/
structure SourceRow (F : Type) where
  date : Instant
  ticker : String
  «open» : F
  high : F
  low : F
  close : F
  adjClose : F
  volume : F
  effectiveAt : Instant
  availableAt : Instant
  adjustmentState : String
  deriving DecidableEq

/-- The columns that identify a row. -/
def SourceRow.key {F : Type} (row : SourceRow F) : Instant × String := (row.date, row.ticker)

/-- One row of a panel. -/
structure Bar (F : Type) where
  date : Instant
  symbol : String
  «open» : F
  high : F
  low : F
  close : F
  volume : F
  deriving DecidableEq

def day : Instant := 86400000000000

def supportedCalendars : List String := ["XNYS"]

def supportedCurrencies : List String := ["USD"]

namespace RawRow

variable {F : Type}

def toSourceRow (row : RawRow F) : SourceRow F where
  date := row.date
  ticker := row.ticker.getD ""
  «open» := row.open
  high := row.high
  low := row.low
  close := row.close
  adjClose := row.adjClose
  volume := row.volume
  effectiveAt := row.effectiveAt.getD 0
  availableAt := row.availableAt.getD 0
  adjustmentState := row.adjustmentState.getD ""

def effective (row : RawRow F) : Instant := row.effectiveAt.getD 0

def available (row : RawRow F) : Instant := row.availableAt.getD 0

def observed (row : RawRow F) : Instant := row.observedAt.getD 0

def prices (row : RawRow F) : List F := [row.open, row.high, row.low, row.close, row.adjClose]

/-- The text columns in the order in which they are checked. -/
def textColumns (row : RawRow F) : List (String × Option String) :=
  [("ticker", row.ticker), ("instrument_id", row.instrumentId), ("currency", row.currency),
    ("exchange_calendar", row.exchangeCalendar), ("adjustment_state", row.adjustmentState),
    ("source", row.source), ("source_table", row.sourceTable)]

end RawRow

/-- The checks on a text column over the rows, for each column in turn. -/
def checkTexts {F : Type} (frame : List (RawRow F)) : Except LoadError Unit :=
  ["ticker", "instrument_id", "currency", "exchange_calendar", "adjustment_state", "source",
    "source_table"].forM fun column =>
      refuseIf (∃ row ∈ frame, (row.textColumns.lookup column).any (Option.all PyText.isBlank) = true)
        (LoadError.emptyColumn column)

/-- `_coerce_source_frame` of parsed columns. -/
def coerceSourceFrame {F : Type} [PyFloat F] (frame : List (RawRow F)) :
    Except LoadError (List (SourceRow F)) := do
  refuseIf (∃ row ∈ frame, row.date % day ≠ 0)
    (LoadError.data "bundle market dates must not contain intraday timestamps")
  refuseIf (∃ row ∈ frame, row.effectiveAt = none ∨ row.availableAt = none ∨ row.observedAt = none)
    (LoadError.data "bundle contains invalid required temporal values")
  refuseIf (∃ row ∈ frame, row.available < row.effective)
    (LoadError.data "bundle contains availability before effective time")
  refuseIf (∃ row ∈ frame, row.observed < row.effective)
    (LoadError.data "bundle contains observation before effective time")
  refuseIf (∃ row ∈ frame, row.observed < row.available)
    (LoadError.data "bundle contains observation before availability time")
  refuseIf (∃ row ∈ frame, row.providerUpdatedAt.any (row.observed < ·) = true)
    (LoadError.data "bundle contains provider update after observation time")
  refuseIf (¬ (frame.map fun row => (row.date, row.ticker)).Nodup)
    (LoadError.data "bundle contains duplicate (date, ticker) rows")
  refuseIf (∃ row ∈ frame, ∃ x ∈ row.volume :: row.prices, isFinite x = false)
    (LoadError.data "bundle contains missing or non-finite market values")
  refuseIf (∃ row ∈ frame, ∃ x ∈ row.prices, le x zero = true)
    (LoadError.data "bundle contains non-positive prices")
  refuseIf (∃ row ∈ frame, lt row.volume zero = true)
    (LoadError.data "bundle contains negative volume")
  refuseIf (∃ row ∈ frame, lt row.high row.low = true ∨ lt row.high row.open = true ∨
      lt row.open row.low = true ∨ lt row.high row.close = true ∨ lt row.close row.low = true)
    (LoadError.data "bundle violates OHLC bounds")
  checkTexts frame
  let calendars := (frame.filterMap (·.exchangeCalendar)).dedup.filter (· ∉ supportedCalendars)
  refuseIf (calendars ≠ []) (LoadError.unsupportedCalendars (sortedBy id calendars))
  let currencies := (frame.filterMap (·.currency)).dedup.filter (· ∉ supportedCurrencies)
  refuseIf (currencies ≠ []) (LoadError.unsupportedCurrencies (sortedBy id currencies))
  refuseIf (∃ row ∈ frame, row.ticker ≠ row.instrumentId)
    (LoadError.data "bundle ticker and instrument identity disagree")
  return sortedBy (fun row => toLex row.key) (frame.map RawRow.toSourceRow)

/-! ## Panels -/

def adjustedCloseStates : List String :=
  ["provider_adjusted_close_unadjusted_ohlc", "synthetic_fixture", "synthetic_benchmark"]

def unadjustedStates : List String := ["provider_unadjusted"]

section Panels

variable {F : Type} [PyFloat F]

namespace SourceRow

/-- The factor that turns the prices of a row into adjusted ones. -/
def factor (row : SourceRow F) : F := div row.adjClose row.close

/-- The bar of a row, with adjusted prices where its state asks for it. -/
def toBar (row : SourceRow F) : Bar F :=
  if row.adjustmentState ∈ adjustedCloseStates then
    { date := row.date
      symbol := row.ticker
      «open» := mul row.open row.factor
      high := mul row.high row.factor
      low := mul row.low row.factor
      close := mul row.close row.factor
      volume := row.volume }
  else
    { date := row.date
      symbol := row.ticker
      «open» := row.open
      high := row.high
      low := row.low
      close := row.close
      volume := row.volume }

end SourceRow

/-- One block of `_to_alphaforge_panel`. -/
def adjustBlock (state : String) (block : List (SourceRow F)) : Except LoadError (List (Bar F)) := do
  if state ∈ adjustedCloseStates then
    refuseIf (∃ row ∈ block, isFinite row.factor = false ∨ le row.factor zero = true)
      (LoadError.data "bundle contains an invalid adjustment factor")
  else
    refuseIf (state ∉ unadjustedStates) (LoadError.unsupportedState state)
  return block.map SourceRow.toBar

/-- Whether a float is NaN. -/
def isNaN (x : F) : Bool := !PyFloat.eq x x

/-- `validate_panel`. -/
def validatePanel (panel : List (Bar F)) : Except LoadError (List (Bar F)) := do
  let keys := panel.map fun bar => (bar.date, bar.symbol)
  refuseIf (¬ keys.Nodup) (LoadError.duplicateRows (keys.length - keys.dedup.length))
  refuseIf (∀ bar ∈ panel, isNaN bar.close = true) (LoadError.schema "close is entirely NaN")
  refuseIf (∃ bar ∈ panel, isNaN bar.close = false ∧ le bar.close zero = true)
    (LoadError.schema "non-positive close prices found")
  refuseIf (∀ bar ∈ panel, isNaN bar.volume = true) (LoadError.schema "volume is entirely NaN")
  let badHighLow := panel.filter fun bar => lt bar.high bar.low
  refuseIf (badHighLow ≠ []) (LoadError.highBelowLow badHighLow.length)
  return sortedBy (fun bar => toLex (bar.symbol, bar.date)) panel

/-- The groups of `source.groupby("adjustment_state", sort=True)`. -/
def adjustmentStates (source : List (SourceRow F)) : List String :=
  sortedBy id (source.map (·.adjustmentState)).dedup

def stateBlock (source : List (SourceRow F)) (state : String) : List (SourceRow F) :=
  source.filter (·.adjustmentState = state)

/-- `_to_alphaforge_panel`. -/
def toAlphaforgePanel (source : List (SourceRow F)) : Except LoadError (List (Bar F)) := do
  let blocks ← (adjustmentStates source).mapM fun state =>
    adjustBlock state (stateBlock source state)
  refuseIf (blocks = []) LoadError.noObjects
  validatePanel blocks.flatten

end Panels

/-! ## Decision sessions -/

section Decision

variable {F : Type}

/-- The dates of the rows. -/
def sessions (source : List (SourceRow F)) : List Instant := sortedBy id (source.map (·.date)).dedup

/-- The latest time at which a row of a session became effective. -/
def close (source : List (SourceRow F)) (date : Instant) : Instant :=
  ((source.filter (·.date = date)).map (·.effectiveAt)).max?.getD 0

/-- `session_closes`. -/
def sessionCloses (source : List (SourceRow F)) : List (Instant × Instant) :=
  sortedBy Prod.snd ((sessions source).map fun date => (date, close source date))

/-- The session at the position of an availability among the closes, if there is one. -/
def decisionDate (source : List (SourceRow F)) (availableAt : Instant) : Option Instant :=
  ((sessionCloses source)[searchsortedLeft ((sessionCloses source).map Prod.snd) availableAt]?).map
    Prod.fst

/-- The eligible rows, dated at their decision sessions. -/
def decisionSource (source : List (SourceRow F)) : List (SourceRow F) :=
  source.filterMap fun row => (decisionDate source row.availableAt).map fun date => { row with date }

variable [PyFloat F]

/-- The refusal of a frame none of whose rows has a decision session. -/
def noneUsable : LoadError :=
  .data "bundle contains no observations available by a represented decision session"

/-- The refusal of an as-of load that keeps no row. -/
def noneVisible : LoadError := .data "as-of cutoff excludes every bundle observation"

/-- `_to_decision_panel`. -/
def toDecisionPanel (source : List (SourceRow F)) : Except LoadError (List (Bar F)) := do
  refuseIf (decisionSource source = []) noneUsable
  refuseIf (¬ ((decisionSource source).map SourceRow.key).Nodup) (LoadError.data
    "availability mapping produces duplicate decision-session observations")
  toAlphaforgePanel (decisionSource source)

/-- The frames of a `SignalFoundryDataset`. -/
structure Dataset (F : Type) where
  sourcePanel : List (SourceRow F)
  panel : List (Bar F)
  decisionPanel : List (Bar F)
  asOf : Option Instant
  deriving DecidableEq

/-- The rows effective and available by an instant. -/
def visible (source : List (SourceRow F)) (cutoff : Instant) : List (SourceRow F) :=
  source.filter fun row => row.effectiveAt ≤ cutoff ∧ row.availableAt ≤ cutoff

/-- The rows that an as-of load keeps. -/
def asOfSource (source : List (SourceRow F)) (asOf : Option Instant) :
    Except LoadError (List (SourceRow F)) :=
  match asOf with
  | none => .ok source
  | some cutoff => do
      refuseIf (visible source cutoff = []) noneVisible
      return visible source cutoff

/-- The frames that `load_signal_foundry_dataset` builds from an accepted frame. -/
def loadDataset (source : List (SourceRow F)) (asOf : Option Instant) :
    Except LoadError (Dataset F) := do
  let sourcePanel ← asOfSource source asOf
  let panel ← toAlphaforgePanel sourcePanel
  let decisionPanel ← toDecisionPanel sourcePanel
  return { sourcePanel, panel, decisionPanel, asOf }

end Decision

end BundleData
