import Mathlib.Algebra.BigOperators.Group.List.Basic
import Mathlib.Algebra.Order.Field.Basic
import Mathlib.Data.List.Dedup
import Mathlib.Data.String.Basic
import SignalFoundry.Library.Fallible
import SignalFoundry.Library.PyRuntime
import SignalFoundry.Library.StableSort

/-!
# Label contracts

`build_label_set` computes the labels of every tradable symbol by position in its own
sessions, and records for each the event interval that it reads. A value that is NaN is
`none`; arithmetic is exact, so no value is infinite.
-/

namespace SignalFoundry.Labels

open Fallible

def maxHorizonSessions : ℕ := 2520

def maxLabelDefinitions : ℕ := 64

def maxLabelCells : ℕ := 50000000

def maxTripleBarrierEvaluations : ℕ := 50000000

def maxPanelRows : ℕ := 10000000

/-- An ASCII identifier of letters, numbers and underscores. -/
def isLabelName (name : String) : Bool :=
  name ≠ "" && name.length ≤ 128 && name.toList.all fun c => PyText.isAlnumAscii c || c = '_'

/-- A non-empty, trimmed ASCII identifier. -/
def isSymbol (text : String) : Bool :=
  text ≠ "" && PyText.isStripped text && text.toList.all fun c => c.toNat < 128

/-! ## Contracts -/

inductive SideSource where
  | laggedReturn
  | column (name : String)

/-- A label kind with its parameters. -/
inductive LabelKind (K : Type) where
  | regression
  | classification
  | threshold (threshold : K)
  | quantile (quantiles : ℕ)
  | tripleBarrier (upper lower : K)
  | volatilityScaled (window : ℕ)
  | metaLabel (threshold : K) (side : SideSource)

inductive OverlapPolicy where
  | allow
  | nonOverlapping
  deriving DecidableEq

section Contracts

variable {K : Type} [Field K] [LinearOrder K]

/-- The parameters that `__post_init__` accepts. -/
def LabelKind.Valid : LabelKind K → Prop
  | .regression => True
  | .classification => True
  | .threshold value => 0 ≤ value
  | .quantile quantiles => 2 ≤ quantiles ∧ quantiles ≤ 20
  | .tripleBarrier upper lower => 0 < upper ∧ 0 < lower
  | .volatilityScaled window => 2 ≤ window
  | .metaLabel value _ => 0 ≤ value

structure LabelDefinition (K : Type) [Field K] [LinearOrder K] where
  name : String
  kind : LabelKind K
  horizon : ℕ
  overlapPolicy : OverlapPolicy
  name_valid : isLabelName name = true
  kind_valid : kind.Valid
  horizon_mem : 0 < horizon ∧ horizon ≤ maxHorizonSessions

/-- A contract. That no label overwrites a key column of the values is not checked by the code. -/
structure LabelContract (K : Type) [Field K] [LinearOrder K] where
  benchmarkSymbol : String
  definitions : List (LabelDefinition K)
  protectedBoundaries : List ℤ
  benchmark_valid : isSymbol benchmarkSymbol = true ∧ benchmarkSymbol.length ≤ 128
  length_definitions : 1 ≤ definitions.length ∧ definitions.length ≤ maxLabelDefinitions
  nodup_names : (definitions.map (·.name)).Nodup
  names_ne_keys : ∀ definition ∈ definitions, definition.name ≠ "date" ∧ definition.name ≠ "symbol"
  sorted_boundaries : protectedBoundaries.Pairwise (· < ·)

/-- `max(definition.horizon for definition in contract.definitions)`. -/
def LabelContract.maxHorizon (contract : LabelContract K) : ℕ :=
  (contract.definitions.map (·.horizon)).foldr max 0

/-! ## Panels -/

/-- A row of the panel, on a session date. A close that is not finite is `none`, and so is a
side that is no number. -/
structure PanelRow (K : Type) where
  date : ℤ
  symbol : String
  close : Option K
  side : String → Option K

/-- A panel; its other columns can be side columns. -/
structure Panel (K : Type) where
  columns : List String
  rows : List (PanelRow K)

/-- A validated row. -/
structure Session (K : Type) where
  date : ℤ
  symbol : String
  close : K
  side : String → Option K

/-- A row of the events; `label` is the name of its definition. -/
structure Event where
  date : ℤ
  symbol : String
  label : String
  requiredFutureStart : Option ℤ
  requiredFutureEnd : Option ℤ
  observable : Bool
  deriving DecidableEq, Repr

/-- `LabelContractError`, and `LabelBoundaryError` as `boundary`. -/
inductive LabelError where
  | panelSize
  | symbols
  | duplicates
  | closes
  | benchmarkUnavailable
  | benchmarkHistory
  | symbolHistory (symbol : String)
  | unavailableCloses (symbol : String) (count : ℕ) (first : Option ℤ)
  | sideUnavailable (column : String)
  | sideValues (column : String)
  | noTradable
  | cells (count : ℕ)
  | tripleBarrierBudget
  | boundary (event : Event) (boundary : ℤ)
  deriving DecidableEq, Repr

def PanelRow.session (row : PanelRow K) : Session K :=
  ⟨row.date, row.symbol, row.close.getD 0, row.side⟩

/-- The dates of a symbol, sorted and unique. -/
def datesOf (rows : List (PanelRow K)) (symbol : String) : List ℤ :=
  ((rows.filter (·.symbol = symbol)).map (·.date)).dedup.insertionSort (· ≤ ·)

/-- The symbols of some rows, sorted and unique. -/
def sortedSymbols (symbols : List String) : List String := symbols.dedup.insertionSort (· ≤ ·)

/-- The calendar check of a symbol. -/
def checkSymbol (maxHorizon : ℕ) (benchmarkDates dates : List ℤ) (symbol : String) :
    Except LabelError Unit := do
  refuseIf (dates.length ≤ maxHorizon) (.symbolHistory symbol)
  let unavailable := benchmarkDates.filter fun date =>
    dates.head?.any (· ≤ date) ∧ dates.getLast?.any (date ≤ ·) ∧ date ∉ dates
  refuseIf (unavailable ≠ []) (.unavailableCloses symbol unavailable.length unavailable.head?)

/-- The side check of a definition. -/
def checkSide (panel : Panel K) (benchmark : String) (definition : LabelDefinition K) :
    Except LabelError Unit :=
  match definition.kind with
  | .metaLabel _ (.column name) => do
      refuseIf (name ∉ panel.columns) (.sideUnavailable name)
      refuseIf (¬∀ row ∈ panel.rows, row.symbol ≠ benchmark →
        row.side name = some 1 ∨ row.side name = some (-1)) (.sideValues name)
  | _ => .ok ()

/-- `_validate_panel`. -/
def validatePanel (panel : Panel K) (contract : LabelContract K) :
    Except LabelError (List (Session K)) := do
  refuseIf (panel.rows.length = 0 ∨ maxPanelRows < panel.rows.length) .panelSize
  refuseIf (¬∀ row ∈ panel.rows, isSymbol row.symbol = true) .symbols
  refuseIf (¬(panel.rows.map fun row => (row.date, row.symbol)).Nodup) .duplicates
  refuseIf (¬∀ row ∈ panel.rows, row.close.any (0 < ·) = true) .closes
  refuseIf (contract.benchmarkSymbol ∉ panel.rows.map (·.symbol)) .benchmarkUnavailable
  let benchmarkDates := datesOf panel.rows contract.benchmarkSymbol
  refuseIf (benchmarkDates.length ≤ contract.maxHorizon) .benchmarkHistory
  (sortedSymbols (panel.rows.map (·.symbol))).forM fun symbol =>
    checkSymbol contract.maxHorizon benchmarkDates (datesOf panel.rows symbol) symbol
  contract.definitions.forM (checkSide panel contract.benchmarkSymbol)
  .ok (sortedBy (·.symbol) (sortedBy (·.date) (panel.rows.map PanelRow.session)))

/-! ## Values -/

section Values

variable (group : List (Session K))

/-- The close at a position. -/
def closeAt (position : ℕ) : Option K := group[position]?.map (·.close)

/-- `_future_return`. -/
def futureReturn (horizon position : ℕ) : Option K := do
  let now ← closeAt group position
  let later ← closeAt group (position + horizon)
  some (later / now - 1)

/-- `close.pct_change()`. -/
def pctChange : ℕ → Option K
  | 0 => none
  | position + 1 => do
      let before ← closeAt group position
      let now ← closeAt group (position + 1)
      some (now / before - 1)

/-- `_triple_barrier`. -/
def tripleBarrier (upper lower : K) (horizon position : ℕ) : Option K :=
  if position + horizon < group.length then
    (closeAt group position).map fun now =>
      let path := ((group.drop (position + 1)).take horizon).map fun later => later.close / now - 1
      let firstUpper := path.findIdx fun r => upper ≤ r
      let firstLower := path.findIdx fun r => r ≤ -lower
      if firstUpper < firstLower then 1 else if firstLower < firstUpper then -1 else 0
  else none

/-- `.std(ddof=1)`. -/
def sampleStd (sqrt : K → K) (values : List K) : K :=
  let mean := values.sum / (values.length : K)
  sqrt ((values.map fun x => (x - mean) ^ 2).sum / ((values.length : K) - 1))

/-- The rolling deviation of the changes; a window that is not full has none. -/
def trailingVol (sqrt : K → K) (window position : ℕ) : Option K := do
  let changes ← (List.range window).mapM fun i => pctChange group (position - i)
  some (sampleStd sqrt changes)

def sideAt : SideSource → ℕ → Option K
  | .laggedReturn, position => do
      let change ← pctChange group position
      if change = 0 then none else some (if 0 < change then 1 else -1)
  | .column name, position => group[position]?.bind (·.side name)

/-- `_definition_values` at a position. -/
def definitionValue (sqrt : K → K) (definition : LabelDefinition K) (position : ℕ) : Option K :=
  let forward := futureReturn group definition.horizon position
  match definition.kind with
  | .regression => forward
  | .quantile _ => forward
  | .classification => forward.map fun r => if 0 < r then 1 else 0
  | .threshold threshold => forward.map fun r =>
      if threshold < r then 1 else if r < -threshold then -1 else 0
  | .tripleBarrier upper lower => tripleBarrier group upper lower definition.horizon position
  | .volatilityScaled window => do
      let vol ← trailingVol group sqrt window position
      let horizonVol := vol * sqrt (definition.horizon : K)
      let r ← forward
      if horizonVol = 0 then none else some (r / horizonVol)
  | .metaLabel threshold side => do
      let s ← sideAt group side position
      let r ← forward
      some (if threshold < s * r then 1 else 0)

/-! ## Events -/

/-- `required_future_end`. -/
def requiredEnd (definition : LabelDefinition K) (position : ℕ) : Option ℤ :=
  group[position + definition.horizon]?.map (·.date)

/-- `observable`. -/
def observable (definition : LabelDefinition K) (position : ℕ) : Bool :=
  (requiredEnd group definition position).isSome &&
    (definition.overlapPolicy = .allow || position % definition.horizon = 0)

/-- `_event_frame`. -/
def eventFrame (definition : LabelDefinition K) : List Event :=
  group.zipIdx.map fun site =>
    ⟨site.1.date, site.1.symbol, definition.name, group[site.2 + 1]?.map (·.date),
      requiredEnd group definition site.2, observable group definition site.2⟩

/-- A value of a label column. -/
structure Cell (K : Type) where
  date : ℤ
  symbol : String
  value : Option K
  deriving DecidableEq, Repr

/-- The column of a definition in the frame of a symbol. -/
def frameColumn (sqrt : K → K) (definition : LabelDefinition K) : List (Cell K) :=
  group.zipIdx.map fun site => ⟨site.1.date, site.1.symbol,
    if definition.overlapPolicy = .nonOverlapping ∧ observable group definition site.2 = false
    then none else definitionValue group sqrt definition site.2⟩

end Values

/-! ## Quantiles -/

/-- A value of a date ranks at or before another: ties are in the order of the rows, which
are sorted by their symbols. -/
def Cell.ranksUpTo (cell other : Cell K) : Bool :=
  match other.value, cell.value with
  | some w, some v => w < v || (w = v && other.symbol ≤ cell.symbol)
  | _, _ => false

/-- `np.ceil(rank * quantiles / count).clip(lower=1, upper=quantiles)`. -/
def bucket (quantiles count rank : ℕ) : ℕ :=
  max 1 (min quantiles ((rank * quantiles + count - 1) / count))

/-- `_quantile_labels` for a value of a date. -/
def quantileLabel (quantiles : ℕ) (series : List (Cell K)) (cell : Cell K) : Option K :=
  let count := series.countP (·.value.isSome)
  if count < quantiles then none
  else cell.value.map fun _ => (bucket quantiles count (series.countP cell.ranksUpTo) : K)

/-- The labels of a column by date. -/
def quantileColumn (quantiles : ℕ) (column : List (Cell K)) : List (Cell K) :=
  column.map fun cell =>
    { cell with value := quantileLabel quantiles (column.filter (·.date = cell.date)) cell }

/-! ## Label sets -/

/-- The sessions of a symbol by date. -/
def groupOf (sessions : List (Session K)) (symbol : String) : List (Session K) :=
  sortedBy (·.date) (sessions.filter (·.symbol = symbol))

/-- The concatenated frames, sorted by date and symbol. -/
def rawColumn (sqrt : K → K) (sessions : List (Session K)) (definition : LabelDefinition K) :
    List (Cell K) :=
  sortedBy (·.date) (sortedBy (·.symbol)
    ((sortedSymbols (sessions.map (·.symbol))).flatMap fun symbol =>
      frameColumn (groupOf sessions symbol) sqrt definition))

/-- The values of a definition. -/
def valueColumn (sqrt : K → K) (sessions : List (Session K)) (definition : LabelDefinition K) :
    List (Cell K) :=
  match definition.kind with
  | .quantile quantiles => quantileColumn quantiles (rawColumn sqrt sessions definition)
  | _ => rawColumn sqrt sessions definition

/-- The event frames, sorted by label, symbol and date. -/
def eventTable (sessions : List (Session K)) (definitions : List (LabelDefinition K)) :
    List Event :=
  sortedBy (·.label) (sortedBy (·.symbol) (sortedBy (·.date)
    ((sortedSymbols (sessions.map (·.symbol))).flatMap fun symbol =>
      definitions.flatMap fun definition => eventFrame (groupOf sessions symbol) definition)))

/-- An observable event that starts before a boundary and ends on or after it. -/
def Event.crosses (event : Event) (boundary : ℤ) : Bool :=
  event.observable && event.date < boundary && event.requiredFutureEnd.any (boundary ≤ ·)

/-- `_reject_boundary_crossings`. -/
def rejectBoundaryCrossings (events : List Event) (boundaries : List ℤ) : Except LabelError Unit :=
  boundaries.forM fun boundary =>
    match events.find? (·.crosses boundary) with
    | none => .ok ()
    | some event => .error (.boundary event boundary)

structure LabelDataset (K : Type) [Field K] [LinearOrder K] where
  values : LabelDefinition K → List (Cell K)
  events : List Event

def tripleBarrierEvaluations (definitions : List (LabelDefinition K)) : ℕ :=
  (definitions.map fun definition =>
    match definition.kind with
    | .tripleBarrier _ _ => definition.horizon
    | _ => 0).sum

/-- `build_label_set`. -/
def buildLabelSet (sqrt : K → K) (panel : Panel K) (contract : LabelContract K) :
    Except LabelError (LabelDataset K) := do
  let validated ← validatePanel panel contract
  let tradable := validated.filter (·.symbol ≠ contract.benchmarkSymbol)
  refuseIf (tradable.length = 0) .noTradable
  refuseIf (maxLabelCells < tradable.length * contract.definitions.length)
    (.cells (tradable.length * contract.definitions.length))
  refuseIf (maxTripleBarrierEvaluations <
    tradable.length * tripleBarrierEvaluations contract.definitions) .tripleBarrierBudget
  let events := eventTable tradable contract.definitions
  rejectBoundaryCrossings events contract.protectedBoundaries
  .ok ⟨valueColumn sqrt tradable, events⟩

end Contracts

end SignalFoundry.Labels
