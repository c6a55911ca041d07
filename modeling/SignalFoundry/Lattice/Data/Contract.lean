import SignalFoundry.Lattice.Data.Bitemporal
import SignalFoundry.Library.Json.Basic

/-!
# The Signal Foundry bundle contract

The frame of market observations that a bundle holds, and the identity of the bundle:
a digest of the semantic manifest, which names every file by its digest. The files
themselves are written by a Parquet writer that is a function of the ordered frame.
-/

namespace MarketData

open Fallible

inductive ContractError where
  | contract (message : String)
  | dataValidation (errors : List String)
  | keyError (key : String)
  deriving DecidableEq, Repr

/-! ## Market observations -/

variable (F : Type)

/-- A row of a price panel; its session label is in nanoseconds. -/
structure PriceRow where
  date : ℤ
  ticker : Option String
  openPrice : F
  high : F
  low : F
  close : F
  adjClose : F
  volume : F
  temporal : TemporalCells
  instrumentId : Option String
  currency : Option String
  exchangeCalendar : Option String
  adjustmentState : Option String
  source : Option String
  sourceTable : Option String
  deriving DecidableEq

structure PriceRecord where
  date : ℤ
  ticker : String
  openPrice : F
  high : F
  low : F
  close : F
  adjClose : F
  volume : F
  times : Times
  instrumentId : String
  currency : String
  exchangeCalendar : String
  adjustmentState : String
  source : String
  sourceTable : String
  deriving DecidableEq

variable {F}

namespace PriceRow

def record (row : PriceRow F) : PriceRecord F where
  date := row.date
  ticker := row.ticker.getD ""
  openPrice := row.openPrice
  high := row.high
  low := row.low
  close := row.close
  adjClose := row.adjClose
  volume := row.volume
  times := row.temporal.times
  instrumentId := row.instrumentId.getD ""
  currency := row.currency.getD ""
  exchangeCalendar := row.exchangeCalendar.getD ""
  adjustmentState := row.adjustmentState.getD ""
  source := row.source.getD ""
  sourceTable := row.sourceTable.getD ""

/-- The columns of a market observation that must be unique. -/
def key (row : PriceRow F) : ℤ × Option String := (row.date, row.ticker)

def numbers (row : PriceRow F) : List F :=
  [row.openPrice, row.high, row.low, row.close, row.adjClose, row.volume]

end PriceRow

/-- The columns that `_coerce_contract_frame` sorts by. -/
def PriceRecord.sortKey (record : PriceRecord F) : ℤ ×ₗ String :=
  toLex (record.date, record.ticker)

/-- One column of `_strict_utc_column`. -/
def strictUtcColumn (column : String) (nullable : Bool) (cells : List Stamp) :
    Except ContractError Unit := do
  if nullable && cells.all (· = .missing) then return
  refuseIf (isAwareColumn cells = false) (ContractError.contract
    ("contract column '" ++ column ++ "' contains a timezone-ambiguous timestamp"))
  refuseIf (nullable = false ∧ cells.any (·.instant?.isNone) = true) (ContractError.contract
    ("contract column '" ++ column ++ "' contains a missing timestamp"))

section Panel

variable [PyFloat F]

def breaksBounds (row : PriceRow F) : Bool :=
  PyFloat.lt row.high row.low || PyFloat.lt row.high row.openPrice || PyFloat.lt row.openPrice row.low ||
    PyFloat.lt row.high row.close || PyFloat.lt row.close row.low

def isNonPositive (x : F) : Bool := PyFloat.le x PyFloat.zero

/-- The errors of one ticker in `validate_price_panel`. -/
def tickerErrors (ticker : String) (rows : List (PriceRow F)) : List String :=
  let nonPositive := (rows.flatMap fun row =>
    [row.openPrice, row.high, row.low, row.close, row.adjClose]).countP isNonPositive
  let crossed := rows.countP fun row => PyFloat.lt row.high row.low
  (if (rows.map PriceRow.date).Nodup then [] else
    ["[" ++ ticker ++ "] duplicate dates within ticker"]) ++
  (if nonPositive = 0 then [] else
    ["[" ++ ticker ++ "] " ++ toString nonPositive ++ " non-positive price values"]) ++
  if crossed = 0 then [] else
    ["[" ++ ticker ++ "] " ++ toString crossed ++ " rows with high < low"]

/-- `validate_price_panel` of a frame with the columns of the contract. -/
def validatePricePanel (rows : List (PriceRow F)) : Except ContractError Unit := do
  refuseIf (rows = []) (ContractError.dataValidation ["price panel is empty"])
  let duplicates := rows.countP fun row => decide (1 < (rows.map PriceRow.key).count row.key)
  let errors :=
    (if duplicates = 0 then [] else [toString duplicates ++ " duplicate (date, ticker) rows"]) ++
    (sortedBy id (rows.filterMap PriceRow.ticker).dedup).flatMap fun ticker =>
      tickerErrors ticker (rows.filter fun row => row.ticker = some ticker)
  refuseIf (errors ≠ []) (ContractError.dataValidation errors)

/-- The text columns of the contract. -/
def priceText : List (String × (PriceRow F → Option String)) :=
  [("ticker", PriceRow.ticker), ("instrument_id", PriceRow.instrumentId),
    ("currency", PriceRow.currency), ("exchange_calendar", PriceRow.exchangeCalendar),
    ("adjustment_state", PriceRow.adjustmentState), ("source", PriceRow.source),
    ("source_table", PriceRow.sourceTable)]

/-- The checks of `_coerce_contract_frame`. -/
def checkContractFrame (rows : List (PriceRow F)) : Except ContractError Unit := do
  let cells := rows.map PriceRow.temporal
  strictUtcColumn "effective_at" false (cells.map (·.effectiveAt))
  strictUtcColumn "available_at" false (cells.map (·.availableAt))
  strictUtcColumn "observed_at" false (cells.map (·.observedAt))
  strictUtcColumn "provider_updated_at" true (cells.map (·.providerUpdatedAt))
  let times := cells.map TemporalCells.times
  refuseIf (times.any (fun row => row.availableAt < row.effectiveAt) = true)
    (ContractError.contract "available_at precedes effective_at")
  refuseIf (times.any (fun row => row.observedAt < row.effectiveAt) = true)
    (ContractError.contract "observed_at precedes effective_at")
  refuseIf (times.any (fun row => row.observedAt < row.availableAt) = true)
    (ContractError.contract "observed_at precedes available_at")
  refuseIf (times.any (fun row => row.providerUpdatedAt.any (row.observedAt < ·)) = true)
    (ContractError.contract "provider_updated_at follows observed_at")
  refuseIf (¬ (rows.map PriceRow.key).Nodup)
    (ContractError.contract "contract frame has duplicate (date, ticker) keys")
  refuseIf (rows.any (fun row => row.numbers.any fun x => !PyFloat.isFinite x) = true)
    (ContractError.contract "contract OHLCV values must be finite")
  refuseIf (rows.any (fun row => PyFloat.lt row.volume PyFloat.zero) = true)
    (ContractError.contract "contract volume must be non-negative")
  refuseIf (rows.any breaksBounds = true)
    (ContractError.contract "contract data violates OHLC bounds")
  validatePricePanel rows
  priceText.forM fun column => refuseIf
    (rows.any (fun row => (column.2 row).all PyText.isBlank) = true)
    (ContractError.contract ("contract column '" ++ column.1 ++ "' contains empty values"))

/-- `_coerce_contract_frame`. -/
def coerceContractFrame (rows : List (PriceRow F)) :
    Except ContractError (List (PriceRecord F)) := do
  checkContractFrame rows
  return sortedBy PriceRecord.sortKey (rows.map PriceRow.record)

end Panel

/-! ## The source manifest -/

/-- What the bundle takes from the calendar and from the timestamp parser of pandas. -/
class FrameForms where
  year : ℤ → ℤ
  isoDate : ℤ → String
  /-- Whether a text is a timestamp with a timezone. -/
  isAwareTimestamp : String → Bool

section Manifest

variable (source : List (String × Json F))

def isSha256 (text : String) : Bool := PyText.isRun PyText.isHexDigit 64 text

def requireDigest (field : String) : Except ContractError Unit :=
  match source.lookup field with
  | some (.str text) => refuseIf (isSha256 text = false) (.contract
      ("source manifest " ++ field ++ " must be a lowercase SHA-256 digest"))
  | _ => .error (.contract
      ("source manifest " ++ field ++ " must be a lowercase SHA-256 digest"))

def requireNonEmptyText (field : String) : Except ContractError Unit :=
  match source.lookup field with
  | some (.str text) => refuseIf (PyText.isBlank text = true) (.contract
      ("source manifest has invalid " ++ field))
  | _ => .error (.contract ("source manifest has invalid " ++ field))

def limitNames : List String :=
  ["historical_revisions_complete", "universe_membership_point_in_time",
    "corporate_actions_complete"]

def isBoolean : Json F → Bool
  | .bool _ => true
  | _ => false

/-- `_validate_source_manifest`. -/
def validateSourceManifest : Except ContractError Unit := do
  match source.lookup "contains_api_key" with
  | some (.bool false) => .ok ()
  | _ => .error (ContractError.contract
      "source manifest must explicitly attest contains_api_key=false")
  requireDigest source "request_hash"
  requireDigest source "snapshot_hash"
  requireNonEmptyText source "provider"
  requireNonEmptyText source "retrieved_at"
  match source.lookup "request" with
  | some (.obj request) =>
      match request.lookup "table" with
      | some (.str _) => .ok ()
      | _ => .error (ContractError.contract "source manifest lacks a provider table identity")
  | _ => .error (ContractError.contract "source manifest lacks a provider table identity")
  match source.lookup "point_in_time_limits" with
  | some (.obj limits) => do
      refuseIf (¬ ∀ name, name ∈ limitNames ++ limits.map Prod.fst →
          name ∈ limitNames ∧ name ∈ limits.map Prod.fst)
        (ContractError.contract "source manifest must declare all point-in-time limitation flags")
      refuseIf (limits.any (fun m => !isBoolean m.2) = true)
        (ContractError.contract "point-in-time limitation flags must be boolean")
  | _ => .error (ContractError.contract
      "source manifest must declare all point-in-time limitation flags")
  match source.lookup "observations_redistributable" with
  | some (.bool _) | none => .ok ()
  | _ => .error (ContractError.contract "observations_redistributable must be boolean")

end Manifest

/-! ## Bundles -/

/-- The Parquet writer, as a function of the ordered rows. -/
structure ParquetWriter (F : Type) where
  prices : List (PriceRecord F) → List UInt8
  universeRecords : List UniverseRecord → List UInt8
  actions : List (ActionRecord F) → List UInt8

/-- `CONTRACT_COLUMNS`. -/
def contractColumns : List String :=
  ["date", "ticker", "open", "high", "low", "close", "adj_close", "volume", "effective_at",
    "available_at", "observed_at", "provider_updated_at", "instrument_id", "currency",
    "exchange_calendar", "adjustment_state", "source", "source_table"]

/-- `UNIVERSE_COLUMNS`. -/
def universeColumns : List String :=
  ["membership_id", "universe_id", "instrument_id", "ticker", "effective_at", "available_at",
    "observed_at", "provider_updated_at", "is_member", "reason", "source", "source_table"]

/-- `CORPORATE_ACTION_COLUMNS`. -/
def corporateActionColumns : List String :=
  ["action_id", "instrument_id", "ticker", "action_type", "effective_at", "available_at",
    "observed_at", "provider_updated_at", "cash_amount", "split_ratio", "currency", "old_ticker",
    "new_ticker", "adjustment_state", "source", "source_table"]

section Export

variable [PyRuntime] [FloatText F]

def sha256Text (bytes : List UInt8) : String := PyText.hexText (PyRuntime.sha256 bytes)

/-- `_canonical_json`. -/
def canonicalJson (value : Json F) : List UInt8 := PyText.encodeUtf8 value.dumps

def texts (l : List String) : Json F := .arr (l.map .str)

/-- `source_manifest.get(name)`. -/
def manifestField (source : List (String × Json F)) (name : String) : Json F :=
  (source.lookup name).getD .null

/-- `source_manifest.get(name, False)` of a checked flag. -/
def manifestFlag (source : List (String × Json F)) (name : String) : Bool :=
  match source.lookup name with
  | some (.bool flag) => flag
  | _ => false

variable [FrameForms] (writer : ParquetWriter F)

/-- The entries of the price partitions, one for each year. -/
def priceFiles (frame : List (PriceRecord F)) : List (Json F) :=
  (sortedBy id (frame.map fun record => FrameForms.year record.date).dedup).map fun year =>
    let partition := frame.filter fun record => FrameForms.year record.date = year
    .obj [("path", .str ("prices/year=" ++ toString year ++ "/part-00000.parquet")),
      ("sha256", .str (sha256Text (writer.prices partition))),
      ("rows", .int partition.length), ("year", .int year)]

/-- `_write_auxiliary_record_set`. -/
def auxiliaryFiles {R : Type} (family : String) (write : List R → List UInt8) (frame : List R) :
    List (Json F) :=
  if frame.isEmpty then [] else
    [.obj [("path", .str (family ++ "/part-00000.parquet")),
      ("sha256", .str (sha256Text (write frame))), ("rows", .int frame.length)]]

/-- The semantic manifest of a bundle, as a function of its ordered frames. -/
def semanticManifest (source : List (String × Json F)) (producerGitSha : String)
    (frame : List (PriceRecord F)) (universeFrame : List UniverseRecord)
    (actions : List (ActionRecord F)) : Json F :=
  let redistributable := manifestFlag source "observations_redistributable"
  let dates := sortedBy id (frame.map PriceRecord.date)
  .obj [("contract", .str "signal-foundry-market-data"),
    ("schema_version", .str "1.1.0"),
    ("source_snapshot_hash", manifestField source "snapshot_hash"),
    ("source_manifest_sha256", .str (sha256Text (canonicalJson (.obj source)))),
    ("producer_git_sha", .str producerGitSha),
    ("files", .arr (priceFiles writer frame)),
    ("columns", texts contractColumns),
    ("rows", .int frame.length),
    ("date_min", .str (FrameForms.isoDate (dates.headD 0))),
    ("date_max", .str (FrameForms.isoDate (dates.getLastD 0))),
    ("tickers", texts (sortedBy id (frame.map PriceRecord.ticker).dedup)),
    ("temporal_contract", .obj [("effective_at", .str "economic event time"),
      ("available_at", .str "earliest permitted research decision time"),
      ("observed_at", .str "provider retrieval time"),
      ("provider_updated_at", .str "provider revision metadata when available"),
      ("as_of_rule", .str "available_at <= decision timestamp")]),
    ("point_in_time_limits", manifestField source "point_in_time_limits"),
    ("license", .obj [("observations_redistributable", .bool redistributable),
      ("bundle_must_remain_local", .bool !redistributable),
      ("public_evidence_must_be_aggregate_or_synthetic", .bool !redistributable)]),
    ("source_provenance", .obj [("provider", manifestField source "provider"),
      ("table", match manifestField source "request" with
        | .obj request => manifestField request "table"
        | _ => .null),
      ("request_hash", manifestField source "request_hash"),
      ("snapshot_hash", manifestField source "snapshot_hash"),
      ("retrieved_at", manifestField source "retrieved_at"),
      ("adjustment_state", manifestField source "adjustment_state"),
      ("availability_policy", manifestField source "availability_policy")]),
    ("universe_files", .arr (auxiliaryFiles "universe" writer.universeRecords universeFrame)),
    ("universe_columns", texts universeColumns),
    ("universe_rows", .int universeFrame.length),
    ("corporate_action_files",
      .arr (auxiliaryFiles "corporate_actions" writer.actions actions)),
    ("corporate_action_columns", texts corporateActionColumns),
    ("corporate_action_rows", .int actions.length)]

/-- `_canonical_datetime` of the retrieval time. -/
def requireRetrievedAt (source : List (String × Json F)) : Except ContractError Unit :=
  match manifestField source "retrieved_at" with
  | .str text => refuseIf (FrameForms.isAwareTimestamp text = false)
      (.contract "source manifest has invalid retrieved_at")
  | _ => .error (.contract "source manifest has invalid retrieved_at")

/-- The `bundle_id` of `export_signal_foundry_bundle`. -/
def exportSignalFoundryBundle [PyFloat F] (source : List (String × Json F))
    (producerGitSha : String) (panel : List (PriceRow F)) (universeRows : List UniverseRow)
    (corporateActions : List (ActionRow F)) : Except ContractError String := do
  validateSourceManifest source
  requireRetrievedAt source
  let frame ← coerceContractFrame panel
  let universeFrame ← (coerceUniverseRecords universeRows).mapError fun error =>
    ContractError.contract error.message
  let actionFrame ← (coerceCorporateActionRecords corporateActions).mapError fun error =>
    ContractError.contract error.message
  return sha256Text (canonicalJson
    (semanticManifest writer source producerGitSha frame universeFrame actionFrame))

end Export

end MarketData
