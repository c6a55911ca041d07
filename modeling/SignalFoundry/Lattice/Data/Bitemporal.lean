import Mathlib.Data.String.Basic
import SignalFoundry.Library.Fallible
import SignalFoundry.Library.Newest
import SignalFoundry.Library.PyFloat
import SignalFoundry.Library.PyRuntime

/-!
# Bitemporal records

Versioned universe-membership and corporate-action events, as rows that have been
checked column by column and put in order. The cells of a row are what a frame can
hold there: a text or nothing, a time with or without a timezone or nothing.
-/

namespace MarketData

open Fallible

/-- `BitemporalRecordError`. -/
structure BitemporalError where
  message : String
  deriving DecidableEq, Repr

/-! ## Columns -/

/-- A cell of a temporal column, in nanoseconds. -/
inductive Stamp where
  | missing
  | naive (ns : ℤ)
  | utc (ns : ℤ)
  deriving DecidableEq, Repr

namespace Stamp

/-- The instant of a cell with a timezone. -/
def instant? : Stamp → Option ℤ
  | utc ns => some ns
  | _ => none

def isNaive : Stamp → Bool
  | naive _ => true
  | _ => false

end Stamp

/-- The columns that both families share. -/
structure TemporalCells where
  effectiveAt : Stamp
  availableAt : Stamp
  observedAt : Stamp
  providerUpdatedAt : Stamp
  deriving DecidableEq, Repr

/-- The times of a record that has passed the checks. -/
structure Times where
  effectiveAt : ℤ
  availableAt : ℤ
  observedAt : ℤ
  providerUpdatedAt : Option ℤ
  deriving DecidableEq, Repr

def TemporalCells.times (cells : TemporalCells) : Times where
  effectiveAt := cells.effectiveAt.instant?.getD 0
  availableAt := cells.availableAt.instant?.getD 0
  observedAt := cells.observedAt.instant?.getD 0
  providerUpdatedAt := cells.providerUpdatedAt.instant?

/-- Whether a column is parsed to times with a timezone. One that mixes times with and
without is refused by the parser. -/
def isAwareColumn (column : List Stamp) : Bool :=
  column.all (fun cell => !cell.isNaive) && column.any fun cell => cell.instant?.isSome

/-- `_strict_utc`. -/
def strictUtc (family : String) (cells : List TemporalCells) : Except BitemporalError Unit := do
  let naiveError (column : String) : BitemporalError :=
    ⟨family ++ "." ++ column ++ " must contain explicit timezone-aware timestamps"⟩
  refuseIf (isAwareColumn (cells.map (·.effectiveAt)) = false) (naiveError "effective_at")
  refuseIf (isAwareColumn (cells.map (·.availableAt)) = false) (naiveError "available_at")
  refuseIf (isAwareColumn (cells.map (·.observedAt)) = false) (naiveError "observed_at")
  refuseIf (cells.any (fun row => row.providerUpdatedAt ≠ .missing) = true ∧
    isAwareColumn (cells.map (·.providerUpdatedAt)) = false) (naiveError "provider_updated_at")

/-- `_validate_temporal_order`. -/
def validateTemporalOrder (family : String) (cells : List TemporalCells) :
    Except BitemporalError Unit := do
  refuseIf (cells.any (fun row => row.effectiveAt.instant?.isNone ||
      row.availableAt.instant?.isNone || row.observedAt.instant?.isNone) = true)
    (BitemporalError.mk (family ++ " effective_at, available_at, and observed_at are required"))
  let times := cells.map TemporalCells.times
  refuseIf (times.any (fun row => row.observedAt < row.availableAt) = true)
    (BitemporalError.mk (family ++ " observed_at precedes available_at"))
  refuseIf (times.any (fun row => row.providerUpdatedAt.any (row.observedAt < ·)) = true)
    (BitemporalError.mk (family ++ " provider_updated_at follows observed_at"))

/-- One column of `_validate_text`. -/
def validateText {R : Type} (family : String) (rows : List R)
    (column : String × (R → Option String)) : Except BitemporalError Unit :=
  refuseIf (rows.any (fun row => (column.2 row).all PyText.isBlank) = true)
    ⟨family ++ "." ++ column.1 ++ " contains an empty value"⟩

/-! ## Universe records -/

/-- A row of a universe frame; `none` is a cell that is no boolean or no text. -/
structure UniverseRow where
  membershipId : Option String
  universeId : Option String
  instrumentId : Option String
  ticker : Option String
  temporal : TemporalCells
  isMember : Option Bool
  reason : Option String
  source : Option String
  sourceTable : Option String
  deriving DecidableEq, Repr

structure UniverseRecord where
  membershipId : String
  universeId : String
  instrumentId : String
  ticker : String
  times : Times
  isMember : Bool
  reason : String
  source : String
  sourceTable : String
  deriving DecidableEq, Repr

/-- `astype(str)` and `astype(bool)` of a row that has passed the checks. -/
def UniverseRow.record (row : UniverseRow) : UniverseRecord where
  membershipId := row.membershipId.getD ""
  universeId := row.universeId.getD ""
  instrumentId := row.instrumentId.getD ""
  ticker := row.ticker.getD ""
  times := row.temporal.times
  isMember := row.isMember.getD false
  reason := row.reason.getD ""
  source := row.source.getD ""
  sourceTable := row.sourceTable.getD ""

/-- The columns that `coerce_universe_records` sorts by. -/
def UniverseRecord.sortKey (record : UniverseRecord) : String ×ₗ String ×ₗ ℤ ×ₗ ℤ :=
  toLex (record.universeId, toLex (record.instrumentId,
    toLex (record.times.effectiveAt, record.times.availableAt)))

/-- The columns that make a revision. -/
def UniverseRecord.revision (record : UniverseRecord) : String × ℤ :=
  (record.membershipId, record.times.availableAt)

def universeText : List (String × (UniverseRow → Option String)) :=
  [("membership_id", UniverseRow.membershipId), ("universe_id", UniverseRow.universeId),
    ("instrument_id", UniverseRow.instrumentId), ("ticker", UniverseRow.ticker),
    ("reason", UniverseRow.reason), ("source", UniverseRow.source),
    ("source_table", UniverseRow.sourceTable)]

/-- The checks of `coerce_universe_records` on a frame that is not empty. -/
def checkUniverse (rows : List UniverseRow) : Except BitemporalError Unit := do
  let cells := rows.map UniverseRow.temporal
  strictUtc "universe" cells
  validateTemporalOrder "universe" cells
  universeText.forM (validateText "universe" rows)
  refuseIf (rows.any (fun row => row.isMember.isNone) = true)
    (BitemporalError.mk "universe.is_member must be boolean")
  refuseIf (¬ (rows.map fun row => row.record.revision).Nodup)
    (BitemporalError.mk "universe contains a duplicate (membership_id, available_at) revision")

/-- `coerce_universe_records`. -/
def coerceUniverseRecords (rows : List UniverseRow) :
    Except BitemporalError (List UniverseRecord) := do
  if rows = [] then return []
  checkUniverse rows
  return sortedBy UniverseRecord.sortKey (rows.map UniverseRow.record)

/-! ## Corporate actions -/

section CorporateActions

variable (F : Type)

/-- A row of a corporate-action frame; the numbers are those that `to_numeric` reads. -/
structure ActionRow where
  actionId : Option String
  instrumentId : Option String
  ticker : Option String
  actionType : Option String
  temporal : TemporalCells
  cashAmount : Option F
  splitRatio : Option F
  currency : Option String
  oldTicker : Option String
  newTicker : Option String
  adjustmentState : Option String
  source : Option String
  sourceTable : Option String
  deriving DecidableEq

structure ActionRecord where
  actionId : String
  instrumentId : String
  ticker : String
  actionType : String
  times : Times
  cashAmount : Option F
  splitRatio : Option F
  currency : String
  oldTicker : String
  newTicker : String
  adjustmentState : String
  source : String
  sourceTable : String
  deriving DecidableEq

variable {F}

def ActionRow.record (row : ActionRow F) : ActionRecord F where
  actionId := row.actionId.getD ""
  instrumentId := row.instrumentId.getD ""
  ticker := row.ticker.getD ""
  actionType := row.actionType.getD ""
  times := row.temporal.times
  cashAmount := row.cashAmount
  splitRatio := row.splitRatio
  currency := row.currency.getD ""
  oldTicker := row.oldTicker.getD ""
  newTicker := row.newTicker.getD ""
  adjustmentState := row.adjustmentState.getD ""
  source := row.source.getD ""
  sourceTable := row.sourceTable.getD ""

/-- The columns that `coerce_corporate_action_records` sorts by. -/
def ActionRecord.sortKey (record : ActionRecord F) : String ×ₗ ℤ ×ₗ ℤ :=
  toLex (record.instrumentId, toLex (record.times.effectiveAt, record.times.availableAt))

/-- The columns that make a revision. -/
def ActionRecord.revision (record : ActionRecord F) : String × ℤ :=
  (record.actionId, record.times.availableAt)

/-- `ACTION_TYPES`, in order. -/
def actionTypes : List String :=
  ["cash_dividend", "delisting", "merger", "spinoff", "split", "symbol_change"]

def actionText : List (String × (ActionRow F → Option String)) :=
  [("action_id", ActionRow.actionId), ("instrument_id", ActionRow.instrumentId),
    ("ticker", ActionRow.ticker), ("action_type", ActionRow.actionType),
    ("currency", ActionRow.currency), ("adjustment_state", ActionRow.adjustmentState),
    ("source", ActionRow.source), ("source_table", ActionRow.sourceTable)]

variable [PyFloat F]

/-- A number that is present and not positive. -/
def notPositive (value : Option F) : Bool := value.any fun x => PyFloat.le x PyFloat.zero

/-- The checks of `coerce_corporate_action_records` on a frame that is not empty. -/
def checkActions [PyRuntime] (rows : List (ActionRow F)) : Except BitemporalError Unit := do
  let cells := rows.map ActionRow.temporal
  strictUtc "corporate_actions" cells
  validateTemporalOrder "corporate_actions" cells
  actionText.forM (validateText "corporate_actions" rows)
  let records := rows.map ActionRow.record
  let invalid := (records.map (·.actionType)).filter (· ∉ actionTypes)
  refuseIf (invalid ≠ []) (BitemporalError.mk
    ("corporate_actions has unsupported action types: [" ++ ", ".intercalate
      ((sortedBy id invalid.dedup).map PyRuntime.strRepr) ++ "]"))
  refuseIf (records.any (fun record => notPositive record.cashAmount) = true)
    (BitemporalError.mk "corporate_actions.cash_amount must be positive when present")
  refuseIf (records.any (fun record => notPositive record.splitRatio) = true)
    (BitemporalError.mk "corporate_actions.split_ratio must be positive when present")
  refuseIf (records.any (fun record =>
      record.actionType = "split" && record.splitRatio.isNone) = true)
    (BitemporalError.mk "split actions require split_ratio")
  refuseIf (records.any (fun record =>
      record.actionType = "cash_dividend" && record.cashAmount.isNone) = true)
    (BitemporalError.mk "cash-dividend actions require cash_amount")
  refuseIf (records.any (fun record =>
      record.actionType = "symbol_change" && PyText.isBlank record.newTicker) = true)
    (BitemporalError.mk "symbol-change actions require new_ticker")
  refuseIf (¬ (records.map ActionRecord.revision).Nodup)
    (BitemporalError.mk
      "corporate_actions contains a duplicate (action_id, available_at) revision")

/-- `coerce_corporate_action_records`. -/
def coerceCorporateActionRecords [PyRuntime] (rows : List (ActionRow F)) :
    Except BitemporalError (List (ActionRecord F)) := do
  if rows.isEmpty then return []
  checkActions rows
  return sortedBy ActionRecord.sortKey (rows.map ActionRow.record)

end CorporateActions

/-! ## Visibility -/

/-- What `visible_revisions` reads of a row: its identity column and its times. -/
structure Versioned (R : Type) where
  identity : R → String
  times : R → Times

def universeVersions : Versioned UniverseRecord :=
  ⟨UniverseRecord.membershipId, UniverseRecord.times⟩

def actionVersions (F : Type) : Versioned (ActionRecord F) :=
  ⟨ActionRecord.actionId, ActionRecord.times⟩

/-- `frame["effective_at"].le(as_of) & frame["available_at"].le(as_of)`. -/
def Times.visible (times : Times) (asOf : ℤ) : Bool :=
  times.effectiveAt ≤ asOf && times.availableAt ≤ asOf

/-- `visible_revisions`. -/
def visibleRevisions {R : Type} (v : Versioned R) (frame : List R) (asOf : ℤ) : List R :=
  latestRevisions v.identity
    (fun row => toLex ((v.times row).availableAt, (v.times row).observedAt))
    (frame.filter fun row => (v.times row).visible asOf)

end MarketData

/-! ## What is visible at a decision

Of the records that are in effect and available at a decision time, the last revision
of each identity is returned. Both times are read before revisions are compared, so a
revision that moves the effective time past the decision does not hide an earlier one. -/

namespace MarketData

open Fallible

/-- A coerced record set: no identity has two revisions with one availability. -/
structure RecordSet {R : Type} (v : Versioned R) where
  rows : List R
  unique : (rows.map fun row => (v.identity row, (v.times row).availableAt)).Nodup

section Visible

variable {R : Type} {v : Versioned R}

theorem visible_eq_true_iff {times : Times} {asOf : ℤ} :
    times.visible asOf = true ↔ times.effectiveAt ≤ asOf ∧ times.availableAt ≤ asOf := by
  simp [Times.visible]

theorem mem_of_mem_visibleRevisions {frame : List R} {asOf : ℤ} {row : R}
    (h : row ∈ visibleRevisions v frame asOf) :
    row ∈ frame ∧ (v.times row).effectiveAt ≤ asOf ∧ (v.times row).availableAt ≤ asOf := by
  obtain ⟨hmem, hvisible⟩ := List.mem_filter.mp (mem_of_mem_latestRevisions h)
  exact ⟨hmem, visible_eq_true_iff.mp hvisible⟩

/-- No visible revision of the identity is available later. -/
theorem availableAt_le_of_mem_visibleRevisions {frame : List R} {asOf : ℤ} {row other : R}
    (h : row ∈ visibleRevisions v frame asOf) (hother : other ∈ frame)
    (hvisible : (v.times other).visible asOf = true)
    (hidentity : v.identity other = v.identity row) :
    (v.times other).availableAt ≤ (v.times row).availableAt := by
  have hle := clock_le_of_mem_latestRevisions h (List.mem_filter.mpr ⟨hother, hvisible⟩) hidentity
  rw [Prod.Lex.toLex_le_toLex] at hle
  exact hle.elim le_of_lt fun heq => heq.1.le

/-- Records that become available after the decision change nothing of the view. -/
theorem visibleRevisions_eq_of_later (records : RecordSet v) {frame later : List R} {asOf : ℤ}
    (hperm : frame.Perm (records.rows ++ later))
    (hlater : ∀ row ∈ later, asOf < (v.times row).availableAt) :
    visibleRevisions v frame asOf = visibleRevisions v records.rows asOf := by
  have hhidden : later.filter (fun row => (v.times row).visible asOf) = [] := by
    refine List.filter_eq_nil_iff.mpr fun row hrow hvisible => ?_
    exact absurd (visible_eq_true_iff.mp hvisible).2 (not_le.mpr (hlater row hrow))
  have hfilter := hperm.filter fun row => (v.times row).visible asOf
  rw [List.filter_append, hhidden, List.append_nil] at hfilter
  refine (latestRevisions_eq_of_perm hfilter.symm fun a ha b hb hidentity hclock => ?_).symm
  have havailable := congrArg Prod.fst (toLex.injective hclock)
  exact List.inj_on_of_nodup_map records.unique (List.mem_of_mem_filter ha)
    (List.mem_of_mem_filter hb) (Prod.ext hidentity havailable)

/-- The view of a record set: at most one row of each identity, each in effect and
available, none with a later revision that is in effect and available too, and none
changed by records that become available after the decision. -/
theorem visible_revisions_not_superseded (records : RecordSet v) (asOf : ℤ) :
    ((visibleRevisions v records.rows asOf).map v.identity).Nodup ∧
    (∀ row ∈ visibleRevisions v records.rows asOf, row ∈ records.rows ∧
      (v.times row).effectiveAt ≤ asOf ∧ (v.times row).availableAt ≤ asOf ∧
      ∀ other ∈ records.rows, v.identity other = v.identity row →
        (v.times other).effectiveAt ≤ asOf → (v.times other).availableAt ≤ asOf →
          (v.times other).availableAt ≤ (v.times row).availableAt) ∧
    ∀ (extended : RecordSet v) (later : List R), extended.rows.Perm (records.rows ++ later) →
      (∀ row ∈ later, asOf < (v.times row).availableAt) →
        visibleRevisions v extended.rows asOf = visibleRevisions v records.rows asOf := by
  refine ⟨nodup_map_latestRevisions _ _ _, fun row hrow => ?_,
    fun extended later hperm hlater => visibleRevisions_eq_of_later records hperm hlater⟩
  obtain ⟨hmem, heffective, havailable⟩ := mem_of_mem_visibleRevisions hrow
  refine ⟨hmem, heffective, havailable, fun other hother hidentity heffect havail => ?_⟩
  exact availableAt_le_of_mem_visibleRevisions hrow hother
    (visible_eq_true_iff.mpr ⟨heffect, havail⟩) hidentity

end Visible

/-! ## Coerced record sets -/

theorem nodup_of_coerceUniverseRecords {rows : List UniverseRow} {records : List UniverseRecord}
    (h : coerceUniverseRecords rows = .ok records) :
    (records.map UniverseRecord.revision).Nodup := by
  unfold coerceUniverseRecords at h
  split at h
  · cases h
    exact List.nodup_nil
  · obtain ⟨_, hcheck, h⟩ := bind_eq_ok_iff.mp h
    cases h
    simp only [checkUniverse, bind_eq_ok_iff, refuseIf_eq_ok_iff, not_not] at hcheck
    obtain ⟨-, -, -, -, -, -, -, -, hnodup⟩ := hcheck
    rw [((perm_sortedBy _ _).map _).nodup_iff, List.map_map]
    exact hnodup

theorem nodup_of_coerceCorporateActionRecords [PyRuntime] {F : Type} [PyFloat F]
    {rows : List (ActionRow F)} {records : List (ActionRecord F)}
    (h : coerceCorporateActionRecords rows = .ok records) :
    (records.map ActionRecord.revision).Nodup := by
  unfold coerceCorporateActionRecords at h
  split at h
  · cases h
    exact List.nodup_nil
  · obtain ⟨_, hcheck, h⟩ := bind_eq_ok_iff.mp h
    cases h
    simp only [checkActions, bind_eq_ok_iff, refuseIf_eq_ok_iff, not_not] at hcheck
    obtain ⟨-, -, -, -, -, -, -, -, -, -, -, -, -, -, -, -, -, -, hnodup⟩ := hcheck
    rw [((perm_sortedBy _ _).map _).nodup_iff]
    exact hnodup

/-- The record set that `coerce_universe_records` returns. -/
def RecordSet.ofUniverse {rows : List UniverseRow} {records : List UniverseRecord}
    (h : coerceUniverseRecords rows = .ok records) : RecordSet universeVersions :=
  ⟨records, nodup_of_coerceUniverseRecords h⟩

/-- The record set that `coerce_corporate_action_records` returns. -/
def RecordSet.ofActions [PyRuntime] {F : Type} [PyFloat F] {rows : List (ActionRow F)}
    {records : List (ActionRecord F)} (h : coerceCorporateActionRecords rows = .ok records) :
    RecordSet (actionVersions F) :=
  ⟨records, nodup_of_coerceCorporateActionRecords h⟩

/-! ## A membership that is moved -/

/-- A revision of one membership. -/
def membershipRow (effectiveAt availableAt : ℤ) : UniverseRow where
  membershipId := some "M-1"
  universeId := some "US"
  instrumentId := some "AAA"
  ticker := some "AAA"
  temporal := ⟨.utc effectiveAt, .utc availableAt, .utc availableAt, .missing⟩
  isMember := some true
  reason := some "added"
  source := some "vendor"
  sourceTable := some "members"

/-- A membership of time 10 is moved at time 20 to time 100; at time 50 the view still
shows the first revision. -/
theorem moved_membership_still_visible :
    ∃ records, coerceUniverseRecords [membershipRow 10 10, membershipRow 100 20] = .ok records ∧
      ∃ row ∈ visibleRevisions universeVersions records 50, ∃ other ∈ records,
        other.membershipId = row.membershipId ∧
          row.times.availableAt < other.times.availableAt ∧ other.times.availableAt ≤ 50 := by
  refine ⟨[(membershipRow 10 10).record, (membershipRow 100 20).record], by decide,
    (membershipRow 10 10).record, by decide, (membershipRow 100 20).record, ?_⟩
  decide

end MarketData
