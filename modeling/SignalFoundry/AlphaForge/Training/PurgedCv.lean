import SignalFoundry.Library.Fallible
import SignalFoundry.Library.Splitting
import Mathlib.Data.Int.Order.Basic
import Mathlib.Data.List.Sort

/-!
# Purged cross-validation

Splits of market sessions into training and test dates. Training sessions are dropped by
their distance to the test blocks, by the intervals of their labels, and by the boundary
of a final holdout.

A column holds `none` for a missing timestamp. A splitter is a generator: it yields some
splits, and may then raise.
-/

namespace PurgedCv

open Fallible Splitting

/-- A timezone-naive timestamp, in nanoseconds. -/
abbrev Timestamp := ℤ

def dayLength : ℤ := 86400 * 10 ^ 9

/-- `Timestamp.normalize`. -/
def normalize (t : Timestamp) : Timestamp := t / dayLength * dayLength

/-! ## Label events -/

structure LabelEvent where
  date : Option Timestamp
  requiredFutureStart : Option Timestamp
  requiredFutureEnd : Option Timestamp
  observable : Bool

/-- The dates of a label event, at midnight. -/
structure LabelInterval where
  date : Timestamp
  futureStart : Timestamp
  futureEnd : Timestamp

def LabelEvent.interval? (event : LabelEvent) : Option LabelInterval := do
  return ⟨normalize (← event.date), normalize (← event.requiredFutureStart),
    normalize (← event.requiredFutureEnd)⟩

/-- A series of timestamps by date. -/
abbrev EventEnds := List (Timestamp × Timestamp)

/-- The intervals of the observable events of a table. -/
def observedIntervals (labelEvents : Option (List LabelEvent)) : List LabelInterval :=
  ((labelEvents.getD []).filter (·.observable)).filterMap LabelEvent.interval?

/-- The ends of the intervals of one date. -/
def endsOn (intervals : List LabelInterval) (date : Timestamp) : List Timestamp :=
  (intervals.filter (·.date = date)).map (·.futureEnd)

/-- `event_end_by_date`. -/
def eventEndByDate (labelEvents : Option (List LabelEvent)) : Except String EventEnds := do
  let observed := (labelEvents.getD []).filter (·.observable)
  refuseIf (observed.any (·.date.isNone) = true) "date must be finite and timezone-naive"
  refuseIf (observed.any (·.requiredFutureStart.isNone) = true)
    "required_future_start must be finite and timezone-naive"
  refuseIf (observed.any (·.requiredFutureEnd.isNone) = true)
    "required_future_end must be finite and timezone-naive"
  let intervals := observed.filterMap LabelEvent.interval?
  refuseIf (∃ row ∈ intervals, row.futureStart ≤ row.date ∨ row.futureEnd < row.futureStart)
    "observable label intervals must satisfy date < future_start <= future_end"
  return ((intervals.map (·.date)).dedup.insertionSort (· ≤ ·)).map fun date =>
    (date, (endsOn intervals date).max?.getD date)

/-! ## Sessions -/

/-- `_unique_dates`. -/
def uniqueDates (dates : List (Option Timestamp)) : Except String (List Timestamp) := do
  refuseIf (dates = [] ∨ none ∈ dates) "dates must contain finite market-session labels"
  return ((dates.filterMap id).map normalize).dedup.insertionSort (· ≤ ·)

/-- `_development_dates`. -/
def developmentDates (dates : List Timestamp) (eventEnds : EventEnds)
    (finalHoldoutStart : Option Timestamp) :
    Except String (List Timestamp × Option Timestamp) :=
  match finalHoldoutStart with
  | none => .ok (dates, none)
  | some start => do
      let boundary := normalize start
      let development := dates.filter (· < boundary)
      refuseIf (development = [] ∨ development.length = dates.length)
        "final_holdout_start must split the supplied calendar"
      if eventEnds = [] then
        return (development, some boundary)
      else
        let contained := development.filter fun date => (eventEnds.lookup date).all (· < boundary)
        refuseIf (contained = []) "all development labels cross the final holdout boundary"
        return (contained, some boundary)

/-! ## Masks -/

/-- `_purged_train_mask`, at an index. -/
def purgedTrainMask (n : ℕ) (testBlocks : List (ℕ × ℕ)) (purge embargo i : ℕ) : Bool :=
  testBlocks.all fun block =>
    ! decide (block.1 - purge ≤ i ∧ i ≤ min (n - 1) (block.2 + purge + embargo))

/-- The end of the label interval of a date. -/
def effectiveEnd (eventEnds : EventEnds) (date : Timestamp) : Timestamp :=
  (eventEnds.lookup date).getD date

/-- `dates[start : end + 1]`. -/
def testDates (dates : List Timestamp) (block : ℕ × ℕ) : List Timestamp :=
  (dates.drop block.1).take (block.2 + 1 - block.1)

/-- `_exact_interval_mask`, at a date. -/
def exactIntervalMask (dates : List Timestamp) (testBlocks : List (ℕ × ℕ)) (eventEnds : EventEnds)
    (date : Timestamp) : Bool :=
  eventEnds = [] || testBlocks.all fun block =>
    let testEnd := ((testDates dates block).filterMap (eventEnds.lookup ·)).foldl max
      ((testDates dates block).max?.getD 0)
    let testStart := (testDates dates block).min?.getD 0
    ! (decide (date ≤ testEnd) && decide (testStart ≤ effectiveEnd eventEnds date))

/-- The mask of labels that end before the holdout, at a date. -/
def holdoutMask (eventEnds : EventEnds) (holdout : Option Timestamp) (date : Timestamp) : Bool :=
  holdout.all fun boundary => eventEnds = [] || (eventEnds.lookup date).all (· < boundary)

/-! ## Splitters -/

/-- The dates that a splitter yields. -/
structure Split where
  train : List Timestamp
  test : List Timestamp
  deriving DecidableEq

/-- What a generator yields, and what it then raises. -/
structure Yielded (α : Type) where
  splits : List α
  raised : Option String
  deriving DecidableEq

/-- A loop that yields the result of its body for each item. -/
def yieldEach {α β : Type} (body : β → Except String α) : List β → Yielded α
  | [] => ⟨[], none⟩
  | item :: items =>
      match body item with
      | .error e => ⟨[], some e⟩
      | .ok a => { yieldEach body items with splits := a :: (yieldEach body items).splits }

/-- The sessions that a splitter works on. -/
structure Development where
  sessions : List Timestamp
  eventEnds : EventEnds
  holdout : Option Timestamp

/-- The statements of `split` that read its arguments. -/
def Development.of (dates : List (Option Timestamp)) (labelEvents : Option (List LabelEvent))
    (finalHoldoutStart : Option Timestamp) : Except String Development := do
  let eventEnds ← eventEndByDate labelEvents
  let unique ← uniqueDates dates
  let (sessions, holdout) ← developmentDates unique eventEnds finalHoldoutStart
  return ⟨sessions, eventEnds, holdout⟩

/-- `(fold[0], fold[-1])`. -/
def blockOf (fold : List ℕ) : ℕ × ℕ := (fold.headD 0, fold.getLastD 0)

namespace Development

/-- The mask of the training sessions, at an index and its date. -/
def keeps (u : Development) (purge embargo : ℕ) (testBlocks : List (ℕ × ℕ)) (i : ℕ)
    (date : Timestamp) : Bool :=
  purgedTrainMask u.sessions.length testBlocks purge embargo i &&
    exactIntervalMask u.sessions testBlocks u.eventEnds date &&
    holdoutMask u.eventEnds u.holdout date

/-- `u[indices]`. -/
def take (u : Development) (indices : List ℕ) : List Timestamp :=
  indices.filterMap (u.sessions[·]?)

/-- The body of the loop of `split`, for folds that are tested together. -/
def cut (u : Development) (purge embargo : ℕ) (message : String) (folds : List (List ℕ)) :
    Except String Split := do
  let train := (List.range u.sessions.length).filter fun i =>
    (u.sessions[i]?).any (u.keeps purge embargo (folds.map blockOf) i)
  refuseIf (train = []) message
  return ⟨u.take train, u.take folds.flatten⟩

/-- `np.array_split(np.arange(len(u)), count)`. -/
def folds (u : Development) (count : ℕ) : List (List ℕ) :=
  arraySplit count (List.range u.sessions.length)

/-- The body of the loop of `split` over the chosen groups. -/
def cutGroups (u : Development) (count purge embargo : ℕ) (combo : List ℕ) :
    Except String (Split × List ℕ) := do
  let split ← u.cut purge embargo "purging removed every training session from a CPCV split"
    (combo.map fun c => (u.folds count).getD c [])
  return (split, combo)

end Development

structure PurgedKFold where
  nSplits : ℤ := 5
  purge : ℤ := 0
  embargo : ℤ := 0

namespace PurgedKFold

/-- The checks of `split`. -/
def prepare (cv : PurgedKFold) (dates : List (Option Timestamp))
    (labelEvents : Option (List LabelEvent)) (finalHoldoutStart : Option Timestamp) :
    Except String Development := do
  refuseIf (cv.nSplits < 2) "n_splits must be >= 2"
  refuseIf (cv.purge < 0 ∨ cv.embargo < 0) "purge and embargo must be non-negative"
  let u ← Development.of dates labelEvents finalHoldoutStart
  refuseIf (u.sessions.length < cv.nSplits)
    "n_splits cannot exceed the number of development sessions"
  return u

/-- `PurgedKFold.split`. -/
def split (cv : PurgedKFold) (dates : List (Option Timestamp))
    (labelEvents : Option (List LabelEvent)) (finalHoldoutStart : Option Timestamp) :
    Yielded Split :=
  match cv.prepare dates labelEvents finalHoldoutStart with
  | .error e => ⟨[], some e⟩
  | .ok u =>
      yieldEach (fun fold => u.cut cv.purge.toNat cv.embargo.toNat
        "purging removed every training session from a fold" [fold]) (u.folds cv.nSplits.toNat)

end PurgedKFold

/-- `MAX_TEMPORAL_FOLDS`. -/
def maxTemporalFolds : ℕ := 10000

structure CombinatorialPurgedCV where
  nGroups : ℤ := 8
  nTestGroups : ℤ := 2
  purge : ℤ := 0
  embargo : ℤ := 0

namespace CombinatorialPurgedCV

/-- `n_splits`. -/
def nSplits (cv : CombinatorialPurgedCV) : ℕ := cv.nGroups.toNat.choose cv.nTestGroups.toNat

/-- The checks of `split`. -/
def prepare (cv : CombinatorialPurgedCV) (dates : List (Option Timestamp))
    (labelEvents : Option (List LabelEvent)) (finalHoldoutStart : Option Timestamp) :
    Except String Development := do
  refuseIf (¬ (0 < cv.nTestGroups ∧ cv.nTestGroups < cv.nGroups))
    "need 0 < n_test_groups < n_groups"
  refuseIf (cv.purge < 0 ∨ cv.embargo < 0) "purge and embargo must be non-negative"
  refuseIf (maxTemporalFolds < cv.nSplits) "CPCV split count exceeds the 10,000-fold limit"
  let u ← Development.of dates labelEvents finalHoldoutStart
  refuseIf (u.sessions.length < cv.nGroups)
    "n_groups cannot exceed the number of development sessions"
  return u

/-- `CombinatorialPurgedCV.split`, with the groups that each split tests. -/
def split (cv : CombinatorialPurgedCV) (dates : List (Option Timestamp))
    (labelEvents : Option (List LabelEvent)) (finalHoldoutStart : Option Timestamp) :
    Yielded (Split × List ℕ) :=
  match cv.prepare dates labelEvents finalHoldoutStart with
  | .error e => ⟨[], some e⟩
  | .ok u =>
      yieldEach (u.cutGroups cv.nGroups.toNat cv.purge.toNat cv.embargo.toNat)
        (combinations cv.nTestGroups.toNat (List.range cv.nGroups.toNat))

end CombinatorialPurgedCV

end PurgedCv
