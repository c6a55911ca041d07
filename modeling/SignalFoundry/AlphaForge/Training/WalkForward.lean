import SignalFoundry.Library.Fallible
import SignalFoundry.Library.StableSort
import Mathlib.Data.List.Dedup

/-!
# Walk-forward splits

Training and test windows over a sorted list of sessions, at indices that a loop
advances by a configured step. The configuration is a record of integers; only the
embargo and the scheme are checked. Sessions are read as a sequence is read in Python:
a negative index counts from the end.
-/

namespace WalkForward

open Fallible

structure WalkForwardConfig where
  scheme : String := "expanding"
  minTrainDays : ℤ := 756
  testDays : ℤ := 126
  stepDays : ℤ := 126
  embargoDays : ℤ := 21
  maxWindows : Option ℤ := none
  deriving DecidableEq, Repr

structure WalkForwardWindow where
  windowId : ℕ
  trainStart : ℤ
  trainEnd : ℤ
  testStart : ℤ
  testEnd : ℤ
  embargoDays : ℤ
  deriving DecidableEq, Repr

inductive SplitError where
  | value (message : String)
  | index
  deriving DecidableEq, Repr

/-- The position that an index names in a sequence of `n` items. -/
def position? (n : ℕ) (i : ℤ) : Option ℕ :=
  if 0 ≤ i then
    if i < n then some i.toNat else none
  else if 0 ≤ n + i then some (n + i).toNat else none

/-- `sequence[i]`. -/
def item? (l : List ℤ) (i : ℤ) : Option ℤ := (position? l.length i).bind (l[·]?)

namespace WalkForwardConfig

variable (cfg : WalkForwardConfig)

/-- The test index at which the loop starts. -/
def firstTest : ℤ := cfg.minTrainDays + cfg.embargoDays

def trainEndIdx (i : ℤ) : ℤ := i - cfg.embargoDays - 1

def testEndIdx (n : ℕ) (i : ℤ) : ℤ := min (i + cfg.testDays - 1) (n - 1)

def trainStartIdx (i : ℤ) : ℤ :=
  if cfg.scheme = "rolling" then max 0 (cfg.trainEndIdx i - cfg.minTrainDays + 1) else 0

def trainLen (i : ℤ) : ℤ := cfg.trainEndIdx i - cfg.trainStartIdx i + 1

/-- Whether a window is appended at a test index. -/
def Appends (n : ℕ) (i : ℤ) : Prop :=
  cfg.minTrainDays ≤ cfg.trainLen i ∧ i ≤ cfg.testEndIdx n i

instance (n : ℕ) (i : ℤ) : Decidable (cfg.Appends n i) :=
  inferInstanceAs (Decidable (_ ∧ _))

/-- Whether `max_windows` stops the loop after a number of windows. -/
def Full (count : ℕ) : Prop := ∃ limit ∈ cfg.maxWindows, limit ≤ count

instance (count : ℕ) : Decidable (cfg.Full count) :=
  decidable_of_iff (cfg.maxWindows.any fun limit : ℤ => limit ≤ count) (by
    rw [Full]
    cases cfg.maxWindows <;> simp)

/-- The window at a test index, unless one of its sessions is out of range. -/
def window? (sessions : List ℤ) (i : ℤ) (id : ℕ) : Option WalkForwardWindow := do
  let trainStart ← item? sessions (cfg.trainStartIdx i)
  let trainEnd ← item? sessions (cfg.trainEndIdx i)
  let testStart ← item? sessions i
  let testEnd ← item? sessions (cfg.testEndIdx sessions.length i)
  return ⟨id, trainStart, trainEnd, testStart, testEnd, cfg.embargoDays⟩

/-- The loop of `make_walk_forward_splits`; `none` when the fuel does not reach its end. -/
def splitLoop (sessions : List ℤ) : ℕ → ℤ → List WalkForwardWindow →
    Option (Except SplitError (List WalkForwardWindow))
  | 0, _, _ => none
  | fuel + 1, i, windows =>
      if i < sessions.length then
        if cfg.Appends sessions.length i then
          match cfg.window? sessions i windows.length with
          | none => some (.error .index)
          | some window =>
              if cfg.Full (windows.length + 1) then some (.ok (windows ++ [window]))
              else splitLoop sessions fuel (i + cfg.stepDays) (windows ++ [window])
        else splitLoop sessions fuel (i + cfg.stepDays) windows
      else some (.ok windows)

/-- The checks of `make_walk_forward_splits`. -/
def check (maxHorizon : Option ℤ) : Except SplitError Unit := do
  refuseIf (cfg.embargoDays < 0) (SplitError.value "embargo_days must be non-negative")
  maxHorizon.toList.forM fun horizon => refuseIf (cfg.embargoDays < horizon)
    (SplitError.value ("embargo_days (" ++ toString cfg.embargoDays ++
      ") must be >= max label horizon (" ++ toString horizon ++ ")"))
  refuseIf (cfg.scheme ∉ ["expanding", "rolling"])
    (SplitError.value "walk-forward scheme must be 'expanding' or 'rolling'")

end WalkForwardConfig

/-- The distinct dates in order. -/
def uniqueDates (dates : List ℤ) : List ℤ := sortedBy id dates.dedup

/-- `make_walk_forward_splits`. -/
def makeWalkForwardSplits (fuel : ℕ) (dates : List ℤ) (cfg : WalkForwardConfig)
    (maxHorizon : Option ℤ) : Option (Except SplitError (List WalkForwardWindow)) :=
  match cfg.check maxHorizon with
  | .error error => some (.error error)
  | .ok () =>
      let sessions := uniqueDates dates
      if sessions.length ≤ cfg.minTrainDays + cfg.embargoDays then some (.ok [])
      else cfg.splitLoop sessions fuel (cfg.minTrainDays + cfg.embargoDays) []

end WalkForward
