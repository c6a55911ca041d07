import Mathlib.Algebra.BigOperators.Intervals
import Mathlib.Algebra.Field.Defs
import Mathlib.Data.List.Sort
import Mathlib.Tactic.Abel

/-!
# Statistics of arrays

The median of some values, and prefix sums in one and in two dimensions. A block sum
of a matrix is read off four of its two-dimensional prefix sums.
-/

namespace ArrayStatistics

local instance atLeastTwo_two : Nat.AtLeastTwo 2 := ⟨le_rfl⟩

/-- `np.median` of values that are not empty. -/
def median {K : Type} [Field K] [LinearOrder K] (values : List K) : K :=
  let sorted := values.insertionSort (· ≤ ·)
  let middle := values.length / 2
  if values.length % 2 = 1 then sorted.getD middle 0
  else (sorted.getD (middle - 1) 0 + sorted.getD middle 0) / 2

section PrefixSums

variable {K : Type} [AddCommGroup K]

/-- `np.cumsum` with a zero before it. -/
def prefixSums (values : ℕ → K) : ℕ → K
  | 0 => 0
  | n + 1 => prefixSums values n + values n

theorem prefixSums_eq_sum (values : ℕ → K) (n : ℕ) :
    prefixSums values n = ∑ i ∈ Finset.range n, values i := by
  induction n with
  | zero => rfl
  | succ n ih => rw [prefixSums, ih, Finset.sum_range_succ]

/-- A difference of prefix sums is the sum of the values between them. -/
theorem prefixSums_sub (values : ℕ → K) {start stop : ℕ} (h : start ≤ stop) :
    prefixSums values stop - prefixSums values start = ∑ i ∈ Finset.Ico start stop, values i := by
  rw [prefixSums_eq_sum, prefixSums_eq_sum, Finset.sum_Ico_eq_sub _ h]

/-- `np.cumsum` along both axes, with a row and a column of zeros before it. -/
def blockSums (matrix : ℕ → ℕ → K) (rows columns : ℕ) : K :=
  prefixSums (fun j => prefixSums (fun i => matrix i j) rows) columns

/-- A square block sum by inclusion and exclusion. -/
theorem blockSums_square (matrix : ℕ → ℕ → K) {start stop : ℕ} (h : start ≤ stop) :
    blockSums matrix stop stop - blockSums matrix start stop - blockSums matrix stop start +
        blockSums matrix start start =
      ∑ i ∈ Finset.Ico start stop, ∑ j ∈ Finset.Ico start stop, matrix i j := by
  have hcolumns : ∀ rows, blockSums matrix rows stop - blockSums matrix rows start =
      ∑ j ∈ Finset.Ico start stop, prefixSums (fun i => matrix i j) rows := fun rows =>
    prefixSums_sub _ h
  have hrows : ∀ j, prefixSums (fun i => matrix i j) stop - prefixSums (fun i => matrix i j) start =
      ∑ i ∈ Finset.Ico start stop, matrix i j := fun j => prefixSums_sub _ h
  calc blockSums matrix stop stop - blockSums matrix start stop - blockSums matrix stop start +
        blockSums matrix start start
      = (blockSums matrix stop stop - blockSums matrix stop start) -
          (blockSums matrix start stop - blockSums matrix start start) := by abel
    _ = ∑ j ∈ Finset.Ico start stop, ∑ i ∈ Finset.Ico start stop, matrix i j := by
        rw [hcolumns, hcolumns, ← Finset.sum_sub_distrib]
        exact Finset.sum_congr rfl fun j _ => hrows j
    _ = ∑ i ∈ Finset.Ico start stop, ∑ j ∈ Finset.Ico start stop, matrix i j := Finset.sum_comm

end PrefixSums

end ArrayStatistics
