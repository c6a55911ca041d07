import Mathlib.Data.List.Dedup
import Mathlib.Data.List.Sort
import Mathlib.Tactic.Linarith
import Mathlib.Tactic.Ring
import SignalFoundry.Library.Fallible

/-!
# Forward-chaining splits

`TimeSeriesSplitter` cuts the distinct dates of a panel into test blocks, counted
backwards from the most recent date, and trains each block on dates before it, an
embargo apart. The folds are complete and leak-free exactly when the embargo is not
negative: the constructor does not check it, and a negative one lets the training
rows run into the test block.
-/

namespace SignalFoundry.Lattice

open Fallible

/-! ## The splitter -/

inductive SplitScheme where
  | expanding
  | walkForward
  deriving DecidableEq, Repr

/-- `TimeSeriesSplitter`; `__post_init__` checks the number and the size of the folds. -/
structure TimeSeriesSplitter where
  scheme : SplitScheme := .walkForward
  nSplits : ℕ := 5
  testSize : ℕ := 252
  minTrainSize : ℤ := 504
  embargo : ℤ := 5
  nSplits_pos : 1 ≤ nSplits
  testSize_pos : 1 ≤ testSize

/-- The row positions of a fold. -/
structure SplitFold where
  train : List ℕ
  test : List ℕ
  deriving DecidableEq, Repr

variable {D : Type} [LinearOrder D]

/-- `np.sort(dates.unique())`. -/
def uniqueDates (dates : List D) : List D := dates.dedup.insertionSort (· ≤ ·)

/-- The rows whose date has a position from `low` to before `high`. -/
def rowsBetween (dates : List D) (low high : ℤ) : List ℕ :=
  let rowPos := dates.map fun date => (uniqueDates dates).idxOf date
  (List.range rowPos.length).filter fun row =>
    rowPos[row]?.any fun pos => low ≤ (pos : ℤ) && (pos : ℤ) < high

namespace TimeSeriesSplitter

variable (s : TimeSeriesSplitter)

/-- The least number of dates for one fold. -/
def needed : ℤ := s.testSize + s.minTrainSize + s.embargo

def testStart (n : ℕ) (i : ℕ) : ℤ := (n : ℤ) - s.nSplits * s.testSize + i * s.testSize

def trainEnd (n : ℕ) (i : ℕ) : ℤ := s.testStart n i - s.embargo

def trainStart (n : ℕ) (i : ℕ) : ℤ :=
  match s.scheme with
  | .expanding => 0
  | .walkForward => max 0 (s.trainEnd n i - s.minTrainSize)

/-- One turn of the loop of `split`. -/
def fold? (dates : List D) (i : ℕ) : Option SplitFold :=
  let n := (uniqueDates dates).length
  if s.trainEnd n i < s.minTrainSize then none
  else
    let train := rowsBetween dates (s.trainStart n i) (s.trainEnd n i)
    let test := rowsBetween dates (s.testStart n i) (s.testStart n i + s.testSize)
    if train = [] ∨ test = [] then none else some ⟨train, test⟩

/-- `split`: the folds in the order in which they are yielded. -/
def split (dates : List D) : Except PyError (List SplitFold) := do
  let n := (uniqueDates dates).length
  refuseIf ((n : ℤ) < s.needed) (.valueError ("Not enough dates (" ++ toString n ++
    ") for even one fold (need >= " ++ toString s.needed ++ ")."))
  let folds := (List.range s.nSplits).filterMap (s.fold? dates)
  refuseIf (folds = [])
    (.valueError "No valid folds were produced; reduce min_train_size/test_size/n_splits.")
  return folds

end TimeSeriesSplitter

/-! ## What the folds promise -/

/-- The distinct dates of some rows, in order. -/
def datesAt (dates : List D) (rows : List ℕ) : List D :=
  (uniqueDates dates).filter fun date => ∃ row ∈ rows, dates[row]? = some date

/-- The dates after all dates of the training rows and before all of the test rows. -/
def SplitFold.gap (fold : SplitFold) (dates : List D) : List D :=
  (uniqueDates dates).filter fun date =>
    (∀ a ∈ datesAt dates fold.train, a < date) ∧ ∀ b ∈ datesAt dates fold.test, date < b

/-- One fold keeps the rows of a date together, trains before it tests, an embargo
apart, and trains on enough dates. -/
structure SplitFold.LeakFree (fold : SplitFold) (s : TimeSeriesSplitter) (dates : List D) :
    Prop where
  together : ∀ i j date, dates[i]? = some date → dates[j]? = some date →
    (i ∈ fold.train ↔ j ∈ fold.train) ∧ (i ∈ fold.test ↔ j ∈ fold.test) ∧
      ¬ (i ∈ fold.train ∧ j ∈ fold.test)
  precedes : ∀ a ∈ datesAt dates fold.train, ∀ b ∈ datesAt dates fold.test, a < b
  embargoed : ((fold.gap dates).length : ℤ) = s.embargo
  testSize_eq : (datesAt dates fold.test).length = s.testSize
  minTrainSize_le : s.minTrainSize ≤ (datesAt dates fold.train).length
  rolling : s.scheme = .walkForward → ((datesAt dates fold.train).length : ℤ) = s.minTrainSize

/-- The folds are as many as fit, and their test dates are the most recent dates, block
by block in increasing order. -/
structure TimeSeriesSplitter.Complete (s : TimeSeriesSplitter) (dates : List D)
    (folds : List SplitFold) : Prop where
  length_eq : (folds.length : ℤ) = min (s.nSplits : ℤ)
    (((uniqueDates dates).length - s.embargo - s.minTrainSize) / s.testSize)
  tiles : (folds.map fun fold => datesAt dates fold.test).flatten =
    (uniqueDates dates).drop ((uniqueDates dates).length - folds.length * s.testSize)
  leakFree : ∀ fold ∈ folds, fold.LeakFree s dates

/-! ## Distinct dates -/

variable {dates : List D}

theorem uniqueDates_sorted (dates : List D) : (uniqueDates dates).Pairwise (· < ·) := by
  have hnodup : (uniqueDates dates).Nodup :=
    (List.perm_insertionSort _ _).nodup_iff.mpr (List.nodup_dedup dates)
  exact ((List.pairwise_insertionSort _ _).and hnodup).imp fun h => lt_of_le_of_ne h.1 h.2

theorem mem_uniqueDates {date : D} : date ∈ uniqueDates dates ↔ date ∈ dates := by
  rw [uniqueDates, List.mem_insertionSort, List.mem_dedup]

theorem nodup_uniqueDates (dates : List D) : (uniqueDates dates).Nodup :=
  (uniqueDates_sorted dates).imp fun h => h.ne

/-- The elements of a list without repetitions between two positions. -/
theorem filter_idxOf {α : Type} [DecidableEq α] {l : List α} (hnodup : l.Nodup) (a b : ℕ) :
    (l.filter fun x => a ≤ l.idxOf x ∧ l.idxOf x < b) = (l.take b).drop a := by
  induction l generalizing a b with
  | nil => simp
  | cons x l ih =>
      obtain ⟨hx, hl⟩ := List.nodup_cons.mp hnodup
      cases b with
      | zero => simp
      | succ b =>
          have hrest : (l.filter fun y => a ≤ (x :: l).idxOf y ∧ (x :: l).idxOf y < b + 1) =
              (l.take b).drop (a - 1) := by
            rw [← ih hl]
            refine List.filter_congr fun y hy => ?_
            have hne : x ≠ y := fun h => hx (h ▸ hy)
            rw [List.idxOf_cons_ne _ hne]
            simp only [decide_eq_decide]
            omega
          rw [List.filter_cons, hrest, List.idxOf_cons_self]
          cases a with
          | zero => simp
          | succ a => simp

theorem mem_rowsBetween {low high : ℤ} {row : ℕ} :
    row ∈ rowsBetween dates low high ↔ ∃ date, dates[row]? = some date ∧
      low ≤ ((uniqueDates dates).idxOf date : ℤ) ∧
        ((uniqueDates dates).idxOf date : ℤ) < high := by
  simp only [rowsBetween, List.mem_filter, List.mem_range, List.length_map, List.getElem?_map]
  cases hdate : dates[row]? with
  | none => simp
  | some date =>
      have hlt : row < dates.length := (List.getElem?_eq_some_iff.mp hdate).1
      simp [hlt]

theorem mem_datesAt_rowsBetween {low high : ℤ} {date : D} :
    date ∈ datesAt dates (rowsBetween dates low high) ↔ date ∈ uniqueDates dates ∧
      low ≤ ((uniqueDates dates).idxOf date : ℤ) ∧
        ((uniqueDates dates).idxOf date : ℤ) < high := by
  simp only [datesAt, List.mem_filter, decide_eq_true_eq]
  refine and_congr_right fun hdate => ⟨fun h => ?_, fun h => ?_⟩
  · obtain ⟨row, hrow, hat⟩ := h
    obtain ⟨other, hother, hbounds⟩ := mem_rowsBetween.mp hrow
    rw [hat] at hother
    cases hother
    exact hbounds
  · obtain ⟨row, hrow⟩ := List.getElem?_of_mem (mem_uniqueDates.mp hdate)
    exact ⟨row, mem_rowsBetween.mpr ⟨date, hrow, h⟩, hrow⟩

/-- The dates of the rows between two positions. -/
theorem datesAt_rowsBetween (dates : List D) (low high : ℤ) : datesAt dates (rowsBetween dates low high) =
    ((uniqueDates dates).take high.toNat).drop low.toNat := by
  rw [← filter_idxOf (nodup_uniqueDates dates), datesAt]
  refine List.filter_congr fun date hdate => ?_
  have hmem : date ∈ datesAt dates (rowsBetween dates low high) ↔ _ := mem_datesAt_rowsBetween
  simp only [datesAt, List.mem_filter, hdate, true_and, decide_eq_true_eq] at hmem
  rw [decide_eq_decide, hmem]
  omega

/-- Distinct dates are in the order of their positions. -/
theorem idxOf_lt_idxOf_iff {a b : D} (ha : a ∈ uniqueDates dates) (hb : b ∈ uniqueDates dates) :
    (uniqueDates dates).idxOf a < (uniqueDates dates).idxOf b ↔ a < b := by
  have hmono : ∀ {x y : D}, x ∈ uniqueDates dates → y ∈ uniqueDates dates →
      (uniqueDates dates).idxOf x < (uniqueDates dates).idxOf y → x < y := by
    intro x y hx hy hlt
    have hpair := List.pairwise_iff_getElem.mp (uniqueDates_sorted dates) _ _
      (List.idxOf_lt_length_iff.mpr hx) (List.idxOf_lt_length_iff.mpr hy) hlt
    rwa [List.getElem_idxOf, List.getElem_idxOf] at hpair
  refine ⟨hmono ha hb, fun hlt => ?_⟩
  rcases lt_trichotomy ((uniqueDates dates).idxOf a) ((uniqueDates dates).idxOf b) with h | h | h
  · exact h
  · exact absurd (List.idxOf_inj ha |>.mp h) hlt.ne
  · exact absurd (hmono hb ha h) hlt.asymm

theorem exists_idxOf_eq (dates : List D) (n : ℕ) (hn : n < (uniqueDates dates).length) :
    ∃ date ∈ uniqueDates dates, (uniqueDates dates).idxOf date = n :=
  ⟨_, List.getElem_mem hn, (nodup_uniqueDates dates).idxOf_getElem n hn⟩

theorem rowsBetween_eq_nil_iff {low high : ℤ} : rowsBetween dates low high = [] ↔
    datesAt dates (rowsBetween dates low high) = [] := by
  constructor
  · intro h
    simp [h, datesAt]
  · intro h
    refine List.eq_nil_iff_forall_not_mem.mpr fun row hrow => ?_
    obtain ⟨date, hdate, -⟩ := mem_rowsBetween.mp hrow
    have hmem : date ∈ datesAt dates (rowsBetween dates low high) :=
      List.mem_filter.mpr ⟨mem_uniqueDates.mpr (List.mem_of_getElem? hdate), by
        simpa using ⟨row, hrow, hdate⟩⟩
    rw [h] at hmem
    cases hmem

/-! ## One fold -/

namespace TimeSeriesSplitter

variable {s : TimeSeriesSplitter}

theorem trainEnd_eq (n i : ℕ) : s.trainEnd n i = s.testStart n i - s.embargo := rfl

/-- A fold that is yielded with an embargo that is not negative. -/
theorem leakFree_fold (dates : List D) (hmin : 1 ≤ s.minTrainSize) (hembargo : 0 ≤ s.embargo)
    (i : ℕ) (hi : i < s.nSplits)
    (htrain : s.minTrainSize ≤ s.trainEnd (uniqueDates dates).length i) :
    ∃ fold, s.fold? dates i = some fold ∧ fold.LeakFree s dates ∧
      datesAt dates fold.test = ((uniqueDates dates).take
        (s.testStart (uniqueDates dates).length i + s.testSize).toNat).drop
          (s.testStart (uniqueDates dates).length i).toNat := by
  have hsorted := uniqueDates_sorted dates
  have htrainEnd := s.trainEnd_eq (uniqueDates dates).length i
  have hfits : s.testStart (uniqueDates dates).length i + s.testSize ≤
      (uniqueDates dates).length := by
    rw [testStart]
    nlinarith [s.testSize_pos]
  have hsize := s.testSize_pos
  have hstart : 0 ≤ s.trainStart (uniqueDates dates).length i ∧
      s.trainStart (uniqueDates dates).length i + s.minTrainSize ≤
        s.trainEnd (uniqueDates dates).length i ∧
      (s.scheme = .walkForward → s.trainStart (uniqueDates dates).length i + s.minTrainSize =
        s.trainEnd (uniqueDates dates).length i) := by
    rw [trainStart]
    cases s.scheme with
    | expanding =>
        dsimp only
        exact ⟨le_rfl, by omega, nofun⟩
    | walkForward =>
        dsimp only
        exact ⟨by omega, by omega, fun _ => by omega⟩
  obtain ⟨hnonneg, hlong, hexact⟩ := hstart
  rw [fold?, if_neg (not_lt.mpr htrain)]
  generalize s.trainEnd (uniqueDates dates).length i = last at *
  generalize s.trainStart (uniqueDates dates).length i = first at *
  generalize s.testStart (uniqueDates dates).length i = start at *
  have htrainDates := datesAt_rowsBetween dates first last
  have htestDates := datesAt_rowsBetween dates start (start + s.testSize)
  have htrainLength : ((datesAt dates (rowsBetween dates first last)).length : ℤ) =
      last - first := by
    rw [htrainDates, List.length_drop, List.length_take]
    omega
  have htestLength : (datesAt dates (rowsBetween dates start (start + s.testSize))).length =
      s.testSize := by
    rw [htestDates, List.length_drop, List.length_take]
    omega
  have htrainNe : rowsBetween dates first last ≠ [] := by
    rw [ne_eq, rowsBetween_eq_nil_iff, ← List.length_eq_zero_iff]
    omega
  have htestNe : rowsBetween dates start (start + s.testSize) ≠ [] := by
    rw [ne_eq, rowsBetween_eq_nil_iff, ← List.length_eq_zero_iff]
    omega
  refine ⟨⟨_, _⟩, if_neg (not_or.mpr ⟨htrainNe, htestNe⟩), ⟨?_, ?_, ?_, htestLength, ?_, ?_⟩,
    htestDates⟩
  · intro i j date hi hj
    simp only [mem_rowsBetween, hi, hj, Option.some.injEq, exists_eq_left', iff_self, true_and]
    omega
  · intro a ha b hb
    obtain ⟨hamem, ha⟩ := mem_datesAt_rowsBetween.mp ha
    obtain ⟨hbmem, hb⟩ := mem_datesAt_rowsBetween.mp hb
    exact (idxOf_lt_idxOf_iff hamem hbmem).mp (by omega)
  · have hgap : SplitFold.gap ⟨rowsBetween dates first last,
        rowsBetween dates start (start + s.testSize)⟩ dates =
          ((uniqueDates dates).take start.toNat).drop last.toNat := by
      rw [← filter_idxOf (nodup_uniqueDates dates), SplitFold.gap]
      refine List.filter_congr fun date hdate => ?_
      rw [decide_eq_decide]
      constructor
      · rintro ⟨hafter, hbefore⟩
        obtain ⟨a, ha, halast⟩ := exists_idxOf_eq dates (last - 1).toNat (by omega)
        obtain ⟨b, hb, hbfirst⟩ := exists_idxOf_eq dates start.toNat (by omega)
        have hlower := (idxOf_lt_idxOf_iff ha hdate).mpr
          (hafter a (mem_datesAt_rowsBetween.mpr ⟨ha, by omega⟩))
        have hupper := (idxOf_lt_idxOf_iff hdate hb).mpr
          (hbefore b (mem_datesAt_rowsBetween.mpr ⟨hb, by omega⟩))
        omega
      · intro hpos
        refine ⟨fun a ha => ?_, fun b hb => ?_⟩
        · obtain ⟨hamem, ha⟩ := mem_datesAt_rowsBetween.mp ha
          exact (idxOf_lt_idxOf_iff hamem hdate).mp (by omega)
        · obtain ⟨hbmem, hb⟩ := mem_datesAt_rowsBetween.mp hb
          exact (idxOf_lt_idxOf_iff hdate hbmem).mp (by omega)
    rw [hgap, List.length_drop, List.length_take]
    omega
  · dsimp only
    omega
  · intro hscheme
    have hlast := hexact hscheme
    dsimp only
    omega

/-! ## The loop -/

/-- Consecutive slices of one length are the end of a list. -/
theorem flatten_slices {α : Type} (l : List α) (b t count : ℕ) :
    ((List.range count).map fun k => (l.take (b + (k + 1) * t)).drop (b + k * t)).flatten =
      (l.take (b + count * t)).drop b := by
  induction count with
  | zero => simp
  | succ count ih =>
      rw [List.range_succ, List.map_append, List.flatten_append, ih]
      simp only [List.map_cons, List.map_nil, List.flatten_cons, List.flatten_nil, List.append_nil]
      have hlast : b + (count + 1) * t - (b + count * t) = t := by
        rw [Nat.succ_mul]
        omega
      have hall : b + (count + 1) * t - b = count * t + t := by
        rw [Nat.succ_mul]
        omega
      rw [List.drop_take, List.drop_take, List.drop_take, hlast, hall, Nat.add_sub_cancel_left,
        ← List.drop_drop, ← List.take_add]

/-- The folds that are yielded with an embargo that is not negative. -/
theorem exists_complete (hmin : 1 ≤ s.minTrainSize) (hembargo : 0 ≤ s.embargo)
    (hneeded : s.needed ≤ (uniqueDates dates).length) :
    ∃ folds, s.split dates = .ok folds ∧ s.Complete dates folds := by
  have hsize : (0 : ℤ) < s.testSize := by exact_mod_cast s.testSize_pos
  have hsplits := s.nSplits_pos
  rw [needed] at hneeded
  generalize hn : (uniqueDates dates).length = n at hneeded
  -- the number of folds, and the turns of the loop that are skipped before them
  obtain ⟨count, hcount⟩ : ∃ count : ℕ, (count : ℤ) = min (s.nSplits : ℤ)
      ((n - s.embargo - s.minTrainSize) / s.testSize) :=
    ⟨_, Int.toNat_of_nonneg (le_min (by omega) (Int.ediv_nonneg (by omega) hsize.le))⟩
  have hpos : 0 < count := by
    have hone : 1 ≤ (n - s.embargo - s.minTrainSize) / (s.testSize : ℤ) := by
      rw [Int.le_ediv_iff_mul_le hsize]
      omega
    omega
  have hcountLe : count ≤ s.nSplits := by omega
  have hfits : (count : ℤ) * s.testSize ≤ n - s.embargo - s.minTrainSize := by
    rw [← Int.le_ediv_iff_mul_le hsize, hcount]
    exact min_le_right _ _
  have htrainEnd : ∀ i, s.minTrainSize ≤ s.trainEnd n i ↔ s.nSplits ≤ i + count := by
    intro i
    have hrewrite : s.minTrainSize ≤ s.trainEnd n i ↔
        ((s.nSplits : ℤ) - i) * s.testSize ≤ n - s.embargo - s.minTrainSize := by
      rw [trainEnd, testStart, sub_mul]
      constructor <;> intro h <;> linarith
    rw [hrewrite, ← Int.le_ediv_iff_mul_le hsize]
    omega
  have hblocks : (((n - count * s.testSize : ℕ) : ℤ)) = n - count * s.testSize := by
    have hle : count * s.testSize ≤ n := by
      zify
      omega
    push_cast [hle]
    rfl
  have hfold : ∀ k, ∃ fold, k < count →
      s.fold? dates (s.nSplits - count + k) = some fold ∧ fold.LeakFree s dates ∧
        datesAt dates fold.test =
          ((uniqueDates dates).take (n - count * s.testSize + (k + 1) * s.testSize)).drop
            (n - count * s.testSize + k * s.testSize) := by
    intro k
    by_cases hk : k < count
    · obtain ⟨fold, hsome, hleak, htest⟩ := leakFree_fold dates hmin hembargo
        (s.nSplits - count + k) (by omega) (by rw [hn, htrainEnd]; omega)
      refine ⟨fold, fun _ => ⟨hsome, hleak, htest.trans ?_⟩⟩
      have hstart : s.testStart n (s.nSplits - count + k) =
          ((n - count * s.testSize + k * s.testSize : ℕ) : ℤ) := by
        rw [testStart]
        push_cast [hcountLe, hblocks]
        ring
      rw [hn, hstart, Nat.succ_mul, ← Nat.add_assoc]
      norm_cast
    · exact ⟨⟨[], []⟩, fun h => absurd h hk⟩
  choose fold hfold using hfold
  have hfolds : (List.range s.nSplits).filterMap (s.fold? dates) = (List.range count).map fold := by
    have hsplit : s.nSplits = (s.nSplits - count) + count := by omega
    have hskipped : (List.range (s.nSplits - count)).filterMap (s.fold? dates) = [] := by
      refine List.filterMap_eq_nil_iff.mpr fun i hi => ?_
      have hi := List.mem_range.mp hi
      have hshort : s.trainEnd n i < s.minTrainSize := not_le.mp ((htrainEnd i).not.mpr (by omega))
      rw [fold?, hn, if_pos hshort]
    have hyielded : (List.range count).filterMap
        (s.fold? dates ∘ fun k => s.nSplits - count + k) = (List.range count).map fold := by
      rw [← List.filterMap_eq_map]
      exact List.filterMap_congr fun k hk => (hfold k (List.mem_range.mp hk)).1
    rw [hsplit, List.range_add, List.filterMap_append, hskipped, List.nil_append,
      List.filterMap_map, hyielded]
  refine ⟨(List.range count).map fold, ?_, ?_, ?_, ?_⟩
  · rw [split, refuseIf_of_not (by rw [needed]; omega), ok_bind]
    dsimp only
    rw [hfolds, refuseIf_of_not (by simpa using hpos.ne'), ok_bind]
    rfl
  · rw [List.length_map, List.length_range, hcount, hn]
  · have hslices : (List.range count).map ((fun f => datesAt dates f.test) ∘ fold) =
        (List.range count).map fun k =>
          ((uniqueDates dates).take (n - count * s.testSize + (k + 1) * s.testSize)).drop
            (n - count * s.testSize + k * s.testSize) :=
      List.map_congr_left fun k hk => (hfold k (List.mem_range.mp hk)).2.2
    rw [List.length_map, List.length_range, List.map_map, hslices, flatten_slices, hn,
      List.take_of_length_le]
    omega
  · intro f hf
    obtain ⟨k, hk, rfl⟩ := List.mem_map.mp hf
    exact (hfold k (List.mem_range.mp hk)).2.1

/-- The folds are complete and leak-free exactly when the embargo is not negative, or there
are too few dates for one fold. -/
theorem split_complete_iff (hmin : 1 ≤ s.minTrainSize) (dates : List D) :
    (((∃ error, s.split dates = .error error) ↔
        ((uniqueDates dates).length : ℤ) < s.testSize + s.minTrainSize + s.embargo) ∧
      ∀ folds, s.split dates = .ok folds → s.Complete dates folds) ↔
      0 ≤ s.embargo ∨
        ((uniqueDates dates).length : ℤ) < s.testSize + s.minTrainSize + s.embargo := by
  by_cases hneeded : ((uniqueDates dates).length : ℤ) < s.testSize + s.minTrainSize + s.embargo
  · obtain ⟨error, herror⟩ : ∃ error, s.split dates = .error error := by
      rw [split, refuseIf_of (show _ < s.needed from hneeded), error_bind]
      exact ⟨_, rfl⟩
    simp [herror, hneeded]
  · have hle : s.needed ≤ (uniqueDates dates).length := not_lt.mp hneeded
    simp only [hneeded, iff_false, not_exists, or_false]
    constructor
    · rintro ⟨hreturns, hcomplete⟩
      by_contra hnegative
      cases hsplit : s.split dates with
      | error error => exact hreturns error hsplit
      | ok folds =>
          have h := hcomplete folds hsplit
          have hfit : 1 ≤ ((uniqueDates dates).length - s.embargo - s.minTrainSize) /
              (s.testSize : ℤ) := by
            have hpos : (0 : ℤ) < s.testSize := by exact_mod_cast s.testSize_pos
            rw [Int.le_ediv_iff_mul_le hpos]
            rw [needed] at hle
            omega
          have hlength := h.length_eq
          have hsplits := s.nSplits_pos
          obtain ⟨fold, hfold⟩ : ∃ fold, fold ∈ folds :=
            List.exists_mem_of_length_pos (by omega)
          have hgap := (h.leakFree fold hfold).embargoed
          omega
    · intro hembargo
      obtain ⟨folds, hsplit, hcomplete⟩ := exists_complete hmin hembargo hle
      simp only [hsplit, Except.ok.injEq]
      exact ⟨nofun, fun _ h => h ▸ hcomplete⟩

/-- Two folds of two dates, a date apart from their training dates. -/
def twoFolds : TimeSeriesSplitter where
  nSplits := 2
  testSize := 2
  minTrainSize := 3
  embargo := 1
  nSplits_pos := by decide
  testSize_pos := by decide

theorem twoFolds_complete :
    ((∃ error, twoFolds.split [1, 2, 3, 4, 5, 6, 7, 8, 9] = .error error) ↔
        ((uniqueDates [1, 2, 3, 4, 5, 6, 7, 8, 9]).length : ℤ) < 2 + 3 + 1) ∧
      ∀ folds, twoFolds.split [1, 2, 3, 4, 5, 6, 7, 8, 9] = .ok folds →
        twoFolds.Complete [1, 2, 3, 4, 5, 6, 7, 8, 9] folds :=
  (split_complete_iff (s := twoFolds) (by decide) [1, 2, 3, 4, 5, 6, 7, 8, 9]).mpr (.inl (by decide))

/-- A fold that the constructor accepts with a negative embargo. -/
def overlapping : TimeSeriesSplitter where
  nSplits := 1
  testSize := 1
  minTrainSize := 1
  embargo := -1
  nSplits_pos := by decide
  testSize_pos := by decide

/-- The fold is trained and tested on one row. -/
theorem overlapping_not_complete :
    overlapping.split [1, 2] = .ok [⟨[1], [1]⟩] ∧
      ¬ overlapping.Complete [1, 2] [⟨[1], [1]⟩] := by
  refine ⟨rfl, fun h => ?_⟩
  have htogether := (h.leakFree ⟨[1], [1]⟩ (List.mem_singleton_self _)).together 1 1 2 rfl rfl
  exact htogether.2.2 ⟨List.mem_singleton_self 1, List.mem_singleton_self 1⟩

end TimeSeriesSplitter

end SignalFoundry.Lattice
