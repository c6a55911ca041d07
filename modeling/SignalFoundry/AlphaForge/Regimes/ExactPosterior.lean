import Mathlib.Algebra.BigOperators.Field
import Mathlib.Algebra.BigOperators.Fin
import Mathlib.Algebra.Order.BigOperators.Group.Finset
import Mathlib.Algebra.Order.Field.Basic
import Mathlib.Algebra.Order.Field.Rat
import Mathlib.Data.Fintype.BigOperators
import Mathlib.Data.List.ReduceOption
import Mathlib.Tactic.Linarith
import Mathlib.Tactic.NormNum
import Mathlib.Tactic.Positivity
import Mathlib.Tactic.Ring

/-!
# Online change-point detection is exact

After any finite values, bin `r` of the filter holds the statistics of the last `r`
values and the weight of all histories whose run has length `r`. One more value moves
both to bin `r + 1`, or ends the run.
-/

/-! ## Online change-point detection

`BayesianOnlineChangePoint._filter` carries a posterior over run lengths and four
sufficient statistics for every run length, all shifted by one at every finite value. -/

namespace SignalFoundry.Regimes

variable {K : Type} [Field K] [LinearOrder K]

/-- A `BayesianOnlineChangePoint` with its fitted prior. -/
structure BayesianOnlineChangePoint (K : Type) [Field K] [LinearOrder K] where
  hazard : K
  shortRun : ℕ
  maxRunLength : ℕ
  priorStrength : K
  priorMean : K
  priorVariance : K
  hazard_mem : 0 < hazard ∧ hazard < 1
  shortRun_pos : 1 ≤ shortRun
  maxRunLength_mem : 2 ≤ maxRunLength ∧ maxRunLength ≤ 10000
  priorStrength_pos : 0 < priorStrength

/-- The predictive density of a value, from `mu`, `alpha`, `beta` and `kappa`. -/
abbrev Predictive (K : Type) := K → K → K → K → K → K

/-- The arrays of `_filter`, a bin for every run length. -/
structure FilterState (K : Type) (width : ℕ) where
  alpha : Fin width → K
  beta : Fin width → K
  kappa : Fin width → K
  mu : Fin width → K
  posterior : Fin width → K

/-- `np.concatenate([[first], values[:-1]])`. -/
def shifted {α : Type} {width : ℕ} (first : α) (values : Fin width → α) : Fin width → α :=
  fun r => if r.1 = 0 then first else values ⟨r.1 - 1, by omega⟩

namespace BayesianOnlineChangePoint

variable (m : BayesianOnlineChangePoint K)

/-- The arrays before the first value. -/
def initial : FilterState K m.maxRunLength where
  alpha := fun _ => m.priorStrength
  beta := fun _ => m.priorStrength * m.priorVariance
  kappa := fun _ => m.priorStrength
  mu := fun _ => m.priorMean
  posterior := fun r => if r.1 = 0 then 1 else 0

variable (pdf : Predictive K)

/-- `updated`, before it is normalised. -/
def updated (s : FilterState K m.maxRunLength) (value : K) : Fin m.maxRunLength → K :=
  let predictive := fun r => pdf value (s.mu r) (s.alpha r) (s.beta r) (s.kappa r)
  let growth := fun r => s.posterior r * predictive r * (1 - m.hazard)
  let change := ∑ r, s.posterior r * predictive r * m.hazard
  fun r => shifted change growth r + if r.1 = m.maxRunLength - 1 then growth r else 0

local instance atLeastTwo_two : Nat.AtLeastTwo 2 := ⟨le_rfl⟩

/-- One finite value. -/
def step (s : FilterState K m.maxRunLength) (value : K) : FilterState K m.maxRunLength where
  alpha := shifted m.priorStrength fun r => s.alpha r + 1 / 2
  beta := shifted (m.priorStrength * m.priorVariance) fun r =>
    s.beta r + s.kappa r * (value - s.mu r) ^ 2 / (2 * (s.kappa r + 1))
  kappa := shifted m.priorStrength fun r => s.kappa r + 1
  mu := shifted m.priorMean fun r => (s.kappa r * s.mu r + value) / (s.kappa r + 1)
  posterior :=
    let updated := m.updated pdf s value
    let total := ∑ r, updated r
    if 0 < total then fun r => updated r / total else fun _ => 1 / (m.maxRunLength : K)

/-- A row of `history` and of `probabilities`. -/
structure FilterRow (K : Type) (width : ℕ) where
  posterior : Fin width → K
  established : K
  recent : K

def row (s : FilterState K m.maxRunLength) : FilterRow K m.maxRunLength :=
  let recent := ∑ r, if r.1 < m.shortRun then s.posterior r else 0
  ⟨s.posterior, 1 - recent, recent⟩

/-- The loop of `_filter`; `none` is a gap, and a row of NaN. -/
def filterFrom (s : FilterState K m.maxRunLength) :
    List (Option K) → List (Option (FilterRow K m.maxRunLength))
  | [] => []
  | none :: values => none :: filterFrom s values
  | some value :: values =>
      some (m.row (m.step pdf s value)) :: filterFrom (m.step pdf s value) values

/-- `_filter`. -/
def filter (values : List (Option K)) : List (Option (FilterRow K m.maxRunLength)) :=
  m.filterFrom pdf m.initial values

/-! ## The exact posterior -/

/-- The sufficient statistics of a run. -/
structure RunStatistics (K : Type) where
  alpha : K
  beta : K
  kappa : K
  mu : K

def prior : RunStatistics K :=
  ⟨m.priorStrength, m.priorStrength * m.priorVariance, m.priorStrength, m.priorMean⟩

/-- The conjugate update by one value. -/
def RunStatistics.observe (s : RunStatistics K) (value : K) : RunStatistics K where
  alpha := s.alpha + 1 / 2
  beta := s.beta + s.kappa * (value - s.mu) ^ 2 / (2 * (s.kappa + 1))
  kappa := s.kappa + 1
  mu := (s.kappa * s.mu + value) / (s.kappa + 1)

/-- The prior updated by the values of a run, in order. -/
def statisticsOf (run : List K) : RunStatistics K := run.foldl RunStatistics.observe m.prior

/-- The predictive density of a value after a run. -/
def density (run : List K) (value : K) : K :=
  let s := m.statisticsOf run
  pdf value s.mu s.alpha s.beta s.kappa

/-- The values since the last change of a history: a value and whether a change follows it. -/
def runOf : List (K × Bool) → List K
  | history => history.foldl (fun run bar => if bar.2 then [] else run ++ [bar.1]) []

/-- The probability of a history: every value under its run, and every change or its absence. -/
def weightFrom (run : List K) : List (K × Bool) → K
  | [] => 1
  | (value, true) :: rest => m.density pdf run value * m.hazard * weightFrom [] rest
  | (value, false) :: rest =>
      m.density pdf run value * (1 - m.hazard) * weightFrom (run ++ [value]) rest

/-- The change-point histories of a number of bars. -/
def histories : ℕ → List (List Bool)
  | 0 => [[]]
  | n + 1 => (histories n).flatMap fun changes => [changes ++ [true], changes ++ [false]]

/-- The joint weight of the values and a run length, summed over all histories. -/
def jointWeight (values : List K) (runLength : ℕ) : K :=
  ((histories values.length).map fun changes =>
    if (runOf (values.zip changes)).length = runLength
    then m.weightFrom pdf [] (values.zip changes) else 0).sum

/-- The weight of the values, summed over all histories. -/
def evidence (values : List K) : K :=
  ((histories values.length).map fun changes => m.weightFrom pdf [] (values.zip changes)).sum

end BayesianOnlineChangePoint

end SignalFoundry.Regimes

namespace SignalFoundry.Regimes

namespace BayesianOnlineChangePoint

/-! ## Bins -/

theorem shifted_zero {α : Type} {width : ℕ} (first : α) (values : Fin width → α) {r : Fin width}
    (hr : r.1 = 0) : shifted first values r = first :=
  if_pos hr

theorem shifted_succ {α : Type} {width : ℕ} (first : α) (values : Fin width → α) {r : ℕ}
    (hr : r + 1 < width) : shifted first values ⟨r + 1, hr⟩ = values ⟨r, by omega⟩ :=
  if_neg (Nat.succ_ne_zero r)

/-! ## Histories -/

theorem mem_histories_iff {n : ℕ} {changes : List Bool} :
    changes ∈ histories n ↔ changes.length = n := by
  induction n generalizing changes with
  | zero => simp [histories]
  | succ n ih =>
      simp only [histories, List.mem_flatMap, ih, List.mem_cons, List.not_mem_nil, or_false]
      constructor
      · rintro ⟨earlier, rfl, rfl | rfl⟩
        · simp
        · simp
      · intro hlength
        obtain ⟨earlier, last, rfl⟩ := (List.eq_nil_or_concat changes).resolve_left fun hnil => by
          rw [hnil] at hlength
          cases hlength
        rw [List.concat_eq_append] at hlength ⊢
        refine ⟨earlier, by simpa using hlength, ?_⟩
        cases last with
        | true => exact .inl rfl
        | false => exact .inr rfl

section Runs

variable {K : Type}

theorem runOf_concat (history : List (K × Bool)) (value : K) (change : Bool) :
    runOf (history ++ [(value, change)]) = if change then [] else runOf history ++ [value] := by
  rw [runOf, List.foldl_append]
  rfl

/-- The last values of some values. -/
def lastRun (values : List K) (r : ℕ) : List K := values.drop (values.length - r)

theorem lastRun_concat (values : List K) (value : K) {r : ℕ} (h : r ≤ values.length) :
    lastRun (values ++ [value]) (r + 1) = lastRun values r ++ [value] := by
  have hdrop : values.length + 1 - (r + 1) = values.length - r := by omega
  rw [lastRun, List.length_append, List.length_singleton, hdrop,
    List.drop_append_of_le_length (by omega), lastRun]

/-- The run of a history is made of the last values. -/
theorem runOf_eq_lastRun (history : List (K × Bool)) :
    (runOf history).length ≤ history.length ∧
      runOf history = lastRun (history.map Prod.fst) (runOf history).length := by
  induction history using List.reverseRecOn with
  | nil => exact ⟨le_rfl, rfl⟩
  | append_singleton history bar ih =>
      obtain ⟨hle, heq⟩ := ih
      obtain ⟨value, change⟩ := bar
      rw [runOf_concat]
      cases change with
      | true => exact ⟨Nat.zero_le _, by simp [lastRun]⟩
      | false =>
          refine ⟨by simpa using hle, ?_⟩
          simp only [Bool.false_eq_true, if_false, List.length_append, List.length_singleton,
            List.map_append, List.map_cons, List.map_nil]
          rw [lastRun_concat _ _ (by simpa using hle), ← heq]

theorem length_runOf_zip {values : List K} {changes : List Bool}
    (h : changes ∈ histories values.length) :
    (runOf (values.zip changes)).length ≤ values.length ∧
      runOf (values.zip changes) = lastRun values (runOf (values.zip changes)).length := by
  have hlength := mem_histories_iff.mp h
  obtain ⟨hle, heq⟩ := runOf_eq_lastRun (values.zip changes)
  rw [List.length_zip, hlength, Nat.min_self] at hle
  rw [List.map_fst_zip hlength.ge] at heq
  exact ⟨hle, heq⟩

end Runs

/-- A sum over the bins of a weight by run length is a sum over the histories. -/
theorem sum_bins {K α : Type} [Field K] {width : ℕ} (l : List α) (weight : α → K)
    (runLength : α → ℕ) (g : ℕ → K) (hlt : ∀ a ∈ l, runLength a < width) :
    ∑ r : Fin width, (l.map fun a => if runLength a = r.1 then weight a else 0).sum * g r.1 =
      (l.map fun a => weight a * g (runLength a)).sum := by
  induction l with
  | nil => simp
  | cons a l ih =>
      obtain ⟨ha, hl⟩ := List.forall_mem_cons.mp hlt
      have hone : ∑ r : Fin width, (if runLength a = r.1 then weight a else 0) * g r.1 =
          weight a * g (runLength a) := by
        rw [Finset.sum_eq_single ⟨runLength a, ha⟩]
        · rw [if_pos rfl]
        · intro r _ hr
          rw [if_neg fun h => hr (Fin.ext h.symm), zero_mul]
        · intro h
          exact absurd (Finset.mem_univ _) h
      simp only [List.map_cons, List.sum_cons, add_mul, Finset.sum_add_distrib]
      rw [hone, ih hl]

/-- The histories of one more value. -/
theorem sum_histories_concat {K : Type} [Field K] (values : List K) (value : K)
    (f : List (K × Bool) → K) :
    ((histories (values ++ [value]).length).map fun changes =>
      f ((values ++ [value]).zip changes)).sum =
    ((histories values.length).map fun changes =>
      f (values.zip changes ++ [(value, true)]) +
        f (values.zip changes ++ [(value, false)])).sum := by
  have hzip : ∀ changes ∈ histories values.length, ∀ change,
      (values ++ [value]).zip (changes ++ [change]) = values.zip changes ++ [(value, change)] := by
    intro changes hchanges change
    rw [List.zip_append (mem_histories_iff.mp hchanges).symm]
    rfl
  rw [List.length_append, List.length_singleton, histories, List.map_flatMap, List.flatMap_def,
    List.sum_flatten, List.map_map]
  refine congrArg List.sum (List.map_congr_left fun changes hchanges => ?_)
  simp only [Function.comp_apply, List.map_cons, List.map_nil, List.sum_cons, List.sum_nil,
    add_zero]
  rw [hzip changes hchanges, hzip changes hchanges]

variable {K : Type} [Field K] [LinearOrder K] (m : BayesianOnlineChangePoint K)
  (pdf : Predictive K)

/-- A history from a run that is open. -/
theorem weightFrom_concat (history : List (K × Bool)) (run : List K) (value : K) (change : Bool) :
    m.weightFrom pdf run (history ++ [(value, change)]) = m.weightFrom pdf run history *
      (m.density pdf (history.foldl (fun run bar => if bar.2 then [] else run ++ [bar.1]) run)
        value * if change then m.hazard else 1 - m.hazard) := by
  induction history generalizing run with
  | nil =>
      cases change with
      | true => simp [weightFrom]
      | false => simp [weightFrom]
  | cons bar history ih =>
      obtain ⟨first, changed⟩ := bar
      cases changed with
      | true =>
          rw [List.cons_append, weightFrom, ih, weightFrom, List.foldl_cons]
          simp only [if_true, mul_assoc]
      | false =>
          rw [List.cons_append, weightFrom, ih, weightFrom, List.foldl_cons]
          simp only [Bool.false_eq_true, if_false, mul_assoc]

/-- The weight of a run length that is too long. -/
theorem jointWeight_of_lt {values : List K} {r : ℕ} (h : values.length < r) :
    m.jointWeight pdf values r = 0 := by
  rw [jointWeight]
  refine List.sum_eq_zero fun w hw => ?_
  obtain ⟨changes, hchanges, rfl⟩ := List.mem_map.mp hw
  have hle := (length_runOf_zip hchanges).1
  rw [if_neg (by omega)]

/-- A sum over the bins of the joint weights, when the runs fit the bins. -/
theorem sum_jointWeight {width : ℕ} {values : List K} (hlt : values.length < width) (g : ℕ → K) :
    ∑ r : Fin width, m.jointWeight pdf values r.1 * g r.1 =
      ((histories values.length).map fun changes => m.weightFrom pdf [] (values.zip changes) *
        g (runOf (values.zip changes)).length).sum :=
  sum_bins _ _ (fun changes => (runOf (values.zip changes)).length) g fun _ hchanges =>
    (length_runOf_zip hchanges).1.trans_lt hlt

theorem sum_jointWeight_eq_evidence {width : ℕ} {values : List K} (hlt : values.length < width) :
    ∑ r : Fin width, m.jointWeight pdf values r.1 = m.evidence pdf values := by
  have hsum := m.sum_jointWeight pdf hlt fun _ => 1
  simp only [mul_one] at hsum
  exact hsum

/-- A run of length `r` that goes on. -/
theorem jointWeight_concat_succ (values : List K) (value : K) (r : ℕ) :
    m.jointWeight pdf (values ++ [value]) (r + 1) =
      m.jointWeight pdf values r * (m.density pdf (lastRun values r) value * (1 - m.hazard)) := by
  rw [jointWeight, sum_histories_concat values value fun history =>
    if (runOf history).length = r + 1 then m.weightFrom pdf [] history else 0, jointWeight,
    ← List.sum_map_mul_right]
  refine congrArg List.sum (List.map_congr_left fun changes hchanges => ?_)
  simp only [runOf_concat, if_true, List.length_nil, Bool.false_eq_true, if_false,
    List.length_append, List.length_singleton, Nat.add_right_cancel_iff]
  rw [if_neg (by omega), zero_add]
  by_cases hlength : (runOf (values.zip changes)).length = r
  · rw [if_pos hlength, if_pos hlength, weightFrom_concat, ← runOf,
      (length_runOf_zip hchanges).2, hlength, if_neg Bool.false_ne_true]
  · rw [if_neg hlength, if_neg hlength, zero_mul]

/-- A run that ends, whatever its length. -/
theorem jointWeight_concat_zero {width : ℕ} {values : List K} (hlt : values.length < width)
    (value : K) : m.jointWeight pdf (values ++ [value]) 0 =
      ∑ r : Fin width, m.jointWeight pdf values r.1 *
        (m.density pdf (lastRun values r.1) value * m.hazard) := by
  rw [m.sum_jointWeight pdf hlt fun r => m.density pdf (lastRun values r) value * m.hazard,
    jointWeight, sum_histories_concat values value fun history =>
      if (runOf history).length = 0 then m.weightFrom pdf [] history else 0]
  refine congrArg List.sum (List.map_congr_left fun changes hchanges => ?_)
  simp only [runOf_concat, if_true, List.length_nil, Bool.false_eq_true, if_false,
    List.length_append, List.length_singleton, Nat.add_eq_zero_iff, one_ne_zero, and_false,
    add_zero]
  rw [weightFrom_concat, ← runOf, if_pos rfl, ← (length_runOf_zip hchanges).2]

/-! ## Positive weights -/

section Positive

variable [IsStrictOrderedRing K] {pdf} (hpdf : ∀ value mu alpha beta kappa,
  0 < pdf value mu alpha beta kappa)

include hpdf

theorem weightFrom_pos (run : List K) (history : List (K × Bool)) :
    0 < m.weightFrom pdf run history := by
  have hhazard := m.hazard_mem
  induction history generalizing run with
  | nil => exact one_pos
  | cons bar history ih =>
      obtain ⟨value, change⟩ := bar
      have hdensity : 0 < m.density pdf run value := hpdf _ _ _ _ _
      cases change with
      | true => exact mul_pos (mul_pos hdensity hhazard.1) (ih _)
      | false => exact mul_pos (mul_pos hdensity (sub_pos.mpr hhazard.2)) (ih _)

theorem evidence_pos (values : List K) : 0 < m.evidence pdf values := by
  have hne : histories values.length ≠ [] := by
    refine List.ne_nil_of_mem (a := List.replicate values.length true) ?_
    rw [mem_histories_iff, List.length_replicate]
  rw [evidence]
  refine List.sum_pos _ (fun w hw => ?_) (by simpa using hne)
  obtain ⟨changes, -, rfl⟩ := List.mem_map.mp hw
  exact m.weightFrom_pos hpdf _ _

theorem jointWeight_nonneg (values : List K) (r : ℕ) : 0 ≤ m.jointWeight pdf values r := by
  rw [jointWeight]
  refine List.sum_nonneg fun w hw => ?_
  obtain ⟨changes, -, rfl⟩ := List.mem_map.mp hw
  split
  · exact (m.weightFrom_pos hpdf _ _).le
  · exact le_rfl

end Positive

/-! ## The filter -/

/-- The arrays after some finite values: the bins of runs that are possible hold the
statistics of the last values, and the posterior is the normalised joint weight. -/
structure Tracks (s : FilterState K m.maxRunLength) (values : List K) : Prop where
  statistics : ∀ r : Fin m.maxRunLength, r.1 ≤ values.length →
    (⟨s.alpha r, s.beta r, s.kappa r, s.mu r⟩ : RunStatistics K) =
      m.statisticsOf (lastRun values r.1)
  posterior : ∀ r, s.posterior r = m.jointWeight pdf values r.1 / m.evidence pdf values

theorem tracks_initial : m.Tracks pdf m.initial [] := by
  refine ⟨fun r _ => ?_, fun r => ?_⟩
  · have hrun : lastRun ([] : List K) r.1 = [] := List.drop_nil
    rw [hrun]
    rfl
  · simp only [initial, jointWeight, evidence, histories, List.length_nil, List.map_cons,
      List.map_nil, List.sum_cons, List.sum_nil, List.zip_nil_left, weightFrom, runOf,
      List.foldl_nil, add_zero, div_one, eq_comm]

theorem statisticsOf_concat (run : List K) (value : K) :
    m.statisticsOf (run ++ [value]) = (m.statisticsOf run).observe value := by
  rw [statisticsOf, List.foldl_append]
  rfl

section Step

variable {pdf} {m} {s : FilterState K m.maxRunLength} {values : List K}
  (h : m.Tracks pdf s values) (hlength : values.length + 1 < m.maxRunLength)

include h

theorem Tracks.density_eq (value : K) {r : Fin m.maxRunLength} (hr : r.1 ≤ values.length) :
    pdf value (s.mu r) (s.alpha r) (s.beta r) (s.kappa r) =
      m.density pdf (lastRun values r.1) value := by
  rw [density, ← h.statistics r hr]

/-- The weight of a bin times the density of a value under it. -/
theorem Tracks.posterior_mul (value : K) (r : Fin m.maxRunLength) :
    s.posterior r * pdf value (s.mu r) (s.alpha r) (s.beta r) (s.kappa r) =
      m.jointWeight pdf values r.1 * m.density pdf (lastRun values r.1) value /
        m.evidence pdf values := by
  by_cases hr : r.1 ≤ values.length
  · rw [h.density_eq value hr, h.posterior, div_mul_eq_mul_div]
  · rw [h.posterior, m.jointWeight_of_lt pdf (Nat.lt_of_not_le hr)]
    simp only [zero_mul, zero_div]

include hlength

/-- Before it is normalised, bin `r` has the joint weight of one more value. -/
theorem Tracks.updated_eq (value : K) (r : Fin m.maxRunLength) :
    m.updated pdf s value r =
      m.jointWeight pdf (values ++ [value]) r.1 / m.evidence pdf values := by
  have htail : (if r.1 = m.maxRunLength - 1 then s.posterior r *
      pdf value (s.mu r) (s.alpha r) (s.beta r) (s.kappa r) * (1 - m.hazard) else 0) = 0 := by
    split
    · rename_i hr
      rw [h.posterior, m.jointWeight_of_lt pdf (by omega)]
      simp only [zero_mul, zero_div]
    · rfl
  simp only [updated]
  rw [htail, add_zero]
  obtain ⟨r, hr⟩ := r
  cases r with
  | zero =>
      rw [shifted_zero _ _ rfl, m.jointWeight_concat_zero pdf (Nat.lt_of_succ_lt hlength),
        Finset.sum_div]
      refine Finset.sum_congr rfl fun r _ => ?_
      rw [h.posterior_mul]
      ring
  | succ r =>
      rw [shifted_succ _ _ hr, h.posterior_mul, m.jointWeight_concat_succ pdf]
      ring

variable [IsStrictOrderedRing K] (hpdf : ∀ value mu alpha beta kappa,
  0 < pdf value mu alpha beta kappa)

include hpdf

theorem Tracks.step (value : K) : m.Tracks pdf (m.step pdf s value) (values ++ [value]) := by
  have hevidence := m.evidence_pos hpdf values
  refine ⟨fun r hr => ?_, fun r => ?_⟩
  · obtain ⟨r, hlt⟩ := r
    cases r with
    | zero =>
        have hrun : lastRun (values ++ [value]) 0 = [] := by simp [lastRun]
        rw [hrun]
        rfl
    | succ r =>
        have hle : r ≤ values.length := by simpa using hr
        rw [lastRun_concat _ _ hle, statisticsOf_concat, ← h.statistics ⟨r, by omega⟩ hle]
        rfl
  · have htotal : ∑ r, m.updated pdf s value r =
        m.evidence pdf (values ++ [value]) / m.evidence pdf values := by
      have hfits : (values ++ [value]).length < m.maxRunLength := by simpa using hlength
      rw [← m.sum_jointWeight_eq_evidence pdf hfits, Finset.sum_div]
      exact Finset.sum_congr rfl fun r _ => h.updated_eq hlength value r
    have hpos : 0 < ∑ r, m.updated pdf s value r := by
      rw [htotal]
      exact div_pos (m.evidence_pos hpdf _) hevidence
    simp only [BayesianOnlineChangePoint.step]
    rw [if_pos hpos, htotal, h.updated_eq hlength, div_div_div_cancel_right₀ hevidence.ne']

end Step

/-! ## Every row -/

/-- A row holds the exact posterior of the finite values so far. -/
structure ExactRow (row : FilterRow K m.maxRunLength) (values : List K) : Prop where
  posterior : ∀ r : Fin m.maxRunLength,
    row.posterior r = m.jointWeight pdf values r.1 / m.evidence pdf values
  posterior_nonneg : ∀ r, 0 ≤ row.posterior r
  sum_posterior : ∑ r, row.posterior r = 1
  recent : row.recent = ∑ r : Fin m.maxRunLength, if r.1 < m.shortRun then row.posterior r else 0
  probabilities_nonneg : 0 ≤ row.established ∧ 0 ≤ row.recent
  sum_probabilities : row.established + row.recent = 1

theorem length_filterFrom (s : FilterState K m.maxRunLength) (values : List (Option K)) :
    (m.filterFrom pdf s values).length = values.length := by
  induction values generalizing s with
  | nil => rfl
  | cons value values ih =>
      cases value with
      | none => exact congrArg Nat.succ (ih s)
      | some value => exact congrArg Nat.succ (ih _)

/-- The rows of a prefix do not change when values follow it. -/
theorem filterFrom_append (s : FilterState K m.maxRunLength) (values later : List (Option K)) :
    (m.filterFrom pdf s (values ++ later)).take values.length = m.filterFrom pdf s values := by
  induction values generalizing s with
  | nil => rfl
  | cons value values ih =>
      cases value with
      | none => exact congrArg (none :: ·) (ih s)
      | some value => exact congrArg (_ :: ·) (ih _)

variable [IsStrictOrderedRing K] {pdf} (hpdf : ∀ value mu alpha beta kappa,
  0 < pdf value mu alpha beta kappa)

include hpdf

theorem Tracks.exactRow {s : FilterState K m.maxRunLength} {values : List K}
    (h : m.Tracks pdf s values) (hlength : values.length < m.maxRunLength) :
    m.ExactRow pdf (m.row s) values := by
  have hevidence := m.evidence_pos hpdf values
  have hnonneg : ∀ r, 0 ≤ s.posterior r := fun r => by
    rw [h.posterior]
    exact div_nonneg (m.jointWeight_nonneg hpdf _ _) hevidence.le
  have hsum : ∑ r, s.posterior r = 1 := by
    rw [Finset.sum_congr rfl fun r _ => h.posterior r, ← Finset.sum_div,
      m.sum_jointWeight_eq_evidence pdf hlength, div_self hevidence.ne']
  have hrecent : 0 ≤ ∑ r : Fin m.maxRunLength, if r.1 < m.shortRun then s.posterior r else 0 :=
    Finset.sum_nonneg fun r _ => by
      split
      · exact hnonneg r
      · exact le_rfl
  have hle : (∑ r : Fin m.maxRunLength, if r.1 < m.shortRun then s.posterior r else 0) ≤ 1 := by
    rw [← hsum]
    refine Finset.sum_le_sum fun r _ => ?_
    split
    · exact le_rfl
    · exact hnonneg r
  exact {
    posterior := h.posterior
    posterior_nonneg := hnonneg
    sum_posterior := hsum
    recent := rfl
    probabilities_nonneg := ⟨sub_nonneg.mpr hle, hrecent⟩
    sum_probabilities := sub_add_cancel _ _ }

/-- Every row of the filter, from a state that tracks the finite values before it. -/
theorem Tracks.filterFrom {s : FilterState K m.maxRunLength} {before : List K}
    (h : m.Tracks pdf s before) {values : List (Option K)}
    (hlength : before.length + values.reduceOption.length < m.maxRunLength) {i : ℕ}
    {row : Option (FilterRow K m.maxRunLength)}
    (hrow : (m.filterFrom pdf s values)[i]? = some row) :
    (values[i]? = some none ∧ row = none) ∨
      ∃ value exact, values[i]? = some (some value) ∧ row = some exact ∧
        m.ExactRow pdf exact (before ++ (values.take (i + 1)).reduceOption) := by
  induction values generalizing s before i with
  | nil => cases hrow
  | cons first values ih =>
      cases first with
      | none =>
          rw [List.reduceOption_cons_of_none] at hlength
          cases i with
          | zero => exact .inl ⟨rfl, (Option.some.inj hrow).symm⟩
          | succ i => simpa [List.reduceOption_cons_of_none] using ih h hlength hrow
      | some first =>
          rw [List.reduceOption_cons_of_some, List.length_cons] at hlength
          have hstep := h.step (by omega) hpdf first
          cases i with
          | zero =>
              refine .inr ⟨first, _, rfl, (Option.some.inj hrow).symm, ?_⟩
              exact hstep.exactRow m hpdf (by rw [List.length_append, List.length_singleton]; omega)
          | succ i =>
              have hrest := ih hstep (by rw [List.length_append, List.length_singleton]; omega) hrow
              simpa [List.reduceOption_cons_of_some] using hrest

/-- For fewer finite values than bins the filter is exact Bayesian inference, row by row, and
a row depends on no later value. -/
theorem filter_exact (values : List (Option K))
    (hlength : values.reduceOption.length < m.maxRunLength) :
    (m.filter pdf values).length = values.length ∧
      (∀ i : ℕ, values[i]? = some none → (m.filter pdf values)[i]? = some none) ∧
      (∀ (i : ℕ) (value : K), values[i]? = some (some value) → ∃ row,
        (m.filter pdf values)[i]? = some (some row) ∧
          m.ExactRow pdf row (values.take (i + 1)).reduceOption) ∧
      ∀ later, (m.filter pdf (values ++ later)).take values.length = m.filter pdf values := by
  have hlen : (m.filter pdf values).length = values.length := m.length_filterFrom pdf _ _
  have hrows : ∀ (i : ℕ) (value : Option K), values[i]? = some value → ∃ row,
      (m.filter pdf values)[i]? = some row ∧ ((value = none ∧ row = none) ∨
        ∃ finite exact, value = some finite ∧ row = some exact ∧
          m.ExactRow pdf exact (values.take (i + 1)).reduceOption) := by
    intro i value hvalue
    have hi : i < (m.filter pdf values).length := by
      rw [hlen]
      exact (List.getElem?_eq_some_iff.mp hvalue).1
    refine ⟨_, List.getElem?_eq_getElem hi, ?_⟩
    have hfits : ([] : List K).length + values.reduceOption.length < m.maxRunLength := by
      rwa [List.length_nil, Nat.zero_add]
    have hrow := (m.tracks_initial pdf).filterFrom m hpdf hfits (List.getElem?_eq_getElem hi)
    rw [hvalue, List.nil_append] at hrow
    rcases hrow with ⟨hnone, hrow⟩ | ⟨finite, exact, hsome, hrow, hexact⟩
    · exact .inl ⟨Option.some.inj hnone, hrow⟩
    · exact .inr ⟨finite, exact, Option.some.inj hsome, hrow, hexact⟩
  refine ⟨hlen, fun i hgap => ?_, fun i value hvalue => ?_, m.filterFrom_append pdf _ values⟩
  · obtain ⟨row, hrow, ⟨-, rfl⟩ | ⟨finite, -, hnone, -⟩⟩ := hrows i none hgap
    · exact hrow
    · cases hnone
  · obtain ⟨row, hrow, ⟨hnone, -⟩ | ⟨finite, exact, -, rfl, hexact⟩⟩ := hrows i _ hvalue
    · cases hnone
    · exact ⟨exact, hrow, hexact⟩

end BayesianOnlineChangePoint

/-- A model over the rationals, and a density of the shape of Student's. -/
def rationalModel : BayesianOnlineChangePoint ℚ where
  hazard := 1 / 4
  shortRun := 1
  maxRunLength := 3
  priorStrength := 1
  priorMean := 0
  priorVariance := 1
  hazard_mem := by norm_num
  shortRun_pos := le_rfl
  maxRunLength_mem := by norm_num
  priorStrength_pos := one_pos

def rationalDensity : Predictive ℚ := fun value mu _ _ _ => 1 / (1 + (value - mu) ^ 2)

theorem rationalDensity_pos (value mu alpha beta kappa : ℚ) :
    0 < rationalDensity value mu alpha beta kappa :=
  one_div_pos.mpr (by positivity)

theorem rationalModel_filter_exact :
    (rationalModel.filter rationalDensity [some 1, none, some 2]).length = 3 ∧
      (rationalModel.filter rationalDensity [some 1, none, some 2])[1]? = some none ∧
      ∃ row, (rationalModel.filter rationalDensity [some 1, none, some 2])[2]? = some (some row) ∧
        rationalModel.ExactRow rationalDensity row [1, 2] := by
  obtain ⟨hlength, hgaps, hvalues, -⟩ :=
    rationalModel.filter_exact rationalDensity_pos [some 1, none, some 2] (by decide)
  exact ⟨hlength, hgaps 1 rfl, hvalues 2 2 rfl⟩

end SignalFoundry.Regimes
