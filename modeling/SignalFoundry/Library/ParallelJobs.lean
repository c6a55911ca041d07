import Mathlib.MeasureTheory.Integral.Bochner.Set
import Mathlib.MeasureTheory.Measure.Lebesgue.Basic

/-!
# Jobs that run in parallel

Jobs run without interruption from their start for their duration. The integral of a load
over time is the weight of every job by its duration, so that a bound on how many run at
once bounds the total duration by the span of time. The load of any few values is at most
that of as many largest ones.
-/

namespace ParallelJobs

open MeasureTheory

section Load

variable {ι : Type} [Fintype ι] (start duration weight : ι → ℝ)

/-- The jobs that run at a time. -/
noncomputable def running (t : ℝ) : Finset ι :=
  Finset.univ.filter fun i => start i ≤ t ∧ t < start i + duration i

/-- The weight of the jobs that run at a time. -/
noncomputable def load (t : ℝ) : ℝ := ∑ i ∈ running start duration t, weight i

theorem mem_running {i : ι} {t : ℝ} :
    i ∈ running start duration t ↔ start i ≤ t ∧ t < start i + duration i := by
  simp [running]

theorem load_eq_sum_indicator :
    load start duration weight = fun t => ∑ i,
      (Set.Ico (start i) (start i + duration i)).indicator (fun _ => weight i) t := by
  funext t
  rw [load, running, Finset.sum_filter]
  refine Finset.sum_congr rfl fun i _ => ?_
  rw [Set.indicator_apply]
  exact if_congr Iff.rfl rfl rfl

omit [Fintype ι] in
theorem integrable_indicator (i : ι) : Integrable fun t =>
    (Set.Ico (start i) (start i + duration i)).indicator (fun _ => weight i) t := by
  rw [integrable_indicator_iff measurableSet_Ico]
  exact integrableOn_const measure_Ico_lt_top.ne

theorem integrable_load : Integrable (load start duration weight) := by
  rw [load_eq_sum_indicator]
  exact integrable_finsetSum _ fun i _ => integrable_indicator start duration weight i

variable {start duration weight}

theorem integral_load (hduration : ∀ i, 0 ≤ duration i) :
    ∫ t, load start duration weight t = ∑ i, weight i * duration i := by
  rw [load_eq_sum_indicator, integral_finsetSum _ fun i _ =>
    integrable_indicator start duration weight i]
  refine Finset.sum_congr rfl fun i _ => ?_
  rw [integral_indicator measurableSet_Ico, setIntegral_const, Real.volume_real_Ico,
    add_sub_cancel_left, max_eq_left (hduration i), smul_eq_mul, mul_comm]

/-- At most `c` jobs at once need a span of time of at least a `c`-th of their durations. -/
theorem sum_duration_le_mul_span {a b c : ℝ} (hduration : ∀ i, 0 ≤ duration i)
    (hcapacity : ∀ t, ((running start duration t).card : ℝ) ≤ c) (hab : a ≤ b)
    (hspan : ∀ i, a ≤ start i ∧ start i + duration i ≤ b) : ∑ i, duration i ≤ c * (b - a) := by
  have hload : ∀ t, load start duration (fun _ => 1) t ≤
      (Set.Ico a b).indicator (fun _ => c) t := by
    intro t
    rw [load, Finset.sum_const, nsmul_eq_mul, mul_one]
    by_cases ht : t ∈ Set.Ico a b
    · rw [Set.indicator_of_mem ht]
      exact hcapacity t
    · have hnone : running start duration t = ∅ := by
        refine Finset.eq_empty_of_forall_notMem fun i hi => ht ?_
        rw [mem_running] at hi
        exact ⟨(hspan i).1.trans hi.1, hi.2.trans_le (hspan i).2⟩
      rw [Set.indicator_of_notMem ht, hnone, Finset.card_empty, Nat.cast_zero]
  have hint : Integrable fun t => (Set.Ico a b).indicator (fun _ => c) t := by
    rw [integrable_indicator_iff measurableSet_Ico]
    exact integrableOn_const measure_Ico_lt_top.ne
  calc ∑ i, duration i = ∑ i, 1 * duration i := by simp
    _ = ∫ t, load start duration (fun _ => 1) t := (integral_load hduration).symm
    _ ≤ ∫ t, (Set.Ico a b).indicator (fun _ => c) t :=
        integral_mono (integrable_load _ _ _) hint hload
    _ = c * (b - a) := by
        rw [integral_indicator measurableSet_Ico, setIntegral_const, Real.volume_real_Ico,
          max_eq_left (sub_nonneg.mpr hab), smul_eq_mul, mul_comm]

end Load

/-! ## The largest values -/

section Largest

variable {M : Type} [AddCommMonoid M] [LinearOrder M] [IsOrderedAddMonoid M] {l few : List M}

theorem sum_take_succ_le {a : M} (hl : ∀ x ∈ l, x ≤ a) (ha : 0 ≤ a) (c : ℕ) :
    (l.take (c + 1)).sum ≤ a + (l.take c).sum := by
  rw [List.take_add_one, List.sum_append, add_comm]
  refine add_le_add_left ?_ _
  cases hget : l[c]? with
  | none => simpa using ha
  | some x => simpa using hl x (List.mem_of_getElem? hget)

/-- A few of some values add up to at most as many largest ones. -/
theorem sum_le_sum_take (hsorted : l.Pairwise (· ≥ ·)) (hnonneg : ∀ x ∈ l, 0 ≤ x)
    (hsub : few.Subperm l) {c : ℕ} (hlength : few.length ≤ c) : few.sum ≤ (l.take c).sum := by
  induction l generalizing few c with
  | nil =>
      rw [List.subperm_nil.mp hsub]
      simp
  | cons a l ih =>
      obtain ⟨hle, hrest⟩ := List.pairwise_cons.mp hsorted
      have ha : 0 ≤ a := hnonneg a List.mem_cons_self
      have hnonneg' : ∀ x ∈ l, 0 ≤ x := fun x hx => hnonneg x (List.mem_cons_of_mem a hx)
      by_cases hmem : a ∈ few
      · have hperm := List.perm_cons_erase hmem
        have hsub' : (few.erase a).Subperm l := by
          have h := hsub.erase a
          rwa [List.erase_cons_head] at h
        have hlength' := hperm.length_eq
        rw [List.length_cons] at hlength'
        obtain ⟨c, rfl⟩ := Nat.exists_eq_succ_of_ne_zero (n := c) (by omega)
        rw [hperm.sum_eq, List.sum_cons, List.take_succ_cons, List.sum_cons]
        exact add_le_add_right (ih hrest hnonneg' hsub' (by omega)) a
      · have hsub' : few.Subperm l := by
          have h := hsub.erase a
          rwa [List.erase_cons_head, List.erase_of_not_mem hmem] at h
        refine (ih hrest hnonneg' hsub' hlength).trans ?_
        cases c with
        | zero => simp
        | succ c =>
            rw [List.take_succ_cons, List.sum_cons]
            exact sum_take_succ_le hle ha c

end Largest

end ParallelJobs
