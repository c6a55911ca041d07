import Mathlib.Algebra.Order.Field.Basic
import Mathlib.Data.List.Sort
import Mathlib.Tactic.Linarith

/-!
# Holm's step-down procedure

A family of `m` hypotheses is tested at a level by comparing the `i`-th smallest
`p`-value with `level / (m - i + 1)`, from the smallest on, until one exceeds its
bound; the hypotheses before it are rejected. The adjusted values are the running
maxima of the values times the number of hypotheses that are left, and a
hypothesis is rejected exactly when its adjusted value is at most the level
(`map_adjustFrom`).
-/

universe u

namespace Holm

variable {α : Type u} [Field α] [LinearOrder α]

/-- The rejections among values in increasing order. -/
def stepDown (level : α) : List α → List Bool
  | [] => []
  | p :: ps =>
      if p ≤ level / (ps.length + 1) then true :: stepDown level ps
      else (p :: ps).map fun _ => false

/-- The adjusted values of values in increasing order, given the maximum so far. -/
def adjustFrom (running : α) : List α → List α
  | [] => []
  | p :: ps =>
      let running := max running (min 1 ((ps.length + 1) * p))
      running :: adjustFrom running ps

/-- The least nonnegative level at which every hypothesis is rejected. -/
def bound : List α → α
  | [] => 0
  | p :: ps => max ((ps.length + 1) * p) (bound ps)

/-- Whether every hypothesis of a family is rejected. -/
def RejectsAll (level : α) (values : List α) : Prop :=
  ∀ rejected ∈ stepDown level (values.insertionSort (· ≤ ·)), rejected = true

variable {level running : α}

theorem length_adjustFrom (ps : List α) :
    (adjustFrom running ps).length = ps.length := by
  induction ps generalizing running with
  | nil => rfl
  | cons p ps ih => simp [adjustFrom, ih]

theorem length_stepDown (ps : List α) : (stepDown level ps).length = ps.length := by
  induction ps with
  | nil => rfl
  | cons p ps ih =>
      unfold stepDown
      split <;> simp [ih]

/-- Once the running maximum has passed the level no hypothesis is rejected. -/
theorem map_adjustFrom_of_lt (h : level < running) (ps : List α) :
    (adjustFrom running ps).map (fun a => decide (a ≤ level)) = ps.map fun _ => false := by
  induction ps generalizing running with
  | nil => rfl
  | cons p ps ih =>
      have hnext : level < max running (min 1 ((ps.length + 1) * p)) := lt_max_of_lt_left h
      rw [adjustFrom, List.map_cons, List.map_cons, ih hnext, decide_eq_false hnext.not_ge]

theorem running_le_of_mem_adjustFrom {ps : List α} {a : α} (h : a ∈ adjustFrom running ps) :
    running ≤ a := by
  induction ps generalizing running with
  | nil => cases h
  | cons p ps ih =>
      rw [adjustFrom, List.mem_cons] at h
      rcases h with rfl | h
      · exact le_max_left _ _
      · exact (le_max_left _ _).trans (ih h)

variable [IsStrictOrderedRing α]

theorem le_div_remaining_iff {n : ℕ} {p : α} : p ≤ level / (n + 1) ↔ (n + 1) * p ≤ level := by
  rw [le_div_iff₀ (by positivity), mul_comm]

/-- The adjusted values that are at most the level are those of the rejected
hypotheses. -/
theorem map_adjustFrom (hlevel : level < 1) (h : running ≤ level) (ps : List α) :
    (adjustFrom running ps).map (fun a => decide (a ≤ level)) = stepDown level ps := by
  induction ps generalizing running with
  | nil => rfl
  | cons p ps ih =>
      rw [adjustFrom, List.map_cons, stepDown]
      by_cases hp : p ≤ level / (ps.length + 1)
      · have hnext : max running (min 1 ((ps.length + 1) * p)) ≤ level :=
          max_le h ((min_le_right _ _).trans (le_div_remaining_iff.mp hp))
        rw [if_pos hp, ih hnext, decide_eq_true hnext]
      · have hproduct : level < (ps.length + 1) * p :=
          not_le.mp (mt le_div_remaining_iff.mpr hp)
        have hnext : level < max running (min 1 ((ps.length + 1) * p)) :=
          lt_max_of_lt_right (lt_min hlevel hproduct)
        rw [if_neg hp, map_adjustFrom_of_lt hnext, decide_eq_false hnext.not_ge]
        rfl

/-- An adjusted value is bounded by the first product its value could have had. -/
theorem le_of_mem_zip_adjustFrom {ps : List α} (hsorted : ps.Pairwise (· ≤ ·))
    (hnonneg : ∀ p ∈ ps, 0 ≤ p) {x : α × α} (h : x ∈ ps.zip (adjustFrom running ps)) :
    x.2 ≤ max running (min 1 (ps.length * x.1)) := by
  induction ps generalizing running with
  | nil => cases h
  | cons p ps ih =>
      obtain ⟨hle, hsorted⟩ := List.pairwise_cons.mp hsorted
      have hnonneg' : ∀ q ∈ ps, 0 ≤ q := fun q hq => hnonneg q (List.mem_cons_of_mem p hq)
      rw [adjustFrom, List.zip_cons_cons, List.mem_cons] at h
      rw [List.length_cons, Nat.cast_add, Nat.cast_one]
      rcases h with rfl | h
      · exact le_rfl
      · have hx : x.1 ∈ ps := (List.of_mem_zip h).1
        have hfirst : ((ps.length : α) + 1) * p ≤ (ps.length + 1) * x.1 :=
          mul_le_mul_of_nonneg_left (hle x.1 hx) (by positivity)
        have hrest : (ps.length : α) * x.1 ≤ (ps.length + 1) * x.1 :=
          mul_le_mul_of_nonneg_right (by linarith) (hnonneg' x.1 hx)
        refine (ih hsorted hnonneg' h).trans (max_le (max_le (le_max_left _ _) ?_) ?_)
        · exact le_max_of_le_right (min_le_min_left 1 hfirst)
        · exact le_max_of_le_right (min_le_min_left 1 hrest)

/-- Adjusted values follow the order of the values, and equal values are adjusted
alike. -/
theorem pairwise_zip_adjustFrom {ps : List α} (hsorted : ps.Pairwise (· ≤ ·))
    (hnonneg : ∀ p ∈ ps, 0 ≤ p) :
    (ps.zip (adjustFrom running ps)).Pairwise fun x y =>
      x.1 ≤ y.1 ∧ x.2 ≤ y.2 ∧ (x.1 = y.1 → x.2 = y.2) := by
  induction ps generalizing running with
  | nil => exact List.Pairwise.nil
  | cons p ps ih =>
      obtain ⟨hle, hsorted⟩ := List.pairwise_cons.mp hsorted
      have hnonneg' : ∀ q ∈ ps, 0 ≤ q := fun q hq => hnonneg q (List.mem_cons_of_mem p hq)
      rw [adjustFrom, List.zip_cons_cons, List.pairwise_cons]
      refine ⟨fun y hy => ?_, ih hsorted hnonneg'⟩
      have hrunning := running_le_of_mem_adjustFrom (List.of_mem_zip hy).2
      refine ⟨hle y.1 (List.of_mem_zip hy).1, hrunning, fun heq => le_antisymm hrunning ?_⟩
      -- a later product of the same value is not greater
      have hproduct : (ps.length : α) * y.1 ≤ (ps.length + 1) * p := by
        rw [← heq]
        exact mul_le_mul_of_nonneg_right (by linarith) (hnonneg p List.mem_cons_self)
      refine (le_of_mem_zip_adjustFrom hsorted hnonneg' hy).trans (max_le le_rfl ?_)
      exact le_max_of_le_right (min_le_min_left 1 hproduct)

/-- Adjusted values are monotone in the values. -/
theorem adjustFrom_mono {ps : List α} (hsorted : ps.Pairwise (· ≤ ·))
    (hnonneg : ∀ p ∈ ps, 0 ≤ p) {x y : α × α} (hx : x ∈ ps.zip (adjustFrom running ps))
    (hy : y ∈ ps.zip (adjustFrom running ps)) (hle : x.1 ≤ y.1) : x.2 ≤ y.2 := by
  have hpairs : (ps.zip (adjustFrom running ps)).Pairwise fun x y =>
      x.1 ≤ y.1 ∧ x.2 ≤ y.2 ∧ (x.1 = y.1 → x.2 = y.2) := pairwise_zip_adjustFrom hsorted hnonneg
  have hforward : (ps.zip (adjustFrom running ps)).Pairwise fun x y => x.1 ≤ y.1 → x.2 ≤ y.2 :=
    hpairs.imp fun h _ => h.2.1
  have hbackward : (ps.zip (adjustFrom running ps)).Pairwise fun x y => y.1 ≤ x.1 → y.2 ≤ x.2 :=
    hpairs.imp fun h hba => (h.2.2 (le_antisymm h.1 hba)).ge
  exact List.Pairwise.forall_of_forall_of_flip (fun _ _ _ => le_rfl) hforward hbackward hx hy hle

/-- Every hypothesis is rejected exactly at the levels from the bound on. -/
theorem stepDown_all_iff (hlevel : 0 ≤ level) (ps : List α) :
    (∀ rejected ∈ stepDown level ps, rejected = true) ↔ bound ps ≤ level := by
  induction ps with
  | nil => simp [stepDown, bound, hlevel]
  | cons p ps ih =>
      rw [bound, max_le_iff, ← ih, ← le_div_remaining_iff]
      by_cases hp : p ≤ level / (ps.length + 1)
      · simp [stepDown, hp]
      · simp [stepDown, hp]

theorem rejectsAll_iff (hlevel : 0 ≤ level) (values : List α) :
    RejectsAll level values ↔ bound (values.insertionSort (· ≤ ·)) ≤ level :=
  stepDown_all_iff hlevel _

omit [IsStrictOrderedRing α] in
theorem bound_nonneg (ps : List α) : 0 ≤ bound ps := by
  induction ps with
  | nil => exact le_rfl
  | cons p ps ih => exact le_max_of_le_right ih

end Holm
