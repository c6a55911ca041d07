import Mathlib.Algebra.Order.Field.Basic
import Mathlib.Tactic.Linarith
import Mathlib.Tactic.GCongr

/-!
# The step-up procedure of Benjamini and Hochberg

A family of `m` hypotheses is tested at a level by comparing the `i`-th smallest
`p`-value with `i * level / m`, from the largest on, until one is within its bound; it and
the hypotheses before it are rejected. The adjusted values are the running minima of the
values times `m / i`, and a hypothesis is rejected exactly when its adjusted value is at
most the level (`map_adjustDown`).
-/

universe u

namespace BenjaminiHochberg

variable {α : Type u} [Field α] [LinearOrder α]

/-- The rejections among values in decreasing order, in a family of `count`. -/
def stepFrom (level : α) (count : ℕ) : List α → List Bool
  | [] => []
  | p :: ps =>
      if p ≤ (ps.length + 1) * level / count then (p :: ps).map fun _ => true
      else false :: stepFrom level count ps

/-- The rejections among values in increasing order. -/
def stepUp (level : α) (ps : List α) : List Bool :=
  (stepFrom level ps.length ps.reverse).reverse

/-- The adjusted values of values in decreasing order, given the minimum so far. -/
def adjustDown (count : ℕ) (running : α) : List α → List α
  | [] => []
  | p :: ps =>
      let running := min running (min 1 (count * p / (ps.length + 1)))
      running :: adjustDown count running ps

variable {level running : α} {count : ℕ}

theorem length_adjustDown (ps : List α) : (adjustDown count running ps).length = ps.length := by
  induction ps generalizing running with
  | nil => rfl
  | cons p ps ih => simp [adjustDown, ih]

/-- Once the running minimum is within the level every hypothesis is rejected. -/
theorem map_adjustDown_of_le (h : running ≤ level) (ps : List α) :
    (adjustDown count running ps).map (fun a => decide (a ≤ level)) = ps.map fun _ => true := by
  induction ps generalizing running with
  | nil => rfl
  | cons p ps ih =>
      have hnext : min running (min 1 (count * p / (ps.length + 1))) ≤ level := min_le_of_left_le h
      rw [adjustDown, List.map_cons, List.map_cons, ih hnext, decide_eq_true hnext]

theorem le_running_of_mem_adjustDown {ps : List α} {a : α} (h : a ∈ adjustDown count running ps) :
    a ≤ running := by
  induction ps generalizing running with
  | nil => cases h
  | cons p ps ih =>
      rw [adjustDown, List.mem_cons] at h
      rcases h with rfl | h
      · exact min_le_left _ _
      · exact (ih h).trans (min_le_left _ _)

variable [IsStrictOrderedRing α]

theorem le_rank_iff {n : ℕ} {p : α} (hcount : 0 < count) :
    p ≤ (n + 1) * level / count ↔ count * p / (n + 1) ≤ level := by
  have hm : (0 : α) < count := Nat.cast_pos.mpr hcount
  rw [le_div_iff₀ hm, div_le_iff₀ (by positivity), mul_comm p, mul_comm level]

/-- The adjusted values that are at most the level are those of the rejected
hypotheses. -/
theorem map_adjustDown (hcount : 0 < count) (hlevel : level < 1) (h : level < running)
    (ps : List α) :
    (adjustDown count running ps).map (fun a => decide (a ≤ level)) = stepFrom level count ps := by
  induction ps generalizing running with
  | nil => rfl
  | cons p ps ih =>
      rw [adjustDown, List.map_cons, stepFrom]
      by_cases hp : p ≤ (ps.length + 1) * level / count
      · have hnext : min running (min 1 (count * p / (ps.length + 1))) ≤ level :=
          min_le_of_right_le (min_le_of_right_le ((le_rank_iff hcount).mp hp))
        rw [if_pos hp, map_adjustDown_of_le hnext, decide_eq_true hnext]
        rfl
      · have hproduct : level < count * p / (ps.length + 1) :=
          not_le.mp (mt (le_rank_iff hcount).mpr hp)
        have hnext : level < min running (min 1 (count * p / (ps.length + 1))) :=
          lt_min h (lt_min hlevel hproduct)
        rw [if_neg hp, ih hnext, decide_eq_false hnext.not_ge]

/-- An adjusted value is bounded by the first product its value could have had. -/
theorem le_of_mem_zip_adjustDown {ps : List α} (hsorted : ps.Pairwise (· ≥ ·))
    (hnonneg : ∀ p ∈ ps, 0 ≤ p) {x : α × α} (h : x ∈ ps.zip (adjustDown count running ps)) :
    min running (min 1 (count * x.1 / ps.length)) ≤ x.2 := by
  induction ps generalizing running with
  | nil => cases h
  | cons p ps ih =>
      obtain ⟨hge, hsorted⟩ := List.pairwise_cons.mp hsorted
      have hnonneg' : ∀ q ∈ ps, 0 ≤ q := fun q hq => hnonneg q (List.mem_cons_of_mem p hq)
      rw [adjustDown, List.zip_cons_cons, List.mem_cons] at h
      rw [List.length_cons, Nat.cast_add, Nat.cast_one]
      rcases h with rfl | h
      · exact le_rfl
      · have hx : x.1 ∈ ps := (List.of_mem_zip h).1
        have hx0 : 0 ≤ count * x.1 := mul_nonneg (Nat.cast_nonneg _) (hnonneg' x.1 hx)
        have hlength : (0 : α) < ps.length := Nat.cast_pos.mpr (List.length_pos_of_mem hx)
        have hfirst : count * x.1 / ((ps.length : α) + 1) ≤ count * p / (ps.length + 1) := by
          gcongr
          exact hge x.1 hx
        have hrest : count * x.1 / ((ps.length : α) + 1) ≤ count * x.1 / ps.length := by
          gcongr
          linarith
        refine le_trans (le_min (le_min (min_le_left _ _) ?_) ?_) (ih hsorted hnonneg' h)
        · exact min_le_of_right_le (min_le_min_left 1 hfirst)
        · exact min_le_of_right_le (min_le_min_left 1 hrest)

/-- Equal values are adjusted alike. -/
theorem pairwise_zip_adjustDown {ps : List α} (hsorted : ps.Pairwise (· ≥ ·))
    (hnonneg : ∀ p ∈ ps, 0 ≤ p) :
    (ps.zip (adjustDown count running ps)).Pairwise fun x y => x.1 = y.1 → x.2 = y.2 := by
  induction ps generalizing running with
  | nil => exact List.Pairwise.nil
  | cons p ps ih =>
      obtain ⟨-, hsorted⟩ := List.pairwise_cons.mp hsorted
      have hnonneg' : ∀ q ∈ ps, 0 ≤ q := fun q hq => hnonneg q (List.mem_cons_of_mem p hq)
      rw [adjustDown, List.zip_cons_cons, List.pairwise_cons]
      refine ⟨fun y hy heq => ?_, ih hsorted hnonneg'⟩
      have hrunning := le_running_of_mem_adjustDown (List.of_mem_zip hy).2
      refine le_antisymm ?_ hrunning
      -- a later product of the same value is not smaller
      have hy1 : y.1 ∈ ps := (List.of_mem_zip hy).1
      have hlength : (0 : α) < ps.length := Nat.cast_pos.mpr (List.length_pos_of_mem hy1)
      have hy0 : 0 ≤ count * y.1 := mul_nonneg (Nat.cast_nonneg _) (hnonneg' y.1 hy1)
      have hproduct : count * p / ((ps.length : α) + 1) ≤ count * y.1 / ps.length := by
        simp only at heq
        rw [heq]
        gcongr
        linarith
      refine le_trans (le_min le_rfl ?_) (le_of_mem_zip_adjustDown hsorted hnonneg' hy)
      exact min_le_of_right_le (min_le_min_left 1 hproduct)

theorem adjustDown_eq_of_eq {ps : List α} (hsorted : ps.Pairwise (· ≥ ·))
    (hnonneg : ∀ p ∈ ps, 0 ≤ p) {x y : α × α} (hx : x ∈ ps.zip (adjustDown count running ps))
    (hy : y ∈ ps.zip (adjustDown count running ps)) (heq : x.1 = y.1) : x.2 = y.2 :=
  (pairwise_zip_adjustDown hsorted hnonneg).forall_of_forall_of_flip (fun _ _ _ => rfl)
    ((pairwise_zip_adjustDown hsorted hnonneg).imp fun h heq => (h heq.symm).symm) hx hy heq

end BenjaminiHochberg
