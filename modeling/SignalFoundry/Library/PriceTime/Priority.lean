import SignalFoundry.Library.PriceTime.Update
import Mathlib.Data.List.Sort

/-!
# Priority as a prefix

The orders of a side as one list, in the order of their priority. A walk through the
side fills a prefix of the orders that cross the limit, cut where the incoming
quantity is used up: every order but the last is filled whole.
-/

namespace PriceTime

universe u v

section Cut

variable {P : Type u} {I : Type v}

/-- The orders of a side with their prices, level by level. -/
def orders (levels : Levels P I) : List (I × P × ℤ) :=
  levels.flatMap fun level => level.2.map fun order => (order.1, level.1, order.2)

/-- The trades of a quantity with the first orders of a list. -/
inductive Cut (wanted : ℤ) (orders : List (I × P × ℤ)) : List (I × P × ℤ) → Prop
  /-- The orders that are filled use the quantity up, or there are no more. -/
  | whole {filled rest : List (I × P × ℤ)} (split : orders = filled ++ rest)
      (upTo : volume filled ≤ wanted) (beyond : volume filled = wanted ∨ rest = []) :
      Cut wanted orders filled
  /-- The last order is filled in part. -/
  | part {filled rest : List (I × P × ℤ)} {id : I} {price : P} {qty : ℤ}
      (split : orders = filled ++ (id, price, qty) :: rest) (upTo : volume filled < wanted)
      (beyond : wanted < volume filled + qty) :
      Cut wanted orders (filled ++ [(id, price, wanted - volume filled)])

/-- The orders of a level that crosses the limit come first. -/
theorem filter_orders_cons {crossed : P → Prop} [DecidablePred crossed] {level : P × Queue I}
    (hcrossed : crossed level.1) (levels : Levels P I) :
    (orders (level :: levels)).filter (fun order => crossed order.2.1) =
      (level.2.map fun order => (order.1, level.1, order.2)) ++
        (orders levels).filter fun order => crossed order.2.1 := by
  rw [orders, List.flatMap_cons, List.filter_append, List.filter_eq_self.mpr]
  · rfl
  · intro order horder
    obtain ⟨resting, -, rfl⟩ := List.mem_map.mp horder
    exact decide_eq_true hcrossed

theorem volume_cons (order : I × P × ℤ) (orders : List (I × P × ℤ)) :
    volume (order :: orders) = order.2.2 + volume orders := by
  simp [volume]

theorem Cut.cons {wanted : ℤ} {orders trades : List (I × P × ℤ)} {order : I × P × ℤ}
    (h : Cut (wanted - order.2.2) orders trades) :
    Cut wanted (order :: orders) (order :: trades) := by
  cases h with
  | whole split upTo beyond =>
      refine .whole (by rw [split, List.cons_append]) ?_ (beyond.imp_left fun h => ?_)
      · rw [volume_cons]
        omega
      · rw [volume_cons]
        omega
  | @part filled rest id price qty split upTo beyond =>
      have hleft : wanted - volume (order :: filled) = wanted - order.2.2 - volume filled := by
        rw [volume_cons]
        omega
      have hsplit : order :: orders = (order :: filled) ++ (id, price, qty) :: rest := by
        rw [split, List.cons_append]
      rw [← List.cons_append, ← hleft]
      refine .part hsplit ?_ ?_
      · rw [volume_cons]
        omega
      · rw [volume_cons]
        omega

/-- A quantity of zero trades with nothing. -/
theorem Cut.zero (orders : List (I × P × ℤ)) : Cut 0 orders [] :=
  .whole (List.nil_append orders).symm le_rfl (.inl rfl)

/-- A walk through one queue, followed by a walk through the orders behind it. -/
theorem cut_take {wanted : ℤ} {queue : Queue I} {price : P} {more trades : List (I × P × ℤ)}
    (hwanted : 0 ≤ wanted) (hmore : Cut (take wanted queue).left more trades)
    (hstop : (take wanted queue).left = 0 → trades = []) :
    Cut wanted ((queue.map fun order => (order.1, price, order.2)) ++ more)
      (tradesAt price (take wanted queue) ++ trades) := by
  induction wanted, queue using take_induction with
  | nil => simpa [tradesAt] using hmore
  | stop wanted queue hnone =>
      obtain rfl := le_antisymm hnone hwanted
      rw [take_of_nonpos le_rfl] at hstop ⊢
      rw [hstop rfl]
      exact .zero _
  | used wanted order queue hpos hle ih =>
      rw [take_cons_of_le hpos hle] at hmore hstop ⊢
      exact (ih (by omega) hmore hstop).cons
  | last wanted order queue hpos hlt =>
      rw [take_cons_of_lt hpos hlt] at hstop ⊢
      rw [hstop rfl, List.append_nil]
      have hcut : Cut wanted
          ((order.1, price, order.2) :: ((queue.map fun order => (order.1, price, order.2)) ++ more))
          ([] ++ [(order.1, price, wanted - volume ([] : List (I × P × ℤ)))]) :=
        .part (List.nil_append _).symm hpos (by simpa [volume] using hlt)
      simpa [tradesAt, volume] using hcut

theorem sweep_of_nonpos {crossed : P → Prop} [DecidablePred crossed] {wanted : ℤ}
    (h : wanted ≤ 0) (levels : Levels P I) : (sweep crossed wanted levels).trades = [] := by
  cases levels with
  | nil => rfl
  | cons level levels => rw [sweep_of_not fun hgo => absurd hgo.1 h.not_gt]

/-- A walk through a side trades with a prefix of the orders that cross the limit. -/
theorem cut_sweep {r : P → P → Prop} {crossed : P → Prop} [DecidablePred crossed] {wanted : ℤ}
    {levels : Levels P I} (hsorted : Sorted r levels)
    (hclosed : ∀ price price', r price price' → crossed price' → crossed price)
    (hwanted : 0 ≤ wanted) :
    Cut wanted ((orders levels).filter fun order => crossed order.2.1)
      (sweep crossed wanted levels).trades := by
  induction wanted, levels using sweep_induction crossed with
  | nil => exact .whole rfl (by simpa [volume] using hwanted) (.inr rfl)
  | stop wanted best levels hnot =>
      rw [sweep_of_not hnot]
      rcases hwanted.eq_or_lt with rfl | hpos
      · exact .zero _
      · have hbest : ¬ crossed best.1 := fun hcrossed => hnot ⟨hpos, hcrossed⟩
        have hnone : (orders (best :: levels)).filter (fun order => crossed order.2.1) = [] := by
          refine List.filter_eq_nil_iff.mpr fun order horder => ?_
          obtain ⟨level, hlevel, hplace⟩ := List.mem_flatMap.mp horder
          obtain ⟨resting, -, rfl⟩ := List.mem_map.mp hplace
          rw [decide_eq_true_iff]
          rcases List.mem_cons.mp hlevel with rfl | hlater
          · exact hbest
          · exact fun hcrossed => hbest
              (hclosed _ _ ((List.pairwise_cons.mp hsorted).1 level hlater) hcrossed)
        rw [hnone]
        exact .whole rfl (by simpa [volume] using hwanted) (.inr rfl)
  | used wanted best levels hpos hcrossed hused ih =>
      have htail := (List.pairwise_cons.mp hsorted).2
      rw [sweep_of_used hpos hcrossed hused, filter_orders_cons hcrossed]
      refine cut_take hwanted (ih htail (left_take_nonneg best.2 hwanted)) fun hleft => ?_
      exact sweep_of_nonpos hleft.le levels
  | kept wanted best levels hpos hcrossed hkept =>
      have hleft : (take wanted best.2).left = 0 :=
        le_antisymm (not_lt.mp fun hleft => hkept (take_queue_of_left hleft))
          (left_take_nonneg best.2 hwanted)
      rw [sweep_of_kept hpos hcrossed hkept, filter_orders_cons hcrossed,
        ← List.append_nil (tradesAt _ _)]
      exact cut_take hwanted (hleft ▸ .zero _) fun _ => rfl

/-- The orders of a sound side stand in the order of their priority. -/
theorem Sound.pairwise_orders [LT I] {r : P → P → Prop} {levels : Levels P I}
    (h : Sound r levels) :
    (orders levels).Pairwise fun order other =>
      r order.2.1 other.2.1 ∨ order.2.1 = other.2.1 ∧ order.1 < other.1 := by
  refine List.pairwise_flatMap.mpr ⟨fun level hlevel => ?_, h.sorted.imp ?_⟩
  · refine List.pairwise_map.mpr (((List.pairwise_map.mp (h.aged level hlevel))).imp ?_)
    intro order other hage
    exact .inr ⟨rfl, hage⟩
  · intro level later hbetter order horder other hother
    obtain ⟨resting, -, rfl⟩ := List.mem_map.mp horder
    obtain ⟨resting', -, rfl⟩ := List.mem_map.mp hother
    exact .inl hbetter

end Cut

end PriceTime
