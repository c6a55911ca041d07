import Mathlib.Algebra.BigOperators.Group.List.Basic
import Mathlib.Algebra.Order.Group.Int
import Mathlib.Algebra.Ring.Int.Defs
import Mathlib.Data.List.Pairwise
import Mathlib.Order.RelClasses

/-!
# Price-time priority

One side of a book is a list of price levels, best first, and each level is a
queue of orders, oldest first. An incoming quantity walks the queue of the best
level (`take`) and then the levels (`sweep`), as long as they cross its limit.
Whatever is left may join the book (`rest`), and an order may leave it
(`remove`). Which price is better is a relation `r`, so that one development
serves both sides.

A trade takes from one order what it gives to the incoming quantity
(`resting_sweep`, `volume_sweep`); these laws hold of any list of levels.
-/

namespace PriceTime

universe u v

/-- The orders resting at one price with the quantity left of each, oldest first. -/
abbrev Queue (I : Type v) := List (I × ℤ)

/-- The price levels of one side of a book, best first. -/
abbrev Levels (P : Type u) (I : Type v) := List (P × Queue I)

/-- The trades of an incoming quantity with a queue, what rests after them and
the quantity left. -/
structure Taken (I : Type v) where
  trades : List (I × ℤ)
  queue : Queue I
  left : ℤ

/-- The trades of an incoming quantity with a side, what rests after them and the
quantity left. -/
structure Swept (P : Type u) (I : Type v) where
  trades : List (I × P × ℤ)
  levels : Levels P I
  left : ℤ

section Operations

variable {P : Type u} {I : Type v}

/-- Fill the orders of a queue from the oldest on. -/
def take (wanted : ℤ) : Queue I → Taken I
  | [] => ⟨[], [], wanted⟩
  | (id, qty) :: queue =>
      if wanted ≤ 0 then ⟨[], (id, qty) :: queue, wanted⟩
      else if qty ≤ wanted then
        let later := take (wanted - qty) queue
        ⟨(id, qty) :: later.trades, later.queue, later.left⟩
      else ⟨[(id, wanted)], (id, qty - wanted) :: queue, 0⟩

/-- Fill the levels that cross the limit from the best on; a level that is used
up goes. -/
def sweep (crossed : P → Prop) [DecidablePred crossed] (wanted : ℤ) : Levels P I → Swept P I
  | [] => ⟨[], [], wanted⟩
  | (price, queue) :: levels =>
      if 0 < wanted ∧ crossed price then
        let taken := take wanted queue
        let trades := taken.trades.map fun trade => (trade.1, price, trade.2)
        if taken.queue = [] then
          let later := sweep crossed taken.left levels
          ⟨trades ++ later.trades, later.levels, later.left⟩
        else ⟨trades, (price, taken.queue) :: levels, taken.left⟩
      else ⟨[], (price, queue) :: levels, wanted⟩

/-- Put an order at the end of the queue of its price. -/
def rest (r : P → P → Prop) [DecidableRel r] [DecidableEq P] (price : P) (order : I × ℤ) :
    Levels P I → Levels P I
  | [] => [(price, [order])]
  | (best, queue) :: levels =>
      if best = price then (best, queue ++ [order]) :: levels
      else if r price best then (price, [order]) :: (best, queue) :: levels
      else (best, queue) :: rest r price order levels

/-- Take an order out of the queue of its price; a level that is used up goes. -/
def remove [DecidableEq P] [DecidableEq I] (price : P) (id : I) : Levels P I → Levels P I
  | [] => []
  | (best, queue) :: levels =>
      if best = price then
        let queue := queue.eraseP fun order => order.1 = id
        if queue = [] then levels else (best, queue) :: levels
      else (best, queue) :: remove price id levels

/-- The levels are in the order of their prices, no price twice. -/
def Sorted (r : P → P → Prop) (levels : Levels P I) : Prop :=
  levels.Pairwise fun level level' => r level.1 level'.1

/-- The quantity of all orders of a queue. -/
def total (queue : Queue I) : ℤ := (queue.map Prod.snd).sum

/-- The orders of a side, level by level. -/
def ids (levels : Levels P I) : List I := levels.flatMap fun level => level.2.map Prod.fst

variable [DecidableEq I]

/-- What a queue holds of one order. -/
def amount (id : I) (queue : Queue I) : ℤ :=
  (queue.map fun order => if order.1 = id then order.2 else 0).sum

/-- What a side holds of one order. -/
def resting (id : I) (levels : Levels P I) : ℤ := (levels.map fun level => amount id level.2).sum

/-- What the trades filled of one order. -/
def filled (id : I) (trades : List (I × P × ℤ)) : ℤ :=
  (trades.map fun trade => if trade.1 = id then trade.2.2 else 0).sum

end Operations

/-! ## Filling a queue -/

section Take

variable {I : Type v}

@[simp] theorem take_nil (wanted : ℤ) : take wanted ([] : Queue I) = ⟨[], [], wanted⟩ := rfl

theorem take_of_nonpos {wanted : ℤ} (h : wanted ≤ 0) (queue : Queue I) :
    take wanted queue = ⟨[], queue, wanted⟩ := by
  cases queue with
  | nil => rfl
  | cons order queue => simp [take, h]

theorem take_cons_of_le {wanted : ℤ} {order : I × ℤ} (hpos : 0 < wanted)
    (h : order.2 ≤ wanted) (queue : Queue I) :
    take wanted (order :: queue) =
      ⟨order :: (take (wanted - order.2) queue).trades, (take (wanted - order.2) queue).queue,
        (take (wanted - order.2) queue).left⟩ := by
  have hnot : ¬ wanted ≤ 0 := by omega
  simp [take, hnot, h]

theorem take_cons_of_lt {wanted : ℤ} {order : I × ℤ} (hpos : 0 < wanted)
    (h : wanted < order.2) (queue : Queue I) :
    take wanted (order :: queue) =
      ⟨[(order.1, wanted)], (order.1, order.2 - wanted) :: queue, 0⟩ := by
  have hnot : ¬ wanted ≤ 0 := by omega
  have hnot' : ¬ order.2 ≤ wanted := by omega
  simp [take, hnot, hnot']

/-- Induction along the walk through a queue: nothing is wanted any more, the
first order is used up, or it is not. -/
theorem take_induction {motive : ℤ → Queue I → Prop}
    (nil : ∀ wanted, motive wanted [])
    (stop : ∀ wanted queue, wanted ≤ 0 → motive wanted queue)
    (used : ∀ wanted order queue, 0 < wanted → order.2 ≤ wanted →
      motive (wanted - order.2) queue → motive wanted (order :: queue))
    (last : ∀ wanted order queue, 0 < wanted → wanted < order.2 →
      motive wanted (order :: queue)) :
    ∀ wanted queue, motive wanted queue := by
  intro wanted queue
  induction queue generalizing wanted with
  | nil => exact nil wanted
  | cons order queue ih =>
      rcases le_or_gt wanted 0 with hstop | hpos
      · exact stop wanted _ hstop
      rcases le_or_gt order.2 wanted with hused | hlast
      · exact used wanted order queue hpos hused (ih _)
      · exact last wanted order queue hpos hlast

theorem ids_take_sublist (wanted : ℤ) (queue : Queue I) :
    ((take wanted queue).queue.map Prod.fst).Sublist (queue.map Prod.fst) := by
  induction wanted, queue using take_induction with
  | nil => simp
  | stop wanted queue h => simp [take_of_nonpos h]
  | used wanted order queue hpos hle ih =>
      rw [take_cons_of_le hpos hle]
      exact ih.cons _
  | last wanted order queue hpos hlt => simp [take_cons_of_lt hpos hlt]

theorem positive_take {queue : Queue I} (wanted : ℤ) (h : ∀ order ∈ queue, 0 < order.2) :
    ∀ order ∈ (take wanted queue).queue, 0 < order.2 := by
  induction wanted, queue using take_induction with
  | nil => simp
  | stop wanted queue hstop => simpa [take_of_nonpos hstop] using h
  | used wanted order queue hpos hle ih =>
      rw [take_cons_of_le hpos hle]
      exact ih fun other hother => h other (List.mem_cons_of_mem _ hother)
  | last wanted order queue hpos hlt =>
      rw [take_cons_of_lt hpos hlt]
      rintro other hother
      rcases List.mem_cons.mp hother with rfl | hmem
      · simpa using hlt
      · exact h other (List.mem_cons_of_mem _ hmem)

/-- A queue that does not satisfy the incoming quantity is used up. -/
theorem take_queue_of_left {wanted : ℤ} {queue : Queue I} (h : 0 < (take wanted queue).left) :
    (take wanted queue).queue = [] := by
  induction wanted, queue using take_induction with
  | nil => rfl
  | stop wanted queue hstop =>
      rw [take_of_nonpos hstop] at h
      exact absurd h hstop.not_gt
  | used wanted order queue hpos hle ih =>
      rw [take_cons_of_le hpos hle] at h ⊢
      exact ih h
  | last wanted order queue hpos hlt =>
      rw [take_cons_of_lt hpos hlt] at h
      simp at h

theorem left_take_nonneg {wanted : ℤ} (queue : Queue I) (h : 0 ≤ wanted) :
    0 ≤ (take wanted queue).left := by
  induction wanted, queue using take_induction with
  | nil => exact h
  | stop wanted queue hstop => rwa [take_of_nonpos hstop]
  | used wanted order queue hpos hle ih =>
      rw [take_cons_of_le hpos hle]
      exact ih (by omega)
  | last wanted order queue hpos hlt => simp [take_cons_of_lt hpos hlt]

theorem left_take_le {queue : Queue I} (wanted : ℤ) (h : ∀ order ∈ queue, 0 < order.2) :
    (take wanted queue).left ≤ wanted := by
  induction wanted, queue using take_induction with
  | nil => exact le_rfl
  | stop wanted queue hstop => rw [take_of_nonpos hstop]
  | used wanted order queue hpos hle ih =>
      have hrest := ih fun other hother => h other (List.mem_cons_of_mem _ hother)
      have hqty := h order List.mem_cons_self
      simp only [take_cons_of_le hpos hle]
      omega
  | last wanted order queue hpos hlt =>
      simp only [take_cons_of_lt hpos hlt]
      exact hpos.le

/-- The incoming quantity gets what the trades say. -/
theorem sum_trades_take (wanted : ℤ) (queue : Queue I) :
    total (take wanted queue).trades + (take wanted queue).left = wanted := by
  induction wanted, queue using take_induction with
  | nil => simp [total]
  | stop wanted queue hstop => simp [take_of_nonpos hstop, total]
  | used wanted order queue hpos hle ih =>
      rw [take_cons_of_le hpos hle]
      simp only [total, List.map_cons, List.sum_cons] at ih ⊢
      omega
  | last wanted order queue hpos hlt => simp [take_cons_of_lt hpos hlt, total]

variable [DecidableEq I]

/-- What an order loses in a walk is what it is filled for. -/
theorem amount_take (id : I) (wanted : ℤ) (queue : Queue I) :
    amount id (take wanted queue).trades + amount id (take wanted queue).queue =
      amount id queue := by
  induction wanted, queue using take_induction with
  | nil => simp [amount]
  | stop wanted queue hstop => simp [take_of_nonpos hstop, amount]
  | used wanted order queue hpos hle ih =>
      rw [take_cons_of_le hpos hle]
      simp only [amount, List.map_cons, List.sum_cons] at ih ⊢
      omega
  | last wanted order queue hpos hlt =>
      simp only [take_cons_of_lt hpos hlt, amount, List.map_cons, List.sum_cons, List.map_nil,
        List.sum_nil]
      split <;> omega

end Take

/-! ## Filling a side -/

section Sweep

variable {P : Type u} {I : Type v} (crossed : P → Prop) [DecidablePred crossed]

@[simp] theorem sweep_nil (wanted : ℤ) :
    sweep crossed wanted ([] : Levels P I) = ⟨[], [], wanted⟩ := rfl

/-- The trades with the orders of one level. -/
def tradesAt (price : P) (taken : Taken I) : List (I × P × ℤ) :=
  taken.trades.map fun trade => (trade.1, price, trade.2)

variable {crossed}

theorem sweep_of_not {wanted : ℤ} {level : P × Queue I} (h : ¬ (0 < wanted ∧ crossed level.1))
    (levels : Levels P I) :
    sweep crossed wanted (level :: levels) = ⟨[], level :: levels, wanted⟩ := by
  simp only [sweep, if_neg h]

theorem sweep_of_used {wanted : ℤ} {level : P × Queue I} (hpos : 0 < wanted)
    (hcrossed : crossed level.1) (hused : (take wanted level.2).queue = [])
    (levels : Levels P I) :
    sweep crossed wanted (level :: levels) =
      ⟨tradesAt level.1 (take wanted level.2) ++
          (sweep crossed (take wanted level.2).left levels).trades,
        (sweep crossed (take wanted level.2).left levels).levels,
        (sweep crossed (take wanted level.2).left levels).left⟩ := by
  simp only [sweep, if_pos (And.intro hpos hcrossed), if_pos hused, tradesAt]

theorem sweep_of_kept {wanted : ℤ} {level : P × Queue I} (hpos : 0 < wanted)
    (hcrossed : crossed level.1) (hkept : (take wanted level.2).queue ≠ [])
    (levels : Levels P I) :
    sweep crossed wanted (level :: levels) =
      ⟨tradesAt level.1 (take wanted level.2), (level.1, (take wanted level.2).queue) :: levels,
        (take wanted level.2).left⟩ := by
  simp only [sweep, if_pos (And.intro hpos hcrossed), if_neg hkept, tradesAt]

variable (crossed) in
/-- Induction along the walk through a side: the walk is over, the best level is
used up, or it keeps orders. -/
theorem sweep_induction {motive : ℤ → Levels P I → Prop}
    (nil : ∀ wanted, motive wanted [])
    (stop : ∀ wanted level levels, ¬ (0 < wanted ∧ crossed level.1) →
      motive wanted (level :: levels))
    (used : ∀ wanted level levels, 0 < wanted → crossed level.1 →
      (take wanted level.2).queue = [] → motive (take wanted level.2).left levels →
        motive wanted (level :: levels))
    (kept : ∀ wanted level levels, 0 < wanted → crossed level.1 →
      (take wanted level.2).queue ≠ [] → motive wanted (level :: levels)) :
    ∀ wanted levels, motive wanted levels := by
  intro wanted levels
  induction levels generalizing wanted with
  | nil => exact nil wanted
  | cons level levels ih =>
      by_cases hgo : 0 < wanted ∧ crossed level.1
      · by_cases hused : (take wanted level.2).queue = []
        · exact used wanted level levels hgo.1 hgo.2 hused (ih _)
        · exact kept wanted level levels hgo.1 hgo.2 hused
      · exact stop wanted level levels hgo

/-- A level of the side after a walk is what the walk left of a level before it. -/
theorem exists_of_mem_sweep {wanted : ℤ} {levels : Levels P I} {level : P × Queue I}
    (h : level ∈ (sweep crossed wanted levels).levels) :
    level ∈ levels ∨ ∃ queue wanted', (level.1, queue) ∈ levels ∧
      level.2 = (take wanted' queue).queue ∧ level.2 ≠ [] := by
  induction wanted, levels using sweep_induction crossed with
  | nil => exact .inl h
  | stop wanted best levels hnot =>
      rw [sweep_of_not hnot] at h
      exact .inl h
  | used wanted best levels hpos hcrossed hused ih =>
      rw [sweep_of_used hpos hcrossed hused] at h
      rcases ih h with hmem | ⟨queue, wanted', hmem, hrest⟩
      · exact .inl (List.mem_cons_of_mem _ hmem)
      · exact .inr ⟨queue, wanted', List.mem_cons_of_mem _ hmem, hrest⟩
  | kept wanted best levels hpos hcrossed hkept =>
      rw [sweep_of_kept hpos hcrossed hkept] at h
      rcases List.mem_cons.mp h with rfl | hmem
      · exact .inr ⟨best.2, wanted, List.mem_cons_self, rfl, hkept⟩
      · exact .inl (List.mem_cons_of_mem _ hmem)

theorem prices_sweep_sublist (wanted : ℤ) (levels : Levels P I) :
    ((sweep crossed wanted levels).levels.map Prod.fst).Sublist (levels.map Prod.fst) := by
  induction wanted, levels using sweep_induction crossed with
  | nil => simp
  | stop wanted best levels hnot => simp [sweep_of_not hnot]
  | used wanted best levels hpos hcrossed hused ih =>
      rw [sweep_of_used hpos hcrossed hused]
      exact ih.cons _
  | kept wanted best levels hpos hcrossed hkept => simp [sweep_of_kept hpos hcrossed hkept]

theorem ids_sweep_sublist (wanted : ℤ) (levels : Levels P I) :
    (ids (sweep crossed wanted levels).levels).Sublist (ids levels) := by
  induction wanted, levels using sweep_induction crossed with
  | nil => simp
  | stop wanted best levels hnot => simp [sweep_of_not hnot]
  | used wanted best levels hpos hcrossed hused ih =>
      rw [sweep_of_used hpos hcrossed hused]
      exact ih.trans (by simp [ids])
  | kept wanted best levels hpos hcrossed hkept =>
      rw [sweep_of_kept hpos hcrossed hkept]
      simpa [ids] using ids_take_sublist wanted best.2

theorem left_sweep_nonneg {wanted : ℤ} (levels : Levels P I) (h : 0 ≤ wanted) :
    0 ≤ (sweep crossed wanted levels).left := by
  induction wanted, levels using sweep_induction crossed with
  | nil => exact h
  | stop wanted best levels hnot => rwa [sweep_of_not hnot]
  | used wanted best levels hpos hcrossed hused ih =>
      rw [sweep_of_used hpos hcrossed hused]
      exact ih (left_take_nonneg best.2 h)
  | kept wanted best levels hpos hcrossed hkept =>
      rw [sweep_of_kept hpos hcrossed hkept]
      exact left_take_nonneg best.2 h

theorem left_sweep_le {levels : Levels P I} (wanted : ℤ)
    (h : ∀ level ∈ levels, ∀ order ∈ level.2, 0 < order.2) :
    (sweep crossed wanted levels).left ≤ wanted := by
  induction wanted, levels using sweep_induction crossed with
  | nil => exact le_rfl
  | stop wanted best levels hnot => rw [sweep_of_not hnot]
  | used wanted best levels hpos hcrossed hused ih =>
      rw [sweep_of_used hpos hcrossed hused]
      exact (ih fun other hother => h other (List.mem_cons_of_mem _ hother)).trans
        (left_take_le wanted (h best List.mem_cons_self))
  | kept wanted best levels hpos hcrossed hkept =>
      rw [sweep_of_kept hpos hcrossed hkept]
      exact left_take_le wanted (h best List.mem_cons_self)

/-- The quantity of all trades. -/
def volume (trades : List (I × P × ℤ)) : ℤ := (trades.map fun trade => trade.2.2).sum

theorem volume_append (trades trades' : List (I × P × ℤ)) :
    volume (trades ++ trades') = volume trades + volume trades' := by
  simp [volume]

theorem volume_tradesAt (price : P) (taken : Taken I) :
    volume (tradesAt price taken) = total taken.trades := by
  simp [volume, tradesAt, total, Function.comp_def]

/-- The incoming quantity gets what the trades say. -/
theorem volume_sweep (wanted : ℤ) (levels : Levels P I) :
    volume (sweep crossed wanted levels).trades + (sweep crossed wanted levels).left =
      wanted := by
  induction wanted, levels using sweep_induction crossed with
  | nil => simp [volume]
  | stop wanted best levels hnot => simp [sweep_of_not hnot, volume]
  | used wanted best levels hpos hcrossed hused ih =>
      have htaken := sum_trades_take wanted best.2
      simp only [sweep_of_used hpos hcrossed hused, volume_append, volume_tradesAt]
      omega
  | kept wanted best levels hpos hcrossed hkept =>
      rw [sweep_of_kept hpos hcrossed hkept, volume_tradesAt]
      exact sum_trades_take wanted best.2

variable [DecidableEq I]

theorem filled_append (id : I) (trades trades' : List (I × P × ℤ)) :
    filled id (trades ++ trades') = filled id trades + filled id trades' := by
  simp [filled]

theorem filled_tradesAt (id : I) (price : P) (taken : Taken I) :
    filled id (tradesAt price taken) = amount id taken.trades := by
  simp [filled, tradesAt, amount, Function.comp_def]

theorem resting_cons (id : I) (level : P × Queue I) (levels : Levels P I) :
    resting id (level :: levels) = amount id level.2 + resting id levels := by
  simp [resting]

/-- What an order loses in a walk is what it is filled for. -/
theorem resting_sweep (id : I) (wanted : ℤ) (levels : Levels P I) :
    filled id (sweep crossed wanted levels).trades +
      resting id (sweep crossed wanted levels).levels = resting id levels := by
  induction wanted, levels using sweep_induction crossed with
  | nil => simp [filled, resting]
  | stop wanted best levels hnot => simp [sweep_of_not hnot, filled]
  | used wanted best levels hpos hcrossed hused ih =>
      have htaken := amount_take id wanted best.2
      rw [hused] at htaken
      rw [sweep_of_used hpos hcrossed hused, filled_append, filled_tradesAt, resting_cons]
      simp only [amount, List.map_nil, List.sum_nil] at htaken ih ⊢
      omega
  | kept wanted best levels hpos hcrossed hkept =>
      have htaken := amount_take id wanted best.2
      simp only [sweep_of_kept hpos hcrossed hkept, filled_tradesAt, resting_cons]
      omega

theorem resting_of_not_mem {id : I} {levels : Levels P I} (h : id ∉ ids levels) :
    resting id levels = 0 := by
  induction levels with
  | nil => rfl
  | cons level levels ih =>
      simp only [ids, List.flatMap_cons, List.mem_append, not_or] at h ih
      have hqueue : amount id level.2 = 0 := by
        apply List.sum_eq_zero
        rintro _ hx
        obtain ⟨order, horder, rfl⟩ := List.mem_map.mp hx
        have hne : order.1 ≠ id := fun heq => h.1 (heq ▸ List.mem_map_of_mem horder)
        simp [hne]
      rw [resting_cons, hqueue, ih h.2, add_zero]

end Sweep

/-- No other level of a sorted side has the price of the best. -/
theorem Sorted.ne_of_mem {P : Type u} {I : Type v} {r : P → P → Prop} [Std.Irrefl r]
    {level other : P × Queue I} {levels : Levels P I} (h : Sorted r (level :: levels))
    (hmem : other ∈ levels) : other.1 ≠ level.1 := by
  have hbefore := (List.pairwise_cons.mp h).1 other hmem
  intro heq
  rw [heq] at hbefore
  exact irrefl _ hbefore

end PriceTime
