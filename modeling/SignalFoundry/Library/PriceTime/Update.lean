import SignalFoundry.Library.PriceTime.Basic

/-!
# Orders that join and leave a side

`rest` and `remove` change one level of a side, and `mem_rest` and `mem_remove`
say which: every other level is the one it was. A side stays `Sound` through
both, and through a walk.
-/

namespace PriceTime

universe u v

section Update

variable {P : Type u} {I : Type v} [DecidableEq P]

/-- The queue at a price, empty when there is no level. -/
def queueAt (price : P) (levels : Levels P I) : Queue I := (levels.lookup price).getD []

theorem queueAt_of_lookup {price : P} {levels : Levels P I} {queue : Queue I}
    (h : levels.lookup price = some queue) : queueAt price levels = queue := by
  rw [queueAt, h, Option.getD_some]

theorem queueAt_of_lookup_none {price : P} {levels : Levels P I}
    (h : levels.lookup price = none) : queueAt price levels = [] := by
  rw [queueAt, h, Option.getD_none]

theorem queueAt_cons_self (price : P) (queue : Queue I) (levels : Levels P I) :
    queueAt price ((price, queue) :: levels) = queue := by
  simp [queueAt]

theorem queueAt_cons_of_ne {price : P} {level : P × Queue I} (h : level.1 ≠ price)
    (levels : Levels P I) : queueAt price (level :: levels) = queueAt price levels := by
  obtain ⟨best, queue⟩ := level
  have hfalse : (price == best) = false := by simpa using fun heq : price = best => h heq.symm
  simp [queueAt, List.lookup_cons, hfalse]

theorem queueAt_of_not_mem {price : P} {levels : Levels P I}
    (h : price ∉ levels.map Prod.fst) : queueAt price levels = [] := by
  have hnone : levels.lookup price = none := by
    rw [List.lookup_eq_none_iff]
    intro level hlevel
    have hne : price ≠ level.1 := fun heq => h (heq ▸ List.mem_map_of_mem hlevel)
    simpa using hne
  exact queueAt_of_lookup_none hnone

theorem queueAt_of_mem {r : P → P → Prop} [Std.Irrefl r] {levels : Levels P I}
    (hsorted : Sorted r levels) {level : P × Queue I}
    (h : level ∈ levels) : queueAt level.1 levels = level.2 := by
  induction levels with
  | nil => cases h
  | cons best levels ih =>
      rcases List.mem_cons.mp h with rfl | hmem
      · exact queueAt_cons_self _ _ _
      · have hbest := (List.pairwise_cons.mp hsorted).1 level hmem
        have hne : best.1 ≠ level.1 := by
          intro heq
          rw [heq] at hbest
          exact irrefl _ hbest
        rw [queueAt_cons_of_ne hne, ih (List.pairwise_cons.mp hsorted).2 hmem]

theorem mem_of_mem_queueAt {price : P} {order : I × ℤ} {levels : Levels P I}
    (h : order ∈ queueAt price levels) : (price, queueAt price levels) ∈ levels := by
  unfold queueAt at h ⊢
  cases hlookup : levels.lookup price with
  | none => simp [hlookup] at h
  | some queue =>
      obtain ⟨before, after, hlevels, -⟩ := List.lookup_eq_some_iff.mp hlookup
      simp [hlevels]

theorem mem_ids_of_mem_queueAt {price : P} {id : I} {levels : Levels P I}
    (h : id ∈ (queueAt price levels).map Prod.fst) : id ∈ ids levels := by
  obtain ⟨order, horder, rfl⟩ := List.mem_map.mp h
  exact List.mem_flatMap.mpr ⟨_, mem_of_mem_queueAt horder, List.mem_map_of_mem horder⟩

theorem Sorted.lookup_eq_some_iff {r : P → P → Prop} [Std.Irrefl r] {levels : Levels P I}
    (h : Sorted r levels) {price : P} {queue : Queue I} :
    levels.lookup price = some queue ↔ (price, queue) ∈ levels := by
  constructor
  · intro hlookup
    obtain ⟨before, after, hlevels, -⟩ := List.lookup_eq_some_iff.mp hlookup
    simp [hlevels]
  · intro hmem
    have hqueue := queueAt_of_mem h hmem
    cases hlookup : levels.lookup price with
    | none =>
        rw [List.lookup_eq_none_iff] at hlookup
        simpa using hlookup _ hmem
    | some other => simpa [queueAt, hlookup] using hqueue

section Rest

variable (r : P → P → Prop) [DecidableRel r]

attribute [local simp] rest in
theorem rest_cons_self (order : I × ℤ) (level : P × Queue I) (levels : Levels P I) :
    rest r level.1 order (level :: levels) = (level.1, level.2 ++ [order]) :: levels := by
  simp

variable {r}

theorem rest_cons_before {price : P} {level : P × Queue I} (hne : level.1 ≠ price)
    (h : r price level.1) (order : I × ℤ) (levels : Levels P I) :
    rest r price order (level :: levels) = (price, [order]) :: level :: levels := by
  simp [rest, hne, h]

theorem rest_cons_after {price : P} {level : P × Queue I} (hne : level.1 ≠ price)
    (h : ¬ r price level.1) (order : I × ℤ) (levels : Levels P I) :
    rest r price order (level :: levels) = level :: rest r price order levels := by
  simp [rest, hne, h]

/-- Induction along the search for the place of a price. -/
theorem rest_induction (price : P) {motive : Levels P I → Prop} (nil : motive [])
    (found : ∀ level levels, level.1 = price → motive (level :: levels))
    (before : ∀ level levels, level.1 ≠ price → r price level.1 → motive (level :: levels))
    (after : ∀ level levels, level.1 ≠ price → ¬ r price level.1 → motive levels →
      motive (level :: levels)) :
    ∀ levels, motive levels := by
  intro levels
  induction levels with
  | nil => exact nil
  | cons level levels ih =>
      by_cases heq : level.1 = price
      · exact found level levels heq
      by_cases hbefore : r price level.1
      · exact before level levels heq hbefore
      · exact after level levels heq hbefore ih

theorem ids_rest_perm (price : P) (order : I × ℤ) (levels : Levels P I) :
    (ids (rest r price order levels)).Perm (order.1 :: ids levels) := by
  induction levels using rest_induction (r := r) price with
  | nil => simp [rest, ids]
  | found level levels h =>
      subst h
      rw [rest_cons_self]
      simp only [ids, List.flatMap_cons, List.map_append, List.map_cons, List.map_nil,
        List.append_assoc, List.singleton_append]
      exact List.perm_middle
  | before level levels hne hbefore =>
      rw [rest_cons_before hne hbefore]
      simp [ids]
  | after level levels hne hafter ih =>
      rw [rest_cons_after hne hafter]
      simp only [ids, List.flatMap_cons] at ih ⊢
      exact (ih.append_left _).trans List.perm_middle

theorem resting_rest [DecidableEq I] (id : I) (price : P) (order : I × ℤ)
    (levels : Levels P I) :
    resting id (rest r price order levels) =
      resting id levels + if order.1 = id then order.2 else 0 := by
  induction levels using rest_induction (r := r) price with
  | nil => simp [rest, resting, amount]
  | found level levels h =>
      subst h
      rw [rest_cons_self]
      simp only [resting_cons, amount, List.map_append, List.sum_append, List.map_cons,
        List.map_nil, List.sum_cons, List.sum_nil]
      omega
  | before level levels hne hbefore =>
      rw [rest_cons_before hne hbefore, resting_cons]
      simp only [amount, List.map_cons, List.map_nil, List.sum_cons, List.sum_nil]
      omega
  | after level levels hne hafter ih =>
      rw [rest_cons_after hne hafter, resting_cons, resting_cons, ih]
      omega

variable [IsStrictTotalOrder P r]

theorem mem_rest {price : P} {order : I × ℤ} {levels : Levels P I} (hsorted : Sorted r levels)
    {level : P × Queue I} :
    level ∈ rest r price order levels ↔
      level = (price, queueAt price levels ++ [order]) ∨ (level ∈ levels ∧ level.1 ≠ price) := by
  induction levels using rest_induction (r := r) price with
  | nil => simp [rest, queueAt]
  | found best levels h =>
      subst h
      have hne : level ∈ levels → level.1 ≠ best.1 := hsorted.ne_of_mem
      rw [rest_cons_self, queueAt_cons_self, List.mem_cons, List.mem_cons]
      constructor
      · rintro (heq | hmem)
        · exact .inl heq
        · exact .inr ⟨.inr hmem, hne hmem⟩
      · rintro (heq | ⟨rfl | hmem, hprice⟩)
        · exact .inl heq
        · exact absurd rfl hprice
        · exact .inr hmem
  | before best levels hne hbefore =>
      have hlater : ∀ other ∈ best :: levels, other.1 ≠ price := by
        rintro other hother heq
        rcases List.mem_cons.mp hother with rfl | hmem
        · exact hne heq
        · have hafter := (List.pairwise_cons.mp hsorted).1 other hmem
          rw [heq] at hafter
          exact irrefl _ (trans_of r hbefore hafter)
      have hqueue : queueAt price (best :: levels) = [] := by
        apply queueAt_of_not_mem
        rintro hmem
        obtain ⟨other, hother, heq⟩ := List.mem_map.mp hmem
        exact hlater other hother heq
      rw [rest_cons_before hne hbefore, hqueue, List.nil_append, List.mem_cons]
      exact or_congr_right ⟨fun hmem => ⟨hmem, hlater level hmem⟩, And.left⟩
  | after best levels hne hafter ih =>
      rw [rest_cons_after hne hafter, queueAt_cons_of_ne hne, List.mem_cons, List.mem_cons,
        ih (List.pairwise_cons.mp hsorted).2]
      constructor
      · rintro (rfl | heq | hmem)
        · exact .inr ⟨.inl rfl, hne⟩
        · exact .inl heq
        · exact .inr ⟨.inr hmem.1, hmem.2⟩
      · rintro (heq | ⟨rfl | hmem, hprice⟩)
        · exact .inr (.inl heq)
        · exact .inl rfl
        · exact .inr (.inr ⟨hmem, hprice⟩)

theorem sorted_rest {price : P} {order : I × ℤ} {levels : Levels P I}
    (hsorted : Sorted r levels) : Sorted r (rest r price order levels) := by
  induction levels using rest_induction (r := r) price with
  | nil => exact List.pairwise_singleton _ _
  | found best levels h =>
      subst h
      rw [rest_cons_self]
      exact List.pairwise_cons.mpr (List.pairwise_cons.mp hsorted)
  | before best levels hne hbefore =>
      rw [rest_cons_before hne hbefore]
      refine List.pairwise_cons.mpr ⟨fun other hother => ?_, hsorted⟩
      rcases List.mem_cons.mp hother with rfl | hmem
      · exact hbefore
      · exact trans_of r hbefore ((List.pairwise_cons.mp hsorted).1 other hmem)
  | after best levels hne hafter ih =>
      have htail := List.pairwise_cons.mp hsorted
      rw [rest_cons_after hne hafter]
      refine List.pairwise_cons.mpr ⟨fun other hother => ?_, ih htail.2⟩
      rcases (mem_rest htail.2).mp hother with rfl | ⟨hmem, -⟩
      · rcases trichotomous_of r best.1 price with h | h | h
        · exact h
        · exact absurd h hne
        · exact absurd h hafter
      · exact htail.1 other hmem

theorem lookup_rest {price : P} {order : I × ℤ} {levels : Levels P I}
    (hsorted : Sorted r levels) (other : P) :
    (rest r price order levels).lookup other =
      if other = price then some (queueAt price levels ++ [order]) else levels.lookup other := by
  ext queue
  rw [(sorted_rest hsorted).lookup_eq_some_iff, mem_rest hsorted]
  by_cases heq : other = price
  · simp [heq, eq_comm]
  · simp [heq, hsorted.lookup_eq_some_iff]

end Rest

section Remove

variable [DecidableEq I]

/-- The price of the level that holds an order. -/
def priceOf (id : I) (levels : Levels P I) : Option P :=
  (levels.find? fun level => id ∈ level.2.map Prod.fst).map Prod.fst

omit [DecidableEq P] in
theorem priceOf_eq_none_iff {id : I} {levels : Levels P I} :
    priceOf id levels = none ↔ id ∉ ids levels := by
  simp [priceOf, ids, List.find?_eq_none]

omit [DecidableEq P] in
theorem priceOf_eq_some_iff {id : I} {levels : Levels P I} (hnodup : (ids levels).Nodup)
    {price : P} :
    priceOf id levels = some price ↔ ∃ queue, (price, queue) ∈ levels ∧ id ∈ queue.map Prod.fst := by
  unfold priceOf
  induction levels with
  | nil => simp
  | cons level levels ih =>
      rw [show ids (level :: levels) = level.2.map Prod.fst ++ ids levels from rfl,
        List.nodup_append] at hnodup
      by_cases hhere : id ∈ level.2.map Prod.fst
      · rw [List.find?_cons_of_pos (by simpa using hhere)]
        constructor
        · rintro heq
          obtain rfl := Option.some.inj heq
          exact ⟨level.2, List.mem_cons_self, hhere⟩
        · rintro ⟨queue, hmem, hid⟩
          rcases List.mem_cons.mp hmem with rfl | hlater
          · rfl
          · exact absurd rfl (hnodup.2.2 id hhere id
              (List.mem_flatMap.mpr ⟨_, hlater, hid⟩))
      · rw [List.find?_cons_of_neg (by simpa using hhere), ih hnodup.2.1]
        constructor
        · rintro ⟨queue, hmem, hid⟩
          exact ⟨queue, List.mem_cons_of_mem _ hmem, hid⟩
        · rintro ⟨queue, hmem, hid⟩
          rcases List.mem_cons.mp hmem with rfl | hlater
          · exact absurd hid hhere
          · exact ⟨queue, hlater, hid⟩

attribute [local simp] remove in
theorem remove_of_used {level : P × Queue I} {id : I}
    (hused : (level.2.eraseP fun order => order.1 = id) = []) (levels : Levels P I) :
    remove level.1 id (level :: levels) = levels := by
  simp only [remove, if_pos, hused]

theorem remove_of_kept {level : P × Queue I} {id : I}
    (hkept : (level.2.eraseP fun order => order.1 = id) ≠ []) (levels : Levels P I) :
    remove level.1 id (level :: levels) =
      (level.1, level.2.eraseP fun order => order.1 = id) :: levels := by
  simp only [remove, if_pos, if_neg hkept]

theorem remove_of_ne {price : P} {level : P × Queue I} (hne : level.1 ≠ price) (id : I)
    (levels : Levels P I) :
    remove price id (level :: levels) = level :: remove price id levels := by
  simp only [remove, if_neg hne]

/-- Induction along the search for an order of a given price. -/
theorem remove_induction (price : P) (id : I) {motive : Levels P I → Prop} (nil : motive [])
    (used : ∀ level levels, level.1 = price →
      (level.2.eraseP fun order => order.1 = id) = [] → motive (level :: levels))
    (kept : ∀ level levels, level.1 = price →
      (level.2.eraseP fun order => order.1 = id) ≠ [] → motive (level :: levels))
    (after : ∀ level levels, level.1 ≠ price → motive levels → motive (level :: levels)) :
    ∀ levels, motive levels := by
  intro levels
  induction levels with
  | nil => exact nil
  | cons level levels ih =>
      by_cases heq : level.1 = price
      · by_cases hused : (level.2.eraseP fun order => order.1 = id) = []
        · exact used level levels heq hused
        · exact kept level levels heq hused
      · exact after level levels heq ih

theorem prices_remove_sublist (price : P) (id : I) (levels : Levels P I) :
    ((remove price id levels).map Prod.fst).Sublist (levels.map Prod.fst) := by
  induction levels using remove_induction price id with
  | nil => simp [remove]
  | used level levels h hused =>
      subst h
      simp [remove_of_used hused]
  | kept level levels h hkept =>
      subst h
      simp [remove_of_kept hkept]
  | after level levels hne ih =>
      rw [remove_of_ne hne]
      exact ih.cons_cons _

theorem ids_remove_sublist (price : P) (id : I) (levels : Levels P I) :
    (ids (remove price id levels)).Sublist (ids levels) := by
  induction levels using remove_induction price id with
  | nil => simp [remove]
  | used level levels h hused =>
      subst h
      simp [remove_of_used hused, ids]
  | kept level levels h hkept =>
      subst h
      rw [remove_of_kept hkept]
      simpa [ids] using (List.eraseP_sublist (l := level.2)).map Prod.fst
  | after level levels hne ih =>
      rw [remove_of_ne hne]
      simpa [ids] using ih

theorem mem_remove {r : P → P → Prop} [IsStrictTotalOrder P r] {price : P} {id : I}
    {levels : Levels P I} (hsorted : Sorted r levels) {level : P × Queue I} :
    level ∈ remove price id levels ↔
      (level = (price, (queueAt price levels).eraseP fun order => order.1 = id) ∧
        level.2 ≠ []) ∨ (level ∈ levels ∧ level.1 ≠ price) := by
  induction levels using remove_induction price id with
  | nil =>
      simp only [remove, queueAt, List.lookup_nil, Option.getD_none, List.eraseP_nil,
        List.not_mem_nil, false_and, or_false, false_iff, not_and, not_not]
      rintro rfl
      rfl
  | used best levels h hused =>
      subst h
      have hne : level ∈ levels → level.1 ≠ best.1 := hsorted.ne_of_mem
      rw [remove_of_used hused, queueAt_cons_self, hused, List.mem_cons]
      constructor
      · exact fun hmem => .inr ⟨.inr hmem, hne hmem⟩
      · rintro (⟨rfl, hlevel⟩ | ⟨rfl | hmem, hprice⟩)
        · exact absurd rfl hlevel
        · exact absurd rfl hprice
        · exact hmem
  | kept best levels h hkept =>
      subst h
      have hne : level ∈ levels → level.1 ≠ best.1 := hsorted.ne_of_mem
      rw [remove_of_kept hkept, queueAt_cons_self, List.mem_cons, List.mem_cons]
      constructor
      · rintro (rfl | hmem)
        · exact .inl ⟨rfl, hkept⟩
        · exact .inr ⟨.inr hmem, hne hmem⟩
      · rintro (⟨heq, -⟩ | ⟨rfl | hmem, hprice⟩)
        · exact .inl heq
        · exact absurd rfl hprice
        · exact .inr hmem
  | after best levels hne ih =>
      rw [remove_of_ne hne, queueAt_cons_of_ne hne, List.mem_cons, List.mem_cons,
        ih (List.pairwise_cons.mp hsorted).2]
      constructor
      · rintro (rfl | hleft | hmem)
        · exact .inr ⟨.inl rfl, hne⟩
        · exact .inl hleft
        · exact .inr ⟨.inr hmem.1, hmem.2⟩
      · rintro (hleft | ⟨rfl | hmem, hprice⟩)
        · exact .inr (.inl hleft)
        · exact .inl rfl
        · exact .inr (.inr ⟨hmem, hprice⟩)

theorem lookup_remove {r : P → P → Prop} [IsStrictTotalOrder P r] {price : P} {id : I}
    {levels : Levels P I} (hsorted : Sorted r levels) (other : P) :
    (remove price id levels).lookup other =
      if other = price then
        (if ((queueAt price levels).eraseP fun order => order.1 = id) = [] then none
        else some ((queueAt price levels).eraseP fun order => order.1 = id))
      else levels.lookup other := by
  have hremoved : Sorted r (remove price id levels) := by
    have hprices := (List.pairwise_map (f := Prod.fst) (R := r)).mpr hsorted
    exact List.pairwise_map.mp (hprices.sublist (prices_remove_sublist price id levels))
  ext queue
  rw [hremoved.lookup_eq_some_iff, mem_remove hsorted]
  by_cases heq : other = price
  · simp only [heq, if_true, ne_eq, not_true_eq_false, and_false, or_false, Prod.mk.injEq, true_and]
    split
    · next hused =>
        rw [hused]
        simp
    · next hkept =>
        rw [Option.some.injEq, eq_comm (a := queue)]
        exact and_iff_left_of_imp fun h => h ▸ hkept
  · simp [heq, hsorted.lookup_eq_some_iff]

theorem ids_eraseP_perm {id : I} {queue : Queue I} (h : id ∈ queue.map Prod.fst) :
    (queue.map Prod.fst).Perm (id :: (queue.eraseP fun order => order.1 = id).map Prod.fst) := by
  induction queue with
  | nil => simp at h
  | cons order queue ih =>
      by_cases heq : order.1 = id
      · simp [heq]
      · have hmem : id ∈ queue.map Prod.fst := by
          rcases List.mem_cons.mp h with h | h
          · exact absurd h.symm heq
          · exact h
        have hrest := (ih hmem).cons order.1
        rw [List.eraseP_cons_of_neg (by simpa using heq), List.map_cons, List.map_cons]
        exact hrest.trans (List.Perm.swap _ _ _)

theorem total_eraseP {id : I} {queue : Queue I} {order : I × ℤ}
    (h : queue.find? (fun order => order.1 = id) = some order) :
    total (queue.eraseP fun order => order.1 = id) = total queue - order.2 := by
  induction queue with
  | nil => simp at h
  | cons first queue ih =>
      by_cases heq : first.1 = id
      · rw [List.find?_cons_of_pos (by simpa using heq), Option.some.injEq] at h
        rw [List.eraseP_cons_of_pos (by simpa using heq), ← h]
        simp [total]
      · rw [List.find?_cons_of_neg (by simpa using heq)] at h
        rw [List.eraseP_cons_of_neg (by simpa using heq)]
        simp only [total, List.map_cons, List.sum_cons] at ih ⊢
        rw [ih h]
        omega

theorem mem_ids_eraseP {id : I} {queue : Queue I} (hnodup : (queue.map Prod.fst).Nodup)
    (h : id ∈ queue.map Prod.fst) (other : I) :
    other ∈ (queue.eraseP fun order => order.1 = id).map Prod.fst ↔
      other ∈ queue.map Prod.fst ∧ other ≠ id := by
  have hperm := ids_eraseP_perm h
  rw [hperm.nodup_iff, List.nodup_cons] at hnodup
  rw [hperm.mem_iff, List.mem_cons]
  constructor
  · exact fun hmem => ⟨.inr hmem, fun heq => hnodup.1 (heq ▸ hmem)⟩
  · rintro ⟨rfl | hmem, hne⟩
    · exact absurd rfl hne
    · exact hmem

/-- The order that leaves is the only one that does. -/
theorem ids_remove_perm {price : P} {id : I} {levels : Levels P I}
    (h : id ∈ (queueAt price levels).map Prod.fst) :
    (ids levels).Perm (id :: ids (remove price id levels)) := by
  induction levels using remove_induction price id with
  | nil => simp [queueAt] at h
  | used level levels heq hused =>
      subst heq
      rw [queueAt_cons_self] at h
      have hperm := ids_eraseP_perm h
      rw [hused] at hperm
      rw [remove_of_used hused]
      simpa [ids] using hperm.append_right (ids levels)
  | kept level levels heq hkept =>
      subst heq
      rw [queueAt_cons_self] at h
      rw [remove_of_kept hkept]
      simpa [ids] using (ids_eraseP_perm h).append_right (ids levels)
  | after level levels hne ih =>
      rw [queueAt_cons_of_ne hne] at h
      rw [remove_of_ne hne]
      have hrest := (ih h).append_left (level.2.map Prod.fst)
      simp only [ids, List.flatMap_cons] at hrest ⊢
      exact hrest.trans List.perm_middle

theorem amount_eraseP_of_ne {id other : I} (h : other ≠ id) (queue : Queue I) :
    amount other (queue.eraseP fun order => order.1 = id) = amount other queue := by
  induction queue with
  | nil => rfl
  | cons order queue ih =>
      by_cases heq : order.1 = id
      · have hother : order.1 ≠ other := fun hc => h (hc ▸ heq)
        simp [heq, amount, h.symm]
      · rw [List.eraseP_cons_of_neg (by simpa using heq)]
        simp only [amount, List.map_cons, List.sum_cons] at ih ⊢
        rw [ih]

/-- An order that leaves takes nothing from the others. -/
theorem resting_remove_of_ne {id other : I} (h : other ≠ id) (price : P)
    (levels : Levels P I) :
    resting other (remove price id levels) = resting other levels := by
  induction levels using remove_induction price id with
  | nil => rfl
  | used level levels heq hused =>
      subst heq
      have hamount := amount_eraseP_of_ne h level.2
      rw [hused] at hamount
      rw [remove_of_used hused, resting_cons, ← hamount]
      simp [amount]
  | kept level levels heq hkept =>
      subst heq
      rw [remove_of_kept hkept, resting_cons, resting_cons, amount_eraseP_of_ne h]
  | after level levels hne ih =>
      rw [remove_of_ne hne, resting_cons, resting_cons, ih]

end Remove

end Update

/-! ## Well-formed sides -/

section Sound

variable {P : Type u} {I : Type v}

/-- A side whose levels are sorted and none of them empty, whose orders have
something left and stand in the order of their ids. -/
structure Sound (r : P → P → Prop) [LT I] (levels : Levels P I) : Prop where
  sorted : Sorted r levels
  live : ∀ level ∈ levels, level.2 ≠ []
  positive : ∀ level ∈ levels, ∀ order ∈ level.2, 0 < order.2
  aged : ∀ level ∈ levels, (level.2.map Prod.fst).Pairwise (· < ·)

namespace Sound

variable {r : P → P → Prop} [LT I] {levels : Levels P I}

theorem nil : Sound r ([] : Levels P I) where
  sorted := List.Pairwise.nil
  live := nofun
  positive := nofun
  aged := nofun

theorem tail {level : P × Queue I} (h : Sound r (level :: levels)) : Sound r levels where
  sorted := (List.pairwise_cons.mp h.sorted).2
  live other hother := h.live other (List.mem_cons_of_mem _ hother)
  positive other hother := h.positive other (List.mem_cons_of_mem _ hother)
  aged other hother := h.aged other (List.mem_cons_of_mem _ hother)

theorem sweep (h : Sound r levels) (crossed : P → Prop) [DecidablePred crossed] (wanted : ℤ) :
    Sound r (sweep crossed wanted levels).levels where
  sorted := by
    have hprices := (List.pairwise_map (f := Prod.fst) (R := r)).mpr h.sorted
    exact List.pairwise_map.mp (hprices.sublist (prices_sweep_sublist wanted levels))
  live level hlevel := by
    rcases exists_of_mem_sweep hlevel with hmem | ⟨queue, wanted', hmem, heq, hlive⟩
    · exact h.live level hmem
    · exact hlive
  positive level hlevel := by
    rcases exists_of_mem_sweep hlevel with hmem | ⟨queue, wanted', hmem, heq, -⟩
    · exact h.positive level hmem
    · rw [heq]
      exact positive_take wanted' (h.positive _ hmem)
  aged level hlevel := by
    rcases exists_of_mem_sweep hlevel with hmem | ⟨queue, wanted', hmem, heq, -⟩
    · exact h.aged level hmem
    · rw [heq]
      exact (h.aged _ hmem).sublist (ids_take_sublist wanted' queue)

/-- An incoming quantity that is not satisfied leaves no level within its limit. -/
theorem not_crossed_of_left {crossed : P → Prop} [DecidablePred crossed] {wanted : ℤ}
    (h : Sound r levels) (hclosed : ∀ price price', r price price' → crossed price' →
      crossed price) (hleft : 0 < (PriceTime.sweep crossed wanted levels).left) :
    ∀ level ∈ (PriceTime.sweep crossed wanted levels).levels, ¬ crossed level.1 := by
  induction wanted, levels using sweep_induction crossed with
  | nil => simp
  | stop wanted best levels hnot =>
      rw [sweep_of_not hnot] at hleft ⊢
      have hbest : ¬ crossed best.1 := fun hcrossed => hnot ⟨hleft, hcrossed⟩
      intro level hlevel
      rcases List.mem_cons.mp hlevel with rfl | hmem
      · exact hbest
      · exact fun hcrossed =>
          hbest (hclosed _ _ ((List.pairwise_cons.mp h.sorted).1 level hmem) hcrossed)
  | used wanted best levels hpos hcrossed hused ih =>
      rw [sweep_of_used hpos hcrossed hused] at hleft ⊢
      exact ih h.tail hleft
  | kept wanted best levels hpos hcrossed hkept =>
      rw [sweep_of_kept hpos hcrossed hkept] at hleft
      exact absurd (take_queue_of_left hleft) hkept

variable [DecidableEq P]

theorem queueAt_positive (h : Sound r levels) (price : P) :
    ∀ order ∈ queueAt price levels, 0 < order.2 := fun order horder =>
  h.positive _ (mem_of_mem_queueAt horder) order horder

theorem queueAt_aged (h : Sound r levels) (price : P) :
    ((queueAt price levels).map Prod.fst).Pairwise (· < ·) := by
  cases hqueue : queueAt price levels with
  | nil => exact List.Pairwise.nil
  | cons order queue =>
      rw [← hqueue]
      exact h.aged _ (mem_of_mem_queueAt (hqueue ▸ List.mem_cons_self))

variable [IsStrictTotalOrder P r]

/-- A side stays well formed when a new order joins it. -/
theorem rest [DecidableRel r] (h : Sound r levels) (price : P) {order : I × ℤ}
    (hpos : 0 < order.2) (hnew : ∀ id ∈ ids levels, id < order.1) :
    Sound r (rest r price order levels) where
  sorted := sorted_rest h.sorted
  live level hlevel := by
    rcases (mem_rest h.sorted).mp hlevel with rfl | ⟨hmem, -⟩
    · simp
    · exact h.live level hmem
  positive level hlevel := by
    rcases (mem_rest h.sorted).mp hlevel with rfl | ⟨hmem, -⟩
    · intro other hother
      rcases List.mem_append.mp hother with hold | hlast
      · exact h.queueAt_positive price other hold
      · rw [List.mem_singleton.mp hlast]
        exact hpos
    · exact h.positive level hmem
  aged level hlevel := by
    rcases (mem_rest h.sorted).mp hlevel with rfl | ⟨hmem, -⟩
    · rw [List.map_append, List.pairwise_append]
      refine ⟨h.queueAt_aged price, List.pairwise_singleton _ _, fun id hid other hother => ?_⟩
      rw [List.map_singleton, List.mem_singleton] at hother
      rw [hother]
      exact hnew id (mem_ids_of_mem_queueAt hid)
    · exact h.aged level hmem

theorem remove [DecidableEq I] (h : Sound r levels) (price : P) (id : I) :
    Sound r (remove price id levels) where
  sorted := by
    have hprices := (List.pairwise_map (f := Prod.fst) (R := r)).mpr h.sorted
    exact List.pairwise_map.mp (hprices.sublist (prices_remove_sublist price id levels))
  live level hlevel := by
    rcases (mem_remove h.sorted).mp hlevel with ⟨-, hlive⟩ | ⟨hmem, -⟩
    · exact hlive
    · exact h.live level hmem
  positive level hlevel := by
    rcases (mem_remove h.sorted).mp hlevel with ⟨rfl, -⟩ | ⟨hmem, -⟩
    · exact fun order horder =>
        h.queueAt_positive price order (List.mem_of_mem_eraseP horder)
    · exact h.positive level hmem
  aged level hlevel := by
    rcases (mem_remove h.sorted).mp hlevel with ⟨rfl, -⟩ | ⟨hmem, -⟩
    · exact (h.queueAt_aged price).sublist ((List.eraseP_sublist).map Prod.fst)
    · exact h.aged level hmem

end Sound

end Sound

end PriceTime
