import SignalFoundry.Execution.OrderBook.Book

/-!
# What every call of an order book keeps

`Book.Sound`: both sides are well formed, no id rests twice, and no order
reaches a price of the opposite side. `Book.Before` bounds the ids that rest, so
that the id of a new order is fresh. A walk and a withdrawal only make a side
smaller (`Sound.shrink`); a limit order rests only once nothing within its price
is left on the opposite side.
-/

namespace LimitBook

open PriceTime

namespace Book

structure Sound (b : Book) : Prop where
  side : ∀ side, PriceTime.Sound side.Better (b.levels side)
  nodup : b.ids.Nodup
  uncrossed : ∀ side : Side, ∀ level ∈ b.levels side, ∀ other ∈ b.levels side.opposite,
    ¬ side.Crosses level.1 other.1

/-- Every id that rests is smaller than `id`. -/
def Before (b : Book) (id : ℤ) : Prop := ∀ resting ∈ b.ids, resting < id

variable {b : Book}

theorem mem_ids_iff {id : ℤ} : id ∈ b.ids ↔ ∃ side, id ∈ PriceTime.ids (b.levels side) := by
  constructor
  · intro h
    rcases List.mem_append.mp h with h | h
    · exact ⟨.buy, h⟩
    · exact ⟨.sell, h⟩
  · rintro ⟨side, h⟩
    cases side with
    | buy => exact List.mem_append_left _ h
    | sell => exact List.mem_append_right _ h

theorem mem_ids_levels_iff (hb : b.Sound) {side : Side} {id : ℤ} :
    id ∈ PriceTime.ids (b.levels side) ↔
      ∃ price queue, (b.levels side).lookup price = some queue ∧ id ∈ queue.map Prod.fst := by
  simp only [(hb.side side).sorted.lookup_eq_some_iff, PriceTime.ids, List.mem_flatMap,
    Prod.exists]

/-- Where an order is located, it rests. -/
theorem locate_eq_some_iff (hb : b.Sound) {id : ℤ} {side : Side} {price : ℤ} :
    b.locate id = some (side, price) ↔
      ∃ queue, (b.levels side).lookup price = some queue ∧ id ∈ queue.map Prod.fst := by
  obtain ⟨hbuy, hsell, hdisjoint⟩ := List.nodup_append.mp hb.nodup
  simp only [(hb.side side).sorted.lookup_eq_some_iff]
  have helsewhere : ∀ {price' queue}, (price', queue) ∈ b.levels .buy →
      id ∈ queue.map Prod.fst → id ∉ PriceTime.ids (b.levels .sell) := by
    intro price' queue hqueue hmem hsold
    exact hdisjoint id (List.mem_flatMap.mpr ⟨_, hqueue, hmem⟩) id hsold rfl
  unfold Book.locate
  cases hprice : priceOf id (b.levels .buy) with
  | some bid =>
      obtain ⟨queue, hqueue, hmem⟩ := (priceOf_eq_some_iff hbuy).mp hprice
      cases side with
      | buy => rw [← priceOf_eq_some_iff hbuy, hprice]; simp
      | sell =>
          simp only [Option.some.injEq, Prod.mk.injEq, reduceCtorEq, false_and, false_iff,
            not_exists, not_and]
          exact fun other hother hmem' =>
            helsewhere hqueue hmem (List.mem_flatMap.mpr ⟨_, hother, hmem'⟩)
  | none =>
      rw [priceOf_eq_none_iff] at hprice
      cases side with
      | buy =>
          simp only [Option.map_eq_some_iff, Prod.mk.injEq, reduceCtorEq, false_and, and_false,
            exists_false, false_iff, not_exists, not_and]
          exact fun queue hqueue hmem => hprice (List.mem_flatMap.mpr ⟨_, hqueue, hmem⟩)
      | sell => rw [← priceOf_eq_some_iff hsell]; simp

theorem sound_empty : empty.Sound where
  side _ := .nil
  nodup := List.nodup_nil
  uncrossed _ := nofun

theorem before_empty (id : ℤ) : empty.Before id := nofun

/-! ## A side that shrinks -/

theorem ids_shrink {side : Side} {levels : Levels ℤ ℤ}
    (h : (PriceTime.ids levels).Sublist (PriceTime.ids (b.levels side))) :
    (b.withLevels side levels).ids.Sublist b.ids := by
  cases side with
  | buy =>
      unfold ids
      rw [levels_withLevels, levels_withLevels_of_ne b (by decide)]
      exact h.append_right _
  | sell =>
      unfold ids
      rw [levels_withLevels, levels_withLevels_of_ne b (by decide)]
      exact h.append_left _

theorem Before.shrink {id : ℤ} (hb : b.Before id) {side : Side} {levels : Levels ℤ ℤ}
    (h : (PriceTime.ids levels).Sublist (PriceTime.ids (b.levels side))) :
    (b.withLevels side levels).Before id := fun other hother =>
  hb other ((ids_shrink h).mem hother)

theorem Sound.shrink (hb : b.Sound) {side : Side} {levels : Levels ℤ ℤ}
    (hlevels : PriceTime.Sound side.Better levels)
    (hids : (PriceTime.ids levels).Sublist (PriceTime.ids (b.levels side)))
    (hprices : (levels.map Prod.fst).Sublist ((b.levels side).map Prod.fst)) :
    (b.withLevels side levels).Sound where
  side other := by
    by_cases heq : other = side
    · subst heq
      rwa [levels_withLevels]
    · rw [levels_withLevels_of_ne b heq]
      exact hb.side other
  nodup := hb.nodup.sublist (ids_shrink hids)
  uncrossed other level hlevel across hacross := by
    -- a price that is left was there before, on whichever side
    have hbefore : ∀ {here : Side} {level : ℤ × Queue ℤ},
        level ∈ (b.withLevels side levels).levels here →
          level.1 ∈ (b.levels here).map Prod.fst := by
      intro here level hmem
      by_cases heq : here = side
      · subst heq
        rw [levels_withLevels] at hmem
        exact hprices.mem (List.mem_map_of_mem hmem)
      · rw [levels_withLevels_of_ne b heq] at hmem
        exact List.mem_map_of_mem hmem
    obtain ⟨level', hlevel', heq⟩ := List.mem_map.mp (hbefore hlevel)
    obtain ⟨across', hacross', heq'⟩ := List.mem_map.mp (hbefore hacross)
    rw [← heq, ← heq']
    exact hb.uncrossed other level' hlevel' across' hacross'

/-- Fills are no part of what is kept. -/
theorem Sound.withFills (hb : b.Sound) (fills : List Fill) : { b with fills := fills }.Sound :=
  ⟨hb.side, hb.nodup, hb.uncrossed⟩

section Trade

variable {side : Side} {crossed : ℤ → Prop} [DecidablePred crossed] {takerId wanted : ℤ}

theorem levels_trade :
    (b.trade side crossed takerId wanted).2.levels side =
      (sweep crossed wanted (b.levels side)).levels :=
  levels_withLevels b side _

theorem levels_trade_of_ne {other : Side} (h : other ≠ side) :
    (b.trade side crossed takerId wanted).2.levels other = b.levels other :=
  levels_withLevels_of_ne b h _

theorem Sound.trade (hb : b.Sound) : (b.trade side crossed takerId wanted).2.Sound :=
  (hb.shrink ((hb.side side).sweep crossed wanted) (ids_sweep_sublist wanted _)
    (prices_sweep_sublist wanted _)).withFills _

theorem Before.trade {id : ℤ} (hb : b.Before id) :
    (b.trade side crossed takerId wanted).2.Before id :=
  hb.shrink (ids_sweep_sublist wanted _)

end Trade

/-! ## An order that rests -/

section RestOrder

variable {side : Side} {price id left : ℤ}

theorem ids_restOrder_perm (h : 0 < left) :
    (b.restOrder side price id left).ids.Perm (id :: b.ids) := by
  rw [restOrder, if_pos h]
  cases side with
  | buy =>
      unfold ids
      rw [levels_withLevels, levels_withLevels_of_ne b (by decide)]
      exact (ids_rest_perm price (id, left) (b.levels .buy)).append_right _
  | sell =>
      unfold ids
      rw [levels_withLevels, levels_withLevels_of_ne b (by decide)]
      exact ((ids_rest_perm price (id, left) (b.levels .sell)).append_left _).trans
        List.perm_middle

theorem Before.restOrder (hb : b.Before id) :
    (b.restOrder side price id left).Before (id + 1) := by
  intro other hother
  by_cases h : 0 < left
  · rcases List.mem_cons.mp ((ids_restOrder_perm h).mem_iff.mp hother) with rfl | hmem
    · omega
    · have hlt := hb other hmem
      omega
  · rw [Book.restOrder, if_neg h] at hother
    have hlt := hb other hother
    omega

theorem Sound.restOrder (hb : b.Sound) (hid : b.Before id)
    (hreach : 0 < left → ∀ other ∈ b.levels side.opposite, ¬ side.Crosses price other.1) :
    (b.restOrder side price id left).Sound := by
  by_cases h : 0 < left
  · have hside : ∀ {other : Side}, other ≠ side →
        (b.restOrder side price id left).levels other = b.levels other := by
      intro other hne
      rw [Book.restOrder, if_pos h, levels_withLevels_of_ne b hne]
    have hlevels : (b.restOrder side price id left).levels side =
        rest side.Better price (id, left) (b.levels side) := by
      rw [Book.restOrder, if_pos h, levels_withLevels]
    -- the side of the order reaches no further than it did, or than the order does
    have hown : ∀ level ∈ rest side.Better price (id, left) (b.levels side),
        ∀ other ∈ b.levels side.opposite, ¬ side.Crosses level.1 other.1 := by
      intro level hlevel other hother
      rcases (mem_rest (hb.side side).sorted).mp hlevel with rfl | ⟨hmem, -⟩
      · exact hreach h other hother
      · exact hb.uncrossed side level hmem other hother
    refine ⟨fun other => ?_, ?_, fun other => ?_⟩
    · by_cases heq : other = side
      · subst heq
        rw [hlevels]
        exact (hb.side other).rest price h fun old hold =>
          hid old (mem_ids_iff.mpr ⟨other, hold⟩)
      · rw [hside heq]
        exact hb.side other
    · rw [(ids_restOrder_perm h).nodup_iff, List.nodup_cons]
      exact ⟨fun hmem => lt_irrefl id (hid id hmem), hb.nodup⟩
    · by_cases heq : other = side
      · subst heq
        rw [hlevels, hside (Side.opposite_ne other)]
        exact hown
      · obtain rfl := Side.eq_opposite_of_ne heq
        rw [Side.opposite_opposite, hlevels, hside (Side.opposite_ne side)]
        intro level hlevel across hacross
        rw [Side.crosses_opposite]
        exact hown across hacross level hlevel
  · rwa [Book.restOrder, if_neg h]

end RestOrder

/-! ## The calls -/

theorem Sound.addLimit (hb : b.Sound) {id : ℤ} (hid : b.Before id) (side : Side)
    (price qty : ℤ) : (b.addLimit id side price qty).Sound := by
  by_cases hqty : 0 < qty
  · simp only [Book.addLimit, if_pos hqty]
    refine (hb.trade).restOrder hid.trade fun hleft other hother => ?_
    rw [levels_trade] at hother
    exact (hb.side side.opposite).not_crossed_of_left
      (fun _ _ hbetter h => h.of_better hbetter) hleft other hother
  · simpa only [Book.addLimit, if_neg hqty] using hb

theorem Sound.addMarket (hb : b.Sound) (id : ℤ) (side : Side) (qty : ℤ) :
    (b.addMarket id side qty).2.Sound := by
  by_cases hqty : 0 < qty
  · simp only [Book.addMarket, if_pos hqty]
    exact hb.trade
  · simpa only [Book.addMarket, if_neg hqty] using hb

theorem Sound.withdraw (hb : b.Sound) (side : Side) (price id : ℤ) :
    (b.withdraw side price id).Sound :=
  hb.shrink ((hb.side side).remove price id) (ids_remove_sublist price id _)
    (prices_remove_sublist price id _)

theorem Sound.cancel (hb : b.Sound) (id : ℤ) : (b.cancel id).Sound := by
  unfold Book.cancel
  split
  · exact hb.withdraw _ _ id
  · exact hb

theorem Before.mono {id id' : ℤ} (hb : b.Before id) (h : id ≤ id') : b.Before id' :=
  fun other hother => lt_of_lt_of_le (hb other hother) h

theorem Sound.next (hb : b.Sound) {id : ℤ} (hid : b.Before id) (call : Call) :
    (b.next id call).Sound := by
  cases call with
  | addLimit side price qty => exact hb.addLimit hid side price qty
  | addMarket side qty => exact hb.addMarket id side qty
  | cancel orderId => exact hb.cancel orderId
  | takeFills => exact hb.withFills []
  | clear => exact sound_empty
  | _ => exact hb

theorem Before.cancel {id : ℤ} (hb : b.Before id) (orderId : ℤ) :
    (b.cancel orderId).Before id := by
  unfold Book.cancel
  split
  · exact hb.shrink (ids_remove_sublist _ orderId _)
  · exact hb

theorem Before.next {id : ℤ} (hb : b.Before id) (call : Call) :
    (b.next id call).Before (id + 1) := by
  have hlater : id ≤ id + 1 := by omega
  cases call with
  | addLimit side price qty =>
      by_cases hqty : 0 < qty
      · simp only [Book.next, Book.addLimit, if_pos hqty]
        exact hb.trade.restOrder
      · simpa only [Book.next, Book.addLimit, if_neg hqty] using hb.mono hlater
  | addMarket side qty =>
      by_cases hqty : 0 < qty
      · simp only [Book.next, Book.addMarket, if_pos hqty]
        exact hb.trade.mono hlater
      · simpa only [Book.next, Book.addMarket, if_neg hqty] using hb.mono hlater
  | cancel orderId => exact (hb.cancel orderId).mono hlater
  | clear => exact before_empty _
  | _ => exact hb.mono hlater

/-- A call that takes no id leaves the bound as it is. -/
theorem Before.next_of_not_isOrder {id : ℤ} (hb : b.Before id) {call : Call}
    (h : call.IsOrder = false) : (b.next id call).Before id := by
  cases call with
  | addLimit side price qty => cases h
  | addMarket side qty => cases h
  | cancel orderId => exact hb.cancel orderId
  | clear => exact before_empty _
  | _ => exact hb

end Book

end LimitBook
