import SignalFoundry.Execution.OrderBook.PythonMatch

/-!
# The Python order book refines the book

Every call on a state that represents a sound book returns, and the state after
it represents the book after the call (`Represents.step`). The answer is that of
the book, but for a depth of the bids of zero or fewer levels and a depth of the
asks of fewer than zero: the slices of the code count these from the other end.
-/

namespace LimitBook

open PriceTime Fallible

namespace PyOrderBook

namespace Represents

variable {s : PyOrderBook} {b : Book} {side : Side} {price id : ℤ}

/-! ## A limit order that rests -/

theorem openLevel_eq (s : PyOrderBook) (side : Side) (price : ℤ) :
    s.openLevel side price = if price ∈ (s.book side).keys then s else
      ({ s.setBook side ((s.book side).set price []) with
        levelTotal := s.levelTotal.set (side, price) 0 } : PyOrderBook).insertPrice side price := by
  rw [openLevel]
  simp only [levelTotal_setBook]

theorem index_openLevel : (s.openLevel side price).index = s.index := by
  rw [openLevel_eq]
  split
  · rfl
  · rw [insertPrice, index_setPrices]
    exact index_setBook s side _

theorem fills_openLevel : (s.openLevel side price).fills = s.fills := by
  rw [openLevel_eq]
  split
  · rfl
  · rw [insertPrice, fills_setPrices]
    exact fills_setBook s side _

theorem nextId_openLevel : (s.openLevel side price).nextId = s.nextId := by
  rw [openLevel_eq]
  split
  · rfl
  · rw [insertPrice, nextId_setPrices]
    exact nextId_setBook s side _

theorem openLevel (h : s.Represents b) (side : Side) (price : ℤ) :
    (s.openLevel side price).Stores
      (Function.update b.table (side, price) (some (queueAt price (b.levels side)))) := by
  have hkeys : price ∈ (s.book side).keys ↔ ∃ queue, b.table (side, price) = some queue := by
    rw [OrderedDict.mem_keys_iff]
    simp only [h.stores.book]
  rw [openLevel_eq]
  split
  · next hmem =>
      obtain ⟨queue, hqueue⟩ := hkeys.mp hmem
      rw [queueAt_of_lookup hqueue, ← hqueue, Function.update_eq_self]
      exact h.stores
  · next hmem =>
      have hnone : b.table (side, price) = none := by
        rw [Option.eq_none_iff_forall_ne_some]
        exact fun queue hqueue => hmem (hkeys.mpr ⟨queue, hqueue⟩)
      rw [queueAt_of_lookup_none hnone]
      exact h.stores.openLevel hnone

theorem restOrder (h : s.Represents b) (hsorted : Sorted side.Better (b.levels side))
    (hbefore : b.Before id) (price left : ℤ) :
    ∃ s', s.restOrder side id price left = .ok s' ∧
      s'.Represents (b.withLevels side (rest side.Better price (id, left) (b.levels side))) ∧
        s'.nextId = s.nextId := by
  have hstores := h.openLevel side price
  have hold := Function.update_self (side, price) (some (queueAt price (b.levels side))) b.table
  have hbook : subscript ((s.openLevel side price).book side) price =
      .ok (queueAt price (b.levels side)) := by
    rw [subscript_eq_ok_iff, hstores.book, hold]
  have htotal : subscript (s.openLevel side price).levelTotal (side, price) =
      .ok (total (queueAt price (b.levels side))) := by
    rw [subscript_eq_ok_iff, hstores.total, hold]
    rfl
  have hnew : (s.openLevel side price).index.get? id = none := by
    rw [index_openLevel]
    exact Book.find_eq_none h.stores.index hbefore
  have hindex := hstores.index.joined hold hnew left fun other =>
    OrderedDict.get?_set (s.openLevel side price).index other id (side, price)
  have htable : (b.withLevels side (rest side.Better price (id, left) (b.levels side))).table =
      Function.update (Function.update b.table (side, price)
        (some (queueAt price (b.levels side)))) (side, price)
          (some (queueAt price (b.levels side) ++ [(id, left)])) := by
    rw [Function.update_idem]
    exact Book.table_withLevels (lookup_rest hsorted)
  refine ⟨{ (s.openLevel side price).setBook side (((s.openLevel side price).book side).set price
      (queueAt price (b.levels side) ++ [(id, left)])) with
    levelTotal := (s.openLevel side price).levelTotal.set (side, price)
      (total (queueAt price (b.levels side)) + left)
    index := (s.openLevel side price).index.set id (side, price) }, ?_, ⟨?_, ?_⟩, ?_⟩
  · simp only [PyOrderBook.restOrder, hbook, ok_bind, levelTotal_setBook, htotal, index_setBook]
  · rw [htable]
    refine hstores.putQueue hold rfl ?_ ?_ hindex
    · exact prices_setBook _ side _
    · simp [total]
  · change ((s.openLevel side price).setBook side _).fills = _
    rw [fills_setBook, fills_openLevel, h.fills]
    rfl
  · change ((s.openLevel side price).setBook side _).nextId = _
    rw [nextId_setBook, nextId_openLevel]

/-! ## Orders that come in -/

theorem matchOrders (h : s.Represents b) (hsound : PriceTime.Sound side.Better (b.levels side))
    (crossed : ℤ → Prop) [DecidablePred crossed] (takerId wanted : ℤ) :
    ∃ s', s.matchOrders side takerId wanted crossed =
        .ok ((b.trade side crossed takerId wanted).1, s') ∧
      s'.Represents (b.trade side crossed takerId wanted).2 ∧ s'.nextId = s.nextId := by
  refine h.matchLoop crossed hsound takerId wanted ?_
  rw [h.length_prices hsound.sorted]
  exact Nat.lt_succ_self _

theorem addLimit_of_pos {qty : ℤ} (h : 0 < qty) (s : PyOrderBook) (side : Side) (price : ℤ) :
    s.addLimit side price qty =
      (({ s with nextId := s.nextId + 1 } : PyOrderBook).matchOrders side.opposite s.nextId qty
        (side.Crosses price)) >>= fun matched =>
          (if matched.1 > 0 then matched.2.restOrder side s.nextId price matched.1
            else .ok matched.2) >>= fun rested => .ok (s.nextId, rested) := by
  simp only [PyOrderBook.addLimit, if_neg h.not_ge]
  cases side <;> exact bind_congr fun matched => by split <;> rfl

theorem addLimit (h : s.Represents b) (hsound : b.Sound) (hbefore : b.Before s.nextId)
    (side : Side) (price qty : ℤ) :
    ∃ s', s.addLimit side price qty = .ok (s.nextId, s') ∧
      s'.Represents (b.addLimit s.nextId side price qty) ∧ s'.nextId = s.nextId + 1 := by
  have h' := h.nextId (s.nextId + 1)
  by_cases hqty : 0 < qty
  · obtain ⟨s₁, hrun₁, hrep₁, hid₁⟩ := h'.matchOrders (hsound.side side.opposite)
      (side.Crosses price) s.nextId qty
    rw [addLimit_of_pos hqty, hrun₁, ok_bind, Book.addLimit, if_pos hqty]
    simp only [Book.restOrder]
    by_cases hleft : 0 < (b.trade side.opposite (side.Crosses price) s.nextId qty).1
    · obtain ⟨s₂, hrun₂, hrep₂, hid₂⟩ := hrep₁.restOrder
        (hsound.trade.side side).sorted hbefore.trade price
        (b.trade side.opposite (side.Crosses price) s.nextId qty).1
      rw [if_pos hleft, if_pos hleft, hrun₂, ok_bind]
      exact ⟨s₂, rfl, hrep₂, hid₂.trans hid₁⟩
    · rw [if_neg hleft, if_neg hleft, ok_bind]
      exact ⟨s₁, rfl, hrep₁, hid₁⟩
  · refine ⟨{ s with nextId := s.nextId + 1 }, ?_, ?_, rfl⟩
    · simp only [PyOrderBook.addLimit, if_pos (not_lt.mp hqty)]
      rfl
    · simpa only [Book.addLimit, if_neg hqty] using h'

theorem addMarket (h : s.Represents b) (hsound : b.Sound) (side : Side) (qty : ℤ) :
    ∃ s', s.addMarket side qty = .ok ((b.addMarket s.nextId side qty).1, s') ∧
      s'.Represents (b.addMarket s.nextId side qty).2 ∧ s'.nextId = s.nextId + 1 := by
  have h' := h.nextId (s.nextId + 1)
  by_cases hqty : 0 < qty
  · obtain ⟨s₁, hrun₁, hrep₁, hid₁⟩ := h'.matchOrders (hsound.side side.opposite)
      (fun _ => True) s.nextId qty
    have hopposite : (if side = .buy then Side.sell else Side.buy) = side.opposite := by
      cases side <;> rfl
    refine ⟨s₁, ?_, by simpa only [Book.addMarket, if_pos hqty] using hrep₁, hid₁⟩
    simp only [PyOrderBook.addMarket, if_neg hqty.not_ge, hopposite, hrun₁, ok_bind,
      Book.addMarket, if_pos hqty]
    rfl
  · refine ⟨{ s with nextId := s.nextId + 1 }, ?_, ?_, rfl⟩
    · simp only [PyOrderBook.addMarket, if_pos (not_lt.mp hqty), Book.addMarket, if_neg hqty]
      rfl
    · simpa only [Book.addMarket, if_neg hqty] using h'

/-! ## An order that is cancelled -/

theorem cancel (h : s.Represents b) (hsound : b.Sound) (orderId : ℤ) :
    ∃ s', s.cancel orderId = .ok ((b.locate orderId).isSome, s') ∧
      s'.Represents (b.cancel orderId) ∧ s'.nextId = s.nextId := by
  have hindex := Book.find_eq_locate h.stores.index hsound orderId
  rw [PyOrderBook.cancel, Book.cancel, hindex]
  cases hplace : b.locate orderId with
  | none => exact ⟨s, rfl, h, rfl⟩
  | some place =>
      obtain ⟨side, price⟩ := place
      obtain ⟨queue, hqueue, hmem⟩ := (Book.locate_eq_some_iff hsound).mp hplace
      have htable : b.table (side, price) = some queue := hqueue
      obtain ⟨entry, hentry⟩ : ∃ entry, queue.find? (fun entry => entry.1 = orderId) =
          some entry := by
        obtain ⟨entry, hentry, heq⟩ := List.mem_map.mp hmem
        exact Option.isSome_iff_exists.mp
          (List.find?_isSome.mpr ⟨entry, hentry, by simpa using heq⟩)
      have hbook : subscript
          (({ s with index := s.index.erase orderId } : PyOrderBook).book side) price =
            .ok queue := by
        rw [subscript_eq_ok_iff]
        exact (h.stores.book side price).trans hqueue
      have htotal : subscript s.levelTotal (side, price) = .ok (total queue) := by
        rw [subscript_eq_ok_iff, h.stores.total, htable]
        rfl
      -- the state once the entry is deleted
      obtain ⟨s₁, hs₁⟩ : ∃ s₁, s₁ = ({ s with
          index := s.index.erase orderId
          levelTotal := s.levelTotal.set (side, price) (total queue - entry.2) }
            : PyOrderBook).setBook side
              ((s.book side).set price (queue.eraseP fun entry => entry.1 = orderId)) := ⟨_, rfl⟩
      have hstores : s₁.Stores (Function.update b.table (side, price)
          (some (queue.eraseP fun entry => entry.1 = orderId))) := by
        rw [hs₁]
        refine h.stores.putQueue hqueue ?_ (prices_setBook _ side _) ?_ ?_
        · cases side <;> rfl
        · rw [levelTotal_setBook, total_eraseP hentry]
        · rw [index_setBook]
          exact h.stores.index.gone htable hmem (mem_ids_eraseP (hsound.nodup_queue htable) hmem)
            (OrderedDict.get?_erase _ · _)
      have hfills : s₁.fills = b.fills := by rw [hs₁, fills_setBook, ← h.fills]
      have hid : s₁.nextId = s.nextId := by rw [hs₁, nextId_setBook]
      have hleft : subscript (s₁.book side) price =
          .ok (queue.eraseP fun entry => entry.1 = orderId) := by
        rw [subscript_eq_ok_iff, hstores.book, Function.update_self]
      have hleftover := Book.table_withdraw (hsound.side side).sorted htable orderId
      refine ⟨if (queue.eraseP fun entry => entry.1 = orderId) = [] then s₁.dropLevel side price
        else s₁, ?_, ?_, ?_⟩
      · have hlast : ∀ s₂, s₂ = s₁ →
            (subscript (s₂.book side) price >>= fun level =>
              .ok (true, if level = [] then s₂.dropLevel side price else s₂)) =
              (.ok (true, if (queue.eraseP fun entry => entry.1 = orderId) = [] then
                s₁.dropLevel side price else s₁) : Except Fault (Bool × PyOrderBook)) := by
          rintro _ rfl
          rw [hleft, ok_bind]
        simp only [hbook, ok_bind, hentry, htotal]
        exact hlast _ hs₁.symm
      · split
        · next hempty =>
            rw [hempty] at hstores hleftover
            refine ⟨?_, ?_⟩
            · have hdropped := hstores.dropLevel (Function.update_self ..)
              rw [Function.update_idem] at hdropped
              rw [hleftover, if_pos rfl]
              exact hdropped
            · rw [fills_dropLevel (hstores.sorted side), hfills]
              rfl
        · next hkept =>
            rw [if_neg hkept] at hleftover
            exact ⟨hleftover ▸ hstores, hfills⟩
      · split
        · rw [nextId_dropLevel (hstores.sorted side), hid]
        · exact hid

/-! ## What the book shows -/

theorem withTotals (h : s.Represents b) (side : Side) {prices : List ℤ} (hprices : ∀ price ∈ prices, price ∈ s.prices side) :
    s.withTotals side prices =
      .ok (prices.map fun price => (price, total (queueAt price (b.levels side)))) := by
  refine mapM_eq_ok_map fun price hprice => ?_
  obtain ⟨queue, hqueue⟩ :=
    Option.isSome_iff_exists.mp ((h.stores.prices side price).mp (hprices price hprice))
  have htotal : subscript s.levelTotal (side, price) = .ok (total queue) := by
    rw [subscript_eq_ok_iff, h.stores.total, hqueue]
    rfl
  rw [htotal, queueAt_of_lookup hqueue, ok_bind]

/-- Prices with their totals are the levels they belong to. -/
theorem map_totals (hsorted : Sorted side.Better (b.levels side)) :
    ((b.levels side).map Prod.fst).map
        (fun price => (price, total (queueAt price (b.levels side)))) =
      (b.levels side).map fun level => (level.1, total level.2) := by
  rw [List.map_map]
  apply List.map_congr_left
  intro level hlevel
  simp only [Function.comp, queueAt_of_mem hsorted hlevel]

theorem sliceFrom_subset {α : Type} (seq : List α) (start : ℤ) : sliceFrom seq start ⊆ seq := by
  unfold sliceFrom
  split <;> exact List.drop_subset _ _

theorem sliceTo_subset {α : Type} (seq : List α) (stop : ℤ) : sliceTo seq stop ⊆ seq := by
  unfold sliceTo
  split <;> exact List.take_subset _ _

/-- The last prices of an ascending list, the best first. -/
theorem reverse_sliceFrom_neg (prices : List ℤ) {count : ℤ} (h : 0 ≤ count) :
    (sliceFrom prices (-count)).reverse =
      prices.reverse.take (if count = 0 then prices.length else count.toNat) := by
  unfold sliceFrom
  split
  · next hneg =>
      have hcount : count ≠ 0 := by omega
      rw [if_neg hcount, neg_neg, List.take_reverse]
  · next hneg =>
      have hcount : count = 0 := by omega
      subst hcount
      simp

theorem sliceTo_nonneg (prices : List ℤ) {count : ℤ} (h : 0 ≤ count) :
    sliceTo prices count = prices.take count.toNat :=
  if_neg h.not_gt

/-- The bids that `bid_depth` shows: a depth of zero slices the whole list. -/
def shown (b : Book) (levels : ℤ) : ℕ :=
  if levels = 0 then (b.levels .buy).length else levels.toNat

theorem withTotals_bids (h : s.Represents b) (levels : ℤ) :
    s.bidDepth levels = .ok ((sliceFrom s.bidPrices (-levels)).reverse.map fun price =>
      (price, total (queueAt price (b.levels .buy)))) :=
  h.withTotals .buy fun _ hprice => sliceFrom_subset _ _ (List.mem_reverse.mp hprice)

theorem bidDepth (h : s.Represents b) (hsound : b.Sound) {levels : ℤ} (hlevels : 0 ≤ levels) :
    s.bidDepth levels = .ok (b.depth .buy (shown b levels)) := by
  have hsorted := (hsound.side .buy).sorted
  have hprices : s.bidPrices.reverse = (b.levels .buy).map Prod.fst := (h.prices_eq hsorted).symm
  have hlength : s.bidPrices.length = (b.levels .buy).length := h.length_prices hsorted
  rw [h.withTotals_bids, reverse_sliceFrom_neg _ hlevels, hprices, hlength, List.map_take,
    map_totals hsorted, Book.depth, List.map_take, shown]

theorem withTotals_asks (h : s.Represents b) (levels : ℤ) :
    s.askDepth levels = .ok ((sliceTo s.askPrices levels).map fun price =>
      (price, total (queueAt price (b.levels .sell)))) :=
  h.withTotals .sell fun _ hprice => sliceTo_subset _ _ hprice

theorem askDepth (h : s.Represents b) (hsound : b.Sound) {levels : ℤ} (hlevels : 0 ≤ levels) :
    s.askDepth levels = .ok (b.depth .sell levels.toNat) := by
  have hsorted := (hsound.side .sell).sorted
  have hprices : s.askPrices = (b.levels .sell).map Prod.fst := (h.prices_eq hsorted).symm
  rw [h.withTotals_asks, sliceTo_nonneg _ hlevels, hprices, List.map_take, map_totals hsorted,
    Book.depth, List.map_take]

theorem bidVolume (h : s.Represents b) (hsound : b.Sound) :
    s.bidVolume = .ok (b.volume .buy) := by
  have hsorted := (hsound.side .buy).sorted
  have htotals := h.withTotals .buy fun _ hprice => hprice
  have hprices : s.prices .buy = ((b.levels .buy).map Prod.fst).reverse := by
    rw [h.prices_eq hsorted]
    exact List.reverse_reverse _ |>.symm
  rw [hprices, List.map_reverse, map_totals hsorted, ← hprices] at htotals
  rw [PyOrderBook.bidVolume, show s.bidPrices = s.prices .buy from rfl, htotals, ok_bind,
    List.map_reverse, List.sum_reverse, List.map_map]
  rfl

theorem askVolume (h : s.Represents b) (hsound : b.Sound) :
    s.askVolume = .ok (b.volume .sell) := by
  have hsorted := (hsound.side .sell).sorted
  have htotals := h.withTotals .sell fun _ hprice => hprice
  have hprices : s.prices .sell = (b.levels .sell).map Prod.fst := (h.prices_eq hsorted).symm
  rw [hprices, map_totals hsorted, ← hprices] at htotals
  rw [PyOrderBook.askVolume, show s.askPrices = s.prices .sell from rfl, htotals, ok_bind,
    List.map_map]
  rfl

theorem openOrders (h : s.Represents b) (hsound : b.Sound) : s.openOrders = b.ids.length := by
  have hperm : s.index.keys.Perm b.ids := by
    refine (List.perm_ext_iff_of_nodup s.index.nodup_keys hsound.nodup).mpr fun id => ?_
    rw [Book.mem_ids_iff_find h.stores.index hsound]
    exact OrderedDict.mem_keys_iff
  have hlength := hperm.length_eq
  rw [OrderedDict.keys, List.length_map] at hlength
  rw [PyOrderBook.openOrders, OrderedDict.size, hlength]

/-! ## One call -/

/-- The number of the next order after a call. -/
def nextIdAfter (nextId : ℤ) (call : Call) : ℤ :=
  if call = .clear then 1 else if call.IsOrder then nextId + 1 else nextId

theorem before_nextIdAfter {nextId : ℤ} (hbefore : b.Before nextId) (call : Call) :
    (b.next nextId call).Before (nextIdAfter nextId call) := by
  unfold nextIdAfter
  split
  · next hclear =>
      subst hclear
      exact Book.before_empty 1
  · split
    · exact hbefore.next call
    · next horder => exact hbefore.next_of_not_isOrder (by simpa using horder)

/-- The answer of the code, which differs from the book's in a depth of zero. -/
def answer (b : Book) (id : ℤ) : Call → Answer
  | .bidDepth levels => .depth (b.depth .buy (shown b levels))
  | call => b.answer id call

/-- Every call returns, and the state after it represents the book after it. -/
theorem step (h : s.Represents b) (hsound : b.Sound) (hbefore : b.Before s.nextId)
    (call : Call) :
    ∃ returned s', s.step call = .ok (returned, s') ∧ s'.Represents (b.next s.nextId call) ∧
      s'.nextId = nextIdAfter s.nextId call ∧
        (call.Nonnegative → returned = answer b s.nextId call) := by
  cases call with
  | addLimit side price qty =>
      obtain ⟨s', hrun, hrep, hid⟩ := h.addLimit hsound hbefore side price qty
      exact ⟨_, s', by rw [PyOrderBook.step, hrun]; rfl, hrep, hid, fun _ => rfl⟩
  | addMarket side qty =>
      obtain ⟨s', hrun, hrep, hid⟩ := h.addMarket hsound side qty
      exact ⟨_, s', by rw [PyOrderBook.step, hrun]; rfl, hrep, hid, fun _ => rfl⟩
  | cancel orderId =>
      obtain ⟨s', hrun, hrep, hid⟩ := h.cancel hsound orderId
      exact ⟨_, s', by rw [PyOrderBook.step, hrun]; rfl, hrep, hid, fun _ => rfl⟩
  | bestBid =>
      refine ⟨_, s, rfl, h, rfl, fun _ => ?_⟩
      exact congrArg Answer.price (h.best_eq (hsound.side .buy).sorted)
  | bestAsk =>
      refine ⟨_, s, rfl, h, rfl, fun _ => ?_⟩
      exact congrArg Answer.price (h.best_eq (hsound.side .sell).sorted)
  | bidDepth levels =>
      have hdepth := h.withTotals_bids levels
      refine ⟨_, s, by rw [PyOrderBook.step, hdepth]; rfl, h, rfl, fun hlevels => ?_⟩
      rw [h.bidDepth hsound hlevels, Except.ok.injEq] at hdepth
      exact congrArg Answer.depth hdepth.symm
  | askDepth levels =>
      have hdepth := h.withTotals_asks levels
      refine ⟨_, s, by rw [PyOrderBook.step, hdepth]; rfl, h, rfl, fun hlevels => ?_⟩
      rw [h.askDepth hsound hlevels, Except.ok.injEq] at hdepth
      exact congrArg Answer.depth hdepth.symm
  | bidVolume =>
      exact ⟨_, s, by rw [PyOrderBook.step, h.bidVolume hsound]; rfl, h, rfl, fun _ => rfl⟩
  | askVolume =>
      exact ⟨_, s, by rw [PyOrderBook.step, h.askVolume hsound]; rfl, h, rfl, fun _ => rfl⟩
  | openOrders =>
      exact ⟨_, s, rfl, h, rfl, fun _ => congrArg Answer.int (h.openOrders hsound)⟩
  | takeFills =>
      refine ⟨_, _, rfl, ⟨?_, rfl⟩, rfl, fun _ => congrArg Answer.fills h.fills⟩
      exact ⟨h.stores.book, h.stores.total, h.stores.sorted, h.stores.prices, h.stores.index⟩
  | clear => exact ⟨_, _, rfl, empty, rfl, fun _ => rfl⟩

end Represents

end PyOrderBook

end LimitBook
