import SignalFoundry.Execution.OrderBook.NativeMatch

/-!
# The C++ order book refines the book

As long as what rests on each side fits in 64 bits, no call on a state that
represents a sound book overflows, no iterator dangles, and the state after a
call represents the book after it (`Represents.step`). A depth that the vector
cannot reserve is an error. The id of a limit order must be larger than those
that rest, which the counter guarantees until it wraps.
-/

namespace LimitBook

open PriceTime Fallible

namespace Native

/-! ## Changes of one level -/

section Levels

variable {side : Side} {price id : ℤ}

variable {entry : ℤ × Level} {book : LevelMap}

theorem touch_found (h : entry.1 = price) :
    LevelMap.touch side price (entry :: book) = entry :: book :=
  if_pos h

theorem touch_before (hne : entry.1 ≠ price) (h : side.Better price entry.1) :
    LevelMap.touch side price (entry :: book) = (price, {}) :: entry :: book :=
  (if_neg hne).trans (if_pos h)

theorem touch_after (hne : entry.1 ≠ price) (h : ¬ side.Better price entry.1) :
    LevelMap.touch side price (entry :: book) = entry :: LevelMap.touch side price book :=
  (if_neg hne).trans (if_neg h)

theorem alter_found (h : entry.1 = price) {change : Level → Except Fault Level} {level : Level}
    (hchange : change entry.2 = .ok level) :
    LevelMap.alter price change (entry :: book) = .ok ((entry.1, level) :: book) := by
  refine (if_pos h).trans ?_
  rw [hchange, ok_bind]

theorem alter_later (hne : entry.1 ≠ price) {change : Level → Except Fault Level}
    {book' : LevelMap} (hlater : LevelMap.alter price change book = .ok book') :
    LevelMap.alter price change (entry :: book) = .ok (entry :: book') := by
  refine (if_neg hne).trans ?_
  rw [hlater, ok_bind]

theorem eraseEmpty_found (h : entry.1 = price) :
    LevelMap.eraseEmpty price (entry :: book) =
      if entry.2.orders = [] then book else entry :: book :=
  if_pos h

theorem eraseEmpty_later (hne : entry.1 ≠ price) :
    LevelMap.eraseEmpty price (entry :: book) = entry :: LevelMap.eraseEmpty price book :=
  if_neg hne

theorem push_encodeLevel (side : Side) (price id : ℤ) {left : ℤ} {queue : Queue ℤ}
    (hlower : 0 ≤ total queue + left) (hupper : total queue + left < 2 ^ 63) :
    Level.push ⟨id, side, price, left⟩ (encodeLevel side (price, queue)).2 =
      .ok (encodeLevel side (price, queue ++ [(id, left)])).2 := by
  have hfits := int64_of_fits (show -2 ^ 63 ≤ total queue + left from
    le_trans (by decide) hlower) hupper
  simp only [Level.push, encodeLevel, hfits, ok_bind]
  simp [total, encodeOrder]

/-- `book[price]`, a new order and its quantity in the total. -/
theorem alter_touch (side : Side) (price id : ℤ) {left : ℤ} (hleft : 0 < left)
    {levels : Levels ℤ ℤ} (hpositive : ∀ level ∈ levels, ∀ order ∈ level.2, 0 < order.2)
    (hfits : ∀ level ∈ rest side.Better price (id, left) levels, total level.2 < 2 ^ 63) :
    (LevelMap.touch side price (levels.map (encodeLevel side))).alter price
        (Level.push ⟨id, side, price, left⟩) =
      .ok ((rest side.Better price (id, left) levels).map (encodeLevel side)) := by
  have htotal : ∀ queue : Queue ℤ, total (queue ++ [(id, left)]) = total queue + left := by
    intro queue
    simp [total]
  -- a level that is created holds nothing before the order
  have hfresh : ∀ {book : LevelMap}, total [(id, left)] < 2 ^ 63 →
      LevelMap.alter price (Level.push ⟨id, side, price, left⟩) ((price, {}) :: book) =
        .ok (encodeLevel side (price, [(id, left)]) :: book) := by
    intro book hupper
    have hlower : 0 ≤ total ([] : Queue ℤ) + left := by simpa [total] using hleft.le
    exact alter_found rfl (push_encodeLevel side price id hlower (by rwa [← htotal]))
  induction levels using rest_induction (r := side.Better) price with
  | nil => exact hfresh (hfits _ List.mem_cons_self)
  | found level levels h =>
      subst h
      rw [rest_cons_self] at hfits ⊢
      have hupper := hfits _ List.mem_cons_self
      have hlower := Book.total_nonneg (hpositive level List.mem_cons_self)
      rw [htotal] at hupper
      rw [List.map_cons, touch_found (show (encodeLevel side level).1 = level.1 from rfl)]
      exact alter_found rfl (push_encodeLevel side level.1 id (by omega) hupper)
  | before level levels hne hbefore =>
      rw [rest_cons_before hne hbefore] at hfits ⊢
      rw [List.map_cons, touch_before hne hbefore, hfresh (hfits _ List.mem_cons_self)]
      rfl
  | after level levels hne hafter ih =>
      rw [rest_cons_after hne hafter] at hfits ⊢
      have hlater := ih (fun other hother => hpositive other (List.mem_cons_of_mem _ hother))
        (fun other hother => hfits other (List.mem_cons_of_mem _ hother))
      rw [List.map_cons, touch_after hne hafter, alter_later hne hlater, List.map_cons]

theorem erase_encodeLevel (side : Side) (price : ℤ) {queue : Queue ℤ}
    (hpositive : ∀ order ∈ queue, 0 < order.2) (hfits : total queue < 2 ^ 63) (hmem : id ∈ queue.map Prod.fst) :
    Level.erase id (encodeLevel side (price, queue)).2 =
      .ok (encodeLevel side (price, queue.eraseP fun order => order.1 = id)).2 := by
  obtain ⟨order, horder⟩ : ∃ order, queue.find? (fun order => order.1 = id) = some order := by
    obtain ⟨order, horder, heq⟩ := List.mem_map.mp hmem
    exact Option.isSome_iff_exists.mp
      (List.find?_isSome.mpr ⟨order, horder, by simpa using heq⟩)
  have hfound : (queue.map (encodeOrder side price)).find? (fun order => order.id = id) =
      some (encodeOrder side price order) := by
    rw [List.find?_map]
    exact congrArg _ horder
  have hleft := total_eraseP horder
  have hlower := Book.total_nonneg fun other hother =>
    hpositive other (List.mem_of_mem_eraseP (p := fun order : ℤ × ℤ => order.1 = id) hother)
  have hqty := hpositive order (List.mem_of_find?_eq_some horder)
  have hsub := int64_of_fits (show -2 ^ 63 ≤ total queue - order.2 by omega) (by omega)
  simp only [Level.erase, encodeLevel, hfound, encodeOrder, hsub, ok_bind, hleft, List.eraseP_map]
  rfl

theorem eraseOrder_mk (book : LevelMap) (side : Side) (price id : ℤ) :
    OrderBook.eraseOrder book ⟨side, price, id⟩ =
      LevelMap.alter price (Level.erase id) book >>= fun book =>
        .ok (LevelMap.eraseEmpty price book) := rfl

/-- An order goes through its iterator, its quantity out of the total, and the
level if nothing is left of it. -/
theorem eraseOrder_eq {levels : Levels ℤ ℤ}
    (hpositive : ∀ level ∈ levels, ∀ order ∈ level.2, 0 < order.2)
    (hfits : ∀ level ∈ levels, total level.2 < 2 ^ 63)
    (hmem : id ∈ (queueAt price levels).map Prod.fst) :
    OrderBook.eraseOrder (levels.map (encodeLevel side)) ⟨side, price, id⟩ =
      .ok ((remove price id levels).map (encodeLevel side)) := by
  induction levels with
  | nil => simp [queueAt] at hmem
  | cons level levels ih =>
      by_cases heq : level.1 = price
      · subst heq
        rw [queueAt_cons_self] at hmem
        have halter : LevelMap.alter level.1 (Level.erase id)
            (encodeLevel side level :: levels.map (encodeLevel side)) =
              .ok (encodeLevel side (level.1, level.2.eraseP fun order => order.1 = id) ::
                levels.map (encodeLevel side)) :=
          alter_found rfl (erase_encodeLevel side level.1 (hpositive level List.mem_cons_self)
            (hfits level List.mem_cons_self) hmem)
        rw [eraseOrder_mk, List.map_cons, halter, ok_bind, eraseEmpty_found (show (encodeLevel side
          (level.1, level.2.eraseP fun order => order.1 = id)).1 = level.1 from rfl)]
        by_cases hused : (level.2.eraseP fun order => order.1 = id) = []
        · rw [remove_of_used hused, hused]
          rfl
        · rw [remove_of_kept hused, if_neg (by simpa [encodeLevel] using hused), List.map_cons]
      · rw [queueAt_cons_of_ne heq] at hmem
        have hlater := ih (fun other hother => hpositive other (List.mem_cons_of_mem _ hother))
          (fun other hother => hfits other (List.mem_cons_of_mem _ hother)) hmem
        obtain ⟨book', halter, herase⟩ := bind_eq_ok_iff.mp hlater
        rw [remove_of_ne heq, List.map_cons, List.map_cons, ← Except.ok.inj herase,
          eraseOrder_mk, alter_later heq halter, ok_bind, eraseEmpty_later heq]

end Levels

namespace OrderBook

namespace Represents

variable {s : OrderBook} {b : Book} {side : Side}

theorem nextId (h : s.Represents b) (id : ℤ) :
    ({ s with nextId := id } : OrderBook).Represents b where
  index := h.index
  it := h.it
  fills := h.fills
  book := h.book

theorem restOrder (h : s.Represents b) (hsound : b.Sound) {id : ℤ} (hbefore : b.Before id)
    {left : ℤ} (hleft : 0 < left) (side : Side) (price : ℤ)
    (hfits : (b.withLevels side (rest side.Better price (id, left) (b.levels side))).Fits) :
    ∃ s', s.restOrder side id price left = .ok s' ∧
      s'.Represents (b.withLevels side (rest side.Better price (id, left) (b.levels side))) ∧
        s'.nextId = s.nextId := by
  have hside := hsound.side side
  have hrest := hside.rest price (show 0 < (id, left).2 from hleft) fun old hold =>
    hbefore old (Book.mem_ids_iff.mpr ⟨side, hold⟩)
  have halter := alter_touch side price id hleft hside.positive fun level hlevel => by
    have hvolume := hfits side
    rw [Book.volume, Book.levels_withLevels] at hvolume
    exact lt_of_le_of_lt (Book.total_le_sum hrest.positive hlevel) hvolume
  refine ⟨{ s.setBook side ((rest side.Better price (id, left) (b.levels side)).map
      (encodeLevel side)) with index := s.index.set id ⟨side, price, id⟩ }, ?_,
    ⟨⟨?_, fun other loc hloc => ?_, ?_⟩, fun other => ?_⟩, ?_⟩
  · rw [OrderBook.restOrder, h.book side, halter, ok_bind]
    cases side <;> rfl
  · refine Book.index_rest h.index hside.sorted (Book.find_eq_none h.index hbefore) fun other => ?_
    simp only [find, OrderedDict.get?_set]
    split <;> rfl
  · rw [OrderedDict.get?_set] at hloc
    split at hloc
    · next heq =>
        rw [heq, ← Option.some.inj hloc]
    · exact h.it other loc hloc
  · cases side <;> exact h.fills
  · by_cases heq : other = side
    · subst heq
      rw [Book.levels_withLevels]
      exact book_setBook s other _
    · rw [Book.levels_withLevels_of_ne b heq, ← h.book]
      exact book_setBook_of_ne s heq _
  · exact nextId_setBook s side _

/-! ## Orders that come in -/

theorem addLimit_of_pos {qty : ℤ} (h : 0 < qty) (s : OrderBook) (side : Side) (price : ℤ) :
    s.addLimit side price qty =
      (({ s with nextId := uint64 (s.nextId + 1) } : OrderBook).matchBook side.opposite s.nextId
        qty (side.Crosses price)) >>= fun matched =>
          (if matched.1 > 0 then matched.2.restOrder side s.nextId price matched.1
            else .ok matched.2) >>= fun rested => .ok (s.nextId, rested) := by
  simp only [OrderBook.addLimit, if_neg h.not_ge]
  cases side <;> exact bind_congr fun matched => by split <;> rfl

theorem addLimit (h : s.Represents b) (hsound : b.Sound) (hbefore : b.Before s.nextId)
    (hfits : b.Fits) (side : Side) (price : ℤ) {qty : ℤ} (hqty : qty < 2 ^ 63)
    (hafter : (b.addLimit s.nextId side price qty).Fits) :
    ∃ s', s.addLimit side price qty = .ok (s.nextId, s') ∧
      s'.Represents (b.addLimit s.nextId side price qty) ∧
        s'.nextId = uint64 (s.nextId + 1) := by
  have h' := h.nextId (uint64 (s.nextId + 1))
  by_cases hpos : 0 < qty
  · obtain ⟨s₁, hrun₁, hrep₁, hid₁⟩ := h'.matchBook hsound hfits side.opposite
      (side.Crosses price) s.nextId hqty
    rw [Book.addLimit, if_pos hpos] at hafter ⊢
    simp only [Book.restOrder] at hafter ⊢
    rw [addLimit_of_pos hpos, hrun₁, ok_bind]
    by_cases hleft : 0 < (b.trade side.opposite (side.Crosses price) s.nextId qty).1
    · rw [if_pos hleft] at hafter ⊢
      obtain ⟨s₂, hrun₂, hrep₂, hid₂⟩ :=
        hrep₁.restOrder hsound.trade hbefore.trade hleft side price hafter
      rw [if_pos hleft, hrun₂, ok_bind]
      exact ⟨s₂, rfl, hrep₂, hid₂.trans hid₁⟩
    · rw [if_neg hleft, if_neg hleft, ok_bind]
      exact ⟨s₁, rfl, hrep₁, hid₁⟩
  · refine ⟨{ s with nextId := uint64 (s.nextId + 1) }, ?_, ?_, rfl⟩
    · simp only [OrderBook.addLimit, if_pos (not_lt.mp hpos)]
      rfl
    · simpa only [Book.addLimit, if_neg hpos] using h'

theorem addMarket (h : s.Represents b) (hsound : b.Sound) (hfits : b.Fits) (side : Side)
    {qty : ℤ} (hqty : qty < 2 ^ 63) :
    ∃ s', s.addMarket side qty = .ok ((b.addMarket s.nextId side qty).1, s') ∧
      s'.Represents (b.addMarket s.nextId side qty).2 ∧ s'.nextId = uint64 (s.nextId + 1) := by
  have h' := h.nextId (uint64 (s.nextId + 1))
  by_cases hpos : 0 < qty
  · obtain ⟨s₁, hrun₁, hrep₁, hid₁⟩ := h'.matchBook hsound hfits side.opposite
      (fun _ => True) s.nextId hqty
    -- no more is left than was wanted, and no less than nothing
    have hlower : 0 ≤ (b.trade side.opposite (fun _ => True) s.nextId qty).1 :=
      left_sweep_nonneg (b.levels side.opposite) hpos.le
    have hupper : (b.trade side.opposite (fun _ => True) s.nextId qty).1 ≤ qty :=
      left_sweep_le qty (hsound.side side.opposite).positive
    have htraded := int64_of_fits
      (show -2 ^ 63 ≤ qty - (b.trade side.opposite (fun _ => True) s.nextId qty).1 by omega)
      (by omega)
    rw [Book.addMarket, if_pos hpos]
    refine ⟨s₁, ?_, hrep₁, hid₁⟩
    simp only [OrderBook.addMarket, if_neg hpos.not_ge]
    cases side <;> simp only [Side.opposite] at hrun₁ htraded ⊢ <;>
      rw [hrun₁, ok_bind, htraded, ok_bind] <;> rfl
  · refine ⟨{ s with nextId := uint64 (s.nextId + 1) }, ?_, ?_, rfl⟩
    · simp only [OrderBook.addMarket, if_pos (not_lt.mp hpos), Book.addMarket, if_neg hpos]
      rfl
    · simpa only [Book.addMarket, if_neg hpos] using h'

/-! ## An order that is cancelled -/

theorem cancel (h : s.Represents b) (hsound : b.Sound) (hfits : b.Fits) (orderId : ℤ) :
    ∃ s', s.cancel orderId = .ok ((b.locate orderId).isSome, s') ∧
      s'.Represents (b.cancel orderId) ∧ s'.nextId = s.nextId := by
  have hplace := Book.find_eq_locate h.index hsound orderId
  rw [find] at hplace
  rw [OrderBook.cancel]
  cases hloc : s.index.get? orderId with
  | none =>
      rw [hloc, Option.map_none] at hplace
      refine ⟨s, by rw [← hplace]; rfl, ?_, rfl⟩
      simpa only [Book.cancel, ← hplace] using h
  | some loc =>
      obtain ⟨side, price, it⟩ := loc
      obtain rfl : it = orderId := h.it orderId _ hloc
      rw [hloc, Option.map_some] at hplace
      obtain ⟨queue, hqueue, hmem⟩ := (Book.locate_eq_some_iff hsound).mp hplace.symm
      have hside := hsound.side side
      have herase : eraseOrder ((b.levels side).map (encodeLevel side)) ⟨side, price, it⟩ =
          .ok ((remove price it (b.levels side)).map (encodeLevel side)) :=
        eraseOrder_eq hside.positive (fun level hlevel => hfits.total_lt hsound hlevel)
          (queueAt_of_lookup hqueue ▸ hmem)
      have hcancel : b.cancel it = b.withdraw side price it := by
        simp only [Book.cancel, ← hplace]
      rw [← hplace, hcancel]
      refine ⟨{ s.setBook side ((remove price it (b.levels side)).map (encodeLevel side)) with
        index := s.index.erase it }, ?_, ⟨⟨?_, fun other loc hloc => ?_, ?_⟩, fun other => ?_⟩, ?_⟩
      · simp only [h.book side, herase, ok_bind]
        cases side <;> rfl
      · exact Book.index_withdraw h.index hsound hqueue hmem (find_erase s it · s.fills)
      · rw [OrderedDict.get?_erase] at hloc
        split at hloc
        · cases hloc
        · exact h.it other loc hloc
      · cases side <;> exact h.fills
      · by_cases heq : other = side
        · subst heq
          rw [Book.withdraw, Book.levels_withLevels]
          exact book_setBook s other _
        · rw [Book.withdraw, Book.levels_withLevels_of_ne b heq, ← h.book]
          exact book_setBook_of_ne s heq _
      · exact nextId_setBook s side _

/-! ## What the book shows -/

theorem bestOf_eq (h : s.Represents b) (side : Side) :
    bestOf (s.book side) = (b.levels side).head?.map Prod.fst := by
  rw [bestOf, h.book, List.head?_map, Option.map_map]
  rfl

theorem depthOf_eq (h : s.Represents b) (side : Side) (maxSize count : ℕ) :
    depthOf maxSize (s.book side) count =
      if maxSize < count then .lengthError else .depth (b.depth side count) := by
  rw [depthOf, h.book, ← List.map_take, List.map_map]
  rfl

/-- The partial sums stay below the volume, whose terms are not negative. -/
theorem foldlM_totals {levels : Levels ℤ ℤ} (side : Side)
    (hpositive : ∀ level ∈ levels, ∀ order ∈ level.2, 0 < order.2) {start : ℤ} (hstart : 0 ≤ start)
    (hfits : start + (levels.map fun level => total level.2).sum < 2 ^ 63) :
    (levels.map (encodeLevel side)).foldlM (fun total entry => int64 (total + entry.2.total)) start =
      .ok (start + (levels.map fun level => total level.2).sum) := by
  induction levels generalizing start with
  | nil => simp
  | cons level levels ih =>
      have hlater : ∀ level ∈ levels, ∀ order ∈ level.2, 0 < order.2 :=
        fun other hother => hpositive other (List.mem_cons_of_mem _ hother)
      have hfirst := Book.total_nonneg (hpositive level List.mem_cons_self)
      have hrest : 0 ≤ (levels.map fun level => total level.2).sum := by
        refine List.sum_nonneg fun t ht => ?_
        obtain ⟨other, hother, rfl⟩ := List.mem_map.mp ht
        exact Book.total_nonneg (hlater other hother)
      rw [List.map_cons, List.sum_cons, ← add_assoc] at hfits
      rw [List.map_cons, List.map_cons, List.sum_cons, ← add_assoc, List.foldlM_cons, show (encodeLevel side level).2.total = total level.2
        from rfl, int64_of_fits (le_trans (by decide) (add_nonneg hstart hfirst)) (by omega), ok_bind]
      exact ih hlater (add_nonneg hstart hfirst) hfits

theorem volumeOf_eq (h : s.Represents b) (hsound : b.Sound) (hfits : b.Fits) (side : Side) :
    volumeOf (s.book side) = .ok (b.volume side) := by
  have hfold := foldlM_totals side (hsound.side side).positive le_rfl
    (show 0 + ((b.levels side).map fun level => total level.2).sum < 2 ^ 63 by
      rw [zero_add]; exact hfits side)
  rw [zero_add] at hfold
  rw [volumeOf, h.book]
  exact hfold

theorem openOrders_eq (h : s.Represents b) (hsound : b.Sound) : s.openOrders = b.ids.length := by
  have hperm : s.index.keys.Perm b.ids := by
    refine (List.perm_ext_iff_of_nodup s.index.nodup_keys hsound.nodup).mpr fun id => ?_
    have hkeys : id ∈ s.index.keys ↔ ∃ loc, s.index.get? id = some loc := OrderedDict.mem_keys_iff
    rw [Book.mem_ids_iff_find h.index hsound]
    refine hkeys.trans ?_
    simp only [find, Option.map_eq_some_iff]
    constructor
    · rintro ⟨loc, hloc⟩
      exact ⟨_, loc, hloc, rfl⟩
    · rintro ⟨-, loc, hloc, -⟩
      exact ⟨loc, hloc⟩
  have hlength := hperm.length_eq
  rw [OrderedDict.keys, List.length_map] at hlength
  rw [OrderBook.openOrders, OrderedDict.size, hlength]

/-! ## One call -/

/-- The number of the next order after a call; `clear` does not reset it. -/
def nextIdAfter (nextId : ℤ) (call : Call) : ℤ :=
  if call.IsOrder then uint64 (nextId + 1) else nextId

/-- The answer of the code, which refuses a depth the vector cannot reserve. -/
def answer (maxSize : ℕ) (b : Book) (id : ℤ) : Call → Answer
  | .bidDepth levels =>
      if maxSize < levels.toNat then .lengthError else b.answer id (.bidDepth levels)
  | .askDepth levels =>
      if maxSize < levels.toNat then .lengthError else b.answer id (.askDepth levels)
  | call => b.answer id call

/-- Every call whose sums fit returns, and the state after it represents the book
after it. Only a limit order needs its id to be fresh. -/
theorem step (h : s.Represents b) (hsound : b.Sound) (hfits : b.Fits) (maxSize : ℕ) {call : Call}
    (hcall : call.Int64) (hafter : (b.next s.nextId call).Fits)
    (hbefore : ∀ side price qty, call = .addLimit side price qty → b.Before s.nextId) :
    ∃ s', s.step maxSize call = .ok (answer maxSize b s.nextId call, s') ∧
      s'.Represents (b.next s.nextId call) ∧ s'.nextId = nextIdAfter s.nextId call := by
  cases call with
  | addLimit side price qty =>
      obtain ⟨s', hrun, hrep, hid⟩ := h.addLimit hsound (hbefore side price qty rfl) hfits side
        price hcall.2.2 hafter
      exact ⟨s', by rw [OrderBook.step, hrun]; rfl, hrep, hid⟩
  | addMarket side qty =>
      obtain ⟨s', hrun, hrep, hid⟩ := h.addMarket hsound hfits side hcall.2
      exact ⟨s', by rw [OrderBook.step, hrun]; rfl, hrep, hid⟩
  | cancel orderId =>
      obtain ⟨s', hrun, hrep, hid⟩ := h.cancel hsound hfits orderId
      exact ⟨s', by rw [OrderBook.step, hrun]; rfl, hrep, hid⟩
  | bestBid =>
      exact ⟨s, by rw [OrderBook.step, show s.bids = s.book .buy from rfl, h.bestOf_eq]; rfl, h, rfl⟩
  | bestAsk =>
      exact ⟨s, by rw [OrderBook.step, show s.asks = s.book .sell from rfl, h.bestOf_eq]; rfl, h, rfl⟩
  | bidDepth levels =>
      refine ⟨s, ?_, h, rfl⟩
      rw [OrderBook.step, show s.bids = s.book .buy from rfl, h.depthOf_eq]
      rfl
  | askDepth levels =>
      refine ⟨s, ?_, h, rfl⟩
      rw [OrderBook.step, show s.asks = s.book .sell from rfl, h.depthOf_eq]
      rfl
  | bidVolume =>
      refine ⟨s, ?_, h, rfl⟩
      rw [OrderBook.step, show s.bids = s.book .buy from rfl, h.volumeOf_eq hsound hfits]
      rfl
  | askVolume =>
      refine ⟨s, ?_, h, rfl⟩
      rw [OrderBook.step, show s.asks = s.book .sell from rfl, h.volumeOf_eq hsound hfits]
      rfl
  | openOrders => exact ⟨s, by rw [OrderBook.step, h.openOrders_eq hsound]; rfl, h, rfl⟩
  | takeFills =>
      refine ⟨{ s with fills := [] }, ?_, ⟨⟨h.index, h.it, rfl⟩, h.book⟩, rfl⟩
      rw [OrderBook.step, h.fills]
      rfl
  | clear =>
      refine ⟨s.clear, rfl, ⟨⟨fun id key => ?_, nofun, rfl⟩, fun side => ?_⟩, rfl⟩
      · simp [find, OrderBook.clear, Book.next, Book.table, Book.empty]
      · cases side <;> rfl

end Represents

end OrderBook

end Native

end LimitBook
