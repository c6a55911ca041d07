import Mathlib.Algebra.Order.BigOperators.Group.List
import SignalFoundry.Execution.OrderBook.Native
import SignalFoundry.Execution.OrderBook.PythonCalls

/-!
# Matching in the C++ order book

A state of the C++ book represents a book when its maps are the encoded levels
and its index finds every order. The loops of `match_` work on one map while the
index and the fills follow (`Follows`); they walk it as `sweep` does, and nothing
overflows as long as each level fits in 64 bits.
-/

namespace LimitBook

open PriceTime Fallible

/-- What rests on each side fits in a signed 64-bit integer. -/
def Book.Fits (b : Book) : Prop := ∀ side, b.volume side < 2 ^ 63

namespace Book

variable {b : Book}

theorem total_nonneg {queue : Queue ℤ} (h : ∀ order ∈ queue, 0 < order.2) : 0 ≤ total queue := by
  induction queue with
  | nil => exact le_rfl
  | cons order queue ih =>
      have hfirst := h order List.mem_cons_self
      have hrest := ih fun other hother => h other (List.mem_cons_of_mem _ hother)
      simp only [total, List.map_cons, List.sum_cons] at hrest ⊢
      omega

theorem total_le_sum {levels : Levels ℤ ℤ}
    (hpositive : ∀ level ∈ levels, ∀ order ∈ level.2, 0 < order.2) {level : ℤ × Queue ℤ}
    (h : level ∈ levels) : total level.2 ≤ (levels.map fun level => total level.2).sum := by
  apply List.single_le_sum
  · intro t ht
    obtain ⟨other, hother, rfl⟩ := List.mem_map.mp ht
    exact total_nonneg (hpositive other hother)
  · exact List.mem_map_of_mem h

/-- Every level of a side that fits, fits. -/
theorem Fits.total_lt (h : b.Fits) (hsound : b.Sound) {side : Side} {level : ℤ × Queue ℤ}
    (hlevel : level ∈ b.levels side) : total level.2 < 2 ^ 63 :=
  lt_of_le_of_lt (total_le_sum (hsound.side side).positive hlevel) (h side)

end Book

namespace Native

def encodeOrder (side : Side) (price : ℤ) (order : ℤ × ℤ) : Order :=
  ⟨order.1, side, price, order.2⟩

def encodeLevel (side : Side) (level : ℤ × Queue ℤ) : ℤ × Level :=
  (level.1, ⟨total level.2, level.2.map (encodeOrder side level.1)⟩)

namespace OrderBook

/-- The place of an order by the index. -/
def find (s : OrderBook) (id : ℤ) : Option (Side × ℤ) :=
  (s.index.get? id).map fun loc => (loc.side, loc.price)

/-- The index and the fills of a state agree with a book. -/
structure Follows (s : OrderBook) (b : Book) : Prop where
  index : Indexes s.find b.table
  it : ∀ id loc, s.index.get? id = some loc → loc.it = id
  fills : s.fills = b.fills

structure Represents (s : OrderBook) (b : Book) : Prop extends s.Follows b where
  book : ∀ side, s.book side = (b.levels side).map (encodeLevel side)

/-- The maps and the counter of a state are those of another. -/
structure SameMaps (s s' : OrderBook) : Prop where
  bids : s'.bids = s.bids
  asks : s'.asks = s.asks
  nextId : s'.nextId = s.nextId

variable {s : OrderBook} {b : Book} {side : Side}

theorem find_erase (s : OrderBook) (lost id : ℤ) (fills : List Fill) :
    ({ s with fills := fills, index := s.index.erase lost } : OrderBook).find id =
      if id = lost then none else s.find id := by
  simp only [find, OrderedDict.get?_erase]
  split <;> rfl

/-! ## Matching -/

theorem matchOrders_of_used {takerId remaining total : ℤ} {maker : Order} (hpos : 0 < remaining)
    (hle : maker.qty ≤ remaining) (hqty : 0 ≤ maker.qty) (hremaining : remaining < 2 ^ 63)
    (htotal : maker.qty ≤ total) (hfits : total < 2 ^ 63) (orders : List Order) (s : OrderBook) :
    matchOrders takerId remaining total (maker :: orders) s =
      matchOrders takerId (remaining - maker.qty) (total - maker.qty) orders { s with
        fills := s.fills ++ [Fill.mk maker.id takerId maker.price maker.qty]
        index := s.index.erase maker.id } := by
  have htraded : (if maker.qty < remaining then maker.qty else remaining) = maker.qty := by
    split <;> omega
  rw [matchOrders, if_pos hpos]
  simp only [htraded, sub_self, int64_of_fits (show -2 ^ 63 ≤ (0 : ℤ) by decide) (by decide),
    int64_of_fits (show -2 ^ 63 ≤ total - maker.qty by omega) (by omega),
    int64_of_fits (show -2 ^ 63 ≤ remaining - maker.qty by omega) (by omega), ok_bind, if_true]

theorem matchOrders_of_kept {takerId remaining total : ℤ} {maker : Order} (hpos : 0 < remaining)
    (hlt : remaining < maker.qty) (htotal : maker.qty ≤ total) (hfits : total < 2 ^ 63)
    (orders : List Order) (s : OrderBook) :
    matchOrders takerId remaining total (maker :: orders) s =
      .ok (0, ⟨total - remaining, { maker with qty := maker.qty - remaining } :: orders⟩, { s with
        fills := s.fills ++ [Fill.mk maker.id takerId maker.price remaining] }) := by
  have htraded : (if maker.qty < remaining then maker.qty else remaining) = remaining := by
    split <;> omega
  have hkept : ¬ maker.qty - remaining = 0 := by omega
  rw [matchOrders, if_pos hpos]
  simp only [htraded, sub_self, int64_of_fits (show -2 ^ 63 ≤ (0 : ℤ) by decide) (by decide),
    int64_of_fits (show -2 ^ 63 ≤ total - remaining by omega) (by omega),
    int64_of_fits (show -2 ^ 63 ≤ maker.qty - remaining by omega) (by omega), ok_bind,
    if_neg hkept]

theorem Follows.matchOrders {best : ℤ} {queue : Queue ℤ} {levels : Levels ℤ ℤ}
    (h : s.Follows b) (hlevels : b.levels side = (best, queue) :: levels)
    (hpositive : ∀ order ∈ queue, 0 < order.2) (hnodup : (queue.map Prod.fst).Nodup)
    (htotal : total queue < 2 ^ 63) (takerId : ℤ) {remaining : ℤ} (hremaining : remaining < 2 ^ 63) :
    ∃ s', OrderBook.matchOrders takerId remaining (total queue)
        (queue.map (encodeOrder side best)) s =
          .ok ((take remaining queue).left,
            (encodeLevel side (best, (take remaining queue).queue)).2, s') ∧
      s'.Follows (b.refilled side (best, (take remaining queue).queue) levels
        (Book.fillsAt takerId best (take remaining queue))) ∧ s.SameMaps s' := by
  induction queue generalizing remaining s b with
  | nil => exact ⟨s, rfl, by simpa [Book.fillsAt, tradesAt, Book.refilled_self hlevels] using h,
      rfl, rfl, rfl⟩
  | cons order queue ih =>
      obtain ⟨orderId, qty⟩ := order
      rcases le_or_gt remaining 0 with hstop | hpos
      · refine ⟨s, ?_, ?_, rfl, rfl, rfl⟩
        · simp [OrderBook.matchOrders, hstop.not_gt, take_of_nonpos hstop, encodeLevel]
        · simpa [take_of_nonpos hstop, Book.fillsAt, tradesAt, Book.refilled_self hlevels] using h
      have htable := Book.table_head hlevels
      have hqty : 0 < qty := hpositive _ List.mem_cons_self
      have hlater : ∀ order ∈ queue, 0 < order.2 := fun other hother =>
        hpositive other (List.mem_cons_of_mem _ hother)
      have hrest := Book.total_nonneg hlater
      have hsum : total ((orderId, qty) :: queue) = qty + total queue := by simp [total]
      rw [hsum] at htotal ⊢
      rw [List.map_cons]
      rcases le_or_gt qty remaining with hused | hlast
      · -- the order is used up: it leaves the list and the index
        rw [List.map_cons, List.nodup_cons] at hnodup
        have hids : ∀ id, id ∈ queue.map Prod.fst ↔
            id ∈ ((orderId, qty) :: queue).map Prod.fst ∧ id ≠ orderId := by
          intro id
          rw [List.map_cons, List.mem_cons]
          constructor
          · exact fun hmem => ⟨.inr hmem, fun heq => hnodup.1 (heq ▸ hmem)⟩
          · rintro ⟨rfl | hmem, hne⟩
            · exact absurd rfl hne
            · exact hmem
        have hfirst : ({ s with
            fills := s.fills ++ [Fill.mk orderId takerId best qty]
            index := s.index.erase orderId } : OrderBook).Follows
              (b.refilled side (best, queue) levels [Fill.mk orderId takerId best qty]) := by
          refine ⟨?_, fun id loc hloc => ?_, by simp [Book.refilled, h.fills]⟩
          · rw [Book.table_refilled hlevels]
            exact h.index.gone htable List.mem_cons_self hids (find_erase s orderId · _)
          · rw [OrderedDict.get?_erase] at hloc
            split at hloc
            · cases hloc
            · exact h.it id loc hloc
        obtain ⟨s', hrun, hfollows, hmaps⟩ := ih hfirst (Book.levels_refilled b side _ _ _) hlater
          hnodup.2 (by omega) (show remaining - qty < 2 ^ 63 by omega)
        rw [take_cons_of_le hpos hused]
        refine ⟨s', ?_, ?_, hmaps.bids, hmaps.asks, hmaps.nextId⟩
        · rw [matchOrders_of_used hpos hused hqty.le hremaining (show qty ≤ qty + total queue by omega)
            htotal]
          simp only [encodeOrder, add_sub_cancel_left]
          exact hrun
        · rw [Book.refilled_refilled] at hfollows
          simpa [Book.fillsAt, tradesAt, Book.fillOf] using hfollows
      · -- the order keeps what the last trade leaves of it
        have hids : ((orderId, qty - remaining) :: queue).map Prod.fst =
            ((orderId, qty) :: queue).map Prod.fst := rfl
        rw [take_cons_of_lt hpos hlast]
        refine ⟨{ s with fills := s.fills ++ [Fill.mk orderId takerId best remaining] },
          ?_, ?_, rfl, rfl, rfl⟩
        · rw [matchOrders_of_kept hpos hlast (show qty ≤ qty + total queue by omega) htotal]
          have hleft : total ((orderId, qty - remaining) :: queue) =
              qty + total queue - remaining := by
            simp only [total, List.map_cons, List.sum_cons]
            omega
          simp only [encodeLevel, hleft]
          rfl
        · refine ⟨?_, h.it, ?_⟩
          · rw [Book.table_refilled hlevels]
            exact h.index.same htable hids
          · simp [Book.refilled, Book.fillsAt, tradesAt, Book.fillOf, h.fills]

/-- A level that is used up holds no order of the index. -/
theorem Follows.dropHead {best : ℤ} {levels : Levels ℤ ℤ} (h : s.Follows b)
    (hlevels : b.levels side = (best, []) :: levels)
    (hsorted : Sorted side.Better (b.levels side)) : s.Follows (b.withLevels side levels) where
  index := by
    rw [Book.table_withLevels_tail hsorted hlevels]
    exact h.index.vacant (by simp [Book.table_head hlevels]) (by simp)
  it := h.it
  fills := h.fills

theorem Follows.matchLevels (h : s.Follows b)
    (hsound : PriceTime.Sound side.Better (b.levels side))
    (hfits : ∀ level ∈ b.levels side, total level.2 < 2 ^ 63) (crossed : ℤ → Prop)
    [DecidablePred crossed] (takerId : ℤ) {wanted : ℤ} (hwanted : wanted < 2 ^ 63) :
    ∃ s', OrderBook.matchLevels takerId crossed wanted
        ((b.levels side).map (encodeLevel side)) s =
          .ok ((b.trade side crossed takerId wanted).1,
            ((b.trade side crossed takerId wanted).2.levels side).map (encodeLevel side), s') ∧
      s'.Follows (b.trade side crossed takerId wanted).2 ∧ s.SameMaps s' := by
  generalize hall : b.levels side = all at hsound hfits
  induction all generalizing s b wanted with
  | nil =>
      rw [Book.trade_of_idle (by rw [hall, sweep_nil]), hall]
      exact ⟨s, rfl, h, rfl, rfl, rfl⟩
  | cons level levels ih =>
      rw [List.map_cons, show encodeLevel side level =
        (level.1, ⟨total level.2, level.2.map (encodeOrder side level.1)⟩) from rfl,
        OrderBook.matchLevels]
      by_cases hgo : 0 < wanted ∧ crossed level.1
      · have hpositive := hsound.positive level List.mem_cons_self
        have hnodup : (level.2.map Prod.fst).Nodup :=
          (hsound.aged level List.mem_cons_self).imp ne_of_lt
        obtain ⟨s₁, hrun₁, hfollows₁, hmaps₁⟩ := h.matchOrders hall hpositive hnodup
          (hfits level List.mem_cons_self) takerId hwanted
        have hlevels₁ := b.levels_refilled side (level.1, (take wanted level.2).queue) levels
          (Book.fillsAt takerId level.1 (take wanted level.2))
        rw [if_pos hgo, hrun₁, ok_bind]
        by_cases hused : (take wanted level.2).queue = []
        · -- the level is used up, the walk goes on behind it
          rw [hused] at hfollows₁ hlevels₁
          have hsorted₁ : Sorted side.Better
              ((b.refilled side (level.1, []) levels
                (Book.fillsAt takerId level.1 (take wanted level.2))).levels side) := by
            rw [hlevels₁]
            exact List.pairwise_cons.mpr (List.pairwise_cons.mp hsound.sorted)
          have hleft : (take wanted level.2).left < 2 ^ 63 :=
            lt_of_le_of_lt (left_take_le wanted hpositive) hwanted
          obtain ⟨s₂, hrun₂, hfollows₂, hmaps₂⟩ := ih (hfollows₁.dropHead hlevels₁ hsorted₁) hleft
            (Book.levels_withLevels _ side levels) hsound.tail
            (fun other hother => hfits other (List.mem_cons_of_mem _ hother))
          rw [Book.trade_of_used hall hgo.1 hgo.2 hused]
          refine ⟨s₂, ?_, hfollows₂, hmaps₂.bids.trans hmaps₁.bids, hmaps₂.asks.trans hmaps₁.asks,
            hmaps₂.nextId.trans hmaps₁.nextId⟩
          simp only [encodeLevel, hused, List.map_nil, if_true]
          exact hrun₂
        · rw [Book.trade_of_kept hall hgo.1 hgo.2 hused, hlevels₁]
          refine ⟨s₁, ?_, hfollows₁, hmaps₁⟩
          simp only [encodeLevel, List.map_eq_nil_iff, if_neg hused]
          rfl
      · rw [if_neg hgo, Book.trade_of_idle (by rw [hall, sweep_of_not hgo]), hall]
        exact ⟨s, rfl, h, rfl, rfl, rfl⟩

theorem book_setBook (s : OrderBook) (side : Side) (book : LevelMap) :
    (s.setBook side book).book side = book := by
  cases side <;> rfl

theorem book_setBook_of_ne (s : OrderBook) {side other : Side} (h : other ≠ side)
    (book : LevelMap) : (s.setBook side book).book other = s.book other := by
  cases side <;> cases other <;> first | rfl | exact absurd rfl h

theorem nextId_setBook (s : OrderBook) (side : Side) (book : LevelMap) :
    (s.setBook side book).nextId = s.nextId := by
  cases side <;> rfl

theorem Follows.setBook (h : s.Follows b) (side : Side) (book : LevelMap) :
    (s.setBook side book).Follows b := by
  cases side <;> exact ⟨h.index, h.it, h.fills⟩

theorem SameMaps.book {s' : OrderBook} (h : s.SameMaps s') (side : Side) :
    s'.book side = s.book side := by
  cases side with
  | buy => exact h.bids
  | sell => exact h.asks

theorem Represents.matchBook (h : s.Represents b) (hsound : b.Sound) (hfits : b.Fits)
    (side : Side) (crossed : ℤ → Prop) [DecidablePred crossed] (takerId : ℤ) {wanted : ℤ}
    (hwanted : wanted < 2 ^ 63) :
    ∃ s', s.matchBook side takerId wanted crossed =
        .ok ((b.trade side crossed takerId wanted).1, s') ∧
      s'.Represents (b.trade side crossed takerId wanted).2 ∧ s'.nextId = s.nextId := by
  obtain ⟨s₁, hrun, hfollows, hmaps⟩ := h.toFollows.matchLevels (hsound.side side)
    (fun level hlevel => hfits.total_lt hsound hlevel) crossed takerId hwanted
  refine ⟨s₁.setBook side (((b.trade side crossed takerId wanted).2.levels side).map
    (encodeLevel side)), ?_, ⟨hfollows.setBook side _, fun other => ?_⟩, ?_⟩
  · rw [OrderBook.matchBook, h.book side, hrun]
    rfl
  · by_cases heq : other = side
    · subst heq
      exact book_setBook s₁ other _
    · rw [book_setBook_of_ne s₁ heq, hmaps.book, h.book, Book.levels_trade_of_ne heq]
  · rw [nextId_setBook, hmaps.nextId]

end OrderBook

end Native

end LimitBook
