import SignalFoundry.Execution.OrderBook.Sound
import SignalFoundry.Execution.OrderBook.Stores

/-!
# Matching in the Python order book

A state of `PyOrderBook` represents a book when it stores its table of levels
and holds its fills. The inner loop of `_match` walks one queue as `take` does
and the outer loop walks the side as `sweep` does; on a state that represents a
sound book no dictionary lacks a key, and the outer loop ends within the rounds
it is given.
-/

namespace LimitBook

open PriceTime Fallible

/-- The queue at a side and a price. -/
def Book.table (b : Book) (key : Side × ℤ) : Option (Queue ℤ) := (b.levels key.1).lookup key.2

namespace Book

variable {b : Book} {side : Side}

theorem table_withLevels {levels : Levels ℤ ℤ} {price : ℤ} {entry : Option (Queue ℤ)}
    (h : ∀ other, levels.lookup other =
      if other = price then entry else (b.levels side).lookup other) :
    (b.withLevels side levels).table = Function.update b.table (side, price) entry := by
  funext key
  obtain ⟨here, other⟩ := key
  unfold table
  by_cases hside : here = side
  · subst hside
    simp only [levels_withLevels]
    rw [h, Function.update_apply]
    by_cases hprice : other = price <;> simp [hprice]
  · rw [levels_withLevels_of_ne b hside, Function.update_of_ne (by simp [hside])]

theorem table_head {price : ℤ} {queue : Queue ℤ} {levels : Levels ℤ ℤ}
    (hlevels : b.levels side = (price, queue) :: levels) :
    b.table (side, price) = some queue := by
  simp [table, hlevels]

/-- The best level with another queue. -/
theorem table_withLevels_head {price : ℤ} {queue queue' : Queue ℤ} {levels : Levels ℤ ℤ}
    (hlevels : b.levels side = (price, queue) :: levels) :
    (b.withLevels side ((price, queue') :: levels)).table =
      Function.update b.table (side, price) (some queue') := by
  apply table_withLevels
  intro other
  rw [hlevels]
  by_cases heq : other = price
  · simp [heq]
  · have hfalse : (other == price) = false := by simpa using heq
    simp [List.lookup_cons, heq, hfalse]

/-- The side without its best level. -/
theorem table_withLevels_tail {price : ℤ} {queue : Queue ℤ} {levels : Levels ℤ ℤ}
    (hsorted : Sorted side.Better (b.levels side))
    (hlevels : b.levels side = (price, queue) :: levels) :
    (b.withLevels side levels).table = Function.update b.table (side, price) none := by
  apply table_withLevels
  intro other
  rw [hlevels] at hsorted ⊢
  by_cases heq : other = price
  · rw [if_pos heq, List.lookup_eq_none_iff]
    intro level hlevel
    simpa [heq] using (hsorted.ne_of_mem hlevel).symm
  · have hfalse : (other == price) = false := by simpa using heq
    simp [List.lookup_cons, heq, hfalse]

theorem table_withdraw {price : ℤ} {queue : Queue ℤ}
    (hsorted : Sorted side.Better (b.levels side)) (hqueue : b.table (side, price) = some queue)
    (id : ℤ) :
    (b.withdraw side price id).table = Function.update b.table (side, price)
      (if (queue.eraseP fun order => order.1 = id) = [] then none
        else some (queue.eraseP fun order => order.1 = id)) := by
  rw [← queueAt_of_lookup hqueue]
  exact table_withLevels (lookup_remove hsorted)

theorem table_refilled {price : ℤ} {queue : Queue ℤ} {levels : Levels ℤ ℤ}
    (hlevels : b.levels side = (price, queue) :: levels) (queue' : Queue ℤ)
    (fills : List Fill) :
    (b.refilled side (price, queue') levels fills).table =
      Function.update b.table (side, price) (some queue') :=
  table_withLevels_head hlevels

/-! ### An index of the levels -/

section Index

variable {find : ℤ → Option (Side × ℤ)} {id : ℤ}

theorem mem_ids_of_find (h : Indexes find b.table) {key : Side × ℤ} (hid : find id = some key) :
    id ∈ b.ids := by
  obtain ⟨queue, htable, hmem⟩ := (h id key).mp hid
  exact mem_ids_iff.mpr ⟨key.1, mem_ids_of_mem_queueAt (queueAt_of_lookup htable ▸ hmem)⟩

theorem find_eq_none (h : Indexes find b.table) (hbefore : b.Before id) : find id = none := by
  cases hfind : find id with
  | none => rfl
  | some key => exact absurd (hbefore id (mem_ids_of_find h hfind)) (lt_irrefl id)

theorem Sound.nodup_queue (hsound : b.Sound) {price : ℤ} {queue : Queue ℤ}
    (hqueue : b.table (side, price) = some queue) : (queue.map Prod.fst).Nodup := by
  rw [← queueAt_of_lookup hqueue]
  exact ((hsound.side side).queueAt_aged price).imp ne_of_lt

theorem find_eq_locate (h : Indexes find b.table) (hsound : b.Sound) (id : ℤ) :
    find id = b.locate id := by
  ext ⟨side, price⟩
  rw [h, locate_eq_some_iff hsound]
  rfl

theorem mem_ids_iff_find (h : Indexes find b.table) (hsound : b.Sound) :
    id ∈ b.ids ↔ ∃ key, find id = some key := by
  constructor
  · intro hmem
    obtain ⟨side, hside⟩ := mem_ids_iff.mp hmem
    obtain ⟨price, hrests⟩ := (mem_ids_levels_iff hsound).mp hside
    exact ⟨(side, price), (h id _).mpr hrests⟩
  · rintro ⟨key, hkey⟩
    exact mem_ids_of_find h hkey

/-- The index once an order has joined a level, which may be new. -/
theorem index_rest {find' : ℤ → Option (Side × ℤ)} {price left : ℤ} (h : Indexes find b.table)
    (hsorted : Sorted side.Better (b.levels side)) (hnew : find id = none)
    (hfind : ∀ other, find' other = if other = id then some (side, price) else find other) :
    Indexes find'
      (b.withLevels side (rest side.Better price (id, left) (b.levels side))).table := by
  have hopened : Indexes find
      (Function.update b.table (side, price) (some (queueAt price (b.levels side)))) := by
    cases hlookup : b.table (side, price) with
    | none => exact h.vacant (by simp [hlookup]) (by simp [queueAt_of_lookup_none hlookup])
    | some queue => rwa [queueAt_of_lookup hlookup, ← hlookup, Function.update_eq_self]
  have hjoined := hopened.joined (Function.update_self ..) hnew left hfind
  rw [Function.update_idem] at hjoined
  rwa [table_withLevels (lookup_rest hsorted)]

/-- The index once an order has left a level, which may go with it. -/
theorem index_withdraw {find' : ℤ → Option (Side × ℤ)} {price : ℤ} {queue : Queue ℤ}
    (h : Indexes find b.table) (hsound : b.Sound) (hqueue : b.table (side, price) = some queue)
    (hmem : id ∈ queue.map Prod.fst)
    (hfind : ∀ other, find' other = if other = id then none else find other) :
    Indexes find' (b.withdraw side price id).table := by
  have hgone := h.gone hqueue hmem (mem_ids_eraseP (hsound.nodup_queue hqueue) hmem) hfind
  rw [table_withdraw (hsound.side side).sorted hqueue id]
  split
  · next hused =>
      rw [hused] at hgone
      rw [← Function.update_idem]
      exact hgone.vacant (by simp) nofun
  · exact hgone

end Index

end Book

namespace PyOrderBook

/-- The prices of a side, best first. -/
def bestFirst (s : PyOrderBook) : Side → List ℤ
  | .buy => s.bidPrices.reverse
  | .sell => s.askPrices

structure Represents (s : PyOrderBook) (b : Book) : Prop where
  stores : s.Stores b.table
  fills : s.fills = b.fills

namespace Represents

variable {s : PyOrderBook} {b : Book} {side : Side}

theorem empty : ({} : PyOrderBook).Represents .empty where
  stores :=
    { book := fun side _ => by cases side <;> rfl
      total := fun _ => rfl
      sorted := fun side => by cases side <;> exact List.Pairwise.nil
      prices := fun side _ => by cases side <;> simp [prices, Book.table, Book.empty]
      index := fun id key => by simp [Book.table, Book.empty] }
  fills := rfl

theorem nextId (h : s.Represents b) (id : ℤ) :
    ({ s with nextId := id } : PyOrderBook).Represents b where
  stores := ⟨h.stores.book, h.stores.total, h.stores.sorted, h.stores.prices, h.stores.index⟩
  fills := h.fills

/-- The prices of a side, in the order of the levels. -/
theorem prices_eq (h : s.Represents b) (hsorted : Sorted side.Better (b.levels side)) :
    (b.levels side).map Prod.fst = s.bestFirst side := by
  have hbetter : ((b.levels side).map Prod.fst).Pairwise side.Better :=
    List.pairwise_map.mpr hsorted
  have hmem : ∀ price, price ∈ s.prices side ↔ price ∈ (b.levels side).map Prod.fst := by
    intro price
    rw [h.stores.prices, Option.isSome_iff_exists]
    simp [Book.table, hsorted.lookup_eq_some_iff]
  have hstrict := h.stores.sorted side
  have hnodup : ((b.levels side).map Prod.fst).Nodup := by
    refine hbetter.imp fun {price other} hlt heq => ?_
    rw [heq] at hlt
    exact irrefl_of side.Better other hlt
  have hperm : ((b.levels side).map Prod.fst).Perm (s.prices side) :=
    (List.perm_ext_iff_of_nodup hnodup (hstrict.imp fun hlt => hlt.ne)).mpr fun price =>
      (hmem price).symm
  have hasymm : ∀ price other : ℤ, side.Better price other → side.Better other price →
      price = other := fun price other hpo hop => absurd hop (asymm_of side.Better hpo)
  cases side with
  | buy =>
      exact List.Perm.eq_of_pairwise (fun price other _ _ => hasymm price other) hbetter
        (List.pairwise_reverse.mpr hstrict) (hperm.trans (List.reverse_perm _).symm)
  | sell =>
      exact List.Perm.eq_of_pairwise (fun price other _ _ => hasymm price other) hbetter hstrict
        hperm

theorem best_eq (h : s.Represents b) (hsorted : Sorted side.Better (b.levels side)) :
    s.best side = (b.levels side).head?.map Prod.fst := by
  rw [← List.head?_map, h.prices_eq hsorted]
  cases side with
  | buy => exact List.head?_reverse.symm
  | sell => rfl

theorem length_prices (h : s.Represents b) (hsorted : Sorted side.Better (b.levels side)) :
    (s.prices side).length = (b.levels side).length := by
  have hlength := congrArg List.length (h.prices_eq hsorted)
  rw [List.length_map] at hlength
  rw [hlength]
  cases side <;> simp [prices, bestFirst]

variable {best : ℤ} {queue : Queue ℤ} {levels : Levels ℤ ℤ}

/-- The best queue after a trade: the total of the level follows it. -/
theorem refill (h : s.Represents b) (hlevels : b.levels side = (best, queue) :: levels)
    {queue' : Queue ℤ} (fill : Fill) {index' : OrderedDict ℤ (Side × ℤ)} {t : ℤ}
    (hindex : Indexes index'.get? (Function.update b.table (side, best) (some queue')))
    (ht : t = total queue') :
    (({ s with
      fills := s.fills ++ [fill]
      levelTotal := s.levelTotal.set (side, best) t
      index := index' } : PyOrderBook).setBook side ((s.book side).set best queue')).Represents
        (b.refilled side (best, queue') levels [fill]) where
  stores := by
    rw [Book.table_refilled hlevels]
    refine h.stores.putQueue (Book.table_head hlevels) ?_ ?_ ?_ ?_
    · cases side <;> rfl
    · rw [prices_setBook]
      rfl
    · rw [levelTotal_setBook, ht]
    · rw [index_setBook]
      exact hindex
  fills := by
    rw [fills_setBook]
    simp [Book.refilled, h.fills]

/-- The inner loop is a walk through the queue. -/
theorem matchLevel (h : s.Represents b) (hlevels : b.levels side = (best, queue) :: levels)
    (hnodup : (queue.map Prod.fst).Nodup) (takerId remaining : ℤ) :
    ∃ s', PyOrderBook.matchLevel side takerId best queue remaining s =
        .ok ((take remaining queue).left, s') ∧
      s'.Represents (b.refilled side (best, (take remaining queue).queue) levels
        (Book.fillsAt takerId best (take remaining queue))) ∧ s'.nextId = s.nextId := by
  induction queue generalizing remaining s b with
  | nil => exact ⟨s, rfl, by simpa [Book.fillsAt, tradesAt, Book.refilled_self hlevels] using h, rfl⟩
  | cons order queue ih =>
      obtain ⟨orderId, qty⟩ := order
      rcases le_or_gt remaining 0 with hstop | hpos
      · refine ⟨s, ?_, ?_, rfl⟩
        · simp [PyOrderBook.matchLevel, hstop.not_gt, take_of_nonpos hstop]
        · simpa [take_of_nonpos hstop, Book.fillsAt, tradesAt, Book.refilled_self hlevels] using h
      have htable := Book.table_head hlevels
      have htotal : subscript s.levelTotal (side, best) =
          .ok (total ((orderId, qty) :: queue)) := by
        rw [subscript_eq_ok_iff, h.stores.total, htable]
        rfl
      rw [PyOrderBook.matchLevel, if_pos hpos, htotal]
      rcases le_or_gt qty remaining with hused | hlast
      · -- the entry is used up: it leaves the queue and the index
        rw [List.map_cons, List.nodup_cons] at hnodup
        have hids : ∀ id, id ∈ queue.map Prod.fst ↔
            id ∈ ((orderId, qty) :: queue).map Prod.fst ∧ id ≠ orderId := by
          intro id
          rw [List.map_cons, List.mem_cons]
          constructor
          · exact fun hmem => ⟨.inr hmem, fun heq => hnodup.1 (heq ▸ hmem)⟩
          · rintro ⟨rfl | hmem, hne⟩
            · exact absurd rfl hne
            · exact hmem
        have hleft : total ((orderId, qty) :: queue) - qty = total queue := by simp [total]
        have hfirst := h.refill hlevels ⟨orderId, takerId, best, qty⟩
          (h.stores.index.gone htable List.mem_cons_self hids (OrderedDict.get?_erase _ · _)) hleft
        obtain ⟨s', hrun, hrep, hid⟩ :=
          ih hfirst (Book.levels_refilled b side _ _ _) hnodup.2 (remaining - qty)
        rw [take_cons_of_le hpos hused]
        refine ⟨s', ?_, ?_, ?_⟩
        · simp only [ok_bind, min_eq_left hused, sub_self, if_true]
          exact hrun
        · rw [Book.refilled_refilled] at hrep
          simpa [Book.fillsAt, tradesAt, Book.fillOf] using hrep
        · rw [hid, nextId_setBook]
      · -- the entry keeps what the last trade leaves of it
        have hkept : qty - remaining ≠ 0 := by omega
        have hleft : total ((orderId, qty) :: queue) - remaining =
            total ((orderId, qty - remaining) :: queue) := by
          simp only [total, List.map_cons, List.sum_cons]
          omega
        have hids : ((orderId, qty - remaining) :: queue).map Prod.fst =
            ((orderId, qty) :: queue).map Prod.fst := rfl
        have hfirst := h.refill hlevels ⟨orderId, takerId, best, remaining⟩
          (h.stores.index.same htable hids) hleft
        rw [take_cons_of_lt hpos hlast]
        refine ⟨_, ?_, hfirst, ?_⟩
        · simp only [ok_bind, min_eq_right hlast.le, hkept, if_false, sub_self]
          rfl
        · rw [nextId_setBook]

/-- A level that is used up goes. -/
theorem dropLevel (h : s.Represents b) (hlevels : b.levels side = (best, []) :: levels)
    (hsorted : Sorted side.Better (b.levels side)) :
    (s.dropLevel side best).Represents (b.withLevels side levels) where
  stores := by
    rw [Book.table_withLevels_tail hsorted hlevels]
    exact h.stores.dropLevel (Book.table_head hlevels)
  fills := by
    rw [fills_dropLevel (h.stores.sorted side), h.fills]
    rfl

theorem subscript_book (h : s.Represents b)
    (hlevels : b.levels side = (best, queue) :: levels) :
    subscript (s.book side) best = .ok queue := by
  rw [subscript_eq_ok_iff, h.stores.book]
  exact Book.table_head hlevels

variable (crossed : ℤ → Prop) [DecidablePred crossed]

/-- The outer loop is a walk through the side; each round but the last uses up a level. -/
theorem matchLoop {rounds : ℕ} (h : s.Represents b)
    (hsound : PriceTime.Sound side.Better (b.levels side)) (takerId wanted : ℤ)
    (hrounds : (b.levels side).length < rounds) :
    ∃ s', PyOrderBook.matchLoop side takerId crossed rounds wanted s =
        .ok ((b.trade side crossed takerId wanted).1, s') ∧
      s'.Represents (b.trade side crossed takerId wanted).2 ∧ s'.nextId = s.nextId := by
  generalize hall : b.levels side = all at hsound hrounds
  induction all generalizing s b wanted rounds with
  | nil =>
      obtain ⟨rounds, rfl⟩ := Nat.exists_eq_succ_of_ne_zero (Nat.ne_of_gt hrounds)
      have hbest : s.best side = none := by
        rw [h.best_eq (by rw [hall]; exact hsound.sorted), hall]
        rfl
      rw [Book.trade_of_idle (by rw [hall, sweep_nil])]
      refine ⟨s, ?_, h, rfl⟩
      rw [PyOrderBook.matchLoop, hbest]
      exact ite_self _
  | cons level levels ih =>
      obtain ⟨rounds, rfl⟩ :=
        Nat.exists_eq_succ_of_ne_zero (Nat.ne_of_gt (Nat.zero_lt_of_lt hrounds))
      have hbest : s.best side = some level.1 := by
        rw [h.best_eq (by rw [hall]; exact hsound.sorted), hall]
        rfl
      rw [PyOrderBook.matchLoop, hbest]
      by_cases hgo : 0 < wanted ∧ crossed level.1
      · obtain ⟨hpos, hcrossed⟩ := hgo
        have hnodup : (level.2.map Prod.fst).Nodup :=
          (hsound.aged level List.mem_cons_self).imp ne_of_lt
        obtain ⟨s₁, hrun₁, hrep₁, hid₁⟩ := h.matchLevel hall hnodup takerId wanted
        have hlevels₁ := b.levels_refilled side (level.1, (take wanted level.2).queue) levels
          (Book.fillsAt takerId level.1 (take wanted level.2))
        rw [if_pos hpos]
        simp only [if_pos hcrossed, h.subscript_book hall, ok_bind, hrun₁,
          hrep₁.subscript_book hlevels₁]
        by_cases hused : (take wanted level.2).queue = []
        · -- the level is used up, the walk goes on behind it
          rw [if_pos hused]
          rw [hused] at hrep₁ hlevels₁
          have hsorted₁ : Sorted side.Better
              ((b.refilled side (level.1, []) levels
                (Book.fillsAt takerId level.1 (take wanted level.2))).levels side) := by
            rw [hlevels₁]
            exact List.pairwise_cons.mpr (List.pairwise_cons.mp hsound.sorted)
          obtain ⟨s₂, hrun₂, hrep₂, hid₂⟩ := ih
            (hrep₁.dropLevel hlevels₁ hsorted₁) (take wanted level.2).left
            (Book.levels_withLevels _ side levels) hsound.tail
            (Nat.succ_lt_succ_iff.mp hrounds)
          rw [Book.trade_of_used hall hpos hcrossed hused]
          exact ⟨s₂, hrun₂, hrep₂, by rw [hid₂, nextId_dropLevel (hrep₁.stores.sorted side), hid₁]⟩
        · -- the queue outlasts what is wanted, which ends the loop
          have hleft : ¬ 0 < (take wanted level.2).left := fun hleft =>
            hused (take_queue_of_left hleft)
          obtain ⟨rounds, rfl⟩ :=
            Nat.exists_eq_succ_of_ne_zero (Nat.ne_of_gt (Nat.zero_lt_of_lt
              (Nat.succ_lt_succ_iff.mp hrounds)))
          rw [if_neg hused, PyOrderBook.matchLoop, if_neg hleft,
            Book.trade_of_kept hall hpos hcrossed hused]
          exact ⟨s₁, rfl, hrep₁, hid₁⟩
      · rw [Book.trade_of_idle (by rw [hall, sweep_of_not hgo])]
        refine ⟨s, ?_, h, rfl⟩
        by_cases hpos : 0 < wanted
        · have hnot : ¬ crossed level.1 := fun hcrossed => hgo ⟨hpos, hcrossed⟩
          simp only [if_pos hpos, if_neg hnot]
        · rw [if_neg hpos]

end Represents

end PyOrderBook

end LimitBook
