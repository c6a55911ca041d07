import SignalFoundry.Execution.OrderBook.Invariant
import SignalFoundry.Library.PriceTime.Priority

/-!
# Price-time priority of the Python order book

Against which orders an incoming order may trade is a question about the whole
opposite side: all orders that its limit reaches, sorted by price and then by
id. The two loops of `_match` fill a prefix of that list, cut where the quantity
of the order is used up.
-/

namespace LimitBook

open PriceTime Fallible

namespace Side

/-- The limit of an order reaches a resting price. A market order has no limit. -/
def Reaches (side : Side) : Option ℤ → ℤ → Prop
  | some price, best => side.Crosses price best
  | none, _ => True

instance (side : Side) (limit : Option ℤ) : DecidablePred (side.Reaches limit) :=
  match limit with
  | some price => fun best => inferInstanceAs (Decidable (side.Crosses price best))
  | none => fun _ => inferInstanceAs (Decidable True)

theorem Reaches.of_better {side : Side} {limit : Option ℤ} {best best' : ℤ}
    (hbetter : side.opposite.Better best best') (h : side.Reaches limit best') :
    side.Reaches limit best := by
  cases limit with
  | none => trivial
  | some price => exact Crosses.of_better hbetter h

/-- The resting order of the better price, or the older one of one price, is first. -/
def Precedes (side : Side) (order other : ℤ × ℤ × ℤ) : Prop :=
  side.Better order.2.1 other.2.1 ∨ order.2.1 = other.2.1 ∧ order.1 ≤ other.1

instance (side : Side) : DecidableRel side.Precedes :=
  fun _ _ => inferInstanceAs (Decidable (_ ∨ _))

instance (side : Side) : Std.Total side.Precedes where
  total order other := by
    rcases trichotomous_of side.Better order.2.1 other.2.1 with hbetter | hsame | hworse
    · exact .inl (.inl hbetter)
    · rcases le_total order.1 other.1 with hage | hage
      · exact .inl (.inr ⟨hsame, hage⟩)
      · exact .inr (.inr ⟨hsame.symm, hage⟩)
    · exact .inr (.inl hworse)

instance (side : Side) : IsTrans (ℤ × ℤ × ℤ) side.Precedes where
  trans order other third := by
    rintro (hbetter | ⟨hsame, hage⟩) (hbetter' | ⟨hsame', hage'⟩)
    · exact .inl (trans_of side.Better hbetter hbetter')
    · exact .inl (hsame' ▸ hbetter)
    · exact .inl (hsame ▸ hbetter')
    · exact .inr ⟨hsame.trans hsame', hage.trans hage'⟩

theorem Precedes.antisymm {side : Side} {order other : ℤ × ℤ × ℤ}
    (h : side.Precedes order other) (h' : side.Precedes other order) : order.1 = other.1 := by
  rcases h with hbetter | ⟨hsame, hage⟩ <;> rcases h' with hworse | ⟨hsame', hage'⟩
  · exact absurd hworse (asymm_of side.Better hbetter)
  · exact absurd (hsame' ▸ hbetter) (irrefl_of side.Better _)
  · exact absurd (hsame ▸ hworse) (irrefl_of side.Better _)
  · exact le_antisymm hage hage'

end Side

namespace PyOrderBook

/-- The orders that an order of this side and limit may trade with, in the order
in which they are to be filled. -/
def eligible (s : PyOrderBook) (side : Side) (limit : Option ℤ) : List (ℤ × ℤ × ℤ) :=
  ((PriceTime.orders (s.book side.opposite).items).filter fun order =>
    side.Reaches limit order.2.1).insertionSort side.opposite.Precedes

variable {s : PyOrderBook} {b : Book} {side : Side} {limit : Option ℤ}

/-- The sorted orders of a side are its levels, one after the other. -/
theorem Represents.eligible_eq (h : s.Represents b) (hsound : b.Sound) :
    s.eligible side limit =
      (PriceTime.orders (b.levels side.opposite)).filter fun order => side.Reaches limit order.2.1 := by
  have hperm : (s.eligible side limit).Perm
      ((PriceTime.orders (b.levels side.opposite)).filter fun order => side.Reaches limit order.2.1) :=
    (List.perm_insertionSort _ _).trans
      (((h.items_perm hsound side.opposite).flatMap_right _).filter _)
  have hsorted : ((PriceTime.orders (b.levels side.opposite)).filter fun order =>
      side.Reaches limit order.2.1).Pairwise side.opposite.Precedes := by
    refine ((hsound.side side.opposite).pairwise_orders.imp fun {order other} hfirst => ?_).filter _
    exact hfirst.imp_right fun hage => ⟨hage.1, hage.2.le⟩
  have hnodup : ((PriceTime.orders (b.levels side.opposite)).map Prod.fst).Nodup := by
    have hids : (PriceTime.orders (b.levels side.opposite)).map Prod.fst =
        PriceTime.ids (b.levels side.opposite) := by
      simp [PriceTime.orders, PriceTime.ids, List.map_flatMap, Function.comp_def]
    obtain ⟨hbuy, hsell, -⟩ := List.nodup_append.mp hsound.nodup
    rw [hids]
    cases side
    · exact hsell
    · exact hbuy
  refine hperm.eq_of_pairwise (fun order other horder hother hfirst hlast => ?_)
    (List.pairwise_insertionSort _ _) hsorted
  exact List.inj_on_of_nodup_map hnodup (List.mem_of_mem_filter (hperm.mem_iff.mp horder))
    (List.mem_of_mem_filter hother) (hfirst.antisymm hlast)

/-- An incoming order that trades so: it fills the orders it may trade with as far
as its quantity goes, and each of them loses what it is filled for. -/
structure Fills (s s' : PyOrderBook) (side : Side) (limit : Option ℤ) (qty : ℤ)
    (trades : List (ℤ × ℤ × ℤ)) : Prop where
  cut : Cut qty (s.eligible side limit) trades
  fills : s'.fills = s.fills ++ trades.map (Book.fillOf s.nextId)
  lost : ∀ id, id ≠ s.nextId → s'.restingQty id + filled id trades = s.restingQty id
  remains : ∃ matched,
    ({ s with nextId := s.nextId + 1 } : PyOrderBook).matchOrders side.opposite s.nextId qty
      (side.Reaches limit) = .ok (qty - volume trades, matched)

namespace Represents

/-- The trades of an incoming order. -/
abbrev tradesOf (b : Book) (side : Side) (limit : Option ℤ) (qty : ℤ) : List (ℤ × ℤ × ℤ) :=
  (sweep (side.Reaches limit) qty (b.levels side.opposite)).trades

/-- What is left of an incoming order after its trades. -/
theorem left_trade (b : Book) (side : Side) (limit : Option ℤ) (takerId qty : ℤ) :
    (b.trade side.opposite (side.Reaches limit) takerId qty).1 =
      qty - volume (tradesOf b side limit qty) := by
  have hvolume : volume (tradesOf b side limit qty) +
      (sweep (side.Reaches limit) qty (b.levels side.opposite)).left = qty :=
    volume_sweep qty (b.levels side.opposite)
  exact (sub_eq_of_eq_add' hvolume.symm).symm

/-- A book that trades with the orders that its state trades with has filled them
by price and time. -/
theorem fills_of_trade {s' : PyOrderBook} {b' : Book} {qty : ℤ} (h : s.Represents b)
    (hsound : b.Sound) (h' : s'.Represents b') (hsound' : b'.Sound) (hqty : 0 < qty)
    (hfills : b'.fills = b.fills ++ (tradesOf b side limit qty).map (Book.fillOf s.nextId))
    (hlost : ∀ id, id ≠ s.nextId →
      b'.resting id + filled id (tradesOf b side limit qty) = b.resting id) :
    s.Fills s' side limit qty (tradesOf b side limit qty) where
  cut := by
    rw [h.eligible_eq hsound]
    exact cut_sweep (hsound.side side.opposite).sorted
      (fun _ _ hbetter hreaches => hreaches.of_better hbetter) hqty.le
  fills := by rw [h'.fills, hfills, h.fills]
  lost id hid := by
    have hbefore : s.restingQty id = b.resting id := h.restingQty hsound id
    have hafter : s'.restingQty id = b'.resting id := h'.restingQty hsound' id
    rw [hbefore, hafter, hlost id hid]
  remains := by
    obtain ⟨matched, hrun, -, -⟩ := (h.nextId (s.nextId + 1)).matchOrders
      (hsound.side side.opposite) (side.Reaches limit) s.nextId qty
    exact ⟨matched, by rw [hrun, left_trade]⟩

theorem fills_addLimit {qty : ℤ} (h : s.Represents b) (hsound : b.Sound)
    (hbefore : b.Before s.nextId) (hqty : 0 < qty) (side : Side) (price : ℤ) :
    ∃ trades s', s.addLimit side price qty = .ok (s.nextId, s') ∧
      s.Fills s' side (some price) qty trades ∧
        s'.restingQty s.nextId = qty - volume trades := by
  obtain ⟨s', hrun, hrep, -⟩ := h.addLimit hsound hbefore side price qty
  have hsound' := hsound.addLimit hbefore side price qty
  have hleft : 0 ≤ (b.trade side.opposite (side.Reaches (some price)) s.nextId qty).1 :=
    Book.left_trade_nonneg hqty.le
  have hb' : b.addLimit s.nextId side price qty =
      (b.trade side.opposite (side.Reaches (some price)) s.nextId qty).2.restOrder side price
        s.nextId (b.trade side.opposite (side.Reaches (some price)) s.nextId qty).1 := by
    rw [Book.addLimit, if_pos hqty]
    rfl
  refine ⟨tradesOf b side (some price) qty, s', hrun,
    h.fills_of_trade hsound hrep hsound' hqty ?_ fun id hid => ?_, ?_⟩
  · rw [hb', Book.fills_restOrder]
    rfl
  · rw [hb', Book.resting_restOrder hleft, if_neg hid.symm, add_zero]
    exact Book.resting_trade
  · have hnone : (b.trade side.opposite (side.Reaches (some price)) s.nextId qty).2.resting
        s.nextId = 0 := Book.resting_eq_zero (hbefore.trade.not_mem le_rfl)
    have hresting : s'.restingQty s.nextId = (b.addLimit s.nextId side price qty).resting s.nextId :=
      hrep.restingQty hsound' s.nextId
    rw [hresting, hb', Book.resting_restOrder hleft, hnone, if_pos rfl, zero_add, left_trade]

theorem fills_addMarket {qty : ℤ} (h : s.Represents b) (hsound : b.Sound)
    (hbefore : b.Before s.nextId) (hqty : 0 < qty) (side : Side) :
    ∃ trades s', s.addMarket side qty = .ok (volume trades, s') ∧
      s.Fills s' side none qty trades ∧ s'.restingQty s.nextId = 0 := by
  obtain ⟨s', hrun, hrep, -⟩ := h.addMarket hsound side qty
  have hsound' := hsound.addMarket s.nextId side qty
  have hb' : b.addMarket s.nextId side qty =
      (qty - (b.trade side.opposite (side.Reaches none) s.nextId qty).1,
        (b.trade side.opposite (side.Reaches none) s.nextId qty).2) := by
    rw [Book.addMarket, if_pos hqty]
    rfl
  rw [hb'] at hrun hrep hsound'
  refine ⟨tradesOf b side none qty, s', ?_,
    h.fills_of_trade hsound hrep hsound' hqty rfl fun id _ => Book.resting_trade, ?_⟩
  · rw [hrun, left_trade, sub_sub_cancel]
  · have hresting : s'.restingQty s.nextId =
        (b.trade side.opposite (side.Reaches none) s.nextId qty).2.resting s.nextId :=
      hrep.restingQty hsound' s.nextId
    rw [hresting]
    exact Book.resting_eq_zero (hbefore.trade.not_mem le_rfl)

end Represents

namespace Session

variable {session : Session}

/-- An incoming order is filled by price and time: what it trades with is a prefix of
the sorted orders that it reaches, whose last order alone may be filled in part. -/
theorem Reachable.priceTimePriority (h : session.Reachable) (side : Side) {qty : ℤ}
    (hqty : 0 < qty) :
    (∀ price, ∃ trades s',
      session.book.addLimit side price qty = .ok (session.book.nextId, s') ∧
        session.book.Fills s' side (some price) qty trades ∧
          s'.restingQty session.book.nextId = qty - volume trades) ∧
      ∃ trades s', session.book.addMarket side qty = .ok (volume trades, s') ∧
        session.book.Fills s' side none qty trades ∧
          s'.restingQty session.book.nextId = 0 := by
  obtain ⟨b, hkept⟩ := h.kept
  exact ⟨fun price =>
      hkept.represents.fills_addLimit hkept.sound hkept.before hqty side price,
    hkept.represents.fills_addMarket hkept.sound hkept.before hqty side⟩

/-- A buy order meets the cheaper of two sell orders first, though it is younger. -/
theorem priceTimePriority_two_sells : ∃ session : Session,
    session.book.eligible .buy (some 101) = [(2, 100, 4), (1, 101, 3)] ∧
      (∀ price, ∃ trades s',
        session.book.addLimit .buy price 5 = .ok (session.book.nextId, s') ∧
          session.book.Fills s' .buy (some price) 5 trades ∧
            s'.restingQty session.book.nextId = 5 - volume trades) ∧
        ∃ trades s', session.book.addMarket .buy 5 = .ok (volume trades, s') ∧
          session.book.Fills s' .buy none 5 trades ∧
            s'.restingQty session.book.nextId = 0 := by
  have hsell := Reachable.step (.addLimit .sell 101 3) .start rfl
  have hcheaper := Reachable.step (.addLimit .sell 100 4) hsell rfl
  exact ⟨_, by decide, Reachable.priceTimePriority hcheaper .buy (by decide)⟩

end Session

end PyOrderBook

end LimitBook
