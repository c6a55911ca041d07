import SignalFoundry.Execution.OrderBook.Balance
import SignalFoundry.Execution.OrderBook.PythonCalls

/-!
# Runs of the Python order book

A session is a book with the activity since its last clear. In every session
that calls can reach, the five structures of the book agree, the book is not
crossed, and each limit order is accounted for: a quantity that is not positive
neither trades nor rests, so the order accounts for the positive part of its
quantity. No call of a reachable session fails.
-/

namespace LimitBook

open PriceTime Fallible

namespace PyOrderBook

/-- All entries of the two dictionaries of queues. -/
def entries (s : PyOrderBook) : List (ℤ × ℤ) := (s.bids.values ++ s.asks.values).flatten

/-- The representation invariant, in the terms of the fields. -/
structure Invariant (s : PyOrderBook) : Prop where
  sorted : ∀ side, (s.prices side).Pairwise (· < ·)
  keys : ∀ side price, price ∈ s.prices side ↔ price ∈ (s.book side).keys
  live : ∀ side price level, (s.book side).get? price = some level → level ≠ []
  positive : ∀ entry ∈ s.entries, 0 < entry.2
  totals : ∀ side price total, s.levelTotal.get? (side, price) = some total ↔
    ∃ level, (s.book side).get? price = some level ∧ total = (level.map Prod.snd).sum
  index : ∀ id side price, s.index.get? id = some (side, price) ↔
    ∃ level, (s.book side).get? price = some level ∧ id ∈ level.map Prod.fst
  once : (s.entries.map Prod.fst).Nodup
  aged : ∀ side price level, (s.book side).get? price = some level →
    (level.map Prod.fst).Pairwise (· < ·)
  uncrossed : ∀ bid ask, s.bestBid = some bid → s.bestAsk = some ask → bid < ask

namespace Represents

variable {s : PyOrderBook} {b : Book}

/-- The dictionary of a side holds the levels of the side. -/
theorem items_perm (h : s.Represents b) (hsound : b.Sound) (side : Side) :
    (s.book side).items.Perm (b.levels side) := by
  have hsorted := (hsound.side side).sorted
  have hnodup : (b.levels side).Nodup := by
    refine List.Pairwise.imp (fun {level other} hbetter heq => ?_) hsorted
    rw [heq] at hbetter
    exact irrefl_of side.Better _ hbetter
  refine (List.perm_ext_iff_of_nodup (List.Nodup.of_map _ (s.book side).nodup_keys) hnodup).mpr ?_
  rintro ⟨price, queue⟩
  rw [← OrderedDict.get?_eq_some_iff, h.stores.book, Book.table, hsorted.lookup_eq_some_iff]

theorem entries_perm (h : s.Represents b) (hsound : b.Sound) :
    s.entries.Perm (((b.levels .buy ++ b.levels .sell).map Prod.snd).flatten) := by
  have hbids := (h.items_perm hsound .buy).map Prod.snd
  have hasks := (h.items_perm hsound .sell).map Prod.snd
  rw [List.map_append]
  exact (hbids.append hasks).flatten

theorem restingQty (h : s.Represents b) (hsound : b.Sound) (id : ℤ) :
    amount id s.entries = b.resting id := by
  have hperm := (h.entries_perm hsound).map fun order => if order.1 = id then order.2 else 0
  rw [amount, hperm.sum_eq, List.map_flatten, List.sum_flatten, List.map_map, List.map_map,
    List.map_append, List.sum_append]
  rfl

theorem ids_entries (h : s.Represents b) (hsound : b.Sound) :
    (s.entries.map Prod.fst).Perm b.ids := by
  refine ((h.entries_perm hsound).map Prod.fst).trans (List.Perm.of_eq ?_)
  simp [Book.ids, PriceTime.ids, List.flatMap, List.map_flatten, Function.comp_def]

theorem invariant (h : s.Represents b) (hsound : b.Sound) : s.Invariant := by
  have hside : ∀ {side price level}, (s.book side).get? price = some level →
      (price, level) ∈ b.levels side := by
    intro side price level hlevel
    rw [h.stores.book] at hlevel
    exact (hsound.side side).sorted.lookup_eq_some_iff.mp hlevel
  refine ⟨h.stores.sorted, fun side price => ?_, fun side price level hlevel => ?_, ?_,
    fun side price total => ?_, fun id side price => ?_, ?_, fun side price level hlevel => ?_, ?_⟩
  · rw [h.stores.prices, OrderedDict.mem_keys_iff, Option.isSome_iff_exists]
    simp only [h.stores.book]
  · exact (hsound.side side).live _ (hside hlevel)
  · intro entry hentry
    obtain ⟨queue, hqueue, hmem⟩ := List.mem_flatten.mp ((h.entries_perm hsound).mem_iff.mp hentry)
    obtain ⟨level, hlevel, rfl⟩ := List.mem_map.mp hqueue
    rcases List.mem_append.mp hlevel with hbid | hask
    · exact (hsound.side .buy).positive level hbid entry hmem
    · exact (hsound.side .sell).positive level hask entry hmem
  · rw [h.stores.total, ← h.stores.book]
    simp [PriceTime.total, eq_comm]
  · rw [h.stores.index]
    simp only [h.stores.book]
  · exact (h.ids_entries hsound).nodup_iff.mpr hsound.nodup
  · exact (hsound.side side).aged _ (hside hlevel)
  · intro bid ask hbid hask
    have hbest := (h.best_eq (hsound.side .buy).sorted).symm.trans hbid
    have hbest' := (h.best_eq (hsound.side .sell).sorted).symm.trans hask
    obtain ⟨level, hlevel, rfl⟩ := Option.map_eq_some_iff.mp hbest
    obtain ⟨other, hother, rfl⟩ := Option.map_eq_some_iff.mp hbest'
    exact not_le.mp (hsound.uncrossed .buy level (List.mem_of_mem_head? hlevel) other
      (List.mem_of_mem_head? hother))

end Represents

/-! ## Sessions -/

/-- A book and what happened to it since it was last cleared. -/
structure Session where
  book : PyOrderBook := {}
  activity : Activity := {}

/-- The quantity of an order that rests. -/
def restingQty (s : PyOrderBook) (orderId : ℤ) : ℤ := amount orderId s.entries

namespace Session

def step (session : Session) (call : Call) : Except Fault Session := do
  let (answer, book) ← session.book.step call
  let rested :=
    match call with
    | .cancel orderId => session.book.restingQty orderId
    | _ => 0
  .ok ⟨book, session.activity.record rested call answer⟩

/-- The sessions that calls can reach. -/
inductive Reachable : Session → Prop
  | start : Reachable {}
  | step {session session' : Session} (call : Call) (before : Reachable session)
      (returned : session.step call = .ok session') : Reachable session'

/-- Each limit order that was submitted is filled, rests or was cancelled. -/
def Accounted (session : Session) : Prop :=
  ∀ order ∈ session.activity.submitted, max order.2 0 =
    filledQty order.1 (session.activity.taken ++ session.book.fills) +
      session.book.restingQty order.1 + amount order.1 session.activity.cancelled

/-- The session keeps a sound book that accounts for its activity. -/
structure Kept (session : Session) (b : Book) : Prop where
  represents : session.book.Represents b
  sound : b.Sound
  before : b.Before session.book.nextId
  balanced : session.activity.Balanced b session.book.nextId

variable {session session' : Session} {b : Book}

theorem Kept.start : ({} : Session).Kept .empty where
  represents := .empty
  sound := Book.sound_empty
  before := Book.before_empty _
  balanced := .empty _

theorem Kept.step (h : session.Kept b) (call : Call) :
    ∃ session', session.step call = .ok session' ∧
      session'.Kept (b.next session.book.nextId call) := by
  obtain ⟨answer, book, hrun, hrep, hid, hanswer⟩ :=
    h.represents.step h.sound h.before call
  have hsound := h.sound.next h.before call
  have hbefore := Represents.before_nextIdAfter h.before call
  rw [← hid] at hbefore
  refine ⟨_, by simp only [Session.step, hrun, ok_bind]; rfl, hrep, hsound, hbefore, ?_⟩
  simp only [hid]
  cases call with
  | addLimit side price qty =>
      rw [hanswer trivial]
      exact h.balanced.addLimit h.before side price qty
  | addMarket side qty =>
      rw [hanswer trivial]
      exact h.balanced.addMarket h.before side qty
  | cancel orderId =>
      have hrested : session.book.restingQty orderId = b.resting orderId :=
        h.represents.restingQty h.sound orderId
      rw [hanswer trivial, show Represents.nextIdAfter session.book.nextId (.cancel orderId) =
        session.book.nextId from rfl]
      simp only [hrested]
      cases hplace : b.locate orderId with
      | none =>
          simpa [Represents.answer, Book.answer, Book.next, Book.cancel, hplace,
            Activity.record] using h.balanced
      | some place =>
          have hsome : (b.locate orderId).isSome := by rw [hplace]; rfl
          have hcancelled := h.balanced.cancel h.sound h.before hsome
          simpa only [Represents.answer, Book.answer, Book.next, hsome, Activity.record]
            using hcancelled
  | takeFills =>
      rw [hanswer trivial]
      exact h.balanced.takeFills
  | clear => exact .empty _
  | bestBid => exact h.balanced
  | bestAsk => exact h.balanced
  | bidDepth levels => exact h.balanced
  | askDepth levels => exact h.balanced
  | bidVolume => exact h.balanced
  | askVolume => exact h.balanced
  | openOrders => exact h.balanced

theorem Reachable.kept (h : Reachable session) : ∃ b, session.Kept b := by
  induction h with
  | start => exact ⟨_, .start⟩
  | step call before returned ih =>
      obtain ⟨b, hkept⟩ := ih
      obtain ⟨session', hrun, hnext⟩ := hkept.step call
      rw [returned, Except.ok.injEq] at hrun
      exact ⟨_, hrun ▸ hnext⟩

/-- No call of a reachable session meets a missing key or an endless loop. -/
theorem Reachable.returns (h : Reachable session) (call : Call) :
    ∃ session', session.step call = .ok session' := by
  obtain ⟨b, hkept⟩ := h.kept
  obtain ⟨session', hrun, -⟩ := hkept.step call
  exact ⟨session', hrun⟩

theorem Kept.accounted (h : session.Kept b) : session.Accounted := by
  intro order horder
  have hbalance := h.balanced.balance order horder
  rwa [← h.represents.fills, ← h.represents.restingQty h.sound] at hbalance

/-- The order book keeps its representation invariant and accounts for every
limit order, whatever calls were made. -/
theorem Reachable.bookInvariant (h : Reachable session) :
    session.book.Invariant ∧ session.Accounted ∧
      ∀ call, ∃ session', session.step call = .ok session' := by
  obtain ⟨b, hkept⟩ := h.kept
  exact ⟨hkept.represents.invariant hkept.sound, hkept.accounted, h.returns⟩

theorem bookInvariant_buy_sell_cancel : ∃ session : Session,
    session.activity.submitted = [(1, 10), (2, 4)] ∧ session.activity.cancelled = [(1, 6)] ∧
      session.book.Invariant ∧ session.Accounted ∧
        ∀ call, ∃ session', session.step call = .ok session' := by
  have hbuy := Reachable.step (.addLimit .buy 100 10) .start rfl
  have hsell := Reachable.step (.addLimit .sell 100 4) hbuy rfl
  have hcancel := Reachable.step (.cancel 1) hsell rfl
  exact ⟨_, rfl, rfl, Reachable.bookInvariant hcancel⟩

/-- A limit order of a negative quantity is submitted and comes to nothing. -/
theorem negative_limit_not_accounted : ∃ session : Session, session.Reachable ∧
    ((1, -5) : ℤ × ℤ) ∈ session.activity.submitted ∧
      filledQty 1 (session.activity.taken ++ session.book.fills) +
        session.book.restingQty 1 + amount 1 session.activity.cancelled ≠ -5 :=
  ⟨_, .step (.addLimit .buy 100 (-5)) .start rfl, List.mem_cons_self, by decide⟩

end Session

end PyOrderBook

end LimitBook
