import Mathlib.Data.List.Induction
import Mathlib.Data.List.Infix
import SignalFoundry.Execution.OrderBook.NativeCalls

/-!
# The two order books give the same answers

Both books are refinements of one, so they answer alike as long as they number
their orders alike (`SameNumber`). `PyOrderBook.clear` starts the numbers again
and `OrderBook::clear` does not, hence an order after a clear that followed other
orders is numbered differently. Apart from the numbers, only a depth of zero bids
and a depth that a vector cannot hold are answered differently.
-/

namespace LimitBook

open PriceTime Fallible

/-- The answers to a sequence of calls, and the state after it. -/
def answersFrom {S : Type} (step : S → Call → Except Fault (Answer × S)) (s : S) :
    List Call → Except Fault (List Answer × S)
  | [] => .ok ([], s)
  | call :: calls => do
      let (answer, s) ← step s call
      let (answers, s) ← answersFrom step s calls
      .ok (answer :: answers, s)

theorem answersFrom_snoc {S : Type} {step : S → Call → Except Fault (Answer × S)} {s s' : S}
    {calls : List Call} {answers : List Answer}
    (h : answersFrom step s calls = .ok (answers, s')) {call : Call} {answer : Answer} {last : S}
    (hstep : step s' call = .ok (answer, last)) :
    answersFrom step s (calls ++ [call]) = .ok (answers ++ [answer], last) := by
  induction calls generalizing s answers with
  | nil =>
      cases h
      rw [List.nil_append, answersFrom, hstep]
      rfl
  | cons first calls ih =>
      simp only [answersFrom, bind_eq_ok_iff, Prod.exists, Except.ok.injEq, Prod.mk.injEq] at h
      obtain ⟨answer₁, s₁, hfirst, answers₁, s₂, hrest, rfl, rfl⟩ := h
      rw [List.cons_append, answersFrom, hfirst]
      simp only [ok_bind, ih hrest, List.cons_append]

/-- A Python book after a sequence of calls, with its answers to them. -/
def PyOrderBook.after (calls : List Call) : Except Fault (List Answer × PyOrderBook) :=
  answersFrom PyOrderBook.step {} calls

/-- A C++ book after a sequence of calls, with its answers to them. -/
def Native.OrderBook.after (maxSize : ℕ) (calls : List Call) :
    Except Fault (List Answer × Native.OrderBook) :=
  answersFrom (Native.OrderBook.step maxSize) {} calls

def PyOrderBook.answers (calls : List Call) : Except Fault (List Answer) :=
  (PyOrderBook.after calls).map Prod.fst

def Native.OrderBook.answers (maxSize : ℕ) (calls : List Call) : Except Fault (List Answer) :=
  (Native.OrderBook.after maxSize calls).map Prod.fst

/-- What rests on either side fits in 64 bits after each of the calls. -/
def FitsAlong (calls : List Call) : Prop :=
  ∀ before, before <+: calls → ∀ answers s, PyOrderBook.after before = .ok (answers, s) →
    (∀ volume, s.bidVolume = .ok volume → volume < 2 ^ 63) ∧
      ∀ volume, s.askVolume = .ok volume → volume < 2 ^ 63

/-! ## When a call is answered alike -/

def orders (calls : List Call) : ℕ := calls.countP Call.IsOrder

def ordersSinceClear (calls : List Call) : ℕ := orders (calls.reverse.takeWhile (· ≠ .clear))

/-- The next order after these calls gets the same number in both books. -/
def SameNumber (before : List Call) : Prop :=
  (1 + ordersSinceClear before : ℤ) = Native.uint64 (1 + orders before)

/-- Nothing rests on a side of the Python book after these calls. -/
def EmptyAfter (before : List Call) (side : Side) : Prop :=
  ∀ answers s, PyOrderBook.after before = .ok (answers, s) → s.prices side = []

/-- The condition under which a call after others is answered alike. A market
order that does not trade shows its number to nobody. -/
def Alike (maxSize : ℕ) (before : List Call) : Call → Prop
  | .addLimit _ _ _ => SameNumber before
  | .addMarket side qty => SameNumber before ∨ qty ≤ 0 ∨ EmptyAfter before side.opposite
  | .bidDepth levels => levels.toNat ≤ maxSize ∧ (levels = 0 → EmptyAfter before .buy)
  | .askDepth levels => levels.toNat ≤ maxSize
  | _ => True

theorem orders_snoc (calls : List Call) (call : Call) :
    orders (calls ++ [call]) = orders calls + if call.IsOrder then 1 else 0 := by
  simp [orders, List.countP_append, List.countP_cons]

theorem ordersSinceClear_snoc (calls : List Call) (call : Call) :
    ordersSinceClear (calls ++ [call]) =
      if call = .clear then 0 else ordersSinceClear calls + if call.IsOrder then 1 else 0 := by
  by_cases hclear : call = .clear
  · simp [ordersSinceClear, orders, hclear]
  · simp [ordersSinceClear, orders, hclear, List.countP_cons]

/-! ## Books of one content -/

/-- Both books are at the content `b` after the calls, with their answers. -/
structure InStep (maxSize : ℕ) (calls : List Call) (b : Book) (answers : List Answer)
    (py : PyOrderBook) (native : Native.OrderBook) : Prop where
  python : PyOrderBook.after calls = .ok (answers, py)
  cpp : Native.OrderBook.after maxSize calls = .ok (answers, native)
  represents : py.Represents b
  represented : native.Represents b
  sound : b.Sound
  before : b.Before py.nextId
  number : py.nextId = 1 + ordersSinceClear calls
  count : native.nextId = Native.uint64 (1 + orders calls)

variable {maxSize : ℕ} {calls : List Call} {b : Book} {answers : List Answer} {py : PyOrderBook}
  {native : Native.OrderBook}

theorem InStep.start : InStep maxSize [] .empty [] {} {} where
  python := rfl
  cpp := rfl
  represents := .empty
  represented := ⟨⟨fun id key => by simp [Native.OrderBook.find, Book.table, Book.empty], nofun, rfl⟩,
    fun side => by cases side <;> rfl⟩
  sound := Book.sound_empty
  before := Book.before_empty _
  number := rfl
  count := rfl

theorem InStep.levels_eq_nil (h : InStep maxSize calls b answers py native) {side : Side}
    (hempty : EmptyAfter calls side) : b.levels side = [] := by
  have hlength := h.represents.length_prices (h.sound.side side).sorted
  rw [hempty answers py h.python, List.length_nil] at hlength
  exact List.length_eq_zero_iff.mp hlength.symm

theorem Book.addMarket_of_nil (b : Book) (id : ℤ) {side : Side} (h : b.levels side.opposite = [])
    (qty : ℤ) : b.addMarket id side qty = (0, b) := by
  rw [Book.addMarket, trade_of_idle (by rw [h, sweep_nil])]
  split <;> simp

/-- A call that is answered alike leads to one content and one answer. -/
theorem InStep.alike (h : InStep maxSize calls b answers py native) {call : Call}
    (halike : Alike maxSize calls call) :
    b.next native.nextId call = b.next py.nextId call ∧
      Native.OrderBook.Represents.answer maxSize b native.nextId call =
        PyOrderBook.Represents.answer b py.nextId call := by
  have hnumber : SameNumber calls → native.nextId = py.nextId := fun hsame => by
    rw [h.number, h.count, hsame]
  cases call with
  | addLimit side price qty => exact hnumber halike ▸ ⟨rfl, rfl⟩
  | addMarket side qty =>
      rcases halike with hsame | hqty | hempty
      · exact hnumber hsame ▸ ⟨rfl, rfl⟩
      · simp [Book.next, Native.OrderBook.Represents.answer, PyOrderBook.Represents.answer,
          Book.answer, Book.addMarket, hqty.not_gt]
      · simp [Book.next, Native.OrderBook.Represents.answer, PyOrderBook.Represents.answer,
          Book.answer, b.addMarket_of_nil _ (h.levels_eq_nil hempty)]
  | bidDepth levels =>
      obtain ⟨hsize, hzero⟩ := halike
      refine ⟨rfl, ?_⟩
      rw [Native.OrderBook.Represents.answer, if_neg hsize.not_gt]
      by_cases hlevels : levels = 0
      · simp [PyOrderBook.Represents.answer, Book.answer, Book.depth,
          h.levels_eq_nil (hzero hlevels)]
      · simp [PyOrderBook.Represents.answer, Book.answer, PyOrderBook.Represents.shown, hlevels]
  | askDepth levels =>
      refine ⟨rfl, ?_⟩
      rw [Native.OrderBook.Represents.answer, if_neg (not_lt.mpr halike)]
      rfl
  | _ => exact ⟨rfl, rfl⟩

theorem InStep.fits (h : InStep maxSize calls b answers py native) (hfits : FitsAlong calls) :
    b.Fits := by
  obtain ⟨hbids, hasks⟩ := hfits calls List.prefix_rfl answers py h.python
  intro side
  cases side with
  | buy => exact hbids _ (h.represents.bidVolume h.sound)
  | sell => exact hasks _ (h.represents.askVolume h.sound)

theorem FitsAlong.of_snoc {call : Call} (h : FitsAlong (calls ++ [call])) : FitsAlong calls :=
  fun before hbefore => h before (hbefore.trans (List.prefix_append _ _))

theorem InStep.step (h : InStep maxSize calls b answers py native) {call : Call}
    (hcall : call.Int64) (hfits : FitsAlong (calls ++ [call]))
    (halike : Alike maxSize calls call) :
    ∃ b' answers' py' native', InStep maxSize (calls ++ [call]) b' answers' py' native' := by
  obtain ⟨hnext, hanswer⟩ := h.alike halike
  obtain ⟨answer, py', hpython, hrep, hid, hreturned⟩ := h.represents.step h.sound h.before call
  have hsound := h.sound.next h.before call
  have hrun := answersFrom_snoc h.python hpython
  have hafter : (b.next py.nextId call).Fits := by
    obtain ⟨hbids, hasks⟩ := hfits _ List.prefix_rfl _ py' hrun
    intro side
    cases side with
    | buy => exact hbids _ (hrep.bidVolume hsound)
    | sell => exact hasks _ (hrep.askVolume hsound)
  have hfresh : ∀ side price qty, call = .addLimit side price qty →
      b.Before native.nextId := by
    rintro side price qty rfl
    rw [h.count, ← show (1 + ordersSinceClear calls : ℤ) = _ from halike, ← h.number]
    exact h.before
  obtain ⟨native', hcpp, hrep', hcount⟩ := h.represented.step h.sound (h.fits hfits.of_snoc) maxSize
    hcall (hnext ▸ hafter) hfresh
  have hnonnegative : call.Nonnegative := by
    cases call with
    | bidDepth levels => exact hcall.1
    | askDepth levels => exact hcall.1
    | _ => trivial
  rw [hreturned hnonnegative] at hrun
  rw [hanswer] at hcpp
  rw [hnext] at hrep'
  refine ⟨_, _, py', native', hrun, answersFrom_snoc h.cpp hcpp, hrep, hrep', hsound, ?_, ?_, ?_⟩
  · rw [hid]
    exact PyOrderBook.Represents.before_nextIdAfter h.before call
  · rw [hid, PyOrderBook.Represents.nextIdAfter, h.number, ordersSinceClear_snoc]
    split
    · rfl
    · split <;> push_cast <;> omega
  · rw [hcount, Native.OrderBook.Represents.nextIdAfter, h.count, orders_snoc]
    split
    · simp only [Native.uint64]
      push_cast
      omega
    · simp

theorem inStep_of_alike (hcalls : ∀ call ∈ calls, call.Int64) (hfits : FitsAlong calls)
    (halike : ∀ before call, before ++ [call] <+: calls → Alike maxSize before call) :
    ∃ b answers py native, InStep maxSize calls b answers py native := by
  induction calls using List.reverseRecOn with
  | nil => exact ⟨_, _, _, _, .start⟩
  | append_singleton calls call ih =>
      obtain ⟨b, answers, py, native, hstep⟩ := ih
        (fun other hother => hcalls other (List.mem_append_left _ hother)) hfits.of_snoc
        fun before other hearlier => halike before other (hearlier.trans (List.prefix_append _ _))
      exact hstep.step (hcalls call (List.mem_append_right _ List.mem_cons_self)) hfits
        (halike calls call List.prefix_rfl)

/-- The two books answer every call alike if each call meets the condition. -/
theorem books_agree (hcalls : ∀ call ∈ calls, call.Int64) (hfits : FitsAlong calls)
    (halike : ∀ before call, before ++ [call] <+: calls → Alike maxSize before call) :
    ∃ answers, PyOrderBook.answers calls = .ok answers ∧
      Native.OrderBook.answers maxSize calls = .ok answers := by
  obtain ⟨b, answers, py, native, h⟩ := inStep_of_alike hcalls hfits halike
  refine ⟨answers, ?_, ?_⟩
  · rw [PyOrderBook.answers, h.python]
    rfl
  · rw [Native.OrderBook.answers, h.cpp]
    rfl

theorem books_agree_buy_sell : ∃ answers,
    PyOrderBook.answers [.addLimit .buy 100 10, .addLimit .sell 100 4, .takeFills] = .ok answers ∧
      Native.OrderBook.answers 8 [.addLimit .buy 100 10, .addLimit .sell 100 4, .takeFills] =
        .ok answers := by
  refine books_agree (by decide) (fun before hbefore => ?_) fun before call hbefore => ?_
  · rw [← List.mem_inits] at hbefore
    simp only [List.inits, List.map_cons, List.map_nil, List.mem_cons, List.not_mem_nil,
      or_false] at hbefore
    rcases hbefore with rfl | rfl | rfl | rfl <;> rintro answers s ⟨⟩ <;>
      refine ⟨?_, ?_⟩ <;> rintro volume ⟨⟩ <;> decide
  · obtain ⟨rest, hrest⟩ := hbefore
    rcases before with _ | ⟨first, _ | ⟨second, _ | ⟨third, before⟩⟩⟩ <;>
      simp only [List.nil_append, List.cons_append, List.cons.injEq, List.append_assoc] at hrest
    · obtain ⟨rfl, -⟩ := hrest
      exact rfl
    · obtain ⟨rfl, rfl, -⟩ := hrest
      exact rfl
    · obtain ⟨rfl, rfl, rfl, -⟩ := hrest
      trivial
    · simp at hrest

/-- A clear after an order, and the next order is numbered differently. -/
theorem books_differ_after_clear : ∃ calls : List Call, (∀ call ∈ calls, call.Int64) ∧
    FitsAlong calls ∧ PyOrderBook.answers calls = .ok [.int 1, .none, .int 1] ∧
      Native.OrderBook.answers 8 calls = .ok [.int 1, .none, .int 2] := by
  refine ⟨[.addLimit .buy 100 10, .clear, .addLimit .buy 100 10], by decide,
    fun before hbefore => ?_, rfl, rfl⟩
  rw [← List.mem_inits] at hbefore
  simp only [List.inits, List.map_cons, List.map_nil, List.mem_cons, List.not_mem_nil,
    or_false] at hbefore
  rcases hbefore with rfl | rfl | rfl | rfl <;> rintro answers s ⟨⟩ <;>
    refine ⟨?_, ?_⟩ <;> rintro volume ⟨⟩ <;> decide

end LimitBook
