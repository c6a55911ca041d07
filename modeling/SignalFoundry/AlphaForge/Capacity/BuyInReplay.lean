import Mathlib.Tactic.Linarith
import Mathlib.Tactic.Ring
import SignalFoundry.AlphaForge.Capacity.BuyIn

/-!
# Replayed triggers

A trigger that is presented again leaves the book as it is while its buy-in is open. It
opens the buy-in again once that has been resolved, since only the open ones are looked
up. In a run that does not do so, every buy-in has one record, whose filled and
outstanding quantities add up, and an open one has seen no more sessions than allowed.
-/

namespace Capacity

open Fallible

/-! ## What was scheduled -/

namespace BuyInCall

/-- The order that a call would open. -/
def order? : BuyInCall → Option BuyInOrder
  | schedule request => request.order.toOption
  | _ => none

/-- Whether a call advances past the session an order is scheduled for. -/
def passes (order : BuyInOrder) : BuyInCall → Bool
  | advanceSession session => ForcedBuyInBook.isPast session order
  | _ => false

end BuyInCall

/-- The first order under an identifier and the calls made after it. -/
def firstScheduled (id : Identifier) : List BuyInCall → Option (BuyInOrder × List BuyInCall)
  | [] => none
  | call :: calls =>
      match call.order? with
      | some order => if order.buyInId = id then some (order, calls) else firstScheduled id calls
      | none => firstScheduled id calls

section FirstScheduled

variable {id : Identifier} {calls after : List BuyInCall} {order : BuyInOrder} {call : BuyInCall}

theorem firstScheduled_append_of_some (h : firstScheduled id calls = some (order, after)) :
    firstScheduled id (calls ++ [call]) = some (order, after ++ [call]) := by
  induction calls with
  | nil => cases h
  | cons head calls ih =>
      rw [List.cons_append, firstScheduled]
      rw [firstScheduled] at h
      cases hhead : head.order? with
      | none =>
          rw [hhead] at h
          exact ih h
      | some o =>
          rw [hhead] at h
          dsimp only at h ⊢
          split_ifs at h ⊢
          · cases h
            rfl
          · exact ih h

theorem firstScheduled_append_of_none (h : firstScheduled id calls = none) :
    firstScheduled id (calls ++ [call]) = firstScheduled id [call] := by
  induction calls with
  | nil => rfl
  | cons head calls ih =>
      rw [List.cons_append, firstScheduled]
      rw [firstScheduled] at h
      cases hhead : head.order? with
      | none =>
          rw [hhead] at h
          exact ih h
      | some o =>
          rw [hhead] at h
          dsimp only at h ⊢
          split_ifs at h ⊢
          exact ih h

theorem firstScheduled_singleton (h : firstScheduled id [call] = some (order, after)) :
    call.order? = some order ∧ order.buyInId = id ∧ after = [] := by
  rw [firstScheduled] at h
  cases hcall : call.order? with
  | none =>
      rw [hcall] at h
      cases h
  | some o =>
      rw [hcall] at h
      dsimp only at h
      split_ifs at h with hid
      · cases h
        exact ⟨rfl, hid, rfl⟩
      · cases h

theorem isSome_firstScheduled (hmem : call ∈ calls) (h : call.order? = some order) :
    (firstScheduled order.buyInId calls).isSome := by
  induction calls with
  | nil => cases hmem
  | cons head calls ih =>
      rw [firstScheduled]
      rcases List.mem_cons.mp hmem with rfl | hmem
      · rw [h]
        simp
      · cases hhead : head.order? with
        | none => exact ih hmem
        | some o =>
            dsimp only
            split_ifs
            · rfl
            · exact ih hmem

end FirstScheduled

/-! ## What a call does -/

theorem BuyInRequest.buyInId_of_order {request : BuyInRequest} {order : BuyInOrder}
    (h : request.order = .ok order) : order.buyInId.val = request.buyInId := by
  simp only [BuyInRequest.order, bind_eq_ok_iff, mapError_eq_ok_iff] at h
  obtain ⟨buyInId, hid, symbol, -, quantity, -, h⟩ := h
  split_ifs at h
  cases h
  exact identifier_eq_ok_iff.mp hid

namespace ForcedBuyInBook

variable {book : ForcedBuyInBook}

theorem schedule_cases (book : ForcedBuyInBook) (request : BuyInRequest) :
    ((book.schedule request).2 = book ∧
      ∀ order, request.order = .ok order → order.buyInId ∈ book.opened.keys) ∨
    ∃ order, request.order = .ok order ∧ book.opened.get? order.buyInId = none ∧
      (book.schedule request).2 = { book with
        opened := book.opened.set order.buyInId { order, outstanding := order.quantity } } := by
  rw [schedule]
  cases hid : identifier "buy_in_id" request.buyInId with
  | error error =>
      refine .inl ⟨rfl, fun order horder => ?_⟩
      rw [← BuyInRequest.buyInId_of_order horder, identifier_val] at hid
      cases hid
  | ok buyInId =>
      have hval := identifier_eq_ok_iff.mp hid
      have heq : ∀ order, request.order = .ok order → order.buyInId = buyInId :=
        fun order horder => Subtype.ext ((BuyInRequest.buyInId_of_order horder).trans hval.symm)
      cases hget : book.opened.get? buyInId with
      | some existing =>
          refine .inl ⟨by simp only [hget], fun order horder => ?_⟩
          rw [heq order horder]
          exact OrderedDict.mem_keys_iff.mpr ⟨existing, hget⟩
      | none =>
          cases horder : request.order with
          | error error => exact .inl ⟨by simp only [hget], fun order heq => by cases heq⟩
          | ok order =>
              refine .inr ⟨order, rfl, heq order horder ▸ hget, ?_⟩
              simp only [hget, heq order horder]

theorem applyFill_cases (book : ForcedBuyInBook) (buyInId : String) (quantity : ℚ)
    (fillId : String) :
    (book.applyFill buyInId quantity fillId).2 = book ∨
    ∃ id state changed, book.opened.get? id = some state ∧ changed.order = state.order ∧
      changed.filled + changed.outstanding = state.filled + state.outstanding ∧
      changed.sessionsElapsed = state.sessionsElapsed ∧
      ((book.applyFill buyInId quantity fillId).2 =
          { book with opened := book.opened.set id changed } ∨
        (book.applyFill buyInId quantity fillId).2 =
          ⟨book.opened.erase state.order.buyInId, book.resolved ++ [changed]⟩) := by
  rw [applyFill]
  cases hid : identifier "buy_in_id" buyInId with
  | error error => exact .inl rfl
  | ok id =>
      cases hget : book.opened.get? id with
      | none => exact .inl (by simp only [hget])
      | some state =>
          cases hquantity : finiteQuantity "quantity" maxQuantity quantity with
          | error error => exact .inl (by simp only [hget])
          | ok quantity =>
              have hsum : (filledState state quantity).filled +
                  (filledState state quantity).outstanding = state.filled + state.outstanding := by
                simp only [filledState]
                ring
              refine .inr ⟨id, state, ?_⟩
              cases hfill : identifier "fill_id" fillId with
              | error error =>
                  exact ⟨filledState state quantity, hget, rfl, hsum, rfl,
                    .inl (by simp only [hget])⟩
              | ok fillId =>
                  refine ⟨{ filledState state quantity with
                    fills := (filledState state quantity).fills ++
                      [(fillId, min quantity.val state.outstanding)] }, hget, rfl, hsum, rfl, ?_⟩
                  simp only [hget]
                  split_ifs
                  · exact .inr rfl
                  · exact .inl rfl

theorem advanceSession_eq_ok {resolutionSessions : ℕ} {session : PyDate} {next : ForcedBuyInBook}
    (h : book.advanceSession resolutionSessions session = .ok next) :
    (∀ id state, book.opened.get? id = some state → isPast session state.order = true →
      state.sessionsElapsed + 1 ≤ resolutionSessions) ∧
    next = { book with opened := book.opened.mapValues (age session) } := by
  rw [advanceSession] at h
  cases hfind : book.opened.values.find? fun state =>
      isPast session state.order && resolutionSessions < state.sessionsElapsed + 1 with
  | some state =>
      rw [hfind] at h
      cases h
  | none =>
      rw [hfind] at h
      cases h
      refine ⟨fun id state hget hpast => ?_, rfl⟩
      have hmem : state ∈ book.opened.values :=
        List.mem_map.mpr ⟨(id, state), OrderedDict.get?_eq_some_iff.mp hget, rfl⟩
      have hnot := List.find?_eq_none.mp hfind state hmem
      simp only [hpast, Bool.true_and, decide_eq_true_eq, not_lt] at hnot
      exact hnot

/-! ## The invariant of a run -/

def resolvedIds (book : ForcedBuyInBook) : List Identifier :=
  book.resolved.map fun state => state.order.buyInId

/-- A record is of the order first scheduled under its identifier, and accounts for it. -/
def Known (calls : List BuyInCall) (state : BuyInState) : Prop :=
  ∃ after, firstScheduled state.order.buyInId calls = some (state.order, after) ∧
    state.filled + state.outstanding = state.order.quantity

/-- What a book keeps of the calls made on it, as long as no buy-in is opened twice. -/
structure Inv (resolutionSessions : ℕ) (calls : List BuyInCall) (book : ForcedBuyInBook) :
    Prop where
  keyed : ∀ id state, book.opened.get? id = some state → state.order.buyInId = id
  apart : ∀ id ∈ book.opened.keys, id ∉ book.resolvedIds
  once : book.resolvedIds.Nodup
  opened : ∀ id state, book.opened.get? id = some state → Known calls state
  resolved : ∀ state ∈ book.resolved, Known calls state
  aged : ∀ id state, book.opened.get? id = some state → ∀ order after,
    firstScheduled id calls = some (order, after) →
    state.sessionsElapsed = after.countP (BuyInCall.passes order) ∧
      state.sessionsElapsed ≤ resolutionSessions
  covered : ∀ id order after, firstScheduled id calls = some (order, after) →
    id ∈ book.opened.keys ∨ id ∈ book.resolvedIds

/-- A call that opens a buy-in that has been resolved. -/
def Reopens (book : ForcedBuyInBook) (call : BuyInCall) : Prop :=
  ∃ order ∈ call.order?, order.buyInId ∈ book.resolvedIds

variable {resolutionSessions : ℕ} {calls : List BuyInCall} {call : BuyInCall}

theorem inv_empty (resolutionSessions : ℕ) : Inv resolutionSessions [] empty where
  keyed _ _ h := by cases h
  apart _ h := by cases h
  once := List.nodup_nil
  opened _ _ h := by cases h
  resolved _ h := by cases h
  aged _ _ h := by cases h
  covered _ _ _ h := by cases h

theorem Known.append {state : BuyInState} (h : Known calls state) (call : BuyInCall) :
    Known (calls ++ [call]) state := by
  obtain ⟨after, hfirst, hsum⟩ := h
  exact ⟨after ++ [call], firstScheduled_append_of_some hfirst, hsum⟩

/-- What a call schedules first is new to the book. -/
theorem firstScheduled_append_cases {id : Identifier} {order : BuyInOrder}
    {after : List BuyInCall} (h : firstScheduled id (calls ++ [call]) = some (order, after)) :
    (∃ before, firstScheduled id calls = some (order, before) ∧ after = before ++ [call]) ∨
      firstScheduled id calls = none ∧ call.order? = some order ∧ order.buyInId = id ∧
        after = [] := by
  cases hfirst : firstScheduled id calls with
  | none =>
      rw [firstScheduled_append_of_none hfirst] at h
      exact .inr ⟨rfl, firstScheduled_singleton h⟩
  | some found =>
      obtain ⟨order', before⟩ := found
      rw [firstScheduled_append_of_some hfirst] at h
      cases h
      exact .inl ⟨before, rfl, rfl⟩

namespace Inv

/-- The sessions of a record are counted over the calls so far. -/
theorem aged_append (h : Inv resolutionSessions calls book) {id : Identifier} {state : BuyInState}
    (hget : book.opened.get? id = some state) {order : BuyInOrder} {after : List BuyInCall}
    (hfirst : firstScheduled id (calls ++ [call]) = some (order, after)) :
    order = state.order ∧ state.sessionsElapsed ≤ resolutionSessions ∧
      after.countP (BuyInCall.passes order) =
        state.sessionsElapsed + if call.passes state.order then 1 else 0 := by
  obtain ⟨after', hknown, -⟩ := h.opened id state hget
  rw [h.keyed id state hget] at hknown
  obtain ⟨helapsed, hle⟩ := h.aged id state hget _ _ hknown
  rw [firstScheduled_append_of_some hknown] at hfirst
  cases hfirst
  rw [List.countP_append, List.countP_singleton, helapsed]
  exact ⟨rfl, helapsed ▸ hle, rfl⟩

theorem covered_append (h : Inv resolutionSessions calls book) {id : Identifier}
    {order : BuyInOrder} {after : List BuyInCall}
    (hfirst : firstScheduled id (calls ++ [call]) = some (order, after)) :
    (id ∈ book.opened.keys ∨ id ∈ book.resolvedIds) ∨
      call.order? = some order ∧ order.buyInId = id := by
  rcases firstScheduled_append_cases hfirst with ⟨before, hbefore, -⟩ | ⟨-, hcall, hid, -⟩
  · exact .inl (h.covered id order before hbefore)
  · exact .inr ⟨hcall, hid⟩

/-- A call after which the book is the same. -/
theorem unchanged (h : Inv resolutionSessions calls book)
    (hpasses : ∀ order, call.passes order = false)
    (hknown : ∀ order, call.order? = some order → order.buyInId ∈ book.opened.keys) :
    Inv resolutionSessions (calls ++ [call]) book where
  keyed := h.keyed
  apart := h.apart
  once := h.once
  opened id state hget := (h.opened id state hget).append call
  resolved state hmem := (h.resolved state hmem).append call
  aged id state hget order after hfirst := by
    obtain ⟨rfl, hle, hcount⟩ := h.aged_append hget hfirst
    rw [hpasses, if_neg Bool.false_ne_true, add_zero] at hcount
    exact ⟨hcount.symm, hle⟩
  covered id order after hfirst := by
    rcases h.covered_append hfirst with hcovered | ⟨hcall, rfl⟩
    · exact hcovered
    · exact .inl (hknown order hcall)

/-- A buy-in that is opened for the first time. -/
theorem opens {request : BuyInRequest} {order : BuyInOrder}
    (h : Inv resolutionSessions calls book) (horder : request.order = .ok order)
    (hget : book.opened.get? order.buyInId = none) (hresolved : order.buyInId ∉ book.resolvedIds) :
    Inv resolutionSessions (calls ++ [.schedule request]) { book with
      opened := book.opened.set order.buyInId { order, outstanding := order.quantity } } := by
  have hcall : (BuyInCall.schedule request).order? = some order := by
    rw [BuyInCall.order?, horder]
    rfl
  have hfresh : firstScheduled order.buyInId calls = none := by
    rw [Option.eq_none_iff_forall_ne_some]
    rintro ⟨order', after⟩ hsome
    rcases h.covered _ _ _ hsome with hopen | hdone
    · exact OrderedDict.get?_eq_none_iff.mp hget hopen
    · exact hresolved hdone
  have hfirst : firstScheduled order.buyInId (calls ++ [.schedule request]) = some (order, []) := by
    rw [firstScheduled_append_of_none hfresh, firstScheduled, hcall]
    exact if_pos rfl
  constructor
  · intro id state hstate
    rw [OrderedDict.get?_set] at hstate
    split_ifs at hstate with hid
    · cases hstate
      exact hid.symm
    · exact h.keyed id state hstate
  · intro id hid
    rcases OrderedDict.mem_keys_set.mp hid with rfl | hid
    · exact hresolved
    · exact h.apart id hid
  · exact h.once
  · intro id state hstate
    rw [OrderedDict.get?_set] at hstate
    split_ifs at hstate with hid
    · cases hstate
      exact ⟨[], hfirst, zero_add _⟩
    · exact (h.opened id state hstate).append _
  · exact fun state hmem => (h.resolved state hmem).append _
  · intro id state hstate order' after hsome
    rw [OrderedDict.get?_set] at hstate
    split_ifs at hstate with hid
    · subst hid
      rw [hfirst] at hsome
      cases hstate
      cases hsome
      exact ⟨rfl, Nat.zero_le _⟩
    · obtain ⟨rfl, hle, hcount⟩ := h.aged_append hstate hsome
      exact ⟨hcount.symm, hle⟩
  · intro id order' after hsome
    rw [OrderedDict.mem_keys_set]
    rcases h.covered_append hsome with (hopen | hdone) | ⟨hcall', rfl⟩
    · exact .inl (.inr hopen)
    · exact .inr hdone
    · rw [hcall] at hcall'
      cases hcall'
      exact .inl (.inl rfl)

section Fills

variable {id : Identifier} {state changed : BuyInState}

theorem known_of_changed (hstate : Known calls state) (horder : changed.order = state.order)
    (hsum : changed.filled + changed.outstanding = state.filled + state.outstanding) :
    Known calls changed := by
  obtain ⟨after, hfirst, hquantity⟩ := hstate
  exact ⟨after, horder ▸ hfirst, horder ▸ hsum.trans hquantity⟩

variable (h : Inv resolutionSessions calls book) (hget : book.opened.get? id = some state)
  (horder : changed.order = state.order)
  (hsum : changed.filled + changed.outstanding = state.filled + state.outstanding)
  (hpasses : ∀ order, call.passes order = false) (hcall : call.order? = none)

include h hget horder hsum hpasses hcall

/-- A fill that leaves the buy-in open. -/
theorem fills (helapsed : changed.sessionsElapsed = state.sessionsElapsed) :
    Inv resolutionSessions (calls ++ [call])
      { book with opened := book.opened.set id changed } := by
  have hkey : ∀ {j : Identifier}, j ∈ (book.opened.set id changed).keys ↔ j ∈ book.opened.keys := by
    intro j
    rw [OrderedDict.mem_keys_set]
    refine or_iff_right_of_imp ?_
    rintro rfl
    exact OrderedDict.mem_keys_iff.mpr ⟨state, hget⟩
  constructor
  · intro j state' hstate
    rw [OrderedDict.get?_set] at hstate
    split_ifs at hstate with hj
    · cases hstate
      rw [horder, hj]
      exact h.keyed id state hget
    · exact h.keyed j state' hstate
  · exact fun j hj => h.apart j (hkey.mp hj)
  · exact h.once
  · intro j state' hstate
    rw [OrderedDict.get?_set] at hstate
    split_ifs at hstate with hj
    · cases hstate
      exact (known_of_changed (h.opened id state hget) horder hsum).append call
    · exact (h.opened j state' hstate).append call
  · exact fun state' hmem => (h.resolved state' hmem).append call
  · intro j state' hstate order after hsome
    rw [OrderedDict.get?_set] at hstate
    split_ifs at hstate with hj
    · cases hstate
      subst hj
      obtain ⟨rfl, hle, hcount⟩ := h.aged_append hget hsome
      rw [hpasses, if_neg Bool.false_ne_true, add_zero] at hcount
      rw [helapsed]
      exact ⟨hcount.symm, hle⟩
    · obtain ⟨rfl, hle, hcount⟩ := h.aged_append hstate hsome
      rw [hpasses, if_neg Bool.false_ne_true, add_zero] at hcount
      exact ⟨hcount.symm, hle⟩
  · intro j order after hsome
    rcases h.covered_append hsome with hcovered | ⟨hcall', -⟩
    · exact hcovered.imp_left hkey.mpr
    · rw [hcall] at hcall'
      cases hcall'

/-- A fill that resolves the buy-in. -/
theorem resolves : Inv resolutionSessions (calls ++ [call])
    ⟨book.opened.erase state.order.buyInId, book.resolved ++ [changed]⟩ := by
  have hid : state.order.buyInId = id := h.keyed id state hget
  have hids : resolvedIds ⟨book.opened.erase state.order.buyInId, book.resolved ++ [changed]⟩ =
      book.resolvedIds ++ [id] := by
    rw [resolvedIds, List.map_append, List.map_singleton, horder, hid]
    rfl
  constructor
  · intro j state' hstate
    rw [OrderedDict.get?_erase] at hstate
    split_ifs at hstate
    exact h.keyed j state' hstate
  · intro j hj
    rw [OrderedDict.mem_keys_erase, hid] at hj
    rw [hids, List.mem_append, List.mem_singleton, not_or]
    exact ⟨h.apart j hj.2, hj.1⟩
  · rw [hids]
    refine List.nodup_append.mpr ⟨h.once, List.nodup_singleton id, ?_⟩
    rintro a ha b hb rfl
    rw [List.mem_singleton.mp hb] at ha
    exact h.apart id (OrderedDict.mem_keys_iff.mpr ⟨state, hget⟩) ha
  · intro j state' hstate
    rw [OrderedDict.get?_erase] at hstate
    split_ifs at hstate
    exact (h.opened j state' hstate).append call
  · intro state' hmem
    rcases List.mem_append.mp hmem with hmem | hmem
    · exact (h.resolved state' hmem).append call
    · rw [List.mem_singleton.mp hmem]
      exact (known_of_changed (h.opened id state hget) horder hsum).append call
  · intro j state' hstate order after hsome
    rw [OrderedDict.get?_erase] at hstate
    split_ifs at hstate
    obtain ⟨rfl, hle, hcount⟩ := h.aged_append hstate hsome
    rw [hpasses, if_neg Bool.false_ne_true, add_zero] at hcount
    exact ⟨hcount.symm, hle⟩
  · intro j order after hsome
    rw [hids, List.mem_append, List.mem_singleton, OrderedDict.mem_keys_erase, hid]
    rcases h.covered_append hsome with hcovered | ⟨hcall', -⟩
    · rcases hcovered with hopen | hdone
      · by_cases hj : j = id
        · exact .inr (.inr hj)
        · exact .inl ⟨hj, hopen⟩
      · exact .inr (.inl hdone)
    · rw [hcall] at hcall'
      cases hcall'

end Fills

/-- A session that halts nothing. -/
theorem ages {session : PyDate} (h : Inv resolutionSessions calls book)
    (hroom : ∀ id state, book.opened.get? id = some state → isPast session state.order = true →
      state.sessionsElapsed + 1 ≤ resolutionSessions) :
    Inv resolutionSessions (calls ++ [.advanceSession session])
      { book with opened := book.opened.mapValues (age session) } := by
  have horder : ∀ state, (age session state).order = state.order := by
    intro state
    rw [age]
    split_ifs <;> rfl
  have hkey : ∀ {j : Identifier},
      j ∈ (book.opened.mapValues (age session)).keys ↔ j ∈ book.opened.keys := by
    intro j
    simp only [OrderedDict.mem_keys_iff, OrderedDict.get?_mapValues, Option.map_eq_some_iff]
    constructor
    · rintro ⟨-, state, hstate, -⟩
      exact ⟨state, hstate⟩
    · rintro ⟨state, hstate⟩
      exact ⟨_, state, hstate, rfl⟩
  constructor
  · intro j state' hstate
    rw [OrderedDict.get?_mapValues, Option.map_eq_some_iff] at hstate
    obtain ⟨state, hstate, rfl⟩ := hstate
    rw [horder]
    exact h.keyed j state hstate
  · exact fun j hj => h.apart j (hkey.mp hj)
  · exact h.once
  · intro j state' hstate
    rw [OrderedDict.get?_mapValues, Option.map_eq_some_iff] at hstate
    obtain ⟨state, hstate, rfl⟩ := hstate
    refine (known_of_changed (h.opened j state hstate) (horder state) ?_).append _
    rw [age]
    split_ifs <;> rfl
  · exact fun state' hmem => (h.resolved state' hmem).append _
  · intro j state' hstate order after hsome
    rw [OrderedDict.get?_mapValues, Option.map_eq_some_iff] at hstate
    obtain ⟨state, hstate, rfl⟩ := hstate
    obtain ⟨rfl, hle, hcount⟩ := h.aged_append hstate hsome
    rw [hcount, age, BuyInCall.passes]
    split_ifs with hpast
    · exact ⟨rfl, hroom j state hstate hpast⟩
    · exact ⟨rfl, hle⟩
  · intro j order after hsome
    rcases h.covered_append hsome with hcovered | ⟨hcall', -⟩
    · exact hcovered.imp_left hkey.mpr
    · cases hcall'

end Inv

/-- One call that opens no buy-in again. -/
theorem Inv.perform (h : Inv resolutionSessions calls book) (hfresh : ¬ book.Reopens call)
    {next : ForcedBuyInBook} (hnext : book.perform resolutionSessions call = .ok next) :
    Inv resolutionSessions (calls ++ [call]) next := by
  cases call with
  | schedule request =>
      cases hnext
      rcases book.schedule_cases request with ⟨hsame, hopen⟩ | ⟨order, horder, hget, hopened⟩
      · rw [hsame]
        refine h.unchanged (fun _ => rfl) fun order hcall => hopen order ?_
        rw [BuyInCall.order?] at hcall
        cases hrequest : request.order with
        | error error =>
            rw [hrequest] at hcall
            cases hcall
        | ok found =>
            rw [hrequest] at hcall
            cases hcall
            rfl
      · rw [hopened]
        refine h.opens horder hget fun hresolved => hfresh ⟨order, ?_, hresolved⟩
        rw [BuyInCall.order?, horder]
        rfl
  | applyFill buyInId quantity fillId =>
      cases hnext
      rcases book.applyFill_cases buyInId quantity fillId with
        hsame | ⟨id, state, changed, hget, horder, hsum, helapsed, hset | herase⟩
      · rw [hsame]
        exact h.unchanged (fun _ => rfl) nofun
      · rw [hset]
        exact h.fills hget horder hsum (fun _ => rfl) rfl helapsed
      · rw [herase]
        exact h.resolves hget horder hsum (fun _ => rfl) rfl
  | advanceSession session =>
      obtain ⟨hroom, rfl⟩ := advanceSession_eq_ok hnext
      exact h.ages hroom

/-! ## Runs -/

/-- No call of a run opens a buy-in that has been resolved. -/
def NoReopen (resolutionSessions : ℕ) : ForcedBuyInBook → List BuyInCall → Prop
  | _, [] => True
  | book, call :: calls => ¬ book.Reopens call ∧
      match book.perform resolutionSessions call with
      | .ok next => NoReopen resolutionSessions next calls
      | .error _ => True

/-- Every state of a run that opens no buy-in again keeps the invariant. -/
theorem Inv.run {made rest : List BuyInCall} (h : Inv resolutionSessions calls book)
    (hfresh : NoReopen resolutionSessions book (made ++ rest)) {next : ForcedBuyInBook}
    (hnext : book.run resolutionSessions made = .ok next) :
    Inv resolutionSessions (calls ++ made) next := by
  induction made generalizing calls book with
  | nil =>
      cases hnext
      rwa [List.append_nil]
  | cons call made ih =>
      obtain ⟨middle, hmiddle, hnext⟩ := bind_eq_ok_iff.mp hnext
      obtain ⟨hcall, hlater⟩ := hfresh
      rw [hmiddle] at hlater
      have hrun := ih (h.perform hcall hmiddle) hlater hnext
      rwa [List.append_assoc] at hrun

/-- A sequence of calls, and the same with schedule calls already made presented again. -/
inductive Replays : List BuyInCall → List BuyInCall → List BuyInCall → Prop
  | done {made : List BuyInCall} : Replays made [] []
  | call {made calls replayed : List BuyInCall} {call : BuyInCall}
      (hrest : Replays (made ++ [call]) calls replayed) :
      Replays made (call :: calls) (call :: replayed)
  | again {made calls replayed : List BuyInCall} {request : BuyInRequest}
      (hmade : .schedule request ∈ made) (hrest : Replays made calls replayed) :
      Replays made calls (.schedule request :: replayed)

/-- A trigger that is presented again changes nothing unless its buy-in is resolved. -/
theorem schedule_again (h : Inv resolutionSessions calls book) {request : BuyInRequest}
    (hmade : .schedule request ∈ calls) (hfresh : ¬ book.Reopens (.schedule request)) :
    (book.schedule request).2 = book := by
  rcases book.schedule_cases request with ⟨hsame, -⟩ | ⟨order, horder, hget, -⟩
  · exact hsame
  · have hcall : (BuyInCall.schedule request).order? = some order := by
      rw [BuyInCall.order?, horder]
      rfl
    obtain ⟨⟨order', after⟩, hfirst⟩ := Option.isSome_iff_exists.mp
      (isSome_firstScheduled hmade hcall)
    rcases h.covered _ _ _ hfirst with hopen | hresolved
    · exact absurd hopen (OrderedDict.get?_eq_none_iff.mp hget)
    · exact absurd ⟨order, hcall, hresolved⟩ hfresh

theorem run_eq_of_replays {made replayed history : List BuyInCall}
    (hreplays : Replays made calls replayed) (h : Inv resolutionSessions history book)
    (hmade : ∀ call ∈ made, call ∈ history)
    (hfresh : NoReopen resolutionSessions book replayed) :
    book.run resolutionSessions calls = book.run resolutionSessions replayed ∧
      NoReopen resolutionSessions book calls := by
  induction hreplays generalizing book history with
  | done => exact ⟨rfl, hfresh⟩
  | @call made calls replayed call hrest ih =>
      obtain ⟨hcall, hlater⟩ := hfresh
      simp only [ForcedBuyInBook.run, NoReopen]
      cases hnext : book.perform resolutionSessions call with
      | error halt => exact ⟨rfl, hcall, trivial⟩
      | ok next =>
          rw [hnext] at hlater
          have hknown : ∀ c ∈ made ++ [call], c ∈ history ++ [call] := by
            intro c hc
            rcases List.mem_append.mp hc with hc | hc
            · exact List.mem_append_left _ (hmade c hc)
            · exact List.mem_append_right _ hc
          obtain ⟨hrun, hbase⟩ := ih (h.perform hcall hnext) hknown hlater
          exact ⟨hrun, hcall, hbase⟩
  | @again made calls replayed request hrequest hrest ih =>
      obtain ⟨hcall, hlater⟩ := hfresh
      have hsame := schedule_again h (hmade _ hrequest) hcall
      have hnext : book.perform resolutionSessions (.schedule request) = .ok book := by
        rw [ForcedBuyInBook.perform, hsame]
      rw [hnext] at hlater
      obtain ⟨hrun, hbase⟩ := ih (h.perform hcall hnext)
        (fun c hc => List.mem_append_left _ (hmade c hc)) hlater
      refine ⟨?_, hbase⟩
      rw [hrun, ForcedBuyInBook.run, hnext, ok_bind]

/-- The records of an identifier, open or resolved. -/
def records (book : ForcedBuyInBook) (id : Identifier) : List BuyInState :=
  (book.opened.get? id).toList ++ book.resolved.filter fun state => state.order.buyInId = id

/-- What the calls made on a book account for. -/
structure Accounted (resolutionSessions : ℕ) (calls : List BuyInCall) (book : ForcedBuyInBook) :
    Prop where
  balanced : ∀ id order after, firstScheduled id calls = some (order, after) →
    ∃ state, book.records id = [state] ∧ state.order = order ∧
      state.filled + state.outstanding = order.quantity
  timely : ∀ id order after, firstScheduled id calls = some (order, after) →
    id ∈ book.opened.keys → after.countP (BuyInCall.passes order) ≤ resolutionSessions

theorem filter_eq_singleton_of_nodup {α β : Type} [DecidableEq β] {f : α → β} {l : List α} {a : α}
    (hnodup : (l.map f).Nodup) (ha : a ∈ l) : l.filter (fun x => f x = f a) = [a] := by
  induction l with
  | nil => cases ha
  | cons x l ih =>
      obtain ⟨hx, hl⟩ := List.nodup_cons.mp hnodup
      rcases List.mem_cons.mp ha with rfl | ha
      · rw [List.filter_cons_of_pos (by simp), List.filter_eq_nil_iff.mpr]
        intro y hy heq
        exact hx (List.mem_map.mpr ⟨y, hy, of_decide_eq_true heq⟩)
      · have hne : f x ≠ f a := fun heq => hx (heq ▸ List.mem_map_of_mem ha)
        rw [List.filter_cons_of_neg (by simpa using hne), ih hl ha]

theorem Inv.accounted (h : Inv resolutionSessions calls book) :
    Accounted resolutionSessions calls book where
  balanced id order after hfirst := by
    have hknown : ∀ state, state.order.buyInId = id → Known calls state →
        state.order = order ∧ state.filled + state.outstanding = order.quantity := by
      rintro state rfl ⟨after', hfirst', hsum⟩
      rw [hfirst] at hfirst'
      cases hfirst'
      exact ⟨rfl, hsum⟩
    rcases h.covered id order after hfirst with hopen | hdone
    · obtain ⟨state, hstate⟩ := OrderedDict.mem_keys_iff.mp hopen
      refine ⟨state, ?_, hknown state (h.keyed id state hstate) (h.opened id state hstate)⟩
      rw [records, hstate, List.filter_eq_nil_iff.mpr]
      · rfl
      · intro other hother heq
        exact h.apart id hopen (List.mem_map.mpr ⟨other, hother, of_decide_eq_true heq⟩)
    · obtain ⟨state, hmem, rfl⟩ := List.mem_map.mp hdone
      refine ⟨state, ?_, hknown state rfl (h.resolved state hmem)⟩
      have hnone : book.opened.get? state.order.buyInId = none :=
        OrderedDict.get?_eq_none_iff.mpr fun hopen => h.apart _ hopen hdone
      rw [records, hnone, filter_eq_singleton_of_nodup h.once hmem]
      rfl
  timely id order after hfirst hopen := by
    obtain ⟨state, hstate⟩ := OrderedDict.mem_keys_iff.mp hopen
    obtain ⟨helapsed, hle⟩ := h.aged id state hstate order after hfirst
    rwa [← helapsed]

/-- Presenting triggers again changes nothing, and every state accounts for the calls
made, as long as no call opens a buy-in that has been resolved. -/
theorem replayed_triggers_change_nothing (resolutionSessions : ℕ)
    (calls replayed : List BuyInCall) (hreplays : Replays [] calls replayed)
    (hfresh : NoReopen resolutionSessions empty replayed) :
    empty.run resolutionSessions calls = empty.run resolutionSessions replayed ∧
      ∀ made rest book, made ++ rest = calls ∨ made ++ rest = replayed →
        empty.run resolutionSessions made = .ok book →
        Accounted resolutionSessions made book := by
  obtain ⟨hrun, hbase⟩ := run_eq_of_replays hreplays (inv_empty resolutionSessions) nofun hfresh
  refine ⟨hrun, fun made rest book heq hbook => ?_⟩
  rcases heq with rfl | rfl
  · exact (Inv.run (inv_empty resolutionSessions) hbase hbook).accounted
  · exact (Inv.run (inv_empty resolutionSessions) hfresh hbook).accounted

/-- A recall of a hundred shares. -/
def heldShares : BuyInRequest where
  buyInId := "B1"
  symbol := "AAA"
  triggeredSession := .date 2024 1 3
  scheduledSession := .date 2024 1 4
  quantity := 100
  trigger := "recalled"

theorem not_reopens_of_nil (h : book.resolvedIds = []) : ¬ book.Reopens call := by
  rintro ⟨order, -, hmem⟩
  rw [h] at hmem
  cases hmem

theorem recall_replayed_while_open :
    empty.run 1 [.schedule heldShares, .applyFill "B1" 60 "F1"] =
        empty.run 1 [.schedule heldShares, .schedule heldShares, .applyFill "B1" 60 "F1"] ∧
      ∀ made rest book, made ++ rest = [.schedule heldShares, .applyFill "B1" 60 "F1"] ∨
        made ++ rest = [.schedule heldShares, .schedule heldShares, .applyFill "B1" 60 "F1"] →
        empty.run 1 made = .ok book → Accounted 1 made book := by
  apply replayed_triggers_change_nothing
  · exact .call (.again List.mem_cons_self (.call .done))
  · exact ⟨not_reopens_of_nil rfl, not_reopens_of_nil (by decide),
      not_reopens_of_nil (by decide), trivial⟩

theorem recall_opened_again :
    ¬ ∀ (resolutionSessions : ℕ) (calls replayed : List BuyInCall), Replays [] calls replayed →
      (empty.run resolutionSessions calls).toOption.map (·.opened.keys) =
        (empty.run resolutionSessions replayed).toOption.map (·.opened.keys) := by
  intro hsame
  have h := hsame 1 [.schedule heldShares, .applyFill "B1" 100 "F1"]
    [.schedule heldShares, .applyFill "B1" 100 "F1", .schedule heldShares]
    (.call (.call (.again (by decide) .done)))
  revert h
  decide +kernel

end ForcedBuyInBook

end Capacity
