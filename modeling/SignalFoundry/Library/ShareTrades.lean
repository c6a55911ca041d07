import Mathlib.Algebra.BigOperators.Group.List.Basic
import Mathlib.Algebra.Ring.Int.Defs
import Mathlib.Algebra.Order.Group.Int
import Mathlib.Data.Int.Cast.Lemmas
import Mathlib.Tactic.Ring

/-!
# Trades in whole shares

A trade moves a whole number of shares at a price, buying where the number is positive.
The cash of a list of trades, from no cash at all, is what they return less a cost at a
fixed rate of the value they turn over.
-/

universe u

/-- Shares bought, or sold where negative, at a price. -/
structure ShareTrade (F : Type u) where
  shares : ℤ
  price : F
  deriving DecidableEq

namespace ShareTrade

variable {F : Type u} [CommRing F]

/-- What the trades return before costs. -/
def proceeds (trades : List (ShareTrade F)) : F :=
  (trades.map fun trade => -((trade.shares : F) * trade.price)).sum

/-- The value that the trades move. -/
def turnover (trades : List (ShareTrade F)) : F :=
  (trades.map fun trade => ((|trade.shares| : ℤ) : F) * trade.price).sum

/-- The final cash, from zero, when every trade costs a rate of its value. -/
def cash (rate : F) (trades : List (ShareTrade F)) : F :=
  (trades.map fun trade =>
    -((trade.shares : F) * trade.price) - rate * (((|trade.shares| : ℤ) : F) * trade.price)).sum

/-- The trade from one position to another, none when they agree. -/
def rebalance (held wanted : ℤ) (price : F) : List (ShareTrade F) :=
  if wanted = held then [] else [⟨wanted - held, price⟩]

@[simp] theorem proceeds_nil : proceeds ([] : List (ShareTrade F)) = 0 := rfl

@[simp] theorem turnover_nil : turnover ([] : List (ShareTrade F)) = 0 := rfl

@[simp] theorem cash_nil (rate : F) : cash rate [] = 0 := rfl

@[simp] theorem proceeds_append (first second : List (ShareTrade F)) :
    proceeds (first ++ second) = proceeds first + proceeds second := by
  simp [proceeds]

@[simp] theorem turnover_append (first second : List (ShareTrade F)) :
    turnover (first ++ second) = turnover first + turnover second := by
  simp [turnover]

@[simp] theorem cash_append (rate : F) (first second : List (ShareTrade F)) :
    cash rate (first ++ second) = cash rate first + cash rate second := by
  simp [cash]

/-- Cash is what the trades return less the rate of what they turn over. -/
theorem cash_eq (rate : F) (trades : List (ShareTrade F)) :
    cash rate trades = proceeds trades - rate * turnover trades := by
  induction trades with
  | nil => simp
  | cons trade trades ih =>
      simp only [cash, proceeds, turnover, List.map_cons, List.sum_cons] at ih ⊢
      rw [ih]
      ring

@[simp] theorem proceeds_rebalance (held wanted : ℤ) (price : F) :
    proceeds (rebalance held wanted price) = ((held : F) - wanted) * price := by
  rw [rebalance]
  split
  case isTrue h => simp [h]
  case isFalse => simp [proceeds]; ring

@[simp] theorem turnover_rebalance (held wanted : ℤ) (price : F) :
    turnover (rebalance held wanted price) = ((|wanted - held| : ℤ) : F) * price := by
  rw [rebalance]
  split
  case isTrue h => simp [h]
  case isFalse => simp [turnover]

omit [CommRing F] in
/-- Between no share and one, every trade is of one share. -/
theorem natAbs_shares_of_mem_rebalance {held wanted : ℤ} {price : F} {trade : ShareTrade F}
    (hheld : held = 0 ∨ held = 1) (hwanted : wanted = 0 ∨ wanted = 1)
    (h : trade ∈ rebalance held wanted price) : trade.shares.natAbs = 1 := by
  rw [rebalance] at h
  split at h
  case isTrue => simp at h
  case isFalse hne =>
    rw [List.mem_singleton.mp h]
    rcases hheld with rfl | rfl <;> rcases hwanted with rfl | rfl <;> simp_all

end ShareTrade
