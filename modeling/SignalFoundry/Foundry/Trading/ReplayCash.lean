import SignalFoundry.Foundry.Trading.ReplayStrategy
import SignalFoundry.Library.ShareTrades
import Mathlib.Tactic.Linarith
import Mathlib.Tactic.LinearCombination

/-!
# The cash of the replay

The rows of the replay add up to the cash of trading its positions. Gains are booked
against the last close, so what has been booked before a bar exceeds the cash of the
trades so far by the value of the position at that close.
-/

namespace Foundry

namespace Trading

open Runs ShareTrade

section Replay

variable [NewYork]

/-! ## The implied trades -/

/-- The trades that hold the position proposed at every bar: at the open of a bar on a
change, at the last close before a gap, and at the last close of all. -/
def impliedTrades (previous : Option Bar) (held : ℤ) : List (Bar × ℤ) → List (ShareTrade ℚ)
  | [] => previous.elim [] fun last => rebalance held 0 last.close
  | (bar, proposed) :: rest =>
      (if previous.any (contiguous · bar) then rebalance held proposed bar.open
        else (previous.elim [] fun last => rebalance held 0 last.close) ++
          rebalance 0 proposed bar.open) ++
        impliedTrades (some bar) proposed rest

/-- One share bought at the open and sold at the close of a run. -/
def holdRun (bars : List Bar) : List (ShareTrade ℚ) :=
  (bars.head?.elim [] fun first => [⟨1, first.open⟩]) ++
    (bars.getLast?.elim [] fun last => [⟨-1, last.close⟩])

namespace Replay

variable {plan : Plan} {candidate : Candidate} {fee : ℚ} {s : Replay} {bar : Bar}
  {bars : List Bar}

/-- The row of all days. -/
def total (s : Replay) : Row := s.days.values.sum

/-- No share or one, and none before the first bar. -/
structure OneShare (s : Replay) : Prop where
  position : s.position = 0 ∨ s.position = 1
  initial : s.previous = none → s.position = 0

omit [NewYork] in
theorem decision_eq_zero_or_one (last mean : ℚ) (candidate : Candidate) (threshold : ℕ) :
    decision last mean candidate threshold = 0 ∨ decision last mean candidate threshold = 1 := by
  cases candidate <;> simp only [decision] <;> split <;> simp

omit [NewYork] in
theorem proposed_eq_zero_or_one (s : Replay) (plan : Plan) (candidate : Candidate) :
    s.proposed plan candidate = 0 ∨ s.proposed plan candidate = 1 := by
  rw [proposed]
  split
  · exact decision_eq_zero_or_one _ _ _ _
  · exact Or.inl rfl

omit [NewYork] in
theorem oneShare_start : OneShare start := ⟨Or.inl rfl, fun _ => rfl⟩

theorem oneShare_step (s : Replay) (bar : Bar) : OneShare (step plan candidate fee s bar) := by
  refine ⟨?_, fun h => ?_⟩
  · rw [position_step]
    exact proposed_eq_zero_or_one _ _ _
  · cases h

/-! ## Totals of one turn -/

/-- The last close, zero before the first bar. -/
def lastClose (s : Replay) : ℚ := s.previous.elim 0 (·.close)

theorem total_exitDays (h : OneShare s) (fee : ℚ) (days : OrderedDict String Row) :
    (s.exitDays fee days).values.sum = days.values.sum +
      { cost := s.position * s.lastClose * fee, turnover := s.position * s.lastClose } := by
  rw [exitDays]
  split
  case h_1 previous hprevious =>
    rcases h.position with hposition | hposition
    · ext <;> simp [hposition]
    · ext <;> simp [hposition, lastClose, hprevious]
  case h_2 hprevious => ext <;> simp [h.initial hprevious]

theorem total_enter (h : OneShare s) (fee : ℚ) (bar : Bar) : (s.enter fee bar).total = s.total +
    if s.follows bar then { gross := s.position * (bar.open - s.lastClose) }
    else { cost := s.position * s.lastClose * fee, turnover := s.position * s.lastClose } := by
  rw [enter, total]
  split
  case isTrue => simp [total, lastClose]
  case isFalse => simp [total, total_exitDays h]

theorem previous_enter (s : Replay) (fee : ℚ) (bar : Bar) :
    (s.enter fee bar).previous = s.previous := by
  rw [enter]
  split <;> rfl

theorem position_enter (s : Replay) (fee : ℚ) (bar : Bar) :
    (s.enter fee bar).position = if s.follows bar then s.position else 0 := by
  rw [enter]
  split <;> rfl

/-- What a bar adds to the baseline. -/
def baselineGain (s : Replay) (fee : ℚ) (bar : Bar) : ℚ :=
  bar.close - bar.open + if s.follows bar then bar.open - s.lastClose
    else -(bar.open * fee) - s.lastClose * fee

theorem total_baselineDays (s : Replay) (fee : ℚ) (bar : Bar) (days : OrderedDict String Row) :
    ((s.enter fee bar).baselineDays fee bar (s.follows bar) days).values.sum =
      days.values.sum + { baseline := s.baselineGain fee bar } := by
  unfold baselineDays
  rw [previous_enter, baselineGain, lastClose]
  cases hprevious : s.previous with
  | none =>
      have hfollows : s.follows bar = false := by rw [follows, hprevious, Option.any_none]
      rw [hfollows]
      ext <;> simp
      ring
  | some previous =>
      cases s.follows bar
      · ext <;> simp
        ring
      · ext <;> simp
        ring

theorem total_step (s : Replay) (bar : Bar) : (step plan candidate fee s bar).total =
    (s.enter fee bar).total +
      { gross := (s.enter fee bar).proposed plan candidate * (bar.close - bar.open)
        cost := |((s.enter fee bar).proposed plan candidate : ℚ) -
          (s.enter fee bar).position| * bar.open * fee
        turnover := |((s.enter fee bar).proposed plan candidate : ℚ) -
          (s.enter fee bar).position| * bar.open
        bars := 1
        baseline := s.baselineGain fee bar } := by
  simp only [step, book, observe, total, OrderedDict.sum_values_addTo, total_baselineDays]
  ext <;> simp

/-- The trades of one bar. -/
def tradesAt (s : Replay) (bar : Bar) (proposed : ℤ) : List (ShareTrade ℚ) :=
  if s.follows bar then rebalance s.position proposed bar.open
  else (s.previous.elim [] fun last => rebalance s.position 0 last.close) ++
    rebalance 0 proposed bar.open

omit [NewYork] in
theorem proceeds_exit (s : Replay) :
    proceeds (s.previous.elim [] fun last => rebalance s.position 0 last.close) =
      s.position * s.lastClose := by
  rw [lastClose]
  cases hprevious : s.previous with
  | none => simp
  | some last => simp

omit [NewYork] in
theorem turnover_exit (h : OneShare s) :
    turnover (s.previous.elim [] fun last => rebalance s.position 0 last.close) =
      s.position * s.lastClose := by
  rw [lastClose]
  cases hprevious : s.previous with
  | none => simp
  | some last => rcases h.position with hposition | hposition <;> simp [hposition]

/-- The value of the position at the last close. -/
def marked (s : Replay) : ℚ := s.position * s.lastClose

/-- What has been booked before costs is the value held and what the trades returned. -/
theorem gross_step (h : OneShare s) (bar : Bar) :
    (step plan candidate fee s bar).total.gross - (step plan candidate fee s bar).marked =
      s.total.gross - s.marked +
        proceeds (s.tradesAt bar (step plan candidate fee s bar).position) := by
  rw [total_step, total_enter h, tradesAt, position_step, marked, marked, position_step]
  split
  case isTrue hfollows =>
    simp [lastClose]
    ring
  case isFalse hgap =>
    simp [lastClose, proceeds_exit]
    ring

theorem turnover_step (h : OneShare s) (bar : Bar) :
    (step plan candidate fee s bar).total.turnover = s.total.turnover +
      turnover (s.tradesAt bar (step plan candidate fee s bar).position) := by
  rw [total_step, total_enter h, tradesAt, position_step, position_enter]
  split
  case isTrue hfollows => simp
  case isFalse hgap => simp [turnover_exit h]; ring

/-- Costs are booked with the turnover they are for. -/
theorem cost_step (h : OneShare s) (hcost : s.total.cost = fee * s.total.turnover) (bar : Bar) :
    (step plan candidate fee s bar).total.cost =
      fee * (step plan candidate fee s bar).total.turnover := by
  rw [total_step, total_enter h]
  split <;> simp [hcost] <;> ring

/-! ## Totals of a run -/

/-- The positions proposed from a state on. -/
def proposalsFrom (plan : Plan) (candidate : Candidate) (fee : ℚ) (s : Replay) (bars : List Bar) :
    List ℤ :=
  (bars.scanl (step plan candidate fee) s).tail.map (·.position)

theorem proposalsFrom_cons (s : Replay) (bar : Bar) (bars : List Bar) :
    proposalsFrom plan candidate fee s (bar :: bars) =
      (step plan candidate fee s bar).position ::
        proposalsFrom plan candidate fee (step plan candidate fee s bar) bars := by
  rw [proposalsFrom, List.scanl_cons, List.tail_cons]
  cases bars with
  | nil => simp [proposalsFrom]
  | cons next bars => rw [proposalsFrom, List.scanl_cons, List.map_cons, List.tail_cons]

theorem impliedTrades_cons (s : Replay) (bar : Bar) (proposed : ℤ) (rest : List (Bar × ℤ)) :
    impliedTrades s.previous s.position ((bar, proposed) :: rest) =
      s.tradesAt bar proposed ++ impliedTrades (some bar) proposed rest := rfl

/-- The gains booked are what all trades return, the final sale included. -/
theorem gross_foldl (h : OneShare s) (bars : List Bar) :
    (bars.foldl (step plan candidate fee) s).total.gross = s.total.gross - s.marked +
      proceeds (impliedTrades s.previous s.position
        (bars.zip (proposalsFrom plan candidate fee s bars))) := by
  induction bars generalizing s with
  | nil =>
      rw [List.foldl_nil, List.zip_nil_left, impliedTrades, proceeds_exit, marked, sub_add_cancel]
  | cons bar bars ih =>
      rw [List.foldl_cons, ih (oneShare_step s bar), gross_step h, proposalsFrom_cons,
        List.zip_cons_cons, impliedTrades_cons, proceeds_append, previous_step, add_assoc]

theorem turnover_foldl (h : OneShare s) (bars : List Bar) :
    (bars.foldl (step plan candidate fee) s).total.turnover +
        (bars.foldl (step plan candidate fee) s).marked =
      s.total.turnover + turnover (impliedTrades s.previous s.position
        (bars.zip (proposalsFrom plan candidate fee s bars))) := by
  induction bars generalizing s with
  | nil => rw [List.foldl_nil, List.zip_nil_left, impliedTrades, turnover_exit h, marked]
  | cons bar bars ih =>
      rw [List.foldl_cons, ih (oneShare_step s bar), turnover_step h, proposalsFrom_cons,
        List.zip_cons_cons, impliedTrades_cons, turnover_append, previous_step, add_assoc]

theorem natAbs_shares_of_mem_impliedTrades (h : OneShare s) (bars : List Bar) :
    ∀ trade ∈ impliedTrades s.previous s.position
      (bars.zip (proposalsFrom plan candidate fee s bars)), trade.shares.natAbs = 1 := by
  have hexit : ∀ {s : Replay}, OneShare s → ∀ trade ∈ s.previous.elim []
      fun last => rebalance s.position 0 last.close, trade.shares.natAbs = 1 := by
    intro s h trade htrade
    cases hprevious : s.previous with
    | none => simp [hprevious] at htrade
    | some last =>
        rw [hprevious] at htrade
        exact natAbs_shares_of_mem_rebalance h.position (Or.inl rfl) htrade
  induction bars generalizing s with
  | nil => exact hexit h
  | cons bar bars ih =>
      rw [proposalsFrom_cons, List.zip_cons_cons, impliedTrades_cons]
      have hproposed : (step plan candidate fee s bar).position = 0 ∨
          (step plan candidate fee s bar).position = 1 := (oneShare_step s bar).position
      intro trade htrade
      rcases List.mem_append.mp htrade with htrade | htrade
      · rw [tradesAt] at htrade
        split at htrade
        case isTrue => exact natAbs_shares_of_mem_rebalance h.position hproposed htrade
        case isFalse =>
          rcases List.mem_append.mp htrade with htrade | htrade
          · exact hexit h trade htrade
          · exact natAbs_shares_of_mem_rebalance (Or.inl rfl) hproposed htrade
      · exact ih (oneShare_step s bar) trade htrade

theorem oneShare_run (plan : Plan) (candidate : Candidate) (fee : ℚ) (bars : List Bar) :
    OneShare (run plan candidate fee bars) := by
  induction bars using List.reverseRecOn with
  | nil => exact oneShare_start
  | append_singleton bars bar _ =>
      rw [run_concat]
      exact oneShare_step _ bar

theorem cost_run (plan : Plan) (candidate : Candidate) (fee : ℚ) (bars : List Bar) :
    (run plan candidate fee bars).total.cost =
      fee * (run plan candidate fee bars).total.turnover := by
  induction bars using List.reverseRecOn with
  | nil => simp [run, start, total]
  | append_singleton bars bar ih =>
      rw [run_concat]
      exact cost_step (oneShare_run plan candidate fee bars) ih bar

/-! ## The baseline -/

omit [NewYork] in
theorem cash_holdRun {first last : Bar} (rate : ℚ) (hfirst : bars.head? = some first)
    (hlast : bars.getLast? = some last) : cash rate (holdRun bars) =
      last.close - first.open - rate * (first.open + last.close) := by
  rw [holdRun, hfirst, hlast]
  simp [cash]
  ring

theorem lastClose_run (bars : List Bar) :
    (run plan candidate fee bars).lastClose = bars.getLast?.elim 0 (·.close) := by
  rw [lastClose, previous_run]

/-- The baseline booked is that of the runs so far, but for the cost of the last sale. -/
theorem baseline_run (plan : Plan) (candidate : Candidate) (fee : ℚ) (bars : List Bar) :
    (run plan candidate fee bars).total.baseline - (run plan candidate fee bars).lastClose * fee =
      cash fee ((bars.splitBy contiguous).flatMap holdRun) := by
  induction bars using List.reverseRecOn with
  | nil => simp [run, start, total, lastClose]
  | append_singleton bars bar ih =>
      have hgain : (run plan candidate fee (bars ++ [bar])).total.baseline =
          (run plan candidate fee bars).total.baseline +
            (run plan candidate fee bars).baselineGain fee bar := by
        rw [run_concat, total_step, total_enter (oneShare_run plan candidate fee bars)]
        split <;> simp
      have hclose : (run plan candidate fee (bars ++ [bar])).lastClose = bar.close := by
        rw [run_concat]
        rfl
      rw [hgain, hclose, baselineGain]
      split
      case isTrue hfollows =>
        obtain ⟨last, hlast, hcontiguous⟩ := follows_run_iff.mp hfollows
        have hne : bars ≠ [] := by
          rintro rfl
          cases hlast
        obtain ⟨first, hfirst⟩ : ∃ first, (lastRun contiguous bars).head? = some first := by
          rw [← Option.isSome_iff_exists, List.isSome_head?]
          simpa using lastRun_ne_nil hne
        rw [splitBy_eq_concat_lastRun hne, List.flatMap_append, cash_append, List.flatMap_singleton,
          cash_holdRun fee hfirst (getLast?_lastRun.trans hlast)] at ih
        have hextended : (lastRun contiguous bars ++ [bar]).head? = some first := by
          simp [hfirst]
        rw [splitBy_concat_of_follows hlast hcontiguous, List.flatMap_append, cash_append,
          List.flatMap_singleton, cash_holdRun fee hextended List.getLast?_concat]
        rw [lastClose_run, hlast, Option.elim_some] at ih ⊢
        linarith
      case isFalse hgap =>
        have hsingle : cash fee (holdRun [bar]) =
            bar.close - bar.open - fee * (bar.open + bar.close) := cash_holdRun fee rfl rfl
        rw [splitBy_concat_of_breaks (breaks_of_not_follows hgap), List.flatMap_append, cash_append,
          ← ih, List.flatMap_singleton, hsingle]
        ring

theorem total_finish (s : Replay) (fee : ℚ) : (s.finish fee).values.sum = s.total +
    { cost := s.marked * fee, turnover := s.marked, baseline := -(s.lastClose * fee) } := by
  rw [finish, marked, lastClose, total]
  split
  case h_1 hprevious =>
    rw [hprevious]
    ext <;> simp
  case h_2 previous hprevious =>
    rw [hprevious]
    ext <;> simp
    ring

end Replay

open Replay in
/-- The days add up to the cash of the implied trades, their costs to the rate of the
turnover, and the baseline to one share held through every run of minutes. -/
theorem dailyPnl_cash (plan : Plan) (candidate : Candidate) (costBps : ℤ) (bars : List Bar) :
    let days := (dailyPnl bars plan candidate costBps).values
    let trades := impliedTrades none 0
      (bars.zip (proposals plan candidate (feeOf costBps) bars))
    (days.map (·.net)).sum = cash (feeOf costBps) trades ∧
      (∀ trade ∈ trades, trade.shares.natAbs = 1) ∧
      (days.map (·.turnover)).sum = turnover trades ∧
      (days.map (·.cost)).sum = feeOf costBps * (days.map (·.turnover)).sum ∧
      (days.map (·.baseline)).sum =
        cash (feeOf costBps) ((bars.splitBy contiguous).flatMap holdRun) := by
  intro days trades
  have hrow : ((run plan candidate (feeOf costBps) bars).finish (feeOf costBps)).values.sum = _ :=
    total_finish _ _
  have hgross : (run plan candidate (feeOf costBps) bars).total.gross =
      (0 : Row).gross - start.marked + proceeds trades := gross_foldl oneShare_start bars
  have hturnover : (run plan candidate (feeOf costBps) bars).total.turnover +
      (run plan candidate (feeOf costBps) bars).marked = (0 : Row).turnover + turnover trades :=
    turnover_foldl oneShare_start bars
  have hmarked : start.marked = 0 := by simp [marked, start]
  have hcost := cost_run plan candidate (feeOf costBps) bars
  have hbaseline := baseline_run plan candidate (feeOf costBps) bars
  have hcolumn : ∀ (g : NetRow → ℚ) (f : Row → ℚ),
      (∀ row : Row, g { row with net := row.gross - row.cost } = f row) → f 0 = 0 →
      (∀ a b, f (a + b) = f a + f b) → (days.map g).sum = f ((run plan candidate (feeOf costBps)
        bars).finish (feeOf costBps)).values.sum := by
    intro g f hg hzero hadd
    rw [Row.column_sum f hzero hadd]
    simp [days, dailyPnl, OrderedDict.values_mapValues, Function.comp_def, hg]
  rw [hcolumn (·.net) (fun row => row.gross - row.cost) (fun _ => rfl) (sub_self 0)
      (fun a b => add_sub_add_comm ..), hcolumn (·.turnover) (·.turnover) (fun _ => rfl) rfl
      (fun _ _ => rfl), hcolumn (·.cost) (·.cost) (fun _ => rfl) rfl (fun _ _ => rfl),
    hcolumn (·.baseline) (·.baseline) (fun _ => rfl) rfl (fun _ _ => rfl), hrow, cash_eq]
  simp only [Row.gross_add, Row.cost_add, Row.turnover_add, Row.baseline_add, Row.gross_zero,
    Row.turnover_zero, hmarked] at hgross hturnover ⊢
  refine ⟨?_, natAbs_shares_of_mem_impliedTrades oneShare_start bars, ?_, ?_, ?_⟩
  · rw [hgross, hcost]
    linear_combination (-feeOf costBps) * hturnover
  · linarith
  · rw [hcost]
    ring
  · rw [← hbaseline]
    ring

end Replay

end Trading

end Foundry
