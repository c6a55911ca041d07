import SignalFoundry.Foundry.Trading.Replay

/-!
# The replayed strategy is the live strategy

The queue of the replay holds the closes of the last consecutive minutes of one date, and
the running sum is their sum. A position is proposed exactly on the windows the live
engine accepts, and it is the live target there.
-/

namespace Foundry

namespace Trading

open Fallible Runs

section Replay

variable [NewYork]

/-! ## The live decision -/

/-- The bars of the live window: as many as the plan asks for right before a bar, at
consecutive minutes up to it and of its date. -/
structure LiveWindow (plan : Plan) (before : List Bar) (bar : Bar) (recent : List Bar) : Prop where
  preceding : recent <:+ before
  length : recent.length = plan.window
  consecutive : (recent ++ [bar]).IsChain fun a b => b.at - a.at = minute
  sameDate : ∀ b ∈ recent, NewYork.date b.at = NewYork.date bar.at

/-- `Engine.cycle`, from the bars it has read to the target. -/
def cycleTarget (plan : Plan) (candidate : Candidate) (now opening closing : Instant)
    (bars : List Bar) : Except FoundryError ℤ := do
  let finish := now - now % minute
  let localDay := NewYork.date now
  refuseIf ((∃ b ∈ bars, b.at < opening) ∨ closing ≤ now)
    ⟨"feature_session", "Feature window crosses the regular-session boundary.", 409⟩
  refuseIf (bars.length ≠ plan.window ∨ bars.getLast?.any (fun b => b.at + minute ≠ finish) ∨
      ∃ b ∈ bars, NewYork.date b.at ≠ localDay)
    ⟨"feature_freshness", "A complete current-session causal feature window is unavailable.", 409⟩
  refuseIf (¬ bars.IsChain fun a b => b.at - a.at = minute)
    ⟨"feature_gap", "A missing minute blocks the decision.", 409⟩
  target (bars.map (·.close)) candidate plan.thresholdBps

theorem contiguous_eq_true_iff {a b : Bar} :
    contiguous a b = true ↔ b.at - a.at = minute ∧ NewYork.date b.at = NewYork.date a.at := by
  simp [contiguous]

theorem isChain_contiguous_iff {recent : List Bar} {bar : Bar} :
    ((recent ++ [bar]).IsChain fun a b => contiguous a b) ↔
      ((recent ++ [bar]).IsChain fun a b => b.at - a.at = minute) ∧
        ∀ b ∈ recent, NewYork.date b.at = NewYork.date bar.at := by
  induction recent with
  | nil => simp
  | cons first recent ih =>
      cases recent with
      | nil =>
          have hdate : NewYork.date bar.at = NewYork.date first.at ↔
              NewYork.date first.at = NewYork.date bar.at := eq_comm
          simp [contiguous_eq_true_iff, hdate]
      | cons second recent =>
          rw [List.cons_append, List.cons_append, List.isChain_cons_cons, List.isChain_cons_cons,
            ← List.cons_append, ih, contiguous_eq_true_iff, List.forall_mem_cons (a := first),
            List.forall_mem_cons]
          constructor
          · rintro ⟨⟨hminute, hdate⟩, hchain, hsecond, hrest⟩
            exact ⟨⟨hminute, hchain⟩, hdate.symm.trans hsecond, hsecond, hrest⟩
          · rintro ⟨⟨hminute, hchain⟩, hfirst, hsecond, hrest⟩
            exact ⟨⟨hminute, hsecond.trans hfirst.symm⟩, hchain, hsecond, hrest⟩

/-- Nothing of the bar but its time decides which windows are live before it. -/
theorem LiveWindow.congr_at {plan : Plan} {before recent : List Bar} {bar other : Bar}
    (h : LiveWindow plan before bar recent) (hat : other.at = bar.at) :
    LiveWindow plan before other recent := by
  refine ⟨h.preceding, h.length, ?_, ?_⟩
  · rw [List.isChain_append]
    refine ⟨(List.isChain_append.mp h.consecutive).1, by simp, ?_⟩
    intro last hlast next hnext
    cases hnext
    rw [hat]
    exact (List.isChain_append.mp h.consecutive).2.2 last hlast bar rfl
  · intro b hb
    rw [hat]
    exact h.sameDate b hb

omit [NewYork] in
/-- Positive prices have a target, the decision on their mean. -/
theorem target_closes {bars : List Bar} (h : 2 ≤ bars.length) (candidate : Candidate)
    (thresholdBps : ℕ) :
    target (bars.map (·.close)) candidate thresholdBps =
      .ok (decision ((bars.map (·.close)).getLastD 0)
        ((bars.map (·.close)).sum / bars.length) candidate thresholdBps) := by
  have hprices : ¬ ((bars.map (·.close)).length < 2 ∨ ∃ p ∈ bars.map (·.close), p ≤ 0) := by
    rw [List.length_map]
    rintro (hlength | ⟨p, hp, hle⟩)
    · omega
    · obtain ⟨bar, -, rfl⟩ := List.mem_map.mp hp
      exact absurd bar.close_pos (not_lt.mpr hle)
  rw [target, refuseIf_of_not hprices, List.length_map]
  rfl

namespace Replay

variable {plan : Plan} {candidate : Candidate} {fee : ℚ} {s : Replay} {bar : Bar}
  {bars before : List Bar}

/-! ## One turn of the loop -/

@[simp] theorem previous_step : (step plan candidate fee s bar).previous = some bar := rfl

@[simp] theorem position_step :
    (step plan candidate fee s bar).position = (s.enter fee bar).proposed plan candidate := rfl

theorem window_step : (step plan candidate fee s bar).window =
    appendBounded plan.window (s.enter fee bar).window bar.close := rfl

theorem window_enter : (s.enter fee bar).window = if s.follows bar then s.window else [] := by
  rw [enter]
  split <;> rfl

theorem rollingSum_enter :
    (s.enter fee bar).rollingSum = if s.follows bar then s.rollingSum else 0 := by
  rw [enter]
  split <;> rfl

theorem rollingSum_step : (step plan candidate fee s bar).rollingSum =
    (if (s.enter fee bar).window.length = plan.window then
      (s.enter fee bar).rollingSum - (s.enter fee bar).window.headD 0
    else (s.enter fee bar).rollingSum) + bar.close := rfl

theorem run_concat (bars : List Bar) (bar : Bar) : run plan candidate fee (bars ++ [bar]) =
    step plan candidate fee (run plan candidate fee bars) bar := by
  rw [run, run, List.foldl_append]
  rfl

theorem previous_run (bars : List Bar) :
    (run plan candidate fee bars).previous = bars.getLast? := by
  induction bars using List.reverseRecOn with
  | nil => rfl
  | append_singleton bars bar _ => rw [run_concat, previous_step, List.getLast?_concat]

theorem follows_run_iff : (run plan candidate fee bars).follows bar = true ↔
    ∃ last ∈ bars.getLast?, contiguous last bar = true := by
  rw [follows, previous_run, Option.any_eq_true]
  rfl

theorem breaks_of_not_follows (h : ¬ (run plan candidate fee bars).follows bar = true) :
    Breaks contiguous bars bar := by
  intro last hlast
  rw [← Bool.not_eq_true]
  intro hcontiguous
  exact h (follows_run_iff.mpr ⟨last, hlast, hcontiguous⟩)

/-! ## The window -/

/-- The running sum is the sum of the window. -/
structure Summed (plan : Plan) (s : Replay) : Prop where
  rollingSum : s.rollingSum = s.window.sum
  length_le : s.window.length ≤ plan.window

theorem Summed.enter (h : Summed plan s) : Summed plan (s.enter fee bar) := by
  constructor
  · rw [rollingSum_enter, window_enter]
    split
    · exact h.rollingSum
    · rfl
  · rw [window_enter]
    split
    · exact h.length_le
    · exact Nat.zero_le _

theorem Summed.step (h : Summed plan s) (candidate : Candidate) (fee : ℚ) (bar : Bar) :
    Summed plan (step plan candidate fee s bar) := by
  have hentered : Summed plan (s.enter fee bar) := h.enter
  have htwo := plan.two_le_window
  constructor
  · rw [rollingSum_step, window_step, sum_appendBounded _ (by omega) hentered.length_le,
      hentered.rollingSum]
  · rw [window_step, appendBounded, length_rtake]
    exact Nat.min_le_left _ _

theorem summed_run (plan : Plan) (candidate : Candidate) (fee : ℚ) (bars : List Bar) :
    Summed plan (run plan candidate fee bars) := by
  induction bars using List.reverseRecOn with
  | nil => exact ⟨rfl, Nat.zero_le _⟩
  | append_singleton bars bar ih =>
      rw [run_concat]
      exact ih.step candidate fee bar

/-- The window holds the last closes of the run of minutes that the bars end in. -/
theorem window_run (plan : Plan) (candidate : Candidate) (fee : ℚ) (bars : List Bar) :
    (run plan candidate fee bars).window =
      ((lastRun contiguous bars).map (·.close)).rtake plan.window := by
  induction bars using List.reverseRecOn with
  | nil => simp [run, start]
  | append_singleton bars bar ih =>
      rw [run_concat, window_step, window_enter]
      split
      case isTrue hfollows =>
        obtain ⟨last, hlast, hcontiguous⟩ := follows_run_iff.mp hfollows
        rw [ih, appendBounded_rtake, lastRun_concat_of_follows hlast hcontiguous, List.map_append]
        rfl
      case isFalse hgap =>
        rw [lastRun_concat_of_breaks (breaks_of_not_follows hgap), appendBounded]
        rfl

/-! ## The proposed position -/

theorem length_rtake_of_length_window
    (hfull : (run plan candidate fee before).window.length = plan.window) :
    ((lastRun contiguous before).rtake plan.window).length = plan.window := by
  rw [window_run, length_rtake, List.length_map] at hfull
  rw [length_rtake, hfull]

/-- The end of the last run, when the bar follows it and it is long enough. -/
theorem liveWindow_of_follows (hfollows : (run plan candidate fee before).follows bar = true)
    (hfull : (run plan candidate fee before).window.length = plan.window) :
    LiveWindow plan before bar ((lastRun contiguous before).rtake plan.window) := by
  obtain ⟨last, hlast, hcontiguous⟩ := follows_run_iff.mp hfollows
  have hsuffix : (lastRun contiguous before).rtake plan.window <:+ lastRun contiguous before :=
    List.drop_suffix _ _
  have hrun : (lastRun contiguous before ++ [bar]).IsChain fun a b => contiguous a b := by
    rw [← lastRun_concat_of_follows hlast hcontiguous]
    exact isChain_lastRun
  obtain ⟨front, hfront⟩ := hsuffix
  have hchain : ((lastRun contiguous before).rtake plan.window ++ [bar]).IsChain
      fun a b => contiguous a b := by
    rw [← hfront, List.append_assoc] at hrun
    exact (List.isChain_append.mp hrun).2.1
  obtain ⟨hminutes, hdates⟩ := isChain_contiguous_iff.mp hchain
  exact ⟨List.IsSuffix.trans ⟨front, hfront⟩ lastRun_isSuffix,
    length_rtake_of_length_window hfull, hminutes, hdates⟩

/-- A live window before a bar is what the queue holds when the bar comes. -/
theorem window_enter_of_live {recent : List Bar} (h : LiveWindow plan before bar recent) :
    ((run plan candidate fee before).enter fee bar).window = recent.map (·.close) := by
  have hchain := isChain_contiguous_iff.mpr ⟨h.consecutive, h.sameDate⟩
  have hrecent : recent.IsChain fun a b => contiguous a b := (List.isChain_append.mp hchain).1
  have htwo := plan.two_le_window
  have hne : recent ≠ [] := by
    rintro rfl
    have hlength := h.length
    simp only [List.length_nil] at hlength
    omega
  have hfollows : (run plan candidate fee before).follows bar = true := by
    rw [follows_run_iff]
    refine ⟨recent.getLast hne, ?_, ?_⟩
    · obtain ⟨front, rfl⟩ := h.preceding
      rw [List.getLast?_append_of_ne_nil _ hne]
      exact List.getLast?_eq_some_getLast hne
    · exact (List.isChain_append.mp hchain).2.2 _ (List.getLast?_eq_some_getLast hne) bar rfl
  have hlast : (lastRun contiguous before).rtake plan.window = recent := by
    rw [← h.length]
    exact rtake_length_of_isSuffix (isSuffix_lastRun h.preceding hrecent)
  rw [window_enter, if_pos hfollows, window_run, List.rtake, List.length_map, ← List.map_drop]
  exact congrArg _ hlast

theorem proposed_of_live (candidate : Candidate) (fee : ℚ) {recent : List Bar}
    (h : LiveWindow plan before bar recent) :
    target (recent.map (·.close)) candidate plan.thresholdBps =
      .ok (((run plan candidate fee before).enter fee bar).proposed plan candidate) := by
  have hwindow : ((run plan candidate fee before).enter fee bar).window = recent.map (·.close) :=
    window_enter_of_live h
  have hsum : Summed plan ((run plan candidate fee before).enter fee bar) :=
    (summed_run plan candidate fee before).enter
  have htwo : 2 ≤ recent.length := h.length ▸ plan.two_le_window
  rw [target_closes htwo, proposed, if_pos (by rw [hwindow, List.length_map, h.length]),
    hsum.rollingSum, hwindow, h.length]

theorem proposed_of_not_live (h : ¬ ∃ recent, LiveWindow plan before bar recent) :
    ((run plan candidate fee before).enter fee bar).proposed plan candidate = 0 := by
  have htwo := plan.two_le_window
  rw [proposed, if_neg]
  intro hfull
  rw [window_enter] at hfull
  split at hfull
  case isTrue hfollows => exact h ⟨_, liveWindow_of_follows hfollows hfull⟩
  case isFalse hgap =>
    rw [List.length_nil] at hfull
    omega

theorem getElem?_proposals (before after : List Bar) (bar : Bar) :
    (proposals plan candidate fee (before ++ bar :: after))[before.length]? =
      some (((run plan candidate fee before).enter fee bar).proposed plan candidate) := by
  have htake : (before ++ bar :: after).take (before.length + 1) = before ++ [bar] := by
    rw [List.take_append, List.take_of_length_le (Nat.le_succ _)]
    simp
  rw [proposals, List.getElem?_map, List.getElem?_tail, List.getElem?_scanl, if_pos (by simp),
    htake, Option.map_some]
  exact congrArg (fun s => some s.position) (run_concat before bar)

/-- The engine accepts a fetched window only if it is live for the minute it decides in. -/
theorem liveWindow_of_cycleTarget {now opening closing : Instant} {recent : List Bar} {answer : ℤ}
    (hpreceding : recent <:+ before) (hat : bar.at = now - now % minute)
    (hdate : NewYork.date bar.at = NewYork.date now)
    (h : cycleTarget plan candidate now opening closing recent = .ok answer) :
    LiveWindow plan before bar recent ∧
      target (recent.map (·.close)) candidate plan.thresholdBps = .ok answer := by
  simp only [cycleTarget, bind_eq_ok_iff, refuseIf_eq_ok_iff] at h
  obtain ⟨-, -, -, hfresh, -, hgap, htarget⟩ := h
  push Not at hfresh hgap
  obtain ⟨hlength, hlast, hdates⟩ := hfresh
  refine ⟨⟨hpreceding, hlength, ?_, fun b hb => (hdates b hb).trans hdate.symm⟩, htarget⟩
  rw [List.isChain_append]
  refine ⟨hgap, by simp, ?_⟩
  intro last hmem next hnext
  cases hnext
  rw [Option.mem_def] at hmem
  have hfinish : last.at + minute = now - now % minute := by simpa [hmem] using hlast
  rw [hat, ← hfinish, add_sub_cancel_left]

/-- The position proposed at a bar is the live target of its live window and zero without
one, whatever the prices of that bar are and whatever bars come after it. -/
theorem proposals_eq_target (plan : Plan) (candidate : Candidate) (costBps : ℤ)
    (before after : List Bar) (bar : Bar) :
    (∀ recent, LiveWindow plan before bar recent → ∃ proposed,
      (proposals plan candidate (feeOf costBps) (before ++ bar :: after))[before.length]? =
          some proposed ∧
        target (recent.map (·.close)) candidate plan.thresholdBps = .ok proposed) ∧
    ((¬ ∃ recent, LiveWindow plan before bar recent) →
      (proposals plan candidate (feeOf costBps) (before ++ bar :: after))[before.length]? = some 0) ∧
    (∀ (other : Bar) (later : List Bar), other.at = bar.at →
      (proposals plan candidate (feeOf costBps) (before ++ other :: later))[before.length]? =
        (proposals plan candidate (feeOf costBps) (before ++ bar :: after))[before.length]?) ∧
    (run plan candidate (feeOf costBps) before).rollingSum =
      (run plan candidate (feeOf costBps) before).window.sum := by
  refine ⟨?_, ?_, ?_, (summed_run plan candidate (feeOf costBps) before).rollingSum⟩
  · intro recent h
    exact ⟨_, getElem?_proposals before after bar, proposed_of_live candidate (feeOf costBps) h⟩
  · intro h
    rw [getElem?_proposals, proposed_of_not_live h]
  · intro other later hat
    rw [getElem?_proposals, getElem?_proposals]
    by_cases h : ∃ recent, LiveWindow plan before bar recent
    · obtain ⟨recent, hrecent⟩ := h
      have hsame := (proposed_of_live candidate (feeOf costBps) (hrecent.congr_at hat)).symm.trans
        (proposed_of_live candidate (feeOf costBps) hrecent)
      exact congrArg some (Except.ok.inj hsame)
    · rw [proposed_of_not_live h, proposed_of_not_live]
      rintro ⟨recent, hrecent⟩
      exact h ⟨recent, hrecent.congr_at hat.symm⟩

end Replay

end Replay

namespace Sample

/-- All instants are of one date. -/
scoped instance oneDate : NewYork := ⟨fun _ => "2026-03-02"⟩

def bar (i : ℕ) : Bar := ⟨i * minute, 100 + i, 100 + i, by positivity, by positivity⟩

def plan : Plan := ⟨2, 10, by decide, by decide, by decide⟩

end Sample

end Trading

end Foundry
